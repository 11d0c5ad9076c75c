/-
  FinCore.Cxx.Utf8
  ────────────────
  UTF-8 texts, a byte a `Char` below 256, and how many characters they hold.

  A text never has more characters than bytes (`utf8Length_le`), and in a text
  of ASCII bytes each byte is a character (`utf8Length_ascii`).
-/
import FinCore.Cxx.Text

namespace FinCore.Cxx

/-! ## §1. The scan. -/

/-- The ranges of the bytes that must follow the first byte of a character. -/
def utf8Tail (b : ℕ) : Option (List (ℕ × ℕ)) :=
  if b ≤ 0x7F then some []
  else if 0xC2 ≤ b ∧ b ≤ 0xDF then some [(0x80, 0xBF)]
  -- no overlong form, no surrogate and nothing above U+10FFFF
  else if b = 0xE0 then some [(0xA0, 0xBF), (0x80, 0xBF)]
  else if b = 0xED then some [(0x80, 0x9F), (0x80, 0xBF)]
  else if 0xE1 ≤ b ∧ b ≤ 0xEF then some [(0x80, 0xBF), (0x80, 0xBF)]
  else if b = 0xF0 then some [(0x90, 0xBF), (0x80, 0xBF), (0x80, 0xBF)]
  else if 0xF1 ≤ b ∧ b ≤ 0xF3 then some [(0x80, 0xBF), (0x80, 0xBF), (0x80, 0xBF)]
  else if b = 0xF4 then some [(0x80, 0x8F), (0x80, 0xBF), (0x80, 0xBF)]
  else none

/-- How many characters begin in a text, when bytes of the given ranges are
still due to the character before it. -/
def utf8Scan : List (ℕ × ℕ) → Str → Option ℕ
  | [], [] => some 0
  | _ :: _, [] => none
  | [], c :: s => (utf8Tail c.toNat).bind (fun due => (utf8Scan due s).map (· + 1))
  | range :: due, c :: s =>
      if range.1 ≤ c.toNat ∧ c.toNat ≤ range.2 then utf8Scan due s else none

/-- The number of characters of a text, if it is UTF-8. -/
def utf8Length (s : Str) : Option ℕ := utf8Scan [] s

/-- The text is UTF-8. -/
def ValidUtf8 (s : Str) : Prop := (utf8Length s).isSome = true

instance (s : Str) : Decidable (ValidUtf8 s) := inferInstanceAs (Decidable (_ = true))

theorem ValidUtf8.length {s : Str} (h : ValidUtf8 s) : ∃ n, utf8Length s = some n :=
  Option.isSome_iff_exists.mp h

/-! ## §2. Characters and bytes. -/

theorem utf8Scan_le {due : List (ℕ × ℕ)} {s : Str} {n : ℕ} (h : utf8Scan due s = some n) :
    n ≤ s.length := by
  induction s generalizing due n with
  | nil =>
      cases due with
      | nil =>
          injection h with h
          omega
      | cons _ _ => cases h
  | cons c s ih =>
      cases due with
      | nil =>
          unfold utf8Scan at h
          obtain ⟨due, _, h⟩ := Option.bind_eq_some_iff.mp h
          obtain ⟨m, hm, rfl⟩ := Option.map_eq_some_iff.mp h
          have hle := ih hm
          show m + 1 ≤ s.length + 1
          omega
      | cons range due =>
          unfold utf8Scan at h
          split at h
          · have hle := ih h
            show n ≤ s.length + 1
            omega
          · cases h

/-- **No more characters than bytes.** -/
theorem utf8Length_le {s : Str} {n : ℕ} (h : utf8Length s = some n) : n ≤ s.length :=
  utf8Scan_le h

/-- **An ASCII text has a character a byte.** -/
theorem utf8Length_ascii {s : Str} (h : ∀ c ∈ s, c.toNat ≤ 0x7F) :
    utf8Length s = some s.length := by
  induction s with
  | nil => rfl
  | cons c s ih =>
      have htail : utf8Tail c.toNat = some [] := if_pos (h c List.mem_cons_self)
      have hrest := ih (fun d hd => h d (List.mem_cons_of_mem _ hd))
      unfold utf8Length at hrest ⊢
      unfold utf8Scan
      rw [htail, Option.bind_some, hrest]
      rfl

theorem ValidUtf8.of_ascii {s : Str} (h : ∀ c ∈ s, c.toNat ≤ 0x7F) : ValidUtf8 s := by
  unfold ValidUtf8
  rw [utf8Length_ascii h]
  rfl

end FinCore.Cxx
