/-
  FinCore.Api.Response
  ────────────────────
  What `parse_quote` finds in a well-formed response.

  A field is looked up by a raw substring search for its name between quotes,
  a colon and a space, and the quote of its value.  Cut at the quotes, a
  rendered object is a sequence of names, `: `, values and gaps; the search can
  match only where a name meets the `: ` behind it, for no gap is `: ` and no
  name looked for is a gap.
-/
import FinCore.Api.QuoteParser
import FinCore.Cxx.Numeral

namespace FinCore.Api

open FinCore.Cxx

/-! ## §1. Searching from quote to quote. -/

/-- The text a field is searched by. -/
def fieldKey (name : Str) : Str := '"' :: (name ++ '"' :: (": ".toList ++ ['"']))

/-- Characters other than the first of the key are passed over. -/
theorem afterFirst_skip {c : Char} {k s : Str} (h : c ∉ s) (x : Str) :
    afterFirst (c :: k) (s ++ x) = afterFirst (c :: k) x := by
  induction s with
  | nil => rfl
  | cons d s ih =>
      rw [List.mem_cons, not_or] at h
      have hmiss : ¬ c :: k <+: d :: (s ++ x) := by
        intro hpre
        exact h.1 (List.cons_prefix_cons.mp hpre).1
      show afterFirst (c :: k) (d :: (s ++ x)) = _
      rw [afterFirst, if_neg hmiss]
      exact ih h.2

/-- A key at the start is found there. -/
theorem afterFirst_self (c : Char) (k z : Str) :
    afterFirst (c :: k) (c :: k ++ z) = some z := by
  have hhit : c :: k <+: c :: (k ++ z) := List.prefix_append (c :: k) z
  show afterFirst (c :: k) (c :: (k ++ z)) = _
  rw [afterFirst, if_pos hhit, ← List.cons_append, List.drop_left]

/-- A text with fewer quotes than the key does not contain it. -/
theorem afterFirst_few {c : Char} {key : Str} {x : Str} (h : x.count c < key.count c) :
    afterFirst key x = none := by
  induction x with
  | nil =>
      have hne : key ≠ [] := by
        intro hnil
        rw [hnil] at h
        exact absurd h (lt_irrefl _)
      rw [afterFirst, if_neg hne]
  | cons d x ih =>
      have hmiss : ¬ key <+: d :: x := by
        intro hpre
        have hle := hpre.sublist.count_le c
        omega
      have hle := (List.sublist_cons_self d x).count_le c
      rw [afterFirst, if_neg hmiss]
      exact ih (by omega)

/-- Up to their first delimiters two texts agree as wholes. -/
theorem delimited_prefix_iff {c : Char} {a b y z : Str} (ha : c ∉ a) (hb : c ∉ b) :
    a ++ c :: y <+: b ++ c :: z ↔ a = b ∧ y <+: z := by
  induction a generalizing b with
  | nil =>
      cases b with
      | nil =>
          show c :: y <+: c :: z ↔ _
          rw [List.cons_prefix_cons]
          simp
      | cons e b =>
          have hne : c ≠ e := fun heq => hb (heq ▸ List.mem_cons_self)
          show c :: y <+: e :: (b ++ c :: z) ↔ _
          rw [List.cons_prefix_cons]
          simp [hne]
  | cons d a ih =>
      rw [List.mem_cons, not_or] at ha
      cases b with
      | nil =>
          show d :: (a ++ c :: y) <+: c :: z ↔ _
          rw [List.cons_prefix_cons]
          simp [Ne.symm ha.1]
      | cons e b =>
          rw [List.mem_cons, not_or] at hb
          show d :: (a ++ c :: y) <+: e :: (b ++ c :: z) ↔ _
          rw [List.cons_prefix_cons, ih ha.2 hb.2, List.cons.injEq, and_assoc]

section Search

variable {name : Str}

/-- The key at its own place. -/
theorem afterFirst_hit (name z : Str) :
    afterFirst (fieldKey name) ('"' :: (name ++ '"' :: (": ".toList ++ '"' :: z))) = some z := by
  have hsplit : '"' :: (name ++ '"' :: (": ".toList ++ '"' :: z)) = fieldKey name ++ z := by
    unfold fieldKey
    rw [List.cons_append, List.append_assoc, List.cons_append, List.append_assoc]
    rfl
  rw [hsplit]
  exact afterFirst_self _ _ z

/-- Behind a quote stands another text than the name. -/
theorem afterFirst_other (hname : '"' ∉ name) {a : Str} (ha : '"' ∉ a) (hne : name ≠ a)
    (z : Str) :
    afterFirst (fieldKey name) ('"' :: (a ++ '"' :: z))
      = afterFirst (fieldKey name) ('"' :: z) := by
  have hmiss : ¬ fieldKey name <+: '"' :: (a ++ '"' :: z) := by
    intro hpre
    exact hne ((delimited_prefix_iff hname ha).mp (List.cons_prefix_cons.mp hpre).2).1
  rw [afterFirst, if_neg hmiss]
  exact afterFirst_skip ha _

/-- Behind the next quote stands another text than `: `. -/
theorem afterFirst_gap (hname : '"' ∉ name) {a b : Str} (ha : '"' ∉ a) (hb : '"' ∉ b)
    (hne : ": ".toList ≠ b) (z : Str) :
    afterFirst (fieldKey name) ('"' :: (a ++ '"' :: (b ++ '"' :: z)))
      = afterFirst (fieldKey name) ('"' :: (b ++ '"' :: z)) := by
  have hmiss : ¬ fieldKey name <+: '"' :: (a ++ '"' :: (b ++ '"' :: z)) := by
    intro hpre
    have hrest := ((delimited_prefix_iff hname ha).mp (List.cons_prefix_cons.mp hpre).2).2
    exact hne ((delimited_prefix_iff (by decide) hb).mp hrest).1
  rw [afterFirst, if_neg hmiss]
  exact afterFirst_skip ha _

/-- With two quotes left there is no room for a key. -/
theorem afterFirst_end {a b : Str} (hname : '"' ∉ name) (ha : '"' ∉ a) (hb : '"' ∉ b) :
    afterFirst (fieldKey name) ('"' :: (a ++ '"' :: b)) = none := by
  refine afterFirst_few (c := '"') ?_
  unfold fieldKey
  simp only [List.count_cons_self, List.count_append, List.count_eq_zero_of_not_mem hname,
    List.count_eq_zero_of_not_mem ha, List.count_eq_zero_of_not_mem hb]
  decide

end Search

/-! ## §2. Rendered objects. -/

def IsBlank (s : Str) : Prop := ∀ c ∈ s, isSpace c = true

/-- Free of quotes and of escapes. -/
def Plain (s : Str) : Prop := '"' ∉ s ∧ '\\' ∉ s

instance (s : Str) : Decidable (Plain s) := inferInstanceAs (Decidable (_ ∧ _))

/-- A member of the object. -/
structure Member where
  name : Str
  value : Str
  name_plain : Plain name
  value_plain : Plain value

/-- `"name": "value"`. -/
def Member.text (m : Member) : Str :=
  '"' :: (m.name ++ '"' :: (": ".toList ++ '"' :: (m.value ++ ['"'])))

/-- The members between the braces, with white space and commas. -/
inductive MembersText : List Member → Str → Prop
  | none {w : Str} (hw : IsBlank w) : MembersText [] w
  | last {w w' : Str} (m : Member) (hw : IsBlank w) (hw' : IsBlank w') :
      MembersText [m] (w ++ (m.text ++ w'))
  | more {w w' t : Str} (m next : Member) {rest : List Member} (hw : IsBlank w)
      (hw' : IsBlank w') (ht : MembersText (next :: rest) t) :
      MembersText (m :: next :: rest) (w ++ (m.text ++ (w' ++ ',' :: t)))

/-- The response: the object, or the object as the member `Global Quote` of
another. -/
inductive ResponseText (ms : List Member) : Str → Prop
  | plain {u t v : Str} (hu : IsBlank u) (ht : MembersText ms t) (hv : IsBlank v) :
      ResponseText ms (u ++ '\x7b' :: (t ++ '\x7d' :: v))
  | wrapped {u w w' t w'' v : Str} (hu : IsBlank u) (hw : IsBlank w) (hw' : IsBlank w')
      (ht : MembersText ms t) (hw'' : IsBlank w'') (hv : IsBlank v) :
      ResponseText ms (u ++ '\x7b' :: (w ++ '"' :: ("Global Quote".toList ++ '"' :: (':' :: w'
        ++ '\x7b' :: (t ++ '\x7d' :: (w'' ++ '\x7d' :: v))))))

theorem IsBlank.no_quote {s : Str} (h : IsBlank s) : '"' ∉ s := by
  intro hmem
  exact absurd (h '"' hmem) (by decide)

/-- A name that is not mistaken for what stands between two members. -/
structure FieldName (name : Str) : Prop where
  no_quote : '"' ∉ name
  no_colon : ':' ∉ name
  no_comma : ',' ∉ name
  no_brace : '\x7b' ∉ name
  ne_wrapper : name ≠ "Global Quote".toList

theorem FieldName.ne_of_mem {name : Str} {c : Char} {s : Str} (hname : c ∉ name) (hs : c ∈ s) :
    name ≠ s := by
  intro heq
  exact hname (heq ▸ hs)

/-- The members up to the first quote. -/
theorem MembersText.starts {m : Member} {ms : List Member} {t : Str}
    (h : MembersText (m :: ms) t) : ∃ w r, IsBlank w ∧ t = w ++ '"' :: r := by
  cases h with
  | last _ hw _ => exact ⟨_, _, hw, rfl⟩
  | more _ _ hw _ _ => exact ⟨_, _, hw, rfl⟩

/-- The members with nothing but commas between them. -/
def compactMembers : List Member → Str
  | [] => []
  | [m] => m.text
  | m :: next :: rest => m.text ++ ',' :: compactMembers (next :: rest)

theorem compactMembers_text : ∀ ms : List Member, MembersText ms (compactMembers ms)
  | [] => .none (fun _ hc => absurd hc List.not_mem_nil)
  | [m] => by
      have hblank : IsBlank [] := fun _ hc => absurd hc List.not_mem_nil
      have hlast := MembersText.last m hblank hblank
      rw [List.append_nil] at hlast
      exact hlast
  | m :: next :: rest => by
      have hblank : IsBlank [] := fun _ hc => absurd hc List.not_mem_nil
      exact .more m next hblank hblank (compactMembers_text (next :: rest))

/-- The object without white space. -/
def compactText (ms : List Member) : Str := '\x7b' :: (compactMembers ms ++ ['\x7d'])

/-- Every list of members is that of a response. -/
theorem compactText_response (ms : List Member) : ResponseText ms (compactText ms) := by
  have hblank : IsBlank [] := fun _ hc => absurd hc List.not_mem_nil
  exact .plain hblank (compactMembers_text ms) hblank

/-! ## §3. What the search finds. -/

/-- The member of a name. -/
def lookupMember (name : Str) (ms : List Member) : Option Member :=
  ms.find? (fun m => decide (m.name = name))

/-- The search for a name in `x` ends at the value of its member. -/
def Finds (name : Str) (ms : List Member) (x : Str) : Prop :=
  match lookupMember name ms with
  | some m => ∃ z, afterFirst (fieldKey name) x = some (m.value ++ '"' :: z)
  | none => afterFirst (fieldKey name) x = none

theorem Finds.congr {name : Str} {ms : List Member} {x y : Str} (h : Finds name ms y)
    (heq : afterFirst (fieldKey name) x = afterFirst (fieldKey name) y) : Finds name ms x := by
  unfold Finds at h ⊢
  rw [heq]
  exact h

/-- The extracted text is the value. -/
theorem Finds.extractString {name : Str} {ms : List Member} {x : Str} (h : Finds name ms x) :
    extractString x (fieldKey name) = (lookupMember name ms).map Member.value := by
  unfold Finds at h
  unfold Api.extractString
  cases hm : lookupMember name ms with
  | none =>
      rw [hm] at h
      rw [h]
      rfl
  | some m =>
      rw [hm] at h
      obtain ⟨z, hz⟩ := h
      have hquote : '"' ∈ m.value ++ '"' :: z := List.mem_append_right _ List.mem_cons_self
      -- the value has no quote, so it ends at the member's own
      have htake : (m.value ++ '"' :: z).takeWhile (· ≠ '"') = m.value := by
        rw [List.takeWhile_append_of_pos]
        · rw [List.takeWhile_cons_of_neg (by simp), List.append_nil]
        · intro c hc
          have hne : c ≠ '"' := fun heq => m.value_plain.1 (heq ▸ hc)
          exact decide_eq_true hne
      rw [hz]
      show (if '"' ∈ m.value ++ '"' :: z then some _ else none) = some m.value
      rw [if_pos hquote, htake]

theorem lookupMember_hit {name : Str} {m : Member} (h : m.name = name) (ms : List Member) :
    lookupMember name (m :: ms) = some m :=
  List.find?_cons_of_pos (decide_eq_true h)

theorem lookupMember_miss {name : Str} {m : Member} (h : m.name ≠ name) (ms : List Member) :
    lookupMember name (m :: ms) = lookupMember name ms :=
  List.find?_cons_of_neg (by simpa using h)

/-- A member that has the name ends the search, whatever follows it. -/
theorem Finds.here {name : Str} {m : Member} (h : m.name = name) (ms : List Member) (r : Str) :
    Finds name (m :: ms) (m.text ++ r) := by
  unfold Finds
  rw [lookupMember_hit h]
  have htext : m.text ++ r
      = '"' :: (name ++ '"' :: (": ".toList ++ '"' :: (m.value ++ '"' :: r))) := by
    rw [Member.text, h]
    simp only [List.cons_append, List.append_assoc, List.nil_append]
  exact ⟨r, by rw [htext, afterFirst_hit]⟩

/-- The search passes a member of another name up to its value. -/
theorem afterFirst_member {name : Str} (hname : FieldName name) {m : Member} (h : m.name ≠ name)
    (r : Str) :
    afterFirst (fieldKey name) (m.text ++ r)
      = afterFirst (fieldKey name) ('"' :: (m.value ++ '"' :: r)) := by
  have htext : m.text ++ r
      = '"' :: (m.name ++ '"' :: (": ".toList ++ '"' :: (m.value ++ '"' :: r))) := by
    rw [Member.text]
    simp only [List.cons_append, List.append_assoc, List.nil_append]
  have hcolon : name ≠ ": ".toList := FieldName.ne_of_mem hname.no_colon (by decide)
  rw [htext, afterFirst_other hname.no_quote m.name_plain.1 h.symm,
    afterFirst_other hname.no_quote (by decide) hcolon]

/-- **The search among the members**, by induction over the rendering. -/
theorem MembersText.finds {name : Str} (hname : FieldName name) {ms : List Member} {t : Str}
    (h : MembersText ms t) {tail : Str} (htail : '"' ∉ tail) : Finds name ms (t ++ tail) := by
  induction h with
  | @none w hw =>
      refine afterFirst_few (c := '"') ?_
      rw [List.count_append, List.count_eq_zero_of_not_mem hw.no_quote,
        List.count_eq_zero_of_not_mem htail]
      unfold fieldKey
      rw [List.count_cons_self]
      omega
  | @last w w' m hw hw' =>
      rw [List.append_assoc, List.append_assoc]
      refine Finds.congr ?_ (afterFirst_skip hw.no_quote _)
      by_cases hm : m.name = name
      · exact Finds.here hm [] (w' ++ tail)
      · refine Finds.congr ?_ (afterFirst_member hname hm _)
        have hrest : '"' ∉ w' ++ tail := by
          rw [List.mem_append, not_or]
          exact ⟨hw'.no_quote, htail⟩
        unfold Finds
        rw [lookupMember_miss hm]
        exact afterFirst_end hname.no_quote m.value_plain.1 hrest
  | @more w w' t m next rest hw hw' ht ih =>
      rw [List.append_assoc, List.append_assoc]
      refine Finds.congr ?_ (afterFirst_skip hw.no_quote _)
      by_cases hm : m.name = name
      · exact Finds.here hm _ _
      · refine Finds.congr ?_ (afterFirst_member hname hm _)
        obtain ⟨w₂, r, hw₂, rfl⟩ := ht.starts
        -- between the value and the next name there is a comma
        have hgap : '"' ∉ w' ++ ',' :: w₂ := by
          rw [List.mem_append, List.mem_cons, not_or, not_or]
          exact ⟨hw'.no_quote, by decide, hw₂.no_quote⟩
        have hcomma : ',' ∈ w' ++ ',' :: w₂ := List.mem_append_right _ List.mem_cons_self
        have hrest : w' ++ ',' :: (w₂ ++ '"' :: r) ++ tail
            = (w' ++ ',' :: w₂) ++ '"' :: (r ++ tail) := by
          simp only [List.cons_append, List.append_assoc]
        have hcolon : ": ".toList ≠ w' ++ ',' :: w₂ := FieldName.ne_of_mem (by decide) hcomma
        have hother : name ≠ w' ++ ',' :: w₂ := FieldName.ne_of_mem hname.no_comma hcomma
        rw [hrest]
        refine Finds.congr ?_ (afterFirst_gap hname.no_quote m.value_plain.1 hgap hcolon _)
        refine Finds.congr ?_ (afterFirst_other hname.no_quote hgap hother _)
        rw [List.append_assoc] at ih
        have hnext := ih.congr (afterFirst_skip hw₂.no_quote ('"' :: (r ++ tail))).symm
        unfold Finds at hnext ⊢
        rwa [lookupMember_miss hm]

/-- **The search behind the wrapper's name**: from the quote that closes it there
is one more gap to pass, up to the first member or the end. -/
theorem MembersText.finds_wrapped {name : Str} (hname : FieldName name) {ms : List Member} {t : Str}
    (ht : MembersText ms t) {w tail : Str} (hw : IsBlank w) (htail : '"' ∉ tail) :
    Finds name ms ('"' :: (':' :: w ++ '\x7b' :: (t ++ tail))) := by
  have hfound := ht.finds hname htail
  have hopen : '"' ∉ ':' :: w ++ ['\x7b'] := by
    rw [List.mem_append, List.mem_cons, not_or, not_or]
    exact ⟨⟨by decide, hw.no_quote⟩, by decide⟩
  cases ms with
  | nil =>
      cases ht with
      | @none t ht =>
          have hrest : '"' ∉ ':' :: w ++ '\x7b' :: (t ++ tail) := by
            rw [List.append_cons, List.mem_append, not_or]
            refine ⟨hopen, ?_⟩
            rw [List.mem_append, not_or]
            exact ⟨ht.no_quote, htail⟩
          -- one quote is left, and a key has more
          refine afterFirst_few (c := '"') ?_
          rw [List.count_cons_self, List.count_eq_zero_of_not_mem hrest]
          unfold fieldKey
          rw [List.count_cons_self, List.count_append, List.count_cons_self]
          omega
  | cons m ms =>
      obtain ⟨w₂, r, hw₂, rfl⟩ := ht.starts
      have hgap : '"' ∉ ':' :: w ++ '\x7b' :: w₂ := by
        rw [List.append_cons, List.mem_append, not_or]
        exact ⟨hopen, hw₂.no_quote⟩
      have hbrace : '\x7b' ∈ ':' :: w ++ '\x7b' :: w₂ :=
        List.mem_append_right _ List.mem_cons_self
      have hother : name ≠ ':' :: w ++ '\x7b' :: w₂ :=
        FieldName.ne_of_mem hname.no_brace hbrace
      have hrest : ':' :: w ++ '\x7b' :: (w₂ ++ '"' :: r ++ tail)
          = (':' :: w ++ '\x7b' :: w₂) ++ '"' :: (r ++ tail) := by
        simp only [List.cons_append, List.append_assoc]
      rw [hrest]
      refine Finds.congr ?_ (afterFirst_other hname.no_quote hgap hother _)
      rw [List.append_assoc] at hfound
      exact hfound.congr (afterFirst_skip hw₂.no_quote _).symm

/-- **The search in a response**, wrapped or not. -/
theorem ResponseText.finds {name : Str} (hname : FieldName name) {ms : List Member} {json : Str}
    (h : ResponseText ms json) : Finds name ms json := by
  cases h with
  | @plain u t v hu ht hv =>
      have hopen : '"' ∉ u ++ ['\x7b'] := by
        rw [List.mem_append, not_or]
        exact ⟨hu.no_quote, by decide⟩
      have htail : '"' ∉ '\x7d' :: v := by
        rw [List.mem_cons, not_or]
        exact ⟨by decide, hv.no_quote⟩
      rw [List.append_cons]
      exact (ht.finds hname htail).congr (afterFirst_skip hopen _)
  | @wrapped u w w' t w'' v hu hw hw' ht hw'' hv =>
      have hopen : '"' ∉ u ++ '\x7b' :: w := by
        rw [List.mem_append, List.mem_cons, not_or, not_or]
        exact ⟨hu.no_quote, by decide, hw.no_quote⟩
      have htail : '"' ∉ '\x7d' :: (w'' ++ '\x7d' :: v) := by
        rw [List.mem_cons, List.mem_append, List.mem_cons, not_or, not_or, not_or]
        exact ⟨by decide, hw''.no_quote, by decide, hv.no_quote⟩
      rw [← List.cons_append, ← List.append_assoc]
      refine Finds.congr ?_ (afterFirst_skip hopen _)
      -- the wrapper's name is not the one looked for
      refine Finds.congr ?_ (afterFirst_other hname.no_quote (by decide) hname.ne_wrapper _)
      exact ht.finds_wrapped hname hw' htail

/-- **What is extracted from a response**: the value of the member, or nothing. -/
theorem extractString_response {ms : List Member} {json : Str} (h : ResponseText ms json)
    {name : Str} (hname : FieldName name) :
    extractString json (fieldKey name) = (lookupMember name ms).map Member.value :=
  (h.finds hname).extractString

/-! ## §4. The fields of the quote. -/

def priceName : Str := "05. price".toList

def openName : Str := "02. open".toList

def highName : Str := "03. high".toList

def lowName : Str := "04. low".toList

def volumeName : Str := "06. volume".toList

def changeName : Str := "10. change percent".toList

/-- All names `parse_quote` looks for. -/
theorem fieldNames : ∀ name ∈ [priceName, openName, highName, lowName, volumeName, changeName],
    FieldName name := by
  intro name hname
  simp only [List.mem_cons, List.not_mem_nil, or_false] at hname
  rcases hname with rfl | rfl | rfl | rfl | rfl | rfl
  all_goals exact ⟨by decide, by decide, by decide, by decide, by decide⟩

/-- The object has a member with this name and value. -/
def Has (ms : List Member) (name value : Str) : Prop :=
  ∃ m ∈ ms, m.name = name ∧ m.value = value

instance (ms : List Member) (name value : Str) : Decidable (Has ms name value) :=
  inferInstanceAs (Decidable (∃ m ∈ ms, _))

/-- With distinct names the search for a name finds its member. -/
theorem lookupMember_of_mem {ms : List Member} (hnames : (ms.map Member.name).Nodup) {name : Str}
    {m : Member} (hm : m ∈ ms) (h : m.name = name) : lookupMember name ms = some m := by
  induction ms with
  | nil => exact absurd hm List.not_mem_nil
  | cons first ms ih =>
      obtain ⟨hfresh, hnames'⟩ := List.nodup_cons.mp hnames
      by_cases hfirst : first.name = name
      · rcases List.mem_cons.mp hm with rfl | hm
        · exact lookupMember_hit hfirst ms
        · -- a second member of the name
          exact absurd (List.mem_map.mpr ⟨m, hm, h.trans hfirst.symm⟩) hfresh
      · rw [lookupMember_miss hfirst]
        rcases List.mem_cons.mp hm with rfl | hm
        · exact absurd h hfirst
        · exact ih hnames' hm

section Fields

variable {ms : List Member} {json : Str} (h : ResponseText ms json)
  (hnames : (ms.map Member.name).Nodup)

include h hnames in
theorem Has.extractString {name value : Str} (hname : FieldName name) (hhas : Has ms name value) :
    extractString json (fieldKey name) = some value := by
  obtain ⟨m, hm, hmname, hmvalue⟩ := hhas
  rw [extractString_response h hname, lookupMember_of_mem hnames hm hmname, Option.map_some,
    hmvalue]

include h hnames in
theorem Has.extractDouble {name : Str} (hname : FieldName name) {n : Numeral} (hn : n.InRange)
    (hhas : Has ms name n.text) : extractDouble json (fieldKey name) = some n.nearest := by
  unfold Api.extractDouble
  rw [hhas.extractString h hnames hname]
  show (stod n.text).toOption = _
  rw [Numeral.stod_inRange hn]
  rfl

include h in
/-- A missing member fails its field. -/
theorem extractDouble_missing {name : Str} (hname : FieldName name)
    (hnone : ∀ m ∈ ms, m.name ≠ name) : extractDouble json (fieldKey name) = none := by
  have hlookup : lookupMember name ms = none := by
    unfold lookupMember
    rw [List.find?_eq_none]
    intro m hm
    simpa using hnone m hm
  unfold Api.extractDouble
  rw [extractString_response h hname, hlookup]
  rfl

end Fields

/-- An integer numeral below `2 ^ 63` is the volume it denotes. -/
theorem parseVolume_text {σ : Sign} {w : Str} {n : ℕ} (hw : IsDigits w) (hne : w ≠ [])
    (hvalue : σ.apply (digitsValue w : ℤ) = n) (hn : n < 2 ^ 63) :
    (parseVolume (σ.text ++ w)).toNat = n := by
  have hscan := scanInteger_text σ hw hne
  have hstoll : stoll (σ.text ++ w) = .ok (Int64.ofInt n) := by
    unfold stoll
    simp only [hscan, IntegerScan.value, hvalue]
    rw [if_neg hne, if_pos ⟨by omega, by omega⟩]
  unfold parseVolume
  rw [hstoll]
  show (Int64.ofInt n).toUInt64.toNat = n
  rw [Int64.ofInt_eq_ofNat, Int64.toUInt64_ofNat', UInt64.toNat_ofNat_of_lt']
  show n < 2 ^ 64
  omega

/-- A numeral with or without a percent sign is the change it denotes. -/
theorem parsePercent_text {n : Numeral} (hn : n.InRange) {s : Str}
    (hs : s = n.text ∨ s = n.text ++ ['%']) : parsePercent s = n.nearest := by
  have hnumber : (if s.getLast? = some '%' then s.dropLast else s) = n.text := by
    rcases hs with rfl | rfl
    · obtain ⟨c, hc, hdigit⟩ := n.text_getLast
      rw [hc, if_neg]
      intro hpercent
      rw [Option.some.inj hpercent] at hdigit
      exact absurd hdigit (by decide)
    · rw [List.getLast?_append, List.dropLast_concat]
      rfl
  unfold parsePercent
  simp only [hnumber, Numeral.stod_inRange hn]

/-! ## §5. Parsing a response. -/

/-- The names of the four prices. -/
def priceNames : List Str := [priceName, openName, highName, lowName]

theorem priceKeys_eq : priceKeys = priceNames.map fieldKey := rfl

theorem fieldName_price {name : Str} (h : name ∈ priceNames) : FieldName name := by
  refine fieldNames name ?_
  exact List.mem_append_left [volumeName, changeName] h

/-- The quote has the fields of the response, the prices and the change as the
doubles nearest to their numerals. -/
structure Recovered (ms : List Member) (p o hi l : Numeral) (symbol : Symbol) (q : Quote) :
    Prop where
  symbol : q.symbol = symbol
  price : q.price = p.nearest
  openPrice : q.openPrice = o.nearest
  high : q.high = hi.nearest
  low : q.low = l.nearest
  volume : ∀ (σ : Sign) (w : Str) (n : ℕ), IsDigits w → w ≠ [] →
    σ.apply (digitsValue w : ℤ) = n → n < 2 ^ 63 → Has ms volumeName (σ.text ++ w) →
    q.volume.toNat = n
  changePct : ∀ c : Numeral, c.InRange →
    Has ms changeName c.text ∨ Has ms changeName (c.text ++ ['%']) → q.changePct = c.nearest

section Response

variable {ms : List Member} {json : Str} (h : ResponseText ms json)

include h in
/-- Without one of the prices there is no quote. -/
theorem parseQuote_missing {name : Str} (hname : name ∈ priceNames)
    (hnone : ∀ m ∈ ms, m.name ≠ name) (mktime : ℤ → Int64) (symbol : Symbol) :
    parseQuote mktime json symbol = none := by
  rw [parseQuote_eq_none_iff, priceKeys_eq]
  exact ⟨fieldKey name, List.mem_map_of_mem hname,
    extractDouble_missing h (fieldName_price hname) hnone⟩

variable (hnames : (ms.map Member.name).Nodup)

include h hnames in
theorem volume_recovered {mktime : ℤ → Int64} {symbol : Symbol} {q : Quote}
    (hq : parseQuote mktime json symbol = some q) {σ : Sign} {w : Str} {n : ℕ} (hw : IsDigits w)
    (hne : w ≠ []) (hvalue : σ.apply (digitsValue w : ℤ) = n) (hn : n < 2 ^ 63)
    (hhas : Has ms volumeName (σ.text ++ w)) : q.volume.toNat = n := by
  obtain ⟨_, _, _, _, _, hvolume, _⟩ := parseQuote_fields hq
  have hextract : extractString json "\"06. volume\": \"".toList = some (σ.text ++ w) :=
    hhas.extractString h hnames (fieldNames volumeName (by simp))
  rw [hvolume, hextract]
  exact parseVolume_text hw hne hvalue hn

include h hnames in
theorem changePct_recovered {mktime : ℤ → Int64} {symbol : Symbol} {q : Quote}
    (hq : parseQuote mktime json symbol = some q) {c : Numeral} (hc : c.InRange) {s : Str}
    (hs : s = c.text ∨ s = c.text ++ ['%']) (hhas : Has ms changeName s) :
    q.changePct = c.nearest := by
  obtain ⟨_, _, _, _, _, _, hchange, _⟩ := parseQuote_fields hq
  have hextract : extractString json "\"10. change percent\": \"".toList = some s :=
    hhas.extractString h hnames (fieldNames changeName (by simp))
  rw [hchange, hextract]
  exact parsePercent_text hc hs

include h hnames in
/-- With the four prices there is a quote, and it has the fields of the response. -/
theorem parseQuote_recovers {p o hi l : Numeral} (hp : p.InRange) (ho : o.InRange)
    (hhi : hi.InRange) (hl : l.InRange) (hasPrice : Has ms priceName p.text)
    (hasOpen : Has ms openName o.text) (hasHigh : Has ms highName hi.text)
    (hasLow : Has ms lowName l.text) (mktime : ℤ → Int64) (symbol : Symbol) :
    ∃ q, parseQuote mktime json symbol = some q ∧ Recovered ms p o hi l symbol q := by
  have hprice := hasPrice.extractDouble h hnames (fieldName_price (by simp [priceNames])) hp
  have hopen := hasOpen.extractDouble h hnames (fieldName_price (by simp [priceNames])) ho
  have hhigh := hasHigh.extractDouble h hnames (fieldName_price (by simp [priceNames])) hhi
  have hlow := hasLow.extractDouble h hnames (fieldName_price (by simp [priceNames])) hl
  -- none of the four fields fails
  have hread : ∀ key ∈ priceKeys, extractDouble json key ≠ none := by
    rw [priceKeys_eq]
    unfold priceNames
    simp only [List.map_cons, List.map_nil, List.forall_mem_cons, hprice, hopen, hhigh, hlow]
    exact ⟨nofun, nofun, nofun, nofun, nofun⟩
  obtain ⟨q, hq⟩ : ∃ q, parseQuote mktime json symbol = some q := parseQuote_exists hread
  obtain ⟨hqp, hqo, hqh, hql, hsymbol, _⟩ := parseQuote_fields hq
  refine ⟨q, hq, hsymbol, ?_, ?_, ?_, ?_, ?_, ?_⟩
  · exact Option.some.inj (hqp.symm.trans hprice)
  · exact Option.some.inj (hqo.symm.trans hopen)
  · exact Option.some.inj (hqh.symm.trans hhigh)
  · exact Option.some.inj (hql.symm.trans hlow)
  · intro σ w n hw hne hvalue hn hhas
    exact volume_recovered h hnames hq hw hne hvalue hn hhas
  · intro c hc hhas
    rcases hhas with hhas | hhas
    · exact changePct_recovered h hnames hq hc (Or.inl rfl) hhas
    · exact changePct_recovered h hnames hq hc (Or.inr rfl) hhas

end Response

/-- **A well-formed response is recovered**: every field of the quote when the
four prices are there, and no quote when one is missing. -/
theorem parseQuote_response {ms : List Member} {json : Str} (h : ResponseText ms json)
    (hnames : (ms.map Member.name).Nodup) (mktime : ℤ → Int64) (symbol : Symbol) :
    (∀ p o hi l : Numeral, p.InRange → o.InRange → hi.InRange → l.InRange →
      Has ms priceName p.text → Has ms openName o.text → Has ms highName hi.text →
      Has ms lowName l.text →
      ∃ q, parseQuote mktime json symbol = some q ∧ Recovered ms p o hi l symbol q)
    ∧ ((∃ name ∈ priceNames, ∀ m ∈ ms, m.name ≠ name) →
      parseQuote mktime json symbol = none) := by
  constructor
  · intro p o hi l hp ho hhi hl hasPrice hasOpen hasHigh hasLow
    exact parseQuote_recovers h hnames hp ho hhi hl hasPrice hasOpen hasHigh hasLow mktime symbol
  · rintro ⟨name, hname, hnone⟩
    exact parseQuote_missing h hname hnone mktime symbol

/-- A numeral without sign and exponent. -/
def unsignedNumeral (whole fraction : Str) (hwhole : IsDigits whole) (hne : whole ≠ [])
    (hfraction : IsDigits fraction) : Numeral :=
  .ofLiteral ⟨.none, whole, fraction, hwhole, hne, hfraction⟩

def sampleOpen : Numeral :=
  unsignedNumeral "100".toList "25".toList (by decide) (by decide) (by decide)

def sampleHigh : Numeral :=
  unsignedNumeral "105".toList "75".toList (by decide) (by decide) (by decide)

def sampleLow : Numeral :=
  unsignedNumeral "99".toList "50".toList (by decide) (by decide) (by decide)

def samplePrice : Numeral :=
  unsignedNumeral "104".toList "50".toList (by decide) (by decide) (by decide)

/-- A numeral can be a value. -/
theorem numeral_plain (n : Numeral) : Plain n.text := by
  constructor
  · intro hmem
    exact absurd (n.text_chars _ hmem) (by decide)
  · intro hmem
    exact absurd (n.text_chars _ hmem) (by decide)

/-- An object with the given price. -/
def sampleMembers (price : Str) (h : Plain price) : List Member :=
  [⟨changeName, "3.4653%".toList, by decide, by decide⟩,
    ⟨openName, "100.25".toList, by decide, by decide⟩,
    ⟨priceName, price, by decide, h⟩,
    ⟨"08. previous close".toList, ": ".toList, by decide, by decide⟩,
    ⟨lowName, "99.50".toList, by decide, by decide⟩,
    ⟨volumeName, "123456".toList, by decide, by decide⟩,
    ⟨highName, "105.75".toList, by decide, by decide⟩]

def pricedMembers (price : Numeral) : List Member := sampleMembers price.text (numeral_plain price)

theorem pricedResponse_recovered :
    ∃ q, parseQuote (fun _ => 0) (compactText (pricedMembers samplePrice)) "IBM".toList = some q
      ∧ Recovered (pricedMembers samplePrice) samplePrice sampleOpen sampleHigh sampleLow
          "IBM".toList q :=
  (parseQuote_response (compactText_response _) (by decide +kernel) _ _).1 samplePrice sampleOpen
    sampleHigh sampleLow (by decide +kernel) (by decide +kernel) (by decide +kernel)
    (by decide +kernel) (by decide +kernel) (by decide +kernel) (by decide +kernel)
    (by decide +kernel)

/-- `1` and 400 zeros. -/
def hugePrice : Numeral :=
  unsignedNumeral ('1' :: List.replicate 400 '0') [] (by decide +kernel) (List.cons_ne_nil _ _)
    isDigits_nil

/-- `9007199254740993`, which is no double. -/
def oddPrice : Numeral :=
  unsignedNumeral "9007199254740993".toList [] (by decide) (by decide) isDigits_nil

/-- A numeral beyond the doubles is no price, and one between two doubles becomes
its neighbour. -/
theorem hugePrice_rejected :
    ResponseText (pricedMembers hugePrice) (compactText (pricedMembers hugePrice))
    ∧ ((pricedMembers hugePrice).map Member.name).Nodup
    ∧ Has (pricedMembers hugePrice) priceName hugePrice.text
    ∧ Has (pricedMembers hugePrice) openName sampleOpen.text
    ∧ Has (pricedMembers hugePrice) highName sampleHigh.text
    ∧ Has (pricedMembers hugePrice) lowName sampleLow.text
    ∧ parseQuote (fun _ => 0) (compactText (pricedMembers hugePrice)) "IBM".toList = none
    ∧ Has (pricedMembers oddPrice) priceName oddPrice.text
    ∧ oddPrice.value = 9007199254740993
    ∧ (parseQuote (fun _ => 0) (compactText (pricedMembers oddPrice)) "IBM".toList).map Quote.price
      = some (.finite 9007199254740992) := by
  refine ⟨compactText_response _, by decide +kernel, by decide +kernel, by decide +kernel,
    by decide +kernel, by decide +kernel, ?_, by decide +kernel, by decide +kernel, ?_⟩
  · decide +kernel
  · decide +kernel

end FinCore.Api
