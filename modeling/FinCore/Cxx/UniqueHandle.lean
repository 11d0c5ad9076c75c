/-
  FinCore.Cxx.UniqueHandle
  ────────────────────────
  Objects that own the handles of a C library.

  An object's member is a handle or null, and the calls of the library are a
  trace.  `Owned` says that the handles which are out are the members of the
  objects, each of one: then no handle is used or given back but while it is
  out, and what no object holds any more has been given back exactly once.
-/
import Mathlib

namespace FinCore.Cxx

/-- A call of the library about a handle; the handles it gives out are numbered. -/
inductive HandleEvent where
  | acquired (handle : ℕ)
  | used (handle : ℕ)
  | released (handle : ℕ)
  deriving DecidableEq

/-! ## §1. Traces. -/

namespace HandleEvent

variable {trace : List HandleEvent} {h : ℕ}

/-- A handle has been given out, and not given back. -/
def Live (trace : List HandleEvent) (h : ℕ) : Prop :=
  .acquired h ∈ trace ∧ .released h ∉ trace

/-- What may be called after `before`. -/
def Allowed (before : List HandleEvent) : HandleEvent → Prop
  | acquired h => .acquired h ∉ before
  | used h => Live before h
  | released h => Live before h

/-- Every call is allowed where it stands. -/
def Proper (trace : List HandleEvent) : Prop :=
  ∀ before event after, trace = before ++ event :: after → Allowed before event

theorem Proper.nil : Proper [] := by
  intro before event after h
  cases before <;> cases h

theorem Proper.concat (hproper : Proper trace) {event : HandleEvent}
    (hallowed : Allowed trace event) : Proper (trace ++ [event]) := by
  intro before event' after h
  rcases List.append_eq_append_iff.mp h with ⟨mid, rfl, hend⟩ | ⟨mid, rfl, hend⟩
  · -- the call is the last one, or there is none behind
    cases mid with
    | nil =>
        rw [List.append_nil]
        cases hend
        exact hallowed
    | cons first rest =>
        have hlength := congrArg List.length hend
        simp only [List.length_append, List.length_cons, List.length_nil] at hlength
        omega
  · cases mid with
    | nil =>
        cases hend
        rw [List.append_nil] at hallowed
        exact hallowed
    | cons first rest =>
        obtain ⟨rfl, rfl⟩ := List.cons.inj hend
        exact hproper before event' rest rfl

/-- What has been given back had been given out. -/
theorem Proper.acquired_of_released (hproper : Proper trace) (h' : .released h ∈ trace) :
    .acquired h ∈ trace := by
  obtain ⟨before, after, rfl⟩ := List.append_of_mem h'
  exact List.mem_append_left _ (hproper before _ after rfl).1

/-- **No handle is given back twice.** -/
theorem Proper.released_once (hproper : Proper trace) (h : ℕ) :
    trace.count (.released h) ≤ 1 := by
  by_cases hmem : HandleEvent.released h ∈ trace
  · obtain ⟨before, after, rfl, hafter⟩ := List.eq_append_cons_of_mem hmem
    have hlater : HandleEvent.released h ∉ after := by
      intro hagain
      obtain ⟨between, rest, rfl⟩ := List.append_of_mem hagain
      have hlive := hproper (before ++ .released h :: between) (.released h) rest (by simp)
      exact hlive.2 (List.mem_append_right _ List.mem_cons_self)
    rw [List.count_append, List.count_cons_self, List.count_eq_zero_of_not_mem hafter,
      List.count_eq_zero_of_not_mem hlater]
  · rw [List.count_eq_zero_of_not_mem hmem]
    omega

end HandleEvent

/-! ## §2. Objects. -/

/-- The objects, the calls so far and how many handles have been given out. -/
structure HandleHeap (ι : Type) where
  /-- The member of an object; `none` outside its lifetime, `some none` for
  null. -/
  member : ι → Option (Option ℕ)
  trace : List HandleEvent
  given : ℕ

namespace HandleHeap

open HandleEvent

variable {ι : Type} [DecidableEq ι]

def empty : HandleHeap ι := ⟨fun _ => none, [], 0⟩

/-- The handle of an object. -/
def handle (s : HandleHeap ι) (i : ι) : Option ℕ := (s.member i).join

/-- Begin or end the lifetime of an object, or overwrite its member. -/
def set (i : ι) (m : Option (Option ℕ)) (s : HandleHeap ι) : HandleHeap ι :=
  { s with member := Function.update s.member i m }

/-- Get a handle from the library. -/
def acquire (i : ι) (s : HandleHeap ι) : HandleHeap ι where
  member := Function.update s.member i (some (some s.given))
  trace := s.trace ++ [.acquired s.given]
  given := s.given + 1

/-- Call the library with the handle of an object, if it has one. -/
def use (i : ι) (s : HandleHeap ι) : HandleHeap ι :=
  match s.handle i with
  | some h => { s with trace := s.trace ++ [.used h] }
  | none => s

/-- Give the handle of an object back, if it has one; its member is null then. -/
def release (i : ι) (s : HandleHeap ι) : HandleHeap ι :=
  match s.handle i with
  | some h =>
      { s with member := Function.update s.member i (some none)
               trace := s.trace ++ [.released h] }
  | none => s

/-- `i = std::exchange(j, nullptr)`. -/
def exchange (i j : ι) (s : HandleHeap ι) : HandleHeap ι :=
  { s with member := Function.update (Function.update s.member i (s.member j)) j (some none) }

/-- A handle that no object gets: it is used and given back. -/
def transient (s : HandleHeap ι) : HandleHeap ι :=
  { s with trace := s.trace ++ [.acquired s.given] ++ [.used s.given] ++ [.released s.given]
           given := s.given + 1 }

/-! ## §3. The special members of an owner. -/

/-- Construct from null. -/
def construct (i : ι) (s : HandleHeap ι) : HandleHeap ι := s.set i (some none)

/-- The destructor. -/
def destroy (i : ι) (s : HandleHeap ι) : HandleHeap ι := (s.release i).set i none

/-- The move constructor. -/
def moveConstruct (i j : ι) (s : HandleHeap ι) : HandleHeap ι := s.exchange i j

/-- The move assignment, which does nothing to an object moved to itself. -/
def moveAssign (i j : ι) (s : HandleHeap ι) : HandleHeap ι :=
  if i = j then s else (s.release i).exchange i j

/-! ## §4. Ownership. -/

/-- The handles that are out are those of the objects, each of one. -/
structure Owned (s : HandleHeap ι) : Prop where
  unique : ∀ {i j : ι} {h : ℕ}, s.handle i = some h → s.handle j = some h → i = j
  live : ∀ h, Live s.trace h ↔ ∃ i, s.handle i = some h
  given : ∀ h, .acquired h ∈ s.trace ↔ h < s.given
  proper : Proper s.trace

variable {s : HandleHeap ι}

omit [DecidableEq ι] in
theorem Owned.empty : Owned (empty : HandleHeap ι) where
  unique hi _ := by cases hi
  live h := by
    constructor
    · exact fun hlive => absurd hlive.1 List.not_mem_nil
    · rintro ⟨i, hi⟩
      cases hi
  given h := ⟨fun hmem => absurd hmem List.not_mem_nil, fun hlt => absurd hlt (Nat.not_lt_zero h)⟩
  proper := .nil

omit [DecidableEq ι] in
/-- The next handle has not been seen. -/
theorem Owned.fresh (hs : Owned s) :
    .acquired s.given ∉ s.trace ∧ .released s.given ∉ s.trace := by
  have hacquired : .acquired s.given ∉ s.trace := by
    rw [hs.given]
    omega
  exact ⟨hacquired, fun hreleased => hacquired (hs.proper.acquired_of_released hreleased)⟩

theorem handle_set (i : ι) (m : Option (Option ℕ)) (s : HandleHeap ι) (k : ι) :
    (s.set i m).handle k = if k = i then m.join else s.handle k := by
  show (Function.update s.member i m k).join = _
  rw [Function.update_apply]
  split <;> rfl

/-- An object without a handle may begin, end, or be null. -/
theorem Owned.set (hs : Owned s) {i : ι} {m : Option (Option ℕ)} (hi : s.handle i = none)
    (hm : m.join = none) : Owned (s.set i m) := by
  have hsame : ∀ k, (s.set i m).handle k = s.handle k := by
    intro k
    rw [handle_set]
    split
    next hk => rw [hk, hi, hm]
    next => rfl
  refine ⟨?_, ?_, hs.given, hs.proper⟩
  · intro k l h hk hl
    rw [hsame] at hk hl
    exact hs.unique hk hl
  · intro h
    rw [show (s.set i m).trace = s.trace from rfl, hs.live]
    exact exists_congr (fun k => by rw [hsame])

theorem Owned.acquire (hs : Owned s) {i : ι} (hi : s.handle i = none) : Owned (s.acquire i) := by
  have hhandle : ∀ k, (s.acquire i).handle k = if k = i then some s.given else s.handle k :=
    fun k => handle_set i (some (some s.given)) s k
  obtain ⟨hacquired, hreleased⟩ := hs.fresh
  -- nobody holds the next handle
  have hnobody : ∀ k, s.handle k ≠ some s.given :=
    fun k hk => hacquired ((hs.live _).mpr ⟨k, hk⟩).1
  have hlive : ∀ h, Live (s.acquire i).trace h ↔ Live s.trace h ∨ h = s.given := by
    intro h
    unfold Live HandleHeap.acquire
    simp only [List.mem_append, List.mem_singleton, reduceCtorEq, or_false, acquired.injEq]
    constructor
    · rintro ⟨hmem | rfl, hout⟩
      · exact Or.inl ⟨hmem, hout⟩
      · exact Or.inr rfl
    · rintro (⟨hmem, hout⟩ | rfl)
      · exact ⟨Or.inl hmem, hout⟩
      · exact ⟨Or.inr rfl, hreleased⟩
  refine ⟨?_, ?_, ?_, hs.proper.concat hacquired⟩
  · intro k l h hk hl
    rw [hhandle] at hk hl
    by_cases hki : k = i
    · by_cases hli : l = i
      · rw [hki, hli]
      · rw [if_pos hki] at hk
        rw [if_neg hli, ← hk] at hl
        exact absurd hl (hnobody l)
    · by_cases hli : l = i
      · rw [if_pos hli] at hl
        rw [if_neg hki, ← hl] at hk
        exact absurd hk (hnobody k)
      · rw [if_neg hki] at hk
        rw [if_neg hli] at hl
        exact hs.unique hk hl
  · intro h
    rw [hlive, hs.live]
    constructor
    · rintro (⟨k, hk⟩ | rfl)
      · refine ⟨k, ?_⟩
        rw [hhandle, if_neg (fun hki => by rw [hki, hi] at hk; cases hk), hk]
      · exact ⟨i, by rw [hhandle, if_pos rfl]⟩
    · rintro ⟨k, hk⟩
      rw [hhandle] at hk
      by_cases hki : k = i
      · rw [if_pos hki] at hk
        exact Or.inr (Option.some.inj hk).symm
      · rw [if_neg hki] at hk
        exact Or.inl ⟨k, hk⟩
  · intro h
    show _ ∈ s.trace ++ [.acquired s.given] ↔ h < s.given + 1
    rw [List.mem_append, List.mem_singleton, hs.given, acquired.injEq]
    omega

omit [DecidableEq ι] in
theorem Owned.use_handle (hs : Owned s) {i : ι} {h : ℕ} (hi : s.handle i = some h) :
    Owned { s with trace := s.trace ++ [.used h] } := by
  have hlive : Live s.trace h := (hs.live h).mpr ⟨i, hi⟩
  refine ⟨hs.unique, ?_, ?_, hs.proper.concat hlive⟩
  · intro h'
    show Live (s.trace ++ [.used h]) h' ↔ ∃ i, s.handle i = some h'
    rw [← hs.live]
    unfold Live
    simp only [List.mem_append, List.mem_singleton, reduceCtorEq, or_false]
  · intro h'
    rw [← hs.given]
    simp only [List.mem_append, List.mem_singleton, reduceCtorEq, or_false]

omit [DecidableEq ι] in
theorem Owned.use (hs : Owned s) (i : ι) : Owned (s.use i) := by
  unfold HandleHeap.use
  cases hi : s.handle i with
  | none => exact hs
  | some h => exact hs.use_handle hi

theorem handle_release (s : HandleHeap ι) (i k : ι) :
    (s.release i).handle k = if k = i then none else s.handle k := by
  unfold release
  cases hi : s.handle i with
  | none =>
      by_cases hk : k = i
      · rw [if_pos hk, hk]
        exact hi
      · rw [if_neg hk]
  | some h => exact handle_set i (some none) s k

theorem Owned.release (hs : Owned s) (i : ι) : Owned (s.release i) := by
  have hhandle := handle_release s i
  unfold HandleHeap.release at hhandle ⊢
  cases hi : s.handle i with
  | none => exact hs
  | some h =>
      simp only [hi] at hhandle
      have hlive : Live s.trace h := (hs.live h).mpr ⟨i, hi⟩
      refine ⟨?_, ?_, ?_, hs.proper.concat hlive⟩
      · intro k l h' hk hl
        rw [hhandle] at hk hl
        split at hk
        · cases hk
        · split at hl
          · cases hl
          · exact hs.unique hk hl
      · intro h'
        have hout : Live (s.trace ++ [.released h]) h' ↔ Live s.trace h' ∧ h' ≠ h := by
          unfold Live
          simp only [List.mem_append, List.mem_singleton, reduceCtorEq, or_false, released.injEq]
          tauto
        rw [show Live _ h' ↔ _ from hout, hs.live]
        constructor
        · rintro ⟨⟨k, hk⟩, hne⟩
          refine ⟨k, ?_⟩
          rw [hhandle, if_neg ?_]
          · exact hk
          · rintro rfl
            exact hne (Option.some.inj (hk.symm.trans hi))
        · rintro ⟨k, hk⟩
          rw [hhandle] at hk
          split at hk
          · cases hk
          next hki => exact ⟨⟨k, hk⟩, fun heq => hki (hs.unique hk (heq ▸ hi))⟩
      · intro h'
        rw [← hs.given]
        simp only [List.mem_append, List.mem_singleton, reduceCtorEq, or_false]

omit [DecidableEq ι] in
theorem Owned.transient (hs : Owned s) : Owned s.transient := by
  obtain ⟨hacquired, hreleased⟩ := hs.fresh
  have hproper :
      Proper (s.trace ++ [.acquired s.given] ++ [.used s.given] ++ [.released s.given]) := by
    have hfirst : Proper (s.trace ++ [.acquired s.given]) := hs.proper.concat hacquired
    have hused : Allowed (s.trace ++ [.acquired s.given]) (.used s.given) := by
      simp [Allowed, Live, hreleased]
    have hback : Allowed (s.trace ++ [.acquired s.given] ++ [.used s.given])
        (.released s.given) := by
      simp [Allowed, Live, hreleased]
    exact (hfirst.concat hused).concat hback
  refine ⟨hs.unique, ?_, ?_, hproper⟩
  · intro h
    show Live (s.trace ++ [.acquired s.given] ++ [.used s.given] ++ [.released s.given]) h
      ↔ ∃ i, s.handle i = some h
    rw [← hs.live]
    unfold Live
    simp only [List.mem_append, List.mem_singleton, reduceCtorEq, or_false, acquired.injEq,
      released.injEq]
    constructor
    · rintro ⟨hmem | rfl, hout⟩
      · exact ⟨hmem, fun h' => hout (Or.inl h')⟩
      · exact absurd (Or.inr rfl) hout
    · rintro ⟨hmem, hout⟩
      refine ⟨Or.inl hmem, ?_⟩
      rintro (h' | rfl)
      · exact hout h'
      · exact hacquired hmem
  · intro h
    show _ ∈ s.trace ++ [.acquired s.given] ++ [.used s.given] ++ [.released s.given]
      ↔ h < s.given + 1
    simp only [List.mem_append, List.mem_singleton, reduceCtorEq, or_false, acquired.injEq,
      hs.given]
    omega

theorem handle_exchange (s : HandleHeap ι) (i j k : ι) :
    (s.exchange i j).handle k
      = if k = j then none else if k = i then s.handle j else s.handle k := by
  show (Function.update (Function.update s.member i (s.member j)) j (some none) k).join = _
  rw [Function.update_apply, Function.update_apply]
  split
  · rfl
  · split <;> rfl

/-- A handle changes hands. -/
theorem Owned.exchange (hs : Owned s) {i j : ι} (hij : i ≠ j) (hi : s.handle i = none) :
    Owned (s.exchange i j) := by
  -- what `k` holds now, `source k` has held
  let source : ι → ι := fun k => if k = i then j else k
  have hsource : ∀ {k h}, (s.exchange i j).handle k = some h → s.handle (source k) = some h := by
    intro k h hk
    rw [handle_exchange] at hk
    by_cases hkj : k = j
    · rw [if_pos hkj] at hk
      cases hk
    · rw [if_neg hkj] at hk
      show s.handle (if k = i then j else k) = some h
      rw [← hk]
      split <;> rfl
  have hnot : ∀ {k h}, (s.exchange i j).handle k = some h → k ≠ j := by
    rintro k h hk rfl
    rw [handle_exchange, if_pos rfl] at hk
    cases hk
  refine ⟨?_, ?_, hs.given, hs.proper⟩
  · intro k l h hk hl
    have hsame : source k = source l := hs.unique (hsource hk) (hsource hl)
    have hkj := hnot hk
    have hlj := hnot hl
    simp only [source] at hsame
    split at hsame
    next hki =>
      split at hsame
      next hli => rw [hki, hli]
      next => exact absurd hsame.symm hlj
    next =>
      split at hsame
      next => exact absurd hsame hkj
      next => exact hsame
  · intro h
    rw [show (s.exchange i j).trace = s.trace from rfl, hs.live]
    constructor
    · rintro ⟨k, hk⟩
      by_cases hkj : k = j
      · refine ⟨i, ?_⟩
        rw [handle_exchange, if_neg hij, if_pos rfl, ← hkj]
        exact hk
      · refine ⟨k, ?_⟩
        rw [handle_exchange, if_neg hkj, if_neg (fun hki => by rw [hki, hi] at hk; cases hk)]
        exact hk
    · rintro ⟨k, hk⟩
      exact ⟨_, hsource hk⟩

/-! ## §5. What the special members keep. -/

theorem Owned.construct (hs : Owned s) {i : ι} (hi : s.handle i = none) :
    Owned (s.construct i) :=
  hs.set hi rfl

theorem Owned.destroy (hs : Owned s) (i : ι) : Owned (s.destroy i) := by
  refine (hs.release i).set ?_ rfl
  rw [handle_release, if_pos rfl]

theorem Owned.moveConstruct (hs : Owned s) {i j : ι} (hij : i ≠ j) (hi : s.handle i = none) :
    Owned (s.moveConstruct i j) :=
  hs.exchange hij hi

theorem Owned.moveAssign (hs : Owned s) (i j : ι) : Owned (s.moveAssign i j) := by
  unfold HandleHeap.moveAssign
  by_cases hij : i = j
  · rw [if_pos hij]
    exact hs
  · rw [if_neg hij]
    refine (hs.release i).exchange hij ?_
    rw [handle_release, if_pos rfl]

/-- Every handle that has been given out is that of one object, or has been given
back once. -/
structure Accounted (s : HandleHeap ι) : Prop where
  proper : Proper s.trace
  once : ∀ h < s.given,
    (∃! i, s.handle i = some h) ∧ s.trace.count (.released h) = 0
    ∨ (∀ i, s.handle i ≠ some h) ∧ s.trace.count (.released h) = 1

omit [DecidableEq ι] in
/-- **What no object holds has been given back exactly once.** -/
theorem Owned.accounted (hs : Owned s) : Accounted s where
  proper := hs.proper
  once h hgiven := by
    by_cases hheld : ∃ i, s.handle i = some h
    · left
      obtain ⟨i, hi⟩ := hheld
      refine ⟨⟨i, hi, fun j hj => hs.unique hj hi⟩, ?_⟩
      exact List.count_eq_zero_of_not_mem ((hs.live h).mpr ⟨i, hi⟩).2
    · right
      refine ⟨fun i hi => hheld ⟨i, hi⟩, ?_⟩
      have hreleased : HandleEvent.released h ∈ s.trace := by
        by_contra hout
        exact hheld ((hs.live h).mp ⟨(hs.given h).mpr hgiven, hout⟩)
      have hpositive := List.count_pos_iff.mpr hreleased
      have honce := hs.proper.released_once h
      omega

end HandleHeap

end FinCore.Cxx
