/-
  FinCore.Redis.Keyspace
  ──────────────────────
  A Redis keyspace: typed values under string keys, each with an optional
  expiry, and the commands on them.

  A key whose expiry has passed is absent for every command.  HMSET keeps the
  expiry of a key that is there and creates a missing one without; EXPIRE sets
  it, SET drops it, and reading never touches it.  A command of the wrong type
  for its key is an error without effect.
-/
import FinCore.Cxx.Text

namespace FinCore.Redis

open FinCore.Cxx

/-! ## §1. Values and keys. -/

inductive Value where
  /-- Field and value, each field once. -/
  | hash (fields : List (Str × Str))
  | list (items : List Str)
  | string (text : Str)

structure Entry where
  value : Value
  /-- The instant at which the key disappears. -/
  expireAt : Option ℤ

/-- The entry has not expired at `now`. -/
def Entry.liveAt (now : ℤ) (entry : Entry) : Bool :=
  match entry.expireAt with
  | none => true
  | some t => decide (now < t)

abbrev Keyspace := Str → Option Entry

/-- What a command finds under `key` at `now`. -/
def lookup (now : ℤ) (keys : Keyspace) (key : Str) : Option Entry :=
  (keys key).filter (Entry.liveAt now)

theorem lookup_eq_some {now : ℤ} {keys : Keyspace} {key : Str} {entry : Entry} :
    lookup now keys key = some entry ↔ keys key = some entry ∧ entry.liveAt now = true :=
  Option.filter_eq_some_iff

theorem lookup_congr {now : ℤ} {keys keys' : Keyspace} {key : Str} (h : keys key = keys' key) :
    lookup now keys key = lookup now keys' key := by
  rw [lookup, lookup, h]

/-- A value without expiry is there at any time. -/
theorem lookup_plain {keys : Keyspace} {key : Str} {value : Value} {p : Prop} [Decidable p]
    (h : keys key = if p then none else some ⟨value, none⟩) (now : ℤ) :
    lookup now keys key = if p then none else some ⟨value, none⟩ := by
  unfold lookup
  rw [h]
  split <;> rfl

/-- What is live later is live now. -/
theorem Entry.liveAt_mono {now later : ℤ} (h : now ≤ later) (entry : Entry)
    (hl : entry.liveAt later = true) : entry.liveAt now = true := by
  unfold Entry.liveAt at hl ⊢
  cases he : entry.expireAt with
  | none => rfl
  | some t =>
      rw [he] at hl
      have hlt : later < t := of_decide_eq_true hl
      exact decide_eq_true (lt_of_le_of_lt h hlt)

/-! ## §2. Commands. -/

/-- Set one field of a hash. -/
def setField (fields : List (Str × Str)) (field value : Str) : List (Str × Str) :=
  if fields.any (fun f => f.1 == field) then
    fields.map (fun f => if f.1 = field then (field, value) else f)
  else fields ++ [(field, value)]

/-- Set the given fields in order. -/
def setFields (fields news : List (Str × Str)) : List (Str × Str) :=
  news.foldl (fun acc f => setField acc f.1 f.2) fields

inductive Command where
  | ping
  | hmset (key : Str) (fields : List (Str × Str))
  | hset (key field value : Str)
  | hgetall (key : Str)
  | expire (key : Str) (ttl : ℤ)
  | lpush (key item : Str)
  | ltrim (key : Str) (start stop : ℕ)
  | set (key text : Str)
  | del (key : Str)

/-- The one key a command reads or writes. -/
def Command.key? : Command → Option Str
  | ping => none
  | hmset key _ => some key
  | hset key _ _ => some key
  | hgetall key => some key
  | expire key _ => some key
  | lpush key _ => some key
  | ltrim key _ _ => some key
  | set key _ => some key
  | del key => some key

inductive Reply where
  | status
  | integer (n : ℕ)
  | fields (fields : List (Str × Str))
  /-- `WRONGTYPE Operation against a key holding the wrong kind of value`. -/
  | wrongType

/-- The entry of a key after a command found `held` there, and the reply. -/
def Command.onEntry (now : ℤ) (held : Option Entry) : Command → Reply × Option Entry
  | ping => (.status, held)
  | hmset _ news =>
      match held with
      | none => (.status, some ⟨.hash (setFields [] news), none⟩)
      -- a hash that is there keeps its other fields and its time to live
      | some ⟨.hash fields, expireAt⟩ => (.status, some ⟨.hash (setFields fields news), expireAt⟩)
      | some entry => (.wrongType, some entry)
  | hset _ field value =>
      match held with
      | none => (.integer 1, some ⟨.hash [(field, value)], none⟩)
      | some ⟨.hash fields, expireAt⟩ =>
          -- the reply counts the fields that are new
          (.integer (if fields.any (fun f => f.1 == field) then 0 else 1),
            some ⟨.hash (setField fields field value), expireAt⟩)
      | some entry => (.wrongType, some entry)
  | hgetall _ =>
      match held with
      | none => (.fields [], none)
      | some ⟨.hash fields, expireAt⟩ => (.fields fields, some ⟨.hash fields, expireAt⟩)
      | some entry => (.wrongType, some entry)
  | expire _ ttl =>
      match held with
      | none => (.integer 0, none)
      | some entry => (.integer 1, some { entry with expireAt := some (now + ttl) })
  | lpush _ item =>
      match held with
      | none => (.integer 1, some ⟨.list [item], none⟩)
      | some ⟨.list items, expireAt⟩ =>
          (.integer (items.length + 1), some ⟨.list (item :: items), expireAt⟩)
      | some entry => (.wrongType, some entry)
  | ltrim _ start stop =>
      match held with
      | none => (.status, none)
      | some ⟨.list items, expireAt⟩ =>
          -- a list that loses its last item loses its key
          let kept := (items.take (stop + 1)).drop start
          (.status, if kept = [] then none else some ⟨.list kept, expireAt⟩)
      | some entry => (.wrongType, some entry)
  -- of all writes only SET replaces a value of another type, and drops the TTL
  | set _ text => (.status, some ⟨.string text, none⟩)
  | del _ => (.integer (if held.isSome then 1 else 0), none)

/-- Run a command at `now`. -/
def Command.run (now : ℤ) (command : Command) (keys : Keyspace) : Reply × Keyspace :=
  match command.key? with
  | none => (.status, keys)
  | some key =>
      let (reply, held) := command.onEntry now (lookup now keys key)
      (reply, Function.update keys key held)

/-! ## §3. Frames and expiry. -/

/-- A command touches no key but its own. -/
theorem Command.run_other (now : ℤ) (command : Command) (keys : Keyspace) {key : Str}
    (h : command.key? ≠ some key) : (command.run now keys).2 key = keys key := by
  unfold Command.run
  cases hk : command.key? with
  | none => rfl
  | some key' =>
      have hne : key ≠ key' := by
        intro heq
        exact h (by rw [hk, heq])
      exact Function.update_of_ne hne _ _

theorem Command.run_self (now : ℤ) (command : Command) (keys : Keyspace) {key : Str}
    (h : command.key? = some key) :
    (command.run now keys).1 = (command.onEntry now (lookup now keys key)).1
    ∧ (command.run now keys).2 key = (command.onEntry now (lookup now keys key)).2 := by
  unfold Command.run
  rw [h]
  exact ⟨rfl, Function.update_self _ _ _⟩

/-- HMSET on a hash or on nothing sets the fields and keeps the expiry. -/
theorem hmset_onEntry (now : ℤ) (key : Str) (news : List (Str × Str)) {held : Option Entry}
    (h : ∀ entry, held = some entry → ∃ fields, entry.value = .hash fields) :
    ∃ old, (Command.hmset key news).onEntry now held
      = (.status, some ⟨.hash (setFields old news), held.bind Entry.expireAt⟩) := by
  cases held with
  | none => exact ⟨[], rfl⟩
  | some entry =>
      obtain ⟨value, expireAt⟩ := entry
      obtain ⟨fields, hfields⟩ := h _ rfl
      simp only at hfields
      subst hfields
      exact ⟨fields, rfl⟩

/-- HMSET is refused on everything else. -/
theorem hmset_held {now : ℤ} {key : Str} {news : List (Str × Str)} {held : Option Entry}
    (h : ((Command.hmset key news).onEntry now held).1 ≠ .wrongType) :
    ∀ entry, held = some entry → ∃ fields, entry.value = .hash fields := by
  rintro ⟨value, expireAt⟩ rfl
  cases value with
  | hash fields => exact ⟨fields, rfl⟩
  | list items => exact absurd rfl h
  | string text => exact absurd rfl h

/-- EXPIRE sets the expiry of what is there. -/
theorem expire_onEntry (now : ℤ) (key : Str) (ttl : ℤ) (held : Option Entry) :
    ∃ n, (Command.expire key ttl).onEntry now held
      = (.integer n, held.map (fun entry => { entry with expireAt := some (now + ttl) })) := by
  cases held with
  | none => exact ⟨0, rfl⟩
  | some entry => exact ⟨1, rfl⟩

/-- HGETALL leaves what it finds. -/
theorem hgetall_onEntry (now : ℤ) (key : Str) (held : Option Entry) :
    ((Command.hgetall key).onEntry now held).2 = held := by
  cases held with
  | none => rfl
  | some entry =>
      obtain ⟨value, expireAt⟩ := entry
      cases value <;> rfl

/-- A hash that disappears by `bound`. -/
def Entry.HashUntil (bound : ℤ) (entry : Entry) : Prop :=
  (∃ fields, entry.value = .hash fields) ∧ ∃ t, entry.expireAt = some t ∧ t ≤ bound

theorem Entry.HashUntil.mono {bound bound' : ℤ} {entry : Entry} (h : entry.HashUntil bound)
    (hle : bound ≤ bound') : entry.HashUntil bound' := by
  obtain ⟨hhash, t, ht, hbound⟩ := h
  exact ⟨hhash, t, ht, hbound.trans hle⟩

/-- What is live under `key` is a hash that expires at most `ttl` from now. -/
def ExpiresWithin (ttl now : ℤ) (keys : Keyspace) (key : Str) : Prop :=
  ∀ entry, lookup now keys key = some entry → entry.HashUntil (now + ttl)

theorem ExpiresWithin.congr {ttl now : ℤ} {keys keys' : Keyspace} {key : Str}
    (h : ExpiresWithin ttl now keys key) (heq : keys' key = keys key) :
    ExpiresWithin ttl now keys' key := by
  intro entry hentry
  rw [lookup_congr heq] at hentry
  exact h entry hentry

/-- Time only shortens what is left. -/
theorem ExpiresWithin.later {ttl now later : ℤ} {keys : Keyspace} {key : Str}
    (h : ExpiresWithin ttl now keys key) (hle : now ≤ later) :
    ExpiresWithin ttl later keys key := by
  intro entry hentry
  obtain ⟨hkey, hlive⟩ := lookup_eq_some.mp hentry
  have hnow := h entry (lookup_eq_some.mpr ⟨hkey, Entry.liveAt_mono hle entry hlive⟩)
  exact hnow.mono (by omega)

theorem ExpiresWithin.absent {ttl now : ℤ} {keys : Keyspace} {key : Str} (h : keys key = none) :
    ExpiresWithin ttl now keys key := by
  intro entry hentry
  rw [(lookup_eq_some.mp hentry).1] at h
  cases h

/-- It is enough to know what a command leaves under its key. -/
theorem ExpiresWithin.of_entry {ttl now : ℤ} {keys : Keyspace} {key : Str}
    (h : ∀ entry, keys key = some entry → entry.HashUntil (now + ttl)) :
    ExpiresWithin ttl now keys key := by
  intro entry hentry
  exact h entry (lookup_eq_some.mp hentry).1

/-! ## §4. Lists. -/

/-- The key holds the items, without expiry; an empty list is no entry. -/
def ListAt (keys : Keyspace) (key : Str) (items : List Str) : Prop :=
  keys key = if items = [] then none else some ⟨.list items, none⟩

section Lists

variable {keys : Keyspace} {key : Str} {items : List Str}

theorem ListAt.congr {keys' : Keyspace} (h : ListAt keys key items) (heq : keys' key = keys key) :
    ListAt keys' key items :=
  heq.trans h

theorem ListAt.lookup (h : ListAt keys key items) (now : ℤ) :
    lookup now keys key = if items = [] then none else some ⟨.list items, none⟩ :=
  lookup_plain h now

/-- LPUSH puts its item in front. -/
theorem ListAt.lpush (h : ListAt keys key items) (now : ℤ) (item : Str) :
    ListAt ((Command.lpush key item).run now keys).2 key (item :: items) := by
  have hself := ((Command.lpush key item).run_self now keys rfl).2
  rw [h.lookup now] at hself
  unfold ListAt
  rw [hself]
  cases items with
  | nil => rfl
  | cons first rest => rfl

/-- LTRIM from the front keeps that many. -/
theorem ListAt.ltrim (h : ListAt keys key items) (now : ℤ) (stop : ℕ) :
    ListAt ((Command.ltrim key 0 stop).run now keys).2 key (items.take (stop + 1)) := by
  have hself := ((Command.ltrim key 0 stop).run_self now keys rfl).2
  rw [h.lookup now] at hself
  unfold ListAt
  rw [hself]
  cases items with
  | nil => rfl
  | cons first rest => rfl

end Lists

end FinCore.Redis
