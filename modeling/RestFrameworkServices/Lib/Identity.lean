import RestFrameworkServices.Lib.Dict
import Mathlib.Data.Fintype.Basic
import Mathlib.Logic.Function.Basic

/-!
# Objects, their addresses, and stores keyed by address

An object lives at an address, and dies: an object that is dying is still at its address, and one
that is freed leaves it to the next object created there. Two stores are keyed by address. A cache
watches the object each of its entries is for, and the entry is dropped once that object dies and
before it is freed (`Cache`); a memo holds the objects it was asked about, so none of them dies while
it lasts (`Memo`). An object is known here by its number, which no other object has, so that a store
answers for the very object it is asked about is that two numbers are equal.

`System.run_answers` says so of any number of caches that share their objects, over every run of
creations, deaths, callbacks and requests, and `Memo.run_told` of a memo.
-/

namespace Lib.Identity

universe u v w

/-! ## Objects -/

/-- An object is live, or dying, its callbacks not all run yet, or freed. -/
inductive Status where
  | live
  | dying
  | freed
deriving DecidableEq, Repr

/-- An object: its address, its state, and what it was made as. -/
structure Object (τ : Type u) where
  address : ℕ
  status : Status
  tag : τ

/-- The objects created so far, by number. Two that are not freed are at two addresses. -/
structure Heap (τ : Type u) where
  objects : ℕ → Option (Object τ)
  next : ℕ
  unmade : ∀ o, next ≤ o → objects o = none
  distinct : ∀ o o' x x', objects o = some x → objects o' = some x' → x.status ≠ .freed →
    x'.status ≠ .freed → x.address = x'.address → o = o'

namespace Heap

variable {τ : Type u}

/-- No objects. -/
def empty : Heap τ where
  objects _ := none
  next := 0
  unmade := fun _ _ => rfl
  distinct := fun _ _ _ _ h => by cases h

section
variable (h : Heap τ)

/-- The state of an object. -/
def status? (o : ℕ) : Option Status := (h.objects o).map (·.status)

/-- What an object was made as. -/
def tag? (o : ℕ) : Option τ := (h.objects o).map (·.tag)

/-- The address an object was created at. -/
def address (o : ℕ) : ℕ := (h.objects o).elim 0 (·.address)

/-- The object is live. -/
def Live (o : ℕ) : Prop := h.status? o = some .live

/-- The object is at its address. -/
def Placed (o : ℕ) : Prop := h.status? o = some .live ∨ h.status? o = some .dying

instance (o : ℕ) : Decidable (h.Live o) := inferInstanceAs (Decidable (_ = _))

/-- No object is at the address. -/
def Free (address : ℕ) : Prop := ∀ o < h.next, h.status? o ≠ some .freed → h.address o ≠ address

instance (address : ℕ) : Decidable (h.Free address) :=
  inferInstanceAs (Decidable (∀ o < h.next, _ → _))

variable {h}

/-- A live object is at its address. -/
theorem Live.placed {o : ℕ} (ho : h.Live o) : h.Placed o := .inl ho

/-- An object at its address was created, and is not freed. -/
theorem Placed.exists {o : ℕ} (ho : h.Placed o) :
    ∃ x, h.objects o = some x ∧ x.status ≠ .freed := by
  rcases ho with ho | ho <;>
    · obtain ⟨x, hx, hstatus⟩ := Option.map_eq_some_iff.1 ho
      exact ⟨x, hx, by rw [hstatus]; decide⟩

/-- Two objects at one address are one. -/
theorem eq_of_address {o o' : ℕ} (ho : h.Placed o) (ho' : h.Placed o')
    (haddress : h.address o = h.address o') : o = o' := by
  obtain ⟨x, hx, hstatus⟩ := ho.exists
  obtain ⟨x', hx', hstatus'⟩ := ho'.exists
  simp only [address, hx, hx', Option.elim_some] at haddress
  exact h.distinct o o' x x' hx hx' hstatus hstatus' haddress

/-- An object there is has a number below the next. -/
theorem lt_next {o : ℕ} {x : Object τ} (hx : h.objects o = some x) : o < h.next := by
  by_contra hle
  rw [h.unmade o (Nat.le_of_not_lt hle)] at hx
  cases hx

variable (h)

/-- A new object, at an address no other is at. -/
def create (address : ℕ) (tag : τ) (hfree : h.Free address) : Heap τ where
  objects o := if o = h.next then some ⟨address, .live, tag⟩ else h.objects o
  next := h.next + 1
  unmade o ho := by
    rw [if_neg (by omega)]
    exact h.unmade o (by omega)
  distinct o o' x x' hx hx' hstatus hstatus' haddress := by
    have hold : ∀ {o : ℕ} {x : Object τ}, h.objects o = some x → x.status ≠ .freed →
        x.address ≠ address := by
      intro o x hx hstatus
      have := hfree o (lt_next hx)
      simp only [status?, Heap.address, hx, Option.map_some, Option.elim_some] at this
      exact this fun hfreed => hstatus (Option.some.inj hfreed)
    split at hx <;> split at hx'
    · next ho ho' => rw [ho, ho']
    · cases hx
      exact absurd haddress.symm (hold hx' hstatus')
    · cases hx'
      exact absurd haddress (hold hx hstatus)
    · exact h.distinct o o' x x' hx hx' hstatus hstatus' haddress

/-- The object in another state, unless it is freed. -/
def setStatus (o : ℕ) (status : Status) : Heap τ where
  objects o' := (h.objects o').map fun x =>
    if o' = o ∧ x.status ≠ .freed then { x with status := status } else x
  next := h.next
  unmade o' ho' := by rw [h.unmade o' ho', Option.map_none]
  distinct o₁ o₂ x₁ x₂ hx₁ hx₂ hstatus₁ hstatus₂ haddress := by
    obtain ⟨y₁, hy₁, rfl⟩ := Option.map_eq_some_iff.1 hx₁
    obtain ⟨y₂, hy₂, rfl⟩ := Option.map_eq_some_iff.1 hx₂
    have hsame : ∀ o' (y : Object τ),
        (if o' = o ∧ y.status ≠ .freed then { y with status := status } else y).address =
          y.address := by
      intro o' y
      split <;> rfl
    have hunfreed : ∀ o' (y : Object τ),
        (if o' = o ∧ y.status ≠ .freed then { y with status := status } else y).status ≠ .freed →
          y.status ≠ .freed := by
      intro o' y
      split
      · next hy => exact fun _ => hy.2
      · exact id
    exact h.distinct o₁ o₂ y₁ y₂ hy₁ hy₂ (hunfreed o₁ y₁ hstatus₁) (hunfreed o₂ y₂ hstatus₂)
      (by rw [← hsame o₁ y₁, haddress, hsame o₂ y₂])

end

/-! ### What becomes of the objects there are -/

/-- Every object is where it was and what it was, and none that was not live is. -/
structure Evolves (h h' : Heap τ) : Prop where
  address : ∀ o x, h.objects o = some x → h'.address o = h.address o
  tag : ∀ o t, h.tag? o = some t → h'.tag? o = some t
  live : ∀ o x, h.objects o = some x → h'.Live o → h.Live o

section
variable {h : Heap τ}

/-- Only the object set is in another state. -/
theorem status?_setStatus (o o' : ℕ) (status : Status) :
    (h.setStatus o status).status? o' =
      if o' = o ∧ h.status? o ≠ some .freed then (h.status? o).map fun _ => status
      else h.status? o' := by
  simp only [status?, setStatus, Option.map_map]
  by_cases ho : o' = o
  · subst ho
    cases hx : h.objects o' with
    | none => simp
    | some x => by_cases hs : x.status = .freed <;> simp [hs]
  · cases h.objects o' <;> simp [ho]

/-- An object of another number is as it was. -/
theorem status?_setStatus_of_ne {o o' : ℕ} (status : Status) (ho : o' ≠ o) :
    (h.setStatus o status).status? o' = h.status? o' := by
  rw [status?_setStatus, if_neg fun hand => ho hand.1]

/-- An object dies or is freed where it was. -/
theorem evolves_setStatus (o : ℕ) {status : Status} (hstatus : status ≠ .live) :
    h.Evolves (h.setStatus o status) where
  address o' x hx := by
    simp only [address, setStatus, hx, Option.map_some, Option.elim_some]
    split <;> rfl
  tag o' t ht := by
    obtain ⟨x, hx, rfl⟩ := Option.map_eq_some_iff.1 ht
    simp only [tag?, setStatus, hx, Option.map_some]
    split <;> rfl
  live o' x hx hlive := by
    rw [Live, status?_setStatus] at hlive
    split at hlive
    · obtain ⟨-, -, h⟩ := Option.map_eq_some_iff.1 hlive
      exact absurd h hstatus
    · exact hlive

section
variable {address : ℕ} {tag : τ} (hfree : h.Free address)

/-- An object there was is as it was. -/
theorem objects_create_of_some {o : ℕ} {x : Object τ} (hx : h.objects o = some x) :
    (h.create address tag hfree).objects o = some x := by
  have hne : o ≠ h.next := Nat.ne_of_lt (lt_next hx)
  exact (if_neg hne).trans hx

/-- A new object leaves the others in their states. -/
theorem status?_create_of_some {o : ℕ} {s : Status} (hs : h.status? o = some s) :
    (h.create address tag hfree).status? o = some s := by
  obtain ⟨x, hx, rfl⟩ := Option.map_eq_some_iff.1 hs
  rw [status?, objects_create_of_some hfree hx, Option.map_some]

/-- The new object is live, and is what it was made as. -/
theorem objects_create_next :
    (h.create address tag hfree).objects h.next = some ⟨address, .live, tag⟩ :=
  if_pos rfl

/-- The new one is live. -/
theorem live_create_next : (h.create address tag hfree).Live h.next := by
  rw [Live, status?, objects_create_next, Option.map_some]

/-- It is what it was made as. -/
theorem tag?_create_next : (h.create address tag hfree).tag? h.next = some tag := by
  rw [tag?, objects_create_next, Option.map_some]

/-- No other object is moved or made live. -/
theorem evolves_create : h.Evolves (h.create address tag hfree) where
  address o x hx := by
    rw [Heap.address, Heap.address, objects_create_of_some hfree hx, hx]
  tag o t ht := by
    obtain ⟨x, hx, rfl⟩ := Option.map_eq_some_iff.1 ht
    rw [tag?, objects_create_of_some hfree hx, Option.map_some]
  live o x hx hlive := by
    rw [Live, status?, objects_create_of_some hfree hx] at hlive
    rw [Live, status?, hx]
    exact hlive

end

end

end Heap

/-! ## Caches -/

/-- A request past its lookup: the object it is about, its key, and what has been made for it. -/
structure Making (K : Type v) where
  source : ℕ
  key : K
  made : Option ℕ

/-- A cache keyed by address: an entry watches the object it is for and holds what was made of it, by
key. The request that holds the cache's lock is past its lookup. -/
structure Cache (K : Type v) where
  entries : Dict ℕ (ℕ × Dict K ℕ)
  making : Option (Making K)

namespace Cache

section
variable {K : Type v}

/-- Nothing is cached. -/
def empty : Cache K := ⟨.empty, none⟩

variable (c : Cache K)

/-- The objects the cache keeps from dying: those it holds, and those of the request. -/
def strong : List ℕ :=
  c.entries.values.flatMap (·.2.values) ++ c.making.elim [] fun m => m.source :: m.made.toList

/-- The objects its entries watch. -/
def watched : List ℕ := c.entries.values.map (·.1)

/-- An object is watched where some entry is for it. -/
theorem mem_watched {o : ℕ} : o ∈ c.watched ↔
    ∃ address entry, c.entries.get? address = some entry ∧ entry.1 = o := by
  simp only [watched, List.mem_map, Dict.mem_values]
  constructor
  · rintro ⟨entry, ⟨address, haddress⟩, rfl⟩
    exact ⟨address, entry, haddress, rfl⟩
  · rintro ⟨address, entry, haddress, rfl⟩
    exact ⟨entry, ⟨address, haddress⟩, rfl⟩

variable [DecidableEq K]

/-- What is held for an address and a key. -/
def held (address : ℕ) (key : K) : Option ℕ :=
  (c.entries.get? address).bind fun entry => entry.2.get? key

/-- The entry for an object, an empty one if there is none. -/
def entry (address source : ℕ) : ℕ × Dict K ℕ :=
  (c.entries.get? address).getD (source, .empty)

/-- The entry written, as it is. -/
def watch (address source : ℕ) : Cache K :=
  { c with entries := c.entries.set address (c.entry address source) }

/-- What was made written into the entry, and the lock released. -/
def keep (address source : ℕ) (key : K) (made : ℕ) : Cache K where
  entries := c.entries.set address
    ((c.entry address source).1, (c.entry address source).2.set key made)
  making := none

/-- The entry of an address dropped. -/
def drop (address : ℕ) : Cache K := { c with entries := c.entries.without [address] }

variable {c}

/-- An entry holds what is held for its address. -/
theorem get?_entry (address source : ℕ) (key : K) :
    (c.entry address source).2.get? key = c.held address key := by
  rw [entry, held]
  cases c.entries.get? address <;> rfl

/-- Writing an entry as it is changes nothing that is held. -/
theorem held_watch (address source address' : ℕ) (key : K) :
    (c.watch address source).held address' key = c.held address' key := by
  rw [held, watch, Dict.get?_set]
  split
  · next h =>
    subst h
    exact get?_entry address' source key
  · rfl

/-- What was made is held, and the rest as it was. -/
theorem held_keep (address source address' : ℕ) (key key' : K) (made : ℕ) :
    (c.keep address source key made).held address' key' =
      if address' = address ∧ key' = key then some made else c.held address' key' := by
  rw [held, keep, Dict.get?_set]
  by_cases haddress : address' = address
  · subst haddress
    rw [if_pos rfl, Option.bind_some, Dict.get?_set, get?_entry]
    by_cases hkey : key' = key <;> simp [hkey]
  · simp only [haddress, if_false, false_and, held]

/-- A dropped address holds nothing, and any other what it held. -/
theorem held_drop (address address' : ℕ) (key : K) :
    (c.drop address).held address' key =
      if address' = address then none else c.held address' key := by
  rw [held, drop, Dict.get?_without]
  by_cases haddress : address' = address <;> simp [haddress, held]

variable (c)

/-- What the cache keeps from dying is held by an entry or is the request's. -/
theorem mem_strong {o : ℕ} : o ∈ c.strong ↔
    (∃ address entry key, c.entries.get? address = some entry ∧ entry.2.get? key = some o) ∨
      ∃ m, c.making = some m ∧ (m.source = o ∨ m.made = some o) := by
  have hentries : o ∈ c.entries.values.flatMap (·.2.values) ↔
      ∃ address entry key, c.entries.get? address = some entry ∧ entry.2.get? key = some o := by
    simp only [List.mem_flatMap, Dict.mem_values]
    constructor
    · rintro ⟨entry, ⟨address, haddress⟩, key, hkey⟩
      exact ⟨address, entry, key, haddress, hkey⟩
    · rintro ⟨address, entry, key, haddress, hkey⟩
      exact ⟨entry, ⟨address, haddress⟩, key, hkey⟩
  rw [strong, List.mem_append, hentries]
  refine or_congr Iff.rfl ?_
  cases c.making with
  | none => simp
  | some m => simp [eq_comm]

end

end Cache

/-! ### Programs -/

/-- The caches of a program and the objects they share. -/
structure System (ι : Type w) (K : Type v) (τ : Type u) where
  heap : Heap τ
  caches : ι → Cache K

/-- What the caches are: whether an entry is written before what it is to hold is made, what may be
made of an object of a tag for a key, and the tags of the objects no cache makes. -/
structure Config (ι : Type w) (K : Type v) (τ : Type u) where
  early : ι → Bool
  makes : ι → ℕ → τ → K → τ → Bool
  own : τ → Bool

/-- What happens, of any number of threads: an object of the program's is created, dies, is freed; a
cache's callback for a dying object runs; a request looks up and takes the lock; its holder makes an
object or takes one there is, keeps it and answers, or fails. -/
inductive Event (ι : Type w) (K : Type v) (τ : Type u) where
  | create (address : ℕ) (tag : τ)
  | die (o : ℕ)
  | callback (i : ι) (o : ℕ)
  | free (o : ℕ)
  | request (i : ι) (source : ℕ) (key : K)
  | make (i : ι) (address : ℕ) (tag : τ)
  | adopt (i : ι) (o : ℕ)
  | keep (i : ι)
  | abandon (i : ι)

/-- An answer to a request. -/
structure Answer (ι : Type w) (K : Type v) where
  cache : ι
  source : ℕ
  key : K
  object : ℕ
deriving DecidableEq

namespace System

variable {ι : Type w} {K : Type v} {τ : Type u}

/-- Nothing has happened. -/
def start : System ι K τ := ⟨.empty, fun _ => .empty⟩

section
variable [DecidableEq ι]

/-- The system with one of its caches another. -/
def setCache (s : System ι K τ) (i : ι) (c : Cache K) : System ι K τ :=
  { s with caches := Function.update s.caches i c }

/-- The cache set is the one there is. -/
theorem caches_setCache_self (s : System ι K τ) (i : ι) (c : Cache K) :
    (s.setCache i c).caches i = c := by simp only [setCache, Function.update_self]

/-- The others are as they were. -/
theorem caches_setCache_of_ne (s : System ι K τ) {i j : ι} (c : Cache K) (hj : j ≠ i) :
    (s.setCache i c).caches j = s.caches j := by simp only [setCache, Function.update_of_ne hj]

/-- What holds of every cache holds of them once one is another it holds of. -/
theorem forall_caches_setCache {P : ι → Cache K → Prop} {s : System ι K τ} {i : ι} {c : Cache K}
    (hi : P i c) (hs : ∀ j, P j (s.caches j)) (j : ι) : P j ((s.setCache i c).caches j) := by
  by_cases hj : j = i
  · subst hj
    rw [caches_setCache_self]
    exact hi
  · rw [caches_setCache_of_ne s c hj]
    exact hs j

/-- Of two caches set, the later stays. -/
theorem setCache_setCache (s : System ι K τ) (i : ι) (c c' : Cache K) :
    (s.setCache i c).setCache i c' = s.setCache i c' := by
  simp only [setCache, Function.update_idem]

end

/-- An object of the tag may be made of the source for the key. -/
def Makes (cfg : Config ι K τ) (h : Heap τ) (i : ι) (source : ℕ) (key : K) (tag : τ) : Prop :=
  (h.tag? source).any fun t => cfg.makes i source t key tag

instance (cfg : Config ι K τ) (h : Heap τ) (i : ι) (source : ℕ) (key : K) (tag : τ) :
    Decidable (Makes cfg h i source key tag) := inferInstanceAs (Decidable (_ = true))

/-- What was made is one of what may be made of the source for the key. -/
def Made (cfg : Config ι K τ) (h : Heap τ) (i : ι) (source : ℕ) (key : K) (made : ℕ) : Prop :=
  ∃ tag ∈ h.tag? made, Makes cfg h i source key tag

instance (cfg : Config ι K τ) (h : Heap τ) (i : ι) (source : ℕ) (key : K) (made : ℕ) :
    Decidable (Made cfg h i source key made) :=
  decidable_of_iff ((h.tag? made).any fun tag => Makes cfg h i source key tag) (by
    simp [Made, Option.any_eq_true])

section
variable {cfg : Config ι K τ}

/-- What was made of an object stays made of it. -/
theorem Made.evolve {h h' : Heap τ} (he : h.Evolves h') {i : ι} {source : ℕ} {key : K} {made : ℕ}
    (hmade : Made cfg h i source key made) : Made cfg h' i source key made := by
  obtain ⟨tag, htag, hmakes⟩ := hmade
  obtain ⟨t, ht, hok⟩ := (Option.any_eq_true _ _).1 hmakes
  exact ⟨tag, he.tag _ _ htag, (Option.any_eq_true _ _).2 ⟨t, he.tag _ _ ht, hok⟩⟩

/-- An object something was made of, or that was made, is an object. -/
theorem Made.exists {h : Heap τ} {i : ι} {source : ℕ} {key : K} {made : ℕ}
    (hmade : Made cfg h i source key made) : ∃ x, h.objects source = some x := by
  obtain ⟨tag, -, hmakes⟩ := hmade
  obtain ⟨t, ht, -⟩ := (Option.any_eq_true _ _).1 hmakes
  obtain ⟨x, hx, -⟩ := Option.map_eq_some_iff.1 ht
  exact ⟨x, hx⟩

end

variable [DecidableEq K]

/-! ### The invariant -/

section
variable {cfg : Config ι K τ} {s : System ι K τ} {log : List (Answer ι K)}

/-- What holds of the caches once they have given the answers of a log: an entry's object is at the
entry's address, and what it holds is live and made of that object; the lock's holder found nothing;
and an answer was made for what was asked, is still held while its source lives, and is the one
answer to it. -/
structure Sound (cfg : Config ι K τ) (s : System ι K τ) (log : List (Answer ι K)) : Prop where
  placed : ∀ i address entry, (s.caches i).entries.get? address = some entry →
    s.heap.Placed entry.1 ∧ s.heap.address entry.1 = address
  kept : ∀ i address entry key made, (s.caches i).entries.get? address = some entry →
    entry.2.get? key = some made → s.heap.Live made ∧ Made cfg s.heap i entry.1 key made
  making : ∀ i m, (s.caches i).making = some m → s.heap.Live m.source ∧
    (s.caches i).held (s.heap.address m.source) m.key = none ∧
    ∀ made, m.made = some made → s.heap.Live made ∧ Made cfg s.heap i m.source m.key made
  told : ∀ a ∈ log, Made cfg s.heap a.cache a.source a.key a.object ∧
    (s.heap.Live a.source →
      (s.caches a.cache).held (s.heap.address a.source) a.key = some a.object)
  alike : ∀ a ∈ log, ∀ b ∈ log, a.cache = b.cache → a.source = b.source → a.key = b.key →
    a.object = b.object

/-- An entry at a live object's address is that object's. -/
theorem Sound.source_eq (hs : Sound cfg s log) {i : ι} {source : ℕ} {entry : ℕ × Dict K ℕ}
    (hlive : s.heap.Live source)
    (hentry : (s.caches i).entries.get? (s.heap.address source) = some entry) :
    entry.1 = source := by
  obtain ⟨hplaced, haddress⟩ := hs.placed i _ entry hentry
  exact Heap.eq_of_address hplaced hlive.placed haddress

/-- What is held for a live object was made of it. -/
theorem Sound.made_of_held (hs : Sound cfg s log) {i : ι} {source : ℕ} {key : K} {made : ℕ}
    (hlive : s.heap.Live source)
    (hheld : (s.caches i).held (s.heap.address source) key = some made) :
    s.heap.Live made ∧ Made cfg s.heap i source key made := by
  obtain ⟨entry, hentry, hkey⟩ := Option.bind_eq_some_iff.1 hheld
  have hsource := hs.source_eq hlive hentry
  exact hsource ▸ hs.kept i _ entry key made hentry hkey

/-- The entry a live object's request is for is the object's. -/
theorem Sound.entry_source (hs : Sound cfg s log) {i : ι} {source : ℕ}
    (hlive : s.heap.Live source) :
    ((s.caches i).entry (s.heap.address source) source).1 = source := by
  rw [Cache.entry]
  cases hentry : (s.caches i).entries.get? (s.heap.address source) with
  | none => rfl
  | some entry => exact hs.source_eq hlive hentry

/-- An answer that is held for a live object may be given. -/
theorem Sound.tell (hs : Sound cfg s log) {a : Answer ι K} (hlive : s.heap.Live a.source)
    (hheld : (s.caches a.cache).held (s.heap.address a.source) a.key = some a.object) :
    Sound cfg s (log ++ [a]) := by
  have hsame : ∀ b ∈ log, b.cache = a.cache → b.source = a.source → b.key = a.key →
      b.object = a.object := by
    intro b hb hcache hsource hkey
    have hb := (hs.told b hb).2 (hsource ▸ hlive)
    rw [hcache, hsource, hkey, hheld] at hb
    exact (Option.some.inj hb).symm
  refine ⟨hs.placed, hs.kept, hs.making, fun b hb => ?_, fun b hb b' hb' hcache hsource hkey => ?_⟩
  · rcases List.mem_append.1 hb with hb | hb
    · exact hs.told b hb
    · rw [List.mem_singleton.1 hb]
      exact ⟨(hs.made_of_held hlive hheld).2, fun _ => hheld⟩
  · rcases List.mem_append.1 hb with hb | hb <;> rcases List.mem_append.1 hb' with hb' | hb'
    · exact hs.alike b hb b' hb' hcache hsource hkey
    · rw [List.mem_singleton.1 hb'] at hcache hsource hkey ⊢
      exact hsame b hb hcache hsource hkey
    · rw [List.mem_singleton.1 hb] at hcache hsource hkey ⊢
      exact (hsame b' hb' hcache.symm hsource.symm hkey.symm).symm
    · rw [List.mem_singleton.1 hb, List.mem_singleton.1 hb']

/-- The objects may evolve, if those the caches keep stay live, and those they watch at their
addresses. -/
theorem Sound.evolve (hs : Sound cfg s log) {h : Heap τ} (he : s.heap.Evolves h)
    (hstrong : ∀ i, ∀ o ∈ (s.caches i).strong, s.heap.Live o → h.Live o)
    (hwatched : ∀ i, ∀ o ∈ (s.caches i).watched, s.heap.Placed o → h.Placed o) :
    Sound cfg { s with heap := h } log := by
  have haddress : ∀ o, s.heap.Placed o → h.address o = s.heap.address o := by
    intro o ho
    obtain ⟨x, hx, -⟩ := ho.exists
    exact he.address o x hx
  have hkeep : ∀ i address entry, (s.caches i).entries.get? address = some entry →
      ∀ key made, entry.2.get? key = some made → made ∈ (s.caches i).strong :=
    fun i address entry hentry key made hkey =>
      (Cache.mem_strong _).2 (.inl ⟨address, entry, key, hentry, hkey⟩)
  refine ⟨fun i address entry hentry => ?_, fun i address entry key made hentry hkey => ?_,
    fun i m hm => ?_, fun a ha => ?_, hs.alike⟩
  · obtain ⟨hplaced, hat⟩ := hs.placed i address entry hentry
    exact ⟨hwatched i _ ((Cache.mem_watched _).2 ⟨address, entry, hentry, rfl⟩) hplaced,
      (haddress _ hplaced).trans hat⟩
  · obtain ⟨hlive, hmade⟩ := hs.kept i address entry key made hentry hkey
    exact ⟨hstrong i _ (hkeep i address entry hentry key made hkey) hlive, hmade.evolve he⟩
  · obtain ⟨hlive, hnone, hmade⟩ := hs.making i m hm
    refine ⟨hstrong i _ ((Cache.mem_strong _).2 (.inr ⟨m, hm, .inl rfl⟩)) hlive, ?_,
      fun made hmm => ?_⟩
    · show (s.caches i).held (h.address m.source) m.key = none
      rw [haddress _ hlive.placed]
      exact hnone
    · obtain ⟨hml, hmm'⟩ := hmade made hmm
      exact ⟨hstrong i _ ((Cache.mem_strong _).2 (.inr ⟨m, hm, .inr hmm⟩)) hml, hmm'.evolve he⟩
  · obtain ⟨hmade, hheld⟩ := hs.told a ha
    refine ⟨hmade.evolve he, fun hlive => ?_⟩
    obtain ⟨x, hx⟩ := hmade.exists
    show (s.caches a.cache).held (h.address a.source) a.key = some a.object
    rw [he.address _ x hx]
    exact hheld (he.live _ x hx hlive)

/-- An object may be created at a free address. -/
theorem Sound.create (hs : Sound cfg s log) {address : ℕ} (tag : τ)
    (hfree : s.heap.Free address) :
    Sound cfg { s with heap := s.heap.create address tag hfree } log :=
  hs.evolve (Heap.evolves_create hfree)
    (fun _ _ _ hlive => Heap.status?_create_of_some hfree hlive)
    fun _ _ _ hplaced => hplaced.imp (Heap.status?_create_of_some hfree)
      (Heap.status?_create_of_some hfree)

/-- An object no cache keeps may die. -/
theorem Sound.die (hs : Sound cfg s log) {o : ℕ} (hlive : s.heap.Live o)
    (hkept : ∀ i, o ∉ (s.caches i).strong) :
    Sound cfg { s with heap := s.heap.setStatus o .dying } log := by
  refine hs.evolve (Heap.evolves_setStatus o (by decide)) (fun i o' ho' hlive' => ?_)
    fun i o' _ hplaced => ?_
  · have hne : o' ≠ o := fun h => hkept i (h ▸ ho')
    exact (Heap.status?_setStatus_of_ne _ hne).trans hlive'
  · by_cases ho : o' = o
    · refine .inr ?_
      rw [Heap.status?_setStatus, ho, hlive]
      simp
    · rw [Heap.Placed, Heap.status?_setStatus_of_ne _ ho]
      exact hplaced

/-- A dying object no entry watches may be freed. -/
theorem Sound.free (hs : Sound cfg s log) {o : ℕ} (ho : s.heap.status? o = some .dying)
    (hwatched : ∀ i, o ∉ (s.caches i).watched) :
    Sound cfg { s with heap := s.heap.setStatus o .freed } log := by
  refine hs.evolve (Heap.evolves_setStatus o (by decide)) (fun i o' _ hlive' => ?_)
    fun i o' ho' hplaced => ?_
  · have hne : o' ≠ o := by
      rintro rfl
      rw [Heap.Live, ho] at hlive'
      cases hlive'
    exact (Heap.status?_setStatus_of_ne _ hne).trans hlive'
  · have hne : o' ≠ o := fun h => hwatched i (h ▸ ho')
    rw [Heap.Placed, Heap.status?_setStatus_of_ne _ hne]
    exact hplaced

/-- Nothing is cached at the start. -/
theorem sound_start : Sound cfg (start : System ι K τ) [] where
  placed _ _ _ h := by cases h
  kept _ _ _ _ _ h := by cases h
  making _ _ h := by cases h
  told _ h := by cases h
  alike _ h := by cases h

end

/-! ### Runs -/

variable [DecidableEq ι]

/-- A request's lookup, where the lock is free: an answer, or the lock. -/
def request (cfg : Config ι K τ) (s : System ι K τ) (i : ι) (source : ℕ) (key : K) :
    System ι K τ × List (Answer ι K) :=
  let c := s.caches i
  let address := s.heap.address source
  match c.held address key with
  | some made => (s, [⟨i, source, key, made⟩])
  | none =>
    let c := if cfg.early i then c.watch address source else c
    (s.setCache i { c with making := some ⟨source, key, none⟩ }, [])

/-- One step, where it can be taken. -/
def step [Fintype ι] (cfg : Config ι K τ) (s : System ι K τ) :
    Event ι K τ → Option (System ι K τ × List (Answer ι K))
  | .create address tag =>
    if h : cfg.own tag = true ∧ s.heap.Free address then
      some ({ s with heap := s.heap.create address tag h.2 }, [])
    else none
  | .die o =>
    if s.heap.Live o ∧ ∀ i, o ∉ (s.caches i).strong then
      some ({ s with heap := s.heap.setStatus o .dying }, [])
    else none
  | .callback i o =>
    if s.heap.status? o = some .dying then
      some (s.setCache i ((s.caches i).drop (s.heap.address o)), [])
    else none
  | .free o =>
    if s.heap.status? o = some .dying ∧ ∀ i, o ∉ (s.caches i).watched then
      some ({ s with heap := s.heap.setStatus o .freed }, [])
    else none
  | .request i source key =>
    if s.heap.Live source ∧ (s.caches i).making.isNone then some (s.request cfg i source key)
    else none
  | .make i address tag =>
    match (s.caches i).making with
    | some ⟨source, key, none⟩ =>
      if h : Makes cfg s.heap i source key tag ∧ s.heap.Free address then
        let c := { s.caches i with making := some ⟨source, key, some s.heap.next⟩ }
        some ({ s with heap := s.heap.create address tag h.2 }.setCache i c, [])
      else none
    | _ => none
  | .adopt i o =>
    match (s.caches i).making with
    | some ⟨source, key, none⟩ =>
      if s.heap.Live o ∧ Made cfg s.heap i source key o then
        some (s.setCache i { s.caches i with making := some ⟨source, key, some o⟩ }, [])
      else none
    | _ => none
  | .keep i =>
    match (s.caches i).making with
    | some ⟨source, key, some made⟩ =>
      some (s.setCache i ((s.caches i).keep (s.heap.address source) source key made),
        [⟨i, source, key, made⟩])
    | _ => none
  | .abandon i => some (s.setCache i { s.caches i with making := none }, [])

/-- A run, and the answers it gives. -/
def run [Fintype ι] (cfg : Config ι K τ) (s : System ι K τ) :
    List (Event ι K τ) → Option (System ι K τ × List (Answer ι K))
  | [] => some (s, [])
  | e :: es => (s.step cfg e).bind fun (s', answers) =>
    (run cfg s' es).map fun (s'', answers') => (s'', answers ++ answers')

/-! ### What holds of every run -/

section
variable {cfg : Config ι K τ} {s : System ι K τ} {log : List (Answer ι K)}

/-- A cache may be another, if what it held for a live object it still holds. -/
theorem Sound.withCache (hs : Sound cfg s log) {i : ι} {c : Cache K}
    (hplaced : ∀ address entry, c.entries.get? address = some entry →
      s.heap.Placed entry.1 ∧ s.heap.address entry.1 = address)
    (hkept : ∀ address entry key made, c.entries.get? address = some entry →
      entry.2.get? key = some made → s.heap.Live made ∧ Made cfg s.heap i entry.1 key made)
    (hmaking : ∀ m, c.making = some m → s.heap.Live m.source ∧
      c.held (s.heap.address m.source) m.key = none ∧
      ∀ made, m.made = some made → s.heap.Live made ∧ Made cfg s.heap i m.source m.key made)
    (hheld : ∀ source key made, s.heap.Live source →
      (s.caches i).held (s.heap.address source) key = some made →
      c.held (s.heap.address source) key = some made) :
    Sound cfg (s.setCache i c) log := by
  refine ⟨forall_caches_setCache (P := fun _ c => ∀ address entry, c.entries.get? address = some entry →
      s.heap.Placed entry.1 ∧ s.heap.address entry.1 = address) hplaced hs.placed,
    forall_caches_setCache (P := fun j c => ∀ address entry key made,
      c.entries.get? address = some entry → entry.2.get? key = some made →
        s.heap.Live made ∧ Made cfg s.heap j entry.1 key made) hkept hs.kept,
    forall_caches_setCache (P := fun j c => ∀ m, c.making = some m → s.heap.Live m.source ∧
      c.held (s.heap.address m.source) m.key = none ∧
      ∀ made, m.made = some made → s.heap.Live made ∧ Made cfg s.heap j m.source m.key made)
      hmaking hs.making, fun a ha => ?_, hs.alike⟩
  obtain ⟨hmade, hlives⟩ := hs.told a ha
  refine ⟨hmade, fun hlive => ?_⟩
  have htold := hlives hlive
  by_cases hj : a.cache = i
  · rw [hj] at htold ⊢
    rw [caches_setCache_self]
    exact hheld a.source a.key a.object hlive htold
  · rw [caches_setCache_of_ne s c hj]
    exact htold

/-- The lock may be released, or held by a request that found nothing and has made nothing else. -/
theorem Sound.lock (hs : Sound cfg s log) (i : ι) (making : Option (Making K))
    (hmaking : ∀ m, making = some m → s.heap.Live m.source ∧
      (s.caches i).held (s.heap.address m.source) m.key = none ∧
      ∀ made, m.made = some made → s.heap.Live made ∧ Made cfg s.heap i m.source m.key made) :
    Sound cfg (s.setCache i { s.caches i with making := making }) log :=
  hs.withCache (hs.placed i) (hs.kept i) hmaking fun _ _ _ _ h => h

/-- A live object's entry may be written, as it is. -/
theorem Sound.watch (hs : Sound cfg s log) {i : ι} {source : ℕ} (hlive : s.heap.Live source) :
    Sound cfg (s.setCache i ((s.caches i).watch (s.heap.address source) source)) log := by
  have hentry := hs.entry_source (i := i) hlive
  refine hs.withCache (fun address entry hget => ?_) (fun address entry key made hget hkey => ?_)
    (fun m hm => ?_) (fun source' key made _ h => ?_)
  · rw [Cache.watch, Dict.get?_set] at hget
    split at hget
    · next haddress =>
      cases hget
      rw [hentry, haddress]
      exact ⟨hlive.placed, rfl⟩
    · exact hs.placed i address entry hget
  · rw [Cache.watch, Dict.get?_set] at hget
    split at hget
    · cases hget
      rw [Cache.get?_entry] at hkey
      rw [hentry]
      exact hs.made_of_held hlive hkey
    · exact hs.kept i address entry key made hget hkey
  · obtain ⟨hsource, hnone, hmade⟩ := hs.making i m hm
    exact ⟨hsource, (Cache.held_watch _ _ _ _).trans hnone, hmade⟩
  · rw [Cache.held_watch]
    exact h

/-- A request answers what is held, or takes the lock over an entry that is its source's. -/
theorem Sound.request (hs : Sound cfg s log) (i : ι) {source : ℕ} (key : K)
    (hlive : s.heap.Live source) :
    Sound cfg (s.request cfg i source key).1 (log ++ (s.request cfg i source key).2) := by
  unfold System.request
  simp only
  cases hheld : (s.caches i).held (s.heap.address source) key with
  | some made => exact hs.tell (a := ⟨i, source, key, made⟩) hlive hheld
  | none =>
    rw [List.append_nil]
    cases hearly : cfg.early i with
    | false =>
      refine hs.lock i _ fun m hm => ?_
      cases hm
      exact ⟨hlive, hheld, fun made h => by cases h⟩
    | true =>
      have hlocked := (hs.watch hlive).lock i (some ⟨source, key, none⟩) fun m hm => by
          cases hm
          rw [caches_setCache_self]
          exact ⟨hlive, (Cache.held_watch _ _ _ _).trans hheld, fun made h => by cases h⟩
      rw [setCache_setCache, caches_setCache_self] at hlocked
      exact hlocked

/-- The lock's holder keeps what it made and answers it. -/
theorem Sound.keep (hs : Sound cfg s log) {i : ι} {source made : ℕ} {key : K}
    (hmaking : (s.caches i).making = some ⟨source, key, some made⟩) :
    Sound cfg (s.setCache i ((s.caches i).keep (s.heap.address source) source key made))
      (log ++ [⟨i, source, key, made⟩]) := by
  obtain ⟨hlive, hnone, hmade⟩ := hs.making i _ hmaking
  have hmade := hmade made rfl
  have hentry := hs.entry_source (i := i) hlive
  have hkept : Sound cfg
      (s.setCache i ((s.caches i).keep (s.heap.address source) source key made)) log := by
    refine hs.withCache (fun address entry hget => ?_)
      (fun address entry key' made' hget hkey => ?_) (fun m hm => by cases hm)
      (fun source' key' made' hlive' h => ?_)
    · rw [Cache.keep, Dict.get?_set] at hget
      split at hget
      · next haddress =>
        cases hget
        rw [hentry, haddress]
        exact ⟨hlive.placed, rfl⟩
      · exact hs.placed i address entry hget
    · rw [Cache.keep, Dict.get?_set] at hget
      split at hget
      · cases hget
        rw [hentry]
        rw [Dict.get?_set] at hkey
        split at hkey
        · next hk =>
          cases hkey
          exact hk ▸ hmade
        · rw [Cache.get?_entry] at hkey
          exact hs.made_of_held hlive hkey
      · exact hs.kept i address entry key' made' hget hkey
    · rw [Cache.held_keep]
      split
      · next hsame =>
        -- nothing was held for the request's own address and key
        rw [hsame.1, hsame.2] at h
        exact absurd (hnone.symm.trans h) (by simp)
      · exact h
  refine hkept.tell (a := ⟨i, source, key, made⟩) hlive ?_
  rw [caches_setCache_self]
  exact (Cache.held_keep _ _ _ _ _ _).trans (if_pos ⟨rfl, rfl⟩)

/-- A dying object's entry may be dropped. -/
theorem Sound.callback (hs : Sound cfg s log) {i : ι} {o : ℕ}
    (ho : s.heap.status? o = some .dying) :
    Sound cfg (s.setCache i ((s.caches i).drop (s.heap.address o))) log := by
  have hother : ∀ source, s.heap.Live source → s.heap.address source ≠ s.heap.address o := by
    intro source hlive haddress
    have hsame := Heap.eq_of_address hlive.placed (.inr ho) haddress
    rw [hsame, Heap.Live, ho] at hlive
    cases hlive
  have hget : ∀ address entry, ((s.caches i).drop (s.heap.address o)).entries.get? address =
      some entry → (s.caches i).entries.get? address = some entry := by
    intro address entry h
    rw [Cache.drop, Dict.get?_without] at h
    split at h
    · cases h
    · exact h
  have hheld : ∀ source key, s.heap.Live source →
      ((s.caches i).drop (s.heap.address o)).held (s.heap.address source) key =
        (s.caches i).held (s.heap.address source) key := by
    intro source key hlive
    rw [Cache.held_drop, if_neg (hother source hlive)]
  refine hs.withCache (fun address entry h => hs.placed i address entry (hget address entry h))
    (fun address entry key made h => hs.kept i address entry key made (hget address entry h))
    (fun m hm => ?_) (fun source key made hlive h => ?_)
  · obtain ⟨hlive, hnone, hmade⟩ := hs.making i m hm
    exact ⟨hlive, (hheld m.source m.key hlive).trans hnone, hmade⟩
  · rw [hheld source key hlive]
    exact h

/-- The lock's holder has made an object, or taken one there is. -/
theorem Sound.made (hs : Sound cfg s log) {i : ι} {source made : ℕ} {key : K}
    (hmaking : (s.caches i).making = some ⟨source, key, none⟩) (hlive : s.heap.Live made)
    (hmade : Made cfg s.heap i source key made) :
    Sound cfg (s.setCache i { s.caches i with making := some ⟨source, key, some made⟩ }) log := by
  obtain ⟨hsource, hnone, -⟩ := hs.making i _ hmaking
  refine hs.lock i _ fun m hm => ?_
  cases hm
  exact ⟨hsource, hnone, fun made' h => by cases h; exact ⟨hlive, hmade⟩⟩

variable [Fintype ι]

/-- A step keeps the caches sound. -/
theorem Sound.step (hs : Sound cfg s log) {e : Event ι K τ} {s' : System ι K τ}
    {answers : List (Answer ι K)} (h : s.step cfg e = some (s', answers)) :
    Sound cfg s' (log ++ answers) := by
  cases e with
  | create address tag =>
    rw [System.step] at h
    split at h
    · next hguard =>
      cases h
      rw [List.append_nil]
      exact hs.create tag hguard.2
    · cases h
  | die o =>
    rw [System.step] at h
    split at h
    · next hguard =>
      cases h
      rw [List.append_nil]
      exact hs.die hguard.1 hguard.2
    · cases h
  | callback i o =>
    rw [System.step] at h
    split at h
    · next hguard =>
      cases h
      rw [List.append_nil]
      exact hs.callback hguard
    · cases h
  | free o =>
    rw [System.step] at h
    split at h
    · next hguard =>
      cases h
      rw [List.append_nil]
      exact hs.free hguard.1 hguard.2
    · cases h
  | request i source key =>
    rw [System.step] at h
    split at h
    · next hguard =>
      have hrequest := hs.request i key hguard.1
      rw [Option.some.inj h] at hrequest
      exact hrequest
    · cases h
  | make i address tag =>
    rw [System.step] at h
    split at h
    · next source key hmaking =>
      split at h
      · next hguard =>
        cases h
        rw [List.append_nil]
        have hcreated := hs.create tag hguard.2
        refine hcreated.made hmaking (Heap.live_create_next hguard.2)
          ⟨tag, Heap.tag?_create_next hguard.2, ?_⟩
        obtain ⟨t, ht, hok⟩ := (Option.any_eq_true _ _).1 hguard.1
        exact (Option.any_eq_true _ _).2 ⟨t, (Heap.evolves_create hguard.2).tag _ _ ht, hok⟩
      · cases h
    · cases h
  | adopt i o =>
    rw [System.step] at h
    split at h
    · next source key hmaking =>
      split at h
      · next hguard =>
        cases h
        rw [List.append_nil]
        exact hs.made hmaking hguard.1 hguard.2
      · cases h
    · cases h
  | keep i =>
    rw [System.step] at h
    split at h
    · next source key made hmaking =>
      cases h
      exact hs.keep hmaking
    · cases h
  | abandon i =>
    cases h
    rw [List.append_nil]
    exact hs.lock i none fun m hm => by cases hm

/-- A run keeps them. -/
theorem Sound.run (hs : Sound cfg s log) {events : List (Event ι K τ)} {s' : System ι K τ}
    {answers : List (Answer ι K)} (h : s.run cfg events = some (s', answers)) :
    Sound cfg s' (log ++ answers) := by
  induction events generalizing s log answers with
  | nil =>
    cases h
    rw [List.append_nil]
    exact hs
  | cons e events ih =>
    obtain ⟨⟨s₁, first⟩, hstep, hrest⟩ := Option.bind_eq_some_iff.1 h
    obtain ⟨⟨s₂, rest⟩, hrun, hpair⟩ := Option.map_eq_some_iff.1 hrest
    cases hpair
    rw [← List.append_assoc]
    exact ih (hs.step hstep) hrun

/-- **In every run each answer was made of the very object asked about, for the key asked for, and
all answers to one request are one object.** -/
theorem run_answers {events : List (Event ι K τ)} {s' : System ι K τ} {answers : List (Answer ι K)}
    (h : start.run cfg events = some (s', answers)) :
    (∀ a ∈ answers, Made cfg s'.heap a.cache a.source a.key a.object) ∧
      ∀ a ∈ answers, ∀ b ∈ answers, a.cache = b.cache → a.source = b.source → a.key = b.key →
        a.object = b.object := by
  have hs : Sound cfg s' answers := sound_start.run h
  exact ⟨fun a ha => (hs.told a ha).1, hs.alike⟩

end

end System

end Lib.Identity
