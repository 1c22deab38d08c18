import Mathlib.Logic.Function.Basic
import RestFrameworkServices.Lib.Dict

/-!
# Mappings as objects

Mappings that hold each other by reference, so that one may stand at several paths and a write through
one path is seen through the others. A `MappingHeap` gives each reference its mapping; a value read from
one (`Slot`) is a reference or a leaf.

What a run of writes may reach is told by `Changed`: every slot is as it was, or holds a value the run
was given, at a place it may write or in a mapping a given value holds. A path that was followed before
is followed still, or leads into a given value (`Changed.at?_cases`), so a write through a path keeps
`Changed` (`Changed.setItem`), and a path over untouched places reads what it did
(`Changed.at?_eq`).
-/

namespace Lib

universe u v w

/-- What a mapping holds under a key: another mapping, by reference, or a leaf. -/
inductive Slot (R : Type u) (α : Type v) where
  | ref (r : R)
  | leaf (value : α)

/-- A mapping object: its entries, and whether it takes writes. -/
structure MappingObject (κ : Type w) (R : Type u) (α : Type v) where
  mutable : Bool
  entries : Dict κ (Slot R α)

/-- The mapping each reference is to. -/
abbrev MappingHeap (κ : Type w) (R : Type u) (α : Type v) := R → MappingObject κ R α

namespace MappingHeap

variable {κ : Type w} {R : Type u} {α : Type v} [DecidableEq κ]

section
variable (h : MappingHeap κ R α)

/-- What a slot holds under a key, if it is a mapping. -/
def get? : Slot R α → κ → Option (Slot R α)
  | .ref r, key => (h r).entries.get? key
  | .leaf _, _ => none

/-- The slot at a path of keys. -/
def at? : List κ → Slot R α → Option (Slot R α)
  | [], s => some s
  | key :: path, s => (h.get? s key).bind (at? path)

/-- The places a path goes by: each mapping on it, with the key read from it. -/
def route : List κ → Slot R α → List (R × κ)
  | [], _ => []
  | key :: path, .ref r =>
    (r, key) :: match (h r).entries.get? key with
      | some s => route path s
      | none => []
  | _ :: _, .leaf _ => []

/-- Write a key a mutable mapping has. -/
def setItem [DecidableEq R] (s : Slot R α) (key : κ) (value : Slot R α) : MappingHeap κ R α :=
  match s with
  | .ref r =>
    if (h r).mutable = true ∧ key ∈ (h r).entries then
      Function.update h r ⟨(h r).mutable, (h r).entries.set key value⟩
    else h
  | .leaf _ => h

/-- Write the last key of a path, in the mapping the rest of it leads to. -/
def writeAt [DecidableEq R] (data : Slot R α) (path : List κ) (value : Slot R α) :
    MappingHeap κ R α :=
  match path.getLast? with
  | none => h
  | some last =>
    match h.at? path.dropLast data with
    | some s => h.setItem s last value
    | none => h

/-- Values written one after another, each at its path. -/
def writeAll [DecidableEq R] (data : Slot R α) (writes : List (List κ × Slot R α)) :
    MappingHeap κ R α :=
  writes.foldl (fun h w => h.writeAt data w.1 w.2) h

/-- A path ends at a key that a mutable mapping has. -/
structure Writable (path : List κ) (data : Slot R α) (r : R) (key : κ) : Prop where
  ends : ∃ init, path = init ++ [key] ∧ h.at? init data = some (.ref r)
  mutable : (h r).mutable = true
  present : key ∈ (h r).entries

/-- A mapping is one of the given slots, or held by one. -/
inductive Within (given : Slot R α → Prop) : R → Prop where
  | given {r : R} : given (.ref r) → Within given r
  | held {r r' : R} {key : κ} : Within given r → (h r).entries.get? key = some (.ref r') →
    Within given r'

end

/-! ## Paths -/

section
variable {h h' : MappingHeap κ R α} {s data : Slot R α}

@[simp] theorem at?_nil (s : Slot R α) : h.at? [] s = some s := rfl

@[simp] theorem at?_cons (key : κ) (path : List κ) (s : Slot R α) :
    h.at? (key :: path) s = (h.get? s key).bind (h.at? path) := rfl

/-- A path is read in two parts. -/
theorem at?_append : ∀ (path rest : List κ) (s : Slot R α),
    h.at? (path ++ rest) s = (h.at? path s).bind (h.at? rest)
  | [], _, _ => rfl
  | key :: path, rest, s => by
    rw [List.cons_append, at?_cons, at?_cons]
    cases h.get? s key with
    | none => rfl
    | some t => exact at?_append path rest t

/-- A place on a path's route is where a prefix of the path leads, with the key after it. -/
theorem mem_route_iff {r : R} {key : κ} : ∀ {path : List κ} {s : Slot R α},
    (r, key) ∈ h.route path s ↔ ∃ init, init ++ [key] <+: path ∧ h.at? init s = some (.ref r)
  | [], s => by
    refine iff_of_false List.not_mem_nil ?_
    rintro ⟨init, habove, -⟩
    cases init <;> cases List.prefix_nil.1 habove
  | next :: path, .leaf value => by
    refine iff_of_false List.not_mem_nil ?_
    rintro ⟨init, habove, hinit⟩
    cases init with
    | nil => cases hinit
    | cons first init => cases hinit
  | next :: path, .ref r' => by
    rw [route, List.mem_cons]
    constructor
    · rintro (hhere | hthere)
      · cases hhere
        exact ⟨[], List.cons_prefix_cons.2 ⟨rfl, List.nil_prefix⟩, rfl⟩
      · split at hthere
        · next t ht =>
          obtain ⟨init, habove, hinit⟩ := mem_route_iff.1 hthere
          refine ⟨next :: init, List.cons_prefix_cons.2 ⟨rfl, habove⟩, ?_⟩
          rw [at?_cons, get?, ht, Option.bind_some, hinit]
        · cases hthere
    · rintro ⟨init, habove, hinit⟩
      cases init with
      | nil =>
        cases hinit
        cases (List.cons_prefix_cons.1 habove).1
        exact .inl rfl
      | cons first init =>
        obtain ⟨rfl, hrest⟩ := List.cons_prefix_cons.1 habove
        rw [at?_cons, get?] at hinit
        obtain ⟨t, ht, hinit⟩ := Option.bind_eq_some_iff.1 hinit
        right
        rw [ht]
        exact mem_route_iff.2 ⟨init, hrest, hinit⟩

/-- A path that can be written has a key. -/
theorem Writable.ne_nil {path : List κ} {r : R} {key : κ} (hw : h.Writable path data r key) :
    path ≠ [] := by
  obtain ⟨init, rfl, -⟩ := hw.ends
  exact List.append_ne_nil_of_right_ne_nil _ (List.cons_ne_nil _ _)

/-- A path goes by the place it ends at. -/
theorem Writable.mem_route {path : List κ} {r : R} {key : κ} (hw : h.Writable path data r key) :
    (r, key) ∈ h.route path data := by
  obtain ⟨init, rfl, hinit⟩ := hw.ends
  exact mem_route_iff.2 ⟨init, List.prefix_refl _, hinit⟩

/-- A path reads what it did where every place it goes by holds what it did. -/
theorem at?_congr : ∀ {path : List κ} {s : Slot R α},
    (∀ r key, (r, key) ∈ h.route path s →
      (h' r).entries.get? key = (h r).entries.get? key) → h'.at? path s = h.at? path s
  | [], _, _ => rfl
  | _ :: _, .leaf _, _ => rfl
  | key :: path, .ref r, hroute => by
    rw [at?_cons, at?_cons, get?, get?, hroute r key List.mem_cons_self]
    cases ht : (h r).entries.get? key with
    | none => rfl
    | some t =>
      refine at?_congr fun r' key' hmem => hroute r' key' ?_
      rw [route, ht]
      exact List.mem_cons_of_mem _ hmem

end

/-! ## Writes -/

/-- What more slots hold is more. -/
theorem Within.mono {h : MappingHeap κ R α} {given given' : Slot R α → Prop} {r : R}
    (hr : h.Within given r) (hgiven : ∀ s, given s → given' s) : h.Within given' r := by
  induction hr with
  | given hs => exact .given (hgiven _ hs)
  | held _ hkey ih => exact .held ih hkey

/-- What a run of writes leaves of a heap: each mapping's keys, and under each the slot it held, or a
given one, at one of some places or in a mapping within a given slot. -/
structure Changed (h : MappingHeap κ R α) (places : R → κ → Prop) (given : Slot R α → Prop)
    (h' : MappingHeap κ R α) : Prop where
  mutable : ∀ r, (h' r).mutable = (h r).mutable
  keys : ∀ r, (h' r).entries.keys = (h r).entries.keys
  slots : ∀ r key s, (h' r).entries.get? key = some s → (h r).entries.get? key = some s ∨
    (given s ∧ (places r key ∨ h.Within given r))

section
variable {h h' : MappingHeap κ R α} {places : R → κ → Prop} {given : Slot R α → Prop}

/-- Nothing written changes nothing. -/
theorem Changed.refl : Changed h places given h where
  mutable _ := rfl
  keys _ := rfl
  slots _ _ _ hs := .inl hs

/-- No key comes or goes. -/
theorem Changed.mem_iff (hc : Changed h places given h') {r : R} {key : κ} :
    key ∈ (h' r).entries ↔ key ∈ (h r).entries := by
  show key ∈ (h' r).entries.keys ↔ key ∈ (h r).entries.keys
  rw [hc.keys r]

/-- A place that may not be written, of a mapping within no given slot, holds what it did. -/
theorem Changed.get?_eq (hc : Changed h places given h') {r : R} {key : κ} (hplace : ¬ places r key)
    (hwithin : ¬ h.Within given r) : (h' r).entries.get? key = (h r).entries.get? key := by
  cases hs : (h' r).entries.get? key with
  | none => rw [Dict.get?_eq_none.2 fun hmem => Dict.get?_eq_none.1 hs (hc.mem_iff.2 hmem)]
  | some s =>
    rcases hc.slots r key s hs with hsame | ⟨-, hplace' | hwithin'⟩
    · exact hsame.symm
    · exact absurd hplace' hplace
    · exact absurd hwithin' hwithin

/-- What a given slot holds after the writes, it held, or is held by another given slot. -/
theorem Changed.within (hc : Changed h places given h') {r : R} (hr : h'.Within given r) :
    h.Within given r := by
  induction hr with
  | given hgiven => exact .given hgiven
  | held _ hkey ih =>
    rcases hc.slots _ _ _ hkey with hsame | ⟨hgiven, -⟩
    · exact .held ih hsame
    · exact .given hgiven

/-- A path from a mapping within a given slot stays within. -/
theorem Changed.within_of_at? (hc : Changed h places given h') {r : R} : ∀ {path : List κ}
    {s : Slot R α}, h'.at? path s = some (.ref r) → (∀ r', s = .ref r' → h.Within given r') →
      h.Within given r
  | [], s, hat, hs => hs r (Option.some.inj hat)
  | key :: path, .leaf _, hat, _ => by cases hat
  | key :: path, .ref r', hat, hs => by
    obtain ⟨t, ht, hat⟩ := Option.bind_eq_some_iff.1 hat
    refine within_of_at? hc hat fun r'' hr'' => ?_
    subst hr''
    rcases hc.slots _ _ _ ht with hsame | ⟨hgiven, -⟩
    · exact .held (hs r' rfl) hsame
    · exact .given hgiven

/-- A path leads where it did, or within a given slot. -/
theorem Changed.at?_cases (hc : Changed h places given h') {r : R} : ∀ {path : List κ}
    {s : Slot R α}, h'.at? path s = some (.ref r) →
      h.at? path s = some (.ref r) ∨ h.Within given r
  | [], _, hat => .inl hat
  | _ :: _, .leaf _, hat => by cases hat
  | key :: path, .ref r', hat => by
    obtain ⟨t, ht, hat⟩ := Option.bind_eq_some_iff.1 hat
    rcases hc.slots _ _ _ ht with hsame | ⟨hgiven, -⟩
    · rw [at?_cons, get?, hsame]
      exact at?_cases hc hat
    · refine .inr (hc.within_of_at? hat fun r'' hr'' => ?_)
      subst hr''
      exact .given hgiven

/-- A path over places that hold what they did reads what it did. -/
theorem Changed.at?_eq (hc : Changed h places given h') {path : List κ} {s : Slot R α}
    (hroute : ∀ r key, (r, key) ∈ h.route path s → ¬ places r key ∧ ¬ h.Within given r) :
    h'.at? path s = h.at? path s :=
  at?_congr fun r key hmem => hc.get?_eq (hroute r key hmem).1 (hroute r key hmem).2

/-- What is writable after the writes was so, or is within a given slot. -/
theorem Changed.writable_cases (hc : Changed h places given h') {path : List κ} {data : Slot R α}
    {r : R} {key : κ} (hw : h'.Writable path data r key) :
    h.Writable path data r key ∨ h.Within given r := by
  obtain ⟨init, hpath, hat⟩ := hw.ends
  rcases hc.at?_cases hat with hat | hwithin
  · exact .inl ⟨⟨init, hpath, hat⟩, hc.mutable r ▸ hw.mutable, hc.mem_iff.1 hw.present⟩
  · exact .inr hwithin

/-- A run writes nowhere in a leaf. -/
theorem not_writable_leaf {value : α} {path : List κ} {r : R} {key : κ} :
    ¬ h.Writable path (.leaf value) r key := by
  rintro ⟨⟨init, -, hinit⟩, -, -⟩
  cases init <;> cases hinit

/-- No mapping of some data stands at two paths, and none is within a given slot. -/
structure Unshared (h : MappingHeap κ R α) (given : Slot R α → Prop) (data : Slot R α) : Prop where
  once : ∀ p q r, h.at? p data = some (.ref r) → h.at? q data = some (.ref r) → p = q
  fresh : ∀ p r, h.at? p data = some (.ref r) → ¬ h.Within given r

/-- Then only the paths at or below a path go by its place. -/
theorem Unshared.prefix_of_mem_route {data : Slot R α} (hu : Unshared h given data)
    {path q : List κ} {r : R} {key : κ} (hwritable : h.Writable path data r key)
    (hmem : (r, key) ∈ h.route q data) : path <+: q := by
  obtain ⟨init, rfl, hinit⟩ := hwritable.ends
  obtain ⟨init', habove, hinit'⟩ := mem_route_iff.1 hmem
  rw [hu.once _ _ r hinit hinit']
  exact habove

/-- And none it goes by is within a given slot. -/
theorem Unshared.not_within {data : Slot R α} (hu : Unshared h given data) {q : List κ} {r : R}
    {key : κ} (hmem : (r, key) ∈ h.route q data) : ¬ h.Within given r := by
  obtain ⟨init, -, hinit⟩ := mem_route_iff.1 hmem
  exact hu.fresh init r hinit

variable [DecidableEq R]

/-- A write of a given slot, at a place that may be written or in a mapping within a given slot. -/
theorem Changed.setItem (hc : Changed h places given h') {s value : Slot R α} {key : κ}
    (hgiven : given value)
    (hs : ∀ r, s = .ref r → (h' r).mutable = true → key ∈ (h' r).entries →
      places r key ∨ h.Within given r) :
    Changed h places given (h'.setItem s key value) := by
  cases s with
  | leaf _ => exact hc
  | ref r =>
    rw [MappingHeap.setItem]
    split
    · next hwritable =>
      refine ⟨fun r' => ?_, fun r' => ?_, fun r' key' t ht => ?_⟩ <;> by_cases hr : r' = r
      · subst hr
        rw [Function.update_self]
        exact hc.mutable r'
      · rw [Function.update_of_ne hr]
        exact hc.mutable r'
      · subst hr
        rw [Function.update_self, ← hc.keys r']
        exact keysOf_assign_of_mem hwritable.2
      · rw [Function.update_of_ne hr]
        exact hc.keys r'
      · subst hr
        rw [Function.update_self] at ht
        dsimp only at ht
        rw [Dict.get?_set] at ht
        split at ht
        · next hkey =>
          cases ht
          exact .inr ⟨hgiven, hkey ▸ hs r' rfl hwritable.1 hwritable.2⟩
        · exact hc.slots r' key' t ht
      · rw [Function.update_of_ne hr] at ht
        exact hc.slots r' key' t ht
    · exact hc

/-- What is set of a mutable mapping is there. -/
theorem get?_setItem_self {r : R} {key : κ} {value : Slot R α} (hmutable : (h r).mutable = true)
    (hmem : key ∈ (h r).entries) :
    ((h.setItem (.ref r) key value) r).entries.get? key = some value := by
  rw [MappingHeap.setItem, if_pos ⟨hmutable, hmem⟩, Function.update_self]
  dsimp only
  rw [Dict.get?_set, if_pos rfl]

/-- Every other place holds what it did. -/
theorem get?_setItem_of_ne {r r' : R} {key key' : κ} {value : Slot R α}
    (hne : (r', key') ≠ (r, key)) :
    ((h.setItem (.ref r) key value) r').entries.get? key' = (h r').entries.get? key' := by
  rw [MappingHeap.setItem]
  split
  · by_cases hr : r' = r
    · subst hr
      rw [Function.update_self]
      dsimp only
      rw [Dict.get?_set, if_neg fun hkey => hne (by rw [hkey])]
    · rw [Function.update_of_ne hr]
  · rfl

/-- A path's write reaches a place where it was writable, or a mapping within a given slot. -/
theorem Changed.writeAt (hc : Changed h places given h') {data value : Slot R α} {path : List κ}
    (hgiven : given value) (hplaces : ∀ r key, h.Writable path data r key → places r key) :
    Changed h places given (h'.writeAt data path value) := by
  rw [MappingHeap.writeAt.eq_def]
  split
  · exact hc
  · next last hlast =>
    split
    · next s hs =>
      refine hc.setItem hgiven fun r hr hmutable hmem => ?_
      subst hr
      have hpath : path = path.dropLast ++ [last] :=
        (List.dropLast_append_getLast? last hlast).symm
      exact (hc.writable_cases ⟨⟨_, hpath, hs⟩, hmutable, hmem⟩).imp_left (hplaces r last)
    · exact hc

/-- So do the writes of a run. -/
theorem Changed.writeAll {data : Slot R α} : ∀ {writes : List (List κ × Slot R α)}
    {h' : MappingHeap κ R α}, Changed h places given h' → (∀ w ∈ writes, given w.2) →
      (∀ w ∈ writes, ∀ r key, h.Writable w.1 data r key → places r key) →
      Changed h places given (h'.writeAll data writes)
  | [], _, hc, _, _ => hc
  | w :: _, _, hc, hgiven, hplaces =>
    (hc.writeAt (hgiven w List.mem_cons_self) (hplaces w List.mem_cons_self)).writeAll
      (fun w' hw' => hgiven w' (List.mem_cons_of_mem w hw'))
      (fun w' hw' => hplaces w' (List.mem_cons_of_mem w hw'))

/-- A part of a run changes the places where a path of the run was writable, and what the written
slots hold. -/
theorem changed_writeAll (h : MappingHeap κ R α) (data : Slot R α)
    {part writes : List (List κ × Slot R α)} (hpart : part ⊆ writes) :
    Changed h (fun r key => ∃ w ∈ writes, h.Writable w.1 data r key)
      (fun s => ∃ w ∈ writes, w.2 = s) (h.writeAll data part) :=
  Changed.refl.writeAll (fun w hw => ⟨w, hpart hw, rfl⟩)
    fun w hw _ _ hwritable => ⟨w, hpart hw, hwritable⟩

/-- A path that is not writable writes nothing. -/
theorem writeAt_eq_self {data value : Slot R α} {path : List κ}
    (hnone : ∀ r key, ¬ h.Writable path data r key) : h.writeAt data path value = h := by
  rw [writeAt.eq_def]
  split
  · rfl
  · next last hlast =>
    split
    · next s hs =>
      cases s with
      | leaf _ => rfl
      | ref r =>
        rw [setItem, if_neg]
        rintro ⟨hmutable, hmem⟩
        exact hnone r last
          ⟨⟨_, (List.dropLast_append_getLast? last hlast).symm, hs⟩, hmutable, hmem⟩
    · rfl

/-- One that is writes its place. -/
theorem Writable.writeAt_eq {data : Slot R α} {path : List κ} {r : R} {key : κ}
    (hw : h.Writable path data r key) (value : Slot R α) :
    h.writeAt data path value = h.setItem (.ref r) key value := by
  obtain ⟨init, rfl, hinit⟩ := hw.ends
  rw [writeAt, List.getLast?_concat]
  simp only [List.dropLast_concat, hinit]

/-- With no path writable, a run changes nothing. -/
theorem writeAll_eq_self {data : Slot R α} : ∀ {writes : List (List κ × Slot R α)},
    (∀ w ∈ writes, ∀ r key, ¬ h.Writable w.1 data r key) → h.writeAll data writes = h
  | [], _ => rfl
  | w :: writes, hnone => by
    show (h.writeAt data w.1 w.2).writeAll data writes = h
    rw [writeAt_eq_self (hnone w List.mem_cons_self)]
    exact writeAll_eq_self fun w' hw' => hnone w' (List.mem_cons_of_mem w hw')

/-- Two lists are written one after the other. -/
theorem writeAll_append (h : MappingHeap κ R α) (data : Slot R α)
    (pre post : List (List κ × Slot R α)) :
    h.writeAll data (pre ++ post) = (h.writeAll data pre).writeAll data post :=
  List.foldl_append

/-- **A path holds in the end what was written at it**, where no path of the run was writable on the
way to its place, no other at its place, and none of the mappings it goes by is within a written
slot. -/
theorem at?_writeAll_self {data : Slot R α} {writes pre post : List (List κ × Slot R α)}
    {path : List κ} {value : Slot R α} {r : R} {key : κ}
    (hwrites : writes = pre ++ (path, value) :: post) (hwritable : h.Writable path data r key)
    (hway : ∀ r' key', (r', key') ∈ h.route path.dropLast data →
      ∀ w ∈ writes, ¬ h.Writable w.1 data r' key')
    (hplace : ∀ w ∈ pre ++ post, ¬ h.Writable w.1 data r key)
    (hfresh : ∀ r' key', (r', key') ∈ h.route path data →
      ¬ h.Within (fun s => ∃ w ∈ writes, w.2 = s) r') :
    (h.writeAll data writes).at? path data = some value := by
  obtain ⟨⟨init, rfl, hinit⟩, hmutable, hmem⟩ := hwritable
  rw [List.dropLast_concat] at hway
  have hr : ¬ h.Within (fun s => ∃ w ∈ writes, w.2 = s) r :=
    hfresh r key (mem_route_iff.2 ⟨init, List.prefix_refl _, hinit⟩)
  -- Whatever part of the run is done, the way to the place is as it was.
  have hway' : ∀ {part}, part ⊆ writes → (h.writeAll data part).at? init data = some (.ref r) := by
    intro part hpart
    rw [(changed_writeAll h data hpart).at?_eq, hinit]
    intro r' key' hmem'
    obtain ⟨init', habove, hinit'⟩ := mem_route_iff.1 hmem'
    exact ⟨fun ⟨w, hw, hwritable⟩ => hway r' key' hmem' w hw hwritable,
      hfresh r' key' (mem_route_iff.2 ⟨init', habove.trans (List.prefix_append _ _), hinit'⟩)⟩
  -- So the value is written at it, and the writes after that leave the place alone.
  have hpre : pre ⊆ writes := fun w hw => hwrites ▸ List.mem_append_left _ hw
  have hpart : pre ++ [(init ++ [key], value)] ⊆ writes := by
    rw [hwrites, List.append_cons pre _ post]
    exact List.subset_append_left _ _
  have hwritten : ((h.writeAll data (pre ++ [(init ++ [key], value)])) r).entries.get? key =
      some value := by
    rw [writeAll_append]
    show (((h.writeAll data pre).writeAt data (init ++ [key]) value) r).entries.get? key = _
    have hc := changed_writeAll h data hpre
    have hmutable' := (hc.mutable r).trans hmutable
    have hmem' := hc.mem_iff.2 hmem
    rw [Writable.writeAt_eq ⟨⟨init, rfl, hway' hpre⟩, hmutable', hmem'⟩]
    exact get?_setItem_self hmutable' hmem'
  have hc := changed_writeAll h data hpart
  have hrest : (((h.writeAll data (pre ++ [(init ++ [key], value)])).writeAll data post) r).entries.get?
      key = ((h.writeAll data (pre ++ [(init ++ [key], value)])) r).entries.get? key := by
    refine (changed_writeAll (h.writeAll data (pre ++ [(init ++ [key], value)])) data
      (List.Subset.refl post)).get?_eq ?_ ?_
    · rintro ⟨w, hw, hwritable⟩
      rcases hc.writable_cases hwritable with hwritable | hwithin
      · exact hplace w (List.mem_append_right _ hw) hwritable
      · exact hr hwithin
    · intro hwithin
      refine hr (hc.within (hwithin.mono ?_))
      rintro s ⟨w, hw, rfl⟩
      exact ⟨w, hwrites ▸ List.mem_append_right _ (List.mem_cons_of_mem _ hw), rfl⟩
  have hsplit : h.writeAll data writes =
      (h.writeAll data (pre ++ [(init ++ [key], value)])).writeAll data post := by
    rw [hwrites, ← writeAll_append, List.append_assoc]
    rfl
  rw [at?_append, hway' (List.Subset.refl _), Option.bind_some, at?_cons, get?, hsplit, hrest,
    hwritten]
  rfl

end

end MappingHeap

end Lib
