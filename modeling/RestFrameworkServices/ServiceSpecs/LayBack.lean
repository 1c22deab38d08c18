import RestFrameworkServices.Lib.MappingHeap
import RestFrameworkServices.ServiceSpecs.SerializerValidator

/-!
# The server's values laid back into validated data

`_lay_back` writes each held value over its field's `source` in the validated data, one field after
another and in place. The data's mappings are objects (`Objects`): one may stand under two keys, or
inside a held value, and a write through one path is seen through the others.

What the writes reach is the places the sources end at, in the mappings as they were, and the mappings
within held values; `layBack_writes_sources` says what holds at a source in the end, and what is left
alone everywhere else, of any data, and in terms of paths where no mapping stands at two of them.
-/

namespace RestFrameworkServices

open Lib

universe u

/-- The mappings a call's validated data is made of. -/
abbrev Objects (R : Type u) := MappingHeap String R Value

namespace Objects

variable {R : Type u}

section
variable (h : Objects R)

/-- The target a source's keys but the last lead to, `None` past what is no mapping or has no such
key. -/
def walk (data : Slot R Value) (path : List String) : Slot R Value :=
  path.foldl (fun target key => (h.get? target key).getD (.leaf .null)) data

/-- `_lay_back`: each held value over its field's source in the data, where it still is. The source
`"*"` has no keys, and writes nothing. -/
def layBack [DecidableEq R] (serializer : Serializer) (held : Dict String (Slot R Value))
    (data : Slot R Value) : Objects R :=
  held.entries.foldl (fun h e =>
    match serializer.fields.get? e.1 with
    | some field =>
      match field.sourceAttrs.getLast? with
      | some last => h.setItem (h.walk data field.sourceAttrs.dropLast) last e.2
      | none => h
    | none => h) h

end

/-! ## The fields' writes -/

/-- The source of a held field. -/
def HeldAt (serializer : Serializer) (held : Dict String (Slot R Value)) (name : String)
    (path : List String) : Prop :=
  name ∈ held ∧ ∃ field, serializer.fields.get? name = some field ∧ field.sourceAttrs = path

/-- A held value. -/
def IsHeld (held : Dict String (Slot R Value)) (s : Slot R Value) : Prop :=
  ∃ name, held.get? name = some s

/-- Two paths are apart: neither is at or below the other. -/
def Apart (p q : List String) : Prop := ¬ p <+: q ∧ ¬ q <+: p

/-- What a call that laid `held` back left of its data: `h` the mappings before it, `h'` after. -/
structure LaidBack (serializer : Serializer) (held : Dict String (Slot R Value))
    (data : Slot R Value) (h h' : Objects R) : Prop where
  shape : ∀ r, (h' r).mutable = (h r).mutable ∧ (h' r).entries.keys = (h r).entries.keys
  written : ∀ name value path r key, held.get? name = some value →
    HeldAt serializer held name path → h.Writable path data r key →
    (∀ other path' r' key', HeldAt serializer held other path' → h.Writable path' data r' key' →
      (r', key') ∉ h.route path.dropLast data ∧ (other ≠ name → (r', key') ≠ (r, key))) →
    (∀ r' key', (r', key') ∈ h.route path data → ¬ h.Within (IsHeld held) r') →
    h'.at? path data = some value
  places : ∀ r key,
    (∀ name path, HeldAt serializer held name path → ¬ h.Writable path data r key) →
    ¬ h.Within (IsHeld held) r → (h' r).entries.get? key = (h r).entries.get? key
  paths : ∀ q, (∀ r key, (r, key) ∈ h.route q data →
      (∀ name path, HeldAt serializer held name path → ¬ h.Writable path data r key) ∧
        ¬ h.Within (IsHeld held) r) → h'.at? q data = h.at? q data
  untouched : (∀ name path r key, HeldAt serializer held name path →
    ¬ h.Writable path data r key) → h' = h
  noMapping : ∀ value, data = .leaf value → h' = h
  writtenApart : h.Unshared (IsHeld held) data →
    ∀ name value path r key, held.get? name = some value → HeldAt serializer held name path →
      h.Writable path data r key →
      (∀ other path', other ≠ name → HeldAt serializer held other path' → path' ≠ [] →
        Apart path' path) → h'.at? path data = some value
  keptApart : h.Unshared (IsHeld held) data →
    ∀ q, (∀ name path r key, HeldAt serializer held name path → h.Writable path data r key →
      ¬ path <+: q) → h'.at? q data = h.at? q data

section
variable {serializer : Serializer} {held : Dict String (Slot R Value)} {data : Slot R Value}
  {h : Objects R}

/-- The write of a held field: its value at its source. -/
def heldWrite (serializer : Serializer) (e : String × Slot R Value) :
    Option (List String × Slot R Value) :=
  (serializer.fields.get? e.1).map fun field => (field.sourceAttrs, e.2)

/-- The writes of the held fields, in order. -/
def heldWrites (serializer : Serializer) (held : Dict String (Slot R Value)) :
    List (List String × Slot R Value) :=
  held.entries.filterMap (heldWrite serializer)

/-- The walk leads where the path does. -/
theorem walk_eq_at? : ∀ (path : List String) (s : Slot R Value),
    h.walk s path = (h.at? path s).getD (.leaf .null)
  | [], _ => rfl
  | key :: path, s => by
    show h.walk ((h.get? s key).getD (.leaf .null)) path = _
    rw [walk_eq_at? path, MappingHeap.at?_cons]
    cases h.get? s key with
    | some t => rfl
    | none => cases path <;> rfl

variable [DecidableEq R]

/-- `_lay_back` writes each held value at its field's source, in order. -/
theorem layBack_eq_writeAll :
    h.layBack serializer held data = h.writeAll data (heldWrites serializer held) := by
  rw [layBack, heldWrites, MappingHeap.writeAll]
  generalize held.entries = entries
  induction entries generalizing h with
  | nil => rfl
  | cons e entries ih =>
    rw [List.foldl_cons, List.filterMap_cons, heldWrite]
    cases serializer.fields.get? e.1 with
    | none => exact ih
    | some field =>
      rw [Option.map_some, List.foldl_cons, ih, MappingHeap.writeAt.eq_def]
      congr 1
      dsimp only
      cases field.sourceAttrs.getLast? with
      | none => rfl
      | some last =>
        dsimp only
        rw [walk_eq_at?]
        cases h.at? field.sourceAttrs.dropLast data <;> rfl

omit [DecidableEq R] in
/-- The writes are the held fields' values, at their sources. -/
theorem mem_heldWrites {w : List String × Slot R Value} : w ∈ heldWrites serializer held ↔
    ∃ name, held.get? name = some w.2 ∧ HeldAt serializer held name w.1 := by
  rw [heldWrites, List.mem_filterMap]
  constructor
  · rintro ⟨e, he, hw⟩
    obtain ⟨field, hfield, rfl⟩ := Option.map_eq_some_iff.1 hw
    exact ⟨e.1, Dict.get?_eq_some.2 he, mem_keysOf_of_mem he, field, hfield, rfl⟩
  · rintro ⟨name, hvalue, -, field, hfield, hpath⟩
    refine ⟨(name, w.2), Dict.get?_eq_some.1 hvalue, ?_⟩
    rw [heldWrite, hfield, Option.map_some, hpath]

omit [DecidableEq R] in
/-- A field has one source. -/
theorem HeldAt.path_unique {name : String} {path path' : List String}
    (hheld : HeldAt serializer held name path) (hheld' : HeldAt serializer held name path') :
    path = path' := by
  obtain ⟨-, field, hfield, rfl⟩ := hheld
  obtain ⟨-, field', hfield', rfl⟩ := hheld'
  cases hfield.symm.trans hfield'
  rfl

omit [DecidableEq R] in
/-- What is written is held. -/
theorem isHeld_of_written {s : Slot R Value}
    (hs : ∃ w ∈ heldWrites serializer held, w.2 = s) : IsHeld held s := by
  obtain ⟨w, hw, rfl⟩ := hs
  obtain ⟨name, hvalue, -⟩ := mem_heldWrites.1 hw
  exact ⟨name, hvalue⟩

omit [DecidableEq R] in
/-- The writes before and after a held field's are those of the other held fields. -/
theorem heldWrites_split {name : String} {value : Slot R Value} {path : List String}
    (hvalue : held.get? name = some value) (hheld : HeldAt serializer held name path) :
    ∃ pre post, heldWrites serializer held = pre ++ (path, value) :: post ∧
      ∀ w ∈ pre ++ post, ∃ other, other ≠ name ∧ HeldAt serializer held other w.1 := by
  obtain ⟨-, field, hfield, rfl⟩ := hheld
  obtain ⟨pre, post, hentries⟩ := List.append_of_mem (Dict.get?_eq_some.1 hvalue)
  have hwrite : heldWrite serializer (name, value) = some (field.sourceAttrs, value) := by
    rw [heldWrite, hfield, Option.map_some]
  refine ⟨pre.filterMap (heldWrite serializer), post.filterMap (heldWrite serializer), ?_,
    fun w hw => ?_⟩
  · rw [heldWrites, hentries, List.filterMap_append, List.filterMap_cons, hwrite]
  · rw [← List.filterMap_append] at hw
    obtain ⟨e, he, hw⟩ := List.mem_filterMap.1 hw
    obtain ⟨field', hfield', rfl⟩ := Option.map_eq_some_iff.1 hw
    -- the keys are distinct, so the entry is another field's
    have hnodup := held.nodup
    rw [hentries, keysOf, List.map_append, List.map_cons, List.nodup_middle,
      ← List.map_append] at hnodup
    have hother : e.1 ∈ (pre ++ post).map Prod.fst := List.mem_map_of_mem he
    have hmem : e ∈ held.entries := by
      rw [hentries]
      exact (List.perm_middle.mem_iff).2 (List.mem_cons_of_mem _ he)
    exact ⟨e.1, fun heq => (List.nodup_cons.1 hnodup).1 (heq ▸ hother), mem_keysOf_of_mem hmem,
      field', hfield', rfl⟩

/-- What the writes change of the mappings. -/
theorem changed_layBack (serializer : Serializer) (held : Dict String (Slot R Value))
    (data : Slot R Value) (h : Objects R) :
    h.Changed (fun r key => ∃ name path, HeldAt serializer held name path ∧
      h.Writable path data r key) (IsHeld held) (h.layBack serializer held data) := by
  rw [layBack_eq_writeAll]
  refine MappingHeap.Changed.refl.writeAll (fun w hw => isHeld_of_written ⟨w, hw, rfl⟩)
    fun w hw r key hwritable => ?_
  obtain ⟨name, -, hheld⟩ := mem_heldWrites.1 hw
  exact ⟨name, w.1, hheld, hwritable⟩

/-- A held field's value stands at its source, where no other's place is on the way to its own or is
it, and no mapping on the way is within a held value. -/
theorem at?_layBack_self {name : String} {value : Slot R Value} {path : List String} {r : R}
    {key : String} (hvalue : held.get? name = some value)
    (hheld : HeldAt serializer held name path) (hwritable : h.Writable path data r key)
    (hothers : ∀ other path' r' key', HeldAt serializer held other path' →
      h.Writable path' data r' key' →
      (r', key') ∉ h.route path.dropLast data ∧ (other ≠ name → (r', key') ≠ (r, key)))
    (hfresh : ∀ r' key', (r', key') ∈ h.route path data → ¬ h.Within (IsHeld held) r') :
    (h.layBack serializer held data).at? path data = some value := by
  obtain ⟨pre, post, hwrites, hsplit⟩ := heldWrites_split hvalue hheld
  rw [layBack_eq_writeAll]
  refine MappingHeap.at?_writeAll_self hwrites hwritable (fun r' key' hmem w hw hwritable' => ?_)
    (fun w hw hwritable' => ?_) fun r' key' hmem hwithin => ?_
  · obtain ⟨other, -, hother⟩ := mem_heldWrites.1 hw
    exact (hothers other w.1 r' key' hother hwritable').1 hmem
  · obtain ⟨other, hne, hother⟩ := hsplit w hw
    exact (hothers other w.1 r key hother hwritable').2 hne rfl
  · exact hfresh r' key' hmem (hwithin.mono fun _ => isHeld_of_written)

/-- **The server's values are laid back over their fields' sources, and nowhere else.** -/
theorem layBack_writes_sources (serializer : Serializer) (held : Dict String (Slot R Value))
    (data : Slot R Value) (h : Objects R) :
    LaidBack serializer held data h (h.layBack serializer held data) := by
  have hc := changed_layBack serializer held data h
  have huntouched : (∀ name path r key, HeldAt serializer held name path →
      ¬ h.Writable path data r key) → h.layBack serializer held data = h := by
    intro hnone
    rw [layBack_eq_writeAll]
    refine MappingHeap.writeAll_eq_self fun w hw r key => ?_
    obtain ⟨name, -, hheld⟩ := mem_heldWrites.1 hw
    exact hnone name w.1 r key hheld
  exact {
    shape := fun r => ⟨hc.mutable r, hc.keys r⟩
    written := fun name value path r key hvalue hheld hwritable hothers hfresh =>
      at?_layBack_self hvalue hheld hwritable hothers hfresh
    places := fun r key hplace hwithin =>
      hc.get?_eq (fun ⟨name, path, hheld, hwritable⟩ => hplace name path hheld hwritable) hwithin
    paths := fun q hq => hc.at?_eq fun r key hmem =>
      ⟨fun ⟨name, path, hheld, hwritable⟩ => (hq r key hmem).1 name path hheld hwritable,
        (hq r key hmem).2⟩
    untouched := huntouched
    noMapping := fun value hdata => huntouched fun _ _ _ _ _ =>
      hdata ▸ MappingHeap.not_writable_leaf
    writtenApart := fun hu name value path r key hvalue hheld hwritable happart => by
      refine at?_layBack_self hvalue hheld hwritable
        (fun other path' r' key' hother hwritable' => ?_) fun r' key' hmem => hu.not_within hmem
      have hother' : other ≠ name → ¬ path' <+: path := fun hne =>
        (happart other path' hne hother hwritable'.ne_nil).1
      constructor
      · intro hmem
        have habove := hu.prefix_of_mem_route hwritable' hmem
        by_cases hname : other = name
        · -- its own place is at the end of its path, and the way to it is shorter
          subst hname
          obtain rfl := hheld.path_unique hother
          have hlength := habove.length_le
          have hpositive := List.length_pos_iff.2 hwritable.ne_nil
          rw [List.length_dropLast] at hlength
          omega
        · exact hother' hname (habove.trans (List.dropLast_prefix path))
      · rintro hne hsame
        cases hsame
        exact hother' hne (hu.prefix_of_mem_route hwritable' hwritable.mem_route)
    keptApart := fun hu q hq => hc.at?_eq fun r key hmem =>
      ⟨fun ⟨name, path, hheld, hwritable⟩ =>
        hq name path r key hheld hwritable (hu.prefix_of_mem_route hwritable hmem),
        hu.not_within hmem⟩ }

end

/-! ### An order sent for another tenant -/

/-- A serializer of an order: its tenant, and the country and the city it is shipped to. -/
def orderSerializer : Serializer where
  fields := .ofList [("tenant", SerializerValidator.anyField ["org"]),
    ("country", SerializerValidator.anyField ["shipping", "country"]),
    ("rest", SerializerValidator.anyField [])]
  run _ := .ok .null

/-- The server's values for it. -/
def orderHeld : Dict String (Slot Nat Value) :=
  .ofList [("tenant", .leaf (.str "acme")), ("country", .leaf (.str "NL")), ("rest", .leaf .null)]

/-- An order, which is shipped somewhere. Where `billed` it is billed to the same address, and where
`frozen` the address takes no writes. -/
def order (billed frozen : Bool) : Objects Nat
  | 0 => ⟨true, .ofList ([("org", .leaf .null), ("shipping", .ref 1)] ++
      if billed then [("billing", .ref 1)] else [])⟩
  | _ => ⟨!frozen, .ofList [("city", .leaf (.str "Delft")), ("country", .leaf (.str "BE"))]⟩

/-- The held fields of the order, with their sources. -/
theorem heldAt_order {name : String} {path : List String}
    (h : HeldAt orderSerializer orderHeld name path) :
    (name = "tenant" ∧ path = ["org"]) ∨ (name = "country" ∧ path = ["shipping", "country"]) ∨
      (name = "rest" ∧ path = []) := by
  obtain ⟨hmem, field, hfield, rfl⟩ := h
  have hname : name = "tenant" ∨ name = "country" ∨ name = "rest" := by
    have hkeys : name ∈ ["tenant", "country", "rest"] := hmem
    simpa using hkeys
  rcases hname with rfl | rfl | rfl <;> cases hfield
  · exact .inl ⟨rfl, rfl⟩
  · exact .inr (.inl ⟨rfl, rfl⟩)
  · exact .inr (.inr ⟨rfl, rfl⟩)

/-- Nothing held is a mapping. -/
theorem not_within_orderHeld {h : Objects Nat} {r : Nat} : ¬ h.Within (IsHeld orderHeld) r := by
  intro hwithin
  induction hwithin with
  | given hheld =>
    obtain ⟨name, hname⟩ := hheld
    have hmem := Dict.get?_eq_some.1 hname
    simp [orderHeld, Dict.ofList, ofPairs, assign] at hmem
  | held _ _ ih => exact ih

/-- The mappings of an order billed nowhere: itself, and the address under one key. -/
theorem at?_order {frozen : Bool} {path : List String} {r : Nat}
    (h : (order false frozen).at? path (.ref 0) = some (.ref r)) :
    (path = [] ∧ r = 0) ∨ (path = ["shipping"] ∧ r = 1) := by
  match path with
  | [] =>
    cases h
    exact .inl ⟨rfl, rfl⟩
  | key :: path =>
    obtain ⟨s, hs, h⟩ := Option.bind_eq_some_iff.1 h
    have hmem : (key, s) ∈ [("org", .leaf .null), ("shipping", .ref 1)] := Dict.get?_eq_some.1 hs
    rcases List.mem_pair.1 hmem with hentry | hentry <;> cases hentry
    · cases path <;> cases h
    · match path with
      | [] =>
        cases h
        exact .inr ⟨rfl, rfl⟩
      | key :: path =>
        obtain ⟨s, hs, h⟩ := Option.bind_eq_some_iff.1 h
        have hmem : (key, s) ∈ [("city", .leaf (.str "Delft")), ("country", .leaf (.str "BE"))] :=
          Dict.get?_eq_some.1 hs
        rcases List.mem_pair.1 hmem with hentry | hentry <;> cases hentry <;> cases path <;> cases h

/-- It holds its address once. -/
theorem order_unshared (frozen : Bool) :
    (order false frozen).Unshared (IsHeld orderHeld) (.ref 0) where
  once p q r hp hq := by
    rcases at?_order hp with ⟨rfl, rfl⟩ | ⟨rfl, rfl⟩ <;>
      rcases at?_order hq with ⟨rfl, hr⟩ | ⟨rfl, hr⟩ <;> first | rfl | cases hr
  fresh _ _ _ := not_within_orderHeld

/-- The country is apart from the sources of the other fields. -/
theorem apart_country {name : String} {path : List String} (hname : name ≠ "country")
    (hheld : HeldAt orderSerializer orderHeld name path) (hne : path ≠ []) :
    Apart path ["shipping", "country"] := by
  rcases heldAt_order hheld with ⟨-, rfl⟩ | ⟨rfl, -⟩ | ⟨-, rfl⟩
  · exact ⟨by decide, by decide⟩
  · exact absurd rfl hname
  · exact absurd rfl hne

/-- The country is written where it nests, and the city is left beside it. -/
theorem layBack_writes_sources_order :
    ((order false false).layBack orderSerializer orderHeld (.ref 0)).at? ["shipping", "country"]
        (.ref 0) = some (.leaf (.str "NL")) ∧
      ((order false false).layBack orderSerializer orderHeld (.ref 0)).at? ["shipping", "city"]
        (.ref 0) = some (.leaf (.str "Delft")) := by
  have hlaid := layBack_writes_sources orderSerializer orderHeld (.ref 0) (order false false)
  refine ⟨hlaid.writtenApart (order_unshared false) "country" _ _ 1 "country" rfl
    ⟨by decide, _, rfl, rfl⟩ ⟨⟨["shipping"], rfl, rfl⟩, rfl, by decide⟩
    fun other path' => apart_country, ?_⟩
  refine (hlaid.keptApart (order_unshared false) ["shipping", "city"]
    fun name path r key hheld hwritable => ?_).trans rfl
  rcases heldAt_order hheld with ⟨-, rfl⟩ | ⟨-, rfl⟩ | ⟨-, rfl⟩
  · decide
  · decide
  · exact absurd rfl hwritable.ne_nil

/-- A source that is present through mappings is not written where the last of them is immutable; and
where one mapping stands under two keys, a source under the one is written under the other too. -/
theorem layBack_keeps_immutable :
    (¬ ∀ (serializer : Serializer) (held : Dict String (Slot Nat Value)) (data : Slot Nat Value)
      (h : Objects Nat) (name : String) (value : Slot Nat Value) (path : List String),
      h.Unshared (IsHeld held) data → held.get? name = some value →
      HeldAt serializer held name path → path ≠ [] → (h.at? path data).isSome →
      (∀ other path', other ≠ name → HeldAt serializer held other path' → path' ≠ [] →
        Apart path' path) →
      (h.layBack serializer held data).at? path data = some value) ∧
    ¬ ∀ (serializer : Serializer) (held : Dict String (Slot Nat Value)) (data : Slot Nat Value)
      (h : Objects Nat) (q : List String),
      (∀ name path, HeldAt serializer held name path → path ≠ [] → ¬ path <+: q) →
      (h.layBack serializer held data).at? q data = h.at? q data := by
  constructor
  · intro h
    have hwritten := h orderSerializer orderHeld (.ref 0) (order false true) "country" _
      ["shipping", "country"] (order_unshared true) rfl ⟨by decide, _, rfl, rfl⟩
      (List.cons_ne_nil _ _) rfl fun other path' => apart_country
    have hkept : ((order false true).layBack orderSerializer orderHeld (.ref 0)).at?
        ["shipping", "country"] (.ref 0) = some (.leaf (.str "BE")) := rfl
    have hsame := Option.some.inj (hkept.symm.trans hwritten)
    exact absurd (Value.str.inj (Slot.leaf.inj hsame)) (by decide)
  · intro h
    have hkept := h orderSerializer orderHeld (.ref 0) (order true false) ["billing", "country"]
      fun name path hheld hne => by
        rcases heldAt_order hheld with ⟨-, rfl⟩ | ⟨-, rfl⟩ | ⟨-, rfl⟩
        · decide
        · decide
        · exact absurd rfl hne
    have hwritten : ((order true false).layBack orderSerializer orderHeld (.ref 0)).at?
        ["billing", "country"] (.ref 0) = some (.leaf (.str "NL")) := rfl
    have hbefore : (order true false).at? ["billing", "country"] (.ref 0) =
        some (.leaf (.str "BE")) := rfl
    have hsame := Option.some.inj ((hwritten.symm.trans hkept).trans hbefore)
    exact absurd (Value.str.inj (Slot.leaf.inj hsame)) (by decide)

end Objects

end RestFrameworkServices
