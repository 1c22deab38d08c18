import RestFrameworkServices.ServiceSpecs.LayBack

/-!
# Validated data as a tree

`SerializerValidator.validated` takes the data as a tree, and `layBack` of a tree writes each held value
where the in-place `Objects.layBack` writes the object. Mappings represent a tree where each path leads to
what it leads to in the tree (`Objects.Represents`). Where no mapping of the data and of the held values
stands at two places (`Objects.Separate`), the mappings represent the tree with the values laid back when
the call has written them (`Objects.layBack_represents`): `Objects.represents_writeAt` is one write, and
`Objects.represents_writeAll` the writes of a call.
-/

namespace RestFrameworkServices

open Lib

universe u

/-! ## Paths into data -/

namespace Value

/-- The value at a path of keys, through mappings. -/
def at? : List String → Value → Option Value
  | [], value => some value
  | key :: path, .mapping _ entries => (entries.lookup key).bind (at? path)
  | _ :: _, _ => none

/-- What a value is, apart from the values a mapping holds: a mapping's keys and whether it is mutable,
or a value that is no mapping. -/
inductive Node where
  | mapping (mutable : Bool) (keys : List String)
  | leaf (value : Value)

/-- The node of a value. -/
def node : Value → Node
  | .mapping mutable entries => .mapping mutable (keysOf entries)
  | value => .leaf value

@[simp] theorem at?_nil (value : Value) : value.at? [] = some value := by
  cases value <;> rfl

/-- A path goes on below a mapping's key. -/
@[simp] theorem at?_cons_mapping (key : String) (path : List String) (mutable : Bool)
    (entries : List (String × Value)) :
    (Value.mapping mutable entries).at? (key :: path) =
      (entries.lookup key).bind (at? path) := rfl

/-- What is no mapping has nothing below it. -/
theorem at?_cons_of_not_mapping {value : Value} (h : value.isMapping = false) (key : String)
    (path : List String) : value.at? (key :: path) = none := by
  cases value <;> first | rfl | cases h

/-- A path is read in two parts. -/
theorem at?_append : ∀ (path rest : List String) (value : Value),
    value.at? (path ++ rest) = (value.at? path).bind (at? rest)
  | [], rest, value => by rw [List.nil_append, at?_nil, Option.bind_some]
  | key :: path, rest, .mapping mutable entries => by
    rw [List.cons_append, at?_cons_mapping, at?_cons_mapping]
    cases entries.lookup key with
    | none => rfl
    | some target => exact at?_append path rest target
  | _ :: _, _, .null | _ :: _, _, .bool _ | _ :: _, _, .int _ | _ :: _, _, .str _
  | _ :: _, _, .list _ | _ :: _, _, .dataclass _ | _ :: _, _, .object _ _ => rfl

/-- A path holds a value, in a mapping that may be written. -/
structure Writable (path : List String) (data : Value) : Prop where
  ne_nil : path ≠ []
  present : (data.at? path).isSome
  mutable : ∃ entries, data.at? path.dropLast = some (.mapping true entries)

/-- One key is writable where a mutable mapping holds it. -/
theorem writable_singleton {last : String} {mutable : Bool} {entries : List (String × Value)} :
    Writable [last] (.mapping mutable entries) ↔ mutable = true ∧ last ∈ keysOf entries := by
  have hpresent : ((Value.mapping mutable entries).at? [last]).isSome ↔ last ∈ keysOf entries := by
    rw [at?_cons_mapping, ← isSome_lookup_iff]
    cases entries.lookup last <;> simp
  constructor
  · rintro ⟨-, hsome, held, hmutable⟩
    rw [List.dropLast_singleton, at?_nil, Option.some.injEq, Value.mapping.injEq] at hmutable
    exact ⟨hmutable.1, hpresent.1 hsome⟩
  · rintro ⟨rfl, hmem⟩
    exact ⟨List.cons_ne_nil _ _, hpresent.2 hmem, entries, at?_nil _⟩

/-- A longer path is writable where the rest of it is, in what its first key holds. -/
theorem writable_cons_cons {key next : String} {path : List String} {mutable : Bool}
    {entries : List (String × Value)} :
    Writable (key :: next :: path) (.mapping mutable entries) ↔
      ∃ target, entries.lookup key = some target ∧ Writable (next :: path) target := by
  have hdrop : (key :: next :: path).dropLast = key :: (next :: path).dropLast := rfl
  constructor
  · rintro ⟨-, hpresent, held, hmutable⟩
    rw [hdrop, at?_cons_mapping] at hmutable
    obtain ⟨target, htarget, hmutable⟩ := Option.bind_eq_some_iff.1 hmutable
    rw [at?_cons_mapping, htarget, Option.bind_some] at hpresent
    exact ⟨target, htarget, List.cons_ne_nil _ _, hpresent, held, hmutable⟩
  · rintro ⟨target, htarget, -, hpresent, held, hmutable⟩
    refine ⟨List.cons_ne_nil _ _, ?_, held, ?_⟩
    · rwa [at?_cons_mapping, htarget, Option.bind_some]
    · rwa [hdrop, at?_cons_mapping, htarget, Option.bind_some]

/-- Nothing is writable in what is no mapping. -/
theorem not_writable_of_not_mapping {data : Value} (h : data.isMapping = false)
    (path : List String) : ¬ Writable path data := by
  rintro ⟨hne, hpresent, -⟩
  cases path with
  | nil => exact hne rfl
  | cons key path =>
    rw [at?_cons_of_not_mapping h] at hpresent
    cases hpresent

end Value

open Value

/-! ## One write -/

section
variable (value : Value)

/-- With no keys nothing is written. -/
theorem layBackAt_nil (data : Value) : layBackAt value [] data = data := by
  cases data <;> rfl

/-- What is no mapping is not written in. -/
theorem layBackAt_of_not_mapping {data : Value} (h : data.isMapping = false) (path : List String) :
    layBackAt value path data = data := by
  cases path with
  | nil => exact layBackAt_nil value data
  | cons key path =>
    cases data with
    | mapping mutable entries => cases h
    | _ => cases path <;> rfl

/-- A write of one key changes the value a mutable mapping holds under it. -/
theorem layBackAt_singleton (last : String) (mutable : Bool) (entries : List (String × Value)) :
    layBackAt value [last] (.mapping mutable entries) =
      if mutable = true ∧ last ∈ keysOf entries then .mapping mutable (assign last value entries)
      else .mapping mutable entries := by
  cases mutable with
  | true =>
    rw [layBackAt]
    simp only [true_and]
  | false =>
    -- an immutable mapping's value is written over itself
    rw [if_neg (by simp), layBackAt.eq_def]
    dsimp only
    split
    · next target htarget => rw [layBackAt_nil, assign_of_lookup htarget]
    · rfl

/-- A write at a longer path is one at the rest of it, in what the first key holds. -/
theorem layBackAt_cons_cons (key next : String) (path : List String) (mutable : Bool)
    (entries : List (String × Value)) :
    layBackAt value (key :: next :: path) (.mapping mutable entries) =
      match entries.lookup key with
      | some target => .mapping mutable (assign key (layBackAt value (next :: path) target) entries)
      | none => .mapping mutable entries :=
  (layBackAt.eq_def value (key :: next :: path) (.mapping mutable entries)).trans rfl

variable {value}

/-- Where its path is not writable, a write changes nothing. -/
theorem layBackAt_of_not_writable : ∀ {path : List String} {data : Value}, ¬ Writable path data →
    layBackAt value path data = data
  | [], data, _ => layBackAt_nil value data
  | [last], .mapping mutable entries, h => by
    rw [layBackAt_singleton, if_neg]
    rwa [writable_singleton] at h
  | key :: next :: path, .mapping mutable entries, h => by
    rw [layBackAt_cons_cons]
    split
    · next target htarget =>
      have htail : ¬ Writable (next :: path) target := fun hwritable =>
        h (writable_cons_cons.2 ⟨target, htarget, hwritable⟩)
      rw [layBackAt_of_not_writable htail, assign_of_lookup htarget]
    · rfl
  | _ :: _, .null, _ | _ :: _, .bool _, _ | _ :: _, .int _, _ | _ :: _, .str _, _
  | _ :: _, .list _, _ | _ :: _, .dataclass _, _ | _ :: _, .object _ _, _ =>
    layBackAt_of_not_mapping value rfl _

/-- Where it is, the path holds the value. -/
theorem at?_layBackAt : ∀ {path : List String} {data : Value}, Writable path data →
    (layBackAt value path data).at? path = some value
  | [], _, h => absurd rfl h.ne_nil
  | [last], .mapping mutable entries, h => by
    rw [layBackAt_singleton, if_pos (writable_singleton.1 h), at?_cons_mapping, lookup_assign,
      if_pos rfl, Option.bind_some, at?_nil]
  | key :: next :: path, .mapping mutable entries, h => by
    obtain ⟨target, htarget, htail⟩ := writable_cons_cons.1 h
    simp only [layBackAt_cons_cons, htarget, at?_cons_mapping, lookup_assign, if_true,
      Option.bind_some]
    exact at?_layBackAt htail
  | _ :: _, .null, h | _ :: _, .bool _, h | _ :: _, .int _, h | _ :: _, .str _, h
  | _ :: _, .list _, h | _ :: _, .dataclass _, h | _ :: _, .object _ _, h =>
    absurd h (not_writable_of_not_mapping rfl _)

/-- A write into a mapping is one into what a key of it holds: the keys stay, and the other keys'
values. -/
theorem layBackAt_mapping (key : String) (path : List String) (mutable : Bool)
    (entries : List (String × Value)) :
    layBackAt value (key :: path) (.mapping mutable entries) = .mapping mutable entries ∨
      ∃ target target', entries.lookup key = some target ∧
        layBackAt value (key :: path) (.mapping mutable entries) =
          .mapping mutable (assign key target' entries) ∧
        (path ≠ [] → target' = layBackAt value path target) := by
  cases path with
  | nil =>
    rw [layBackAt_singleton]
    split
    · next hmem =>
      obtain ⟨target, htarget⟩ := Option.isSome_iff_exists.1 (isSome_lookup_iff.2 hmem.2)
      exact .inr ⟨target, value, htarget, rfl, fun h => absurd rfl h⟩
    · exact .inl rfl
  | cons next path =>
    rw [layBackAt_cons_cons]
    split
    · next target htarget => exact .inr ⟨target, _, htarget, rfl, fun _ => rfl⟩
    · exact .inl rfl

/-- No node changes but at or below the path. -/
theorem node_layBackAt : ∀ {path q : List String} {data : Value}, ¬ path <+: q →
    ((layBackAt value path data).at? q).map node = (data.at? q).map node
  | [], q, _, h => absurd List.nil_prefix h
  | key :: path, q, .mapping mutable entries, h => by
    rcases layBackAt_mapping key path mutable entries with hsame | ⟨target, target', htarget, hwrite, htail⟩
    · rw [hsame]
    rw [hwrite]
    cases q with
    | nil =>
      have hmem : key ∈ keysOf entries := isSome_lookup_iff.1 (Option.isSome_of_eq_some htarget)
      simp only [at?_nil, Option.map_some, node, keysOf_assign_of_mem hmem]
    | cons key' q =>
      rw [at?_cons_mapping, at?_cons_mapping, lookup_assign]
      split
      · next hkey =>
        subst hkey
        have hq : ¬ path <+: q := fun habove' => h (List.cons_prefix_cons.2 ⟨rfl, habove'⟩)
        rw [htarget, Option.bind_some, Option.bind_some, htail fun hnil => hq (hnil ▸ List.nil_prefix)]
        exact node_layBackAt hq
      · rfl
  | _ :: _, _, .null, _ | _ :: _, _, .bool _, _ | _ :: _, _, .int _, _ | _ :: _, _, .str _, _
  | _ :: _, _, .list _, _ | _ :: _, _, .dataclass _, _ | _ :: _, _, .object _ _, _ => by
    rw [layBackAt_of_not_mapping value rfl]

end

/-- The write of a value in a tree, at its field's source. -/
def treeWrite (serializer : Serializer) (e : String × Value) : Option (List String × Value) :=
  (serializer.fields.get? e.1).map fun field => (field.sourceAttrs, e.2)

/-- `layBack` of a tree writes each value at its field's source, in order. -/
theorem layBack_eq_foldl {serializer : Serializer} {values : Dict String Value} {tree : Value} :
    layBack serializer values tree = (values.entries.filterMap (treeWrite serializer)).foldl
      (fun tree w => layBackAt w.2 w.1 tree) tree := by
  rw [layBack]
  generalize values.entries = entries
  induction entries generalizing tree with
  | nil => rfl
  | cons e entries ih =>
    rw [List.foldl_cons, List.filterMap_cons, treeWrite]
    cases serializer.fields.get? e.1 with
    | none => exact ih
    | some field => exact ih

/-! ## The mappings of a tree -/

namespace Objects

variable {R : Type u}

/-- The node of a slot. -/
def node (h : Objects R) : Slot R Value → Value.Node
  | .ref r => .mapping (h r).mutable (h r).entries.keys
  | .leaf value => .leaf value

/-- Every path leads from a slot to what it leads to in a tree. -/
def Represents (h : Objects R) (s : Slot R Value) (tree : Value) : Prop :=
  ∀ path, (h.at? path s).map h.node = (tree.at? path).map Value.node

/-- No mapping stands at two places of some slots. -/
structure Separate (h : Objects R) (slots : List (Slot R Value)) : Prop where
  once : ∀ s ∈ slots, ∀ p q r, h.at? p s = some (.ref r) → h.at? q s = some (.ref r) → p = q
  apart : slots.Pairwise fun s t => ∀ p q r, h.at? p s = some (.ref r) →
    h.at? q t ≠ some (.ref r)

section
variable {h : Objects R} {data s : Slot R Value} {tree value : Value} {rest : List (Slot R Value)}

/-- A path leads to a mapping of a tree where it leads to an object. -/
theorem Represents.mapping (hr : h.Represents data tree) {path : List String} {r : R}
    (hat : h.at? path data = some (.ref r)) :
    ∃ entries, tree.at? path = some (.mapping (h r).mutable entries) ∧
      keysOf entries = (h r).entries.keys := by
  have hnode := hr path
  rw [hat, Option.map_some] at hnode
  obtain ⟨v, hv, hnode⟩ := Option.map_eq_some_iff.1 hnode.symm
  cases v with
  | mapping mutable entries =>
    simp only [Value.node, node, Value.Node.mapping.injEq] at hnode
    exact ⟨entries, by rw [hv, hnode.1], hnode.2⟩
  | _ => cases hnode

/-- A path is writable in a tree where it is in the objects. -/
theorem Represents.writable_iff (hr : h.Represents data tree) {path : List String} :
    Value.Writable path tree ↔ ∃ r key, h.Writable path data r key := by
  constructor
  · rintro ⟨hne, hpresent, entries, hentries⟩
    obtain ⟨init, key, rfl⟩ := List.eq_nil_or_concat path |>.resolve_left hne
    rw [List.concat_eq_append, List.dropLast_concat] at hentries
    have hnode := hr init
    rw [hentries, Option.map_some] at hnode
    obtain ⟨t, ht, hnode⟩ := Option.map_eq_some_iff.1 hnode
    cases t with
    | leaf w => cases hnode
    | ref r =>
      simp only [node, Value.node, Value.Node.mapping.injEq] at hnode
      refine ⟨r, key, ⟨init, List.concat_eq_append, ht⟩, hnode.1, ?_⟩
      rw [List.concat_eq_append, Value.at?_append, hentries, Option.bind_some, Value.at?_cons_mapping,
        ← Option.isSome_map (f := Value.node)] at hpresent
      show key ∈ (h r).entries.keys
      rw [hnode.2, ← isSome_lookup_iff]
      cases hlookup : entries.lookup key with
      | none =>
        rw [hlookup] at hpresent
        cases hpresent
      | some _ => rfl
  · rintro ⟨r, key, ⟨init, rfl, hinit⟩, hmutable, hmem⟩
    obtain ⟨entries, hentries, hkeys⟩ := hr.mapping hinit
    have hmem : key ∈ keysOf entries := hkeys ▸ hmem
    obtain ⟨v, hv⟩ := Option.isSome_iff_exists.1 (isSome_lookup_iff.2 hmem)
    refine ⟨List.append_ne_nil_of_right_ne_nil _ (List.cons_ne_nil _ _), ?_, entries, ?_⟩
    · rw [Value.at?_append, hentries, Option.bind_some, Value.at?_cons_mapping, hv]
      rfl
    · rw [List.dropLast_concat, hentries, hmutable]

/-- Fewer slots are as separate. -/
theorem Separate.sublist {slots slots' : List (Slot R Value)} (hs : h.Separate slots)
    (hsub : slots'.Sublist slots) : h.Separate slots' :=
  ⟨fun s hmem => hs.once s (hsub.subset hmem), hs.apart.sublist hsub⟩

/-- The writes of held values, and those of the values they represent. -/
theorem forall₂_heldWrites (serializer : Serializer) {entries : List (String × Slot R Value)}
    {values : List (String × Value)}
    (hvalues : List.Forall₂ (fun e v => e.1 = v.1 ∧ h.Represents e.2 v.2) entries values) :
    List.Forall₂ (fun w v => w.1 = v.1 ∧ h.Represents w.2 v.2)
      (entries.filterMap (heldWrite serializer)) (values.filterMap (treeWrite serializer)) := by
  induction hvalues with
  | nil => exact .nil
  | @cons e v _ _ hfirst _ ih =>
    rw [List.filterMap_cons, List.filterMap_cons, heldWrite, treeWrite, hfirst.1]
    cases serializer.fields.get? v.1 with
    | none => exact ih
    | some field => exact .cons ⟨rfl, hfirst.2⟩ ih

/-- What is written is held. -/
theorem heldWrites_sublist (serializer : Serializer) (held : Dict String (Slot R Value)) :
    ((heldWrites serializer held).map Prod.snd).Sublist held.values := by
  rw [heldWrites, List.map_filterMap, Dict.values]
  induction held.entries with
  | nil => exact .slnil
  | cons e entries ih =>
    rw [List.filterMap_cons, List.map_cons, heldWrite]
    cases serializer.fields.get? e.1 with
    | none => exact ih.cons _
    | some field => exact ih.cons_cons _

variable [DecidableEq R]

/-- A write at a path of the data leaves every path of the other slots, and each of the data that is
not at or below it; below it are the paths of what was written. -/
theorem at?_writeAt (hs : h.Separate (data :: s :: rest)) {path : List String} {r : R}
    {key : String} (hw : h.Writable path data r key) :
    (∀ t ∈ s :: rest, ∀ q, (h.writeAt data path s).at? q t = h.at? q t) ∧
      (∀ q, ¬ path <+: q → (h.writeAt data path s).at? q data = h.at? q data) ∧
      ∀ q, (h.writeAt data path s).at? (path ++ q) data = h.at? q s := by
  obtain ⟨init, hpath, hinit⟩ := hw.ends
  have hframe {t : Slot R Value} {q : List String} (hroute : (r, key) ∉ h.route q t) :
      (h.writeAt data path s).at? q t = h.at? q t :=
    MappingHeap.at?_congr fun r' key' hmem => by
      rw [hw.writeAt_eq, MappingHeap.get?_setItem_of_ne fun hsame => hroute (hsame ▸ hmem)]
  have hothers : ∀ t ∈ s :: rest, ∀ q, (h.writeAt data path s).at? q t = h.at? q t := by
    intro t ht q
    refine hframe fun hmem => ?_
    obtain ⟨init', -, hinit'⟩ := MappingHeap.mem_route_iff.1 hmem
    exact List.rel_of_pairwise_cons hs.apart ht _ _ r hinit hinit'
  have hdata : ∀ q, ¬ path <+: q → (h.writeAt data path s).at? q data = h.at? q data := by
    intro q hq
    refine hframe fun hmem => hq ?_
    obtain ⟨init', habove, hinit'⟩ := MappingHeap.mem_route_iff.1 hmem
    rw [hpath, hs.once data List.mem_cons_self _ _ r hinit hinit']
    exact habove
  refine ⟨hothers, hdata, fun q => ?_⟩
  have hshort : ¬ path <+: init := fun habove => by
    have hlength := habove.length_le
    rw [hpath, List.length_append, List.length_singleton] at hlength
    omega
  have hwritten : (h.writeAt data path s).at? path data = some s := by
    have hhere : ((h.writeAt data path s) r).entries.get? key = some s := by
      rw [hw.writeAt_eq]
      exact MappingHeap.get?_setItem_self hw.mutable hw.present
    calc (h.writeAt data path s).at? path data
        = (h.writeAt data path s).at? (init ++ [key]) data := by rw [← hpath]
      _ = ((h.writeAt data path s).at? init data).bind ((h.writeAt data path s).at? [key]) :=
          MappingHeap.at?_append _ _ _
      _ = (h.writeAt data path s).at? [key] (.ref r) := by rw [hdata init hshort, hinit]; rfl
      _ = some s := by rw [MappingHeap.at?_cons, MappingHeap.get?, hhere]; rfl
  rw [MappingHeap.at?_append, hwritten, Option.bind_some]
  exact hothers s List.mem_cons_self q

/-- A write leaves each slot's node. -/
theorem node_writeAt (h : Objects R) (data s : Slot R Value) (path : List String) :
    node (h.writeAt data path s) = h.node := by
  have hc : h.Changed (fun r key => h.Writable path data r key) (fun _ => True)
      (h.writeAt data path s) :=
    MappingHeap.Changed.refl.writeAt trivial fun _ _ hwritable => hwritable
  funext t
  cases t with
  | leaf _ => rfl
  | ref r => rw [node, node, hc.mutable r, hc.keys r]

/-- The slots are separate after the write, of which the written one stands in the data. -/
theorem Separate.writeAt (hs : h.Separate (data :: s :: rest)) (path : List String) :
    Separate (h.writeAt data path s) (data :: rest) := by
  by_cases hwritable : ∃ r key, h.Writable path data r key
  · obtain ⟨r, key, hw⟩ := hwritable
    obtain ⟨hothers, hdata, hbelow⟩ := at?_writeAt hs hw
    have hapart := List.pairwise_cons.1 hs.apart
    have hrest := List.pairwise_cons.1 hapart.2
    -- a path of the data leads where one of it, or of what was written, led
    have hcases (p : List String) : (∃ p', p = path ++ p' ∧
        (h.writeAt data path s).at? p data = h.at? p' s) ∨
        (h.writeAt data path s).at? p data = h.at? p data := by
      by_cases hp : path <+: p
      · obtain ⟨p', rfl⟩ := hp
        exact .inl ⟨p', rfl, hbelow p'⟩
      · exact .inr (hdata p hp)
    refine ⟨fun t ht p q r' hp hq => ?_, List.pairwise_cons.2 ⟨fun t ht p q r' hp hq => ?_, ?_⟩⟩
    · rcases List.mem_cons.1 ht with rfl | ht
      · rcases hcases p with ⟨p', rfl, hpath⟩ | hpath <;> rcases hcases q with ⟨q', rfl, hqath⟩ | hqath <;>
          rw [hpath] at hp <;> rw [hqath] at hq
        · rw [hs.once s (by simp) _ _ r' hp hq]
        · exact absurd hp (hapart.1 s (by simp) _ _ r' hq)
        · exact absurd hq (hapart.1 s (by simp) _ _ r' hp)
        · exact hs.once _ (by simp) _ _ r' hp hq
      · rw [hothers t (List.mem_cons_of_mem s ht)] at hp hq
        exact hs.once t (by simp [ht]) _ _ r' hp hq
    · rw [hothers t (List.mem_cons_of_mem s ht)] at hq
      rcases hcases p with ⟨p', rfl, hpath⟩ | hpath <;> rw [hpath] at hp
      · exact hrest.1 t ht _ _ r' hp hq
      · exact hapart.1 t (List.mem_cons_of_mem s ht) _ _ r' hp hq
    · refine hrest.2.imp_of_mem fun {t u} ht hu hne p q r' hp hq => ?_
      rw [hothers t (List.mem_cons_of_mem s ht)] at hp
      rw [hothers u (List.mem_cons_of_mem s hu)] at hq
      exact hne p q r' hp hq
  · rw [MappingHeap.writeAt_eq_self fun r key hw => hwritable ⟨r, key, hw⟩]
    exact hs.sublist ((List.sublist_cons_self s rest).cons_cons data)

/-- After a write the data represents the tree with the value laid back. -/
theorem represents_writeAt (hs : h.Separate (data :: s :: rest)) (hr : h.Represents data tree)
    (hvalue : h.Represents s value) (path : List String) :
    Represents (h.writeAt data path s) data (layBackAt value path tree) := by
  by_cases hwritable : ∃ r key, h.Writable path data r key
  · have htree := hr.writable_iff.2 hwritable
    obtain ⟨r, key, hw⟩ := hwritable
    obtain ⟨-, hdata, hbelow⟩ := at?_writeAt hs hw
    intro q
    rw [node_writeAt]
    by_cases hq : path <+: q
    · obtain ⟨q', rfl⟩ := hq
      rw [hbelow, Value.at?_append, at?_layBackAt htree, Option.bind_some]
      exact hvalue q'
    · rw [hdata q hq, node_layBackAt hq]
      exact hr q
  · rw [MappingHeap.writeAt_eq_self fun r key hw => hwritable ⟨r, key, hw⟩,
      layBackAt_of_not_writable fun htree => hwritable (hr.writable_iff.1 htree)]
    exact hr

/-- The other slots represent what they did. -/
theorem Represents.writeAt (hs : h.Separate (data :: s :: rest)) {t : Slot R Value} (ht : t ∈ rest)
    (hr : h.Represents t value) (path : List String) :
    Represents (h.writeAt data path s) t value := by
  by_cases hwritable : ∃ r key, h.Writable path data r key
  · obtain ⟨r, key, hw⟩ := hwritable
    intro q
    rw [node_writeAt, (at?_writeAt hs hw).1 t (List.mem_cons_of_mem s ht)]
    exact hr q
  · rw [MappingHeap.writeAt_eq_self fun r key hw => hwritable ⟨r, key, hw⟩]
    exact hr

/-- After the writes of a call the data represents the tree with the values laid back in turn. -/
theorem represents_writeAll : ∀ {writes : List (List String × Slot R Value)}
    {values : List (List String × Value)} {h : Objects R} {tree : Value},
    h.Separate (data :: writes.map Prod.snd) → h.Represents data tree →
    List.Forall₂ (fun w v => w.1 = v.1 ∧ h.Represents w.2 v.2) writes values →
    Represents (h.writeAll data writes) data
      (values.foldl (fun tree v => layBackAt v.2 v.1 tree) tree)
  | [], _, _, _, _, hr, .nil => hr
  | w :: writes, v :: values, h, tree, hs, hr, .cons ⟨hpath, hvalue⟩ hrest => by
    have hkept : ∀ w' ∈ writes, ∀ v', h.Represents w'.2 v' →
        Represents (h.writeAt data w.1 w.2) w'.2 v' := fun w' hw' v' hv' =>
      hv'.writeAt hs (List.mem_map_of_mem hw') w.1
    have hrest' : List.Forall₂ (fun w' v' => w'.1 = v'.1 ∧
        Represents (h.writeAt data w.1 w.2) w'.2 v'.2) writes values :=
      ((List.forall₂_and_left _ _).2 ⟨hkept, hrest⟩).imp fun w' v' hw' =>
        ⟨hw'.2.1, hw'.1 v'.2 hw'.2.2⟩
    rw [List.foldl_cons, ← hpath]
    show Represents (MappingHeap.writeAll (h.writeAt data w.1 w.2) data writes) data _
    exact represents_writeAll (hs.writeAt w.1) (represents_writeAt hs hr hvalue w.1) hrest'

/-- **Laying values back in place is laying them back in the tree the data represents**, where no
mapping of the data and of the held values stands at two places. -/
theorem layBack_represents {serializer : Serializer} {held : Dict String (Slot R Value)}
    {values : Dict String Value}
    (hvalues : List.Forall₂ (fun e v => e.1 = v.1 ∧ h.Represents e.2 v.2) held.entries
      values.entries)
    (hs : h.Separate (data :: held.values)) (hr : h.Represents data tree) :
    (h.layBack serializer held data).Represents data
      (RestFrameworkServices.layBack serializer values tree) := by
  rw [layBack_eq_writeAll, layBack_eq_foldl]
  exact represents_writeAll (hs.sublist ((heldWrites_sublist serializer held).cons_cons data)) hr
    (forall₂_heldWrites serializer hvalues)

end

end Objects

end RestFrameworkServices
