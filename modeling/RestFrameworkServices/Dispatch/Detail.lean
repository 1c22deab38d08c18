import RestFrameworkServices.Lib.Dict

/-!
# Refusals, named as the request named them

A refusal's detail is a tree of mappings, lists of rows and messages (`Detail`). A service raises it
about the model, and `wireNamedDetail` renames its keys to the names the request used, through the
serializer's `{source: (wire_name, nested)}` map (`WireNames`, built by `_wire_names` in
`dispatch/utils.py`).

The walk writes each renamed entry into a fresh mapping, so an entry whose renamed key a later
entry takes again is overwritten. `Lossless` says no such entry carries a message, at any mapping
the walk visits; `wireNamedDetail_perm_iff_lossless` shows the messages survive, each under its
renamed path (`renamedPath`), exactly then.
-/

namespace RestFrameworkServices

open Lib

universe u

/-! ## The trees -/

/-- A key of a refusal's mapping: a field's name, or the index of a failing row. -/
inductive Key where
  | name (s : String)
  | row (i : Int)
deriving DecidableEq, Repr

/-- The detail of a refusal, over the messages `M`: a mapping in the order it was written, a list (a
row's entry per incoming row, or a field's messages), or a message. -/
inductive Detail (M : Type u) where
  | mapping (entries : List (Key × Detail M))
  | rows (items : List (Detail M))
  | message (m : M)

/-- The `{source: (wire_name, nested)}` map of one serializer's writable fields, in the order they
were declared. -/
inductive WireNames where
  | mk (entries : List (String × String × Option WireNames))

namespace WireNames

/-- The entries of the map. -/
def entries : WireNames → List (String × String × Option WireNames)
  | .mk es => es

/-- The map is truthy: it has an entry. -/
def truthy (names : WireNames) : Bool := !names.entries.isEmpty

/-- `names.get(key, (key, None))`. -/
def get (names : WireNames) (key : String) : String × Option WireNames :=
  (names.entries.lookup key).getD (key, none)

/-- The wire name of a key: a row's index is kept, a field is renamed where the map names it. -/
def wireKey (names : WireNames) : Key → Key
  | .name k => .name (names.get k).1
  | .row i => .row i

/-- The map the walk uses below a key: a row is keyed like the mapping it is in, and below a field
the walk goes on only where the map holds a nested one that is truthy. -/
def nestedAt (names : WireNames) : Key → Option WireNames
  | .name k => (names.get k).2.filter truthy
  | .row _ => some names

@[simp] theorem wireKey_row (names : WireNames) (i : Int) : names.wireKey (.row i) = .row i := rfl

@[simp] theorem nestedAt_row (names : WireNames) (i : Int) : names.nestedAt (.row i) = some names := rfl

end WireNames

namespace Detail

variable {M : Type u}

/-- Induction on a detail: what holds of the children of a mapping and of a list holds of it. -/
@[elab_as_elim, induction_eliminator]
theorem ind {P : Detail M → Prop}
    (mapping : ∀ es, (∀ e ∈ es, P e.2) → P (.mapping es))
    (rows : ∀ items, (∀ d ∈ items, P d) → P (.rows items))
    (message : ∀ m, P (.message m)) : ∀ d, P d
  | .mapping es => mapping es fun e he => by
    have := List.sizeOf_lt_of_mem he
    have : sizeOf e.2 < sizeOf e := by
      obtain ⟨key, detail⟩ := e
      simp only [Prod.mk.sizeOf_spec]
      omega
    exact ind mapping rows message e.2
  | .rows items => rows items fun d hd => by
    have := List.sizeOf_lt_of_mem hd
    exact ind mapping rows message d
  | .message m => message m
termination_by d => sizeOf d

end Detail

/-! ## The walk -/

variable {M : Type u}

mutual

/-- `_wire_named_detail`: every key the map names is renamed. -/
def wireNamedDetail (names : WireNames) : Detail M → Detail M
  | .mapping es => .mapping (ofPairs (wireNamedEntries names es))
  | .rows items => .rows (wireNamedRows names items)
  | .message m => .message m

/-- The entries the walk writes for a mapping's, in order. -/
def wireNamedEntries (names : WireNames) : List (Key × Detail M) → List (Key × Detail M)
  | [] => []
  | (.row i, value) :: es => (.row i, wireNamedDetail names value) :: wireNamedEntries names es
  | (.name key, value) :: es =>
    let (wireName, nested) := names.get key
    let value := match nested with
      -- `if nested`: an empty nested map leaves the value as it is
      | some nested => if nested.truthy then wireNamedDetail nested value else value
      | none => value
    (.name wireName, value) :: wireNamedEntries names es

/-- A collection's error, walked without descending a level. -/
def wireNamedRows (names : WireNames) : List (Detail M) → List (Detail M)
  | [] => []
  | item :: items => wireNamedDetail names item :: wireNamedRows names items

end

/-- The walk on a value below a key, with the map the key leads to. -/
def wireNamedBelow : Option WireNames → Detail M → Detail M
  | some names, value => wireNamedDetail names value
  | none, value => value

/-- The entry the walk writes for an entry of a mapping. -/
def wireNamedEntry (names : WireNames) (e : Key × Detail M) : Key × Detail M :=
  (names.wireKey e.1, wireNamedBelow (names.nestedAt e.1) e.2)

/-- The walk writes one entry for each entry of the mapping. -/
theorem wireNamedEntries_eq_map (names : WireNames) : ∀ es : List (Key × Detail M),
    wireNamedEntries names es = es.map (wireNamedEntry names)
  | [] => rfl
  | (.row i, value) :: es => by
    rw [wireNamedEntries, wireNamedEntries_eq_map names es]
    rfl
  | (.name key, value) :: es => by
    rw [wireNamedEntries, wireNamedEntries_eq_map names es]
    simp only [List.map_cons, wireNamedEntry, WireNames.wireKey, WireNames.nestedAt, List.cons.injEq, Prod.mk.injEq,
      true_and, and_true]
    cases (names.get key).2 with
    | none => rfl
    | some nested => cases h : nested.truthy <;> simp [h, Option.filter, wireNamedBelow]

/-- The walk maps over a collection's rows. -/
theorem wireNamedRows_eq_map (names : WireNames) : ∀ items : List (Detail M),
    wireNamedRows names items = items.map (wireNamedDetail names)
  | [] => rfl
  | _ :: items => by rw [wireNamedRows, wireNamedRows_eq_map names items, List.map_cons]

/-- The walk on a mapping, entry by entry. -/
theorem wireNamedDetail_mapping (names : WireNames) (es : List (Key × Detail M)) :
    wireNamedDetail names (.mapping es) =
      .mapping (ofPairs (es.map (wireNamedEntry names))) := by
  rw [wireNamedDetail, wireNamedEntries_eq_map]

/-! ## Messages and their paths -/

/-- A step of a path into a detail: into a mapping, under a key, or into a list, at a position. -/
inductive Step where
  | key (k : Key)
  | index (i : Nat)
deriving DecidableEq, Repr

/-- A message at a path, one step further out. -/
def under (s : Step) (pm : List Step × M) : List Step × M := (s :: pm.1, pm.2)

namespace Detail

mutual

/-- The messages of a detail, each with the path that leads to it. -/
def messages : Detail M → List (List Step × M)
  | .mapping es => messagesEntries es
  | .rows items => messagesRows 0 items
  | .message m => [([], m)]

/-- The messages of a mapping's entries. -/
def messagesEntries : List (Key × Detail M) → List (List Step × M)
  | [] => []
  | (k, d) :: es => d.messages.map (under (.key k)) ++ messagesEntries es

/-- The messages of a list's items, the first of which is at position `i`. -/
def messagesRows (i : Nat) : List (Detail M) → List (List Step × M)
  | [] => []
  | d :: items => d.messages.map (under (.index i)) ++ messagesRows (i + 1) items

end

/-- The messages of one entry of a mapping. -/
def entryMessages (e : Key × Detail M) : List (List Step × M) :=
  e.2.messages.map (under (.key e.1))

@[simp] theorem entryMessages_eq_nil {e : Key × Detail M} :
    entryMessages e = [] ↔ e.2.messages = [] := List.map_eq_nil_iff

@[simp] theorem length_entryMessages (e : Key × Detail M) :
    (entryMessages e).length = e.2.messages.length := List.length_map _

/-- The messages of a mapping are those of its entries. -/
theorem messages_mapping : ∀ es : List (Key × Detail M),
    (mapping es).messages = es.flatMap entryMessages
  | [] => rfl
  | e :: es => by
    have ih := messages_mapping es
    rw [messages] at ih
    rw [messages, messagesEntries, ih, List.flatMap_cons]
    rfl

end Detail

/-- The path of a message, renamed: each string key is replaced by its wire name at that level. -/
def renamedPath : Option WireNames → List Step → List Step
  | none, p => p
  | some _, [] => []
  | some names, .index i :: p => .index i :: renamedPath (some names) p
  | some names, .key k :: p => .key (names.wireKey k) :: renamedPath (names.nestedAt k) p

/-- A message at a path, renamed. -/
def renamed (names : Option WireNames) (pm : List Step × M) : List Step × M :=
  (renamedPath names pm.1, pm.2)

@[simp] theorem renamed_none (pm : List Step × M) : renamed none pm = pm := by
  simp [renamed, renamedPath]

@[simp] theorem renamed_under_index (names : WireNames) (i : Nat) (pm : List Step × M) :
    renamed (some names) (under (.index i) pm) = under (.index i) (renamed (some names) pm) := rfl

@[simp] theorem renamed_under_key (names : WireNames) (k : Key) (pm : List Step × M) :
    renamed (some names) (under (.key k) pm) =
      under (.key (names.wireKey k)) (renamed (names.nestedAt k) pm) := rfl

/-! ## What the walk loses -/

/-- An entry of a mapping under its wire name, its value as it was raised. -/
def wireKeyedEntry (names : WireNames) (e : Key × Detail M) : Key × Detail M :=
  (names.wireKey e.1, e.2)

mutual

/-- No mapping the walk visits holds messages under a key whose wire name a later key of the same
mapping takes too. -/
def Lossless (names : WireNames) : Detail M → Prop
  | .mapping es =>
    NoLoss (fun e => e.2.messages) (es.map (wireKeyedEntry names)) ∧
      LosslessEntries names es
  | .rows items => LosslessRows names items
  | .message _ => True

/-- The same of each value of a mapping, with the map its key leads to. -/
def LosslessEntries (names : WireNames) : List (Key × Detail M) → Prop
  | [] => True
  | (k, d) :: es =>
    (match names.nestedAt k with
      | some nested => Lossless nested d
      | none => True) ∧ LosslessEntries names es

/-- The same of each row. -/
def LosslessRows (names : WireNames) : List (Detail M) → Prop
  | [] => True
  | d :: items => Lossless names d ∧ LosslessRows names items

end

/-- `Lossless` below a key: nothing is lost where the walk stops. -/
def LosslessBelow : Option WireNames → Detail M → Prop
  | some names, d => Lossless names d
  | none, _ => True

/-- The values of a mapping lose nothing when each of them loses nothing. -/
theorem losslessEntries_iff (names : WireNames) : ∀ es : List (Key × Detail M),
    LosslessEntries names es ↔ ∀ e ∈ es, LosslessBelow (names.nestedAt e.1) e.2
  | [] => by simp [LosslessEntries]
  | (k, d) :: es => by
    rw [LosslessEntries, losslessEntries_iff names es, List.forall_mem_cons]
    cases names.nestedAt k <;> rfl

/-- A collection's rows lose nothing when each of them loses nothing. -/
theorem losslessRows_iff (names : WireNames) : ∀ items : List (Detail M),
    LosslessRows names items ↔ ∀ d ∈ items, Lossless names d
  | [] => by simp [LosslessRows]
  | d :: items => by rw [LosslessRows, losslessRows_iff names items, List.forall_mem_cons]

/-! ## The renaming -/

/-- The messages of a list's items are not more than those of other items, item by item. -/
theorem length_messagesRows_map_le {f : Detail M → Detail M} : ∀ {items : List (Detail M)} {i : Nat},
    (∀ d ∈ items, (f d).messages.length ≤ d.messages.length) →
    (Detail.messagesRows i (items.map f)).length ≤ (Detail.messagesRows i items).length
  | [], _, _ => Nat.le_refl _
  | d :: items, i, h => by
    rw [List.forall_mem_cons] at h
    have ih := length_messagesRows_map_le (i := i + 1) h.2
    simp only [List.map_cons, Detail.messagesRows, List.length_append, List.length_map]
    omega

/-- Items that together keep the number of messages keep it each. -/
theorem length_eq_of_messagesRows_map {f : Detail M → Detail M} :
    ∀ {items : List (Detail M)} {i : Nat},
    (∀ d ∈ items, (f d).messages.length ≤ d.messages.length) →
    (Detail.messagesRows i (items.map f)).length = (Detail.messagesRows i items).length →
    ∀ d ∈ items, (f d).messages.length = d.messages.length
  | [], _, _, _ => by simp
  | d :: items, i, h, he => by
    rw [List.forall_mem_cons] at h ⊢
    have hle := length_messagesRows_map_le (i := i + 1) h.2
    simp only [List.map_cons, Detail.messagesRows, List.length_append, List.length_map] at he
    exact ⟨by omega, length_eq_of_messagesRows_map (i := i + 1) h.2 (by omega)⟩

/-- Below a key, the walk adds no message when it adds none to the value. -/
theorem length_wireNamedBelow_le {d : Detail M}
    (h : ∀ names, (wireNamedDetail names d).messages.length ≤ d.messages.length) :
    ∀ o, (wireNamedBelow o d).messages.length ≤ d.messages.length
  | some names => h names
  | none => Nat.le_refl _

/-- The walk adds no message. -/
theorem length_wireNamedDetail_le (names : WireNames) (d : Detail M) :
    (wireNamedDetail names d).messages.length ≤ d.messages.length := by
  induction d generalizing names with
  | mapping es ih =>
    rw [wireNamedDetail_mapping, Detail.messages_mapping, Detail.messages_mapping]
    refine Nat.le_trans (length_flatMap_ofPairs_le _ _) ?_
    rw [List.flatMap_map]
    refine length_flatMap_le fun e he => ?_
    simpa [wireNamedEntry] using
      length_wireNamedBelow_le (fun names => ih e he names) (names.nestedAt e.1)
  | rows items ih =>
    rw [wireNamedDetail, wireNamedRows_eq_map]
    exact length_messagesRows_map_le fun d hd => ih d hd names
  | message m => exact Nat.le_refl _

/-- Where nothing is lost, the messages of the items are those of the items as raised, each under
its renamed path. -/
theorem messagesRows_perm {names : WireNames} : ∀ {items : List (Detail M)} {i : Nat},
    (∀ d ∈ items, (wireNamedDetail names d).messages.Perm
      (d.messages.map (renamed (some names)))) →
    (Detail.messagesRows i (items.map (wireNamedDetail names))).Perm
      ((Detail.messagesRows i items).map (renamed (some names)))
  | [], _, _ => .nil
  | d :: items, i, h => by
    rw [List.forall_mem_cons] at h
    simp only [List.map_cons, Detail.messagesRows, List.map_append]
    refine List.Perm.append ?_ (messagesRows_perm h.2)
    refine (h.1.map (under (.index i))).trans (.of_eq ?_)
    simp [List.map_map, Function.comp_def]

/-- **Where nothing is lost, the walk keeps every message, each at its renamed path.** -/
theorem Lossless.perm {names : WireNames} {d : Detail M} (h : Lossless names d) :
    (wireNamedDetail names d).messages.Perm (d.messages.map (renamed (some names))) := by
  induction d generalizing names with
  | mapping es ih =>
    rw [Lossless, losslessEntries_iff] at h
    -- below each key the values keep their messages, renamed with the map the key leads to
    have hbelow : ∀ e ∈ es, (wireNamedBelow (names.nestedAt e.1) e.2).messages.Perm
        (e.2.messages.map (renamed (names.nestedAt e.1))) := by
      intro e he
      have hl := h.2 e he
      cases hn : names.nestedAt e.1 with
      | none => exact .of_eq (by simp [wireNamedBelow, List.map_id''])
      | some nested =>
        rw [hn] at hl
        exact ih e he hl
    have hnil : ∀ e ∈ es, Detail.entryMessages (wireNamedEntry names e) = [] ↔
        e.2.messages = [] := by
      intro e he
      rw [Detail.entryMessages_eq_nil, ← List.length_eq_zero_iff, wireNamedEntry,
        (hbelow e he).length_eq, List.length_map, List.length_eq_zero_iff]
    have hloss : NoLoss Detail.entryMessages (es.map (wireNamedEntry names)) :=
      (noLoss_map_congr (f := wireNamedEntry names) (p := wireKeyedEntry names)
        (q := fun e => e.2.messages) (fun _ _ => rfl) hnil).2 h.1
    rw [wireNamedDetail_mapping, Detail.messages_mapping, Detail.messages_mapping,
      List.map_flatMap]
    refine ((flatMap_ofPairs_perm_iff _ _).2 hloss).trans ?_
    rw [List.flatMap_map]
    refine List.Perm.flatMap_left _ fun e he => ?_
    refine ((hbelow e he).map (under (.key (names.wireKey e.1)))).trans (.of_eq ?_)
    simp [Detail.entryMessages, List.map_map, Function.comp_def]
  | rows items ih =>
    rw [Lossless, losslessRows_iff] at h
    rw [wireNamedDetail, wireNamedRows_eq_map]
    exact messagesRows_perm fun d hd => ih d hd (h d hd)
  | message m => exact .refl _

/-- Where the walk keeps the number of messages, it loses none. -/
theorem Lossless.of_length {names : WireNames} {d : Detail M}
    (h : (wireNamedDetail names d).messages.length = d.messages.length) : Lossless names d := by
  induction d generalizing names with
  | mapping es ih =>
    rw [wireNamedDetail_mapping, Detail.messages_mapping, Detail.messages_mapping] at h
    have hle : ∀ e ∈ es, (Detail.entryMessages (wireNamedEntry names e)).length ≤
        (Detail.entryMessages e).length := by
      intro e _
      simpa [wireNamedEntry] using
        length_wireNamedBelow_le (fun names => length_wireNamedDetail_le names e.2)
          (names.nestedAt e.1)
    have hwrites := length_flatMap_ofPairs_le Detail.entryMessages
      (es.map (wireNamedEntry names))
    have hvalues := length_flatMap_le hle
    rw [← List.flatMap_map] at hvalues
    have heach := length_eq_of_flatMap hle (by
      rw [← List.flatMap_map]
      exact Nat.le_antisymm hvalues (h ▸ hwrites))
    have hnil : ∀ e ∈ es, Detail.entryMessages (wireNamedEntry names e) = [] ↔
        e.2.messages = [] := by
      intro e he
      rw [← List.length_eq_zero_iff, heach e he, List.length_eq_zero_iff,
        Detail.entryMessages_eq_nil]
    rw [Lossless, losslessEntries_iff]
    refine ⟨(noLoss_map_congr (f := wireNamedEntry names) (p := wireKeyedEntry names)
      (g := Detail.entryMessages) (fun _ _ => rfl) hnil).1 ?_, fun e he => ?_⟩
    · rw [← length_flatMap_lastOf_iff,
        ← ((ofPairs_perm_lastOf _).flatMap_right Detail.entryMessages).length_eq]
      exact Nat.le_antisymm hwrites (h ▸ hvalues)
    · have hl := heach e he
      rw [Detail.length_entryMessages, Detail.length_entryMessages, wireNamedEntry] at hl
      cases hn : names.nestedAt e.1 with
      | none => trivial
      | some nested =>
        rw [hn] at hl
        exact ih e he hl
  | rows items ih =>
    rw [wireNamedDetail, wireNamedRows_eq_map] at h
    rw [Lossless, losslessRows_iff]
    exact fun d hd => ih d hd
      (length_eq_of_messagesRows_map (fun d _ => length_wireNamedDetail_le names d) h d hd)
  | message m => trivial

/-- **The walk keeps the multiset of messages, each at its renamed path, exactly when no mapping
holds messages under a key whose wire name a later key takes too.** -/
theorem wireNamedDetail_perm_iff_lossless (names : WireNames) (d : Detail M) :
    (wireNamedDetail names d).messages.Perm (d.messages.map (renamed (some names))) ↔
      Lossless names d := by
  constructor
  · intro h
    exact .of_length (by simpa using h.length_eq)
  · exact Lossless.perm

/-- The map of a serializer whose field `headline` reads the column `title`. -/
def headlineNames : WireNames := .mk [("title", "headline", none)]

/-- A service that refuses both its column `title` and a key `headline` of its own loses the
first: both are written under `headline`. -/
theorem wireNamedDetail_loses_headline :
    ¬ ∀ (names : WireNames) (d : Detail String),
      (wireNamedDetail names d).messages.Perm (d.messages.map (renamed (some names))) := by
  intro h
  have hlen := (h headlineNames (.mapping
    [(.name "title", .rows [.message "Too long."]),
      (.name "headline", .rows [.message "Too loud."])])).length_eq
  revert hlen
  decide

end RestFrameworkServices
