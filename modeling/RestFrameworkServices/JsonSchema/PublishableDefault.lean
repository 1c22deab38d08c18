import RestFrameworkServices.Lib.Dict
import RestFrameworkServices.Lib.JsonBound

/-!
# Defaults a schema publishes

A field's default is put into its schema where `_is_json_native` takes it for a value that survives a round
trip through JSON as itself. `json.dumps` and `json.loads` are the text codec of `Lib.Json` over the JSON
value a Python value is written as (`toJson`) and read as (`ofJson`). A tuple is written as a list, so it
is native and comes back as another value: a value survives exactly where it holds no tuple, no string
with a pair of surrogates, and no integer whose text is too long (`survives_iff`). The interpreter's limit
on recursion is left out.
-/

namespace RestFrameworkServices.PublishableDefault

open Lib

universe u

/-! ## Values -/

/-- A Python value: a `str` is its code points, a `dict` its items in order, an object of another type its
identity. -/
inductive PyValue (φ ω : Type u) where
  | none
  | bool (b : Bool)
  | int (i : ℤ)
  | float (x : φ)
  | str (s : List CodePoint)
  | list (items : List (PyValue φ ω))
  | tuple (items : List (PyValue φ ω))
  | dict (items : List (PyValue φ ω × PyValue φ ω))
  | object (o : ω)

variable {φ ω : Type u}

/-- What the interpreter does: how it writes and reads floats, how many digits an integer's text may have
(any number where it is zero), and `==` where a float or an object of another type is on a side. -/
structure Interpreter (φ ω : Type u) where
  floats : Floats φ
  maxStrDigits : ℕ
  otherEq : PyValue φ ω → PyValue φ ω → Bool

/-- `sys.get_int_max_str_digits()` allows the integer's text. -/
def Interpreter.allows (c : Interpreter φ ω) (i : ℤ) : Bool :=
  c.maxStrDigits = 0 || (Nat.toDigits 10 i.natAbs).length ≤ c.maxStrDigits

namespace PyValue

/-- `isinstance(value, str)`. -/
def isStr : PyValue φ ω → Bool
  | str _ => true
  | _ => false

/-- A float, or an object of another type. -/
def isOther : PyValue φ ω → Bool
  | float _ | object _ => true
  | _ => false

end PyValue

open PyValue

mutual

/-- `value == other`. -/
def eq (c : Interpreter φ ω) : PyValue φ ω → PyValue φ ω → Bool
  | .none, .none => true
  | .bool a, .bool b => a == b
  -- a `bool` is an `int` too
  | .bool a, .int b => a.toInt == b
  | .int a, .bool b => a == b.toInt
  | .int a, .int b => a == b
  | .str a, .str b => a == b
  | .list xs, .list ys => eqItems c xs ys
  | .tuple xs, .tuple ys => eqItems c xs ys
  | .dict xs, .dict ys => xs.length == ys.length && eqEntries c xs ys
  | a, b => (a.isOther || b.isOther) && c.otherEq a b

/-- Two sequences are equal, item by item. -/
def eqItems (c : Interpreter φ ω) : List (PyValue φ ω) → List (PyValue φ ω) → Bool
  | [], [] => true
  | x :: xs, y :: ys => eq c x y && eqItems c xs ys
  | _, _ => false

/-- Each item of a `dict` is one of the other's. -/
def eqEntries (c : Interpreter φ ω) :
    List (PyValue φ ω × PyValue φ ω) → List (PyValue φ ω × PyValue φ ω) → Bool
  | [], _ => true
  | (key, x) :: xs, ys => ys.any (fun e => eq c key e.1 && eq c x e.2) && eqEntries c xs ys

end

/-! ## `_is_json_native` -/

mutual

/-- `_is_json_native`. -/
def isJsonNative : PyValue φ ω → Bool
  | .str _ | .int _ | .float _ | .bool _ | .none => true
  -- `isinstance(value, (list, tuple))`, though an array is read as a list
  | .list items | .tuple items => allJsonNative items
  | .dict items => allEntriesJsonNative items
  | .object _ => false

/-- The loop over a sequence's items. -/
def allJsonNative : List (PyValue φ ω) → Bool
  | [] => true
  | item :: items => isJsonNative item && allJsonNative items

/-- The loop over a `dict`'s items. -/
def allEntriesJsonNative : List (PyValue φ ω × PyValue φ ω) → Bool
  | [] => true
  | (key, item) :: items => key.isStr && isJsonNative item && allEntriesJsonNative items

end

/-- A field's `default`: `empty`, or a value, which may be callable. -/
inductive FieldDefault (φ ω : Type u) where
  | empty
  | declared (value : PyValue φ ω) (callable : Bool)

/-- `_publishable_default`: the default, or `none` for `empty`. -/
def publishableDefault : FieldDefault φ ω → Option (PyValue φ ω)
  | .empty => none
  | .declared value callable =>
    if callable then none else if isJsonNative value then some value else none

/-- The field's `get_default()`: a callable's default is what `call` gives, and there is none of `empty`,
for which the field is skipped. -/
def getDefault (call : PyValue φ ω → PyValue φ ω) : FieldDefault φ ω → Option (PyValue φ ω)
  | .empty => none
  | .declared value callable => some (if callable then call value else value)

/-! ## `json.dumps` and `json.loads` -/

/-- The key a `dict`'s key is written as: a scalar's text, and any other key raises. -/
def keyText (c : Interpreter φ ω) : PyValue φ ω → Option (List CodePoint)
  | .str s => some s
  | .float x => some ((c.floats.text x).map CodePoint.ofChar)
  | .bool true => some ("true".toList.map CodePoint.ofChar)
  | .bool false => some ("false".toList.map CodePoint.ofChar)
  | .none => some ("null".toList.map CodePoint.ofChar)
  | .int i => if c.allows i then some ((Json.intText i).map CodePoint.ofChar) else none
  | .list _ | .tuple _ | .dict _ | .object _ => none

mutual

/-- The JSON value a value is written as: a list and a tuple are both arrays, an object of another type
raises, and so does an integer whose text is too long. -/
def toJson (c : Interpreter φ ω) : PyValue φ ω → Option (Json φ)
  | .none => some .null
  | .bool b => some (.bool b)
  | .int i => if c.allows i then some (.int i) else none
  | .float x => some (.float x)
  | .str s => some (.str s)
  | .list items | .tuple items => (itemsToJson c items).map .array
  | .dict items => (entriesToJson c items).map .object
  | .object _ => none

/-- The items of a sequence, each written. -/
def itemsToJson (c : Interpreter φ ω) : List (PyValue φ ω) → Option (List (Json φ))
  | [] => some []
  | item :: items => (toJson c item).bind fun j => (itemsToJson c items).map (j :: ·)

/-- The items of a `dict`, each written. -/
def entriesToJson (c : Interpreter φ ω) :
    List (PyValue φ ω × PyValue φ ω) → Option (List (List CodePoint × Json φ))
  | [] => some []
  | (key, item) :: items =>
    (keyText c key).bind fun k => (toJson c item).bind fun j =>
      (entriesToJson c items).map ((k, j) :: ·)

end

mutual

/-- The value a JSON value is read as: an array is a list, an object the `dict` of its members, of which the
last of a key stays. -/
def ofJson (c : Interpreter φ ω) : Json φ → Option (PyValue φ ω)
  | .null => some .none
  | .bool b => some (.bool b)
  | .int i => if c.allows i then some (.int i) else none
  | .float x => some (.float x)
  | .str s => some (.str s)
  | .array items => (itemsOfJson c items).map .list
  | .object members => (membersOfJson c members).map fun members =>
    .dict ((ofPairs members).map fun e => (.str e.1, e.2))

/-- The items of an array, each read. -/
def itemsOfJson (c : Interpreter φ ω) : List (Json φ) → Option (List (PyValue φ ω))
  | [] => some []
  | j :: js => (ofJson c j).bind fun item => (itemsOfJson c js).map (item :: ·)

/-- The members of an object, each read. -/
def membersOfJson (c : Interpreter φ ω) :
    List (List CodePoint × Json φ) → Option (List (List CodePoint × PyValue φ ω))
  | [] => some []
  | (k, j) :: ms => (ofJson c j).bind fun item => (membersOfJson c ms).map ((k, item) :: ·)

end

/-- `json.dumps(value)`. -/
def dumps (c : Interpreter φ ω) (value : PyValue φ ω) : Option (List Char) :=
  (toJson c value).map (Json.text c.floats)

/-- `json.loads(text)`. -/
def loads (c : Interpreter φ ω) (text : List Char) : Option (PyValue φ ω) :=
  (Json.parse c.floats text).bind (ofJson c)

/-- The reader's bound is no part of what `json.loads` accepts. -/
theorem loads_eq_some_iff {c : Interpreter φ ω} {text : List Char} {value : PyValue φ ω} :
    loads c text = some value ↔ ∃ n j rest, Json.scan c.floats n (Json.skip text) = some (j, rest) ∧
      Json.skip rest = [] ∧ ofJson c j = some value := by
  rw [loads, Option.bind_eq_some_iff]
  constructor
  · rintro ⟨j, hparse, hread⟩
    obtain ⟨n, rest, hscan, hrest⟩ := Json.parse_eq_some_iff.1 hparse
    exact ⟨n, j, rest, hscan, hrest, hread⟩
  · rintro ⟨n, j, rest, hscan, hrest, hread⟩
    exact ⟨j, Json.parse_eq_some_iff.2 ⟨n, rest, hscan, hrest⟩, hread⟩

/-- What a client reads of a value sent as JSON. -/
def readBack (c : Interpreter φ ω) (value : PyValue φ ω) : Option (PyValue φ ω) :=
  (dumps c value).bind (loads c)

/-! ## Values at any depth -/

mutual

/-- A value and all it is built from, a `dict`'s keys too. -/
def parts : PyValue φ ω → List (PyValue φ ω)
  | .none => [.none]
  | .bool b => [.bool b]
  | .int i => [.int i]
  | .float x => [.float x]
  | .str s => [.str s]
  | .list items => .list items :: partsOfItems items
  | .tuple items => .tuple items :: partsOfItems items
  | .dict items => .dict items :: partsOfEntries items
  | .object o => [.object o]

/-- The parts of a sequence's items. -/
def partsOfItems : List (PyValue φ ω) → List (PyValue φ ω)
  | [] => []
  | item :: items => parts item ++ partsOfItems items

/-- The parts of a `dict`'s keys and values. -/
def partsOfEntries : List (PyValue φ ω × PyValue φ ω) → List (PyValue φ ω)
  | [] => []
  | (key, item) :: items => parts key ++ (parts item ++ partsOfEntries items)

end

/-- Every part of a value has a property. -/
def Throughout (P : PyValue φ ω → Prop) (value : PyValue φ ω) : Prop := ∀ part ∈ parts value, P part

instance (P : PyValue φ ω → Prop) [DecidablePred P] (value : PyValue φ ω) :
    Decidable (Throughout P value) := inferInstanceAs (Decidable (∀ part ∈ parts value, P part))

section
variable {P : PyValue φ ω → Prop}

/-- The parts of a sequence's items are the items', throughout. -/
theorem forall_partsOfItems : ∀ {items : List (PyValue φ ω)},
    (∀ part ∈ partsOfItems items, P part) ↔ ∀ item ∈ items, Throughout P item
  | [] => iff_of_true (List.forall_mem_nil _) (List.forall_mem_nil _)
  | item :: items => by
    rw [partsOfItems, List.forall_mem_append, List.forall_mem_cons, forall_partsOfItems, Throughout]

/-- The parts of a `dict`'s items are those of its keys and values. -/
theorem forall_partsOfEntries : ∀ {items : List (PyValue φ ω × PyValue φ ω)},
    (∀ part ∈ partsOfEntries items, P part) ↔
      ∀ e ∈ items, Throughout P e.1 ∧ Throughout P e.2
  | [] => iff_of_true (List.forall_mem_nil _) (List.forall_mem_nil _)
  | (key, item) :: items => by
    rw [partsOfEntries, List.forall_mem_append, List.forall_mem_append, List.forall_mem_cons,
      forall_partsOfEntries, Throughout, Throughout, and_assoc]

/-- A list has a property throughout where it has it, and its items throughout. -/
theorem throughout_list {items : List (PyValue φ ω)} :
    Throughout P (.list items) ↔ P (.list items) ∧ ∀ item ∈ items, Throughout P item := by
  rw [Throughout, parts, List.forall_mem_cons, forall_partsOfItems]

/-- So does a tuple. -/
theorem throughout_tuple {items : List (PyValue φ ω)} :
    Throughout P (.tuple items) ↔ P (.tuple items) ∧ ∀ item ∈ items, Throughout P item := by
  rw [Throughout, parts, List.forall_mem_cons, forall_partsOfItems]

/-- So does a `dict`, of its keys and values. -/
theorem throughout_dict {items : List (PyValue φ ω × PyValue φ ω)} :
    Throughout P (.dict items) ↔
      P (.dict items) ∧ ∀ e ∈ items, Throughout P e.1 ∧ Throughout P e.2 := by
  rw [Throughout, parts, List.forall_mem_cons, forall_partsOfEntries]

/-- What is no container is its one part. -/
theorem throughout_of_parts {value : PyValue φ ω} (h : parts value = [value]) :
    Throughout P value ↔ P value := by
  rw [Throughout, h, List.forall_mem_singleton]

/-- What is a `str` is one of some code points. -/
theorem eq_str_of_isStr : ∀ {value : PyValue φ ω}, value.isStr = true → ∃ s, value = .str s
  | .str s, _ => ⟨s, rfl⟩

/-- A `str` has no parts but itself. -/
theorem throughout_of_isStr {value : PyValue φ ω} (h : value.isStr = true)
    (hP : ∀ s, P (.str s)) : Throughout P value := by
  obtain ⟨s, rfl⟩ := eq_str_of_isStr h
  exact (throughout_of_parts rfl).2 (hP s)

end

/-- Built from strings, integers, booleans, `None`, lists, tuples and dicts, whose keys are distinct. -/
def Built (c : Interpreter φ ω) : PyValue φ ω → Prop
  | .float _ | .object _ => False
  | .dict items => (keysOf items).Pairwise fun a b => eq c a b = false
  | _ => True

/-- A `dict` has strings for keys. -/
def StringKeyed : PyValue φ ω → Prop
  | .dict items => ∀ e ∈ items, e.1.isStr = true
  | _ => True

/-- A value that JSON has: no tuple, no integer whose text is too long, and no string with a pair of
surrogates. -/
def Plain (c : Interpreter φ ω) : PyValue φ ω → Prop
  | .tuple _ => False
  | .int i => c.allows i = true
  | .str s => Joined s
  | _ => True

instance (c : Interpreter φ ω) : DecidablePred (Built c)
  | .float _ | .object _ => inferInstanceAs (Decidable False)
  | .dict items => inferInstanceAs (Decidable ((keysOf items).Pairwise fun a b => eq c a b = false))
  | .none | .bool _ | .int _ | .str _ | .list _ | .tuple _ => inferInstanceAs (Decidable True)

instance (c : Interpreter φ ω) : DecidablePred (Plain c)
  | .tuple _ => inferInstanceAs (Decidable False)
  | .int i => inferInstanceAs (Decidable (c.allows i = true))
  | .str s => inferInstanceAs (Decidable (Joined s))
  | .none | .bool _ | .float _ | .list _ | .dict _ | .object _ => inferInstanceAs (Decidable True)

/-- An integer whose text is not too long. -/
def Fits (c : Interpreter φ ω) : PyValue φ ω → Prop
  | .int i => c.allows i = true
  | _ => True

/-- A value as JSON is read: no tuple, and no string with a pair of surrogates. -/
def Canonical : PyValue φ ω → Prop
  | .tuple _ | .float _ | .object _ => False
  | .str s => Joined s
  | _ => True

section
variable {c : Interpreter φ ω}

mutual

/-- A value built of these is taken for native where its dicts have strings for keys. -/
theorem isJsonNative_iff : ∀ {value : PyValue φ ω}, Throughout (Built c) value →
    (isJsonNative value = true ↔ Throughout StringKeyed value)
  | .none, _ | .bool _, _ | .int _, _ | .str _, _ =>
    iff_of_true rfl ((throughout_of_parts rfl).2 trivial)
  | .float _, h | .object _, h => ((throughout_of_parts rfl).1 h).elim
  | .list items, h => by
    rw [throughout_list] at h ⊢
    rw [isJsonNative, allJsonNative_iff h.2]
    exact (and_iff_right trivial).symm
  | .tuple items, h => by
    rw [throughout_tuple] at h ⊢
    rw [isJsonNative, allJsonNative_iff h.2]
    exact (and_iff_right trivial).symm
  | .dict items, h => by
    rw [throughout_dict] at h ⊢
    rw [isJsonNative, allEntriesJsonNative_iff h.2, StringKeyed, ← forall₂_and]
    refine forall₂_congr fun e _ => and_congr_right fun hkey => ?_
    exact (and_iff_right (throughout_of_isStr hkey fun _ => trivial)).symm

/-- The loop over items takes them for native where every `dict` in them has strings for keys. -/
theorem allJsonNative_iff : ∀ {items : List (PyValue φ ω)},
    (∀ item ∈ items, Throughout (Built c) item) →
    (allJsonNative items = true ↔ ∀ item ∈ items, Throughout StringKeyed item)
  | [], _ => by simp [allJsonNative]
  | item :: items, h => by
    rw [List.forall_mem_cons] at h ⊢
    rw [allJsonNative, Bool.and_eq_true, isJsonNative_iff h.1, allJsonNative_iff h.2]

/-- So does the loop over a `dict`'s items, whose own keys are strings too. -/
theorem allEntriesJsonNative_iff : ∀ {items : List (PyValue φ ω × PyValue φ ω)},
    (∀ e ∈ items, Throughout (Built c) e.1 ∧ Throughout (Built c) e.2) →
    (allEntriesJsonNative items = true ↔
      ∀ e ∈ items, e.1.isStr = true ∧ Throughout StringKeyed e.2)
  | [], _ => by simp [allEntriesJsonNative]
  | (key, item) :: items, h => by
    rw [List.forall_mem_cons] at h ⊢
    rw [allEntriesJsonNative, Bool.and_eq_true, Bool.and_eq_true, isJsonNative_iff h.1.2,
      allEntriesJsonNative_iff h.2]

end

/-! ## What is written -/

mutual

/-- A value that is written holds no integer whose text is too long, and one built without floats is
written without floats. -/
theorem of_toJson : ∀ {value : PyValue φ ω} {j : Json φ}, Throughout (Built c) value →
    Throughout StringKeyed value → toJson c value = some j →
    j.floats = [] ∧ Throughout (Fits c) value
  | .none, _, _, _, h | .bool _, _, _, _, h | .str _, _, _, _, h => by
    cases h
    exact ⟨rfl, (throughout_of_parts rfl).2 trivial⟩
  | .int i, _, _, _, h => by
    rw [toJson, Option.ite_none_right_eq_some] at h
    obtain ⟨hallows, ⟨⟩⟩ := h
    exact ⟨rfl, (throughout_of_parts rfl).2 hallows⟩
  | .float _, _, hbuilt, _, _ | .object _, _, hbuilt, _, _ =>
    ((throughout_of_parts rfl).1 hbuilt).elim
  | .list items, _, hbuilt, hkeys, h => by
    rw [throughout_list] at hbuilt hkeys ⊢
    obtain ⟨js, hjs, rfl⟩ := Option.map_eq_some_iff.1 h
    obtain ⟨hfloats, hfits⟩ := of_itemsToJson hbuilt.2 hkeys.2 hjs
    exact ⟨hfloats, trivial, hfits⟩
  | .tuple items, _, hbuilt, hkeys, h => by
    rw [throughout_tuple] at hbuilt hkeys ⊢
    obtain ⟨js, hjs, rfl⟩ := Option.map_eq_some_iff.1 h
    obtain ⟨hfloats, hfits⟩ := of_itemsToJson hbuilt.2 hkeys.2 hjs
    exact ⟨hfloats, trivial, hfits⟩
  | .dict items, _, hbuilt, hkeys, h => by
    rw [throughout_dict] at hbuilt hkeys ⊢
    obtain ⟨ms, hms, rfl⟩ := Option.map_eq_some_iff.1 h
    obtain ⟨hfloats, hfits⟩ := of_entriesToJson (fun e he => (hbuilt.2 e he).2)
      (fun e he => (hkeys.2 e he).2) hms
    refine ⟨hfloats, trivial, fun e he => ⟨?_, hfits e he⟩⟩
    exact throughout_of_isStr (hkeys.1 e he) fun _ => trivial

/-- Items that are written hold no float, and no integer whose text is too long. -/
theorem of_itemsToJson : ∀ {items : List (PyValue φ ω)} {js : List (Json φ)},
    (∀ item ∈ items, Throughout (Built c) item) → (∀ item ∈ items, Throughout StringKeyed item) →
    itemsToJson c items = some js →
    Json.floatsOfItems js = [] ∧ ∀ item ∈ items, Throughout (Fits c) item
  | [], _, _, _, h => by
    cases h
    exact ⟨rfl, List.forall_mem_nil _⟩
  | item :: items, _, hbuilt, hkeys, h => by
    rw [List.forall_mem_cons] at hbuilt hkeys ⊢
    obtain ⟨j, hj, h⟩ := Option.bind_eq_some_iff.1 h
    obtain ⟨js, hjs, rfl⟩ := Option.map_eq_some_iff.1 h
    obtain ⟨hfloats, hfits⟩ := of_toJson hbuilt.1 hkeys.1 hj
    obtain ⟨hfloats', hfits'⟩ := of_itemsToJson hbuilt.2 hkeys.2 hjs
    exact ⟨by rw [Json.floatsOfItems, hfloats, hfloats', List.append_nil], hfits, hfits'⟩

/-- So do a `dict`'s values. -/
theorem of_entriesToJson : ∀ {items : List (PyValue φ ω × PyValue φ ω)}
    {ms : List (List CodePoint × Json φ)}, (∀ e ∈ items, Throughout (Built c) e.2) →
    (∀ e ∈ items, Throughout StringKeyed e.2) → entriesToJson c items = some ms →
    Json.floatsOfMembers ms = [] ∧ ∀ e ∈ items, Throughout (Fits c) e.2
  | [], _, _, _, h => by
    cases h
    exact ⟨rfl, List.forall_mem_nil _⟩
  | (key, item) :: items, _, hbuilt, hkeys, h => by
    rw [List.forall_mem_cons] at hbuilt hkeys ⊢
    obtain ⟨k, -, h⟩ := Option.bind_eq_some_iff.1 h
    obtain ⟨j, hj, h⟩ := Option.bind_eq_some_iff.1 h
    obtain ⟨ms, hms, rfl⟩ := Option.map_eq_some_iff.1 h
    obtain ⟨hfloats, hfits⟩ := of_toJson hbuilt.1 hkeys.1 hj
    obtain ⟨hfloats', hfits'⟩ := of_entriesToJson hbuilt.2 hkeys.2 hms
    exact ⟨by rw [Json.floatsOfMembers, hfloats, hfloats', List.append_nil], hfits, hfits'⟩

end

/-! ## What is read -/

mutual

/-- What is read of JSON without floats, its pairs of surrogates joined, is canonical. -/
theorem canonical_ofJson : ∀ {j : Json φ} {value : PyValue φ ω}, j.floats = [] →
    ofJson c j.joined = some value → Throughout Canonical value
  | .null, _, _, h | .bool _, _, _, h => by
    cases h
    exact (throughout_of_parts rfl).2 trivial
  | .int i, _, _, h => by
    rw [Json.joined, ofJson, Option.ite_none_right_eq_some] at h
    obtain ⟨-, ⟨⟩⟩ := h
    exact (throughout_of_parts rfl).2 trivial
  | .float x, _, hfloats, _ => absurd hfloats (List.cons_ne_nil x [])
  | .str s, _, _, h => by
    cases h
    exact (throughout_of_parts rfl).2 (joined_joinSurrogates s)
  | .array js, _, hfloats, h => by
    obtain ⟨items, hitems, rfl⟩ := Option.map_eq_some_iff.1 h
    exact throughout_list.2 ⟨trivial, canonical_itemsOfJson hfloats hitems⟩
  | .object ms, _, hfloats, h => by
    obtain ⟨es, hes, rfl⟩ := Option.map_eq_some_iff.1 h
    refine throughout_dict.2 ⟨trivial, fun e he => ?_⟩
    obtain ⟨member, hmember, rfl⟩ := List.mem_map.1 he
    have hmem : member ∈ es := (lastOf_sublist es).subset ((ofPairs_perm_lastOf es).subset hmember)
    obtain ⟨hkey, hvalue⟩ := canonical_membersOfJson hfloats hes member hmem
    exact ⟨(throughout_of_parts rfl).2 hkey, hvalue⟩

/-- Items read hold no tuple and no pair of surrogates. -/
theorem canonical_itemsOfJson : ∀ {js : List (Json φ)} {items : List (PyValue φ ω)},
    Json.floatsOfItems js = [] → itemsOfJson c (Json.joinedItems js) = some items →
    ∀ item ∈ items, Throughout Canonical item
  | [], _, _, h => by
    cases h
    exact List.forall_mem_nil _
  | j :: js, _, hfloats, h => by
    obtain ⟨hj, hjs⟩ := List.append_eq_nil_iff.1 hfloats
    obtain ⟨item, hitem, h⟩ := Option.bind_eq_some_iff.1 h
    obtain ⟨items, hitems, rfl⟩ := Option.map_eq_some_iff.1 h
    exact List.forall_mem_cons.2 ⟨canonical_ofJson hj hitem, canonical_itemsOfJson hjs hitems⟩

/-- Nor do members read, or their names. -/
theorem canonical_membersOfJson : ∀ {ms : List (List CodePoint × Json φ)}
    {es : List (List CodePoint × PyValue φ ω)}, Json.floatsOfMembers ms = [] →
    membersOfJson c (Json.joinedMembers ms) = some es →
    ∀ e ∈ es, Joined e.1 ∧ Throughout Canonical e.2
  | [], _, _, h => by
    cases h
    exact List.forall_mem_nil _
  | (k, j) :: ms, _, hfloats, h => by
    obtain ⟨hj, hms⟩ := List.append_eq_nil_iff.1 hfloats
    obtain ⟨item, hitem, h⟩ := Option.bind_eq_some_iff.1 h
    obtain ⟨es, hes, rfl⟩ := Option.map_eq_some_iff.1 h
    exact List.forall_mem_cons.2
      ⟨⟨joined_joinSurrogates k, canonical_ofJson hj hitem⟩, canonical_membersOfJson hms hes⟩

end

/-! ## Equality -/

mutual

/-- A value equal to a canonical one is canonical. -/
theorem canonical_of_eq : ∀ {a b : PyValue φ ω}, Throughout (Built c) a → Throughout Canonical b →
    eq c a b = true → Throughout Canonical a
  | .none, _, _, _, _ | .bool _, _, _, _, _ | .int _, _, _, _, _ =>
    (throughout_of_parts rfl).2 trivial
  | .float _, _, hbuilt, _, _ | .object _, _, hbuilt, _, _ =>
    ((throughout_of_parts rfl).1 hbuilt).elim
  | .str s, b, _, hb, h => by
    cases b with
    | str t =>
      rw [eq, beq_iff_eq] at h
      exact h ▸ hb
    | float _ | object _ => exact ((throughout_of_parts rfl).1 hb).elim
    | _ => cases h
  | .list xs, b, hbuilt, hb, h => by
    cases b with
    | list ys =>
      rw [throughout_list] at hbuilt hb ⊢
      exact ⟨trivial, canonical_of_eqItems hbuilt.2 hb.2 h⟩
    | float _ | object _ => exact ((throughout_of_parts rfl).1 hb).elim
    | _ => cases h
  | .tuple xs, b, _, hb, h => by
    cases b with
    | tuple ys => exact (throughout_tuple.1 hb).1.elim
    | float _ | object _ => exact ((throughout_of_parts rfl).1 hb).elim
    | _ => cases h
  | .dict xs, b, hbuilt, hb, h => by
    cases b with
    | dict ys =>
      rw [throughout_dict] at hbuilt hb ⊢
      rw [eq, Bool.and_eq_true] at h
      exact ⟨trivial, canonical_of_eqEntries hbuilt.2 hb.2 h.2⟩
    | float _ | object _ => exact ((throughout_of_parts rfl).1 hb).elim
    | _ => cases h

/-- Items equal to such ones are such themselves. -/
theorem canonical_of_eqItems : ∀ {xs ys : List (PyValue φ ω)},
    (∀ a ∈ xs, Throughout (Built c) a) → (∀ b ∈ ys, Throughout Canonical b) →
    eqItems c xs ys = true → ∀ a ∈ xs, Throughout Canonical a
  | [], _, _, _, _ => List.forall_mem_nil _
  | _ :: _, [], _, _, h => by cases h
  | a :: xs, b :: ys, hbuilt, hb, h => by
    rw [List.forall_mem_cons] at hbuilt hb ⊢
    rw [eqItems, Bool.and_eq_true] at h
    exact ⟨canonical_of_eq hbuilt.1 hb.1 h.1, canonical_of_eqItems hbuilt.2 hb.2 h.2⟩

/-- So are a `dict`'s items. -/
theorem canonical_of_eqEntries : ∀ {xs ys : List (PyValue φ ω × PyValue φ ω)},
    (∀ e ∈ xs, Throughout (Built c) e.1 ∧ Throughout (Built c) e.2) →
    (∀ e ∈ ys, Throughout Canonical e.1 ∧ Throughout Canonical e.2) →
    eqEntries c xs ys = true → ∀ e ∈ xs, Throughout Canonical e.1 ∧ Throughout Canonical e.2
  | [], _, _, _, _ => List.forall_mem_nil _
  | (key, value) :: xs, ys, hbuilt, hb, h => by
    rw [List.forall_mem_cons] at hbuilt ⊢
    rw [eqEntries, Bool.and_eq_true, List.any_eq_true] at h
    obtain ⟨⟨e, he, hmatch⟩, hrest⟩ := h
    rw [Bool.and_eq_true] at hmatch
    exact ⟨⟨canonical_of_eq hbuilt.1.1 (hb e he).1 hmatch.1,
      canonical_of_eq hbuilt.1.2 (hb e he).2 hmatch.2⟩, canonical_of_eqEntries hbuilt.2 hb hrest⟩

end

mutual

/-- A value equals itself, floats and objects of other types apart. -/
theorem eq_self : ∀ {a : PyValue φ ω}, Throughout (Built c) a → eq c a a = true
  | .none, _ => rfl
  | .bool _, _ | .int _, _ | .str _, _ => by rw [eq, beq_self_eq_true]
  | .float _, h | .object _, h => ((throughout_of_parts rfl).1 h).elim
  | .list xs, h => eqItems_self (throughout_list.1 h).2
  | .tuple xs, h => eqItems_self (throughout_tuple.1 h).2
  | .dict xs, h => by
    rw [eq, beq_self_eq_true, Bool.true_and]
    exact eqEntries_of_subset (throughout_dict.1 h).2 fun _ he => he

/-- A sequence equals itself, item by item. -/
theorem eqItems_self : ∀ {xs : List (PyValue φ ω)}, (∀ a ∈ xs, Throughout (Built c) a) →
    eqItems c xs xs = true
  | [], _ => rfl
  | a :: xs, h => by
    rw [List.forall_mem_cons] at h
    rw [eqItems, eq_self h.1, eqItems_self h.2, Bool.and_self]

/-- A `dict`'s items are all among those of one that has them. -/
theorem eqEntries_of_subset : ∀ {xs ys : List (PyValue φ ω × PyValue φ ω)},
    (∀ e ∈ xs, Throughout (Built c) e.1 ∧ Throughout (Built c) e.2) → xs ⊆ ys →
    eqEntries c xs ys = true
  | [], _, _, _ => rfl
  | (key, value) :: xs, ys, h, hsub => by
    rw [List.forall_mem_cons] at h
    rw [List.cons_subset] at hsub
    rw [eqEntries, eqEntries_of_subset h.2 hsub.2, Bool.and_true, List.any_eq_true]
    exact ⟨_, hsub.1, by rw [eq_self h.1.1, eq_self h.1.2, Bool.and_self]⟩

end

/-! ## The round trip -/

/-- A value is written as a JSON value that is read as the value. -/
structure WrittenAs (c : Interpreter φ ω) (value : PyValue φ ω) (j : Json φ) : Prop where
  written : toJson c value = some j
  joined : j.joined = j
  read : ofJson c j = some value

/-- Keys that are distinct as values are distinct as texts. -/
theorem keys_of_distinct {es : List (List CodePoint × PyValue φ ω)}
    (h : (keysOf (es.map fun e => ((PyValue.str e.1 : PyValue φ ω), e.2))).Pairwise
      fun a b => eq c a b = false) : (keysOf es).Nodup := by
  rw [keysOf, List.map_map, List.pairwise_map] at h
  rw [keysOf, List.Nodup, List.pairwise_map]
  refine h.imp fun {a b} hne hab => ?_
  have hself : eq c (.str a.1 : PyValue φ ω) (.str b.1) = true := by
    rw [hab, eq, beq_self_eq_true]
  rw [Function.comp_apply, Function.comp_apply, hself] at hne
  cases hne

mutual

/-- A plain value is written as one that is read as the value. -/
theorem exists_writtenAs : ∀ {value : PyValue φ ω}, Throughout (Built c) value →
    Throughout StringKeyed value → Throughout (Plain c) value → ∃ j, WrittenAs c value j
  | .none, _, _, _ => ⟨.null, rfl, rfl, rfl⟩
  | .bool b, _, _, _ => ⟨.bool b, rfl, rfl, rfl⟩
  | .int i, _, _, hplain => by
    have hallows : c.allows i = true := (throughout_of_parts rfl).1 hplain
    exact ⟨.int i, by rw [toJson, if_pos hallows], rfl, by rw [ofJson, if_pos hallows]⟩
  | .str s, _, _, hplain => by
    have hjoined : Joined s := (throughout_of_parts rfl).1 hplain
    exact ⟨.str s, rfl, by rw [Json.joined, joinSurrogates_eq_self_iff.2 hjoined], rfl⟩
  | .float _, hbuilt, _, _ | .object _, hbuilt, _, _ => ((throughout_of_parts rfl).1 hbuilt).elim
  | .tuple items, _, _, hplain => (throughout_tuple.1 hplain).1.elim
  | .list items, hbuilt, hkeys, hplain => by
    rw [throughout_list] at hbuilt hkeys hplain
    obtain ⟨js, hwritten, hjoined, hread⟩ := exists_itemsWrittenAs hbuilt.2 hkeys.2 hplain.2
    refine ⟨.array js, ?_, ?_, ?_⟩
    · rw [toJson, hwritten, Option.map_some]
    · rw [Json.joined, hjoined]
    · rw [ofJson, hread, Option.map_some]
  | .dict items, hbuilt, hkeys, hplain => by
    rw [throughout_dict] at hbuilt hkeys hplain
    obtain ⟨ms, es, hwritten, hjoined, hread, rfl⟩ := exists_entriesWrittenAs hkeys.1
      (fun e he => (hbuilt.2 e he).2) (fun e he => (hkeys.2 e he).2) hplain.2
    have hdistinct : ofPairs es = es := foldl_assign_of_nodup (keys_of_distinct hbuilt.1)
    refine ⟨.object ms, ?_, ?_, ?_⟩
    · rw [toJson, hwritten, Option.map_some]
    · rw [Json.joined, hjoined]
    · rw [ofJson, hread, Option.map_some, hdistinct]

/-- Plain items are written as JSON values that are read as the items. -/
theorem exists_itemsWrittenAs : ∀ {items : List (PyValue φ ω)},
    (∀ item ∈ items, Throughout (Built c) item) → (∀ item ∈ items, Throughout StringKeyed item) →
    (∀ item ∈ items, Throughout (Plain c) item) →
    ∃ js, itemsToJson c items = some js ∧ Json.joinedItems js = js ∧ itemsOfJson c js = some items
  | [], _, _, _ => ⟨[], rfl, rfl, rfl⟩
  | item :: items, hbuilt, hkeys, hplain => by
    rw [List.forall_mem_cons] at hbuilt hkeys hplain
    obtain ⟨j, hwritten, hjoined, hread⟩ := exists_writtenAs hbuilt.1 hkeys.1 hplain.1
    obtain ⟨js, hwritten', hjoined', hread'⟩ := exists_itemsWrittenAs hbuilt.2 hkeys.2 hplain.2
    refine ⟨j :: js, ?_, ?_, ?_⟩
    · rw [itemsToJson, hwritten, hwritten', Option.bind_some, Option.map_some]
    · rw [Json.joinedItems, hjoined, hjoined']
    · rw [itemsOfJson, hread, hread', Option.bind_some, Option.map_some]

/-- So are a plain `dict`'s items, under their own keys. -/
theorem exists_entriesWrittenAs : ∀ {items : List (PyValue φ ω × PyValue φ ω)},
    (∀ e ∈ items, e.1.isStr = true) → (∀ e ∈ items, Throughout (Built c) e.2) →
    (∀ e ∈ items, Throughout StringKeyed e.2) →
    (∀ e ∈ items, Throughout (Plain c) e.1 ∧ Throughout (Plain c) e.2) →
    ∃ ms es, entriesToJson c items = some ms ∧ Json.joinedMembers ms = ms ∧
      membersOfJson c ms = some es ∧ es.map (fun e => (.str e.1, e.2)) = items
  | [], _, _, _, _ => ⟨[], [], rfl, rfl, rfl, rfl⟩
  | (key, item) :: items, hstr, hbuilt, hkeys, hplain => by
    rw [List.forall_mem_cons] at hstr hbuilt hkeys hplain
    obtain ⟨k, rfl⟩ := eq_str_of_isStr hstr.1
    have hk : Joined k := (throughout_of_parts rfl).1 hplain.1.1
    obtain ⟨j, hwritten, hjoined, hread⟩ := exists_writtenAs hbuilt.1 hkeys.1 hplain.1.2
    obtain ⟨ms, es, hwritten', hjoined', hread', rfl⟩ :=
      exists_entriesWrittenAs hstr.2 hbuilt.2 hkeys.2 hplain.2
    refine ⟨(k, j) :: ms, (k, item) :: es, ?_, ?_, ?_, rfl⟩
    · rw [entriesToJson, keyText, Option.bind_some, hwritten, Option.bind_some, hwritten',
        Option.map_some]
    · rw [Json.joinedMembers, hjoined, hjoined', joinSurrogates_eq_self_iff.2 hk]
    · rw [membersOfJson, hread, Option.bind_some, hread', Option.map_some]

end

/-- A client reads a value equal to the one sent. -/
def Survives (c : Interpreter φ ω) (value : PyValue φ ω) : Prop :=
  ∃ read, readBack c value = some read ∧ eq c value read = true

variable {value : PyValue φ ω}

/-- A value is read back as what its JSON value, its pairs of surrogates joined, is read as. -/
theorem readBack_of_toJson {j : Json φ} (hj : toJson c value = some j) (hfloats : j.floats = []) :
    readBack c value = ofJson c j.joined := by
  have hparse := Json.parse_text (c := c.floats) j (by rw [hfloats]; exact List.forall_mem_nil _)
  rw [readBack, dumps, hj, Option.map_some, Option.bind_some, loads, hparse, Option.bind_some]

/-- **A plain value is read back as itself.** -/
theorem readBack_self (hbuilt : Throughout (Built c) value) (hkeys : Throughout StringKeyed value)
    (hplain : Throughout (Plain c) value) : readBack c value = some value := by
  obtain ⟨j, hwritten, hjoined, hread⟩ := exists_writtenAs hbuilt hkeys hplain
  rw [readBack_of_toJson hwritten (of_toJson hbuilt hkeys hwritten).1, hjoined, hread]

/-- What is written and canonical is plain. -/
theorem plain_of_canonical : ∀ {part : PyValue φ ω}, Fits c part → Canonical part → Plain c part
  | .int _, hfits, _ => hfits
  | .str _, _, hjoined => hjoined
  | .none, _, _ | .bool _, _, _ | .list _, _, _ | .dict _, _, _ => trivial

/-- **A value with strings for keys survives exactly where it is plain.** -/
theorem survives_iff (hbuilt : Throughout (Built c) value) (hkeys : Throughout StringKeyed value) :
    Survives c value ↔ Throughout (Plain c) value := by
  constructor
  · rintro ⟨read, hread, heq⟩
    obtain ⟨text, htext, -⟩ := Option.bind_eq_some_iff.1 hread
    obtain ⟨j, hj, -⟩ := Option.map_eq_some_iff.1 htext
    obtain ⟨hfloats, hfits⟩ := of_toJson hbuilt hkeys hj
    rw [readBack_of_toJson hj hfloats] at hread
    have hcanonical := canonical_of_eq hbuilt (canonical_ofJson hfloats hread) heq
    exact fun part hpart => plain_of_canonical (hfits part hpart) (hcanonical part hpart)
  · intro hplain
    exact ⟨value, readBack_self hbuilt hkeys hplain, eq_self hbuilt⟩

/-- A value taken for native survives, and where a field whose default it is publishes it, a client reads the
default the field uses. -/
structure Sound (c : Interpreter φ ω) (value : PyValue φ ω) : Prop where
  survives : isJsonNative value = true → Survives c value
  published : ∀ call callable shown, publishableDefault (.declared value callable) = some shown →
    ∃ used read, getDefault call (.declared value callable) = some used ∧
      readBack c shown = some read ∧ eq c used read = true

/-- What is published is the declared default itself, a native value that is not callable. -/
theorem publishableDefault_eq_some {callable : Bool} {shown : PyValue φ ω}
    (h : publishableDefault (.declared value callable) = some shown) :
    callable = false ∧ isJsonNative value = true ∧ value = shown := by
  rw [publishableDefault, Option.ite_none_left_eq_some, Option.ite_none_right_eq_some] at h
  obtain ⟨hcallable, hnative, hshown⟩ := h
  exact ⟨Bool.eq_false_iff.2 hcallable, hnative, Option.some.inj hshown⟩

/-- **`_is_json_native` is sound of a value exactly where the value is plain, or a `dict` in it has a key
that is no string.** -/
theorem isJsonNative_sound_iff (hbuilt : Throughout (Built c) value) :
    Sound c value ↔ (Throughout StringKeyed value → Throughout (Plain c) value) := by
  constructor
  · intro hsound hkeys
    exact (survives_iff hbuilt hkeys).1 (hsound.survives ((isJsonNative_iff hbuilt).2 hkeys))
  · intro hplain
    have hsurvives : isJsonNative value = true → Survives c value := fun hnative =>
      have hkeys := (isJsonNative_iff hbuilt).1 hnative
      (survives_iff hbuilt hkeys).2 (hplain hkeys)
    refine ⟨hsurvives, fun call callable shown hshown => ?_⟩
    obtain ⟨rfl, hnative, rfl⟩ := publishableDefault_eq_some hshown
    obtain ⟨read, hread, heq⟩ := hsurvives hnative
    exact ⟨value, read, rfl, hread, heq⟩

end

/-- CPython with its default limit, a float as its text. -/
def cpython : Interpreter (List Char) Empty := ⟨⟨id, id⟩, 4300, fun _ _ => false⟩

/-- The code points of a text. -/
def codePoints (text : String) : List CodePoint := text.toList.map CodePoint.ofChar

/-- `{"tags": ["a", "b"], "limit": 20}`. -/
def filters : PyValue (List Char) Empty :=
  .dict [(.str (codePoints "tags"), .list [.str (codePoints "a"), .str (codePoints "b")]),
    (.str (codePoints "limit"), .int 20)]

/-- The filters' default is taken for native, and survives. -/
theorem isJsonNative_sound_iff_filters :
    Throughout (Built cpython) filters ∧ Sound cpython filters :=
  ⟨by decide, (isJsonNative_sound_iff (by decide)).2 fun _ => by decide⟩

/-- `(1, 2)`, native and read back as a list. -/
theorem not_sound_pair : Throughout (Built cpython) (.tuple [.int 1, .int 2]) ∧
    ¬ Sound cpython (.tuple [.int 1, .int 2]) := by
  refine ⟨by decide, fun hsound => ?_⟩
  obtain ⟨read, hread, heq⟩ := hsound.survives rfl
  have hlist : readBack cpython (.tuple [.int 1, .int 2]) = some (.list [.int 1, .int 2]) := rfl
  rw [hlist, Option.some.injEq] at hread
  subst hread
  cases heq

example : readBack cpython (.str [0xd83d, 0xde00]) = some (.str [0x1f600]) := rfl

end RestFrameworkServices.PublishableDefault
