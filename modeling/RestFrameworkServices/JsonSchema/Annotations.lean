import Mathlib.Data.List.Forall2
import RestFrameworkServices.JsonSchema.Choices
import RestFrameworkServices.Lib.Dict
import RestFrameworkServices.Types.SchemaMarkers

/-!
# The schema of an annotation

`_python_type_to_schema` turns a type annotation into JSON Schema. `Inhabits` says which JSON values the
values of an annotation are written as, by the annotation's own structure and with no regard to markers.
The schema refuses none of them, and accepts nothing else where the annotation is `Exact`: made of what
the schema can express in full (`pythonTypeToSchema_describes`).
-/

namespace RestFrameworkServices.Annotations

open Lib SchemaMarkers SchemaMarkers.Hint Choices

/-! ## Types -/

/-- What an annotation's types are: the rules of `registry.python_types`, by the type, the values of an
`Enum` or a `Literal`, and the texts a type written as a string in a format is written as. -/
structure Typing where
  rules : List (String × Schema Constant)
  values : String → Option (List Constant)
  texts : String → String → Prop

/-- `_PYTHON_TYPE_TO_SCHEMA`, without the formats: the types, and the JSON type of each. -/
def plainTypes : List (String × String) :=
  [("str", "string"), ("int", "integer"), ("float", "number"), ("bool", "boolean"),
    ("NoneType", "null")]

/-- The types of the table that are written as a string in a format. -/
def formattedTypes : List (String × String) :=
  [("Decimal", "decimal"), ("datetime", "date-time"), ("date", "date"), ("time", "time"),
    ("UUID", "uuid")]

/-- `_PYTHON_TYPE_TO_SCHEMA`. -/
def pythonTypes : List (String × Schema Constant) :=
  plainTypes.map (fun t => (t.1, .all [.type t.2])) ++
    formattedTypes.map fun t => (t.1, .all [.type "string", .note "format" t.2])

/-- An array, of distinct items where the origin is a set's. -/
def arrayOf (origin : String) (item : Schema Constant) : Schema Constant :=
  .all ([.type "array", .items item] ++ if origin = "list" then [] else [.uniqueItems])

/-- An object, which says nothing of its values where their schema is `{}`. -/
def objectOf : Schema Constant → Schema Constant
  | .all [] => .all [.type "object"]
  | value => .all [.type "object", .additionalProperties [] value]

/-- The origins of the arrays. -/
def arrayOrigins : List String := ["list", "set", "frozenset"]

/-- The schema of a type with no arguments. -/
def typeSchema (T : Typing) (name : String) : Schema Constant :=
  match T.rules.lookup name with
  | some rule => rule
  | none =>
    match pythonTypes.lookup name with
    | some schema => schema
    | none =>
      match T.values name with
      | some values => .all [.enum values]
      | none =>
        if name ∈ arrayOrigins then arrayOf name .any
        else if name = "dict" then objectOf .any
        else .any

/-! ## Sizes -/

mutual

/-- The size of an annotation. -/
def weight : Hint → ℕ
  | .noneType | .type _ => 1
  | .annotated underlying _ => weight underlying + 1
  | .union members => weights members + 1
  | .generic _ args => weights args + 1
  | .callable params result => weights params + weight result + 1
  | .typeAlias _ args value => weights args + weight value + 1

/-- The sizes of annotations. -/
def weights : List Hint → ℕ
  | [] => 0
  | hint :: hints => weight hint + weights hints + 1

end

/-- Weights add up over two lists. -/
theorem weights_append : ∀ hints hints' : List Hint,
    weights (hints ++ hints') = weights hints + weights hints'
  | [], _ => by rw [weights, List.nil_append, Nat.zero_add]
  | hint :: hints, hints' => by
    rw [List.cons_append, weights, weights, weights_append hints hints']
    omega

/-- Fewer annotations weigh no more. -/
theorem weights_filter_le (p : Hint → Bool) : ∀ hints : List Hint, weights (hints.filter p) ≤ weights hints
  | [] => le_rfl
  | hint :: hints => by
    have ih := weights_filter_le p hints
    rw [List.filter_cons]
    split <;> simp only [weights] <;> omega

/-- Nor do annotations of which `None` is kept once. -/
theorem weights_noneOnce_le : ∀ hints : List Hint, weights (noneOnce hints) ≤ weights hints
  | [] => le_rfl
  | hint :: hints => by
    have ih := weights_noneOnce_le hints
    have hfilter := weights_filter_le (fun member => !member.isNone) hints
    rw [noneOnce]
    split <;> simp only [weights] <;> omega

/-- A union's members weigh one more than the union at most. -/
theorem weights_members_le (hint : Hint) : weights hint.members ≤ weight hint + 1 := by
  cases hint with
  | union members => simp only [Hint.members, weight]; omega
  | _ => simp [Hint.members, weights]

/-- The members of all annotations weigh no more than the annotations. -/
theorem weights_flatMap_members_le : ∀ hints : List Hint,
    weights (hints.flatMap Hint.members) ≤ weights hints
  | [] => le_rfl
  | hint :: hints => by
    have ih := weights_flatMap_members_le hints
    have hhint := weights_members_le hint
    rw [List.flatMap_cons, weights_append, weights]
    omega

/-- A union of annotations weighs one more than they do at most. -/
theorem weight_unionOf_le (hints : List Hint) : weight (unionOf hints) ≤ weights hints + 1 := by
  have hle := (weights_noneOnce_le (hints.flatMap Hint.members)).trans (weights_flatMap_members_le hints)
  rw [unionOf]
  split
  · next member h =>
    rw [h] at hle
    simp only [weights] at hle
    omega
  · simp only [weight]
    omega

/-- A member of a union, or the type of the `Annotated` in it. -/
def unwrapped (inner : Hint) : Hint → Hint
  | .annotated _ _ => inner
  | member => member

/-- A union rebuilt is the union of its members unwrapped. -/
theorem rebuilt_eq (inner : Hint) (members : List Hint) :
    rebuilt inner members = unionOf (members.map (unwrapped inner)) := by
  rw [rebuilt]
  congr 2

/-- The members of an `Optional` whose one other member is `Annotated`, less the markers. -/
theorem weight_rebuilt_le {members : List Hint} {inner : Hint} {metadata : List Metadata}
    (h : (members.filter fun member => !member.isNone) = [.annotated inner metadata]) :
    weight (rebuilt inner members) ≤ weights members + 1 := by
  have hmap : ∀ ms : List Hint, (∀ m ∈ ms, m.isNone = false → m = .annotated inner metadata) →
      weights (ms.map (unwrapped inner)) ≤ weights ms := by
    intro ms hms
    induction ms with
    | nil => exact le_rfl
    | cons m ms ih =>
      have ih := ih fun m' hm' => hms m' (List.mem_cons_of_mem m hm')
      rw [List.map_cons, weights, weights]
      cases hm : m.isNone with
      | true =>
        cases m with
        | noneType => simp only [unwrapped]; omega
        | _ => cases hm
      | false =>
        obtain rfl := hms m List.mem_cons_self hm
        simp only [unwrapped, weight]
        omega
  rw [rebuilt_eq]
  refine (weight_unionOf_le _).trans (Nat.add_le_add_right (hmap members fun m hm hnone => ?_) 1)
  have hmem : m ∈ members.filter fun member => !member.isNone :=
    List.mem_filter.2 ⟨hm, by rw [hnone]; rfl⟩
  rw [h] at hmem
  exact List.mem_singleton.1 hmem

/-- An annotation less the layer its markers are read from. -/
def unmarked : Hint → Hint
  | .annotated underlying _ => underlying
  | .union members =>
    match members.filter fun member => !member.isNone with
    | [.annotated inner _] => rebuilt inner members
    | _ => .union members
  | hint => hint

/-- An annotation weighs no more without its markers. -/
theorem weight_unmarked_le (hint : Hint) : weight (unmarked hint) ≤ weight hint := by
  rw [unmarked.eq_def]
  split
  · simp only [weight]
    omega
  · split
    · next h => simpa only [weight] using weight_rebuilt_le h
    · exact le_rfl
  · exact le_rfl

section
variable {reprHint : Hint → String}

/-- What is answered with an annotation's markers is the annotation less their layer. -/
theorem eq_unmarked_of_read {hint underlying : Hint} {marked : Bool × Bool}
    (h : readSchemaMarkers reprHint hint = .ok (underlying, marked)) : underlying = unmarked hint := by
  have hanswer : ∀ {inner whole : Hint} {answer answer' : Hint × List Metadata},
      refuseMisplacedMarkers reprHint inner whole answer = .ok answer' → answer = answer' := by
    intro inner whole answer answer' h
    rw [refuseMisplacedMarkers] at h
    split at h
    · cases h
    · exact Except.ok.inj h
  have hlayer : ∀ {layer : Hint × List Metadata}, markerLayer reprHint hint = .ok layer →
      layer.1 = unmarked hint := by
    intro layer hlayer
    rw [markerLayer.eq_def] at hlayer
    split at hlayer
    · rw [← hanswer hlayer, unmarked]
    · next members =>
      split at hlayer
      · next honly => rw [← hanswer hlayer, unmarked, honly]
      · next hother =>
        rw [← hanswer hlayer, unmarked]
        split
        · next honly => exact absurd honly (hother _ _)
        · rfl
    · next hannotated hunion =>
      rw [← hanswer hlayer, unmarked.eq_def]
      split
      · exact absurd rfl (hannotated _ _)
      · exact absurd rfl (hunion _)
      · rfl
  rw [readSchemaMarkers] at h
  split at h
  · cases h
  · next inner metadata hread =>
    dsimp only at h
    split at h
    · cases h
    · obtain ⟨rfl, -⟩ := Prod.mk.inj (Except.ok.inj h)
      exact hlayer hread

/-- Nor does what reading its markers leaves. -/
theorem weight_le_of_read {hint underlying : Hint} {marked : Bool × Bool}
    (h : readSchemaMarkers reprHint hint = .ok (underlying, marked)) :
    weight underlying ≤ weight hint := by
  rw [eq_unmarked_of_read h]
  exact weight_unmarked_le hint

end

/-! ## `_python_type_to_schema` -/

/-- `(item_type,) = args or (Any,)`. -/
def itemType : List Hint → Except String (Option Hint)
  | [] => .ok none
  | [item] => .ok (some item)
  | _ => .error "too many values to unpack (expected 1)"

/-- `args[1] if args`. -/
def valueType : List Hint → Except String (Option Hint)
  | [] => .ok none
  | [_] => .error "tuple index out of range"
  | _ :: value :: _ => .ok (some value)

/-- An item's type read is the one argument, if there is one. -/
theorem itemType_eq_ok : ∀ {args : List Hint} {item : Option Hint}, itemType args = .ok item →
    args = item.toList
  | [], _, rfl => rfl
  | [_], _, rfl => rfl

/-- A value's type read is the second argument, if there is any. -/
theorem valueType_eq_ok : ∀ {args : List Hint} {value : Option Hint}, valueType args = .ok value →
    args = [] ∧ value = none ∨ ∃ key v rest, args = key :: v :: rest ∧ value = some v
  | [], _, rfl => .inl ⟨rfl, rfl⟩
  | key :: v :: rest, _, rfl => .inr ⟨key, v, rest, rfl, rfl⟩

/-- An item's type weighs less than the arguments. -/
theorem weight_lt_of_itemType {args : List Hint} {item : Hint} (h : itemType args = .ok (some item)) :
    weight item < weights args := by
  rw [itemType_eq_ok h]
  simp only [Option.toList, weights]
  omega

/-- So does a value's. -/
theorem weight_lt_of_valueType {args : List Hint} {value : Hint}
    (h : valueType args = .ok (some value)) : weight value < weights args := by
  obtain ⟨-, h⟩ | ⟨key, v, rest, rfl, h⟩ := valueType_eq_ok h
  · cases h
  · cases h
    simp only [weights]
    omega

section
variable (reprHint : Hint → String) (T : Typing)

mutual

/-- `_python_type_to_schema`. -/
def pythonTypeToSchema (hint : Hint) : Except String (Schema Constant) :=
  match _hread : readSchemaMarkers reprHint hint with
  | .error message => .error message
  | .ok (.noneType, _) => .ok (typeSchema T "NoneType")
  | .ok (.type name, _) => .ok (typeSchema T name)
  | .ok (.union members, _) => (pythonTypesToSchemas members).map fun schemas => .all [.anyOf schemas]
  | .ok (.generic origin args, _) =>
    if origin ∈ arrayOrigins then
      match _hitem : itemType args with
      | .error message => .error message
      | .ok none => .ok (arrayOf origin .any)
      | .ok (some item) => (pythonTypeToSchema item).map (arrayOf origin)
    else if origin = "dict" then
      match _hvalue : valueType args with
      | .error message => .error message
      | .ok none => .ok (objectOf .any)
      | .ok (some value) => (pythonTypeToSchema value).map objectOf
    else .ok .any
  | .ok _ => .ok .any
termination_by weight hint
decreasing_by
  all_goals
    have hle := weight_le_of_read _hread
    simp only [weight] at hle
  · omega
  · have hlt := weight_lt_of_itemType _hitem
    omega
  · have hlt := weight_lt_of_valueType _hvalue
    omega

/-- The schemas of a union's members. -/
def pythonTypesToSchemas (hints : List Hint) : Except String (List (Schema Constant)) :=
  match hints with
  | [] => .ok []
  | hint :: hints =>
    match pythonTypeToSchema hint, pythonTypesToSchemas hints with
    | .ok schema, .ok schemas => .ok (schema :: schemas)
    | .error message, _ => .error message
    | _, .error message => .error message
termination_by weights hints
decreasing_by
  all_goals
    simp only [weights]
    omega

end

end

/-! ## What an annotation's values are written as -/

/-- An array whose items satisfy `P`, of distinct ones where the origin is a set's. -/
def IsArray (origin : String) (P : Instance → Prop) (x : Instance) : Prop :=
  ∃ xs, x = .array xs ∧ (∀ y ∈ xs, P y) ∧ (origin ≠ "list" → Instance.Distinct xs)

/-- An object whose values satisfy `P`. -/
def IsObject (P : Instance → Prop) (x : Instance) : Prop :=
  ∃ ms, x = .object ms ∧ ∀ m ∈ ms, P m.2

/-- What the values of a type with no arguments are written as: what its rule accepts, a value of its JSON
type, a text of its format, a member's value. Nothing is known of any other type. -/
def TypeInhabits (T : Typing) (name : String) (x : Instance) : Prop :=
  match T.rules.lookup name, plainTypes.lookup name, formattedTypes.lookup name, T.values name with
  | some rule, _, _, _ => Schema.valid Constant.toJson rule x = true
  | none, some jsonType, _, _ => Instance.hasType jsonType x = true
  | none, none, some _, _ => ∃ text, x = .string text ∧ T.texts name text
  | none, none, none, some values => ∃ value ∈ values, value.toJson = some x
  | none, none, none, none =>
    (name ∈ arrayOrigins → IsArray name (fun _ => True) x) ∧ (name = "dict" → IsObject (fun _ => True) x)

section
variable (T : Typing)

mutual

/-- What the values of an annotation are written as. What an `Annotated` adds says nothing of them. -/
def Inhabits : Hint → Instance → Prop
  | .noneType => TypeInhabits T "NoneType"
  | .type name => TypeInhabits T name
  | .annotated underlying _ => Inhabits underlying
  | .union members => InhabitsOne members
  | .generic origin args => fun x =>
    (origin ∈ arrayOrigins → IsArray origin (InhabitsFirst args) x) ∧
      (origin = "dict" → IsObject (InhabitsSecond args) x)
  | .callable _ _ => fun _ => True
  | .typeAlias _ _ value => Inhabits value

/-- What the values of one of the members are written as. -/
def InhabitsOne : List Hint → Instance → Prop
  | [] => fun _ => False
  | hint :: hints => fun x => Inhabits hint x ∨ InhabitsOne hints x

/-- What the values of the first argument are written as, of any type without one. -/
def InhabitsFirst : List Hint → Instance → Prop
  | [] => fun _ => True
  | hint :: _ => Inhabits hint

/-- What the values of the second argument are written as. -/
def InhabitsSecond : List Hint → Instance → Prop
  | [] => fun _ => True
  | _ :: hints => InhabitsFirst hints

end

/-- The schema says of a type all there is to say. -/
def TypeExact (name : String) : Prop :=
  (T.rules.lookup name).isSome ∨ (plainTypes.lookup name).isSome ∨
    (formattedTypes.lookup name = none ∧
      ((T.values name).isSome ∨ name ∈ arrayOrigins ∨ name = "dict"))

/-- An annotation is an `Annotated`. -/
def isAnnotated : Hint → Bool
  | .annotated _ _ => true
  | _ => false

mutual

/-- The schema says of an annotation all there is to say: it is made of types it says all of, and has no
alias, no callable and no other generic in it. Its unions are of two or more, and no `Annotated` is of
another, as `typing` makes them. -/
def Exact : Hint → Prop
  | .noneType => TypeExact T "NoneType"
  | .type name => TypeExact T name
  | .annotated underlying _ => isAnnotated underlying = false ∧ Exact underlying
  | .union members => 2 ≤ members.length ∧ AllExact members
  | .generic origin args => (origin ∈ arrayOrigins ∨ origin = "dict") ∧ AllExact args
  | .callable _ _ => False
  | .typeAlias _ _ _ => False

/-- So of each of them. -/
def AllExact : List Hint → Prop
  | [] => True
  | hint :: hints => Exact hint ∧ AllExact hints

end

variable {T} {x : Instance}

/-- A value is of one of a union's annotations. -/
theorem inhabitsOne_iff : ∀ {hints : List Hint}, InhabitsOne T hints x ↔ ∃ hint ∈ hints, Inhabits T hint x
  | [] => by simp [InhabitsOne]
  | hint :: hints => by
    simp only [InhabitsOne]
    rw [inhabitsOne_iff, List.exists_mem_cons_iff]

/-- All of a list's annotations are exact where each is. -/
theorem allExact_iff : ∀ {hints : List Hint}, AllExact T hints ↔ ∀ hint ∈ hints, Exact T hint
  | [] => by simp [AllExact]
  | hint :: hints => by rw [AllExact, allExact_iff, List.forall_mem_cons]

/-! ### Unions -/

/-- A value is of an annotation where it is of one of its members. -/
theorem inhabits_members_iff {hint : Hint} :
    (∃ member ∈ hint.members, Inhabits T member x) ↔ Inhabits T hint x := by
  cases hint with
  | union members => rw [Hint.members, Inhabits, inhabitsOne_iff]
  | _ => simp [Hint.members]

/-- Keeping `None` once keeps every annotation. -/
theorem mem_noneOnce {hint : Hint} : ∀ {hints : List Hint}, hint ∈ noneOnce hints ↔ hint ∈ hints
  | [] => Iff.rfl
  | h :: hints => by
    have ih : hint ∈ noneOnce hints ↔ hint ∈ hints := mem_noneOnce
    rw [noneOnce, List.mem_cons, List.mem_cons]
    split
    · next hnone =>
      cases h with
      | noneType =>
        rw [List.mem_filter]
        cases hint <;> simp [isNone]
      | _ => cases hnone
    · rw [ih]

/-- A union's values are those of what it is made of. -/
theorem inhabits_unionOf_iff {hints : List Hint} :
    Inhabits T (unionOf hints) x ↔ ∃ hint ∈ hints, Inhabits T hint x := by
  have hmembers : (∃ member ∈ noneOnce (hints.flatMap Hint.members), Inhabits T member x) ↔
      ∃ hint ∈ hints, Inhabits T hint x := by
    simp only [mem_noneOnce, List.mem_flatMap]
    constructor
    · rintro ⟨member, ⟨hint, hhint, hmember⟩, hx⟩
      exact ⟨hint, hhint, inhabits_members_iff.1 ⟨member, hmember, hx⟩⟩
    · rintro ⟨hint, hhint, hx⟩
      obtain ⟨member, hmember, hx⟩ := inhabits_members_iff.2 hx
      exact ⟨member, ⟨hint, hhint, hmember⟩, hx⟩
  rw [← hmembers, unionOf]
  split
  · next member h => simp [h]
  · rw [Inhabits, inhabitsOne_iff]

/-- A union with `None` among what it is made of is `None`, or a union of two or more. -/
theorem unionOf_cases {hints : List Hint} (hnone : .noneType ∈ hints) :
    unionOf hints = .noneType ∨ ∃ members, unionOf hints = .union members ∧ 2 ≤ members.length ∧
      ∀ member ∈ members, ∃ hint ∈ hints, member ∈ hint.members := by
  have hmem : .noneType ∈ noneOnce (hints.flatMap Hint.members) :=
    noneType_mem_noneOnce (List.mem_flatMap.2 ⟨.noneType, hnone, List.mem_singleton_self _⟩)
  rw [unionOf]
  split
  · next member h =>
    rw [h] at hmem
    exact .inl (List.mem_singleton.1 hmem).symm
  · next hsingle =>
    refine .inr ⟨_, rfl, ?_, fun member hmember => List.mem_flatMap.1 (mem_noneOnce.1 hmember)⟩
    rcases hmade : noneOnce (hints.flatMap Hint.members) with _ | ⟨member, _ | ⟨_, _⟩⟩
    · rw [hmade] at hmem
      cases hmem
    · exact absurd hmade (hsingle member)
    · simp

/-- A union of exact annotations with `None` is exact. -/
theorem exact_unionOf {hints : List Hint} (hnone : .noneType ∈ hints) (h : ∀ hint ∈ hints, Exact T hint) :
    Exact T (unionOf hints) := by
  rcases unionOf_cases hnone with heq | ⟨members, heq, hlen, hmembers⟩
  · rw [heq]
    exact h _ hnone
  · rw [heq]
    refine ⟨hlen, allExact_iff.2 fun member hmember => ?_⟩
    obtain ⟨hint, hhint, hmember⟩ := hmembers member hmember
    have hexact := h hint hhint
    cases hint with
    | union members => exact allExact_iff.1 hexact.2 member hmember
    | _ =>
      obtain rfl := List.mem_singleton.1 hmember
      exact hexact

/-! ### Markers -/

/-- Markers say nothing of an annotation's values. -/
theorem inhabits_unmarked_iff {hint : Hint} : Inhabits T (unmarked hint) x ↔ Inhabits T hint x := by
  rw [unmarked.eq_def]
  split
  · rw [Inhabits]
  · next members =>
    split
    · next inner metadata honly =>
      have hone : ∀ m ∈ members, m.isNone = false → m = .annotated inner metadata := by
        intro m hm hnone
        have hmem : m ∈ members.filter fun member => !member.isNone :=
          List.mem_filter.2 ⟨hm, by rw [hnone]; rfl⟩
        rw [honly] at hmem
        exact List.mem_singleton.1 hmem
      have hsame : ∀ m ∈ members, Inhabits T (unwrapped inner m) x ↔ Inhabits T m x := by
        intro m hm
        cases hnone : m.isNone with
        | true =>
          cases m with
          | noneType => exact Iff.rfl
          | _ => cases hnone
        | false =>
          obtain rfl := hone m hm hnone
          simp only [unwrapped, Inhabits]
      rw [rebuilt_eq, inhabits_unionOf_iff, Inhabits, inhabitsOne_iff]
      constructor
      · rintro ⟨m', hm', hx⟩
        obtain ⟨m, hm, rfl⟩ := List.mem_map.1 hm'
        exact ⟨m, hm, (hsame m hm).1 hx⟩
      · rintro ⟨m, hm, hx⟩
        exact ⟨_, List.mem_map_of_mem hm, (hsame m hm).2 hx⟩
    · rfl
  · rfl

/-- An `Optional` whose other member is `Annotated` holds `None`. -/
theorem noneType_mem_rebuilt {members : List Hint} {inner : Hint} {metadata : List Metadata}
    (hlen : 2 ≤ members.length)
    (h : (members.filter fun member => !member.isNone) = [.annotated inner metadata]) :
    .noneType ∈ members.map (unwrapped inner) := by
  have hnone : .noneType ∈ members := by
    by_contra hnone
    have hall : (members.filter fun member => !member.isNone) = members :=
      List.filter_eq_self.2 fun m hm => by
        cases m with
        | noneType => exact absurd hm hnone
        | _ => rfl
    rw [hall] at h
    rw [h] at hlen
    simp at hlen
  exact List.mem_map.2 ⟨.noneType, hnone, rfl⟩

/-- An exact annotation is one without its markers, which is no `Annotated`. -/
theorem exact_unmarked {hint : Hint} (h : Exact T hint) :
    Exact T (unmarked hint) ∧ isAnnotated (unmarked hint) = false := by
  rw [unmarked.eq_def]
  split
  · exact ⟨h.2, h.1⟩
  · next members =>
    have hmembers := allExact_iff.1 h.2
    split
    · next inner metadata honly =>
      have hinner : Exact T inner := (hmembers (.annotated inner metadata)
        (List.mem_of_mem_filter (by rw [honly]; exact List.mem_singleton_self _))).2
      have hnone := noneType_mem_rebuilt h.1 honly
      rw [rebuilt_eq]
      constructor
      · refine exact_unionOf hnone fun m' hm' => ?_
        obtain ⟨m, hm, rfl⟩ := List.mem_map.1 hm'
        cases m with
        | annotated _ _ => exact hinner
        | _ => exact hmembers _ hm
      · rcases unionOf_cases hnone with heq | ⟨_, heq, -⟩ <;> rw [heq] <;> rfl
    · exact ⟨h, rfl⟩
  · next hannotated _ =>
    refine ⟨h, ?_⟩
    cases hint with
    | annotated u m => exact absurd rfl (hannotated u m)
    | _ => rfl

/-! ### What each schema accepts -/

/-- The schema of an array accepts the arrays whose items its item's schema accepts. -/
theorem valid_arrayOf {origin : String} {item : Schema Constant} :
    Schema.valid Constant.toJson (arrayOf origin item) x = true ↔
      IsArray origin (fun y => Schema.valid Constant.toJson item y = true) x := by
  rw [arrayOf, Schema.valid_all, List.forall_mem_append]
  constructor
  · rintro ⟨h, hunique⟩
    obtain ⟨xs, rfl⟩ := Schema.hasType_array.1 (by simpa using h (.type "array") (by simp))
    refine ⟨xs, rfl, Schema.valid_items.1 (h (.items item) (by simp)), fun horigin => ?_⟩
    rw [if_neg horigin] at hunique
    exact Schema.valid_uniqueItems.1 (hunique .uniqueItems (List.mem_singleton_self _))
  · rintro ⟨xs, rfl, hitems, hunique⟩
    constructor
    · intro keyword hkeyword
      simp only [List.mem_cons, List.not_mem_nil, or_false] at hkeyword
      rcases hkeyword with rfl | rfl
      · rfl
      · exact Schema.valid_items.2 hitems
    · intro keyword hkeyword
      split at hkeyword
      · cases hkeyword
      · next horigin =>
        obtain rfl := List.mem_singleton.1 hkeyword
        exact Schema.valid_uniqueItems.2 (hunique horigin)

/-- The schema of an object accepts the objects whose values its value's schema accepts. -/
theorem valid_objectOf {value : Schema Constant} :
    Schema.valid Constant.toJson (objectOf value) x = true ↔
      IsObject (fun y => Schema.valid Constant.toJson value y = true) x := by
  rw [objectOf.eq_def]
  split
  · simp only [Schema.valid_all, List.forall_mem_singleton, Schema.valid_type, Schema.hasType_object,
      IsObject, List.not_mem_nil, false_imp_iff, implies_true, and_true]
  · rw [Schema.valid_all]
    constructor
    · intro h
      obtain ⟨ms, rfl⟩ := Schema.hasType_object.1 (by simpa using h (.type "object") (by simp))
      exact ⟨ms, rfl, Schema.valid_additionalProperties.1 (h (.additionalProperties [] value) (by simp))⟩
    · rintro ⟨ms, rfl, hms⟩ keyword hkeyword
      simp only [List.mem_cons, List.not_mem_nil, or_false] at hkeyword
      rcases hkeyword with rfl | rfl
      · rfl
      · exact Schema.valid_additionalProperties.2 hms

/-- An array whose items satisfy less is one. -/
theorem IsArray.imp {origin : String} {P Q : Instance → Prop} (h : ∀ y, P y → Q y)
    (hx : IsArray origin P x) : IsArray origin Q x := by
  obtain ⟨xs, rfl, hitems, hunique⟩ := hx
  exact ⟨xs, rfl, fun y hy => h y (hitems y hy), hunique⟩

/-- So is an object of its values. -/
theorem IsObject.imp {P Q : Instance → Prop} (h : ∀ y, P y → Q y) (hx : IsObject P x) :
    IsObject Q x := by
  obtain ⟨ms, rfl, hms⟩ := hx
  exact ⟨ms, rfl, fun m hm => h m.2 (hms m hm)⟩

/-- A schema describes an annotation: it accepts what its values are written as, and where it says all
there is to say nothing else. -/
def Describes (T : Typing) (hint : Hint) (schema : Schema Constant) : Prop :=
  ∀ x, (Inhabits T hint x → Schema.valid Constant.toJson schema x = true) ∧
    (Exact T hint → Schema.valid Constant.toJson schema x = true → Inhabits T hint x)

/-- The types known by name are the plain ones and the formatted ones. -/
theorem lookup_pythonTypes (name : String) :
    pythonTypes.lookup name = ((plainTypes.lookup name).map fun t => Schema.all [.type t]).or
      ((formattedTypes.lookup name).map fun t => Schema.all [.type "string", .note "format" t]) := by
  rw [pythonTypes, List.lookup_append,
    lookup_map_values (fun t => (Schema.all [.type t] : Schema Constant)) name plainTypes,
    lookup_map_values (fun t => (Schema.all [.type "string", .note "format" t] : Schema Constant)) name
      formattedTypes]

/-- The schema of a container with no arguments. -/
theorem valid_bareSchema (name : String) :
    Schema.valid Constant.toJson (if name ∈ arrayOrigins then arrayOf name .any
        else if name = "dict" then objectOf .any else .any) x = true ↔
      (name ∈ arrayOrigins → IsArray name (fun _ => True) x) ∧
        (name = "dict" → IsObject (fun _ => True) x) := by
  have hany : ∀ y, Schema.valid Constant.toJson (.any : Schema Constant) y = true ↔ True := fun y =>
    iff_true_intro Schema.valid_any
  split
  · next harray =>
    have hdict : name ≠ "dict" := by
      rintro rfl
      exact absurd harray (by decide)
    simp only [valid_arrayOf, hany, harray, hdict, true_imp_iff, false_imp_iff, and_true]
  · next harray =>
    split
    · next hdict =>
      subst hdict
      simp only [valid_objectOf, hany, harray, true_imp_iff, false_imp_iff, true_and]
    · next hdict => simp only [hany, harray, hdict, false_imp_iff, and_true]

/-- The schema of a type with no arguments. -/
theorem valid_typeSchema (name : String) :
    (TypeInhabits T name x → Schema.valid Constant.toJson (typeSchema T name) x = true) ∧
      (TypeExact T name → Schema.valid Constant.toJson (typeSchema T name) x = true →
        TypeInhabits T name x) := by
  rw [TypeInhabits.eq_def, typeSchema, lookup_pythonTypes, TypeExact]
  cases T.rules.lookup name with
  | some rule => exact ⟨id, fun _ => id⟩
  | none =>
    cases plainTypes.lookup name with
    | some jsonType =>
      simp only [Option.map_some, Option.some_or, Schema.valid_all, List.forall_mem_singleton,
        Schema.valid_type]
      exact ⟨id, fun _ => id⟩
    | none =>
      cases formattedTypes.lookup name with
      | some format =>
        constructor
        · rintro ⟨text, rfl, -⟩
          simp [Instance.hasType]
        · rintro (h | h | ⟨h, -⟩) <;> cases h
      | none =>
        cases T.values name with
        | some values =>
          simp only [Option.map_none, Option.or_none, Schema.valid_all, List.forall_mem_singleton,
            Schema.valid_enum, Constant.isConstant_iff]
          exact ⟨id, fun _ => id⟩
        | none =>
          simp only [Option.map_none, Option.or_none, valid_bareSchema]
          exact ⟨id, fun _ => id⟩

variable {reprHint : Hint → String}

/-- The members of a union, each described by its schema. -/
theorem describes_each {hints : List Hint} {schemas : List (Schema Constant)}
    (h : List.Forall₂ (Describes T) hints schemas) :
    (InhabitsOne T hints x → ∃ schema ∈ schemas, Schema.valid Constant.toJson schema x = true) ∧
      (AllExact T hints → (∃ schema ∈ schemas, Schema.valid Constant.toJson schema x = true) →
        InhabitsOne T hints x) := by
  induction h with
  | nil => simp [InhabitsOne]
  | @cons hint schema hints schemas hhead _ ih =>
    simp only [InhabitsOne, AllExact, List.exists_mem_cons_iff]
    constructor
    · rintro (hx | hx)
      · exact .inl ((hhead x).1 hx)
      · exact .inr (ih.1 hx)
    · rintro ⟨hexact, hexacts⟩ (hx | hx)
      · exact .inl ((hhead x).2 hexact hx)
      · exact .inr (ih.2 hexacts hx)

/-- Schemas that describe a union's members describe the union. -/
theorem describes_union {hints : List Hint} {schemas : List (Schema Constant)}
    (h : List.Forall₂ (Describes T) hints schemas) :
    Describes T (.union hints) (.all [.anyOf schemas]) := by
  intro x
  simp only [Inhabits, Exact, Schema.valid_all, List.forall_mem_singleton, Schema.valid_anyOf]
  exact ⟨(describes_each h).1, fun hexact => (describes_each h).2 hexact.2⟩

/-- A schema that describes an array's item gives one of the array. -/
theorem describes_array {origin : String} (horigin : origin ∈ arrayOrigins) {args : List Hint}
    {item : Schema Constant}
    (h : ∀ y, (InhabitsFirst T args y → Schema.valid Constant.toJson item y = true) ∧
      (AllExact T args → Schema.valid Constant.toJson item y = true → InhabitsFirst T args y)) :
    Describes T (.generic origin args) (arrayOf origin item) := by
  have hdict : origin ≠ "dict" := by
    rintro rfl
    exact absurd horigin (by decide)
  intro x
  simp only [Inhabits, Exact, valid_arrayOf, horigin, hdict, true_imp_iff, false_imp_iff, and_true]
  exact ⟨IsArray.imp fun y => (h y).1, fun hexact => IsArray.imp fun y => (h y).2 hexact.2⟩

/-- A schema that describes a mapping's value gives one of the mapping. -/
theorem describes_object {args : List Hint} {value : Schema Constant}
    (h : ∀ y, (InhabitsSecond T args y → Schema.valid Constant.toJson value y = true) ∧
      (AllExact T args → Schema.valid Constant.toJson value y = true → InhabitsSecond T args y)) :
    Describes T (.generic "dict" args) (objectOf value) := by
  have hdict : "dict" ∉ arrayOrigins := by decide
  intro x
  simp only [Inhabits, Exact, valid_objectOf, hdict, true_imp_iff, false_imp_iff, true_and]
  exact ⟨IsObject.imp fun y => (h y).1, fun hexact => IsObject.imp fun y => (h y).2 hexact.2⟩

/-- What describes an annotation less its markers describes it. -/
theorem Describes.marked {hint : Hint} {schema : Schema Constant}
    (h : Describes T (unmarked hint) schema) : Describes T hint schema := fun x =>
  ⟨fun hx => (h x).1 (inhabits_unmarked_iff.2 hx), fun hexact hx =>
    inhabits_unmarked_iff.1 ((h x).2 (exact_unmarked hexact).1 hx)⟩

/-- `{}` describes what it does not say all of. -/
theorem describes_any {hint : Hint} (h : ¬ Exact T hint) : Describes T hint .any := fun _ =>
  ⟨fun _ => Schema.valid_any, fun hexact => absurd hexact h⟩

/-- The schemas of annotations describe them, where those of all smaller ones do. -/
theorem describes_schemas {n : ℕ}
    (ih : ∀ hint schema, weight hint < n → pythonTypeToSchema reprHint T hint = .ok schema →
      Describes T hint schema) :
    ∀ hints schemas, weights hints ≤ n → pythonTypesToSchemas reprHint T hints = .ok schemas →
      List.Forall₂ (Describes T) hints schemas
  | [], schemas, _, h => by
    rw [pythonTypesToSchemas] at h
    obtain rfl := Except.ok.inj h
    exact .nil
  | hint :: hints, schemas, hn, h => by
    simp only [weights] at hn
    rw [pythonTypesToSchemas] at h
    split at h
    · next schema rest hhead htail =>
      obtain rfl := Except.ok.inj h
      exact .cons (ih hint schema (by omega) hhead) (describes_schemas ih hints rest (by omega) htail)
    · cases h
    · cases h

/-- A step mapped over an answer succeeds of the answer. -/
theorem map_eq_ok {α β : Type} {f : α → β} {r : Except String α} {b : β} (h : r.map f = .ok b) :
    ∃ a, r = .ok a ∧ f a = b := by
  cases r with
  | error _ => cases h
  | ok a => exact ⟨a, rfl, Except.ok.inj h⟩

/-- The schema of an annotation describes it. -/
theorem describes_pythonTypeToSchema : ∀ (n : ℕ) hint schema, weight hint < n →
    pythonTypeToSchema reprHint T hint = .ok schema → Describes T hint schema
  | 0, _, _, hn, _ => absurd hn (Nat.not_lt_zero _)
  | n + 1, hint, schema, hn, h => by
    have ih := describes_pythonTypeToSchema n
    rw [pythonTypeToSchema] at h
    split at h
    · cases h
    · next hread =>
      obtain rfl := Except.ok.inj h
      refine Describes.marked ?_
      rw [← eq_unmarked_of_read hread]
      exact fun x => valid_typeSchema "NoneType"
    · next name _ hread =>
      obtain rfl := Except.ok.inj h
      refine Describes.marked ?_
      rw [← eq_unmarked_of_read hread]
      exact fun x => valid_typeSchema name
    · next members _ hread =>
      have hle := weight_le_of_read hread
      simp only [weight] at hle
      obtain ⟨schemas, hschemas, rfl⟩ := map_eq_ok h
      refine Describes.marked ?_
      rw [← eq_unmarked_of_read hread]
      exact describes_union (describes_schemas ih members schemas (by omega) hschemas)
    · next origin args _ hread =>
      have hle := weight_le_of_read hread
      simp only [weight] at hle
      refine Describes.marked ?_
      rw [← eq_unmarked_of_read hread]
      split at h
      · next horigin =>
        split at h
        · cases h
        · next hitem =>
          obtain rfl := Except.ok.inj h
          obtain rfl := itemType_eq_ok hitem
          exact describes_array horigin fun y => ⟨fun _ => Schema.valid_any, fun _ _ => trivial⟩
        · next item hitem =>
          have hlt := weight_lt_of_itemType hitem
          obtain ⟨schema, hschema, rfl⟩ := map_eq_ok h
          obtain rfl := itemType_eq_ok hitem
          have hdescribes := ih item schema (by omega) hschema
          exact describes_array horigin fun y => ⟨(hdescribes y).1, fun hexact => (hdescribes y).2 hexact.1⟩
      · split at h
        · next hdict =>
          subst hdict
          split at h
          · cases h
          · next hvalue =>
            obtain rfl := Except.ok.inj h
            obtain ⟨rfl, -⟩ | ⟨_, _, _, -, hsome⟩ := valueType_eq_ok hvalue
            · exact describes_object fun y => ⟨fun _ => Schema.valid_any, fun _ _ => trivial⟩
            · cases hsome
          · next value hvalue =>
            have hlt := weight_lt_of_valueType hvalue
            obtain ⟨schema, hschema, rfl⟩ := map_eq_ok h
            obtain ⟨-, hnone⟩ | ⟨key, v, rest, rfl, hsome⟩ := valueType_eq_ok hvalue
            · cases hnone
            · cases hsome
              have hdescribes := ih value schema (by omega) hschema
              exact describes_object fun y =>
                ⟨(hdescribes y).1, fun hexact => (hdescribes y).2 hexact.2.1⟩
        · next horigin hdict =>
          obtain rfl := Except.ok.inj h
          exact describes_any fun hexact => hexact.1.elim horigin hdict
    · next read hnone htype hunion hgeneric hread =>
      obtain ⟨underlying, marked⟩ := read
      obtain rfl := Except.ok.inj h
      refine describes_any fun hmarked => ?_
      obtain ⟨hexact, hannotated⟩ := exact_unmarked hmarked
      rw [← eq_unmarked_of_read hread] at hexact hannotated
      cases underlying with
      | noneType => exact hnone _ rfl
      | type name => exact htype name _ rfl
      | union members => exact hunion members _ rfl
      | generic origin args => exact hgeneric origin args _ rfl
      | annotated _ _ => cases hannotated
      | callable _ _ | typeAlias _ _ _ => exact hexact

end

/-! ## The schema of an annotation -/

/-- The schema of an annotation accepts what the annotation's values are written as, through every
container, union and marker, and nothing else where it says of the annotation all there is to say. -/
theorem pythonTypeToSchema_describes (reprHint : Hint → String) (T : Typing) {hint : Hint}
    {schema : Schema Constant} (h : pythonTypeToSchema reprHint T hint = .ok schema) (x : Instance) :
    (Inhabits T hint x → Schema.valid Constant.toJson schema x = true) ∧
      (Exact T hint → (Schema.valid Constant.toJson schema x = true ↔ Inhabits T hint x)) := by
  have hdescribes := describes_pythonTypeToSchema (weight hint + 1) hint schema (Nat.lt_succ_self _) h x
  exact ⟨hdescribes.1, fun hexact => ⟨hdescribes.2 hexact, hdescribes.1⟩⟩

/-- No rules, no enumerations and no formats. -/
def builtins : Typing := ⟨[], fun _ => none, fun _ _ => True⟩

/-- `Annotated[list[int] | None, InputRequired()]`. -/
def optionalIds : Hint :=
  .annotated (.union [.generic "list" [.type "int"], .noneType]) [.inputRequired]

/-- `int` is an integer. -/
theorem pythonTypeToSchema_int :
    pythonTypeToSchema (fun _ => "") builtins (.type "int") = .ok (.all [.type "integer"]) := by
  rw [pythonTypeToSchema]
  rfl

/-- `None` is null. -/
theorem pythonTypeToSchema_none :
    pythonTypeToSchema (fun _ => "") builtins .noneType = .ok (.all [.type "null"]) := by
  rw [pythonTypeToSchema]
  rfl

/-- `list[int]` is an array of integers. -/
theorem pythonTypeToSchema_ids :
    pythonTypeToSchema (fun _ => "") builtins (.generic "list" [.type "int"]) =
      .ok (.all [.type "array", .items (.all [.type "integer"])]) := by
  rw [pythonTypeToSchema]
  change (pythonTypeToSchema (fun _ => "") builtins (.type "int")).map (arrayOf "list") = _
  rw [pythonTypeToSchema_int]
  rfl

/-- `list[int] | None` is one or null. -/
theorem pythonTypeToSchema_optionalIds :
    pythonTypeToSchema (fun _ => "") builtins optionalIds =
      .ok (.all [.anyOf [.all [.type "array", .items (.all [.type "integer"])], .all [.type "null"]]]) := by
  rw [pythonTypeToSchema]
  change (pythonTypesToSchemas (fun _ => "") builtins [.generic "list" [.type "int"], .noneType]).map
    (fun schemas => Schema.all [.anyOf schemas]) = _
  rw [pythonTypesToSchemas, pythonTypesToSchemas, pythonTypesToSchemas, pythonTypeToSchema_ids,
    pythonTypeToSchema_none]
  rfl

/-- The schema can express that in full. -/
theorem exact_optionalIds : Exact builtins optionalIds :=
  ⟨rfl, by decide, ⟨.inl (by decide), .inr (.inl (by decide)), trivial⟩, .inr (.inl (by decide)), trivial⟩

/-- `[1]` is a value of `optionalIds`, and its schema accepts it. -/
theorem pythonTypeToSchema_describes_optionalIds :
    Schema.valid Constant.toJson
        (.all [.anyOf [.all [.type "array", .items (.all [.type "integer"])], .all [.type "null"]]])
        (.array [.number 1]) = true ↔ Inhabits builtins optionalIds (.array [.number 1]) :=
  (pythonTypeToSchema_describes _ builtins pythonTypeToSchema_optionalIds _).2 exact_optionalIds

/-! ## The schema of a dataclass -/

/-- A field of a dataclass, under the annotation `get_type_hints` resolves it to. -/
structure DataclassField where
  name : String
  annotation : Hint
  hasDefault : Bool

section
variable (reprHint : Hint → String) (T : Typing)

/-- The properties of a dataclass. -/
def fieldSchemas : List DataclassField → Except String (List (String × Schema Constant))
  | [] => .ok []
  | field :: fields =>
    match pythonTypeToSchema reprHint T field.annotation, fieldSchemas fields with
    | .ok schema, .ok schemas => .ok ((field.name, schema) :: schemas)
    | .error message, _ => .error message
    | _, .error message => .error message

/-- The fields with neither a default nor a default factory. -/
def requiredFields (fields : List DataclassField) : List String :=
  (fields.filter fun field => !field.hasDefault).map DataclassField.name

/-- `dataclass_to_schema`. -/
def dataclassToSchema (fields : List DataclassField) : Except String (Schema Constant) :=
  (fieldSchemas reprHint T fields).map fun schemas =>
    .all ([.type "object", .properties schemas] ++
      if (requiredFields fields).isEmpty then [] else [.required (requiredFields fields)])

end

/-- What a dataclass is written as: an object with every field that has no default, and under a field's
name a value of its annotation. -/
def DataclassInhabits (T : Typing) (fields : List DataclassField) (x : Instance) : Prop :=
  ∃ ms, x = .object ms ∧ ∀ field ∈ fields, match ms.lookup field.name with
    | some y => Inhabits T field.annotation y
    | none => field.hasDefault = true

section
variable {reprHint : Hint → String} {T : Typing} {x : Instance}

/-- The properties of a dataclass describe its fields, in order. -/
theorem describes_fieldSchemas : ∀ {fields : List DataclassField} {schemas : List (String × Schema Constant)},
    fieldSchemas reprHint T fields = .ok schemas →
    List.Forall₂ (fun field e => e.1 = field.name ∧ Describes T field.annotation e.2) fields schemas
  | [], _, h => by
    obtain rfl := Except.ok.inj h
    exact .nil
  | field :: fields, schemas, h => by
    rw [fieldSchemas] at h
    split at h
    · next schema rest hhead htail =>
      obtain rfl := Except.ok.inj h
      exact .cons ⟨rfl, describes_pythonTypeToSchema _ _ _ (Nat.lt_succ_self _) hhead⟩
        (describes_fieldSchemas htail)
    · cases h
    · cases h

/-- What a dataclass's schema accepts: an object with the required members, each member of a property's
name accepted by the property. -/
theorem valid_dataclassSchema {schemas : List (String × Schema Constant)} {required : List String} :
    Schema.valid Constant.toJson (.all ([.type "object", .properties schemas] ++
        if required.isEmpty then [] else [.required required])) x = true ↔
      ∃ ms, x = .object ms ∧
        (∀ e ∈ schemas, ∀ y, ms.lookup e.1 = some y → Schema.valid Constant.toJson e.2 y = true) ∧
        ∀ name ∈ required, (ms.lookup name).isSome = true := by
  rw [Schema.valid_all, List.forall_mem_append]
  constructor
  · rintro ⟨h, hrequired⟩
    obtain ⟨ms, rfl⟩ := Schema.hasType_object.1 (by simpa using h (.type "object") (by simp))
    refine ⟨ms, rfl, Schema.valid_properties.1 (h (.properties schemas) (by simp)), fun name hname => ?_⟩
    have hne : required.isEmpty = false := by
      cases required with
      | nil => cases hname
      | cons => rfl
    rw [hne] at hrequired
    exact Schema.valid_required.1 (hrequired _ (List.mem_singleton_self _)) name hname
  · rintro ⟨ms, rfl, hproperties, hrequired⟩
    constructor
    · intro keyword hkeyword
      simp only [List.mem_cons, List.not_mem_nil, or_false] at hkeyword
      rcases hkeyword with rfl | rfl
      · rfl
      · exact Schema.valid_properties.2 hproperties
    · intro keyword hkeyword
      split at hkeyword
      · cases hkeyword
      · obtain rfl := List.mem_singleton.1 hkeyword
        exact Schema.valid_required.2 hrequired

/-- What stands on the right of two related lists is related to something on the left. -/
theorem exists_of_mem_right {α β : Type} {R : α → β → Prop} {b : β} :
    ∀ {l : List α} {m : List β}, List.Forall₂ R l m → b ∈ m → ∃ a ∈ l, R a b
  | _, _, .cons hhead htail, hb => by
    rcases List.mem_cons.1 hb with rfl | hb
    · exact ⟨_, List.mem_cons_self, hhead⟩
    · obtain ⟨a, ha, hR⟩ := exists_of_mem_right htail hb
      exact ⟨a, List.mem_cons_of_mem _ ha, hR⟩

/-- A field is required where it has no default. -/
theorem mem_requiredFields {fields : List DataclassField} {name : String} :
    name ∈ requiredFields fields ↔ ∃ field ∈ fields, field.hasDefault = false ∧ field.name = name := by
  simp [requiredFields, and_assoc]

end

/-- A dataclass's schema accepts every object the dataclass is written as: with each field that has no
default, and under each field's name a value of its annotation. Where every annotation is one the schema
says all of, it accepts nothing else. -/
theorem dataclassToSchema_describes (reprHint : Hint → String) (T : Typing)
    {fields : List DataclassField} {schema : Schema Constant}
    (h : dataclassToSchema reprHint T fields = .ok schema) (x : Instance) :
    (DataclassInhabits T fields x → Schema.valid Constant.toJson schema x = true) ∧
      ((∀ field ∈ fields, Exact T field.annotation) →
        (Schema.valid Constant.toJson schema x = true ↔ DataclassInhabits T fields x)) := by
  obtain ⟨schemas, hschemas, rfl⟩ := map_eq_ok h
  have hdescribes := describes_fieldSchemas hschemas
  have hin : DataclassInhabits T fields x → Schema.valid Constant.toJson (.all
      ([.type "object", .properties schemas] ++
        if (requiredFields fields).isEmpty then [] else [.required (requiredFields fields)])) x = true := by
    rintro ⟨ms, rfl, hms⟩
    refine valid_dataclassSchema.2 ⟨ms, rfl, fun e he y hy => ?_, fun name hname => ?_⟩
    · obtain ⟨field, hfield, hname, hdescribe⟩ := exists_of_mem_right hdescribes he
      have hmember := hms field hfield
      rw [← hname, hy] at hmember
      exact (hdescribe y).1 hmember
    · obtain ⟨field, hfield, hdefault, rfl⟩ := mem_requiredFields.1 hname
      have hmember := hms field hfield
      split at hmember
      · next y hy => rw [hy]; rfl
      · rw [hdefault] at hmember
        cases hmember
  refine ⟨hin, fun hexact => ⟨fun hx => ?_, hin⟩⟩
  obtain ⟨ms, rfl, hproperties, hrequired⟩ := valid_dataclassSchema.1 hx
  refine ⟨ms, rfl, fun field hfield => ?_⟩
  obtain ⟨e, he, hname, hdescribe⟩ := exists_of_mem_right hdescribes.flip hfield
  split
  · next y hy => exact (hdescribe y).2 (hexact field hfield) (hproperties e he y (by rw [hname]; exact hy))
  · next hnone =>
    by_contra hdefault
    have hsome := hrequired field.name
      (mem_requiredFields.2 ⟨field, hfield, Bool.eq_false_iff.2 hdefault, rfl⟩)
    rw [hnone] at hsome
    cases hsome

/-- `@dataclass class Query: ids: list[int] | None; limit: int = 20`. -/
def query : List DataclassField := [⟨"ids", optionalIds, false⟩, ⟨"limit", .type "int", true⟩]

/-- The schema of a query: its `ids` are required, and its `limit` has a default. -/
theorem dataclassToSchema_query :
    dataclassToSchema (fun _ => "") builtins query = .ok (.all [.type "object",
      .properties [("ids", .all [.anyOf [.all [.type "array", .items (.all [.type "integer"])],
        .all [.type "null"]]]), ("limit", .all [.type "integer"])], .required ["ids"]]) := by
  rw [dataclassToSchema, query, fieldSchemas, fieldSchemas, fieldSchemas, pythonTypeToSchema_optionalIds,
    pythonTypeToSchema_int]
  rfl

/-- `{"limit": 3}` is no `Query`, and its schema refuses it. -/
theorem dataclassToSchema_describes_query :
    Schema.valid Constant.toJson (.all [.type "object",
      .properties [("ids", .all [.anyOf [.all [.type "array", .items (.all [.type "integer"])],
        .all [.type "null"]]]), ("limit", .all [.type "integer"])], .required ["ids"]])
      (.object [("limit", .number 3)]) = true ↔
        DataclassInhabits builtins query (.object [("limit", .number 3)]) :=
  (dataclassToSchema_describes _ builtins dataclassToSchema_query _).2 (by
    intro field hfield
    simp only [query, List.mem_cons, List.not_mem_nil, or_false] at hfield
    rcases hfield with rfl | rfl
    · exact exact_optionalIds
    · exact .inr (.inl (by decide)))

end RestFrameworkServices.Annotations
