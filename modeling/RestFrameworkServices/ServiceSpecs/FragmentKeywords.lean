import Mathlib.Data.List.Dedup
import RestFrameworkServices.Lib.Greedy
import RestFrameworkServices.Lib.Walk
import RestFrameworkServices.Types.Value

/-!
# A registered fragment as a declaration's keywords

`fragment_keywords` splits a registry's fragment onto the keywords of a `Parameter` or an `OutputField`,
and asks the kernel what it takes: each keyword a field spells beside those kept before it, each other
keyword alone. The kernel is an oracle here (`Lawful`), and what the fragment states is said apart from
the split (`NamesType`, `States`). It raises for a type that names `"null"` twice, and for an
`OutputField` whose choices hold a value with no text; otherwise it loses nothing the kernel would take
(`fragmentKeywords_iff`).
-/

namespace RestFrameworkServices.FragmentKeywords

open Lib

/-! ## The split -/

/-- `_JSON_TYPES`. -/
def jsonTypes : List String := ["string", "integer", "number", "boolean", "array", "object"]

/-- The JSON type of one value, as `_enum_type` tells it: a float is an object of that type. -/
def valueType : Value → Option String
  | .bool _ => some "boolean"
  | .int _ => some "integer"
  | .object "float" _ => some "number"
  | .str _ => some "string"
  | _ => none

/-- `_enum_type`: the one type the values share. -/
def enumType (values : List Value) : Option String :=
  match (values.map valueType).dedup with
  | [kind] => kind
  | _ => none

/-- `member == "null"`. -/
def isNullName : Value → Bool
  | .str name => name == "null"
  | _ => false

/-- Whether a fragment's type makes it `nullable`, and the type it is then read by. `next` raises
`StopIteration` where no member of the two is another name. -/
def nullableKind : Value → Option (Bool × Value)
  | .list members =>
    if members.any isNullName && members.length == 2 then
      (members.find? fun member => !isNullName member).map (true, ·)
    else some (false, .list members)
  | kind => some (false, kind)

/-- `fragment.get("enum")`, where it is a list. -/
def enumOf (fragment : Dict String Value) : Option (List Value) :=
  (fragment.get? "enum").bind fun
    | .list values => some values
    | _ => none

/-- The name a fragment's type gives, or its values where it gives none. -/
def kindName (kind : Value) (enum : Option (List Value)) : Option String :=
  match kind with
  | .null => enum.bind enumType
  | .str name => some name
  | _ => none

/-- The type declared: a JSON type the fragment names, else `any`. -/
def typeName (kind : Value) (enum : Option (List Value)) : String :=
  ((kindName kind enum).filter (· ∈ jsonTypes)).getD "any"

/-- A declaration of a type, and `nullable`, alone. -/
def typeAlone (nullable : Bool) (kind : String) : Dict String Value :=
  (if nullable then .ofList [("nullable", .bool true)] else .empty : Dict String Value).set "type" (.str kind)

/-- `items` naming a bare type. -/
def bareItems : Value → Option Value
  | .mapping _ [(key, .str kind)] => if key = "type" ∧ kind ∈ jsonTypes then some (.str kind) else none
  | _ => none

/-- `_PARAMETER_FIELDS` and `_OUTPUT_FIELDS`. -/
def fieldNames (output : Bool) : List (String × String) :=
  if output then [("title", "label")]
  else [("minimum", "minimum"), ("maximum", "maximum"), ("minItems", "min_length"),
    ("maxItems", "max_length"), ("description", "help")]

section
variable (str : Value → Option String) (fragment : Dict String Value) (output : Bool)

/-- `enum` as `choices`, in an `OutputField` each with its text. `str` raises for an `int` of more digits
than the interpreter writes. -/
def choicesOf (values : List Value) : Option Value :=
  if output then
    (values.mapM str).map fun texts =>
      .list (List.zipWith (fun value text => .list [value, .str text]) values texts)
  else some (.list values)

/-- The keywords a field spells beside the type, in the order they are tried. -/
def stated : Option (List (String × Value)) := do
  let choices ← match enumOf fragment with
    | none => some none
    | some values => (choicesOf str output values).map some
  return (((fragment.get? "items").bind bareItems).map ("items", ·)).toList ++
    (((fragment.get? "format").filter fun | .str _ => true | _ => false).map ("format", ·)).toList ++
    (choices.map ("choices", ·)).toList ++
    (fieldNames output).filterMap fun field => (fragment.get? field.1).map (field.2, ·)

/-- `{**declared, name: value}`. -/
def withKeyword (declared : Dict String Value) (e : String × Value) : Dict String Value :=
  declared.set e.1 e.2

/-- `{**declared, "json_schema_extra": extra}`. -/
def withExtra (declared : Dict String Value) (extra : List (String × Value)) : Dict String Value :=
  declared.set "json_schema_extra" (.mapping true extra)

variable (accepts : Bool → Dict String Value → Bool)

/-- The keywords the kernel takes one by one in `json_schema_extra`. -/
def extraOf (declared : Dict String Value) : Dict String Value :=
  fragment.filter fun key value => accepts output (withExtra declared [(key, value)])

/-- `json_schema_extra`, where there is any. -/
def withRest (declared : Dict String Value) : Dict String Value :=
  let extra := extraOf fragment output accepts declared
  if extra.entries.isEmpty then declared else withExtra declared extra.entries

/-- `fragment_keywords`, where `accepts` is `_states`: the kernel's acceptance of a `Parameter`'s keywords,
or of an `OutputField`'s when `output`. `none`: `StopIteration`, or what `str` raises. -/
def fragmentKeywords : Option (Dict String Value) := do
  let (nullable, kind) ← nullableKind ((fragment.get? "type").getD .null)
  let items ← stated str fragment output
  let declared := items.foldl (keep (accepts output) withKeyword)
    (typeAlone nullable (typeName kind (enumOf fragment)))
  return withRest fragment output accepts declared

end

/-! ## The kernel -/

/-- The names of `stated`, in the order they are tried. -/
def trialOrder (output : Bool) : List String :=
  ["items"] ++ ["format"] ++ ["choices"] ++ (fieldNames output).map Prod.snd

/-- A name is tried before another. -/
def TriedBefore (output : Bool) (name later : String) : Prop := [name, later].Sublist (trialOrder output)

/-- What is assumed of the kernel, which builds a declaration or raises `ImproperlyConfigured`: it takes a
type alone, judges each keyword of `json_schema_extra` on its own, and what it refuses beside some
keywords it refuses when a keyword tried later is added. -/
structure Lawful (accepts : Bool → Dict String Value → Bool) : Prop where
  typed : ∀ output nullable, ∀ kind ∈ "any" :: jsonTypes, accepts output (typeAlone nullable kind) = true
  judged : ∀ output declared extra, (keysOf extra).Nodup → accepts output declared = true → extra ≠ [] →
    (∀ e ∈ extra, accepts output (withExtra declared [e]) = true) →
      accepts output (withExtra declared extra) = true
  stays : ∀ output, RefusalStays (accepts output) withKeyword
    (fun e later => TriedBefore output e.1 later.1) (fun declared later => later.1 ∉ declared)

/-- The keywords set, without `json_schema_extra`. -/
def keywordsOf (returned : Dict String Value) : Dict String Value := returned.without ["json_schema_extra"]

/-- What `json_schema_extra` holds under a key. -/
def extra? (returned : Dict String Value) (key : String) : Option Value :=
  (returned.get? "json_schema_extra").bind (·.property? key)

/-! ## What a fragment states -/

/-- A fragment's type is a list of two, of which one is `"null"`. -/
def NullableType (fragment : Dict String Value) : Prop :=
  ∃ other, fragment.get? "type" = some (.list [.str "null", other]) ∨
    fragment.get? "type" = some (.list [other, .str "null"])

/-- A fragment names no type: it has none, or a null one, bare or beside `"null"`. -/
def Untyped (fragment : Dict String Value) : Prop :=
  fragment.get? "type" = none ∨ fragment.get? "type" = some .null ∨
    fragment.get? "type" = some (.list [.str "null", .null]) ∨
    fragment.get? "type" = some (.list [.null, .str "null"])

/-- A value is of a JSON type. -/
inductive OfType : Value → String → Prop where
  | boolean (b : Bool) : OfType (.bool b) "boolean"
  | integer (i : Int) : OfType (.int i) "integer"
  | number (id : Nat) : OfType (.object "float" id) "number"
  | string (s : String) : OfType (.str s) "string"

/-- The type a fragment names: its own, that of two members beside `"null"`, or, where it names none, the
one type of its `enum`'s values. -/
inductive NamesType (fragment : Dict String Value) : String → Prop where
  | bare {kind : String} : fragment.get? "type" = some (.str kind) → NamesType fragment kind
  | nullable {kind : String} : fragment.get? "type" = some (.list [.str "null", .str kind]) ∨
      fragment.get? "type" = some (.list [.str kind, .str "null"]) → kind ≠ "null" →
    NamesType fragment kind
  | values {kind : String} {values : List Value} : Untyped fragment →
    fragment.get? "enum" = some (.list values) → values ≠ [] → (∀ value ∈ values, OfType value kind) →
    NamesType fragment kind

/-- A keyword a field of the declaration spells, with the value the fragment states for it. -/
inductive States (str : Value → Option String) (fragment : Dict String Value) :
    Bool → String → Value → Prop where
  | items {output mutable : Bool} {kind : String} :
    fragment.get? "items" = some (.mapping mutable [("type", .str kind)]) → kind ∈ jsonTypes →
    States str fragment output "items" (.str kind)
  | format {output : Bool} {name : String} : fragment.get? "format" = some (.str name) →
    States str fragment output "format" (.str name)
  | choices {values : List Value} : fragment.get? "enum" = some (.list values) →
    States str fragment false "choices" (.list values)
  | labelled {values : List Value} {texts : List String} :
    fragment.get? "enum" = some (.list values) →
    List.Forall₂ (fun value text => str value = some text) values texts →
    States str fragment true "choices"
      (.list (List.zipWith (fun value text => .list [value, .str text]) values texts))
  | minimum {value : Value} : fragment.get? "minimum" = some value →
    States str fragment false "minimum" value
  | maximum {value : Value} : fragment.get? "maximum" = some value →
    States str fragment false "maximum" value
  | minLength {value : Value} : fragment.get? "minItems" = some value →
    States str fragment false "min_length" value
  | maxLength {value : Value} : fragment.get? "maxItems" = some value →
    States str fragment false "max_length" value
  | help {value : Value} : fragment.get? "description" = some value →
    States str fragment false "help" value
  | label {value : Value} : fragment.get? "title" = some value →
    States str fragment true "label" value

/-- The kernel builds the declaration, whose type is the one the fragment names or `any`, and whatever of
the fragment is not in it the kernel refuses: a stated keyword beside those kept, any other in
`json_schema_extra` beside them. -/
structure LosesOnlyRefused (str : Value → Option String) (fragment : Dict String Value) (output : Bool)
    (accepts : Bool → Dict String Value → Bool) (returned : Dict String Value) : Prop where
  builds : accepts output returned = true
  typed : (∃ kind ∈ jsonTypes, NamesType fragment kind ∧
      returned.get? "type" = some (.str kind)) ∨
    ((∀ kind ∈ jsonTypes, ¬ NamesType fragment kind) ∧ returned.get? "type" = some (.str "any"))
  nullable : (NullableType fragment ∧ returned.get? "nullable" = some (.bool true)) ∨
    (¬ NullableType fragment ∧ returned.get? "nullable" = none)
  fields : ∀ name value, States str fragment output name value →
    returned.get? name = some value ∨
      accepts output (withKeyword (keywordsOf returned) (name, value)) = false
  extras : ∀ key value, fragment.get? key = some value → extra? returned key = some value ∨
    accepts output (withExtra (keywordsOf returned) [(key, value)]) = false
  own : ∀ name value, (keywordsOf returned).get? name = some value → name = "type" ∨
    name = "nullable" ∨ States str fragment output name value
  ownExtras : ∀ key value, extra? returned key = some value → fragment.get? key = some value

/-! ## The split's parts -/

/-- Only the text `"null"` is equal to it. -/
theorem isNullName_iff {value : Value} : isNullName value = true ↔ value = .str "null" := by
  cases value <;> simp [isNullName]

/-- The values read are those of an `enum` that is a list. -/
theorem enumOf_eq_some_iff {fragment : Dict String Value} {values : List Value} :
    enumOf fragment = some values ↔ fragment.get? "enum" = some (.list values) := by
  rw [enumOf, Option.bind_eq_some_iff]
  constructor
  · rintro ⟨value, hvalue, h⟩
    split at h <;> cases h
    exact hvalue
  · exact fun h => ⟨_, h, rfl⟩

/-- No other name is found exactly in two names `"null"`. -/
theorem nullableKind_eq_none_iff (kind : Value) :
    nullableKind kind = none ↔ kind = .list [.str "null", .str "null"] := by
  constructor
  · intro h
    unfold nullableKind at h
    split at h
    case h_1 members =>
      split at h
      case isTrue hmembers =>
        obtain ⟨-, hlength⟩ := Bool.and_eq_true_iff.1 hmembers
        obtain ⟨a, b, rfl⟩ := List.length_eq_two.1 (beq_iff_eq.1 hlength)
        have hnames := List.find?_eq_none.1 (Option.map_eq_none_iff.1 h)
        have hnull : ∀ value ∈ [a, b], value = .str "null" := fun value hvalue =>
          isNullName_iff.1 (by simpa using hnames value hvalue)
        rw [hnull a (by simp), hnull b (by simp)]
      case isFalse => cases h
    case h_2 => cases h
  · rintro rfl
    rfl

/-- A type is read by the member beside `"null"`, where there are two, else as it is. -/
theorem nullableKind_eq_some {kind read : Value} {nullable : Bool}
    (h : nullableKind kind = some (nullable, read)) :
    (nullable = true ∧ read ≠ .str "null" ∧
        (kind = .list [.str "null", read] ∨ kind = .list [read, .str "null"])) ∨
      (nullable = false ∧ read = kind ∧
        ∀ other, kind ≠ .list [.str "null", other] ∧ kind ≠ .list [other, .str "null"]) := by
  unfold nullableKind at h
  split at h
  case h_1 members =>
    split at h
    case isTrue hmembers =>
      obtain ⟨hany, hlength⟩ := Bool.and_eq_true_iff.1 hmembers
      obtain ⟨a, b, rfl⟩ := List.length_eq_two.1 (beq_iff_eq.1 hlength)
      obtain ⟨member, hfind, hread⟩ := Option.map_eq_some_iff.1 h
      cases hread
      have hread : read ≠ .str "null" := fun hnull => by
        have hname := List.find?_some hfind
        rw [isNullName_iff.2 hnull] at hname
        cases hname
      refine .inl ⟨rfl, hread, ?_⟩
      obtain ⟨found, hnull, hname⟩ := List.any_eq_true.1 hany
      have hmem := List.mem_of_find?_eq_some hfind
      simp only [List.mem_cons, List.not_mem_nil, or_false] at hnull hmem
      cases isNullName_iff.1 hname
      rcases hnull with rfl | rfl <;> rcases hmem with rfl | rfl
      · exact absurd rfl hread
      · exact .inl rfl
      · exact .inr rfl
      · exact absurd rfl hread
    case isFalse hmembers =>
      cases h
      refine .inr ⟨rfl, rfl, fun other => ⟨fun hkind => ?_, fun hkind => ?_⟩⟩ <;> cases hkind <;>
        simp [isNullName] at hmembers
  case h_2 hlist =>
    cases h
    exact .inr ⟨rfl, rfl, fun other => ⟨hlist _, hlist _⟩⟩

/-- The JSON type told of a value is the one it is of. -/
theorem valueType_eq_some_iff {value : Value} {kind : String} :
    valueType value = some kind ↔ OfType value kind := by
  constructor
  · intro h
    unfold valueType at h
    split at h <;> cases h
    · exact .boolean _
    · exact .integer _
    · exact .number _
    · exact .string _
  · intro h
    cases h <;> rfl

/-- Values share a type where there is one and each is of it. -/
theorem enumType_eq_some_iff {values : List Value} {kind : String} :
    enumType values = some kind ↔ values ≠ [] ∧ ∀ value ∈ values, OfType value kind := by
  have hmem (found : Option String) :
      found ∈ (values.map valueType).dedup ↔ ∃ value ∈ values, valueType value = found := by
    rw [List.mem_dedup, List.mem_map]
  constructor
  · intro h
    unfold enumType at h
    split at h
    · next found hone =>
      subst h
      rw [hone] at hmem
      refine ⟨?_, fun value hvalue => ?_⟩
      · rintro rfl
        cases hone
      · exact valueType_eq_some_iff.1 (List.mem_singleton.1 ((hmem _).2 ⟨value, hvalue, rfl⟩))
    · cases h
  · rintro ⟨hne, hall⟩
    have hdedup : (values.map valueType).dedup = [some kind] := by
      have hreplicate : values.map valueType = List.replicate values.length (some kind) :=
        List.eq_replicate_iff.2 ⟨List.length_map .., fun found hfound => by
          obtain ⟨value, hvalue, rfl⟩ := List.mem_map.1 hfound
          exact valueType_eq_some_iff.2 (hall value hvalue)⟩
      rw [hreplicate, List.replicate_dedup (by simpa using hne)]
    rw [enumType, hdedup]

/-- The name given is the type's own, or, where it is `None`, the one the values share. -/
theorem kindName_eq_some_iff {kind : Value} {enum : Option (List Value)} {name : String} :
    kindName kind enum = some name ↔ kind = .str name ∨
      (kind = .null ∧ ∃ values, enum = some values ∧ enumType values = some name) := by
  rw [kindName.eq_def]
  split
  · simp [Option.bind_eq_some_iff]
  · simp
  · next hnull hname =>
    constructor
    · intro h
      cases h
    · rintro (rfl | ⟨rfl, -⟩)
      · exact absurd rfl (hname _)
      · exact absurd rfl hnull

/-- The name read is the one the fragment names. -/
theorem kindName_iff_namesType {fragment : Dict String Value} {nullable : Bool} {kind : Value}
    (h : nullableKind ((fragment.get? "type").getD .null) = some (nullable, kind)) {name : String} :
    kindName kind (enumOf fragment) = some name ↔ NamesType fragment name := by
  simp only [kindName_eq_some_iff, enumType_eq_some_iff, enumOf_eq_some_iff]
  have hgiven {value : Value} (hnull : value ≠ .null) :
      (fragment.get? "type").getD .null = value ↔ fragment.get? "type" = some value := by
    cases fragment.get? "type" with
    | none => simp [hnull.symm]
    | some given => simp
  have hnone : (fragment.get? "type").getD .null = .null ↔
      fragment.get? "type" = none ∨ fragment.get? "type" = some .null := by
    cases fragment.get? "type" <;> simp
  rcases nullableKind_eq_some h with ⟨-, hread, hkind⟩ | ⟨-, rfl, hother⟩
  · rw [hgiven (by simp), hgiven (by simp)] at hkind
    constructor
    · rintro (rfl | ⟨rfl, values, hvalues, hne, hall⟩)
      · exact .nullable hkind fun hname => hread (congrArg Value.str hname)
      · exact .values (.inr (.inr hkind)) hvalues hne hall
    · intro hnames
      cases hnames with
      | bare hbare => rcases hkind with hkind | hkind <;> cases hbare.symm.trans hkind
      | nullable hlist hname =>
        rcases hlist with hlist | hlist <;> rcases hkind with hkind | hkind <;>
          cases hlist.symm.trans hkind
        · exact .inl rfl
        · exact absurd rfl hname
        · exact absurd rfl hname
        · exact .inl rfl
      | values huntyped hvalues hne hall =>
        refine .inr ⟨?_, _, hvalues, hne, hall⟩
        rcases huntyped with huntyped | huntyped | huntyped | huntyped <;>
          rcases hkind with hkind | hkind <;> cases huntyped.symm.trans hkind <;> rfl
  · constructor
    · rintro (hbare | ⟨hnull, values, hvalues, hne, hall⟩)
      · exact .bare ((hgiven (by simp)).1 hbare)
      · refine .values ?_ hvalues hne hall
        rcases hnone.1 hnull with h | h
        · exact .inl h
        · exact .inr (.inl h)
    · intro hnames
      cases hnames with
      | bare hbare => exact .inl ((hgiven (by simp)).2 hbare)
      | nullable hlist =>
        rcases hlist with hlist | hlist
        · exact absurd ((hgiven (by simp)).2 hlist) (hother _).1
        · exact absurd ((hgiven (by simp)).2 hlist) (hother _).2
      | values huntyped hvalues hne hall =>
        refine .inr ⟨?_, _, hvalues, hne, hall⟩
        rcases huntyped with huntyped | huntyped | huntyped | huntyped
        · exact hnone.2 (.inl huntyped)
        · exact hnone.2 (.inr huntyped)
        · exact absurd ((hgiven (by simp)).2 huntyped) (hother _).1
        · exact absurd ((hgiven (by simp)).2 huntyped) (hother _).2

/-- The type declared is `any` or a JSON type. -/
theorem typeName_mem (kind : Value) (enum : Option (List Value)) :
    typeName kind enum ∈ "any" :: jsonTypes := by
  unfold typeName
  cases hname : (kindName kind enum).filter (· ∈ jsonTypes) with
  | none => exact List.mem_cons_self
  | some kind =>
    have hkind := (Option.filter_eq_some_iff.1 hname).2
    exact List.mem_cons_of_mem _ (of_decide_eq_true hkind)

/-- A keyword stated or not is at most one name. -/
theorem keysOf_toList_sublist (name : String) (value : Option (String × Value))
    (h : ∀ e ∈ value, e.1 = name) : (keysOf value.toList).Sublist [name] := by
  cases value with
  | none => exact List.nil_sublist _
  | some e =>
    rw [Option.toList_some, keysOf_cons, h e rfl]
    exact List.Sublist.refl _

/-- The names stated of a table of fields stand in the table's order. -/
theorem keysOf_fields_sublist (fragment : Dict String Value) : ∀ fields : List (String × String),
    (keysOf (fields.filterMap fun field => (fragment.get? field.1).map (field.2, ·))).Sublist
      (fields.map Prod.snd)
  | [] => List.nil_sublist _
  | field :: fields => by
    rw [List.filterMap_cons, List.map_cons]
    cases fragment.get? field.1 with
    | none => exact (keysOf_fields_sublist fragment fields).cons _
    | some value => exact (keysOf_fields_sublist fragment fields).cons_cons _

/-- `items` names a bare type where it is a mapping of a JSON type and nothing else. -/
theorem bareItems_eq_some_iff {value items : Value} :
    bareItems value = some items ↔
      ∃ mutable kind, value = .mapping mutable [("type", .str kind)] ∧ kind ∈ jsonTypes ∧
        items = .str kind := by
  constructor
  · intro h
    unfold bareItems at h
    split at h
    · next mutable key kind =>
      split at h
      · next hbare =>
        cases h
        exact ⟨mutable, kind, by rw [hbare.1], hbare.2, rfl⟩
      · cases h
    · cases h
  · rintro ⟨mutable, kind, rfl, hkind, rfl⟩
    rw [bareItems, if_pos ⟨rfl, hkind⟩]

section
variable {str : Value → Option String} {fragment : Dict String Value} {output : Bool}

/-- An enum has choices where it is a `Parameter`'s, or each of its values has a text. -/
theorem choicesOf_isSome_iff {values : List Value} : (choicesOf str output values).isSome = true ↔
    (output = true → ∀ value ∈ values, (str value).isSome) := by
  cases output with
  | false => simp [choicesOf]
  | true =>
    rw [choicesOf, if_pos rfl, Option.isSome_map, Option.isSome_iff_exists]
    simp only [mapM_eq_some_iff, true_implies]
    constructor
    · rintro ⟨texts, h⟩ value hvalue
      obtain ⟨i, hi, rfl⟩ := List.getElem_of_mem hvalue
      exact Option.isSome_of_eq_some (List.Forall₂.get h hi (h.length_eq ▸ hi))
    · intro h
      refine ⟨values.map fun value => (str value).getD "", List.forall₂_map_right_iff.2 ?_⟩
      refine List.forall₂_same.2 fun value hvalue => ?_
      obtain ⟨text, htext⟩ := Option.isSome_iff_exists.1 (h value hvalue)
      rw [htext, Option.getD_some]

/-- The stated keywords, of which only the choices may be beyond what `str` gives. -/
theorem stated_eq_some_iff {items : List (String × Value)} :
    stated str fragment output = some items ↔ ∃ choices : Option Value,
      (∀ values, enumOf fragment = some values →
        choices = choicesOf str output values ∧ choices.isSome = true) ∧
      (enumOf fragment = none → choices = none) ∧
      items = (((fragment.get? "items").bind bareItems).map ("items", ·)).toList ++
        (((fragment.get? "format").filter fun | .str _ => true | _ => false).map ("format", ·)).toList ++
        (choices.map ("choices", ·)).toList ++
        (fieldNames output).filterMap fun field => (fragment.get? field.1).map (field.2, ·) := by
  rw [stated]
  cases enumOf fragment with
  | none =>
    constructor
    · intro h
      cases h
      exact ⟨none, fun _ hvalues => (by cases hvalues), fun _ => rfl, rfl⟩
    · rintro ⟨choices, -, hnone, rfl⟩
      rw [hnone rfl]
      rfl
  | some values =>
    cases hchoices : choicesOf str output values with
    | none =>
      constructor
      · intro h
        simp only [hchoices] at h
        cases h
      · rintro ⟨choices, h, -, -⟩
        obtain ⟨rfl, hsome⟩ := h values rfl
        rw [hchoices] at hsome
        cases hsome
    | some given =>
      constructor
      · intro h
        simp only [hchoices] at h
        cases h
        exact ⟨some given, fun _ hvalues => (by cases hvalues; exact ⟨hchoices.symm, rfl⟩),
          fun hnone => (by cases hnone), rfl⟩
      · rintro ⟨choices, h, -, rfl⟩
        obtain ⟨rfl, -⟩ := h values rfl
        simp only [hchoices]
        rfl

/-- The stated keywords are tried in the trial order. -/
theorem keysOf_stated_sublist {items : List (String × Value)}
    (h : stated str fragment output = some items) : (keysOf items).Sublist (trialOrder output) := by
  have hnamed (name : String) (value : Option Value) :
      (keysOf (value.map (name, ·)).toList).Sublist [name] := by
    refine keysOf_toList_sublist name _ fun e he => ?_
    obtain ⟨_, -, rfl⟩ := Option.map_eq_some_iff.1 he
    rfl
  obtain ⟨choices, -, -, rfl⟩ := stated_eq_some_iff.1 h
  rw [keysOf, List.map_append, List.map_append, List.map_append]
  exact (((hnamed "items" _).append (hnamed "format" _)).append (hnamed "choices" _)).append
    (keysOf_fields_sublist fragment (fieldNames output))

/-- The keywords stated stand in the order they are tried. -/
theorem stated_ordered {items : List (String × Value)} (h : stated str fragment output = some items) :
    items.Pairwise fun e later => TriedBefore output e.1 later.1 := by
  refine List.pairwise_iff_forall_sublist.2 fun {e later} hsub => ?_
  exact (hsub.map Prod.fst).trans (keysOf_stated_sublist h)

/-- Each is one of the names tried. -/
theorem name_mem_of_stated {items : List (String × Value)} (h : stated str fragment output = some items)
    {e : String × Value} (he : e ∈ items) : e.1 ∈ trialOrder output :=
  (keysOf_stated_sublist h).subset (mem_keysOf_of_mem he)

/-- What is tried is what the fragment states. -/
theorem mem_stated_iff {items : List (String × Value)} (h : stated str fragment output = some items)
    {name : String} {value : Value} :
    (name, value) ∈ items ↔ States str fragment output name value := by
  obtain ⟨choices, hchoices, hnone, rfl⟩ := stated_eq_some_iff.1 h
  simp only [List.mem_append, Option.mem_toList, Option.map_eq_some_iff, List.mem_filterMap,
    Prod.mk.injEq]
  constructor
  · rintro (((⟨items, hitems, rfl, rfl⟩ | ⟨format, hformat, rfl, rfl⟩) | ⟨choices, rfl, rfl, rfl⟩) |
      ⟨field, hfield, value, hvalue, rfl, rfl⟩)
    · obtain ⟨given, hgiven, hbare⟩ := Option.bind_eq_some_iff.1 hitems
      obtain ⟨mutable, kind, rfl, hkind, rfl⟩ := bareItems_eq_some_iff.1 hbare
      exact .items hgiven hkind
    · obtain ⟨hgiven, hname⟩ := Option.filter_eq_some_iff.1 hformat
      split at hname
      · exact .format hgiven
      · cases hname
    · cases henum : enumOf fragment with
      | none => cases hnone henum
      | some values =>
        obtain ⟨hchoices, -⟩ := hchoices values henum
        have hvalues := enumOf_eq_some_iff.1 henum
        cases output with
        | false =>
          cases hchoices
          exact .choices hvalues
        | true =>
          rw [choicesOf, if_pos rfl, eq_comm, Option.map_eq_some_iff] at hchoices
          obtain ⟨texts, htexts, rfl⟩ := hchoices
          exact .labelled hvalues (mapM_eq_some_iff.1 htexts)
    · cases output with
      | false =>
        simp only [fieldNames, Bool.false_eq_true, if_false, List.mem_cons, List.not_mem_nil,
          or_false] at hfield
        rcases hfield with rfl | rfl | rfl | rfl | rfl
        · exact .minimum hvalue
        · exact .maximum hvalue
        · exact .minLength hvalue
        · exact .maxLength hvalue
        · exact .help hvalue
      | true =>
        cases List.mem_singleton.1 hfield
        exact .label hvalue
  · intro hstates
    have hfield {keyword name : String} {value : Value} (hmem : (keyword, name) ∈ fieldNames output)
        (hvalue : fragment.get? keyword = some value) : ∃ field ∈ fieldNames output, ∃ a,
          fragment.get? field.1 = some a ∧ field.2 = name ∧ a = value :=
      ⟨_, hmem, value, hvalue, rfl, rfl⟩
    cases hstates with
    | items hgiven hkind =>
      exact .inl (.inl (.inl ⟨_, Option.bind_eq_some_iff.2 ⟨_, hgiven,
        bareItems_eq_some_iff.2 ⟨_, _, rfl, hkind, rfl⟩⟩, rfl, rfl⟩))
    | format hgiven =>
      exact .inl (.inl (.inr ⟨_, Option.filter_eq_some_iff.2 ⟨hgiven, rfl⟩, rfl, rfl⟩))
    | choices hvalues =>
      exact .inl (.inr ⟨_, (hchoices _ (enumOf_eq_some_iff.2 hvalues)).1, rfl, rfl⟩)
    | labelled hvalues htexts =>
      refine .inl (.inr ⟨_, (hchoices _ (enumOf_eq_some_iff.2 hvalues)).1.trans ?_, rfl, rfl⟩)
      rw [choicesOf, if_pos rfl, mapM_eq_some_iff.2 htexts, Option.map_some]
    | minimum hvalue => exact .inr (hfield (by decide) hvalue)
    | maximum hvalue => exact .inr (hfield (by decide) hvalue)
    | minLength hvalue => exact .inr (hfield (by decide) hvalue)
    | maxLength hvalue => exact .inr (hfield (by decide) hvalue)
    | help hvalue => exact .inr (hfield (by decide) hvalue)
    | label hvalue => exact .inr (hfield (by decide) hvalue)

/-- Keywords are stated unless `str` raises for a choice's value. -/
theorem exists_stated_iff : (∃ items, stated str fragment output = some items) ↔
    (output = true → ∀ values, fragment.get? "enum" = some (.list values) →
      ∀ value ∈ values, (str value).isSome) := by
  simp only [stated_eq_some_iff, ← enumOf_eq_some_iff]
  constructor
  · rintro ⟨items, choices, hchoices, -, -⟩ houtput values hvalues
    obtain ⟨rfl, hsome⟩ := hchoices values hvalues
    exact choicesOf_isSome_iff.1 hsome houtput
  · intro h
    cases henum : enumOf fragment with
    | none => exact ⟨_, none, fun _ hvalues => (by cases hvalues), fun _ => rfl, rfl⟩
    | some values =>
      refine ⟨_, choicesOf str output values, fun other hother => ?_, fun hnone => ?_, rfl⟩
      · cases hother
        exact ⟨rfl, choicesOf_isSome_iff.2 fun houtput => h houtput values henum⟩
      · cases hnone

end

/-- A name is not tried before itself. -/
theorem TriedBefore.ne {output : Bool} {name later : String} (h : TriedBefore output name later) :
    name ≠ later := by
  have hnodup : (trialOrder output).Nodup := by cases output <;> decide
  rintro rfl
  exact (List.nodup_cons.1 (h.nodup hnodup)).1 List.mem_cons_self

/-- Keywords added in the trial order stand side by side. -/
theorem additions (output : Bool) :
    Additions withKeyword (fun e later => TriedBefore output e.1 later.1)
      (fun declared later => later.1 ∉ declared) (fun declared e => declared.get? e.1 = some e.2) where
  fresh_add {declared e later} h hfresh := by
    rw [← Dict.get?_eq_none] at hfresh ⊢
    rw [withKeyword, Dict.get?_set, if_neg h.ne.symm, hfresh]
  holds_self declared e := by rw [withKeyword, Dict.get?_set, if_pos rfl]
  holds_add {declared e later} h hheld := by rw [withKeyword, Dict.get?_set, if_neg h.ne, hheld]

/-- What is not tried is not written. -/
theorem notMem_foldl_keep {name : String} (accepts : Dict String Value → Bool)
    {items : List (String × Value)} {declared : Dict String Value} (h : name ∉ keysOf items)
    (hdeclared : name ∉ declared) : name ∉ items.foldl (keep accepts withKeyword) declared := by
  refine @foldl_keep_preserves _ _ accepts withKeyword (name ∉ ·) items declared
    (fun d e he hd => ?_) hdeclared
  rw [← Dict.get?_eq_none] at hd ⊢
  rw [withKeyword, Dict.get?_set, if_neg, hd]
  rintro rfl
  exact h (mem_keysOf_of_mem he)

/-- A declaration of a type alone has no other name. -/
theorem mem_typeAlone {nullable : Bool} {kind name : String} (h : name ∈ typeAlone nullable kind) :
    name = "type" ∨ name = "nullable" := by
  cases nullable with
  | false => exact .inl (List.mem_singleton.1 h)
  | true => exact (List.mem_pair.1 h).symm

/-- `json_schema_extra` is no keyword set. -/
theorem keywordsOf_withExtra {declared : Dict String Value} (h : "json_schema_extra" ∉ declared)
    (extra : List (String × Value)) : keywordsOf (withExtra declared extra) = declared := by
  have hentries : assign "json_schema_extra" (Value.mapping true extra) declared.entries =
      declared.entries ++ [("json_schema_extra", .mapping true extra)] := assign_of_notMem h
  have hkept : declared.without ["json_schema_extra"] = declared :=
    Dict.without_eq_self fun k hk hmem => h (List.mem_singleton.1 hmem ▸ hk)
  cases declared with
  | mk entries nodup =>
    simp only [keywordsOf, withExtra, Dict.without, Dict.filter, Dict.set, Dict.mk.injEq] at hentries hkept ⊢
    rw [hentries, List.filter_append, hkept]
    exact List.append_nil entries

/-! ## What is left out -/

section
variable {accepts : Bool → Dict String Value → Bool} {fragment : Dict String Value} {output : Bool}
  {declared : Dict String Value}

/-- The keywords set are those declared, whether or not there is a rest. -/
theorem keywordsOf_withRest (h : "json_schema_extra" ∉ declared) :
    keywordsOf (withRest fragment output accepts declared) = declared := by
  unfold withRest
  dsimp only
  split
  · exact Dict.without_eq_self fun k hk hmem => h (List.mem_singleton.1 hmem ▸ hk)
  · exact keywordsOf_withExtra h _

/-- The rest leaves every other name as declared. -/
theorem get?_withRest {name : String} (h : name ≠ "json_schema_extra") :
    (withRest fragment output accepts declared).get? name = declared.get? name := by
  unfold withRest
  dsimp only
  split
  · rfl
  · rw [withExtra, Dict.get?_set, if_neg h]

/-- `json_schema_extra` holds what the kernel takes of the rest. -/
theorem extra?_withRest (h : "json_schema_extra" ∉ declared) (key : String) :
    extra? (withRest fragment output accepts declared) key =
      (extraOf fragment output accepts declared).get? key := by
  unfold withRest
  dsimp only
  split
  · next hempty =>
    rw [extra?, Dict.get?_eq_none.2 h, Dict.get?, List.isEmpty_iff.1 hempty]
    rfl
  · rw [extra?, withExtra, Dict.get?_set, if_pos rfl]
    rfl

/-- The kernel builds the declaration with all it takes one by one. -/
theorem Lawful.accepts_withRest (hlaw : Lawful accepts) (hdeclared : accepts output declared = true) :
    accepts output (withRest fragment output accepts declared) = true := by
  unfold withRest
  dsimp only
  split
  · exact hdeclared
  · next hextra =>
    refine hlaw.judged output declared _ (Dict.nodup _) hdeclared (fun h => hextra ?_) fun e he => ?_
    · rw [h]
      rfl
    · exact (List.mem_filter.1 he).2

end

/-! ## A kernel that judges by the type -/

/-- The keywords a kernel keeps out of `json_schema_extra`. -/
def reservedKeywords (output : Bool) : List String :=
  ["type", "enum", "format", "items", "properties", "required", "const"] ++
    if output then ["title", "oneOf"]
    else ["minimum", "maximum", "minItems", "maxItems", "description", "additionalProperties", "anyOf",
      "default"]

/-- Whether a keyword is taken beside a type: each but `nullable`, `choices` and the texts has its own. -/
def takenBy (output : Bool) (kind : Option Value) (e : String × Value) : Bool :=
  let typed := fun kinds : List String => match kind with
    | some (.str name) => name ∈ kinds
    | _ => false
  if e.1 = "items" ∨ e.1 = "min_length" ∨ e.1 = "max_length" then typed ["array"]
  else if e.1 = "format" then typed ["string"]
  else if e.1 = "minimum" ∨ e.1 = "maximum" then typed ["integer", "number"]
  else match e.2 with
    | .mapping _ extra => extra.all fun entry => entry.1 ∉ reservedKeywords output
    | _ => true

/-- A kernel that takes each keyword by the declared type. -/
def byType (output : Bool) (declared : Dict String Value) : Bool :=
  declared.entries.all (takenBy output (declared.get? "type"))

/-- A declaration is taken where each of its keywords is, by its type. -/
theorem byType_iff {output : Bool} {declared : Dict String Value} :
    byType output declared = true ↔
      ∀ name value, declared.get? name = some value →
        takenBy output (declared.get? "type") (name, value) = true := by
  simp only [byType, List.all_eq_true, Dict.get?_eq_some, Prod.forall]

/-- Such a kernel is as assumed. -/
theorem byType_lawful : Lawful byType where
  typed output nullable := by cases output <;> cases nullable <;> decide
  judged output declared extra _ hdeclared _ hextra := by
    rw [byType_iff] at hdeclared ⊢
    intro name value hvalue
    rw [withExtra, Dict.get?_set, if_neg (by decide)]
    rw [withExtra, Dict.get?_set] at hvalue
    split at hvalue
    · next hname =>
      subst hname
      cases hvalue
      refine List.all_eq_true.2 fun e he => ?_
      have htaken := byType_iff.1 (hextra e he) "json_schema_extra" _ (by
        rw [withExtra, Dict.get?_set, if_pos rfl])
      exact List.all_eq_true.1 htaken e List.mem_cons_self
    · exact hdeclared name value hvalue
  stays output declared e later _ hbefore hlater hrefused := by
    rw [← Bool.not_eq_true, byType_iff] at hrefused ⊢
    refine fun htaken => hrefused fun name value hvalue => ?_
    have htype : later.1 ≠ "type" := by
      have hmem : later.1 ∈ trialOrder output := hbefore.subset (by simp)
      rintro h
      rw [h] at hmem
      revert hmem
      cases output <;> decide
    have hread (name : String) (hname : name ≠ later.1) :
        (withKeyword (withKeyword declared later) e).get? name = (withKeyword declared e).get? name := by
      simp only [withKeyword, Dict.get?_set, if_neg hname]
    by_cases hname : name = later.1
    · rw [withKeyword, Dict.get?_set, hname, if_neg hbefore.ne.symm, Dict.get?_eq_none.2 hlater] at hvalue
      cases hvalue
    · rw [← hread "type" htype.symm]
      exact htaken name value ((hread name hname).trans hvalue)

/-! ## What is returned -/

section
variable {accepts : Bool → Dict String Value → Bool} {str : Value → Option String}
  {fragment : Dict String Value} {output nullable : Bool} {kind : Value}

/-- The type declared is the one the fragment names, or `any`. -/
theorem typeName_cases (h : nullableKind ((fragment.get? "type").getD .null) = some (nullable, kind)) :
    (typeName kind (enumOf fragment) ∈ jsonTypes ∧
        NamesType fragment (typeName kind (enumOf fragment))) ∨
      ((∀ name ∈ jsonTypes, ¬ NamesType fragment name) ∧
        typeName kind (enumOf fragment) = "any") := by
  unfold typeName
  cases hname : (kindName kind (enumOf fragment)).filter (· ∈ jsonTypes) with
  | none =>
    refine .inr ⟨fun name hmem hnames => ?_, rfl⟩
    rw [(kindName_iff_namesType h).2 hnames, Option.filter_some, if_pos (decide_eq_true hmem)] at hname
    cases hname
  | some name =>
    obtain ⟨hkind, hmem⟩ := Option.filter_eq_some_iff.1 hname
    exact .inl ⟨of_decide_eq_true hmem, (kindName_iff_namesType h).1 hkind⟩

/-- A type makes a declaration nullable where it is a list of two, one of them `"null"`. -/
theorem nullable_iff (h : nullableKind ((fragment.get? "type").getD .null) = some (nullable, kind)) :
    nullable = true ↔ NullableType fragment := by
  have hgiven (items : List Value) : (fragment.get? "type").getD .null = .list items ↔
      fragment.get? "type" = some (.list items) := by
    cases fragment.get? "type" <;> simp
  rcases nullableKind_eq_some h with ⟨rfl, -, hkind⟩ | ⟨rfl, -, hother⟩
  · rw [hgiven, hgiven] at hkind
    exact iff_of_true rfl ⟨kind, hkind⟩
  · refine iff_of_false Bool.false_ne_true ?_
    rintro ⟨other, hlist | hlist⟩
    · exact (hother other).1 ((hgiven _).2 hlist)
    · exact (hother other).2 ((hgiven _).2 hlist)

/-- What a declaration of a type alone holds under a name. -/
theorem get?_typeAlone (name : String) : (typeAlone nullable typed).get? name =
    if name = "type" then some (.str typed)
    else if name = "nullable" ∧ nullable = true then some (.bool true) else none := by
  rw [typeAlone, Dict.get?_set]
  split
  · rfl
  · cases nullable with
    | false =>
      rw [if_neg (by decide), if_neg (by simp)]
      rfl
    | true =>
      show List.lookup name [("nullable", Value.bool true)] = _
      rw [lookup_cons_ite]
      simp

/-- The search keeps the type, and of the rest only what is stated. -/
theorem get?_foldl_keep {items : List (String × Value)} (h : stated str fragment output = some items)
    {typed name : String} {value : Value}
    (hvalue : (items.foldl (keep (accepts output) withKeyword) (typeAlone nullable typed)).get? name =
      some value) :
    (typeAlone nullable typed).get? name = some value ∨ States str fragment output name value := by
  refine @foldl_keep_preserves _ _ (accepts output) withKeyword
    (fun declared => ∀ name value, declared.get? name = some value →
      (typeAlone nullable typed).get? name = some value ∨ States str fragment output name value)
    items _ (fun declared e he hdeclared name value hvalue => ?_) (fun _ _ hvalue => .inl hvalue)
    name value hvalue
  rw [withKeyword, Dict.get?_set] at hvalue
  split at hvalue
  · next hname =>
    cases hvalue
    exact .inr ((mem_stated_iff h).1 (hname ▸ he))
  · exact hdeclared name value hvalue

/-- What is not stated stays as the type alone has it. -/
theorem get?_foldl_keep_of_notMem {items : List (String × Value)} {typed name : String}
    (hname : name ∉ keysOf items) :
    (items.foldl (keep (accepts output) withKeyword) (typeAlone nullable typed)).get? name =
      (typeAlone nullable typed).get? name := by
  refine @foldl_keep_preserves _ _ (accepts output) withKeyword
    (fun declared => declared.get? name = (typeAlone nullable typed).get? name)
    items _ (fun declared e he hdeclared => ?_) rfl
  rw [withKeyword, Dict.get?_set, if_neg, hdeclared]
  rintro rfl
  exact hname (mem_keysOf_of_mem he)

/-- Where a fragment has a type to be read by and its choices have their texts, its keywords lose only
what the kernel refuses. -/
theorem Lawful.losesOnlyRefused (hlaw : Lawful accepts)
    (hkind : nullableKind ((fragment.get? "type").getD .null) = some (nullable, kind))
    {items : List (String × Value)} (hitems : stated str fragment output = some items) :
    LosesOnlyRefused str fragment output accepts (withRest fragment output accepts
      (items.foldl (keep (accepts output) withKeyword)
        (typeAlone nullable (typeName kind (enumOf fragment))))) := by
  have htyped := hlaw.typed output nullable _ (typeName_mem kind (enumOf fragment))
  have hnames {name : String} (hname : name ∉ trialOrder output) : name ∉ keysOf items :=
    fun hmem => hname ((keysOf_stated_sublist hitems).subset hmem)
  have huntried : ∀ name ∈ ["type", "nullable", "json_schema_extra"], name ∉ trialOrder output := by
    cases output <;> decide
  -- Nothing stated is a keyword of the type alone, so each is new when it is tried.
  have hfresh : ∀ e ∈ items, e.1 ∉ typeAlone nullable (typeName kind (enumOf fragment)) :=
    fun e he hmem => by
      have hname := name_mem_of_stated hitems he
      rcases mem_typeAlone hmem with h | h <;> rw [h] at hname <;>
        exact huntried _ (by simp) hname
  have hextra : "json_schema_extra" ∉ items.foldl (keep (accepts output) withKeyword)
      (typeAlone nullable (typeName kind (enumOf fragment))) := by
    refine notMem_foldl_keep (accepts output) (hnames (huntried _ (by simp))) fun hmem => ?_
    rcases mem_typeAlone hmem with h | h <;> exact absurd h (by decide)
  have hmaximal := foldl_keep_maximal (additions output) (hlaw.stays output) items
    (stated_ordered hitems) hfresh htyped
  exact {
    builds := hlaw.accepts_withRest (accepts_foldl_keep _ htyped)
    typed := by
      rw [get?_withRest (by decide), get?_foldl_keep_of_notMem (hnames (huntried _ (by simp))),
        get?_typeAlone, if_pos rfl]
      rcases typeName_cases hkind with ⟨hmem, hname⟩ | ⟨hnone, hany⟩
      · exact .inl ⟨_, hmem, hname, rfl⟩
      · exact .inr ⟨hnone, by rw [hany]⟩
    nullable := by
      rw [get?_withRest (by decide), get?_foldl_keep_of_notMem (hnames (huntried _ (by simp))),
        get?_typeAlone, if_neg (by decide), ← nullable_iff hkind]
      cases nullable <;> simp
    fields := fun name value hstates => by
      have he := (mem_stated_iff hitems).2 hstates
      have hname : name ≠ "json_schema_extra" := by
        rintro rfl
        exact huntried _ (by simp) (name_mem_of_stated hitems he)
      rw [keywordsOf_withRest hextra, get?_withRest hname]
      exact hmaximal _ he
    extras := fun key value hvalue => by
      rw [keywordsOf_withRest hextra, extra?_withRest hextra, extraOf, Dict.get?_filter, hvalue]
      generalize items.foldl (keep (accepts output) withKeyword) _ = declared
      cases haccepts : accepts output (withExtra declared [(key, value)]) with
      | false => exact .inr rfl
      | true => exact .inl (by rw [Option.filter_some, haccepts, if_pos rfl])
    own := fun name value hvalue => by
      rw [keywordsOf_withRest hextra] at hvalue
      rcases get?_foldl_keep hitems hvalue with halone | hstates
      · rw [← or_assoc]
        exact .inl (mem_typeAlone (Dict.mem_iff_isSome.2 (Option.isSome_of_eq_some halone)))
      · exact .inr (.inr hstates)
    ownExtras := fun key value hvalue => by
      rw [extra?_withRest hextra, extraOf, Dict.get?_filter] at hvalue
      exact (Option.filter_eq_some_iff.1 hvalue).1 }

/-- **A fragment's keywords lose only what the kernel refuses, and are returned exactly where its type is
not `"null"` twice and an `OutputField`'s choices have their texts.** -/
theorem fragmentKeywords_iff (hlaw : Lawful accepts) (str : Value → Option String)
    (fragment : Dict String Value) (output : Bool) :
    (∃ returned, fragmentKeywords str fragment output accepts = some returned ∧
        LosesOnlyRefused str fragment output accepts returned) ↔
      fragment.get? "type" ≠ some (.list [.str "null", .str "null"]) ∧
        (output = true → ∀ values, fragment.get? "enum" = some (.list values) →
          ∀ value ∈ values, (str value).isSome) := by
  rw [← exists_stated_iff]
  constructor
  · rintro ⟨returned, hreturned, -⟩
    rw [fragmentKeywords, Option.bind_eq_bind, Option.bind_eq_some_iff] at hreturned
    obtain ⟨read, hread, hreturned⟩ := hreturned
    obtain ⟨items, hitems, -⟩ := Option.bind_eq_some_iff.1 hreturned
    refine ⟨fun htype => ?_, items, hitems⟩
    rw [htype] at hread
    cases hread
  · rintro ⟨htype, items, hitems⟩
    obtain ⟨⟨nullable, kind⟩, hkind⟩ : ∃ read,
        nullableKind ((fragment.get? "type").getD .null) = some read := by
      refine Option.ne_none_iff_exists'.1 fun hnone => ?_
      have hnulls := (nullableKind_eq_none_iff _).1 hnone
      cases hget : fragment.get? "type" with
      | none => rw [hget] at hnulls; cases hnulls
      | some value =>
        rw [hget] at hnulls
        exact htype (hget.trans (congrArg some hnulls))
    rw [fragmentKeywords, hkind, hitems]
    exact ⟨_, rfl, hlaw.losesOnlyRefused hkind hitems⟩

end

/-- `str`, of a string, and of an integer below the `bound` of those the interpreter writes. -/
def text (bound : Nat) : Value → Option String
  | .int i => if i.natAbs < bound then some (toString i) else none
  | .str s => some s
  | _ => none

/-- A nullable string with a bound the kernel refuses on it. -/
def boundedText : Dict String Value :=
  .ofList [("type", .list [.str "string", .str "null"]), ("minimum", .int 1), ("pattern", .str "^[0-9]+$")]

/-- The bound is refused on a string, and nothing else is lost. -/
theorem fragmentKeywords_iff_boundedText :
    ∃ returned, fragmentKeywords (text 1000) boundedText false byType = some returned ∧
      LosesOnlyRefused (text 1000) boundedText false byType returned :=
  (fragmentKeywords_iff byType_lawful (text 1000) boundedText false).2 ⟨fun h => by
    have htype : boundedText.get? "type" = some (.list [.str "string", .str "null"]) := rfl
    simp [htype] at h, nofun⟩

/-- A type that names `"null"` twice. -/
def nulls : Dict String Value := .ofList [("type", .list [.str "null", .str "null"])]

/-- Nothing is returned for it. -/
theorem fragmentKeywords_nulls :
    ¬ ∃ returned, fragmentKeywords (text 1000) nulls false byType = some returned := by
  rintro ⟨returned, h⟩
  cases h

/-- A choice too long to write. -/
def longChoice (bound : Nat) : Dict String Value := .ofList [("enum", .list [.int bound])]

/-- Nor for an `OutputField` of it, which labels each choice with its text. -/
theorem fragmentKeywords_longChoice (bound : Nat) :
    ¬ ∃ returned, fragmentKeywords (text bound) (longChoice bound) true byType = some returned := by
  have htext : text bound (.int bound) = none := if_neg (Nat.lt_irrefl _)
  rintro ⟨returned, h⟩
  rw [fragmentKeywords, Option.bind_eq_bind, Option.bind_eq_some_iff] at h
  obtain ⟨read, -, h⟩ := h
  obtain ⟨items, hitems, -⟩ := Option.bind_eq_some_iff.1 h
  have hall := exists_stated_iff.1 ⟨items, hitems⟩ rfl _ rfl _ (List.mem_singleton.2 rfl)
  rw [htext] at hall
  cases hall

end RestFrameworkServices.FragmentKeywords
