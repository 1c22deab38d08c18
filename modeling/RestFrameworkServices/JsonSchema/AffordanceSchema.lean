import RestFrameworkServices.Audience.Affordances
import RestFrameworkServices.JsonSchema.Choices

/-!
# The schema of the answers to affordances

`affordance_schema` makes a dict of keywords. `answersSchema` is the schema with those keywords
(`keywords_answersSchema`), and it accepts the JSON of whatever `_answers` answers of a row (`valid_answers`).
-/

namespace RestFrameworkServices.AffordanceSchemas

open Lib Choices Affordances

/-! ## Values as JSON -/

mutual

/-- What JSON writes of a value, where it writes any. -/
def toJson : Value → Option Instance
  | .null => some .null
  | .bool b => some (.bool b)
  | .int i => some (.number i)
  | .str s => some (.string s)
  | .list items => (toJsonItems items).map .array
  | .mapping _ entries => (toJsonMembers entries).map .object
  | .dataclass _ | .object .. => none

/-- What it writes of the items of a list. -/
def toJsonItems : List Value → Option (List Instance)
  | [] => some []
  | item :: items => (toJson item).bind fun x => (toJsonItems items).map (x :: ·)

/-- What it writes of the entries of a mapping. -/
def toJsonMembers : List (String × Value) → Option (List (String × Instance))
  | [] => some []
  | (name, value) :: entries => (toJson value).bind fun x => (toJsonMembers entries).map ((name, x) :: ·)

end

/-- Under each key is what is written of the key's value. -/
theorem lookup_toJsonMembers {entries : List (String × Value)} : ∀ {ms : List (String × Instance)},
    toJsonMembers entries = some ms → ∀ name, ms.lookup name = (entries.lookup name).bind toJson := by
  induction entries with
  | nil =>
    intro ms h name
    cases h
    rfl
  | cons e entries ih =>
    obtain ⟨key, value⟩ := e
    intro ms h name
    obtain ⟨x, hx, h⟩ := Option.bind_eq_some_iff.1 h
    obtain ⟨rest, hrest, rfl⟩ := Option.map_eq_some_iff.1 h
    rw [lookup_cons_ite, lookup_cons_ite]
    split
    · exact hx.symm
    · exact ih hrest name

/-! ## Schemas as dicts -/

section
variable (constant : Constant → Value)

mutual

/-- The keywords a schema is written as. -/
def keywords : Lib.Schema Constant → List (String × Value)
  | .all schemas => allKeywords schemas
  | .type name => [("type", .str name)]
  | .note keyword text => [(keyword, .str text)]
  | .enum values => [("enum", .list (values.map constant))]
  | .const value => [("const", constant value)]
  | .anyOf schemas => [("anyOf", .list (dicts schemas))]
  | .oneOf schemas => [("oneOf", .list (dicts schemas))]
  | .items schema => [("items", .mapping true (keywords schema))]
  | .uniqueItems => [("uniqueItems", .bool true)]
  | .minItems n => [("minItems", .int n)]
  | .properties schemas => [("properties", .mapping true (namedDicts schemas))]
  | .required names => [("required", .list (names.map .str))]
  | .additionalProperties _ schema => [("additionalProperties", .mapping true (keywords schema))]

/-- The keywords of all of them. -/
def allKeywords : List (Lib.Schema Constant) → List (String × Value)
  | [] => []
  | schema :: schemas => keywords schema ++ allKeywords schemas

/-- The dict of each. -/
def dicts : List (Lib.Schema Constant) → List Value
  | [] => []
  | schema :: schemas => .mapping true (keywords schema) :: dicts schemas

/-- The dict of each property. -/
def namedDicts : List (String × Lib.Schema Constant) → List (String × Value)
  | [] => []
  | (name, schema) :: schemas => (name, .mapping true (keywords schema)) :: namedDicts schemas

end

/-- The loop writes the keywords of each schema. -/
theorem namedDicts_eq : ∀ schemas : List (String × Lib.Schema Constant),
    namedDicts constant schemas = schemas.map fun e => (e.1, .mapping true (keywords constant e.2))
  | [] => rfl
  | (name, schema) :: schemas => by rw [namedDicts, namedDicts_eq schemas, List.map_cons]

end

/-! ## The answers' schema -/

/-- The schema of an operation's answer. -/
def answerSchema (affordances : List Affordance) : Lib.Schema Constant := .all [
  .type "object",
  .properties (("available", .type "boolean") ::
    if affordances.isEmpty then []
    else [("code", .all [.type "string", .enum (affordances.map fun affordance => .str affordance.code)]),
      ("reason", .type "string")]),
  .required ["available"]]

/-- `affordance_schema`, as a schema. -/
def answersSchema (operations : Operations) : Lib.Schema Constant := .all [
  .type "object",
  .properties (operations.entries.map fun e => (e.1, answerSchema e.2)),
  .required operations.keys]

section
variable {constant : Constant → Value}

/-- An operation's schema is written as the dict it is made as. -/
theorem keywords_answerSchema (hconstant : ∀ s, constant (.str s) = .str s) (affordances : List Affordance) :
    Value.mapping true (keywords constant (answerSchema affordances)) = Affordances.answerSchema affordances := by
  have hcodes : ∀ codes : List Affordance, (codes.map fun affordance => Constant.str affordance.code).map constant =
      codes.map fun affordance => Value.str affordance.code := by
    intro codes
    rw [List.map_map]
    exact List.map_congr_left fun affordance _ => hconstant affordance.code
  cases affordances with
  | nil => rfl
  | cons first affordances =>
    simp only [answerSchema, Affordances.answerSchema, List.isEmpty_cons, Bool.false_eq_true, if_false, keywords,
      allKeywords, namedDicts, hcodes]
    rfl

/-- The schema of the answers is written as `affordance_schema` makes it. -/
theorem keywords_answersSchema (hconstant : ∀ s, constant (.str s) = .str s) (operations : Operations) :
    Value.mapping true (keywords constant (answersSchema operations)) = affordanceSchema operations := by
  have hproperties : (operations.entries.map fun e => (e.1, answerSchema e.2)).map
      (fun e => (e.1, Value.mapping true (keywords constant e.2))) =
        operations.entries.map fun e => (e.1, Affordances.answerSchema e.2) := by
    rw [List.map_map]
    exact List.map_congr_left fun e _ => congrArg (e.1, ·) (keywords_answerSchema hconstant e.2)
  simp only [answersSchema, keywords, allKeywords, namedDicts_eq, hproperties]
  rfl

end

/-- An answer is written as JSON, which its operation's schema accepts. -/
theorem valid_decided {row : Row} {name : String} {affordances : List Affordance} {value : Value}
    (h : Decided row name affordances value) :
    ∃ x, toJson value = some x ∧ Lib.Schema.valid Constant.toJson (answerSchema affordances) x = true := by
  have hbare : ∀ b, Lib.Schema.valid Constant.toJson (answerSchema affordances)
      (.object [("available", .bool b)]) = true := by
    intro b
    cases affordances <;> simp [answerSchema, Instance.hasType, lookup_cons_ite]
  rcases h with ⟨-, rfl⟩ | ⟨met, first, rest, rfl, -, flag, -, -, ⟨-, rfl⟩ | ⟨-, rfl⟩⟩
  · exact ⟨_, rfl, hbare true⟩
  · exact ⟨_, rfl, hbare false⟩
  · refine ⟨.object [("available", .bool false), ("code", .string first.code),
      ("reason", .string first.reason)], rfl, ?_⟩
    have hcode : Lib.Schema.valid Constant.toJson
        (.enum ((met ++ first :: rest).map fun affordance => Constant.str affordance.code))
        (.string first.code) = true :=
      Schema.valid_enum.2 ⟨.str first.code, List.mem_map.2 ⟨first, by simp, rfl⟩, Constant.isConstant_iff.2 rfl⟩
    have hsome : (met ++ first :: rest).isEmpty = false := by simp
    simpa [answerSchema, hsome, Instance.hasType, lookup_cons_ite, -Schema.valid_enum] using hcode

/-- All the answers of a row are written. -/
theorem exists_toJsonMembers {row : Row} {entries : List (String × List Affordance)}
    {values : List (String × Value)}
    (h : List.Forall₂ (fun e v => e.1 = v.1 ∧ Decided row e.1 e.2 v.2) entries values) :
    ∃ ms, toJsonMembers values = some ms := by
  induction h with
  | nil => exact ⟨[], rfl⟩
  | @cons e v entries values hfirst _ ih =>
    obtain ⟨x, hx, -⟩ := valid_decided hfirst.2
    obtain ⟨ms, hms⟩ := ih
    exact ⟨(v.1, x) :: ms, by rw [toJsonMembers, hx, hms]; rfl⟩

/-- **The answers of a row are written as JSON, which their schema accepts.** -/
theorem valid_answers {row : Row} {operations : Operations} {values : List (String × Value)}
    (h : answers row operations.entries = .ok values) : ∃ ms, toJsonMembers values = some ms ∧
      Lib.Schema.valid Constant.toJson (answersSchema operations) (.object ms) = true := by
  have hdecided := answers_eq_ok.1 h
  obtain ⟨ms, hms⟩ := exists_toJsonMembers hdecided
  have hlookup := lookup_toJsonMembers hms
  have hanswer : ∀ e ∈ operations.entries, ∃ x, ms.lookup e.1 = some x ∧
      Lib.Schema.valid Constant.toJson (answerSchema e.2) x = true := by
    intro e he
    have hentry : operations.entries.lookup e.1 = some e.2 := Dict.get?_eq_some.2 he
    rcases lookup_answers hdecided e.1 with ⟨hnone, -⟩ | ⟨affordances, value, hsome, hvalue, hdecides⟩
    · rw [hnone] at hentry
      cases hentry
    · rw [hentry] at hsome
      cases hsome
      obtain ⟨x, hx, hvalid⟩ := valid_decided hdecides
      exact ⟨x, by rw [hlookup, hvalue]; exact hx, hvalid⟩
  refine ⟨ms, hms, ?_⟩
  simp only [answersSchema, Schema.valid_all, List.forall_mem_cons, Schema.valid_type, Schema.valid_properties,
    Schema.valid_required]
  refine ⟨rfl, ?_, ?_, fun _ h => absurd h List.not_mem_nil⟩
  · intro property hproperty y hy
    obtain ⟨e, he, rfl⟩ := List.mem_map.1 hproperty
    obtain ⟨x, hx, hvalid⟩ := hanswer e he
    rw [hy] at hx
    cases hx
    exact hvalid
  · intro name hname
    obtain ⟨e, he, rfl⟩ := List.mem_map.1 hname
    obtain ⟨x, hx, -⟩ := hanswer e he
    rw [hx]
    rfl

end RestFrameworkServices.AffordanceSchemas
