import Mathlib.Data.List.Dedup
import RestFrameworkServices.Lib.JsonSchema

/-!
# The schema of a choice field

`_choice_schema` writes the values a `ChoiceField` declares as an `enum`, or as a `oneOf` of constants with
their labels. A `oneOf` fails where two of its constants are one JSON value. They never are: the values
are the keys of a `dict`, and what Python takes for two keys is written as two JSON values
(`Constant.eq_of_toJson`), though not the other way round, as `True` and `1` are one key. So the schema accepts
the declared values, with `""` and `null` where the field is widened to them, and nothing else
(`choiceSchema_accepts_iff`).
-/

namespace RestFrameworkServices.Choices

open Lib

/-! ## Constants -/

/-- A Python value that is a constant: a float is one that JSON can write, and any other object its
identity. -/
inductive Constant where
  | none
  | bool (b : Bool)
  | int (i : ℤ)
  | float (q : ℚ)
  | str (s : String)
  | object (id : ℕ)
deriving DecidableEq

namespace Constant

/-- The number a constant is, for `==`. A `bool` is one. -/
def number? : Constant → Option ℚ
  | bool b => some b.toNat
  | int i => some i
  | float q => some q
  | _ => .none

/-- `value == other`. -/
def eq (value other : Constant) : Bool :=
  match value.number?, other.number? with
  | some p, some q => p == q
  | _, _ => value == other

/-- What `json.dumps` writes of a constant. Any other object it refuses. -/
def toJson : Constant → Option Instance
  | none => some .null
  | bool b => some (.bool b)
  | int i => some (.number i)
  | float q => some (.number q)
  | str s => some (.string s)
  | object _ => .none

/-- `_json_type_of`. -/
def jsonTypeOf : Constant → Option String
  | bool _ => some "boolean"
  | int _ => some "integer"
  | float _ => some "number"
  | str _ => some "string"
  | none | object _ => .none

/-- A constant is written as a value with nothing in it, which is equal to itself only. -/
theorem equal_iff_of_toJson {value : Constant} {x y : Instance} (h : value.toJson = some y) :
    Instance.equal y x = true ↔ y = x := by
  cases value <;> cases h <;> cases x <;> simp [Instance.equal]

/-- A value is accepted as a constant where it is what the constant is written as. -/
theorem isConstant_iff {value : Constant} {x : Instance} :
    Schema.isConstant toJson value x = true ↔ value.toJson = some x := by
  rw [Schema.isConstant_iff]
  constructor
  · rintro ⟨y, hy, hyx⟩
    rw [← (equal_iff_of_toJson hy).1 hyx]
    exact hy
  · exact fun h => ⟨x, h, (equal_iff_of_toJson h).2 rfl⟩

/-- What is written as a number is the number. -/
theorem number?_of_toJson {value : Constant} {q : ℚ} (h : value.toJson = some (.number q)) :
    value.number? = some q := by
  cases value with
  | int i => cases h; rfl
  | float p => cases h; rfl
  | none | bool _ | str _ | object _ => cases h

/-- Two constants written as one JSON value are equal. -/
theorem eq_of_toJson {value other : Constant} {x : Instance} (hv : value.toJson = some x)
    (ho : other.toJson = some x) : value.eq other = true := by
  by_cases hx : ∃ q, x = .number q
  · obtain ⟨q, rfl⟩ := hx
    rw [eq, number?_of_toJson hv, number?_of_toJson ho]
    exact beq_self_eq_true q
  · have hsame : value = other := by
      cases value <;> cases other <;> cases hv <;> cases ho <;> first | rfl | exact absurd ⟨_, rfl⟩ hx
    rw [hsame, eq]
    split
    · next hp hq => exact beq_iff_eq.2 (Option.some.inj (hp.symm.trans hq))
    · exact beq_self_eq_true other

/-- What a constant is written as has the constant's type. -/
theorem hasType_of_toJson {value : Constant} {x : Instance} {t : String}
    (ht : value.jsonTypeOf = some t) (hx : value.toJson = some x) : Instance.hasType t x = true := by
  cases value with
  | bool b => cases ht; cases hx; rfl
  | int i => cases ht; cases hx; rfl
  | float q => cases ht; cases hx; rfl
  | str s => cases ht; cases hx; rfl
  | none | object _ => cases ht

end Constant

/-! ## The fields -/

/-- A `ChoiceField`: `field.choices`, a `dict` of its values and their labels' texts. -/
structure ChoiceField where
  choices : List (Constant × String)
  distinct : choices.Pairwise fun c d => c.1.eq d.1 = false
  allowBlank : Bool
  allowNull : Bool

/-- A `MultipleChoiceField`. -/
structure MultipleChoiceField extends ChoiceField where
  allowEmpty : Bool

namespace ChoiceField

variable (field : ChoiceField)

/-- `value in choices`. -/
def declares (value : Constant) : Bool := field.choices.any fun c => c.1.eq value

/-- What the field takes beside the values it declares. -/
def extra (widen : Bool) : List Constant :=
  (if widen && field.allowBlank && !field.declares (.str "") then [.str ""] else []) ++
    if widen && field.allowNull && !field.declares .none then [.none] else []

/-- The values the schema writes. -/
def values (widen : Bool) : List Constant := field.choices.map Prod.fst ++ field.extra widen

end ChoiceField

/-- The type that values share, where each has one and it is the same. -/
def sharedType (values : List Constant) : List (Schema Constant) :=
  match (values.map Constant.jsonTypeOf).dedup with
  | [some t] => [.type t]
  | _ => []

/-- A constant under its label. -/
def labelled (c : Constant × String) : Schema Constant := .all [.const c.1, .note "title" c.2]

/-- The schemas of the `oneOf`. -/
def branches (field : ChoiceField) (widen : Bool) : List (Schema Constant) :=
  field.choices.map labelled ++ (field.extra widen).map fun value => .all [.const value]

section
variable (text : Constant → String)

/-- `_choice_schema`, where `text` is `str`. -/
def choiceSchema (field : ChoiceField) (widen : Bool) : Schema Constant :=
  let shared := sharedType (field.values widen)
  if field.choices.all fun c => c.2 == text c.1 then .all (shared ++ [.enum (field.values widen)])
  else .all (shared ++ [.oneOf (branches field widen)])

/-- The schema of a `MultipleChoiceField`. -/
def multipleChoiceSchema (field : MultipleChoiceField) : Schema Constant :=
  .all ([.type "array", .items (choiceSchema text field.toChoiceField false), .uniqueItems] ++
    if field.allowEmpty then [] else [.minItems 1])

end

/-! ## What they accept -/

/-- A field takes a value: one it declares, or one it is widened to. -/
def ChoiceField.Takes (field : ChoiceField) (widen : Bool) (x : Instance) : Prop :=
  (∃ c ∈ field.choices, c.1.toJson = some x) ∨
    widen = true ∧ (field.allowBlank = true ∧ x = .string "" ∨ field.allowNull = true ∧ x = .null)

section
variable {field : ChoiceField} {widen : Bool} {x : Instance}

/-- Text and `None` are equal to nothing else. -/
theorem eq_of_eq {value other : Constant} (hother : other.number? = none)
    (h : value.eq other = true) : value = other := by
  rw [Constant.eq, hother] at h
  split at h
  · next h' => cases h'
  · exact beq_iff_eq.1 h

/-- A value that is no number is declared where it is a key. -/
theorem declares_iff {value : Constant} (hvalue : value.number? = none) :
    field.declares value = true ↔ ∃ c ∈ field.choices, c.1 = value := by
  rw [ChoiceField.declares, List.any_eq_true]
  constructor
  · rintro ⟨c, hc, h⟩
    exact ⟨c, hc, eq_of_eq hvalue h⟩
  · rintro ⟨c, hc, rfl⟩
    refine ⟨c, hc, ?_⟩
    rw [Constant.eq, hvalue]
    exact beq_self_eq_true _

/-- What is taken beside the declared values is `""` and `None`, where the field is widened to them and
declares neither. -/
theorem mem_extra {value : Constant} : value ∈ field.extra widen ↔
    widen = true ∧ ((field.allowBlank = true ∧ field.declares (.str "") = false ∧ value = .str "") ∨
      (field.allowNull = true ∧ field.declares .none = false ∧ value = .none)) := by
  rw [ChoiceField.extra, List.mem_append]
  cases widen <;> cases field.allowBlank <;> cases field.allowNull <;>
    cases field.declares (.str "") <;> cases field.declares .none <;> simp

/-- The values of the schema are those the field takes. -/
theorem exists_values_iff :
    (∃ value ∈ field.values widen, value.toJson = some x) ↔ field.Takes widen x := by
  constructor
  · rintro ⟨value, hvalue, hx⟩
    rcases List.mem_append.1 hvalue with h | h
    · obtain ⟨c, hc, rfl⟩ := List.mem_map.1 h
      exact .inl ⟨c, hc, hx⟩
    · obtain ⟨hwiden, ⟨hblank, -, rfl⟩ | ⟨hnull, -, rfl⟩⟩ := mem_extra.1 h
      · exact .inr ⟨hwiden, .inl ⟨hblank, (Option.some.inj hx).symm⟩⟩
      · exact .inr ⟨hwiden, .inr ⟨hnull, (Option.some.inj hx).symm⟩⟩
  · have hdeclared : ∀ c ∈ field.choices, c.1 ∈ field.values widen := fun c hc =>
      List.mem_append.2 (.inl (List.mem_map.2 ⟨c, hc, rfl⟩))
    rintro (⟨c, hc, hx⟩ | ⟨hwiden, ⟨hblank, rfl⟩ | ⟨hnull, rfl⟩⟩)
    · exact ⟨c.1, hdeclared c hc, hx⟩
    · cases hd : field.declares (.str "") with
      | true =>
        obtain ⟨c, hc, h⟩ := (declares_iff rfl).1 hd
        exact ⟨c.1, hdeclared c hc, by rw [h]; rfl⟩
      | false =>
        exact ⟨.str "", List.mem_append.2 (.inr (mem_extra.2 ⟨hwiden, .inl ⟨hblank, hd, rfl⟩⟩)), rfl⟩
    · cases hd : field.declares .none with
      | true =>
        obtain ⟨c, hc, h⟩ := (declares_iff rfl).1 hd
        exact ⟨c.1, hdeclared c hc, by rw [h]; rfl⟩
      | false =>
        exact ⟨.none, List.mem_append.2 (.inr (mem_extra.2 ⟨hwiden, .inr ⟨hnull, hd, rfl⟩⟩)), rfl⟩

/-- The values of the schema are distinct, as the keys of a `dict` are. -/
theorem pairwise_values : (field.values widen).Pairwise fun v w => v.eq w = false := by
  rw [ChoiceField.values, List.pairwise_append]
  refine ⟨List.pairwise_map.2 field.distinct, ?_, ?_⟩
  · rw [ChoiceField.extra]
    split <;> split <;> simp [Constant.eq, Constant.number?]
  · intro v hv w hw
    obtain ⟨c, hc, rfl⟩ := List.mem_map.1 hv
    have hundeclared : field.declares w = false := by
      obtain ⟨-, ⟨-, hd, rfl⟩ | ⟨-, hd, rfl⟩⟩ := mem_extra.1 hw
      · exact hd
      · exact hd
    exact Bool.eq_false_iff.2 (List.any_eq_false.1 hundeclared c hc)

/-- The type the values share lets every one of them be. -/
theorem valid_sharedType {values : List Constant} {value : Constant} (hvalue : value ∈ values)
    (hx : value.toJson = some x) :
    ∀ keyword ∈ sharedType values, Schema.valid Constant.toJson keyword x = true := by
  intro keyword hkeyword
  rw [sharedType] at hkeyword
  split at hkeyword
  · next t ht =>
    obtain rfl := List.mem_singleton.1 hkeyword
    have hmem : value.jsonTypeOf ∈ (values.map Constant.jsonTypeOf).dedup :=
      List.mem_dedup.2 (List.mem_map_of_mem hvalue)
    rw [ht] at hmem
    rw [Schema.valid_type]
    exact Constant.hasType_of_toJson (List.mem_singleton.1 hmem) hx
  · cases hkeyword

/-- A labelled constant accepts what the constant is written as. -/
theorem valid_labelled {c : Constant × String} :
    Schema.valid Constant.toJson (labelled c) x = true ↔ c.1.toJson = some x := by
  simp [labelled, Constant.isConstant_iff]

/-- So does one with no label. -/
theorem valid_const {value : Constant} :
    Schema.valid Constant.toJson (.all [.const value]) x = true ↔ value.toJson = some x := by
  simp [Constant.isConstant_iff]

/-- Some branch accepts what is written of some value. -/
theorem exists_branches_iff :
    (∃ schema ∈ branches field widen, Schema.valid Constant.toJson schema x = true) ↔
      ∃ value ∈ field.values widen, value.toJson = some x := by
  constructor
  · rintro ⟨schema, hschema, hx⟩
    rcases List.mem_append.1 hschema with h | h
    · obtain ⟨c, hc, rfl⟩ := List.mem_map.1 h
      exact ⟨c.1, List.mem_append.2 (.inl (List.mem_map.2 ⟨c, hc, rfl⟩)), valid_labelled.1 hx⟩
    · obtain ⟨value, hvalue, rfl⟩ := List.mem_map.1 h
      exact ⟨value, List.mem_append.2 (.inr hvalue), valid_const.1 hx⟩
  · rintro ⟨value, hvalue, hx⟩
    rcases List.mem_append.1 hvalue with h | h
    · obtain ⟨c, hc, rfl⟩ := List.mem_map.1 h
      exact ⟨labelled c, List.mem_append.2 (.inl (List.mem_map_of_mem hc)), valid_labelled.2 hx⟩
    · exact ⟨.all [.const value], List.mem_append.2 (.inr (List.mem_map.2 ⟨value, h, rfl⟩)),
        valid_const.2 hx⟩

/-- No two of them accept one value. -/
theorem pairwise_branches : (branches field widen).Pairwise fun s t =>
    ¬ (Schema.valid Constant.toJson s x = true ∧ Schema.valid Constant.toJson t x = true) := by
  have hne : ∀ {v w : Constant}, v.eq w = false → ¬ (v.toJson = some x ∧ w.toJson = some x) := by
    intro v w h hx
    rw [Constant.eq_of_toJson hx.1 hx.2] at h
    cases h
  have hvalues : (field.values widen).Pairwise fun v w => v.eq w = false := pairwise_values
  rw [ChoiceField.values, List.pairwise_append, List.pairwise_map] at hvalues
  obtain ⟨hchoices, hextra, hboth⟩ := hvalues
  rw [branches, List.pairwise_append, List.pairwise_map, List.pairwise_map]
  refine ⟨hchoices.imp fun h => ?_, hextra.imp fun h => ?_, ?_⟩
  · rw [valid_labelled, valid_labelled]
    exact hne h
  · rw [valid_const, valid_const]
    exact hne h
  · intro s hs t ht
    obtain ⟨c, hc, rfl⟩ := List.mem_map.1 hs
    obtain ⟨value, hvalue, rfl⟩ := List.mem_map.1 ht
    rw [valid_labelled, valid_const]
    exact hne (hboth c.1 (List.mem_map_of_mem hc) value hvalue)

/-- What the schema accepts, in either of its forms. -/
theorem valid_choiceSchema {text : Constant → String} :
    Schema.valid Constant.toJson (choiceSchema text field widen) x = true ↔
      ∃ value ∈ field.values widen, value.toJson = some x := by
  have hshared : ∀ keyword : Schema Constant,
      (Schema.valid Constant.toJson keyword x = true ↔ ∃ value ∈ field.values widen,
        value.toJson = some x) →
      (Schema.valid Constant.toJson (.all (sharedType (field.values widen) ++ [keyword])) x = true ↔
        ∃ value ∈ field.values widen, value.toJson = some x) := by
    intro keyword hkeyword
    rw [Schema.valid_all, List.forall_mem_append, List.forall_mem_singleton, hkeyword]
    refine ⟨fun h => h.2, fun h => ⟨?_, h⟩⟩
    obtain ⟨value, hvalue, hx⟩ := h
    exact valid_sharedType hvalue hx
  rw [choiceSchema]
  split
  · refine hshared _ ?_
    simp only [Schema.valid_enum, Constant.isConstant_iff]
  · refine hshared _ ?_
    rw [← exists_branches_iff]
    exact Schema.valid_oneOf_iff_anyOf pairwise_branches

end

/-- A choice field's schema accepts what the field takes: its declared values, `""` and `null` where it is
widened to them, and nothing else. -/
theorem choiceSchema_accepts_iff (text : Constant → String) (field : ChoiceField) (widen : Bool)
    (x : Instance) :
    Schema.valid Constant.toJson (choiceSchema text field widen) x = true ↔ field.Takes widen x := by
  rw [valid_choiceSchema, exists_values_iff]

/-- Priorities: a number, a flag and a text, under labels of their own, with `""` allowed and `None`. -/
def priorities : ChoiceField where
  choices := [(.int 2, "Low"), (.bool true, "Flagged"), (.str "2", "As text")]
  distinct := by decide
  allowBlank := true
  allowNull := true

/-- `str` of a priority. -/
def priorityText : Constant → String
  | .int i => toString i
  | .bool b => if b then "True" else "False"
  | .str s => s
  | _ => "None"

/-- Each value is accepted as JSON writes it, with the two it is widened to, and `1` is not: the flag is
one key with it, and another value. -/
theorem choiceSchema_accepts_priorities :
    (∀ x ∈ [Instance.number 2, .bool true, .string "2", .string "", .null],
      Schema.valid Constant.toJson (choiceSchema priorityText priorities true) x = true) ∧
      ¬ Schema.valid Constant.toJson (choiceSchema priorityText priorities true) (.number 1) = true := by
  constructor
  · intro x hx
    rw [choiceSchema_accepts_iff, ChoiceField.Takes]
    simp only [List.mem_cons, List.not_mem_nil, or_false] at hx
    rcases hx with rfl | rfl | rfl | rfl | rfl <;> simp [priorities, Constant.toJson]
  · rw [choiceSchema_accepts_iff, ChoiceField.Takes]
    simp [priorities, Constant.toJson]

/-- What a multiple choice field's schema says of one item. -/
theorem valid_choiceSchema_item {text : Constant → String} {field : ChoiceField} {x : Instance} :
    Schema.valid Constant.toJson (choiceSchema text field false) x = true ↔
      ∃ c ∈ field.choices, c.1.toJson = some x := by
  rw [valid_choiceSchema, exists_values_iff, ChoiceField.Takes]
  simp

/-- The schema accepts distinct items that are declared. -/
theorem valid_multipleChoiceSchema {text : Constant → String} {field : MultipleChoiceField}
    {xs : List Instance} (hunique : Instance.Distinct xs) (hempty : field.allowEmpty = false → xs ≠ [])
    (hall : ∀ y ∈ xs, ∃ c ∈ field.choices, c.1.toJson = some y) :
    Schema.valid Constant.toJson (multipleChoiceSchema text field) (.array xs) = true := by
  rw [multipleChoiceSchema, Schema.valid_all, List.forall_mem_append]
  constructor
  · intro keyword hkeyword
    simp only [List.mem_cons, List.not_mem_nil, or_false] at hkeyword
    rcases hkeyword with rfl | rfl | rfl
    · rfl
    · exact Schema.valid_items.2 fun y hy => valid_choiceSchema_item.2 (hall y hy)
    · exact Schema.valid_uniqueItems.2 hunique
  · intro keyword hkeyword
    cases hallow : field.allowEmpty with
    | true =>
      rw [hallow] at hkeyword
      cases hkeyword
    | false =>
      rw [hallow] at hkeyword
      obtain rfl := List.mem_singleton.1 hkeyword
      exact Schema.valid_minItems.2 (List.length_pos_iff.2 (hempty hallow))

/-- A multiple choice field's schema accepts the arrays of declared values, none of them twice, and the
empty one where the field allows it. -/
theorem multipleChoiceSchema_accepts_iff (text : Constant → String) (field : MultipleChoiceField)
    (x : Instance) :
    Schema.valid Constant.toJson (multipleChoiceSchema text field) x = true ↔
      ∃ xs, x = .array xs ∧ Instance.Distinct xs ∧ (field.allowEmpty = false → xs ≠ []) ∧
        ∀ y ∈ xs, ∃ c ∈ field.choices, c.1.toJson = some y := by
  constructor
  · intro h
    rw [multipleChoiceSchema, Schema.valid_all, List.forall_mem_append] at h
    obtain ⟨h, hempty⟩ := h
    obtain ⟨xs, rfl⟩ := Schema.hasType_array.1 (by simpa using h (.type "array") (by simp))
    have hall := h (.items (choiceSchema text field.toChoiceField false)) (by simp)
    have hunique := h .uniqueItems (by simp)
    rw [Schema.valid_items] at hall
    rw [Schema.valid_uniqueItems] at hunique
    refine ⟨xs, rfl, hunique, fun hallow => ?_, fun y hy => valid_choiceSchema_item.1 (hall y hy)⟩
    rw [hallow] at hempty
    have hlen := hempty (.minItems 1) (by simp)
    rw [Schema.valid_minItems] at hlen
    exact List.length_pos_iff.1 hlen
  · rintro ⟨xs, rfl, hunique, hempty, hall⟩
    exact valid_multipleChoiceSchema hunique hempty hall

/-- Two of the priorities are an answer, one of them twice is none, and neither is none of them. -/
theorem multipleChoiceSchema_accepts_priorities :
    Schema.valid Constant.toJson (multipleChoiceSchema priorityText ⟨priorities, false⟩)
        (.array [.bool true, .number 2]) = true ∧
      ¬ Schema.valid Constant.toJson (multipleChoiceSchema priorityText ⟨priorities, false⟩)
        (.array [.number 2, .number 2]) = true ∧
      ¬ Schema.valid Constant.toJson (multipleChoiceSchema priorityText ⟨priorities, false⟩)
        (.array []) = true := by
  refine ⟨?_, ?_, ?_⟩
  · rw [multipleChoiceSchema_accepts_iff]
    refine ⟨_, rfl, by decide, fun _ => List.cons_ne_nil _ _, fun y hy => ?_⟩
    simp only [List.mem_cons, List.not_mem_nil, or_false] at hy
    rcases hy with rfl | rfl <;> simp [priorities, Constant.toJson]
  · rw [multipleChoiceSchema_accepts_iff]
    rintro ⟨xs, hxs, htwice, -⟩
    cases hxs
    exact absurd htwice (by decide)
  · rw [multipleChoiceSchema_accepts_iff]
    rintro ⟨xs, hxs, -, hempty, -⟩
    cases hxs
    exact hempty rfl rfl

end RestFrameworkServices.Choices
