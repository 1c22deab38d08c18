import RestFrameworkServices.JsonSchema.AffordanceSchema
import RestFrameworkServices.Serializers.Rendered
import RestFrameworkServices.Serializers.Surface
import RestFrameworkServices.Types.SelectorKind

/-!
# The JSON schema of an output

`serializer_to_schema` describes what a serializer renders, and `output_to_json_schema` what a result is answered as:
an item, an array or a page of them, with the answers to the affordances a spec declares, or null for a miss.

A schema says `type` of a field that may be null too, so it has no room for the null of such a field.
`output_schema_accepts_payload` says it accepts everything else that is answered of fields that write what their
classes do (`Native`), wherever the walk stops.
-/

namespace RestFrameworkServices.Rendered

open Lib Choices AffordanceSchemas
open Affordances (Operations Row answers)

universe u v

variable {C : Type u} {S : Type v}

/-! ## What it describes -/

/-- `_DRF_FIELD_TO_SCHEMA`: a class, and the `type` and the `format` of its schema. -/
def drfFieldToSchema : List (String × Option String × Option String) := [
  ("BooleanField", some "boolean", none),
  ("IntegerField", some "integer", none),
  ("FloatField", some "number", none),
  ("DecimalField", some "string", some "decimal"),
  ("DateTimeField", some "string", some "date-time"),
  ("DateField", some "string", some "date"),
  ("TimeField", some "string", some "time"),
  ("UUIDField", some "string", some "uuid"),
  ("EmailField", some "string", some "email"),
  ("URLField", some "string", some "uri"),
  ("IPAddressField", some "string", none),
  ("JSONField", none, none),
  ("CharField", some "string", none)]

/-- The schema of a `type` and a `format`. -/
def typed (type format : Option String) : Lib.Schema Constant :=
  .all ((type.map .type).toList ++ (format.map (.note "format")).toList)

/-- The schema of a field of another class. -/
def scalarSchema (classes : List String) : Lib.Schema Constant :=
  match firstOf drfFieldToSchema classes with
  | none => .any
  | some (type, format) => typed type format

/-- A property: the schema of the field, its label and its help. -/
def Field.property (f : Field S) (schema : Lib.Schema Constant) : Lib.Schema Constant :=
  .all (schema :: ((f.label.map (.note "title")).toList ++ (f.helpText.map (.note "description")).toList))

/-- The schema of an object, before it is written: its properties, where it has any keys of its own, and those
that are required. -/
structure ObjectSchema where
  properties : Option (Dict String (Lib.Schema Constant))
  required : List String

/-- The schema written, of an object or, where it is nullable, of null. -/
def ObjectSchema.write (object : ObjectSchema) (nullable : Bool) : Lib.Schema Constant :=
  .all ((if nullable then .anyOf [.type "object", .type "null"] else .type "object") ::
    ((object.properties.map fun properties => .properties properties.entries).toList ++
      if object.required.isEmpty then [] else [.required object.required]))

/-- The schema of an array. -/
def arraySchema (items : Lib.Schema Constant) : Lib.Schema Constant := .all [.type "array", .items items]

section
variable [DecidableEq C] (G : Serializers C S)

/-- The schema's walk stops at a serializer. -/
def Serializers.Stops (maxDepth : Option ℤ) (path : List C) (s : S) : Prop :=
  Exhausted path (G.cls s) ∨ Declarations.Beyond maxDepth path.length

instance (maxDepth : Option ℤ) (path : List C) (s : S) : Decidable (G.Stops maxDepth path s) :=
  inferInstanceAs (Decidable (_ ∨ _))

variable (text : Constant → String) (maxDepth : Option ℤ)

mutual

/-- `serializer_to_schema` for output, before it is written, where `text` is `str`. -/
def itemSchema [Fintype C] (path : List C) (s : S) : ObjectSchema :=
  if _hstops : G.Stops maxDepth path s then ⟨none, []⟩
  else
    { properties := some ((G.fields s).filterMap fun _ f =>
        if f.writeOnly then none else some (f.property (fieldToSchema (path ++ [G.cls s]) f.kind)))
      required := ((G.rendered s).filter fun e => e.2.alwaysRendered).map (·.1) }
termination_by (budget path, 0)
decreasing_by
  exact Prod.Lex.left _ _ (budget_lt fun hexhausted => _hstops (.inl hexhausted))

/-- `field_to_schema`. -/
def fieldToSchema [Fintype C] (path : List C) : Kind S → Lib.Schema Constant
  | .scalar classes => scalarSchema classes
  | .choice field => choiceSchema text field true
  | .multipleChoice field => multipleChoiceSchema text field
  | .manyRelated => .any
  | .list child _ => arraySchema (fieldToSchema path child)
  | .many s _ => arraySchema ((itemSchema path s).write false)
  | .nested s => (itemSchema path s).write false
termination_by kind => (budget path, sizeOf kind)

end

/-- `serializer_to_schema` for output. -/
def serializerToSchema [Fintype C] (path : List C) (s : S) : Lib.Schema Constant :=
  (itemSchema G text maxDepth path s).write false

end

/-- The item's schema with the schema of the answers to the affordances declared, where any are. -/
def ObjectSchema.answering (item : ObjectSchema) : Option (Lib.Schema Constant) → ObjectSchema
  | none => item
  | some answers =>
    { properties := some ((item.properties.getD .empty).set "affordances" answers)
      required := item.required ++ ["affordances"] }

/-- The schema of a page of items. -/
def pageSchema (items : Lib.Schema Constant) : Lib.Schema Constant := .all [
  .type "object",
  .properties [("items", items), ("page", .type "integer"), ("totalPages", .type "integer"),
    ("hasNext", .type "boolean")],
  .required ["items", "page", "totalPages", "hasNext"]]

/-- `output_to_json_schema`, of a serializer and no projection. -/
def outputToJsonSchema [DecidableEq C] [Fintype C] (G : Serializers C S) (text : Constant → String)
    (maxDepth : Option ℤ) (s : S) (kind : Option SelectorKind) (paginate : Bool)
    (affordances : Option Operations) (allowNone : Bool) : Lib.Schema Constant :=
  let item := (itemSchema G text maxDepth [] s).answering (affordances.map answersSchema)
  if kind ≠ some .list then item.write allowNone
  else if paginate then pageSchema (arraySchema (item.write false))
  else arraySchema (item.write false)

/-! ## The schema of what is rendered -/

/-- The schema of a field leaves room for null. -/
def Kind.admitsNull : Kind S → Bool
  | .scalar classes => match firstOf drfFieldToSchema classes with
    | none | some (none, _) => true
    | some (some _, _) => false
  | .choice field => field.allowNull || field.declares .none
  | .manyRelated => true
  | .multipleChoice _ | .list .. | .many .. | .nested _ => false

/-- Null is written for a field that allows it, and whose schema leaves room for it. -/
def HasRoom (allowNull : Bool) (kind : Kind S) : Prop := allowNull = true ∧ kind.admitsNull = true

/-- What a schema notes, where it notes anything, says nothing of a value. -/
theorem valid_of_mem_note {key : String} {text : Option String} {keyword : Lib.Schema Constant} {x : Instance}
    (h : keyword ∈ (text.map (.note key)).toList) : Lib.Schema.valid Constant.toJson keyword x = true := by
  obtain ⟨_, -, rfl⟩ := Option.map_eq_some_iff.1 (Option.mem_toList.1 h)
  exact Schema.valid_note

/-- A schema of a `type` and a `format` accepts what is of the type. -/
theorem valid_typed {type format : Option String} {x : Instance}
    (h : ∀ t, type = some t → Instance.hasType t x = true) :
    Lib.Schema.valid Constant.toJson (typed type format) x = true := by
  rw [typed, Schema.valid_all]
  intro keyword hkeyword
  rcases List.mem_append.1 hkeyword with htype | hformat
  · obtain ⟨t, ht, rfl⟩ := Option.map_eq_some_iff.1 (Option.mem_toList.1 htype)
    rw [Schema.valid_type]
    exact h t ht
  · exact valid_of_mem_note hformat

/-- The schema written of an object says of a value its type, and of an object its properties and the keys it
requires. -/
theorem valid_write {object : ObjectSchema} {nullable : Bool} {x : Instance} :
    Lib.Schema.valid Constant.toJson (object.write nullable) x = true ↔
      (Instance.hasType "object" x = true ∨ nullable = true ∧ Instance.hasType "null" x = true) ∧
      (∀ properties, object.properties = some properties →
        Lib.Schema.valid Constant.toJson (.properties properties.entries) x = true) ∧
      Lib.Schema.valid Constant.toJson (.required object.required) x = true := by
  have htype : Lib.Schema.valid Constant.toJson
      (if nullable then .anyOf [.type "object", .type "null"] else .type "object") x = true ↔
        Instance.hasType "object" x = true ∨ nullable = true ∧ Instance.hasType "null" x = true := by
    cases nullable <;> simp
  have hrequired : (∀ keyword ∈ (if object.required.isEmpty then [] else [Lib.Schema.required object.required]),
      Lib.Schema.valid Constant.toJson keyword x = true) ↔
        Lib.Schema.valid Constant.toJson (.required object.required) x = true := by
    cases hempty : object.required with
    | nil => cases x <;> simp [Lib.Schema.valid]
    | cons => simp
  rw [ObjectSchema.write, Schema.valid_all, List.forall_mem_cons, htype, List.forall_mem_append, hrequired]
  simp only [Option.mem_toList, Option.map_eq_some_iff, forall_exists_index, and_imp]
  refine and_congr_right fun _ => and_congr_left fun _ => ?_
  exact ⟨fun h properties hproperties => h _ properties hproperties rfl, fun h _ properties hproperties heq =>
    heq ▸ h properties hproperties⟩

section
variable [DecidableEq C] {G : Serializers C S} {writes : List String → Instance → Prop}

/-- An array's schema accepts an array of items its own accept. -/
theorem valid_array {schema : Lib.Schema Constant} {xs : List Instance}
    (h : ∀ y ∈ xs, Lib.Schema.valid Constant.toJson schema y = true) :
    Lib.Schema.valid Constant.toJson (arraySchema schema) (.array xs) = true := by
  rw [arraySchema, Schema.valid_all, List.forall_mem_cons, List.forall_mem_singleton, Schema.valid_items]
  exact ⟨rfl, h⟩

/-- A label and a help say nothing of a value. -/
theorem valid_property {f : Field S} {schema : Lib.Schema Constant} {x : Instance}
    (h : Lib.Schema.valid Constant.toJson schema x = true) :
    Lib.Schema.valid Constant.toJson (f.property schema) x = true := by
  rw [Field.property, Schema.valid_all, List.forall_mem_cons]
  refine ⟨h, fun keyword hkeyword => ?_⟩
  rcases List.mem_append.1 hkeyword with htitle | hdescription
  · exact valid_of_mem_note htitle
  · exact valid_of_mem_note hdescription

/-- A schema accepts an object its properties accept the members of, with the required ones there. -/
structure ObjectSchema.Accepts (object : ObjectSchema) (ms : List (String × Instance)) : Prop where
  properties : ∀ properties, object.properties = some properties → ∀ name schema,
    properties.get? name = some schema → ∀ x, ms.lookup name = some x →
      Lib.Schema.valid Constant.toJson schema x = true
  required : ∀ name ∈ object.required, (ms.lookup name).isSome = true

/-- What an object's properties accept, its schema does. -/
theorem ObjectSchema.Accepts.valid {object : ObjectSchema} {ms : List (String × Instance)}
    (h : object.Accepts ms) (nullable : Bool) :
    Lib.Schema.valid Constant.toJson (object.write nullable) (.object ms) = true := by
  refine valid_write.2 ⟨.inl rfl, fun properties hproperties => ?_, Schema.valid_required.2 h.required⟩
  refine Schema.valid_properties.2 fun e he x hx => ?_
  exact h.properties properties hproperties e.1 e.2 (Dict.get?_eq_some.2 he) x hx

/-- A scalar's schema accepts what its native fields write. -/
theorem valid_scalarSchema (hnative : Native writes) {classes : List String} {x : Instance}
    (h : writes classes x) : Lib.Schema.valid Constant.toJson (scalarSchema classes) x = true := by
  rw [scalarSchema]
  split
  · exact Schema.valid_any
  · next type format hfirst =>
    have htable : ∀ e ∈ drfFieldToSchema, ∀ t, e.2.1 = some t → (e.1, t) ∈ native := by decide
    exact valid_typed fun t ht => hnative.hasType htable h hfirst ht

variable [Fintype C] (text : Constant → String) (maxDepth : Option ℤ)

/-- A schema with room for null accepts it. -/
theorem valid_null {path : List C} {kind : Kind S} (h : kind.admitsNull = true) :
    Lib.Schema.valid Constant.toJson (fieldToSchema G text maxDepth path kind) .null = true := by
  cases kind with
  | scalar classes =>
    rw [fieldToSchema, scalarSchema]
    rw [Kind.admitsNull] at h
    cases hfirst : firstOf drfFieldToSchema classes with
    | none => exact Schema.valid_any
    | some e =>
      obtain ⟨type, format⟩ := e
      rw [hfirst] at h
      cases type with
      | none => exact valid_typed nofun
      | some t => cases h
  | choice field =>
    rw [fieldToSchema, valid_choiceSchema, exists_values_iff]
    rw [Kind.admitsNull, Bool.or_eq_true] at h
    rcases h with hnull | hdeclared
    · exact .inr ⟨rfl, .inr ⟨hnull, rfl⟩⟩
    · obtain ⟨c, hc, hnone⟩ := (declares_iff rfl).1 hdeclared
      exact .inl ⟨c, hc, by rw [hnone]; rfl⟩
  | manyRelated =>
    rw [fieldToSchema]
    exact Schema.valid_any
  | multipleChoice | list | many | nested => cases h

/-- What a field writes, its schema accepts, where the schemas of serializers accept their rows. -/
theorem valid_fieldToSchema (hnative : Native writes) {path : List C}
    (hrow : ∀ s ms, RendersRow G writes HasRoom (G.fields s).entries ms →
      (itemSchema G text maxDepth path s).Accepts ms)
    {kind : Kind S} : ∀ {x : Instance}, Renders G writes HasRoom kind x →
      Lib.Schema.valid Constant.toJson (fieldToSchema G text maxDepth path kind) x = true := by
  induction kind with
  | scalar classes =>
    rintro x (h | _)
    rw [fieldToSchema]
    exact valid_scalarSchema hnative h
  | choice field =>
    intro x h
    rw [fieldToSchema, valid_choiceSchema, exists_values_iff]
    cases h with
    | choice hc hx _ => exact .inl ⟨_, hc, hx⟩
    | blank hblank => exact .inr ⟨rfl, .inl ⟨hblank, rfl⟩⟩
  | multipleChoice field =>
    intro x h
    rw [fieldToSchema]
    cases h with
    | multipleChoice hitems hdistinct hempty =>
      refine valid_multipleChoiceSchema hdistinct (fun hallow => ?_) hitems
      rw [hallow] at hempty
      exact hempty.resolve_left Bool.false_ne_true
  | manyRelated =>
    intro x h
    rw [fieldToSchema]
    exact Schema.valid_any
  | list child allowNull ih =>
    intro x h
    rw [fieldToSchema]
    cases h with
    | list hitems =>
      refine valid_array fun y hy => ?_
      rcases hitems.mem y hy with hy | ⟨rfl, -, hnull⟩
      · exact ih hy
      · exact valid_null text maxDepth hnull
  | many s allowNull =>
    intro x h
    rw [fieldToSchema]
    cases h with
    | many hrows =>
      refine valid_array fun y hy => ?_
      obtain ⟨ms, hms, rfl⟩ := List.mem_map.1 hy
      exact (hrow s ms (hrows ms hms)).valid false
  | nested s =>
    intro x h
    rw [fieldToSchema]
    cases h with
    | nested h => exact (hrow s _ h).valid false

/-- A serializer's schema accepts what DRF renders of a row, at whatever depth the walk stops. -/
theorem accepts_itemSchema (hnative : Native writes) (path : List C) (s : S) :
    ∀ ms, RendersRow G writes HasRoom (G.fields s).entries ms →
      (itemSchema G text maxDepth path s).Accepts ms := by
  refine walk_induction (motive := fun path s => ∀ ms, RendersRow G writes HasRoom (G.fields s).entries ms →
    (itemSchema G text maxDepth path s).Accepts ms) G ?_ path s
  intro path s ih ms h
  rw [itemSchema]
  split
  · exact ⟨nofun, nofun⟩
  · next hstops =>
    have hbelow := ih fun hexhausted => hstops (.inl hexhausted)
    have hholds := h.holds_rendered
    constructor
    · rintro properties ⟨⟩ name schema hschema x hx
      rw [Dict.get?_filterMap, Option.bind_eq_some_iff] at hschema
      obtain ⟨f, hf, hschema⟩ := hschema
      split at hschema
      · cases hschema
      next hread =>
      cases hschema
      have hvalue := hholds (name, f) (List.mem_filter.2 ⟨Dict.get?_eq_some.1 hf, by simpa using hread⟩)
      rw [hx] at hvalue
      refine valid_property ?_
      rcases hvalue with hvalue | ⟨rfl, -, hnull⟩
      · exact valid_fieldToSchema text maxDepth hnative hbelow hvalue
      · exact valid_null text maxDepth hnull
    · intro name hname
      obtain ⟨e, he, rfl⟩ := List.mem_map.1 hname
      obtain ⟨he, halways⟩ := List.mem_filter.1 he
      cases hvalue : ms.lookup e.1 with
      | some x => rfl
      | none =>
        have hskip := hholds e he
        rw [hvalue, Holds] at hskip
        rw [hskip] at halways
        cases halways

end

/-! ## The schema of a result -/

section
variable (G : Serializers C S) (writes : List String → Instance → Prop) (s : S)
  (affordances : Option Operations)

/-- An item of a result: what is rendered of a row, and where affordances are declared, the row's answers, under a
key the item has none of. -/
inductive Item : Instance → Prop
  | plain {ms} (hnone : affordances = none) (h : RendersRow G writes HasRoom (G.fields s).entries ms) :
    Item (.object ms)
  | answered {operations ms row values members} (hsome : affordances = some operations)
    (h : RendersRow G writes HasRoom (G.fields s).entries ms) (hfree : "affordances" ∉ keysOf ms)
    (hanswers : answers row operations.entries = .ok values) (hjson : toJsonMembers values = some members) :
    Item (.object (ms ++ [("affordances", .object members)]))

/-- What a result is answered as: an item, null for a row there is none of, a list of items, or a page of them. -/
inductive Payload (kind : Option SelectorKind) (paginate allowNone : Bool) : Instance → Prop
  | item {x} (hkind : kind ≠ some .list) (h : Item G writes s affordances x) : Payload kind paginate allowNone x
  | nothing (hkind : kind ≠ some .list) (hnone : allowNone = true) : Payload kind paginate allowNone .null
  | list {xs} (hkind : kind = some .list) (hplain : paginate = false)
    (h : ∀ x ∈ xs, Item G writes s affordances x) : Payload kind paginate allowNone (.array xs)
  | page {xs} (hkind : kind = some .list) (hpage : paginate = true)
    (h : ∀ x ∈ xs, Item G writes s affordances x) (page totalPages : ℤ) (hasNext : Bool) :
    Payload kind paginate allowNone (.object [("items", .array xs), ("page", .number page),
      ("totalPages", .number totalPages), ("hasNext", .bool hasNext)])

end

/-- The answers' schema, beside an item's, accepts the item with its answers. -/
theorem ObjectSchema.Accepts.answering {object : ObjectSchema} {ms : List (String × Instance)}
    (h : object.Accepts ms) {schema : Lib.Schema Constant} {answers : Instance}
    (hfree : "affordances" ∉ keysOf ms) (hanswers : Lib.Schema.valid Constant.toJson schema answers = true) :
    (object.answering (some schema)).Accepts (ms ++ [("affordances", answers)]) := by
  have hlookup : ∀ name, (ms ++ [("affordances", answers)]).lookup name =
      (ms.lookup name).or (if name = "affordances" then some answers else none) := by
    intro name
    rw [List.lookup_append, lookup_cons_ite]
    rfl
  have hanswer : (ms ++ [("affordances", answers)]).lookup "affordances" = some answers := by
    rw [hlookup, lookup_eq_none_iff_notMem.2 hfree]
    rfl
  constructor
  · rintro properties ⟨⟩ name keyword hkeyword x hx
    rw [Dict.get?_set] at hkeyword
    by_cases hname : name = "affordances"
    · subst hname
      rw [hanswer] at hx
      rw [if_pos rfl] at hkeyword
      cases hx
      cases hkeyword
      exact hanswers
    · rw [if_neg hname] at hkeyword
      rw [hlookup, if_neg hname, Option.or_none] at hx
      cases hproperties : object.properties with
      | none => rw [hproperties] at hkeyword; cases hkeyword
      | some properties =>
        rw [hproperties] at hkeyword
        exact h.properties properties hproperties name keyword hkeyword x hx
  · intro name hname
    rcases List.mem_append.1 hname with hrequired | hname
    · rw [hlookup, Option.isSome_or, h.required name hrequired, Bool.true_or]
    · obtain rfl := List.mem_singleton.1 hname
      rw [hanswer]
      rfl

/-- An object's schema accepts null where it is nullable, whatever it says of objects. -/
theorem valid_write_null (object : ObjectSchema) {nullable : Bool} :
    Lib.Schema.valid Constant.toJson (object.write nullable) .null = true ↔ nullable = true := by
  rw [valid_write]
  simp [Instance.hasType, Lib.Schema.valid]

/-- A page's schema accepts a page of what its items' accept. -/
theorem valid_page {schema : Lib.Schema Constant} {items : Instance}
    (h : Lib.Schema.valid Constant.toJson schema items = true) (page totalPages : ℤ) (hasNext : Bool) :
    Lib.Schema.valid Constant.toJson (pageSchema schema) (.object [("items", items), ("page", .number page),
      ("totalPages", .number totalPages), ("hasNext", .bool hasNext)]) = true := by
  have hint : ∀ i : ℤ, (i : ℚ).isInt = true := fun _ => rfl
  simp [pageSchema, Instance.hasType, lookup_cons_ite, h, hint]

section
variable [DecidableEq C] [Fintype C] {G : Serializers C S} {writes : List String → Instance → Prop} {s : S}
  {affordances : Option Operations}

/-- An item's schema accepts the item. -/
theorem valid_item (hnative : Native writes) (text : Constant → String) (maxDepth : Option ℤ) (nullable : Bool)
    {x : Instance} (h : Item G writes s affordances x) :
    Lib.Schema.valid Constant.toJson
      (((itemSchema G text maxDepth [] s).answering (affordances.map answersSchema)).write nullable) x = true := by
  cases h with
  | plain hnone h =>
    subst hnone
    exact (accepts_itemSchema text maxDepth hnative [] s _ h).valid nullable
  | answered hsome h hfree hanswers hjson =>
    subst hsome
    obtain ⟨members, hmembers, hvalid⟩ := valid_answers hanswers
    rw [hjson] at hmembers
    cases hmembers
    exact ((accepts_itemSchema text maxDepth hnative [] s _ h).answering hfree hvalid).valid nullable

/-- **The output schema of a serializer accepts every result answered through it**: at whatever depth the walk
stops, of one row, a list or a page of them, with their affordances answered, where no null is written for a field
whose own schema has no room for one; and it accepts null exactly where a miss is presented. -/
theorem output_schema_accepts_payload (hnative : Native writes) (text : Constant → String) (maxDepth : Option ℤ)
    (kind : Option SelectorKind) (paginate allowNone : Bool) :
    (∀ x, Payload G writes s affordances kind paginate allowNone x → Lib.Schema.valid Constant.toJson
        (outputToJsonSchema G text maxDepth s kind paginate affordances allowNone) x = true) ∧
      (Lib.Schema.valid Constant.toJson
        (outputToJsonSchema G text maxDepth s kind paginate affordances allowNone) .null = true ↔
          kind ≠ some .list ∧ allowNone = true) := by
  have hitem : ∀ nullable x, Item G writes s affordances x → Lib.Schema.valid Constant.toJson
      (((itemSchema G text maxDepth [] s).answering (affordances.map answersSchema)).write nullable) x = true :=
    fun nullable x h => valid_item hnative text maxDepth nullable h
  rw [outputToJsonSchema]
  split
  · next hkind =>
    refine ⟨fun x h => ?_, ?_⟩
    · cases h with
      | item _ h => exact hitem allowNone _ h
      | nothing _ hnone => exact (valid_write_null _).2 hnone
      | list hlist | page hlist => exact absurd hlist hkind
    · rw [valid_write_null]
      exact (and_iff_right hkind).symm
  · next hkind =>
    have hlist : ¬ (kind ≠ some .list ∧ allowNone = true) := fun h => hkind h.1
    split
    · next hpaginate =>
      refine ⟨fun x h => ?_, ⟨fun h => ?_, fun h => absurd h hlist⟩⟩
      · cases h with
        | item h | nothing h => exact absurd h hkind
        | list _ hplain => rw [hpaginate] at hplain; cases hplain
        | page _ _ h page totalPages hasNext =>
          exact valid_page (valid_array fun x hx => hitem false x (h x hx)) page totalPages hasNext
      · have htype := Schema.valid_all.1 h (.type "object") List.mem_cons_self
        simp [Instance.hasType] at htype
    · next hpaginate =>
      refine ⟨fun x h => ?_, ⟨fun h => ?_, fun h => absurd h hlist⟩⟩
      · cases h with
        | item h | nothing h => exact absurd h hkind
        | list _ _ h => exact valid_array fun x hx => hitem false x (h x hx)
        | page _ hpage => exact absurd hpage hpaginate
      · have htype := Schema.valid_all.1 h (.type "array") List.mem_cons_self
        simp [Instance.hasType] at htype

end

/-- An order may be refunded once it is paid. -/
def refunds : Operations := .ofList [("refund", [⟨"unpaid", "Not paid yet."⟩])]

/-- The row of an order that is not paid. -/
def unpaidRow : Row := .object fun name => if name = "affordance__refund__unpaid" then some (.bool false) else none

/-- A page of one order, which may not be refunded. -/
theorem output_schema_accepts_payload_order : Lib.Schema.valid Constant.toJson
    (outputToJsonSchema orders (fun _ => "") (some 2) .order (some .list) true (some refunds) false)
    (.object [("items", .array [.object (renderedOrder (.string "gift") ++ [("affordances", .object [("refund",
        .object [("available", .bool false), ("code", .string "unpaid"), ("reason", .string "Not paid yet.")])])])]),
      ("page", .number (1 : ℤ)), ("totalPages", .number (1 : ℤ)), ("hasNext", .bool false)]) = true := by
  have hanswers : answers unpaidRow refunds.entries =
      .ok [("refund", Affordances.refused ⟨"unpaid", "Not paid yet."⟩)] := rfl
  have hitem : Item orders anyNative .order (some refunds) (.object (renderedOrder (.string "gift") ++
      [("affordances", .object [("refund", .object [("available", .bool false), ("code", .string "unpaid"),
        ("reason", .string "Not paid yet.")])])])) :=
    .answered rfl (rendersRow_order (.inr ⟨_, rfl⟩)) (by decide) hanswers rfl
  refine (output_schema_accepts_payload (fun _ _ h => h) _ _ _ _ _).1 _ (.page rfl rfl ?_ 1 1 false)
  intro x hx
  obtain rfl := List.mem_singleton.1 hx
  exact hitem

end RestFrameworkServices.Rendered
