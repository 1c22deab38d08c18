import RestFrameworkServices.Serializers.Graph

/-!
# The surface of an input serializer

Two walks describe what an input serializer takes: `serializer_to_schema` as a JSON schema
(`schemaWalk`) and `input_parameters` as the kernel's Parameters (`parametersWalk`). Both carry the
classes on their path and stop at a class that is exhausted there, the schema before it reads the
serializer and the parameters before they nest it; the schema stops at `max_depth` too. They unwrap
lists differently: the parameters stop at a list whose element is a list.

`Lockstep` relates the two results wherever both describe a node. `schema_parameters_lockstep` is
the induction over the two walks, and `schema_parameters_one_surface` collects it with their
termination and with the bound on a class's appearances (`SchemaBounded`, `DeclaredBounded`).
Registry rules and schema overrides are left out: the walks are those of a declaration with none.
-/

namespace RestFrameworkServices

open Lib

universe u v

variable {C : Type u} {S : Type v}

/-! ## The JSON schema -/

/-- What a schema says of a property beside its shape. -/
structure Notes where
  default : Option Value
  title : Option String
  description : Option String

/-- A JSON schema. An object's and a truncated object's keep the serializer they are of. -/
inductive Schema (S : Type v) where
  | leaf (kind : String)
  | array (items : Schema S)
  | truncated (s : S)
  | object (s : S) (properties : List (String × Notes × Schema S)) (required : List String)

mutual

/-- `_is_json_native`: the value survives a JSON round trip as itself. -/
def Value.isJsonNative : Value → Bool
  | .null | .bool _ | .int _ | .str _ => true
  | .list items => Value.allJsonNative items
  | .mapping _ entries => Value.entriesJsonNative entries
  | .dataclass _ => false
  | .object type _ => type == "float"

/-- Every item of a list is. -/
def Value.allJsonNative : List Value → Bool
  | [] => true
  | item :: items => item.isJsonNative && Value.allJsonNative items

/-- Every value of a mapping is. -/
def Value.entriesJsonNative : List (String × Value) → Bool
  | [] => true
  | (_, value) :: entries => value.isJsonNative && Value.entriesJsonNative entries

end

namespace DeclaredField

variable (f : DeclaredField S)

/-- `_publishable_default`. -/
def publishableDefault : Option Value :=
  match f.default with
  | .value value => if value.isJsonNative then some value else none
  | _ => none

/-- `literal_default`. -/
def literalDefault : Option Value :=
  match f.default with
  | .value value => some value
  | _ => none

/-- `_always_rendered`. -/
def alwaysRendered : Bool :=
  f.required || (match f.default with | .empty => false | _ => true) || f.allowNull

/-- The walk of the schema reads the field, in its direction. -/
def inSchema (forOutput : Bool) : Bool := if forOutput then !f.writeOnly else !f.readOnly

/-- The schema names the field in `required`, in its direction. -/
def inRequired (forOutput : Bool) : Bool := if forOutput then f.alwaysRendered else f.required

/-- What the schema says of the field beside its shape. -/
def notes (forOutput : Bool) : Notes where
  default := if forOutput then none else f.publishableDefault
  title := f.label
  description := f.helpText

/-- `is_input`: a caller's value for the field reaches the serializer. -/
def isInput : Bool := !(f.readOnly || f.hidden)

end DeclaredField

/-- `field_to_schema`, over what describes a serializer. -/
def shapeSchema (describe : S → Option (Schema S)) : Shape S → Option (Schema S)
  | .leaf kind => some (.leaf kind)
  | .dict _ => some (.leaf "DictField")
  | .list child => (shapeSchema describe child).map .array
  | .many s => (describe s).map .array
  | .nested s => describe s

/-- A shape is described where the serializers in it are. -/
theorem isSome_shapeSchema {describe : S → Option (Schema S)} : ∀ {shape : Shape S},
    (shapeSchema describe shape).isSome ↔ ∀ s ∈ shape.serializers, (describe s).isSome
  | .leaf _ | .dict _ => by simp [shapeSchema, Shape.serializers]
  | .list child => by
    have ih : (shapeSchema describe child).isSome ↔ _ := isSome_shapeSchema
    simpa [shapeSchema, Shape.serializers] using ih
  | .many _ | .nested _ => by simp [shapeSchema, Shape.serializers]

/-- What more is described leaves a description as it is. -/
theorem shapeSchema_mono {f g : S → Option (Schema S)} (h : Extends f g) :
    ∀ {shape : Shape S} {x : Schema S}, shapeSchema f shape = some x →
      shapeSchema g shape = some x
  | .leaf _, _, hx | .dict _, _, hx => hx
  | .list child, x, hx => by
    simp only [shapeSchema, Option.map_eq_some_iff] at hx ⊢
    obtain ⟨y, hy, rfl⟩ := hx
    exact ⟨y, shapeSchema_mono h hy, rfl⟩
  | .many s, x, hx => by
    simp only [shapeSchema, Option.map_eq_some_iff] at hx ⊢
    obtain ⟨y, hy, rfl⟩ := hx
    exact ⟨y, h _ _ hy, rfl⟩
  | .nested _, _, hx => h _ _ hx

namespace Declarations

variable [DecidableEq C] (G : Declarations C S)

/-- `beyond_bound`: the path is as long as `max_depth` allows. -/
def Beyond (maxDepth : Option ℤ) (depth : ℕ) : Prop :=
  match maxDepth with
  | some bound => bound ≤ (depth : ℤ)
  | none => False

instance (maxDepth : Option ℤ) (depth : ℕ) : Decidable (Beyond maxDepth depth) := by
  unfold Beyond; cases maxDepth <;> infer_instance

/-- The fields of a serializer the schema describes. -/
def schemaFields (forOutput : Bool) (s : S) : List (String × DeclaredField S) :=
  (G.fields s).entries.filter fun e => e.2.inSchema forOutput

/-- The schema's walk stops at a serializer. -/
def Stops (maxDepth : Option ℤ) (path : List C) (s : S) : Prop :=
  Exhausted path (G.cls s) ∨ Beyond maxDepth path.length

instance (maxDepth : Option ℤ) (path : List C) (s : S) : Decidable (G.Stops maxDepth path s) :=
  inferInstanceAs (Decidable (_ ∨ _))

/-- One property of the schema, over what describes a serializer. -/
def property (forOutput : Bool) (describe : S → Option (Schema S))
    (e : String × DeclaredField S) : Option (String × Notes × Schema S) :=
  (shapeSchema describe e.2.shape).map fun schema => (e.1, e.2.notes forOutput, schema)

/-- `serializer_to_schema` of a serializer on a path, over what describes further ones. -/
def schemaStep (forOutput : Bool) (maxDepth : Option ℤ)
    (describe : List C × S → Option (Schema S)) (a : List C × S) : Option (Schema S) :=
  if G.Stops maxDepth a.1 a.2 then some (.truncated a.2)
  else
    ((G.schemaFields forOutput a.2).mapM
      (property forOutput fun s => describe (a.1 ++ [G.cls a.2], s))).map fun properties =>
        .object a.2 properties
          (((G.schemaFields forOutput a.2).filter fun e => e.2.inRequired forOutput).map (·.1))

/-- The serializers nested in a list of fields, on the path below a serializer. -/
def below (path : List C) (s : S) (fields : List (String × DeclaredField S)) :
    List (List C × S) :=
  fields.flatMap fun e => e.2.shape.serializers.map fun t => (path ++ [G.cls s], t)

omit [DecidableEq C] in
/-- The schema goes on at the serializers of the fields. -/
theorem mem_below {path : List C} {s : S} {fields : List (String × DeclaredField S)}
    {a : List C × S} : a ∈ G.below path s fields ↔
      ∃ e ∈ fields, ∃ t ∈ e.2.shape.serializers, (path ++ [G.cls s], t) = a := by
  simp [below, List.mem_flatMap, List.mem_map]

/-- A property is described alike over what describes more. -/
theorem property_mono {forOutput : Bool} {f g : S → Option (Schema S)} (h : Extends f g)
    {e : String × DeclaredField S} {x : String × Notes × Schema S}
    (hx : property forOutput f e = some x) : property forOutput g e = some x := by
  simp only [property, Option.map_eq_some_iff] at hx ⊢
  obtain ⟨y, hy, rfl⟩ := hx
  exact ⟨y, shapeSchema_mono h hy, rfl⟩

/-- `serializer_to_schema`, as a walk over serializers and the paths to them. -/
def schemaWalk (forOutput : Bool) (maxDepth : Option ℤ) : Walk (List C × S) (Schema S) where
  step := G.schemaStep forOutput maxDepth
  demand _ a :=
    if G.Stops maxDepth a.1 a.2 then [] else G.below a.1 a.2 (G.schemaFields forOutput a.2)
  isSome_step f a := by
    by_cases h : G.Stops maxDepth a.1 a.2
    · simp [schemaStep, h]
    · simp only [schemaStep, h, if_false, Option.isSome_map, isSome_mapM, property,
        isSome_shapeSchema, mem_below]
      constructor
      · rintro hall c ⟨e, he, t, ht, rfl⟩
        exact hall e he t ht
      · intro hall e he t ht
        exact hall _ ⟨e, he, t, ht, rfl⟩
  step_mono {f g a x} hfg hx := by
    unfold schemaStep at hx ⊢
    split at hx
    · next h => rwa [if_pos h]
    · next h =>
      rw [if_neg h]
      obtain ⟨properties, hp, rfl⟩ := Option.map_eq_some_iff.1 hx
      rw [mapM_mono (fun e _ y hy => property_mono (fun s b hb => hfg _ _ hb) hy) hp]
      rfl
  demand_mono _ := fun _ h => h
  demand_stable _ _ := fun _ h => h

/-- `serializer_to_schema`, with fuel. -/
def serializerToSchema (forOutput : Bool) (maxDepth : Option ℤ) (n : ℕ) (s : S) :
    Option (Schema S) :=
  (G.schemaWalk forOutput maxDepth).run n ([], s)

/-- Over finitely many classes the schema's walk ends, since every class it nests takes up room on
the path. -/
theorem isSome_schemaWalk [Fintype C] (forOutput : Bool) (maxDepth : Option ℤ) {n : ℕ}
    {a : List C × S} (h : budget a.1 < n) :
    ((G.schemaWalk forOutput maxDepth).run n a).isSome := by
  refine (G.schemaWalk forOutput maxDepth).isSome_run_of_measure (fun a => budget a.1) ?_ h
  intro _ a c hc
  simp only [schemaWalk] at hc
  split at hc
  · cases hc
  · next hstop =>
    obtain ⟨e, -, t, -, rfl⟩ := G.mem_below.1 hc
    exact budget_lt fun hex => hstop (.inl hex)

end Declarations

/-! ## The kernel's Parameters -/

/-- What a Parameter says beside its shape. -/
structure Common where
  required : Bool
  nullable : Bool
  default : Option Value
  help : Option String

/-- The shape of a Parameter: an object of Parameters, an object of no declared keys, which is a
truncated serializer, an array, or an element that is declared a list and no more (`list`). -/
inductive Declared (S : Type v) where
  | leaf (kind : String)
  | list
  | array (items : Declared S)
  | openObject (s : S)
  | object (s : S) (fields : List (String × Common × Declared S))

/-- What a Parameter says of the field beside its shape. -/
def DeclaredField.common (f : DeclaredField S) : Common where
  required := f.required
  nullable := f.allowNull
  default := f.literalDefault
  help := f.helpText

namespace Shape

/-- The serializer a Parameter of the field declares the fields of: the field's own, that of its
rows, or that of a list's element, and none where the element is a list itself. -/
def declaredSerializers : Shape S → List S
  | leaf _ | dict _ => []
  | list (nested s) => [s]
  | list _ => []
  | many s => [s]
  | nested s => [s]

end Shape

/-- `_rows`, and an element or field that is a serializer: its Parameters, or an open object where
its class is exhausted. -/
def rowsDeclared [DecidableEq C] (G : Declarations C S) (path : List C)
    (describe : List C × S → Option (Declared S)) (s : S) : Option (Declared S) :=
  if Exhausted path (G.cls s) then some (.openObject s) else describe (path, s)

/-- `input_parameter`, the shape of one field on a path. -/
def shapeDeclared [DecidableEq C] (G : Declarations C S) (path : List C)
    (describe : List C × S → Option (Declared S)) : Shape S → Option (Declared S)
  | .leaf kind => some (.leaf kind)
  | .dict _ => some (.leaf "DictField")
  | .list (.leaf kind) => some (.array (.leaf kind))
  | .list (.dict _) => some (.array (.leaf "DictField"))
  | .list (.nested s) => (rowsDeclared G path describe s).map .array
  | .list (.list _) | .list (.many _) => some (.array .list)
  | .many s => (rowsDeclared G path describe s).map .array
  | .nested s => rowsDeclared G path describe s

namespace Declarations

variable [DecidableEq C] (G : Declarations C S)

/-- The input fields of a serializer. -/
def inputFields (s : S) : List (String × DeclaredField S) :=
  (G.fields s).entries.filter fun e => e.2.isInput

/-- The serializers a list of fields enters on a path: those a Parameter declares the fields of, an
exhausted class aside. -/
def entered (path : List C) (fields : List (String × DeclaredField S)) : List (List C × S) :=
  fields.flatMap fun e =>
    (e.2.shape.declaredSerializers.filter fun t => ¬ Exhausted path (G.cls t)).map (path, ·)

/-- The parameters go on at those that are not exhausted. -/
theorem mem_entered {path : List C} {fields : List (String × DeclaredField S)}
    {a : List C × S} : a ∈ G.entered path fields ↔
      ∃ e ∈ fields, ∃ t ∈ e.2.shape.declaredSerializers, ¬ Exhausted path (G.cls t) ∧
        (path, t) = a := by
  simp [entered, List.mem_flatMap, List.mem_map, and_assoc]

/-- Rows are declared where their serializer is, unless it is exhausted. -/
theorem isSome_rowsDeclared {path : List C} {describe : List C × S → Option (Declared S)} {s : S} :
    (rowsDeclared G path describe s).isSome ↔
      (¬ Exhausted path (G.cls s) → (describe (path, s)).isSome) := by
  unfold rowsDeclared
  split <;> simp [*]

/-- A shape is declared where the serializers in it are, the exhausted apart. -/
theorem isSome_shapeDeclared {path : List C} {describe : List C × S → Option (Declared S)} :
    ∀ {shape : Shape S}, (shapeDeclared G path describe shape).isSome ↔
      ∀ t ∈ shape.declaredSerializers, ¬ Exhausted path (G.cls t) → (describe (path, t)).isSome
  | .leaf _ | .dict _ | .list (.leaf _) | .list (.dict _) | .list (.list _) | .list (.many _) => by
    simp [shapeDeclared, Shape.declaredSerializers]
  | .list (.nested _) | .many _ | .nested _ => by
    simp [shapeDeclared, Shape.declaredSerializers, isSome_rowsDeclared]

/-- What more is declared leaves the rows as they are. -/
theorem rowsDeclared_mono {path : List C} {f g : List C × S → Option (Declared S)}
    (h : Extends f g) {s : S} {x : Declared S} (hx : rowsDeclared G path f s = some x) :
    rowsDeclared G path g s = some x := by
  unfold rowsDeclared at hx ⊢
  split at hx
  · next hex => rwa [if_pos hex]
  · next hex => rw [if_neg hex, h _ _ hx]

/-- So it does a shape. -/
theorem shapeDeclared_mono {path : List C} {f g : List C × S → Option (Declared S)}
    (h : Extends f g) : ∀ {shape : Shape S} {x : Declared S},
      shapeDeclared G path f shape = some x → shapeDeclared G path g shape = some x
  | .leaf _, _, hx | .dict _, _, hx | .list (.leaf _), _, hx | .list (.dict _), _, hx
  | .list (.list _), _, hx | .list (.many _), _, hx => hx
  | .list (.nested _), x, hx | .many _, x, hx => by
    simp only [shapeDeclared, Option.map_eq_some_iff] at hx ⊢
    obtain ⟨y, hy, rfl⟩ := hx
    exact ⟨y, G.rowsDeclared_mono h hy, rfl⟩
  | .nested _, _, hx => G.rowsDeclared_mono h hx

/-- `input_parameter`: one input field as a Parameter. -/
def inputParameter (path : List C) (describe : List C × S → Option (Declared S))
    (e : String × DeclaredField S) : Option (String × Common × Declared S) :=
  (shapeDeclared G path describe e.2.shape).map fun declared => (e.1, e.2.common, declared)

/-- `input_parameters` of a serializer on a path, over what describes further ones. -/
def parametersStep (describe : List C × S → Option (Declared S)) (a : List C × S) :
    Option (Declared S) :=
  ((G.inputFields a.2).mapM (G.inputParameter (a.1 ++ [G.cls a.2]) describe)).map (.object a.2)

/-- `input_parameters`, as a walk over serializers and the paths to them. -/
def parametersWalk : Walk (List C × S) (Declared S) where
  step := G.parametersStep
  demand _ a := G.entered (a.1 ++ [G.cls a.2]) (G.inputFields a.2)
  isSome_step f a := by
    simp only [parametersStep, Option.isSome_map, isSome_mapM, inputParameter,
      isSome_shapeDeclared, mem_entered]
    constructor
    · rintro hall c ⟨e, he, t, ht, hex, rfl⟩
      exact hall e he t ht hex
    · intro hall e he t ht hex
      exact hall _ ⟨e, he, t, ht, hex, rfl⟩
  step_mono {f g a x} hfg hx := by
    unfold parametersStep at hx ⊢
    obtain ⟨fields, hp, rfl⟩ := Option.map_eq_some_iff.1 hx
    rw [mapM_mono (fun e _ y hy => ?_) hp]
    · rfl
    · simp only [inputParameter, Option.map_eq_some_iff] at hy ⊢
      obtain ⟨d, hd, rfl⟩ := hy
      exact ⟨d, G.shapeDeclared_mono hfg hd, rfl⟩
  demand_mono _ := fun _ h => h
  demand_stable _ _ := fun _ h => h

/-- `input_parameters`, with fuel. -/
def inputParameters (n : ℕ) (s : S) : Option (Declared S) := G.parametersWalk.run n ([], s)

/-- Over finitely many classes the parameters' walk ends, since it enters no exhausted class. -/
theorem isSome_parametersWalk [Fintype C] {n : ℕ} {a : List C × S}
    (h : budget (a.1 ++ [G.cls a.2]) < n) : (G.parametersWalk.run n a).isSome := by
  refine G.parametersWalk.isSome_run_of_measure (fun a => budget (a.1 ++ [G.cls a.2])) ?_ h
  intro _ a c hc
  obtain ⟨e, -, t, -, hex, rfl⟩ := G.mem_entered.1 hc
  exact budget_lt hex

/-! ## The two in lockstep -/

/-- The field of a name is no `HiddenField`. -/
def visible (s : S) (name : String) : Bool :=
  match (G.fields s).get? name with
  | some f => !f.hidden
  | none => false

/-- The schema of a node on a path and the Parameter of it agree, down to where either stops. An
exhausted class truncates both; `max_depth` truncates the schema alone. Where both describe an
object, the Parameters are its visible properties, in the same order and required alike. At a list
whose element is a list the Parameters stop. -/
inductive Lockstep (maxDepth : Option ℤ) : List C → Schema S → Declared S → Prop
  | leaf {path : List C} {kind : String} : Lockstep maxDepth path (.leaf kind) (.leaf kind)
  | list {path : List C} {x : Schema S} : Lockstep maxDepth path (.array (.array x)) (.array .list)
  | array {path : List C} {x : Schema S} {y : Declared S} :
      Lockstep maxDepth path x y → Lockstep maxDepth path (.array x) (.array y)
  | exhausted {path : List C} {s : S} :
      Exhausted path (G.cls s) → Lockstep maxDepth path (.truncated s) (.openObject s)
  | beyond {path : List C} {s : S} {params : List (String × Common × Declared S)} :
      ¬ Exhausted path (G.cls s) → Beyond maxDepth path.length →
      Lockstep maxDepth path (.truncated s) (.object s params)
  | object {path : List C} {s : S} {properties : List (String × Notes × Schema S)}
      {required : List String} {params : List (String × Common × Declared S)} :
      ¬ Exhausted path (G.cls s) → ¬ Beyond maxDepth path.length →
      properties.map (·.1) = (G.schemaFields false s).map (·.1) →
      params.map (·.1) = (properties.map (·.1)).filter (G.visible s) →
      (∀ q ∈ params, q.2.1.required = true ↔ q.1 ∈ required) →
      (∀ p ∈ properties, ∀ q ∈ params, p.1 = q.1 →
        Lockstep maxDepth (path ++ [G.cls s]) p.2.2 q.2.2) →
      Lockstep maxDepth path (.object s properties required) (.object s params)

omit [DecidableEq C] in
/-- The input fields are the visible ones of those the schema describes. -/
theorem inputFields_names (s : S) : (G.inputFields s).map (·.1) =
    ((G.schemaFields false s).map (·.1)).filter (G.visible s) := by
  rw [List.filter_map, schemaFields, List.filter_filter, inputFields]
  congr 1
  refine List.filter_congr fun e he => ?_
  have hv : G.visible s e.1 = !e.2.hidden := by
    rw [visible, Dict.get?_eq_some.2 he]
  simp only [Function.comp_apply, hv, DeclaredField.isInput, DeclaredField.inSchema]
  cases e.2.readOnly <;> cases e.2.hidden <;> rfl

omit [DecidableEq C] in
/-- A name has one field. -/
theorem field_eq_of_name {s : S} {e e' : String × DeclaredField S}
    (he : e ∈ (G.fields s).entries) (he' : e' ∈ (G.fields s).entries) (h : e.1 = e'.1) :
    e = e' := by
  have he := Dict.get?_eq_some.2 he
  have he' := Dict.get?_eq_some.2 he'
  rw [h, he'] at he
  exact Prod.ext h (Option.some.inj he).symm

omit [DecidableEq C] in
/-- An input field is required by name exactly when it is required. -/
theorem required_iff {s : S} {e : String × DeclaredField S} (he : e ∈ G.inputFields s) :
    e.2.required = true ↔
      e.1 ∈ ((G.schemaFields false s).filter fun e => e.2.inRequired false).map (·.1) := by
  obtain ⟨he, hin⟩ := List.mem_filter.1 he
  simp only [List.mem_map, List.mem_filter, schemaFields]
  constructor
  · intro hreq
    refine ⟨e, ⟨⟨he, ?_⟩, hreq⟩, rfl⟩
    simp only [DeclaredField.isInput, Bool.not_eq_true', Bool.or_eq_false_iff] at hin
    simp [DeclaredField.inSchema, hin.1]
  · rintro ⟨e', ⟨⟨he', -⟩, hreq⟩, hname⟩
    rwa [G.field_eq_of_name he he' hname.symm]

/-- What a run of the schema's walk answers. -/
theorem schemaWalk_cases {forOutput : Bool} {maxDepth : Option ℤ} {n : ℕ} {path : List C} {s : S}
    {x : Schema S} (h : (G.schemaWalk forOutput maxDepth).run n (path, s) = some x) :
    (G.Stops maxDepth path s ∧ x = .truncated s) ∨
      (¬ G.Stops maxDepth path s ∧ ∃ m properties, n = m + 1 ∧
        (G.schemaFields forOutput s).mapM (property forOutput fun t =>
          (G.schemaWalk forOutput maxDepth).run m (path ++ [G.cls s], t)) = some properties ∧
        x = .object s properties
          (((G.schemaFields forOutput s).filter fun e => e.2.inRequired forOutput).map (·.1))) := by
  cases n with
  | zero => cases h
  | succ m =>
    replace h : G.schemaStep forOutput maxDepth ((G.schemaWalk forOutput maxDepth).run m)
      (path, s) = some x := h
    unfold schemaStep at h
    split at h
    · next hstop =>
      cases h
      exact .inl ⟨hstop, rfl⟩
    · next hstop =>
      obtain ⟨properties, hp, rfl⟩ := Option.map_eq_some_iff.1 h
      exact .inr ⟨hstop, m, properties, rfl, hp, rfl⟩

/-- What a run of the parameters' walk answers. -/
theorem parametersWalk_cases {n : ℕ} {path : List C} {s : S} {y : Declared S}
    (h : G.parametersWalk.run n (path, s) = some y) : ∃ m fields, n = m + 1 ∧
      (G.inputFields s).mapM (G.inputParameter (path ++ [G.cls s]) (G.parametersWalk.run m)) =
        some fields ∧ y = .object s fields := by
  cases n with
  | zero => cases h
  | succ m =>
    obtain ⟨fields, hf, rfl⟩ := Option.map_eq_some_iff.1 h
    exact ⟨m, fields, rfl, hf, rfl⟩

section
variable {G} {maxDepth : Option ℤ} {n m : ℕ} {path : List C}

/-- Rows of an exhausted class are an open object and a truncated schema; otherwise the two walks
go on. -/
theorem lockstep_rows {t : S} {x : Schema S} {y : Declared S}
    (ih : ¬ Exhausted path (G.cls t) → ∀ y, G.parametersWalk.run m (path, t) = some y →
      G.Lockstep maxDepth path x y)
    (hx : (G.schemaWalk false maxDepth).run n (path, t) = some x)
    (hy : rowsDeclared G path (G.parametersWalk.run m) t = some y) :
    G.Lockstep maxDepth path x y := by
  unfold rowsDeclared at hy
  split at hy
  · next hex =>
    cases hy
    rcases G.schemaWalk_cases hx with ⟨-, rfl⟩ | ⟨hgo, -⟩
    · exact .exhausted hex
    · exact absurd (.inl hex) hgo
  · next hex => exact ih hex y hy

/-- The two walks read a field's shape alike, down to a list of lists. -/
theorem lockstep_shape
    (ih : ∀ t x y, ¬ Exhausted path (G.cls t) →
      (G.schemaWalk false maxDepth).run n (path, t) = some x →
      G.parametersWalk.run m (path, t) = some y → G.Lockstep maxDepth path x y) :
    ∀ {shape : Shape S} {x : Schema S} {y : Declared S},
      shapeSchema (fun t => (G.schemaWalk false maxDepth).run n (path, t)) shape = some x →
      shapeDeclared G path (G.parametersWalk.run m) shape = some y →
      G.Lockstep maxDepth path x y
  | .leaf _, _, _, hx, hy | .dict _, _, _, hx, hy => by
    cases hx
    cases hy
    exact .leaf
  | .list (.leaf _), _, _, hx, hy | .list (.dict _), _, _, hx, hy => by
    cases hx
    cases hy
    exact .array .leaf
  | .list (.list _), _, _, hx, hy | .list (.many _), _, _, hx, hy => by
    cases hy
    obtain ⟨x, hrow, rfl⟩ := Option.map_eq_some_iff.1 hx
    obtain ⟨_, -, rfl⟩ := Option.map_eq_some_iff.1 hrow
    exact .list
  | .list (.nested t), _, _, hx, hy | .many t, _, _, hx, hy => by
    obtain ⟨x, hrow, rfl⟩ := Option.map_eq_some_iff.1 hx
    obtain ⟨y, hdeclared, rfl⟩ := Option.map_eq_some_iff.1 hy
    exact .array (lockstep_rows (fun hex y => ih t x y hex hrow) hrow hdeclared)
  | .nested t, x, _, hx, hy => lockstep_rows (fun hex y => ih t x y hex hx) hx hy

end

/-- **The two walks stay in lockstep**: whatever the fuel, on a path whose next class has room. -/
theorem schema_parameters_lockstep (maxDepth : Option ℤ) : ∀ {n m : ℕ} {path : List C} {s : S}
    {x : Schema S} {y : Declared S}, ¬ Exhausted path (G.cls s) →
    (G.schemaWalk false maxDepth).run n (path, s) = some x →
    G.parametersWalk.run m (path, s) = some y → G.Lockstep maxDepth path x y := by
  intro n
  induction n with
  | zero => exact fun _ hx _ => nomatch hx
  | succ n ih =>
    intro m path s x y hex hx hy
    obtain ⟨m, params, rfl, hparams, rfl⟩ := G.parametersWalk_cases hy
    rcases G.schemaWalk_cases hx with ⟨hstop, rfl⟩ | ⟨hgo, k, properties, hk, hprops, rfl⟩
    · rcases hstop with hstop | hstop
      · exact absurd hstop hex
      · exact .beyond hex hstop
    cases hk
    have hnames : properties.map (·.1) = (G.schemaFields false s).map (·.1) := by
      refine map_eq_of_mapM (fun e p hp => ?_) hprops
      obtain ⟨_, -, rfl⟩ := Option.map_eq_some_iff.1 hp
      rfl
    have hinput : params.map (·.1) = (G.inputFields s).map (·.1) := by
      refine map_eq_of_mapM (fun e p hp => ?_) hparams
      obtain ⟨_, -, rfl⟩ := Option.map_eq_some_iff.1 hp
      rfl
    refine .object hex (fun hb => hgo (.inr hb)) hnames ?_ ?_ ?_
    · rw [hinput, hnames]
      exact G.inputFields_names s
    · intro q hq
      obtain ⟨e, he, heq⟩ := exists_of_mem_mapM hparams hq
      obtain ⟨_, -, rfl⟩ := Option.map_eq_some_iff.1 heq
      exact G.required_iff he
    · intro p hp q hq hpq
      obtain ⟨e, he, hep⟩ := exists_of_mem_mapM hprops hp
      obtain ⟨x, hx, rfl⟩ := Option.map_eq_some_iff.1 hep
      obtain ⟨e', he', heq⟩ := exists_of_mem_mapM hparams hq
      obtain ⟨y, hy, rfl⟩ := Option.map_eq_some_iff.1 heq
      obtain rfl := G.field_eq_of_name (List.mem_of_mem_filter he) (List.mem_of_mem_filter he') hpq
      exact lockstep_shape (fun t x y hroom => ih hroom) hx hy

/-! ## The bound on a class -/

/-- A class appears on the path down to each object of a schema as often as it may at most. -/
inductive SchemaBounded : List C → Schema S → Prop
  | leaf {path : List C} {kind : String} : SchemaBounded path (.leaf kind)
  | array {path : List C} {x : Schema S} : SchemaBounded path x → SchemaBounded path (.array x)
  | truncated {path : List C} {s : S} : SchemaBounded path (.truncated s)
  | object {path : List C} {s : S} {properties : List (String × Notes × Schema S)}
      {required : List String} :
      (path ++ [G.cls s]).count (G.cls s) ≤ maxSerializerAppearances →
      (∀ p ∈ properties, SchemaBounded (path ++ [G.cls s]) p.2.2) →
      SchemaBounded path (.object s properties required)

/-- A class appears on the path down to each object of Parameters as often as it may at most. -/
inductive DeclaredBounded : List C → Declared S → Prop
  | leaf {path : List C} {kind : String} : DeclaredBounded path (.leaf kind)
  | list {path : List C} : DeclaredBounded path .list
  | array {path : List C} {y : Declared S} : DeclaredBounded path y → DeclaredBounded path (.array y)
  | openObject {path : List C} {s : S} : DeclaredBounded path (.openObject s)
  | object {path : List C} {s : S} {params : List (String × Common × Declared S)} :
      (path ++ [G.cls s]).count (G.cls s) ≤ maxSerializerAppearances →
      (∀ q ∈ params, DeclaredBounded (path ++ [G.cls s]) q.2.2) →
      DeclaredBounded path (.object s params)

/-- A class with room on the path appears on it as often as it may at most. -/
theorem count_le_of_not_exhausted {path : List C} {c : C} (h : ¬ Exhausted path c) :
    (path ++ [c]).count c ≤ maxSerializerAppearances := by
  have hroom : path.count c < maxSerializerAppearances := Nat.lt_of_not_le h
  rw [List.count_append, List.count_singleton_self]
  exact hroom

/-- A field's shape is bounded where the serializers it nests are. -/
theorem schemaBounded_shape {path : List C} {describe : S → Option (Schema S)}
    (ih : ∀ t x, describe t = some x → G.SchemaBounded path x) :
    ∀ {shape : Shape S} {x : Schema S}, shapeSchema describe shape = some x →
      G.SchemaBounded path x
  | .leaf _, _, hx | .dict _, _, hx => by
    cases hx
    exact .leaf
  | .list child, _, hx => by
    obtain ⟨x, hrow, rfl⟩ := Option.map_eq_some_iff.1 hx
    exact .array (schemaBounded_shape ih hrow)
  | .many t, _, hx => by
    obtain ⟨x, hrow, rfl⟩ := Option.map_eq_some_iff.1 hx
    exact .array (ih t x hrow)
  | .nested t, x, hx => ih t x hx

/-- The schema's walk describes a class as often as it may at most. -/
theorem schemaBounded_schemaWalk (forOutput : Bool) (maxDepth : Option ℤ) : ∀ {n : ℕ}
    {path : List C} {s : S} {x : Schema S},
    (G.schemaWalk forOutput maxDepth).run n (path, s) = some x → G.SchemaBounded path x := by
  intro n
  induction n with
  | zero => exact fun hx => nomatch hx
  | succ n ih =>
    intro path s x hx
    rcases G.schemaWalk_cases hx with ⟨-, rfl⟩ | ⟨hgo, k, properties, hk, hprops, rfl⟩
    · exact .truncated
    · cases hk
      refine .object (count_le_of_not_exhausted fun hex => hgo (.inl hex)) fun p hp => ?_
      obtain ⟨e, -, hep⟩ := exists_of_mem_mapM hprops hp
      obtain ⟨y, hy, rfl⟩ := Option.map_eq_some_iff.1 hep
      exact G.schemaBounded_shape (fun t x => ih) hy

/-- A list's rows are bounded where what describes them is. -/
theorem declaredBounded_rows {path : List C} {describe : List C × S → Option (Declared S)} {t : S}
    (ih : ∀ y, ¬ Exhausted path (G.cls t) → describe (path, t) = some y →
      G.DeclaredBounded path y) {y : Declared S} (hy : rowsDeclared G path describe t = some y) :
    G.DeclaredBounded path y := by
  unfold rowsDeclared at hy
  split at hy
  · cases hy
    exact .openObject
  · next hex => exact ih y hex hy

/-- A Parameter is bounded where those of the serializers it declares are. -/
theorem declaredBounded_shape {path : List C} {describe : List C × S → Option (Declared S)}
    (ih : ∀ t y, ¬ Exhausted path (G.cls t) → describe (path, t) = some y →
      G.DeclaredBounded path y) :
    ∀ {shape : Shape S} {y : Declared S}, shapeDeclared G path describe shape = some y →
      G.DeclaredBounded path y
  | .leaf _, _, hy | .dict _, _, hy => by
    cases hy
    exact .leaf
  | .list (.leaf _), _, hy | .list (.dict _), _, hy => by
    cases hy
    exact .array .leaf
  | .list (.list _), _, hy | .list (.many _), _, hy => by
    cases hy
    exact .array .list
  | .list (.nested t), _, hy | .many t, _, hy => by
    obtain ⟨y, hrow, rfl⟩ := Option.map_eq_some_iff.1 hy
    exact .array (G.declaredBounded_rows (ih t) hrow)
  | .nested t, y, hy => G.declaredBounded_rows (ih t) hy

/-- The parameters' walk describes a class as often as it may at most, on a path whose next class
has room. -/
theorem declaredBounded_parametersWalk : ∀ {n : ℕ} {path : List C} {s : S} {y : Declared S},
    ¬ Exhausted path (G.cls s) → G.parametersWalk.run n (path, s) = some y →
    G.DeclaredBounded path y := by
  intro n
  induction n with
  | zero => exact fun _ hy => nomatch hy
  | succ n ih =>
    intro path s y hex hy
    obtain ⟨k, params, hk, hparams, rfl⟩ := G.parametersWalk_cases hy
    cases hk
    refine .object (count_le_of_not_exhausted hex) fun q hq => ?_
    obtain ⟨e, -, heq⟩ := exists_of_mem_mapM hparams hq
    obtain ⟨z, hz, rfl⟩ := Option.map_eq_some_iff.1 heq
    exact G.declaredBounded_shape (fun t y hroom => ih hroom) hz

/-- **The kernel's Parameters and the JSON schema of an input serializer describe one surface**:
over finitely many classes both walks end, with one answer each whatever the fuel, in lockstep, and
neither describes a class on one path more often than it may. -/
theorem schema_parameters_one_surface [Fintype C] (maxDepth : Option ℤ) (s : S) :
    ∃ (n : ℕ) (schema : Schema S) (declared : Declared S),
      (∀ m, n ≤ m → G.serializerToSchema false maxDepth m s = some schema ∧
        G.inputParameters m s = some declared) ∧
      G.Lockstep maxDepth [] schema declared ∧
      G.SchemaBounded [] schema ∧ G.DeclaredBounded [] declared := by
  have hroom : ¬ Exhausted [] (G.cls s) := by simp [Exhausted, maxSerializerAppearances]
  let n := budget ([] : List C) + 1
  obtain ⟨schema, hschema⟩ := Option.isSome_iff_exists.1
    (G.isSome_schemaWalk false maxDepth (n := n) (a := ([], s)) (Nat.lt_succ_self _))
  obtain ⟨declared, hdeclared⟩ := Option.isSome_iff_exists.1
    (G.isSome_parametersWalk (n := n) (a := ([], s))
      (Nat.lt_of_lt_of_le (budget_lt hroom) (Nat.le_succ _)))
  refine ⟨n, schema, declared, fun m hm => ⟨?_, ?_⟩, ?_, ?_, ?_⟩
  · exact (G.schemaWalk false maxDepth).run_extends hm _ _ hschema
  · exact G.parametersWalk.run_extends hm _ _ hdeclared
  · exact G.schema_parameters_lockstep maxDepth hroom hschema hdeclared
  · exact G.schemaBounded_schemaWalk false maxDepth hschema
  · exact G.declaredBounded_parametersWalk hroom hdeclared

end Declarations

end RestFrameworkServices
