import RestFrameworkServices.Serializers.Rendered

/-!
# What a presenter declares of an output

`SerializerPresenter.output` reads a serializer's fields into the kernel's `Output`, in order, with the classes on
its path, lays the spec's own audiences over their markings, and where the spec is shaped takes no key to be there
always. `output_describes_rendered` says that what it declares is so of whatever the serializer renders.
-/

namespace RestFrameworkServices.Rendered

open Lib Choices

universe u v

variable {C : Type u} {S : Type v}

/-! ## The kernel's Output -/

/-- What an `OutputField` says beside its shape. -/
structure About where
  nullable : Bool
  label : Option String
  alwaysPresent : Bool
  marking : Option FieldMarking

/-- The shape of an `OutputField`: a type, `any` where there is none, with its format and choices; an object of
fields, or of no declared ones; an array of whatever, of values of a type, or of objects of fields. -/
inductive OutputShape where
  | scalar (type format : Option String) (choices : Option (List (Constant × String)))
  | openObject
  | object (fields : List (String × About × OutputShape))
  | array (choices : Option (List (Constant × String)))
  | arrayOf (kind : String) (nullable : Bool) (choices : Option (List (Constant × String)))
  | rows (fields : List (String × About × OutputShape)) (nullable : Bool)

/-- An `Output`: its fields, in order. -/
abbrev Output := List (String × About × OutputShape)

/-- `ImproperlyConfigured`: a bare value under `MARKING`, as it prints, or audiences of fields that are none of
the output's. -/
inductive Misdeclared (S : Type v) where
  | bareMarking (s : S) (field repr : String)
  | unknownAudiences (s : S) (unknown outputs : List String)

/-- The text of the refusal. -/
def Misdeclared.message (className : S → String) : Misdeclared S → String
  | .bareMarking s field repr =>
    className s ++ "." ++ field ++ ": style['drf_marking'] is " ++ repr ++
      ", not a FieldMarking. Use FieldMarking.handle() / .hidden() / .label(); a bare value here is " ++
      "silently ignored."
  | .unknownAudiences s unknown outputs =>
    className s ++ ": field_audiences names " ++ reprNames unknown ++
      ", which the serializer does not output. It outputs " ++ reprNames outputs ++ "."

/-- `_SCALARS`: a class, and the type and the format it declares. -/
def scalars : List (String × Option String × Option String) := [
  ("BooleanField", some "boolean", none),
  ("IntegerField", some "integer", none),
  ("FloatField", some "number", none),
  ("DecimalField", some "string", some "decimal"),
  ("DateTimeField", some "string", some "date-time"),
  ("DateField", some "string", some "date"),
  ("TimeField", some "string", none),
  ("UUIDField", some "string", none),
  ("CharField", some "string", none),
  ("DictField", some "object", none)]

/-- `_choices_type`. -/
def choicesType (choices : List (Constant × String)) : Option String :=
  match (((choices.map Prod.fst).filter fun value => value != .none).map Constant.jsonTypeOf).dedup with
  | [t] => t
  | _ => none

/-- The shape of a field of another class. -/
def scalarShape (classes : List String) : OutputShape :=
  match firstOf scalars classes with
  | none => .scalar none none none
  | some (type, format) => .scalar type format none

/-- The shape of a `ChoiceField`. -/
def choiceShape (field : ChoiceField) : OutputShape :=
  match choicesType field.choices with
  | none => .scalar none none none
  | some type => .scalar (some type) none (some field.choices)

/-- The shape of a `MultipleChoiceField`. -/
def multipleChoiceShape (field : MultipleChoiceField) : OutputShape :=
  match choicesType field.choices with
  | none => .array (some field.choices)
  | some type => .arrayOf type false (some field.choices)

/-- An array of an element, whose child's `allow_null` is known. -/
def arrayShape (allowNull : Bool) : OutputShape → OutputShape
  | .object fields => .rows fields allowNull
  | .openObject => .arrayOf "object" allowNull none
  | .scalar none _ _ => .array none
  | .scalar (some type) _ _ => .arrayOf type allowNull none
  | .array _ | .arrayOf .. | .rows .. => .arrayOf "array" allowNull none

/-- `_marking`. -/
def fieldMarking (s : S) (name : String) (f : Field S) : Except (Misdeclared S) (Option FieldMarking) :=
  match f.style.lookup "drf_marking" with
  | some (.other repr) => .error (.bareMarking s name repr)
  | _ => .ok (f.style.findSome? fun
    | (_, .marking m) => some m
    | (_, .other _) => none)

/-- `_output_field`, over what makes the shape of a field. -/
def outputField (shape : Kind S → Except (Misdeclared S) OutputShape) (s : S) (e : String × Field S) :
    Except (Misdeclared S) (String × About × OutputShape) := do
  let shape ← shape e.2.kind
  let marking ← fieldMarking s e.1 e.2
  return (e.1, ⟨e.2.allowNull, e.2.label, e.2.alwaysRendered, marking⟩, shape)

section
variable [DecidableEq C] (G : Serializers C S)

/-- `_shape`. -/
def shape [Fintype C] (path : List C) : Kind S → Except (Misdeclared S) OutputShape
  | .scalar classes => .ok (scalarShape classes)
  | .choice field => .ok (choiceShape field)
  | .multipleChoice field => .ok (multipleChoiceShape field)
  | .manyRelated => .ok (.array none)
  | .list child allowNull => return arrayShape allowNull (← shape path child)
  | .many s allowNull => return arrayShape allowNull (← shape path (.nested s))
  | .nested s =>
    if _hexhausted : Exhausted path (G.cls s) then .ok .openObject
    else return .object (← (G.rendered s).mapM (outputField (fun kind => shape (path ++ [G.cls s]) kind) s))
termination_by kind => (budget path, sizeOf kind)
decreasing_by
  · exact Prod.Lex.right _ (by simp only [Kind.list.sizeOf_spec]; omega)
  · exact Prod.Lex.right _ (by simp only [Kind.many.sizeOf_spec, Kind.nested.sizeOf_spec, Bool.sizeOf_eq_one]; omega)
  · exact Prod.Lex.left _ _ (budget_lt _hexhausted)

/-- `_output`, of a serializer on no path. -/
def output [Fintype C] (s : S) : Except (Misdeclared S) Output :=
  (G.rendered s).mapM (outputField (shape G [G.cls s]) s)

end

mutual

/-- `_none_always_present`, of what a field nests. -/
def OutputShape.noneAlwaysPresent : OutputShape → OutputShape
  | .object fields => .object (noneAlwaysPresent fields)
  | .rows fields nullable => .rows (noneAlwaysPresent fields) nullable
  | .scalar type format choices => .scalar type format choices
  | .openObject => .openObject
  | .array choices => .array choices
  | .arrayOf kind nullable choices => .arrayOf kind nullable choices

/-- `_none_always_present`. -/
def noneAlwaysPresent : Output → Output
  | [] => []
  | (name, about, shape) :: fields =>
    (name, { about with alwaysPresent := false }, shape.noneAlwaysPresent) :: noneAlwaysPresent fields

end

/-- A `SerializerPresenter`, as far as its output. -/
structure SerializerPresenter (S : Type v) where
  serializer : S
  fieldAudiences : Dict String FieldMarking
  shaped : Bool

/-- An output field, the audience of its name laid over its marking. -/
def layered (fieldAudiences : Dict String FieldMarking) (e : String × About × OutputShape) :
    String × About × OutputShape :=
  (e.1, { e.2.1 with marking := (fieldAudiences.get? e.1).or e.2.1.marking }, e.2.2)

/-- An output's fields with the presenter's audiences laid over them, which are all to be of its fields. -/
def SerializerPresenter.layer (presenter : SerializerPresenter S) (declared : Output) :
    Except (Misdeclared S) Output :=
  let names := declared.map (·.1)
  let unknown := (presenter.fieldAudiences.keys.filter fun name => name ∉ names).mergeSort
  if unknown.isEmpty then .ok (declared.map (layered presenter.fieldAudiences))
  else .error (.unknownAudiences presenter.serializer unknown names)

/-- `SerializerPresenter.output`. -/
def SerializerPresenter.output [DecidableEq C] [Fintype C] (G : Serializers C S)
    (presenter : SerializerPresenter S) : Except (Misdeclared S) Output := do
  let declared ← Rendered.output G presenter.serializer
  presenter.layer (if presenter.shaped then noneAlwaysPresent declared else declared)

/-! ## What an Output describes -/

/-- Every key of an object is a field's. -/
def covers (fields : Output) (ms : List (String × Instance)) : Bool :=
  ms.all fun m => (fields.map (·.1)).contains m.1

mutual

/-- A shape describes a value. -/
def OutputShape.describes : OutputShape → Instance → Bool
  | .scalar type _ _ => fun x => type.all fun t => Instance.hasType t x
  | .openObject => Instance.hasType "object"
  | .object fields => fun
    | .object ms => covers fields ms && describesFields fields ms
    | _ => false
  | .array _ => Instance.hasType "array"
  | .arrayOf kind nullable _ => fun
    | .array xs => xs.all fun x => Instance.hasType kind x || nullable && Instance.hasType "null" x
    | _ => false
  | .rows fields nullable => fun
    | .array xs => xs.all fun
      | .object ms => covers fields ms && describesFields fields ms
      | x => nullable && Instance.hasType "null" x
    | _ => false

/-- Each field's value is one the field describes, or null where it may be, and its key is there where it is
always. -/
def describesFields : Output → List (String × Instance) → Bool
  | [] => fun _ => true
  | (name, about, shape) :: fields => fun ms =>
    (match ms.lookup name with
      | none => !about.alwaysPresent
      | some x => shape.describes x || about.nullable && Instance.hasType "null" x) &&
    describesFields fields ms

end

/-- An object is described where every key is a field's, and every field is as declared. -/
theorem describes_object_iff {fields : Output} {ms : List (String × Instance)} :
    (OutputShape.object fields).describes (.object ms) = true ↔
      covers fields ms = true ∧ describesFields fields ms = true := by
  simp only [OutputShape.describes, Bool.and_eq_true]

/-- The first field, and then the rest. -/
theorem describesFields_cons {name : String} {about : About} {shape : OutputShape} {fields : Output}
    {ms : List (String × Instance)} : describesFields ((name, about, shape) :: fields) ms = true ↔
      (match ms.lookup name with
        | none => about.alwaysPresent = false
        | some x => shape.describes x = true ∨ about.nullable = true ∧ Instance.hasType "null" x = true) ∧
      describesFields fields ms = true := by
  simp only [describesFields, Bool.and_eq_true]
  cases ms.lookup name <;> simp

/-! ## The Output of what is rendered -/

/-- Null is written for a field that allows it. -/
def Allowed (allowNull : Bool) (_ : Kind S) : Prop := allowNull = true

/-- The type of a field's choices is the type of all that it writes: a blank is text, and `None` is no choice of
many. -/
def Kind.Typed : Kind S → Prop
  | .choice field => field.allowBlank = true → ∀ t, choicesType field.choices = some t → t = "string"
  | .multipleChoice field => ∀ t, choicesType field.choices = some t → ∀ c ∈ field.choices, c.1 ≠ .none
  | .list child _ => child.Typed
  | .scalar _ | .manyRelated | .many .. | .nested _ => True

/-- A choice that is a value is of the type the choices share. -/
theorem hasType_of_choicesType {choices : List (Constant × String)} {t : String}
    (h : choicesType choices = some t) {c : Constant × String} (hc : c ∈ choices) (hnone : c.1 ≠ .none)
    {x : Instance} (hx : c.1.toJson = some x) : Instance.hasType t x = true := by
  rw [choicesType] at h
  split at h
  · next type hsingle =>
    have hmem : c.1.jsonTypeOf ∈ (((choices.map Prod.fst).filter fun value => value != .none).map
        Constant.jsonTypeOf).dedup :=
      List.mem_dedup.2 (List.mem_map_of_mem (List.mem_filter.2
        ⟨List.mem_map_of_mem hc, by simpa using hnone⟩))
    rw [hsingle] at hmem
    exact Constant.hasType_of_toJson ((List.mem_singleton.1 hmem).trans h) hx
  · cases h

/-- What a field of another class writes, its shape describes. -/
theorem describes_scalarShape {writes : List String → Instance → Prop} (hnative : Native writes)
    {classes : List String} {x : Instance} (h : writes classes x) : (scalarShape classes).describes x = true := by
  rw [scalarShape]
  split
  · simp [OutputShape.describes]
  · next type format hfirst =>
    simp only [OutputShape.describes, Option.all_eq_true]
    intro t ht
    have htable : ∀ e ∈ scalars, ∀ t, e.2.1 = some t → (e.1, t) ∈ native := by decide
    exact hnative.hasType htable h hfirst ht

/-- What is of the type the choices share, where they share one, is described. -/
theorem describes_choiceShape {field : ChoiceField} {x : Instance}
    (h : ∀ t, choicesType field.choices = some t → Instance.hasType t x = true) :
    (choiceShape field).describes x = true := by
  rw [choiceShape]
  split
  · simp [OutputShape.describes]
  · next t ht => simpa [OutputShape.describes] using h t ht

/-- Several choices are described where each is of the type the choices share. -/
theorem describes_multipleChoiceShape {field : MultipleChoiceField} {xs : List Instance}
    (h : ∀ t, choicesType field.choices = some t → ∀ x ∈ xs, Instance.hasType t x = true) :
    (multipleChoiceShape field).describes (.array xs) = true := by
  rw [multipleChoiceShape]
  split
  · simp [OutputShape.describes, Instance.hasType]
  · next t ht =>
    simp only [OutputShape.describes, List.all_eq_true, Bool.or_eq_true]
    exact fun x hx => .inl (h t ht x hx)

section
attribute [local simp] OutputShape.describes describesFields

/-- An array of what an element describes is described by the array of it. -/
theorem describes_arrayShape {allowNull : Bool} {element : OutputShape} {xs : List Instance}
    (h : ∀ x ∈ xs, element.describes x = true ∨ x = .null ∧ allowNull = true) :
    (arrayShape allowNull element).describes (.array xs) = true := by
  have htyped : ∀ (t : String) (choices : Option (List (Constant × String))),
      (∀ x, element.describes x = true → Instance.hasType t x = true) →
        (OutputShape.arrayOf t allowNull choices).describes (.array xs) = true := by
    intro t choices hshape
    simp only [OutputShape.describes, List.all_eq_true, Bool.or_eq_true, Bool.and_eq_true]
    intro x hx
    rcases h x hx with hx | ⟨rfl, hnull⟩
    · exact .inl (hshape x hx)
    · exact .inr ⟨hnull, rfl⟩
  cases element with
  | scalar type format choices =>
    cases type with
    | none => rfl
    | some t => exact htyped t none fun x hx => by simpa using hx
  | openObject => exact htyped "object" none fun x hx => by simpa using hx
  | object fields =>
    simp only [arrayShape, OutputShape.describes, List.all_eq_true]
    intro x hx
    rcases h x hx with hx | ⟨rfl, hnull⟩
    · cases x with
      | object ms => simpa using hx
      | null | bool | number | string | array => simp at hx
    · simpa [Instance.hasType] using hnull
  | array choices => exact htyped "array" none fun x hx => by simpa using hx
  | arrayOf kind nullable choices =>
    refine htyped "array" none fun x hx => ?_
    cases x with
    | array xs => rfl
    | null | bool | number | string | object => simp at hx
  | rows fields nullable =>
    refine htyped "array" none fun x hx => ?_
    cases x with
    | array xs => rfl
    | null | bool | number | string | object => simp at hx

end

section
variable [DecidableEq C] [Fintype C] {G : Serializers C S} {writes : List String → Instance → Prop}

/-- What a field writes, its shape describes, where the shapes of serializers describe their rows. -/
theorem describes_shape (hnative : Native writes) {path : List C}
    (hrow : ∀ s y, shape G path (.nested s) = .ok y →
      ∀ ms, RendersRow G writes Allowed (G.fields s).entries ms → y.describes (.object ms) = true)
    {kind : Kind S} : ∀ {y : OutputShape}, kind.Typed → shape G path kind = .ok y →
      ∀ {x : Instance}, Renders G writes Allowed kind x → y.describes x = true := by
  induction kind with
  | scalar classes =>
    intro y _ hy x h
    rw [shape] at hy
    cases hy
    cases h with
    | scalar h => exact describes_scalarShape hnative h
  | choice field =>
    intro y htyped hy x h
    rw [shape] at hy
    cases hy
    cases h with
    | choice hc hx hnone => exact describes_choiceShape fun t ht => hasType_of_choicesType ht hc hnone hx
    | blank hblank =>
      refine describes_choiceShape fun t ht => ?_
      rw [htyped hblank t ht]
      rfl
  | multipleChoice field =>
    intro y htyped hy x h
    rw [shape] at hy
    cases hy
    cases h with
    | multipleChoice hitems _ _ =>
      refine describes_multipleChoiceShape fun t ht x hx => ?_
      obtain ⟨c, hc, hcx⟩ := hitems x hx
      exact hasType_of_choicesType ht hc (htyped t ht c hc) hcx
  | manyRelated =>
    intro y _ hy x h
    rw [shape] at hy
    cases hy
    cases h with
    | manyRelated => simp [OutputShape.describes, Instance.hasType]
  | list child allowNull ih =>
    intro y htyped hy x h
    rw [shape] at hy
    obtain ⟨element, helement, hy⟩ := exists_of_bind_eq_ok hy
    cases hy
    cases h with
    | list hitems =>
      refine describes_arrayShape fun x hx => ?_
      rcases hitems.mem x hx with hx | ⟨rfl, hnull⟩
      · exact .inl (ih htyped helement hx)
      · exact .inr ⟨rfl, hnull⟩
  | many s allowNull =>
    intro y _ hy x h
    rw [shape] at hy
    obtain ⟨element, helement, hy⟩ := exists_of_bind_eq_ok hy
    cases hy
    cases h with
    | many hrows =>
      refine describes_arrayShape fun x hx => ?_
      obtain ⟨ms, hms, rfl⟩ := List.mem_map.1 hx
      exact .inl (hrow s element helement ms (hrows ms hms))
  | nested s =>
    intro y _ hy x h
    cases h with
    | nested h => exact hrow s y hy _ h

omit [DecidableEq C] [Fintype C] in
/-- An output field says of its field what is so: its name, its presence and its null. -/
theorem outputField_eq_ok {shape : Kind S → Except (Misdeclared S) OutputShape} {s : S} {e : String × Field S}
    {b : String × About × OutputShape} (h : outputField shape s e = .ok b) :
    b.1 = e.1 ∧ b.2.1.nullable = e.2.allowNull ∧ b.2.1.alwaysPresent = e.2.alwaysRendered ∧
      shape e.2.kind = .ok b.2.2 := by
  rw [outputField] at h
  obtain ⟨y, hy, h⟩ := exists_of_bind_eq_ok h
  obtain ⟨marking, -, h⟩ := exists_of_bind_eq_ok h
  cases h
  exact ⟨rfl, rfl, rfl, hy⟩

omit [DecidableEq C] [Fintype C] in
/-- The output fields of fields hold of a row the fields hold of. -/
theorem describesFields_of_holds {shape : Kind S → Except (Misdeclared S) OutputShape} {s : S}
    {ms : List (String × Instance)} : ∀ {fields : List (String × Field S)} {declared : Output},
    List.Forall₂ (fun e b => outputField shape s e = .ok b) fields declared →
    (∀ e ∈ fields, ∀ y, shape e.2.kind = .ok y →
      ∀ x, Renders G writes Allowed e.2.kind x → y.describes x = true) →
    (∀ e ∈ fields, Holds G writes Allowed e.2 (ms.lookup e.1)) → describesFields declared ms = true := by
  intro fields declared h hshape hholds
  induction h with
  | nil => simp [describesFields]
  | @cons e b fields declared hb _ ih =>
    rw [List.forall_mem_cons] at hshape hholds
    obtain ⟨hname, hnullable, halways, hy⟩ := outputField_eq_ok hb
    obtain ⟨name, about, y⟩ := b
    cases hname
    refine describesFields_cons.2 ⟨?_, ih hshape.2 hholds.2⟩
    have hhead := hholds.1
    cases hvalue : ms.lookup e.1 with
    | none =>
      rw [hvalue, Holds] at hhead
      exact halways.trans hhead
    | some x =>
      rw [hvalue] at hhead
      rcases hhead with hx | ⟨rfl, hnull⟩
      · exact .inl (hshape.1 y hy x hx)
      · exact .inr ⟨hnullable.trans hnull, rfl⟩

omit [DecidableEq C] [Fintype C] in
/-- An output has the names of the fields that are rendered. -/
theorem map_fst_of_mapM {shape : Kind S → Except (Misdeclared S) OutputShape} {s : S}
    {fields : List (String × Field S)} {declared : Output}
    (h : List.Forall₂ (fun e b => outputField shape s e = .ok b) fields declared) :
    declared.map (·.1) = fields.map (·.1) := by
  induction h with
  | nil => rfl
  | cons hb _ ih => rw [List.map_cons, List.map_cons, (outputField_eq_ok hb).1, ih]

/-- A row is an object of what is declared of its serializer, where the shapes below describe what is written. -/
theorem describes_object (hnative : Native writes) (htyped : ∀ s, ∀ e ∈ G.rendered s, e.2.kind.Typed)
    {path : List C} {s : S} {declared : Output}
    (hrow : ∀ t y, shape G path (.nested t) = .ok y →
      ∀ ms, RendersRow G writes Allowed (G.fields t).entries ms → y.describes (.object ms) = true)
    (h : (G.rendered s).mapM (outputField (shape G path) s) = .ok declared) {ms : List (String × Instance)}
    (hms : RendersRow G writes Allowed (G.fields s).entries ms) :
    (OutputShape.object declared).describes (.object ms) = true := by
  have hall := forall₂_of_mapM_eq_ok h
  have hcovers : covers declared ms = true := by
    rw [covers, List.all_eq_true]
    intro m hm
    obtain ⟨e, he, hread, hname⟩ := hms.exists_of_mem m.1 (mem_keysOf_of_mem hm)
    have hmem : e ∈ G.rendered s := List.mem_filter.2 ⟨he, by simp [hread]⟩
    rw [List.contains_iff_mem, map_fst_of_mapM hall, ← hname]
    exact List.mem_map_of_mem hmem
  have hfields : describesFields declared ms = true :=
    describesFields_of_holds hall
      (fun e he y hy x hx => describes_shape hnative hrow (htyped s e he) hy hx) hms.holds_rendered
  exact describes_object_iff.2 ⟨hcovers, hfields⟩

/-- What is declared of a nested serializer describes its rows. -/
theorem describes_nested (hnative : Native writes) (htyped : ∀ s, ∀ e ∈ G.rendered s, e.2.kind.Typed)
    (path : List C) (s : S) : ∀ y, shape G path (.nested s) = .ok y →
      ∀ ms, RendersRow G writes Allowed (G.fields s).entries ms → y.describes (.object ms) = true := by
  refine walk_induction (motive := fun path s => ∀ y, shape G path (.nested s) = .ok y →
    ∀ ms, RendersRow G writes Allowed (G.fields s).entries ms → y.describes (.object ms) = true) G ?_ path s
  intro path s ih y hy ms hms
  rw [shape] at hy
  split at hy
  · cases hy
    simp [OutputShape.describes, Instance.hasType]
  · next hroom =>
    obtain ⟨declared, hdeclared, hy⟩ := exists_of_bind_eq_ok hy
    cases hy
    exact describes_object hnative htyped (ih hroom) hdeclared hms

end

/-- The fields keep their names. -/
theorem map_fst_noneAlwaysPresent : ∀ fields : Output,
    (noneAlwaysPresent fields).map (·.1) = fields.map (·.1)
  | [] => rfl
  | (name, about, shape) :: fields => by
    rw [noneAlwaysPresent, List.map_cons, List.map_cons, map_fst_noneAlwaysPresent fields]

/-- Whether every key is a field's depends on the names alone. -/
theorem covers_congr {fields declared : Output} (h : declared.map (·.1) = fields.map (·.1))
    (ms : List (String × Instance)) : covers declared ms = covers fields ms := by
  rw [covers, covers, h]

mutual

/-- What a shape describes, it describes with no key always there. -/
theorem describes_noneAlwaysPresent : ∀ {shape : OutputShape} {x : Instance},
    shape.describes x = true → shape.noneAlwaysPresent.describes x = true
  | .object fields, x, h => by
    rw [OutputShape.noneAlwaysPresent]
    cases x with
    | object ms =>
      rw [describes_object_iff] at h ⊢
      rw [covers_congr (map_fst_noneAlwaysPresent fields)]
      exact ⟨h.1, describesFields_noneAlwaysPresent h.2⟩
    | null | bool | number | string | array => simp [OutputShape.describes] at h
  | .rows fields nullable, x, h => by
    rw [OutputShape.noneAlwaysPresent]
    cases x with
    | array xs =>
      simp only [OutputShape.describes, List.all_eq_true] at h ⊢
      intro x hx
      have hitem := h x hx
      cases x with
      | object ms =>
        simp only [Bool.and_eq_true] at hitem ⊢
        rw [covers_congr (map_fst_noneAlwaysPresent fields)]
        exact ⟨hitem.1, describesFields_noneAlwaysPresent hitem.2⟩
      | null | bool | number | string | array => exact hitem
    | null | bool | number | string | object => simp [OutputShape.describes] at h
  | .scalar .., _, h | .openObject, _, h | .array _, _, h | .arrayOf .., _, h => by
    rw [OutputShape.noneAlwaysPresent]
    exact h

/-- What is as declared is so where no field need be present. -/
theorem describesFields_noneAlwaysPresent : ∀ {fields : Output} {ms : List (String × Instance)},
    describesFields fields ms = true → describesFields (noneAlwaysPresent fields) ms = true
  | [], _, h => h
  | (name, about, shape) :: fields, ms, h => by
    rw [describesFields_cons] at h
    rw [noneAlwaysPresent, describesFields_cons]
    refine ⟨?_, describesFields_noneAlwaysPresent h.2⟩
    have hhead := h.1
    split at hhead
    · rfl
    · exact hhead.imp_left describes_noneAlwaysPresent

end

/-- A marking says nothing of a value. -/
theorem describesFields_layered (fieldAudiences : Dict String FieldMarking) {ms : List (String × Instance)} :
    ∀ {fields : Output}, describesFields fields ms = true →
      describesFields (fields.map (layered fieldAudiences)) ms = true
  | [], h => h
  | (name, about, shape) :: fields, h => by
    rw [describesFields_cons] at h
    rw [List.map_cons, layered, describesFields_cons]
    exact ⟨h.1, describesFields_layered fieldAudiences h.2⟩

/-- Audiences laid over an output leave what it describes. -/
theorem describes_layer {presenter : SerializerPresenter S} {fields declared : Output}
    (h : presenter.layer fields = .ok declared) {ms : List (String × Instance)}
    (hfields : (OutputShape.object fields).describes (.object ms) = true) :
    (OutputShape.object declared).describes (.object ms) = true := by
  rw [SerializerPresenter.layer] at h
  split at h
  · cases h
    have hnames : (fields.map (layered presenter.fieldAudiences)).map (·.1) = fields.map (·.1) := by
      rw [List.map_map]
      rfl
    rw [describes_object_iff] at hfields ⊢
    rw [covers_congr hnames]
    exact ⟨hfields.1, describesFields_layered _ hfields.2⟩
  · cases h

section
variable [DecidableEq C] [Fintype C] {G : Serializers C S} {writes : List String → Instance → Prop}

/-- **What a presenter declares describes what DRF renders of a row**: every key is a declared field's, a key that
is always present is there, and under each is null, where the field is nullable, or a value of its type, to
whatever depth it is declared. -/
theorem output_describes_rendered (hnative : Native writes)
    (htyped : ∀ s, ∀ e ∈ G.rendered s, e.2.kind.Typed) {presenter : SerializerPresenter S} {declared : Output}
    (hout : presenter.output G = .ok declared) {ms : List (String × Instance)}
    (h : RendersRow G writes Allowed (G.fields presenter.serializer).entries ms) :
    (OutputShape.object declared).describes (.object ms) = true := by
  rw [SerializerPresenter.output] at hout
  obtain ⟨fields, hread, hlayer⟩ := exists_of_bind_eq_ok hout
  have hdescribes : (OutputShape.object fields).describes (.object ms) = true :=
    describes_object hnative htyped (describes_nested hnative htyped _) hread h
  refine describes_layer hlayer ?_
  split
  · have hnone := describes_noneAlwaysPresent hdescribes
    rwa [OutputShape.noneAlwaysPresent] at hnone
  · exact hdescribes

end

/-! ## An order and its lines -/

/-- A presenter of orders, whose number is a handle. -/
def orderPresenter : SerializerPresenter Named := ⟨.order, .ofList [("number", ⟨.handle⟩)], false⟩

/-- What it declares. -/
def declaredOrder : Output := [
  ("number", ⟨false, none, true, some ⟨.handle⟩⟩, .scalar (some "integer") none none),
  ("lines", ⟨false, none, true, none⟩,
    .rows [("note", ⟨true, none, true, none⟩, .scalar (some "string") none none)] false)]

/-- What is declared of an order. -/
theorem output_order : orderPresenter.output orders = .ok declaredOrder := by
  have hline : shape orders [Named.order] (.nested .line) =
      .ok (.object [("note", ⟨true, none, true, none⟩, .scalar (some "string") none none)]) := by
    have hfields : orders.rendered .line = [("note", plainField true (.scalar ["CharField", "Field"]))] := rfl
    rw [shape, dif_neg (by decide), hfields, List.mapM_cons, List.mapM_nil, outputField, plainField, shape]
    rfl
  have hfields : orders.rendered .order = [("number", plainField false (.scalar ["IntegerField", "Field"])),
      ("lines", plainField false (.many .line false))] := rfl
  have houtput : output orders .order = .ok [
      ("number", ⟨false, none, true, none⟩, .scalar (some "integer") none none),
      ("lines", ⟨false, none, true, none⟩,
        .rows [("note", ⟨true, none, true, none⟩, .scalar (some "string") none none)] false)] := by
    have hlines : shape orders [orders.cls .order] (plainField false (.many .line false)).kind =
        .ok (.rows [("note", ⟨true, none, true, none⟩, .scalar (some "string") none none)] false) := by
      have hcls : orders.cls .order = .order := rfl
      rw [plainField, shape, hcls, hline]
      rfl
    rw [output, hfields, List.mapM_cons, List.mapM_cons, List.mapM_nil, outputField, outputField, hlines,
      plainField, shape]
    rfl
  have hunknown : (orderPresenter.fieldAudiences.keys.filter fun name => name ∉ ["number", "lines"]) = [] := rfl
  rw [SerializerPresenter.output, show orderPresenter.serializer = .order from rfl, houtput]
  simp only [bind, Except.bind, show orderPresenter.shaped = false from rfl]
  rw [if_neg Bool.false_ne_true, SerializerPresenter.layer]
  simp only [List.map_cons, List.map_nil, hunknown, List.mergeSort_nil]
  rfl

/-- Every kind of an order's fields is typed. -/
theorem typed_orders : ∀ s, ∀ e ∈ orders.rendered s, e.2.kind.Typed := by
  intro s e he
  cases s with
  | order =>
    rcases List.mem_cons.1 he with rfl | he
    · trivial
    · obtain rfl := List.mem_singleton.1 he
      trivial
  | line =>
    obtain rfl := List.mem_singleton.1 he
    trivial

/-- An order rendered with no note is as declared. -/
theorem output_describes_rendered_order :
    (OutputShape.object declaredOrder).describes (.object (renderedOrder .null)) = true :=
  output_describes_rendered (fun _ _ h => h) typed_orders output_order (rendersRow_order (.inl ⟨rfl, rfl⟩))

end RestFrameworkServices.Rendered
