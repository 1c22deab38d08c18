import RestFrameworkServices.Serializers.Graph
import RestFrameworkServices.JsonSchema.Choices

/-!
# What an output serializer renders

DRF renders a row field by field: a key is left out where a field can neither be read nor filled, null is
written where there is no value, and elsewhere what the class of the field writes. `Renders` is that, of rows that
keep what their fields declare, and whose values are missing only where `mayBeNull` lets them: DRF checks neither as
it renders. What the classes of fields write is DRF's too, and is taken as its own classes do by default (`Native`).

A description of a serializer says what is rendered of it (`RendersRow.holds`), and walks it with the classes on its
path (`walk_induction`).
-/

namespace RestFrameworkServices.Rendered

open Lib Choices

universe u v

variable {C : Type u} {S : Type v}

/-- What a field is: a `ChoiceField`, a `MultipleChoiceField`, a `ManyRelatedField`, a `ListField` of a child
and a `ListSerializer`, with the child's `allow_null`, a serializer, or a field of another class, by the names of
the class and its bases. -/
inductive Kind (S : Type v) where
  | scalar (classes : List String)
  | choice (field : ChoiceField)
  | multipleChoice (field : MultipleChoiceField)
  | manyRelated
  | list (child : Kind S) (allowNull : Bool)
  | many (s : S) (allowNull : Bool)
  | nested (s : S)

/-- A field of a serializer. Its `label` is the one its author wrote. -/
structure Field (S : Type v) where
  writeOnly : Bool
  required : Bool
  hasDefault : Bool
  allowNull : Bool
  label : Option String
  helpText : Option String
  style : List (String × StyleEntry)
  kind : Kind S

/-- `_always_rendered`. -/
def Field.alwaysRendered (f : Field S) : Bool := f.required || f.hasDefault || f.allowNull

/-- The output serializers of a program: the class and the fields, in order, of each. -/
structure Serializers (C : Type u) (S : Type v) where
  cls : S → C
  fields : S → Dict String (Field S)

/-- The fields of a serializer that are rendered. -/
def Serializers.rendered (G : Serializers C S) (s : S) : List (String × Field S) :=
  (G.fields s).entries.filter fun e => !e.2.writeOnly

/-! ## What DRF renders -/

/-- The type of what DRF writes for a value of a field class. -/
def native : List (String × String) := [
  ("BooleanField", "boolean"),
  ("IntegerField", "integer"),
  ("FloatField", "number"),
  ("DecimalField", "string"),
  ("DateTimeField", "string"),
  ("DateField", "string"),
  ("TimeField", "string"),
  ("UUIDField", "string"),
  ("EmailField", "string"),
  ("URLField", "string"),
  ("IPAddressField", "string"),
  ("CharField", "string"),
  ("DictField", "object")]

/-- Fields of those classes write values of those types, as DRF's do unless they are told to write another
(`coerce_to_string=False`, `format='int'`). -/
def Native (writes : List String → Instance → Prop) : Prop :=
  ∀ classes x, writes classes x → ∀ e ∈ native, e.1 ∈ classes → Instance.hasType e.2 x = true

section
variable (G : Serializers C S) (writes : List String → Instance → Prop) (mayBeNull : Bool → Kind S → Prop)

mutual

/-- DRF writes a value for a field, of a row that keeps what its fields declare: a choice is one of the choices or,
where blank is allowed, blank, a field of many choices is empty only where it may be, and `None` is only where null
may be. -/
inductive Renders : Kind S → Instance → Prop
  | scalar {classes x} (h : writes classes x) : Renders (.scalar classes) x
  | choice {field c x} (hc : c ∈ field.choices) (hx : c.1.toJson = some x) (hnone : c.1 ≠ .none) :
    Renders (.choice field) x
  | blank {field} (h : field.allowBlank = true) : Renders (.choice field) (.string "")
  | multipleChoice {field xs} (hitems : ∀ x ∈ xs, ∃ c ∈ field.choices, c.1.toJson = some x)
    (hdistinct : Instance.Distinct xs) (hempty : field.allowEmpty = true ∨ xs ≠ []) :
    Renders (.multipleChoice field) (.array xs)
  | manyRelated {xs} : Renders .manyRelated (.array xs)
  | list {child allowNull xs} (h : RendersItems child allowNull xs) : Renders (.list child allowNull) (.array xs)
  | many {s allowNull} {rows : List (List (String × Instance))}
    (h : ∀ ms ∈ rows, RendersRow (G.fields s).entries ms) :
    Renders (.many s allowNull) (.array (rows.map .object))
  | nested {s ms} (h : RendersRow (G.fields s).entries ms) : Renders (.nested s) (.object ms)

/-- DRF writes the items of a list, of a child. -/
inductive RendersItems : Kind S → Bool → List Instance → Prop
  | nil {child allowNull} : RendersItems child allowNull []
  | null {child allowNull xs} (h : mayBeNull allowNull child) (hrest : RendersItems child allowNull xs) :
    RendersItems child allowNull (.null :: xs)
  | value {child allowNull x xs} (h : Renders child x) (hrest : RendersItems child allowNull xs) :
    RendersItems child allowNull (x :: xs)

/-- `to_representation`, of a row under its fields in order. A field is left out where it can neither be read
nor filled. -/
inductive RendersRow : List (String × Field S) → List (String × Instance) → Prop
  | nil : RendersRow [] []
  | writeOnly {e fields ms} (h : e.2.writeOnly = true) (hrest : RendersRow fields ms) :
    RendersRow (e :: fields) ms
  | skipped {e fields ms} (hread : e.2.writeOnly = false) (h : e.2.alwaysRendered = false)
    (hrest : RendersRow fields ms) : RendersRow (e :: fields) ms
  | null {e fields ms} (hread : e.2.writeOnly = false) (h : mayBeNull e.2.allowNull e.2.kind)
    (hrest : RendersRow fields ms) : RendersRow (e :: fields) ((e.1, .null) :: ms)
  | value {e fields ms x} (hread : e.2.writeOnly = false) (h : Renders e.2.kind x)
    (hrest : RendersRow fields ms) : RendersRow (e :: fields) ((e.1, x) :: ms)

end

end

/-! ## A row and its fields -/

section
variable {G : Serializers C S} {writes : List String → Instance → Prop} {mayBeNull : Bool → Kind S → Prop}

/-- Every key of a row is that of a field that is rendered. -/
theorem RendersRow.exists_of_mem : ∀ {fields : List (String × Field S)} {ms : List (String × Instance)},
    RendersRow G writes mayBeNull fields ms →
      ∀ k ∈ keysOf ms, ∃ e ∈ fields, e.2.writeOnly = false ∧ e.1 = k := by
  intro fields
  induction fields with
  | nil =>
    intro ms h k hk
    cases h
    cases hk
  | cons d fields ih =>
    have hlater : ∀ {ms}, RendersRow G writes mayBeNull fields ms → ∀ k ∈ keysOf ms,
        ∃ e ∈ d :: fields, e.2.writeOnly = false ∧ e.1 = k := by
      intro ms h k hk
      obtain ⟨e, he, hread, rfl⟩ := ih h k hk
      exact ⟨e, List.mem_cons_of_mem _ he, hread, rfl⟩
    intro ms h k hk
    cases h with
    | writeOnly _ hrest | skipped _ _ hrest => exact hlater hrest k hk
    | null hread _ hrest | value hread _ hrest =>
      rcases List.mem_cons.1 hk with rfl | hk
      · exact ⟨d, List.mem_cons_self, hread, rfl⟩
      · exact hlater hrest k hk

/-- Each item is what the child writes, or null where it may be. -/
theorem RendersItems.mem : ∀ {child : Kind S} {allowNull : Bool} {xs : List Instance},
    RendersItems G writes mayBeNull child allowNull xs →
      ∀ x ∈ xs, Renders G writes mayBeNull child x ∨ x = .null ∧ mayBeNull allowNull child := by
  intro child allowNull xs
  induction xs with
  | nil => exact fun _ x hx => nomatch hx
  | cons y xs ih =>
    intro h x hx
    rcases List.mem_cons.1 hx with rfl | hlater
    · cases h with
      | null hnull _ => exact .inr ⟨rfl, hnull⟩
      | value hvalue _ => exact .inl hvalue
    · cases h with
      | null _ hrest | value _ hrest => exact ih hrest x hlater

variable (G writes mayBeNull) in
/-- What a row holds under the name of a field that is rendered: nothing only where it may be left out, and null,
where the field writes none, only where it may be. -/
def Holds (f : Field S) : Option Instance → Prop
  | none => f.alwaysRendered = false
  | some x => Renders G writes mayBeNull f.kind x ∨ x = .null ∧ mayBeNull f.allowNull f.kind

/-- Every readable field of a row rendered holds. -/
theorem RendersRow.holds : ∀ {fields : List (String × Field S)} {ms : List (String × Instance)},
    RendersRow G writes mayBeNull fields ms → (keysOf fields).Nodup → ∀ e ∈ fields, e.2.writeOnly = false →
      Holds G writes mayBeNull e.2 (ms.lookup e.1) := by
  intro fields
  induction fields with
  | nil => exact fun _ _ e he => nomatch he
  | cons d fields ih =>
    intro ms h hnodup e he hread
    rw [keysOf_cons, List.nodup_cons] at hnodup
    have hlater : ∀ {ms}, RendersRow G writes mayBeNull fields ms → e ∈ fields →
        Holds G writes mayBeNull e.2 (ms.lookup e.1) := fun h he => ih h hnodup.2 e he hread
    have hne : e ∈ fields → e.1 ≠ d.1 := fun he heq => hnodup.1 (heq ▸ mem_keysOf_of_mem he)
    rcases List.mem_cons.1 he with rfl | he
    · cases h with
      | writeOnly hwrite _ => rw [hread] at hwrite; cases hwrite
      | @skipped _ _ ms _ hskip hrest =>
        have hnone : ms.lookup e.1 = none := lookup_eq_none_iff_notMem.2 fun hk => by
          obtain ⟨d, hd, -, hname⟩ := hrest.exists_of_mem _ hk
          exact hnodup.1 (hname ▸ mem_keysOf_of_mem hd)
        rw [hnone]
        exact hskip
      | null _ hnull _ =>
        rw [List.lookup_cons_self]
        exact .inr ⟨rfl, hnull⟩
      | value _ hx _ =>
        rw [List.lookup_cons_self]
        exact .inl hx
    · cases h with
      | writeOnly _ hrest | skipped _ _ hrest => exact hlater hrest he
      | null _ _ hrest | value _ _ hrest =>
        rw [lookup_cons_ite, if_neg (hne he)]
        exact hlater hrest he

/-- A row of a serializer holds what each of its fields that is rendered allows. -/
theorem RendersRow.holds_rendered {s : S} {ms : List (String × Instance)}
    (h : RendersRow G writes mayBeNull (G.fields s).entries ms) :
    ∀ e ∈ G.rendered s, Holds G writes mayBeNull e.2 (ms.lookup e.1) := by
  intro e he
  obtain ⟨he, hread⟩ := List.mem_filter.1 he
  exact h.holds (G.fields s).nodup e he (by simpa using hread)

/-- A walk that enters a serializer only where its class is not exhausted on the path comes to an end: what holds
of a serializer once it holds of those below it holds of every one. -/
theorem walk_induction [DecidableEq C] [Fintype C] (G : Serializers C S) {motive : List C → S → Prop}
    (step : ∀ path s, (¬ Exhausted path (G.cls s) → ∀ t, motive (path ++ [G.cls s]) t) → motive path s)
    (path : List C) (s : S) : motive path s := by
  induction hn : budget path using Nat.strong_induction_on generalizing path s with
  | _ n ih =>
    refine step path s fun hroom t => ?_
    exact ih _ (hn ▸ budget_lt hroom) _ t rfl

end

/-! ## Fields of other classes -/

/-- The first of a table's classes that a field is of. -/
def firstOf {α : Type} (table : List (String × α)) (classes : List String) : Option α :=
  (table.find? fun e => e.1 ∈ classes).map (·.2)

/-- What the first of a table's classes says is said by one of the field's classes. -/
theorem exists_of_firstOf {α : Type} {table : List (String × α)} {classes : List String} {a : α}
    (h : firstOf table classes = some a) : ∃ cls ∈ classes, (cls, a) ∈ table := by
  obtain ⟨e, he, rfl⟩ := Option.map_eq_some_iff.1 h
  exact ⟨e.1, by simpa using List.find?_some he, List.mem_of_find?_eq_some he⟩

/-- What a table types a field by is what the field writes. -/
theorem Native.hasType {writes : List String → Instance → Prop} (h : Native writes)
    {table : List (String × Option String × Option String)}
    (htable : ∀ e ∈ table, ∀ t, e.2.1 = some t → (e.1, t) ∈ native) {classes : List String} {x : Instance}
    (hx : writes classes x) {type format : Option String} (hfirst : firstOf table classes = some (type, format))
    {t : String} (ht : type = some t) : Instance.hasType t x = true := by
  obtain ⟨cls, hcls, hmem⟩ := exists_of_firstOf hfirst
  exact h classes x hx (cls, t) (htable _ hmem t ht) hcls

/-! ## An order and its lines -/

/-- The serializers of an order and of a line of one. -/
inductive Named where
  | order
  | line
deriving DecidableEq

instance : Fintype Named := ⟨{.order, .line}, fun named => by cases named <;> decide⟩

/-- A field that is always rendered, of a kind. -/
def plainField (allowNull : Bool) (kind : Kind Named) : Field Named where
  writeOnly := false
  required := true
  hasDefault := false
  allowNull := allowNull
  label := none
  helpText := none
  style := []
  kind := kind

/-- An order has a number and lines, and a line a text or none. -/
def orders : Serializers Named Named where
  cls := id
  fields
    | .order => .ofList [("number", plainField false (.scalar ["IntegerField", "Field"])),
        ("lines", plainField false (.many .line false))]
    | .line => .ofList [("note", plainField true (.scalar ["CharField", "Field"]))]

/-- Fields write whatever is of the types of their classes. -/
def anyNative (classes : List String) (x : Instance) : Prop :=
  ∀ e ∈ native, e.1 ∈ classes → Instance.hasType e.2 x = true

/-- An order of one line. -/
def renderedOrder (note : Instance) : List (String × Instance) :=
  [("number", .number 7), ("lines", .array [.object [("note", note)]])]

/-- An order is rendered so, with a note or none. -/
theorem rendersRow_order {mayBeNull : Bool → Kind Named → Prop} {note : Instance}
    (h : note = .null ∧ mayBeNull true (.scalar ["CharField", "Field"]) ∨ ∃ s, note = .string s) :
    RendersRow orders anyNative mayBeNull (orders.fields .order).entries (renderedOrder note) := by
  have hline : RendersRow orders anyNative mayBeNull (orders.fields .line).entries [("note", note)] := by
    rcases h with ⟨rfl, hnull⟩ | ⟨s, rfl⟩
    · exact .null rfl hnull .nil
    · refine .value rfl (.scalar ?_) .nil
      simp [anyNative, native, Instance.hasType]
  have hlines : Renders orders anyNative mayBeNull (.many .line false)
      (.array ([[("note", note)]].map .object)) := .many fun ms hms => by
    obtain rfl := List.mem_singleton.1 hms
    exact hline
  have hnumber : anyNative ["IntegerField", "Field"] (.number 7) := by
    simp only [anyNative, native, List.forall_mem_cons]
    decide
  exact .value rfl (.scalar hnumber) (.value rfl hlines .nil)

end RestFrameworkServices.Rendered
