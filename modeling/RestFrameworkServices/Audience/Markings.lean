import RestFrameworkServices.Serializers.Termination

/-!
# Markings and the output schema

The schema of an output describes a field of a nested serializer through any number of list layers
(`Schema.objectAt`); `_project` reads the markings of a nested serializer through one. So a
projection holds a described field's marking at the field's path (`AudienceProjection.markingAt`)
exactly where no step to it passes two layers (`marking_projected_iff`): a `ListField` of lists, or
of `many=True`, leaves a hidden field shown.
-/

namespace RestFrameworkServices

open Lib

universe u v

variable {C : Type u} {S : Type v}

/-! ## Paths -/

/-- What a schema describes under its array wrappers, which cost no step of a path. -/
def Schema.element : Schema S → Schema S
  | .array items => items.element
  | x => x

/-- The object a schema describes at a path: its serializer and properties. -/
def Schema.objectAt : Schema S → List String → Option (S × List (String × Notes × Schema S))
  | x, [] =>
    match x.element with
    | .object s properties _ => some (s, properties)
    | _ => none
  | x, step :: path =>
    match x.element with
    | .object _ properties _ => (properties.lookup step).bind fun p => p.2.objectAt path
    | _ => none

/-- The marking a projection holds of a field at a path. -/
def AudienceProjection.markingAt : AudienceProjection → List String → String → Option FieldMarking
  | p, [], name => p.fields.lookup name
  | p, step :: path, name => (p.nested.lookup step).bind fun child => child.markingAt path name

/-- No step of a path from a serializer passes two list layers. -/
def Declarations.oneLayer (G : Declarations C S) : S → List String → Bool
  | _, [] => true
  | s, step :: path =>
    match (G.fields s).get? step with
    | some f => decide (f.shape.lists ≤ 1) && f.shape.serializers.all fun t => G.oneLayer t path
    | none => false

@[simp] theorem Schema.objectAt_array (x : Schema S) : ∀ path,
    (Schema.array x).objectAt path = x.objectAt path
  | [] => rfl
  | _ :: _ => rfl

@[simp] theorem Schema.objectAt_object_nil (s : S) (properties : List (String × Notes × Schema S))
    (required : List String) :
    (Schema.object s properties required).objectAt [] = some (s, properties) := rfl

@[simp] theorem Schema.objectAt_object_cons (s : S)
    (properties : List (String × Notes × Schema S)) (required : List String) (step : String)
    (path : List String) : (Schema.object s properties required).objectAt (step :: path) =
      (properties.lookup step).bind fun p => p.2.objectAt path := rfl

@[simp] theorem Schema.objectAt_truncated (s : S) : ∀ path,
    (Schema.truncated s).objectAt path = none
  | [] => rfl
  | _ :: _ => rfl

@[simp] theorem Schema.objectAt_leaf (kind : String) : ∀ path,
    (Schema.leaf kind : Schema S).objectAt path = none
  | [] => rfl
  | _ :: _ => rfl

/-- An object below a field is an object of the schema of a serializer the field nests. -/
theorem exists_of_objectAt_shapeSchema {describe : S → Option (Schema S)} {path : List String} :
    ∀ {shape : Shape S} {x : Schema S}, shapeSchema describe shape = some x →
      (x.objectAt path).isSome → ∃ t y, shape.serializers = [t] ∧ describe t = some y ∧
        x.objectAt path = y.objectAt path
  | .leaf _, _, hx, hat | .dict _, _, hx, hat => by
    cases hx
    simp at hat
  | .list child, _, hx, hat => by
    obtain ⟨x, hrow, rfl⟩ := Option.map_eq_some_iff.1 hx
    rw [Schema.objectAt_array] at hat ⊢
    obtain ⟨t, y, ht, hy⟩ :=
      exists_of_objectAt_shapeSchema (hrow : shapeSchema describe child = some x) hat
    exact ⟨t, y, ht, hy⟩
  | .many t, _, hx, _ => by
    obtain ⟨y, hy, rfl⟩ := Option.map_eq_some_iff.1 hx
    exact ⟨t, y, rfl, hy, Schema.objectAt_array y path⟩
  | .nested t, x, hx, _ => ⟨t, x, rfl, hx, rfl⟩

/-- `_project` reads a nested serializer exactly through one list layer at most. -/
theorem projected_eq_of_lists {t : S} : ∀ {shape : Shape S}, shape.serializers = [t] →
    shape.projected = if shape.lists ≤ 1 then some t else none
  | .many _, h | .nested _, h | .list (.nested _), h => by
    cases h
    rfl
  | .list (.many _), _ => rfl
  | .list (.list child), _ => by
    have htwo : ¬ (Shape.list (Shape.list child)).lists ≤ 1 := by
      simp only [Shape.lists]
      omega
    rw [if_neg htwo]
    rfl
  | .leaf _, h | .dict _, h | .list (.leaf _), h | .list (.dict _), h => nomatch h

/-! ## What a projection holds -/

section
variable {isEmpty : AudienceProjection → Bool}
  {describe : S → Option (Except (Misconfigured S) AudienceProjection)} {s : S}

/-- What the loop keeps of the serializer a field nests. -/
def nestedProjection (isEmpty : AudienceProjection → Bool)
    (describe : S → Option (Except (Misconfigured S) AudienceProjection))
    (f : DeclaredField S) : Option AudienceProjection :=
  f.shape.projected.bind fun t =>
    match describe t with
    | some (.ok child) => if isEmpty child then none else some child
    | _ => none

/-- A field's nested part is what the loop keeps of it, and its own part is as it was. -/
theorem AudienceProjection.nest_eq (p : AudienceProjection) (name : String) (child : AudienceProjection) :
    (p.nest isEmpty name child).fields = p.fields ∧
      (p.nest isEmpty name child).nested =
        p.nested ++ ((if isEmpty child then none else some child).map (name, ·)).toList := by
  unfold nest
  split
  · exact ⟨rfl, (List.append_nil _).symm⟩
  · exact ⟨rfl, rfl⟩

/-- The first item's image, and then the rest. -/
theorem filterMap_cons_toList {α β : Type*} (f : α → Option β) (a : α) (l : List α) :
    (a :: l).filterMap f = (f a).toList ++ l.filterMap f := by
  rw [List.filterMap_cons]
  cases f a <;> rfl

/-- The loop's projection holds each field's marking, and what it keeps of each nested one. -/
theorem projectFields_entries : ∀ {p q : AudienceProjection} {es : List (String × DeclaredField S)},
    projectFields isEmpty describe s p es = some (.ok q) →
      q.fields = p.fields ++ es.filterMap (fun e => e.2.marking?.map (e.1, ·)) ∧
      q.nested = p.nested ++
        es.filterMap (fun e => (nestedProjection isEmpty describe e.2).map (e.1, ·))
  | p, q, [], h => by
    cases h
    exact ⟨(List.append_nil _).symm, (List.append_nil _).symm⟩
  | p, q, e :: es, h => by
    unfold projectFields at h
    rw [filterMap_cons_toList, filterMap_cons_toList, ← List.append_assoc, ← List.append_assoc]
    cases hmark : readMark s p.label e with
    | error refusal =>
      rw [hmark] at h
      cases h
    | ok label =>
      simp only [hmark] at h
      cases hchild : e.2.shape.projected with
      | none =>
        simp only [hchild] at h
        obtain ⟨hfields, hnested⟩ := projectFields_entries h
        have hnone : nestedProjection isEmpty describe e.2 = none := by
          rw [nestedProjection, hchild, Option.bind_none]
        rw [hfields, hnested, hnone]
        exact ⟨rfl, congrArg (· ++ _) (List.append_nil _).symm⟩
      | some t =>
        simp only [hchild] at h
        rcases ht : describe t with _ | _ | child
        · simp only [ht] at h
          cases h
        · simp only [ht] at h
          cases h
        · simp only [ht] at h
          obtain ⟨hfields, hnested⟩ := projectFields_entries h
          obtain ⟨hown, hnest⟩ := @AudienceProjection.nest_eq isEmpty (p.mark label e) e.1 child
          have hkept : nestedProjection isEmpty describe e.2 =
              if isEmpty child then none else some child := by
            rw [nestedProjection, hchild, Option.bind_some, ht]
          rw [hfields, hnested, hown, hnest, hkept]
          exact ⟨rfl, rfl⟩

end

namespace Declarations

variable (G : Declarations C S) {isEmpty : AudienceProjection → Bool}

/-- What a projection holds of a serializer's own fields. -/
theorem lookup_project {n : ℕ} {s : S} {p : AudienceProjection}
    (h : (G.projectWalk isEmpty).run (n + 1) s = some (.ok p)) (name : String) :
    p.fields.lookup name = ((G.fields s).get? name).bind (·.marking?) ∧
      p.nested.lookup name = ((G.fields s).get? name).bind
        (nestedProjection isEmpty ((G.projectWalk isEmpty).run n)) := by
  obtain ⟨hfields, hnested⟩ := projectFields_entries h
  rw [hfields, hnested]
  constructor
  · exact lookup_filterMap_of_nodup (fun _ (f : DeclaredField S) => f.marking?) name (G.fields s).nodup
  · exact lookup_filterMap_of_nodup (fun _ => nestedProjection isEmpty _) name (G.fields s).nodup

/-- A field of a run of the schema's walk is one of the serializer, described through its shape. -/
theorem exists_of_lookup_properties {forOutput : Bool} {describe : S → Option (Schema S)} {s : S}
    {properties : List (String × Notes × Schema S)}
    (h : (G.schemaFields forOutput s).mapM (property forOutput describe) = some properties)
    {name : String} {p : Notes × Schema S} (hp : properties.lookup name = some p) :
    ∃ f, (G.fields s).get? name = some f ∧ shapeSchema describe f.shape = some p.2 := by
  obtain ⟨pre, post, hsplit, -⟩ := List.lookup_eq_some_iff.1 hp
  have hmem : (name, p) ∈ properties := by simp [hsplit]
  obtain ⟨e, he, hep⟩ := exists_of_mem_mapM h hmem
  obtain ⟨x, hx, hxe⟩ := Option.map_eq_some_iff.1 hep
  obtain ⟨rfl, rfl⟩ := Prod.mk.inj hxe
  exact ⟨e.2, Dict.get?_eq_some.2 (List.mem_of_mem_filter he), hx⟩

variable [DecidableEq C]

/-- **A projection holds the marking of a field the output's schema describes exactly where no step
to it passes two list layers**, and no marking of it elsewhere. -/
theorem markingAt_eq (hempty : ∀ p, isEmpty p = true → p.fields = [] ∧ p.nested = []) :
    ∀ {path : List String} {n m : ℕ} {classes : List C} {s t : S} {schema : Schema S}
      {p : AudienceProjection} {properties : List (String × Notes × Schema S)}
      {name : String} {f : DeclaredField S},
      (G.schemaWalk true none).run n (classes, s) = some schema →
      (G.projectWalk isEmpty).run m s = some (.ok p) →
      schema.objectAt path = some (t, properties) → (G.fields t).get? name = some f →
      p.markingAt path name = if G.oneLayer s path then f.marking? else none := by
  intro path
  induction path with
  | nil =>
    intro n m classes s t schema p properties name f hschema hproject hat hf
    cases m with
    | zero => cases hproject
    | succ m =>
    rcases G.schemaWalk_cases hschema with ⟨-, rfl⟩ | ⟨-, k, props, -, -, rfl⟩
    · simp at hat
    · simp only [Schema.objectAt_object_nil, Option.some.injEq, Prod.mk.injEq] at hat
      rw [AudienceProjection.markingAt, (G.lookup_project hproject name).1, hat.1, hf]
      rfl
  | cons step path ih =>
    intro n m classes s t schema p properties name f hschema hproject hat hf
    cases m with
    | zero => cases hproject
    | succ m =>
    rcases G.schemaWalk_cases hschema with ⟨-, rfl⟩ | ⟨-, k, props, rfl, hprops, rfl⟩
    · simp at hat
    rw [Schema.objectAt_object_cons] at hat
    obtain ⟨q, hq, hat⟩ := Option.bind_eq_some_iff.1 hat
    obtain ⟨g, hg, hshape⟩ := G.exists_of_lookup_properties hprops hq
    obtain ⟨u, y, hu, hy, heq⟩ := exists_of_objectAt_shapeSchema hshape (by rw [hat]; rfl)
    rw [heq] at hat
    rw [AudienceProjection.markingAt, (G.lookup_project hproject step).2, hg, oneLayer, hg]
    simp only [Option.bind_some, nestedProjection, projected_eq_of_lists hu, hu, List.all_cons,
      List.all_nil, Bool.and_true, Bool.and_eq_true, decide_eq_true_eq]
    by_cases hlists : g.shape.lists ≤ 1
    · obtain ⟨-, hok⟩ := projectFields_ok hproject
      have hu' : g.shape.projected = some u := by rw [projected_eq_of_lists hu, if_pos hlists]
      obtain ⟨child, hchild⟩ := hok (step, g) (Dict.get?_eq_some.1 hg) u hu'
      have hbelow := ih hy hchild hat hf
      simp only [hlists, if_true, true_and, Option.bind_some, hchild]
      split
      · next hnone =>
        have hnothing : child.markingAt path name = none := by
          obtain ⟨hfields, hnested⟩ := hempty child hnone
          cases path <;> simp [AudienceProjection.markingAt, hfields, hnested]
        rw [← hbelow, hnothing]
        rfl
      · exact hbelow
    · simp [hlists]

/-- **On an output tree no class of which nests itself**, both walks end, and where the projection is
built it holds the marking of a field the schema describes exactly where no step to the field passes
two list layers. -/
theorem marking_projected_iff [Fintype C]
    (hempty : ∀ p, isEmpty p = true → p.fields = [] ∧ p.nested = []) {s : S}
    (hself : ¬ G.SelfNesting s) :
    ∃ n schema result,
      (∀ m, n ≤ m → G.serializerToSchema true none m s = some schema ∧
        G.project isEmpty m s = some result) ∧
      ∀ p, result = .ok p → ∀ path t properties name f marking,
        schema.objectAt path = some (t, properties) → name ∈ properties.map (·.1) →
        (G.fields t).get? name = some f → f.marking? = some marking →
        (p.markingAt path name = some marking ↔ G.oneLayer s path = true) := by
  obtain ⟨n, hn⟩ := (G.describable s).2
  obtain ⟨k, hk⟩ := G.projectWalk_ends_of_tree isEmpty hself
  obtain ⟨schema, hschema⟩ := Option.isSome_iff_exists.1 hn
  obtain ⟨result, hresult⟩ := Option.isSome_iff_exists.1 hk
  refine ⟨max n k, schema, result, fun m hm => ⟨?_, ?_⟩, ?_⟩
  · exact (G.schemaWalk true none).run_extends (le_trans (le_max_left n k) hm) _ _ hschema
  · exact (G.projectWalk isEmpty).run_extends (le_trans (le_max_right n k) hm) _ _ hresult
  · rintro p rfl path t properties name f marking hat - hf hmarking
    rw [G.markingAt_eq hempty hschema hresult hat hf, hmarking]
    cases G.oneLayer s path <;> simp

end Declarations

/-! ## A list of lists -/

/-- The kernel's `is_empty`: nothing is marked, labelled or nested. -/
def AudienceProjection.isEmpty (p : AudienceProjection) : Bool :=
  p.fields.isEmpty && p.label.isNone && p.choiceLabels.isEmpty && p.nested.isEmpty

/-- A read-only field with a style and a shape, and nothing else declared. -/
def plainField (name : String) (style : List (String × StyleEntry)) (shape : Shape S) :
    DeclaredField S :=
  { source := name, readOnly := true, writeOnly := false, required := false, allowNull := false
    hidden := false, default := .empty, label := none, helpText := none
    style := style, choices := none, shape := shape }

/-- An output (`true`) of rows (`false`) that hide a field: under a `ListField` as `rows`, and under
two as `cells`. -/
def matrix : Declarations Bool Bool where
  cls := id
  fields
    | true => {
      entries := [("rows", plainField "rows" [] (.list (.nested false))),
        ("cells", plainField "cells" [] (.list (.list (.nested false))))]
      nodup := by simp [keysOf] }
    | false => {
      entries := [("secret",
        plainField "secret" [("drf_marking", .marking ⟨.hidden⟩)] (.leaf "CharField"))]
      nodup := List.nodup_singleton _ }

/-- A matrix nests its rows, and they nest nothing. -/
theorem matrix_nests {s t : Bool} (h : matrix.Nests s t) : s = true ∧ t = false := by
  obtain ⟨e, he, ht⟩ := h
  cases s with
  | true =>
    have hmem : e ∈ [_, _] := he
    rcases List.mem_pair.1 hmem with rfl | rfl
    · exact ⟨rfl, List.mem_singleton.1 (ht : t ∈ [false])⟩
    · exact ⟨rfl, List.mem_singleton.1 (ht : t ∈ [false])⟩
  | false =>
    obtain rfl := List.mem_singleton.1 he
    cases (ht : t ∈ [])

/-- So neither nests itself. -/
theorem matrix_not_selfNesting (s : Bool) : ¬ matrix.SelfNesting s := by
  rintro ⟨t, u, -, hchain, hcls⟩
  have hends : ∀ u, Relation.TransGen matrix.Nests t u → t = true ∧ u = false := by
    intro u hchain
    induction hchain with
    | single h => exact matrix_nests h
    | tail _ h ih => exact ⟨ih.1, (matrix_nests h).2⟩
  obtain ⟨rfl, rfl⟩ := hends u hchain
  cases hcls

/-- The condition on `is_empty` and on the classes holds of the matrix. -/
theorem marking_projected_matrix : ∃ n schema result,
    (∀ m, n ≤ m → matrix.serializerToSchema true none m true = some schema ∧
      matrix.project AudienceProjection.isEmpty m true = some result) ∧
    ∀ p, result = .ok p → ∀ path t properties name f marking,
      schema.objectAt path = some (t, properties) → name ∈ properties.map (·.1) →
      (matrix.fields t).get? name = some f → f.marking? = some marking →
      (p.markingAt path name = some marking ↔ matrix.oneLayer true path = true) := by
  refine matrix.marking_projected_iff (fun p hp => ?_) (matrix_not_selfNesting true)
  simp only [AudienceProjection.isEmpty, Bool.and_eq_true, List.isEmpty_iff] at hp
  exact ⟨hp.1.1.1, hp.2⟩

/-- The schema describes the hidden field of the cells, and the projection does not hold it there. -/
theorem marking_lost_matrix : ∃ schema p,
    matrix.serializerToSchema true none 3 true = some schema ∧
    matrix.project AudienceProjection.isEmpty 3 true = some (.ok p) ∧
    (schema.objectAt ["cells"]).map (fun o => (o.1, o.2.map (·.1))) = some (false, ["secret"]) ∧
    ((matrix.fields false).get? "secret").bind (·.marking?) = some ⟨.hidden⟩ ∧
    p.markingAt ["rows"] "secret" = some ⟨.hidden⟩ ∧ p.markingAt ["cells"] "secret" = none :=
  ⟨_, _, rfl, rfl, rfl, rfl, rfl, rfl⟩

end RestFrameworkServices
