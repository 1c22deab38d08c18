import RestFrameworkServices.Serializers.Graph
import Mathlib.Logic.Relation

/-!
# Reading a serializer's field markings

`build_audience_projection` reads an output declaration's markings with `_project`, which takes the
fields in order, refuses a bare value where a marking belongs and a second label, and recurses into
a nested serializer under at most one list layer. It carries no path, and a refusal below a field
ends the walk there: `projectWalk_ends_iff_no_chain` says it ends exactly where no endless chain of
nested serializers starts that no refusal comes before.
-/

namespace RestFrameworkServices

open Lib

universe u v

variable {C : Type u} {S : Type v}

/-! ## One field -/

/-- One output declaration's agent presentation. -/
structure AudienceProjection where
  fields : List (String × FieldMarking)
  label : Option String
  choiceLabels : List (String × List (String × String))
  nested : List (String × AudienceProjection)

/-- `ImproperlyConfigured`: a bare value under `MARKING`, as it prints, or two fields marked as the
label. -/
inductive Misconfigured (S : Type v) where
  | bareMarking (s : S) (field repr : String)
  | twoLabels (s : S) (first second : String)

/-- The text of the refusal. -/
def Misconfigured.message (className : S → String) : Misconfigured S → String
  | .bareMarking s field repr =>
    className s ++ "." ++ field ++ ": style['drf_marking'] is " ++ repr ++
      ", not a FieldMarking. Use FieldMarking.handle() / .hidden() / .label() — a bare value here " ++
      "is silently ignored."
  | .twoLabels s first second =>
    className s ++ ": both '" ++ first ++ "' and '" ++ second ++
      "' are marked FieldMarking.label(). A record has one name — pick the field an agent should " ++
      "call it by."

/-- The first marking in the field's `style`, under whatever key. -/
def DeclaredField.marking? (f : DeclaredField S) : Option FieldMarking :=
  f.style.findSome? fun
    | (_, .marking m) => some m
    | (_, .other _) => none

/-- `_marking`. -/
def fieldMarking (s : S) (e : String × DeclaredField S) :
    Except (Misconfigured S) (Option FieldMarking) :=
  match e.2.style.lookup "drf_marking" with
  | some (.other repr) => .error (.bareMarking s e.1 repr)
  | _ => .ok e.2.marking?

/-- The label once a field is read with its marking. -/
def claimLabel (s : S) (label : Option String) (name : String) :
    Option FieldMarking → Except (Misconfigured S) (Option String)
  | some ⟨.label⟩ =>
    match label with
    | some first => .error (.twoLabels s first name)
    | none => .ok (some name)
  | _ => .ok label

/-- The label once a field is read, unless its marking or its label is refused. -/
def readMark (s : S) (label : Option String) (e : String × DeclaredField S) :
    Except (Misconfigured S) (Option String) :=
  match fieldMarking s e with
  | .error refusal => .error refusal
  | .ok marking => claimLabel s label e.1 marking

/-- The label once fields are read in order, unless one of them is refused. -/
def readMarks (s : S) : Option String → List (String × DeclaredField S) →
    Except (Misconfigured S) (Option String)
  | label, [] => .ok label
  | label, e :: es =>
    match readMark s label e with
    | .error refusal => .error refusal
    | .ok label => readMarks s label es

/-- The displays of a `ChoiceField` that are not their values. -/
def DeclaredField.choiceLabels (f : DeclaredField S) : List (String × String) :=
  (f.choices.getD []).filter fun c => c.2 != c.1

/-- The serializer `_project` of a field recurses into: the field, or its child where it is a list. -/
def Shape.projected : Shape S → Option S
  | .many s => some s
  | .list child => child.serializer
  | field => field.serializer

namespace AudienceProjection

/-- `AudienceProjection()`. -/
def empty : AudienceProjection := ⟨[], none, [], []⟩

/-- A field's own part: its marking, the label it leaves and its choices' displays. -/
def mark (p : AudienceProjection) (label : Option String) (e : String × DeclaredField S) :
    AudienceProjection where
  fields := p.fields ++ (e.2.marking?.map fun marking => (e.1, marking)).toList
  label := label
  choiceLabels := p.choiceLabels ++
    if e.2.choiceLabels.isEmpty then [] else [(e.1, e.2.choiceLabels)]
  nested := p.nested

/-- A field's nested part, where it is not empty. -/
def nest (isEmpty : AudienceProjection → Bool) (p : AudienceProjection) (name : String)
    (child : AudienceProjection) : AudienceProjection :=
  if isEmpty child then p else { p with nested := p.nested ++ [(name, child)] }

end AudienceProjection

/-! ## The walk -/

section
variable (isEmpty : AudienceProjection → Bool)
  (describe : S → Option (Except (Misconfigured S) AudienceProjection)) (s : S)

/-- `_project`'s loop over the fields, past those that gave a projection. -/
def projectFields : AudienceProjection → List (String × DeclaredField S) →
    Option (Except (Misconfigured S) AudienceProjection)
  | p, [] => some (.ok p)
  | p, e :: es =>
    match readMark s p.label e with
    | .error refusal => some (.error refusal)
    | .ok label =>
      match e.2.shape.projected with
      | none => projectFields (p.mark label e) es
      | some t =>
        match describe t with
        | none => none
        | some (.error refusal) => some (.error refusal)
        | some (.ok child) => projectFields ((p.mark label e).nest isEmpty e.1 child) es

/-- The serializers the loop recurses into. -/
def projectEntered : Option String → List (String × DeclaredField S) → List S
  | _, [] => []
  | label, e :: es =>
    match readMark s label e with
    | .error _ => []
    | .ok label =>
      match e.2.shape.projected with
      | none => projectEntered label es
      | some t =>
        t :: match describe t with
          | some (.ok _) => projectEntered label es
          | _ => []

end

@[simp] theorem AudienceProjection.mark_label (p : AudienceProjection) (label : Option String)
    (e : String × DeclaredField S) : (p.mark label e).label = label := rfl

/-- Nesting a child leaves the label. -/
@[simp] theorem AudienceProjection.nest_label (isEmpty : AudienceProjection → Bool)
    (p : AudienceProjection) (name : String) (child : AudienceProjection) :
    (p.nest isEmpty name child).label = p.label := by
  unfold nest
  split <;> rfl

section
variable {isEmpty : AudienceProjection → Bool}
  {describe f g : S → Option (Except (Misconfigured S) AudienceProjection)} {s : S}

/-- Fields are projected where the serializers entered are described. -/
theorem isSome_projectFields : ∀ {p : AudienceProjection} {es : List (String × DeclaredField S)},
    (projectFields isEmpty describe s p es).isSome ↔
      ∀ t ∈ projectEntered describe s p.label es, (describe t).isSome
  | p, [] => by simp [projectFields, projectEntered]
  | p, e :: es => by
    unfold projectFields projectEntered
    cases readMark s p.label e with
    | error refusal => simp
    | ok label =>
      cases e.2.shape.projected with
      | none => simpa using isSome_projectFields (p := p.mark label e)
      | some t =>
        rcases ht : describe t with _ | _ | child
        · simp [ht]
        · simp [ht]
        · have ih : (projectFields isEmpty describe s ((p.mark label e).nest isEmpty e.1 child)
            es).isSome ↔ _ := isSome_projectFields
          simpa [ht] using ih

/-- What more is described leaves a projection as it is. -/
theorem projectFields_mono (h : Extends f g) :
    ∀ {p : AudienceProjection} {es : List (String × DeclaredField S)} {x},
      projectFields isEmpty f s p es = some x → projectFields isEmpty g s p es = some x
  | _, [], _, hx => hx
  | p, e :: es, x, hx => by
    unfold projectFields at hx ⊢
    cases hmark : readMark s p.label e with
    | error refusal => simpa only [hmark] using hx
    | ok label =>
      simp only [hmark] at hx ⊢
      cases hchild : e.2.shape.projected with
      | none =>
        simp only [hchild] at hx ⊢
        exact projectFields_mono h hx
      | some t =>
        simp only [hchild] at hx ⊢
        rcases ht : f t with _ | _ | child
        · simp [ht] at hx
        · simpa only [ht, h _ _ ht] using hx
        · simp only [ht, h _ _ ht] at hx ⊢
          exact projectFields_mono h hx

/-- It enters no fewer serializers. -/
theorem projectEntered_mono (h : Extends f g) : ∀ {label : Option String}
    {es : List (String × DeclaredField S)},
    projectEntered f s label es ⊆ projectEntered g s label es
  | _, [] => fun _ ht => ht
  | label, e :: es => by
    unfold projectEntered
    cases readMark s label e with
    | error refusal => exact fun _ ht => ht
    | ok label =>
      cases e.2.shape.projected with
      | none => exact projectEntered_mono h
      | some t =>
        refine List.cons_subset_cons t ?_
        rcases ht : f t with _ | _ | child
        · exact List.nil_subset _
        · exact List.nil_subset _
        · simp only [h _ _ ht]
          exact projectEntered_mono h

/-- It enters no more, where those entered are described. -/
theorem projectEntered_stable (h : Extends f g) : ∀ {label : Option String}
    {es : List (String × DeclaredField S)},
    (∀ t ∈ projectEntered f s label es, (f t).isSome) →
    projectEntered g s label es ⊆ projectEntered f s label es
  | _, [], _ => fun _ ht => ht
  | label, e :: es, hall => by
    unfold projectEntered at hall ⊢
    cases hmark : readMark s label e with
    | error refusal => exact fun _ ht => ht
    | ok label =>
      simp only [hmark] at hall ⊢
      cases hchild : e.2.shape.projected with
      | none =>
        simp only [hchild] at hall
        exact projectEntered_stable h hall
      | some t =>
        simp only [hchild, List.forall_mem_cons] at hall
        obtain ⟨r, hr⟩ := Option.isSome_iff_exists.1 hall.1
        refine List.cons_subset_cons t ?_
        simp only [hr, h _ _ hr] at hall ⊢
        cases r with
        | error refusal => exact fun _ ht => ht
        | ok child => exact projectEntered_stable h hall.2

end

namespace Declarations

variable (G : Declarations C S) (isEmpty : AudienceProjection → Bool)

/-- `_project`, as a walk over serializers. -/
def projectWalk : Walk S (Except (Misconfigured S) AudienceProjection) where
  step describe s := projectFields isEmpty describe s .empty (G.fields s).entries
  demand describe s := projectEntered describe s none (G.fields s).entries
  isSome_step _ _ := isSome_projectFields
  step_mono h hx := projectFields_mono h hx
  demand_mono h := projectEntered_mono h
  demand_stable h hall := projectEntered_stable h hall

/-- `_project`, with fuel. -/
def project (n : ℕ) (s : S) : Option (Except (Misconfigured S) AudienceProjection) :=
  (G.projectWalk isEmpty).run n s

/-- `_project` of a field of a serializer recurses into another, unless a refusal comes before. -/
def Holds (t s : S) : Prop := ∃ e ∈ (G.fields s).entries, e.2.shape.projected = some t

/-- `_project` refuses a field of the serializer itself. -/
def Refused (s : S) : Prop := ∃ refusal, readMarks s none (G.fields s).entries = .error refusal

/-- No serializer that nests below is refused. -/
def Clean (s : S) : Prop := ∀ t, Relation.ReflTransGen (fun a b => G.Holds b a) s t → ¬ G.Refused t

/-- `_project` of a serializer recurses into another: no field up to its own is refused, and nothing
below the fields before. -/
def ProjectNests (t s : S) : Prop :=
  ∃ pre e post, (G.fields s).entries = pre ++ e :: post ∧ e.2.shape.projected = some t ∧
    (∃ label, readMarks s none (pre ++ [e]) = .ok label) ∧
    ∀ e' ∈ pre, ∀ u, e'.2.shape.projected = some u → G.Clean u

end Declarations

/-! ## Refusals -/

section
variable {isEmpty : AudienceProjection → Bool}
  {describe : S → Option (Except (Misconfigured S) AudienceProjection)} {s : S}

/-- A projection is the answer only where no field is refused and each nested serializer has one. -/
theorem projectFields_ok : ∀ {p q : AudienceProjection} {es : List (String × DeclaredField S)},
    projectFields isEmpty describe s p es = some (.ok q) →
      readMarks s p.label es = .ok q.label ∧
        ∀ e ∈ es, ∀ t, e.2.shape.projected = some t → ∃ child, describe t = some (.ok child)
  | p, q, [], h => by
    cases h
    exact ⟨rfl, List.forall_mem_nil _⟩
  | p, q, e :: es, h => by
    unfold projectFields at h
    unfold readMarks
    cases hmark : readMark s p.label e with
    | error refusal => simp [hmark] at h
    | ok label =>
      simp only [hmark, List.forall_mem_cons] at h ⊢
      cases hchild : e.2.shape.projected with
      | none =>
        simp only [hchild] at h
        obtain ⟨hlabel, hrest⟩ := projectFields_ok h
        exact ⟨hlabel, fun _ hu => (nomatch hu), hrest⟩
      | some t =>
        simp only [hchild] at h
        rcases ht : describe t with _ | _ | child
        · simp [ht] at h
        · simp [ht] at h
        · simp only [ht] at h
          obtain ⟨hlabel, hrest⟩ := projectFields_ok h
          simp only [AudienceProjection.nest_label, AudienceProjection.mark_label] at hlabel
          refine ⟨hlabel, fun u hu => ?_, hrest⟩
          cases hu
          exact ⟨child, ht⟩

/-- A refusal is a field's own or comes from a nested serializer. -/
theorem projectFields_error : ∀ {p : AudienceProjection} {es : List (String × DeclaredField S)}
    {refusal}, projectFields isEmpty describe s p es = some (.error refusal) →
      readMarks s p.label es = .error refusal ∨
        ∃ e ∈ es, ∃ t, e.2.shape.projected = some t ∧ describe t = some (.error refusal)
  | p, [], refusal, h => by cases h
  | p, e :: es, refusal, h => by
    unfold projectFields at h
    unfold readMarks
    cases hmark : readMark s p.label e with
    | error first =>
      simp only [hmark, Option.some.injEq, Except.error.injEq] at h
      exact .inl (by rw [h])
    | ok label =>
      simp only [hmark, List.exists_mem_cons_iff] at h ⊢
      cases hchild : e.2.shape.projected with
      | none =>
        simp only [hchild] at h
        rcases projectFields_error h with hlocal | hnested
        · exact .inl hlocal
        · exact .inr (.inr hnested)
      | some t =>
        simp only [hchild] at h
        rcases ht : describe t with _ | first | child
        · simp [ht] at h
        · simp only [ht, Option.some.injEq, Except.error.injEq] at h
          exact .inr (.inl ⟨t, rfl, by rw [ht, h]⟩)
        · simp only [ht] at h
          rcases projectFields_error h with hlocal | hnested
          · simp only [AudienceProjection.nest_label, AudienceProjection.mark_label] at hlocal
            exact .inl hlocal
          · exact .inr (.inr hnested)

/-- Where the loop answers, it has an answer for a serializer that no refusal comes before. -/
theorem isSome_of_projectFields {e : String × DeclaredField S}
    {post : List (String × DeclaredField S)} {t : S} (ht : e.2.shape.projected = some t) :
    ∀ {p : AudienceProjection} {pre : List (String × DeclaredField S)} {label : Option String},
      (projectFields isEmpty describe s p (pre ++ e :: post)).isSome →
      readMarks s p.label (pre ++ [e]) = .ok label →
      (∀ e' ∈ pre, ∀ u, e'.2.shape.projected = some u → ∀ refusal,
        describe u ≠ some (.error refusal)) →
      (describe t).isSome
  | p, [], label, hsome, hmarks, _ => by
    cases hmark : readMark s p.label e with
    | error refusal => simp [readMarks, hmark] at hmarks
    | ok label =>
      rcases hd : describe t with _ | r
      · simp [projectFields, hmark, ht, hd] at hsome
      · rfl
  | p, e' :: pre, label, hsome, hmarks, hclean => by
    simp only [List.cons_append, List.forall_mem_cons] at hsome hmarks hclean
    unfold projectFields at hsome
    unfold readMarks at hmarks
    cases hmark : readMark s p.label e' with
    | error refusal => simp [hmark] at hmarks
    | ok label' =>
      simp only [hmark] at hsome hmarks
      cases hchild : e'.2.shape.projected with
      | none =>
        simp only [hchild] at hsome
        exact isSome_of_projectFields ht hsome hmarks hclean.2
      | some u =>
        simp only [hchild] at hsome
        rcases hu : describe u with _ | refusal | child
        · simp [hu] at hsome
        · exact absurd hu (hclean.1 u hchild refusal)
        · simp only [hu] at hsome
          exact isSome_of_projectFields ht hsome (by simpa using hmarks) hclean.2

/-- What the loop recurses into, no refusal comes before. -/
theorem exists_of_mem_projectEntered {t : S} : ∀ {label : Option String}
    {es : List (String × DeclaredField S)}, t ∈ projectEntered describe s label es →
      ∃ pre e post, es = pre ++ e :: post ∧ e.2.shape.projected = some t ∧
        (∃ label', readMarks s label (pre ++ [e]) = .ok label') ∧
        ∀ e' ∈ pre, ∀ u, e'.2.shape.projected = some u → ∃ child, describe u = some (.ok child)
  | _, [], h => nomatch h
  | label, e :: es, h => by
    unfold projectEntered at h
    cases hmark : readMark s label e with
    | error refusal => simp [hmark] at h
    | ok label' =>
      simp only [hmark] at h
      cases hchild : e.2.shape.projected with
      | none =>
        simp only [hchild] at h
        obtain ⟨pre, e', post, rfl, ht, ⟨label'', hmarks⟩, hpre⟩ := exists_of_mem_projectEntered h
        refine ⟨e :: pre, e', post, rfl, ht, ⟨label'', ?_⟩, ?_⟩
        · simpa only [List.cons_append, readMarks, hmark] using hmarks
        · rw [List.forall_mem_cons]
          exact ⟨fun u hu => by simp [hchild] at hu, hpre⟩
      | some u =>
        simp only [hchild, List.mem_cons] at h
        rcases h with rfl | h
        · exact ⟨[], e, es, rfl, hchild, ⟨label', by simp [readMarks, hmark]⟩, List.forall_mem_nil _⟩
        · rcases hu : describe u with _ | refusal | child
          · simp [hu] at h
          · simp [hu] at h
          · simp only [hu] at h
            obtain ⟨pre, e', post, rfl, ht, ⟨label'', hmarks⟩, hpre⟩ :=
              exists_of_mem_projectEntered h
            refine ⟨e :: pre, e', post, rfl, ht, ⟨label'', ?_⟩, ?_⟩
            · simpa only [List.cons_append, readMarks, hmark] using hmarks
            · rw [List.forall_mem_cons]
              refine ⟨fun w hw => ?_, hpre⟩
              rw [hchild] at hw
              cases hw
              exact ⟨child, hu⟩

end

namespace Declarations

variable (G : Declarations C S) (isEmpty : AudienceProjection → Bool)

/-- A projection is the answer only where nothing below is refused. -/
theorem clean_of_project_ok : ∀ {n : ℕ} {s : S} {p : AudienceProjection},
    (G.projectWalk isEmpty).run n s = some (.ok p) → G.Clean s := by
  intro n
  induction n with
  | zero => exact fun h => nomatch h
  | succ n ih =>
    intro s p h
    obtain ⟨hlabel, hnested⟩ := projectFields_ok h
    intro t ht
    induction ht using Relation.ReflTransGen.head_induction_on with
    | refl =>
      rintro ⟨refusal, hrefused⟩
      rw [show AudienceProjection.empty.label = none from rfl, hrefused] at hlabel
      cases hlabel
    | head hstep hrest _ =>
      obtain ⟨e, he, hu⟩ := hstep
      obtain ⟨child, hchild⟩ := hnested e he _ hu
      exact ih hchild t hrest

/-- A refusal is the answer only where something below is refused. -/
theorem not_clean_of_project_error : ∀ {n : ℕ} {s : S} {refusal : Misconfigured S},
    (G.projectWalk isEmpty).run n s = some (.error refusal) → ¬ G.Clean s := by
  intro n
  induction n with
  | zero => exact fun h => nomatch h
  | succ n ih =>
    intro s refusal h hclean
    rcases projectFields_error h with hlocal | ⟨e, he, t, ht, hchild⟩
    · exact hclean s .refl ⟨refusal, hlocal⟩
    · exact ih hchild fun u hu => hclean u (.head ⟨e, he, ht⟩ hu)

/-- No endless chain starts where a run answers. -/
theorem no_chain_of_project : ∀ {n : ℕ} {f : ℕ → S}, (∀ k, G.ProjectNests (f (k + 1)) (f k)) →
    ¬ ((G.projectWalk isEmpty).run n (f 0)).isSome := by
  intro n
  induction n with
  | zero => exact fun _ h => nomatch h
  | succ n ih =>
    intro f hf h
    obtain ⟨pre, e, post, hfields, ht, ⟨label, hmarks⟩, hclean⟩ := hf 0
    refine ih (f := fun k => f (k + 1)) (fun k => hf (k + 1)) ?_
    replace h : (projectFields isEmpty ((G.projectWalk isEmpty).run n) (f 0) .empty
      (G.fields (f 0)).entries).isSome := h
    rw [hfields] at h
    refine isSome_of_projectFields ht h hmarks fun e' he' u hu refusal hrefusal => ?_
    exact G.not_clean_of_project_error isEmpty hrefusal (hclean e' he' u hu)

/-- The walk enters only serializers no refusal comes before. -/
theorem projectNests_of_enters {t s : S} (h : (G.projectWalk isEmpty).Enters t s) :
    G.ProjectNests t s := by
  obtain ⟨pre, e, post, hfields, ht, hmarks, hpre⟩ := exists_of_mem_projectEntered h
  refine ⟨pre, e, post, hfields, ht, hmarks, fun e' he' u hu => ?_⟩
  obtain ⟨child, hchild⟩ := hpre e' he' u hu
  obtain ⟨n, hn⟩ := (G.projectWalk isEmpty).exists_run_of_value hchild
  exact G.clean_of_project_ok isEmpty hn

/-- **`_project` ends exactly where no endless chain of serializers starts, each nested in a field
of the one before that no refusal comes before.** -/
theorem projectWalk_ends_iff_no_chain {s : S} : (G.projectWalk isEmpty).Ends s ↔
    ¬ ∃ f : ℕ → S, f 0 = s ∧ ∀ n, G.ProjectNests (f (n + 1)) (f n) := by
  constructor
  · rintro ⟨n, hn⟩ ⟨f, rfl, hf⟩
    exact G.no_chain_of_project isEmpty hf hn
  · intro h
    rw [Walk.ends_iff_no_chain]
    rintro ⟨f, rfl, hf⟩
    exact h ⟨f, rfl, fun n => G.projectNests_of_enters isEmpty (hf n)⟩

end Declarations

end RestFrameworkServices
