import Mathlib.Data.Finset.Card
import RestFrameworkServices.Views.MutationResponse
import RestFrameworkServices.Viewsets.Permissions

/-!
# What OPTIONS describes

DRF answers OPTIONS by asking the view, for each POST and PUT it routes, what the method's body is: it checks
the view's permissions, looks a row up for a PUT, and builds a serializer. A viewset built from specs answers
each of these by the spec the method routes to. DRF's own walk, and what the mixins hand back to through
`super()`, are a parameter (`Drf`), of which only what DRF documents is assumed (`Drf.Lawful`).

What OPTIONS answers is the truth (`described_iff_accepted`): a method that the view admits, and finds the row
of, is described by a body exactly when every request of the method that its handler serves is one of that body,
whichever variant the discriminator picks, and some request is served. `options_eq_error_iff` says on which
views OPTIONS fails instead of answering.
-/

namespace RestFrameworkServices.Metadata

open Lib Viewsets
open MutationResponse (Targets TargetSource mutationTargetSource)

universe u v w

/-! ## Views -/

/-- What a service spec accepts: the serializer of its body, and its targets. -/
structure Accepted (B : Type v) extends Targets where
  inputSerializer : Option B

/-- A body as it is described: of no fields (`_NoBody`), or a serializer's. -/
inductive Body (B : Type v) where
  | noFields
  | of (serializer : B)
  deriving DecidableEq

/-- The body of an `input_serializer`. -/
def Body.ofInput {B : Type v} : Option B → Body B
  | none => .noFields
  | some serializer => .of serializer

/-- What becomes of a step DRF takes: it goes on, or raises an API exception, or any other. -/
inductive Probe where
  | passes
  | apiException
  | crashes
  deriving DecidableEq

/-- A handler of a viewset, by its markers: `_dispatches_action_specs`, and DRF's `detail`. -/
structure Handler where
  dispatchesActionSpecs : Bool
  detail : Option Bool

/-- A `get_serializer_class` or `get_serializer` of the view's own, which names a serializer or hands back to
the package's. -/
inductive SerializerOverride (B : Type v) where
  | none
  | own (serializer : B)
  | delegating

/-- A viewset, at a request. `action` and `method` are as DRF sets them, `actionMap` is what the methods route
to, `lookup` the kwarg a row is looked up by, and `outputSerializer` that of an entry of `action_specs`. The
rest is what is not the package's to decide: whether the view's permissions admit a method, which serializers
can be built, where the rows come from, and what becomes of filtering them and of looking one up. -/
structure ViewSet (P : Type u) (B : Type v) extends View P (Accepted B) where
  answeringOptions : Bool
  actionMap : String → Option String
  handlers : String → Option Handler
  kwargs : List String
  lookup : String
  serializerClass : Option B
  serializerOverride : SerializerOverride B
  outputSerializer : String → Option B
  admits : String → Bool
  builds : B → Bool
  queryset : Bool
  ownGetQueryset : Option Probe
  listSelector : Option Probe
  retrieveSelector : Option Probe
  filterQueryset : Probe
  row : Probe

/-- The parts of DRF an OPTIONS answer goes through: `SimpleMetadata.determine_actions`, of a view that answers,
and its step for the method a view's request is of; and `GenericAPIView`'s `get_object`, `get_queryset` and
`get_serializer_class`, which asserts where there is none. -/
structure Drf (P : Type u) (B : Type v) where
  determineActions : ViewSet P B → Except Unit (List (String × Body B))
  describe : ViewSet P B → Except Unit (Option (Body B))
  getObject : ViewSet P B → Probe
  getQueryset : ViewSet P B → Probe
  getSerializerClass : ViewSet P B → Option B

variable {P : Type u} {B : Type v} {E : Type w} [DecidableEq B]

/-- `polymorphic_inputs_disagree`. -/
def polymorphicInputsDisagree (poly : PolymorphicServiceSpec P (Accepted B)) : Bool :=
  decide (1 < (poly.specs.values.map (·.service.inputSerializer)).toFinset.card)

/-- `_body_serializer`, `none` where the spec cannot say. -/
def bodySerializer (polymorphic : Nat → PolymorphicServiceSpec P (Accepted B)) :
    Option (ActionSpec P (Accepted B)) → Option (Body B)
  | some (.selector _) => some .noFields
  | some (.service spec) => some (.ofInput spec.service.inputSerializer)
  | some (.polymorphic id) =>
    if polymorphicInputsDisagree (polymorphic id) then none
    else (polymorphic id).specs.values.head?.map fun variant => .ofInput variant.service.inputSerializer
  | none => none

namespace ViewSet

variable (view : ViewSet P B) (drf : Drf P B)

/-! ### The description of a method -/

/-- `_describing_for_options`. -/
def describingForOptions : Bool := view.action == some "metadata" && view.answeringOptions

/-- `_described_action`. -/
def describedAction : String := (view.actionMap view.method).getD ""

/-- `_described_action_spec`. -/
def describedActionSpec : Option (ActionSpec P (Accepted B)) :=
  resolveActionSpec view.toView (some view.describedAction)

/-- Whether a handler of the package is routed to that no spec serves. -/
def unserved : Bool :=
  view.describedActionSpec.isNone && (view.handlers view.describedAction).any (·.dispatchesActionSpecs)

/-- Whether the package would have to choose between the bodies of the variants. -/
def ambiguous : Bool :=
  match view.describedActionSpec, view.serializerClass, view.serializerOverride with
  | some (.polymorphic id), none, .none => polymorphicInputsDisagree (view.polymorphic id)
  | _, _, _ => false

/-- `check_permissions`. -/
def checkPermissions : Probe :=
  if !view.admits view.method then .apiException
  else if view.describingForOptions && (view.unserved || view.ambiguous) then .apiException
  else .passes

/-- Where the target of the described method comes from, if a service spec says. -/
def describedTarget : Option TargetSource :=
  match view.describedActionSpec with
  | some (.service spec) => some (mutationTargetSource spec.service.toTargets)
  | _ => none

/-- `_metadata_probe_has_no_row`. -/
def metadataProbeHasNoRow : Bool :=
  view.describingForOptions && !view.kwargs.contains view.lookup &&
    ((view.handlers view.describedAction).any (·.detail == some false) ||
      view.describedTarget == some .bulk)

/-- `get_queryset`, the view's own, then a list selector's, then the mixin's, which leaves a PUT out that never
looks a row up, then DRF's. -/
def getQueryset : Probe :=
  match view.ownGetQueryset, view.listSelector with
  | some probe, _ => probe
  | none, some probe => probe
  | none, none =>
    if !view.queryset && view.describingForOptions && view.describedTarget.any (· != .getObject) then
      .apiException
    else drf.getQueryset view

/-- `get_object`, of a composition with a retrieve selector or without. -/
def getObject : Probe :=
  if view.metadataProbeHasNoRow then .passes
  else view.retrieveSelector.getD (drf.getObject view)

/-- `ActionSerializerResolver.get_serializer_class`, `none` where DRF's asserts. -/
def getSerializerClass : Option (Body B) :=
  let described :=
    if view.describingForOptions && view.serializerClass.isNone then
      bodySerializer view.polymorphic view.describedActionSpec
    else none
  match described with
  | some body => some body
  | none => ((view.action.bind view.outputSerializer).or (drf.getSerializerClass view)).map .of

/-- `get_serializer`. -/
def getSerializer : Option (Body B) :=
  match view.serializerOverride with
  | .own serializer => some (.of serializer)
  | _ => view.getSerializerClass drf

/-- Whether a serializer can be built with DRF's context alone. -/
def canBuild : Body B → Bool
  | .noFields => true
  | .of serializer => view.builds serializer

/-- The methods DRF describes. -/
def describedMethods : List String := ["PUT", "POST"].filter fun method => (view.actionMap method).isSome

/-- The view as `options` leaves it, under DRF's implicit action. -/
def answering : ViewSet P B := { view with answeringOptions := true, action := some "metadata" }

/-- `options`: what it answers with, as `actions`. -/
def options : Except Unit (List (String × Body B)) := drf.determineActions view.answering

/-- The view while a method of it is described. -/
def probing (method : String) : ViewSet P B := { view.answering with method := method }

/-! ### A request of a method -/

/-- The view at a request of a method. -/
def requested (method : String) : View P (Accepted B) :=
  { view.toView with action := view.actionMap method, method := method }

/-- The body of what a handler resolves, if it does. -/
def resolvedBody : Except (ResolutionError E) (ServiceSpec P (Accepted B)) × Choices P (Accepted B) →
    Option (Body B)
  | (.ok spec, _) => some (.ofInput spec.service.inputSerializer)
  | (.error _, _) => none

/-- The body a request of a method is validated by, where the discriminator comes to `verdict`: that of the
spec its handler dispatches. A selector's handler reads none, and a request that is refused has none. -/
def acceptedBody (method : String) (verdict : Verdict E) : Option (Body B) :=
  match dispatchedSpec (view.requested method) verdict .empty with
  | some resolved => resolvedBody resolved
  | none => (view.actionMap method).map fun _ => .noFields

end ViewSet

/-! ## DRF -/

/-- What DRF documents of its parts. `determine_actions` answers with the description of each method, unless one
fails; a method is left out where its permission check, or for a PUT `get_object`, raises an API exception, and
is described by the serializer the view builds. `get_object` filters the queryset and looks its kwarg up in
it. -/
structure Drf.Lawful (drf : Drf P B) : Prop where
  actions : ∀ view actions, drf.determineActions view = .ok actions → ∀ method body,
    (method, body) ∈ actions ↔
      method ∈ view.describedMethods ∧ drf.describe { view with method := method } = .ok (some body)
  fails : ∀ view, drf.determineActions view = .error () ↔
    ∃ method ∈ view.describedMethods, drf.describe { view with method := method } = .error ()
  refused : ∀ view, view.checkPermissions = .apiException → drf.describe view = .ok none
  rowMissing : ∀ view, view.checkPermissions = .passes → view.method = "PUT" →
    view.getObject drf = .apiException → drf.describe view = .ok none
  rowFails : ∀ view, view.checkPermissions = .passes → view.method = "PUT" →
    view.getObject drf = .crashes → drf.describe view = .error ()
  described : ∀ view body, view.checkPermissions = .passes →
    (view.method = "PUT" → view.getObject drf = .passes) → view.getSerializer drf = some body →
    view.canBuild body = true → drf.describe view = .ok (some body)
  noQueryset : ∀ view, view.getQueryset drf ≠ .passes → drf.getObject view = view.getQueryset drf
  filtered : ∀ view, view.getQueryset drf = .passes → view.filterQueryset ≠ .passes →
    drf.getObject view = view.filterQueryset
  noKwarg : ∀ view, view.getQueryset drf = .passes → view.filterQueryset = .passes →
    view.kwargs.contains view.lookup = false → drf.getObject view = .crashes
  lookedUp : ∀ view, view.getQueryset drf = .passes → view.filterQueryset = .passes →
    view.kwargs.contains view.lookup = true → drf.getObject view = view.row
  queryset : ∀ view, drf.getQueryset view = if view.queryset then .passes else .crashes
  serializerClass : ∀ view, drf.getSerializerClass view = view.serializerClass

/-! ## The description is what is accepted -/

/-- A view built of the package's parts alone. What its methods route to is a handler of the package, of an
entry that is no selector's, or one a decorator stamped, which has no entry beside its stamp. -/
structure Composed (view : ViewSet P B) : Prop where
  serializerClass : view.serializerClass = none
  serializerOverride : view.serializerOverride = .none
  builds : ∀ serializer, view.builds serializer = true
  routed : ∀ method action, view.actionMap method = some action →
    (view.handlers action).any (·.dispatchesActionSpecs) = true ∨ (view.stamped action).isSome = true
  mutations : ∀ action classes, (view.handlers action).any (·.dispatchesActionSpecs) = true →
    resolveActionSpecEntry view.actionSpecs (some action) ≠ some (.selector classes)
  once : ∀ action, (view.stamped action).isSome = true →
    resolveActionSpecEntry view.actionSpecs (some action) = none
  variants : ∀ id, (view.polymorphic id).specs.values ≠ []

/-- The bodies a spec accepts, one for each of its variants. -/
def acceptedBodies (polymorphic : Nat → PolymorphicServiceSpec P (Accepted B)) :
    Option (ActionSpec P (Accepted B)) → List (Body B)
  | some (.selector _) => [.noFields]
  | some (.service spec) => [.ofInput spec.service.inputSerializer]
  | some (.polymorphic id) =>
    (polymorphic id).specs.values.map fun variant => .ofInput variant.service.inputSerializer
  | none => []

section
variable {view : ViewSet P B} {drf : Drf P B} {method action : String}

omit [DecidableEq B] in
/-- Two inputs of one body are one input. -/
theorem Body.ofInput_injective : Function.Injective (Body.ofInput (B := B)) := by
  rintro (_ | a) (_ | b) h <;> cases h <;> rfl

/-- Inputs disagree where two variants accept different bodies. -/
theorem polymorphicInputsDisagree_iff {poly : PolymorphicServiceSpec P (Accepted B)} :
    polymorphicInputsDisagree poly = true ↔ ∃ a ∈ poly.specs.values, ∃ b ∈ poly.specs.values,
      a.service.inputSerializer ≠ b.service.inputSerializer := by
  simp only [polymorphicInputsDisagree, decide_eq_true_eq, Finset.one_lt_card, List.mem_toFinset,
    List.mem_map, exists_exists_and_eq_and]

/-- A spec's body is the one body it accepts. -/
theorem bodySerializer_eq_some_iff {polymorphic : Nat → PolymorphicServiceSpec P (Accepted B)}
    {spec : Option (ActionSpec P (Accepted B))} {body : Body B} :
    bodySerializer polymorphic spec = some body ↔
      body ∈ acceptedBodies polymorphic spec ∧ ∀ other ∈ acceptedBodies polymorphic spec, other = body := by
  match spec with
  | none => simp [bodySerializer, acceptedBodies]
  | some (.selector _) => simp [bodySerializer, acceptedBodies, eq_comm]
  | some (.service _) => simp [bodySerializer, acceptedBodies, eq_comm]
  | some (.polymorphic id) =>
    simp only [bodySerializer, acceptedBodies, List.mem_map, forall_exists_index, and_imp,
      forall_apply_eq_imp_iff₂]
    split
    · next hdisagree =>
      obtain ⟨a, ha, b, hb, hne⟩ := polymorphicInputsDisagree_iff.1 hdisagree
      refine ⟨nofun, fun h => absurd (Body.ofInput_injective ?_) hne⟩
      rw [h.2 a ha, h.2 b hb]
    · next hagree =>
      have hsame : ∀ a ∈ (polymorphic id).specs.values, ∀ b ∈ (polymorphic id).specs.values,
          a.service.inputSerializer = b.service.inputSerializer := by
        intro a ha b hb
        by_contra hne
        exact hagree (polymorphicInputsDisagree_iff.2 ⟨a, ha, b, hb, hne⟩)
      rcases hvalues : (polymorphic id).specs.values with _ | ⟨first, rest⟩
      · simp
      · rw [hvalues] at hsame
        have hfirst : first ∈ first :: rest := List.mem_cons_self
        rw [List.head?_cons, Option.map_some, Option.some.injEq]
        constructor
        · rintro rfl
          exact ⟨⟨first, hfirst, rfl⟩, fun a ha => by rw [hsame a ha first hfirst]⟩
        · exact fun h => h.2 first hfirst

/-! ### A method's description -/

omit [DecidableEq B] in
/-- While a method is described, the action described is the one it routes to. -/
theorem describedAction_probing (hroute : view.actionMap method = some action) :
    (view.probing method).describedAction = action := by
  simp only [ViewSet.describedAction, ViewSet.probing, ViewSet.answering, hroute, Option.getD_some]

omit [DecidableEq B] in
/-- What a routed method's description goes by. -/
theorem describedActionSpec_probing (hroute : view.actionMap method = some action) :
    (view.probing method).describedActionSpec = resolveActionSpec view.toView (some action) := by
  rw [ViewSet.describedActionSpec, describedAction_probing hroute]
  rfl

/-- A view of the package's parts leaves a method out exactly where its spec has no one body. -/
theorem leftOut_iff (h : Composed view) (hroute : view.actionMap method = some action) :
    ((view.probing method).unserved || (view.probing method).ambiguous) = true ↔
      bodySerializer view.polymorphic (resolveActionSpec view.toView (some action)) = none := by
  have hclass : (view.probing method).serializerClass = none := h.serializerClass
  have hoverride : (view.probing method).serializerOverride = .none := h.serializerOverride
  simp only [ViewSet.unserved, ViewSet.ambiguous, describedActionSpec_probing hroute,
    describedAction_probing hroute, hclass, hoverride]
  match hspec : resolveActionSpec view.toView (some action) with
  | none =>
    have hmarked : (view.handlers action).any (·.dispatchesActionSpecs) = true := by
      refine (h.routed method action hroute).resolve_right fun hstamped => ?_
      rw [resolveActionSpec, h.once action hstamped, Option.none_or, Option.bind_some] at hspec
      rw [hspec] at hstamped
      cases hstamped
    have hprobing : ((view.probing method).handlers action).any (·.dispatchesActionSpecs) = true := hmarked
    simp [hprobing, bodySerializer]
  | some (.selector _) => simp [bodySerializer]
  | some (.service _) => simp [bodySerializer]
  | some (.polymorphic id) =>
    have hsome : ((view.polymorphic id).specs.values.head?).isSome = true := by
      rw [Option.isSome_iff_ne_none, ne_eq, List.head?_eq_none_iff]
      exact h.variants id
    obtain ⟨first, hfirst⟩ := Option.isSome_iff_exists.1 hsome
    have hprobing : (view.probing method).polymorphic id = view.polymorphic id := rfl
    simp [bodySerializer, hfirst, hprobing]

/-- While a method is described, its check refuses what the view refuses, and what is left out. -/
theorem checkPermissions_probing :
    (view.probing method).checkPermissions =
      if view.admits method = false ∨ ((view.probing method).unserved || (view.probing method).ambiguous) = true
      then .apiException else .passes := by
  have hadmits : (view.probing method).admits (view.probing method).method = view.admits method := rfl
  have hdescribing : (view.probing method).describingForOptions = true := rfl
  rw [ViewSet.checkPermissions, hadmits, hdescribing, Bool.true_and]
  cases view.admits method <;> simp

/-- The serializer of a view of the package's parts is its spec's body. -/
theorem getSerializer_probing (h : Composed view) (hroute : view.actionMap method = some action)
    {body : Body B}
    (hbody : bodySerializer view.polymorphic (resolveActionSpec view.toView (some action)) = some body) :
    (view.probing method).getSerializer drf = some body := by
  have hclass : (view.probing method).serializerClass = none := h.serializerClass
  have hoverride : (view.probing method).serializerOverride = .none := h.serializerOverride
  have hdescribing : (view.probing method).describingForOptions = true := rfl
  have hpolymorphic : (view.probing method).polymorphic = view.polymorphic := rfl
  simp only [ViewSet.getSerializer, ViewSet.getSerializerClass, hclass, hoverride, hdescribing,
    describedActionSpec_probing hroute, hpolymorphic, hbody, Option.isNone_none, Bool.and_self, if_true]

/-- The probe of a method's row, which a PUT alone has. -/
def rowProbe (drf : Drf P B) (view : ViewSet P B) (method : String) : Probe :=
  if method = "PUT" then (view.probing method).getObject drf else .passes

/-- A method is described by its spec's body, where the view's permissions admit it, past the probe of its
row. -/
theorem describe_of_composed (hdrf : drf.Lawful) (h : Composed view)
    (hroute : view.actionMap method = some action) :
    drf.describe (view.probing method) =
      match bodySerializer view.polymorphic (resolveActionSpec view.toView (some action)),
        view.admits method, rowProbe drf view method with
      | some _, true, .crashes => .error ()
      | some body, true, .passes => .ok (some body)
      | _, _, _ => .ok none := by
  have hleft := leftOut_iff h hroute
  rcases hbody : bodySerializer view.polymorphic (resolveActionSpec view.toView (some action)) with _ | body
  · exact hdrf.refused _ (by rw [checkPermissions_probing, if_pos (.inr (hleft.2 hbody))])
  · rcases hadmits : view.admits method with _ | _
    · exact hdrf.refused _ (by rw [checkPermissions_probing, if_pos (.inl hadmits)])
    · have hpasses : (view.probing method).checkPermissions = .passes := by
        rw [checkPermissions_probing, if_neg]
        rw [hleft, hadmits, hbody]
        simp
      have hbuilds : (view.probing method).canBuild body = true := by
        cases body with
        | noFields => rfl
        | of serializer => exact h.builds serializer
      have hmethod : (view.probing method).method = method := rfl
      have hserializer : (view.probing method).getSerializer drf = some body :=
        getSerializer_probing h hroute hbody
      rcases hrow : rowProbe drf view method with _ | _ | _ <;> rw [rowProbe] at hrow
      · refine hdrf.described _ body hpasses (fun hput => ?_) hserializer hbuilds
        rwa [if_pos (hmethod.symm.trans hput)] at hrow
      · split at hrow
        · next hput => exact hdrf.rowMissing _ hpasses hput hrow
        · cases hrow
      · split at hrow
        · next hput => exact hdrf.rowFails _ hpasses hput hrow
        · cases hrow

/-! ### What is accepted -/

omit [DecidableEq B] in
/-- The discriminator may come to any variant of its spec, and to nothing else. -/
theorem exists_resolvedBody_iff {requested : View P (Accepted B)} {id : Nat} {body : Body B} :
    (∃ verdict : Verdict E, ViewSet.resolvedBody
        (resolvePolymorphicServiceSpec requested id verdict .empty) = some body) ↔
      ∃ variant ∈ (requested.polymorphic id).specs.values, .ofInput variant.service.inputSerializer = body := by
  simp only [resolvePolymorphicServiceSpec, Dict.get?_empty]
  constructor
  · rintro ⟨verdict, hbody⟩
    cases verdict with
    | rejected error => cases hbody
    | raised error => cases hbody
    | key name =>
      rcases hvariant : (requested.polymorphic id).specs.get? name with _ | variant
      · simp [hvariant, ViewSet.resolvedBody] at hbody
      · simp only [hvariant, ViewSet.resolvedBody, Option.some.injEq] at hbody
        exact ⟨variant, Dict.mem_values.2 ⟨name, hvariant⟩, hbody⟩
  · rintro ⟨variant, hvariant, hbody⟩
    obtain ⟨name, hname⟩ := Dict.mem_values.1 hvariant
    refine ⟨.key name, ?_⟩
    simp only [hname, ViewSet.resolvedBody, hbody]

omit [DecidableEq B] in
/-- A stamped spec is its action's. -/
theorem resolveActionSpec_of_stamped (h : Composed view) {spec : ActionSpec P (Accepted B)}
    (hstamped : view.stamped action = some spec) :
    resolveActionSpec view.toView (some action) = some spec := by
  have hsome : (view.stamped action).isSome = true := by rw [hstamped]; rfl
  rw [resolveActionSpec, h.once action hsome, Option.none_or, Option.bind_some, hstamped]

omit [DecidableEq B] in
/-- The requests of a method are of the bodies its spec accepts. -/
theorem exists_acceptedBody_iff (h : Composed view) (hroute : view.actionMap method = some action)
    {body : Body B} :
    (∃ verdict : Verdict E, view.acceptedBody method verdict = some body) ↔
      body ∈ acceptedBodies view.polymorphic (resolveActionSpec view.toView (some action)) := by
  have hpolymorphic : (view.requested method).polymorphic = view.polymorphic := rfl
  have : Nonempty (Verdict E) := ⟨.key ""⟩
  have hvariants : ∀ id, (∃ verdict : Verdict E, ViewSet.resolvedBody (resolvePolymorphicServiceSpec
      (view.requested method) id verdict .empty) = some body) ↔
        body ∈ acceptedBodies view.polymorphic (some (.polymorphic id)) := by
    intro id
    rw [exists_resolvedBody_iff, acceptedBodies, List.mem_map, hpolymorphic]
  simp only [ViewSet.acceptedBody, dispatchedSpec, hroute, ViewSet.requested, Option.bind_some] at hvariants ⊢
  cases hstamped : view.stamped action with
  | some stamped =>
    rw [resolveActionSpec_of_stamped h hstamped]
    cases stamped with
    | polymorphic id => exact hvariants id
    | service spec => simp [ViewSet.resolvedBody, acceptedBodies, eq_comm]
    | selector _ => simp [acceptedBodies, eq_comm]
  | none =>
    have hmarked := (h.routed method action hroute).resolve_right (by simp [hstamped])
    rw [resolveActionSpec, Option.bind_some, hstamped, Option.or_none]
    simp only [resolveActionServiceSpec]
    cases hentry : resolveActionSpecEntry view.actionSpecs (some action) with
    | none => simp [ViewSet.resolvedBody, acceptedBodies]
    | some entry =>
      cases entry with
      | polymorphic id => exact hvariants id
      | service spec => simp [ViewSet.resolvedBody, acceptedBodies, eq_comm]
      | selector classes => exact absurd hentry (h.mutations action classes hmarked)

/-! ### An answer, whole -/

/-- An answer holds the description of each method that is routed. -/
theorem mem_options (hdrf : drf.Lawful) {actions : List (String × Body B)}
    (h : view.options drf = .ok actions) {body : Body B} :
    (method, body) ∈ actions ↔ (method ∈ ["PUT", "POST"] ∧ (view.actionMap method).isSome = true) ∧
      drf.describe (view.probing method) = .ok (some body) :=
  (hdrf.actions _ _ h method body).trans (and_congr_left fun _ => List.mem_filter)

omit [DecidableEq B] in
/-- A method that is not routed is served by nothing. -/
theorem acceptedBody_of_unrouted (hroute : view.actionMap method = none) (verdict : Verdict E) :
    view.acceptedBody method verdict = none := by
  simp [ViewSet.acceptedBody, dispatchedSpec, ViewSet.requested, hroute]

/-- **OPTIONS describes what is accepted.** A view of the package's parts describes a POST or a PUT it admits,
and finds the row of, by a body exactly when some request of the method is of the body and every one that is
served is, whatever the discriminator comes to. -/
theorem described_iff_accepted (hdrf : drf.Lawful) (h : Composed view)
    {actions : List (String × Body B)} (hoptions : view.options drf = .ok actions)
    (hmethod : method ∈ ["PUT", "POST"]) (hadmits : view.admits method = true)
    (hrow : rowProbe drf view method = .passes) (body : Body B) :
    (method, body) ∈ actions ↔
      (∃ verdict : Verdict E, view.acceptedBody method verdict = some body) ∧
        ∀ (verdict : Verdict E) other, view.acceptedBody method verdict = some other → other = body := by
  rw [mem_options hdrf hoptions]
  rcases hroute : view.actionMap method with _ | action
  · simp [acceptedBody_of_unrouted hroute]
  · have haccepted : ∀ other, (∃ verdict : Verdict E, view.acceptedBody method verdict = some other) ↔
        other ∈ acceptedBodies view.polymorphic (resolveActionSpec view.toView (some action)) :=
      fun _ => exists_acceptedBody_iff h hroute
    have hdescribe : drf.describe (view.probing method) =
        .ok (bodySerializer view.polymorphic (resolveActionSpec view.toView (some action))) := by
      rw [describe_of_composed hdrf h hroute, hadmits, hrow]
      cases bodySerializer view.polymorphic (resolveActionSpec view.toView (some action)) <;> rfl
    rw [hdescribe, Except.ok.injEq, bodySerializer_eq_some_iff, haccepted]
    refine (and_iff_right ⟨hmethod, rfl⟩).trans (and_congr_right fun _ => ⟨?_, ?_⟩)
    · intro hone verdict other hother
      exact hone other ((haccepted other).1 ⟨verdict, hother⟩)
    · intro hone other hother
      obtain ⟨verdict, hverdict⟩ := (haccepted other).2 hother
      exact hone verdict other hverdict

/-! ## Where OPTIONS fails -/

/-- What is not the package's to decide goes well: the view can list its rows, and looking one up ends in a row
or an API exception. -/
structure Quiet (view : ViewSet P B) : Prop where
  retrieveSelector : view.retrieveSelector ≠ some .crashes
  ownGetQueryset : ∀ probe ∈ view.ownGetQueryset, probe = .passes
  listSelector : ∀ probe ∈ view.listSelector, probe = .passes
  filterQueryset : view.filterQueryset = .passes
  row : view.row ≠ .crashes

/-- Whether a view has rows to look one up in: its own, a list selector's, or a `queryset`. -/
def hasRows (view : ViewSet P B) : Bool :=
  view.ownGetQueryset.isSome || view.listSelector.isSome || view.queryset

/-- Describing a method fails only in the probe of its row. -/
theorem describe_eq_error_iff (hdrf : drf.Lawful) (h : Composed view)
    (hroute : view.actionMap method = some action) :
    drf.describe (view.probing method) = .error () ↔ view.admits method = true ∧
      (bodySerializer view.polymorphic (resolveActionSpec view.toView (some action))).isSome = true ∧
      rowProbe drf view method = .crashes := by
  rw [describe_of_composed hdrf h hroute]
  cases bodySerializer view.polymorphic (resolveActionSpec view.toView (some action)) <;>
    cases view.admits method <;> cases rowProbe drf view method <;> simp

/-- DRF's lookup fails where there are rows and no kwarg to look one up by, and where there are none and the
method may look one up. -/
theorem lookUp_eq_crashes_iff (hdrf : drf.Lawful) (hquiet : Quiet view)
    (hdescribing : view.describingForOptions = true) :
    drf.getObject view = .crashes ↔
      (hasRows view = true ∧ view.kwargs.contains view.lookup = false) ∨
      (hasRows view = false ∧ view.describedTarget.all (· == .getObject) = true) := by
  have hlooked : view.getQueryset drf = .passes →
      (drf.getObject view = .crashes ↔ view.kwargs.contains view.lookup = false) := by
    intro hrows
    cases hkwarg : view.kwargs.contains view.lookup with
    | false => exact iff_of_true (hdrf.noKwarg view hrows hquiet.filterQueryset hkwarg) rfl
    | true =>
      rw [hdrf.lookedUp view hrows hquiet.filterQueryset hkwarg]
      exact iff_of_false hquiet.row Bool.true_eq_false.mp
  rcases hown : view.ownGetQueryset with _ | own
  · rcases hlist : view.listSelector with _ | list
    · rcases hqueryset : view.queryset with _ | _
      · have hempty : view.getQueryset drf =
            if view.describedTarget.any (· != .getObject) then .apiException else .crashes := by
          simp [ViewSet.getQueryset, hown, hlist, hqueryset, hdescribing, hdrf.queryset]
        rw [hdrf.noQueryset view (by rw [hempty]; split <;> simp), hempty]
        simp only [hasRows, hown, hlist, hqueryset]
        rcases htarget : view.describedTarget with _ | _ | _ | _ <;> simp
      · rw [hlooked (by simp [ViewSet.getQueryset, hown, hlist, hqueryset, hdrf.queryset])]
        simp [hasRows, hqueryset]
    · rw [hlooked (by simp [ViewSet.getQueryset, hown, hlist, hquiet.listSelector list hlist])]
      simp [hasRows, hlist]
  · rw [hlooked (by simp [ViewSet.getQueryset, hown, hquiet.ownGetQueryset own hown])]
    simp [hasRows, hown]

omit [DecidableEq B] in
/-- So does the probe, unless there is no row to probe or a retrieve selector finds it. -/
theorem getObject_eq_crashes_iff (hquiet : Quiet view) :
    view.getObject drf = .crashes ↔
      view.metadataProbeHasNoRow = false ∧ view.retrieveSelector = none ∧
        drf.getObject view = .crashes := by
  rw [ViewSet.getObject]
  split
  · next hno => simp [hno]
  · next hrow =>
    rcases hretrieve : view.retrieveSelector with _ | probe
    · simpa using fun _ => hrow
    · have hne : probe ≠ .crashes := fun h => hquiet.retrieveSelector (by rw [hretrieve, h])
      simp [hne]

/-- Whether an action is one of a `detail=False` handler. -/
def nonDetail (view : ViewSet P B) (action : String) : Bool :=
  (view.handlers action).any (·.detail == some false)

/-- Where the target of an action comes from, if a service spec says. -/
def targetOf (view : ViewSet P B) (action : String) : Option TargetSource :=
  match resolveActionSpec view.toView (some action) with
  | some (.service spec) => some (mutationTargetSource spec.service.toTargets)
  | _ => none

omit [DecidableEq B] in
/-- So is the target. -/
theorem describedTarget_probing (hroute : view.actionMap method = some action) :
    (view.probing method).describedTarget = targetOf view action := by
  rw [ViewSet.describedTarget, describedActionSpec_probing hroute, targetOf]

omit [DecidableEq B] in
/-- The probe has no row where the URL has no lookup kwarg, and the action no row by its handler or its
bulk spec. -/
theorem metadataProbeHasNoRow_probing (hroute : view.actionMap method = some action) :
    (view.probing method).metadataProbeHasNoRow = (!view.kwargs.contains view.lookup &&
      (nonDetail view action || targetOf view action == some .bulk)) := by
  rw [ViewSet.metadataProbeHasNoRow, describedTarget_probing hroute, describedAction_probing hroute]
  rfl

/-- The ways the probe of an action's row fails: there are rows but no kwarg to look one up by, unless the
action has no row by its handler or its bulk spec; or there are none, and no service spec says that the row
comes from elsewhere, unless the handler has no row and the URL no kwarg. -/
def ProbeFails (view : ViewSet P B) (action : String) : Prop :=
  view.retrieveSelector = none ∧
    ((hasRows view = true ∧ view.lookup ∉ view.kwargs ∧ nonDetail view action = false ∧
        targetOf view action ≠ some .bulk) ∨
      (hasRows view = false ∧ (targetOf view action = none ∨ targetOf view action = some .getObject) ∧
        (view.lookup ∈ view.kwargs ∨ nonDetail view action = false)))

/-- Looking the row up crashes exactly where the probe of the action fails. -/
theorem getObject_probing_iff (hdrf : drf.Lawful) (hquiet : Quiet view)
    (hroute : view.actionMap method = some action) :
    (view.probing method).getObject drf = .crashes ↔ ProbeFails view action := by
  have hprobing : Quiet (view.probing method) :=
    ⟨hquiet.retrieveSelector, hquiet.ownGetQueryset, hquiet.listSelector, hquiet.filterQueryset, hquiet.row⟩
  have hrows : hasRows (view.probing method) = hasRows view := rfl
  have hretrieve : (view.probing method).retrieveSelector = view.retrieveSelector := rfl
  have hkwarg : (view.probing method).kwargs.contains (view.probing method).lookup =
      view.kwargs.contains view.lookup := rfl
  rw [getObject_eq_crashes_iff hprobing, lookUp_eq_crashes_iff hdrf hprobing rfl, ProbeFails,
    metadataProbeHasNoRow_probing hroute, describedTarget_probing hroute, hrows, hretrieve, hkwarg,
    ← List.contains_iff_mem]
  rcases view.kwargs.contains view.lookup with _ | _ <;> rcases nonDetail view action with _ | _ <;>
    rcases hasRows view with _ | _ <;> rcases targetOf view action with _ | _ | _ | _ <;> simp

/-- **Where OPTIONS fails.** A view of the package's parts, of which what is not the package's to decide goes
well, fails to answer exactly for a PUT it would describe, by one of the ways the probe of its row fails. -/
theorem options_eq_error_iff (hdrf : drf.Lawful) (h : Composed view) (hquiet : Quiet view) :
    view.options drf = .error () ↔ ∃ action, view.actionMap "PUT" = some action ∧
      view.admits "PUT" = true ∧
      (bodySerializer view.polymorphic (resolveActionSpec view.toView (some action))).isSome = true ∧
      ProbeFails view action := by
  have hdescribe : ∀ method action, view.actionMap method = some action →
      (drf.describe { view.answering with method := method } = .error () ↔
        view.admits method = true ∧
          (bodySerializer view.polymorphic (resolveActionSpec view.toView (some action))).isSome = true ∧
          rowProbe drf view method = .crashes) :=
    fun _ _ hroute => describe_eq_error_iff hdrf h hroute
  rw [ViewSet.options, hdrf.fails]
  constructor
  · rintro ⟨method, hmethod, herror⟩
    obtain ⟨action, hroute⟩ := Option.isSome_iff_exists.1 (List.mem_filter.1 hmethod).2
    obtain ⟨hadmits, hbody, hprobe⟩ := (hdescribe method action hroute).1 herror
    rw [rowProbe] at hprobe
    split at hprobe
    · next hput =>
      subst hput
      exact ⟨action, hroute, hadmits, hbody, (getObject_probing_iff hdrf hquiet hroute).1 hprobe⟩
    · cases hprobe
  · rintro ⟨action, hroute, hadmits, hbody, hfails⟩
    have hrouted : (view.answering.actionMap "PUT").isSome = true := Option.isSome_of_eq_some hroute
    refine ⟨"PUT", List.mem_filter.2 ⟨List.mem_cons_self, hrouted⟩,
      (hdescribe "PUT" action hroute).2 ⟨hadmits, hbody, ?_⟩⟩
    rw [rowProbe, if_pos rfl]
    exact (getObject_probing_iff hdrf hquiet hroute).2 hfails

end

/-! ### DRF's own parts -/

/-- `GenericAPIView`'s `get_queryset` and `get_serializer_class`. -/
def genericApiView : Drf P B where
  determineActions := fun _ => .ok []
  describe := fun _ => .ok none
  getObject := fun _ => .passes
  getQueryset := fun view => if view.queryset then .passes else .crashes
  getSerializerClass := fun view => view.serializerClass

/-- With its `get_object`. -/
def lookingUp : Drf P B :=
  { (genericApiView : Drf P B) with
    getObject := fun view =>
      match view.getQueryset genericApiView, view.filterQueryset with
      | .passes, .passes => if view.kwargs.contains view.lookup then view.row else .crashes
      | .passes, probe => probe
      | probe, _ => probe }

/-- With the step of `determine_actions`. -/
def describing : Drf P B :=
  { (lookingUp : Drf P B) with
    describe := fun view =>
      match view.checkPermissions with
      | .crashes => .error ()
      | .apiException => .ok none
      | .passes =>
        match if view.method = "PUT" then view.getObject lookingUp else .passes with
        | .crashes => .error ()
        | .apiException => .ok none
        | .passes =>
          match view.getSerializer lookingUp with
          | none => .error ()
          | some body => if view.canBuild body then .ok (some body) else .error () }

/-- The description of each of some methods, unless one fails. -/
def describeEach (view : ViewSet P B) : List String → Except Unit (List (String × Body B))
  | [] => .ok []
  | method :: methods =>
    match (describing : Drf P B).describe { view with method := method } with
    | .error e => .error e
    | .ok described => (describeEach view methods).map fun rest =>
      (described.map fun body => (method, body)).toList ++ rest

/-- `SimpleMetadata`, over a `GenericAPIView`. -/
def simpleMetadata : Drf P B :=
  { (describing : Drf P B) with determineActions := fun view => describeEach view view.describedMethods }

/-- An answer holds the description of each method it describes. -/
theorem mem_describeEach {view : ViewSet P B} {methods : List String}
    {actions : List (String × Body B)} (h : describeEach view methods = .ok actions) {method : String}
    {body : Body B} : (method, body) ∈ actions ↔ method ∈ methods ∧
      (describing : Drf P B).describe { view with method := method } = .ok (some body) := by
  induction methods generalizing actions with
  | nil =>
    cases h
    simp
  | cons first methods ih =>
    rw [describeEach] at h
    split at h
    · cases h
    · next described hdescribed =>
      rcases hrest : describeEach view methods with _ | rest
      · rw [hrest] at h
        cases h
      · rw [hrest] at h
        cases h
        have hfirst : (method, body) ∈ (described.map fun body => (first, body)).toList ↔
            method = first ∧ described = some body := by
          cases described with
          | none => simp
          | some other => simp [eq_comm]
        rw [List.mem_append, ih hrest, List.mem_cons, hfirst, or_and_right]
        refine or_congr_left (and_congr_right ?_)
        rintro rfl
        rw [hdescribed, Except.ok.injEq]

/-- A description fails where one method's does. -/
theorem describeEach_eq_error_iff {view : ViewSet P B} {methods : List String} :
    describeEach view methods = .error () ↔ ∃ method ∈ methods,
      (describing : Drf P B).describe { view with method := method } = .error () := by
  induction methods with
  | nil => simp [describeEach]
  | cons first methods ih =>
    rw [describeEach, List.exists_mem_cons_iff]
    split
    · next hfirst => simp [hfirst]
    · next described hdescribed =>
      rw [hdescribed, ← ih]
      cases describeEach view methods <;> simp [Except.map]

/-- It is as DRF documents. -/
theorem simpleMetadata_lawful : (simpleMetadata : Drf P B).Lawful where
  actions _ _ h _ _ := mem_describeEach h
  fails _ := describeEach_eq_error_iff
  refused view h := by simp only [simpleMetadata, describing, h]
  rowMissing view hpasses hput hrow := by
    have hrow : view.getObject lookingUp = .apiException := hrow
    simp only [simpleMetadata, describing, hpasses, if_pos hput, hrow]
  rowFails view hpasses hput hrow := by
    have hrow : view.getObject lookingUp = .crashes := hrow
    simp only [simpleMetadata, describing, hpasses, if_pos hput, hrow]
  described view body hpasses hrow hserializer hbuilds := by
    have hrow : (if view.method = "PUT" then view.getObject lookingUp else .passes) = .passes := by
      split
      · next hput => exact hrow hput
      · rfl
    have hserializer : view.getSerializer lookingUp = some body := hserializer
    simp only [simpleMetadata, describing, hpasses, hrow, hserializer, hbuilds, if_true]
  noQueryset view h := by
    have h : view.getQueryset genericApiView ≠ .passes := h
    have hsame : view.getQueryset simpleMetadata = view.getQueryset genericApiView := rfl
    rw [hsame]
    simp only [simpleMetadata, describing, lookingUp]
    cases hrows : view.getQueryset genericApiView with
    | passes => exact absurd hrows h
    | apiException => rfl
    | crashes => rfl
  filtered view hrows hfilter := by
    have hrows : view.getQueryset genericApiView = .passes := hrows
    simp only [simpleMetadata, describing, lookingUp, hrows]
  noKwarg view hrows hfilter hkwarg := by
    have hrows : view.getQueryset genericApiView = .passes := hrows
    simp only [simpleMetadata, describing, lookingUp, hrows, hfilter, hkwarg, Bool.false_eq_true, if_false]
  lookedUp view hrows hfilter hkwarg := by
    have hrows : view.getQueryset genericApiView = .passes := hrows
    simp only [simpleMetadata, describing, lookingUp, hrows, hfilter, hkwarg, if_true]
  queryset _ := rfl
  serializerClass _ := rfl

/-! ### A viewset with a polymorphic create, and an update whose row an instance selector finds -/

/-- A spec of `RenameIn`, of one row found by an instance selector. -/
def rename : ServiceSpec String (Accepted String) where
  service := ⟨⟨false, false, some true⟩, some "RenameIn"⟩
  permissionClasses := none

/-- A viewset of both, with a `queryset`, on a URL with no lookup kwarg. -/
def renameViewSet (routed : String) : ViewSet String String where
  actionSpecs := .ofList [("create", .polymorphic 0), ("update", .service rename)]
  stamped := fun _ => none
  polymorphic := fun _ => { specs := .ofList [("a", rename), ("b", rename)] }
  permissionClasses := []
  action := none
  method := "OPTIONS"
  answeringOptions := false
  actionMap := fun method => if method = routed then some (if routed = "PUT" then "update" else "create") else none
  handlers := fun _ => some { dispatchesActionSpecs := true, detail := none }
  kwargs := ["slug"]
  lookup := "pk"
  serializerClass := none
  serializerOverride := .none
  outputSerializer := fun _ => none
  admits := fun _ => true
  builds := fun _ => true
  queryset := true
  ownGetQueryset := none
  listSelector := none
  retrieveSelector := none
  filterQueryset := .passes
  row := .passes

/-- The viewset is built of the package's parts alone. -/
theorem composed_renameViewSet (routed : String) : Composed (renameViewSet routed) where
  serializerClass := rfl
  serializerOverride := rfl
  builds := fun _ => rfl
  routed := fun _ _ _ => .inl rfl
  mutations := fun action classes _ h => by
    have hentry : ∀ name, (renameViewSet routed).actionSpecs.get? name ≠ some (.selector classes) :=
      fun name hname => by simpa using Dict.mem_of_get?_ofList hname
    rcases Option.or_eq_some_iff.1 h with h | ⟨-, h⟩
    · exact hentry action h
    · obtain ⟨fallback, -, h⟩ := Option.bind_eq_some_iff.1 h
      exact hentry fallback h
  once := fun _ h => nomatch h
  variants := fun _ => nofun

/-- A POST of it accepts `RenameIn` and no other body. -/
theorem described_iff_accepted_renameViewSet :
    (∃ verdict : Verdict Empty, (renameViewSet "POST").acceptedBody "POST" verdict = some (.of "RenameIn")) ∧
      ∀ (verdict : Verdict Empty) other,
        (renameViewSet "POST").acceptedBody "POST" verdict = some other → other = .of "RenameIn" :=
  (described_iff_accepted simpleMetadata_lawful (composed_renameViewSet "POST")
    (rfl : (renameViewSet "POST").options simpleMetadata = .ok [("POST", .of "RenameIn")]) (by decide) rfl
    rfl _).1 List.mem_cons_self

/-- An OPTIONS of its PUT fails. -/
theorem options_eq_error_iff_renameViewSet :
    (renameViewSet "PUT").options simpleMetadata = .error () :=
  (options_eq_error_iff simpleMetadata_lawful (composed_renameViewSet "PUT")
    ⟨nofun, nofun, nofun, rfl, nofun⟩).2
    ⟨"update", rfl, rfl, rfl, rfl, .inl ⟨rfl, by decide, rfl, by decide⟩⟩

end RestFrameworkServices.Metadata
