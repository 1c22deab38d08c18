import Mathlib.Data.Set.Insert
import RestFrameworkServices.Lib.Dict
import RestFrameworkServices.Types.SelectorKind

/-!
# The responses of a mutation, and the ones its schema documents

`dispatchMutationForSpec` answers a mutation over HTTP from what dispatch presents, and
`getResponseSerializers` documents its responses from what the spec declares. Over every result that keeps the
spec's own declaration, the first serves a set of outcomes (`served_eq`), and the second documents one
(`documented_eq`). `documented_eq_served_iff` says when they are the same: the documentation of the package
names three cases in which the empty answer is not the one documented, and there is no fourth.
-/

namespace RestFrameworkServices.MutationResponse

open Lib

universe u

variable {V P E : Type u}

/-! ## Results and responses -/

/-- The kinds of a result, of which `one` is an instance's. -/
inductive ResultKind where
  | one
  | list
  | notFound
  deriving DecidableEq

/-- A `DispatchResult`. A `None` is `none`. -/
structure DispatchResult (V : Type u) where
  kind : ResultKind
  value : Option V
  serviceResult : Option V
  instance? : Option V
  data : Option V

/-- A response, whose body is empty where it has no data. -/
structure Response (P : Type u) where
  status : ℕ
  data : Option P

/-- What a client sees of a response before it reads it: its status, and whether it has a body. -/
def Response.outcome (response : Response P) : ℕ × Bool := (response.status, response.data.isSome)

/-- The pool of a `success_status` and, with a response, of a finalizer. -/
structure ResponsePool (V : Type u) where
  result : Option V
  instance? : Option V
  data : Option V

/-! ## Specs -/

/-- What an `output_serializer` is: a `Serializer` subclass, a bare dataclass, which is wrapped in one, or a
class of another shape. -/
inductive SerializerShape where
  | serializer
  | dataclass
  | other
  deriving DecidableEq

/-- An `output_serializer`, which renders one value or many. -/
structure OutputSerializer (V P : Type u) where
  shape : SerializerShape
  render : Bool → V → P

/-- An `output_selector_spec`. An affordance's answers are added to what its serializer renders. -/
structure OutputSelectorSpec (V P : Type u) where
  kind : SelectorKind
  selector : Bool
  outputSerializer : Option (OutputSerializer V P)
  affordances : Option (Bool → P → V → P)

/-- A `success_status`. -/
inductive SuccessStatus (V : Type u) where
  | unset
  | int (status : ℕ)
  | callable (resolve : ResponsePool V → ℕ)

/-- What a `ServiceSpec` says of its targets. An `instance_selector_spec` says whether it has a selector. -/
structure Targets where
  many : Bool
  collectionSelectorSpec : Bool
  instanceSelectorSpec : Option Bool
  deriving DecidableEq

/-- Where a mutation's target comes from. -/
inductive TargetSource where
  | bulk
  | instanceSelector
  | getObject
  deriving DecidableEq

/-- `mutation_target_source`. -/
def mutationTargetSource (targets : Targets) : TargetSource :=
  if targets.many || targets.collectionSelectorSpec then .bulk
  else if targets.instanceSelectorSpec = some true then .instanceSelector
  else .getObject

/-- What a `ServiceSpec` says of its responses, with its service's label. -/
structure ServiceSpec (V P : Type u) extends Targets where
  label : String
  inputSerializer : Bool
  outputSelectorSpec : Option (OutputSelectorSpec V P)
  successStatus : SuccessStatus V
  allowNone : Bool
  documentServiceError : Option Bool
  responseFinalizer : Option (Response P → ResponsePool V → Option (Response P))

namespace ServiceSpec

variable (spec : ServiceSpec V P)

def outputSerializer : Option (OutputSerializer V P) := spec.outputSelectorSpec.bind (·.outputSerializer)

/-- `rendered_affordances`. -/
def affordances : Option (Bool → P → V → P) := spec.outputSelectorSpec.bind (·.affordances)

/-- Whether an output selector has run by the time a response is rendered. -/
def selectorRan : Bool := spec.outputSelectorSpec.any (·.selector)

/-- `_lists_its_return`. -/
def listsItsReturn : Bool :=
  spec.outputSelectorSpec.any fun output => output.kind == .list && (!output.selector || spec.many)

/-- The output selector a spec compiles, by its kind. A `many` spec re-reads nothing. -/
def compiledOutput : Option SelectorKind :=
  match spec.outputSelectorSpec with
  | some output => if output.selector && !spec.many then some output.kind else none
  | none => none

/-- `can_present_nothing`, of the compiled spec. -/
def canPresentNothing : Bool :=
  match spec.compiledOutput with
  | some kind => kind == .retrieve
  | none => spec.allowNone && !spec.listsItsReturn

end ServiceSpec

/-! ## Surfaces -/

/-- What a mutation is answered by: a create, an update, whole or partial, a destroy, or a `@service_action`. -/
inductive Surface where
  | create
  | update
  | destroy
  | action (detail : Bool)

namespace Surface

/-- The status of a surface whose spec sets none. -/
def defaultStatus : Surface → ℕ
  | create => 201
  | update => 200
  | destroy => 204
  | action _ => 200

/-- Whether a surface acts on a row. -/
def hasTarget : Surface → Bool
  | create => false
  | update => true
  | destroy => true
  | action detail => detail

/-- Whether the row is still there to be rendered. -/
def renderInstanceOnNone : Surface → Bool
  | create => false
  | update => true
  | destroy => false
  | action detail => detail

end Surface

/-- A view as the schema reads it: the name of its action, and its class's `__mro__`, by name. -/
structure View where
  action : Option String
  mro : List String

def actionDefaultStatus : List (String × ℕ) :=
  [("create", 201), ("update", 200), ("partial_update", 200), ("destroy", 204)]

def viewClassDefaultStatus : List (String × ℕ) :=
  [("ServiceCreateView", 201), ("ServiceUpdateView", 200), ("ServiceDeleteView", 204)]

/-- `default_status`. -/
def defaultStatus (view : View) : ℕ :=
  match view.action.bind fun name => actionDefaultStatus.lookup name with
  | some status => status
  | none => (view.mro.findSome? fun name => viewClassDefaultStatus.lookup name).getD 200

/-! ## What is served -/

/-- How a value is a payload without a serializer, as it is or as the `list` of it, which values are a set of
rows, and the name of a value's type. -/
structure Values (V P : Type u) where
  raw : V → P
  listed : V → P
  isRows : V → Bool
  typeName : V → String

/-- How a mutation fails: the service's error, mapped, or a row that is missing, or a misconfiguration. -/
inductive Refusal (E : Type u) where
  | service (error : E)
  | notFound
  | improperlyConfigured (message : String)

/-- `status_for_a_body`. -/
def statusForABody (status : ℕ) : ℕ := if status = 204 then 200 else status

/-- `resolve_success_status`. -/
def resolveSuccessStatus (successStatus : SuccessStatus V) (default : ℕ) (pool : ResponsePool V) : ℕ :=
  match successStatus with
  | .unset => default
  | .int status => status
  | .callable resolve => resolve pool

/-- `apply_response_finalizer`. -/
def applyResponseFinalizer (finalizer : Option (Response P → ResponsePool V → Option (Response P)))
    (response : Response P) (pool : ResponsePool V) : Response P :=
  match finalizer with
  | none => response
  | some finalize => (finalize response pool).getD response

/-- `service_return_as_list`. -/
def serviceReturnAsList (values : Values V P) (spec : ServiceSpec V P) (value : Option V) :
    Except (Refusal E) (Option V) :=
  if value.any values.isRows then .ok value
  else .error (.improperlyConfigured ("output_selector_spec declares kind=LIST with no selector, so the " ++
    "service's own return is the list presented, and " ++ spec.label ++ " returned " ++
    (value.map values.typeName).getD "NoneType" ++ ", which is neither a QuerySet nor an iterable of " ++
    "rows. Return the rows, or declare kind=SelectorKind.RETRIEVE to present one " ++
    "value. The service has already run, so its write stands."))

/-- `listed_output`. -/
def listedOutput (values : Values V P) (spec : ServiceSpec V P) (result : DispatchResult V) :
    Except (Refusal E) (DispatchResult V) :=
  if spec.many then .ok { result with kind := .list }
  else
    match spec.outputSelectorSpec with
    | none => .ok result
    | some output =>
      if output.kind ≠ .list ∨ output.selector ∨ result.kind = .notFound then .ok result
      else do
        let value ← serviceReturnAsList values spec result.value
        pure { result with kind := .list, value := value }

/-- `render_spec_output`, of a value there is. -/
def renderSpecOutput (values : Values V P) (spec : ServiceSpec V P) (value : V) (many : Bool) :
    Except (Refusal E) P :=
  match spec.outputSerializer, spec.affordances with
  | none, some _ => .error (.improperlyConfigured ("affordances are projected into each rendered object, " ++
      "and this spec declares no output_serializer to render one. Declare an output_serializer."))
  | none, none => .ok (if many then values.listed value else values.raw value)
  | some serializer, none => .ok (serializer.render many value)
  | some serializer, some answers => .ok (answers many (serializer.render many value) value)

/-- `render_mutation_response`. -/
def renderMutationResponse (values : Values V P) (surface : Surface) (spec : ServiceSpec V P)
    (result : DispatchResult V) : Response P :=
  let value :=
    if result.value.isNone ∧ surface.renderInstanceOnNone ∧ spec.outputSerializer.isSome ∧
        !spec.selectorRan then
      result.instance?
    else result.value
  let status := resolveSuccessStatus spec.successStatus surface.defaultStatus
    { result := result.serviceResult, instance? := result.instance?, data := none }
  let emptyStatus := match spec.successStatus with
    | .unset => 204
    | _ => status
  let response := match value, spec.outputSerializer with
    | none, _ => { status := if spec.selectorRan then 204 else emptyStatus, data := none }
    | some value, some serializer =>
      let rendered := serializer.render false value
      { status := statusForABody status
        data := some (match spec.affordances with
          | none => rendered
          | some answers => answers false rendered value) }
    | some value, none => { status := statusForABody status, data := some (values.raw value) }
  applyResponseFinalizer spec.responseFinalizer response
    { result := result.serviceResult, instance? := result.instance?, data := result.data }

/-- `_dispatch_bulk_via_spec`, from what dispatch answers. -/
def dispatchBulkViaSpec (values : Values V P) (surface : Surface) (spec : ServiceSpec V P)
    (dispatched : Except E (DispatchResult V)) : Except (Refusal E) (Response P) := do
  let result ← listedOutput values spec (← dispatched.mapError .service)
  let pool := { result := result.value, instance? := none, data := none }
  let status := resolveSuccessStatus spec.successStatus surface.defaultStatus pool
  let response ← match result.value with
    | none => pure { status := status, data := none }
    | some value => do
      let payload ← renderSpecOutput values spec value (result.kind == .list)
      pure { status := statusForABody status, data := some payload }
  pure (applyResponseFinalizer spec.responseFinalizer response pool)

/-- `dispatch_mutation_for_spec`, from what dispatch answers. -/
def dispatchMutationForSpec (values : Values V P) (surface : Surface) (spec : ServiceSpec V P)
    (dispatched : Except E (DispatchResult V)) : Except (Refusal E) (Response P) :=
  if mutationTargetSource spec.toTargets = .bulk then dispatchBulkViaSpec values surface spec dispatched
  else do
    let result ← listedOutput values spec (← dispatched.mapError .service)
    if result.kind = .notFound then .error .notFound
    else pure (renderMutationResponse values surface spec result)

/-! ## What is documented -/

/-- What a response is documented as: the body of the spec's serializer, an empty one, or a service's error. -/
inductive Doc where
  | body
  | empty
  | serviceError
  deriving DecidableEq

namespace ServiceSpec

variable (spec : ServiceSpec V P)

/-- The status a spec declares, where it is not a request's to decide. -/
def declaredStatus (default : ℕ) : ℕ :=
  match spec.successStatus with
  | .int status => status
  | _ => default

/-- Whether the refusal of a service is documented. -/
def documents422 : Bool := spec.documentServiceError.getD spec.inputSerializer

end ServiceSpec

/-- `to_serializer_class`: the `Serializer` a declaration is described by, if it is of a shape that has one. -/
def toSerializerClass (value : Option (OutputSerializer V P)) : Option (OutputSerializer V P) :=
  value.filter (·.shape ≠ .other)

/-- `ServiceAutoSchema.get_response_serializers`. -/
def getResponseSerializers (view : View) (spec : ServiceSpec V P) : Dict ℕ Doc :=
  let status := spec.declaredStatus (defaultStatus view)
  let described := (toSerializerClass spec.outputSerializer).isSome
  let responses :=
    if described then Dict.empty.set (statusForABody status) .body
    else Dict.empty.set status .empty
  let responses :=
    if described && spec.canPresentNothing then responses.set 204 .empty else responses
  if spec.documents422 then responses.set 422 .serviceError else responses

/-! ## The two sets of outcomes -/

/-- A result that keeps what its spec declares: the row was found, there is nothing only where there may be,
and there is a target where the surface acts on one. -/
structure Presents (surface : Surface) (spec : ServiceSpec V P) (result : DispatchResult V) : Prop where
  found : result.kind ≠ .notFound
  nothing : result.value = none → spec.canPresentNothing = true
  target : mutationTargetSource spec.toTargets ≠ .bulk → result.instance?.isSome = surface.hasTarget

/-- The outcomes a mutation is served with. -/
def served (values : Values V P) (surface : Surface) (spec : ServiceSpec V P) : Set (ℕ × Bool) :=
  {outcome | ∃ result response, Presents surface spec result ∧ response.outcome = outcome ∧
    dispatchMutationForSpec values surface spec (.ok result : Except PEmpty _) = .ok response}

/-- The outcomes the schema documents as a success. -/
def documented (view : View) (spec : ServiceSpec V P) : Set (ℕ × Bool) :=
  {outcome | (getResponseSerializers view spec).get? outcome.1 =
    some (if outcome.2 then .body else .empty)}

/-- The status nothing is answered under. Where the target is rendered in its place there is none. -/
def emptyStatus (surface : Surface) (spec : ServiceSpec V P) : Option ℕ :=
  if mutationTargetSource spec.toTargets = .bulk then some (spec.declaredStatus surface.defaultStatus)
  else if spec.selectorRan then some 204
  else if surface.renderInstanceOnNone then none
  else some (spec.declaredStatus 204)

/-- The outcome of what a dispatch presents: a body, for the value or for the target in its place, or nothing. -/
def outcomeOf (surface : Surface) (spec : ServiceSpec V P) (value : Option V) : ℕ × Bool :=
  let body := (statusForABody (spec.declaredStatus surface.defaultStatus), true)
  if value.isSome then body else (emptyStatus surface spec).elim body fun status => (status, false)

/-! ### The three cases in which the empty answer is not the `204` documented -/

/-- An empty answer goes out under the status a spec sets, where it re-reads nothing. -/
def EmptyAtAnExplicitStatus (surface : Surface) (spec : ServiceSpec V P) : Prop :=
  mutationTargetSource spec.toTargets ≠ .bulk ∧ spec.selectorRan = false ∧
    surface.renderInstanceOnNone = false ∧ ∃ status, spec.successStatus = .int status ∧ status ≠ 204

/-- An update renders its target in place, where it re-reads nothing, and never answers empty. -/
def RendersItsTargetInPlace (surface : Surface) (spec : ServiceSpec V P) : Prop :=
  mutationTargetSource spec.toTargets ≠ .bulk ∧ spec.selectorRan = false ∧ surface.renderInstanceOnNone = true

/-- The bulk path answers empty at the status of the action. -/
def EmptyAtTheBulkStatus (surface : Surface) (spec : ServiceSpec V P) : Prop :=
  mutationTargetSource spec.toTargets = .bulk ∧ spec.declaredStatus surface.defaultStatus ≠ 204

section
variable {values : Values V P} {surface : Surface} {view : View} {spec : ServiceSpec V P}
  {result : DispatchResult V}

/-- A body is never served at 204. -/
theorem statusForABody_ne (status : ℕ) : statusForABody status ≠ 204 := by
  rw [statusForABody]
  split
  · decide
  · assumption

/-! ### Served -/

/-- A status that is no callable is the one declared. -/
theorem resolveSuccessStatus_eq {default : ℕ} {pool : ResponsePool V}
    (h : ∀ resolve, spec.successStatus ≠ .callable resolve) :
    resolveSuccessStatus spec.successStatus default pool = spec.declaredStatus default := by
  rw [ServiceSpec.declaredStatus]
  cases hstatus : spec.successStatus with
  | callable resolve => exact absurd hstatus (h resolve)
  | _ => rfl

/-- What follows a step that succeeds. -/
theorem bind_ok {α β : Type u} {ε : Type u} (a : α) (f : α → Except ε β) : (Except.ok a >>= f) = f a := rfl

/-- The target is rendered only on a surface that acts on one. -/
theorem Surface.hasTarget_of_render (h : surface.renderInstanceOnNone = true) : surface.hasTarget = true := by
  cases surface with
  | action detail => exact h
  | update => rfl
  | _ => cases h

/-- The response rendered of a result has the outcome of its value. -/
theorem outcome_render (hserializer : spec.outputSerializer.isSome = true)
    (hstatus : ∀ resolve, spec.successStatus ≠ .callable resolve) (hfinalizer : spec.responseFinalizer = none)
    (hsource : mutationTargetSource spec.toTargets ≠ .bulk)
    (htarget : result.instance?.isSome = surface.hasTarget) :
    (renderMutationResponse values surface spec result).outcome = outcomeOf surface spec result.value := by
  obtain ⟨serializer, hserializer⟩ := Option.isSome_iff_exists.1 hserializer
  have hempty : (match spec.successStatus with
      | .unset => 204
      | _ => spec.declaredStatus surface.defaultStatus) = spec.declaredStatus 204 := by
    rw [ServiceSpec.declaredStatus, ServiceSpec.declaredStatus]
    cases h : spec.successStatus with
    | callable resolve => exact absurd h (hstatus resolve)
    | _ => rfl
  simp only [renderMutationResponse, resolveSuccessStatus_eq hstatus, hempty, hserializer, hfinalizer,
    applyResponseFinalizer, outcomeOf, emptyStatus, if_neg hsource]
  rcases hvalue : result.value with _ | value
  · rcases hran : spec.selectorRan with _ | _
    · rcases hplace : surface.renderInstanceOnNone with _ | _
      · simp [Response.outcome]
      · obtain ⟨target, hsome⟩ := Option.isSome_iff_exists.1
          (htarget.trans (Surface.hasTarget_of_render hplace))
        simp [hsome, Response.outcome]
    · simp [Response.outcome]
  · simp [Response.outcome]

/-- A listed result is the result, of another kind. -/
theorem listedOutput_ok {listed : DispatchResult V}
    (h : (listedOutput values spec result : Except (Refusal E) _) = .ok listed) :
    ∃ kind, listed = { result with kind := kind } ∧ (kind = .notFound → result.kind = .notFound) := by
  rw [listedOutput] at h
  split at h
  · cases h
    exact ⟨.list, rfl, nofun⟩
  · split at h
    · cases h
      exact ⟨result.kind, rfl, id⟩
    · split at h
      · cases h
        exact ⟨result.kind, rfl, id⟩
      · rw [serviceReturnAsList] at h
        split at h
        · cases h
          exact ⟨.list, rfl, nofun⟩
        · cases h

/-- Nothing is refused that is a set of rows, or nothing where there may be nothing. -/
theorem listedOutput_of (hnothing : result.value = none → spec.canPresentNothing = true)
    (hrows : ∀ value ∈ result.value, values.isRows value = true) :
    ∃ listed, (listedOutput values spec result : Except (Refusal E) _) = .ok listed := by
  rw [listedOutput]
  split
  · exact ⟨_, rfl⟩
  · next hmany =>
    split
    · exact ⟨_, rfl⟩
    · next output houtput =>
      split
      · exact ⟨_, rfl⟩
      · next hlist =>
        rcases hvalue : result.value with _ | value
        · have hnone := hnothing hvalue
          rw [not_or, not_or, not_not] at hlist
          simp [ServiceSpec.canPresentNothing, ServiceSpec.compiledOutput, ServiceSpec.listsItsReturn,
            houtput, hlist] at hnone
        · rw [serviceReturnAsList, Option.any_some, if_pos (hrows value hvalue)]
          exact ⟨_, rfl⟩

/-- A mutation that is answered has listed its result. -/
theorem listedOutput_of_dispatch {response : Response P}
    (h : dispatchMutationForSpec values surface spec (.ok result : Except E _) = .ok response) :
    ∃ listed, (listedOutput values spec result : Except (Refusal E) _) = .ok listed := by
  rcases hlisted : (listedOutput values spec result : Except (Refusal E) _) with refusal | listed
  · simp only [dispatchMutationForSpec, dispatchBulkViaSpec, Except.mapError, bind_ok, hlisted] at h
    split at h <;> cases h
  · exact ⟨listed, rfl⟩

/-- So has that of a dispatch, once the output is listed. -/
theorem outcome_dispatch {listed : DispatchResult V} (hserializer : spec.outputSerializer.isSome = true)
    (hstatus : ∀ resolve, spec.successStatus ≠ .callable resolve) (hfinalizer : spec.responseFinalizer = none)
    (hpresents : Presents surface spec result)
    (hlisted : (listedOutput values spec result : Except (Refusal E) _) = .ok listed) :
    ∃ response, dispatchMutationForSpec values surface spec (.ok result : Except E _) = .ok response ∧
      response.outcome = outcomeOf surface spec result.value := by
  obtain ⟨kind, rfl, hkind⟩ := listedOutput_ok hlisted
  rw [dispatchMutationForSpec]
  split
  · next hsource =>
    obtain ⟨serializer, hserializer⟩ := Option.isSome_iff_exists.1 hserializer
    simp only [dispatchBulkViaSpec, Except.mapError, bind_ok, hlisted, resolveSuccessStatus_eq hstatus,
      hfinalizer, applyResponseFinalizer, outcomeOf, emptyStatus, if_pos hsource]
    rcases result.value with _ | value
    · exact ⟨_, rfl, rfl⟩
    · simp only [renderSpecOutput, hserializer]
      rcases spec.affordances with _ | answers
      · exact ⟨_, rfl, rfl⟩
      · exact ⟨_, rfl, rfl⟩
  · next hsource =>
    simp only [Except.mapError, bind_ok, hlisted]
    rw [if_neg fun h => hpresents.found (hkind h)]
    exact ⟨_, rfl, outcome_render hserializer hstatus hfinalizer hsource (hpresents.target hsource)⟩

/-- What is served is a body, and nothing where there may be nothing and no target is rendered for it. -/
theorem served_eq (hserializer : spec.outputSerializer.isSome = true)
    (hstatus : ∀ resolve, spec.successStatus ≠ .callable resolve) (hfinalizer : spec.responseFinalizer = none)
    (hrows : ∃ value, values.isRows value = true) :
    served values surface spec = {outcome |
      outcome = (statusForABody (spec.declaredStatus surface.defaultStatus), true) ∨
      spec.canPresentNothing = true ∧ ∃ status ∈ emptyStatus surface spec, outcome = (status, false)} := by
  obtain ⟨row, hrow⟩ := hrows
  -- The result that presents a value, with the target the surface acts on.
  let presenting (value : Option V) : DispatchResult V :=
    { kind := .one, value := value, serviceResult := value,
      instance? := if surface.hasTarget then some row else none, data := none }
  have hserved : ∀ value : Option V, (value = none → spec.canPresentNothing = true) →
      (∀ v ∈ value, values.isRows v = true) → outcomeOf surface spec value ∈ served values surface spec := by
    intro value hnothing hvalue
    have hpresents : Presents surface spec (presenting value) :=
      ⟨nofun, hnothing, fun _ => by simp only [presenting]; split <;> simp_all⟩
    obtain ⟨listed, hlisted⟩ := listedOutput_of hpresents.nothing hvalue
    obtain ⟨response, hresponse, houtcome⟩ :=
      outcome_dispatch hserializer hstatus hfinalizer hpresents hlisted
    exact ⟨_, response, hpresents, houtcome, hresponse⟩
  ext outcome
  constructor
  · rintro ⟨result, response, hpresents, rfl, hresponse⟩
    obtain ⟨listed, hlisted⟩ := listedOutput_of_dispatch hresponse
    obtain ⟨_, hresponse', houtcome⟩ := outcome_dispatch hserializer hstatus hfinalizer hpresents hlisted
    rw [hresponse] at hresponse'
    cases hresponse'
    rw [houtcome, outcomeOf]
    rcases hvalue : result.value with _ | value
    · rcases hempty : emptyStatus surface spec with _ | status
      · exact .inl rfl
      · exact .inr ⟨hpresents.nothing hvalue, status, rfl, rfl⟩
    · exact .inl rfl
  · rintro (rfl | ⟨hnothing, status, hempty, rfl⟩)
    · exact hserved (some row) nofun fun value h => by rwa [← Option.some.inj h]
    · have h := hserved none (fun _ => hnothing) nofun
      rwa [outcomeOf, hempty] at h

/-! ### Documented -/

/-- What is documented at a status, of a spec whose output is described. -/
theorem get?_getResponseSerializers (hdescribed : (toSerializerClass spec.outputSerializer).isSome = true)
    (status : ℕ) :
    (getResponseSerializers view spec).get? status =
      if spec.documents422 = true ∧ status = 422 then some .serviceError
      else if spec.canPresentNothing = true ∧ status = 204 then some .empty
      else if status = statusForABody (spec.declaredStatus (defaultStatus view)) then some .body
      else none := by
  simp only [getResponseSerializers, hdescribed, if_true, Bool.true_and]
  rcases spec.documents422 with _ | _ <;> rcases spec.canPresentNothing with _ | _ <;> simp

/-- What is documented is the body, unless the refusal is documented in its place, and an empty `204` where
there may be nothing. -/
theorem documented_eq (hdescribed : (toSerializerClass spec.outputSerializer).isSome = true) :
    documented view spec = {outcome |
      (outcome = (statusForABody (spec.declaredStatus (defaultStatus view)), true) ∧
        ¬ (spec.documents422 = true ∧ outcome.1 = 422)) ∨
      spec.canPresentNothing = true ∧ outcome = (204, false)} := by
  have hbody := statusForABody_ne (spec.declaredStatus (defaultStatus view))
  ext ⟨status, body⟩
  simp only [documented, Set.mem_ofPred_eq, get?_getResponseSerializers hdescribed, Prod.mk.injEq]
  split
  · next h => cases body <;> simp [h]
  · next h =>
    split
    · next hempty => cases body <;> simp [hempty, hbody.symm]
    · next hempty =>
      split
      · next hstatus =>
        subst hstatus
        cases body
        · simp [hbody]
        · simpa using fun h422 => not_and.1 h h422
      · next hstatus => cases body <;> simp_all

/-- A status is not the default where another is declared. -/
theorem declaredStatus_ne_iff {default : ℕ} :
    spec.declaredStatus default ≠ default ↔
      ∃ status, spec.successStatus = .int status ∧ status ≠ default := by
  rw [ServiceSpec.declaredStatus]
  rcases spec.successStatus with _ | status | resolve <;> simp

/-- The empty answer is the `204` documented, but in the three cases. -/
theorem emptyStatus_eq_some_iff :
    emptyStatus surface spec = some 204 ↔
      ¬ EmptyAtAnExplicitStatus surface spec ∧ ¬ RendersItsTargetInPlace surface spec ∧
        ¬ EmptyAtTheBulkStatus surface spec := by
  rw [emptyStatus, EmptyAtAnExplicitStatus, RendersItsTargetInPlace, EmptyAtTheBulkStatus,
    ← declaredStatus_ne_iff]
  by_cases hsource : mutationTargetSource spec.toTargets = .bulk
  · simp [hsource]
  · rcases hran : spec.selectorRan with _ | _
    · rcases surface.renderInstanceOnNone with _ | _ <;> simp [hsource]
    · simp [hsource]

/-- **The schema documents what a mutation is served with**, of a spec that declares a serializer it can
describe, a status of its own or none and no finalizer, exactly where it knows the surface's default, the
refusal it documents is not under the body's status, and none of the three cases is the spec's. -/
theorem documented_eq_served_iff (hdescribed : (toSerializerClass spec.outputSerializer).isSome = true)
    (hstatus : ∀ resolve, spec.successStatus ≠ .callable resolve) (hfinalizer : spec.responseFinalizer = none)
    (hrows : ∃ value, values.isRows value = true) :
    documented view spec = served values surface spec ↔
      statusForABody (spec.declaredStatus (defaultStatus view)) =
          statusForABody (spec.declaredStatus surface.defaultStatus) ∧
        ¬ (spec.documents422 = true ∧ statusForABody (spec.declaredStatus surface.defaultStatus) = 422) ∧
        (spec.canPresentNothing = true → ¬ EmptyAtAnExplicitStatus surface spec ∧
          ¬ RendersItsTargetInPlace surface spec ∧ ¬ EmptyAtTheBulkStatus surface spec) := by
  have hserializer : spec.outputSerializer.isSome = true := by
    obtain ⟨serializer, hsome⟩ := Option.isSome_iff_exists.1 hdescribed
    exact Option.isSome_of_eq_some (Option.filter_eq_some_iff.1 hsome).1
  rw [documented_eq hdescribed, served_eq hserializer hstatus hfinalizer hrows, Set.ext_iff]
  constructor
  · intro h
    refine ⟨?_, ?_, fun hnothing => ?_⟩
    · obtain ⟨hbody, -⟩ | ⟨-, hbody⟩ := (h (_, true)).2 (.inl rfl)
      · exact (Prod.ext_iff.1 hbody).1.symm
      · exact absurd (Prod.ext_iff.1 hbody).2 nofun
    · obtain ⟨-, hrefusal⟩ | ⟨-, hbody⟩ := (h (_, true)).2 (.inl rfl)
      · exact hrefusal
      · exact absurd (Prod.ext_iff.1 hbody).2 nofun
    · obtain hbody | ⟨-, status, hempty, heq⟩ := (h (204, false)).1 (.inr ⟨hnothing, rfl⟩)
      · exact absurd (Prod.ext_iff.1 hbody).2 nofun
      · obtain rfl : 204 = status := (Prod.ext_iff.1 heq).1
        exact emptyStatus_eq_some_iff.1 hempty
  · rintro ⟨hdefault, hrefusal, hcases⟩ outcome
    rw [Set.mem_ofPred_eq, Set.mem_ofPred_eq, hdefault]
    refine or_congr ⟨And.left, fun h => ⟨h, ?_⟩⟩ (and_congr_right fun hnothing => ?_)
    · rw [h]
      exact hrefusal
    · rw [emptyStatus_eq_some_iff.2 (hcases hnothing)]
      simp

end

/-- A create that re-reads what it wrote, and may find nothing. -/
def createRereading : ServiceSpec ℕ ℕ :=
  { label := "create_author", many := false, collectionSelectorSpec := false, instanceSelectorSpec := none,
    inputSerializer := true
    outputSelectorSpec := some
      { kind := .retrieve, selector := true, outputSerializer := some ⟨.dataclass, fun _ value => value⟩,
        affordances := none }
    successStatus := .unset, allowNone := false, documentServiceError := none, responseFinalizer := none }

/-- Numbers, as they are. -/
def numbers : Values ℕ ℕ := { raw := id, listed := id, isRows := fun _ => true, typeName := fun _ => "int" }

/-- A create that reads its row again is served as it is documented. -/
theorem documented_eq_served_iff_createRereading :
    documented { action := none, mro := ["CreateAuthor", "ServiceCreateView"] } createRereading =
      served numbers .create createRereading :=
  (documented_eq_served_iff rfl (by rintro _ ⟨⟩) rfl ⟨0, rfl⟩).2
    ⟨rfl, by decide, fun _ => ⟨fun h => absurd h.2.1 (by decide), fun h => absurd h.2.1 (by decide),
      fun h => absurd h.1 (by decide)⟩⟩

end RestFrameworkServices.MutationResponse
