import RestFrameworkServices.Dispatch.EdgeInput

/-!
# A collection's mutation over HTTP

A view dispatches a service spec in one of two ways (`views/mutation/utils.py`): a single call hands
`dispatch_spec` the request's data as it was parsed, and a spec with a collection target the data
unpacked into a mapping, under the route's captures (`bulkParams`).

Unpacking keeps an object. A form's values it turns into lists, and anything else into no values at
all; `bulk_reads_alike_iff` says a collection's call reads its body as a single one does exactly
where the body is an object.
-/

namespace RestFrameworkServices

open Lib

/-- What `_dispatch_bulk_via_spec` hands on, of a spec with a collection target: the body, unpacked
where it is a `dict`, under the route's captures. A form unpacks to each key's whole list. -/
def bulkParams (data : RequestData) (route : Dict String Value) : Dict String Value :=
  let body : Dict String Value :=
    match data with
    | .form body => body.lists.mapValues .list
    | .object entries => entries
    | .other _ => .empty
  (Dict.empty.update body).update route

/-- `_dispatch_bulk_via_spec`, of a spec with a collection target. -/
def dispatchBulkViaSpec (call : ServiceCall) (data : RequestData) (asked : Option Bool) : Outcome :=
  dispatchSpec call (.object (bulkParams data call.route)) asked

/-- A collection's call reads a body as a single call of the same spec and partial flag does: every
spec's input ends alike, over a route that captures nothing. -/
def BulkReadsAlike (data : RequestData) : Prop :=
  ∀ (call : ServiceCall) (asked : Option Bool), call.route = .empty →
    dispatchBulkViaSpec call data asked = dispatchSpec call data asked

/-! ## What the unpacking makes of a body -/

/-- An object is handed on as it is. -/
theorem bulkParams_object (entries : Dict String Value) :
    bulkParams (.object entries) .empty = entries :=
  Dict.empty_update entries

/-- A form's key is handed on as the list of its values, whatever field reads it. -/
theorem get?_bulkParams_form (body : QueryDict) (name : String) :
    (bulkParams (.form body) .empty).get? name = (body.lists.get? name).map .list := by
  rw [bulkParams, Dict.update_empty, Dict.empty_update, Dict.get?_mapValues]

/-! ## Telling two bodies apart -/

/-- The call, its input validated by one Validator. -/
def ServiceCall.validating (call : ServiceCall) (v : SerializerValidator) : ServiceCall :=
  { call with validator := some fun _ _ => v }

/-- A Validator whose serializer reads forms alone. -/
def formValidator : SerializerValidator where
  id := 0
  qualname := "FormSerializer"
  serializer := {
    fields := .empty
    run := fun body =>
      if body.isForm then .ok .null else .error (.message ⟨"No form.", "invalid"⟩) }
  supportsPartial := true
  serverOwned := []

section
variable {call : ServiceCall} {v : SerializerValidator}

/-- A form is validated. -/
theorem validateInput_form (flag : Bool) (body : QueryDict) (arguments server : Dict String Value)
    (authored : Dict String String) : ∃ r,
    validateInput call formValidator flag (.form body) arguments server authored =
      .validated arguments (some r) := by
  cases flag <;> exact ⟨_, rfl⟩

/-- An object is refused. -/
theorem validateInput_object (flag : Bool) (entries arguments server : Dict String Value)
    (authored : Dict String String) :
    validateInput call formValidator flag (.object entries) arguments server authored =
      .refused (.invalidArguments (.message ⟨"No form.", "invalid"⟩)) := by
  cases flag <;> rfl

/-- What the edge puts over a body leaves it a form, or an object. -/
theorem validatorBody_form (body : QueryDict) (put : Dict String Value) :
    ∃ body', validatorBody (.form body) put = .form body' := by
  unfold validatorBody
  split
  · exact ⟨_, rfl⟩
  · exact ⟨_, rfl⟩

/-- An object put over is one. -/
theorem validatorBody_object (entries put : Dict String Value) :
    ∃ entries', validatorBody (.object entries) put = .object entries' := by
  unfold validatorBody
  split
  · exact ⟨_, rfl⟩
  · exact ⟨_, rfl⟩

/-- A call whose lookup finds its target asks its Validator, of the body it was sent. -/
theorem dispatchSpec_validating {data : RequestData} {mapping : Dict String Value}
    (hfound : ∀ arguments, ∃ server, call.serverInput arguments = .ok server)
    (hsent : sentMapping call data = .ok mapping) (asked : Option Bool) :
    ∃ flag put arguments server authored, dispatchSpec (call.validating v) data asked =
      validateInput (call.validating v) v flag (validatorBody data put) arguments server authored := by
  have hsent' : sentMapping (call.validating v) data = .ok mapping := hsent
  unfold dispatchSpec
  rw [hsent']
  obtain ⟨server, hserver⟩ := hfound (routeAuthorValues (authorCall call
    (sentArguments call (edgeArguments call mapping))
    (filterArguments call (sentArguments call (edgeArguments call mapping))))).arguments
  have hserver' : (call.validating v).serverInput (routeAuthorValues (authorCall
      (call.validating v) (sentArguments (call.validating v) (edgeArguments (call.validating v)
        mapping)) (filterArguments (call.validating v) (sentArguments (call.validating v)
        (edgeArguments (call.validating v) mapping))))).arguments = .ok server := hserver
  simp only [hserver']
  exact ⟨_, _, _, _, _, rfl⟩

/-- Whatever a spec names, where its lookup finds a target a Validator tells its collection's call
from a single one on every body that is no object. -/
theorem formValidator_tells
    (hfound : ∀ arguments, ∃ server, call.serverInput arguments = .ok server)
    {data : RequestData} (hdata : data.isObject = false) (asked : Option Bool) :
    dispatchBulkViaSpec (call.validating formValidator) data asked ≠
      dispatchSpec (call.validating formValidator) data asked := by
  obtain ⟨flag, put, arguments, server, authored, hbulk⟩ :=
    dispatchSpec_validating hfound
      (rfl : sentMapping call (.object (bulkParams data call.route)) = .ok _) asked
  obtain ⟨entries, hentries⟩ := validatorBody_object (bulkParams data call.route) put
  rw [hentries, validateInput_object] at hbulk
  intro hsame
  have hrefused := hsame.symm.trans hbulk
  cases data with
  | object entries => cases hdata
  | form body =>
    obtain ⟨flag, put, arguments, server, authored, hform⟩ :=
      dispatchSpec_validating hfound
        (rfl : sentMapping call (.form body) = .ok _) asked
    obtain ⟨body', hbody⟩ := validatorBody_form body put
    obtain ⟨r, hr⟩ := validateInput_form flag body'
      arguments server authored
    rw [hform, hbody, hr] at hrefused
    cases hrefused
  | other type =>
    have hother : dispatchOther (call.validating formValidator) type = _ := hrefused
    simp only [dispatchOther] at hother
    split at hother <;> cases hother

end

/-- A call of a spec that names nothing, over a route that captures nothing. -/
def bareCall : ServiceCall where
  site := .bare .single
  hook := .empty
  provided := .empty
  unreserved := List.forall_mem_nil _
  route := .empty
  query := .empty
  arrays := []
  coerceFlat := id
  filterArrays := []
  coerceFilter := id
  csv := []
  urlKwargs := []
  queried := []
  routed := []
  seedNames := []
  excluded := []
  lookupReads := []
  inputNames := []
  isSame := fun _ _ => true
  serverInput := fun _ => .ok .empty
  declaredPartial := false
  validator := none
  reservedPoolSeeds := []
  ambient := []

/-- A collection's call reads a body as a single one does exactly where the body is an object. -/
theorem bulk_reads_alike_iff (data : RequestData) :
    BulkReadsAlike data ↔ data.isObject = true := by
  constructor
  · intro h
    cases hdata : data.isObject with
    | true => rfl
    | false =>
      have hfound : ∀ arguments, ∃ server, bareCall.serverInput arguments = .ok server :=
        fun _ => ⟨_, rfl⟩
      exact absurd (h (bareCall.validating formValidator) none rfl)
        (formValidator_tells hfound hdata none)
  · intro h call asked hroute
    cases data with
    | object entries =>
      unfold dispatchBulkViaSpec
      rw [hroute, bulkParams_object]
    | form body => cases h
    | other type => cases h

/-- A Validator of one field, `reason`, a string. -/
def reasonValidator : SerializerValidator where
  id := 0
  qualname := "ReasonSerializer"
  serializer := {
    fields := .empty
    run := fun body =>
      let reason :=
        match body with
        | .form body => (body.lists.get? "reason").map lastValue
        | .value (.mapping _ entries) => entries.lookup "reason"
        | .value _ => none
      match reason with
      | some (.str s) => .ok (.mapping true [("reason", .str s)])
      | _ => .error (.mapping [(.name "reason", .rows [.message
          ⟨"Not a valid string.", "invalid"⟩])]) }
  supportsPartial := true
  serverOwned := []

/-- A form's one reason is refused as a list over a collection, and accepted by a single call. -/
theorem bulk_refuses_form_reason :
    ¬ BulkReadsAlike (.form ⟨.ofList [("reason", [.str "cleanup"])]⟩) := by
  intro h
  have hsame := h (bareCall.validating reasonValidator) none rfl
  have hbulk : ∃ refusal, dispatchBulkViaSpec (bareCall.validating reasonValidator)
      (.form ⟨.ofList [("reason", [.str "cleanup"])]⟩) none = .refused refusal := ⟨_, rfl⟩
  have hsingle : ∃ arguments r, dispatchSpec (bareCall.validating reasonValidator)
      (.form ⟨.ofList [("reason", [.str "cleanup"])]⟩) none = .validated arguments r := ⟨_, _, rfl⟩
  obtain ⟨refusal, hbulk⟩ := hbulk
  obtain ⟨arguments, r, hsingle⟩ := hsingle
  cases hbulk.symm.trans (hsame.trans hsingle)

end RestFrameworkServices
