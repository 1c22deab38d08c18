import RestFrameworkServices.Dispatch.AuthorValues
import RestFrameworkServices.ServiceSpecs.SerializerValidator

/-!
# The input of a service call

What a call of a service spec over a live view makes of what it was sent, where the spec is not
`many` (`prepare_edge_call`): the kernel's `arguments`, a form read flat, with the route's and the
query's values, the filter's, the author's and the server's over them; and the body its Validator
binds, which is what was sent as it was parsed, with the edge's values for its fields. Anything that
is no mapping is refused in DRF's words.
-/

namespace RestFrameworkServices

open Lib

/-- A request's data, as its parser left it: a form, an object, or any other value, of which nothing
is read but its type's name. -/
inductive RequestData where
  | form (body : QueryDict)
  | object (entries : Dict String Value)
  | other (type : String)

namespace RequestData

def isObject : RequestData → Bool
  | object _ => true
  | _ => false

/-- What a serializer is bound to. -/
def toBody : RequestData → Body
  | form body => .form body
  | object entries => .value (.mapping true entries.entries)
  | other type => .value (.object type 0)

end RequestData

/-- `QueryDict.get`: the last of a key's values. -/
def lastValue (values : List Value) : Value := values.getLast?.getD .null

/-- `_flat`: a form's values, a list where the parameter is an array and the last value else. -/
def flat (arrays : List String) (source : QueryDict) : Dict String Value :=
  source.lists.filterMap fun name values =>
    some (if name ∈ arrays then .list values else lastValue values)

/-- `_flat`, of the names of a list. -/
def flatOf (arrays : List String) (source : QueryDict) (names : List String) : Dict String Value :=
  flat arrays ⟨source.lists.filter fun name _ => name ∈ names⟩

/-- What a service call over a live view reads besides what it was sent: the spec's names (`site`),
its hook's and its provider's values, the route and the query string; which parameters are arrays
and how the kernel coerces a flat value, of the spec and of its target lookup's filter, with the
filter's comma-separated names; the declared `UrlKwarg`s and `QueryParam`s, and what is read off the
route; the seeds' names, the fields no argument fills, and the lookup's reads; the serializer's
names; what the server puts once the lookup has found its target for the arguments; and the
Validator. -/
structure ServiceCall where
  site : Site
  hook : Dict String (Answer Value)
  provided : Dict String (Answer Value)
  unreserved : ∀ n ∈ provided, n ∉ site.reserved
  route : Dict String Value
  query : QueryDict
  arrays : List String
  coerceFlat : Dict String Value → Dict String Value
  filterArrays : List String
  coerceFilter : Dict String Value → Dict String Value
  csv : List String
  urlKwargs : List String
  queried : List String
  routed : List String
  seedNames : List String
  excluded : List String
  lookupReads : List String
  inputNames : List String
  isSame : Value → Value → Bool
  serverInput : Dict String Value → Except Refusal (Dict String Value)
  declaredPartial : Bool
  validator : Option (Bool → Dict String Value → SerializerValidator)
  reservedPoolSeeds : List String
  ambient : List String

section
variable (call : ServiceCall)

/-! ## The arguments -/

/-- A mapping's values by name, a form read flat; the type of anything else. -/
def sentMapping : RequestData → Except String (Dict String Value)
  | .form body => .ok (call.coerceFlat (flat call.arrays body))
  | .object entries => .ok entries
  | .other type => .error type

/-- `edge_arguments`, over a live view: what is the route's or the query's is read from them alone. -/
def edgeArguments (arguments : Dict String Value) : Dict String Value :=
  let captured := call.route.filter fun name _ => name ∈ call.routed
  let arguments := (arguments.without call.urlKwargs).update (call.coerceFlat captured)
  let arguments := arguments.without call.queried
  if call.queried.isEmpty then arguments
  else arguments.update (call.coerceFlat (flatOf call.arrays call.query call.queried))

/-- The arguments before anything of the author's or the server's (`sent`): no seed's name
(`without_seed_names`), and no excluded field's but a lookup's read the route captures. -/
def sentArguments (arguments : Dict String Value) : Dict String Value :=
  (arguments.without call.seedNames).without
    (call.excluded.filter fun name => ¬ (name ∈ call.route ∧ name ∈ call.lookupReads))

/-- `_csv_parts`. -/
def csvParts : Value → List Value
  | .str s => if s = "" then [] else (s.splitOn ",").map .str
  | item => [item]

/-- A comma-separated filter's value as its widget reads it. -/
def csvRead : Value → Value
  | .str s => .list (csvParts (.str s))
  | .list items => .list (items.flatMap csvParts)
  | value => value

/-- `_route_filter_data` of the query string, then `_as_its_filter_set_reads`. -/
def filterArguments (arguments : Dict String Value) : Dict String Value :=
  let names := call.site.filterNames
  let routed := (arguments.without names).update
    (call.coerceFilter (flatOf call.filterArrays call.query names))
  routed.filterMap fun name value =>
    match value with
    | .null => if name ∈ names then none else some .null
    | value => some (if name ∈ call.csv then csvRead value else value)

/-- The author's layers over the arguments. -/
def authorCall (sent arguments : Dict String Value) : Call call.site Value where
  hook := call.hook
  provided := call.provided
  arguments := arguments
  sent := sent
  params := some sent
  route := call.route
  recorded := .empty
  unreserved := call.unreserved

/-! ## The body -/

/-- What the edge put over the caller's values for the serializer's fields. -/
def putValues (sent arguments : Dict String Value) : Dict String Value :=
  .tabulate (fun name => (arguments.get? name).filter fun value =>
    ((sent.get? name).map fun value' => !call.isSame value value').getD true) call.inputNames

/-- `_validator_body`. -/
def validatorBody (data : RequestData) (put : Dict String Value) : RequestData :=
  if put.entries.isEmpty then data
  else match data with
    | .form body => .form (put.entries.foldl (fun body e => body.writeFormValue e.1 e.2) body)
    | .object entries => .object (entries.update put)
    | .other type => .other type

/-! ## The call -/

/-- How a call's input ends: refused, failed with an error of Python's own, or validated, with the
arguments the kernel goes on with. -/
inductive Outcome where
  | refused (refusal : Refusal)
  | failed
  | validated (arguments : Dict String Value) (validated : Option Validated)

/-- `_drf_body_refusal`, of a spec that is not `many`. -/
def drfBodyRefusal (type : String) : Refusal :=
  .invalidArguments (.mapping [(.name "non_field_errors", .rows [.message
    ⟨"Invalid data. Expected a dictionary, but got " ++ type ++ "." ++
      " Only a spec declaring many=True accepts a list payload.", "invalid"⟩])])

/-- `compiled_partial`: the request's flag, else the spec's own. -/
def compiledPartial (asked : Option Bool) : Bool :=
  asked.getD call.declaredPartial && call.validator.isSome

/-- A call of arguments that are no mapping: an author's value for a filter's name or a lookup's
read is looked up in them, and the kernel's shape check refuses them. -/
def dispatchOther (type : String) : Outcome :=
  let authored := (routeAuthorValues (authorCall call .empty .empty)).authored
  let beside := filterNames call.site.filterNames call.site.hidden
  if ∃ name ∈ beside ++ call.site.lookupKeys, name ∈ authored then .failed
  else .refused (drfBodyRefusal type)

/-- What a Validator makes of the arguments, over the body the edge names it. -/
def validateInput (v : SerializerValidator) (flag : Bool) (body : RequestData)
    (arguments server : Dict String Value) (authored : Dict String String) : Outcome :=
  let state : EdgeState := {
    validatorInput := some (v.id, body.toBody)
    serverValues := arguments.filter fun name _ => name ∈ authored ∨ name ∈ server
    authorKeys := authored
    providerOwned := call.site.keys.elim [] (·.filled) }
  match v.validated call.reservedPoolSeeds state ⟨flag, call.ambient⟩
      (.value (.mapping true arguments.entries)) with
  | .error refusal => .refused refusal
  | .ok validated => .validated arguments (some validated)

/-- `dispatch_spec`, as far as the input: what was sent, and the request's partial flag. -/
def dispatchSpec (data : RequestData) (asked : Option Bool) : Outcome :=
  match sentMapping call data with
  | .error type => dispatchOther call type
  | .ok mapping =>
    let sent := sentArguments call (edgeArguments call mapping)
    let routed := routeAuthorValues (authorCall call sent (filterArguments call sent))
    match call.serverInput routed.arguments with
    | .error refusal => .refused refusal
    | .ok server =>
      let arguments := routed.arguments.update server
      let flag := compiledPartial call asked
      match call.validator with
      | none => .validated arguments none
      | some validator =>
        let body := validatorBody data (putValues call sent arguments)
        validateInput call (validator flag arguments) flag body arguments server routed.authored

end

end RestFrameworkServices
