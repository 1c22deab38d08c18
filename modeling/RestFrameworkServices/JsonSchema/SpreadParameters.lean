import RestFrameworkServices.ServiceSpecs.Reads

/-!
# What a spreading service advertises

A service with no input serializer, dispatched under a spreading binding, takes its own parameters
from the caller. Two reflections of its signature say which: the schema lists properties by
annotation and parameter kind (`callableInputSchema`), and dispatch declares names by parameter kind
alone (`spreadParameterKeys`), less what the call's callables hide (`serverOwnedKeys`).

`mem_parameterSchema` and `mem_spreadParameterKeys` read both as one notion, a name the service
spreads (`SpreadSpec.Spreads`). `advertises_iff` says when they agree: the schema skips `request`,
which is no reserved seed, and the name of a positional-only parameter, which a `TypedDict` key may
repeat. The refusals of misplaced markers, which both sides make, are left out.
-/

namespace RestFrameworkServices.JsonSchema

open Lib Reads

universe u

/-! ## The spec -/

/-- A service spec's target lookup, and whether it declares a `filter_set`. -/
structure TargetLookup where
  selector : Option Reads.Callable
  filtered : Bool

/-- The `properties` of a spec's `metadata["json_schema"]["input"]` fragment, where it names them. -/
abbrev Fragment (J : Type u) := Option (Dict String J)

/-- A service spec, as its input is described and declared. `inputSerializer` holds the names of the
serializer's fields. -/
structure SpreadSpec (J : Type u) where
  service : Reads.Callable
  preconditions : List Reads.Callable
  lookup : Option TargetLookup
  inputSerializer : Option (List String)
  many : Bool
  fragment : Fragment J

/-- `ArgumentBinding`. -/
inductive ArgumentBinding where
  | auto
  | bundle
  | spreadAuthorWins
  | spreadCallerWins
deriving DecidableEq, Repr

/-- `resolve_argument_binding`, of a service spec. -/
def resolveArgumentBinding : ArgumentBinding → ArgumentBinding
  | .auto => .bundle
  | binding => binding

/-- `UnknownArguments`. -/
inductive UnknownArguments where
  | ignore
  | reject
  | passthrough
deriving DecidableEq, Repr

variable {J : Type u}

/-- `server_owned_keys`. -/
def serverOwnedKeys (spec : SpreadSpec J) : List String :=
  "view" :: (spec.service :: spec.preconditions ++
    (spec.lookup.bind (·.selector)).toList).flatMap (·.hiddenInputKeys)

/-! ## The schema -/

/-- The properties and the required names of an object schema. -/
structure InputSchema (J : Type u) where
  properties : Dict String J
  required : List String

section
variable (property : Hint → J)

/-- Lists one input, as both loops do: not a dropped name, and not one marked `NotClientInput`. -/
def addProperty (dropped : List String) (schema : InputSchema J) (name : String) (hint : Hint)
    (required : Bool) : InputSchema J :=
  if name ∈ dropped then schema
  else if hint.notClientInput then schema
  else
    { properties := schema.properties.set name (property hint)
      required := if required then schema.required ++ [name] else schema.required }

/-- One key of an unpacked `TypedDict` (`_typed_dict_to_schema`'s loop). -/
def addKey (dropped : List String) (schema : InputSchema J) (key : TypedDictKey) : InputSchema J :=
  addProperty property dropped schema key.name key.hint (key.required || key.hint.inputRequired)

/-- One parameter (`callable_input_schema`'s loop), where a transport's statement says what infers a
parameter required. -/
def addParameter (dropped : List String) (stated : Bool) (schema : InputSchema J)
    (p : SignatureParameter) : InputSchema J :=
  match p.kind with
  | .varKeyword =>
    let expanded := p.keys.foldl (addKey property dropped) ⟨.empty, []⟩
    { properties := schema.properties.update expanded.properties
      required := schema.required ++ expanded.required }
  | .varPositional => schema
  | .positionalOnly =>
    addProperty property dropped schema p.name p.hint p.hint.inputRequired
  | .positionalOrKeyword | .keywordOnly =>
    addProperty property dropped schema p.name p.hint
      (p.hint.inputRequired || (stated && p.default.isNone))

/-- `callable_input_schema`. -/
def callableInputSchema (fn : Reads.Callable) (skip : List String) (supplied : Option (List String)) :
    InputSchema J :=
  fn.parameters.foldl (addParameter property (skip ++ supplied.getD []) supplied.isSome)
    ⟨.empty, []⟩

/-- The names of the positional-only parameters. -/
def positionalOnly (fn : Reads.Callable) : List String :=
  (fn.parameters.filter fun p => p.kind == .positionalOnly).map (·.name)

variable (reserved : List String)

/-- `_SERVICE_SEED_PARAMS`, over `RESERVED_POOL_SEEDS`. -/
def serviceSeedParams : List String := reserved ++ ["request", "user", "view"]

/-- `_parameter_schema`. -/
def parameterSchema (spec : SpreadSpec J) (supplied : Option (List String)) : InputSchema J :=
  callableInputSchema property spec.service
    (serviceSeedParams reserved ++ positionalOnly spec.service ++ serverOwnedKeys spec) supplied

/-- `_takes_its_parameters`. -/
def takesItsParameters (spec : SpreadSpec J) (binding : ArgumentBinding) : Bool :=
  !spec.many && spec.inputSerializer.isNone && resolveArgumentBinding binding != .bundle

/-- `spec_to_json_schema`, of the input phase, over the schema the serializer gives elsewhere. -/
def specToJsonSchema (spec : SpreadSpec J) (binding : ArgumentBinding)
    (supplied : Option (List String)) (serializerSchema : InputSchema J) : InputSchema J :=
  let derived :=
    if takesItsParameters spec binding then parameterSchema property reserved spec supplied
    else serializerSchema
  { derived with properties := spec.fragment.getD derived.properties }

/-! ## The declared keys -/

/-- `_callable_param_names`, `none` where a `**kwargs` leaves them open. -/
def callableParamNames (fn : Reads.Callable) : Option (List String) :=
  if fn.takesAnyName then none
  else some ((fn.parameters.flatMap fun p =>
    (if p.isKeyword then [p.name] else []) ++ p.keys.map (·.name)).filter (· ∉ fn.hiddenInputKeys))

/-- `_selector_consumed_keys`. -/
def selectorConsumedKeys : Option TargetLookup → Option (List String)
  | none => some []
  | some lookup =>
    match lookup.selector with
    | none => some []
    | some selector => if lookup.filtered then none else callableParamNames selector

/-- `_spread_parameter_keys`. -/
def spreadParameterKeys (spec : SpreadSpec J) (binding : ArgumentBinding) (reserved : List String) :
    Option (List String) :=
  if spec.inputSerializer.isSome || resolveArgumentBinding binding == .bundle then some []
  else (callableParamNames spec.service).map fun names => names.filter (· ∉ reserved)

/-- `declared_input_keys`, with the spec's own serializer. -/
def declaredInputKeys (spec : SpreadSpec J) (binding : ArgumentBinding) (reserved : List String) :
    Option (List String) :=
  (selectorConsumedKeys spec.lookup).bind fun consumed =>
    (spreadParameterKeys spec binding reserved).map fun parameters =>
      spec.inputSerializer.getD [] ++
        (consumed ++ parameters).filter (· ∉ serverOwnedKeys spec)

/-- The keys of `params` a call does not know: none where its declared set is open. -/
def unknownKeys {V : Type*} (spec : SpreadSpec J) (binding : ArgumentBinding)
    (reserved : List String) (params : Dict String V) : List String :=
  match declaredInputKeys spec binding reserved with
  | none => []
  | some declared => params.keys.filter fun key => key ∉ declared ∧ key ∉ reserved

/-- `resolve_unknown_arguments`: the extras to pass through, or the text under `non_field_errors`. -/
def resolveUnknownArguments {V : Type*} (spec : SpreadSpec J) (params : Dict String V)
    (policy : UnknownArguments) (binding : ArgumentBinding) (reserved : List String) :
    Except String (Dict String V) :=
  if policy = .ignore then .ok .empty
  else
    let unknown := unknownKeys spec binding reserved params
    if unknown.isEmpty then .ok .empty
    else if policy = .reject then
      .error ("Unexpected argument(s): " ++ String.intercalate ", "
        ((unknown.mergeSort (· ≤ ·)).map reprString) ++ ".")
    else .ok (params.filter fun key _ => key ∈ unknown)

end

/-! ## What each reflection reads -/

/-- A key any callable of the call marks is the server's, and so is `view`. -/
theorem mem_serverOwnedKeys_of_service {spec : SpreadSpec J} {name : String}
    (h : name ∈ spec.service.hiddenInputKeys) : name ∈ serverOwnedKeys spec := by
  unfold serverOwnedKeys
  rw [List.cons_append, List.flatMap_cons]
  exact List.mem_cons_of_mem _ (List.mem_append_left _ h)

/-- A keyword of the callable: a parameter that takes one, or a key of the `TypedDict` it unpacks. -/
def Named (fn : Reads.Callable) (name : String) : Prop :=
  ∃ p ∈ fn.parameters, p.isKeyword = true ∧ p.name = name ∨ ∃ key ∈ p.keys, key.name = name

/-- A name the caller fills on a spreading service: a keyword that is no server's and no seed's. -/
def SpreadSpec.Spreads (spec : SpreadSpec J) (reserved : List String) (name : String) : Prop :=
  Named spec.service name ∧ name ∉ serverOwnedKeys spec ∧ name ∉ reserved

/-- A closed callable's names are its keywords that it does not hide. -/
theorem mem_callableParamNames {fn : Reads.Callable} (hclosed : fn.takesAnyName = false) :
    ∃ names, callableParamNames fn = some names ∧
      ∀ name, name ∈ names ↔ Named fn name ∧ name ∉ fn.hiddenInputKeys := by
  refine ⟨_, if_neg (by rw [hclosed]; exact Bool.false_ne_true), fun name => ?_⟩
  rw [List.mem_filter, List.mem_flatMap, decide_eq_true_eq, Named]
  refine and_congr_left fun _ => exists_congr fun p => and_congr_right fun _ => ?_
  rw [List.mem_append, List.mem_map]
  refine or_congr ?_ Iff.rfl
  split
  · next hkeyword => simp only [List.mem_singleton, hkeyword, true_and, eq_comm]
  · next hkeyword => simp [hkeyword]

section
variable {spec : SpreadSpec J} {binding : ArgumentBinding}

/-- Dispatch declares the names the service spreads, of a spec that takes its parameters. -/
theorem mem_spreadParameterKeys (htakes : takesItsParameters spec binding = true)
    (hclosed : spec.service.takesAnyName = false) (reserved : List String) :
    ∃ names, spreadParameterKeys spec binding reserved = some names ∧
      ∀ name, name ∈ names ∧ name ∉ serverOwnedKeys spec ↔ spec.Spreads reserved name := by
  obtain ⟨names, hnames, hmem⟩ := mem_callableParamNames hclosed
  have htakes : (spec.many = false ∧ spec.inputSerializer = none) ∧
      resolveArgumentBinding binding ≠ .bundle := by simpa [takesItsParameters] using htakes
  refine ⟨names.filter (· ∉ reserved), ?_, fun name => ?_⟩
  · simp [spreadParameterKeys, htakes.1.2, htakes.2, hnames]
  · rw [List.mem_filter, decide_eq_true_eq, hmem, SpreadSpec.Spreads]
    constructor
    · rintro ⟨⟨⟨hnamed, -⟩, hseed⟩, howned⟩
      exact ⟨hnamed, howned, hseed⟩
    · rintro ⟨hnamed, howned, hseed⟩
      exact ⟨⟨⟨hnamed, mt mem_serverOwnedKeys_of_service howned⟩, hseed⟩, howned⟩

/-- A name the service spreads is known, whatever else the call reserves. -/
theorem notMem_unknownKeys {V : Type*} (htakes : takesItsParameters spec binding = true)
    (hclosed : spec.service.takesAnyName = false) (hlookup : spec.lookup = none)
    {seeds reserved : List String} {name : String} (hname : spec.Spreads seeds name)
    (params : Dict String V) : name ∉ unknownKeys spec binding reserved params := by
  obtain ⟨names, hnames, hmem⟩ := mem_spreadParameterKeys htakes hclosed reserved
  obtain ⟨hnamed, howned, -⟩ := hname
  simp only [unknownKeys, declaredInputKeys, hlookup, selectorConsumedKeys, Option.bind_some, hnames,
    Option.map_some, List.nil_append]
  intro hunknown
  obtain ⟨-, hunknown⟩ := List.mem_filter.1 hunknown
  obtain ⟨hundeclared, hfree⟩ := of_decide_eq_true hunknown
  have hdeclared := (hmem name).2 ⟨hnamed, howned, hfree⟩
  exact hundeclared (List.mem_append_right _
    (List.mem_filter.2 ⟨hdeclared.1, decide_eq_true hdeclared.2⟩))

end

/-- Names a call does not report unknown make no difference to what `REJECT` refuses. -/
theorem resolveUnknownArguments_without {V : Type*} {spec : SpreadSpec J} {binding : ArgumentBinding}
    {params : Dict String V} {reserved names : List String}
    (h : ∀ name ∈ names, name ∉ unknownKeys spec binding reserved params) :
    resolveUnknownArguments spec params .reject binding reserved =
      resolveUnknownArguments spec (params.without names) .reject binding reserved := by
  have hsame : unknownKeys spec binding reserved params =
      unknownKeys spec binding reserved (params.without names) := by
    unfold unknownKeys at h ⊢
    cases hdeclared : declaredInputKeys spec binding reserved with
    | none => rfl
    | some declared =>
      rw [hdeclared] at h
      dsimp only at h ⊢
      rw [Dict.keys_without, List.filter_filter]
      refine List.filter_congr fun key hkey => ?_
      by_cases hname : key ∈ names
      · have hno := h key hname
        rw [List.mem_filter, not_and] at hno
        simp [hname, Bool.eq_false_iff.2 (hno hkey)]
      · simp [hname]
  simp only [resolveUnknownArguments, hsame, reduceCtorEq, if_false, if_true]

/-! ## What the schema lists -/

/-- A loop that lists what each item says lists what some item says. -/
theorem mem_foldl_properties {α : Type*} {step : InputSchema J → α → InputSchema J} {name : String}
    {Says : α → Prop} (hstep : ∀ schema a, name ∈ (step schema a).properties ↔
      name ∈ schema.properties ∨ Says a) : ∀ {items : List α} {schema : InputSchema J},
    name ∈ (items.foldl step schema).properties ↔ name ∈ schema.properties ∨ ∃ a ∈ items, Says a
  | [], schema => by simp
  | a :: items, schema => by
    rw [List.foldl_cons, mem_foldl_properties hstep, hstep, or_assoc, List.exists_mem_cons_iff]

/-- A key set is there with those there were. -/
theorem mem_set {d : Dict String J} {key name : String} {v : J} :
    name ∈ d.set key v ↔ name ∈ d ∨ name = key := by
  rw [Dict.mem_iff_isSome, Dict.mem_iff_isSome, Dict.get?_set]
  split
  · next h => simp [h]
  · next h => simp [h]

/-- So are the keys of an update. -/
theorem mem_update {d e : Dict String J} {name : String} :
    name ∈ d.update e ↔ name ∈ d ∨ name ∈ e := by
  rw [Dict.mem_iff_isSome, Dict.mem_iff_isSome, Dict.mem_iff_isSome, Dict.get?_update,
    Option.isSome_or, Bool.or_eq_true, or_comm]

section
variable {property : Hint → J} {dropped : List String} {name : String}

/-- An input is listed under its name, unless it is dropped or marked. -/
theorem mem_addProperty (schema : InputSchema J) (listed : String) (hint : Hint) (required : Bool) :
    name ∈ (addProperty property dropped schema listed hint required).properties ↔
      name ∈ schema.properties ∨
        name ∉ dropped ∧ listed = name ∧ hint.notClientInput = false := by
  unfold addProperty
  split
  · next hdropped =>
    refine (or_iff_left ?_).symm
    rintro ⟨hlisted, rfl, -⟩
    exact hlisted hdropped
  · next hlisted =>
    split
    · next hmarked => simp [hmarked]
    · next hmarked =>
      rw [mem_set]
      refine or_congr_right ?_
      constructor
      · rintro rfl
        exact ⟨hlisted, rfl, by simpa using hmarked⟩
      · rintro ⟨-, rfl, -⟩
        rfl

/-- What the schema lists of one parameter. -/
def Lists (dropped : List String) (name : String) (p : SignatureParameter) : Prop :=
  name ∉ dropped ∧
    ((p.isKeyword = true ∨ p.kind = .positionalOnly) ∧ p.name = name ∧
        p.hint.notClientInput = false ∨
      ∃ key ∈ p.keys, key.name = name ∧ key.hint.notClientInput = false)

/-- A parameter is listed as `Lists` says. -/
theorem mem_addParameter {stated : Bool} (schema : InputSchema J) (p : SignatureParameter) :
    name ∈ (addParameter property dropped stated schema p).properties ↔
      name ∈ schema.properties ∨ Lists dropped name p := by
  unfold addParameter Lists
  cases hkind : p.kind with
  | varKeyword =>
    have hexpanded : name ∈ (p.keys.foldl (addKey property dropped) ⟨.empty, []⟩).properties ↔
        name ∉ dropped ∧ ∃ key ∈ p.keys, key.name = name ∧ key.hint.notClientInput = false := by
      rw [mem_foldl_properties fun schema key => mem_addProperty schema key.name key.hint _]
      refine (or_iff_right fun h : name ∈ (Dict.empty : Dict String J) => ?_).trans ?_
      · cases h
      · constructor
        · rintro ⟨key, hkey, hlisted, hname, hmarked⟩
          exact ⟨hlisted, key, hkey, hname, hmarked⟩
        · rintro ⟨hlisted, key, hkey, hname, hmarked⟩
          exact ⟨key, hkey, hlisted, hname, hmarked⟩
    simp only [mem_update, hexpanded, SignatureParameter.isKeyword, hkind]
    simp
  | varPositional => simp [SignatureParameter.isKeyword, SignatureParameter.keys, hkind]
  | positionalOnly => simp [mem_addProperty, SignatureParameter.keys, hkind]
  | positionalOrKeyword =>
    simp [mem_addProperty, SignatureParameter.isKeyword, SignatureParameter.keys, hkind]
  | keywordOnly =>
    simp [mem_addProperty, SignatureParameter.isKeyword, SignatureParameter.keys, hkind]

end

/-- The parameter schema lists a name the service spreads that is no transport's seed, no
positional-only parameter's, and none the transport supplies. -/
theorem mem_parameterSchema {property : Hint → J} {reserved : List String} {spec : SpreadSpec J}
    {supplied : Option (List String)} {name : String} :
    name ∈ (parameterSchema property reserved spec supplied).properties ↔
      spec.Spreads reserved name ∧ name ∉ ["request", "user", "view"] ∧
        name ∉ positionalOnly spec.service ∧ name ∉ supplied.getD [] := by
  rw [parameterSchema, callableInputSchema, mem_foldl_properties mem_addParameter]
  refine (or_iff_right fun h : name ∈ (Dict.empty : Dict String J) => by cases h).trans ?_
  simp only [Lists, serviceSeedParams, List.mem_append, not_or, SpreadSpec.Spreads, Named]
  constructor
  · rintro ⟨p, hp, ⟨⟨⟨⟨hseed, htransport⟩, hpositional⟩, howned⟩, hsupplied⟩, hlisted⟩
    refine ⟨⟨⟨p, hp, ?_⟩, howned, hseed⟩, htransport, hpositional, hsupplied⟩
    rcases hlisted with ⟨hkeyword | hkind, rfl, -⟩ | ⟨key, hkey, rfl, -⟩
    · exact .inl ⟨hkeyword, rfl⟩
    · refine absurd (List.mem_map.2 ⟨p, List.mem_filter.2 ⟨hp, ?_⟩, rfl⟩) hpositional
      rw [hkind]
      rfl
    · exact .inr ⟨key, hkey, rfl⟩
  · rintro ⟨⟨⟨p, hp, hnamed⟩, howned, hseed⟩, htransport, hpositional, hsupplied⟩
    -- a marked keyword is the server's, and the name is not
    have hunmarked : ¬ spec.service.Withholds name := fun h =>
      howned (mem_serverOwnedKeys_of_service (Callable.mem_hiddenInputKeys.2 (.inl h)))
    refine ⟨p, hp, ⟨⟨⟨⟨hseed, htransport⟩, hpositional⟩, howned⟩, hsupplied⟩, ?_⟩
    rcases hnamed with ⟨hkeyword, rfl⟩ | ⟨key, hkey, rfl⟩
    · refine .inl ⟨.inl hkeyword, rfl, ?_⟩
      by_contra hmarked
      exact hunmarked ⟨p, hp, .inl ⟨hkeyword, by simpa using hmarked, rfl⟩⟩
    · refine .inr ⟨key, hkey, rfl, ?_⟩
      by_contra hmarked
      exact hunmarked ⟨p, hp, .inr ⟨key, hkey, by simpa using hmarked, rfl⟩⟩

/-! ## Advertised and accepted -/

section
variable (property : Hint → J) (reserved : List String) (spec : SpreadSpec J)
  (binding : ArgumentBinding) (supplied : Option (List String)) (elsewhere : InputSchema J)

/-- What a spreading service advertises is what it accepts: the schema lists exactly the keys
dispatch declares, less the server's; no call reports one of them unknown, and under `REJECT` a call
ends as it does without them. -/
structure Advertises : Prop where
  listed : ∃ names, spreadParameterKeys spec binding reserved = some names ∧
    ∀ name, name ∈ (specToJsonSchema property reserved spec binding supplied elsewhere).properties ↔
      name ∈ names ∧ name ∉ serverOwnedKeys spec
  known : ∀ (V : Type) (params : Dict String V) (seeds : List String),
    ∀ name ∈ (specToJsonSchema property reserved spec binding supplied elsewhere).properties,
      name ∉ unknownKeys spec binding seeds params
  accepted : ∀ (V : Type) (params : Dict String V) (seeds : List String),
    resolveUnknownArguments spec params .reject binding seeds =
      resolveUnknownArguments spec
        (params.without (specToJsonSchema property reserved spec binding supplied elsewhere).properties.keys)
        .reject binding seeds

/-- No name the service spreads is a transport's seed, a positional-only parameter's, or one the
transport supplies; an author's `properties` in their place are the names it spreads. -/
def Plain : Prop :=
  match spec.fragment with
  | none => ∀ name, spec.Spreads reserved name → name ∉ ["request", "user", "view"] ∧
      name ∉ positionalOnly spec.service ∧ name ∉ supplied.getD []
  | some properties => ∀ name, name ∈ properties ↔ spec.Spreads reserved name

/-- **A spreading service advertises what it accepts exactly where its names are plain**, of every
service spec with no input serializer and no target lookup whose keywords are closed. -/
theorem advertises_iff (hserializer : spec.inputSerializer = none) (hmany : spec.many = false)
    (hlookup : spec.lookup = none) (hspreads : resolveArgumentBinding binding ≠ .bundle)
    (hclosed : spec.service.takesAnyName = false) :
    Advertises property reserved spec binding supplied elsewhere ↔ Plain reserved spec supplied := by
  have htakes : takesItsParameters spec binding = true := by
    simp [takesItsParameters, hmany, hserializer, hspreads]
  obtain ⟨names, hnames, hmem⟩ := mem_spreadParameterKeys htakes hclosed reserved
  have hschema : (specToJsonSchema property reserved spec binding supplied elsewhere).properties =
      spec.fragment.getD (parameterSchema property reserved spec supplied).properties := by
    simp only [specToJsonSchema, htakes, if_true]
  have hplain : Plain reserved spec supplied ↔ ∀ name,
      name ∈ (specToJsonSchema property reserved spec binding supplied elsewhere).properties ↔
        spec.Spreads reserved name := by
    rw [hschema, Plain]
    cases spec.fragment with
    | some properties => rfl
    | none => simp only [Option.getD_none, mem_parameterSchema, and_iff_left_iff_imp]
  rw [hplain]
  constructor
  · rintro ⟨⟨names', hnames', hlisted⟩, -, -⟩ name
    have hsame : names' = names := Option.some.inj (hnames'.symm.trans hnames)
    rw [hlisted, hsame, hmem]
  · intro hlisted
    have hknown : ∀ (V : Type) (params : Dict String V) (seeds : List String),
        ∀ name ∈ (specToJsonSchema property reserved spec binding supplied elsewhere).properties,
          name ∉ unknownKeys spec binding seeds params := fun V params seeds name hname =>
      notMem_unknownKeys htakes hclosed hlookup ((hlisted name).1 hname) params
    exact ⟨⟨names, hnames, fun name => by rw [hlisted, hmem]⟩, hknown, fun V params seeds =>
      resolveUnknownArguments_without (hknown V params seeds)⟩

end

/-- A service that takes the request beside a title. -/
def createPost : SpreadSpec String where
  service := ⟨[⟨"request", .keywordOnly, none, ⟨"any", false, none, false, false⟩, none⟩,
    ⟨"title", .keywordOnly, none, ⟨"string", false, none, false, false⟩, none⟩], false⟩
  preconditions := []
  lookup := none
  inputSerializer := none
  many := false
  fragment := none

/-- The names the kernel reserves. -/
def reservedPoolSeeds : List String :=
  ["user", "data", "instance", "collection", "result", "queryset", "progress", "call_context"]

/-- The request is declared, and not listed. -/
theorem createPost_request : ¬ ∀ (spec : SpreadSpec String) (binding : ArgumentBinding),
    spec.inputSerializer = none → spec.many = false → spec.lookup = none →
      resolveArgumentBinding binding ≠ .bundle → spec.service.takesAnyName = false →
      Advertises Hint.kind reservedPoolSeeds spec binding none ⟨.empty, []⟩ := by
  intro h
  obtain ⟨⟨names, hnames, hlisted⟩, -, -⟩ :=
    h createPost .spreadAuthorWins rfl rfl rfl (by decide) (by decide)
  have hdeclared : names = ["request", "title"] := Option.some.inj (hnames.symm.trans (by decide))
  have hrequest := (hlisted "request").2 (by rw [hdeclared]; decide)
  exact absurd hrequest (by decide)

/-- What decides it. -/
theorem createPost_advertises_iff :
    Advertises Hint.kind reservedPoolSeeds createPost .spreadAuthorWins none ⟨.empty, []⟩ ↔
      Plain reservedPoolSeeds createPost none :=
  advertises_iff _ _ _ _ _ _ rfl rfl rfl (by decide) (by decide)

end RestFrameworkServices.JsonSchema
