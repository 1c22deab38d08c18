import RestFrameworkServices.ServiceSpecs.Reads

/-!
# The signature check of a mounted spec

`as_view()` refuses a service or precondition that requires a name nothing supplies
(`validateCallableSignature`), by a set of names of its own. What a call supplies is the pool
dispatch builds for the spec (`MountedSpec.pool`), from which a callable takes its parameters by
keyword.

`validateCallableSignature_refuses_iff` is what the check refuses, at any call site. Against the pool
it is exact for a callable that requires no name one of the two has alone, as
`validateCallableSignature_exact_iff` says in full: `view`, `progress`, a validated field and a
declared read are the pool's alone, the `instance` of a bulk spec is the check's alone, and a
positional-only parameter is supplied by neither. The spec's own callables are checked together
(`validateSignatures`), and so is their exactness stated.
-/

namespace RestFrameworkServices.SpecValidation

open Reads

/-- A callable as the check reads it: the name its error shows, and its signature. -/
structure Function where
  label : String
  parameters : List SignatureParameter

/-- `_accepts_var_keyword`. -/
def acceptsVarKeyword (fn : Function) : Bool := fn.parameters.any fun p => p.kind == .varKeyword

/-- `_required_kw_params`, as their names. -/
def requiredKwParams (fn : Function) : List String :=
  (fn.parameters.filter fun p => p.isKeyword && p.default.isNone).map (·.name)

/-- What a call site says of the names it supplies. `specKwargs` says the spec has a `kwargs`
provider. -/
structure CallSite where
  hasData : Bool
  hasInstance : Bool
  hasResult : Bool
  specKwargs : Bool
  permissiveExtras : Bool
  extraKnownKeys : List String

/-- The names the check knows. -/
def CallSite.known (site : CallSite) : List String :=
  ["request", "user"] ++ (if site.hasData then ["data", "serializer"] else []) ++
    (if site.hasInstance then ["instance"] else []) ++
    (if site.hasResult then ["result"] else []) ++ site.extraKnownKeys

/-- The refusals that are always fatal: a name of the framework's absent from the call site. -/
def absentRefusal (fn : Function) (specLabel : String) (site : CallSite) : Option String :=
  let required := requiredKwParams fn
  if "data" ∈ required ∧ site.hasData = false then
    some (specLabel ++ ": " ++ fn.label ++ " requires `data` but the spec has no " ++
      "`input_serializer`. Either set `input_serializer=...` on the spec " ++
      "or remove `data` from the signature.")
  else if "serializer" ∈ required ∧ site.hasData = false then
    some (specLabel ++ ": " ++ fn.label ++ " requires `serializer` but the spec has " ++
      "no `input_serializer` to bind one from. Either set " ++
      "`input_serializer=...` on the spec or remove `serializer` from the signature.")
  else if "instance" ∈ required ∧ site.hasInstance = false then
    some (specLabel ++ ": " ++ fn.label ++ " requires `instance` but this action " ++
      "does not provide one (e.g. a create or list action). Remove `instance` " ++
      "from the signature or attach the spec to an update / destroy / " ++
      "retrieve / detail action instead.")
  else if "result" ∈ required ∧ site.hasResult = false then
    some (specLabel ++ ": " ++ fn.label ++ " requires `result` but this callable " ++
      "is not an output selector. Remove `result` from the signature or " ++
      "attach the callable to `ServiceSpec.output_selector_spec.selector`.")
  else none

/-- `validate_callable_signature`. -/
def validateCallableSignature (fn : Function) (specLabel : String) (site : CallSite) :
    Except String Unit :=
  if acceptsVarKeyword fn then .ok ()
  else
    match absentRefusal fn specLabel site with
    | some text => .error text
    | none =>
      if site.permissiveExtras || site.specKwargs then .ok ()
      else
        let unknownRequired :=
          ((requiredKwParams fn).filter fun name => name ∉ site.known).mergeSort (· ≤ ·)
        if unknownRequired.isEmpty then .ok ()
        else
          .error (specLabel ++ ": " ++ fn.label ++ " has required parameter(s) " ++
            reprNames unknownRequired ++ " that the framework does not provide. " ++
            "Provide them via `ServiceSpec.kwargs` / `SelectorSpec.kwargs`, via " ++
            "`get_<action>_service_kwargs` / `get_service_kwargs`, or remove " ++
            "them from the signature.")

/-- A check raises where it does not pass. -/
theorem exists_error_iff {check : Except String Unit} :
    (∃ text, check = .error text) ↔ check ≠ .ok () := by
  cases check with
  | error text => simp
  | ok _ => simp

/-- The check refuses a callable. -/
def Refuses (fn : Function) (specLabel : String) (site : CallSite) : Prop :=
  ∃ text, validateCallableSignature fn specLabel site = .error text

/-! ## A mounted spec -/

/-- One of a spec's `preconditions`: a callable, or a value of a type that is none. -/
inductive Precondition where
  | function (fn : Function)
  | other (type : String)

/-- A declaration of `preconditions`: none, a callable or a string where a sequence belongs, a value
that is no iterable, or a sequence. -/
inductive Preconditions where
  | none
  | single (type : String)
  | notIterable (type : String)
  | sequence (entries : List Precondition)

/-- The preconditions declared are these callables. -/
def Preconditions.Are : Preconditions → List Function → Prop
  | .none, fns => fns = []
  | .sequence entries, fns => entries = fns.map .function
  | .single _, _ | .notIterable _, _ => False

/-- `_validate_preconditions`, from an index on. -/
def validatePreconditionsFrom (label : String) (site : CallSite) :
    Nat → List Precondition → Except String Unit
  | _, [] => .ok ()
  | index, .other type :: _ =>
    .error (label ++ ": preconditions[" ++ toString index ++ "] is not callable (" ++ type ++ ").")
  | index, .function fn :: entries =>
    match validateCallableSignature fn (label ++ ".preconditions[" ++ toString index ++ "]") site with
    | .error text => .error text
    | .ok () => validatePreconditionsFrom label site (index + 1) entries

/-- `_validate_preconditions`. -/
def validatePreconditions (preconditions : Preconditions) (label : String) (site : CallSite) :
    Except String Unit :=
  match preconditions with
  | .none => .ok ()
  | .single type =>
    .error (label ++ ": `preconditions` takes a sequence of callables, not a single " ++ type ++
      ". Wrap it in a list: preconditions=[…].")
  | .notIterable type =>
    .error (label ++ ": `preconditions` must be a sequence of callables, got " ++ type ++ ".")
  | .sequence entries => validatePreconditionsFrom label site 0 entries

/-- The target lookup of a service spec. -/
inductive Lookup where
  | none
  | instance (selector : Bool)
  | collection
deriving DecidableEq

/-- A service spec on the view that mounts it: what its signatures are checked against, and what
dispatch reads its pool off. `fields` holds the keys its input serializer validates, of a spec that
has one; a `many` spec has no target lookup (`_validate_target_lookups`). -/
structure MountedSpec where
  service : Function
  preconditions : Preconditions
  kwargs : Bool
  many : Bool
  manyArgument : String
  fields : Option (List String)
  lookup : Lookup
  reads : List String
  hasInstance : Bool
  many_lookup : many = true → lookup = .none

namespace MountedSpec

variable (spec : MountedSpec)

/-- `mutation_target_source(spec) == "bulk"`. -/
def bulk : Bool := spec.many || spec.lookup == .collection

/-- The call site `validate_service_spec` checks the service and each precondition at, on a view that
overrides no hook. -/
def callSite : CallSite where
  hasData := spec.fields.isSome
  hasInstance := spec.hasInstance
  hasResult := false
  specKwargs := spec.kwargs
  permissiveExtras := false
  extraKnownKeys := if spec.lookup = .collection then ["collection"] else []

/-- `validate_service_spec`, the checks of its signatures. -/
def validateSignatures (label : String) : Except String Unit :=
  match validateCallableSignature spec.service label spec.callSite with
  | .error text => .error text
  | .ok () => validatePreconditions spec.preconditions label spec.callSite

/-- The keys a Validator hands on: each validated field's, or the one the rows travel under. -/
def validatedKeys : List String :=
  match spec.fields with
  | none => []
  | some fields => if spec.many then [spec.manyArgument] else fields

/-- The row and the set a call acts on, where it resolves them. -/
def targets : List String :=
  (if spec.hasInstance && !spec.bulk then ["instance"] else []) ++
    if spec.lookup = .collection then ["collection"] else []

/-- The pool dispatch builds for the spec. -/
def pool : List String :=
  ["request", "user", "view", "progress"] ++
    (if spec.fields.isSome then ["data", "serializer"] else []) ++ spec.targets ++
    spec.validatedKeys ++ spec.reads

end MountedSpec

/-- A callable requires a parameter a pool cannot supply: parameters are supplied by keyword. -/
def Starved (pool : List String) (fn : Function) : Prop :=
  ∃ p ∈ fn.parameters, p.default = none ∧
    (p.kind = .positionalOnly ∨ p.isKeyword = true ∧ p.name ∉ pool)

/-! ## What the check refuses -/

/-- A name is required where a keyword parameter of it has no default. -/
theorem mem_requiredKwParams {fn : Function} {name : String} : name ∈ requiredKwParams fn ↔
    ∃ p ∈ fn.parameters, p.default = none ∧ p.isKeyword = true ∧ p.name = name := by
  simp only [requiredKwParams, List.mem_map, List.mem_filter, Bool.and_eq_true,
    Option.isNone_iff_eq_none]
  constructor
  · rintro ⟨p, ⟨hp, hkeyword, hdefault⟩, hname⟩
    exact ⟨p, hp, hdefault, hkeyword, hname⟩
  · rintro ⟨p, hp, hdefault, hkeyword, hname⟩
    exact ⟨p, ⟨hp, hkeyword, hdefault⟩, hname⟩

/-- The framework's own names a call site does not supply, whoever else feeds the callable. -/
def CallSite.absent (site : CallSite) : List String :=
  (if site.hasData then [] else ["data", "serializer"]) ++
    (if site.hasInstance then [] else ["instance"]) ++ if site.hasResult then [] else ["result"]

/-- The names absent from a call site, by what it lacks. -/
theorem CallSite.mem_absent {site : CallSite} {name : String} : name ∈ site.absent ↔
    (name = "data" ∨ name = "serializer") ∧ site.hasData = false ∨
      name = "instance" ∧ site.hasInstance = false ∨ name = "result" ∧ site.hasResult = false := by
  unfold absent
  cases site.hasData <;> cases site.hasInstance <;> cases site.hasResult <;> simp [or_assoc]

/-- A refusal is always fatal exactly where a required name is absent from the call site. -/
theorem absentRefusal_isSome_iff {fn : Function} {specLabel : String} {site : CallSite} :
    (absentRefusal fn specLabel site).isSome ↔
      ∃ name ∈ requiredKwParams fn, name ∈ site.absent := by
  simp only [absentRefusal, CallSite.mem_absent]
  split
  · next h => exact iff_of_true rfl ⟨"data", h.1, .inl ⟨.inl rfl, h.2⟩⟩
  · next hdata =>
    split
    · next h => exact iff_of_true rfl ⟨"serializer", h.1, .inl ⟨.inr rfl, h.2⟩⟩
    · next hserializer =>
      split
      · next h => exact iff_of_true rfl ⟨"instance", h.1, .inr (.inl ⟨rfl, h.2⟩)⟩
      · next hinstance =>
        split
        · next h => exact iff_of_true rfl ⟨"result", h.1, .inr (.inr ⟨rfl, h.2⟩)⟩
        · next hresult =>
          refine iff_of_false Bool.false_ne_true ?_
          rintro ⟨name, hname, ⟨rfl | rfl, h⟩ | ⟨rfl, h⟩ | ⟨rfl, h⟩⟩
          · exact hdata ⟨hname, h⟩
          · exact hserializer ⟨hname, h⟩
          · exact hinstance ⟨hname, h⟩
          · exact hresult ⟨hname, h⟩

/-- The check refuses a callable with no `**kwargs` that requires a name of the framework's the call
site lacks, or, where nothing else feeds it, one the check does not know. -/
theorem validateCallableSignature_refuses_iff {fn : Function} {specLabel : String}
    {site : CallSite} : Refuses fn specLabel site ↔ acceptsVarKeyword fn = false ∧
      ∃ name ∈ requiredKwParams fn, name ∈ site.absent ∨
        site.permissiveExtras = false ∧ site.specKwargs = false ∧ name ∉ site.known := by
  have hunknown : ((requiredKwParams fn).filter fun name => name ∉ site.known).mergeSort
      (· ≤ ·) = [] ↔ ∀ name ∈ requiredKwParams fn, name ∈ site.known := by
    rw [← List.length_eq_zero_iff, List.length_mergeSort, List.length_eq_zero_iff,
      List.filter_eq_nil_iff]
    simp
  have haccepts : ¬ ∃ text, (.ok () : Except String Unit) = .error text := by
    rintro ⟨text, htext⟩
    cases htext
  unfold Refuses validateCallableSignature
  cases hopen : acceptsVarKeyword fn with
  | true => simp
  | false =>
    simp only [Bool.false_eq_true, if_false, true_and]
    cases habsent : absentRefusal fn specLabel site with
    | some text =>
      obtain ⟨name, hname, hmem⟩ := absentRefusal_isSome_iff.1 (Option.isSome_iff_exists.2 ⟨_, habsent⟩)
      exact iff_of_true ⟨text, rfl⟩ ⟨name, hname, .inl hmem⟩
    | none =>
      -- no required name is absent, so the check refuses by the names it does not know
      have hfed : ∀ name ∈ requiredKwParams fn, name ∉ site.absent := by
        intro name hname hmem
        have hsome : (absentRefusal fn specLabel site).isSome :=
          absentRefusal_isSome_iff.2 ⟨name, hname, hmem⟩
        rw [habsent] at hsome
        cases hsome
      simp only [List.isEmpty_iff, hunknown]
      split
      · next hlenient =>
        refine iff_of_false haccepts ?_
        rintro ⟨name, hname, hmem | ⟨hpermissive, hkwargs, -⟩⟩
        · exact hfed name hname hmem
        · simp [hpermissive, hkwargs] at hlenient
      · next hstrict =>
        have hstrict : site.permissiveExtras = false ∧ site.specKwargs = false := by
          simpa using hstrict
        split
        · next hall =>
          refine iff_of_false haccepts ?_
          rintro ⟨name, hname, hmem | ⟨-, -, hno⟩⟩
          · exact hfed name hname hmem
          · exact hno (hall name hname)
        · next hsome =>
          obtain ⟨name, hname, hno⟩ : ∃ name ∈ requiredKwParams fn, name ∉ site.known := by
            simpa using hsome
          exact iff_of_true ⟨_, rfl⟩ ⟨name, hname, .inr ⟨hstrict.1, hstrict.2, hno⟩⟩

/-- The preconditions of a spec are accepted where each is a callable the check accepts. -/
theorem validatePreconditionsFrom_eq_ok {label : String} {site : CallSite} :
    ∀ {index : Nat} {entries : List Precondition},
      validatePreconditionsFrom label site index entries = .ok () ↔
        ∀ entry ∈ entries, ∃ fn, entry = .function fn ∧ ¬ Refuses fn label site
  | _, [] => by simp [validatePreconditionsFrom]
  | index, .other type :: entries => by simp [validatePreconditionsFrom]
  | index, .function fn :: entries => by
    have hlabel : Refuses fn (label ++ ".preconditions[" ++ toString index ++ "]") site ↔
        Refuses fn label site := by
      rw [validateCallableSignature_refuses_iff, validateCallableSignature_refuses_iff]
    rw [List.forall_mem_cons, validatePreconditionsFrom]
    cases hcheck :
        validateCallableSignature fn (label ++ ".preconditions[" ++ toString index ++ "]") site with
    | error text =>
      have hrefused : Refuses fn label site := hlabel.1 ⟨text, hcheck⟩
      simp [hrefused]
    | ok _ =>
      have haccepted : ¬ Refuses fn label site := by
        rw [← hlabel]
        rintro ⟨text, htext⟩
        rw [hcheck] at htext
        cases htext
      simp [haccepted, validatePreconditionsFrom_eq_ok]

/-! ## The check against the pool -/

namespace MountedSpec

variable (spec : MountedSpec)

/-- A name the pool holds and the check does not know: `view`, `progress`, the key of a validated
field, or a declared read, that is none of the check's. -/
def Overlooked (name : String) : Prop :=
  name ∈ ["view", "progress"] ++ spec.validatedKeys ++ spec.reads ∧ name ∉ spec.callSite.known

/-- A name the check knows and the pool lacks: the `instance` of a bulk spec where the view has one,
which is no field and no read either. -/
def Promised (name : String) : Prop :=
  name = "instance" ∧ spec.hasInstance = true ∧ spec.bulk = true ∧
    "instance" ∉ spec.validatedKeys ++ spec.reads

/-- Of callables checked together, one requires a name that neither has; or one requires a name that
the pool alone has exactly where one requires a name that the check alone has, or a parameter no
keyword supplies. -/
def Aligned (fns : List Function) : Prop :=
  (∃ fn ∈ fns, ∃ p ∈ fn.parameters, p.default = none ∧ p.isKeyword = true ∧
    p.name ∉ spec.callSite.known ∧ p.name ∉ spec.pool) ∨
  ((∃ fn ∈ fns, ∃ p ∈ fn.parameters, p.default = none ∧ p.isKeyword = true ∧
      spec.Overlooked p.name) ↔
    ∃ fn ∈ fns, ∃ p ∈ fn.parameters, p.default = none ∧
      (p.kind = .positionalOnly ∨ p.isKeyword = true ∧ spec.Promised p.name))

variable {spec}

/-- The names the check knows of a mounted spec. -/
theorem mem_known {name : String} : name ∈ spec.callSite.known ↔
    name = "request" ∨ name = "user" ∨ (name = "data" ∨ name = "serializer") ∧ spec.fields.isSome ∨
      name = "instance" ∧ spec.hasInstance = true ∨ name = "collection" ∧ spec.lookup = .collection := by
  unfold CallSite.known callSite
  cases spec.fields.isSome <;> cases spec.hasInstance <;>
    by_cases hlookup : spec.lookup = .collection <;> simp [hlookup, or_assoc]

/-- The names the pool holds. -/
theorem mem_pool {name : String} : name ∈ spec.pool ↔
    name = "request" ∨ name = "user" ∨ (name = "data" ∨ name = "serializer") ∧ spec.fields.isSome ∨
      name = "instance" ∧ spec.hasInstance = true ∧ spec.bulk = false ∨
      name = "collection" ∧ spec.lookup = .collection ∨
      name ∈ ["view", "progress"] ++ spec.validatedKeys ++ spec.reads := by
  have hfields : name ∈ (if spec.fields.isSome then ["data", "serializer"] else []) ↔
      (name = "data" ∨ name = "serializer") ∧ spec.fields.isSome := by
    cases spec.fields.isSome <;> simp
  have htargets : name ∈ spec.targets ↔ name = "instance" ∧ spec.hasInstance = true ∧
      spec.bulk = false ∨ name = "collection" ∧ spec.lookup = .collection := by
    rw [targets, List.mem_append]
    refine or_congr ?_ ?_
    · cases spec.hasInstance <;> cases spec.bulk <;> simp
    · by_cases hlookup : spec.lookup = .collection <;> simp [hlookup]
  simp only [pool, List.mem_append, hfields, htargets, List.mem_cons, List.not_mem_nil, or_false]
  -- the four fixed names stand around the rest on the right
  grind

/-- A name is overlooked where the pool alone has it. -/
theorem overlooked_iff {name : String} :
    spec.Overlooked name ↔ name ∈ spec.pool ∧ name ∉ spec.callSite.known := by
  rw [Overlooked]
  refine and_congr_left fun hunknown => ?_
  rw [mem_known] at hunknown
  rw [mem_pool]
  constructor
  · intro h
    exact .inr (.inr (.inr (.inr (.inr h))))
  · rintro (h | h | h | ⟨h, hrow, -⟩ | h | h)
    · exact absurd (.inl h) hunknown
    · exact absurd (.inr (.inl h)) hunknown
    · exact absurd (.inr (.inr (.inl h))) hunknown
    · exact absurd (.inr (.inr (.inr (.inl ⟨h, hrow⟩)))) hunknown
    · exact absurd (.inr (.inr (.inr (.inr h)))) hunknown
    · exact h

/-- A name is promised where the check alone has it. -/
theorem promised_iff {name : String} :
    spec.Promised name ↔ name ∈ spec.callSite.known ∧ name ∉ spec.pool := by
  rw [mem_known, mem_pool, Promised]
  constructor
  · rintro ⟨rfl, hrow, hbulk, hfree⟩
    refine ⟨.inr (.inr (.inr (.inl ⟨rfl, hrow⟩))), ?_⟩
    simpa [hrow, hbulk] using hfree
  · rintro ⟨h | h | h | ⟨rfl, hrow⟩ | h, hlacks⟩
    · exact absurd (.inl h) hlacks
    · exact absurd (.inr (.inl h)) hlacks
    · exact absurd (.inr (.inr (.inl h))) hlacks
    · refine ⟨rfl, hrow, ?_, ?_⟩
      · by_contra hsingle
        exact hlacks (.inr (.inr (.inr (.inl ⟨rfl, hrow, by simpa using hsingle⟩))))
      · intro hmem
        refine hlacks (.inr (.inr (.inr (.inr (.inr ?_)))))
        rw [List.append_assoc]
        exact List.mem_append_right _ hmem
    · exact absurd (.inr (.inr (.inr (.inr (.inl h))))) hlacks

/-- With no `kwargs` provider, the check of a mounted spec refuses exactly a required name it does not
know. -/
theorem callSite_refuses_iff (hkwargs : spec.kwargs = false) {fn : Function}
    (hfn : acceptsVarKeyword fn = false) {label : String} : Refuses fn label spec.callSite ↔
      ∃ p ∈ fn.parameters, p.default = none ∧ p.isKeyword = true ∧
        p.name ∉ spec.callSite.known := by
  have habsent : ∀ name ∈ spec.callSite.absent, name ∉ spec.callSite.known := by
    intro name hname
    rw [mem_known]
    rcases CallSite.mem_absent.1 hname with ⟨rfl | rfl, h⟩ | ⟨rfl, h⟩ | ⟨rfl, -⟩ <;>
      simp_all [callSite]
  simp only [validateCallableSignature_refuses_iff, hfn, true_and, mem_requiredKwParams]
  constructor
  · rintro ⟨name, ⟨p, hp, hdefault, hkeyword, rfl⟩, hname | ⟨-, -, hunknown⟩⟩
    · exact ⟨p, hp, hdefault, hkeyword, habsent p.name hname⟩
    · exact ⟨p, hp, hdefault, hkeyword, hunknown⟩
  · rintro ⟨p, hp, hdefault, hkeyword, hunknown⟩
    exact ⟨p.name, ⟨p, hp, hdefault, hkeyword, rfl⟩, .inr ⟨rfl, hkwargs, hunknown⟩⟩

/-- A callable is starved by a name the pool lacks, known to the check or not, or by a parameter no
keyword supplies. -/
theorem starved_iff {fn : Function} : Starved spec.pool fn ↔
    (∃ p ∈ fn.parameters, p.default = none ∧ p.isKeyword = true ∧
      p.name ∉ spec.callSite.known ∧ p.name ∉ spec.pool) ∨
    ∃ p ∈ fn.parameters, p.default = none ∧
      (p.kind = .positionalOnly ∨ p.isKeyword = true ∧ spec.Promised p.name) := by
  simp only [promised_iff]
  constructor
  · rintro ⟨p, hp, hdefault, hkind | ⟨hkeyword, hlacks⟩⟩
    · exact .inr ⟨p, hp, hdefault, .inl hkind⟩
    · by_cases hknown : p.name ∈ spec.callSite.known
      · exact .inr ⟨p, hp, hdefault, .inr ⟨hkeyword, hknown, hlacks⟩⟩
      · exact .inl ⟨p, hp, hdefault, hkeyword, hknown, hlacks⟩
  · rintro (⟨p, hp, hdefault, hkeyword, -, hlacks⟩ | ⟨p, hp, hdefault, hkind | ⟨hkeyword, -, hlacks⟩⟩)
    · exact ⟨p, hp, hdefault, .inr ⟨hkeyword, hlacks⟩⟩
    · exact ⟨p, hp, hdefault, .inl hkind⟩
    · exact ⟨p, hp, hdefault, .inr ⟨hkeyword, hlacks⟩⟩

/-- It is refused for a name the check does not know, held by the pool or not. -/
theorem refuses_iff (hkwargs : spec.kwargs = false) {fn : Function}
    (hfn : acceptsVarKeyword fn = false) {label : String} : Refuses fn label spec.callSite ↔
      (∃ p ∈ fn.parameters, p.default = none ∧ p.isKeyword = true ∧
        p.name ∉ spec.callSite.known ∧ p.name ∉ spec.pool) ∨
      ∃ p ∈ fn.parameters, p.default = none ∧ p.isKeyword = true ∧ spec.Overlooked p.name := by
  simp only [overlooked_iff, callSite_refuses_iff hkwargs hfn]
  constructor
  · rintro ⟨p, hp, hdefault, hkeyword, hunknown⟩
    by_cases hheld : p.name ∈ spec.pool
    · exact .inr ⟨p, hp, hdefault, hkeyword, hheld, hunknown⟩
    · exact .inl ⟨p, hp, hdefault, hkeyword, hunknown, hheld⟩
  · rintro (⟨p, hp, hdefault, hkeyword, hunknown, -⟩ | ⟨p, hp, hdefault, hkeyword, -, hunknown⟩)
    · exact ⟨p, hp, hdefault, hkeyword, hunknown⟩
    · exact ⟨p, hp, hdefault, hkeyword, hunknown⟩

/-- Preconditions that are callables are refused where one of them is. -/
theorem validatePreconditions_refuses_iff {preconditions : Preconditions} {fns : List Function}
    (hare : preconditions.Are fns) {label : String} :
    (∃ text, validatePreconditions preconditions label spec.callSite = .error text) ↔
      ∃ fn ∈ fns, Refuses fn label spec.callSite := by
  rw [exists_error_iff]
  cases preconditions with
  | none =>
    cases hare
    simp [validatePreconditions]
  | single type => cases hare
  | notIterable type => cases hare
  | sequence entries =>
    cases hare
    rw [validatePreconditions, Ne, validatePreconditionsFrom_eq_ok]
    simp

/-- A mounted spec's signatures are refused where its service or a precondition is. -/
theorem validateSignatures_refuses_iff {fns : List Function} (hare : spec.preconditions.Are fns)
    {label : String} : (∃ text, spec.validateSignatures label = .error text) ↔
      ∃ fn ∈ spec.service :: fns, Refuses fn label spec.callSite := by
  rw [List.exists_mem_cons_iff, ← validatePreconditions_refuses_iff hare, validateSignatures]
  cases hservice : validateCallableSignature spec.service label spec.callSite with
  | error text => exact iff_of_true ⟨text, rfl⟩ (.inl ⟨text, hservice⟩)
  | ok _ =>
    have haccepted : ¬ Refuses spec.service label spec.callSite :=
      exists_error_iff.not.2 (by simp [hservice])
    rw [or_iff_right haccepted]

/-- Callables checked together are refused exactly where one is starved, where they are aligned. -/
theorem refuses_iff_starved_iff (hkwargs : spec.kwargs = false) {fns : List Function}
    (hfns : ∀ fn ∈ fns, acceptsVarKeyword fn = false) (label : String) :
    ((∃ fn ∈ fns, Refuses fn label spec.callSite) ↔ ∃ fn ∈ fns, Starved spec.pool fn) ↔
      spec.Aligned fns := by
  have hrefuses : (∃ fn ∈ fns, Refuses fn label spec.callSite) ↔ ∃ fn ∈ fns, _ :=
    exists_congr fun fn => and_congr_right fun hfn => refuses_iff hkwargs (hfns fn hfn)
  simp only [hrefuses, starved_iff, and_or_left, exists_or, Aligned]
  by_cases hneither : ∃ fn ∈ fns, ∃ p ∈ fn.parameters, p.default = none ∧ p.isKeyword = true ∧
      p.name ∉ spec.callSite.known ∧ p.name ∉ spec.pool
  · simp only [hneither, true_or]
  · simp only [hneither, false_or]

/-- **The signature check is exact for the callables that require no name the check and the pool
disagree on**, of every mounted spec with no `kwargs` provider: for a callable as its service and as a
precondition, and for the spec's own together, as `as_view()` checks them. -/
theorem validateCallableSignature_exact_iff (hkwargs : spec.kwargs = false) (label : String) :
    (∀ fn, acceptsVarKeyword fn = false →
      ((Refuses fn label spec.callSite ↔ Starved spec.pool fn) ↔ spec.Aligned [fn]) ∧
      (((∃ text, validatePreconditions (.sequence [.function fn]) label spec.callSite = .error text) ↔
        Starved spec.pool fn) ↔ spec.Aligned [fn])) ∧
    ∀ fns, spec.preconditions.Are fns →
      (∀ fn ∈ spec.service :: fns, acceptsVarKeyword fn = false) →
        (((∃ text, spec.validateSignatures label = .error text) ↔
          ∃ fn ∈ spec.service :: fns, Starved spec.pool fn) ↔ spec.Aligned (spec.service :: fns)) := by
  refine ⟨fun fn hfn => ?_, fun fns hare hfns => ?_⟩
  · have hsingle := refuses_iff_starved_iff hkwargs (List.forall_mem_singleton.2 hfn) label
    have hare : (Preconditions.sequence [.function fn]).Are [fn] := rfl
    rw [validatePreconditions_refuses_iff hare]
    simp only [List.mem_singleton, exists_eq_left] at hsingle ⊢
    exact ⟨hsingle, hsingle⟩
  · rw [validateSignatures_refuses_iff hare]
    exact refuses_iff_starved_iff hkwargs hfns label

end MountedSpec

/-- A keyword parameter with no default. -/
def takes (name : String) : SignatureParameter :=
  ⟨name, .keywordOnly, none, ⟨"string", false, none, false, false⟩, none⟩

/-- A create whose service takes its data and the view. -/
def createOrder : MountedSpec where
  service := ⟨"create", [takes "data", takes "view"]⟩
  preconditions := .none
  kwargs := false
  many := false
  manyArgument := "items"
  fields := some ["name"]
  lookup := .none
  reads := []
  hasInstance := false
  many_lookup := fun h => by cases h

/-- The check refuses `view`, which the pool holds. -/
theorem createOrder_refused : ¬ ∀ (spec : MountedSpec) (fn : Function) (label : String),
    spec.kwargs = false → acceptsVarKeyword fn = false →
      (Refuses fn label spec.callSite ↔ Starved spec.pool fn) := by
  intro h
  have hrefused : Refuses createOrder.service "Create" createOrder.callSite :=
    (MountedSpec.callSite_refuses_iff rfl rfl).2
      ⟨takes "view", .tail _ (.head _), rfl, rfl, by decide⟩
  obtain ⟨p, hp, -, hstarved⟩ := (h createOrder createOrder.service "Create" rfl rfl).1 hrefused
  have hfed : ∀ p ∈ createOrder.service.parameters,
      p.kind = .keywordOnly ∧ p.name ∈ createOrder.pool := by decide
  rcases hstarved with hkind | ⟨-, hlacks⟩
  · rw [(hfed p hp).1] at hkind
    cases hkind
  · exact hlacks (hfed p hp).2

/-- The service's check, and what it depends on. -/
theorem createOrder_exact :
    (((Refuses createOrder.service "Create" createOrder.callSite ↔
        Starved createOrder.pool createOrder.service) ↔
      createOrder.Aligned [createOrder.service]) ∧
      (((∃ text, validatePreconditions (.sequence [.function createOrder.service]) "Create"
          createOrder.callSite = .error text) ↔ Starved createOrder.pool createOrder.service) ↔
        createOrder.Aligned [createOrder.service])) ∧
    (((∃ text, createOrder.validateSignatures "Create" = .error text) ↔
      ∃ fn ∈ [createOrder.service], Starved createOrder.pool fn) ↔
      createOrder.Aligned [createOrder.service]) := by
  obtain ⟨hcallable, hspec⟩ := MountedSpec.validateCallableSignature_exact_iff
    (rfl : createOrder.kwargs = false) "Create"
  exact ⟨hcallable createOrder.service rfl, hspec [] rfl (by decide)⟩

end RestFrameworkServices.SpecValidation
