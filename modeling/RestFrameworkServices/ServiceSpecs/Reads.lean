import RestFrameworkServices.Types.Value
import Mathlib.Data.Nat.Notation
import Mathlib.Data.List.Dedup
import Mathlib.Data.List.Forall2

/-!
# The reads of a compiled spec

`as_kernel_spec` reads a spec's callables off their signatures (`reflected`) and merges the spec's
declared reads over them (`merge`), so one name's read may be required by several of them at once. A
variant the DRF edge dispatches (`kernelSpecVariant`) leaves optional each read whose name
`requiredForHavingNoDefault` gives: by name alone, read off every callable.

`relaxesExactly_iff` says when that is exactly the reads required only for having no default: where
no read is required by a mark or a `TypedDict` key whose name another callable takes plainly. The
refusals of the compile are left out: a spec it refuses has no compiled reads to compare.
-/

namespace RestFrameworkServices.Reads

/-! ## Signatures -/

inductive ParameterKind where
  | positionalOnly
  | positionalOrKeyword
  | varPositional
  | keywordOnly
  | varKeyword
deriving DecidableEq, Repr

/-- An annotation, as the compile reads it: the type it maps to, its description and its markers
(`read_schema_markers`). -/
structure Hint where
  kind : String
  nullable : Bool
  help : Option String
  inputRequired : Bool
  notClientInput : Bool

/-- A key of a `TypedDict`, and whether a conforming value has it (`typed_dict_input`). -/
structure TypedDictKey where
  name : String
  hint : Hint
  required : Bool

/-- A parameter of a signature. A `**kwargs` keeps the keys of the `TypedDict` it unpacks, if it
unpacks one. -/
structure SignatureParameter where
  name : String
  kind : ParameterKind
  default : Option Value
  hint : Hint
  typedDict : Option (List TypedDictKey)

/-- A callable of a spec: its signature, and whether it is a wrapper that may fill its own
parameters (`fills_its_own`). -/
structure Callable where
  parameters : List SignatureParameter
  fillsItsOwn : Bool

namespace SignatureParameter

/-- The parameter takes a keyword of its own name. -/
def isKeyword (p : SignatureParameter) : Bool :=
  p.kind == .positionalOrKeyword || p.kind == .keywordOnly

/-- The keys it takes as an `Unpack`-ed `TypedDict`. -/
def keys (p : SignatureParameter) : List TypedDictKey :=
  if p.kind == .varKeyword then p.typedDict.getD [] else []

end SignatureParameter

namespace Callable

variable (fn : Callable)

/-- `_takes_any_name`. -/
def takesAnyName : Bool := fn.parameters.any fun p => p.kind == .varKeyword && p.typedDict.isNone

/-- `_no_default`: the keyword parameters with no default, less those marked `InputRequired`. -/
def noDefault : List String :=
  (fn.parameters.filter fun p => p.isKeyword && p.default.isNone && !p.hint.inputRequired).map (·.name)

/-- `_input_required`: the parameters marked `InputRequired`. -/
def inputRequired : List String :=
  (fn.parameters.filter fun p => p.hint.inputRequired).map (·.name)

/-- The keys of its `TypedDict` marked `InputRequired`. -/
def markedKeys : List String :=
  ((fn.parameters.flatMap (·.keys)).filter fun key => key.hint.inputRequired).map (·.name)

/-- The required keys of its `TypedDict`. -/
def requiredKeys : List String :=
  ((fn.parameters.flatMap (·.keys)).filter fun key => key.required).map (·.name)

/-- The names it marks `NotClientInput` (`marked_input_keys`). -/
def hiddenKeys : List String :=
  fn.parameters.flatMap fun p =>
    (if p.isKeyword && p.hint.notClientInput then [p.name] else []) ++
      (p.keys.filter fun key => key.hint.notClientInput).map (·.name)

/-- `hidden_input_keys`: the names it marks, and `view`. -/
def hiddenInputKeys : List String := (fn.hiddenKeys ++ ["view"]).dedup

/-- The callable marks a name `NotClientInput`: a keyword parameter of the name, or a key of the
`TypedDict` it unpacks. -/
def Withholds (name : String) : Prop :=
  ∃ p ∈ fn.parameters, p.isKeyword = true ∧ p.hint.notClientInput = true ∧ p.name = name ∨
    ∃ key ∈ p.keys, key.hint.notClientInput = true ∧ key.name = name

variable {fn}

/-- The hidden keys are the names the callable marks. -/
theorem mem_hiddenKeys {name : String} : name ∈ fn.hiddenKeys ↔ fn.Withholds name := by
  simp only [hiddenKeys, Withholds, List.mem_flatMap, List.mem_append, List.mem_map, List.mem_filter]
  refine exists_congr fun p => and_congr_right fun _ => or_congr ?_ ?_
  · cases p.isKeyword <;> cases p.hint.notClientInput <;> simp [eq_comm]
  · simp only [and_assoc]

/-- A name is hidden where the callable marks it, or where it is `view`. -/
theorem mem_hiddenInputKeys {name : String} :
    name ∈ fn.hiddenInputKeys ↔ fn.Withholds name ∨ name = "view" := by
  rw [hiddenInputKeys, List.mem_dedup, List.mem_append, mem_hiddenKeys, List.mem_singleton]

end Callable

/-! ## Parameters -/

/-- A Parameter of the kernel's; `default` is `none` where it is `UNSET`. -/
structure Parameter where
  name : String
  kind : String
  required : Bool
  nullable : Bool
  default : Option Value
  help : Option String
  reflected : Bool

/-- `_parameter`. -/
def Hint.parameter (hint : Hint) (name : String) (required : Bool) (default : Option Value) :
    Parameter where
  name := name
  kind := hint.kind
  required := required || hint.inputRequired
  nullable := hint.nullable
  default := if hint.inputRequired then none else default
  help := hint.help
  reflected := true

/-- What one parameter of a signature is reflected as. -/
def SignatureParameter.reflected (skip : List String) (asked : Bool) (p : SignatureParameter) :
    List Parameter :=
  match p.kind with
  | .varKeyword =>
    (p.keys.filter fun key => key.name ∉ skip).map fun key =>
      key.hint.parameter key.name key.required none
  | .varPositional | .positionalOnly => []
  | .positionalOrKeyword | .keywordOnly =>
    if p.name ∈ skip then [] else [p.hint.parameter p.name (p.default.isNone && asked) p.default]

/-- A declared read: a `UrlKwarg`, which may say it is required, or a `QueryParam`, which has no
`required`. -/
structure Entry where
  name : String
  kind : String
  default : Option Value
  description : Option String
  required : Bool
  queryParam : Bool
  unrequired : queryParam = true → required = false

/-- `_declared`: one declared read. -/
def Entry.parameter (entry : Entry) : Parameter where
  name := entry.name
  kind := entry.kind
  required := entry.required
  nullable := false
  default := entry.default
  help := entry.description
  reflected := false

/-- `_saying_required`. -/
def sayingRequired (entries : List Entry) : List String :=
  (entries.filter (·.required)).map (·.name)

/-- `_names`. -/
def names (parameters : List Parameter) : List String := parameters.map (·.name)

/-- A Parameter's name is among the names. -/
theorem mem_names {parameters : List Parameter} {p : Parameter} (h : p ∈ parameters) :
    p.name ∈ names parameters := List.mem_map_of_mem h

section
variable (reserved : List String)

/-- `_reflected`, over the names no parameter becomes (`_NOT_ARGUMENTS`). -/
def reflected (fn : Callable) (hidden : List String) (openEnded : Bool) : List Parameter :=
  fn.parameters.flatMap
    (SignatureParameter.reflected (reserved ++ hidden) (!openEnded && !fn.fillsItsOwn))

/-- `_required_by`. -/
def requiredBy (callables : List Callable) (hidden : List String) (openEnded : Bool) :
    List String :=
  callables.flatMap fun fn => names ((reflected reserved fn hidden openEnded).filter (·.required))

/-- `_requiring`. -/
def requiring (declared : List Parameter) (required : List String) : List Parameter :=
  declared.map fun read =>
    if read.name ∈ required ∧ read.default.isNone then { read with required := true } else read

/-- `_declared_over`. -/
def declaredOver (read : Option Parameter) (reflected : Parameter) : Parameter :=
  match read with
  | none => reflected
  | some read =>
    { read with required := read.required || (reflected.required && read.default.isNone) }

/-- `_merge`'s loop: a reflected Parameter takes the declared read of its name, and the reads left
come last. -/
def mergeOver : List (String × Parameter) → List Parameter → List Parameter
  | byName, [] => byName.map (·.2)
  | byName, parameter :: reflected =>
    declaredOver (byName.lookup parameter.name) parameter ::
      mergeOver (byName.filter fun e => e.1 ≠ parameter.name) reflected

/-- `_merge`. -/
def merge (reflected declared : List Parameter) (skip : List String) : List Parameter :=
  (mergeOver (Lib.ofPairs (declared.map fun read => (read.name, read))) reflected).filter
    fun parameter => parameter.name ∉ skip

end

/-! ## Specs -/

/-- What a typed `kwargs` provider says of its keys (`provider_keys`). -/
structure ProviderKeys where
  filled : List String
  declinable : List String

/-- A provider: a callable, and its keys where it says them. -/
structure Provider where
  callable : Callable
  keys : Option ProviderKeys

/-- A selector spec. `filterSet` holds the names its `filter_set` reads. -/
structure SelectorSpec where
  selector : Callable
  preconditions : List Callable
  reads : List Entry
  kwargs : Option Provider
  filterSet : List String

/-- The seat of a target lookup. -/
inductive LookupRole where
  | instanceRow
  | collection
deriving DecidableEq, Repr

/-- A target lookup: a selector spec of a service spec's. An instance lookup with no selector is no
lookup. -/
structure Lookup where
  role : LookupRole
  selector : Option Callable
  reads : List Entry
  kwargs : Option Provider
  filterSet : List String

/-- A service spec. Its declaration refuses two target lookups. -/
structure ServiceSpec where
  service : Callable
  preconditions : List Callable
  reads : List Entry
  kwargs : Option Provider
  inputData : Option Provider
  lookup : Option Lookup
  inputSerializer : Bool

/-- A spec. -/
inductive Spec where
  | selector (s : SelectorSpec)
  | service (s : ServiceSpec)

namespace Spec

/-- The spec's own declared reads. -/
def reads : Spec → List Entry
  | selector s => s.reads
  | service s => s.reads

/-- The callables its own reads are handed to: the selector or service, and the preconditions. -/
def callables : Spec → List Callable
  | selector s => s.selector :: s.preconditions
  | service s => s.service :: s.preconditions

/-- Its target lookup. A selector spec has none. -/
def lookup : Spec → Option Lookup
  | selector _ => none
  | service s => s.lookup

/-- Every callable of the call: the target lookup's selector with its own. -/
def callCallables (spec : Spec) : List Callable :=
  spec.callables ++ (spec.lookup.bind (·.selector)).toList

/-- The `kwargs` providers, the target lookup's with its own. -/
def kwargsProviders : Spec → List Provider
  | selector s => s.kwargs.toList
  | service s => s.kwargs.toList ++ (s.lookup.bind (·.kwargs)).toList

/-- The providers called from the pool the reads join. -/
def providers : Spec → List Provider
  | selector s => s.kwargs.toList
  | service s => s.kwargs.toList ++ s.inputData.toList ++ (s.lookup.bind (·.kwargs)).toList

/-- `_filled_by_an_untyped_provider`. -/
def openEnded (spec : Spec) : Bool := spec.kwargsProviders.any fun provider => provider.keys.isNone

/-- `_owned_keys` of the call. -/
def hidden (spec : Spec) : List String := spec.callCallables.flatMap (·.hiddenKeys)

/-- The names a top-level spec's `filter_set` reads. -/
def filtered : Spec → List String
  | selector s => s.filterSet
  | service _ => []

end Spec

/-! ## The compile -/

section
variable (reserved : List String)

/-- The names a spec's declared reads are no shapes for (`_shapes`). -/
def takenNames (spec : Spec) : List String :=
  spec.filtered ++
    ((spec.callCallables ++ spec.providers.map (·.callable)).flatMap
      fun fn => names (reflected reserved fn [] true)) ++
    spec.providers.flatMap fun provider =>
      (provider.keys.map fun keys => keys.filled ++ keys.declinable).getD []

/-- `_shapes`, the reads: a `QueryParam` no callable of the call names is a shape. -/
def unshaped (spec : Spec) : List Parameter :=
  let declared := spec.reads.map (·.parameter)
  if (spec.callCallables ++ spec.providers.map (·.callable)).any (·.takesAnyName) then declared
  else
    let queried := (spec.reads.filter (·.queryParam)).map (·.name)
    declared.filter fun read => read.name ∉ queried ∨ read.name ∈ takenNames reserved spec

/-- The reads of a target lookup compiled under its role (`_selector`). -/
def lookupReads (spec : Spec) (lookup : Lookup) (selector : Callable) : List Parameter :=
  let reflected := reflected reserved selector spec.hidden spec.openEnded
  let declared := unshaped reserved spec
  let own := (lookup.reads.map (·.parameter)).filter fun read => read.name ∉ names declared
  merge reflected ((declared ++ own).filter fun read => read.name ∈ names reflected) lookup.filterSet

/-- The callables a spread service's reads are reflected from: a precondition's only beside a bare
`**kwargs`. -/
def spreadCallables (s : ServiceSpec) : List Callable :=
  s.service :: if s.service.takesAnyName then s.preconditions else []

/-- `_spread_signature`'s inner loop: each Parameter whose name is new. -/
def joinNew : List Parameter → List Parameter → List Parameter
  | found, [] => found
  | found, p :: ps => joinNew (if p.name ∈ names found then found else found ++ [p]) ps

/-- `_spread_signature`'s loop over the preconditions. -/
def spreadOver (hidden : List String) (openEnded : Bool) :
    List Parameter → List Callable → List Parameter
  | found, [] => found
  | found, fn :: fns =>
    spreadOver hidden openEnded (joinNew found (reflected reserved fn hidden openEnded)) fns

/-- `_spread_signature`. -/
def spreadSignature (s : ServiceSpec) (hidden : List String) (openEnded : Bool) : List Parameter :=
  let found := reflected reserved s.service hidden openEnded
  if s.service.takesAnyName then spreadOver reserved hidden openEnded found s.preconditions
  else found

/-- The reads of a compiled spec: its own, and those of its target lookup. -/
structure CompiledReads where
  reads : List Parameter
  lookup : Option (LookupRole × List Parameter)

/-- `as_kernel_spec`, as far as its reads. -/
def asKernelSpec (spread : Bool) (spec : Spec) : CompiledReads :=
  match spec with
  | .selector s => {
    reads := merge (reflected reserved s.selector spec.hidden spec.openEnded)
      (requiring (unshaped reserved spec)
        (requiredBy reserved s.preconditions spec.hidden spec.openEnded)) s.filterSet
    lookup := none }
  | .service s =>
    let lookup := s.lookup.bind fun l =>
      l.selector.map fun selector => (l.role, lookupReads reserved spec l selector)
    let taken := names ((lookup.map (·.2)).getD [])
    { reads := merge
        (if spread && !s.inputSerializer then spreadSignature reserved s spec.hidden spec.openEnded
        else [])
        (requiring ((unshaped reserved spec).filter fun read => read.name ∉ taken)
          (requiredBy reserved (s.service :: s.preconditions) spec.hidden spec.openEnded)) taken
      lookup := lookup }

/-- `required_for_having_no_default`: the names of the spec's own reads, then its target lookup's. -/
def requiredForHavingNoDefault (spec : Spec) : List String × List String :=
  let declared := sayingRequired spec.reads
  match spec with
  | .selector _ =>
    ((spec.callables.flatMap (·.noDefault)).filter fun name =>
      name ∉ spec.callables.flatMap (·.inputRequired) ∧ name ∉ declared, [])
  | .service s =>
    ((spec.callables.flatMap (·.noDefault)).filter (· ∉ declared),
      ((s.lookup.bind fun lookup => lookup.selector.map fun selector =>
        ((selector.noDefault ++ (s.reads ++ lookup.reads).map (·.name)).filter
          (· ∉ sayingRequired lookup.reads)).filter (· ∉ declared))).getD [])

/-- `_optional`: each required read of a name made optional, `none` where there is none. -/
def optional (reads : List Parameter) (relaxed : List String) : Option (List Parameter) :=
  if reads.any fun read => read.required && relaxed.contains read.name then
    some (reads.map fun read => if read.name ∈ relaxed then { read with required := false } else read)
  else none

/-- `_relaxed`, as the compiled spec it leaves. -/
def relaxed (spec : Spec) (compiled : CompiledReads) : CompiledReads :=
  let own := (requiredForHavingNoDefault spec).1
  let lookup := (requiredForHavingNoDefault spec).2
  { reads := (optional compiled.reads own).getD compiled.reads
    lookup := compiled.lookup.map fun l => (l.1, (optional l.2 lookup).getD l.2) }

/-- The key of a variant. -/
structure Variant where
  partial? : Option Bool := none
  unguarded : Bool := false
  target : Bool := false
  serverInput : Bool := true
  spread : Bool := false
  lenient : Bool := false
  excluded : List String := []
deriving DecidableEq

/-- The stand-in lookup of a service spec that has none, which reads nothing. -/
def standIn (variant : Variant) (spec : Spec) (compiled : CompiledReads) : CompiledReads :=
  match spec with
  | .selector _ => compiled
  | .service _ =>
    if variant.target && compiled.lookup.isNone then
      { compiled with lookup := some (.instanceRow, []) }
    else compiled

/-- `kernel_spec_variant`, as far as its reads: the default variant is the compiled spec itself. -/
def kernelSpecVariant (variant : Variant) (spec : Spec) : CompiledReads :=
  if variant = {} then asKernelSpec reserved false spec
  else standIn variant spec (relaxed spec (asKernelSpec reserved variant.spread spec))

end

/-! ## Why a read is required -/

/-- A callable marks a name `InputRequired`, as a parameter or as a key of its `TypedDict`. -/
def Callable.Marks (fn : Callable) (name : String) : Prop :=
  name ∈ fn.inputRequired ∨ name ∈ fn.markedKeys

/-- A callable takes a name plainly: by a keyword parameter with no default and no mark. -/
def Spec.TakenPlainly (spec : Spec) (name : String) : Prop :=
  ∃ fn ∈ spec.callables, name ∈ fn.noDefault

section
variable {reserved : List String}

/-- A reflected Parameter is required for having no default, for a mark or for its `TypedDict`. -/
theorem required_of_reflected {fn : Callable} {hidden : List String} {openEnded : Bool}
    {p : Parameter} (hp : p ∈ reflected reserved fn hidden openEnded) (h : p.required = true) :
    p.name ∈ fn.noDefault ∨ fn.Marks p.name ∨ p.name ∈ fn.requiredKeys := by
  obtain ⟨q, hq, hp⟩ := List.mem_flatMap.1 hp
  unfold SignatureParameter.reflected at hp
  have hkeyword : q.isKeyword = true → p.name = q.name →
      (q.default.isNone = true ∨ q.hint.inputRequired = true) →
      p.name ∈ fn.noDefault ∨ fn.Marks p.name := by
    intro hkind hname hwhy
    cases hmark : q.hint.inputRequired with
    | true =>
      refine .inr (.inl (List.mem_map.2 ⟨q, List.mem_filter.2 ⟨hq, hmark⟩, hname.symm⟩))
    | false =>
      have hdefault : q.default.isNone = true := by simpa [hmark] using hwhy
      refine .inl (List.mem_map.2 ⟨q, List.mem_filter.2 ⟨hq, ?_⟩, hname.symm⟩)
      simp [hkind, hdefault, hmark]
  cases hkind : q.kind with
  | positionalOnly | varPositional => simp [hkind] at hp
  | varKeyword =>
    simp only [hkind, List.mem_map, List.mem_filter] at hp
    obtain ⟨key, ⟨hkey, -⟩, rfl⟩ := hp
    have hmem : key ∈ fn.parameters.flatMap (·.keys) := List.mem_flatMap.2 ⟨q, hq, hkey⟩
    rcases Bool.or_eq_true_iff.1 h with hreq | hmark
    · exact .inr (.inr (List.mem_map.2 ⟨key, List.mem_filter.2 ⟨hmem, hreq⟩, rfl⟩))
    · exact .inr (.inl (.inr (List.mem_map.2 ⟨key, List.mem_filter.2 ⟨hmem, hmark⟩, rfl⟩)))
  | positionalOrKeyword | keywordOnly =>
    simp only [hkind] at hp
    split at hp
    · cases hp
    · obtain rfl := List.mem_singleton.1 hp
      have hwhy : q.default.isNone = true ∨ q.hint.inputRequired = true := by
        rcases Bool.or_eq_true_iff.1 h with hreq | hmark
        · exact .inl (Bool.and_eq_true_iff.1 hreq).1
        · exact .inr hmark
      have hisKeyword : q.isKeyword = true := by simp [SignatureParameter.isKeyword, hkind]
      rcases hkeyword hisKeyword rfl hwhy with hplain | hmark
      · exact .inl hplain
      · exact .inr (.inl hmark)

/-- A merged read is required as the declared one or as the reflected one is. -/
theorem required_of_mergeOver : ∀ {reflected : List Parameter} {byName : List (String × Parameter)}
    {r : Parameter}, (∀ e ∈ byName, e.1 = e.2.name) → r ∈ mergeOver byName reflected →
    r.required = true → (∃ e ∈ byName, e.2.name = r.name ∧ e.2.required = true) ∨
      ∃ p ∈ reflected, p.name = r.name ∧ p.required = true
  | [], byName, r, _, hr, h => by
    obtain ⟨e, he, rfl⟩ := List.mem_map.1 hr
    exact .inl ⟨e, he, rfl, h⟩
  | p :: reflected, byName, r, hkeys, hr, h => by
    rcases List.mem_cons.1 hr with rfl | hr
    · cases hread : byName.lookup p.name with
      | none =>
        rw [hread] at h
        exact .inr ⟨p, List.mem_cons_self, rfl, h⟩
      | some read =>
        obtain ⟨l, l', hl, -⟩ := List.lookup_eq_some_iff.1 hread
        have hmem : (p.name, read) ∈ byName := by simp [hl]
        have hname : p.name = read.name := hkeys _ hmem
        rw [hread] at h
        rcases Bool.or_eq_true_iff.1 h with hreq | hreq
        · exact .inl ⟨_, hmem, rfl, hreq⟩
        · exact .inr ⟨p, List.mem_cons_self, hname, (Bool.and_eq_true_iff.1 hreq).1⟩
    · rcases required_of_mergeOver (fun e he => hkeys e (List.mem_of_mem_filter he)) hr h with
        ⟨e, he, hreq⟩ | ⟨q, hq, hreq⟩
      · exact .inl ⟨e, List.mem_of_mem_filter he, hreq⟩
      · exact .inr ⟨q, List.mem_cons_of_mem _ hq, hreq⟩

/-- What a compiled spec's merge keeps is required as a declared read or as a reflected one is. -/
theorem required_of_merge {reflected declared : List Parameter} {skip : List String}
    {r : Parameter} (hr : r ∈ merge reflected declared skip) (h : r.required = true) :
    (∃ d ∈ declared, d.name = r.name ∧ d.required = true) ∨
      ∃ p ∈ reflected, p.name = r.name ∧ p.required = true := by
  have hmem : ∀ e ∈ Lib.ofPairs (declared.map fun read => (read.name, read)),
      ∃ d ∈ declared, e = (d.name, d) := by
    intro e he
    have he := (Lib.lastOf_sublist _).subset ((Lib.ofPairs_perm_lastOf _).mem_iff.1 he)
    obtain ⟨d, hd, rfl⟩ := List.mem_map.1 he
    exact ⟨d, hd, rfl⟩
  have hkeys : ∀ e ∈ Lib.ofPairs (declared.map fun read => (read.name, read)),
      e.1 = e.2.name := by
    intro e he
    obtain ⟨d, -, rfl⟩ := hmem e he
    rfl
  rcases required_of_mergeOver hkeys (List.mem_of_mem_filter hr) h with ⟨e, he, hreq⟩ | hreflected
  · obtain ⟨d, hd, rfl⟩ := hmem e he
    exact .inl ⟨d, hd, hreq⟩
  · exact .inr hreflected

/-- A read `_requiring` leaves required was so, or is of one of the names. -/
theorem required_of_requiring {declared : List Parameter} {required : List String}
    {r : Parameter} (hr : r ∈ requiring declared required) (h : r.required = true) :
    (∃ d ∈ declared, d.name = r.name ∧ d.required = true) ∨ r.name ∈ required := by
  obtain ⟨d, hd, hdr⟩ := List.mem_map.1 hr
  split at hdr
  · next hname =>
    subst hdr
    exact .inr hname.1
  · subst hdr
    exact .inl ⟨d, hd, rfl, h⟩

/-- A name callables require with no read declared is one of them takes plainly, marks or requires
as a key. -/
theorem exists_of_mem_requiredBy {callables : List Callable} {hidden : List String}
    {openEnded : Bool} {name : String} (h : name ∈ requiredBy reserved callables hidden openEnded) :
    ∃ fn ∈ callables, name ∈ fn.noDefault ∨ fn.Marks name ∨ name ∈ fn.requiredKeys := by
  obtain ⟨fn, hfn, hname⟩ := List.mem_flatMap.1 h
  obtain ⟨p, hp, rfl⟩ := List.mem_map.1 hname
  obtain ⟨hp, hreq⟩ := List.mem_filter.1 hp
  exact ⟨fn, hfn, required_of_reflected hp hreq⟩

/-- A shape aside, the reads left are declared ones. -/
theorem exists_of_mem_unshaped {spec : Spec} {r : Parameter} (h : r ∈ unshaped reserved spec) :
    ∃ entry ∈ spec.reads, entry.parameter = r := by
  have hmem : r ∈ spec.reads.map (·.parameter) := by
    unfold unshaped at h
    split at h
    · exact h
    · exact List.mem_of_mem_filter h
  exact List.mem_map.1 hmem

/-- What is joined was found, or is new. -/
theorem mem_joinNew {p : Parameter} : ∀ {found ps : List Parameter}, p ∈ joinNew found ps →
    p ∈ found ∨ (p.name ∉ names found ∧ p ∈ ps)
  | _, [], h => .inl h
  | found, q :: ps, h => by
    rw [joinNew] at h
    rcases mem_joinNew h with hfound | ⟨hnew, hps⟩
    · split at hfound
      · exact .inl hfound
      · next hq =>
        rcases List.mem_append.1 hfound with hfound | hfound
        · exact .inl hfound
        · obtain rfl := List.mem_singleton.1 hfound
          exact .inr ⟨hq, List.mem_cons_self⟩
    · refine .inr ⟨?_, List.mem_cons_of_mem _ hps⟩
      split at hnew
      · exact hnew
      · exact fun hmem => hnew (by simpa [names] using .inl (by simpa [names] using hmem))

/-- The names joined are those found and those new. -/
theorem mem_names_joinNew {name : String} : ∀ {found ps : List Parameter},
    name ∈ names (joinNew found ps) ↔ name ∈ names found ∨ name ∈ names ps
  | found, [] => by simp [joinNew, names]
  | found, q :: ps => by
    rw [joinNew, mem_names_joinNew]
    split
    · next hq =>
      constructor
      · exact fun h => h.imp id (List.mem_cons_of_mem _)
      · rintro (h | h)
        · exact .inl h
        · rcases List.mem_cons.1 h with rfl | h
          · exact .inl hq
          · exact .inr h
    · simp [names, or_assoc]

/-- A Parameter of the loop is one found before, or is reflected from the first of the callables
that has its name. -/
theorem mem_spreadOver {hidden : List String} {openEnded : Bool} {p : Parameter} :
    ∀ {fns : List Callable} {found : List Parameter},
      p ∈ spreadOver reserved hidden openEnded found fns → p ∈ found ∨
        (p.name ∉ names found ∧ ∃ fn, fns.find? (fun fn =>
          p.name ∈ names (reflected reserved fn hidden openEnded)) = some fn ∧
            p ∈ reflected reserved fn hidden openEnded)
  | [], found, h => .inl h
  | fn :: fns, found, h => by
    rw [spreadOver] at h
    rcases mem_spreadOver h with hjoined | ⟨hnew, fn', hfind, hp⟩
    · rcases mem_joinNew hjoined with hfound | ⟨hnew, hp⟩
      · exact .inl hfound
      · refine .inr ⟨hnew, fn, ?_, hp⟩
        exact List.find?_cons_of_pos (decide_eq_true (mem_names hp))
    · rw [mem_names_joinNew, not_or] at hnew
      refine .inr ⟨hnew.1, fn', ?_, hp⟩
      rwa [List.find?_cons_of_neg (by simpa using hnew.2)]

end

section
variable (reserved : List String)

/-- The callable a spec's own read of a name is reflected from, if one is. -/
def reflectedFrom (spread : Bool) (spec : Spec) (name : String) : Option Callable :=
  let callables := match spec with
    | .selector s => [s.selector]
    | .service s => if spread && !s.inputSerializer then spreadCallables s else []
  callables.find? fun fn => name ∈ names (reflected reserved fn spec.hidden spec.openEnded)

/-- A spread service's signature is reflected from the callables it says. -/
theorem mem_spreadSignature {s : ServiceSpec} {p : Parameter}
    (h : p ∈ spreadSignature reserved s (Spec.service s).hidden (Spec.service s).openEnded)
    (hs : s.inputSerializer = false) :
    ∃ fn, reflectedFrom reserved true (.service s) p.name = some fn ∧
      p ∈ reflected reserved fn (Spec.service s).hidden (Spec.service s).openEnded := by
  simp only [reflectedFrom, hs, Bool.not_false, Bool.and_self, if_true, spreadCallables]
  unfold spreadSignature at h
  split at h
  · rcases mem_spreadOver h with hfound | ⟨hnew, fn, hfind, hp⟩
    · refine ⟨s.service, List.find?_cons_of_pos ?_, hfound⟩
      exact decide_eq_true (mem_names hfound)
    · next hopen =>
      refine ⟨fn, ?_, hp⟩
      rwa [List.find?_cons_of_neg (by simpa using hnew), if_pos hopen]
  · refine ⟨s.service, List.find?_cons_of_pos ?_, h⟩
    exact decide_eq_true (mem_names h)

/-- **Every required read of a compiled spec is required for a reason it names**: it says so, or
one of the callables takes it plainly, marks it, or requires it as a key of its `TypedDict`. -/
theorem required_of_compiled {spread : Bool} {spec : Spec} {r : Parameter}
    (hr : r ∈ (asKernelSpec reserved spread spec).reads) (h : r.required = true) :
    r.name ∈ sayingRequired spec.reads ∨ ∃ fn ∈ spec.callables,
      r.name ∈ fn.noDefault ∨ fn.Marks r.name ∨ r.name ∈ fn.requiredKeys := by
  have hdeclared : ∀ d ∈ unshaped reserved spec, d.name = r.name → d.required = true →
      r.name ∈ sayingRequired spec.reads := by
    intro d hd hname hreq
    obtain ⟨entry, hentry, rfl⟩ := exists_of_mem_unshaped hd
    exact List.mem_map.2 ⟨entry, List.mem_filter.2 ⟨hentry, hreq⟩, hname⟩
  cases spec with
  | selector s =>
    rcases required_of_merge hr h with ⟨d, hd, hname, hreq⟩ | ⟨p, hp, hname, hreq⟩
    · rcases required_of_requiring hd hreq with ⟨d', hd', hname', hreq'⟩ | hnames
      · exact .inl (hdeclared d' hd' (hname'.trans hname) hreq')
      · obtain ⟨fn, hfn, hwhy⟩ := exists_of_mem_requiredBy hnames
        rw [hname] at hwhy
        exact .inr ⟨fn, List.mem_cons_of_mem _ hfn, hwhy⟩
    · rw [← hname]
      exact .inr ⟨s.selector, List.mem_cons_self, required_of_reflected hp hreq⟩
  | service s =>
    rcases required_of_merge hr h with ⟨d, hd, hname, hreq⟩ | ⟨p, hp, hname, hreq⟩
    · rcases required_of_requiring hd hreq with ⟨d', hd', hname', hreq'⟩ | hnames
      · exact .inl (hdeclared d' (List.mem_of_mem_filter hd') (hname'.trans hname) hreq')
      · obtain ⟨fn, hfn, hwhy⟩ := exists_of_mem_requiredBy hnames
        rw [hname] at hwhy
        exact .inr ⟨fn, hfn, hwhy⟩
    · split at hp
      · next hspread =>
        simp only [Bool.and_eq_true, Bool.not_eq_true'] at hspread
        obtain ⟨fn, hfrom, hp⟩ := mem_spreadSignature reserved hp hspread.2
        have hfn : fn ∈ s.service :: s.preconditions := by
          simp only [reflectedFrom, hspread.2, Bool.not_false, Bool.and_self, if_true,
            spreadCallables] at hfrom
          have hmem := List.mem_of_find?_eq_some hfrom
          split at hmem
          · exact hmem
          · rw [List.mem_singleton.1 hmem]
            exact List.mem_cons_self
        rw [← hname]
        exact .inr ⟨fn, hfn, required_of_reflected hp hreq⟩
      · cases hp

/-! ## What a variant relaxes -/

/-- A required read of a name is to stay required: a callable marks it, it is a required key of the
`TypedDict` it is reflected from, or a declared read says so. -/
def Protected (spread : Bool) (spec : Spec) (name : String) : Prop :=
  (∃ fn ∈ spec.callables, fn.Marks name) ∨
    (∃ fn, reflectedFrom reserved spread spec name = some fn ∧ name ∈ fn.requiredKeys) ∨
    name ∈ sayingRequired spec.reads

/-- A variant relaxes exactly the reads required only for having no default: nothing but their
`required` moves; a protected read stays required, any other of a name a callable takes plainly does
not, and the rest stay as compiled. A read of the target lookup that neither the spec nor the lookup
declares is relaxed exactly where the lookup's selector takes it plainly. -/
structure RelaxesExactly (variant : Variant) (spec : Spec) : Prop where
  own : List.Forall₂
    (fun r r' => r' = { r with required := r'.required } ∧
      (r'.required = true ↔ r.required = true ∧
        (Protected reserved variant.spread spec r.name ∨ ¬ spec.TakenPlainly r.name)))
    (asKernelSpec reserved variant.spread spec).reads
    (kernelSpecVariant reserved variant spec).reads
  lookup : ∀ lookup selector role reads, spec.lookup = some lookup →
    lookup.selector = some selector →
    (asKernelSpec reserved variant.spread spec).lookup = some (role, reads) →
    ∃ reads', (kernelSpecVariant reserved variant spec).lookup = some (role, reads') ∧
      List.Forall₂
        (fun r r' => r' = { r with required := r'.required } ∧
          (r.name ∉ (spec.reads ++ lookup.reads).map (·.name) →
            (r'.required = true ↔ r.required = true ∧ r.name ∉ selector.noDefault)))
        reads reads'

/-- A plain parameter does not relax a read of its name: a selector spec's callable marks a
parameter of it `InputRequired`, or a declared read says it is required. -/
def Excused : Spec → String → Prop
  | .selector s, name =>
    (∃ fn ∈ (Spec.selector s).callables, name ∈ fn.inputRequired) ∨ name ∈ sayingRequired s.reads
  | .service s, name => name ∈ sayingRequired s.reads

/-- No read a mark or a `TypedDict` key requires is of a name a callable takes plainly, where
nothing excuses it. -/
def NoPlainTwin (spread : Bool) (spec : Spec) : Prop :=
  ∀ r ∈ (asKernelSpec reserved spread spec).reads, r.required = true →
    Protected reserved spread spec r.name → spec.TakenPlainly r.name → Excused spec r.name

/-- The names relaxed among the spec's own reads: those taken plainly and not excused. -/
theorem mem_requiredForHavingNoDefault {spec : Spec} {name : String} :
    name ∈ (requiredForHavingNoDefault spec).1 ↔ spec.TakenPlainly name ∧ ¬ Excused spec name := by
  cases spec with
  | selector s =>
    simp [requiredForHavingNoDefault, Spec.TakenPlainly, Excused, List.mem_filter, Spec.reads]
  | service s =>
    simp only [requiredForHavingNoDefault, Spec.TakenPlainly, Excused, List.mem_filter,
      List.mem_flatMap, Spec.reads]
    exact and_congr_right fun _ => decide_eq_true_iff

/-- What excuses a read protects it. -/
theorem Excused.protected {spread : Bool} {spec : Spec} {name : String} (h : Excused spec name) :
    Protected reserved spread spec name := by
  cases spec with
  | selector s =>
    rcases h with ⟨fn, hfn, hmark⟩ | h
    · exact .inl ⟨fn, hfn, .inl hmark⟩
    · exact .inr (.inr h)
  | service s => exact .inr (.inr h)

/-- One read, once the names are relaxed. -/
def relax (relaxed : List String) (r : Parameter) : Parameter :=
  if r.name ∈ relaxed then { r with required := false } else r

/-- A seat with nothing to relax is left as compiled, which is what relaxing it leaves. -/
theorem optional_getD (reads : List Parameter) (relaxed : List String) :
    (optional reads relaxed).getD reads = reads.map (relax relaxed) := by
  unfold optional
  split
  · rfl
  · next hnone =>
    simp only [List.any_eq_true, not_exists, not_and, Bool.and_eq_true, List.contains_iff_mem]
      at hnone
    refine ((List.map_congr_left fun r hr => ?_).trans (List.map_id _)).symm
    unfold relax
    split
    · next hname =>
      have hopt : r.required = false := by
        cases hreq : r.required with
        | false => rfl
        | true => exact absurd hname (hnone r hr hreq)
      cases r
      cases hopt
      rfl
    · rfl

/-- Relaxing moves `required` alone. -/
theorem relax_eq (relaxed : List String) (r : Parameter) :
    relax relaxed r = { r with required := (relax relaxed r).required } := by
  unfold relax
  split <;> rfl

/-- A read stays required where its name is not relaxed. -/
theorem relax_required (relaxed : List String) (r : Parameter) :
    (relax relaxed r).required = true ↔ r.required = true ∧ r.name ∉ relaxed := by
  unfold relax
  split <;> simp [*]

/-- A stand-in lookup changes no read. -/
theorem standIn_reads (variant : Variant) (spec : Spec) (compiled : CompiledReads) :
    (standIn variant spec compiled).reads = compiled.reads := by
  unfold standIn
  split
  · rfl
  · split <;> rfl

/-- A stand-in takes no declared lookup's place. -/
theorem standIn_lookup (variant : Variant) (spec : Spec) {compiled : CompiledReads}
    {l : LookupRole × List Parameter} (h : compiled.lookup = some l) :
    (standIn variant spec compiled).lookup = some l := by
  unfold standIn
  split
  · exact h
  · simp [h]

section
variable {variant : Variant}

/-- The own reads of a variant that is not the default. -/
theorem kernelSpecVariant_reads (hv : variant ≠ {}) (spec : Spec) :
    (kernelSpecVariant reserved variant spec).reads =
      (asKernelSpec reserved variant.spread spec).reads.map
        (relax (requiredForHavingNoDefault spec).1) := by
  rw [kernelSpecVariant, if_neg hv, standIn_reads]
  exact optional_getD _ _

/-- The target lookup's reads of a variant that is not the default. -/
theorem kernelSpecVariant_lookup (hv : variant ≠ {}) {spec : Spec} {role : LookupRole}
    {reads : List Parameter}
    (h : (asKernelSpec reserved variant.spread spec).lookup = some (role, reads)) :
    (kernelSpecVariant reserved variant spec).lookup =
      some (role, reads.map (relax (requiredForHavingNoDefault spec).2)) := by
  rw [kernelSpecVariant, if_neg hv]
  refine standIn_lookup _ _ ?_
  simp only [relaxed, h, Option.map_some, optional_getD]

/-- A name neither the spec nor its lookup declares is relaxed for the lookup exactly where the
lookup's selector takes it plainly. -/
theorem mem_requiredForHavingNoDefault_lookup {spec : Spec} {lookup : Lookup} {selector : Callable}
    (hlookup : spec.lookup = some lookup) (hselector : lookup.selector = some selector)
    {name : String} (hname : name ∉ (spec.reads ++ lookup.reads).map (·.name)) :
    name ∈ (requiredForHavingNoDefault spec).2 ↔ name ∈ selector.noDefault := by
  cases spec with
  | selector s => cases hlookup
  | service s =>
    have hunsaid : ∀ entries : List Entry, (∀ e ∈ entries, e ∈ s.reads ++ lookup.reads) →
        name ∉ sayingRequired entries := by
      intro entries hsub hmem
      obtain ⟨e, he, rfl⟩ := List.mem_map.1 hmem
      exact hname (List.mem_map_of_mem (hsub e (List.mem_of_mem_filter he)))
    have hown := hunsaid s.reads fun e he => List.mem_append_left _ he
    have hits := hunsaid lookup.reads fun e he => List.mem_append_right _ he
    have hlookup : s.lookup = some lookup := hlookup
    have hname : name ∉ (s.reads ++ lookup.reads).map (·.name) := hname
    simp only [requiredForHavingNoDefault, hlookup, hselector, Option.bind_some, Option.map_some,
      Option.getD_some, List.mem_filter, List.mem_append, decide_eq_true_eq, Spec.reads, hown, hits,
      not_false_eq_true, and_true, hname, or_false]

/-- **A variant of the DRF edge relaxes exactly the reads required only for having no default where,
and only where, no read that a mark or a `TypedDict` key requires is of a name a callable takes
plainly**, a declared `required=True` and, for a selector spec, a marked parameter aside. -/
theorem relaxesExactly_iff (hv : variant ≠ {}) (spec : Spec) :
    RelaxesExactly reserved variant spec ↔ NoPlainTwin reserved variant.spread spec := by
  constructor
  · intro h r hr hreq hprotected hplain
    by_contra hexcused
    have hown := h.own
    rw [kernelSpecVariant_reads reserved hv, List.forall₂_map_right_iff, List.forall₂_same] at hown
    have hkept := (hown r hr).2.2 ⟨hreq, .inl hprotected⟩
    rw [relax_required, mem_requiredForHavingNoDefault] at hkept
    exact hkept.2 ⟨hplain, hexcused⟩
  · intro h
    constructor
    · rw [kernelSpecVariant_reads reserved hv, List.forall₂_map_right_iff, List.forall₂_same]
      intro r hr
      refine ⟨relax_eq _ r, ?_⟩
      rw [relax_required, mem_requiredForHavingNoDefault]
      refine and_congr_right fun hreq => ?_
      constructor
      · intro hstays
        by_cases hplain : spec.TakenPlainly r.name
        · refine .inl (Excused.protected reserved ?_)
          by_contra hexcused
          exact hstays ⟨hplain, hexcused⟩
        · exact .inr hplain
      · rintro (hprotected | hplain) ⟨htaken, hexcused⟩
        · exact hexcused (h r hr hreq hprotected htaken)
        · exact hplain htaken
    · intro lookup selector role reads hlookup hselector hreads
      refine ⟨_, kernelSpecVariant_lookup reserved hv hreads, ?_⟩
      rw [List.forall₂_map_right_iff, List.forall₂_same]
      intro r _
      refine ⟨relax_eq _ r, fun hundeclared => ?_⟩
      rw [relax_required, mem_requiredForHavingNoDefault_lookup hlookup hselector hundeclared]

end

end

/-! ## A marked service beside a plain precondition -/

/-- `def fn(*, pk: int)`, marked `InputRequired` or not. -/
def takingPk (marked : Bool) : Callable where
  parameters := [{
    name := "pk", kind := .keywordOnly, default := none, typedDict := none
    hint := {
      kind := "integer", nullable := false, help := none
      inputRequired := marked, notClientInput := false } }]
  fillsItsOwn := false

/-- A service and a precondition that both take `pk`, plainly or marked. -/
def pkSpec (service precondition : Bool) : Spec := .service {
  service := takingPk service, preconditions := [takingPk precondition], reads := []
  kwargs := none, inputData := none, lookup := none, inputSerializer := false }

/-- Where both take it plainly the read is relaxed, and no other is. -/
theorem relaxesExactly_plain : RelaxesExactly [] { spread := true } (pkSpec false false) := by
  refine (relaxesExactly_iff [] (by decide) (pkSpec false false)).2 fun r hr _ hprotected => ?_
  have hname : r.name = "pk" := by rw [List.mem_singleton.1 hr]; rfl
  rw [hname] at hprotected
  rcases hprotected with ⟨fn, hfn, hmark⟩ | ⟨fn, hfrom, hkey⟩ | hsays
  · obtain rfl : fn = takingPk false := by simpa [pkSpec, Spec.callables] using hfn
    rcases hmark with hmark | hmark <;> cases hmark
  · obtain rfl : takingPk false = fn := Option.some.inj hfrom
    cases hkey
  · cases hsays

/-- The service marks the read, which stays required for that, and the plain precondition relaxes
it. -/
theorem marked_read_relaxed : ¬ RelaxesExactly [] { spread := true } (pkSpec true false) := by
  intro h
  cases h.own with
  | cons hread _ =>
    have hmarks : (takingPk true).Marks "pk" := .inl List.mem_cons_self
    have hkept := hread.2.2 ⟨rfl, .inl (.inl ⟨_, List.mem_cons_self, hmarks⟩)⟩
    cases hkept

end RestFrameworkServices.Reads
