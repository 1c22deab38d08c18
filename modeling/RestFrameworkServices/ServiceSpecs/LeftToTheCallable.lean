import RestFrameworkServices.ServiceSpecs.Reads

/-!
# Parameters left to the callable

`BUNDLE` compiles a selector spec's variant once more (`bundled_selector`): the reads a caller fills
nothing of are no longer required, and each callable reports a default for its parameters of those
names, with every parameter dispatch passes by name reported keyword-only (`left_to_the_callable`).

`leftToTheCallable_valid` says the reported signature is one Python takes, and `mem_asked_bundled` that
the kernel asks a caller of the twin for what it asked for, less those names.
-/

namespace RestFrameworkServices.Reads

/-! ## Signatures Python takes -/

namespace ParameterKind

/-- The order the kinds come in. -/
def rank : ParameterKind → ℕ
  | positionalOnly => 0
  | positionalOrKeyword => 1
  | varPositional => 2
  | keywordOnly => 3
  | varKeyword => 4

/-- The kinds a default of one asks a default of the next. -/
def isPositional (kind : ParameterKind) : Bool :=
  kind == .positionalOnly || kind == .positionalOrKeyword

end ParameterKind

/-- What `inspect.Signature` asks of its parameters: the kinds in order, no positional one without a
default after one with a default, and no name twice. -/
structure ValidSignature (parameters : List SignatureParameter) : Prop where
  ordered : parameters.Pairwise fun p q => p.kind.rank ≤ q.kind.rank
  defaults : parameters.Pairwise fun p q =>
    p.kind.isPositional → q.kind.isPositional → p.default.isSome → q.default.isSome
  names : (parameters.map (·.name)).Nodup

/-! ## The callable -/

/-- `LEFT_TO_THE_CALLABLE`. -/
def leftDefault : Value := .object "_LeftToTheCallable" 0

/-- A parameter that is asked for by name and required is reported with a default. -/
def SignatureParameter.left (names : Option (List String)) (p : SignatureParameter) :
    SignatureParameter :=
  if p.default.isNone ∧ p.isKeyword ∧ names.all (p.name ∈ ·) then
    { p with default := some leftDefault }
  else p

/-- `_by_name`. -/
def reportedByName (parameters : List SignatureParameter) : List SignatureParameter :=
  parameters.filter (·.kind == .positionalOnly) ++
    (parameters.filter (·.kind == .varPositional) ++
      ((parameters.filter (·.isKeyword)).map ({ · with kind := .keywordOnly }) ++
        parameters.filter (·.kind == .varKeyword)))

/-- `left_to_the_callable`. -/
def leftToTheCallable (fn : Callable) (names : Option (List String)) : Callable :=
  { fn with parameters := reportedByName (fn.parameters.map (·.left names)) }

namespace SignatureParameter

variable (names : Option (List String)) (p : SignatureParameter)

@[simp] theorem left_name : (p.left names).name = p.name := by
  unfold left
  split <;> rfl

@[simp] theorem left_kind : (p.left names).kind = p.kind := by
  unfold left
  split <;> rfl

@[simp] theorem left_isKeyword : (p.left names).isKeyword = p.isKeyword := by
  rw [isKeyword, isKeyword, left_kind]

/-- A parameter that is passed by no name is reported as it is. -/
theorem left_of_not_keyword {p : SignatureParameter} (h : p.isKeyword = false) :
    p.left names = p := by
  rw [left, if_neg fun hleft => by simp [h] at hleft]

end SignatureParameter

/-! ### What it reports -/

/-- A parameter as it is reported: by name, as keyword-only. -/
def SignatureParameter.byName (p : SignatureParameter) : SignatureParameter :=
  if p.isKeyword then { p with kind := .keywordOnly } else p

/-- The parameters are reported in another order, those passed by name as keyword-only. -/
theorem reportedByName_perm (parameters : List SignatureParameter) :
    (reportedByName parameters).Perm (parameters.map (·.byName)) := by
  induction parameters with
  | nil => exact .refl _
  | cons p parameters ih =>
    -- the parameter goes into the class of its kind, and past those before it
    simp only [reportedByName] at ih ⊢
    cases hk : p.kind <;>
      simp only [SignatureParameter.isKeyword, SignatureParameter.byName, List.filter_cons, hk,
        reduceCtorEq, beq_iff_eq, beq_self_eq_true, Bool.or_true, Bool.true_or, if_true, if_false,
        List.map_cons, List.cons_append] at ih ⊢
    case positionalOnly => exact ih.cons _
    case varPositional => exact List.perm_middle.trans (ih.cons _)
    case positionalOrKeyword | keywordOnly =>
      exact ((List.perm_middle.append_left _).trans List.perm_middle).trans (ih.cons _)
    case varKeyword =>
      exact ((((List.perm_middle.append_left _).trans List.perm_middle).append_left _).trans
        List.perm_middle).trans (ih.cons _)

/-- The parameters are reported under their own names. -/
theorem names_reportedByName (parameters : List SignatureParameter) :
    ((reportedByName parameters).map (·.name)).Perm (parameters.map (·.name)) := by
  have hnames : (parameters.map (·.byName)).map (·.name) = parameters.map (·.name) := by
    rw [List.map_map]
    refine List.map_congr_left fun p _ => ?_
    show p.byName.name = p.name
    unfold SignatureParameter.byName
    split <;> rfl
  rw [← hnames]
  exact (reportedByName_perm parameters).map _

/-- They are the callable's own. -/
theorem names_leftToTheCallable (fn : Callable) (names : Option (List String)) :
    ((leftToTheCallable fn names).parameters.map (·.name)).Perm (fn.parameters.map (·.name)) := by
  have hleft : (fn.parameters.map (·.left names)).map (·.name) = fn.parameters.map (·.name) := by
    simp only [List.map_map, Function.comp_def, SignatureParameter.left_name]
  rw [← hleft]
  exact names_reportedByName _

/-- A parameter is reported as it is, or by name as keyword-only. -/
theorem mem_reportedByName {parameters : List SignatureParameter} {q : SignatureParameter} :
    q ∈ reportedByName parameters ↔
      ∃ p ∈ parameters, q = if p.isKeyword then { p with kind := .keywordOnly } else p := by
  rw [(reportedByName_perm parameters).mem_iff, List.mem_map]
  exact exists_congr fun p => and_congr_right fun _ => eq_comm

/-- A `**kwargs` is reported, and nothing else is reported as one. -/
theorem varKeyword_leftToTheCallable (fn : Callable) (names : Option (List String)) :
    (leftToTheCallable fn names).parameters.any (·.kind == .varKeyword) =
      fn.parameters.any (·.kind == .varKeyword) := by
  rw [Bool.eq_iff_iff, List.any_eq_true, List.any_eq_true]
  simp only [leftToTheCallable, mem_reportedByName, List.mem_map, beq_iff_eq]
  constructor
  · rintro ⟨_, ⟨_, ⟨p, hp, rfl⟩, rfl⟩, hk⟩
    refine ⟨p, hp, ?_⟩
    split at hk
    · cases hk
    · rwa [SignatureParameter.left_kind] at hk
  · rintro ⟨p, hp, hk⟩
    refine ⟨_, ⟨_, ⟨p, hp, rfl⟩, rfl⟩, ?_⟩
    rw [if_neg (by simp [SignatureParameter.isKeyword, hk]), SignatureParameter.left_kind, hk]

/-- What the reported parameters keep in pairs: what the positional-only ones did, where it holds of
every pair in the order of the kinds whose second is not positional. -/
theorem pairwise_reportedByName {R : SignatureParameter → SignatureParameter → Prop}
    {parameters : List SignatureParameter}
    (hfirst : (parameters.filter (·.kind == .positionalOnly)).Pairwise R)
    (hlater : ∀ p q, q.kind.isPositional = false → p.kind.rank ≤ q.kind.rank → R p q) :
    (reportedByName parameters).Pairwise R := by
  have hclass : ∀ (kind : ParameterKind), kind.isPositional = false →
      ∀ ps : List SignatureParameter, (∀ p ∈ ps, p.kind = kind) → ps.Pairwise R := by
    intro kind hkind ps hps
    refine List.pairwise_of_forall_mem_list fun p hp q hq => hlater p q ?_ ?_
    · rw [hps q hq, hkind]
    · exact Nat.le_of_eq (by rw [hps p hp, hps q hq])
  have hpast : ∀ (kind : ParameterKind) (ps qs : List SignatureParameter),
      (∀ p ∈ ps, p.kind = kind) →
      (∀ q ∈ qs, q.kind.isPositional = false ∧ kind.rank ≤ q.kind.rank) →
      ∀ p ∈ ps, ∀ q ∈ qs, R p q := by
    intro kind ps qs hps hqs p hp q hq
    exact hlater p q (hqs q hq).1 (by rw [hps p hp]; exact (hqs q hq).2)
  have hof : ∀ kind, ∀ p ∈ parameters.filter (·.kind == kind), p.kind = kind := by
    intro kind p hp
    simpa using (List.mem_filter.1 hp).2
  have hnamed : ∀ p ∈ (parameters.filter (·.isKeyword)).map
      ({ · with kind := .keywordOnly }), p.kind = .keywordOnly := by
    intro p hp
    obtain ⟨p, -, rfl⟩ := List.mem_map.1 hp
    rfl
  refine List.pairwise_append.2 ⟨hfirst, List.pairwise_append.2 ⟨hclass _ rfl _ (hof .varPositional),
    List.pairwise_append.2 ⟨hclass _ rfl _ hnamed, hclass _ rfl _ (hof .varKeyword), ?_⟩, ?_⟩, ?_⟩
  · refine hpast .keywordOnly _ _ hnamed fun q hq => ?_
    rw [hof .varKeyword q hq]
    decide
  · refine hpast .varPositional _ _ (hof .varPositional) fun q hq => ?_
    rcases List.mem_append.1 hq with hq | hq
    · rw [hnamed q hq]
      decide
    · rw [hof .varKeyword q hq]
      decide
  · refine hpast .positionalOnly _ _ (hof .positionalOnly) fun q hq => ?_
    rcases List.mem_append.1 hq with hq | hq
    · rw [hof .varPositional q hq]
      decide
    · rcases List.mem_append.1 hq with hq | hq
      · rw [hnamed q hq]
        decide
      · rw [hof .varKeyword q hq]
        decide

/-- A positional-only parameter is left as it is. -/
theorem filter_left (parameters : List SignatureParameter) (names : Option (List String)) :
    (parameters.map (·.left names)).filter (·.kind == .positionalOnly) =
      parameters.filter (·.kind == .positionalOnly) := by
  rw [List.filter_map]
  simp only [Function.comp_def, SignatureParameter.left_kind]
  refine (List.map_congr_left fun p hp => ?_).trans (List.map_id _)
  have hk : p.kind = .positionalOnly := by simpa using (List.mem_filter.1 hp).2
  exact SignatureParameter.left_of_not_keyword names (by simp [SignatureParameter.isKeyword, hk])

/-- **The reported signature is one Python takes.** -/
theorem leftToTheCallable_valid {fn : Callable} (h : ValidSignature fn.parameters)
    (names : Option (List String)) : ValidSignature (leftToTheCallable fn names).parameters where
  ordered := pairwise_reportedByName
    (by rw [filter_left]; exact h.ordered.sublist List.filter_sublist)
    fun _ _ _ hrank => hrank
  defaults := pairwise_reportedByName
    (by rw [filter_left]; exact h.defaults.sublist List.filter_sublist)
    fun _ _ hq _ _ hpositional => by rw [hq] at hpositional; cases hpositional
  names := (names_leftToTheCallable fn names).nodup_iff.2 h.names

/-! ### What it asks for -/

/-- The parameters the kernel asks a caller for by a signature: those passed by name with no
default. -/
def Callable.asked (fn : Callable) : List String :=
  (fn.parameters.filter fun p => p.isKeyword && p.default.isNone).map (·.name)

/-- A name is asked of the caller where a keyword parameter of it has no default. -/
theorem Callable.mem_asked {fn : Callable} {n : String} :
    n ∈ fn.asked ↔ ∃ p ∈ fn.parameters, p.isKeyword = true ∧ p.default = none ∧ p.name = n := by
  simp [asked, and_assoc]

/-- Nothing is asked for under the names, and the rest as it was. -/
theorem mem_asked_leftToTheCallable {fn : Callable} {names : List String} {n : String} :
    n ∈ (leftToTheCallable fn (some names)).asked ↔ n ∈ fn.asked ∧ n ∉ names := by
  have hleft : ∀ p : SignatureParameter, (p.isKeyword = true ∧ (p.left (some names)).default = none) ↔
      p.isKeyword = true ∧ p.default = none ∧ p.name ∉ names := by
    intro p
    unfold SignatureParameter.left
    by_cases hk : p.isKeyword <;> by_cases hd : p.default = none <;> by_cases hn : p.name ∈ names <;>
      simp [hk, hd, hn]
  simp only [Callable.mem_asked, leftToTheCallable, mem_reportedByName, List.mem_map]
  constructor
  · rintro ⟨_, ⟨_, ⟨p, hp, rfl⟩, rfl⟩, hk, hd, rfl⟩
    cases hpk : p.isKeyword with
    | true =>
      rw [SignatureParameter.left_isKeyword, hpk, if_pos rfl] at hd
      obtain ⟨-, hdefault, hname⟩ := (hleft p).1 ⟨hpk, hd⟩
      rw [SignatureParameter.left_isKeyword, hpk, if_pos rfl]
      simp only [SignatureParameter.left_name]
      exact ⟨⟨p, hp, hpk, hdefault, rfl⟩, hname⟩
    | false => simp [SignatureParameter.left_isKeyword, hpk] at hk
  · rintro ⟨⟨p, hp, hpk, hdefault, rfl⟩, hname⟩
    obtain ⟨-, hd⟩ := (hleft p).2 ⟨hpk, hdefault, hname⟩
    refine ⟨_, ⟨_, ⟨p, hp, rfl⟩, rfl⟩, ?_⟩
    rw [SignatureParameter.left_isKeyword, hpk, if_pos rfl]
    exact ⟨rfl, hd, p.left_name _⟩

/-! ## The variant -/

/-- What `bundled_selector` reads of a compiled selector spec. -/
structure SelectorVariant where
  reads : List Parameter
  selector : Callable
  preconditions : List Callable

namespace SelectorVariant

/-- The callables dispatch hands the pool to. -/
def callables (variant : SelectorVariant) : List Callable :=
  variant.selector :: variant.preconditions

/-- The names the kernel refuses a call without: those of the required reads, and those a callable
asks for. -/
def asked (variant : SelectorVariant) : List String :=
  names (variant.reads.filter (·.required)) ++ variant.callables.flatMap (·.asked)

/-- `bundled_selector`: the twin that takes none of a caller's values for `names`. -/
def bundled (variant : SelectorVariant) (names : List String) : SelectorVariant where
  reads := variant.reads.map fun parameter =>
    if parameter.name ∈ names then { parameter with required := false } else parameter
  selector := leftToTheCallable variant.selector (some names)
  preconditions := variant.preconditions.map (leftToTheCallable · (some names))

variable (variant : SelectorVariant) (names : List String)

/-- A read it requires is one that was required, of another name. -/
theorem mem_required_bundled {n : String} :
    n ∈ Reads.names ((variant.bundled names).reads.filter (·.required)) ↔
      n ∈ Reads.names (variant.reads.filter (·.required)) ∧ n ∉ names := by
  simp only [Reads.names, bundled, List.mem_map, List.mem_filter]
  constructor
  · rintro ⟨_, ⟨⟨p, hp, rfl⟩, hrequired⟩, rfl⟩
    by_cases hn : p.name ∈ names
    · rw [if_pos hn] at hrequired
      cases hrequired
    · rw [if_neg hn] at hrequired ⊢
      exact ⟨⟨p, ⟨hp, hrequired⟩, rfl⟩, hn⟩
  · rintro ⟨⟨p, ⟨hp, hrequired⟩, rfl⟩, hn⟩
    exact ⟨p, ⟨⟨p, hp, if_neg hn⟩, hrequired⟩, rfl⟩

/-- **The kernel asks of the twin what it asked of the variant, less those names.** -/
theorem mem_asked_bundled {n : String} :
    n ∈ (variant.bundled names).asked ↔ n ∈ variant.asked ∧ n ∉ names := by
  have hcallables : (variant.bundled names).callables =
      variant.callables.map (leftToTheCallable · (some names)) := rfl
  have hasked : n ∈ (variant.bundled names).callables.flatMap (·.asked) ↔
      n ∈ variant.callables.flatMap (·.asked) ∧ n ∉ names := by
    rw [hcallables, List.flatMap_map]
    simp only [List.mem_flatMap, mem_asked_leftToTheCallable]
    constructor
    · rintro ⟨fn, hfn, hmem, hn⟩
      exact ⟨⟨fn, hfn, hmem⟩, hn⟩
    · rintro ⟨⟨fn, hfn, hmem⟩, hn⟩
      exact ⟨fn, hfn, hmem, hn⟩
  simp only [asked, List.mem_append, mem_required_bundled, hasked, ← or_and_right]

end SelectorVariant

end RestFrameworkServices.Reads
