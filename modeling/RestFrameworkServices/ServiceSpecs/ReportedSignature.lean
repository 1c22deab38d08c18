import RestFrameworkServices.ServiceSpecs.LeftToTheCallable

/-!
# The signature a forwarding callable reports

`left_to_the_callable` wraps a callable in one that reports another signature and calls it as it was
called. The reported signature is one `inspect.Signature` takes, whatever the kinds and defaults of the
callable's own, and it is the callable's but for the defaults of the named required parameters
(`leftToTheCallable_unchanged`).
-/

namespace RestFrameworkServices.Reads

open Lib

universe u v

/-! ## Signatures and calls -/

/-- A signature `inspect.Signature` takes, of parameters `inspect.Parameter` does: beside the order of its
kinds and defaults and its names, one `*args` and one `**kwargs` at most, neither with a default. -/
structure AcceptedSignature (parameters : List SignatureParameter) : Prop extends
    ValidSignature parameters where
  once : ∀ kind, kind = .varPositional ∨ kind = .varKeyword →
    (parameters.filter (·.kind == kind)).length ≤ 1
  undefaulted : ∀ p ∈ parameters, p.kind = .varPositional ∨ p.kind = .varKeyword → p.default = none

/-- A call may pass a name by keyword: to the parameter of the name, or to a `**kwargs`. -/
def Callable.AcceptsKeyword (fn : Callable) (name : String) : Prop :=
  (∃ p ∈ fn.parameters, p.isKeyword = true ∧ p.name = name) ∨ ∃ p ∈ fn.parameters, p.kind = .varKeyword

/-- A function: the callable it reports, and what it does with what it is passed by position and by
name. -/
structure Runnable (V : Type u) (R : Type v) where
  callable : Callable
  call : List V → Dict String V → R

section
variable {V : Type u} {R : Type v}

/-- `_forwarding`, with nothing `before`: it reports a signature, and calls `fn` with what it is passed. -/
def forwarding (fn : Runnable V R) (callable : Callable) : Runnable V R where
  callable := callable
  call args kwargs := fn.call args kwargs

/-- `left_to_the_callable`, of a function. -/
def leftToTheFunction (fn : Runnable V R) (names : Option (List String)) : Runnable V R :=
  forwarding fn (leftToTheCallable fn.callable names)

end

/-- A parameter's default is left to the callable: it is required, passed by name, and named. -/
def SignatureParameter.IsLeft (names : Option (List String)) (p : SignatureParameter) : Prop :=
  p.default = none ∧ p.isKeyword = true ∧ ∀ named, names = some named → p.name ∈ named

/-- A wrapper reports a signature Python takes, which is its function's: the names once each and those
passed by keyword the same, each parameter's annotation, and its default unless it is left to the
callable. It passes its function nothing it is not passed. -/
structure Unchanged {V : Type u} {R : Type v} (names : Option (List String)) (fn wrapper : Runnable V R) :
    Prop where
  accepted : AcceptedSignature wrapper.callable.parameters
  namesKept : (wrapper.callable.parameters.map (·.name)).Perm (fn.callable.parameters.map (·.name))
  keywords : ∀ name, wrapper.callable.AcceptsKeyword name ↔ fn.callable.AcceptsKeyword name
  annotations : ∀ p ∈ fn.callable.parameters, ∃ q ∈ wrapper.callable.parameters,
    q.name = p.name ∧ q.hint = p.hint ∧ q.typedDict = p.typedDict ∧
      (p.IsLeft names → q.default = some leftDefault) ∧ (¬ p.IsLeft names → q.default = p.default)
  call : ∀ args kwargs, wrapper.call args kwargs = fn.call args kwargs

/-! ## What is reported -/

section
variable (names : Option (List String)) (p : SignatureParameter)

/-- A parameter is left where it is a keyword of the names, with no default. -/
theorem SignatureParameter.isLeft_iff :
    p.IsLeft names ↔ p.default.isNone ∧ p.isKeyword ∧ names.all (p.name ∈ ·) := by
  cases names <;> simp [IsLeft]

/-- What a parameter is reported as: of its name and annotation, its default its own or left. -/
theorem SignatureParameter.byName_left :
    (p.left names).byName.name = p.name ∧ (p.left names).byName.hint = p.hint ∧
      (p.left names).byName.typedDict = p.typedDict ∧
      (p.IsLeft names → (p.left names).byName.default = some leftDefault) ∧
      (¬ p.IsLeft names → (p.left names).byName.default = p.default) := by
  have hbyName : ∀ q : SignatureParameter, q.byName.name = q.name ∧ q.byName.hint = q.hint ∧
      q.byName.typedDict = q.typedDict ∧ q.byName.default = q.default := by
    intro q
    unfold byName
    split <;> exact ⟨rfl, rfl, rfl, rfl⟩
  obtain ⟨hname, hhint, htyped, hdefault⟩ := hbyName (p.left names)
  rw [hname, hhint, htyped, hdefault, isLeft_iff]
  unfold left
  split
  · next hleft => exact ⟨rfl, rfl, rfl, fun _ => rfl, fun h => absurd hleft h⟩
  · next hleft => exact ⟨rfl, rfl, rfl, fun h => absurd h hleft, fun _ => rfl⟩

/-- It is passed by name where it was. -/
theorem SignatureParameter.byName_kind :
    (p.left names).byName.kind = if p.isKeyword then .keywordOnly else p.kind := by
  unfold byName
  rw [left_isKeyword]
  split
  · rfl
  · exact p.left_kind names

end

section
variable (fn : Callable) (names : Option (List String))

/-- The parameters are reported in another order, each as it is reported. -/
theorem leftToTheCallable_perm : (leftToTheCallable fn names).parameters.Perm
    (fn.parameters.map fun p => (p.left names).byName) := by
  have hperm := reportedByName_perm (fn.parameters.map (·.left names))
  rwa [List.map_map] at hperm

/-- A `*args` and a `**kwargs` are reported as they are. -/
theorem length_filter_kind {kind : ParameterKind} (hkind : kind = .varPositional ∨ kind = .varKeyword) :
    ((leftToTheCallable fn names).parameters.filter (·.kind == kind)).length =
      (fn.parameters.filter (·.kind == kind)).length := by
  rw [((leftToTheCallable_perm fn names).filter _).length_eq, List.filter_map, List.length_map]
  refine congrArg List.length (List.filter_congr fun p _ => ?_)
  show ((p.left names).byName.kind == kind) = _
  rw [p.byName_kind names]
  rcases hkind with rfl | rfl <;> cases hk : p.kind <;> simp [SignatureParameter.isKeyword, hk]

/-- Which keywords are accepted does not change. -/
theorem acceptsKeyword_leftToTheCallable (name : String) :
    (leftToTheCallable fn names).AcceptsKeyword name ↔ fn.AcceptsKeyword name := by
  have hmem : ∀ q, q ∈ (leftToTheCallable fn names).parameters ↔
      ∃ p ∈ fn.parameters, (p.left names).byName = q := fun q => by
    rw [(leftToTheCallable_perm fn names).mem_iff, List.mem_map]
  have hkeyword : ∀ p : SignatureParameter, (p.left names).byName.isKeyword = p.isKeyword := fun p => by
    rw [SignatureParameter.isKeyword, p.byName_kind names]
    cases hk : p.kind <;> simp [SignatureParameter.isKeyword, hk]
  refine or_congr ?_ ?_
  · constructor
    · rintro ⟨q, hq, hk, rfl⟩
      obtain ⟨p, hp, rfl⟩ := (hmem q).1 hq
      exact ⟨p, hp, (hkeyword p).symm.trans hk, (p.byName_left names).1.symm⟩
    · rintro ⟨p, hp, hk, rfl⟩
      exact ⟨_, (hmem _).2 ⟨p, hp, rfl⟩, (hkeyword p).trans hk, (p.byName_left names).1⟩
  · have hvar := varKeyword_leftToTheCallable fn names
    rw [Bool.eq_iff_iff, List.any_eq_true, List.any_eq_true] at hvar
    simpa only [beq_iff_eq] using hvar

/-- **The reported signature is one Python takes.** -/
theorem leftToTheCallable_accepted (h : AcceptedSignature fn.parameters) :
    AcceptedSignature (leftToTheCallable fn names).parameters where
  toValidSignature := leftToTheCallable_valid h.toValidSignature names
  once kind hkind := Nat.le_trans (Nat.le_of_eq (length_filter_kind fn names hkind)) (h.once kind hkind)
  undefaulted q hq hkind := by
    obtain ⟨p, hp, rfl⟩ := List.mem_map.1 ((leftToTheCallable_perm fn names).mem_iff.1 hq)
    rw [p.byName_kind names] at hkind
    split at hkind
    · rcases hkind with hkind | hkind <;> cases hkind
    · next hno =>
      have hleft : ¬ p.IsLeft names := fun hleft => hno hleft.2.1
      rw [(p.byName_left names).2.2.2.2 hleft]
      exact h.undefaulted p hp hkind

end

/-- **A function's parameters are left to it with nothing else of its signature changed.** -/
theorem leftToTheCallable_unchanged {V : Type u} {R : Type v} (fn : Runnable V R)
    (h : AcceptedSignature fn.callable.parameters) (names : Option (List String)) :
    Unchanged names fn (leftToTheFunction fn names) where
  accepted := leftToTheCallable_accepted fn.callable names h
  namesKept := names_leftToTheCallable fn.callable names
  keywords := acceptsKeyword_leftToTheCallable fn.callable names
  annotations p hp :=
    ⟨_, (leftToTheCallable_perm fn.callable names).mem_iff.2 (List.mem_map_of_mem hp),
      p.byName_left names⟩
  call _ _ := rfl

/-- A callable of a required `row`, a `page` with a default and any others. -/
def pagedRows : Runnable Nat (List String) where
  callable := ⟨[⟨"row", .positionalOrKeyword, none, ⟨"integer", false, none, false, false⟩, none⟩,
    ⟨"page", .positionalOrKeyword, some (.int 1), ⟨"integer", false, none, false, false⟩, none⟩,
    ⟨"rest", .varKeyword, none, ⟨"any", false, none, false, false⟩, none⟩], false⟩
  call _ kwargs := kwargs.keys

/-- So it is of a page of rows. -/
theorem leftToTheCallable_unchanged_pagedRows :
    Unchanged (some ["row"]) pagedRows (leftToTheFunction pagedRows (some ["row"])) :=
  leftToTheCallable_unchanged pagedRows
    { ordered := by decide
      defaults := by decide
      names := by decide
      once := by rintro _ (rfl | rfl) <;> decide
      undefaulted := by simp [pagedRows] }
    (some ["row"])

end RestFrameworkServices.Reads
