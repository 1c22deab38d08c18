import RestFrameworkServices.Lib.Memo
import RestFrameworkServices.ServiceSpecs.Reads
import Mathlib.Data.List.Sort

/-!
# Stores keyed by identity

The edge compiles a spec once for each variant of it (`kernel_spec_variant`), a variant's twin once
(`bundled_selector`) and either's guarded twin once (`guarded_selector`), each kept in a store keyed
by `id()` that a weak reference's callback clears. Within one call it keeps the answers of its
context callables (`context_answer`), its offline requests and views (`offline_pair`), and the
serializer it described (`bound_description`).

The stores are the caches and memos of `Lib.Identity`; `identity_keyed` is what they answer.
-/

namespace RestFrameworkServices

open Lib Lib.Identity

/-! ## Compiled specs -/

/-- What an object is: the author's, what `kernel_spec` compiled of a spec, a variant of one, a
variant's bundled twin of a spec, or the guarded twin of either. -/
inductive Origin where
  | declared
  | kernelSpec (spec : ℕ)
  | variant (spec : ℕ) (key : Reads.Variant)
  | bundled (source spec : ℕ)
  | guarded (source spec : ℕ)
deriving DecidableEq

/-- The spec a compiled object is of. -/
def Origin.spec? : Origin → Option ℕ
  | declared => none
  | kernelSpec spec | variant spec _ | bundled _ spec | guarded _ spec => some spec

/-- `_VARIANTS`, `_BUNDLED` and `_GUARDED`. -/
inductive Store where
  | variants
  | bundled
  | guarded
deriving DecidableEq

instance : Fintype Store where
  elems := {.variants, .bundled, .guarded}
  complete store := by cases store <;> decide

/-- `_compile` hands back what `kernel_spec` compiled: nothing is compiled anew, every seat stays, and
there is nothing to relax, no Validator to exchange, no bound to lift and no lookup to stand in
(`unchanged`). -/
def handsBack (unchanged : ℕ → Reads.Variant → Bool) (spec : ℕ) (key : Reads.Variant) : Bool :=
  key.partial?.isNone && !key.spread && !key.unguarded && key.serverInput && unchanged spec key

/-- What each store's compile makes of a source: `_compile` of a spec for a key, the twin of a
variant, and the guarded twin of a compiled spec. A twin's entry holds it alone, so it has no key. -/
def compiles (unchanged : ℕ → Reads.Variant → Bool) (store : Store) (source : ℕ) (origin : Origin)
    (key : Option Reads.Variant) (compiled : Origin) : Bool :=
  match store, key with
  | .variants, some key =>
    origin == .declared &&
      compiled == if handsBack unchanged source key then .kernelSpec source
        else .variant source key
  | .bundled, none => origin.spec?.any fun spec => compiled == .bundled source spec
  | .guarded, none => origin.spec?.any fun spec => compiled == .guarded source spec
  | .variants, none | .bundled, some _ | .guarded, some _ => false

/-- The three stores. A spec's entry is written before its variant is compiled, a twin with its
entry; the author's objects and the kernel's are made by no store. -/
def identityStores (unchanged : ℕ → Reads.Variant → Bool) :
    Config Store (Option Reads.Variant) Origin where
  early store := store == .variants
  makes := compiles unchanged
  own
    | .declared | .kernelSpec _ => true
    | .variant .. | .bundled .. | .guarded .. => false

/-- An answer of `kernel_spec_variant`: of the default key, what `kernel_spec` answers for the spec
while it lives (`kernelSpec`), and of another what `_VARIANTS` does. -/
def KernelSpecVariant (kernelSpec : ℕ → ℕ) (answers : List (Identity.Answer Store (Option Reads.Variant)))
    (spec : ℕ) (key : Reads.Variant) (compiled : ℕ) : Prop :=
  if key = {} then compiled = kernelSpec spec
  else ⟨.variants, spec, some key, compiled⟩ ∈ answers

/-- An answer of `bundled_selector`. -/
def BundledSelectorAnswer (answers : List (Identity.Answer Store (Option Reads.Variant)))
    (source twin : ℕ) : Prop :=
  ⟨.bundled, source, none, twin⟩ ∈ answers

/-- An answer of `guarded_selector`. -/
def GuardedSelectorAnswer (answers : List (Identity.Answer Store (Option Reads.Variant)))
    (source twin : ℕ) : Prop :=
  ⟨.guarded, source, none, twin⟩ ∈ answers

section
variable {unchanged : ℕ → Reads.Variant → Bool} {h : Heap Origin}

/-- What `_VARIANTS` holds was compiled of the spec for the key. -/
theorem tag_of_variants {spec compiled : ℕ} {key : Reads.Variant}
    (hmade : System.Made (identityStores unchanged) h .variants spec (some key) compiled) :
    h.tag? compiled = some (if handsBack unchanged spec key then .kernelSpec spec
      else .variant spec key) := by
  obtain ⟨tag, htag, hmakes⟩ := hmade
  obtain ⟨t, -, hok⟩ := (Option.any_eq_true _ _).1 hmakes
  have hok : t = .declared ∧ tag = if handsBack unchanged spec key then .kernelSpec spec
      else .variant spec key := by simpa [identityStores, compiles] using hok
  rw [Option.mem_def.1 htag, hok.2]

/-- A twin was compiled of the source, for the source's own spec. -/
theorem tag_of_bundled {source twin : ℕ}
    (hmade : System.Made (identityStores unchanged) h .bundled source none twin) :
    ∃ spec, (h.tag? source).bind Origin.spec? = some spec ∧
      h.tag? twin = some (.bundled source spec) := by
  obtain ⟨tag, htag, hmakes⟩ := hmade
  obtain ⟨t, ht, hok⟩ := (Option.any_eq_true _ _).1 hmakes
  obtain ⟨spec, hspec, heq⟩ := (Option.any_eq_true _ _).1 hok
  exact ⟨spec, by rw [ht, Option.bind_some, hspec], by rw [Option.mem_def.1 htag, eq_of_beq heq]⟩

/-- So was a guarded twin. -/
theorem tag_of_guarded {source twin : ℕ}
    (hmade : System.Made (identityStores unchanged) h .guarded source none twin) :
    ∃ spec, (h.tag? source).bind Origin.spec? = some spec ∧
      h.tag? twin = some (.guarded source spec) := by
  obtain ⟨tag, htag, hmakes⟩ := hmade
  obtain ⟨t, ht, hok⟩ := (Option.any_eq_true _ _).1 hmakes
  obtain ⟨spec, hspec, heq⟩ := (Option.any_eq_true _ _).1 hok
  exact ⟨spec, by rw [ht, Option.bind_some, hspec], by rw [Option.mem_def.1 htag, eq_of_beq heq]⟩

end

/-! ## The answers of one call -/

/-- What `context_answer` is asked: a provider, and the objects it is handed by name, in the order of
the names. -/
def contextAsk (provider : ℕ) (kwargs : Dict String ℕ) : ℕ × List (String × ℕ) :=
  (provider, (kwargs.keys.insertionSort (· ≤ ·)).filterMap fun name =>
    (kwargs.get? name).map (name, ·))

/-- The objects of a list of named ones are asked about alike only where they are the same. -/
theorem named_injective {address : ℕ → ℕ} : ∀ {l l' : List (String × ℕ)},
    (∀ e ∈ l, ∀ e' ∈ l', address e.2 = address e'.2 → e.2 = e'.2) →
    (l.map fun e => (e.1, address e.2)) = (l'.map fun e => (e.1, address e.2)) → l = l'
  | [], [], _, _ => rfl
  | [], _ :: _, _, h => by cases h
  | _ :: _, [], _, h => by cases h
  | e :: l, e' :: l', hinj, h => by
    obtain ⟨hhead, htail⟩ := List.cons.inj h
    obtain ⟨hname, haddress⟩ := Prod.mk.inj hhead
    have hobject := hinj e List.mem_cons_self e' List.mem_cons_self haddress
    have hrest := named_injective
      (fun e he e' he' => hinj e (List.mem_cons_of_mem _ he) e' (List.mem_cons_of_mem _ he')) htail
    rw [hrest, Prod.ext hname hobject]

/-- The key of `context_answer`. -/
def contextAnswers : Keyed (ℕ × List (String × ℕ)) (ℕ × List (String × ℕ)) where
  objects ask := ask.1 :: ask.2.map (·.2)
  key address ask := (address ask.1, ask.2.map fun e => (e.1, address e.2))
  key_injective address ask ask' hinj h := by
    obtain ⟨hprovider, hkwargs⟩ := Prod.mk.inj h
    refine Prod.ext (hinj _ List.mem_cons_self _ List.mem_cons_self hprovider)
      (named_injective (fun e he e' he' => ?_) hkwargs)
    exact hinj _ (List.mem_cons_of_mem _ (List.mem_map_of_mem he)) _
      (List.mem_cons_of_mem _ (List.mem_map_of_mem he'))
  key_congr address address' ask h := by
    refine Prod.ext (h _ List.mem_cons_self) (List.map_congr_left fun e he => ?_)
    exact Prod.ext rfl (h _ (List.mem_cons_of_mem _ (List.mem_map_of_mem he)))

/-- Two asks are one where the providers are, and the objects under each name. -/
theorem contextAsk_inj {provider provider' : ℕ} {kwargs kwargs' : Dict String ℕ}
    (h : contextAsk provider kwargs = contextAsk provider' kwargs') :
    provider = provider' ∧ Dict.Same kwargs kwargs' := by
  have hmem : ∀ (kwargs : Dict String ℕ) (name : String) (o : ℕ),
      (name, o) ∈ (contextAsk provider kwargs).2 ↔ kwargs.get? name = some o := by
    intro kwargs name o
    simp only [contextAsk, List.mem_filterMap, List.mem_insertionSort, Option.map_eq_some_iff,
      Prod.mk.injEq]
    constructor
    · rintro ⟨_, -, _, hget, rfl, rfl⟩
      exact hget
    · intro hget
      exact ⟨name, Dict.mem_iff_isSome.2 (by rw [hget]; rfl), o, hget, rfl, rfl⟩
  obtain ⟨hprovider, hkwargs⟩ := Prod.mk.inj h
  refine ⟨hprovider, fun name => Option.ext fun o => ?_⟩
  rw [← hmem kwargs name o, ← hmem kwargs' name o]
  exact iff_of_eq (congrArg ((name, o) ∈ ·) hkwargs)

/-- What `offline_pair` is asked: a principal, the arguments, the shapes where there are any, the
action, and the Django request the call carries. -/
structure PairAsk where
  principal : ℕ
  arguments : ℕ
  shapes : Option ℕ
  action : Option String
  httpRequest : Option ℕ
deriving DecidableEq

/-- An object that may not be there is known by its address. -/
theorem mapped_injective {address : ℕ → ℕ} : ∀ {o o' : Option ℕ},
    (∀ i ∈ o, ∀ j ∈ o', address i = address j → i = j) → o.map address = o'.map address → o = o'
  | none, none, _, _ => rfl
  | none, some _, _, h => by cases h
  | some _, none, _, h => by cases h
  | some _, some _, hinj, h => congrArg some (hinj _ rfl _ rfl (Option.some.inj h))

/-- The key of `offline_pair`. -/
def offlinePairs :
    Keyed PairAsk (ℕ × ℕ × Option ℕ × Option String × Option ℕ) where
  objects ask :=
    ask.principal :: ask.arguments :: (ask.shapes.toList ++ ask.httpRequest.toList)
  key address ask := (address ask.principal, address ask.arguments, ask.shapes.map address,
    ask.action, ask.httpRequest.map address)
  key_injective address ask ask' hinj h := by
    obtain ⟨hprincipal, harguments, hshapes, haction, hrequest⟩ := by
      simpa only [Prod.mk.injEq] using h
    have hlast : ∀ i ∈ ask.shapes.toList ++ ask.httpRequest.toList,
        ∀ j ∈ ask'.shapes.toList ++ ask'.httpRequest.toList, address i = address j → i = j :=
      fun i hi j hj => hinj i (List.mem_cons_of_mem _ (List.mem_cons_of_mem _ hi)) j
        (List.mem_cons_of_mem _ (List.mem_cons_of_mem _ hj))
    have hp := hinj _ List.mem_cons_self _ List.mem_cons_self hprincipal
    have ha := hinj _ (List.mem_cons_of_mem _ List.mem_cons_self) _
      (List.mem_cons_of_mem _ List.mem_cons_self) harguments
    have hs := mapped_injective (fun i hi j hj =>
      hlast i (List.mem_append_left _ (Option.mem_toList.2 hi)) j
        (List.mem_append_left _ (Option.mem_toList.2 hj))) hshapes
    have hr := mapped_injective (fun i hi j hj =>
      hlast i (List.mem_append_right _ (Option.mem_toList.2 hi)) j
        (List.mem_append_right _ (Option.mem_toList.2 hj))) hrequest
    cases ask
    cases ask'
    rw [PairAsk.mk.injEq]
    exact ⟨hp, ha, hs, haction, hr⟩
  key_congr address address' ask h := by
    have hlast : ∀ i ∈ ask.shapes.toList ++ ask.httpRequest.toList, address i = address' i :=
      fun i hi => h i (List.mem_cons_of_mem _ (List.mem_cons_of_mem _ hi))
    have hs : ask.shapes.map address = ask.shapes.map address' :=
      Option.map_congr fun i hi =>
        hlast i (List.mem_append_left _ (Option.mem_toList.2 hi))
    have hr : ask.httpRequest.map address = ask.httpRequest.map address' :=
      Option.map_congr fun i hi =>
        hlast i (List.mem_append_right _ (Option.mem_toList.2 hi))
    rw [h _ List.mem_cons_self, h _ (List.mem_cons_of_mem _ List.mem_cons_self), hs, hr]

/-! ## The serializer a call described -/

/-- A serializer, as it was bound: the declaration it was built of, whether it is a list's, its body
and its row, its flag, its context's objects, and whether it has validated. -/
structure Description where
  declaration : Option ℕ
  many : Bool
  data : Option ℕ
  row : Option ℕ
  isPartial : Bool
  context : Dict String ℕ
  validated : Bool

/-- `DescribeBinding`. -/
structure DescribeBinding where
  declaration : ℕ
  data : ℕ
  row : Option ℕ
  isPartial : Bool
  many : Bool

/-- What `_serializer` binds a serializer with. -/
structure BoundWith where
  data : ℕ
  row : Option ℕ
  isPartial : Bool
  many : Bool

/-- What a call carries of its descriptions. -/
structure Descriptions where
  binding : Option DescribeBinding
  described : Dict ℕ Description

namespace Descriptions

/-- `_described`: the declaration as the call binds it, where it is the call's own. -/
def build (binding : Option DescribeBinding) (declaration : ℕ) (context : Dict String ℕ) :
    Description :=
  match binding.filter (·.declaration == declaration) with
  | some binding =>
    if binding.many then
      ⟨some declaration, true, some binding.data, none, binding.isPartial, context, false⟩
    else ⟨some declaration, false, some binding.data, binding.row, binding.isPartial, context, false⟩
  | none => ⟨some declaration, false, none, none, false, context, false⟩

/-- The `Serializer()` a declaration that cannot be built without its row is described by. -/
def unbuilt : Description := ⟨none, false, none, none, false, .empty, false⟩

/-- What a call does with its descriptions: binds another body (`describe_with`), describes a
declaration, where it can be built or not, and validates one. -/
inductive Event where
  | describeWith (binding : DescribeBinding)
  | describe (declaration : ℕ) (context : Dict String ℕ) (built : Bool)
  | validate (declaration : ℕ)

/-- One of them. -/
def step (s : Descriptions) : Event → Descriptions
  | .describeWith binding =>
    ⟨some binding, s.described.without [binding.declaration]⟩
  | .describe declaration context built =>
    let description := if built then build s.binding declaration context else unbuilt
    if declaration ∈ s.described then s
    else { s with described := s.described.set declaration description }
  | .validate declaration =>
    let validated (other : ℕ) (description : Description) : Option Description :=
      some (if other = declaration then { description with validated := true } else description)
    { s with described := s.described.filterMap validated }

/-- The call's descriptions after some of them. -/
def run (events : List Event) : Descriptions := events.foldl step ⟨none, .empty⟩

/-- `_bound_as`. -/
def boundAs (description : Description) (kwargs : BoundWith) : Bool :=
  description.many == kwargs.many && description.data == some kwargs.data &&
    description.row == kwargs.row && description.isPartial == kwargs.isPartial

/-- `_same_objects`. -/
def sameObjects (held context : Dict String ℕ) : Bool :=
  held.keys.all (· ∈ context) && context.keys.all (· ∈ held) &&
    context.keys.all fun key => held.get? key == context.get? key

/-- `bound_description`. -/
def boundDescription (s : Descriptions) (declaration : ℕ) (context : Dict String ℕ)
    (kwargs : BoundWith) : Option Description :=
  (s.described.get? declaration).filter fun description =>
    !description.validated && boundAs description kwargs && sameObjects description.context context

/-- A description held for a declaration was built of it, or binds no body. -/
def Built (s : Descriptions) : Prop := ∀ declaration description,
  s.described.get? declaration = some description →
    description.declaration = some declaration ∨ description.data = none

/-- A description built is of its declaration. -/
theorem declaration_build (binding : Option DescribeBinding) (declaration : ℕ)
    (context : Dict String ℕ) :
    (build binding declaration context).declaration = some declaration := by
  unfold build
  split
  · split <;> rfl
  · rfl

/-- A step keeps it so. -/
theorem Built.step {s : Descriptions} (hs : s.Built) (e : Event) : (s.step e).Built := by
  intro declaration description hget
  cases e with
  | describeWith binding =>
    rw [Descriptions.step, Dict.get?_without] at hget
    split at hget
    · cases hget
    · exact hs declaration description hget
  | describe other context built =>
    simp only [Descriptions.step] at hget
    split at hget
    · exact hs declaration description hget
    · rw [Dict.get?_set] at hget
      split at hget
      · next hother =>
        cases hget
        cases built with
        | true => exact .inl (by rw [hother]; exact declaration_build _ _ _)
        | false => exact .inr rfl
      · exact hs declaration description hget
  | validate other =>
    rw [Descriptions.step, Dict.get?_filterMap] at hget
    obtain ⟨held, hheld, hsome⟩ := Option.bind_eq_some_iff.1 hget
    cases hsome
    split
    · exact hs declaration held hheld
    · exact hs declaration held hheld

/-- It is so of every run. -/
theorem built_run (events : List Event) : (run events).Built := by
  have hrun : ∀ (events : List Event) (s : Descriptions), s.Built → (events.foldl step s).Built := by
    intro events
    induction events with
    | nil => exact fun _ hs => hs
    | cons e events ih => exact fun s hs => ih (s.step e) (hs.step e)
  exact hrun events _ fun _ _ h => by cases h

/-- The objects of a context are the same where each is under its key. -/
theorem same_of_sameObjects {held context : Dict String ℕ} (h : sameObjects held context = true) :
    Dict.Same held context := by
  obtain ⟨⟨hheld, hcontext⟩, hsame⟩ :
      ((∀ key ∈ held.keys, key ∈ context) ∧ ∀ key ∈ context.keys, key ∈ held) ∧
        ∀ key ∈ context.keys, held.get? key = context.get? key := by
    simpa [sameObjects] using h
  intro key
  by_cases hkey : key ∈ context
  · exact hsame key hkey
  · rw [Dict.get?_eq_none.2 hkey, Dict.get?_eq_none.2 fun hmem => hkey (hheld key hmem)]

/-- A description is handed out for the declaration it was built of, bound as it is asked for, and
not validated yet. -/
theorem boundDescription_eq_some {s : Descriptions} (hs : s.Built) {declaration : ℕ}
    {context : Dict String ℕ} {kwargs : BoundWith} {description : Description}
    (h : s.boundDescription declaration context kwargs = some description) :
    description.declaration = some declaration ∧ description.data = some kwargs.data ∧
      description.row = kwargs.row ∧ description.isPartial = kwargs.isPartial ∧
      description.many = kwargs.many ∧ Dict.Same description.context context ∧
      description.validated = false := by
  obtain ⟨hget, hbound⟩ := Option.filter_eq_some_iff.1 h
  obtain ⟨⟨hvalidated, hbound⟩, hsame⟩ : (description.validated = false ∧
      boundAs description kwargs = true) ∧ sameObjects description.context context = true := by
    simpa using hbound
  obtain ⟨⟨⟨hmany, hdata⟩, hrow⟩, hcall⟩ : ((description.many = kwargs.many ∧
      description.data = some kwargs.data) ∧ description.row = kwargs.row) ∧
      description.isPartial = kwargs.isPartial := by
    simpa [boundAs] using hbound
  have hdeclaration := (hs declaration description hget).resolve_right fun hnone => by
    rw [hnone] at hdata
    cases hdata
  exact ⟨hdeclaration, hdata, hrow, hcall, hmany, same_of_sameObjects hsame, hvalidated⟩

end Descriptions

/-! ## What the stores answer -/

/-- **A store keyed by identity never answers for another object.** In every run of creations, deaths,
callbacks, reuses of an address and requests, each compiled spec is compiled of the very source for
the key asked for, and every request for the two is answered with one object. In every run of one
call a memoised answer was computed of the very provider and objects, or of the very principal,
arguments, shapes, action and request, it is given for; and a description is handed out for its own
declaration alone, bound with the very objects asked for. -/
theorem identity_keyed :
    (∀ (unchanged : ℕ → Reads.Variant → Bool) (kernelSpec : ℕ → ℕ)
      (events : List (Event Store (Option Reads.Variant) Origin))
      (s : System Store (Option Reads.Variant) Origin)
      (answers : List (Identity.Answer Store (Option Reads.Variant))),
      System.start.run (identityStores unchanged) events = some (s, answers) →
      (∀ spec key compiled, KernelSpecVariant kernelSpec answers spec key compiled →
        (key ≠ {} → s.heap.tag? compiled =
          some (if handsBack unchanged spec key then .kernelSpec spec else .variant spec key)) ∧
        ∀ compiled', KernelSpecVariant kernelSpec answers spec key compiled' →
          compiled' = compiled) ∧
      (∀ source twin, BundledSelectorAnswer answers source twin →
        (∃ spec, (s.heap.tag? source).bind Origin.spec? = some spec ∧
          s.heap.tag? twin = some (.bundled source spec)) ∧
        ∀ twin', BundledSelectorAnswer answers source twin' → twin' = twin) ∧
      ∀ source twin, GuardedSelectorAnswer answers source twin →
        (∃ spec, (s.heap.tag? source).bind Origin.spec? = some spec ∧
          s.heap.tag? twin = some (.guarded source spec)) ∧
        ∀ twin', GuardedSelectorAnswer answers source twin' → twin' = twin) ∧
    (∀ (α : Type) (h : Heap Unit) (events : List (Memo.Event (ℕ × List (String × ℕ)) α))
      (m : Memo (ℕ × List (String × ℕ)) (ℕ × List (String × ℕ)) α)
      (out : List (Memo.Outcome (ℕ × List (String × ℕ)) α)),
      (Memo.start h).run contextAnswers events = some (m, out) →
      ∀ (provider : ℕ) (kwargs : Dict String ℕ) (answer : α),
        .told (contextAsk provider kwargs) answer ∈ out →
          .computed (contextAsk provider kwargs) answer ∈ out ∧
          ∀ (provider' : ℕ) (kwargs' : Dict String ℕ),
            contextAsk provider' kwargs' = contextAsk provider kwargs →
              provider' = provider ∧ Dict.Same kwargs' kwargs) ∧
    (∀ (α : Type) (h : Heap Unit) (events : List (Memo.Event PairAsk α))
      (m : Memo PairAsk (ℕ × ℕ × Option ℕ × Option String × Option ℕ) α)
      (out : List (Memo.Outcome PairAsk α)),
      (Memo.start h).run offlinePairs events = some (m, out) →
      ∀ (ask : PairAsk) (pair : α), .told ask pair ∈ out → .computed ask pair ∈ out) ∧
    ∀ (events : List Descriptions.Event) (declaration : ℕ) (context : Dict String ℕ)
      (kwargs : BoundWith) (description : Description),
      (Descriptions.run events).boundDescription declaration context kwargs = some description →
        description.declaration = some declaration ∧ description.data = some kwargs.data ∧
          description.row = kwargs.row ∧ description.isPartial = kwargs.isPartial ∧
          description.many = kwargs.many ∧ Dict.Same description.context context ∧
          description.validated = false := by
  refine ⟨fun unchanged kernelSpec events s answers hrun => ?_, ?_, ?_, ?_⟩
  · obtain ⟨hmade, halike⟩ := System.run_answers hrun
    refine ⟨fun spec key compiled hc => ⟨fun hkey => ?_, fun compiled' hc' => ?_⟩,
      fun source twin ht => ⟨tag_of_bundled (hmade _ ht), fun twin' ht' => ?_⟩,
      fun source twin ht => ⟨tag_of_guarded (hmade _ ht), fun twin' ht' => ?_⟩⟩
    · rw [KernelSpecVariant, if_neg hkey] at hc
      exact tag_of_variants (hmade _ hc)
    · unfold KernelSpecVariant at hc hc'
      split at hc
      · next hkey =>
        rw [if_pos hkey] at hc'
        rw [hc, hc']
      · next hkey =>
        rw [if_neg hkey] at hc'
        exact halike _ hc' _ hc rfl rfl rfl
    · exact halike _ ht' _ ht rfl rfl rfl
    · exact halike _ ht' _ ht rfl rfl rfl
  · intro α h events m out hrun provider kwargs answer htold
    exact ⟨Memo.run_told hrun _ _ htold, fun provider' kwargs' hask => contextAsk_inj hask⟩
  · intro α h events m out hrun ask pair htold
    exact Memo.run_told hrun _ _ htold
  · intro events declaration context kwargs description h
    exact Descriptions.boundDescription_eq_some (Descriptions.built_run events) h

/-- The run of a spec at address 8 that is compiled unguarded, twice asked for, and dies; another is
created at its address and is compiled unguarded too. -/
def reusedAddress : List (Event Store (Option Reads.Variant) Origin) :=
  let key : Reads.Variant := { unguarded := true }
  [.create 8 .declared, .request .variants 0 (some key), .make .variants 9 (.variant 0 key),
    .keep .variants, .request .variants 0 (some key), .die 0, .callback .variants 0, .free 0,
    .create 8 .declared, .request .variants 2 (some key), .make .variants 10 (.variant 2 key),
    .keep .variants]

/-- The run of a provider that is asked about one request, computed, and asked again. -/
def askedAgain : List (Memo.Event (ℕ × List (String × ℕ)) ℕ) :=
  let ask := contextAsk 0 (.empty |>.set "request" 1)
  [.create 4, .create 5, .ask ask, .answer ask 7, .ask ask]

/-- The run of a principal and arguments whose pair is built, and asked for again. -/
def pairedAgain : List (Memo.Event PairAsk ℕ) :=
  let ask : PairAsk := ⟨0, 1, none, some "create", none⟩
  [.create 4, .create 5, .ask ask, .answer ask 7, .ask ask]

/-- The run of a call that binds a body and describes the declaration. -/
def describedOnce : List Descriptions.Event :=
  [.describeWith ⟨0, 1, none, false, false⟩, .describe 0 .empty true]

/-- The second spec is answered with its own variant; what is asked again is told what was computed;
and the serializer described is handed out. -/
theorem identity_keyed_reused :
    (∃ s answers,
      System.start.run (identityStores fun _ _ => true) reusedAddress = some (s, answers) ∧
      KernelSpecVariant id answers 2 { unguarded := true } 3 ∧
      s.heap.address 2 = s.heap.address 0 ∧
      s.heap.tag? 3 = some (.variant 2 { unguarded := true })) ∧
    (∃ m out, (Memo.start .empty).run contextAnswers askedAgain = some (m, out) ∧
      .told (contextAsk 0 (.empty |>.set "request" 1)) 7 ∈ out ∧
      .computed (contextAsk 0 (.empty |>.set "request" 1)) 7 ∈ out) ∧
    (∃ m out, (Memo.start .empty).run offlinePairs pairedAgain = some (m, out) ∧
      .told ⟨0, 1, none, some "create", none⟩ 7 ∈ out ∧
      .computed ⟨0, 1, none, some "create", none⟩ 7 ∈ out) ∧
    ∃ description,
      (Descriptions.run describedOnce).boundDescription 0 .empty ⟨1, none, false, false⟩ =
        some description ∧ description.declaration = some 0 := by
  have hne : ({ unguarded := true } : Reads.Variant) ≠ {} := by decide
  have hrun : (System.start.run (identityStores fun _ _ => true) reusedAddress).map
      (fun (s, answers) => (answers, s.heap.address 0, s.heap.address 2)) =
        some ([⟨.variants, 0, some { unguarded := true }, 1⟩,
          ⟨.variants, 0, some { unguarded := true }, 1⟩,
          ⟨.variants, 2, some { unguarded := true }, 3⟩], 8, 8) := by decide +kernel
  obtain ⟨hstores, hcontext, hpairs, hdescription⟩ := identity_keyed
  refine ⟨?_, ?_, ?_, ?_⟩
  · obtain ⟨⟨s, answers⟩, hrun, hpair⟩ := Option.map_eq_some_iff.1 hrun
    obtain ⟨hanswers, haddress⟩ := Prod.mk.inj hpair
    obtain ⟨hfirst, hsecond⟩ := Prod.mk.inj haddress
    have htold : KernelSpecVariant id answers 2 { unguarded := true } 3 := by
      rw [KernelSpecVariant, if_neg hne, hanswers]
      exact .tail _ (.tail _ (.head _))
    obtain ⟨hvariants, -, -⟩ := hstores (fun _ _ => true) id reusedAddress s answers hrun
    exact ⟨s, answers, hrun, htold, hsecond.trans hfirst.symm, (hvariants 2 _ 3 htold).1 hne⟩
  · have htold : .told (contextAsk 0 (.empty |>.set "request" 1)) 7 ∈
      ([.computed (contextAsk 0 (.empty |>.set "request" 1)) 7,
        .told (contextAsk 0 (.empty |>.set "request" 1)) 7] : List (Memo.Outcome _ ℕ)) :=
      .tail _ (.head _)
    exact ⟨_, _, rfl, htold, (hcontext ℕ .empty askedAgain _ _ rfl 0 _ 7 htold).1⟩
  · have htold : .told ⟨0, 1, none, some "create", none⟩ 7 ∈
      ([.computed ⟨0, 1, none, some "create", none⟩ 7,
        .told ⟨0, 1, none, some "create", none⟩ 7] : List (Memo.Outcome PairAsk ℕ)) :=
      .tail _ (.head _)
    exact ⟨_, _, rfl, htold, hpairs ℕ .empty pairedAgain _ _ rfl _ 7 htold⟩
  · exact ⟨_, rfl, (hdescription describedOnce 0 .empty ⟨1, none, false, false⟩ _ rfl).1⟩

end RestFrameworkServices
