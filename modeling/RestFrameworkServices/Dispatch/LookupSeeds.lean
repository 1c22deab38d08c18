import Mathlib.Data.List.Sort
import RestFrameworkServices.Dispatch.AuthorValues

/-!
# The seeds of a target lookup's hidden names

A name a service spec's target lookup hides has its value from the route or the author, never from the
caller. `hiddenLookupSeeds` (`_hidden_lookup_seeds`) registers each such value as a seed of the call,
taking the author's out of `extra_kwargs`. `hiddenLookupSeeds_eq` says which names it seeds and with what:
each has the one value, and nothing else of the seeds or of `extra_kwargs` changes.
-/

namespace RestFrameworkServices.LookupSeeds

open Lib Reads

universe u v

variable {ρ : Type u} {V : Type v}

/-- The kernel's `PoolSeeds`: the resolver of each registered name, which reads the base pool, and the
names occupied, those of the seeds the kernel has itself among them. -/
structure PoolSeeds (ρ : Type u) (V : Type v) where
  seeds : Dict String (ρ → V)
  reserved : List String
  names_reserved : ∀ name ∈ seeds, name ∈ reserved

/-- `_constant`: a resolver of one value. -/
def constant (value : V) : ρ → V := fun _ => value

/-- `provider_keys`: no provider has no keys, and an untyped one says none. -/
def providerKeys : Option Provider → Option ProviderKeys
  | none => some ⟨[], []⟩
  | some provider => provider.keys

section
variable (spec : ServiceSpec) (route : Option (Dict String V)) (seeds : PoolSeeds ρ V)

/-- `hidden_lookup_captures`. `route` is `none` where `view.kwargs` is no dict. -/
def hiddenLookupCaptures : List String :=
  match route, spec.lookup with
  | some route, some lookup =>
    match lookup.selector, providerKeys lookup.kwargs with
    | some selector, some keys =>
      selector.hiddenInputKeys.filter fun name =>
        name ∉ seeds.reserved ∧ name ∉ keys.filled ∧ name ∉ keys.declinable ∧ name ∈ route
    | _, _ => []
  | _, _ => []

/-- One name of the loop, over the values so far and `extra_kwargs`: the author's value, popped, or the
capture. -/
def seedName (captured : Dict String V) (state : Dict String (ρ → V) × Dict String V) (name : String) :
    Option (Dict String (ρ → V) × Dict String V) :=
  match state.2.get? name with
  | some value => some (state.1.set name (constant value), state.2.without [name])
  | none => (captured.get? name).map fun value => (state.1.set name (constant value), state.2)

/-- `_hidden_lookup_seeds`, over the names the service declares as parameters: the seeds, and what is left
of `extra_kwargs`. `none`: `KeyError`. -/
def hiddenLookupSeeds (extend : PoolSeeds ρ V → Dict String (ρ → V) → PoolSeeds ρ V)
    (declared : List String) (extraKwargs : Dict String V) :
    Option (PoolSeeds ρ V × Dict String V) :=
  let hidden := (hiddenLookupCaptures spec route seeds).filter (· ∉ declared)
  if hidden.isEmpty then some (seeds, extraKwargs)
  else do
    let (added, left) ← (hidden.mergeSort (· ≤ ·)).foldlM (seedName (route.getD .empty))
      (.empty, extraKwargs)
    return (extend seeds added, left)

end

/-- `PoolSeeds.extend` registers resolvers of names no seed occupies, beside those there are. -/
def Extends (extend : PoolSeeds ρ V → Dict String (ρ → V) → PoolSeeds ρ V) : Prop :=
  ∀ seeds added, (∀ name ∈ added, name ∉ seeds.reserved) →
    ∀ name, (extend seeds added).seeds.get? name = (added.get? name).or (seeds.seeds.get? name)

/-- A provider may answer a name: it says so, or says nothing. -/
def MayAnswer (provider : Provider) (name : String) : Prop :=
  ∀ keys, provider.keys = some keys → name ∈ keys.filled ∨ name ∈ keys.declinable

/-- A name the lookup hides, marked by its selector or `view`, and the route captures, which no seed
occupies, the lookup's own provider cannot answer and the service does not declare. -/
structure Seeded (spec : ServiceSpec) (route : Option (Dict String V)) (seeds : PoolSeeds ρ V)
    (declared : List String) (name : String) : Prop where
  hides : ∃ lookup selector, spec.lookup = some lookup ∧ lookup.selector = some selector ∧
    (selector.Withholds name ∨ name = "view") ∧
    ∀ provider, lookup.kwargs = some provider → ¬ MayAnswer provider name
  captured : ∃ captured, route = some captured ∧ name ∈ captured
  free : name ∉ seeds.reserved
  undeclared : name ∉ declared

namespace PoolSeeds

/-- What the kernel hands a callable under a registered name. -/
def resolve (seeds : PoolSeeds ρ V) (pool : ρ) (name : String) : Option V :=
  (seeds.seeds.get? name).map (· pool)

end PoolSeeds

/-- Each hidden name a route captures has one seed, the author's value or its own capture; the author's
values seeded leave `extra_kwargs`, and nothing else changes. -/
structure SeededOnce (spec : ServiceSpec) (route : Option (Dict String V)) (seeds : PoolSeeds ρ V)
    (declared : List String) (extraKwargs : Dict String V) (last : PoolSeeds ρ V) (left : Dict String V) :
    Prop where
  names : ∀ name, name ∈ last.seeds ↔ name ∈ seeds.seeds ∨ Seeded spec route seeds declared name
  added : ∀ name, Seeded spec route seeds declared name → name ∉ seeds.seeds
  authored : ∀ name value, Seeded spec route seeds declared name → extraKwargs.get? name = some value →
    ∀ pool, last.resolve pool name = some value
  captured : ∀ name, Seeded spec route seeds declared name → name ∉ extraKwargs →
    ∀ pool, last.resolve pool name = route.bind (·.get? name)
  kept : ∀ name ∈ seeds.seeds, ∀ pool, last.resolve pool name = seeds.resolve pool name
  left : ∀ name value, left.get? name = some value ↔
    extraKwargs.get? name = some value ∧ ¬ Seeded spec route seeds declared name

/-! ## The names -/

/-- A name is neither filled nor declined where the provider may not answer it. -/
theorem providerKeys_iff {kwargs : Option Provider} {name : String} :
    (∃ keys, providerKeys kwargs = some keys ∧ name ∉ keys.filled ∧ name ∉ keys.declinable) ↔
      ∀ provider, kwargs = some provider → ¬ MayAnswer provider name := by
  cases kwargs with
  | none => exact ⟨fun _ _ h => (Option.some_ne_none _ h.symm).elim,
      fun _ => ⟨_, rfl, List.not_mem_nil, List.not_mem_nil⟩⟩
  | some provider =>
    constructor
    · rintro ⟨keys, hkeys, hfilled, hdeclinable⟩ _ hprovider hmay
      cases hprovider
      exact (hmay keys hkeys).elim hfilled hdeclinable
    · intro h
      obtain ⟨keys, hkeys⟩ := not_forall.1 (h provider rfl)
      obtain ⟨hkeys, hno⟩ := Classical.not_imp.1 hkeys
      exact ⟨keys, hkeys, fun hmem => hno (.inl hmem), fun hmem => hno (.inr hmem)⟩

section
variable {spec : ServiceSpec} {route : Option (Dict String V)} {seeds : PoolSeeds ρ V}

/-- No name is captured twice. -/
theorem nodup_hiddenLookupCaptures : (hiddenLookupCaptures spec route seeds).Nodup := by
  unfold hiddenLookupCaptures
  split
  · split
    · exact (List.nodup_dedup _).filter _
    · exact .nil
  · exact .nil

/-- The names set aside are those the claim of a seed is made for. -/
theorem mem_hiddenLookupCaptures {declared : List String} {name : String} :
    name ∈ (hiddenLookupCaptures spec route seeds).filter (· ∉ declared) ↔
      Seeded spec route seeds declared name := by
  rw [List.mem_filter, decide_eq_true_iff]
  constructor
  · rintro ⟨hmem, hundeclared⟩
    unfold hiddenLookupCaptures at hmem
    split at hmem
    case h_1 captured lookup hlookup =>
      split at hmem
      case h_1 selector keys hselector hkeys =>
        obtain ⟨hhides, hname⟩ := List.mem_filter.1 hmem
        obtain ⟨hfree, hfilled, hdeclinable, hcaptured⟩ := of_decide_eq_true hname
        exact ⟨⟨lookup, selector, hlookup, hselector, Callable.mem_hiddenInputKeys.1 hhides,
          providerKeys_iff.1 ⟨keys, hkeys, hfilled, hdeclinable⟩⟩, ⟨captured, rfl, hcaptured⟩, hfree,
          hundeclared⟩
      case h_2 => cases hmem
    case h_2 => cases hmem
  · rintro ⟨⟨lookup, selector, hlookup, hselector, hhides, hprovider⟩, ⟨captured, rfl, hcaptured⟩, hfree,
      hundeclared⟩
    obtain ⟨keys, hkeys, hfilled, hdeclinable⟩ := providerKeys_iff.2 hprovider
    refine ⟨?_, hundeclared⟩
    simp only [hiddenLookupCaptures, hlookup, hselector, hkeys]
    exact List.mem_filter.2 ⟨Callable.mem_hiddenInputKeys.2 hhides,
      decide_eq_true ⟨hfree, hfilled, hdeclinable, hcaptured⟩⟩

end

/-! ## The loop -/

/-- One name seeded: the author's value, or the capture, and no other name changes. -/
theorem get?_seedName {captured : Dict String V} {name : String} (h : name ∈ captured)
    (state : Dict String (ρ → V) × Dict String V) :
    ∃ next, seedName captured state name = some next ∧
      (∀ n, next.1.get? n = if n = name then
        ((state.2.get? name).or (captured.get? name)).map constant else state.1.get? n) ∧
      ∀ n, next.2.get? n = if n = name then none else state.2.get? n := by
  unfold seedName
  cases hvalue : state.2.get? name with
  | some value =>
    refine ⟨_, rfl, fun n => Dict.get?_set .., fun n => ?_⟩
    rw [Dict.get?_without]
    simp only [List.mem_singleton]
  | none =>
    obtain ⟨value, hcapture⟩ := Option.isSome_iff_exists.1 (Dict.mem_iff_isSome.1 h)
    rw [hcapture]
    refine ⟨_, rfl, fun n => Dict.get?_set .., fun n => ?_⟩
    split
    · next hn => rw [hn, hvalue]
    · rfl

/-- The loop gives each name the author's value or its own capture, and takes the author's values out. -/
theorem foldlM_seedName {captured : Dict String V} : ∀ {names : List String}, names.Nodup →
    (∀ n ∈ names, n ∈ captured) → ∀ state : Dict String (ρ → V) × Dict String V,
      ∃ last, names.foldlM (seedName captured) state = some last ∧
        (∀ n, last.1.get? n = if n ∈ names then
          ((state.2.get? n).or (captured.get? n)).map constant else state.1.get? n) ∧
        ∀ n, last.2.get? n = if n ∈ names then none else state.2.get? n
  | [], _, _, state => ⟨state, rfl, fun _ => rfl, fun _ => rfl⟩
  | name :: names, hnodup, hcaptured, state => by
    obtain ⟨hname, hnodup⟩ := List.nodup_cons.1 hnodup
    obtain ⟨next, hnext, hadded, hleft⟩ := get?_seedName (hcaptured name List.mem_cons_self) state
    obtain ⟨last, hlast, hadded', hleft'⟩ := foldlM_seedName hnodup
      (fun n hn => hcaptured n (List.mem_cons_of_mem name hn)) next
    refine ⟨last, ?_, fun n => ?_, fun n => ?_⟩
    · rw [List.foldlM_cons, hnext]
      exact hlast
    · rw [hadded', hadded, hleft]
      by_cases hn : n = name
      · subst hn
        rw [if_neg hname, if_pos rfl, if_pos List.mem_cons_self]
      · simp only [hn, List.mem_cons, false_or, if_false]
    · rw [hleft', hleft]
      by_cases hn : n = name
      · subst hn
        rw [if_neg hname, if_pos rfl, if_pos List.mem_cons_self]
      · simp only [hn, List.mem_cons, false_or, if_false]

section
variable {extend : PoolSeeds ρ V → Dict String (ρ → V) → PoolSeeds ρ V} (hextend : Extends extend)
  (spec : ServiceSpec) (route : Option (Dict String V)) (seeds : PoolSeeds ρ V) (declared : List String)
  (extraKwargs : Dict String V)
include hextend

/-- The seeds and what is left of `extra_kwargs`, name by name. -/
theorem get?_hiddenLookupSeeds : ∃ last left,
    hiddenLookupSeeds spec route seeds extend declared extraKwargs = some (last, left) ∧
      (∀ name, last.seeds.get? name =
        if name ∈ (hiddenLookupCaptures spec route seeds).filter (· ∉ declared) then
          ((extraKwargs.get? name).or (route.bind (·.get? name))).map constant
        else seeds.seeds.get? name) ∧
      ∀ name, left.get? name =
        if name ∈ (hiddenLookupCaptures spec route seeds).filter (· ∉ declared) then none
        else extraKwargs.get? name := by
  generalize hhidden : (hiddenLookupCaptures spec route seeds).filter (· ∉ declared) = hidden
  have hseeded : ∀ name ∈ hidden, Seeded spec route seeds declared name := fun name hname =>
    mem_hiddenLookupCaptures.1 (hhidden ▸ hname)
  unfold hiddenLookupSeeds
  rw [hhidden]
  dsimp only
  split
  · next hempty =>
    rw [List.isEmpty_iff.1 hempty]
    exact ⟨seeds, extraKwargs, rfl, fun _ => rfl, fun _ => rfl⟩
  · have hperm := List.mergeSort_perm hidden (· ≤ ·)
    have hnodup : (hidden.mergeSort (· ≤ ·)).Nodup := by
      rw [hperm.nodup_iff, ← hhidden]
      exact nodup_hiddenLookupCaptures.filter _
    have hcaptured : ∀ name ∈ hidden.mergeSort (· ≤ ·), name ∈ route.getD .empty := fun name hname => by
      obtain ⟨captured, rfl, hcapture⟩ := (hseeded name (hperm.mem_iff.1 hname)).captured
      exact hcapture
    obtain ⟨⟨added, left⟩, hlast, hadded, hleft⟩ := foldlM_seedName hnodup hcaptured
      ((.empty, extraKwargs) : Dict String (ρ → V) × Dict String V)
    have hfree : ∀ name ∈ added, name ∉ seeds.reserved := fun name hname => by
      rw [Dict.mem_iff_isSome, hadded] at hname
      split at hname
      · next hmem => exact (hseeded name (hperm.mem_iff.1 hmem)).free
      · cases hname
    refine ⟨extend seeds added, left, ?_, fun name => ?_, fun name => ?_⟩
    · rw [hlast]
      rfl
    · rw [hextend seeds added hfree, hadded]
      by_cases hname : name ∈ hidden
      · obtain ⟨captured, rfl, hcapture⟩ := (hseeded name hname).captured
        obtain ⟨value, hvalue⟩ := Option.isSome_iff_exists.1 (Dict.mem_iff_isSome.1 hcapture)
        rw [if_pos (hperm.mem_iff.2 hname), if_pos hname, Option.bind_some, Option.getD_some, hvalue]
        cases extraKwargs.get? name <;> rfl
      · rw [if_neg (mt hperm.mem_iff.1 hname), if_neg hname]
        rfl
    · rw [hleft]
      simp only [hperm.mem_iff]

/-- **Each name a target lookup hides and its route captures has exactly one value in a call.** -/
theorem hiddenLookupSeeds_eq : ∃ last left,
    hiddenLookupSeeds spec route seeds extend declared extraKwargs = some (last, left) ∧
      SeededOnce spec route seeds declared extraKwargs last left := by
  obtain ⟨last, left, heq, hlast, hleft⟩ := get?_hiddenLookupSeeds hextend spec route seeds declared
    extraKwargs
  have hfresh : ∀ name, Seeded spec route seeds declared name → name ∉ seeds.seeds := fun name h hmem =>
    h.free (seeds.names_reserved name hmem)
  have hvalue : ∀ name, Seeded spec route seeds declared name →
      ∃ captured, route = some captured ∧ ∃ value, captured.get? name = some value := fun name h => by
    obtain ⟨captured, hroute, hcapture⟩ := h.captured
    exact ⟨captured, hroute, Option.isSome_iff_exists.1 (Dict.mem_iff_isSome.1 hcapture)⟩
  refine ⟨last, left, heq, ?_, hfresh, fun name value h hauthor pool => ?_, fun name h hno pool => ?_,
    fun name hmem pool => ?_, fun name value => ?_⟩
  · intro name
    rw [Dict.mem_iff_isSome, hlast, Dict.mem_iff_isSome]
    by_cases h : Seeded spec route seeds declared name
    · obtain ⟨captured, rfl, value, hvalue⟩ := hvalue name h
      rw [if_pos (mem_hiddenLookupCaptures.2 h), Option.bind_some, hvalue]
      cases extraKwargs.get? name <;> simp [h]
    · rw [if_neg (mt mem_hiddenLookupCaptures.1 h)]
      simp [h]
  · rw [PoolSeeds.resolve, hlast, if_pos (mem_hiddenLookupCaptures.2 h), hauthor]
    rfl
  · rw [PoolSeeds.resolve, hlast, if_pos (mem_hiddenLookupCaptures.2 h), Dict.get?_eq_none.2 hno,
      Option.none_or, Option.map_map]
    exact Option.map_id' ..
  · rw [PoolSeeds.resolve, hlast,
      if_neg fun h => hfresh name (mem_hiddenLookupCaptures.1 h) hmem]
    rfl
  · rw [hleft]
    by_cases h : Seeded spec route seeds declared name
    · rw [if_pos (mem_hiddenLookupCaptures.2 h)]
      simp [h]
    · rw [if_neg (mt mem_hiddenLookupCaptures.1 h)]
      simp [h]

end

/-- A call's seeds and what is left of its extras (`finish`) are the loop's, over the names its site seeds. -/
theorem foldlM_seedName_call {site : Site} (call : Call site V) (routed : Routed V) {names : List String}
    (hnodup : names.Nodup) (hnames : ∀ n, n ∈ names ↔ n ∈ call.route ∧ n ∈ site.seeded) :
    ∃ last : Dict String (ρ → Answer V) × Dict String (Answer V),
      names.foldlM (seedName (call.route.mapValues .given)) (.empty, routed.extras) = some last ∧
        Dict.Same last.1 ((RestFrameworkServices.hiddenLookupSeeds call routed).mapValues constant) ∧
        Dict.Same last.2
          (routed.extras.filter fun n _ => n ∉ RestFrameworkServices.hiddenLookupSeeds call routed) := by
  have hcaptured : ∀ n ∈ names, n ∈ call.route.mapValues Answer.given := fun n hn => by
    rw [Dict.mem_iff_isSome, Dict.get?_mapValues, Option.isSome_map, ← Dict.mem_iff_isSome]
    exact ((hnames n).1 hn).1
  obtain ⟨last, hlast, hadded, hleft⟩ := foldlM_seedName hnodup hcaptured
    ((.empty, routed.extras) : Dict String (ρ → Answer V) × Dict String (Answer V))
  have hseeds (n : String) : n ∈ RestFrameworkServices.hiddenLookupSeeds call routed ↔ n ∈ names :=
    (mem_hiddenLookupSeeds call routed).trans (hnames n).symm
  refine ⟨last, hlast, fun n => ?_, fun n => ?_⟩
  · rw [hadded, Dict.get?_mapValues, Dict.get?_mapValues]
    by_cases hn : n ∈ names
    · obtain ⟨hroute, hseeded⟩ := (hnames n).1 hn
      obtain ⟨value, hvalue⟩ := Option.isSome_iff_exists.1 (Dict.mem_iff_isSome.1 hroute)
      rw [if_pos hn, RestFrameworkServices.hiddenLookupSeeds, Dict.get?_filterMap, hvalue, Option.bind_some,
        if_pos hseeded]
      cases routed.extras.get? n <;> rfl
    · rw [if_neg hn, Dict.get?_eq_none.2 (mt (hseeds n).1 hn)]
      rfl
  · rw [hleft, Dict.get?_filter]
    by_cases hn : n ∈ names
    · rw [if_pos hn]
      cases routed.extras.get? n <;> simp [hseeds, hn]
    · rw [if_neg hn]
      cases routed.extras.get? n <;> simp [Option.filter, hseeds, hn]

/-- A lookup of a project's tasks, which hides the project. -/
def tasksLookup : ServiceSpec where
  service := ⟨[], false⟩
  preconditions := []
  reads := []
  kwargs := none
  inputData := none
  lookup := some {
    role := .instanceRow
    selector := some ⟨[⟨"project", .keywordOnly, none, ⟨"integer", false, none, false, true⟩, none⟩], false⟩
    reads := []
    kwargs := none
    filterSet := [] }
  inputSerializer := false

/-- The kernel's seeds, beside `user`. -/
def userSeeds : PoolSeeds Unit Nat where
  seeds := .ofList [("user", fun _ => 1)]
  reserved := ["user", "view"]
  names_reserved := by decide

/-- Registers every seed it is given. -/
def extendAll (seeds : PoolSeeds ρ V) (added : Dict String (ρ → V)) : PoolSeeds ρ V where
  seeds := seeds.seeds.update added
  reserved := seeds.reserved ++ added.keys
  names_reserved name h := by
    rw [Dict.mem_iff_isSome, Dict.get?_update] at h
    rw [List.mem_append]
    by_cases hadded : name ∈ added
    · exact .inr hadded
    · rw [Dict.get?_eq_none.2 hadded, Option.none_or] at h
      exact .inl (seeds.names_reserved name (Dict.mem_iff_isSome.2 h))

/-- The project is seeded from the route, once. -/
theorem hiddenLookupSeeds_eq_tasksLookup : ∃ last left,
    hiddenLookupSeeds tasksLookup (some (.ofList [("project", 7)])) userSeeds extendAll []
        (.ofList [("actor", 2)]) = some (last, left) ∧
      SeededOnce tasksLookup (some (.ofList [("project", 7)])) userSeeds [] (.ofList [("actor", 2)])
        last left ∧
      last.resolve () "project" = some 7 := by
  have hextend : Extends (extendAll : PoolSeeds Unit Nat → Dict String (Unit → Nat) → PoolSeeds Unit Nat) :=
    fun _ _ _ _ => Dict.get?_update ..
  obtain ⟨last, left, heq, honce⟩ := hiddenLookupSeeds_eq hextend
    tasksLookup (some (.ofList [("project", 7)])) userSeeds [] (.ofList [("actor", 2)])
  refine ⟨last, left, heq, honce, ?_⟩
  have hseeded : Seeded tasksLookup (some (.ofList [("project", 7)])) userSeeds [] "project" :=
    ⟨⟨_, _, rfl, rfl, .inl ⟨_, .head _, .inl ⟨rfl, rfl, rfl⟩⟩, fun _ h => by cases h⟩,
      ⟨_, rfl, by decide⟩, by decide, List.not_mem_nil⟩
  rw [honce.captured "project" hseeded (by decide)]
  rfl

end RestFrameworkServices.LookupSeeds
