import RestFrameworkServices.Dispatch.AuthorValues
import Mathlib.Logic.Nontrivial.Basic

/-!
# The precedence of author values

`Upholds` states the precedence of a call's layers as what its delivery does not depend on: a key a
layer declines with `UNSET` is as one not answered, and no `UNSET` is delivered; a key the provider
owns takes neither the hook's value nor the caller's; the hook's value of a key the provider answers
is delivered nowhere.

The arguments and the extras keep it, since a split drops what a layer declines. The filter's
channels do not: they take a declined key with its `UNSET`, and the caller's values under the
filter's names and a target lookup's reads are taken before the provider's own are set aside.
`upholds_iff` gives the exact condition (`Settled`).
-/

namespace RestFrameworkServices

open Lib

universe u

variable {V : Type u} {site : Site}

namespace Call

variable (call : Call site V)

/-- The call of a provider that does not answer what it declines. -/
def providerDeclines : Call site V :=
  { call with
    provided := answered call.provided
    unreserved := fun n h => call.unreserved n (mem_of_mem_answered h) }

/-- The call of a hook that does not answer what it declines. -/
def hookDeclines : Call site V := { call with hook := answered call.hook }

/-- The call of a target lookup whose provider does not answer what it declines. -/
def lookupDeclines : Call site V := { call with recorded := answered call.recorded }

/-- The call whose hook does not answer a key. -/
def unhooked (k : String) : Call site V := { call with hook := call.hook.without [k] }

/-- The call whose caller does not send a key. -/
def unsent (k : String) : Call site V :=
  { call with
    arguments := call.arguments.without [k]
    sent := call.sent.without [k]
    params := call.params.map (·.without [k]) }

/-- The call whose hook answers another value. -/
def hooking (k : String) (v : V) : Call site V := { call with hook := call.hook.set k (.given v) }

/-- The caller's value of a name reaches the callables beside the filter. -/
def Exposed (k : String) : Prop :=
  k ∈ site.filterNames ∧ k ∉ site.hidden ∧ k ∉ call.route ∧ k ∈ call.sent

end Call

/-- No key of a mapping is declined. -/
def AllSet (values : Dict String (Answer V)) : Prop := ∀ n, values.get? n ≠ some .unset

/-- No `UNSET` is delivered. -/
structure Delivered.Clean (d : Delivered V) : Prop where
  overlay : AllSet d.overlay
  seated : AllSet d.seated
  seeds : AllSet d.seeds
  beside : AllSet d.beside
  server : AllSet d.server

/-- The precedence of a call's layers. A field of the Validator keeps the caller's value for an
owned key as its argument, which the Validator hands on in `data` alone. -/
structure Upholds (call : Call site V) : Prop where
  clean : (deliver call).Clean
  provider : (deliver call.providerDeclines).Same [] (deliver call)
  hook : (deliver call.hookDeclines).Same [] (deliver call)
  lookup : (deliver call.lookupDeclines).Same [] (deliver call)
  owned_hook : ∀ k ∈ site.owned, (deliver (call.unhooked k)).Same [] (deliver call)
  owned_caller : ∀ k ∈ site.owned,
    (deliver (call.unsent k)).Same ([k].filter (· ∈ site.fields)) (deliver call)
  outranks : ∀ k v w, call.hook.get? k = some (.given w) → (setAt call.provided k).isSome →
    (deliver (call.hooking k v)).Same [] (deliver call)

/-- Exactly when they do. Under a selector spec's filter no name is declined, by the provider or by
the hook it is left to; under a target lookup's none is by the lookup's own provider. An owned key
whose caller's value would reach the callables beside a filter, or as a lookup's read, is answered.
And where the hook names a field both by its `source` and by its wire name, a provider naming it by
the `source` names it by the wire name too. -/
structure Settled (call : Call site V) : Prop where
  provider : site.kind = .selector → ∀ n ∈ site.filterNames, call.provided.get? n ≠ some .unset
  hook : site.kind = .selector → ∀ n ∈ site.filterNames, n ∉ call.provided → site.Heard n →
    call.hook.get? n ≠ some .unset
  lookup : site.kind = .single → ∀ n ∈ site.filterNames, n ∉ site.hidden →
    call.recorded.get? n ≠ some .unset
  owned_selector : site.kind = .selector → ∀ k ∈ site.owned, call.Exposed k → k ∈ call.provided
  owned_single : site.kind = .single → ∀ k ∈ site.owned, call.Exposed k → k ∉ call.recorded →
    k ∈ site.names ∧ ((setAt call.provided k).isSome ∨
      ∃ s, site.wire.map.get? s = some k ∧ s ∉ site.names ∧ (setAt call.provided s).isSome)
  owned_read : site.kind = .single → ∀ k ∈ site.owned, k ∈ site.lookupKeys →
    (∃ params, call.params = some params ∧ k ∈ params) → (setAt call.provided k).isSome
  renamed : ∀ k a, site.wire.map.get? k = some a → k ∉ site.names → a ∈ site.names →
    site.Heard k → site.Heard a → (setAt call.hook k).isSome → (setAt call.hook a).isSome →
    (setAt call.provided k).isSome → (setAt call.provided a).isSome

/-! ## The filter's names -/

namespace Site

/-- A single call is no selector's. -/
theorem ne_selector (h : site.kind = .single) : site.kind ≠ .selector := by
  rw [h]
  decide

/-- Only a selector spec's filter shadows a name. -/
theorem shadowed_of_kind (h : site.kind ≠ .selector) : site.shadowed = [] := if_neg h

/-- Nor does another call have a name beside a filter. -/
theorem beside_of_kind (h : site.kind ≠ .selector) : site.beside = [] := if_neg h

/-- A name shadowed or beside is one a selector spec's filter reads. -/
theorem kind_of_filtered {n : String} (h : n ∈ site.shadowed ∨ n ∈ site.beside) :
    site.kind = .selector ∧ n ∈ site.filterNames := by
  by_cases hkind : site.kind = .selector
  · refine ⟨hkind, ?_⟩
    rcases h with h | h
    · simp only [shadowed, hkind, if_true, List.mem_filter] at h
      exact h.1
    · simp only [beside, hkind, if_true, List.mem_filter] at h
      exact h.1
  · rw [shadowed_of_kind hkind, beside_of_kind hkind] at h
    rcases h with h | h <;> cases h

/-- A selector spec's filter shadows the names it reads that a callable hides. -/
theorem mem_shadowed (hkind : site.kind = .selector) {n : String} :
    n ∈ site.shadowed ↔ n ∈ site.filterNames ∧ n ∈ site.hidden := by
  simp [shadowed, hkind]

/-- A filter's name is on the server's channel or beside the filter. -/
theorem filtered_of_mem (hkind : site.kind = .selector) {n : String} (h : n ∈ site.filterNames) :
    n ∈ site.shadowed ∨ n ∈ site.beside := by
  by_cases hn : n ∈ site.shadowed
  · exact .inl hn
  · exact .inr (by simp [beside, hkind, h, hn])

/-- A hook is not heard on a key the provider owns. -/
theorem not_heard_of_owned {k : String} (h : k ∈ site.owned) : ¬ site.Heard k :=
  fun hk => hk.2 (List.mem_append_left _ (List.mem_append_left _ h))

end Site

variable {call : Call site V}

/-- Neither layer declines a filter's name, the hook's left to it. -/
theorem Settled.get?_merged_ne (h : Settled call) (hkind : site.kind = .selector) {n : String}
    (hn : n ∈ site.filterNames) : (merged call).get? n ≠ some .unset := by
  intro hm
  rw [get?_merged] at hm
  cases hp : call.provided.get? n with
  | some a =>
    rw [hp, Option.some_or] at hm
    exact h.provider hkind n hn (hp.trans hm)
  | none =>
    rw [hp, Option.none_or] at hm
    split at hm
    · next hheard => exact h.hook hkind n hn (Dict.get?_eq_none.1 hp) hheard hm
    · cases hm

/-! ## What is clean -/

/-- A given value is not `UNSET`. -/
theorem map_given_ne (o : Option V) : o.map Answer.given ≠ some .unset := by
  cases o with
  | none => exact (Option.some_ne_none _).symm
  | some v =>
    intro h
    cases h

namespace AllSet

variable {d e : Dict String (Answer V)}

/-- An empty mapping declines nothing. -/
theorem empty : AllSet (Dict.empty : Dict String (Answer V)) :=
  fun _ => (Option.some_ne_none _).symm

/-- Nor does one of values given. -/
theorem given (d : Dict String V) : AllSet (d.mapValues .given) := by
  intro n
  rw [Dict.get?_mapValues]
  exact map_given_ne _

/-- Nor does one such mapping over another. -/
theorem update (hd : AllSet d) (he : AllSet e) : AllSet (d.update e) := by
  intro n
  rw [Dict.get?_update]
  cases hn : e.get? n with
  | none => exact hd n
  | some a =>
    rw [Option.some_or, ← hn]
    exact he n

/-- Nor does what is kept of one. -/
theorem filter (h : AllSet d) (p : String → Answer V → Bool) : AllSet (d.filter p) := by
  intro n hn
  rw [Dict.get?_filter] at hn
  exact h n (Option.filter_eq_some_iff.1 hn).1

/-- What a filter hands on declines nothing, where none of its names is declined. -/
theorem within {filtered hidden : List String}
    (h : ∀ n ∈ filtered, n ∉ hidden → d.get? n ≠ some .unset) :
    AllSet (Dict.within filtered hidden d) := by
  intro n hn
  have hmem := Dict.mem_within (Dict.mem_iff_isSome.2 (Option.isSome_of_eq_some hn))
  rw [Dict.within, Dict.get?_filter] at hn
  exact h n hmem.1 hmem.2 (Option.filter_eq_some_iff.1 hn).1

end AllSet

/-- What a split leaves declines nothing. -/
theorem allSet_rest (names : List String) (wire : Wire) (values : Dict String (Answer V)) :
    AllSet (split names wire values).rest := by
  intro n
  rw [get?_rest]
  split
  · exact (Option.some_ne_none _).symm
  · exact map_given_ne _

/-- The caller's values beside a filter decline nothing. -/
theorem allSet_besideFilter : AllSet (besideFilter call).values := by
  intro n
  rw [get?_besideFilter]
  split
  · exact map_given_ne _
  · exact (Option.some_ne_none _).symm

/-- The server's channel holds no `UNSET` unless a layer declines a name the filter shadows. -/
theorem Settled.allSet_channelled (h : Settled call) : AllSet (channelledValues call) := by
  intro n
  by_cases hex : ∃ k, serverChannel k = n
  · obtain ⟨k, rfl⟩ := hex
    rw [get?_channelledValues]
    split
    · next hk =>
      obtain ⟨hkind, hfilter⟩ := Site.kind_of_filtered (.inl hk)
      exact h.get?_merged_ne hkind hfilter
    · exact (Option.some_ne_none _).symm
  · have hno : ∀ k, serverChannel k ≠ n := fun k hk => hex ⟨k, hk⟩
    rw [channelledValues, Dict.get?_mapKeys_of_none hno]
    exact (Option.some_ne_none _).symm

/-- The extras of a settled call decline nothing. -/
theorem Settled.allSet_extras (h : Settled call) : AllSet (routeAuthorValues call).extras :=
  ((allSet_rest _ _ _).update (allSet_rest _ _ _)).update h.allSet_channelled

/-- Nor do its values beside the filter. -/
theorem Settled.allSet_beside (h : Settled call) : AllSet (routeAuthorValues call).beside := by
  intro n
  rw [get?_beside]
  split
  · next hn =>
    obtain ⟨hkind, hfilter⟩ := Site.kind_of_filtered (.inr hn)
    exact h.get?_merged_ne hkind hfilter
  · exact (Option.some_ne_none _).symm

/-- Nor do the seeds of its lookup. -/
theorem Settled.allSet_seeds (h : Settled call) :
    AllSet (hiddenLookupSeeds call (routeAuthorValues call)) := by
  intro n hn
  rw [hiddenLookupSeeds, Dict.get?_filterMap] at hn
  obtain ⟨captured, -, hseed⟩ := Option.bind_eq_some_iff.1 hn
  split at hseed
  · cases he : (routeAuthorValues call).extras.get? n with
    | none =>
      rw [he] at hseed
      cases hseed
    | some a =>
      rw [he] at hseed
      exact h.allSet_extras n (he.trans hseed)
  · cases hseed

/-- Where no layer declines a name of a filter, no `UNSET` is delivered. -/
theorem Settled.clean (h : Settled call) : (deliver call).Clean := by
  unfold deliver finish
  split
  · exact {
      overlay := h.allSet_extras
      seated := .empty
      seeds := .empty
      beside := allSet_besideFilter.update (.within fun n _ _ => h.allSet_beside n)
      server := .empty }
  · exact {
      overlay := h.allSet_extras
      seated := .empty
      seeds := .empty
      beside := .empty
      server := .empty }
  · next hkind =>
    exact {
      overlay := (h.allSet_extras.filter _).filter _
      seated := ((h.allSet_extras.filter _).filter _).update (.given _)
      seeds := h.allSet_seeds
      beside := (allSet_besideFilter.update (.within fun n _ _ => AllSet.given _ n)).update
        (.within fun n hn hhidden => h.lookup hkind n hn hhidden)
      server := .given _ }

/-! ## What a delivery does not depend on -/

/-- A key not declined keeps its value. -/
theorem get?_answered_of_ne {values : Dict String (Answer V)} {n : String}
    (h : values.get? n ≠ some .unset) : (answered values).get? n = values.get? n := by
  rw [get?_answered, setAt]
  cases hv : values.get? n with
  | none => rfl
  | some a =>
    cases a with
    | unset => exact absurd hv h
    | given v => rfl

/-- What is given under a key depends on that key alone. -/
theorem setAt_congr {values values' : Dict String (Answer V)} {n : String}
    (h : values'.get? n = values.get? n) : setAt values' n = setAt values n := by
  rw [setAt, setAt, h]

/-- A settled call delivers the same, whether or not the provider answers what it declines. -/
theorem Settled.provider_same (h : Settled call) :
    (deliver call.providerDeclines).Same [] (deliver call) := by
  have hmerged : site.kind = .selector → ∀ n ∈ site.filterNames,
      (merged call.providerDeclines).get? n = (merged call).get? n := by
    intro hkind n hn
    rw [get?_merged, get?_merged]
    congr 1
    exact get?_answered_of_ne (h.provider hkind n hn)
  refine deliver_congr_layers rfl rfl rfl rfl (routeAuthorValues_congr rfl (fun _ => rfl) ?_ ?_)
    fun hkind n hn _ => hmerged hkind n hn
  · intro n
    rw [setAt_providedLayer, setAt_providedLayer]
    simp only [Call.providerDeclines, setAt_answered]
  · intro n hn
    obtain ⟨hkind, hfilter⟩ := Site.kind_of_filtered hn
    exact hmerged hkind n hfilter

/-- So it does of the hook. -/
theorem Settled.hook_same (h : Settled call) :
    (deliver call.hookDeclines).Same [] (deliver call) := by
  have hmerged : site.kind = .selector → ∀ n ∈ site.filterNames,
      (merged call.hookDeclines).get? n = (merged call).get? n := by
    intro hkind n hn
    rw [get?_merged, get?_merged]
    change (call.provided.get? n).or (if site.Heard n then (answered call.hook).get? n else none) = _
    cases hp : call.provided.get? n with
    | some a => rw [Option.some_or, Option.some_or]
    | none =>
      by_cases hheard : site.Heard n
      · rw [if_pos hheard, if_pos hheard,
          get?_answered_of_ne (h.hook hkind n hn (Dict.get?_eq_none.1 hp) hheard)]
      · rw [if_neg hheard, if_neg hheard]
  refine deliver_congr_layers rfl rfl rfl rfl (routeAuthorValues_congr rfl ?_ (fun _ => rfl) ?_)
    fun hkind n hn _ => hmerged hkind n hn
  · intro n
    rw [setAt_hookLayer, setAt_hookLayer]
    simp only [Call.hookDeclines, setAt_answered]
  · intro n hn
    obtain ⟨hkind, hfilter⟩ := Site.kind_of_filtered hn
    exact hmerged hkind n hfilter

/-- So it does of its lookup's own provider. -/
theorem Settled.lookup_same (h : Settled call) :
    (deliver call.lookupDeclines).Same [] (deliver call) := by
  refine deliver_congr rfl (fun _ _ => rfl) (.refl _) (.refl _) (fun _ _ => rfl)
    (fun _ _ _ _ => rfl) fun n => ?_
  cases hkind : site.kind with
  | selector => rw [get?_beside_selector _ hkind, get?_beside_selector _ hkind]; rfl
  | many => simp only [deliver, finish, hkind]
  | single =>
    rw [get?_beside_single _ hkind, get?_beside_single _ hkind]
    split
    · next hn =>
      congr 1
      exact get?_answered_of_ne (h.lookup hkind n hn.1 hn.2)
    · rfl

/-- The hook's value for a key the provider owns is not heard. -/
theorem unhooked_same {k : String} (hk : k ∈ site.owned) :
    (deliver (call.unhooked k)).Same [] (deliver call) := by
  have hvalues : Dict.Same (hookValues (call.unhooked k)) (hookValues call) := by
    intro n
    rw [get?_hookValues, get?_hookValues]
    split
    · next hheard =>
      have hn : n ∉ [k] := by
        rintro hn
        rw [List.mem_singleton.1 hn] at hheard
        exact Site.not_heard_of_owned hk hheard
      exact (Dict.get?_without call.hook [k] n).trans (if_neg hn)
    · rfl
  have hmerged : Dict.Same (merged (call.unhooked k)) (merged call) := hvalues.update (.refl _)
  refine deliver_congr_layers rfl rfl rfl rfl
    (routeAuthorValues_congr rfl ?_ (fun _ => rfl) fun n _ => hmerged n) fun _ n _ _ => hmerged n
  intro n
  exact setAt_congr ((hvalues.filter fun _ _ => rfl) n)

/-- Only the provider's value goes into an argument of a key it owns. -/
theorem mem_authored_of_owned {k : String} (hkind : site.kind = .single) (hk : k ∈ site.owned) :
    k ∈ (routeAuthorValues call).authored ↔ k ∈ site.names ∧ ((setAt call.provided k).isSome ∨
      ∃ s, site.wire.map.get? s = some k ∧ s ∉ site.names ∧ (setAt call.provided s).isSome) := by
  have hprovided : ∀ n, setAt (providedLayer call) n = setAt call.provided n := by
    intro n
    rw [setAt_providedLayer, Site.shadowed_of_kind (Site.ne_selector hkind), if_pos List.not_mem_nil]
  have hhook : ∀ n, ¬ site.Heard n → setAt (hookLayer call) n = none := by
    intro n hn
    rw [setAt_hookLayer, if_neg fun h => hn h.1]
  have hsource : ∀ s, site.wire.map.get? s = some k → ¬ site.Heard s := by
    intro s hs hheard
    refine hheard.2 (List.mem_append_right _ ?_)
    rw [List.mem_map]
    exact ⟨(s, k), by simpa [hk] using Dict.get?_eq_some.1 hs, rfl⟩
  have hnone : ¬ (authoredAt site.names site.wire (hookLayer call) k).isSome := by
    rw [isSome_authoredAt_iff, hhook k (Site.not_heard_of_owned hk)]
    rintro ⟨-, h | ⟨s, hs, -, hset⟩⟩
    · cases h
    · rw [hhook s (hsource s hs)] at hset
      cases hset
  rw [Dict.mem_iff_isSome, get?_authored_routing, Option.isSome_or, Bool.or_eq_true,
    or_iff_left hnone, isSome_authoredAt_iff]
  simp only [hprovided]

/-! ### A key the caller does not send -/

/-- An author's argument does not change with what the caller sends. -/
theorem get?_unsent_arguments {k n : String} (hn : n ∈ (routeAuthorValues call).authored) :
    (routeAuthorValues (call.unsent k)).arguments.get? n =
      (routeAuthorValues call).arguments.get? n := by
  rw [get?_arguments_of_authored call hn]
  exact get?_arguments_of_authored (call.unsent k) hn

/-- A key the provider owns is no argument of the caller's, unless it is the Validator's. -/
theorem get?_unsent_arguments_of_owned {k n : String} (hk : k ∈ site.owned)
    (hn : n ∉ [k].filter (· ∈ site.fields)) :
    (routeAuthorValues (call.unsent k)).arguments.get? n =
      (routeAuthorValues call).arguments.get? n := by
  have hbase : (if n ∈ site.owned ∧ n ∉ site.fields then none
      else (call.arguments.without [k]).get? n) =
      if n ∈ site.owned ∧ n ∉ site.fields then none else call.arguments.get? n := by
    by_cases hnk : n = k
    · subst hnk
      have hfield : n ∉ site.fields := fun hmem => hn (by simpa using hmem)
      rw [if_pos ⟨hk, hfield⟩, if_pos ⟨hk, hfield⟩]
    · rw [Dict.get?_without_of_ne hnk]
  rw [get?_arguments, get?_arguments]
  exact congrArg (fun base => (routedAt site.names site.wire (providedLayer call) n).or
    ((routedAt site.names site.wire (hookLayer call) n).or base)) hbase

/-- What is handed beside a filter is as sent, but for an exposed value of the key. -/
theorem get?_unsent_beside {k n : String} (hn : n ∈ site.filterNames ∧ n ∉ site.hidden)
    (h : ¬ (call.Exposed k ∧ n = k)) :
    ((call.unsent k).route.get? n).or ((call.unsent k).sent.get? n) =
      (call.route.get? n).or (call.sent.get? n) := by
  change (call.route.get? n).or ((call.sent.without [k]).get? n) = _
  by_cases hnk : n = k
  · subst hnk
    cases hroute : call.route.get? n with
    | some v => rw [Option.some_or, Option.some_or]
    | none =>
      have hno : n ∉ call.sent := fun hmem =>
        h ⟨⟨hn.1, hn.2, Dict.get?_eq_none.1 hroute, hmem⟩, rfl⟩
      rw [Dict.get?_without, Dict.get?_eq_none.2 hno, ite_self]
  · rw [Dict.get?_without_of_ne hnk]

/-- A lookup's read no author gives is the same, whether or not the caller of a settled call sends an
owned key. -/
theorem Settled.unsent_read (h : Settled call) (hkind : site.kind = .single) {k n : String}
    (hk : k ∈ site.owned) (hn : n ∈ site.lookupKeys)
    (hauthored : n ∉ (routeAuthorValues call).authored) :
    ((call.unsent k).params.bind fun params => params.get? n) =
      call.params.bind fun params => params.get? n := by
  cases hparams : call.params with
  | none => simp only [Call.unsent, hparams, Option.map_none, Option.bind_none]
  | some params =>
    simp only [Call.unsent, hparams, Option.map_some, Option.bind_some]
    by_cases hnk : n = k
    · subst hnk
      have hno : n ∉ params := by
        intro hmem
        have hset := h.owned_read hkind n hk hn ⟨params, hparams, hmem⟩
        have hnames : n ∈ site.names := List.mem_append_left _ (site.lookupKeys_reads n hn)
        exact hauthored ((mem_authored_of_owned hkind hk).2 ⟨hnames, .inl hset⟩)
      rw [Dict.get?_without, Dict.get?_eq_none.2 hno, ite_self]
    · rw [Dict.get?_without_of_ne hnk]

/-- Beside a selector spec's filter, a settled call hands on the same whether or not the caller sends an
owned key. -/
theorem Settled.unsent_selector (h : Settled call) (hkind : site.kind = .selector) {k : String}
    (hk : k ∈ site.owned) :
    Dict.Same (deliver (call.unsent k)).beside (deliver call).beside := by
  intro n
  rw [get?_beside_selector _ hkind, get?_beside_selector _ hkind]
  split
  · next hn =>
    change ((merged call).get? n).or _ = _
    by_cases hexposed : call.Exposed k ∧ n = k
    · obtain ⟨hexposed, rfl⟩ := hexposed
      have hprovided := Dict.mem_iff_isSome.1 (h.owned_selector hkind n hk hexposed)
      obtain ⟨a, ha⟩ := Option.isSome_iff_exists.1 hprovided
      rw [get?_merged, ha, Option.some_or, Option.some_or, Option.some_or]
    · rw [get?_unsent_beside hn hexposed]
  · rfl

/-- So it does beside a target lookup's. -/
theorem Settled.unsent_single (h : Settled call) (hkind : site.kind = .single) {k : String}
    (hk : k ∈ site.owned) :
    Dict.Same (deliver (call.unsent k)).beside (deliver call).beside := by
  intro n
  rw [get?_beside_single _ hkind, get?_beside_single _ hkind]
  split
  · next hn =>
    change (call.recorded.get? n).or ((if n ∈ (routeAuthorValues call).authored then
      ((routeAuthorValues (call.unsent k)).arguments.get? n).map .given else none).or _) = _
    by_cases hexposed : call.Exposed k ∧ n = k
    · obtain ⟨hexposed, rfl⟩ := hexposed
      cases hrecorded : call.recorded.get? n with
      | some a => rw [Option.some_or, Option.some_or]
      | none =>
        have hauthored := (mem_authored_of_owned hkind hk).2
          (h.owned_single hkind n hk hexposed (Dict.get?_eq_none.1 hrecorded))
        obtain ⟨v, hv⟩ := Option.isSome_iff_exists.1 (isSome_routed_of_authored call hauthored)
        rw [get?_unsent_arguments hauthored, get?_arguments_of_authored call hauthored, hv,
          if_pos hauthored, Option.map_some, Option.some_or, Option.some_or]
    · rw [get?_unsent_beside hn hexposed]
      split
      · next hauthored => rw [get?_unsent_arguments hauthored]
      · rfl
  · rfl

/-- The caller's value for a key the provider owns is an argument of the Validator's alone. -/
theorem Settled.unsent_same (h : Settled call) {k : String} (hk : k ∈ site.owned) :
    (deliver (call.unsent k)).Same ([k].filter (· ∈ site.fields)) (deliver call) := by
  -- the layers are the same two, so the routing differs in the caller's base of each argument alone
  refine deliver_congr rfl (fun _ hn => get?_unsent_arguments_of_owned hk hn) (.refl _) (.refl _)
    (fun _ hn => get?_unsent_arguments hn)
    (fun hkind _ hn hauthored => h.unsent_read hkind hk hn hauthored) ?_
  cases hkind : site.kind with
  | selector => exact h.unsent_selector hkind hk
  | single => exact h.unsent_single hkind hk
  | many =>
    intro n
    simp only [deliver, finish, hkind]

/-! ### Another value of the hook's -/

/-- Another value of the hook's for a key is no other key's. -/
theorem get?_hooking_of_ne {k n : String} {v : V} (hn : n ≠ k) :
    (call.hooking k v).hook.get? n = call.hook.get? n :=
  (Dict.get?_set call.hook k n (.given v)).trans (if_neg hn)

/-- Nor does the hook's layer change under another key. -/
theorem setAt_hooking_of_ne {k n : String} {v : V} (hn : n ≠ k) :
    setAt (hookLayer (call.hooking k v)) n = setAt (hookLayer call) n := by
  rw [setAt_hookLayer, setAt_hookLayer, setAt_congr (get?_hooking_of_ne hn)]

/-- The provider's answer hides the hook's. -/
theorem merged_hooking_same {k : String} {v : V} (hprovided : (setAt call.provided k).isSome) :
    Dict.Same (merged (call.hooking k v)) (merged call) := by
  intro n
  rw [get?_merged, get?_merged]
  change (call.provided.get? n).or _ = _
  by_cases hn : n = k
  · subst hn
    obtain ⟨a, ha⟩ := Option.isSome_iff_exists.1 (Dict.mem_iff_isSome.1 (mem_of_setAt hprovided))
    rw [ha, Option.some_or, Option.some_or]
  · rw [get?_hooking_of_ne hn]

/-- Where the hook's layer holds a key and the provider's moves it, the provider gives the argument
the hook gives itself. -/
theorem Settled.provided_of_renamed (h : Settled call) {k a : String}
    (hheard : site.Heard k) (hhook : (setAt call.hook k).isSome)
    (hprovided : (setAt call.provided k).isSome) (hwire : site.wire.map.get? k = some a)
    (hk : k ∉ site.names) (ha : a ∈ site.names) (hset : (setAt (hookLayer call) a).isSome) :
    (setAt (providedLayer call) a).isSome := by
  have hkind : site.kind = .single := by
    by_contra hkind
    rw [site.wire_single hkind] at hwire
    cases hwire
  rw [setAt_hookLayer] at hset
  split at hset
  · next hheard' =>
    rw [setAt_providedLayer, Site.shadowed_of_kind (Site.ne_selector hkind),
      if_pos List.not_mem_nil]
    exact h.renamed k a hwire hk ha hheard hheard'.1 hhook hset hprovided
  · cases hset

/-- A settled call routes the same, whatever the hook gives under a key the provider gives. -/
theorem Settled.hooking_routing (h : Settled call) {k : String} {v w : V}
    (hhook : call.hook.get? k = some (.given w)) (hprovided : (setAt call.provided k).isSome) :
    (routeAuthorValues (call.hooking k v)).Same (routeAuthorValues call) := by
  have hmerged := merged_hooking_same (v := v) hprovided
  -- a key the hook's layer drops is no key of its split; else the provider's layer sets it too
  by_cases hk : site.Heard k ∧ k ∉ site.shadowed ∧ k ∉ site.beside
  · have hold : (setAt call.hook k).isSome := by
      rw [setAt, hhook]
      rfl
    have hnew : (setAt (call.hooking k v).hook k).isSome := by
      rw [setAt, Call.hooking, Dict.get?_set, if_pos rfl]
      rfl
    have hset : (setAt (hookLayer (call.hooking k v)) k).isSome =
        (setAt (hookLayer call) k).isSome := by
      rw [setAt_hookLayer, setAt_hookLayer, if_pos hk, if_pos hk, hold, hnew]
    have hupper : (setAt (providedLayer call) k).isSome := by
      rw [setAt_providedLayer, if_pos hk.2.1]
      exact hprovided
    have hlayer : ∀ n ≠ k, setAt (hookLayer (call.hooking k v)) n = setAt (hookLayer call) n :=
      fun _ hn => setAt_hooking_of_ne hn
    exact {
      arguments := fun a => by
        rw [get?_arguments, get?_arguments, ← Option.or_assoc, ← Option.or_assoc]
        exact congrArg
          (Option.or · (if a ∈ site.owned ∧ a ∉ site.fields then none else call.arguments.get? a))
          (routedAt_or_congr hlayer hupper a)
      extras := fun n => by
        have hchannel : (channelledValues (call.hooking k v)).get? n =
            (channelledValues call).get? n :=
          (hmerged.filter fun _ _ => rfl).mapKeys serverChannel_injective n
        rw [get?_extras, get?_extras, hchannel]
        exact congrArg (fun o => ((channelledValues call).get? n).or o)
          (rest_or_congr hlayer hset hupper
            (fun _ => h.provided_of_renamed hk.1 hold hprovided) n)
      authored := fun a => by
        rw [get?_authored_routing, get?_authored_routing, authoredAt_congr hlayer hset]
        rfl
      beside := hmerged.filter fun _ _ => rfl }
  · refine routeAuthorValues_congr rfl (fun n => ?_) (fun _ => rfl) fun n _ => hmerged n
    by_cases hn : n = k
    · rw [setAt_hookLayer, setAt_hookLayer, hn, if_neg hk, if_neg hk]
    · exact setAt_hooking_of_ne hn

/-- The hook's value for a key the provider answers is delivered nowhere. -/
theorem Settled.hooking_same (h : Settled call) {k : String} {v w : V}
    (hhook : call.hook.get? k = some (.given w)) (hprovided : (setAt call.provided k).isSome) :
    (deliver (call.hooking k v)).Same [] (deliver call) :=
  deliver_congr_layers rfl rfl rfl rfl (h.hooking_routing hhook hprovided)
    fun _ n _ _ => merged_hooking_same hprovided n

/-- A settled call upholds the precedence of its layers. -/
theorem Settled.upholds (h : Settled call) : Upholds call where
  clean := h.clean
  provider := h.provider_same
  hook := h.hook_same
  lookup := h.lookup_same
  owned_hook _ hk := unhooked_same hk
  owned_caller _ hk := h.unsent_same hk
  outranks _ _ _ hhook hprovided := h.hooking_same hhook hprovided

/-! ## What a delivery shows -/

/-- A name of the filter's that a layer declines is delivered with its `UNSET`. -/
theorem Upholds.get?_merged_ne (h : Upholds call) (hkind : site.kind = .selector) {n : String}
    (hn : n ∈ site.filterNames) : (merged call).get? n ≠ some .unset := by
  intro hm
  rcases Site.filtered_of_mem hkind hn with hshadowed | hbeside
  · refine h.clean.overlay (serverChannel n) ?_
    simp only [deliver, finish, hkind]
    rw [get?_extras, get?_channelledValues, if_pos hshadowed, hm, Option.some_or]
  · have hhidden : n ∉ site.hidden := by
      intro hmem
      have hno : n ∉ site.shadowed := by
        simp only [Site.beside, hkind, if_true, List.mem_filter, decide_eq_true_eq] at hbeside
        exact hbeside.2
      exact hno ((Site.mem_shadowed hkind).2 ⟨hn, hmem⟩)
    refine h.clean.beside n ?_
    rw [get?_beside_selector call hkind, if_pos ⟨hn, hhidden⟩, hm, Option.some_or]

/-- Neither layer answers a key of the provider's but the provider. -/
theorem get?_merged_of_owned {k : String} (hk : k ∈ site.owned) :
    (merged call).get? k = call.provided.get? k := by
  rw [get?_merged, if_neg (Site.not_heard_of_owned hk), Option.or_none]

/-- An owned key's exposed value, sent and not sent, is what the call delivers beside the filter. -/
theorem Upholds.get?_beside (h : Upholds call) {k : String} (hk : k ∈ site.owned) :
    (deliver (call.unsent k)).beside.get? k = (deliver call).beside.get? k :=
  (h.owned_caller k hk).beside k

/-- What an exposed key hands on is the caller's value, and nothing where the caller does not send
it. -/
theorem get?_sent_of_exposed {k : String} (h : call.Exposed k) :
    ∃ v, (call.route.get? k).or (call.sent.get? k) = some v ∧
      ((call.unsent k).route.get? k).or ((call.unsent k).sent.get? k) = none := by
  obtain ⟨v, hv⟩ := Option.isSome_iff_exists.1 (Dict.mem_iff_isSome.1 h.2.2.2)
  have hroute : call.route.get? k = none := Dict.get?_eq_none.2 h.2.2.1
  refine ⟨v, by rw [hroute, hv, Option.none_or], ?_⟩
  change (call.route.get? k).or ((call.sent.without [k]).get? k) = none
  rw [hroute, Dict.get?_without, if_pos (List.mem_singleton_self k), Option.none_or]

/-- Where precedence is upheld, an owned key exposed beside a selector spec's filter is answered by the
provider. -/
theorem Upholds.owned_selector (h : Upholds call) (hkind : site.kind = .selector) {k : String}
    (hk : k ∈ site.owned) (hexposed : call.Exposed k) : k ∈ call.provided := by
  by_contra hno
  obtain ⟨v, hv, hnone⟩ := get?_sent_of_exposed hexposed
  have hmerged : (merged call).get? k = none :=
    (get?_merged_of_owned hk).trans (Dict.get?_eq_none.2 hno)
  have hmerged' : (merged (call.unsent k)).get? k = none := hmerged
  have hbeside := h.get?_beside hk
  rw [get?_beside_selector _ hkind, get?_beside_selector _ hkind,
    if_pos ⟨hexposed.1, hexposed.2.1⟩, if_pos ⟨hexposed.1, hexposed.2.1⟩, hmerged, hmerged',
    hv, hnone] at hbeside
  cases hbeside

/-- Where neither provider answers a name, the caller's value of it is delivered beside a target
lookup's filter. -/
theorem get?_beside_of_free (hkind : site.kind = .single) {n : String}
    (hn : n ∈ site.filterNames ∧ n ∉ site.hidden) (hrecorded : n ∉ call.recorded)
    (hauthored : n ∉ (routeAuthorValues call).authored) :
    (deliver call).beside.get? n = ((call.route.get? n).or (call.sent.get? n)).map .given := by
  rw [get?_beside_single call hkind, if_pos hn, if_neg hauthored, Dict.get?_eq_none.2 hrecorded,
    Option.none_or, Option.none_or]

/-- Beside a target lookup's it is an author's argument, or recorded. -/
theorem Upholds.owned_single (h : Upholds call) (hkind : site.kind = .single) {k : String}
    (hk : k ∈ site.owned) (hexposed : call.Exposed k) (hrecorded : k ∉ call.recorded) :
    k ∈ (routeAuthorValues call).authored := by
  by_contra hno
  obtain ⟨v, hv, hnone⟩ := get?_sent_of_exposed hexposed
  have hfilter : k ∈ site.filterNames ∧ k ∉ site.hidden := ⟨hexposed.1, hexposed.2.1⟩
  have hbeside := h.get?_beside hk
  have hunsent : (deliver (call.unsent k)).beside.get? k = _ :=
    get?_beside_of_free hkind hfilter hrecorded hno
  rw [hunsent, hnone, get?_beside_of_free hkind hfilter hrecorded hno, hv] at hbeside
  cases hbeside

/-! ### The extras -/

/-- No value goes on the server's channel but of a selector spec. -/
theorem get?_channelledValues_of_kind (hkind : site.kind ≠ .selector) (n : String) :
    (channelledValues call).get? n = none := by
  by_cases hex : ∃ k, serverChannel k = n
  · obtain ⟨k, rfl⟩ := hex
    rw [get?_channelledValues, Site.shadowed_of_kind hkind, if_neg List.not_mem_nil]
  · exact Dict.get?_mapKeys_of_none (fun k hk => hex ⟨k, hk⟩) _

/-- A name a caller fills is no extra of a single call. -/
theorem get?_extras_of_name (hkind : site.kind = .single) {n : String} (hn : n ∈ site.names) :
    (routeAuthorValues call).extras.get? n = none := by
  rw [get?_extras, get?_channelledValues_of_kind (Site.ne_selector hkind), get?_rest, get?_rest,
    if_pos (.inl hn), if_pos (.inl hn)]
  rfl

/-- An extra of a single call is delivered: as a seed of its lookup, or beneath the Validator's
values, or seated over them. -/
theorem extras_eq_of_same {call' : Call site V} {n : String} {a b : Answer V}
    (h : (deliver call').Same [] (deliver call)) (hkind : site.kind = .single)
    (hroute : call'.route = call.route) (hn : n ∉ site.lookupKeys)
    (ha : (routeAuthorValues call').extras.get? n = some a)
    (hb : (routeAuthorValues call).extras.get? n = some b) : a = b := by
  have hseeds := h.seeds n
  have hoverlay := h.overlay n
  have hseated := h.seated n
  simp only [deliver, finish, hkind] at hseeds hoverlay hseated
  by_cases hseeded : n ∈ call.route ∧ n ∈ site.seeded
  · obtain ⟨captured, hcaptured⟩ := Option.isSome_iff_exists.1 (Dict.mem_iff_isSome.1 hseeded.1)
    rw [hiddenLookupSeeds, hiddenLookupSeeds, Dict.get?_filterMap, Dict.get?_filterMap, hroute,
      hcaptured, ha, hb] at hseeds
    simpa [hseeded.2] using hseeds
  · have hno : n ∉ hiddenLookupSeeds call (routeAuthorValues call) :=
      mt (mem_hiddenLookupSeeds call _).1 hseeded
    have hno' : n ∉ hiddenLookupSeeds call' (routeAuthorValues call') :=
      mt (mem_hiddenLookupSeeds call' _).1 (hroute ▸ hseeded)
    by_cases hbound : n ∈ site.validatorBound
    · simpa [Option.filter_some, ha, hb, hno, hno', hbound] using hoverlay
    · simpa [Option.filter_some, lookupKeysSent, ha, hb, hn, hno, hno', hbound] using hseated

/-- Where precedence is upheld, an owned key sent as a lookup's read is an author's argument. -/
theorem Upholds.owned_read (h : Upholds call) (hkind : site.kind = .single) {k : String}
    (hk : k ∈ site.owned) (hread : k ∈ site.lookupKeys) {params : Dict String V}
    (hparams : call.params = some params) (hsent : k ∈ params) :
    k ∈ (routeAuthorValues call).authored := by
  by_contra hno
  obtain ⟨v, hv⟩ := Option.isSome_iff_exists.1 (Dict.mem_iff_isSome.1 hsent)
  have hnames : k ∈ site.names := List.mem_append_left _ (site.lookupKeys_reads k hread)
  have hno' : k ∉ (routeAuthorValues (call.unsent k)).authored := hno
  have hextras : (routeAuthorValues (call.unsent k)).extras.get? k = none :=
    get?_extras_of_name hkind hnames
  have hparams' : (call.unsent k).params = some (params.without [k]) := by
    simp only [Call.unsent, hparams, Option.map_some]
  have hseated := (h.owned_caller k hk).seated k
  simp only [deliver, finish, hkind] at hseated
  simp [lookupKeysSent, hread, hno, hno', hparams, hparams', hv, hextras] at hseated

/-- The value a hook gives by a field's `source` is an extra where the hook gives the field's wire
name too and the provider does not: the provider's own value by the `source` is the field's. -/
theorem get?_extras_of_renamed (hkind : site.kind = .single) {k a : String} {v : V}
    (hwire : site.wire.map.get? k = some a) (hk : k ∉ site.names) (ha : a ∈ site.names)
    (hheard : site.Heard k) (hheard' : site.Heard a) (hhook : setAt call.hook k = some v)
    (hhook' : (setAt call.hook a).isSome) (hprovided : ¬ (setAt call.provided a).isSome) :
    (routeAuthorValues call).extras.get? k = some (.given v) := by
  have hne : site.kind ≠ .selector := Site.ne_selector hkind
  have hfree : ∀ n, n ∉ site.shadowed ∧ n ∉ site.beside := by
    intro n
    rw [Site.shadowed_of_kind hne, Site.beside_of_kind hne]
    exact ⟨List.not_mem_nil, List.not_mem_nil⟩
  have hmoves : moves site.names site.wire (providedLayer call) k = true := by
    have hnone := Option.not_isSome_iff_eq_none.1 hprovided
    simp [moves, hwire, ha, setAt_providedLayer, (hfree a).1, hnone]
  have hstays : ¬ moves site.names site.wire (hookLayer call) k = true := by
    obtain ⟨w, hw⟩ := Option.isSome_iff_exists.1 hhook'
    simp [moves, hwire, ha, setAt_hookLayer, hheard', hfree a, hw]
  rw [get?_extras, get?_channelledValues_of_kind hne, get?_rest, get?_rest, if_pos (.inr hmoves),
    if_neg (not_or.2 ⟨hk, hstays⟩), setAt_hookLayer, if_pos ⟨hheard, hfree k⟩, hhook]
  rfl

/-- Where precedence is upheld and the hook names a field both ways, a provider that names it by its
`source` names it by its wire name too. -/
theorem Upholds.renamed [Nontrivial V] (h : Upholds call) {k a : String}
    (hwire : site.wire.map.get? k = some a) (hk : k ∉ site.names) (ha : a ∈ site.names)
    (hheard : site.Heard k) (hheard' : site.Heard a) (hhook : (setAt call.hook k).isSome)
    (hhook' : (setAt call.hook a).isSome) (hprovided : (setAt call.provided k).isSome) :
    (setAt call.provided a).isSome := by
  by_contra hno
  have hkind : site.kind = .single := by
    by_contra hkind
    rw [site.wire_single hkind] at hwire
    cases hwire
  have hread : k ∉ site.lookupKeys := fun hmem =>
    hk (List.mem_append_left _ (site.lookupKeys_reads k hmem))
  have hak : a ≠ k := fun h => hk (h ▸ ha)
  obtain ⟨w, hw⟩ := Option.isSome_iff_exists.1 hhook
  obtain ⟨v, hvw⟩ := exists_ne w
  have hnew : setAt (call.hooking k v).hook k = some v := by
    rw [setAt, Call.hooking, Dict.get?_set, if_pos rfl]
    rfl
  have hold : (setAt (call.hooking k v).hook a).isSome := by
    rw [setAt, Call.hooking, Dict.get?_set, if_neg hak]
    exact hhook'
  have hextra : (routeAuthorValues (call.hooking k v)).extras.get? k = some (.given v) :=
    get?_extras_of_renamed hkind hwire hk ha hheard hheard' hnew hold hno
  have hextra' : (routeAuthorValues call).extras.get? k = some (.given w) :=
    get?_extras_of_renamed hkind hwire hk ha hheard hheard' hw hhook' hno
  have hsame := h.outranks k v w (get?_of_setAt hw) hprovided
  exact hvw (Answer.given.inj (extras_eq_of_same hsame hkind rfl hread hextra hextra'))

/-- A call's layers keep their precedence exactly where the layers leave nothing of the filter's or
the lookup's to a declined key, and no renamed field to the hook. -/
theorem upholds_iff [Nontrivial V] (call : Call site V) : Upholds call ↔ Settled call := by
  constructor
  · intro h
    exact {
      provider := fun hkind n hn hunset => h.get?_merged_ne hkind hn (by
        rw [get?_merged, hunset, Option.some_or])
      hook := fun hkind n hn hprovided hheard hunset => h.get?_merged_ne hkind hn (by
        rw [get?_merged, Dict.get?_eq_none.2 hprovided, if_pos hheard, hunset, Option.none_or])
      lookup := fun hkind n hn hhidden hunset => h.clean.beside n (by
        rw [get?_beside_single call hkind, if_pos ⟨hn, hhidden⟩, hunset, Option.some_or])
      owned_selector := fun hkind k hk hexposed => h.owned_selector hkind hk hexposed
      owned_single := fun hkind k hk hexposed hrecorded =>
        (mem_authored_of_owned hkind hk).1 (h.owned_single hkind hk hexposed hrecorded)
      owned_read := fun hkind k hk hread ⟨params, hparams, hsent⟩ => by
        have hauthored := h.owned_read hkind hk hread hparams hsent
        obtain ⟨-, hset | ⟨s, hs, -⟩⟩ := (mem_authored_of_owned hkind hk).1 hauthored
        · exact hset
        · rcases site.lookupKeys_bare with hnil | hempty
          · rw [hnil] at hread
            cases hread
          · rw [hempty] at hs
            cases hs
      renamed := fun k a hwire hk ha hheard hheard' hhook hhook' hprovided =>
        h.renamed hwire hk ha hheard hheard' hhook hhook' hprovided }
  · exact Settled.upholds

/-- A selector spec whose filter reads `tenant`, with an untyped provider. -/
def tenantFilter : Site :=
  { Site.bare .selector with
    filterNames := ["tenant"]
    reserved := ["request", "view"]
    reads := ["tenant"]
    lookupKeys_reads := List.forall_mem_nil _ }

/-- A call sending a tenant, whose provider answers `tenant` with `answer`. -/
def tenantCall (answer : Answer Nat) : Call tenantFilter Nat where
  hook := .empty
  provided := .ofList [("tenant", answer)]
  arguments := .ofList [("tenant", 1)]
  sent := .ofList [("tenant", 1)]
  params := some (.ofList [("tenant", 1)])
  route := .empty
  recorded := .empty
  unreserved n hn := by
    obtain rfl : n = "tenant" := List.mem_singleton.1 hn
    decide

/-- A provider's tenant keeps its precedence over the caller's. -/
theorem upholds_tenant : Upholds (tenantCall (.given 2)) :=
  (upholds_iff (tenantCall (.given 2))).2 {
    provider := fun _ => by decide
    hook := fun _ _ _ _ _ => (Option.some_ne_none _).symm
    lookup := fun hkind => absurd hkind (by decide)
    owned_selector := fun _ _ hk => absurd hk List.not_mem_nil
    owned_single := fun hkind => absurd hkind (by decide)
    owned_read := fun hkind => absurd hkind (by decide)
    renamed := fun _ _ hwire => absurd hwire.symm (Option.some_ne_none _) }

/-- A provider declining the tenant hands its selector the `UNSET`, not the caller's tenant. -/
theorem declined_tenant_delivers_unset : ¬ Upholds (tenantCall .unset) :=
  fun h => h.clean.beside "tenant" (by decide)

end RestFrameworkServices
