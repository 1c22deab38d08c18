import RestFrameworkServices.Dispatch.AuthorSplit
import RestFrameworkServices.ServiceSpecs.FilterChannel
import RestFrameworkServices.ServiceSpecs.Reads

/-!
# Author values on their way to a call

A call's author values come in two layers over the caller's arguments: the view hook's extras, then
what the spec's `kwargs` provider answers. `routeAuthorValues` (`_route_author_values`) splits each
layer and merges the two; what its callers deliver is `deliver`: the arguments, the overlay and the
seated values, the seeds of a target lookup, the values handed beside a filter, to which the
lookup's own provider adds when it runs, and the server's values of a Validator's fields.

Every mapping of a delivery is read as an equation in the layers' set values (`get?_arguments` and
its siblings), from which follow what a delivery depends on (`deliver_congr`) and what it holds.
-/

namespace RestFrameworkServices

open Lib

universe u

variable {V : Type u}

/-! ## The call -/

/-- A call of a selector spec, of a service spec's single object, or of its `many` rows. -/
inductive CallKind where
  | selector
  | single
  | many
deriving DecidableEq, Repr

/-- What a call's spec says of names: those its filter reads (a service spec's target lookup's), the
ones a callable hides, the reserved seeds, its provider's keys, the names a caller fills (reads and
Validator fields), the lookup's reads a spread service takes, those a route capture seeds for the
lookup, and what a Validator binds. Only a single call has an input serializer's sources to rename
by, and a spread service that takes a lookup's read has no serializer. -/
structure Site where
  kind : CallKind
  filterNames : List String
  hidden : List String
  reserved : List String
  keys : Option Reads.ProviderKeys
  wire : Wire
  reads : List String
  fields : List String
  lookupKeys : List String
  seeded : List String
  validatorBound : List String
  wire_single : kind ≠ .single → wire.map = .empty
  lookupKeys_reads : ∀ n ∈ lookupKeys, n ∈ reads
  lookupKeys_bare : lookupKeys = [] ∨ wire.map = .empty

namespace Site

/-- A call of a spec that names nothing. -/
def bare (kind : CallKind) : Site where
  kind := kind
  filterNames := []
  hidden := []
  reserved := []
  keys := none
  wire := .empty
  reads := []
  fields := []
  lookupKeys := []
  seeded := []
  validatorBound := []
  wire_single := fun _ => rfl
  lookupKeys_reads := List.forall_mem_nil _
  lookupKeys_bare := .inl rfl

variable (site : Site)

/-- `_caller_names`. -/
def names : List String := site.reads ++ site.fields

/-- `_shadowed`. -/
def shadowed : List String :=
  if site.kind = .selector then site.filterNames.filter (· ∈ site.hidden) else []

/-- The filter's other names, of a selector spec. -/
def beside : List String :=
  if site.kind = .selector then site.filterNames.filter (· ∉ site.shadowed) else []

/-- The keys the provider owns: those it fills that no filter shadows. -/
def owned : List String :=
  (site.keys.elim [] (·.filled)).filter (· ∉ site.shadowed)

/-- The names a hook's value for an owned key may go by. -/
def hookOwned : List String :=
  site.owned ++ site.owned.filterMap site.wire.map.get? ++
    (site.wire.map.entries.filter fun e => e.2 ∈ site.owned).map (·.1)

/-- A hook's value for a name is heard: it names no seed of the call and no key of the provider's. -/
def Heard (n : String) : Prop := n ∉ site.reserved ∧ n ∉ site.hookOwned

instance (n : String) : Decidable (site.Heard n) :=
  inferInstanceAs (Decidable (n ∉ site.reserved ∧ n ∉ site.hookOwned))

end Site

/-- The layers of one call: the hook's extras, the provider's answer, and the caller's arguments as
the layers go over them (`arguments`), as a filter's names are read off them before (`sent`) and as
they came (`params`, `none` where they are no mapping); the route's captures; and what the lookup's
own provider answers once it runs. An answer naming a reserved seed is refused before it is one. -/
structure Call (site : Site) (V : Type u) where
  hook : Dict String (Answer V)
  provided : Dict String (Answer V)
  arguments : Dict String V
  sent : Dict String V
  params : Option (Dict String V)
  route : Dict String V
  recorded : Dict String (Answer V)
  unreserved : ∀ n ∈ provided, n ∉ site.reserved

/-- The provider's answer, or the refusal of its reserved keys. -/
def checkAnswer (site : Site) (label : String) (answered : Dict String (Answer V)) :
    Except String { provided : Dict String (Answer V) // ∀ n ∈ provided, n ∉ site.reserved } :=
  if h : ∀ n ∈ answered.keys, n ∉ site.reserved then .ok ⟨answered, h⟩
  else
    let taken := (answered.keys.filter (· ∈ site.reserved)).mergeSort (· ≤ ·)
    .error (label ++ ".kwargs returned the key(s) " ++ reprNames taken ++ ", which dispatch seeds " ++
      "itself. A provider's value must never outrank a seeded one; rename the key.")

/-- An answer is taken as it is, exactly where it names no seed of the call. -/
theorem checkAnswer_eq_ok {site : Site} {label : String} {answered : Dict String (Answer V)} :
    (∃ provided, checkAnswer site label answered = .ok provided ∧ provided.1 = answered) ↔
      ∀ n ∈ answered, n ∉ site.reserved := by
  constructor
  · rintro ⟨provided, -, rfl⟩
    exact provided.2
  · intro h
    exact ⟨⟨answered, h⟩, dif_pos h, rfl⟩

section
variable {site : Site} (call : Call site V)

/-! ## The routing -/

/-- The hook's values, less those of a seed and of a key the provider owns. -/
def hookValues : Dict String (Answer V) :=
  call.hook.filter fun n _ => site.Heard n

/-- The two layers, one over the other. -/
def merged : Dict String (Answer V) := (hookValues call).update call.provided

/-- The hook's layer, as it is split. -/
def hookLayer : Dict String (Answer V) :=
  (hookValues call).filter fun n _ => n ∉ site.shadowed ∧ n ∉ site.beside

/-- The provider's layer, as it is split. -/
def providedLayer : Dict String (Answer V) :=
  call.provided.filter fun n _ => n ∉ site.shadowed

/-- The author's values for the names a filter shadows, on the server's channel. -/
def channelledValues : Dict String (Answer V) :=
  ((merged call).filter fun n _ => n ∈ site.shadowed).mapKeys serverChannel

/-- What the routing leaves: the arguments, the extras, the arguments an author's value went into
with the key it was given under, and the values beside a selector spec's filter. -/
structure Routed (V : Type u) where
  arguments : Dict String V
  extras : Dict String (Answer V)
  authored : Dict String String
  beside : Dict String (Answer V)

/-- `_route_author_values`. -/
def routeAuthorValues : Routed V :=
  let hooked := split site.names site.wire (hookLayer call)
  let supplied := split site.names site.wire (providedLayer call)
  { arguments := ((call.arguments.without (site.owned.filter (· ∉ site.fields))).update
      hooked.routed).update supplied.routed
    extras := (hooked.rest.update supplied.rest).update (channelledValues call)
    authored := hooked.authored.update supplied.authored
    beside := (merged call).filter fun n _ => n ∈ site.beside }

/-! ## What the callers deliver -/

/-- What a call is handed: the arguments, the overlay beneath a Validator's values (of a selector
spec, over its route's own captures), the author's values seated over them, the seeds of a target
lookup, the values beside a filter, and those the Validator takes for the server's. -/
structure Delivered (V : Type u) where
  arguments : Dict String V
  overlay : Dict String (Answer V)
  seated : Dict String (Answer V)
  seeds : Dict String (Answer V)
  beside : Dict String (Answer V)
  server : Dict String (Answer V)

/-- The caller's argument, or a route capture, for each name the filter hands on. -/
def besideFilter : Beside site.filterNames site.hidden (Answer V) :=
  Beside.ofArguments site.filterNames site.hidden (some (call.sent.mapValues .given))
    (call.route.mapValues .given)

/-- `_lookup_keys_sent`: the author's value for a lookup's read, or the caller's as it came. -/
def lookupKeysSent (routed : Routed V) : Dict String V :=
  .tabulate (fun n =>
    if n ∈ routed.authored then routed.arguments.get? n
    else call.params.bind fun params => params.get? n) site.lookupKeys

/-- `_hidden_lookup_seeds`: the author's value for each name a route captures for the lookup, or the
capture. -/
def hiddenLookupSeeds (routed : Routed V) : Dict String (Answer V) :=
  call.route.filterMap fun n captured =>
    if n ∈ site.seeded then some ((routed.extras.get? n).getD (.given captured)) else none

/-- What each caller makes of the routing, a target lookup's provider having answered
(`_recording_beside_its_filter`) and the values seated (`_seat_author_values`). -/
def finish (routed : Routed V) : Delivered V :=
  match site.kind with
  | .selector => {
    arguments := routed.arguments
    overlay := routed.extras
    seated := .empty
    seeds := .empty
    beside := ((besideFilter call).record routed.beside).values
    server := .empty }
  | .many => {
    arguments := routed.arguments
    overlay := routed.extras
    seated := .empty
    seeds := .empty
    beside := .empty
    server := .empty }
  | .single =>
    let authored := (routed.arguments.filter fun n _ => n ∈ routed.authored).mapValues .given
    let seeds := hiddenLookupSeeds call routed
    let extras := routed.extras.filter fun n _ => n ∉ seeds
    { arguments := routed.arguments
      overlay := extras.filter fun n _ => n ∈ site.validatorBound
      seated := (extras.filter fun n _ => n ∉ site.validatorBound).update
        ((lookupKeysSent call routed).mapValues .given)
      seeds := seeds
      beside := (((besideFilter call).record authored).record call.recorded).values
      server := authored }

/-- What the call delivers. -/
def deliver : Delivered V := finish call (routeAuthorValues call)

/-! ## What the routing leaves -/

/-- The hook's values are those of the names it is heard on. -/
theorem get?_hookValues (n : String) :
    (hookValues call).get? n = if site.Heard n then call.hook.get? n else none := by
  rw [hookValues, Dict.get?_filter]
  by_cases hn : site.Heard n <;> cases call.hook.get? n <;> simp [hn]

/-- The provider's value goes over the hook's. -/
theorem get?_merged (n : String) : (merged call).get? n =
    (call.provided.get? n).or (if site.Heard n then call.hook.get? n else none) := by
  rw [merged, Dict.get?_update, get?_hookValues]

/-- The hook's layer gives a name it is heard on and no filter takes. -/
theorem setAt_hookLayer (n : String) : setAt (hookLayer call) n =
    if site.Heard n ∧ n ∉ site.shadowed ∧ n ∉ site.beside then setAt call.hook n else none := by
  rw [hookLayer, setAt_filter fun n => n ∉ site.shadowed ∧ n ∉ site.beside, hookValues,
    setAt_filter fun n => site.Heard n]
  by_cases hn : site.Heard n <;> simp [hn]

/-- The provider's layer gives a name no filter shadows. -/
theorem setAt_providedLayer (n : String) : setAt (providedLayer call) n =
    if n ∉ site.shadowed then setAt call.provided n else none := by
  rw [providedLayer, setAt_filter fun n => n ∉ site.shadowed]
  simp only [decide_eq_true_eq]

/-- A routed argument is the provider's, the hook's, or the caller's where no provider owns it. -/
theorem get?_arguments (a : String) : (routeAuthorValues call).arguments.get? a =
    (routedAt site.names site.wire (providedLayer call) a).or
      ((routedAt site.names site.wire (hookLayer call) a).or
        (if a ∈ site.owned ∧ a ∉ site.fields then none else call.arguments.get? a)) := by
  have hbase : (call.arguments.without (site.owned.filter (· ∉ site.fields))).get? a =
      if a ∈ site.owned ∧ a ∉ site.fields then none else call.arguments.get? a := by
    simp
  simp only [routeAuthorValues, Dict.get?_update, get?_routed, hbase]

/-- The key it was given under is the provider's, or the hook's. -/
theorem get?_authored_routing (a : String) : (routeAuthorValues call).authored.get? a =
    (authoredAt site.names site.wire (providedLayer call) a).or
      (authoredAt site.names site.wire (hookLayer call) a) := by
  simp only [routeAuthorValues, Dict.get?_update, get?_authored]

/-- Beside the filter stand the author's values under the names it hands on. -/
theorem get?_beside (n : String) : (routeAuthorValues call).beside.get? n =
    if n ∈ site.beside then (merged call).get? n else none := by
  simp only [routeAuthorValues, Dict.get?_filter]
  by_cases hn : n ∈ site.beside <;> cases (merged call).get? n <;> simp [hn]

/-- What is left are the values on the server's channel and what neither layer's split takes. -/
theorem get?_extras (n : String) : (routeAuthorValues call).extras.get? n =
    ((channelledValues call).get? n).or
      (((split site.names site.wire (providedLayer call)).rest.get? n).or
        ((split site.names site.wire (hookLayer call)).rest.get? n)) := by
  simp only [routeAuthorValues, Dict.get?_update]

/-- What a delivery holds on the server's channel for a name the filter shadows. -/
theorem get?_channelledValues (n : String) :
    (channelledValues call).get? (serverChannel n) =
      if n ∈ site.shadowed then (merged call).get? n else none := by
  have hpre : ∀ k, serverChannel k = serverChannel n ↔ k = n := fun k =>
    serverChannel_injective.eq_iff
  rw [channelledValues, Dict.get?_mapKeys_of_one hpre, Dict.get?_filter]
  by_cases hn : n ∈ site.shadowed <;> cases (merged call).get? n <;> simp [hn]

/-- An author's argument has a value of one of the two layers. -/
theorem isSome_routed_of_authored {a : String} (h : a ∈ (routeAuthorValues call).authored) :
    ((routedAt site.names site.wire (providedLayer call) a).or
      (routedAt site.names site.wire (hookLayer call) a)).isSome := by
  rw [Option.isSome_or, ← isSome_authoredAt, ← isSome_authoredAt, ← Option.isSome_or,
    ← get?_authored_routing]
  exact Dict.mem_iff_isSome.1 h

/-- An argument an author's value went into holds that value, whatever the caller sent. -/
theorem get?_arguments_of_authored {a : String} (h : a ∈ (routeAuthorValues call).authored) :
    (routeAuthorValues call).arguments.get? a =
      (routedAt site.names site.wire (providedLayer call) a).or
        (routedAt site.names site.wire (hookLayer call) a) := by
  obtain ⟨v, hv⟩ := Option.isSome_iff_exists.1 (isSome_routed_of_authored call h)
  rw [get?_arguments, ← Option.or_assoc, hv, Option.some_or]

/-! ## What a delivery depends on -/

/-- Two routings leave the same values. -/
structure Routed.Same (r s : Routed V) : Prop where
  arguments : Dict.Same r.arguments s.arguments
  extras : Dict.Same r.extras s.extras
  authored : Dict.Same r.authored s.authored
  beside : Dict.Same r.beside s.beside

/-- Two deliveries hold the same values, but for the arguments of the names in `off`. -/
structure Delivered.Same (off : List String) (d e : Delivered V) : Prop where
  arguments : ∀ n ∉ off, d.arguments.get? n = e.arguments.get? n
  overlay : Dict.Same d.overlay e.overlay
  seated : Dict.Same d.seated e.seated
  seeds : Dict.Same d.seeds e.seeds
  beside : Dict.Same d.beside e.beside
  server : Dict.Same d.server e.server

/-- The names seeded are those the route captures for the lookup. -/
theorem mem_hiddenLookupSeeds (routed : Routed V) {n : String} :
    n ∈ hiddenLookupSeeds call routed ↔ n ∈ call.route ∧ n ∈ site.seeded := by
  rw [Dict.mem_iff_isSome, Dict.mem_iff_isSome, hiddenLookupSeeds, Dict.get?_filterMap]
  cases call.route.get? n with
  | none => simp
  | some captured => by_cases hn : n ∈ site.seeded <;> simp [hn]

/-- The filter hands on the route's capture, or the caller's argument. -/
theorem get?_besideFilter (n : String) : (besideFilter call).values.get? n =
    if n ∈ site.filterNames ∧ n ∉ site.hidden then
      ((call.route.get? n).or (call.sent.get? n)).map .given
    else none := by
  simp only [besideFilter, Beside.ofArguments, Beside.get?_record, Dict.get?_mapValues]
  split
  · cases call.route.get? n <;> cases call.sent.get? n <;> rfl
  · rfl

/-- The authors' arguments are those an author gave. -/
theorem get?_authorsArguments (routed : Routed V) (n : String) :
    ((routed.arguments.filter fun n _ => n ∈ routed.authored).mapValues Answer.given).get? n =
      if n ∈ routed.authored then (routed.arguments.get? n).map .given else none := by
  rw [Dict.get?_mapValues, Dict.get?_filter]
  by_cases hn : n ∈ routed.authored <;> cases routed.arguments.get? n <;> simp [hn]

/-- The values beside a selector spec's filter: the author's, the route's, the caller's. -/
theorem get?_beside_selector (h : site.kind = .selector) (n : String) :
    (deliver call).beside.get? n =
      if n ∈ site.filterNames ∧ n ∉ site.hidden then
        ((merged call).get? n).or (((call.route.get? n).or (call.sent.get? n)).map .given)
      else none := by
  simp only [deliver, finish, h, Beside.get?_record, get?_beside, get?_besideFilter]
  split
  · next hn =>
    have hbeside : n ∈ site.beside := by simp [Site.beside, Site.shadowed, h, hn]
    rw [if_pos hbeside]
  · rfl

/-- The values beside a target lookup's filter: its own provider's over those. -/
theorem get?_beside_single (h : site.kind = .single) (n : String) :
    (deliver call).beside.get? n =
      if n ∈ site.filterNames ∧ n ∉ site.hidden then
        (call.recorded.get? n).or
          ((if n ∈ (routeAuthorValues call).authored then
              ((routeAuthorValues call).arguments.get? n).map .given else none).or
            (((call.route.get? n).or (call.sent.get? n)).map .given))
      else none := by
  simp only [deliver, finish, h, Beside.get?_record, get?_besideFilter, get?_authorsArguments]
  split <;> rfl

variable {call} {call' : Call site V} {off : List String}

/-- They are the same of two routings with the same authors' values. -/
theorem authorsArguments_congr {r r' : Routed V} (hauthored : Dict.Same r'.authored r.authored)
    (hserver : ∀ n ∈ r.authored, r'.arguments.get? n = r.arguments.get? n) :
    Dict.Same ((r'.arguments.filter fun n _ => n ∈ r'.authored).mapValues Answer.given)
      ((r.arguments.filter fun n _ => n ∈ r.authored).mapValues Answer.given) := by
  intro n
  rw [get?_authorsArguments, get?_authorsArguments]
  simp only [hauthored.mem_iff]
  split
  · next hn => rw [hserver n hn]
  · rfl

/-- So are a lookup's seeds, of two routings with the same extras. -/
theorem hiddenLookupSeeds_congr {r r' : Routed V} (hroute : call'.route = call.route)
    (hextras : Dict.Same r'.extras r.extras) :
    Dict.Same (hiddenLookupSeeds call' r') (hiddenLookupSeeds call r) := by
  intro n
  rw [hiddenLookupSeeds, hiddenLookupSeeds, Dict.get?_filterMap, Dict.get?_filterMap, hroute,
    hextras n]

/-- So are the lookup's reads, where the caller sent the others alike. -/
theorem lookupKeysSent_congr {r r' : Routed V} (hauthored : Dict.Same r'.authored r.authored)
    (hserver : ∀ n ∈ r.authored, r'.arguments.get? n = r.arguments.get? n)
    (hkeys : ∀ n ∈ site.lookupKeys, n ∉ r.authored →
      (call'.params.bind fun params => params.get? n) =
        call.params.bind fun params => params.get? n) :
    Dict.Same (lookupKeysSent call' r') (lookupKeysSent call r) := by
  intro n
  simp only [lookupKeysSent, Dict.get?_tabulate, hauthored.mem_iff]
  split
  · next hn =>
    split
    · next ha => rw [hserver n ha]
    · next ha => rw [hkeys n hn ha]
  · rfl

/-- What is delivered of one call is what is delivered of another of the same route, where their
routings and what reads the caller's values besides agree. -/
theorem deliver_congr (hroute : call'.route = call.route)
    (harguments : ∀ n ∉ off, (routeAuthorValues call').arguments.get? n =
      (routeAuthorValues call).arguments.get? n)
    (hextras : Dict.Same (routeAuthorValues call').extras (routeAuthorValues call).extras)
    (hauthored : Dict.Same (routeAuthorValues call').authored (routeAuthorValues call).authored)
    (hserver : ∀ n ∈ (routeAuthorValues call).authored,
      (routeAuthorValues call').arguments.get? n = (routeAuthorValues call).arguments.get? n)
    (hkeys : site.kind = .single → ∀ n ∈ site.lookupKeys, n ∉ (routeAuthorValues call).authored →
      (call'.params.bind fun params => params.get? n) =
        call.params.bind fun params => params.get? n)
    (hbeside : Dict.Same (deliver call').beside (deliver call).beside) :
    (deliver call').Same off (deliver call) := by
  have hseeds := hiddenLookupSeeds_congr hroute hextras
  have hunseeded := hextras.filter
    (p := fun n _ => n ∉ hiddenLookupSeeds call' (routeAuthorValues call'))
    (q := fun n _ => n ∉ hiddenLookupSeeds call (routeAuthorValues call))
    fun n _ => by simp only [hseeds.mem_iff]
  unfold deliver finish at hbeside ⊢
  split at hbeside
  · exact {
      arguments := harguments
      overlay := hextras
      seated := .refl _
      seeds := .refl _
      beside := hbeside
      server := .refl _ }
  · exact {
      arguments := harguments
      overlay := hextras
      seated := .refl _
      seeds := .refl _
      beside := hbeside
      server := .refl _ }
  · next hkind =>
    have hsent := lookupKeysSent_congr hauthored hserver (hkeys hkind)
    exact {
      arguments := harguments
      overlay := hunseeded.filter fun _ _ => rfl
      seated := (hunseeded.filter fun _ _ => rfl).update (hsent.mapValues _)
      seeds := hseeds
      beside := hbeside
      server := authorsArguments_congr hauthored hserver }

/-- A routing depends on the set values of its layers, and under a selector spec's filter on what
the two layers answer. -/
theorem routeAuthorValues_congr (harguments : call'.arguments = call.arguments)
    (hhook : ∀ n, setAt (hookLayer call') n = setAt (hookLayer call) n)
    (hprovided : ∀ n, setAt (providedLayer call') n = setAt (providedLayer call) n)
    (hmerged : ∀ n, n ∈ site.shadowed ∨ n ∈ site.beside →
      (merged call').get? n = (merged call).get? n) :
    (routeAuthorValues call').Same (routeAuthorValues call) := by
  have hooked := split_congr site.names site.wire hhook
  have supplied := split_congr site.names site.wire hprovided
  have hkept : ∀ {ks : List String}, (∀ n ∈ ks, n ∈ site.shadowed ∨ n ∈ site.beside) →
      Dict.Same ((merged call').filter fun n _ => n ∈ ks)
        ((merged call).filter fun n _ => n ∈ ks) := by
    intro ks hks n
    rw [Dict.get?_filter, Dict.get?_filter]
    by_cases hn : n ∈ ks
    · rw [hmerged n (hks n hn)]
    · cases (merged call').get? n <;> cases (merged call).get? n <;> simp [hn]
  exact {
    arguments := ((harguments ▸ .refl _ : Dict.Same _ _).update hooked.routed).update supplied.routed
    extras := (hooked.rest.update supplied.rest).update
      ((hkept fun n hn => .inl hn).mapKeys serverChannel_injective)
    authored := hooked.authored.update supplied.authored
    beside := hkept fun n hn => .inr hn }

/-- Two calls that differ in their author's layers alone deliver what their routings leave. -/
theorem deliver_congr_layers (hsent : call'.sent = call.sent) (hparams : call'.params = call.params)
    (hroute : call'.route = call.route) (hrecorded : call'.recorded = call.recorded)
    (h : (routeAuthorValues call').Same (routeAuthorValues call))
    (hmerged : site.kind = .selector → ∀ n ∈ site.filterNames, n ∉ site.hidden →
      (merged call').get? n = (merged call).get? n) :
    (deliver call').Same [] (deliver call) := by
  refine deliver_congr hroute (fun n _ => h.arguments n) h.extras h.authored
    (fun n _ => h.arguments n) (fun _ n _ _ => by rw [hparams]) fun n => ?_
  cases hkind : site.kind with
  | selector =>
    rw [get?_beside_selector call' hkind, get?_beside_selector call hkind, hroute, hsent]
    split
    · next hn => rw [hmerged hkind n hn.1 hn.2]
    · rfl
  | single =>
    rw [get?_beside_single call' hkind, get?_beside_single call hkind, hroute, hsent, hrecorded,
      h.arguments n]
    simp only [h.authored.mem_iff]
  | many =>
    simp only [deliver, finish, hkind]

end

end RestFrameworkServices
