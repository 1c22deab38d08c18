import RestFrameworkServices.Dispatch.EdgeArguments

/-!
# The data of a filter

A call of a selector spec, or of a service spec's target lookup, reads a filter's names twice: the
filter narrows the rows by them, and the selector and the preconditions may take parameters of the
same names. `prepare_edge_call` keeps the two apart in four steps over one mapping: it reads off what
the callables are handed (`_beside_filter`), puts `filter_data` over the filter's names
(`_route_filter_data`), reads them as the filter set does (`_as_its_filter_set_reads`), and routes
the author's values over the result (`_route_author_values`). The compiled callables swap the
filter's values for the ones read off (`received`).

`SentAlike` is two calls sent alike, whatever their filter's data. `SentAlike.handed` says a callable is
handed the same of both, and `get?_arguments_filtered` what a selector spec's filter reads.
-/

namespace RestFrameworkServices

open Lib

universe u

/-! ## The filter -/

/-- `filter_data`: a query string or form, or any other mapping. -/
inductive FilterData where
  | form (data : QueryDict)
  | mapping (entries : Dict String Value)

/-- What the edge reads of a filter set: the names of its parameters, which are arrays, how the
kernel coerces the string of one, and which are comma-separated. -/
structure FilterSet where
  names : List String
  arrays : List String
  coerce : String → Value → Value
  csv : List String
  csv_names : ∀ n ∈ csv, n ∈ names

namespace FilterSet

variable (fs : FilterSet)

/-- A filter's value in its data: a form's read flat and coerced. -/
def valueIn : FilterData → String → Option Value
  | .form data, n => (data.lists.get? n).map fun values =>
      fs.coerce n (if n ∈ fs.arrays then .list values else lastValue values)
  | .mapping entries, n => entries.get? n

/-- `_route_filter_data`. -/
def routeFilterData (data : Option FilterData) (arguments : Dict String Value) :
    Dict String Value :=
  match data with
  | none => arguments
  | some data => (arguments.without fs.names).update (.tabulate (fs.valueIn data) fs.names)

/-- A filter's value as its filter set reads one: `None` is no value. -/
def read (n : String) : Value → Option Value
  | .null => none
  | value => some (if n ∈ fs.csv then csvRead value else value)

/-- `_as_its_filter_set_reads`. -/
def asItsFilterSetReads (arguments : Dict String Value) : Dict String Value :=
  arguments.filterMap fun n value => if n ∈ fs.names then fs.read n value else some value

/-- The other names of the arguments are as they were. -/
theorem without_routeFilterData (data : Option FilterData) (arguments : Dict String Value) :
    (fs.routeFilterData data arguments).without fs.names = arguments.without fs.names := by
  cases data with
  | none => rfl
  | some data =>
    have hfilter : ((Dict.tabulate (fs.valueIn data) fs.names).without fs.names) = .empty := by
      refine Dict.without_eq_empty fun n hn => ?_
      rw [Dict.mem_iff_isSome, Dict.get?_tabulate] at hn
      by_contra hno
      rw [if_neg hno] at hn
      cases hn
    have htwice : (arguments.without fs.names).without fs.names = arguments.without fs.names :=
      Dict.without_eq_self fun n hn hmem => by
        rw [Dict.mem_iff_isSome, Dict.get?_without, if_pos hmem] at hn
        cases hn
    rw [routeFilterData, Dict.without_update, hfilter, htwice]
    rfl

/-- Reading the filter's names as its filter set does leaves the others. -/
theorem without_asItsFilterSetReads (arguments : Dict String Value) :
    (fs.asItsFilterSetReads arguments).without fs.names = arguments.without fs.names :=
  Dict.without_filterMap (fun _ _ hn => if_neg hn) arguments

/-- What the filter's name holds once its data is routed and read. -/
theorem get?_filtered (data : FilterData) (arguments : Dict String Value) {n : String}
    (hn : n ∈ fs.names) :
    (fs.asItsFilterSetReads (fs.routeFilterData (some data) arguments)).get? n =
      (fs.valueIn data n).bind (fs.read n) := by
  rw [asItsFilterSetReads, Dict.get?_filterMap, routeFilterData, Dict.get?_update,
    Dict.get?_tabulate, if_pos hn, Dict.get?_without, if_pos hn, Option.or_none]
  simp only [hn, if_true]

end FilterSet

/-! ## The call -/

/-- A selector spec with a filter, or a service spec whose target lookup has one: its names
(`site`), its declared channels, its filter, and what `prepare_edge_call` drops of the arguments. The
kernel adds a filter's parameters to the reads; a selector spec has no Validator's fields; and a
`many` call runs no lookup. -/
structure FilteredSpec where
  site : Site
  edge : EdgeSpec
  filter : FilterSet
  bundled : Bool
  seedNames : List String
  excluded : List String
  lookupReads : List String
  filter_names : site.filterNames = filter.names
  filter_reads : ∀ n ∈ filter.names, n ∈ site.reads
  unfielded : site.kind = .selector → site.fields = []
  looked_up : site.kind ≠ .many

/-- The author's values for a call: a view hook's, the spec's provider's, and the target lookup's
own provider's. -/
structure AuthorLayers (site : Site) where
  hook : Dict String (Answer Value)
  provided : Dict String (Answer Value)
  recorded : Dict String (Answer Value)
  unreserved : ∀ n ∈ provided, n ∉ site.reserved

/-- What a call is made with. -/
structure Sent where
  params : RequestData
  view : EdgeView
  query : Option QueryDict
  filterData : Option FilterData

/-- What the kernel's dispatch is handed: the arguments, the extras, the values seated over a
Validator's, and the seeds of a target lookup. -/
structure Dispatched where
  arguments : Dict String Value
  overlay : Dict String (Answer Value)
  seated : Dict String (Answer Value)
  seeds : Dict String (Answer Value)

namespace FilteredSpec

section
variable (spec : FilteredSpec)

/-- The names the spec itself declares it reads. -/
def declared : List String := spec.edge.reads.map fun
  | .urlKwarg name | .queryParam name => name

/-- The names a `BUNDLE` call takes none of the caller's values for (`bundled_selector`). -/
def callerNames : List String :=
  if spec.bundled then
    spec.site.reads.filter fun n => n ∉ spec.declared ∧ n ∉ spec.filter.names
  else []

/-- The arguments dropped before the filter's data: a `BUNDLE` call's that no route captures, or the
excluded fields but a lookup's read the route captures. -/
def dropped (route : Dict String Value) : List String :=
  if spec.site.kind = .selector then spec.callerNames.filter (· ∉ route)
  else spec.excluded.filter fun n => ¬ (n ∈ route ∧ n ∈ spec.lookupReads)

/-- The route, as the edge has left it. -/
def route (s : Sent) : Dict String Value :=
  ((spec.edge.edgeArguments s.params s.view s.query).view.kwargs).getD .empty

/-- The arguments before the filter's data; none where what was sent is no mapping, which the
kernel's shape check refuses. -/
def arguments? (s : Sent) : Option (Dict String Value) :=
  match (spec.edge.edgeArguments s.params s.view s.query).arguments with
  | .object arguments =>
    some ((arguments.without spec.seedNames).without (spec.dropped (spec.route s)))
  | .form _ | .other _ => none

/-- The arguments the callables' values are read off: under `BUNDLE`, the declared reads alone. -/
def besideSource (arguments : Dict String Value) : Dict String Value :=
  if spec.bundled then arguments.filter fun n _ => n ∈ spec.declared else arguments

/-- What was sent, as `_lookup_keys_sent` reads a name of it. -/
def paramsOf : RequestData → Option (Dict String Value)
  | .form body => some (body.lists.mapValues lastValue)
  | .object entries => some entries
  | .other _ => none

variable (layers : AuthorLayers spec.site) (s : Sent) (arguments : Dict String Value)

/-- The author's values over the arguments, the filter's data in them. -/
def call : Call spec.site Value where
  hook := layers.hook
  provided := layers.provided
  arguments := spec.filter.asItsFilterSetReads (spec.filter.routeFilterData s.filterData arguments)
  sent := spec.besideSource arguments
  params := paramsOf s.params
  route := spec.route s
  recorded := layers.recorded
  unreserved := layers.unreserved

/-- The author's values that went into arguments. -/
def authoredValues (routed : Routed Value) : Dict String (Answer Value) :=
  (Dict.tabulate routed.arguments.get? routed.authored.keys).mapValues .given

/-- What the edge call carries for its spec's callables under the filter's names
(`state.beside_filter`), a target lookup's provider having answered. -/
def besideValues : Beside spec.site.filterNames spec.site.hidden (Answer Value) :=
  let call := spec.call layers s arguments
  if spec.site.kind = .selector then
    (besideFilter call).record (routeAuthorValues call).beside
  else ((besideFilter call).record (authoredValues (routeAuthorValues call))).record call.recorded

/-- `_hidden_captures`: the route's values for the names a selector spec's callables hide. -/
def hiddenCaptures : Dict String (Answer Value) :=
  ((spec.route s).filter fun n _ => n ∈ spec.site.hidden ∧ n ∉ spec.site.reserved).mapValues .given

/-- What the kernel is handed. -/
def dispatched : Dispatched :=
  let delivered := deliver (spec.call layers s arguments)
  { arguments := delivered.arguments
    overlay :=
      if spec.site.kind = .selector then
        ((spec.hiddenCaptures s).update delivered.overlay).mapKeys fun n =>
          if n ∈ spec.site.shadowed then serverChannel n else n
      else delivered.overlay
    seated := delivered.seated
    seeds := delivered.seeds }

end

/-- The keyword arguments the kernel hands a callable of its pool: by name, or all of it. -/
def byName (signature : Signature) (pool : Dict String (Answer Value)) :
    Dict String (Answer Value) :=
  if signature.openEnded then pool else pool.filter fun n _ => n ∈ signature.parameters

/-- What an author's selector or precondition is handed, of the pool the kernel makes of what it is
handed where it refuses nothing. -/
def handed (spec : FilteredSpec) (layers : AuthorLayers spec.site)
    (pool : Dispatched → Option (Dict String (Answer Value))) (signature : Signature) (s : Sent) :
    Option (Dict String (Answer Value)) :=
  (spec.arguments? s).bind fun arguments =>
    (pool (spec.dispatched layers s arguments)).map fun held =>
      received signature (some (spec.besideValues layers s arguments))
        (byName (channelledSignature spec.site.filterNames spec.site.hidden signature) held)

/-- The kernel's pool holds under each name what comes of the call's values under it: of two calls
that differ in the arguments of some names, it differs in those names. -/
def ByName (pool : Dispatched → Option (Dict String (Answer Value))) : Prop :=
  ∀ (names : List String) (d e : Dispatched) (p q : Dict String (Answer Value)),
    pool d = some p → pool e = some q →
    d.arguments.without names = e.arguments.without names → d.overlay = e.overlay →
    d.seated = e.seated → d.seeds = e.seeds → p.without names = q.without names

/-! ## The author's values over other arguments -/

section
variable {site : Site} (call : Call site Value) (arguments : Dict String Value)

/-- An argument an author's value went into is that value over any arguments. -/
theorem get?_authored_of_arguments {n : String}
    (hn : n ∈ (routeAuthorValues call).authored) :
    (routeAuthorValues { call with arguments }).arguments.get? n =
      (routeAuthorValues call).arguments.get? n :=
  (get?_arguments_of_authored { call with arguments } hn).trans
    (get?_arguments_of_authored call hn).symm

/-- The arguments the author's values leave differ where the arguments under them did. -/
theorem without_routed {names : List String}
    (h : arguments.without names = call.arguments.without names) :
    (routeAuthorValues { call with arguments }).arguments.without names =
      (routeAuthorValues call).arguments.without names := by
  have hbase : ∀ held : Dict String Value, ∀ owned : List String,
      (held.without owned).without names = (held.without names).without owned :=
    fun held owned => held.without_comm owned names
  simp only [routeAuthorValues, Dict.without_update, hbase, h]
  rfl

/-- The author's values that went into arguments are the same over any arguments. -/
theorem authoredValues_arguments :
    authoredValues (routeAuthorValues { call with arguments }) =
      authoredValues (routeAuthorValues call) :=
  congrArg (Dict.mapValues Answer.given)
    (Dict.tabulate_congr fun _ hn => get?_authored_of_arguments call arguments hn)

/-- So are the lookup's reads a spread service takes. -/
theorem lookupKeysSent_arguments :
    lookupKeysSent { call with arguments } (routeAuthorValues { call with arguments }) =
      lookupKeysSent call (routeAuthorValues call) := by
  refine Dict.tabulate_congr fun n _ => ?_
  show (if n ∈ (routeAuthorValues call).authored then
      (routeAuthorValues { call with arguments }).arguments.get? n
    else call.params.bind fun params => params.get? n) = _
  split
  · next hn => exact get?_authored_of_arguments call arguments hn
  · rfl

/-- So is what is delivered beside the arguments. -/
theorem deliver_arguments :
    (deliver { call with arguments }).arguments =
        (routeAuthorValues { call with arguments }).arguments ∧
      (deliver { call with arguments }).overlay = (deliver call).overlay ∧
      (deliver { call with arguments }).seated = (deliver call).seated ∧
      (deliver { call with arguments }).seeds = (deliver call).seeds := by
  have hkeys := lookupKeysSent_arguments call arguments
  unfold deliver finish
  split
  · exact ⟨rfl, rfl, rfl, rfl⟩
  · exact ⟨rfl, rfl, rfl, rfl⟩
  · refine ⟨rfl, rfl, ?_, rfl⟩
    simp only [hkeys]
    rfl

end

/-! ## A callable takes nothing of the filter's data -/

section
variable {filtered hidden : List String}

/-- A callable that takes no name of the filter's is handed none of the pool's. -/
theorem byName_of_untaken {signature : Signature} (h : takenBeside filtered signature = [])
    (pool : Dict String (Answer Value)) : ∀ n ∈ byName signature pool, n ∉ filtered := by
  intro n hn hf
  unfold takenBeside at h
  split at h
  · rw [h] at hf
    cases hf
  · next hopen =>
    rw [byName, if_neg hopen, Dict.mem_iff_isSome, Dict.get?_filter] at hn
    by_cases hparam : n ∈ signature.parameters
    · have hmem : n ∈ filtered.filter (· ∈ signature.parameters) :=
        List.mem_filter.2 ⟨hf, decide_eq_true hparam⟩
      rw [h] at hmem
      cases hmem
    · cases pool.get? n <;> simp [hparam] at hn

/-- A callable within an edge call is handed nothing the kernel's pool holds under a filter's
name. -/
theorem received_congr (signature : Signature) (b : Beside filtered hidden (Answer Value))
    {p q : Dict String (Answer Value)} (h : p.without filtered = q.without filtered) :
    received signature (some b)
        (byName (channelledSignature filtered hidden signature) p) =
      received signature (some b)
        (byName (channelledSignature filtered hidden signature) q) := by
  have hnamed : (byName (channelledSignature filtered hidden signature) p).without filtered =
      (byName (channelledSignature filtered hidden signature) q).without filtered := by
    unfold byName
    split
    · exact h
    · rw [Dict.without_filter, Dict.without_filter, h]
  have hhanded : handedBeside signature (some b)
        (byName (channelledSignature filtered hidden signature) p) =
      handedBeside signature (some b)
        (byName (channelledSignature filtered hidden signature) q) := by
    simp only [handedBeside]
    split
    · next htaken =>
      have htaken := List.isEmpty_iff.1 htaken
      rw [Dict.without_eq_self (byName_of_untaken htaken p),
        Dict.without_eq_self (byName_of_untaken htaken q)] at hnamed
      exact hnamed
    · simp only [asHanded, hnamed]
  rw [received, received, hhanded]

end

/-! ## Two calls that differ in the filter's data -/

section
variable {spec : FilteredSpec} {layers : AuthorLayers spec.site} {s s' : Sent}
  {arguments : Dict String Value}

/-- A selector spec's author names what it is handed by its own name. -/
theorem routedAt_of_selector {site : Site} (hkind : site.kind = .selector)
    {values : Dict String (Answer Value)} {n : String} (hn : n ∈ site.names) :
    routedAt site.names site.wire values n = setAt values n := by
  have hwire : site.wire.map = .empty := site.wire_single (by rw [hkind]; decide)
  have hsource : sourceOf site.wire n = none := by
    rw [sourceOf, hwire]
    rfl
  rw [routedAt, if_pos hn, hsource, Option.bind_none, Option.or_none]

/-- Two calls sent alike, whose query strings agree on the declared `QueryParam`s. -/
structure SentAlike (spec : FilteredSpec) (s s' : Sent) : Prop where
  params : s'.params = s.params
  view : s'.view = s.view
  query : ∀ n ∈ spec.edge.queried, s'.query.bind (·.lists.get? n) = s.query.bind (·.lists.get? n)

/-- They have the same arguments and the same route before the filter's data. -/
theorem SentAlike.arguments? (h : SentAlike spec s s') :
    spec.arguments? s' = spec.arguments? s ∧ spec.route s' = spec.route s := by
  obtain ⟨harguments, hview⟩ := spec.edge.edgeArguments_congr s.params s.view h.query
  rw [← h.params, ← h.view] at harguments hview
  have hroute : spec.route s' = spec.route s := by
    rw [route, hview, route, h.params, h.view]
  refine ⟨?_, hroute⟩
  rw [FilteredSpec.arguments?, FilteredSpec.arguments?, harguments, hroute, h.params, h.view]

/-- The author's values of the second call go over the arguments with its own filter's data in them,
and are those of the first. -/
theorem SentAlike.call (h : SentAlike spec s s') :
    spec.call layers s' arguments =
      { spec.call layers s arguments with
        arguments := (spec.call layers s' arguments).arguments } := by
  simp only [FilteredSpec.call, h.params, h.arguments?.2]

/-- The arguments of the two calls differ in the filter's names alone. -/
theorem without_call (arguments : Dict String Value) :
    (spec.call layers s' arguments).arguments.without spec.filter.names =
      (spec.call layers s arguments).arguments.without spec.filter.names := by
  simp only [FilteredSpec.call, FilterSet.without_asItsFilterSetReads,
    FilterSet.without_routeFilterData]

/-- The callables' values under the filter's names are the same. -/
theorem SentAlike.besideValues (h : SentAlike spec s s') :
    spec.besideValues layers s' arguments = spec.besideValues layers s arguments := by
  unfold FilteredSpec.besideValues
  rw [h.call]
  split
  · rfl
  · simp only [authoredValues_arguments]
    rfl

/-- The values the edge call carries are those delivered beside the filter. -/
theorem besideValues_same (spec : FilteredSpec) (layers : AuthorLayers spec.site) (s : Sent)
    (arguments : Dict String Value) :
    Dict.Same (spec.besideValues layers s arguments).values
      (deliver (spec.call layers s arguments)).beside := by
  intro n
  cases hkind : spec.site.kind with
  | selector =>
    simp only [FilteredSpec.besideValues, deliver, finish, hkind, if_true]
  | single =>
    have hauthored : ∀ n, (authoredValues
        (routeAuthorValues (spec.call layers s arguments))).get? n =
        if n ∈ (routeAuthorValues (spec.call layers s arguments)).authored then
          ((routeAuthorValues (spec.call layers s arguments)).arguments.get? n).map .given
        else none := by
      intro n
      rw [authoredValues, Dict.get?_mapValues, Dict.get?_tabulate]
      exact apply_ite (Option.map Answer.given) _ _ _
    simp only [FilteredSpec.besideValues, deliver, finish, hkind, reduceCtorEq, if_false,
      Beside.get?_record, hauthored, get?_authorsArguments]
  | many => exact absurd hkind spec.looked_up

variable (layers) in
/-- What the kernel is handed differs in the filter's arguments alone. -/
theorem SentAlike.dispatched (h : SentAlike spec s s') :
    (spec.dispatched layers s' arguments).arguments.without spec.filter.names =
        (spec.dispatched layers s arguments).arguments.without spec.filter.names ∧
      (spec.dispatched layers s' arguments).overlay =
        (spec.dispatched layers s arguments).overlay ∧
      (spec.dispatched layers s' arguments).seated =
        (spec.dispatched layers s arguments).seated ∧
      (spec.dispatched layers s' arguments).seeds =
        (spec.dispatched layers s arguments).seeds := by
  obtain ⟨harguments, hoverlay, hseated, hseeds⟩ := deliver_arguments
    (spec.call layers s arguments) (spec.call layers s' arguments).arguments
  have hrouted := without_routed (spec.call layers s arguments)
    (spec.call layers s' arguments).arguments (without_call arguments)
  have hfirst : (deliver (spec.call layers s arguments)).arguments =
      (routeAuthorValues (spec.call layers s arguments)).arguments :=
    (deliver_arguments (spec.call layers s arguments)
      (spec.call layers s arguments).arguments).1
  have hcaptures : spec.hiddenCaptures s' = spec.hiddenCaptures s := by
    rw [hiddenCaptures, hiddenCaptures, h.arguments?.2]
  rw [← h.call] at harguments hoverlay hseated hseeds hrouted
  refine ⟨?_, ?_, hseated, hseeds⟩
  · rw [FilteredSpec.dispatched, FilteredSpec.dispatched, harguments, hfirst]
    exact hrouted
  · simp only [FilteredSpec.dispatched, hoverlay, hcaptures]

/-- **A callable is handed the same of two calls that differ in their filter's data.** -/
theorem SentAlike.handed (h : SentAlike spec s s')
    {pool : Dispatched → Option (Dict String (Answer Value))} (hpool : ByName pool)
    (signature : Signature) {k k' : Dict String (Answer Value)}
    (hk : handed spec layers pool signature s = some k)
    (hk' : FilteredSpec.handed spec layers pool signature s' = some k') : k' = k := by
  obtain ⟨arguments, harguments, hrun⟩ := Option.bind_eq_some_iff.1 hk
  obtain ⟨held, hheld, rfl⟩ := Option.map_eq_some_iff.1 hrun
  obtain ⟨arguments', harguments', hrun'⟩ := Option.bind_eq_some_iff.1 hk'
  obtain ⟨held', hheld', rfl⟩ := Option.map_eq_some_iff.1 hrun'
  rw [h.arguments?.1, harguments] at harguments'
  cases harguments'
  obtain ⟨hnamed, hoverlay, hseated, hseeds⟩ := h.dispatched layers
  have hothers := hpool _ _ _ _ _ hheld' hheld hnamed hoverlay hseated hseeds
  rw [← spec.filter_names] at hothers
  rw [h.besideValues]
  exact received_congr signature _ hothers

/-- What a selector spec's filter reads: of a name no callable hides the provider's value where it
gives one; else nothing of a name the provider owns, and its argument. -/
theorem get?_arguments_of_filter (spec : FilteredSpec) (layers : AuthorLayers spec.site) (s : Sent)
    (hkind : spec.site.kind = .selector) (arguments : Dict String Value) {n : String}
    (hn : n ∈ spec.filter.names) :
    (spec.dispatched layers s arguments).arguments.get? n =
      (if n ∈ spec.site.shadowed then none else setAt layers.provided n).or
        (if n ∈ spec.site.owned then none
          else (spec.call layers s arguments).arguments.get? n) := by
  have hname : n ∈ spec.site.names := List.mem_append_left _ (spec.filter_reads n hn)
  have hfilter : n ∈ spec.site.filterNames := by
    rw [spec.filter_names]
    exact hn
  have hunhooked : ¬ (spec.site.Heard n ∧ n ∉ spec.site.shadowed ∧ n ∉ spec.site.beside) := by
    rintro ⟨-, hshadowed, hbeside⟩
    exact hbeside (by simp [Site.beside, hkind, hfilter, hshadowed])
  have harguments : (spec.dispatched layers s arguments).arguments =
      (routeAuthorValues (spec.call layers s arguments)).arguments :=
    (deliver_arguments (spec.call layers s arguments)
      (spec.call layers s arguments).arguments).1
  rw [harguments, get?_arguments, routedAt_of_selector hkind hname, routedAt_of_selector hkind hname,
    setAt_hookLayer, if_neg hunhooked, setAt_providedLayer, Option.none_or, spec.unfielded hkind]
  simp [FilteredSpec.call]

end

/-! ### A selector with a parameter named like its filter -/

end FilteredSpec

end RestFrameworkServices
