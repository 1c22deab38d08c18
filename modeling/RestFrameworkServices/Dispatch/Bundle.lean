import RestFrameworkServices.Dispatch.FilterData
import RestFrameworkServices.ServiceSpecs.LeftToTheCallable

/-!
# A selector under `BUNDLE`

A selector spec dispatched under `BUNDLE` takes none of the caller's values for a parameter read off
a signature alone. Its twin (`bundled_selector`) is asked for none of them, the edge drops the
caller's before the call, and what is handed beside the filter is read off the declared reads, the
route and the author's values (`besideSource`). The kernel comes in as what it makes of a call's
values name by name (`Kernel`).

`get?_handed_caller` and `get?_handed_beside` give what a callable is handed under such a name, for
a parameter of its own and for one a filter reads too; neither mentions what was sent.
-/

namespace RestFrameworkServices

open Lib

/-! ## The call -/

/-- What the kernel makes of a call of a spec that reads `reads`, where it refuses nothing: under a
name that is read, or that it seeds nothing under, its pool holds what comes of the call's values of
that name, an argument's only where the name is read, and nothing of nothing. -/
structure Kernel (reads : List String) where
  pool : Dispatched → Option (Dict String (Answer Value))
  seeds : List String
  place : String → Option Value → Option (Answer Value) → Option (Answer Value) →
    Option (Answer Value) → Option (Answer Value)
  pool_place : ∀ d p, pool d = some p → ∀ n, n ∈ reads ∨ n ∉ seeds →
    p.get? n = place n (if n ∈ reads then d.arguments.get? n else none) (d.overlay.get? n)
      (d.seated.get? n) (d.seeds.get? n)
  place_none : ∀ n ∉ seeds, place n none none none none = none

/-- The signature of a callable, as the wrappers read it. -/
def Reads.Callable.signature (fn : Reads.Callable) : Signature where
  parameters := fn.parameters.map (·.name)
  openEnded := fn.parameters.any fun p => p.kind == .varKeyword

/-- A callable is handed a value of the name, where the pool holds one. -/
def Signature.Takes (signature : Signature) (n : String) : Prop :=
  signature.openEnded = true ∨ n ∈ signature.parameters

instance (signature : Signature) (n : String) : Decidable (signature.Takes n) :=
  inferInstanceAs (Decidable (signature.openEnded = true ∨ n ∈ signature.parameters))

/-- A selector spec under `BUNDLE`, with its compiled variant: the names are the variant's reads, the
edge reads them off the route, and a hidden parameter is read off no signature. -/
structure BundledSelector where
  spec : FilteredSpec
  variant : Reads.SelectorVariant
  selector : spec.site.kind = .selector
  bundled : spec.bundled = true
  unserviced : spec.edge.service = none
  variant_reads : Reads.names variant.reads = spec.site.reads
  reader_reads : spec.edge.readerNames = spec.site.reads
  hidden_unread : ∀ n ∈ spec.site.hidden, n ∈ spec.site.reads →
    n ∈ spec.declared ∨ n ∈ spec.filter.names

namespace BundledSelector

variable (b : BundledSelector)

/-- The spec the kernel dispatches. -/
def twin : Reads.SelectorVariant := b.variant.bundled b.spec.callerNames

/-- A callable of the twin: the author's, taking its shadowed parameters on the server's channel
(`_on_the_server_s_channel`), left to itself. -/
def compiledCallable (fn : Reads.Callable) : Reads.Callable :=
  let taken := channelled b.spec.site.filterNames b.spec.site.hidden fn.signature
  Reads.leftToTheCallable
    { fn with
      parameters := fn.parameters.map fun p =>
        { p with name := if p.name ∈ taken then serverChannel p.name else p.name } }
    (some b.spec.callerNames)

/-- What an author's selector or precondition is handed. -/
def handed (layers : AuthorLayers b.spec.site) (kernel : Kernel b.spec.site.reads)
    (fn : Reads.Callable) (s : Sent) : Option (Dict String (Answer Value)) :=
  (b.spec.arguments? s).bind fun arguments =>
    (kernel.pool (b.spec.dispatched layers s arguments)).map fun held =>
      received fn.signature (some (b.spec.besideValues layers s arguments))
        (FilteredSpec.byName (b.compiledCallable fn).signature held)

/-- A route's capture of a name, as the call was made. -/
def captured (s : Sent) (n : String) : Option Value := s.view.kwargs.bind (·.get? n)

/-- The server's value for a parameter: the provider's, a hook's, or the route's capture of a name
that neither the provider owns nor a seed takes. -/
def served (layers : AuthorLayers b.spec.site) (s : Sent) (n : String) : Option Value :=
  (setAt layers.provided n).or ((if b.spec.site.Heard n then setAt layers.hook n else none).or
    (if n ∈ b.spec.site.owned ∨ n ∈ b.spec.seedNames then none
      else (captured s n).map (b.spec.edge.coerce n)))

/-- The server's value for a parameter a filter reads too: what the provider answers, a hook's, or the
route's capture. -/
def servedBeside (layers : AuthorLayers b.spec.site) (s : Sent) (n : String) :
    Option (Answer Value) :=
  (layers.provided.get? n).or ((if b.spec.site.Heard n then layers.hook.get? n else none).or
    ((captured s n).map .given))

/-- A parameter's name that no wrapper takes for another: it is no channel's name, and for a callable
with a parameter on a channel nothing of the call goes by the name of its own. -/
structure Apart (layers : AuthorLayers b.spec.site) (kernel : Kernel b.spec.site.reads)
    (signature : Signature) (n : String) : Prop where
  unprefixed : ¬ serverChannelPrefix.toList <+: n.toList
  alone : channelled b.spec.site.filterNames b.spec.site.hidden signature = [] ∨
    serverChannel n ∉ b.spec.site.reads ∧ serverChannel n ∉ b.spec.site.hidden ∧
      serverChannel n ∉ kernel.seeds ∧ serverChannel n ∉ layers.hook ∧
      serverChannel n ∉ layers.provided

end BundledSelector

/-! ## What a callable is handed of the pool -/

namespace FilteredSpec

/-- A callable is handed by name what the pool holds of the names it takes. -/
theorem get?_byName (signature : Signature) (pool : Dict String (Answer Value)) (n : String) :
    (byName signature pool).get? n = if signature.Takes n then pool.get? n else none := by
  rw [byName]
  cases hopen : signature.openEnded with
  | true => simp [Signature.Takes, hopen]
  | false =>
    rw [if_neg Bool.false_ne_true, Dict.get?_filter]
    by_cases hn : n ∈ signature.parameters <;> cases pool.get? n <;>
      simp [Signature.Takes, hopen, hn]

/-- A callable is handed the same by any signature of the same names. -/
theorem byName_congr {signature signature' : Signature}
    (hopen : signature'.openEnded = signature.openEnded)
    (hnames : ∀ n, n ∈ signature'.parameters ↔ n ∈ signature.parameters)
    (pool : Dict String (Answer Value)) : byName signature' pool = byName signature pool := by
  simp only [byName, hopen, hnames]

end FilteredSpec

section
variable {filtered hidden : List String}

/-- Within an edge call the first wrapper hands on, under a filter's name, the value beside the filter
where the callable takes it, and under any other what the kernel handed. -/
theorem get?_handedBeside (signature : Signature) (beside : Beside filtered hidden (Answer Value))
    (pool : Dict String (Answer Value)) (n : String) :
    (handedBeside signature (some beside)
        (FilteredSpec.byName (channelledSignature filtered hidden signature) pool)).get? n =
      if (channelledSignature filtered hidden signature).Takes n then
        if n ∈ filtered then beside.values.get? n else pool.get? n
      else none := by
  have htaken : n ∈ filtered →
      (n ∈ takenBeside filtered (channelledSignature filtered hidden signature) ↔
        (channelledSignature filtered hidden signature).Takes n) := by
    intro hn
    cases hopen : (channelledSignature filtered hidden signature).openEnded <;>
      simp [takenBeside, Signature.Takes, hopen, hn]
  unfold handedBeside
  simp only
  split
  · next hnone =>
    have hnone := List.isEmpty_iff.1 hnone
    rw [FilteredSpec.get?_byName]
    split
    · next htakes =>
      rw [if_neg]
      intro hn
      rw [hnone] at htaken
      exact List.not_mem_nil ((htaken hn).2 htakes)
    · rfl
  · rw [asHanded, Dict.get?_update, Dict.get?_filter, Dict.get?_without, FilteredSpec.get?_byName]
    by_cases hn : n ∈ filtered
    · by_cases htakes : (channelledSignature filtered hidden signature).Takes n
      · cases beside.values.get? n <;> simp [hn, htaken hn, htakes]
      · cases beside.values.get? n <;> simp [hn, htaken hn, htakes]
    · have hno : beside.values.get? n = none :=
        Dict.get?_eq_none.2 fun hmem => hn (beside.within n hmem).1
      simp [hn, hno]

/-- A name that is no channel's, and is not taken on one, is taken as it was. -/
theorem takes_channelledSignature {signature : Signature} {n : String}
    (hplain : ¬ serverChannelPrefix.toList <+: n.toList)
    (hn : n ∉ channelled filtered hidden signature) :
    (channelledSignature filtered hidden signature).Takes n ↔ signature.Takes n := by
  have hmem : n ∈ (channelledSignature filtered hidden signature).parameters ↔
      n ∈ signature.parameters := by
    simp only [channelledSignature, List.mem_map]
    constructor
    · rintro ⟨m, hm, hmn⟩
      split at hmn
      · rw [← hmn] at hplain
        exact absurd ⟨m.toList, String.toList_append.symm⟩ hplain
      · exact hmn ▸ hm
    · intro hmem
      exact ⟨n, hmem, if_neg hn⟩
  simp only [Signature.Takes, hmem]
  rfl

/-- A callable is handed what the first wrapper hands on, under a name that is no channel's and whose
own channel holds nothing. -/
theorem get?_received_apart (signature : Signature) (beside : Beside filtered hidden (Answer Value))
    (pool : Dict String (Answer Value)) {n : String}
    (hplain : ¬ serverChannelPrefix.toList <+: n.toList)
    (hn : n ∉ channelled filtered hidden signature)
    (halone : channelled filtered hidden signature = [] ∨
      serverChannel n ∉ filtered ∧ pool.get? (serverChannel n) = none) :
    (received signature (some beside)
        (FilteredSpec.byName (channelledSignature filtered hidden signature) pool)).get? n =
      if signature.Takes n then if n ∈ filtered then beside.values.get? n else pool.get? n
      else none := by
  have hbeside := get?_handedBeside signature beside pool n
  simp only [takes_channelledSignature hplain hn] at hbeside
  unfold received
  split
  · exact hbeside
  · next hsome =>
    obtain ⟨hchannel, hnone⟩ := halone.resolve_left fun h => hsome (List.isEmpty_iff.2 h)
    have hempty := get?_handedBeside signature beside pool (serverChannel n)
    rw [if_neg hchannel, hnone, ite_self] at hempty
    -- nothing is under the channel's name, so the name's own value is the one renamed
    have hlone : ¬ [n, serverChannel n].Sublist (handedBeside signature (some beside)
        (FilteredSpec.byName (channelledSignature filtered hidden signature) pool)).keys :=
      fun hsub => Dict.get?_eq_none.1 hempty (hsub.subset (by simp))
    rw [get?_ownNames, if_neg (not_or.2 ⟨hplain, hlone⟩), hempty, Option.or_none]
    exact hbeside

end

namespace BundledSelector

variable (b : BundledSelector)

/-! ## The twin's callables -/

/-- A callable of the twin takes the names the compiled one does. -/
theorem byName_compiledCallable (fn : Reads.Callable) (pool : Dict String (Answer Value)) :
    FilteredSpec.byName (b.compiledCallable fn).signature pool =
      FilteredSpec.byName
        (channelledSignature b.spec.site.filterNames b.spec.site.hidden fn.signature) pool := by
  refine FilteredSpec.byName_congr ?_ (fun n => ?_) pool
  · simp only [compiledCallable, Reads.Callable.signature, Reads.varKeyword_leftToTheCallable,
      List.any_map, Function.comp_def]
    rfl
  · simp only [compiledCallable, Reads.Callable.signature, channelledSignature,
      (Reads.names_leftToTheCallable _ _).mem_iff, List.map_map, Function.comp_def]

/-- What a callable of the twin is handed is what the author's is. -/
theorem handed_eq (layers : AuthorLayers b.spec.site) (kernel : Kernel b.spec.site.reads)
    (fn : Reads.Callable) (s : Sent) :
    b.handed layers kernel fn s = FilteredSpec.handed b.spec layers kernel.pool fn.signature s := by
  simp only [handed, FilteredSpec.handed, byName_compiledCallable]

/-! ## The names -/

section
variable {b} {layers : AuthorLayers b.spec.site} {kernel : Kernel b.spec.site.reads} {n : String}

/-- The names of the twin's own are read, and neither declared nor a filter's. -/
theorem mem_callerNames :
    n ∈ b.spec.callerNames ↔
      n ∈ b.spec.site.reads ∧ n ∉ b.spec.declared ∧ n ∉ b.spec.filter.names := by
  simp [FilteredSpec.callerNames, b.bundled]

/-- No callable hides one. -/
theorem not_hidden_of_caller (hn : n ∈ b.spec.callerNames) : n ∉ b.spec.site.hidden := by
  obtain ⟨hread, hdeclared, hfilter⟩ := mem_callerNames.1 hn
  intro hhidden
  exact (b.hidden_unread n hhidden hread).elim hdeclared hfilter

/-- The names a bundled call's filter hands on are the filter's own. -/
theorem mem_filterNames_iff : n ∈ b.spec.site.filterNames ↔ n ∈ b.spec.filter.names := by
  rw [b.spec.filter_names]

/-- A name the edge's spec declares is declared. -/
theorem undeclared (hn : n ∉ b.spec.declared) :
    n ∉ b.spec.edge.urlKwargs ∧ n ∉ b.spec.edge.queried := by
  have hreads : b.spec.edge.declared = b.spec.edge.reads := by
    rw [EdgeSpec.declared, b.unserviced]
    exact List.append_nil _
  refine ⟨fun hmem => hn ?_, fun hmem => hn ?_⟩
  · obtain ⟨read, hread, hname⟩ := List.mem_filterMap.1 hmem
    refine List.mem_map.2 ⟨read, hreads ▸ hread, ?_⟩
    cases read <;> simp_all
  · obtain ⟨read, hread, hname⟩ := List.mem_filterMap.1 hmem
    refine List.mem_map.2 ⟨read, hreads ▸ hread, ?_⟩
    cases read <;> simp_all

end

/-! ## What the kernel is handed -/

section
variable {b} {layers : AuthorLayers b.spec.site} {s : Sent} {arguments : Dict String Value}
  {n : String}

/-- A selector spec's call seats nothing and seeds no lookup. -/
theorem dispatched_seated (b : BundledSelector) (layers : AuthorLayers b.spec.site) (s : Sent)
    (arguments : Dict String Value) :
    (b.spec.dispatched layers s arguments).seated = .empty ∧
      (b.spec.dispatched layers s arguments).seeds = .empty := by
  simp only [FilteredSpec.dispatched, deliver, finish, b.selector, and_self]

/-- Nothing is on a channel no shadowed name goes by. -/
theorem get?_channelledValues_of_ne {site : Site} (call : Call site Value)
    (hn : ∀ k ∈ site.shadowed, serverChannel k ≠ n) : (channelledValues call).get? n = none := by
  by_cases hex : ∃ k, serverChannel k = n
  · obtain ⟨k, rfl⟩ := hex
    rw [get?_channelledValues, if_neg fun hk => hn k hk rfl]
  · exact Dict.get?_mapKeys_of_none (fun k hk => hex ⟨k, hk⟩) _

/-- Beside its arguments a call is handed nothing under a name no callable hides, that is no shadowed
name's channel, and that is an argument or no author's key. -/
theorem get?_overlay (hhidden : n ∉ b.spec.site.hidden)
    (hchannel : ∀ k ∈ b.spec.site.shadowed, serverChannel k ≠ n)
    (hauthor : n ∈ b.spec.site.names ∨ n ∉ layers.hook ∧ n ∉ layers.provided) :
    (b.spec.dispatched layers s arguments).overlay.get? n = none := by
  have hshadowed : n ∉ b.spec.site.shadowed := by
    rw [Site.shadowed, if_pos b.selector]
    exact fun hmem => hhidden (by simpa using (List.mem_filter.1 hmem).2)
  have hown : ∀ k, (if k ∈ b.spec.site.shadowed then serverChannel k else k) = n ↔ k = n := by
    intro k
    split
    · next hk => exact ⟨fun h => absurd h (hchannel k hk), fun h => absurd (h ▸ hk) hshadowed⟩
    · rfl
  have hcaptures : (b.spec.hiddenCaptures s).get? n = none := by
    rw [FilteredSpec.hiddenCaptures, Dict.get?_mapValues, Dict.get?_filter]
    cases (b.spec.route s).get? n <;> simp [hhidden]
  have hrest : ∀ values : Dict String (Answer Value),
      n ∈ b.spec.site.names ∨ setAt values n = none →
      (split b.spec.site.names b.spec.site.wire values).rest.get? n = none := by
    rintro values (hname | hunset)
    · rw [get?_rest, if_pos (.inl hname)]
    · rw [get?_rest, hunset, Option.map_none, ite_self]
  have hextras : (routeAuthorValues (b.spec.call layers s arguments)).extras.get? n = none := by
    have hunset : ∀ values : Dict String (Answer Value), n ∉ values → setAt values n = none := by
      intro values hn
      rw [setAt, Dict.get?_eq_none.2 hn]
      rfl
    rw [get?_extras, get?_channelledValues_of_ne _ hchannel, hrest, hrest]
    · rfl
    · refine hauthor.imp_right fun h => ?_
      rw [setAt_hookLayer, hunset (b.spec.call layers s arguments).hook h.1, ite_self]
    · refine hauthor.imp_right fun h => ?_
      rw [setAt_providedLayer, if_pos hshadowed]
      exact hunset layers.provided h.2
  simp only [FilteredSpec.dispatched, deliver, finish, b.selector, if_true]
  rw [Dict.get?_mapKeys_of_one hown, Dict.get?_update, hextras, hcaptures]
  rfl

/-- What was sent is a mapping, in a call with arguments. -/
theorem exists_sent (harguments : b.spec.arguments? s = some arguments) :
    ∃ sent, b.spec.edge.sentMapping s.params = some sent := by
  cases hparams : s.params with
  | form body => exact ⟨_, rfl⟩
  | object entries => exact ⟨_, rfl⟩
  | other type =>
    rw [FilteredSpec.arguments?, hparams] at harguments
    cases harguments

/-- The route holds a name no read declares as the call was made. -/
theorem get?_route (harguments : b.spec.arguments? s = some arguments)
    (hn : n ∉ b.spec.declared) : (b.spec.route s).get? n = captured s n := by
  obtain ⟨sent, hsent⟩ := exists_sent harguments
  obtain ⟨hurl, hquery⟩ := undeclared hn
  obtain ⟨-, -, -, hroute⟩ := b.spec.edge.edgeArguments_undeclared s.view s.query hsent hurl hquery
  rw [captured, ← hroute, FilteredSpec.route]
  cases (b.spec.edge.edgeArguments s.params s.view s.query).view.kwargs <;> rfl

/-- The arguments hold, under a read that is not declared, the route's capture, or what was sent for
it where the twin takes that; and nothing of a seed. -/
theorem get?_arguments_undeclared (harguments : b.spec.arguments? s = some arguments)
    (hread : n ∈ b.spec.site.reads) (hn : n ∉ b.spec.declared) :
    arguments.get? n =
      if n ∈ b.spec.seedNames then none
      else ((captured s n).map (b.spec.edge.coerce n)).or
        (if n ∈ b.spec.callerNames then none
          else (b.spec.edge.sentMapping s.params).bind (·.get? n)) := by
  obtain ⟨sent, hsent⟩ := exists_sent harguments
  obtain ⟨hurl, hquery⟩ := undeclared hn
  obtain ⟨routed, hrouted, hvalue, -⟩ :=
    b.spec.edge.edgeArguments_undeclared s.view s.query hsent hurl hquery
  rw [if_pos (b.reader_reads ▸ hread)] at hvalue
  have hcall := harguments
  rw [FilteredSpec.arguments?, hrouted] at harguments
  cases harguments
  have hcaptured : n ∈ b.spec.route s ↔ (captured s n).isSome := by
    rw [Dict.mem_iff_isSome, get?_route hcall hn]
  have hdropped : n ∈ b.spec.dropped (b.spec.route s) ↔
      n ∈ b.spec.callerNames ∧ captured s n = none := by
    rw [FilteredSpec.dropped, if_pos b.selector, List.mem_filter, decide_eq_true_eq, hcaptured,
      Option.not_isSome_iff_eq_none]
  have hvalue : routed.get? n =
      ((captured s n).map (b.spec.edge.coerce n)).or (sent.get? n) := hvalue
  rw [Dict.get?_without, Dict.get?_without, hvalue, hsent, Option.bind_some]
  simp only [hdropped]
  by_cases hcaller : n ∈ b.spec.callerNames
  · cases captured s n <;> simp [hcaller]
  · simp [hcaller]

/-- The kernel is handed, for a parameter of the twin's own, the server's value. -/
theorem get?_dispatched_caller (harguments : b.spec.arguments? s = some arguments)
    (hn : n ∈ b.spec.callerNames) :
    (b.spec.dispatched layers s arguments).arguments.get? n = b.served layers s n := by
  obtain ⟨hread, hdeclared, hfilter⟩ := mem_callerNames.1 hn
  have hname : n ∈ b.spec.site.names := List.mem_append_left _ hread
  have hunfiltered : n ∉ b.spec.site.filterNames := mt mem_filterNames_iff.1 hfilter
  have hshadowed : n ∉ b.spec.site.shadowed := by
    rw [Site.shadowed, if_pos b.selector]
    exact fun hmem => hunfiltered (List.mem_of_mem_filter hmem)
  have hbeside : n ∉ b.spec.site.beside := by
    rw [Site.beside, if_pos b.selector]
    exact fun hmem => hunfiltered (List.mem_of_mem_filter hmem)
  have hcall : (b.spec.call layers s arguments).arguments.get? n = arguments.get? n := by
    have hwithout := congrArg (Dict.get? · n)
      ((b.spec.filter.without_asItsFilterSetReads
          (b.spec.filter.routeFilterData s.filterData arguments)).trans
        (b.spec.filter.without_routeFilterData s.filterData arguments))
    simp only [Dict.get?_without, if_neg hfilter] at hwithout
    exact hwithout
  have hrouting : (b.spec.dispatched layers s arguments).arguments =
      (routeAuthorValues (b.spec.call layers s arguments)).arguments :=
    (FilteredSpec.deliver_arguments (b.spec.call layers s arguments)
      (b.spec.call layers s arguments).arguments).1
  rw [hrouting, get?_arguments, FilteredSpec.routedAt_of_selector b.selector hname,
    FilteredSpec.routedAt_of_selector b.selector hname, setAt_hookLayer, setAt_providedLayer,
    if_pos hshadowed, hcall, get?_arguments_undeclared harguments hread hdeclared,
    b.spec.unfielded b.selector, served, if_pos hn, Option.or_none]
  by_cases howned : n ∈ b.spec.site.owned <;>
    simp [howned, hshadowed, hbeside, FilteredSpec.call]

/-- Beside the filter a callable is handed, of a name no read declares, what the server answers. -/
theorem get?_besideValues (harguments : b.spec.arguments? s = some arguments)
    (hn : n ∉ b.spec.declared) :
    (b.spec.besideValues layers s arguments).values.get? n =
      if n ∈ b.spec.site.filterNames ∧ n ∉ b.spec.site.hidden then b.servedBeside layers s n
      else none := by
  have hsent : (b.spec.call layers s arguments).sent.get? n = none := by
    show (b.spec.besideSource arguments).get? n = none
    rw [FilteredSpec.besideSource, if_pos b.bundled, Dict.get?_filter]
    cases arguments.get? n <;> simp [hn]
  have hroute : (b.spec.call layers s arguments).route.get? n = captured s n :=
    get?_route harguments hn
  rw [FilteredSpec.besideValues_same b.spec layers s arguments n,
    get?_beside_selector _ b.selector, get?_merged, hsent, hroute, Option.or_none, servedBeside,
    Option.or_assoc]
  rfl

/-! ## What a callable is handed -/

variable {kernel : Kernel b.spec.site.reads} {fn : Reads.Callable}
  {k : Dict String (Answer Value)}

/-- A callable is handed, under a name no wrapper takes for another, what the kernel's pool holds, or
what is beside the filter, where it takes the name. -/
theorem get?_handed (hk : b.handed layers kernel fn s = some k)
    (hapart : b.Apart layers kernel fn.signature n) (hhidden : n ∉ b.spec.site.hidden) :
    ∃ arguments held, b.spec.arguments? s = some arguments ∧
      kernel.pool (b.spec.dispatched layers s arguments) = some held ∧
      k.get? n =
        if fn.signature.Takes n then
          if n ∈ b.spec.site.filterNames then
            (b.spec.besideValues layers s arguments).values.get? n
          else held.get? n
        else none := by
  rw [handed_eq] at hk
  obtain ⟨arguments, harguments, hrun⟩ := Option.bind_eq_some_iff.1 hk
  obtain ⟨held, hheld, rfl⟩ := Option.map_eq_some_iff.1 hrun
  refine ⟨arguments, held, harguments, hheld,
    get?_received_apart fn.signature _ held hapart.unprefixed (fun hmem => hhidden ?_) ?_⟩
  · have hmem := (List.mem_filter.1 hmem).2
    exact (by simpa using hmem : n ∈ b.spec.site.filterNames ∧ n ∈ b.spec.site.hidden).2
  · refine hapart.alone.imp_right fun ⟨hread, hunhidden, hseed, hhook, hprovided⟩ => ⟨?_, ?_⟩
    · intro hmem
      exact hread (b.spec.filter_reads _ (mem_filterNames_iff.1 hmem))
    · have hchannel : ∀ j ∈ b.spec.site.shadowed, serverChannel j ≠ serverChannel n := by
        intro j hj hjn
        rw [Site.shadowed, if_pos b.selector] at hj
        have hj := (List.mem_filter.1 hj).2
        exact hhidden (serverChannel_injective hjn ▸ by simpa using hj)
      obtain ⟨hseated, hseeds⟩ := dispatched_seated b layers s arguments
      rw [kernel.pool_place _ _ hheld _ (.inr hseed), if_neg hread,
        get?_overlay hunhidden hchannel (.inr ⟨hhook, hprovided⟩), hseated, hseeds]
      exact kernel.place_none _ hseed

/-- **A parameter read off a signature alone is handed what the kernel makes of the server's value.** -/
theorem get?_handed_caller (hk : b.handed layers kernel fn s = some k)
    (hapart : b.Apart layers kernel fn.signature n) (hn : n ∈ b.spec.callerNames) :
    k.get? n =
      if fn.signature.Takes n then kernel.place n (b.served layers s n) none none none
      else none := by
  obtain ⟨hread, -, hfilter⟩ := mem_callerNames.1 hn
  have hhidden := not_hidden_of_caller hn
  obtain ⟨arguments, held, harguments, hheld, hvalue⟩ := get?_handed hk hapart hhidden
  have hchannel : ∀ j ∈ b.spec.site.shadowed, serverChannel j ≠ n := by
    rintro j - rfl
    exact hapart.unprefixed ⟨j.toList, String.toList_append.symm⟩
  obtain ⟨hseated, hseeds⟩ := dispatched_seated b layers s arguments
  rw [hvalue, if_neg (mt mem_filterNames_iff.1 hfilter),
    kernel.pool_place _ _ hheld n (.inl hread), if_pos hread, get?_dispatched_caller harguments hn,
    get?_overlay hhidden hchannel (.inl (List.mem_append_left _ hread)), hseated, hseeds]
  rfl

/-- **One a filter reads too is handed what the server answers.** -/
theorem get?_handed_beside (hk : b.handed layers kernel fn s = some k)
    (hapart : b.Apart layers kernel fn.signature n) (hn : n ∈ b.spec.filter.names)
    (hdeclared : n ∉ b.spec.declared) (hhidden : n ∉ b.spec.site.hidden) :
    k.get? n = if fn.signature.Takes n then b.servedBeside layers s n else none := by
  obtain ⟨arguments, held, harguments, -, hvalue⟩ := get?_handed hk hapart hhidden
  have hfilter := mem_filterNames_iff.2 hn
  have hbeside : (b.spec.besideValues layers s arguments).values.get? n =
      b.servedBeside layers s n :=
    (get?_besideValues harguments hdeclared).trans (if_pos ⟨hfilter, hhidden⟩)
  rw [hvalue, if_pos hfilter, hbeside]

/-- The filter given no data reads a name no read declares of the provider's value, or else the
route's capture or what was sent, where no provider owns it. -/
theorem get?_filter_unfiltered (harguments : b.spec.arguments? s = some arguments)
    (hdata : s.filterData = none) (hn : n ∈ b.spec.filter.names)
    (hdeclared : n ∉ b.spec.declared) (hseed : n ∉ b.spec.seedNames) :
    (b.spec.dispatched layers s arguments).arguments.get? n =
      (if n ∈ b.spec.site.shadowed then none else setAt layers.provided n).or
        (if n ∈ b.spec.site.owned then none
          else (((captured s n).map (b.spec.edge.coerce n)).or
            ((b.spec.edge.sentMapping s.params).bind (·.get? n))).bind (b.spec.filter.read n)) := by
  have hcaller : n ∉ b.spec.callerNames := fun hmem => (mem_callerNames.1 hmem).2.2 hn
  have hread : (b.spec.call layers s arguments).arguments.get? n =
      (arguments.get? n).bind (b.spec.filter.read n) := by
    rw [FilteredSpec.call, hdata]
    simp only [FilterSet.asItsFilterSetReads, FilterSet.routeFilterData, Dict.get?_filterMap, hn,
      if_true]
  rw [FilteredSpec.get?_arguments_of_filter b.spec layers s b.selector arguments hn, hread,
    get?_arguments_undeclared harguments (b.spec.filter_reads n hn) hdeclared, if_neg hseed,
    if_neg hcaller]

end

/-- **`BUNDLE` keeps the caller off a selector's signature.** The twin is asked for none of the names
it takes from no caller; a callable is handed under one the server's value alone, or nothing; it is
handed the same of two calls, whatever is sent with either; and a filter that is given no data
reads what was sent for its names, where no provider owns the name and no route captures it. -/
theorem caller_kept_off (b : BundledSelector) (layers : AuthorLayers b.spec.site)
    (kernel : Kernel b.spec.site.reads) :
    (∀ n ∈ b.spec.callerNames, n ∉ b.twin.asked) ∧
    (∀ (fn : Reads.Callable) (s : Sent) (k : Dict String (Answer Value)),
      b.handed layers kernel fn s = some k → ∀ n, b.Apart layers kernel fn.signature n →
        (n ∈ b.spec.callerNames →
          (k.get? n =
            if fn.signature.Takes n then kernel.place n (b.served layers s n) none none none
            else none) ∧
          (b.served layers s n = none → n ∉ kernel.seeds → k.get? n = none)) ∧
        (n ∈ b.spec.filter.names → n ∉ b.spec.declared → n ∉ b.spec.site.hidden →
          k.get? n = if fn.signature.Takes n then b.servedBeside layers s n else none)) ∧
    (∀ (fn : Reads.Callable) (s s' : Sent), s'.view = s.view →
      ∀ k k' : Dict String (Answer Value), b.handed layers kernel fn s = some k →
        b.handed layers kernel fn s' = some k' →
        ∀ n, b.Apart layers kernel fn.signature n →
          n ∈ b.spec.callerNames ∨
            (n ∈ b.spec.filter.names ∧ n ∉ b.spec.declared ∧ n ∉ b.spec.site.hidden) →
          k'.get? n = k.get? n) ∧
    ∀ (s : Sent) (arguments : Dict String Value), b.spec.arguments? s = some arguments →
      s.filterData = none → ∀ n ∈ b.spec.filter.names, n ∉ b.spec.declared →
        n ∉ b.spec.seedNames →
        (b.spec.dispatched layers s arguments).arguments.get? n =
          (if n ∈ b.spec.site.shadowed then none else setAt layers.provided n).or
            (if n ∈ b.spec.site.owned then none
              else (((captured s n).map (b.spec.edge.coerce n)).or
                ((b.spec.edge.sentMapping s.params).bind (·.get? n))).bind
                  (b.spec.filter.read n)) := by
  refine ⟨fun n hn hasked => ((Reads.SelectorVariant.mem_asked_bundled _ _).1 hasked).2 hn,
    fun fn s k hk n hapart => ⟨fun hn => ⟨get?_handed_caller hk hapart hn, fun hserved hseed => ?_⟩,
      fun hn hdeclared hhidden => get?_handed_beside hk hapart hn hdeclared hhidden⟩, ?_,
    fun s arguments harguments hdata n hn hdeclared hseed =>
      get?_filter_unfiltered harguments hdata hn hdeclared hseed⟩
  · rw [get?_handed_caller hk hapart hn, hserved, kernel.place_none n hseed, ite_self]
  · intro fn s s' hview k k' hk hk' n hapart hn
    have hcaptured : captured s' n = captured s n := by rw [captured, captured, hview]
    rcases hn with hn | ⟨hn, hdeclared, hhidden⟩
    · rw [get?_handed_caller hk hapart hn, get?_handed_caller hk' hapart hn, served, served,
        hcaptured]
    · rw [get?_handed_beside hk hapart hn hdeclared hhidden,
        get?_handed_beside hk' hapart hn hdeclared hhidden, servedBeside, servedBeside, hcaptured]

/-! ### A selector of a tenant's rows -/

/-- A plain keyword parameter with no default. -/
def keyword (name : String) : Reads.SignatureParameter where
  name := name
  kind := .keywordOnly
  default := none
  hint := ⟨"string", false, none, false, false⟩
  typedDict := none

/-- A selector's call has no wire names. -/
theorem wire_single_selector : (Site.bare .selector).kind ≠ .single →
    (Site.bare .selector).wire.map = .empty :=
  fun _ => rfl

/-- It has no lookup's reads. -/
theorem lookupKeys_selector : (Site.bare .selector).lookupKeys = [] ∨
    (Site.bare .selector).wire.map = .empty :=
  .inl rfl

/-- A selector spec that filters by `status` and `title`, the second hidden, and reads `tenant` off a
signature, of the provider's keys; it declares a read named like `tenant`'s channel. -/
def tenantBundle (keys : Option Reads.ProviderKeys) : BundledSelector where
  spec := {
    site := { Site.bare .selector with
      filterNames := ["status", "title"]
      hidden := ["title"]
      keys := keys
      reads := ["tenant", "status", "title", "_server_owned_tenant"]
      wire_single := wire_single_selector
      lookupKeys_reads := List.forall_mem_nil _
      lookupKeys_bare := lookupKeys_selector }
    edge := ⟨[.queryParam "_server_owned_tenant"], none,
      ["tenant", "status", "title", "_server_owned_tenant"], [], fun _ value => value⟩
    filter := ⟨["status", "title"], [], fun _ value => value, [], List.forall_mem_nil _⟩
    bundled := true
    seedNames := []
    excluded := []
    lookupReads := []
    filter_names := rfl
    filter_reads := fun _ hn =>
      List.mem_cons_of_mem _ (List.mem_append_left ["_server_owned_tenant"] hn)
    unfielded := fun _ => rfl
    looked_up := fun h => by cases h }
  variant := {
    reads := ["tenant", "status", "title", "_server_owned_tenant"].map fun name =>
      ⟨name, "string", true, false, none, none, true⟩
    selector := ⟨[keyword "tenant", keyword "status"], false⟩
    preconditions := [] }
  selector := rfl
  bundled := rfl
  unserviced := rfl
  variant_reads := rfl
  reader_reads := rfl
  hidden_unread := fun _ hn _ => .inr (List.mem_cons_of_mem _ hn)

/-- A view with no hook and a spec whose provider answers `tenant` as it is told. -/
def tenantLayers {keys : Option Reads.ProviderKeys} (answer : Option (Answer Value)) :
    AuthorLayers (tenantBundle keys).spec.site where
  hook := .empty
  provided := .tabulate (fun _ => answer) ["tenant"]
  recorded := .empty
  unreserved := fun _ _ => List.not_mem_nil

/-- A kernel that hands its callables each argument that is read, and the extras over them. -/
def readKernel (reads : List String) : Kernel reads where
  pool d := some (((d.arguments.filter fun n _ => n ∈ reads).mapValues .given).update d.overlay)
  seeds := []
  place _ argument extra _ _ := extra.or (argument.map .given)
  pool_place := by
    rintro d p hp n -
    cases hp
    have hread : (d.arguments.get? n).filter (fun _ => decide (n ∈ reads)) =
        if n ∈ reads then d.arguments.get? n else none := by
      by_cases hn : n ∈ reads <;> cases d.arguments.get? n <;> simp [hn]
    rw [Dict.get?_update, Dict.get?_mapValues, Dict.get?_filter, hread]
  place_none := fun _ _ => rfl

/-- Sent a tenant and a status, the selector is handed neither, and the filter reads the status. -/
theorem caller_kept_off_tenant :
    (∃ k, (tenantBundle none).handed (tenantLayers none) (readKernel _)
        ⟨[keyword "tenant", keyword "status"], false⟩
        ⟨.object (.ofList [("tenant", .str "theirs"), ("status", .str "open")]), .absent, none,
          none⟩ = some k ∧
      k.get? "tenant" = none ∧ k.get? "status" = none) ∧
    ((tenantBundle none).spec.dispatched (tenantLayers none)
        ⟨.object (.ofList [("tenant", .str "theirs"), ("status", .str "open")]), .absent, none,
          none⟩
        (.ofList [("status", .str "open")])).arguments.get? "status" = some (.str "open") := by
  obtain ⟨-, hhanded, -, hfilter⟩ :=
    caller_kept_off (tenantBundle none) (tenantLayers none) (readKernel _)
  have hk : ∃ k, (tenantBundle none).handed (tenantLayers none) (readKernel _)
      ⟨[keyword "tenant", keyword "status"], false⟩
      ⟨.object (.ofList [("tenant", .str "theirs"), ("status", .str "open")]), .absent, none,
        none⟩ = some k := ⟨_, rfl⟩
  obtain ⟨k, hk⟩ := hk
  refine ⟨⟨k, hk, ?_, ?_⟩, ?_⟩
  · exact ((hhanded _ _ k hk "tenant" ⟨by decide, .inl rfl⟩).1 (by decide)).2 rfl
      List.not_mem_nil
  · rw [(hhanded _ _ k hk "status" ⟨by decide, .inl rfl⟩).2 (by decide) (by decide) (by decide)]
    rfl
  · rw [hfilter _ _ rfl rfl "status" (by decide) (by decide) (by decide)]
    rfl

/-- A filter reads no sent value of a name the route captures; a parameter the route captures is
handed nothing where a typed provider owns it and declines it; and a declared read named like a
parameter's channel fills the parameter of a callable that takes another on its own. -/
theorem bundle_exceptions :
    (¬ ∀ (b : BundledSelector) (layers : AuthorLayers b.spec.site) (s : Sent)
      (arguments : Dict String Value) (n : String), b.spec.arguments? s = some arguments →
      s.filterData = none → n ∈ b.spec.filter.names →
      (b.spec.dispatched layers s arguments).arguments.get? n =
        ((b.spec.edge.sentMapping s.params).bind (·.get? n)).bind (b.spec.filter.read n)) ∧
    (¬ ∀ (b : BundledSelector) (layers : AuthorLayers b.spec.site)
      (kernel : Kernel b.spec.site.reads) (fn : Reads.Callable) (s : Sent)
      (k : Dict String (Answer Value)) (n : String), b.handed layers kernel fn s = some k →
      n ∈ b.spec.callerNames → fn.signature.Takes n → (captured s n).isSome →
      (k.get? n).isSome) ∧
    ¬ ∀ (b : BundledSelector) (layers : AuthorLayers b.spec.site)
      (kernel : Kernel b.spec.site.reads) (fn : Reads.Callable) (s : Sent)
      (k : Dict String (Answer Value)) (n : String), b.handed layers kernel fn s = some k →
      n ∈ b.spec.callerNames → n ∉ kernel.seeds → b.served layers s n = none →
      k.get? n = none := by
  refine ⟨fun h => ?_, fun h => ?_, fun h => ?_⟩
  · have hread := h (tenantBundle none) (tenantLayers none)
      ⟨.object (.ofList [("status", .str "draft")]),
        .offline (some (.ofList [("status", .str "open")])), none, none⟩ _ "status" rfl rfl
      (by decide)
    have hstr : "open" = "draft" := by
      injection hread with hvalue
      injection hvalue
    exact absurd hstr (by decide)
  · have hsome := h (tenantBundle (some ⟨["tenant"], []⟩)) (tenantLayers (some .unset))
      (readKernel _) ⟨[keyword "tenant"], false⟩
      ⟨.object .empty, .offline (some (.ofList [("tenant", .str "acme")])), none, none⟩ _ "tenant"
      rfl (by decide) (by decide) rfl
    cases hsome
  · have hnone := h (tenantBundle none) (tenantLayers none) (readKernel _)
      ⟨[keyword "title", keyword "tenant",
        { keyword "rest" with kind := .varKeyword }], false⟩
      ⟨.object (.ofList [("_server_owned_tenant", .str "theirs")]), .absent, none, none⟩ _ "tenant"
      rfl (by decide) List.not_mem_nil rfl
    cases hnone

end BundledSelector

end RestFrameworkServices
