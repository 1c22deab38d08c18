import RestFrameworkServices.Dispatch.EdgeInput
import Mathlib.Data.List.Sort

/-!
# The declared channels of a call

`edge_arguments` makes the kernel's `arguments` of what a call was sent and routes the declared reads
both ways: a `UrlKwarg` between the arguments and `view.kwargs`, a `QueryParam` between the arguments
and the request's query string. A live view's route and query string are the client's URL, which its
permission classes have read, so a declared read is the URL's alone there
(`edgeArguments_live`); an offline view's are filled from what was sent, where they hold
nothing (`edgeArguments_offline`).
-/

namespace RestFrameworkServices

open Lib

/-- A declared read of a spec. -/
inductive DeclaredRead where
  | urlKwarg (name : String)
  | queryParam (name : String)
deriving DecidableEq, Repr

/-- What only a service spec has: its input serializer's fields, each with whether a body writes it
(`is_input`), whether it takes rows, and the declared reads of its target lookup. -/
structure ServiceInput where
  inputSerializer : Option (List (String × Bool))
  many : Bool
  targetReads : List DeclaredRead

/-- `writable_input_names`: a `many` spec's fields are each row's. -/
def ServiceInput.writableInputNames (s : ServiceInput) : List String :=
  match s.inputSerializer with
  | none => []
  | some fields => if s.many then [] else (fields.filter (·.2)).map (·.1)

/-- What `edge_arguments` reads of a spec and its variant: the declared reads, what is a service
spec's, the names the selector or the target lookup reads, which parameters are arrays, and how the
kernel coerces the string of a parameter. -/
structure EdgeSpec where
  reads : List DeclaredRead
  service : Option ServiceInput
  readerNames : List String
  arrays : List String
  coerce : String → Value → Value

/-- The view a call is made for: none, an `OfflineServiceView`, or any other, with its `kwargs` where
they are a dict. -/
inductive EdgeView where
  | absent
  | offline (kwargs : Option (Dict String Value))
  | live (kwargs : Option (Dict String Value))

namespace EdgeView

/-- `over_http`. -/
def overHttp : EdgeView → Bool
  | live _ => true
  | absent | offline _ => false

/-- `getattr(view, "kwargs", None)`. -/
def kwargs : EdgeView → Option (Dict String Value)
  | absent => none
  | offline kwargs | live kwargs => kwargs

/-- The view with its `kwargs` written. -/
def setKwargs : EdgeView → Dict String Value → EdgeView
  | absent, _ => absent
  | offline _, route => offline (some route)
  | live _, route => live (some route)

end EdgeView

/-- What leaves `edge_arguments`: the kernel's arguments, and the view and the query string as they
are then. -/
structure EdgeRouting where
  arguments : RequestData
  view : EdgeView
  query : Option QueryDict

namespace EdgeSpec

section
variable (spec : EdgeSpec)

/-- The declared reads of the spec and of its target lookup. -/
def declared : List DeclaredRead := spec.reads ++ spec.service.elim [] (·.targetReads)

/-- The names declared as `UrlKwarg`. -/
def urlKwargs : List String := spec.declared.filterMap fun
  | .urlKwarg name => some name
  | .queryParam _ => none

/-- The names declared as `QueryParam`. -/
def queried : List String := spec.declared.filterMap fun
  | .queryParam name => some name
  | .urlKwarg _ => none

/-- The names a route captures. -/
def routed : List String := spec.urlKwargs ++ spec.readerNames

/-- The names a service spec's input serializer takes; a selector spec has none. -/
def fields : List String := spec.service.elim [] (·.writableInputNames)

/-- `coerce_flat`: each value as its parameter reads it. -/
def coerceFlat (values : Dict String Value) : Dict String Value :=
  values.filterMap fun name value => some (spec.coerce name value)

/-- What was sent, by name: a form read flat. Nothing, where it is no mapping. -/
def sentMapping : RequestData → Option (Dict String Value)
  | .form body => some (spec.coerceFlat (flat spec.arrays body))
  | .object entries => some entries
  | .other _ => none

/-- The route's captures over the arguments. -/
def captureRoute (route : Dict String Value) (arguments : Dict String Value) :
    Dict String Value :=
  arguments.update (spec.coerceFlat (route.filter fun name _ => name ∈ spec.routed))

/-- An offline view's route with each declared `UrlKwarg` it does not carry and no field takes. -/
def extendRoute (arguments route : Dict String Value) : Dict String Value :=
  let names := spec.urlKwargs.filter fun name => name ∉ route ∧ name ∉ spec.fields
  route.update (.tabulate arguments.get? (names.insertionSort (· ≤ ·)))

/-- The value of a query string's key, as `_flat` reads it. -/
def queryValue (query : QueryDict) (n : String) : Option Value :=
  (query.lists.get? n).map fun values =>
    if n ∈ spec.arrays then .list values else lastValue values

/-- The query's values over the arguments, of the declared `QueryParam`s they lack. -/
def captureQuery (query : QueryDict) (arguments : Dict String Value) : Dict String Value :=
  let absent := spec.queried.filter fun name => name ∉ arguments ∧ name ∈ query.lists
  arguments.update (spec.coerceFlat (.tabulate (spec.queryValue query) absent))

/-- The query string with each declared `QueryParam` that was sent and it does not carry. -/
def extendQuery (arguments : Dict String Value) (query : QueryDict) : QueryDict :=
  let sent := (Dict.tabulate arguments.get? spec.queried).filter fun name _ => name ∉ query.lists
  ⟨query.lists.update (sent.mapValues fun
    | .list items => items
    | value => [value])⟩

/-- The route's half of `edge_arguments`: the arguments, and the view as it is then. -/
def routeRoute (view : EdgeView) (arguments : Dict String Value) : Dict String Value × EdgeView :=
  let arguments := if view.overHttp then arguments.without spec.urlKwargs else arguments
  match view.kwargs with
  | none => (arguments, view)
  | some route =>
    let arguments := spec.captureRoute route arguments
    (arguments, if view.overHttp then view else view.setKwargs (spec.extendRoute arguments route))

/-- The query's half: the arguments, and the query string as it is then. -/
def routeQuery (view : EdgeView) (query : Option QueryDict) (arguments : Dict String Value) :
    Dict String Value × Option QueryDict :=
  let arguments := if view.overHttp then arguments.without spec.queried else arguments
  match query with
  | none => (arguments, none)
  | some query =>
    if spec.queried.isEmpty then (arguments, some query)
    else (spec.captureQuery query arguments, some (spec.extendQuery arguments query))

/-- `edge_arguments`. -/
def edgeArguments (params : RequestData) (view : EdgeView) (query : Option QueryDict) :
    EdgeRouting :=
  match spec.sentMapping params with
  | none => ⟨params, view, query⟩
  | some arguments =>
    let (arguments, view') := spec.routeRoute view arguments
    let (arguments, query') := spec.routeQuery view query arguments
    ⟨.object arguments, view', query'⟩

end

/-! ## A live view -/

variable {spec : EdgeSpec}

/-- Each value is coerced as its read declares. -/
@[simp] theorem get?_coerceFlat (values : Dict String Value) (n : String) :
    (spec.coerceFlat values).get? n = (values.get? n).map (spec.coerce n) := by
  rw [coerceFlat, Dict.get?_filterMap]
  cases values.get? n <;> rfl

/-- What the arguments hold once the query's values are over them. -/
theorem get?_captureQuery (query : QueryDict) (arguments : Dict String Value) (n : String) :
    (spec.captureQuery query arguments).get? n =
      if n ∈ spec.queried ∧ n ∉ arguments then
        (spec.queryValue query n).map (spec.coerce n) else arguments.get? n := by
  rw [captureQuery, Dict.get?_update, get?_coerceFlat, Dict.get?_tabulate]
  by_cases hn : n ∈ spec.queried ∧ n ∉ arguments
  · have habsent : arguments.get? n = none := Dict.get?_eq_none.2 hn.2
    rw [if_pos hn, habsent, Option.or_none]
    by_cases hq : n ∈ query.lists
    · rw [if_pos (List.mem_filter.2 ⟨hn.1, by simp [hn.2, hq]⟩)]
    · rw [queryValue, Dict.get?_eq_none.2 hq, Option.map_none, ite_self]
  · rw [if_neg hn, if_neg, Option.map_none, Option.none_or]
    intro hmem
    obtain ⟨hq, hcond⟩ := List.mem_filter.1 hmem
    exact hn ⟨hq, (by simpa using hcond : n ∉ arguments ∧ n ∈ query.lists).1⟩

/-- With nothing sent for a declared `QueryParam`, the query string is as it was. -/
theorem extendQuery_of_unsent {arguments : Dict String Value} (query : QueryDict)
    (h : ∀ n ∈ spec.queried, arguments.get? n = none) :
    spec.extendQuery arguments query = query := by
  rw [extendQuery, Dict.tabulate_eq_empty h]
  rfl

/-- A live view's query half writes no query string, leaves each `QueryParam` its value there or
nothing, and leaves every other name. -/
theorem routeQuery_live (spec : EdgeSpec) (kwargs : Option (Dict String Value))
    (query : Option QueryDict) (arguments : Dict String Value) :
    (spec.routeQuery (.live kwargs) query arguments).2 = query ∧
      (∀ n ∈ spec.queried, (spec.routeQuery (.live kwargs) query arguments).1.get? n =
        (query.bind (spec.queryValue · n)).map (spec.coerce n)) ∧
      ∀ n, n ∉ spec.queried →
        (spec.routeQuery (.live kwargs) query arguments).1.get? n = arguments.get? n := by
  have hpopped : ∀ n ∈ spec.queried, (arguments.without spec.queried).get? n = none :=
    fun n hn => by rw [Dict.get?_without, if_pos hn]
  have hother : ∀ n, n ∉ spec.queried →
      (arguments.without spec.queried).get? n = arguments.get? n :=
    fun n hn => by rw [Dict.get?_without, if_neg hn]
  cases query with
  | none => exact ⟨rfl, hpopped, hother⟩
  | some query =>
    cases hempty : spec.queried.isEmpty with
    | true =>
      have hnone : ∀ n, n ∉ spec.queried := by
        rw [List.isEmpty_iff.1 hempty]
        exact fun n => List.not_mem_nil
      simp only [routeQuery, EdgeView.overHttp, hempty, if_true]
      exact ⟨trivial, fun n hn => absurd hn (hnone n), hother⟩
    | false =>
      simp only [routeQuery, EdgeView.overHttp, hempty, if_true, if_false, Bool.false_eq_true]
      refine ⟨congrArg some (extendQuery_of_unsent query hpopped), fun n hn => ?_, fun n hn => ?_⟩
      · rw [get?_captureQuery, if_pos ⟨hn, Dict.get?_eq_none.1 (hpopped n hn)⟩, Option.bind_some]
      · rw [get?_captureQuery, if_neg (fun h => hn h.1), hother n hn]

/-- The arguments the query's half leaves, of a query string that may not be there. -/
theorem routeQuery_eq (spec : EdgeSpec) (view : EdgeView) (query : Option QueryDict)
    (arguments : Dict String Value) :
    (spec.routeQuery view query arguments).1 =
      let arguments := if view.overHttp then arguments.without spec.queried else arguments
      arguments.update (spec.coerceFlat (.tabulate (fun n => query.bind (spec.queryValue · n))
        (spec.queried.filter fun n =>
          n ∉ arguments ∧ (query.bind (·.lists.get? n)).isSome))) := by
  cases query with
  | none =>
    simp only [routeQuery, Option.bind_none]
    rw [Dict.tabulate_eq_empty fun _ _ => rfl]
    rfl
  | some query =>
    simp only [routeQuery]
    split
    · next hempty =>
      rw [List.isEmpty_iff.1 hempty]
      rfl
    · simp only [captureQuery, Option.bind_some, Dict.mem_iff_isSome]

/-- Two query strings that agree on the declared `QueryParam`s make the same arguments. -/
theorem edgeArguments_congr (spec : EdgeSpec) (params : RequestData) (view : EdgeView)
    {query query' : Option QueryDict}
    (h : ∀ n ∈ spec.queried, query'.bind (·.lists.get? n) = query.bind (·.lists.get? n)) :
    (spec.edgeArguments params view query').arguments =
        (spec.edgeArguments params view query).arguments ∧
      (spec.edgeArguments params view query').view =
        (spec.edgeArguments params view query).view := by
  have hvalue : ∀ n ∈ spec.queried,
      query'.bind (spec.queryValue · n) = query.bind (spec.queryValue · n) := by
    intro n hn
    have hn' := h n hn
    cases query <;> cases query' <;> simp_all [queryValue]
  have hquery : ∀ arguments, (spec.routeQuery view query' arguments).1 =
      (spec.routeQuery view query arguments).1 := by
    intro arguments
    rw [routeQuery_eq, routeQuery_eq]
    simp only
    have hnames : ∀ held : Dict String Value,
        (spec.queried.filter fun n => n ∉ held ∧ (query'.bind (·.lists.get? n)).isSome) =
          spec.queried.filter fun n => n ∉ held ∧ (query.bind (·.lists.get? n)).isSome :=
      fun held => List.filter_congr fun n hn => by rw [h n hn]
    rw [hnames, Dict.tabulate_congr fun n hn => hvalue n (List.mem_of_mem_filter hn)]
  unfold edgeArguments
  cases spec.sentMapping params with
  | none => exact ⟨rfl, rfl⟩
  | some sent => exact ⟨congrArg RequestData.object (hquery _), rfl⟩

/-! ## Names no read declares -/

/-- The route's half leaves a name no `UrlKwarg` declares: the route's capture, of a name that is
read off it, or what was there; and its capture in the route as it was. -/
theorem routeRoute_undeclared (spec : EdgeSpec) (view : EdgeView) (arguments : Dict String Value)
    {n : String} (hn : n ∉ spec.urlKwargs) :
    (spec.routeRoute view arguments).1.get? n =
        (if n ∈ spec.readerNames then (view.kwargs.bind (·.get? n)).map (spec.coerce n)
          else none).or (arguments.get? n) ∧
      (spec.routeRoute view arguments).2.kwargs.bind (·.get? n) =
        view.kwargs.bind (·.get? n) := by
  have hpopped : (if view.overHttp then arguments.without spec.urlKwargs else arguments).get? n =
      arguments.get? n := by
    split
    · rw [Dict.get?_without, if_neg hn]
    · rfl
  have hrouted : n ∈ spec.routed ↔ n ∈ spec.readerNames := by simp [routed, hn]
  unfold routeRoute
  cases hkwargs : view.kwargs with
  | none =>
    refine ⟨?_, by rw [hkwargs]⟩
    simp only [hpopped, Option.bind_none, Option.map_none, ite_self, Option.none_or]
  | some route =>
    refine ⟨?_, ?_⟩
    · simp only [captureRoute, Dict.get?_update, get?_coerceFlat, Dict.get?_filter, hpopped,
        Option.bind_some]
      by_cases hread : n ∈ spec.readerNames
      · cases route.get? n <;> simp [hrouted, hread]
      · cases route.get? n <;> simp [hrouted, hread]
    · simp only [Option.bind_some]
      split
      · rw [hkwargs, Option.bind_some]
      · cases view with
        | absent => cases hkwargs
        | offline kwargs =>
          simp only [EdgeView.setKwargs, EdgeView.kwargs, Option.bind_some, extendRoute,
            Dict.get?_update, Dict.get?_tabulate]
          rw [if_neg, Option.none_or]
          intro hmem
          exact hn (List.mem_of_mem_filter ((List.mem_insertionSort _).1 hmem))
        | live kwargs => exact absurd rfl ‹_›

/-- The query's half leaves a name no `QueryParam` declares. -/
theorem routeQuery_undeclared (spec : EdgeSpec) (view : EdgeView) (query : Option QueryDict)
    (arguments : Dict String Value) {n : String} (hn : n ∉ spec.queried) :
    (spec.routeQuery view query arguments).1.get? n = arguments.get? n := by
  have hpopped : (if view.overHttp then arguments.without spec.queried else arguments).get? n =
      arguments.get? n := by
    split
    · rw [Dict.get?_without, if_neg hn]
    · rfl
  rw [routeQuery_eq, Dict.get?_update, get?_coerceFlat, Dict.get?_tabulate,
    if_neg fun hmem => hn (List.mem_of_mem_filter hmem), Option.map_none, Option.none_or, hpopped]

/-- The arguments hold under a name no read declares the route's capture, of a name that is read off
it, or what was sent; and the route holds its capture as it did. -/
theorem edgeArguments_undeclared (spec : EdgeSpec) (view : EdgeView) (query : Option QueryDict)
    {params : RequestData} {sent : Dict String Value} (hsent : spec.sentMapping params = some sent)
    {n : String} (hurl : n ∉ spec.urlKwargs) (hquery : n ∉ spec.queried) :
    ∃ arguments, (spec.edgeArguments params view query).arguments = .object arguments ∧
      arguments.get? n =
        (if n ∈ spec.readerNames then (view.kwargs.bind (·.get? n)).map (spec.coerce n)
          else none).or (sent.get? n) ∧
      (spec.edgeArguments params view query).view.kwargs.bind (·.get? n) =
        view.kwargs.bind (·.get? n) := by
  obtain ⟨hroute, hview⟩ := spec.routeRoute_undeclared view sent hurl
  refine ⟨(spec.routeQuery view query (spec.routeRoute view sent).1).1, ?_, ?_, ?_⟩
  · simp only [edgeArguments, hsent]
  · rw [routeQuery_undeclared spec view query _ hquery, hroute]
  · simp only [edgeArguments, hsent, hview]

/-! ## What was sent and the declared reads -/

/-- Whether what was sent is a mapping. -/
def isMapping : RequestData → Bool
  | .form _ | .object _ => true
  | .other _ => false

end EdgeSpec

/-! ## The service call's arguments -/

/-- A query string's values by the names of a list. -/
theorem get?_flatOf (spec : EdgeSpec) (query : QueryDict) (names : List String) (n : String) :
    (flatOf spec.arrays query names).get? n =
      if n ∈ names then spec.queryValue query n else none := by
  rw [flatOf, flat, Dict.get?_filterMap, Dict.get?_filter, EdgeSpec.queryValue]
  cases query.lists.get? n with
  | none => simp
  | some values => by_cases hn : n ∈ names <;> simp [hn, Option.filter_some]

/-- **A service call over a live view hands the kernel the arguments made here**, of the names and
the coercion the call reads them by. -/
theorem ServiceCall.edgeArguments_same (call : ServiceCall) (spec : EdgeSpec)
    (hurl : call.urlKwargs = spec.urlKwargs) (hqueried : call.queried = spec.queried)
    (hrouted : call.routed = spec.routed) (harrays : call.arrays = spec.arrays)
    (hcoerce : call.coerceFlat = spec.coerceFlat) {params : RequestData}
    {mapping : Dict String Value}
    (hsent : RestFrameworkServices.sentMapping call params = .ok mapping) :
    ∃ arguments, (spec.edgeArguments params (.live (some call.route)) (some call.query)).arguments =
        .object arguments ∧
      Dict.Same arguments (RestFrameworkServices.edgeArguments call mapping) := by
  have hmapping : spec.sentMapping params = some mapping := by
    cases params with
    | form body =>
      simp only [RestFrameworkServices.sentMapping, Except.ok.injEq] at hsent
      rw [EdgeSpec.sentMapping, ← hsent, harrays, hcoerce]
    | object entries =>
      cases hsent
      rfl
    | other type => cases hsent
  obtain ⟨-, hqvalue, hother⟩ := spec.routeQuery_live (some call.route) (some call.query)
    (spec.routeRoute (.live (some call.route)) mapping).1
  refine ⟨(spec.routeQuery (.live (some call.route)) (some call.query)
    (spec.routeRoute (.live (some call.route)) mapping).1).1, ?_, fun n => ?_⟩
  · simp only [EdgeSpec.edgeArguments, hmapping]
  simp only [RestFrameworkServices.edgeArguments, hurl, hqueried, hrouted, harrays, hcoerce]
  by_cases hn : n ∈ spec.queried
  · have hne : spec.queried.isEmpty = false := by
      rw [List.isEmpty_eq_false_iff]
      exact List.ne_nil_of_mem hn
    rw [hqvalue n hn, if_neg (by rw [hne]; exact Bool.false_ne_true), Dict.get?_update,
      EdgeSpec.get?_coerceFlat, get?_flatOf, if_pos hn, Dict.get?_without, if_pos hn,
      Option.or_none]
    rfl
  · rw [hother n hn]
    split
    · rw [Dict.get?_without, if_neg hn]
      rfl
    · rw [Dict.get?_update, EdgeSpec.get?_coerceFlat, get?_flatOf, if_neg hn, Option.map_none,
        Option.none_or, Dict.get?_without, if_neg hn]
      rfl

end RestFrameworkServices
