import RestFrameworkServices.ServiceSpecs.OfflineContext

/-!
# What the kernel's route asks a permission class about

The kernel asks a principal and arguments; a DRF permission class is asked a request and a view.
`DRFPermissionCheck` asks it the request and view the call carries, and what it carries neither of is an offline
context's, its route and query string filled from the arguments a route and a query string would have carried.

`asked_after_run` says what a class is asked after any run of other questions, and that the requests there were
are what they were; `undeclared_unseen`, that an argument the spec does not declare has no part in a question.
-/

namespace RestFrameworkServices.PermissionQuestions

open Lib OfflineContexts

variable {U D V : Type}

/-- A `UrlKwarg` or a `QueryParam`, and its `default` where it is set. -/
structure Declaration where
  name : String
  default : Option Value

/-- An entry of a spec's `reads`. -/
inductive DeclaredRead where
  | urlKwarg (declaration : Declaration)
  | queryParam (declaration : Declaration)

/-- `DRFPermissionCheck`, as far as the request and view it asks about. -/
structure DRFPermissionCheck where
  urlKwargs : List Declaration
  queryParams : List Declaration
  routeReads : List String

/-- The declared `UrlKwarg`s. -/
def urlKwargs (reads : List DeclaredRead) : List Declaration :=
  reads.filterMap fun
    | .urlKwarg declaration => some declaration
    | .queryParam _ => none

/-- The declared `QueryParam`s. -/
def queryParams (reads : List DeclaredRead) : List Declaration :=
  reads.filterMap fun
    | .urlKwarg _ => none
    | .queryParam declaration => some declaration

/-- The check that `_permissions` gives a spec with permission classes. One with none of its own, or an empty list of
them, has no check that asks a class anything. -/
def drfPermissionCheck (reads : List DeclaredRead) (routeReads : List String) : DRFPermissionCheck where
  urlKwargs := urlKwargs reads
  queryParams := queryParams reads
  routeReads := routeReads.filter fun name => name ∉ (queryParams reads).map (·.name)

/-- The value a declaration routes: the argument sent, and its default where none was, or `null`. -/
def routedValue (arguments : Dict String Value) (declaration : Declaration) : Option Value :=
  match arguments.get? declaration.name with
  | none | some .null => declaration.default
  | some value => some value

/-- `_routed`, of one declaration. -/
def routeOne (arguments : Dict String Value) (routed : Dict String Value) (declaration : Declaration) :
    Dict String Value :=
  match routedValue arguments declaration with
  | none => routed
  | some value => routed.set declaration.name value

/-- `_routed`. -/
def routed (declared : List Declaration) (arguments : Dict String Value) : Dict String Value :=
  declared.foldl (routeOne arguments) .empty

/-- A request a call carries: a Django one DRF has not wrapped, or any other. -/
inductive CarriedRequest (D : Type) where
  | django (request : ℕ)
  | drf (request : D)

/-- What the context of a call holds. -/
structure CallContext (D V : Type) where
  request : Option (CarriedRequest D)
  view : Option V
  action : Option Value

/-- `carried`: the seed of the name, or else the context's entry; `None` is no value in either. -/
def carried {α : Type} (seeded : Option α) (callContext : Option (CallContext D V))
    (entry : CallContext D V → Option α) : Option α :=
  seeded.or (callContext.bind entry)

/-- `offline_action`. -/
def offlineAction (callContext : Option (CallContext D V)) : Option String :=
  match callContext.bind (·.action) with
  | some (.str action) => if action = "" then none else some action
  | _ => none

/-- What a class is asked about: what the call carries, or an offline context's. -/
inductive Asked (α : Type) where
  | carried (a : α)
  | offline (context : ℕ)

/-- What a class assigns an attribute of: an offline request it is handed, or the Django request that one wraps. -/
inductive Assignment (U : Type) where
  | request (name : String) (value : Attr U)
  | wrapped (name : String) (value : Attr U)

/-- An assignment, through a context. -/
def Assignment.event (i : ℕ) : Assignment U → Event U
  | .request name value => .assign i name value
  | .wrapped name value => .assignWrapped i name value

/-- A question of the check of a spec, and what the classes it asks assign through an offline request, theirs or
the one their offline view holds. -/
structure Question (U D V : Type) where
  reads : List DeclaredRead
  routeReads : List String
  principal : U
  arguments : Option (Dict String Value)
  callContext : Option (CallContext D V)
  request : Option (CarriedRequest D)
  view : Option V
  assigned : List (Assignment U)

namespace Question
variable (runtime : Runtime U) (w : World U) (q : Question U D V)

/-- The check asked. -/
def check : DRFPermissionCheck := drfPermissionCheck q.reads q.routeReads

/-- The Django request a call carries. -/
def plain? : Option ℕ :=
  match carried q.request q.callContext (·.request) with
  | some (.django request) => some request
  | _ => none

/-- The request a call carries that is asked as it is. -/
def keptRequest : Option D :=
  match carried q.request q.callContext (·.request) with
  | some (.drf request) => some request
  | _ => none

/-- The view a call carries. -/
def keptView : Option V := carried q.view q.callContext (·.view)

/-- `_context`: what the offline context is built of. -/
def context : Build U where
  user := q.principal
  params := none
  httpRequest := q.plain?
  action := offlineAction q.callContext
  kwargs := q.arguments.map fun arguments =>
    (Dict.tabulate arguments.get? q.check.routeReads).update (routed q.check.urlKwargs arguments)
  queryParams := q.arguments.map fun arguments => routed q.check.queryParams arguments
  host := none

/-- `_pair`: the request and the view to ask about. -/
def pair : World U × Asked D × Asked V :=
  (if q.keptRequest.isNone ∨ q.keptView.isNone then step runtime w (.build q.context) else w,
    q.keptRequest.elim (.offline w.contexts.length) .carried,
    q.keptView.elim (.offline w.contexts.length) .carried)

/-- A question asked: its pair made, and what the classes assign assigned, through the context made for it if one
was. -/
def ask : World U :=
  run runtime (q.pair runtime w).1 (q.assigned.map (·.event w.contexts.length))

end Question

/-- Questions asked in turn. -/
def askAll (runtime : Runtime U) (w : World U) (questions : List (Question U D V)) : World U :=
  questions.foldl (fun w q => q.ask runtime w) w

/-! ## What is routed -/

/-- The value the declarations of a name route: the last of them that has one. -/
def declaredValue (declared : List Declaration) (arguments : Dict String Value) (name : String) : Option Value :=
  declared.reverse.findSome? fun declaration =>
    if declaration.name = name then routedValue arguments declaration else none

/-- One declaration routes its own name and leaves the others. -/
theorem get?_routeOne (arguments routed : Dict String Value) (declaration : Declaration) (name : String) :
    (routeOne arguments routed declaration).get? name =
      (if declaration.name = name then routedValue arguments declaration else none).or (routed.get? name) := by
  rw [routeOne]
  cases routedValue arguments declaration with
  | none => simp
  | some value =>
    rw [Dict.get?_set]
    by_cases h : declaration.name = name
    · simp [h]
    · simp [h, Ne.symm h]

/-- What is routed under a name is what its declarations route. -/
theorem get?_routed (declared : List Declaration) (arguments : Dict String Value) (name : String) :
    (routed declared arguments).get? name = declaredValue declared arguments name := by
  have hfold : ∀ (declared : List Declaration) (routed : Dict String Value),
      (declared.foldl (routeOne arguments) routed).get? name =
        (declaredValue declared arguments name).or (routed.get? name) := by
    intro declared
    induction declared with
    | nil => intro routed; rfl
    | cons declaration declared ih =>
      intro routed
      rw [List.foldl_cons, ih, get?_routeOne, declaredValue, declaredValue, List.reverse_cons,
        List.findSome?_append, Option.or_assoc]
      simp
  rw [routed, hfold]
  exact Option.or_none

/-! ## What a class is asked about -/

section
variable {runtime : Runtime U} {w : World U}

/-- Making a pair keeps what requests there were. -/
theorem sound_pair (h : Sound w) (q : Question U D V) : Sound (q.pair runtime w).1 := by
  rw [Question.pair]
  split
  · exact sound_step h (.build q.context)
  · exact h

/-- Making a question's pair leaves every request there was as it was. -/
theorem own_pair (h : Sound w) (q : Question U D V) {x : Handle} {d : Own U} (hx : own w x = some d) :
    own (q.pair runtime w).1 x = some d := by
  rw [Question.pair]
  split
  · exact own_step h hx (.build q.context)
  · exact hx

/-- A question asked leaves a sound world so. -/
theorem sound_ask (h : Sound w) (q : Question U D V) : Sound (q.ask runtime w) :=
  sound_run (sound_pair h q) _

/-- A question keeps the requests there were. -/
theorem own_ask (h : Sound w) (q : Question U D V) {x : Handle} {d : Own U} (hx : own w x = some d) :
    own (q.ask runtime w) x = some d := by
  rw [Question.ask, own_run (sound_pair h q) (own_pair h q hx), foldl_ownStep]
  intro e he hthrough
  obtain ⟨assignment, -, rfl⟩ := List.mem_map.1 he
  -- The context made has no handle yet in `w`, and `x` is one.
  have hmade : x = .context w.contexts.length := by cases assignment <;> exact hthrough
  subst hmade
  simp [own, number] at hx

/-- Questions asked in turn leave every request there was as it was. -/
theorem own_askAll (h : Sound w) {x : Handle} {d : Own U} (hx : own w x = some d)
    (questions : List (Question U D V)) : own (askAll runtime w questions) x = some d := by
  induction questions generalizing w with
  | nil => exact hx
  | cons q questions ih => exact ih (sound_ask h q) (own_ask h q hx)

end

/-- What a class sees of a request and a view made for a question: the principal, the action the call names, and
of the arguments, the declared ones. In all else the request reads as `source`, which it was made around. -/
structure Sees (runtime : Runtime U) (drf : Drf U) (q : Question U D V) (source : Attributes U) (d : Own U)
    (view : OfflineServiceView) : Prop where
  derived : Derived runtime drf q.context source d
  action : view.action = offlineAction q.callContext
  routed : ∀ arguments, q.arguments = some arguments → ∀ name, view.kwargs.get? name =
    (declaredValue (urlKwargs q.reads) arguments name).or
      (if name ∈ q.routeReads ∧ name ∉ (queryParams q.reads).map (·.name) then arguments.get? name else none)
  queried : ∀ arguments, q.arguments = some arguments → ∃ query,
    drf.read d "query_params" = some (.query query) ∧ ∀ name, query.lists.get? name =
      (declaredValue (queryParams q.reads) arguments name).map runtime.queryValues
  unasked : q.arguments = none → view.kwargs = .empty ∧ drf.read d "query_params" = source.get? "GET"

/-- What a question's context is built with is what a class is to see. -/
theorem sees_build {runtime : Runtime U} {drf : Drf U} (hdrf : drf.Lawful runtime) (q : Question U D V)
    (source : Attributes U) :
    Sees runtime drf q source ⟨runtime.assigned q.context source, runtime.drfAttributes q.context⟩
      ⟨q.context.action, q.context.kwargs.getD .empty⟩ := by
  have hderived := derived_build hdrf q.context source
  refine ⟨hderived, rfl, fun arguments harguments name => ?_, fun arguments harguments => ?_,
    fun harguments => ?_⟩
  · simp [Question.context, harguments, Question.check, drfPermissionCheck, get?_routed]
  · obtain ⟨query, hread, hquery⟩ := hderived.queryParams (routed (queryParams q.reads) arguments) (by
      simp [Question.context, harguments, Question.check, drfPermissionCheck])
    exact ⟨query, hread, fun name => by rw [hquery, get?_routed]⟩
  · have hnone : q.context.queryParams = none := by simp [Question.context, harguments]
    exact ⟨by simp [Question.context, harguments], hderived.ownQuery hnone⟩

/-- The attributes a question's request is made around: those of the Django request the call carries, or of a new
one. -/
def Question.Around (runtime : Runtime U) (w : World U) (q : Question U D V) (source : Attributes U) : Prop :=
  match q.plain? with
  | some request => own w (.live request) = some ⟨source, .empty⟩
  | none => ∃ object, source = runtime.httpRequest object

/-- A live request's own attributes are the request's. -/
theorem own_live {w : World U} {request : ℕ} {d : Own U} (h : own w (.live request) = some d) :
    w.requests[request]? = some d.wrapped ∧ d = ⟨d.wrapped, .empty⟩ := by
  obtain ⟨n, hn, hd⟩ := Option.bind_eq_some_iff.1 h
  obtain ⟨made, hmade, rfl⟩ := Option.map_eq_some_iff.1 hd
  rw [number] at hn
  split at hn
  · cases hn
  · cases hn
    exact ⟨hmade, rfl⟩

/-- The request a question is asked with is made around what the call's was before any question. -/
theorem around_baseRequest {runtime : Runtime U} {w : World U} (h : Sound w) (before : List (Question U D V))
    (q : Question U D V) (hplain : ∀ request, q.plain? = some request → ∃ d, own w (.live request) = some d) :
    q.Around runtime w (runtime.baseRequest (askAll runtime w before) q.context).1 := by
  have hcontext : q.context.httpRequest = q.plain? := rfl
  rw [Question.Around]
  cases hq : q.plain? with
  | none => exact ⟨_, by rw [Runtime.baseRequest, hcontext, hq]; rfl⟩
  | some request =>
    obtain ⟨d, hd⟩ := hplain request hq
    have hasked : own (askAll runtime w before) (.live request) = some d := own_askAll h hd before
    have hkept := (own_live hasked).1
    rw [Runtime.baseRequest, hcontext, hq]
    simp only [hkept, Option.getD_some]
    rw [hd, (own_live hd).2]

section
variable (runtime : Runtime U) {drf : Drf U} (requests : List (Attributes U))
  (objects : List (Dict String Value)) (events : List (Event U)) (before : List (Question U D V))
  (q : Question U D V)

/-- **No question leaves anything for the next.** After any run and any questions, a class is asked the request
and view the call carries, and for what it carries neither of, one that shows it the principal and the declared
arguments, around the request the call carries as that was before any question; and every request there was is as
it was, whatever the classes assigned through the offline ones made for their questions. -/
theorem asked_after_run (hdrf : drf.Lawful runtime) (hplain : ∀ request, q.plain? = some request →
      ∃ d, own (run runtime (.start requests objects) events) (.live request) = some d) :
    let w := run runtime (.start requests objects) events
    let asked := askAll runtime w before
    (∀ x d, own w x = some d → own (askAll runtime w (before ++ [q])) x = some d) ∧
      (q.pair runtime asked).2 = (q.keptRequest.elim (.offline asked.contexts.length) .carried,
        q.keptView.elim (.offline asked.contexts.length) .carried) ∧
      (q.keptRequest = none ∨ q.keptView = none → ∃ source context d,
        q.Around runtime w source ∧
          (q.pair runtime asked).1.contexts[asked.contexts.length]? = some context ∧
          own (q.pair runtime asked).1 (.context asked.contexts.length) = some d ∧
          Sees runtime drf q source d context.view) := by
  intro w asked
  have hsound : Sound w := sound_run (sound_start requests objects) events
  refine ⟨fun x d hx => own_askAll hsound hx _, rfl, fun hlacks => ?_⟩
  have hpair : (q.pair runtime asked).1 = step runtime asked (.build q.context) :=
    if_pos (by simpa only [Option.isNone_iff_eq_none] using hlacks)
  rw [hpair]
  exact ⟨_, _, _, around_baseRequest hsound before q hplain, List.getElem?_concat_length,
    own_build q.context, sees_build hdrf q _⟩

end

/-! ## Arguments a spec does not declare -/

/-- The names a question reads arguments by. -/
def Question.declared (q : Question U D V) : List String :=
  q.routeReads ++ (urlKwargs q.reads ++ queryParams q.reads).map (·.name)

/-- Two questions that differ in arguments the spec does not declare, if in any. -/
structure Agree (q q' : Question U D V) : Prop where
  same : q' = { q with arguments := q'.arguments }
  sent : q.arguments = none ↔ q'.arguments = none
  declared : ∀ arguments arguments', q.arguments = some arguments → q'.arguments = some arguments' →
    ∀ name ∈ q.declared, arguments.get? name = arguments'.get? name

/-- What is routed depends on the declared arguments alone. -/
theorem routed_congr {declared : List Declaration} {arguments arguments' : Dict String Value}
    (h : ∀ declaration ∈ declared, arguments.get? declaration.name = arguments'.get? declaration.name) :
    routed declared arguments = routed declared arguments' := by
  have hone : ∀ declaration ∈ declared, ∀ routed,
      routeOne arguments routed declaration = routeOne arguments' routed declaration := by
    intro declaration hdeclared routed
    rw [routeOne, routeOne, routedValue, routedValue, h declaration hdeclared]
  exact List.foldl_ext _ _ _ fun routed declaration hdeclared => hone declaration hdeclared routed

/-- A context is built of the declared arguments alone. -/
theorem Agree.context {q q' : Question U D V} (h : Agree q q') : q.context = q'.context := by
  obtain ⟨reads, routeReads, principal, arguments, callContext, request, view, assigned⟩ := q
  obtain ⟨hsame, hsent, hdeclared⟩ := h
  rw [hsame]
  cases arguments with
  | none =>
    rw [hsent.1 rfl]
  | some arguments =>
    obtain ⟨arguments', harguments'⟩ := Option.ne_none_iff_exists'.1 fun hnone => by simpa using hsent.2 hnone
    have hnames := hdeclared arguments arguments' rfl harguments'
    simp only [Question.declared, List.map_append, List.mem_append] at hnames
    have hroute : Dict.tabulate arguments.get? (drfPermissionCheck reads routeReads).routeReads =
        Dict.tabulate arguments'.get? (drfPermissionCheck reads routeReads).routeReads :=
      Dict.tabulate_congr fun name hname => hnames name (.inl (List.mem_filter.1 hname).1)
    have hurl : routed (drfPermissionCheck reads routeReads).urlKwargs arguments =
        routed (drfPermissionCheck reads routeReads).urlKwargs arguments' :=
      routed_congr fun declaration h => hnames _ (.inr (.inl (List.mem_map_of_mem h)))
    have hquery : routed (drfPermissionCheck reads routeReads).queryParams arguments =
        routed (drfPermissionCheck reads routeReads).queryParams arguments' :=
      routed_congr fun declaration h => hnames _ (.inr (.inr (List.mem_map_of_mem h)))
    rw [harguments']
    simp only [Question.context, Question.check, Option.map_some, hroute, hurl, hquery]
    rfl

/-- A question made of either makes one pair. -/
theorem Agree.pair {q q' : Question U D V} (h : Agree q q') (runtime : Runtime U) (w : World U) :
    q.pair runtime w = q'.pair runtime w := by
  have hcontext := h.context
  have hrequest : q.keptRequest = q'.keptRequest := by
    rw [h.same]
    rfl
  have hview : q.keptView = q'.keptView := by
    rw [h.same]
    rfl
  rw [Question.pair, Question.pair, hcontext, hrequest, hview]

/-- Two questions that agree leave one world. -/
theorem Agree.ask {q q' : Question U D V} (h : Agree q q') (runtime : Runtime U) (w : World U) :
    q.ask runtime w = q'.ask runtime w := by
  have hassigned : q.assigned = q'.assigned := by rw [h.same]
  rw [Question.ask, Question.ask, h.pair, hassigned]

/-- So do two lists of them. -/
theorem askAll_congr {questions questions' : List (Question U D V)} (h : List.Forall₂ Agree questions questions')
    (runtime : Runtime U) (w : World U) : askAll runtime w questions = askAll runtime w questions' := by
  induction h generalizing w with
  | nil => rfl
  | cons hagree _ ih =>
    simp only [askAll, List.foldl_cons] at ih ⊢
    rw [hagree.ask, ih]

/-- **An argument the spec does not declare has no part in a question**: two runs of questions whose arguments
differ in no declared name ask every class about the same request and view. -/
theorem undeclared_unseen (runtime : Runtime U) (w : World U) {questions questions' : List (Question U D V)}
    {q q' : Question U D V} (h : List.Forall₂ Agree questions questions') (hq : Agree q q') :
    q.pair runtime (askAll runtime w questions) = q'.pair runtime (askAll runtime w questions') := by
  rw [askAll_congr h, hq.pair]

/-! ## A refund asked about twice -/

/-- A question whether `bob` may refund an order, of a spec that routes `order` and declares `page`. -/
def mayRefund (arguments : Dict String Value) : Question String Unit Unit where
  reads := [.urlKwarg ⟨"order", none⟩, .queryParam ⟨"page", some (.int 1)⟩]
  routeReads := ["shop", "page"]
  principal := "bob"
  arguments := some arguments
  callContext := some ⟨some (.django 0), none, some (.str "refund")⟩
  request := none
  view := none
  assigned := [.request "user" (.user "mallory"), .wrapped "method" (.text "GET")]

/-- The question, of order 7. -/
def mayRefundSeven : Question String Unit Unit := mayRefund (.ofList [("order", .int 7)])

/-- What arrived, once the question was asked of no order. -/
def askedOnce : World String := askAll namedRuntime (.start [arrived] [.empty]) [mayRefund .empty]

/-- The second question is asked around what arrived, whatever the first assigned. -/
theorem asked_after_run_mayRefund :
    own (mayRefundSeven.ask namedRuntime askedOnce) (.live 0) = some ⟨arrived, .empty⟩ ∧
      ∃ context d, (mayRefundSeven.pair namedRuntime askedOnce).1.contexts[1]? = some context ∧
        own (mayRefundSeven.pair namedRuntime askedOnce).1 (.context 1) = some d ∧
        Sees namedRuntime namedDrf mayRefundSeven arrived d context.view := by
  have hasked := asked_after_run namedRuntime [arrived] [.empty] [] [mayRefund .empty] mayRefundSeven
    namedDrf_lawful fun request hrequest => by
      obtain rfl : 0 = request := Option.some_inj.1 hrequest
      exact ⟨_, rfl⟩
  obtain ⟨source, context, d, haround, hcontext, hown, hsees⟩ := hasked.2.2 (.inl rfl)
  obtain rfl : source = arrived := (congrArg Own.wrapped (Option.some_inj.1 haround)).symm
  exact ⟨hasked.1 (.live 0) _ rfl, context, d, hcontext, hown, hsees⟩

/-- The class of an order sees no `admin`. -/
theorem undeclared_unseen_mayRefund :
    (mayRefund (.ofList [("order", .int 7)])).pair namedRuntime (.start [arrived] [.empty]) =
      (mayRefund (.ofList [("order", .int 7), ("admin", .bool true)])).pair namedRuntime
        (.start [arrived] [.empty]) :=
  undeclared_unseen namedRuntime (.start [arrived] [.empty]) .nil ⟨rfl, by simp [mayRefund], by
    rintro arguments arguments' harguments harguments' name hname
    obtain rfl := Option.some_inj.1 harguments
    obtain rfl := Option.some_inj.1 harguments'
    have hname : name ∈ ["shop", "page", "order", "page"] := hname
    simp only [List.mem_cons, List.not_mem_nil, or_false] at hname
    rcases hname with rfl | rfl | rfl | rfl <;> rfl⟩

end RestFrameworkServices.PermissionQuestions
