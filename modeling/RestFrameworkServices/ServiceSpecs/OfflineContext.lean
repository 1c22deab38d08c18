import Mathlib.Order.Nat
import RestFrameworkServices.Types.Value

/-!
# The request a call off HTTP is handed

`build_offline_context` makes the request and view a spec written for HTTP needs where there is none, around a
copy of a Django request where the caller has one. The copy is shallow: its attributes are its own, and the
objects they are (`META`, the session) are the caller's. DRF's `Request` around it writes a `user` through to it.

`own_after_run` says whose attributes are whose: over any run of contexts built, of assignments through them, and
of what goes on around them, the attributes of a live request are what was assigned to the request itself, and
those of a context's what was assigned through the context. `derived_after_run` says what a context reads as until
then, where DRF's `Request` reads its own names as documented (`Drf.Lawful`).
-/

namespace RestFrameworkServices.OfflineContexts

open Lib

variable {U : Type}

/-- The value of an attribute: an immutable value, a user, a query string, the data of a request, or an object
others may hold too. -/
inductive Attr (U : Type) where
  | text (s : String)
  | user (u : U)
  | query (q : QueryDict)
  | data (d : Value)
  | shared (object : ℕ)

/-- The `__dict__` of a request. What Django computes where it is first read, as a WSGI request's `GET`, counts as
there. -/
abbrev Attributes (U : Type) := Dict String (Attr U)

/-- DRF's `Request`: the Django request it wraps, and its own attributes. -/
structure DrfRequest (U : Type) where
  wrapped : ℕ
  attributes : Attributes U

/-- `OfflineServiceView`, around the context's request. -/
structure OfflineServiceView where
  action : Option String
  kwargs : Dict String Value

/-- `OfflineContext`. -/
structure OfflineContext (U R W : Type) where
  user : U
  request : R
  view : W

/-- The context that `build_offline_context` makes, whose request is its view's too. -/
abbrev BuiltContext (U : Type) := OfflineContext U (DrfRequest U) OfflineServiceView

/-- The Django requests there are, the contexts built, and the objects that attributes share. -/
structure World (U : Type) where
  requests : List (Attributes U)
  contexts : List (BuiltContext U)
  objects : List (Dict String Value)

/-- What a caller hands `build_offline_context`. `host` is as `_split_host` splits it: a scheme, a netloc, and
the netloc's name and port. -/
structure Build (U : Type) where
  user : U
  params : Option Value
  httpRequest : Option ℕ
  action : Option String
  kwargs : Option (Dict String Value)
  queryParams : Option (Dict String Value)
  host : Option (String × String × String × Option String)

/-- What `HttpRequest.__init__` sets, given its new `META`, what DRF's `Request.__init__` sets beside the request
it wraps, and Python's `str`. -/
structure Runtime (U : Type) where
  httpRequest : ℕ → Attributes U
  drfRequest : Attributes U
  str : Value → String

namespace Runtime
variable (runtime : Runtime U)

/-- `_build_query_dict`, of one parameter. -/
def addQueryParam (query : QueryDict) (e : String × Value) : QueryDict :=
  match e.2 with
  | .list items => query.setList e.1 (items.map fun item => .str (runtime.str item))
  | value => query.setItem e.1 (.str (runtime.str value))

/-- `_build_query_dict`. -/
def buildQueryDict (queryParams : Dict String Value) : QueryDict :=
  queryParams.entries.foldl runtime.addQueryParam .empty

/-- The `META` of a request made for a host. -/
def hostMeta : Option (String × String × String × Option String) → Dict String Value
  | none => .empty
  | some (scheme, netloc, hostname, port) => .ofList [
      ("HTTP_HOST", .str netloc),
      ("SERVER_NAME", .str hostname),
      ("SERVER_PORT", .str (port.getD (if scheme = "https" then "443" else "80"))),
      ("wsgi.url_scheme", .str scheme)]

/-- `_copy_request`, or `_synthesize_request`: the attributes of the request to wrap, and the objects made for
it. -/
def baseRequest (w : World U) (b : Build U) : Attributes U × List (Dict String Value) :=
  match b.httpRequest with
  | some request => (w.requests[request]?.getD .empty, [])
  | none =>
    let made := runtime.httpRequest w.objects.length
    (match b.host with
      | none => made
      | some host => made.set "offline_host" (.text host.2.1), [hostMeta b.host])

/-- The attributes a built request has of its own, over those it was made with. -/
def assigned (b : Build U) (made : Attributes U) : Attributes U :=
  let posted := made.set "method" (.text "POST")
  let queried := match b.queryParams with
    | none => posted
    | some queryParams => posted.set "GET" (.query (runtime.buildQueryDict queryParams))
  queried.set "user" (.user b.user)

/-- DRF's `Request` around it, its `user` and its data set. -/
def drfAttributes (b : Build U) : Attributes U :=
  (runtime.drfRequest.set "_user" (.user b.user)).set "_full_data"
    (.data (b.params.getD (.mapping true [])))

/-- `build_offline_context`. -/
def buildOfflineContext (w : World U) (b : Build U) : World U :=
  let (made, objects) := runtime.baseRequest w b
  { requests := w.requests ++ [runtime.assigned b made]
    contexts := w.contexts ++ [{
      user := b.user
      request := ⟨w.requests.length, runtime.drfAttributes b⟩
      view := ⟨b.action, b.kwargs.getD .empty⟩ }]
    objects := w.objects ++ objects }

end Runtime

/-! ## What goes on -/

/-- What is done to requests: one arrives, a context is built, an attribute of a context's request is assigned
(DRF's `Request` has a setter for `user` and `auth`, which writes through), or of the request it wraps, or of a
request no context wraps, and an object that attributes share is written into. -/
inductive Event (U : Type) where
  | arrive (attributes : Attributes U)
  | build (b : Build U)
  | assign (context : ℕ) (name : String) (value : Attr U)
  | assignWrapped (context : ℕ) (name : String) (value : Attr U)
  | assignLive (request : ℕ) (name : String) (value : Attr U)
  | writeInto (object : ℕ) (name : String) (value : Value)

/-- A context wraps the request. -/
def World.wraps (w : World U) (request : ℕ) : Bool :=
  w.contexts.any fun context => context.request.wrapped == request

/-- What assigning an attribute of a DRF `Request` sets on it. -/
def assignDrf (attributes : Attributes U) (name : String) (value : Attr U) : Attributes U :=
  attributes.set (if name = "user" ∨ name = "auth" then "_" ++ name else name) value

/-- What it sets on the request it wraps. -/
def assignThrough (attributes : Attributes U) (name : String) (value : Attr U) : Attributes U :=
  if name = "user" ∨ name = "auth" then attributes.set name value else attributes

/-- A context, an attribute of its DRF `Request` assigned. -/
def OfflineContext.assign (context : BuiltContext U) (name : String) (value : Attr U) : BuiltContext U :=
  { context with request.attributes := assignDrf context.request.attributes name value }

/-- What happens. Nothing does where there is no such request, or it is a context's. -/
def step (runtime : Runtime U) (w : World U) : Event U → World U
  | .arrive attributes => { w with requests := w.requests ++ [attributes] }
  | .build b => runtime.buildOfflineContext w b
  | .assign i name value =>
    match w.contexts[i]? with
    | none => w
    | some context => { w with
        contexts := w.contexts.modify i fun context => context.assign name value
        requests := w.requests.modify context.request.wrapped fun made => assignThrough made name value }
  | .assignWrapped i name value =>
    match w.contexts[i]? with
    | none => w
    | some context => { w with
        requests := w.requests.modify context.request.wrapped fun made => made.set name value }
  | .assignLive request name value =>
    if w.wraps request then w
    else { w with requests := w.requests.modify request fun made => made.set name value }
  | .writeInto object name value =>
    { w with objects := w.objects.modify object fun items => items.set name value }

/-- A run of events. -/
def run (runtime : Runtime U) (w : World U) (events : List (Event U)) : World U :=
  events.foldl (step runtime) w

/-! ## Whose attributes are whose -/

/-- What a request is known by: its own number, where no context wraps it, or the context's that does. -/
inductive Handle where
  | live (request : ℕ)
  | context (i : ℕ)
deriving DecidableEq

/-- The attributes of a Django request, and of DRF's `Request` around it, where a context has one. -/
structure Own (U : Type) where
  wrapped : Attributes U
  drf : Attributes U

/-- The Django request a handle is of. -/
def number (w : World U) : Handle → Option ℕ
  | .live request => if w.wraps request then none else some request
  | .context i => w.contexts[i]?.map fun context => context.request.wrapped

/-- The attributes of the DRF request a handle is of. -/
def drfOf (w : World U) : Handle → Attributes U
  | .live _ => .empty
  | .context i => (w.contexts[i]?.map fun context => context.request.attributes).getD .empty

/-- The attributes a handle has of its own. -/
def own (w : World U) (x : Handle) : Option (Own U) :=
  (number w x).bind fun n => w.requests[n]?.map fun made => ⟨made, drfOf w x⟩

/-- What an event does to the attributes of a handle: only one through the handle does anything. -/
def ownStep (x : Handle) (d : Own U) : Event U → Own U
  | .assign i name value =>
    if x = .context i then ⟨assignThrough d.wrapped name value, assignDrf d.drf name value⟩ else d
  | .assignWrapped i name value => if x = .context i then { d with wrapped := d.wrapped.set name value } else d
  | .assignLive request name value =>
    if x = .live request then { d with wrapped := d.wrapped.set name value } else d
  | .arrive _ | .build _ | .writeInto .. => d

/-- Each context wraps a request of its own. -/
structure Sound (w : World U) : Prop where
  made : ∀ context ∈ w.contexts, context.request.wrapped < w.requests.length
  apart : (w.contexts.map fun context => context.request.wrapped).Nodup

section
variable {runtime : Runtime U} {w : World U} {i : ℕ} {context : BuiltContext U}

/-- A request is wrapped where a context is built around it. -/
theorem wraps_eq_true_iff {request : ℕ} :
    w.wraps request = true ↔ ∃ context ∈ w.contexts, context.request.wrapped = request := by
  simp [World.wraps]

/-- Assigning to a context's DRF request leaves what it wraps. -/
theorem map_wrapped_assign (contexts : List (BuiltContext U)) (i : ℕ) (name : String) (value : Attr U) :
    ((contexts.modify i fun context => context.assign name value).map fun context => context.request.wrapped) =
      contexts.map fun context => context.request.wrapped := by
  refine List.ext_getElem? fun j => ?_
  rw [List.getElem?_map, List.getElem?_map, List.getElem?_modify]
  split <;> simp [Option.map_map, Function.comp_def, OfflineContext.assign]

/-- Two contexts that wrap one request are one. -/
theorem Sound.eq (h : Sound w) {j : ℕ} {other : BuiltContext U}
    (hi : w.contexts[i]? = some context) (hj : w.contexts[j]? = some other)
    (heq : context.request.wrapped = other.request.wrapped) : i = j := by
  have hlt : i < (w.contexts.map fun context => context.request.wrapped).length := by
    rw [List.length_map]
    exact (List.getElem?_eq_some_iff.1 hi).1
  refine (List.getElem?_inj hlt h.apart).1 ?_
  rw [List.getElem?_map, List.getElem?_map, hi, hj, Option.map_some, Option.map_some, heq]

/-- A new context wraps a request no other does. -/
theorem sound_build (h : Sound w) (b : Build U) : Sound (runtime.buildOfflineContext w b) := by
  constructor
  · intro context hcontext
    rw [Runtime.buildOfflineContext] at hcontext ⊢
    rw [List.length_append, List.length_singleton]
    rcases List.mem_append.1 hcontext with hold | hnew
    · exact (h.made context hold).trans (Nat.lt_succ_self _)
    · obtain rfl := List.mem_singleton.1 hnew
      exact Nat.lt_succ_self _
  · rw [Runtime.buildOfflineContext, List.map_append, List.nodup_append]
    refine ⟨h.apart, List.nodup_singleton _, fun request hrequest other hother => ?_⟩
    obtain ⟨context, hcontext, rfl⟩ := List.mem_map.1 hrequest
    obtain rfl := List.mem_singleton.1 hother
    exact (h.made context hcontext).ne

/-- An assignment through a context leaves a sound world so. -/
theorem sound_assign (h : Sound w) (i : ℕ) (name : String) (value : Attr U) :
    Sound { w with contexts := w.contexts.modify i fun context => context.assign name value } := by
  refine ⟨fun other hother => ?_, by rw [map_wrapped_assign]; exact h.apart⟩
  have hmem : other.request.wrapped ∈ w.contexts.map fun context => context.request.wrapped := by
    rw [← map_wrapped_assign w.contexts i name value]
    exact List.mem_map_of_mem hother
  obtain ⟨held, hheld, heq⟩ := List.mem_map.1 hmem
  rw [← heq]
  exact h.made held hheld

/-- So does one to a Django request. -/
theorem sound_modify (h : Sound w) (n : ℕ) (f : Attributes U → Attributes U) :
    Sound { w with requests := w.requests.modify n f } :=
  ⟨fun context hcontext => by rw [List.length_modify]; exact h.made context hcontext, h.apart⟩

/-- So does every event. -/
theorem sound_step (h : Sound w) (e : Event U) : Sound (step runtime w e) := by
  cases e with
  | arrive attributes =>
    refine ⟨fun context hcontext => ?_, h.apart⟩
    exact (h.made context hcontext).trans_le (by simp [step])
  | build b => exact sound_build h b
  | assign i name value =>
    rw [step]
    split
    · exact h
    · exact sound_modify (sound_assign h i name value) _ _
  | assignWrapped i name value =>
    rw [step]
    split
    · exact h
    · exact sound_modify h _ _
  | assignLive request name value =>
    rw [step]
    split
    · exact h
    · exact sound_modify h _ _
  | writeInto object name value => exact ⟨h.made, h.apart⟩

/-- So does a run of them. -/
theorem sound_run (h : Sound w) (events : List (Event U)) : Sound (run runtime w events) := by
  induction events generalizing w with
  | nil => exact h
  | cons e events ih => exact ih (sound_step h e)

/-- Two handles of one request are one. -/
theorem Sound.number_inj (h : Sound w) {x y : Handle} {n : ℕ} (hx : number w x = some n)
    (hy : number w y = some n) : x = y := by
  have hlive : ∀ {request}, number w (.live request) = some n → request = n ∧ w.wraps n = false := by
    intro request hrequest
    rw [number] at hrequest
    split at hrequest
    · cases hrequest
    · next hwraps =>
      cases hrequest
      exact ⟨rfl, by simpa using hwraps⟩
  have hcontext : ∀ {i}, number w (.context i) = some n →
      ∃ context, w.contexts[i]? = some context ∧ context.request.wrapped = n :=
    fun h => Option.map_eq_some_iff.1 h
  have hapart : ∀ {request i}, number w (.live request) = some n → number w (.context i) = some n → False := by
    intro request i hrequest hi
    obtain ⟨context, hi, hwrapped⟩ := hcontext hi
    have hwraps := wraps_eq_true_iff.2 ⟨context, List.mem_of_getElem? hi, hwrapped⟩
    rw [(hlive hrequest).2] at hwraps
    cases hwraps
  cases x with
  | live request =>
    cases y with
    | live other => rw [(hlive hx).1, (hlive hy).1]
    | context j => exact (hapart hx hy).elim
  | context i =>
    cases y with
    | live other => exact (hapart hy hx).elim
    | context j =>
      obtain ⟨context, hi, hwrapped⟩ := hcontext hx
      obtain ⟨other, hj, hother⟩ := hcontext hy
      rw [h.eq hi hj (hwrapped.trans hother.symm)]

/-- A request assigned to is one handle's. -/
theorem own_modify (h : Sound w) {x y : Handle} {n : ℕ} (hy : number w y = some n)
    (f : Attributes U → Attributes U) {d : Own U} (hx : own w x = some d) :
    own { w with requests := w.requests.modify n f } x =
      some (if x = y then { d with wrapped := f d.wrapped } else d) := by
  obtain ⟨m, hm, hd⟩ := Option.bind_eq_some_iff.1 hx
  obtain ⟨made, hmade, rfl⟩ := Option.map_eq_some_iff.1 hd
  have hnumber : number { w with requests := w.requests.modify n f } x = some m := hm
  rw [own, hnumber, Option.bind_some, List.getElem?_modify, hmade]
  by_cases heq : x = y
  · subst heq
    rw [hm] at hy
    cases hy
    simp
    rfl
  · have hne : n ≠ m := by
      rintro rfl
      exact heq (h.number_inj hm hy)
    rw [if_neg heq]
    simp [hne]
    rfl

/-- Assigning to a context's DRF request leaves which request each handle is of. -/
theorem number_assign (w : World U) (i : ℕ) (name : String) (value : Attr U) (x : Handle) :
    number { w with contexts := w.contexts.modify i fun context => context.assign name value } x =
      number w x := by
  have hmap := map_wrapped_assign w.contexts i name value
  cases x with
  | live request =>
    have hwraps : ∀ contexts : List (BuiltContext U),
        (contexts.any fun context => context.request.wrapped == request) =
          (contexts.map fun context => context.request.wrapped).any (· == request) := by
      intro contexts
      rw [List.any_map]
      rfl
    simp only [number, World.wraps, hwraps, hmap]
  | context j =>
    have hget := congrArg (fun numbers => numbers[j]?) hmap
    simpa only [number, List.getElem?_map] using hget

/-- An assignment through a context goes to that context's request alone. -/
theorem drfOf_assign (w : World U) (i : ℕ) (name : String) (value : Attr U) {x : Handle} {n : ℕ}
    (hx : number w x = some n) :
    drfOf { w with contexts := w.contexts.modify i fun context => context.assign name value } x =
      if x = .context i then assignDrf (drfOf w x) name value else drfOf w x := by
  cases x with
  | live request => rfl
  | context j =>
    obtain ⟨context, hj, -⟩ := Option.map_eq_some_iff.1 hx
    simp only [drfOf, List.getElem?_modify, hj, Handle.context.injEq]
    by_cases hij : i = j
    · subst hij
      simp [OfflineContext.assign]
    · simp [hij, Ne.symm hij]

/-- A handle of a request stays one of it where another request, or another context, is made. -/
theorem own_append {x : Handle} {d : Own U} (hx : own w x = some d) (made : Attributes U)
    {contexts : List (BuiltContext U)}
    (hcontexts : ∀ context ∈ contexts, context.request.wrapped = w.requests.length)
    (objects : List (Dict String Value)) :
    own ⟨w.requests ++ [made], w.contexts ++ contexts, objects⟩ x = some d := by
  obtain ⟨n, hn, hd⟩ := Option.bind_eq_some_iff.1 hx
  obtain ⟨held, hheld, rfl⟩ := Option.map_eq_some_iff.1 hd
  have hlt : n < w.requests.length := (List.getElem?_eq_some_iff.1 hheld).1
  have hnumber : number ⟨w.requests ++ [made], w.contexts ++ contexts, objects⟩ x = some n ∧
      drfOf ⟨w.requests ++ [made], w.contexts ++ contexts, objects⟩ x = drfOf w x := by
    cases x with
    | live request =>
      refine ⟨?_, rfl⟩
      rw [number] at hn ⊢
      split at hn
      · cases hn
      · next hwraps =>
        cases hn
        refine if_neg fun hall => ?_
        obtain ⟨context, hcontext, heq⟩ := wraps_eq_true_iff.1 hall
        rcases List.mem_append.1 hcontext with hold | hnew
        · exact hwraps (wraps_eq_true_iff.2 ⟨context, hold, heq⟩)
        · exact hlt.ne (heq.symm.trans (hcontexts context hnew))
    | context i =>
      obtain ⟨context, hi, -⟩ := Option.map_eq_some_iff.1 hn
      have hold : (w.contexts ++ contexts)[i]? = some context := by
        rw [List.getElem?_append_left (List.getElem?_eq_some_iff.1 hi).1, hi]
      rw [number, hi] at hn
      simp only [number, drfOf, hold, hi]
      exact ⟨hn, trivial⟩
  rw [own, hnumber.1, Option.bind_some, hnumber.2, List.getElem?_append_left hlt, hheld, Option.map_some]

/-- What a step does is done to the handle it goes through. -/
theorem own_step (h : Sound w) {x : Handle} {d : Own U} (hx : own w x = some d) (e : Event U) :
    own (step runtime w e) x = some (ownStep x d e) := by
  obtain ⟨n, hn, hd⟩ := Option.bind_eq_some_iff.1 hx
  have hother : ∀ i, w.contexts[i]? = none → x ≠ .context i := by
    rintro i hnone rfl
    rw [number, hnone] at hn
    cases hn
  cases e with
  | arrive attributes =>
    have happend : own ⟨w.requests ++ [attributes], w.contexts ++ [], w.objects⟩ x = some d :=
      own_append hx attributes (by simp) w.objects
    rwa [List.append_nil] at happend
  | build b =>
    refine own_append hx _ (fun context hcontext => ?_) _
    obtain rfl := List.mem_singleton.1 hcontext
    rfl
  | assign i name value =>
    rw [step, ownStep]
    split
    · next hnone =>
      rw [if_neg (hother i hnone)]
      exact hx
    · next context hi =>
      let assigned : World U :=
        { w with contexts := w.contexts.modify i fun context => context.assign name value }
      have hassigned : own assigned x =
          some ⟨d.wrapped, if x = .context i then assignDrf d.drf name value else d.drf⟩ := by
        obtain ⟨made, hmade, rfl⟩ := Option.map_eq_some_iff.1 hd
        rw [own, number_assign, hn, Option.bind_some, drfOf_assign w i name value hn, hmade]
        rfl
      have hnumber : number assigned (.context i) = some context.request.wrapped := by
        rw [number_assign, number, hi, Option.map_some]
      have hmodified := own_modify (sound_assign h i name value) hnumber
        (fun made => assignThrough made name value) hassigned
      refine hmodified.trans ?_
      split <;> rfl
  | assignWrapped i name value =>
    rw [step, ownStep]
    split
    · next hnone =>
      rw [if_neg (hother i hnone)]
      exact hx
    · next context hi =>
      have hnumber : number w (.context i) = some context.request.wrapped := by
        rw [number, hi, Option.map_some]
      exact own_modify h hnumber (fun made => made.set name value) hx
  | assignLive request name value =>
    rw [step, ownStep]
    split
    · next hwraps =>
      rw [if_neg]
      · exact hx
      · rintro rfl
        rw [number, if_pos hwraps] at hn
        cases hn
    · next hwraps =>
      have hnumber : number w (.live request) = some request := if_neg hwraps
      exact own_modify h hnumber (fun made => made.set name value) hx
  | writeInto object name value => exact hx

/-- What belongs to a handle after a run is what the events through it make of it. -/
theorem own_run (h : Sound w) {x : Handle} {d : Own U} (hx : own w x = some d) (events : List (Event U)) :
    own (run runtime w events) x = some (events.foldl (ownStep x) d) := by
  induction events generalizing w d with
  | nil => exact hx
  | cons e events ih => exact ih (sound_step h e) (own_step h hx e)

/-- What a context is built with. -/
theorem own_build (b : Build U) :
    own (step runtime w (.build b)) (.context w.contexts.length) =
      some ⟨runtime.assigned b (runtime.baseRequest w b).1, runtime.drfAttributes b⟩ := by
  simp [own, number, drfOf, step, Runtime.buildOfflineContext]

end

/-- Requests that arrived, and no context built. -/
def World.start (requests : List (Attributes U)) (objects : List (Dict String Value)) : World U :=
  ⟨requests, [], objects⟩

/-- A world with no context is sound. -/
theorem sound_start (requests : List (Attributes U)) (objects : List (Dict String Value)) :
    Sound (World.start requests objects) :=
  ⟨nofun, .nil⟩

section
variable (runtime : Runtime U) (requests : List (Attributes U)) (objects : List (Dict String Value))
  (before after : List (Event U)) (b : Build U)

/-- **The caller keeps its request, and each context has its own.** Whatever went on before a context is built and
goes on after, the attributes of the context are what it was built with and what was assigned through it since,
and those of every other request, the one it was built around among them, what was assigned through that one. -/
theorem own_after_run :
    own (run runtime (run runtime (.start requests objects) before) (.build b :: after))
        (.context (run runtime (.start requests objects) before).contexts.length) =
      some (after.foldl (ownStep (.context (run runtime (.start requests objects) before).contexts.length))
        ⟨runtime.assigned b (runtime.baseRequest (run runtime (.start requests objects) before) b).1,
          runtime.drfAttributes b⟩) ∧
      ∀ x d, own (run runtime (.start requests objects) before) x = some d →
        own (run runtime (run runtime (.start requests objects) before) (.build b :: after)) x =
          some (after.foldl (ownStep x) d) := by
  have hsound : Sound (run runtime (.start requests objects) before) :=
    sound_run (sound_start requests objects) before
  exact ⟨own_run (sound_step hsound (.build b)) (own_build b) after, fun x d hx =>
    own_run hsound hx (.build b :: after)⟩

end

/-! ## What a context reads as -/

/-- DRF's `Request`: the names its class has of its own, and what reading each answers. -/
structure Drf (U : Type) where
  names : List String
  property : String → Own U → Option (Attr U)

/-- What reading an attribute of a DRF `Request` answers: what its class has of the name, or else its own
attribute, or else one of the request it wraps. -/
def Drf.read (drf : Drf U) (d : Own U) (name : String) : Option (Attr U) :=
  if name ∈ drf.names then drf.property name d else (d.drf.get? name).or (d.wrapped.get? name)

/-- A `user` set is the user and data set are the data, `query_params` is the query string of the request wrapped,
and its method and its `GET` are that request's. -/
structure Drf.Lawful (runtime : Runtime U) (drf : Drf U) : Prop where
  user : ∀ d user, d.drf.get? "_user" = some (.user user) → drf.read d "user" = some (.user user)
  data : ∀ d data, d.drf.get? "_full_data" = some (.data data) → drf.read d "data" = some (.data data)
  queryParams : ∀ d, drf.read d "query_params" = d.wrapped.get? "GET"
  passed : ∀ name ∈ ["method", "GET"], name ∉ drf.names ∧ name ∉ runtime.drfRequest

/-- The values a query parameter is read as. -/
def Runtime.queryValues (runtime : Runtime U) : Value → List Value
  | .list items => items.map fun item => .str (runtime.str item)
  | value => [.str (runtime.str value)]

/-- A query string holds each parameter it was made of, as strings. -/
theorem get?_buildQueryDict (runtime : Runtime U) (queryParams : Dict String Value) (name : String) :
    (runtime.buildQueryDict queryParams).lists.get? name =
      (queryParams.get? name).map runtime.queryValues := by
  have hadd : ∀ (query : QueryDict) (e : String × Value),
      runtime.addQueryParam query e = ⟨query.lists.set e.1 (runtime.queryValues e.2)⟩ := by
    rintro query ⟨name, value⟩
    cases value <;> rfl
  have hfold : ∀ (entries : List (String × Value)) (query : QueryDict),
      (entries.foldl runtime.addQueryParam query).lists.get? name =
        ((entries.reverse.lookup name).map runtime.queryValues).or (query.lists.get? name) := by
    intro entries
    induction entries with
    | nil => intro query; rfl
    | cons e entries ih =>
      intro query
      rw [List.foldl_cons, ih, hadd, Dict.get?_set, lookup_reverse_cons]
      split <;> cases entries.reverse.lookup name <;> simp
  rw [Runtime.buildQueryDict, hfold, lookup_reverse_of_nodup queryParams.nodup]
  exact Option.or_none

/-- A context's request reads as what it was built of: its own method, user, data and query string, and under
any other name that DRF has nothing of its own under, as the request it was built around. -/
structure Derived (runtime : Runtime U) (drf : Drf U) (b : Build U) (source : Attributes U) (d : Own U) :
    Prop where
  user : drf.read d "user" = some (.user b.user)
  data : drf.read d "data" = some (.data (b.params.getD (.mapping true [])))
  method : drf.read d "method" = some (.text "POST")
  queryParams : ∀ queryParams, b.queryParams = some queryParams → ∃ query,
    drf.read d "query_params" = some (.query query) ∧
      ∀ name, query.lists.get? name = (queryParams.get? name).map runtime.queryValues
  ownQuery : b.queryParams = none → drf.read d "query_params" = source.get? "GET"
  get : drf.read d "GET" = drf.read d "query_params"
  others : ∀ name, name ∉ drf.names → name ∉ runtime.drfAttributes b →
    name ∉ ["user", "method", "GET"] → drf.read d name = source.get? name

/-- A new context reads as what it was built of. -/
theorem derived_build {runtime : Runtime U} {drf : Drf U} (hdrf : drf.Lawful runtime) (b : Build U)
    (source : Attributes U) :
    Derived runtime drf b source ⟨runtime.assigned b source, runtime.drfAttributes b⟩ := by
  have hset : ∀ name, (runtime.drfAttributes b).get? name =
      if name = "_full_data" then some (.data (b.params.getD (.mapping true [])))
      else if name = "_user" then some (.user b.user) else runtime.drfRequest.get? name := by
    intro name
    rw [Runtime.drfAttributes, Dict.get?_set, Dict.get?_set]
  have hwrapped : ∀ name, (runtime.assigned b source).get? name =
      if name = "user" then some (.user b.user)
      else ((if name = "GET" then b.queryParams else none).map fun queryParams =>
        .query (runtime.buildQueryDict queryParams)).or
          (if name = "method" then some (.text "POST") else source.get? name) := by
    intro name
    rw [Runtime.assigned, Dict.get?_set]
    cases b.queryParams with
    | none => simp [Dict.get?_set]
    | some queryParams =>
      by_cases hget : name = "GET" <;> simp [Dict.get?_set, hget]
  have hpassed : ∀ name, name ∉ drf.names → name ∉ runtime.drfAttributes b →
      drf.read ⟨runtime.assigned b source, runtime.drfAttributes b⟩ name =
        (runtime.assigned b source).get? name := by
    intro name hnames hname
    rw [Drf.read, if_neg hnames, Dict.get?_eq_none.2 hname, Option.none_or]
  have hplain : ∀ name ∈ ["method", "GET"],
      drf.read ⟨runtime.assigned b source, runtime.drfAttributes b⟩ name =
        (runtime.assigned b source).get? name := by
    intro name hname
    obtain ⟨hnames, hrequest⟩ := hdrf.passed name hname
    refine hpassed name hnames (Dict.get?_eq_none.1 ?_)
    have hnone : runtime.drfRequest.get? name = none := Dict.get?_eq_none.2 hrequest
    simp only [List.mem_cons, List.not_mem_nil, or_false] at hname
    rcases hname with rfl | rfl <;> simp [hset, hnone]
  refine ⟨hdrf.user _ _ (by simp [hset]), hdrf.data _ _ (by simp [hset]), ?_, fun queryParams hquery => ?_,
    fun hquery => ?_, ?_, fun name hnames hown hname => ?_⟩
  · rw [hplain "method" (by simp), hwrapped]
    simp
  · refine ⟨runtime.buildQueryDict queryParams, ?_, get?_buildQueryDict runtime queryParams⟩
    rw [hdrf.queryParams, hwrapped]
    simp [hquery]
  · rw [hdrf.queryParams, hwrapped]
    simp [hquery]
  · rw [hplain "GET" (by simp), hdrf.queryParams]
  · simp only [List.mem_cons, List.not_mem_nil, or_false, not_or] at hname
    rw [hpassed name hnames hown, hwrapped]
    simp [hname]

/-- An event through a handle. -/
def Through (x : Handle) : Event U → Prop
  | .assign i _ _ | .assignWrapped i _ _ => x = .context i
  | .assignLive request _ _ => x = .live request
  | .arrive _ | .build _ | .writeInto .. => False

/-- Events through other handles do nothing to one's. -/
theorem foldl_ownStep {x : Handle} {d : Own U} {events : List (Event U)}
    (h : ∀ e ∈ events, ¬ Through x e) : events.foldl (ownStep x) d = d := by
  induction events with
  | nil => rfl
  | cons e events ih =>
    have he : ownStep x d e = d := by
      have hthrough := h e List.mem_cons_self
      cases e with
      | assign | assignWrapped | assignLive => exact if_neg hthrough
      | arrive | build | writeInto => rfl
    rw [List.foldl_cons, he, ih fun e' he' => h e' (List.mem_cons_of_mem _ he')]

/-- **A context reads as what it was built of**, until something is assigned through it: over any run, whatever
else is built of the same request and whatever is assigned to any other. -/
theorem derived_after_run (runtime : Runtime U) {drf : Drf U} (hdrf : drf.Lawful runtime)
    (requests : List (Attributes U)) (objects : List (Dict String Value)) (before after : List (Event U))
    (b : Build U)
    (hafter : ∀ e ∈ after, ¬ Through
      (.context (run runtime (.start requests objects) before).contexts.length) e) :
    ∃ d, own (run runtime (run runtime (.start requests objects) before) (.build b :: after))
        (.context (run runtime (.start requests objects) before).contexts.length) = some d ∧
      Derived runtime drf b (runtime.baseRequest (run runtime (.start requests objects) before) b).1 d := by
  refine ⟨_, (own_after_run runtime requests objects before after b).1, ?_⟩
  rw [foldl_ownStep hafter]
  exact derived_build hdrf b _

/-! ## A request that two calls are made from -/

/-- A runtime that names its users. -/
def namedRuntime : Runtime String where
  httpRequest object := .ofList [("META", .shared object), ("GET", .query .empty)]
  drfRequest := .empty
  str
    | .str s => s
    | .int i => toString i
    | _ => ""

/-- DRF's `Request`, of a request with no body and no authenticators. -/
def namedDrf : Drf String where
  names := ["user", "auth", "successful_authenticator", "data", "query_params", "content_type", "stream", "POST",
    "FILES"]
  property
    | "user", d => d.drf.get? "_user"
    | "data", d => d.drf.get? "_full_data"
    | "query_params", d => d.wrapped.get? "GET"
    | "content_type", _ => some (.text "")
    | "POST", _ | "FILES", _ => some (.query .empty)
    | _, _ => none

/-- It is as DRF documents. -/
theorem namedDrf_lawful : namedDrf.Lawful namedRuntime :=
  ⟨fun _ _ h => h, fun _ _ h => h, fun _ => rfl, by decide⟩

/-- A `GET` that `ada` sent. -/
def arrived : Attributes String :=
  .ofList [("method", .text "GET"), ("user", .user "ada"), ("META", .shared 0)]

/-- A context for a user, around the first request. -/
def contextFor (user : String) : Build String where
  user := user
  params := none
  httpRequest := some 0
  action := some "refund"
  kwargs := none
  queryParams := some (.ofList [("page", .int 2)])
  host := none

/-- Another context of the request, and its user assigned anew. -/
def meanwhile : List (Event String) := [.build (contextFor "eve"), .assign 1 "user" (.user "mallory")]

/-- What arrived is as it was, whatever contexts were built of it. -/
theorem own_after_run_arrived :
    own (run namedRuntime (.start [arrived] [.empty]) (.build (contextFor "bob") :: meanwhile)) (.live 0) =
      some ⟨arrived, .empty⟩ :=
  (own_after_run namedRuntime [arrived] [.empty] [] meanwhile (contextFor "bob")).2 (.live 0) _ rfl

/-- The first context reads as built for `bob`, whatever came after. -/
theorem derived_after_run_bob :
    ∃ d, own (run namedRuntime (.start [arrived] [.empty]) (.build (contextFor "bob") :: meanwhile))
        (.context 0) = some d ∧ Derived namedRuntime namedDrf (contextFor "bob") arrived d :=
  derived_after_run namedRuntime namedDrf_lawful [arrived] [.empty] [] meanwhile (contextFor "bob") (by
    intro e he
    simp only [meanwhile, List.mem_cons, List.not_mem_nil, or_false] at he
    rcases he with rfl | rfl <;> simp [Through, run, World.start])

end RestFrameworkServices.OfflineContexts
