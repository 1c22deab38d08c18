import RestFrameworkServices.Dispatch.AuthorSplit
import RestFrameworkServices.JsonSchema.SpreadParameters
import RestFrameworkServices.Lib.Eff

/-!
# The run of an edge call

`dispatch_spec` runs the author's code and the kernel's around it: the spec's `kwargs` provider, the
target lookup, the guard (`on_target_resolved`), the spec's `input_data` provider, and then the kernel,
which runs the selector or the service with its preconditions. Any of it may raise, and any of it may
dispatch another spec (`IsCode`).

What a call carries for its own machinery (`EdgeCallState`) is no argument of any of these. It is set in
a context variable for the extent of the call, and a compiled piece, which every call of its spec
shares, reads it from there (`edgeCallState`). A selector's guard is such a piece: the precondition
`callGuard`, which asks the guard of the call in progress.

`dispatchSpec_eq_own` says each piece reads the state of its own call, as though it were handed it. In
every run, `orderly_run` says a call's guard is asked once at most and nothing is acted on but the target
it passed, `passed_dispatch` in which world it was asked (`Call.untilGuard`), and `isolated_run` that what
is run within a call leaves the call as it was.
-/

namespace RestFrameworkServices.EdgeRuns

open Lib JsonSchema

variable {T V G E : Type}

/-- What a call raises: an exception of the edge's, or one of the author's or the kernel's. -/
inductive EdgeError (E : Type) where
  | valueError (text : String)
  | improperlyConfigured (text : String)
  | author (error : E)
deriving DecidableEq, Repr

/-- A selector's guard, closed over the call it is of (`bound_guard`). -/
structure BoundGuard (G : Type) where
  guard : G
  call : ℕ
deriving DecidableEq

/-- `EdgeCallState`, as far as the guard and the author's values of a call. -/
structure EdgeCallState (G V : Type) where
  targetGuard : Option (BoundGuard G) := none
  authorValues : Dict String V := .empty

/-- What is seen of a run: a guard asked about a target, a guard that passed one, code that acted on a
target, of a call with a guard or without, and anything else. -/
inductive Event (T : Type) where
  | asked (call : ℕ) (target : Option T)
  | passed (call : ℕ) (target : Option T)
  | acted (call : ℕ) (guarded : Bool) (target : Option T)
  | other (name : String)
deriving DecidableEq

/-- The call an event is of. -/
def Event.call? : Event T → Option ℕ
  | asked call _ | passed call _ | acted call _ _ => some call
  | other _ => none

/-- The states of the calls made so far, the one of the call in progress (`EDGE_CALL`), and what was
seen, the latest first. -/
structure World (T V G : Type) where
  ambient : Option ℕ
  states : List (EdgeCallState G V)
  trace : List (Event T)

/-- Nothing run yet. -/
def World.start : World T V G := ⟨none, [], []⟩

/-- A run: what it answers or raises, and the world it leaves. -/
abbrev Run (T V G E : Type) (α : Type) := Eff (World T V G) (EdgeError E) α

/-- Code that reads the state of the call in progress, by the reading it is handed. -/
abbrev Code (T V G E : Type) (α : Type) := Run T V G E (EdgeCallState G V) → Run T V G E α

/-- How a dispatch ends (`DispatchResult`): no row, the target a selector found, none where none is
allowed, or what a service returned. -/
inductive DispatchResult (T V : Type) where
  | notFound
  | found (target : T)
  | nothing
  | returned (value : V)
deriving DecidableEq

/-- What a selector finds. -/
inductive Found (T : Type) where
  | missing
  | nothing
  | target (target : T)
deriving DecidableEq

/-- The `instance` a caller hands: unset, `None`, or a row. -/
inductive Handed (T : Type) where
  | unset
  | none
  | row (target : T)
deriving DecidableEq

/-! ## The calls -/

/-- What every call is handed. -/
structure Caller (T V G E : Type) where
  guard : Option G
  binding : ArgumentBinding
  unknownArguments : UnknownArguments
  poolSeeds : List String
  kwargs : Option (Code T V G E (Dict String (Answer V)))
  reword : EdgeError E → Code T V G E (EdgeError E)

/-- A call of a selector spec. The caller's arguments, and what routing the author's values makes of
them and of the extras, may be refused; the selector reads both. -/
structure SelectorCall (T V G E : Type) extends Caller T V G E where
  arguments : Except (EdgeError E) (Dict String V)
  route : Dict String V → Dict String (Answer V) →
    Except (EdgeError E) (Dict String V × Dict String V)
  find : Dict String V → Dict String V → Code T V G E (Found T)
  preconditions : List (T → Code T V G E Unit)

/-- A call of a `many` spec: each of its rows takes the server's keys, and the kernel runs the service
over the rows. -/
structure ManyCall (T V G E : Type) extends Caller T V G E where
  arguments : Except (EdgeError E) (Dict String V)
  hooks : Dict String V
  inputData : Option (Option T → Code T V G E (Dict String (Answer V)))
  overRows : Dict String V → Dict String V → Dict String V
  route : Dict String V → Dict String (Answer V) → Except (EdgeError E) (Dict String V)
  run : Dict String V → Dict String V → Code T V G E (DispatchResult T V)

/-- Any other call of a service spec, with the lookup of its target, where it declares one. Routing the
author's values answers the arguments, the values seated for the service and those left as extras. -/
structure SingleCall (T V G E : Type) extends Caller T V G E where
  arguments : Except (EdgeError E) (Dict String V)
  handed : Handed T
  lookup : Option (Dict String V → Code T V G E (Option T))
  route : Dict String V → Dict String (Answer V) →
    Except (EdgeError E) (Dict String V × Dict String V × Dict String V)
  hooks : Dict String V
  inputData : Option (Option T → Code T V G E (Dict String (Answer V)))
  run : Dict String V → Dict String V → Option T → Code T V G E (DispatchResult T V)

/-- A call. -/
inductive Call (T V G E : Type) where
  | selector (call : SelectorCall T V G E)
  | many (call : ManyCall T V G E)
  | single (call : SingleCall T V G E)

/-- What all three are handed. -/
def Call.caller : Call T V G E → Caller T V G E
  | selector call => call.toCaller
  | many call => call.toCaller
  | single call => call.toCaller

/-- What the kernel is: how it runs a selector, handed what finds its target and its preconditions. -/
structure Kernel (T V G E : Type) where
  select : Run T V G E (Found T) → List (T → Run T V G E Unit) → Run T V G E (DispatchResult T V)

/-- The order the kernel documents: a selector's preconditions run on what it found, and never on a
missing row, or on the `None` its `allow_none` let through. -/
def Kernel.Ordered (kernel : Kernel T V G E) : Prop :=
  ∀ find preconditions, kernel.select find preconditions = find >>= fun
    | .missing => pure .notFound
    | .nothing => pure .nothing
    | .target target =>
      Eff.inOrder (preconditions.map fun precondition => precondition target) >>= fun _ =>
        pure (.found target)

/-! ## The state of a call -/

/-- A world in which one event more was seen. -/
def World.see (w : World T V G) (event : Event T) : World T V G := { w with trace := event :: w.trace }

/-- To see an event. -/
def emit (event : Event T) : Run T V G E Unit := Eff.modify fun w => w.see event

/-- `edge_call_state`: the state of the call in progress, or an empty one outside any call. -/
def edgeCallState : Run T V G E (EdgeCallState G V) := fun w =>
  (.ok ((w.ambient.bind fun call => w.states[call]?).getD {}), w)

/-- The state of a call, by the call. -/
def ownState (call : ℕ) : Run T V G E (EdgeCallState G V) := fun w =>
  (.ok (w.states[call]?.getD {}), w)

/-- `EdgeCallState()`. -/
def newState : Run T V G E ℕ := fun w =>
  (.ok w.states.length, { w with states := w.states ++ [{}] })

/-- To write an attribute of a call's state. -/
def writeState (call : ℕ) (f : EdgeCallState G V → EdgeCallState G V) : Run T V G E Unit :=
  Eff.modify fun w => { w with states := w.states.modify call f }

/-- `edge_call`: a call's state as the one in progress, for the extent of a run. -/
def edgeCall {α : Type} (call : ℕ) (m : Run T V G E α) : Run T V G E α :=
  Eff.within World.ambient (fun ambient w => { w with ambient := ambient }) (some call) m

/-! ## The steps before the kernel -/

/-- `refuse_retired_modes`. -/
def refuseRetiredModes (binding : ArgumentBinding) (unknownArguments : UnknownArguments) :
    Except (EdgeError E) Unit :=
  if binding = .spreadCallerWins then
    .error (.valueError ("ArgumentBinding.SPREAD_CALLER_WINS is retired: a call has one pool, where " ++
      "the caller's argument for a declared parameter is what the callable receives unless " ++
      "the spec's kwargs provider is annotated to fill it. Pass ArgumentBinding.AUTO, " ++
      "and leave the key out of the kwargs provider where the caller's value should win."))
  else if unknownArguments = .passthrough then
    .error (.valueError ("UnknownArguments.PASSTHROUGH is retired: an argument the spec does not " ++
      "declare never reaches a callable. Declare it (a reads entry, a serializer field or a " ++
      "parameter), then pass UnknownArguments.IGNORE or UnknownArguments.REJECT."))
  else .ok ()

/-- `edge_seeds`, as far as the names it refuses. -/
def edgeSeeds (poolSeeds : List String) : Except (EdgeError E) Unit :=
  let clash := ["request", "view"].filter (· ∈ poolSeeds)
  if clash.isEmpty then .ok ()
  else .error (.improperlyConfigured ("pool_seeds registers " ++
    String.intercalate ", " (clash.map reprString) ++ ", which dispatch_spec seeds itself from the " ++
    "request and view it is handed. Pass them as request= and view=, and remove the registration."))

section
variable (ask : G → Option T → Run T V G E Unit)

/-- To ask a call's guard about a target. -/
def askGuard (bound : BoundGuard G) (target : Option T) : Run T V G E Unit := do
  emit (.asked bound.call target)
  ask bound.guard target
  emit (.passed bound.call target)

/-- `_call_guard`: the guard of the call in progress. A call that carries none is refused. -/
def callGuard (target : T) : Code T V G E Unit := fun state => do
  match (← state).targetGuard with
  | none =>
    Eff.raise (.improperlyConfigured ("A guarded selector spec was dispatched outside the call that " ++
      "guards it. Dispatch the selector spec through dispatch_spec with on_target_resolved=."))
  | some bound => askGuard ask bound (some target)

/-- The guard of a service's call, where it has one. -/
def guardTarget (caller : Caller T V G E) (call : ℕ) (target : Option T) : Run T V G E Unit :=
  match caller.guard with
  | none => pure ()
  | some guard => askGuard ask ⟨guard, call⟩ target

/-- What a provider answers, where there is one. -/
def provided (provider : Option (Code T V G E (Dict String (Answer V)))) :
    Code T V G E (Dict String (Answer V)) := fun state =>
  match provider with
  | none => pure .empty
  | some provider => provider state

/-- `server_input`: the view's `input_data` under what the spec's provider answers, less what it
declines. -/
def serverInput (hooks : Dict String V)
    (provider : Option (Option T → Code T V G E (Dict String (Answer V)))) (target : Option T) :
    Code T V G E (Dict String V) := fun state => do
  let answered ← provided (provider.map fun provider => provider target) state
  pure (hooks.update (answered.filterMap fun _ answer => answer.value?))

/-- What is prepared: an answer, or what the kernel is handed (`EdgeCall`). -/
inductive Prepared (T V : Type) where
  | answered (result : DispatchResult T V)
  | edgeCall (arguments extra : Dict String V) (target : Option T)

/-- An author's precondition, seen to act on its target. -/
def precondition (caller : Caller T V G E) (call : ℕ) (asked : T → Code T V G E Unit) (target : T) :
    Code T V G E Unit := fun state => do
  emit (.acted call caller.guard.isSome (some target))
  asked target state

/-- The piece a guarded selector's variant has first among its preconditions, given the guard of the
call it is prepared for. -/
abbrev GuardPiece (T V G E : Type) := BoundGuard G → T → Code T V G E Unit

/-- The piece every call shares (`guarded_selector`): it is handed no guard, and asks the one of the call
in progress. -/
def sharedPiece : GuardPiece T V G E := fun _ => callGuard ask

/-- A piece made for the call, which asks the guard it was made with. -/
def ownPiece : GuardPiece T V G E := fun bound target _ => askGuard ask bound (some target)

variable (piece : GuardPiece T V G E)

/-- The preconditions of a selector's variant, the guard's piece first where the call has one. -/
def guardedPreconditions (s : SelectorCall T V G E) (call : ℕ)
    (state : Run T V G E (EdgeCallState G V)) : List (T → Run T V G E Unit) :=
  let declared := s.preconditions.map fun asked target => precondition s.toCaller call asked target state
  match s.guard with
  | none => declared
  | some guard => (fun target => piece ⟨guard, call⟩ target state) :: declared

/-- `prepare_edge_call`, of a selector spec. -/
def prepareSelector (s : SelectorCall T V G E) (call : ℕ) : Code T V G E (Prepared T V) :=
    fun state => do
  Eff.ofExcept (edgeSeeds s.poolSeeds)
  writeState call fun held =>
    { held with targetGuard := s.guard.map fun guard => ⟨guard, call⟩ }
  let arguments ← Eff.ofExcept s.arguments
  let answered ← provided s.kwargs state
  let routed ← Eff.ofExcept (s.route arguments answered)
  pure (.edgeCall routed.1 routed.2 none)

/-- `prepare_edge_call`, of a `many` spec. -/
def prepareMany (m : ManyCall T V G E) (call : ℕ) : Code T V G E (Prepared T V) := fun state => do
  Eff.ofExcept (edgeSeeds m.poolSeeds)
  let arguments ← Eff.ofExcept m.arguments
  let server ← serverInput m.hooks m.inputData none state
  let arguments := m.overRows arguments server
  let answered ← provided m.kwargs state
  let extra ← Eff.ofExcept (m.route arguments answered)
  guardTarget ask m.toCaller call none
  pure (.edgeCall arguments extra none)

/-- The target of a service's call: the row handed, no row, or what the lookup finds (`resolve_target`),
which a missing row ends the call with. -/
def resolveTarget (s : SingleCall T V G E) (arguments : Dict String V) :
    Code T V G E (Except (DispatchResult T V) (Option T)) := fun state =>
  match s.handed, s.lookup with
  | .row target, _ => pure (.ok (some target))
  | .none, _ => pure (.ok none)
  | .unset, none => pure (.ok none)
  | .unset, some lookup => do
    match ← lookup arguments state with
    | none => pure (.error .notFound)
    | some target => pure (.ok (some target))

/-- `prepare_edge_call`, of any other service spec. -/
def prepareSingle (s : SingleCall T V G E) (call : ℕ) : Code T V G E (Prepared T V) :=
    fun state => do
  Eff.ofExcept (edgeSeeds s.poolSeeds)
  let arguments ← Eff.ofExcept s.arguments
  let answered ← provided s.kwargs state
  let routed ← Eff.ofExcept (s.route arguments answered)
  writeState call fun held => { held with authorValues := routed.2.1 }
  match ← resolveTarget s routed.1 state with
  | .error result => pure (.answered result)
  | .ok target => do
    guardTarget ask s.toCaller call target
    let server ← serverInput s.hooks s.inputData target state
    pure (.edgeCall (routed.1.update server) routed.2.2 target)

/-- `prepare_edge_call`. -/
def prepareEdgeCall (c : Call T V G E) (call : ℕ) : Code T V G E (Prepared T V) := fun state => do
  Eff.ofExcept (refuseRetiredModes c.caller.binding c.caller.unknownArguments)
  match c with
  | .selector s => prepareSelector s call state
  | .many m => prepareMany ask m call state
  | .single s => prepareSingle ask s call state

/-- `edge_errors`: what a run raises, as the call rewords it. -/
def edgeErrors {α : Type} (c : Caller T V G E) (state : Run T V G E (EdgeCallState G V))
    (m : Run T V G E α) : Run T V G E α := do
  match ← Eff.attempt m with
  | .ok answer => pure answer
  | .error error => c.reword error state >>= Eff.raise

/-- A row the kernel answers is acted on by who asked for it. -/
def answerRow (c : Caller T V G E) (call : ℕ) :
    DispatchResult T V → Run T V G E (DispatchResult T V)
  | .found target => do
    emit (.acted call c.guard.isSome (some target))
    pure (.found target)
  | result => pure result

variable (kernel : Kernel T V G E)

/-- The kernel's `dispatch` of what was prepared. -/
def dispatch (c : Call T V G E) (call : ℕ) (arguments extra : Dict String V) (target : Option T) :
    Code T V G E (DispatchResult T V) := fun state =>
  match c with
  | .selector s =>
    kernel.select (s.find arguments extra state) (guardedPreconditions piece s call state) >>=
      answerRow s.toCaller call
  | .many m => do
    emit (.acted call m.guard.isSome none)
    m.run arguments extra state
  | .single o => do
    emit (.acted call o.guard.isSome target)
    o.run arguments extra target state

/-- A call, prepared, run and reworded. -/
def runCall (c : Call T V G E) (call : ℕ) (state : Run T V G E (EdgeCallState G V)) :
    Run T V G E (DispatchResult T V) :=
  edgeErrors c.caller state do
    match ← prepareEdgeCall ask c call state with
    | .answered result => pure result
    | .edgeCall arguments extra target => dispatch piece kernel c call arguments extra target state

end

/-- `dispatch_spec`. -/
def dispatchSpec (ask : G → Option T → Run T V G E Unit) (kernel : Kernel T V G E)
    (c : Call T V G E) : Run T V G E (DispatchResult T V) := do
  let call ← newState
  edgeCall call (runCall ask (sharedPiece ask) kernel c call edgeCallState)

/-- A dispatch each piece of which is the call's own: it is handed the call's state, and the guard's piece
the call's guard. -/
def dispatchOwn (ask : G → Option T → Run T V G E Unit) (kernel : Kernel T V G E)
    (c : Call T V G E) : Run T V G E (DispatchResult T V) := do
  let call ← newState
  edgeCall call (runCall ask (ownPiece ask) kernel c call (ownState call))

/-! ### Until the guard is asked -/

/-- The world a call begins in: it is in progress, and its state is new. -/
def World.begin (w : World T V G) : World T V G :=
  ⟨some w.states.length, w.states ++ [({} : EdgeCallState G V)], w.trace⟩

/-- What `prepare_edge_call` does of a `many` spec before the guard is asked, and the arguments and extras it
goes on with. -/
def manyUntilGuard (m : ManyCall T V G E) : Code T V G E (Dict String V × Dict String V) := fun state => do
  Eff.ofExcept (edgeSeeds m.poolSeeds)
  let arguments ← Eff.ofExcept m.arguments
  let server ← serverInput m.hooks m.inputData none state
  let arguments := m.overRows arguments server
  let answered ← provided m.kwargs state
  let extra ← Eff.ofExcept (m.route arguments answered)
  pure (arguments, extra)

/-- What it does of any other service spec, and the target, or the answer of a missing one. -/
def singleUntilGuard (s : SingleCall T V G E) (call : ℕ) :
    Code T V G E (Except (DispatchResult T V) (Option T) × Dict String V × Dict String V) := fun state => do
  Eff.ofExcept (edgeSeeds s.poolSeeds)
  let arguments ← Eff.ofExcept s.arguments
  let answered ← provided s.kwargs state
  let routed ← Eff.ofExcept (s.route arguments answered)
  writeState call fun held => { held with authorValues := routed.2.1 }
  let resolved ← resolveTarget s routed.1 state
  pure (resolved, routed.1, routed.2.2)

/-- All that a call does before its guard is asked, and what the guard is then asked about, where the call comes
to ask: a service's its target, before the kernel runs it, and a selector's the row the kernel finds. -/
def Call.untilGuard (c : Call T V G E) (call : ℕ) : Code T V G E (Option (Option T)) := fun state => do
  Eff.ofExcept (refuseRetiredModes c.caller.binding c.caller.unknownArguments)
  match c with
  | .selector s => do
    match ← prepareSelector s call state with
    | .answered _ => pure none
    | .edgeCall arguments extra _ => do
      match ← s.find arguments extra state with
      | .target target => pure (some (some target))
      | _ => pure none
  | .many m => do
    let _ ← manyUntilGuard m state
    pure (some none)
  | .single s => do
    match (← singleUntilGuard s call state).1 with
    | .error _ => pure none
    | .ok target => pure (some target)

section
variable (ask : G → Option T → Run T V G E Unit) {call : ℕ} {state : Run T V G E (EdgeCallState G V)}

/-- Preparing a `many` call is what comes before its guard, and its guard. -/
theorem prepareMany_eq (m : ManyCall T V G E) :
    prepareMany ask m call state = manyUntilGuard m state >>= fun prepared =>
      guardTarget ask m.toCaller call none >>= fun _ => pure (.edgeCall prepared.1 prepared.2 none) := by
  simp only [prepareMany, manyUntilGuard, bind_assoc, pure_bind]

/-- Preparing any other service's call is what comes before its guard, its guard, and the server's input. -/
theorem prepareSingle_eq (s : SingleCall T V G E) :
    prepareSingle ask s call state = singleUntilGuard s call state >>= fun located =>
      match located.1 with
      | .error result => pure (.answered result)
      | .ok target => guardTarget ask s.toCaller call target >>= fun _ =>
        serverInput s.hooks s.inputData target state >>= fun server =>
          pure (.edgeCall (located.2.1.update server) located.2.2 target) := by
  simp only [prepareSingle, singleUntilGuard, bind_assoc, pure_bind]

/-- A selector's guard is asked about the row found of what was prepared. -/
theorem untilGuard_selector {s : SelectorCall T V G E} {w v u : World T V G} {arguments extra : Dict String V}
    {handed : Option T} {target : T}
    (hprepared : prepareEdgeCall ask (.selector s) call state w = (.ok (.edgeCall arguments extra handed), v))
    (hfound : s.find arguments extra state v = (.ok (.target target), u)) :
    (Call.selector s).untilGuard call state w = (.ok (some (some target)), u) := by
  rw [prepareEdgeCall] at hprepared
  rw [Call.untilGuard]
  generalize refuseRetiredModes (E := E) (Call.selector s).caller.binding
    (Call.selector s).caller.unknownArguments = refused at hprepared ⊢
  cases refused with
  | error error => cases hprepared
  | ok _ =>
    have hprepared : prepareSelector s call state w = (.ok (.edgeCall arguments extra handed), v) := hprepared
    rw [Eff.ofExcept_ok_bind]
    exact (Eff.bind_of_ok hprepared).trans ((Eff.bind_of_ok hfound).trans rfl)

end

/-! ## Code -/

section
variable (ask : G → Option T → Run T V G E Unit)

/-- Every guard, and every part of a call, is of a family of code. -/
structure Caller.Over (P : ∀ {α : Type}, Code T V G E α → Prop) (c : Caller T V G E) : Prop where
  guard : ∀ guard target, P fun _ => ask guard target
  kwargs : ∀ provider, c.kwargs = some provider → P provider
  reword : ∀ error, P (c.reword error)

/-- Every part of a call is of a family of code. -/
def Call.Over (P : ∀ {α : Type}, Code T V G E α → Prop) : Call T V G E → Prop
  | .selector s => s.toCaller.Over ask P ∧ (∀ arguments extra, P (s.find arguments extra)) ∧
      ∀ asked ∈ s.preconditions, ∀ target, P (asked target)
  | .many m => m.toCaller.Over ask P ∧
      (∀ provider, m.inputData = some provider → ∀ target, P (provider target)) ∧
      ∀ arguments extra, P (m.run arguments extra)
  | .single s => s.toCaller.Over ask P ∧ (∀ lookup, s.lookup = some lookup → ∀ a, P (lookup a)) ∧
      (∀ provider, s.inputData = some provider → ∀ target, P (provider target)) ∧
      ∀ arguments extra target, P (s.run arguments extra target)

variable (kernel : Kernel T V G E)

/-- A family closed under what code may do: answer, raise, be seen, read the state of the call in
progress, go on, handle what is raised, and dispatch a call of its own parts. -/
structure Family (P : ∀ {α : Type}, Code T V G E α → Prop) : Prop where
  answer : ∀ {α : Type} (a : α), P fun _ => pure a
  raise : ∀ {α : Type} (e : EdgeError E), P fun _ => (Eff.raise e : Run T V G E α)
  see : ∀ name, P fun _ => emit (.other name)
  read : P fun state => state
  bind : ∀ {α β : Type} {m : Code T V G E α} {f : α → Code T V G E β}, P m → (∀ a, P (f a)) →
    P fun state => m state >>= fun a => f a state
  attempt : ∀ {α : Type} {m : Code T V G E α}, P m → P fun state => Eff.attempt (m state)
  dispatch : ∀ c : Call T V G E, c.Over ask P → P fun _ => dispatchSpec ask kernel c

/-- The code of authors and of the kernel: what is of every closed family. -/
def IsCode {α : Type} (m : Code T V G E α) : Prop :=
  ∀ P : ∀ {α : Type}, Code T V G E α → Prop, Family ask kernel P → P m

variable {ask kernel}

/-- A larger family has every part a smaller one has. -/
theorem Caller.Over.mono {P Q : ∀ {α : Type}, Code T V G E α → Prop}
    (h : ∀ {α : Type} {m : Code T V G E α}, P m → Q m) {c : Caller T V G E} (hc : c.Over ask P) :
    c.Over ask Q :=
  ⟨fun guard target => h (hc.guard guard target), fun provider hp => h (hc.kwargs provider hp),
    fun error => h (hc.reword error)⟩

/-- So it is of a call's parts. -/
theorem Call.Over.mono {P Q : ∀ {α : Type}, Code T V G E α → Prop}
    (h : ∀ {α : Type} {m : Code T V G E α}, P m → Q m) :
    ∀ {c : Call T V G E}, c.Over ask P → c.Over ask Q
  | .selector _, ⟨hc, hfind, hpre⟩ =>
    ⟨hc.mono h, fun a x => h (hfind a x), fun asked ha target => h (hpre asked ha target)⟩
  | .many _, ⟨hc, hdata, hrun⟩ =>
    ⟨hc.mono h, fun p hp target => h (hdata p hp target), fun a x => h (hrun a x)⟩
  | .single _, ⟨hc, hlookup, hdata, hrun⟩ =>
    ⟨hc.mono h, fun l hl a => h (hlookup l hl a), fun p hp target => h (hdata p hp target),
      fun a x target => h (hrun a x target)⟩

/-- The guards a call may ask are of the family its parts are. -/
theorem Call.Over.asks {P : ∀ {α : Type}, Code T V G E α → Prop} :
    ∀ {c : Call T V G E}, c.Over ask P → ∀ guard target, P fun _ => ask guard target
  | .selector _, hc | .many _, hc | .single _, hc => hc.1.guard

/-- Code is closed under what code may do. -/
theorem family_isCode : Family ask kernel fun {α} (m : Code T V G E α) => IsCode ask kernel m where
  answer a := fun _ hP => hP.answer a
  raise e := fun _ hP => hP.raise e
  see name := fun _ hP => hP.see name
  read := fun _ hP => hP.read
  bind hm hf := fun P hP => hP.bind (hm P hP) fun a => hf a P hP
  attempt hm := fun P hP => hP.attempt (hm P hP)
  dispatch c hc := fun P hP => hP.dispatch c (hc.mono fun hm => hm P hP)

end

/-! ## A run with a call in a call -/

/-- The kernel of the order documented. -/
def documentedKernel : Kernel T V G E where
  select find preconditions := find >>= fun
    | .missing => pure .notFound
    | .nothing => pure .nothing
    | .target target =>
      Eff.inOrder (preconditions.map fun precondition => precondition target) >>= fun _ =>
        pure (.found target)

/-- A guard that lets a target through, or not. -/
def allows (allowed : Bool) (_ : Option ℕ) : Run ℕ Unit Bool Unit Unit :=
  if allowed then pure () else Eff.raise (.author ())

def callerOf (guard : Option Bool) : Caller ℕ Unit Bool Unit where
  guard := guard
  binding := .auto
  unknownArguments := .ignore
  poolSeeds := []
  kwargs := none
  reword error _ := pure error

/-- A service's call that is handed its row, and has no guard. -/
def innerCall : Call ℕ Unit Bool Unit :=
  .single { callerOf none with
    arguments := .ok .empty
    handed := .row 1
    lookup := none
    route := fun arguments _ => .ok (arguments, .empty, .empty)
    hooks := .empty
    inputData := none
    run := fun _ _ _ _ => pure (.returned ()) }

/-- A guarded selector's call, with a precondition that dispatches the service's. -/
def outerCall : Call ℕ Unit Bool Unit :=
  .selector { callerOf (some true) with
    arguments := .ok .empty
    route := fun arguments _ => .ok (arguments, .empty)
    find := fun _ _ _ => pure (.target 7)
    preconditions := [fun _ _ => dispatchSpec allows documentedKernel innerCall >>= fun _ => pure ()] }

/-- The caller's guard is code, and it has no other part. -/
theorem callerOf_over (guard : Option Bool) :
    (callerOf guard).Over allows fun {_} m => IsCode allows documentedKernel m where
  guard allowed target := by
    cases allowed with
    | true => exact family_isCode.answer ()
    | false => exact family_isCode.raise (.author ())
  kwargs _ h := nomatch h
  reword error := family_isCode.answer error

/-- The inner call is made of code. -/
theorem innerCall_over : innerCall.Over allows fun {_} m => IsCode allows documentedKernel m :=
  ⟨callerOf_over none, nofun, nofun, fun _ _ _ => family_isCode.answer _⟩

/-- So is the outer one, whose selector dispatches the inner. -/
theorem outerCall_over : outerCall.Over allows fun {_} m => IsCode allows documentedKernel m := by
  refine ⟨callerOf_over (some true), fun _ _ => family_isCode.answer _, fun asked h target => ?_⟩
  obtain rfl := List.mem_singleton.1 h
  exact family_isCode.bind (family_isCode.dispatch innerCall innerCall_over) fun _ =>
    family_isCode.answer ()

/-! ## What a run leaves alone -/

/-- What a run leaves alone, of a world of at least `n` calls: the call in progress, and the states of
the first `n`. -/
def Frame (n : ℕ) (w w' : World T V G) : Prop :=
  n ≤ w.states.length → w.states.length ≤ w'.states.length ∧ w'.ambient = w.ambient ∧
    ∀ i < n, w'.states[i]? = w.states[i]?

instance (n : ℕ) : IsPreorder (World T V G) (Frame n) where
  refl _ _ := ⟨le_rfl, rfl, fun _ _ => rfl⟩
  trans _ _ _ h h' hn :=
    have ⟨hlen, hambient, hstates⟩ := h hn
    have ⟨hlen', hambient', hstates'⟩ := h' (hn.trans hlen)
    ⟨hlen.trans hlen', hambient'.trans hambient, fun i hi => (hstates' i hi).trans (hstates i hi)⟩

section
variable {n call : ℕ}

/-- What is seen leaves every state alone. -/
theorem keeps_emit (event : Event T) : Eff.Keeps (Frame n) (emit event : Run T V G E Unit) :=
  Eff.keeps_modify fun _ _ => ⟨le_rfl, rfl, fun _ _ => rfl⟩

/-- Reading the state of the call in progress changes nothing. -/
theorem keeps_edgeCallState : Eff.Keeps (Frame n) (edgeCallState : Run T V G E _) :=
  fun w => refl_of (Frame n) w

/-- A new state comes after those there are. -/
theorem keeps_newState : Eff.Keeps (Frame n) (newState : Run T V G E ℕ) := by
  intro w hn
  refine ⟨by simp [newState], rfl, fun i hi => ?_⟩
  exact List.getElem?_append_left (hi.trans_le hn)

/-- A write to a later call's state leaves the first ones alone. -/
theorem keeps_writeState (hcall : n ≤ call) (f : EdgeCallState G V → EdgeCallState G V) :
    Eff.Keeps (Frame n) (writeState call f : Run T V G E Unit) :=
  Eff.keeps_modify fun w _ => by
    refine ⟨by simp, rfl, fun i hi => ?_⟩
    have hne : call ≠ i := by omega
    simp [hne]

/-- A call run in its own context leaves the call in progress around it. -/
theorem keeps_edgeCall {α : Type} {m : Run T V G E α} (hm : Eff.Keeps (Frame n) m) :
    Eff.Keeps (Frame n) (edgeCall call m) :=
  hm.within fun _ _ h hn =>
    have ⟨hlen, _, hstates⟩ := h hn
    ⟨hlen, rfl, hstates⟩

/-- Code that leaves alone what came before it, whatever it is handed to read the state with. -/
def KeepsFrame {α : Type} (m : Code T V G E α) : Prop :=
  ∀ state n, Eff.Keeps (Frame n) state → Eff.Keeps (Frame n) (m state)

variable {ask : G → Option T → Run T V G E Unit} {kernel : Kernel T V G E}
  {piece : GuardPiece T V G E} {state : Run T V G E (EdgeCallState G V)}

/-- Asking a guard leaves alone what the guard does. -/
theorem keeps_askGuard (hask : ∀ guard target, Eff.Keeps (Frame n) (ask guard target))
    (bound : BoundGuard G) (target : Option T) : Eff.Keeps (Frame n) (askGuard ask bound target) :=
  (keeps_emit _).bind fun _ => (hask _ _).bind fun _ => keeps_emit _

/-- So does asking the guard a call's state holds. -/
theorem keeps_callGuard (hask : ∀ guard target, Eff.Keeps (Frame n) (ask guard target))
    (hstate : Eff.Keeps (Frame n) state) (target : T) :
    Eff.Keeps (Frame n) (callGuard ask target state) :=
  hstate.bind fun held => by
    split
    · exact Eff.keeps_raise _
    · exact keeps_askGuard hask _ _

/-- So does a call's own guard over its target. -/
theorem keeps_guardTarget (hask : ∀ guard target, Eff.Keeps (Frame n) (ask guard target))
    (c : Caller T V G E) (target : Option T) : Eff.Keeps (Frame n) (guardTarget ask c call target) := by
  unfold guardTarget
  split
  · exact Eff.keeps_pure _
  · exact keeps_askGuard hask _ _

/-- A provider's answer changes what the provider changes. -/
theorem keeps_provided {R : World T V G → World T V G → Prop} [IsPreorder _ R]
    {provider : Option (Code T V G E (Dict String (Answer V)))}
    (hp : ∀ p, provider = some p → Eff.Keeps R (p state)) :
    Eff.Keeps R (provided provider state) := by
  cases provider with
  | none => exact Eff.keeps_pure _
  | some p => exact hp p rfl

/-- The server's input changes what its provider changes. -/
theorem keeps_serverInput {R : World T V G → World T V G → Prop} [IsPreorder _ R]
    {hooks : Dict String V} {provider : Option (Option T → Code T V G E (Dict String (Answer V)))}
    {target : Option T} (hp : ∀ p, provider = some p → Eff.Keeps R (p target state)) :
    Eff.Keeps R (serverInput hooks provider target state) := by
  refine Eff.Keeps.bind (keeps_provided fun p hp' => ?_) fun _ => Eff.keeps_pure _
  obtain ⟨q, hq, rfl⟩ := Option.map_eq_some_iff.1 hp'
  exact hp q hq

/-- Resolving the target changes what the lookup changes. -/
theorem keeps_resolveTarget {R : World T V G → World T V G → Prop} [IsPreorder _ R]
    {o : SingleCall T V G E} {arguments : Dict String V}
    (ho : ∀ lookup, o.lookup = some lookup → Eff.Keeps R (lookup arguments state)) :
    Eff.Keeps R (resolveTarget o arguments state) := by
  unfold resolveTarget
  split
  · exact Eff.keeps_pure _
  · exact Eff.keeps_pure _
  · exact Eff.keeps_pure _
  · next lookup _ hlookup =>
    refine Eff.Keeps.bind (ho lookup hlookup) fun found => ?_
    cases found with
    | none => exact Eff.keeps_pure _
    | some target => exact Eff.keeps_pure _

/-- What a `many` call does before its guard changes what its providers change. -/
theorem keeps_manyUntilGuard {R : World T V G → World T V G → Prop} [IsPreorder _ R]
    {m : ManyCall T V G E} {state : Run T V G E (EdgeCallState G V)}
    (hdata : ∀ p, m.inputData = some p → Eff.Keeps R (p none state))
    (hkwargs : ∀ p, m.kwargs = some p → Eff.Keeps R (p state)) :
    Eff.Keeps R (manyUntilGuard m state) :=
  (Eff.keeps_ofExcept _).bind fun _ => (Eff.keeps_ofExcept _).bind fun _ =>
    (keeps_serverInput hdata).bind fun _ => (keeps_provided hkwargs).bind fun _ =>
      (Eff.keeps_ofExcept _).bind fun _ => Eff.keeps_pure _

/-- What a single call does before its guard changes its own state, and what its provider and its lookup
change. -/
theorem keeps_singleUntilGuard {R : World T V G → World T V G → Prop} [IsPreorder _ R]
    {o : SingleCall T V G E} {state : Run T V G E (EdgeCallState G V)}
    (hwrite : ∀ f, Eff.Keeps R (writeState call f : Run T V G E Unit))
    (hkwargs : ∀ p, o.kwargs = some p → Eff.Keeps R (p state))
    (hlookup : ∀ l, o.lookup = some l → ∀ a, Eff.Keeps R (l a state)) :
    Eff.Keeps R (singleUntilGuard o call state) :=
  (Eff.keeps_ofExcept _).bind fun _ => (Eff.keeps_ofExcept _).bind fun _ =>
    (keeps_provided hkwargs).bind fun _ => (Eff.keeps_ofExcept _).bind fun _ =>
      (hwrite _).bind fun _ => (keeps_resolveTarget fun l hl => hlookup l hl _).bind fun _ =>
        Eff.keeps_pure _

/-- A precondition leaves alone what the author's does. -/
theorem keeps_precondition {c : Caller T V G E} {asked : T → Code T V G E Unit} {target : T}
    (h : KeepsFrame (asked target)) (hstate : Eff.Keeps (Frame n) state) :
    Eff.Keeps (Frame n) (precondition c call asked target state) :=
  (keeps_emit _).bind fun _ => h state n hstate

/-- The kernel's run of a selector keeps what its parts do. -/
theorem keeps_select (hk : kernel.Ordered) {find : Run T V G E (Found T)}
    {preconditions : List (T → Run T V G E Unit)} (hfind : Eff.Keeps (Frame n) find)
    (hpre : ∀ p ∈ preconditions, ∀ target, Eff.Keeps (Frame n) (p target)) :
    Eff.Keeps (Frame n) (kernel.select find preconditions) := by
  rw [hk]
  refine hfind.bind fun found => ?_
  cases found with
  | missing => exact Eff.keeps_pure _
  | nothing => exact Eff.keeps_pure _
  | target target =>
    refine Eff.Keeps.bind (Eff.keeps_inOrder fun m hm => ?_) fun _ => Eff.keeps_pure _
    obtain ⟨p, hp, rfl⟩ := List.mem_map.1 hm
    exact hpre p hp target

/-- The guard among the preconditions leaves the frame alone as they do. -/
theorem keeps_guardedPreconditions {s : SelectorCall T V G E}
    (hpiece : ∀ bound target, Eff.Keeps (Frame n) (piece bound target state))
    (hpre : ∀ asked ∈ s.preconditions, ∀ target, KeepsFrame (asked target))
    (hstate : Eff.Keeps (Frame n) state) :
    ∀ p ∈ guardedPreconditions piece s call state, ∀ target, Eff.Keeps (Frame n) (p target) := by
  have hdeclared : ∀ p ∈ s.preconditions.map fun asked target =>
      precondition s.toCaller call asked target state, ∀ target, Eff.Keeps (Frame n) (p target) := by
    intro p hp target
    obtain ⟨asked, hasked, rfl⟩ := List.mem_map.1 hp
    exact keeps_precondition (hpre asked hasked target) hstate
  unfold guardedPreconditions
  split
  · exact hdeclared
  · intro p hp target
    rcases List.mem_cons.1 hp with rfl | hp
    · exact hpiece _ target
    · exact hdeclared p hp target

section
variable {s : SelectorCall T V G E} {m : ManyCall T V G E} {o : SingleCall T V G E}

/-- Preparing a selector's call leaves alone what came before the call. -/
theorem keeps_prepareSelector (hcall : n ≤ call) (hs : (Call.selector s).Over ask KeepsFrame)
    (hstate : Eff.Keeps (Frame n) state) :
    Eff.Keeps (Frame n) (prepareSelector s call state) := by
  obtain ⟨hc, -, -⟩ := hs
  exact (Eff.keeps_ofExcept _).bind fun _ => (keeps_writeState hcall _).bind fun _ =>
    (Eff.keeps_ofExcept _).bind fun _ => (keeps_provided fun p hp => hc.kwargs p hp state n hstate).bind fun _ =>
      (Eff.keeps_ofExcept _).bind fun _ => Eff.keeps_pure _

/-- Preparing a `many` call leaves it alone. -/
theorem keeps_prepareMany (hm : (Call.many m).Over ask KeepsFrame)
    (hstate : Eff.Keeps (Frame n) state) :
    Eff.Keeps (Frame n) (prepareMany ask m call state) := by
  obtain ⟨hc, hdata, -⟩ := hm
  have hask : ∀ guard target, Eff.Keeps (Frame n) (ask guard target) := fun guard target =>
    hc.guard guard target state n hstate
  rw [prepareMany_eq]
  exact (keeps_manyUntilGuard (fun p hp => hdata p hp _ state n hstate)
    fun p hp => hc.kwargs p hp state n hstate).bind fun _ => (keeps_guardTarget hask _ _).bind fun _ =>
      Eff.keeps_pure _

/-- Preparing a single call leaves it alone. -/
theorem keeps_prepareSingle (hcall : n ≤ call) (ho : (Call.single o).Over ask KeepsFrame)
    (hstate : Eff.Keeps (Frame n) state) :
    Eff.Keeps (Frame n) (prepareSingle ask o call state) := by
  obtain ⟨hc, hlookup, hdata, -⟩ := ho
  have hask : ∀ guard target, Eff.Keeps (Frame n) (ask guard target) := fun guard target =>
    hc.guard guard target state n hstate
  rw [prepareSingle_eq]
  refine (keeps_singleUntilGuard (fun f => keeps_writeState hcall f)
    (fun p hp => hc.kwargs p hp state n hstate) fun l hl _ => hlookup l hl _ state n hstate).bind
      fun located => ?_
  rcases located with ⟨result | target, arguments, extra⟩
  · exact Eff.keeps_pure _
  · exact (keeps_guardTarget hask _ _).bind fun _ =>
      (keeps_serverInput fun p hp => hdata p hp _ state n hstate).bind fun _ => Eff.keeps_pure _

/-- Preparing a call leaves alone what came before it, whatever its kind. -/
theorem keeps_prepareEdgeCall (hcall : n ≤ call) {c : Call T V G E} (hc : c.Over ask KeepsFrame)
    (hstate : Eff.Keeps (Frame n) state) :
    Eff.Keeps (Frame n) (prepareEdgeCall ask c call state) := by
  refine (Eff.keeps_ofExcept _).bind fun _ => ?_
  cases c with
  | selector s => exact keeps_prepareSelector hcall hc hstate
  | many m => exact keeps_prepareMany hc hstate
  | single o => exact keeps_prepareSingle hcall hc hstate

/-- A row answered is seen, and nothing else. -/
theorem keeps_answerRow (c : Caller T V G E) (result : DispatchResult T V) :
    Eff.Keeps (Frame n) (answerRow c call result : Run T V G E _) := by
  cases result with
  | found target => exact (keeps_emit _).bind fun _ => Eff.keeps_pure _
  | notFound | nothing | returned => exact Eff.keeps_pure _

/-- The kernel's dispatch leaves alone what the call's own parts do. -/
theorem keeps_dispatch (hk : kernel.Ordered) {c : Call T V G E} (hc : c.Over ask KeepsFrame)
    (hpiece : ∀ bound target, Eff.Keeps (Frame n) (piece bound target state))
    (hstate : Eff.Keeps (Frame n) state) (arguments extra : Dict String V) (target : Option T) :
    Eff.Keeps (Frame n) (dispatch piece kernel c call arguments extra target state) := by
  cases c with
  | selector s =>
    obtain ⟨-, hfind, hpre⟩ := hc
    exact (keeps_select hk (hfind _ _ state n hstate)
      (keeps_guardedPreconditions hpiece hpre hstate)).bind fun _ => keeps_answerRow _ _
  | many m => exact (keeps_emit _).bind fun _ => hc.2.2 _ _ state n hstate
  | single o => exact (keeps_emit _).bind fun _ => hc.2.2.2 _ _ _ state n hstate

/-- Rewording a refusal leaves it alone. -/
theorem keeps_reword {c : Call T V G E} (hc : c.Over ask KeepsFrame)
    (hstate : Eff.Keeps (Frame n) state) (error : EdgeError E) :
    Eff.Keeps (Frame n) (c.caller.reword error state) := by
  cases c with
  | selector s => exact hc.1.reword error state n hstate
  | many m => exact hc.1.reword error state n hstate
  | single o => exact hc.1.reword error state n hstate

end

/-- A call's run leaves alone what came before the call, whichever piece its guard is. -/
theorem keeps_runCall (hk : kernel.Ordered) {c : Call T V G E} (hcall : n ≤ call)
    (hc : c.Over ask KeepsFrame)
    (hpiece : ∀ bound target, Eff.Keeps (Frame n) (piece bound target state))
    (hstate : Eff.Keeps (Frame n) state) :
    Eff.Keeps (Frame n) (runCall ask piece kernel c call state) := by
  refine Eff.Keeps.bind (Eff.Keeps.attempt ?_) fun ended => ?_
  · refine (keeps_prepareEdgeCall hcall hc hstate).bind fun prepared => ?_
    cases prepared with
    | answered result => exact Eff.keeps_pure _
    | edgeCall arguments extra target => exact keeps_dispatch hk hc hpiece hstate _ _ _
  · cases ended with
    | ok answer => exact Eff.keeps_pure _
    | error error => exact (keeps_reword hc hstate error).bind fun _ => Eff.keeps_raise _

/-- A dispatch leaves alone what came before it, where what is run of its call does. -/
theorem keeps_newCall {α : Type} {run : ℕ → Run T V G E α}
    (h : ∀ call, n ≤ call → Eff.Keeps (Frame n) (run call)) :
    Eff.Keeps (Frame n) (newState >>= fun call => edgeCall call (run call)) := by
  intro w
  by_cases hn : n ≤ w.states.length
  · have hnew : Frame n w ((newState : Run T V G E ℕ) w).2 := keeps_newState w
    have hrun : Frame n ((newState : Run T V G E ℕ) w).2
        (edgeCall w.states.length (run w.states.length) ((newState : Run T V G E ℕ) w).2).2 :=
      keeps_edgeCall (h _ hn) _
    exact trans_of (Frame n) hnew hrun
  · exact fun h => absurd h hn

/-- Code leaves alone what came before it. -/
theorem family_keepsFrame (hk : kernel.Ordered) :
    Family ask kernel fun {α} (m : Code T V G E α) => KeepsFrame m where
  answer a := fun _ _ _ => Eff.keeps_pure a
  raise e := fun _ _ _ => Eff.keeps_raise e
  see _ := fun _ _ _ => keeps_emit _
  read := fun _ _ h => h
  bind hm hf := fun state n h => (hm state n h).bind fun a => hf a state n h
  attempt hm := fun state n h => (hm state n h).attempt
  dispatch _ hc := fun _ n _ => keeps_newCall fun _ hcall =>
    keeps_runCall hk hcall hc (fun _ _ => keeps_callGuard
      (fun guard target => hc.asks guard target _ n keeps_edgeCallState) keeps_edgeCallState _)
      keeps_edgeCallState

end

/-! ## The state a piece reads -/

/-- The guard a call's state holds once the call is prepared: a selector's, which its variant asks. -/
def Call.heldGuard (call : ℕ) : Call T V G E → Option (BoundGuard G)
  | selector s => s.guard.map fun guard => ⟨guard, call⟩
  | many _ | single _ => none

/-- A call is in progress, and its state holds the guard it holds. -/
def In (call : ℕ) (bound : Option (BoundGuard G)) (w : World T V G) : Prop :=
  w.ambient = some call ∧ ∃ held, w.states[call]? = some held ∧ held.targetGuard = bound

/-- A run that leaves alone the states of the first calls leaves a call in progress so. -/
theorem In.frame {call : ℕ} {bound : Option (BoundGuard G)} {w w' : World T V G}
    (h : In call bound w) (hw : Frame (call + 1) w w') : In call bound w' := by
  obtain ⟨hambient, held, hheld, hbound⟩ := h
  have hlt : call < w.states.length := (List.getElem?_eq_some_iff.1 hheld).1
  obtain ⟨-, hambient', hstates⟩ := hw hlt
  exact ⟨hambient'.trans hambient, held, (hstates call call.lt_succ_self).trans hheld, hbound⟩

/-- A call is in progress. -/
def Running (call : ℕ) (w : World T V G) : Prop := ∃ bound, In call bound w

/-- A run that leaves alone the states before a call's leaves the call in progress. -/
theorem Running.frame {call : ℕ} {w w' : World T V G} (h : Running call w) (hw : Frame call w w') :
    Running call w' := by
  obtain ⟨_, hambient, held, hheld, -⟩ := h
  have hlt : call < w.states.length := (List.getElem?_eq_some_iff.1 hheld).1
  obtain ⟨hlen, hambient', -⟩ := hw hlt.le
  exact ⟨_, hambient'.trans hambient, _, List.getElem?_eq_getElem (hlt.trans_le hlen), rfl⟩

/-- The state read of the call in progress is the call's own. -/
theorem edgeCallState_of_in {call : ℕ} {bound : Option (BoundGuard G)} {w : World T V G}
    (h : In call bound w) : (edgeCallState w : Except (EdgeError E) _ × _) = ownState call w := by
  rw [edgeCallState, ownState, h.1]
  rfl

/-- Code that does the same whether it reads the state of the call in progress, or is handed that of the
call it is run for. -/
def ReadsOwn {α : Type} (m : Code T V G E α) : Prop :=
  KeepsFrame m ∧ ∀ call bound, Eff.Agree (In call bound) (m edgeCallState) (m (ownState call))

section
variable {ask : G → Option T → Run T V G E Unit} {kernel : Kernel T V G E}
  {call : ℕ} {bound : Option (BoundGuard G)}

/-- A run agrees with itself. -/
theorem agree_refl {α : Type} (m : Run T V G E α) : Eff.Agree (In call bound) m m :=
  Eff.Agree.refl m

/-- A run that leaves the call as it is leaves the guard its state holds. -/
theorem triple_keeps {α : Type} {m : Run T V G E α} (hm : Eff.Keeps (Frame (call + 1)) m) :
    Eff.Triple (In call bound) m (fun _ => In call bound) fun _ => True :=
  (hm.triple fun _ _ hw h => hw.frame h).mono (fun _ h => h) (fun _ _ h => h) fun _ _ => trivial

/-- A write of the call's state leaves the guard written. -/
theorem triple_writeState {bound' : Option (BoundGuard G)} {f : EdgeCallState G V → EdgeCallState G V}
    (hf : ∀ held, held.targetGuard = bound → (f held).targetGuard = bound') :
    Eff.Triple (In call bound) (writeState call f : Run T V G E Unit) (fun _ => In call bound')
      fun _ => True :=
  Eff.triple_modify fun _ ⟨hambient, held, hheld, hbound⟩ =>
    ⟨hambient, f held, by simp [hheld], hf held hbound⟩

/-- What a selector's preparation writes of its guard. -/
theorem triple_writeGuard (s : SelectorCall T V G E) :
    Eff.Triple (In call bound)
      (writeState call fun held =>
        { held with targetGuard := s.guard.map fun guard => ⟨guard, call⟩ } : Run T V G E Unit)
      (fun _ => In call ((Call.selector s).heldGuard call)) fun _ => True :=
  triple_writeState fun _ _ => rfl

/-- A write of the author's values leaves the guard held. -/
theorem triple_writeValues (values : Dict String V) :
    Eff.Triple (In call bound)
      (writeState call fun held => { held with authorValues := values } : Run T V G E Unit)
      (fun _ => In call bound) fun _ => True :=
  triple_writeState fun _ h => h

/-- A run that leaves the call as it is, and what goes on from it. -/
theorem agree_bind {α β : Type} {m m' : Run T V G E α} {f f' : α → Run T V G E β}
    (hm : Eff.Agree (In call bound) m m') (hkeeps : Eff.Keeps (Frame (call + 1)) m)
    (hf : ∀ a, Eff.Agree (In call bound) (f a) (f' a)) :
    Eff.Agree (In call bound) (m >>= f) (m' >>= f') :=
  hm.bind (triple_keeps hkeeps) hf

/-- Within a call, code that reads its own state agrees on the two states. -/
theorem ReadsOwn.agree {α : Type} {m : Code T V G E α} (h : ReadsOwn m) :
    Eff.Agree (In call bound) (m edgeCallState) (m (ownState call)) :=
  h.2 call bound

/-- It leaves alone what came before it. -/
theorem ReadsOwn.keeps {α : Type} {m : Code T V G E α} (h : ReadsOwn m) {n : ℕ} :
    Eff.Keeps (Frame n) (m edgeCallState) :=
  h.1 _ n keeps_edgeCallState

/-- Code reads the state of its own call. -/
theorem family_readsOwn (hk : kernel.Ordered) :
    Family ask kernel fun {α} (m : Code T V G E α) => ReadsOwn m := by
  have hframe : Family ask kernel fun {α} (m : Code T V G E α) => KeepsFrame m := family_keepsFrame hk
  exact
    { answer := fun a => ⟨hframe.answer a, fun _ _ => agree_refl _⟩
      raise := fun e => ⟨hframe.raise e, fun _ _ => agree_refl _⟩
      see := fun name => ⟨hframe.see name, fun _ _ => agree_refl _⟩
      read := ⟨hframe.read, fun _ _ _ hw => edgeCallState_of_in hw⟩
      bind := fun hm hf => ⟨hframe.bind hm.1 fun a => (hf a).1, fun _ _ =>
        agree_bind hm.agree hm.keeps fun a => (hf a).agree⟩
      attempt := fun hm => ⟨hframe.attempt hm.1, fun _ _ => hm.agree.attempt⟩
      dispatch := fun c hc => ⟨hframe.dispatch c (hc.mono fun hm => hm.1), fun _ _ => agree_refl _⟩ }

/-- A provider that reads its own call answers alike of the two states. -/
theorem agree_provided {provider : Option (Code T V G E (Dict String (Answer V)))}
    (hp : ∀ p, provider = some p → ReadsOwn p) :
    Eff.Agree (In call bound) (provided provider edgeCallState)
      (provided provider (ownState call)) := by
  cases provider with
  | none => exact agree_refl _
  | some p => exact (hp p rfl).agree

/-- So does the server's input. -/
theorem agree_serverInput {hooks : Dict String V}
    {provider : Option (Option T → Code T V G E (Dict String (Answer V)))}
    (hp : ∀ p, provider = some p → ∀ target, ReadsOwn (p target)) (target : Option T) :
    Eff.Agree (In call bound) (serverInput hooks provider target edgeCallState)
      (serverInput hooks provider target (ownState call)) := by
  have hp' : ∀ p, (provider.map fun provider => provider target) = some p → ReadsOwn p := by
    intro p hp'
    obtain ⟨q, hq, rfl⟩ := Option.map_eq_some_iff.1 hp'
    exact hp q hq target
  exact agree_bind (agree_provided hp') (keeps_provided fun p h => (hp' p h).keeps)
    fun _ => agree_refl _

/-- So does the target's lookup. -/
theorem agree_resolveTarget {o : SingleCall T V G E}
    (ho : ∀ lookup, o.lookup = some lookup → ∀ a, ReadsOwn (lookup a)) (arguments : Dict String V) :
    Eff.Agree (In call bound) (resolveTarget o arguments edgeCallState)
      (resolveTarget o arguments (ownState call)) := by
  unfold resolveTarget
  split
  · exact agree_refl _
  · exact agree_refl _
  · exact agree_refl _
  · next lookup _ hlookup =>
    exact agree_bind (ho lookup hlookup arguments).agree (ho lookup hlookup arguments).keeps
      fun _ => agree_refl _

/-- The guard's shared piece asks the guard the call's state holds. -/
theorem agree_callGuard (g : BoundGuard G) (target : T) :
    Eff.Agree (In call (some g)) (callGuard ask target edgeCallState)
      (askGuard ask g (some target)) := by
  intro w hw
  obtain ⟨held, hheld, hbound⟩ := hw.2
  have hread : (edgeCallState w : Except (EdgeError E) _ × _) = (.ok held, w) := by
    rw [edgeCallState_of_in hw, ownState, hheld]
    rfl
  rw [callGuard, Eff.bind_of_ok hread, hbound]

/-- So does a precondition. -/
theorem agree_precondition {c : Caller T V G E} {asked : T → Code T V G E Unit} {target : T}
    (h : ReadsOwn (asked target)) :
    Eff.Agree (In call bound) (precondition c call asked target edgeCallState)
      (precondition c call asked target (ownState call)) :=
  agree_bind (agree_refl _) (keeps_emit _) fun _ => h.agree

/-- The preconditions of a variant whose guard's piece is shared do what those of the call's own do, once
the call's state holds its guard. -/
theorem agree_guardedPreconditions {s : SelectorCall T V G E}
    (hask : ∀ guard target, ReadsOwn fun _ => ask guard target)
    (hpre : ∀ asked ∈ s.preconditions, ∀ target, ReadsOwn (asked target)) (target : T) :
    List.Forall₂
      (fun m m' => Eff.Agree (In call (s.guard.map fun guard => ⟨guard, call⟩)) m m' ∧
        Eff.Triple (In call (s.guard.map fun guard => ⟨guard, call⟩)) m
          (fun _ => In call (s.guard.map fun guard => ⟨guard, call⟩)) fun _ => True)
      ((guardedPreconditions (sharedPiece ask) s call edgeCallState).map fun p => p target)
      ((guardedPreconditions (ownPiece ask) s call (ownState call)).map fun p => p target) := by
  generalize hbound : (s.guard.map fun guard => (⟨guard, call⟩ : BoundGuard G)) = bound
  have hdeclared : List.Forall₂
      (fun m m' => Eff.Agree (In call bound) m m' ∧
        Eff.Triple (In call bound) m (fun _ => In call bound) fun _ => True)
      ((s.preconditions.map fun asked target =>
        precondition s.toCaller call asked target edgeCallState).map fun p => p target)
      ((s.preconditions.map fun asked target =>
        precondition s.toCaller call asked target (ownState call)).map fun p => p target) := by
    rw [List.map_map, List.map_map, List.forall₂_map_left_iff, List.forall₂_map_right_iff]
    refine List.forall₂_same.2 fun asked hasked => ⟨agree_precondition (hpre asked hasked target), ?_⟩
    exact triple_keeps (keeps_precondition (hpre asked hasked target).1 keeps_edgeCallState)
  unfold guardedPreconditions
  rcases hguard : s.guard with _ | guard
  · exact hdeclared
  · rw [hguard] at hbound
    obtain rfl := hbound
    refine .cons ⟨agree_callGuard ⟨guard, call⟩ target, triple_keeps ?_⟩ hdeclared
    exact keeps_callGuard (fun g t => (hask g t).1 edgeCallState _ keeps_edgeCallState)
      keeps_edgeCallState target

/-! ### Preparing, running and rewording -/

section
variable {s : SelectorCall T V G E} {m : ManyCall T V G E} {o : SingleCall T V G E}

/-- A selector's call holds its guard once it is prepared. -/
theorem triple_prepareSelector (hs : (Call.selector s).Over ask ReadsOwn) :
    Eff.Triple (In call none) (prepareSelector s call edgeCallState)
      (fun _ => In call ((Call.selector s).heldGuard call)) fun _ => True := by
  refine (triple_keeps (Eff.keeps_ofExcept _)).bind fun _ =>
    (triple_writeGuard s).bind fun _ => triple_keeps ?_
  exact (Eff.keeps_ofExcept _).bind fun _ =>
    (keeps_provided fun p hp => (hs.1.kwargs p hp).keeps).bind fun _ =>
      (Eff.keeps_ofExcept _).bind fun _ => Eff.keeps_pure _

/-- A selector's call is prepared alike of the two states. -/
theorem agree_prepareSelector (hs : (Call.selector s).Over ask ReadsOwn) :
    Eff.Agree (In call none) (prepareSelector s call edgeCallState)
      (prepareSelector s call (ownState call)) := by
  have hkwargs := fun p hp => hs.1.kwargs p hp
  refine agree_bind (agree_refl _) (Eff.keeps_ofExcept _) fun _ => ?_
  refine (Eff.Agree.refl _).bind (triple_writeGuard s) fun _ => ?_
  refine agree_bind (agree_refl _) (Eff.keeps_ofExcept _) fun _ => ?_
  exact agree_bind (agree_provided hkwargs)
    (keeps_provided fun p hp => (hkwargs p hp).keeps) fun _ => agree_refl _

/-- A `many` call does alike before its guard, of the two states. -/
theorem agree_manyUntilGuard (hm : (Call.many m).Over ask ReadsOwn) :
    Eff.Agree (In call bound) (manyUntilGuard m edgeCallState) (manyUntilGuard m (ownState call)) := by
  obtain ⟨hc, hdata, -⟩ := hm
  have hkwargs := fun p hp => hc.kwargs p hp
  refine agree_bind (agree_refl _) (Eff.keeps_ofExcept _) fun _ => ?_
  refine agree_bind (agree_refl _) (Eff.keeps_ofExcept _) fun _ => ?_
  refine agree_bind (agree_serverInput hdata none)
    (keeps_serverInput fun p hp => (hdata p hp _).keeps) fun _ => ?_
  exact agree_bind (agree_provided hkwargs)
    (keeps_provided fun p hp => (hkwargs p hp).keeps) fun _ => agree_refl _

/-- It is prepared alike of the two. -/
theorem agree_prepareMany (hm : (Call.many m).Over ask ReadsOwn) :
    Eff.Agree (In call bound) (prepareMany ask m call edgeCallState)
      (prepareMany ask m call (ownState call)) := by
  rw [prepareMany_eq, prepareMany_eq]
  exact (agree_manyUntilGuard hm).bind (Eff.triple_true _) fun _ => Eff.Agree.refl _

/-- A single call does alike before its guard, of the two states. -/
theorem agree_singleUntilGuard (ho : (Call.single o).Over ask ReadsOwn) :
    Eff.Agree (In call none) (singleUntilGuard o call edgeCallState)
      (singleUntilGuard o call (ownState call)) := by
  obtain ⟨hc, hlookup, -, -⟩ := ho
  have hkwargs := fun p hp => hc.kwargs p hp
  refine agree_bind (agree_refl _) (Eff.keeps_ofExcept _) fun _ => ?_
  refine agree_bind (agree_refl _) (Eff.keeps_ofExcept _) fun _ => ?_
  refine agree_bind (agree_provided hkwargs)
    (keeps_provided fun p hp => (hkwargs p hp).keeps) fun _ => ?_
  refine agree_bind (agree_refl _) (Eff.keeps_ofExcept _) fun routed => ?_
  refine (Eff.Agree.refl _).bind (triple_writeValues routed.2.1) fun _ => ?_
  exact agree_bind (agree_resolveTarget hlookup routed.1)
    (keeps_resolveTarget fun l hl => (hlookup l hl _).keeps) fun _ => agree_refl _

/-- Before its guard a single call's state holds none. -/
theorem triple_singleUntilGuard (ho : (Call.single o).Over ask ReadsOwn) :
    Eff.Triple (In call none) (singleUntilGuard o call edgeCallState) (fun _ => In call none)
      fun _ => True := by
  obtain ⟨hc, hlookup, -, -⟩ := ho
  refine (triple_keeps (Eff.keeps_ofExcept _)).bind fun _ => ?_
  refine (triple_keeps (Eff.keeps_ofExcept _)).bind fun _ => ?_
  refine (triple_keeps (keeps_provided fun p hp => (hc.kwargs p hp).keeps)).bind
    fun _ => ?_
  refine (triple_keeps (Eff.keeps_ofExcept _)).bind fun routed => ?_
  refine (triple_writeValues routed.2.1).bind fun _ => triple_keeps ?_
  exact (keeps_resolveTarget fun l hl => (hlookup l hl _).keeps).bind fun _ => Eff.keeps_pure _

/-- A single call is prepared alike of the two states. -/
theorem agree_prepareSingle (ho : (Call.single o).Over ask ReadsOwn) :
    Eff.Agree (In call none) (prepareSingle ask o call edgeCallState)
      (prepareSingle ask o call (ownState call)) := by
  rw [prepareSingle_eq, prepareSingle_eq]
  refine (agree_singleUntilGuard ho).bind (triple_singleUntilGuard ho) fun located => ?_
  obtain ⟨hc, -, hdata, -⟩ := ho
  rcases located with ⟨result | target, arguments, extra⟩
  · exact agree_refl _
  · refine agree_bind (agree_refl _) (keeps_guardTarget
      (fun g t => (hc.guard g t).1 edgeCallState _ keeps_edgeCallState) _ _) fun _ => ?_
    exact agree_bind (agree_serverInput hdata target)
      (keeps_serverInput fun p hp => (hdata p hp _).keeps) fun _ => agree_refl _

/-- Every call is prepared alike of the state of the call in progress and of its own. -/
theorem agree_prepareEdgeCall {c : Call T V G E} (hc : c.Over ask ReadsOwn) :
    Eff.Agree (In call none) (prepareEdgeCall ask c call edgeCallState)
      (prepareEdgeCall ask c call (ownState call)) := by
  refine agree_bind (agree_refl _) (Eff.keeps_ofExcept _) fun _ => ?_
  cases c with
  | selector s => exact agree_prepareSelector hc
  | many m => exact agree_prepareMany hc
  | single o => exact agree_prepareSingle hc

/-- A single call's state holds no guard once it is prepared either. -/
theorem triple_prepareSingle (ho : (Call.single o).Over ask ReadsOwn) :
    Eff.Triple (In call none) (prepareSingle ask o call edgeCallState) (fun _ => In call none)
      fun _ => True := by
  rw [prepareSingle_eq]
  refine (triple_singleUntilGuard ho).bind fun located => triple_keeps ?_
  obtain ⟨hc, -, hdata, -⟩ := ho
  rcases located with ⟨result | target, arguments, extra⟩
  · exact Eff.keeps_pure _
  · exact (keeps_guardTarget (fun g t => (hc.guard g t).1 edgeCallState _ keeps_edgeCallState) _ _).bind
      fun _ => (keeps_serverInput fun p hp => (hdata p hp _).keeps).bind
        fun _ => Eff.keeps_pure _

/-- What comes before a call's guard reads the state of the call. -/
theorem agree_untilGuard {c : Call T V G E} (hc : c.Over ask ReadsOwn) :
    Eff.Agree (In call none) (c.untilGuard call edgeCallState) (c.untilGuard call (ownState call)) := by
  refine agree_bind (agree_refl _) (Eff.keeps_ofExcept _) fun _ => ?_
  cases c with
  | selector s =>
    refine (agree_prepareSelector hc).bind (triple_prepareSelector hc) fun prepared => ?_
    cases prepared with
    | answered result => exact agree_refl _
    | edgeCall arguments extra target =>
      exact agree_bind (hc.2.1 arguments extra).agree (hc.2.1 arguments extra).keeps fun _ => agree_refl _
  | many m => exact (agree_manyUntilGuard hc).bind (Eff.triple_true _) fun _ => Eff.Agree.refl _
  | single o => exact (agree_singleUntilGuard hc).bind (Eff.triple_true _) fun _ => Eff.Agree.refl _

/-- What a call's state holds once the call is prepared. -/
theorem triple_prepareEdgeCall {c : Call T V G E} (hc : c.Over ask ReadsOwn) :
    Eff.Triple (In call none) (prepareEdgeCall ask c call edgeCallState)
      (fun _ => In call (c.heldGuard call)) fun _ => True := by
  refine (triple_keeps (Eff.keeps_ofExcept _)).bind fun _ => ?_
  cases c with
  | selector s => exact triple_prepareSelector hc
  | many m => exact triple_keeps (keeps_prepareMany (hc.mono fun hm => hm.1) keeps_edgeCallState)
  | single o => exact triple_prepareSingle hc

/-- The kernel's selection does alike of parts that agree one by one. -/
theorem agree_select (hk : kernel.Ordered) {find find' : Run T V G E (Found T)}
    {preconditions preconditions' : List (T → Run T V G E Unit)}
    (hfind : Eff.Agree (In call bound) find find') (hkeeps : Eff.Keeps (Frame (call + 1)) find)
    (hpre : ∀ target, List.Forall₂
      (fun m m' => Eff.Agree (In call bound) m m' ∧
        Eff.Triple (In call bound) m (fun _ => In call bound) fun _ => True)
      (preconditions.map fun p => p target) (preconditions'.map fun p => p target)) :
    Eff.Agree (In call bound) (kernel.select find preconditions)
      (kernel.select find' preconditions') := by
  rw [hk, hk]
  refine agree_bind hfind hkeeps fun found => ?_
  cases found with
  | missing => exact agree_refl _
  | nothing => exact agree_refl _
  | target target =>
    exact (Eff.agree_inOrder (hpre target)).bind (Eff.triple_true _) fun _ => Eff.Agree.refl _

/-- The kernel's run of what was prepared. -/
theorem agree_dispatch (hk : kernel.Ordered) {c : Call T V G E} (hc : c.Over ask ReadsOwn)
    (arguments extra : Dict String V) (target : Option T) :
    Eff.Agree (In call (c.heldGuard call))
      (dispatch (sharedPiece ask) kernel c call arguments extra target edgeCallState)
      (dispatch (ownPiece ask) kernel c call arguments extra target (ownState call)) := by
  cases c with
  | selector s =>
    obtain ⟨hcaller, hfind, hpre⟩ := hc
    refine agree_bind (agree_select hk (hfind _ _).agree (hfind _ _).keeps
      (agree_guardedPreconditions hcaller.guard hpre)) ?_ fun _ => agree_refl _
    refine keeps_select hk (hfind _ _).keeps (keeps_guardedPreconditions (fun b t => ?_)
      (fun asked h t => (hpre asked h t).1) keeps_edgeCallState)
    exact keeps_callGuard (fun g t => (hcaller.guard g t).1 edgeCallState _ keeps_edgeCallState)
      keeps_edgeCallState t
  | many m => exact agree_bind (agree_refl _) (keeps_emit _) fun _ => (hc.2.2 _ _).agree
  | single o => exact agree_bind (agree_refl _) (keeps_emit _) fun _ => (hc.2.2.2 _ _ _).agree

/-- A refusal is reworded alike of the two states. -/
theorem agree_reword {c : Call T V G E} (hc : c.Over ask ReadsOwn) (error : EdgeError E) :
    Eff.Agree (In call bound) (c.caller.reword error edgeCallState)
      (c.caller.reword error (ownState call)) := by
  cases c with
  | selector s => exact (hc.1.reword error).agree
  | many m => exact (hc.1.reword error).agree
  | single o => exact (hc.1.reword error).agree

/-- A call's run is what it would be of pieces of its own. -/
theorem agree_runCall (hk : kernel.Ordered) {c : Call T V G E} (hc : c.Over ask ReadsOwn) :
    Eff.Agree (In call none) (runCall ask (sharedPiece ask) kernel c call edgeCallState)
      (runCall ask (ownPiece ask) kernel c call (ownState call)) := by
  have hframe : c.Over ask KeepsFrame := hc.mono fun hm => hm.1
  have hpiece : ∀ bound target, Eff.Keeps (Frame call) (sharedPiece ask bound target edgeCallState) :=
    fun _ target => keeps_callGuard
      (fun g t => hframe.asks g t edgeCallState call keeps_edgeCallState) keeps_edgeCallState target
  have hbody : Eff.Keeps (Frame call) (prepareEdgeCall ask c call edgeCallState >>= fun
      | .answered result => pure result
      | .edgeCall arguments extra target =>
        dispatch (sharedPiece ask) kernel c call arguments extra target edgeCallState) := by
    refine (keeps_prepareEdgeCall le_rfl hframe keeps_edgeCallState).bind fun prepared => ?_
    cases prepared with
    | answered result => exact Eff.keeps_pure _
    | edgeCall arguments extra target => exact keeps_dispatch hk hframe hpiece keeps_edgeCallState _ _ _
  -- What is raised may be raised before or after the call's state holds its guard.
  have hended : Eff.Triple (In call none) (Eff.attempt (prepareEdgeCall ask c call edgeCallState >>= fun
      | .answered result => pure result
      | .edgeCall arguments extra target =>
        dispatch (sharedPiece ask) kernel c call arguments extra target edgeCallState))
      (fun _ => Running call) fun _ => True :=
    (hbody.attempt.triple fun _ _ hw h => hw.frame h).mono (fun w hw => ⟨none, hw⟩)
      (fun _ _ h => h) fun _ _ => trivial
  refine (Eff.Agree.attempt ?_).bind hended fun ended => ?_
  · refine (agree_prepareEdgeCall hc).bind (triple_prepareEdgeCall hc) fun prepared => ?_
    cases prepared with
    | answered result => exact agree_refl _
    | edgeCall arguments extra target => exact agree_dispatch hk hc arguments extra target
  · rintro w ⟨bound, hw⟩
    cases ended with
    | ok answer => rfl
    | error error =>
      exact agree_bind (agree_reword hc error) (keeps_reword hframe keeps_edgeCallState error)
        (fun _ => agree_refl _) w hw

end

end

/-- Each piece of a dispatch reads the state of its own call: what the call's context variable holds is
what each would be handed, whatever is dispatched in between. -/
theorem dispatchSpec_eq_own {ask : G → Option T → Run T V G E Unit} {kernel : Kernel T V G E}
    (hk : kernel.Ordered) {c : Call T V G E} (hc : c.Over ask fun {_} m => IsCode ask kernel m) :
    dispatchSpec ask kernel c = dispatchOwn ask kernel c := by
  funext w
  have hown : c.Over ask fun {_} (m : Code T V G E _) => ReadsOwn m :=
    hc.mono fun hm => hm _ (family_readsOwn hk)
  let begun : World T V G := ⟨some w.states.length, w.states ++ [({} : EdgeCallState G V)], w.trace⟩
  have hin : In w.states.length none begun := ⟨rfl, {}, by simp [begun], rfl⟩
  have hrun := agree_runCall hk hown begun hin
  have hshared : dispatchSpec ask kernel c w = ((runCall ask (sharedPiece ask) kernel c
      w.states.length edgeCallState begun).1, { (runCall ask (sharedPiece ask) kernel c
      w.states.length edgeCallState begun).2 with ambient := w.ambient }) := rfl
  rw [hshared, hrun]
  rfl

/-- The outer call, which dispatches the inner, is one such run. -/
theorem dispatchSpec_eq_own_outerCall :
    dispatchSpec allows documentedKernel outerCall = dispatchOwn allows documentedKernel outerCall :=
  dispatchSpec_eq_own (fun _ _ => rfl) outerCall_over

/-! ## What is seen of a call -/

/-- What was seen of a call, the latest first. -/
def World.eventsOf (w : World T V G) (call : ℕ) : List (Event T) :=
  w.trace.filter fun event => event.call? == some call

/-- What a call acted on, over what was seen of its guard, where it has one. -/
def acts (call : ℕ) (guarded : Bool) (target : Option T) (n : ℕ) : List (Event T) :=
  List.replicate n (.acted call guarded target) ++
    if guarded then [.passed call target, .asked call target] else []

/-- What may be seen of a call: nothing, a guard asked, or what it acted on. -/
inductive Orderly (call : ℕ) : List (Event T) → Prop
  | nothing : Orderly call []
  | asked (target : Option T) : Orderly call [.asked call target]
  | acted (guarded : Bool) (target : Option T) (n : ℕ) : Orderly call (acts call guarded target n)

/-- What a guarded call acted on, its guard had passed. -/
theorem Orderly.passed {call : ℕ} {events : List (Event T)} (h : Orderly call events)
    {target : Option T} (hacted : .acted call true target ∈ events) : .passed call target ∈ events := by
  cases h with
  | nothing => cases hacted
  | asked _ => simp at hacted
  | acted guarded other n =>
    rw [acts, List.mem_append, List.mem_replicate] at hacted
    rcases hacted with ⟨-, heq⟩ | hguard
    · cases heq
      simp [acts]
    · split at hguard <;> simp at hguard

/-- What is seen of every call is orderly, and nothing of a call not made yet. -/
structure Good (w : World T V G) : Prop where
  orderly : ∀ call, Orderly call (w.eventsOf call)
  fresh : ∀ call, w.states.length ≤ call → w.eventsOf call = []

/-- What a run keeps, of a world where what is seen is good: it stays so, and nothing more is seen of
the calls made before. -/
def Tidy (w w' : World T V G) : Prop :=
  Good w → Good w' ∧ w.states.length ≤ w'.states.length ∧
    ∀ call < w.states.length, w'.eventsOf call = w.eventsOf call

instance : IsPreorder (World T V G) Tidy where
  refl _ h := ⟨h, le_rfl, fun _ _ => rfl⟩
  trans _ _ _ h h' hgood := by
    obtain ⟨hgood', hlen, hevents⟩ := h hgood
    obtain ⟨hgood'', hlen', hevents'⟩ := h' hgood'
    refine ⟨hgood'', hlen.trans hlen', fun i hi => ?_⟩
    rw [hevents' i (hi.trans_le hlen), hevents i hi]

/-- A world where what is seen is good, in which a call was made after `w₀`, of which `events` were
seen, and every target its guard passed is of `P`. -/
structure At (P : Option T → Prop) (w₀ : World T V G) (events : List (Event T)) (w : World T V G) :
    Prop where
  good : Good w
  made : w₀.states.length < w.states.length
  before : ∀ i < w₀.states.length, w.eventsOf i = w₀.eventsOf i
  seen : w.eventsOf w₀.states.length = events
  vouched : ∀ target, .passed w₀.states.length target ∈ events → P target

/-- The call has ended, whatever was seen of it. -/
def Ended (P : Option T → Prop) (w₀ w : World T V G) : Prop := ∃ events, At P w₀ events w

section
variable {P : Option T → Prop} {w₀ : World T V G} {events : List (Event T)}

/-- A run that keeps good worlds so leaves the call where it is. -/
theorem At.tidy {w w' : World T V G} (h : At P w₀ events w) (hw : Tidy w w') : At P w₀ events w' := by
  obtain ⟨hgood, hlen, hevents⟩ := hw h.good
  refine ⟨hgood, h.made.trans_le hlen, fun i hi => ?_, ?_, h.vouched⟩
  · rw [hevents i (hi.trans h.made), h.before i hi]
  · rw [hevents _ h.made, h.seen]

/-- What a run that keeps good worlds so leaves of a call. -/
theorem triple_tidy {α : Type} {m : Run T V G E α} (hm : Eff.Keeps Tidy m) :
    Eff.Triple (At P w₀ events) m (fun _ => At P w₀ events) (Ended P w₀) :=
  (hm.triple fun _ _ hw h => hw.tidy h).mono (fun _ h => h) (fun _ _ h => h) fun _ h => ⟨_, h⟩

/-- Once a call has ended, it has. -/
theorem triple_ended {α : Type} {m : Run T V G E α} (hm : Eff.Keeps Tidy m) :
    Eff.Triple (Ended P w₀) m (fun _ => Ended P w₀) (Ended P w₀) :=
  hm.triple fun _ _ ⟨events, hw⟩ h => ⟨events, hw.tidy h⟩

/-- An event of the call that leaves what was seen of it orderly. -/
theorem triple_emit {event : Event T} (hcall : event.call? = some w₀.states.length)
    (horderly : Orderly w₀.states.length (event :: events))
    (hpassed : ∀ target, event = .passed w₀.states.length target → P target) :
    Eff.Triple (At P w₀ events) (emit event : Run T V G E Unit) (fun _ => At P w₀ (event :: events))
      (Ended P w₀) := by
  refine Eff.triple_modify fun w h => ?_
  have hown : (w.see event).eventsOf w₀.states.length = event :: events := by
    rw [World.eventsOf, World.see, List.filter_cons_of_pos (by simp [hcall]), ← h.seen, World.eventsOf]
  have hother : ∀ i, i ≠ w₀.states.length → (w.see event).eventsOf i = w.eventsOf i := by
    intro i hi
    rw [World.eventsOf, World.see, List.filter_cons_of_neg (by simp [hcall, Ne.symm hi]), World.eventsOf]
  refine ⟨⟨fun i => ?_, fun i hi => ?_⟩, h.made, fun i hi => ?_, hown, fun target htarget => ?_⟩
  · by_cases hi : i = w₀.states.length
    · rw [hi, hown]
      exact horderly
    · rw [hother i hi]
      exact h.good.orderly i
  · have hmade := h.made
    have hne : i ≠ w₀.states.length := by
      rintro rfl
      exact absurd hi (Nat.not_le.2 hmade)
    rw [hother i hne]
    exact h.good.fresh i hi
  · rw [hother i hi.ne]
    exact h.before i hi
  · rcases List.mem_cons.1 htarget with heq | hmem
    · exact hpassed target heq.symm
    · exact h.vouched target hmem

/-! ### The steps of a call -/

/-- Code that keeps good worlds so, whatever it is handed to read the state with. -/
def KeepsTidy (ask : G → Option T → Run T V G E Unit) (kernel : Kernel T V G E) {α : Type}
    (m : Code T V G E α) : Prop :=
  IsCode ask kernel m ∧ ∀ state, Eff.Keeps Tidy state → Eff.Keeps Tidy (m state)

/-- An event of no call keeps a good world so. -/
theorem tidy_other (name : String) : Eff.Keeps Tidy (emit (.other name) : Run T V G E Unit) :=
  Eff.keeps_modify fun w h => by
    have hevents : ∀ i, (w.see (.other name)).eventsOf i = w.eventsOf i :=
      fun i => List.filter_cons_of_neg (by simp [Event.call?])
    refine ⟨⟨fun i => ?_, fun i hi => ?_⟩, le_rfl, fun i _ => hevents i⟩
    · rw [hevents]
      exact h.orderly i
    · rw [hevents]
      exact h.fresh i hi

/-- A write of a state is not seen. -/
theorem tidy_writeState {call : ℕ} (f : EdgeCallState G V → EdgeCallState G V) :
    Eff.Keeps Tidy (writeState call f : Run T V G E Unit) :=
  Eff.keeps_modify fun w h =>
    ⟨⟨h.orderly, fun i hi => h.fresh i (by simpa using hi)⟩, by simp, fun _ _ => rfl⟩

/-- Reading a call's own state changes nothing. -/
theorem tidy_ownState {call : ℕ} : Eff.Keeps Tidy (ownState call : Run T V G E _) :=
  fun w => refl_of Tidy w

/-- Reading the state of the call in progress changes nothing. -/
theorem tidy_edgeCallState : Eff.Keeps Tidy (edgeCallState : Run T V G E _) :=
  fun w => refl_of Tidy w

variable {ask : G → Option T → Run T V G E Unit} {kernel : Kernel T V G E}

/-- Code that keeps good worlds so does, of the state of its own call. -/
theorem KeepsTidy.own {α : Type} {m : Code T V G E α} (h : KeepsTidy ask kernel m) {call : ℕ} :
    Eff.Keeps Tidy (m (ownState call)) :=
  h.2 _ tidy_ownState

/-- Guards keep good worlds so. -/
theorem KeepsTidy.asks (h : ∀ guard target, KeepsTidy ask kernel fun _ => ask guard target) (guard : G)
    (target : Option T) : Eff.Keeps Tidy (ask guard target) :=
  (h guard target).2 _ tidy_edgeCallState

/-- A target the guard of a call made after `w₀` lets through is of `P`. The guard is asked in the world that all
the call did before leaves. -/
def Call.Vouches (ask : G → Option T → Run T V G E Unit) (P : Option T → Prop) (w₀ : World T V G)
    (c : Call T V G E) : Prop :=
  ∀ guard, c.caller.guard = some guard → ∀ target u u',
    c.untilGuard w₀.states.length (ownState w₀.states.length) w₀.begin = (.ok (some target), u) →
    ask guard target (u.see (.asked w₀.states.length target)) = (.ok (), u') → P target

/-- A guard asked passes its target, or ends the call. -/
theorem triple_askGuard (hask : ∀ guard target, Eff.Keeps Tidy (ask guard target)) (guard : G)
    (target : Option T) {S : World T V G → Prop}
    (hP : ∀ u u', S u → ask guard target (u.see (.asked w₀.states.length target)) = (.ok (), u') → P target) :
    Eff.Triple (fun w => S w ∧ At P w₀ [] w) (askGuard ask ⟨guard, w₀.states.length⟩ target)
      (fun _ => At P w₀ (acts w₀.states.length true target 0)) (Ended P w₀) := by
  have hasked : Eff.Triple (fun w => S w ∧ At P w₀ [] w)
      (emit (.asked w₀.states.length target) : Run T V G E Unit)
      (fun _ w => (∃ u, S u ∧ w = u.see (.asked w₀.states.length target)) ∧
        At P w₀ [.asked w₀.states.length target] w) (Ended P w₀) :=
    Eff.triple_modify fun w hw => ⟨⟨w, hw.1, rfl⟩, triple_emit (E := E) rfl (.asked target) nofun w hw.2⟩
  refine hasked.bind fun _ => ?_
  have hlet : Eff.Triple (fun w => (∃ u, S u ∧ w = u.see (.asked w₀.states.length target)) ∧
      At P w₀ [.asked w₀.states.length target] w) (ask guard target)
      (fun _ => At P w₀ [.asked w₀.states.length target]) (Ended P w₀) :=
    (triple_tidy (hask guard target)).mono (fun _ h => h.2) (fun _ _ h => h) fun _ h => h
  refine (hlet.ran.mono (fun _ h => h) (fun _ w h => ?_) fun _ h => h).bind
    (R := fun _ w => P target ∧ At P w₀ [.asked w₀.states.length target] w) fun _ => ?_
  · obtain ⟨⟨_, ⟨⟨u, hu, rfl⟩, -⟩, hask⟩, hat⟩ := h
    exact ⟨hP u w hu hask, hat⟩
  · exact Eff.triple_and fun hvouched => triple_emit rfl (.acted true target 0) fun _ h => by
      cases h
      exact hvouched

/-- The guard of a call passes its target, if it has one, or ends the call. -/
theorem triple_guardTarget (hask : ∀ guard target, Eff.Keeps Tidy (ask guard target))
    (c : Caller T V G E) (target : Option T) {S : World T V G → Prop}
    (hP : ∀ guard, c.guard = some guard → ∀ u u', S u →
      ask guard target (u.see (.asked w₀.states.length target)) = (.ok (), u') → P target) :
    Eff.Triple (fun w => S w ∧ At P w₀ [] w) (guardTarget ask c w₀.states.length target)
      (fun _ => At P w₀ (acts w₀.states.length c.guard.isSome target 0)) (Ended P w₀) := by
  rw [guardTarget]
  cases hguard : c.guard with
  | none => exact Eff.triple_pure fun _ h => h.2
  | some guard => exact triple_askGuard hask guard target (hP guard hguard)

/-- One act more. -/
theorem triple_acted (guarded : Bool) (target : Option T) (n : ℕ) :
    Eff.Triple (At P w₀ (acts w₀.states.length guarded target n))
      (emit (.acted w₀.states.length guarded target) : Run T V G E Unit)
      (fun _ => At P w₀ (acts w₀.states.length guarded target (n + 1))) (Ended P w₀) :=
  triple_emit rfl (.acted guarded target (n + 1)) nofun

/-- Where a call is once it is prepared: its guard has passed the target, where the kernel is not to
find it. -/
def Ready (P : Option T → Prop) (w₀ : World T V G) (c : Call T V G E) : Prepared T V → World T V G → Prop
  | .answered _ => Ended P w₀
  | .edgeCall _ _ target =>
    match c with
    | .selector _ => At P w₀ []
    | .many m => At P w₀ (acts w₀.states.length m.guard.isSome none 0)
    | .single o => At P w₀ (acts w₀.states.length o.guard.isSome target 0)

section
variable {s : SelectorCall T V G E} {m : ManyCall T V G E} {o : SingleCall T V G E}

/-- A selector's call has asked nobody when it is prepared. -/
theorem ready_prepareSelector (hs : (Call.selector s).Over ask (KeepsTidy ask kernel)) :
    Eff.Triple (At P w₀ []) (prepareSelector s w₀.states.length (ownState w₀.states.length))
      (Ready P w₀ (.selector s)) (Ended P w₀) := by
  refine (triple_tidy (Eff.keeps_ofExcept _)).bind fun _ => (triple_tidy (tidy_writeState _)).bind
    fun _ => (triple_tidy (Eff.keeps_ofExcept _)).bind fun _ => ?_
  refine (triple_tidy (keeps_provided fun p hp => (hs.1.kwargs p hp).own)).bind fun _ => ?_
  exact (triple_tidy (Eff.keeps_ofExcept _)).bind fun _ => Eff.triple_pure fun _ h => h

/-- A `many` call's guard has passed no target in particular. -/
theorem ready_prepareMany (hm : (Call.many m).Over ask (KeepsTidy ask kernel))
    (hP : (Call.many m).Vouches ask P w₀)
    (hmodes : refuseRetiredModes (E := E) m.binding m.unknownArguments = .ok ()) :
    Eff.Triple (fun w => w = w₀.begin ∧ At P w₀ [] w)
      (prepareMany ask m w₀.states.length (ownState w₀.states.length))
      (Ready P w₀ (.many m)) (Ended P w₀) := by
  obtain ⟨hc, hdata, -⟩ := hm
  rw [prepareMany_eq]
  have hhead : Eff.Triple (fun w => w = w₀.begin ∧ At P w₀ [] w)
      (manyUntilGuard m (ownState w₀.states.length)) (fun _ => At P w₀ []) (Ended P w₀) :=
    (triple_tidy (keeps_manyUntilGuard (fun p hp => (hdata p hp _).own)
      fun p hp => (hc.kwargs p hp).own)).mono (fun _ h => h.2) (fun _ _ h => h) fun _ h => h
  refine hhead.ran.bind fun prepared => ?_
  refine (triple_guardTarget (KeepsTidy.asks hc.guard) m.toCaller none fun guard hguard u u' hu hask => ?_).bind
    fun _ => Eff.triple_pure fun _ h => h
  obtain ⟨_, ⟨rfl, -⟩, hran⟩ := hu
  refine hP guard hguard none u u' ?_ hask
  have hhead : (Call.many m).untilGuard w₀.states.length (ownState w₀.states.length) w₀.begin =
      (manyUntilGuard m (ownState w₀.states.length) >>= fun _ => pure (some none)) w₀.begin := by
    rw [Call.untilGuard, Call.caller, hmodes]
    rfl
  rw [hhead, Eff.bind_of_ok hran]
  rfl

/-- A single call's guard has passed the target it resolved. -/
theorem ready_prepareSingle (ho : (Call.single o).Over ask (KeepsTidy ask kernel))
    (hP : (Call.single o).Vouches ask P w₀)
    (hmodes : refuseRetiredModes (E := E) o.binding o.unknownArguments = .ok ()) :
    Eff.Triple (fun w => w = w₀.begin ∧ At P w₀ [] w)
      (prepareSingle ask o w₀.states.length (ownState w₀.states.length))
      (Ready P w₀ (.single o)) (Ended P w₀) := by
  obtain ⟨hc, hlookup, hdata, -⟩ := ho
  rw [prepareSingle_eq]
  have hhead : Eff.Triple (fun w => w = w₀.begin ∧ At P w₀ [] w)
      (singleUntilGuard o w₀.states.length (ownState w₀.states.length)) (fun _ => At P w₀ []) (Ended P w₀) :=
    (triple_tidy (keeps_singleUntilGuard tidy_writeState (fun p hp => (hc.kwargs p hp).own)
      fun l hl a => (hlookup l hl a).own)).mono (fun _ h => h.2) (fun _ _ h => h) fun _ h => h
  refine hhead.ran.bind fun located => ?_
  rcases located with ⟨result | target, arguments, extra⟩
  · exact Eff.triple_pure fun _ h => ⟨_, h.2⟩
  · refine (triple_guardTarget (KeepsTidy.asks hc.guard) o.toCaller target
      fun guard hguard u u' hu hask => ?_).bind fun _ =>
        (triple_tidy (keeps_serverInput fun p hp => (hdata p hp _).own)).bind fun _ =>
          Eff.triple_pure fun _ h => h
    obtain ⟨_, ⟨rfl, -⟩, hran⟩ := hu
    refine hP guard hguard target u u' ?_ hask
    have hhead : (Call.single o).untilGuard w₀.states.length (ownState w₀.states.length) w₀.begin =
        (singleUntilGuard o w₀.states.length (ownState w₀.states.length) >>= fun located =>
          match located.1 with
          | .error _ => pure none
          | .ok target => pure (some target)) w₀.begin := by
      rw [Call.untilGuard, Call.caller, hmodes]
      rfl
    rw [hhead, Eff.bind_of_ok hran]
    rfl

end

/-- What preparing a call leaves. -/
theorem ready_prepareEdgeCall {c : Call T V G E} (hc : c.Over ask (KeepsTidy ask kernel))
    (hP : c.Vouches ask P w₀) :
    Eff.Triple (fun w => w = w₀.begin ∧ At P w₀ [] w)
      (prepareEdgeCall ask c w₀.states.length (ownState w₀.states.length))
      (Ready P w₀ c) (Ended P w₀) := by
  refine Eff.triple_ofExcept_bind (fun _ h => ⟨_, h.2⟩) fun _ hmodes => ?_
  cases c with
  | selector s => exact (ready_prepareSelector hc).mono (fun _ h => h.2) (fun _ _ h => h) fun _ h => h
  | many m => exact ready_prepareMany hc hP hmodes
  | single o => exact ready_prepareSingle hc hP hmodes

/-- Where a call is once the kernel answered it: what it acted on is what the kernel found. -/
def Answered (P : Option T → Prop) (w₀ : World T V G) (c : Caller T V G E) :
    DispatchResult T V → World T V G → Prop
  | .found target, w => ∃ n, At P w₀ (acts w₀.states.length c.guard.isSome (some target) n) w
  | _, w => Ended P w₀ w

/-- A precondition asked after the guard is one act more. -/
theorem triple_precondition {c : Caller T V G E} {asked : T → Code T V G E Unit} {target : T}
    (h : KeepsTidy ask kernel (asked target)) :
    Eff.Triple (fun w => ∃ n, At P w₀ (acts w₀.states.length c.guard.isSome (some target) n) w)
      (precondition c w₀.states.length asked target (ownState w₀.states.length))
      (fun _ w => ∃ n, At P w₀ (acts w₀.states.length c.guard.isSome (some target) n) w)
      (Ended P w₀) :=
  Eff.triple_exists fun n => (triple_acted c.guard.isSome (some target) n).bind fun _ =>
    (triple_tidy h.own).mono (fun _ h => h) (fun _ _ h => ⟨n + 1, h⟩) fun _ h => h

/-- The preconditions of a call's own variant: the guard passes the target before any acts on it. -/
theorem triple_guardedPreconditions {s : SelectorCall T V G E}
    (hs : (Call.selector s).Over ask (KeepsTidy ask kernel)) (target : T) {S : World T V G → Prop}
    (hP : ∀ guard, s.guard = some guard → ∀ u u', S u →
      ask guard (some target) (u.see (.asked w₀.states.length (some target))) = (.ok (), u') →
        P (some target)) :
    Eff.Triple (fun w => S w ∧ At P w₀ [] w)
      (Eff.inOrder ((guardedPreconditions (ownPiece ask) s w₀.states.length
        (ownState w₀.states.length)).map fun p => p target))
      (fun _ => Answered P w₀ s.toCaller (.found target)) (Ended P w₀) := by
  have hdeclared : Eff.Triple
      (fun w => ∃ n, At P w₀ (acts w₀.states.length s.guard.isSome (some target) n) w)
      (Eff.inOrder ((s.preconditions.map fun asked target => precondition s.toCaller w₀.states.length
        asked target (ownState w₀.states.length)).map fun p => p target))
      (fun _ w => ∃ n, At P w₀ (acts w₀.states.length s.guard.isSome (some target) n) w)
      (Ended P w₀) := Eff.triple_inOrder fun m hm => by
    obtain ⟨p, hp, rfl⟩ := List.mem_map.1 hm
    obtain ⟨asked, hasked, rfl⟩ := List.mem_map.1 hp
    exact triple_precondition (hs.2.2 asked hasked target)
  unfold guardedPreconditions
  rcases hguard : s.guard with _ | guard
  · refine hdeclared.mono (fun w h => ⟨0, ?_⟩) (fun _ _ h => h) fun _ h => h
    rw [hguard]
    exact h.2
  · refine Eff.Triple.bind (triple_askGuard (KeepsTidy.asks hs.1.guard) guard (some target)
      (hP guard hguard)) fun _ => ?_
    refine hdeclared.mono (fun w h => ⟨0, ?_⟩) (fun _ _ h => h) fun _ h => h
    rw [hguard]
    exact h

/-- What the kernel selected passed the guard before anything acted on it. -/
theorem answered_select (hk : kernel.Ordered) {s : SelectorCall T V G E}
    (hs : (Call.selector s).Over ask (KeepsTidy ask kernel)) (hP : (Call.selector s).Vouches ask P w₀)
    (arguments extra : Dict String V) (handed : Option T) :
    Eff.Triple (fun w => prepareEdgeCall ask (.selector s) w₀.states.length (ownState w₀.states.length)
        w₀.begin = (.ok (.edgeCall arguments extra handed), w) ∧ At P w₀ [] w)
      (kernel.select (s.find arguments extra (ownState w₀.states.length))
        (guardedPreconditions (ownPiece ask) s w₀.states.length (ownState w₀.states.length)))
      (Answered P w₀ s.toCaller) (Ended P w₀) := by
  rw [hk]
  have hfind : Eff.Triple (fun w => prepareEdgeCall ask (.selector s) w₀.states.length
      (ownState w₀.states.length) w₀.begin = (.ok (.edgeCall arguments extra handed), w) ∧ At P w₀ [] w)
      (s.find arguments extra (ownState w₀.states.length)) (fun _ => At P w₀ []) (Ended P w₀) :=
    (triple_tidy (hs.2.1 arguments extra).own).mono (fun _ h => h.2) (fun _ _ h => h) fun _ h => h
  refine hfind.ran.bind fun found => ?_
  cases found with
  | missing => exact Eff.triple_pure fun _ h => ⟨_, h.2⟩
  | nothing => exact Eff.triple_pure fun _ h => ⟨_, h.2⟩
  | target target =>
    refine (triple_guardedPreconditions hs target fun guard hguard u u' hu hask => ?_).bind fun _ =>
      Eff.triple_pure fun _ h => h
    obtain ⟨v, ⟨hprepared, -⟩, hfound⟩ := hu
    exact hP guard hguard (some target) u u' (untilGuard_selector ask hprepared hfound) hask

/-- A call whose row is answered has ended. -/
theorem ended_answerRow (c : Caller T V G E) (result : DispatchResult T V) :
    Eff.Triple (Answered P w₀ c result) (answerRow c w₀.states.length result : Run T V G E _)
      (fun _ => Ended P w₀) (Ended P w₀) := by
  cases result with
  | notFound | nothing | returned => exact Eff.triple_pure fun _ h => h
  | found target =>
    exact Eff.triple_exists fun n => (triple_acted c.guard.isSome (some target) n).bind fun _ =>
      Eff.triple_pure fun _ h => ⟨_, h⟩

/-- The kernel's run of what was prepared acts on the target the guard passed, and on nothing else. -/
theorem ended_dispatch (hk : kernel.Ordered) {c : Call T V G E}
    (hc : c.Over ask (KeepsTidy ask kernel)) (hP : c.Vouches ask P w₀) (arguments extra : Dict String V)
    (target : Option T) :
    Eff.Triple (fun w => prepareEdgeCall ask c w₀.states.length (ownState w₀.states.length) w₀.begin =
        (.ok (.edgeCall arguments extra target), w) ∧ Ready P w₀ c (.edgeCall arguments extra target) w)
      (dispatch (ownPiece ask) kernel c w₀.states.length arguments extra target
        (ownState w₀.states.length)) (fun _ => Ended P w₀) (Ended P w₀) := by
  cases c with
  | selector s => exact (answered_select hk hc hP arguments extra target).bind fun r => ended_answerRow _ r
  | many m =>
    refine Eff.Triple.mono (P := Ready P w₀ (.many m) (.edgeCall arguments extra target)) ?_ (fun _ h => h.2)
      (fun _ _ h => h) fun _ h => h
    refine (triple_acted m.guard.isSome none 0).bind fun _ => ?_
    exact (triple_tidy (hc.2.2 arguments extra).own).mono (fun _ h => h) (fun _ _ h => ⟨_, h⟩)
      fun _ h => h
  | single o =>
    refine Eff.Triple.mono (P := Ready P w₀ (.single o) (.edgeCall arguments extra target)) ?_ (fun _ h => h.2)
      (fun _ _ h => h) fun _ h => h
    refine (triple_acted o.guard.isSome target 0).bind fun _ => ?_
    exact (triple_tidy (hc.2.2.2 arguments extra target).own).mono (fun _ h => h) (fun _ _ h => ⟨_, h⟩)
      fun _ h => h

/-- A refusal reworded keeps a good world so. -/
theorem tidy_reword {c : Call T V G E} (hc : c.Over ask (KeepsTidy ask kernel)) (error : EdgeError E)
    {call : ℕ} : Eff.Keeps Tidy (c.caller.reword error (ownState call)) := by
  cases c with
  | selector s => exact (hc.1.reword error).own
  | many m => exact (hc.1.reword error).own
  | single o => exact (hc.1.reword error).own

/-- A call ends with what was seen of it orderly, answered or raised. -/
theorem ended_runCall (hk : kernel.Ordered) {c : Call T V G E}
    (hc : c.Over ask (KeepsTidy ask kernel)) (hP : c.Vouches ask P w₀) :
    Eff.Triple (fun w => w = w₀.begin ∧ At P w₀ [] w)
      (runCall ask (ownPiece ask) kernel c w₀.states.length (ownState w₀.states.length))
      (fun _ => Ended P w₀) (Ended P w₀) := by
  refine Eff.Triple.bind (R := fun _ => Ended P w₀)
    (Eff.Triple.attempt (X := Ended P w₀) ?_ fun _ _ h => h) fun ended => ?_
  · refine (ready_prepareEdgeCall hc hP).ran.bind fun prepared => ?_
    cases prepared with
    | answered result => exact Eff.triple_pure fun _ h => h.2
    | edgeCall arguments extra target =>
      refine (ended_dispatch hk hc hP arguments extra target).mono (fun w h => ?_) (fun _ _ h => h) fun _ h => h
      obtain ⟨⟨_, ⟨rfl, -⟩, hprepared⟩, hready⟩ := h
      exact ⟨hprepared, hready⟩
  · cases ended with
    | ok answer => exact Eff.triple_pure fun _ h => h
    | error error =>
      exact (triple_ended (tidy_reword hc error)).bind fun _ => Eff.triple_raise fun _ h => h

/-- A dispatch leaves its call ended. -/
theorem ended_dispatchOwn (hk : kernel.Ordered) {c : Call T V G E}
    (hc : c.Over ask (KeepsTidy ask kernel)) {w : World T V G} (hP : c.Vouches ask P w)
    (hgood : Good w) : Ended P w (dispatchOwn ask kernel c w).2 := by
  have hbegun : At P w [] w.begin := by
    refine ⟨⟨hgood.orderly, fun i hi => hgood.fresh i ?_⟩, by simp [World.begin], fun _ _ => rfl,
      hgood.fresh _ le_rfl, nofun⟩
    have hlen : w.states.length + 1 ≤ i := by simpa [World.begin] using hi
    omega
  have hended : Ended P w (runCall ask (ownPiece ask) kernel c w.states.length
      (ownState w.states.length) w.begin).2 := by
    have h := ended_runCall hk hc hP w.begin ⟨rfl, hbegun⟩
    split at h
    · next heq => rwa [heq]
    · next heq => rwa [heq]
  obtain ⟨events, h⟩ := hended
  exact ⟨events, ⟨h.good.orderly, h.good.fresh⟩, h.made, h.before, h.seen, h.vouched⟩

/-- A dispatch keeps good worlds so. -/
theorem tidy_dispatchOwn (hk : kernel.Ordered) {c : Call T V G E}
    (hc : c.Over ask (KeepsTidy ask kernel)) : Eff.Keeps Tidy (dispatchOwn ask kernel c) := by
  intro w hgood
  obtain ⟨events, h⟩ := ended_dispatchOwn (P := fun _ => True) hk hc (fun _ _ _ _ _ _ _ => trivial) hgood
  exact ⟨h.good, h.made.le, h.before⟩

/-- Code keeps good worlds so. -/
theorem family_keepsTidy (hk : kernel.Ordered) :
    Family ask kernel fun {_} m => KeepsTidy ask kernel m where
  answer a := ⟨family_isCode.answer a, fun _ _ => Eff.keeps_pure a⟩
  raise e := ⟨family_isCode.raise e, fun _ _ => Eff.keeps_raise e⟩
  see name := ⟨family_isCode.see name, fun _ _ => tidy_other name⟩
  read := ⟨family_isCode.read, fun _ h => h⟩
  bind hm hf := ⟨family_isCode.bind hm.1 fun a => (hf a).1, fun state h =>
    (hm.2 state h).bind fun a => (hf a).2 state h⟩
  attempt hm := ⟨family_isCode.attempt hm.1, fun state h => (hm.2 state h).attempt⟩
  dispatch c hc := ⟨family_isCode.dispatch c (hc.mono fun hm => hm.1), fun _ _ => by
    rw [dispatchSpec_eq_own hk (hc.mono fun hm => hm.1)]
    exact tidy_dispatchOwn hk hc⟩

/-- Nothing is seen at the start. -/
theorem good_start : Good (World.start : World T V G) := ⟨fun _ => .nothing, fun _ _ => rfl⟩

end

/-! ## Every run -/

/-- What is seen of a run is good. -/
theorem good_run {ask : G → Option T → Run T V G E Unit} {kernel : Kernel T V G E}
    (hk : kernel.Ordered) {α : Type} {m : Code T V G E α} (hm : IsCode ask kernel m) :
    Good (m edgeCallState World.start).2 :=
  ((hm _ (family_keepsTidy hk)).2 _ tidy_edgeCallState _ good_start).1

/-- In every run, what is seen of each call is orderly: its guard is asked once at most, and all that
is acted on is the target the guard passed, after it did. -/
theorem orderly_run {ask : G → Option T → Run T V G E Unit} {kernel : Kernel T V G E}
    (hk : kernel.Ordered) {α : Type} {m : Code T V G E α} (hm : IsCode ask kernel m) (call : ℕ) :
    Orderly call ((m edgeCallState World.start).2.eventsOf call) :=
  (good_run hk hm).orderly call

/-- The outer call asks its guard about the row, passes it, and acts on it twice. -/
theorem orderly_run_outerCall :
    (dispatchSpec allows documentedKernel outerCall World.start).2.eventsOf 0 =
        [.acted 0 true (some 7), .acted 0 true (some 7), .passed 0 (some 7), .asked 0 (some 7)] ∧
      Orderly 0 ((dispatchSpec allows documentedKernel outerCall World.start).2.eventsOf 0) :=
  ⟨rfl, orderly_run (m := fun _ => dispatchSpec allows documentedKernel outerCall) (fun _ _ => rfl)
    (family_isCode.dispatch outerCall outerCall_over) 0⟩

/-- Whatever a run dispatches, and however it ends, it leaves the call in progress in progress, and of
every call made before it neither the state nor what was seen of it is another. -/
theorem isolated_run {ask : G → Option T → Run T V G E Unit} {kernel : Kernel T V G E}
    (hk : kernel.Ordered) {α : Type} {m : Code T V G E α} (hm : IsCode ask kernel m)
    {w : World T V G} (hw : Good w) :
    (m edgeCallState w).2.ambient = w.ambient ∧ ∀ call < w.states.length,
      (m edgeCallState w).2.states[call]? = w.states[call]? ∧
        (m edgeCallState w).2.eventsOf call = w.eventsOf call := by
  obtain ⟨-, hambient, hstates⟩ :=
    hm _ (family_keepsFrame hk) edgeCallState w.states.length keeps_edgeCallState w le_rfl
  obtain ⟨-, -, hevents⟩ := (hm _ (family_keepsTidy hk)).2 _ tidy_edgeCallState w hw
  exact ⟨hambient, fun call hcall => ⟨hstates call hcall, hevents call hcall⟩⟩

/-- What a guarded dispatch acts on, its guard was asked about, in the world that all the call did before left,
and let through. -/
theorem passed_dispatch {ask : G → Option T → Run T V G E Unit} {kernel : Kernel T V G E}
    (hk : kernel.Ordered) {c : Call T V G E} (hc : c.Over ask fun {_} m => IsCode ask kernel m)
    {w : World T V G} (hw : Good w) {target : Option T}
    (hacted : .acted w.states.length true target ∈ (dispatchSpec ask kernel c w).2.trace) :
    ∃ guard u u', c.caller.guard = some guard ∧
      c.untilGuard w.states.length edgeCallState w.begin = (.ok (some target), u) ∧
      ask guard target (u.see (.asked w.states.length target)) = (.ok (), u') := by
  have htidy : c.Over ask (KeepsTidy ask kernel) := hc.mono fun hm => hm _ (family_keepsTidy hk)
  have hown : c.Over ask fun {_} (m : Code T V G E _) => ReadsOwn m :=
    hc.mono fun hm => hm _ (family_readsOwn hk)
  have hbegun : In w.states.length none w.begin := ⟨rfl, {}, by simp [World.begin], rfl⟩
  have hread := agree_untilGuard hown w.begin hbegun
  rw [dispatchSpec_eq_own hk hc] at hacted
  rw [hread]
  obtain ⟨events, h⟩ := ended_dispatchOwn (P := fun target => ∃ guard u u', c.caller.guard = some guard ∧
      c.untilGuard w.states.length (ownState w.states.length) w.begin = (.ok (some target), u) ∧
      ask guard target (u.see (.asked w.states.length target)) = (.ok (), u')) hk htidy
    (fun guard hguard _ u u' hu hask => ⟨guard, u, u', hguard, hu, hask⟩) hw
  have horderly := h.good.orderly w.states.length
  rw [h.seen] at horderly
  refine h.vouched target (horderly.passed ?_)
  rw [← h.seen]
  exact List.mem_filter.2 ⟨hacted, by simp [Event.call?]⟩

/-- A second dispatch of `outerCall`, after the first. -/
theorem isolated_run_outerCall :
    (dispatchSpec allows documentedKernel outerCall
        (dispatchSpec allows documentedKernel outerCall World.start).2).2.eventsOf 1 =
      [.acted 1 false (some 1)] :=
  ((isolated_run (m := fun _ => dispatchSpec allows documentedKernel outerCall) (fun _ _ => rfl)
    (family_isCode.dispatch outerCall outerCall_over)
    (good_run (m := fun _ => dispatchSpec allows documentedKernel outerCall) (fun _ _ => rfl)
      (family_isCode.dispatch outerCall outerCall_over))).2 1 (by decide)).2

end RestFrameworkServices.EdgeRuns
