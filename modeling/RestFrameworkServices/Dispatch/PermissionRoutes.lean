import RestFrameworkServices.Dispatch.EdgeErrors
import RestFrameworkServices.Dispatch.EdgeRuns
import RestFrameworkServices.ServiceSpecs.OfflineContext

/-!
# What a spec's permission classes decide

A permission class answers two questions, one about a request and one about a row, and may raise instead of
answering. They are asked on three routes: DRF's view asks the first before it dispatches and the second once
the row is found; off HTTP `enforce_permissions` asks both, before a dispatch and as the dispatch's guard; and
the kernel asks `DRFPermissionCheck`. What DRF's view and the kernel do with them is theirs (`Drf`,
`Authorization`), and is taken as they document it (`Drf.Lawful`, `Authorization.Lawful`).

`routes_agree` says the three decide alike, and refuse by the same class with its own message and code.
`guard_alone_iff` says what is lost where only the guard is wired, and `acted_permitted` that a dispatch under
the guard acts on nothing its classes did not admit.
-/

namespace RestFrameworkServices.PermissionRoutes

open Lib EdgeRuns
open OfflineContexts (OfflineContext)

variable {M σ R W T U : Type}

/-! ## What is raised -/

/-- What the classes outside the package make of what they are built from, and the `ErrorDetail` an exception of
DRF's is built with, given a message and a code or left to its class's own. -/
structure Denials (M : Type) extends Constructors M where
  codedDetail : Base → Option M → Option String → M

variable {C : Denials M}

/-- What a permission class raises, or what is raised of asking one. -/
inductive Refusal (C : Denials M) where
  | attributeError (text : String)
  | exception (thrown : Thrown C.toConstructors)

/-- DRF's `PermissionDenied(detail, code)`. -/
def permissionDenied (message : Option M) (code : Option String) : EdgeError (Refusal C) :=
  .author (.exception (.raise ⟨.named .permissionDenied, Base.permissionDenied.status, none,
    .message (C.codedDetail .permissionDenied message code)⟩))

/-- DRF's `NotAuthenticated()`. -/
def notAuthenticated : EdgeError (Refusal C) :=
  .author (.exception (.raise ⟨.named .notAuthenticated, Base.notAuthenticated.status, none,
    .message (C.codedDetail .notAuthenticated none none)⟩))

/-- This package's `NotPermitted(message, code)`. -/
def notPermitted (message : Option M) (code : Option String) : EdgeError (Refusal C) :=
  .author (.exception (.raise ⟨.named .notPermitted, Base.notPermitted.status,
    some (C.kernelMessage message),
    .message (C.codedDetail .permissionDenied (some (C.kernelMessage message)) code)⟩))

/-- What `translate_drf_refusals` makes of what is raised in it. -/
def translated : EdgeError (Refusal C) → EdgeError (Refusal C)
  | .author (.exception thrown) => .author (.exception thrown.translateDrfRefusals)
  | error => error

/-! ## The three routes -/

/-- A computation of a permission class, or of asking one. -/
abbrev Asking (C : Denials M) (σ : Type) (α : Type) := Eff σ (EdgeError (Refusal C)) α

/-- A permission class, and what it says of a refusal. -/
structure PermissionClass (C : Denials M) (σ R W T : Type) where
  name : String
  message : Option M
  code : Option String
  hasPermission : Option R → W → Asking C σ Bool
  hasObjectPermission : Option R → W → T → Asking C σ Bool

/-- A class asked, and the call ended with `denied` where it does not admit it. -/
def denyUnless (denied : EdgeError (Refusal C)) (asked : Asking C σ Bool) : Asking C σ Unit := do
  let allowed ← asked
  if allowed = false then Eff.raise denied else pure ()

section
variable (isModel : T → Bool)

/-- A resolved target a row's question is asked about: `isinstance(instance, Model)`. -/
def row? (target : Option T) : Option T := target.filter isModel

/-- `_naming_the_missing_request`: an `AttributeError` of a class that read a request there is none of. -/
def namingTheMissingRequest (p : PermissionClass C σ R W T) (request : Option R)
    (asked : Asking C σ Bool) : Asking C σ Bool := do
  match ← Eff.attempt asked with
  | .ok allowed => pure allowed
  | .error (.author (.attributeError text)) =>
    if request.isNone then
      Eff.raise (.improperlyConfigured (p.name ++ " read an attribute of the request, and the " ++
        "context carries none. Build it with build_offline_context(user=…) and " ++
        "dispatch with its request= and view=, which is what this function's " ++
        "contract assumes; a permission class that ignores the request needs " ++ "neither."))
    else Eff.raise (.author (.attributeError text))
  | .error error => Eff.raise error

/-- `enforce_permissions`, of one class. -/
def enforceClass (context : OfflineContext U (Option R) W) (row : Option T) (p : PermissionClass C σ R W T) :
    Asking C σ Unit := do
  denyUnless (permissionDenied p.message p.code)
    (namingTheMissingRequest p context.request (p.hasPermission context.request context.view))
  match row with
  | none => pure ()
  | some row =>
    denyUnless (permissionDenied p.message p.code)
      (namingTheMissingRequest p context.request
        (p.hasObjectPermission context.request context.view row))

/-- `enforce_permissions`. -/
def enforcePermissions (permissionClasses : Option (List (PermissionClass C σ R W T)))
    (context : OfflineContext U (Option R) W) (target : Option T) : Asking C σ Unit :=
  match permissionClasses with
  | none => pure ()
  | some classes => Eff.inOrder (classes.map (enforceClass context (row? isModel target)))

/-- DRF's `APIView.permission_denied`, of a request with authenticators none of which succeeded or of any
other. -/
def drfPermissionDenied (unauthenticated : Bool) (p : PermissionClass C σ R W T) :
    EdgeError (Refusal C) :=
  if unauthenticated then notAuthenticated else permissionDenied p.message p.code

/-- What DRF's `APIView` asks of its classes, of a request with authenticators none of which succeeded or of any
other: `check_permissions`, and `check_object_permissions`. -/
structure Drf (C : Denials M) (σ R W T : Type) where
  checkPermissions : Bool → List (PermissionClass C σ R W T) → R → W → Asking C σ Unit
  checkObjectPermissions : Bool → List (PermissionClass C σ R W T) → R → W → T → Asking C σ Unit

/-- DRF asks every class in order, and denies by the first that does not admit the request, or the row. -/
structure Drf.Lawful (drf : Drf C σ R W T) : Prop where
  checkPermissions : ∀ unauthenticated classes request view,
    drf.checkPermissions unauthenticated classes request view = Eff.inOrder (classes.map fun p =>
      denyUnless (drfPermissionDenied unauthenticated p) (p.hasPermission (some request) view))
  checkObjectPermissions : ∀ unauthenticated classes request view row,
    drf.checkObjectPermissions unauthenticated classes request view row = Eff.inOrder (classes.map fun p =>
      denyUnless (drfPermissionDenied unauthenticated p) (p.hasObjectPermission (some request) view row))

/-- `check_view_object_permissions`. -/
def checkViewObjectPermissions (drf : Drf C σ R W T) (unauthenticated : Bool)
    (classes : List (PermissionClass C σ R W T)) (request : R) (view : W) (target : Option T) :
    Asking C σ Unit :=
  match row? isModel target with
  | none => pure ()
  | some row => drf.checkObjectPermissions unauthenticated classes request view row

/-- A question asked in `translate_drf_refusals`. -/
def translatingDrfRefusals (asked : Asking C σ Bool) : Asking C σ Bool := do
  match ← Eff.attempt asked with
  | .ok admitted => pure admitted
  | .error error => Eff.raise (translated error)

/-- The kernel's `PermissionCheck`, of one call: its three questions. -/
structure PermissionCheck (C : Denials M) (σ T : Type) where
  hasPermission : Asking C σ Bool
  hasObjectPermission : Option T → Asking C σ Bool
  hasScopePermission : Asking C σ Bool

/-- What the kernel makes of a check, of a call over a set or of one with a target, and what it raises where a
check answers no. -/
structure Authorization (C : Denials M) (σ T : Type) where
  authorize : PermissionCheck C σ T → Bool → Option T → Asking C σ Unit
  refused : EdgeError (Refusal C)

/-- The kernel asks a check about the call, and then about the set it is over, or else about its target. -/
def Authorization.Lawful (kernel : Authorization C σ T) : Prop :=
  ∀ check overSet target, kernel.authorize check overSet target = do
    denyUnless kernel.refused check.hasPermission
    denyUnless kernel.refused
      (if overSet then check.hasScopePermission else check.hasObjectPermission target)

namespace DRFPermissionCheck

/-- A class's answer, refused with its own words (`_deny`). -/
def admitted (p : PermissionClass C σ R W T) (asked : Asking C σ Bool) : Asking C σ Unit :=
  denyUnless (notPermitted p.message p.code) (translatingDrfRefusals asked)

/-- `has_permission`, of the request and view it is asked against. -/
def hasPermission (classes : List (PermissionClass C σ R W T)) (request : R) (view : W) :
    Asking C σ Bool := do
  Eff.inOrder (classes.map fun p => admitted p (p.hasPermission (some request) view))
  pure true

/-- `has_object_permission`. -/
def hasObjectPermission (classes : List (PermissionClass C σ R W T)) (request : R) (view : W)
    (target : Option T) : Asking C σ Bool :=
  match row? isModel target with
  | none => pure true
  | some row => do
    Eff.inOrder (classes.map fun p => admitted p (p.hasObjectPermission (some request) view row))
    pure true

/-- `has_scope_permission`. -/
def hasScopePermission : Asking C σ Bool := pure true

/-- `DRFPermissionCheck`, of the request and view it asks about. -/
def check (classes : List (PermissionClass C σ R W T)) (request : R) (view : W) : PermissionCheck C σ T where
  hasPermission := hasPermission classes request view
  hasObjectPermission := hasObjectPermission isModel classes request view
  hasScopePermission := hasScopePermission

end DRFPermissionCheck

/-- What a view's call asks: DRF's check as the request arrives, and its own once the target is found. -/
def onHttp (drf : Drf C σ R W T) (unauthenticated : Bool) (classes : List (PermissionClass C σ R W T))
    (request : R) (view : W) (target : Option T) : Asking C σ Unit := do
  drf.checkPermissions unauthenticated classes request view
  checkViewObjectPermissions isModel drf unauthenticated classes request view target

/-- What a transport asks off HTTP, by the wiring documented: before the dispatch, and as its guard. -/
def offHttp (classes : List (PermissionClass C σ R W T)) (context : OfflineContext U (Option R) W)
    (target : Option T) : Asking C σ Unit := do
  enforcePermissions isModel (some classes) context none
  enforcePermissions isModel (some classes) context target

/-- What the kernel asks of its check: about the call, and about its one target or the set it is over. -/
def onKernel (kernel : Authorization C σ T) (overSet : Bool) (classes : List (PermissionClass C σ R W T))
    (request : R) (view : W) (target : Option T) : Asking C σ Unit :=
  kernel.authorize (DRFPermissionCheck.check isModel classes request view) overSet target

end

/-! ## What the classes decide -/

/-- Where a call is refused: the class that refused it, which question it was asked, and what it raised, where
it raised. -/
structure Stop (C : Denials M) (σ R W T : Type) where
  permission : PermissionClass C σ R W T
  onRow : Bool
  error : Option (EdgeError (Refusal C))

/-- Whether an answer stops the call. -/
def stopAt (p : PermissionClass C σ R W T) (onRow : Bool) :
    Except (EdgeError (Refusal C)) Bool → Option (Stop C σ R W T)
  | .ok true => none
  | .ok false => some ⟨p, onRow, none⟩
  | .error error => some ⟨p, onRow, some error⟩

/-- What the classes answer, where asking changes nothing and nothing changes the answer. -/
structure Answers (C : Denials M) (σ R W T : Type) where
  onCall : PermissionClass C σ R W T → Except (EdgeError (Refusal C)) Bool
  onRow : PermissionClass C σ R W T → T → Except (EdgeError (Refusal C)) Bool

/-- The classes answer so, of a request and a view. -/
def Answers.Of (answers : Answers C σ R W T) (classes : List (PermissionClass C σ R W T)) (request : R)
    (view : W) : Prop :=
  ∀ p ∈ classes, p.hasPermission (some request) view = Eff.ofExcept (answers.onCall p) ∧
    ∀ row, p.hasObjectPermission (some request) view row = Eff.ofExcept (answers.onRow p row)

section
variable (answers : Answers C σ R W T)

/-- Where a class stops a call, asked about the call and then about its row. -/
def classStop (row : Option T) (p : PermissionClass C σ R W T) : Option (Stop C σ R W T) :=
  (stopAt p false (answers.onCall p)).or (row.bind fun row => stopAt p true (answers.onRow p row))

/-- The first class that stops a call before its row is known. -/
def callStop (classes : List (PermissionClass C σ R W T)) : Option (Stop C σ R W T) :=
  classes.findSome? fun p => stopAt p false (answers.onCall p)

/-- The first class that stops a call for its row. -/
def rowStop (classes : List (PermissionClass C σ R W T)) (row : Option T) : Option (Stop C σ R W T) :=
  classes.findSome? fun p => row.bind fun row => stopAt p true (answers.onRow p row)

/-- What the classes decide of a call: every class is asked about the call before any is about its row. -/
def decision (classes : List (PermissionClass C σ R W T)) (row : Option T) : Option (Stop C σ R W T) :=
  (callStop answers classes).or (rowStop answers classes row)

/-- What they decide where each is asked both questions before the next is asked any. -/
def guardDecision (classes : List (PermissionClass C σ R W T)) (row : Option T) :
    Option (Stop C σ R W T) :=
  classes.findSome? (classStop answers row)

end

/-- A call that is refused raises, and one that is not goes on. -/
def ending (refused : Stop C σ R W T → EdgeError (Refusal C)) :
    Option (Stop C σ R W T) → Asking C σ Unit
  | none => pure ()
  | some stop => Eff.raise (refused stop)

/-- What a refusal off HTTP is. -/
def refusedOffHttp (stop : Stop C σ R W T) : EdgeError (Refusal C) :=
  stop.error.getD (permissionDenied stop.permission.message stop.permission.code)

/-- What a view's refusal is. -/
def refusedOnHttp (unauthenticated : Bool) (stop : Stop C σ R W T) : EdgeError (Refusal C) :=
  stop.error.getD (drfPermissionDenied unauthenticated stop.permission)

/-- What a refusal on the kernel's route is. -/
def refusedOnKernel (stop : Stop C σ R W T) : EdgeError (Refusal C) :=
  (stop.error.map translated).getD (notPermitted stop.permission.message stop.permission.code)

/-! ### How a route ends -/

section
variable {refused : Stop C σ R W T → EdgeError (Refusal C)}

/-- The first of two stops ends the run. -/
theorem ending_bind (stop next : Option (Stop C σ R W T)) :
    (ending refused stop >>= fun _ => ending refused next) = ending refused (stop.or next) := by
  cases stop <;> rfl

/-- Classes asked in turn end where the first that stops the call does. -/
theorem inOrder_ending {ask : PermissionClass C σ R W T → Asking C σ Unit}
    {stop : PermissionClass C σ R W T → Option (Stop C σ R W T)} :
    ∀ {classes : List (PermissionClass C σ R W T)},
      (∀ p ∈ classes, ask p = ending refused (stop p)) →
      Eff.inOrder (classes.map ask) = ending refused (classes.findSome? stop)
  | [], _ => rfl
  | p :: classes, h => by
    have hrest : Eff.inOrder (classes.map ask) = ending refused (classes.findSome? stop) :=
      inOrder_ending fun q hq => h q (List.mem_cons_of_mem p hq)
    have hfirst : Eff.inOrder ((p :: classes).map ask) =
        (ask p >>= fun _ => Eff.inOrder (classes.map ask)) := rfl
    rw [hfirst, h p List.mem_cons_self, hrest, ending_bind, List.findSome?_cons]
    cases stop p <;> rfl

/-- A question asked where a request is there raises what the class does. -/
theorem namingTheMissingRequest_ofExcept (p : PermissionClass C σ R W T) (request : R)
    (answer : Except (EdgeError (Refusal C)) Bool) :
    namingTheMissingRequest p (some request) (Eff.ofExcept answer : Asking C σ Bool) =
      Eff.ofExcept answer := by
  rw [namingTheMissingRequest, Eff.attempt_ofExcept, Eff.ofExcept_ok_bind]
  split <;> rfl

/-- An answer is translated where it refuses. -/
theorem translatingDrfRefusals_ofExcept (answer : Except (EdgeError (Refusal C)) Bool) :
    translatingDrfRefusals (Eff.ofExcept answer : Asking C σ Bool) =
      Eff.ofExcept (answer.mapError translated) := by
  rw [translatingDrfRefusals, Eff.attempt_ofExcept, Eff.ofExcept_ok_bind]
  cases answer <;> rfl

/-- A class's answer, refused in the words of a route. -/
theorem denyUnless_ofExcept {p : PermissionClass C σ R W T} {onRow : Bool} {denied : EdgeError (Refusal C)}
    {answer : Except (EdgeError (Refusal C)) Bool}
    (hraised : ∀ error, refused ⟨p, onRow, some error⟩ = error)
    (hdenied : refused ⟨p, onRow, none⟩ = denied) :
    denyUnless denied (Eff.ofExcept answer : Asking C σ Bool) = ending refused (stopAt p onRow answer) := by
  rw [denyUnless]
  rcases answer with error | _ | _
  · rw [Eff.ofExcept_error_bind, stopAt, ending, hraised]
  · rw [Eff.ofExcept_ok_bind, if_pos rfl, stopAt, ending, hdenied]
  · rfl

end

section
variable {answers : Answers C σ R W T} {classes : List (PermissionClass C σ R W T)} {request : R}
  {view : W} {user : U} {unauthenticated : Bool} {drf : Drf C σ R W T} (isModel : T → Bool)

/-- `enforce_permissions` ends where the first class does that stops the call or its row. -/
theorem enforcePermissions_eq (h : answers.Of classes request view) (target : Option T) :
    enforcePermissions isModel (some classes) ⟨user, some request, view⟩ target =
      ending refusedOffHttp (guardDecision answers classes (row? isModel target)) := by
  refine inOrder_ending fun p hp => ?_
  obtain ⟨hcall, hrow⟩ := h p hp
  have hfirst : denyUnless (permissionDenied p.message p.code) (Eff.ofExcept (answers.onCall p)) =
      ending refusedOffHttp (stopAt p false (answers.onCall p)) := denyUnless_ofExcept (fun _ => rfl) rfl
  cases row? isModel target with
  | none =>
    rw [enforceClass, hcall, namingTheMissingRequest_ofExcept, hfirst]
    exact ending_bind _ none
  | some row =>
    have hsecond : denyUnless (permissionDenied p.message p.code) (Eff.ofExcept (answers.onRow p row)) =
        ending refusedOffHttp (stopAt p true (answers.onRow p row)) := denyUnless_ofExcept (fun _ => rfl) rfl
    rw [enforceClass, hcall, namingTheMissingRequest_ofExcept, hfirst, hrow,
      namingTheMissingRequest_ofExcept, hsecond]
    exact ending_bind _ _

/-- DRF's check of the call ends as the first class to stop it does, over HTTP. -/
theorem checkPermissions_eq (hdrf : drf.Lawful) (h : answers.Of classes request view) :
    drf.checkPermissions unauthenticated classes request view =
      ending (refusedOnHttp unauthenticated) (callStop answers classes) := by
  rw [hdrf.checkPermissions]
  refine inOrder_ending fun p hp => ?_
  rw [(h p hp).1]
  exact denyUnless_ofExcept (fun _ => rfl) rfl

/-- No row, no question of it. -/
theorem rowStop_none : rowStop answers classes none = none :=
  List.findSome?_eq_none_iff.2 fun _ _ => rfl

/-- The view's check of a target ends as the first class to stop on its row does. -/
theorem checkViewObjectPermissions_eq (hdrf : drf.Lawful) (h : answers.Of classes request view)
    (target : Option T) :
    checkViewObjectPermissions isModel drf unauthenticated classes request view target =
      ending (refusedOnHttp unauthenticated) (rowStop answers classes (row? isModel target)) := by
  rw [checkViewObjectPermissions]
  cases row? isModel target with
  | none => rw [rowStop_none, ending]
  | some row =>
    simp only [hdrf.checkObjectPermissions]
    refine inOrder_ending fun p hp => ?_
    rw [(h p hp).2]
    exact denyUnless_ofExcept (fun _ => rfl) rfl

/-- A class asked by the kernel's check ends it where the class stops. -/
theorem admitted_eq (p : PermissionClass C σ R W T) (onRow : Bool)
    (answer : Except (EdgeError (Refusal C)) Bool) :
    DRFPermissionCheck.admitted p (Eff.ofExcept answer) =
      ending refusedOnKernel (stopAt p onRow answer) := by
  rw [DRFPermissionCheck.admitted, translatingDrfRefusals_ofExcept]
  rcases answer with error | _ | _ <;> rfl

/-- The kernel's check of the call ends as the first class to stop it does. -/
theorem hasPermission_eq (h : answers.Of classes request view) :
    DRFPermissionCheck.hasPermission classes request view =
      ending refusedOnKernel (callStop answers classes) >>= fun _ => pure true := by
  have hclasses : Eff.inOrder (classes.map fun p =>
      DRFPermissionCheck.admitted p (p.hasPermission (some request) view)) =
        ending refusedOnKernel (callStop answers classes) :=
    inOrder_ending fun p hp => by
      rw [(h p hp).1]
      exact admitted_eq p false _
  rw [DRFPermissionCheck.hasPermission, hclasses]

/-- So does its check of a target, on the target's row. -/
theorem hasObjectPermission_eq (h : answers.Of classes request view) (target : Option T) :
    DRFPermissionCheck.hasObjectPermission isModel classes request view target =
      ending refusedOnKernel (rowStop answers classes (row? isModel target)) >>= fun _ => pure true := by
  rw [DRFPermissionCheck.hasObjectPermission]
  cases row? isModel target with
  | none =>
    rw [rowStop_none]
    rfl
  | some row =>
    have hclasses : Eff.inOrder (classes.map fun p =>
        DRFPermissionCheck.admitted p (p.hasObjectPermission (some request) view row)) =
          ending refusedOnKernel (rowStop answers classes (some row)) :=
      inOrder_ending fun p hp => by
        rw [(h p hp).2]
        exact admitted_eq p true _
    simp only [hclasses]

/-- A class that admits the call stops it for its row or not at all. -/
theorem guardDecision_of_callStop_none {row : Option T} (h : callStop answers classes = none) :
    guardDecision answers classes row = rowStop answers classes row := by
  rw [callStop, List.findSome?_eq_none_iff] at h
  rw [guardDecision, rowStop]
  induction classes with
  | nil => rfl
  | cons p classes ih =>
    have hrow : classStop answers row p = row.bind fun row => stopAt p true (answers.onRow p row) := by
      rw [classStop, h p List.mem_cons_self, Option.none_or]
    rw [List.findSome?_cons, List.findSome?_cons, hrow, ih fun q hq => h q (List.mem_cons_of_mem p hq)]

/-- The guard with no target asks what is asked before a dispatch. -/
theorem guardDecision_none : guardDecision answers classes none = callStop answers classes := by
  refine congrArg (fun stop => classes.findSome? stop) (funext fun p => ?_)
  rw [classStop]
  cases stopAt p false (answers.onCall p) <;> rfl

/-- Off HTTP, every class is asked about the call before any is about its row. -/
theorem offHttp_eq (h : answers.Of classes request view) (target : Option T) :
    offHttp isModel classes ⟨user, some request, view⟩ target =
      ending refusedOffHttp (decision answers classes (row? isModel target)) := by
  rw [offHttp, enforcePermissions_eq isModel h, enforcePermissions_eq isModel h, decision]
  have hnone : guardDecision answers classes (row? isModel none) = callStop answers classes :=
    guardDecision_none
  rw [hnone]
  rcases hcall : callStop answers classes with _ | stop
  · rw [guardDecision_of_callStop_none hcall]
    rfl
  · rfl

/-- A question that raises or answers yes is not refused a second time. -/
theorem denyUnless_ending {stop : Option (Stop C σ R W T)} {denied : EdgeError (Refusal C)} :
    denyUnless denied (ending refusedOnKernel stop >>= fun _ => pure true : Asking C σ Bool) =
      ending refusedOnKernel stop := by
  cases stop <;> rfl

/-- **The three routes agree.** A view's call, a transport's wired as documented and the kernel's admit a call
together, and are refused by the same class and the same question, each in its own words. Over a set the kernel
asks about no row, whatever the set resolved to. -/
theorem routes_agree (hdrf : drf.Lawful) {kernel : Authorization C σ T} (hkernel : kernel.Lawful)
    (h : answers.Of classes request view) (overSet : Bool) (target : Option T) :
    onHttp isModel drf unauthenticated classes request view target =
        ending (refusedOnHttp unauthenticated) (decision answers classes (row? isModel target)) ∧
      offHttp isModel classes ⟨user, some request, view⟩ target =
        ending refusedOffHttp (decision answers classes (row? isModel target)) ∧
      onKernel isModel kernel overSet classes request view target =
        ending refusedOnKernel
          (decision answers classes (if overSet then none else row? isModel target)) := by
  refine ⟨?_, offHttp_eq isModel h target, ?_⟩
  · rw [onHttp, checkPermissions_eq hdrf h, checkViewObjectPermissions_eq isModel hdrf h, ending_bind,
      decision]
  · have hrow : (if overSet then DRFPermissionCheck.hasScopePermission
        else DRFPermissionCheck.hasObjectPermission isModel classes request view target) =
          (ending refusedOnKernel (rowStop answers classes (if overSet then none else row? isModel target)) >>=
            fun _ => pure true : Asking C σ Bool) := by
      cases overSet with
      | false => exact hasObjectPermission_eq isModel h target
      | true =>
        rw [if_pos rfl, if_pos rfl, rowStop_none]
        rfl
    rw [onKernel, hkernel, DRFPermissionCheck.check, hrow, hasPermission_eq h, denyUnless_ending,
      denyUnless_ending, ending_bind, decision]

/-! ### The guard alone -/

/-- A class stops nothing where it answers yes. -/
theorem stopAt_eq_none_iff {p : PermissionClass C σ R W T} {onRow : Bool}
    {answer : Except (EdgeError (Refusal C)) Bool} : stopAt p onRow answer = none ↔ answer = .ok true := by
  rcases answer with _ | _ | _ <;> simp [stopAt]

/-- A class refuses the row where all before it admit both, and a later one refuses the call. -/
def Overtaken (answers : Answers C σ R W T) (classes : List (PermissionClass C σ R W T))
    (row : Option T) : Prop :=
  ∃ before p after, classes = before ++ p :: after ∧ (∀ q ∈ before, classStop answers row q = none) ∧
    answers.onCall p = .ok true ∧ (∃ r, row = some r ∧ answers.onRow p r ≠ .ok true) ∧
    ∃ q ∈ after, answers.onCall q ≠ .ok true

/-- Only the first class can be overtaken where it stops the call, and only a later one where it does not. -/
theorem overtaken_cons {p : PermissionClass C σ R W T} {row : Option T} :
    Overtaken answers (p :: classes) row ↔
      (answers.onCall p = .ok true ∧ (∃ r, row = some r ∧ answers.onRow p r ≠ .ok true) ∧
        ∃ q ∈ classes, answers.onCall q ≠ .ok true) ∨
      (classStop answers row p = none ∧ Overtaken answers classes row) := by
  constructor
  · rintro ⟨before, p', after, heq, hbefore, hcall, hrow, hafter⟩
    cases before with
    | nil =>
      obtain ⟨rfl, rfl⟩ := List.cons.inj heq
      exact .inl ⟨hcall, hrow, hafter⟩
    | cons first before =>
      obtain ⟨rfl, rfl⟩ := List.cons.inj heq
      exact .inr ⟨hbefore _ List.mem_cons_self, before, p', after, rfl,
        fun q hq => hbefore q (List.mem_cons_of_mem _ hq), hcall, hrow, hafter⟩
  · rintro (⟨hcall, hrow, hafter⟩ | ⟨hfirst, before, p', after, rfl, hbefore, hcall, hrow, hafter⟩)
    · exact ⟨[], p, classes, rfl, nofun, hcall, hrow, hafter⟩
    · refine ⟨p :: before, p', after, rfl, fun q hq => ?_, hcall, hrow, hafter⟩
      rcases List.mem_cons.1 hq with rfl | hq
      · exact hfirst
      · exact hbefore q hq

/-- The guard lets a call through where the whole wiring does. -/
theorem guardDecision_eq_none_iff {row : Option T} :
    guardDecision answers classes row = none ↔ decision answers classes row = none := by
  rw [guardDecision, decision, callStop, rowStop, Option.or_eq_none_iff]
  simp only [List.findSome?_eq_none_iff, classStop, Option.or_eq_none_iff]
  exact forall₂_and

/-- A stop is on the row where the class was asked of it. -/
theorem onRow_of_stopAt {p : PermissionClass C σ R W T} {onRow : Bool}
    {answer : Except (EdgeError (Refusal C)) Bool} {stop : Stop C σ R W T}
    (h : stopAt p onRow answer = some stop) : stop.onRow = onRow := by
  rcases answer with _ | _ | _ <;> cases h <;> rfl

/-- A stop is the class's that was asked. -/
theorem permission_of_stopAt {p : PermissionClass C σ R W T} {onRow : Bool}
    {answer : Except (EdgeError (Refusal C)) Bool} {stop : Stop C σ R W T}
    (h : stopAt p onRow answer = some stop) : stop.permission = p := by
  rcases answer with _ | _ | _ <;> cases h <;> rfl

/-- A class stops the call exactly where some class does not admit it. -/
theorem callStop_eq_none_iff :
    callStop answers classes = none ↔ ¬ ∃ q ∈ classes, answers.onCall q ≠ .ok true := by
  rw [callStop, List.findSome?_eq_none_iff]
  simp only [stopAt_eq_none_iff]
  push Not
  rfl

/-- The guard alone refuses by another class exactly where one is overtaken. -/
theorem guardDecision_ne_iff {row : Option T} :
    guardDecision answers classes row ≠ decision answers classes row ↔
      Overtaken answers classes row := by
  induction classes with
  | nil =>
    refine ⟨fun h => absurd ?_ h, ?_⟩
    · cases row <;> rfl
    · rintro ⟨before, p, after, heq, -⟩
      simp at heq
  | cons p classes ih =>
    rw [overtaken_cons, ← ih]
    have hguard : guardDecision answers (p :: classes) row =
        (classStop answers row p).or (guardDecision answers classes row) := by
      rw [guardDecision, List.findSome?_cons]
      cases classStop answers row p <;> rfl
    have hcalls : callStop answers (p :: classes) =
        (stopAt p false (answers.onCall p)).or (callStop answers classes) := by
      rw [callStop, List.findSome?_cons]
      cases stopAt p false (answers.onCall p) <;> rfl
    have hrows : rowStop answers (p :: classes) row =
        (row.bind fun r => stopAt p true (answers.onRow p r)).or (rowStop answers classes row) := by
      rw [rowStop, List.findSome?_cons]
      cases row.bind fun r => stopAt p true (answers.onRow p r) <;> rfl
    rw [hguard, decision, hcalls, hrows, classStop]
    rcases hcall : stopAt p false (answers.onCall p) with _ | stop
    · rw [Option.none_or, Option.none_or, and_iff_right (stopAt_eq_none_iff.1 hcall)]
      rcases hrow : row.bind fun r => stopAt p true (answers.onRow p r) with _ | stop
      · have hadmits : ¬ ∃ r, row = some r ∧ answers.onRow p r ≠ .ok true := by
          rintro ⟨r, rfl, hne⟩
          exact hne (stopAt_eq_none_iff.1 hrow)
        rw [Option.none_or, Option.none_or, ← decision]
        simp [hadmits]
      · obtain ⟨r, rfl, hstop⟩ := Option.bind_eq_some_iff.1 hrow
        have hrefuses : ∃ r', some r = some r' ∧ answers.onRow p r' ≠ .ok true := by
          refine ⟨r, rfl, fun hok => ?_⟩
          rw [stopAt_eq_none_iff.2 hok] at hstop
          cases hstop
        rw [and_iff_right hrefuses, Option.some_or, Option.some_or]
        rcases hcalls' : callStop answers classes with _ | first
        · simp [callStop_eq_none_iff.1 hcalls']
        · -- a class that refuses the call is not the one that refuses the row
          have hfirst : first.onRow = false := by
            obtain ⟨q, -, hq⟩ := List.exists_of_findSome?_eq_some hcalls'
            exact onRow_of_stopAt hq
          have hne : some stop ≠ some first := by
            rintro heq
            cases heq
            rw [onRow_of_stopAt hstop] at hfirst
            cases hfirst
          have hlater : ∃ q ∈ classes, answers.onCall q ≠ .ok true := by
            by_contra hnone
            rw [callStop_eq_none_iff.2 hnone] at hcalls'
            cases hcalls'
          rw [Option.some_or]
          exact iff_of_true hne (.inl hlater)
    · have hrefuses : answers.onCall p ≠ .ok true := fun hok => by
        rw [stopAt_eq_none_iff.2 hok] at hcall
        cases hcall
      simp [hrefuses]

/-- Of two decisions that name one class, neither overtakes the other. -/
theorem permission_ne_of_overtaken {row : Option T} (h : Overtaken answers classes row) :
    (guardDecision answers classes row).map (·.permission) ≠
      (decision answers classes row).map (·.permission) := by
  obtain ⟨before, p, after, rfl, hbefore, hcall, ⟨r, rfl, hrow⟩, q, hq, hrefuses⟩ := h
  have hguard : ((guardDecision answers (before ++ p :: after) (some r)).map (·.permission)) = some p := by
    have hstop : stopAt p true (answers.onRow p r) ≠ none := fun h => hrow (stopAt_eq_none_iff.1 h)
    obtain ⟨stop, hstop⟩ := Option.ne_none_iff_exists'.1 hstop
    have hnone : before.findSome? (classStop answers (some r)) = none :=
      List.findSome?_eq_none_iff.2 hbefore
    have hp : classStop answers (some r) p = some stop := by
      rw [classStop, stopAt_eq_none_iff.2 hcall, Option.none_or]
      exact hstop
    rw [guardDecision, List.findSome?_append, hnone, Option.none_or, List.findSome?_cons, hp, Option.map_some,
      permission_of_stopAt hstop]
  have hcalls : callStop answers (before ++ p :: after) ≠ none := fun hnone =>
    callStop_eq_none_iff.1 hnone ⟨q, by simp [hq], hrefuses⟩
  obtain ⟨first, hfirst⟩ := Option.ne_none_iff_exists'.1 hcalls
  obtain ⟨p', -, hp'⟩ := List.exists_of_findSome?_eq_some hfirst
  rw [hguard, decision, hfirst, Option.some_or, Option.map_some, permission_of_stopAt hp']
  rintro heq
  obtain rfl := Option.some_inj.1 heq
  rw [stopAt_eq_none_iff.2 hcall] at hp'
  cases hp'

/-- **The guard alone.** Wired as the guard and nowhere else, `enforce_permissions` admits the calls the whole
wiring admits, and refuses one by another class exactly where a class refuses the row that a later one refuses
the call of; any other it ends as the whole wiring does. -/
theorem guard_alone_iff (h : answers.Of classes request view) (target : Option T) :
    enforcePermissions isModel (some classes) ⟨user, some request, view⟩ target =
        ending refusedOffHttp (guardDecision answers classes (row? isModel target)) ∧
      offHttp isModel classes ⟨user, some request, view⟩ target =
        ending refusedOffHttp (decision answers classes (row? isModel target)) ∧
      (guardDecision answers classes (row? isModel target) = none ↔
        decision answers classes (row? isModel target) = none) ∧
      ((guardDecision answers classes (row? isModel target)).map (·.permission) ≠
          (decision answers classes (row? isModel target)).map (·.permission) ↔
        Overtaken answers classes (row? isModel target)) ∧
      (¬ Overtaken answers classes (row? isModel target) →
        enforcePermissions isModel (some classes) ⟨user, some request, view⟩ target =
          offHttp isModel classes ⟨user, some request, view⟩ target) := by
  have halone : enforcePermissions isModel (some classes) ⟨user, some request, view⟩ target =
      ending refusedOffHttp (guardDecision answers classes (row? isModel target)) :=
    enforcePermissions_eq isModel h target
  refine ⟨halone, offHttp_eq isModel h target, guardDecision_eq_none_iff, ⟨fun hne => ?_,
    permission_ne_of_overtaken⟩, fun hnot => ?_⟩
  · exact guardDecision_ne_iff.1 fun heq => hne (by rw [heq])
  · rw [halone, offHttp_eq isModel h target, not_not.1 (mt guardDecision_ne_iff.1 hnot)]

end

/-! ## A dispatch under the guard -/

/-- A question was asked in a state and answered yes, leaving another. -/
def AnsweredYes (asked : Asking C σ Bool) (s s' : σ) : Prop := asked s = (.ok true, s')

/-- A yes given where the missing request is named is the class's own. -/
theorem answeredYes_of_naming {p : PermissionClass C σ R W T} {request : Option R} {asked : Asking C σ Bool}
    {s s' : σ} (h : AnsweredYes (namingTheMissingRequest p request asked) s s') : AnsweredYes asked s s' := by
  obtain ⟨answer, t, hattempt, hanswer⟩ := Eff.bind_eq_ok_iff.1 h
  obtain ⟨hanswered, rfl⟩ : (asked s).1 = answer ∧ (asked s).2 = t := by
    cases hattempt
    exact ⟨rfl, rfl⟩
  have hpair : asked s = (answer, (asked s).2) := by rw [← hanswered]
  rw [AnsweredYes, hpair]
  split at hanswer
  · cases hanswer
    rfl
  · split at hanswer <;> cases hanswer
  · cases hanswer

/-- A call goes on from a class that answered yes. -/
theorem answeredYes_of_denyUnless {denied : EdgeError (Refusal C)} {asked : Asking C σ Bool} {s s' : σ}
    (h : denyUnless denied asked s = (.ok (), s')) : AnsweredYes asked s s' := by
  obtain ⟨allowed, t, hasked, hrest⟩ := Eff.bind_eq_ok_iff.1 h
  rcases allowed with _ | _
  · cases hrest
  · cases hrest
    exact hasked

/-- A class was asked about the call, and then about the row where there is one, and answered yes. -/
def ClassAdmits (context : OfflineContext U (Option R) W) (row : Option T) (p : PermissionClass C σ R W T)
    (s s' : σ) : Prop :=
  ∃ t, AnsweredYes (p.hasPermission context.request context.view) s t ∧
    match row with
    | none => s' = t
    | some row => AnsweredYes (p.hasObjectPermission context.request context.view row) t s'

/-- The classes were asked in turn, each in the state the one before it left, and all answered yes. -/
def ClassesAdmit (context : OfflineContext U (Option R) W) (row : Option T) :
    List (PermissionClass C σ R W T) → σ → σ → Prop
  | [], s, s' => s' = s
  | p :: classes, s, s' => ∃ t, ClassAdmits context row p s t ∧ ClassesAdmit context row classes t s'

/-- What a call is guarded by: the classes of its spec, and the context its dispatch makes of the request and
view it is handed. -/
structure Guarded (C : Denials M) (σ R W T U : Type) where
  permissionClasses : Option (List (PermissionClass C σ R W T))
  context : OfflineContext U (Option R) W

/-- Every class of the spec was asked about the call, and about its target where that is a row, and answered
yes. -/
def Guarded.Admits (isModel : T → Bool) (guarded : Guarded C σ R W T U) (target : Option T) (s s' : σ) : Prop :=
  match guarded.permissionClasses with
  | none => s' = s
  | some classes => ClassesAdmit guarded.context (row? isModel target) classes s s'

/-- What `enforce_permissions` lets through of a class, the class admits. -/
theorem classAdmits_of_enforceClass {context : OfflineContext U (Option R) W} {row : Option T}
    {p : PermissionClass C σ R W T} {s s' : σ} (h : enforceClass context row p s = (.ok (), s')) :
    ClassAdmits context row p s s' := by
  obtain ⟨⟨⟩, t, hcall, hrest⟩ := Eff.bind_eq_ok_iff.1 h
  refine ⟨t, answeredYes_of_naming (answeredYes_of_denyUnless hcall), ?_⟩
  cases row with
  | none =>
    cases hrest
    rfl
  | some row => exact answeredYes_of_naming (answeredYes_of_denyUnless hrest)

/-- `enforce_permissions` lets through what every class admits. -/
theorem admits_of_enforcePermissions {isModel : T → Bool} {guarded : Guarded C σ R W T U} {target : Option T}
    {s s' : σ}
    (h : enforcePermissions isModel guarded.permissionClasses guarded.context target s = (.ok (), s')) :
    guarded.Admits isModel target s s' := by
  obtain ⟨permissionClasses, context⟩ := guarded
  cases permissionClasses with
  | none =>
    cases h
    rfl
  | some classes =>
    rw [Guarded.Admits]
    replace h : Eff.inOrder (classes.map (enforceClass context (row? isModel target))) s = (.ok (), s') := h
    induction classes generalizing s with
    | nil =>
      cases h
      rfl
    | cons p classes ih =>
      obtain ⟨⟨⟩, t, hfirst, hrest⟩ := Eff.bind_eq_ok_iff.1 h
      exact ⟨t, classAdmits_of_enforceClass hfirst, ih hrest⟩

section
variable {V G : Type} (isModel : T → Bool) (guarded : G → Guarded C (World T V G) R W T U)

/-- `on_target_resolved=enforce_permissions`. -/
def enforcing (guard : G) (target : Option T) : Run T V G (Refusal C) Unit :=
  enforcePermissions isModel (guarded guard).permissionClasses (guarded guard).context target

/-- **Nothing is acted on that was not admitted.** Of all a dispatch acts on under the guard, every class of its
spec was asked in that run, in the world that all the call did before its guard left, and answered yes, whatever
the dispatch's own code and the classes' dispatch in between. -/
theorem acted_permitted {kernel : EdgeRuns.Kernel T V G (Refusal C)} (hk : kernel.Ordered)
    {c : EdgeRuns.Call T V G (Refusal C)}
    (hc : c.Over (enforcing isModel guarded) fun {_} m => IsCode (enforcing isModel guarded) kernel m)
    {w : World T V G} (hw : Good w) {target : Option T}
    (hacted : .acted w.states.length true target ∈
      (dispatchSpec (enforcing isModel guarded) kernel c w).2.trace) :
    ∃ guard u u', c.caller.guard = some guard ∧
      c.untilGuard w.states.length edgeCallState w.begin = (.ok (some target), u) ∧
      (guarded guard).Admits isModel target (u.see (.asked w.states.length target)) u' := by
  obtain ⟨guard, u, u', hguard, huntil, hasked⟩ := passed_dispatch hk hc hw hacted
  exact ⟨guard, u, u', hguard, huntil, admits_of_enforcePermissions hasked⟩

/-- The guard of classes that are code is code. -/
theorem isCode_enforcing {kernel : EdgeRuns.Kernel T V G (Refusal C)} {guard : G}
    (h : ∀ classes ∈ (guarded guard).permissionClasses, ∀ p ∈ classes, ∀ request view,
      IsCode (enforcing isModel guarded) kernel (fun _ => p.hasPermission request view) ∧
        ∀ row, IsCode (enforcing isModel guarded) kernel fun _ => p.hasObjectPermission request view row)
    (target : Option T) :
    IsCode (enforcing isModel guarded) kernel fun _ => enforcing isModel guarded guard target := by
  have hdeny : ∀ {denied : EdgeError (Refusal C)} {asked : Run T V G (Refusal C) Bool},
      IsCode (enforcing isModel guarded) kernel (fun _ => asked) →
      IsCode (enforcing isModel guarded) kernel fun _ => denyUnless denied asked := by
    intro denied asked hasked
    refine family_isCode.bind hasked fun allowed => ?_
    cases allowed with
    | false => exact family_isCode.raise denied
    | true => exact family_isCode.answer ()
  have hnaming : ∀ {p : PermissionClass C (World T V G) R W T} {request : Option R}
      {asked : Run T V G (Refusal C) Bool},
      IsCode (enforcing isModel guarded) kernel (fun _ => asked) →
      IsCode (enforcing isModel guarded) kernel fun _ => namingTheMissingRequest p request asked := by
    intro p request asked hasked
    refine family_isCode.bind (family_isCode.attempt hasked) fun answer => ?_
    split
    · exact family_isCode.answer _
    · split <;> exact family_isCode.raise _
    · exact family_isCode.raise _
  have hinOrder : ∀ {ms : List (Run T V G (Refusal C) Unit)},
      (∀ m ∈ ms, IsCode (enforcing isModel guarded) kernel fun _ => m) →
      IsCode (enforcing isModel guarded) kernel fun _ => Eff.inOrder ms := by
    intro ms hms
    induction ms with
    | nil => exact family_isCode.answer ()
    | cons m ms ih =>
      exact family_isCode.bind (hms m List.mem_cons_self) fun _ =>
        ih fun m' hm' => hms m' (List.mem_cons_of_mem m hm')
  unfold enforcing enforcePermissions
  cases hclasses : (guarded guard).permissionClasses with
  | none => exact family_isCode.answer ()
  | some classes =>
    refine hinOrder fun m hm => ?_
    obtain ⟨p, hp, rfl⟩ := List.mem_map.1 hm
    obtain ⟨hcall, hrow⟩ := h classes (by rw [hclasses]; rfl) p hp _ _
    refine family_isCode.bind (hdeny (hnaming hcall)) fun _ => ?_
    cases row? isModel target with
    | none => exact family_isCode.answer ()
    | some row => exact hdeny (hnaming (hrow row))

end

/-! ## A tenant's rows -/

/-- What the classes are built with: DRF's defaults, and the kernel's of a `NotPermitted`. -/
def builtDenials : Denials ErrorDetail where
  toConstructors := builtConstructors
  codedDetail base message code :=
    let default : ErrorDetail := if base = .notAuthenticated
      then ⟨"Authentication credentials were not provided.", "not_authenticated"⟩
      else ⟨"You do not have permission to perform this action.", "permission_denied"⟩
    ⟨(message.map (·.text)).getD default.text, code.getD default.code⟩

/-- A class of which `owned` says what rows it admits. -/
def isOwner (σ : Type) (owned : ℕ → Bool) : PermissionClass builtDenials σ String Unit ℕ where
  name := "IsOwner"
  message := none
  code := none
  hasPermission _ _ := pure true
  hasObjectPermission _ _ row := pure (owned row)

/-- A class that admits no call. -/
def isStaff (σ : Type) : PermissionClass builtDenials σ String Unit ℕ where
  name := "IsStaff"
  message := none
  code := some "staff_only"
  hasPermission _ _ := pure false
  hasObjectPermission _ _ _ := pure true

/-- What they answer. -/
def ownerAnswers (σ : Type) (owned : ℕ → Bool) : Answers builtDenials σ String Unit ℕ where
  onCall p := .ok (p.name == "IsOwner")
  onRow p row := .ok (if p.name = "IsOwner" then owned row else true)

/-- The owner's and the staff's classes answer so. -/
theorem ownerAnswers_of (σ : Type) (owned : ℕ → Bool) :
    (ownerAnswers σ owned).Of [isOwner σ owned, isStaff σ] "GET" () := by
  intro p hp
  rcases List.mem_cons.1 hp with rfl | hp
  · exact ⟨rfl, fun _ => rfl⟩
  · obtain rfl := List.mem_singleton.1 hp
    exact ⟨rfl, fun _ => rfl⟩

/-- DRF's checks, as documented. -/
def documentedDrf (σ : Type) : Drf builtDenials σ String Unit ℕ where
  checkPermissions unauthenticated classes request view := Eff.inOrder (classes.map fun p =>
    denyUnless (drfPermissionDenied unauthenticated p) (p.hasPermission (some request) view))
  checkObjectPermissions unauthenticated classes request view row := Eff.inOrder (classes.map fun p =>
    denyUnless (drfPermissionDenied unauthenticated p) (p.hasObjectPermission (some request) view row))

/-- The kernel's order, as documented. -/
def documentedAuthorization (σ : Type) : Authorization builtDenials σ ℕ where
  authorize check overSet target := do
    denyUnless (notPermitted none none) check.hasPermission
    denyUnless (notPermitted none none)
      (if overSet then check.hasScopePermission else check.hasObjectPermission target)
  refused := notPermitted none none

/-- A row of another's, asked of `[IsOwner, IsStaff]`: the three routes refuse the call for `IsStaff`, and so does
the kernel a call over a set. -/
theorem routes_agree_notOwner :
    onHttp (fun _ => true) (documentedDrf Unit) false [isOwner Unit (· == 7), isStaff Unit] "GET" () (some 3) =
        Eff.raise (permissionDenied none (some "staff_only")) ∧
      offHttp (fun _ => true) [isOwner Unit (· == 7), isStaff Unit] ⟨"bob", some "GET", ()⟩ (some 3) =
        Eff.raise (permissionDenied none (some "staff_only")) ∧
      onKernel (fun _ => true) (documentedAuthorization Unit) true [isOwner Unit (· == 7), isStaff Unit] "GET" ()
          (some 3) =
        Eff.raise (notPermitted none (some "staff_only")) :=
  routes_agree (fun _ => true) ⟨fun _ _ _ _ => rfl, fun _ _ _ _ _ => rfl⟩ (fun _ _ _ => rfl)
    (ownerAnswers_of Unit (· == 7)) true (some 3)

/-- The guard alone refuses it for `IsOwner`. -/
theorem guard_alone_iff_notOwner :
    enforcePermissions (fun _ => true) (some [isOwner Unit (· == 7), isStaff Unit]) ⟨"bob", some "GET", ()⟩
        (some 3) = Eff.raise (permissionDenied none none) ∧
      offHttp (fun _ => true) [isOwner Unit (· == 7), isStaff Unit] ⟨"bob", some "GET", ()⟩ (some 3) =
        Eff.raise (permissionDenied none (some "staff_only")) :=
  have h := guard_alone_iff (fun _ => true) (ownerAnswers_of Unit (· == 7)) (some 3)
  ⟨h.1, h.2.1⟩

/-- A spec whose rows are their owner's. -/
def ownedRows (_ : Unit) : Guarded builtDenials (World ℕ Unit Unit) String Unit ℕ String :=
  ⟨some [isOwner _ (· == 7)], ⟨"bob", some "GET", ()⟩⟩

/-- A call of a selector that finds the row 7, with a precondition of its author's. -/
def rowCall : EdgeRuns.Call ℕ Unit Unit (Refusal builtDenials) :=
  .selector {
    guard := some ()
    binding := .auto
    unknownArguments := .ignore
    poolSeeds := []
    kwargs := none
    reword := fun error _ => pure error
    arguments := .ok .empty
    route := fun arguments _ => .ok (arguments, .empty)
    find := fun _ _ _ => pure (.target 7)
    preconditions := [fun _ _ => pure ()] }

/-- The call of a row is made of code. -/
theorem rowCall_over : rowCall.Over (enforcing (fun _ => true) ownedRows)
    fun {_} m => IsCode (enforcing (fun _ => true) ownedRows) documentedKernel m := by
  refine ⟨⟨fun guard target => isCode_enforcing _ _ ?_ target, nofun, fun error => family_isCode.answer error⟩,
    fun _ _ => family_isCode.answer _, fun asked hasked target => ?_⟩
  · rintro _ ⟨⟩ p hp request view
    obtain rfl := List.mem_singleton.1 hp
    exact ⟨family_isCode.answer true, fun row => family_isCode.answer _⟩
  · obtain rfl := List.mem_singleton.1 hasked
    exact family_isCode.answer ()

/-- Its guard is asked about the row and passes it, and the call acts on it twice. -/
theorem trace_rowCall :
    (dispatchSpec (enforcing (fun _ => true) ownedRows) documentedKernel rowCall World.start).2.trace =
      [.acted 0 true (some 7), .acted 0 true (some 7), .passed 0 (some 7), .asked 0 (some 7)] := rfl

/-- In the world in which the call had found its row, its owner's class was asked about it. -/
theorem acted_permitted_rowCall : ∃ u u', rowCall.untilGuard 0 edgeCallState World.start.begin =
      (.ok (some (some 7)), u) ∧
    (ownedRows ()).Admits (fun _ => true) (some 7) (u.see (.asked 0 (some 7))) u' := by
  obtain ⟨⟨⟩, u, u', -, huntil, hadmits⟩ := acted_permitted (fun _ => true) ownedRows (fun _ _ => rfl)
    rowCall_over good_start (by rw [trace_rowCall]; exact List.mem_cons_self)
  exact ⟨u, u', huntil, hadmits⟩

end RestFrameworkServices.PermissionRoutes
