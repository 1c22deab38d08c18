import RestFrameworkServices.Dispatch.Detail

/-!
# A refusal's way out of a call

An author's callable raises a refusal; `translate_drf_refusals` turns a DRF one into the kernel's
class on the way into the kernel's dispatch, and `edge_errors` restores it on the way out, twins the
kernel's own refusals, and rebuilds a validation error under the request's names
(`wireNamedError`).

The class hierarchy is open: an author derives from any of the classes the code names
(`ExcClass.author`), with a `status_code` of its own. `isinstance` is read off the named bases, so a
class can only be of the kinds its bases are of (`ExcClass.isA`). What the constructors outside the
package make of a detail is a parameter (`Constructors`).

`edgeErrors_translateDrfRefusals` shows the edge answers a translated refusal as it answers the author's, and
`callRefusal_keeps_iff` says exactly which refusals keep their class, status and renamed detail.
-/

namespace RestFrameworkServices

open Lib

universe u

/-! ## Classes -/

/-- The exception classes the code names: DRF's (`apiException` is its root), the kernel's (of which
`dispatchError` and `serviceError` are the roots), and this package's, each of which derives from one
of the kernel's and one of DRF's. -/
inductive Base where
  | apiException
  | notAuthenticated
  | permissionDenied
  | validationError
  | dispatchError
  | kernelInvalidArguments
  | kernelNotPermitted
  | kernelPrincipalUnavailable
  | serviceError
  | serviceValidationError
  | invalidArguments
  | notPermitted
  | principalUnavailable
  | drfNotAuthenticated
  | drfServiceValidationError
deriving DecidableEq, Repr

namespace Base

/-- The named classes a named class is of, itself among them. -/
def ancestors : Base → List Base
  | apiException => [apiException]
  | notAuthenticated => [notAuthenticated, apiException]
  | permissionDenied => [permissionDenied, apiException]
  | validationError => [validationError, apiException]
  | dispatchError => [dispatchError]
  | kernelInvalidArguments => [kernelInvalidArguments, dispatchError]
  | kernelNotPermitted => [kernelNotPermitted, dispatchError]
  | kernelPrincipalUnavailable => [kernelPrincipalUnavailable, dispatchError]
  | serviceError => [serviceError]
  | serviceValidationError => [serviceValidationError, serviceError]
  | invalidArguments =>
    [invalidArguments, kernelInvalidArguments, dispatchError, validationError, apiException]
  | notPermitted =>
    [notPermitted, kernelNotPermitted, dispatchError, permissionDenied, apiException]
  | principalUnavailable =>
    [principalUnavailable, kernelPrincipalUnavailable, dispatchError, permissionDenied,
      apiException]
  | drfNotAuthenticated =>
    [drfNotAuthenticated, kernelNotPermitted, dispatchError, notAuthenticated, apiException]
  | drfServiceValidationError =>
    [drfServiceValidationError, serviceValidationError, serviceError, validationError,
      apiException]

/-- The `status_code` a named class declares or inherits; the kernel's classes have none. -/
def status : Base → Option Nat
  | apiException => some 500
  | notAuthenticated | drfNotAuthenticated => some 401
  | permissionDenied | notPermitted | principalUnavailable => some 403
  | validationError | invalidArguments | drfServiceValidationError => some 400
  | dispatchError | kernelInvalidArguments | kernelNotPermitted | kernelPrincipalUnavailable
  | serviceError | serviceValidationError => none

end Base

/-- A class of exception: a named one, or one an author derives from named ones, directly or through
the author's own. -/
inductive ExcClass where
  | named (b : Base)
  | author (name : String) (bases : List Base)
deriving DecidableEq, Repr

namespace ExcClass

/-- The named classes a class derives from. -/
def bases : ExcClass → List Base
  | named b => [b]
  | author _ bs => bs

/-- `issubclass(c, b)`. -/
def isA (c : ExcClass) (b : Base) : Bool := c.bases.any fun a => b ∈ a.ancestors

/-- A class of one kind is of the kinds that kind is of. -/
theorem isA_of {c : ExcClass} {b d : Base} (h : ∀ a : Base, b ∈ a.ancestors → d ∈ a.ancestors)
    (hc : c.isA b = true) : c.isA d = true := by
  simp only [isA, List.any_eq_true, decide_eq_true_eq] at hc ⊢
  obtain ⟨a, ha, hb⟩ := hc
  exact ⟨a, ha, h a hb⟩

/-- The package's `InvalidArguments` are the kernel's. -/
theorem isA_kernelInvalidArguments {c : ExcClass} (h : c.isA .invalidArguments = true) :
    c.isA .kernelInvalidArguments = true :=
  isA_of (fun a => by cases a <;> decide) h

end ExcClass

/-! ## Exceptions -/

variable {M : Type u}

/-- The message of a detail that is no more than one. -/
def Detail.message? : Detail M → Option M
  | .message m => some m
  | .mapping _ | .rows _ => none

/-- An exception instance: `status` is what `exc.status_code` reads, on the instance first and on the
class then, and `message` a kernel class's. -/
structure Exc (M : Type u) where
  cls : ExcClass
  status : Option Nat
  message : Option M
  detail : Detail M

namespace Exc

/-- `isinstance(exc, b)`. -/
def isA (e : Exc M) (b : Base) : Bool := e.cls.isA b

/-- `isinstance(exc, DispatchError | ServiceError)`: a refusal that is the kernel's already. -/
def isKernel (e : Exc M) : Bool := e.isA .dispatchError || e.isA .serviceError

/-- `_message`: a denial's message, where its detail is one. -/
def detailMessage (e : Exc M) : Option M := e.detail.message?

end Exc

/-- What the classes outside the package make of what they are built from: the `detail` of DRF's
`ValidationError`, of the kernel's `ServiceValidationError` and of its `InvalidArguments`, the
`ErrorDetail` of DRF's `PermissionDenied`, the `message` of a kernel class given one or none, and
`str(NotAuthenticated.default_detail)`. -/
structure Constructors (M : Type u) where
  drfDetail : Detail M → Detail M
  kernelDetail : Detail M → Detail M
  argumentsDetail : Detail M → Detail M
  errorDetail : M → M
  kernelMessage : Option M → M
  notAuthenticatedText : M

namespace Constructors

variable (C : Constructors M)

/-- `_kernel_twin`, over `_built`: the kernel's class a DRF refusal leaves as, with the refusal's
own detail and status, or nothing to leave it as raised. -/
def kernelTwin (e : Exc M) : Option (Exc M) :=
  if e.isKernel then none
  else if e.isA .notAuthenticated then
    some ⟨.named .drfNotAuthenticated, e.status,
      some (C.kernelMessage (some (e.detailMessage.getD C.notAuthenticatedText))), e.detail⟩
  else if e.isA .permissionDenied then
    some ⟨.named .notPermitted, e.status, some (C.kernelMessage e.detailMessage), e.detail⟩
  else if e.isA .validationError then
    some ⟨.named .drfServiceValidationError, e.status, some (C.kernelMessage e.detailMessage),
      e.detail⟩
  else none

/-- `_drf_twin`: the dual-base class a kernel refusal leaves as, or nothing to leave it as
raised. -/
def drfTwin (e : Exc M) : Option (Exc M) :=
  if e.isA .apiException then none
  else if e.isA .kernelInvalidArguments then
    some ⟨.named .invalidArguments, Base.invalidArguments.status, e.message,
      C.drfDetail (C.argumentsDetail e.detail)⟩
  else if e.isA .kernelNotPermitted then
    let message := C.kernelMessage e.message
    some ⟨.named .notPermitted, Base.notPermitted.status, some message,
      .message (C.errorDetail message)⟩
  else if e.isA .kernelPrincipalUnavailable then
    let message := C.kernelMessage e.message
    some ⟨.named .principalUnavailable, Base.principalUnavailable.status, some message,
      .message (C.errorDetail message)⟩
  else none

/-- A twin is one of the three dual classes. -/
theorem kernelTwin_cls {e twin : Exc M} (h : C.kernelTwin e = some twin) :
    twin.cls = .named .drfNotAuthenticated ∨ twin.cls = .named .notPermitted ∨
      twin.cls = .named .drfServiceValidationError := by
  unfold kernelTwin at h
  split at h
  · cases h
  split at h
  · cases h
    exact .inl rfl
  split at h
  · cases h
    exact .inr (.inl rfl)
  split at h
  · cases h
    exact .inr (.inr rfl)
  · cases h

/-- A twin is DRF's exception. -/
theorem kernelTwin_isA {e twin : Exc M} (h : C.kernelTwin e = some twin) :
    twin.isA .apiException = true := by
  rcases C.kernelTwin_cls h with h | h | h <;> rw [Exc.isA, h] <;> rfl

/-- A twin is the kernel's exception. -/
theorem kernelTwin_isKernel {e twin : Exc M} (h : C.kernelTwin e = some twin) :
    twin.isKernel = true := by
  rcases C.kernelTwin_cls h with h | h | h <;> rw [Exc.isKernel, Exc.isA, Exc.isA, h] <;> rfl

/-- A twin is the kernel's already, so it has no twin of its own. -/
theorem kernelTwin_twin {e twin : Exc M} (h : C.kernelTwin e = some twin) :
    C.kernelTwin twin = none := by
  rw [kernelTwin, if_pos (C.kernelTwin_isKernel h)]

/-- Only a refusal that is not the kernel's has a twin. -/
theorem not_isKernel_of_kernelTwin {e twin : Exc M} (h : C.kernelTwin e = some twin) :
    e.isKernel = false := by
  unfold kernelTwin at h
  split at h
  · cases h
  · next hk => simpa using hk

end Constructors

/-- A raised exception, with the one it was translated from (`TRANSLATED_FROM`) where it carries one:
only `_kernel_twin` sets it, so the exception is its twin. -/
structure Thrown (C : Constructors M) where
  exc : Exc M
  translatedFrom : Option (Exc M)
  built : ∀ e, translatedFrom = some e → C.kernelTwin e = some exc

namespace Thrown

variable {C : Constructors M}

/-- An exception as its author raises it. -/
def raise (e : Exc M) : Thrown C := ⟨e, none, nofun⟩

/-- `translate_drf_refusals`: a DRF refusal raised inside the block leaves as its twin. -/
def translateDrfRefusals (t : Thrown C) : Thrown C :=
  if t.exc.isA .apiException then
    match h : C.kernelTwin t.exc with
    | some twin => ⟨twin, some t.exc, fun _ he => by cases he; exact h⟩
    | none => t
  else t

/-- The inner block of `edge_errors`: a translated refusal is the author's exception again. -/
def restore (t : Thrown C) : Exc M :=
  if t.exc.isA .apiException then t.translatedFrom.getD t.exc else t.exc

/-- The edge restores what a block translated, and what it restores without the block. -/
theorem restore_translateDrfRefusals (t : Thrown C) :
    t.translateDrfRefusals.restore = t.restore := by
  unfold translateDrfRefusals
  split
  · next hapi =>
    split
    · next twin htwin =>
      have hnone : t.translatedFrom = none := by
        cases hfrom : t.translatedFrom with
        | none => rfl
        | some e =>
          -- a twin has no twin
          rw [C.kernelTwin_twin (t.built e hfrom)] at htwin
          cases htwin
      rw [restore, restore, if_pos (C.kernelTwin_isA htwin), if_pos hapi, hnone]
      rfl
    · rfl
  · rfl

end Thrown

/-! ## The edge -/

/-- How an exception leaves `edge_errors`: as a refusal of the arguments, which the arm of
`InvalidArguments` reshapes, or as the exception raised. -/
inductive EdgeExit (M : Type u) where
  | arguments (e : Exc M)
  | raised (e : Exc M)

/-- `wire_named_error`: the refusal rebuilt under the request's names. -/
def wireNamedError (C : Constructors M) (names : WireNames) (e : Exc M) : Exc M :=
  let detail := wireNamedDetail names e.detail
  if e.isA .serviceValidationError then
    ⟨.named .serviceValidationError, Base.serviceValidationError.status,
      some (C.kernelMessage detail.message?), C.kernelDetail detail⟩
  else ⟨.named .validationError, Base.validationError.status, none, C.drfDetail detail⟩

/-- `translate_dispatch_errors`: a kernel refusal leaves as its dual-base twin. -/
def translateDispatchErrors (C : Constructors M) (e : Exc M) : Exc M :=
  if e.isA .dispatchError then (C.drfTwin e).getD e else e

/-- `edge_errors`, over the wire names of the spec's input serializer where it has one. -/
def edgeErrors {C : Constructors M} (names : Option WireNames) (t : Thrown C) : EdgeExit M :=
  let e := translateDispatchErrors C t.restore
  if e.isA .invalidArguments then .arguments e
  else if e.isA .serviceValidationError || e.isA .validationError then
    match names with
    | none => .raised e
    | some names => .raised (wireNamedError C names e)
  else .raised e

/-- The way out of a call for what an author's callable raises: the compile runs the callable in
`translate_drf_refusals`, and the edge around the dispatch of the compiled spec. -/
def callRefusal {C : Constructors M} (names : Option WireNames) (t : Thrown C) : EdgeExit M :=
  edgeErrors names t.translateDrfRefusals

/-- **The edge answers a refusal the compile translated as it answers the author's own.** -/
theorem edgeErrors_translateDrfRefusals {C : Constructors M} (names : Option WireNames)
    (t : Thrown C) : edgeErrors names t.translateDrfRefusals = edgeErrors names t := by
  simp only [edgeErrors, Thrown.restore_translateDrfRefusals]

/-- A kernel refusal that is not of the arguments leaves as itself, or as a dual class of a denial,
which it is not itself. -/
theorem translateDispatchErrors_cases {C : Constructors M} {e : Exc M}
    (hargs : e.isA .kernelInvalidArguments = false) :
    translateDispatchErrors C e = e ∨
      (e.isA .apiException = false ∧
        ((translateDispatchErrors C e).cls = .named .notPermitted ∨
          (translateDispatchErrors C e).cls = .named .principalUnavailable)) := by
  unfold translateDispatchErrors
  split
  · unfold Constructors.drfTwin
    split
    · exact .inl rfl
    next hapi =>
    rw [if_neg (by simp [hargs])]
    split
    · exact .inr ⟨by simpa using hapi, .inl rfl⟩
    split
    · exact .inr ⟨by simpa using hapi, .inr rfl⟩
    · exact .inl rfl
  · exact .inl rfl

/-! ## Which refusals keep what they were -/

/-- What a refusal keeps on its way out: its class, its status, and its detail as the request
named it. -/
structure Keeps (names : WireNames) (e left : Exc M) : Prop where
  cls : left.cls = e.cls
  status : left.status = e.status
  detail : left.detail = wireNamedDetail names e.detail

/-- A refusal of exactly a class `wireNamedError` builds, with that class's status, whose renamed
detail the constructor keeps. -/
def Rebuilt (C : Constructors M) (names : WireNames) (e : Exc M) : Prop :=
  (e.cls = .named .serviceValidationError ∧ e.status = Base.serviceValidationError.status ∧
      C.kernelDetail (wireNamedDetail names e.detail) = wireNamedDetail names e.detail) ∨
    (e.cls = .named .validationError ∧ e.status = Base.validationError.status ∧
      C.drfDetail (wireNamedDetail names e.detail) = wireNamedDetail names e.detail)

/-- The rebuilt refusal keeps what it was exactly when it was of a class the rebuild makes. -/
theorem wireNamedError_keeps_iff {C : Constructors M} {names : WireNames} {e : Exc M} :
    Keeps names e (wireNamedError C names e) ↔ Rebuilt C names e := by
  unfold wireNamedError Rebuilt
  split
  · next hs =>
    constructor
    · rintro ⟨hc, hst, hd⟩
      exact .inl ⟨hc.symm, hst.symm, hd⟩
    · rintro (⟨hc, hst, hd⟩ | ⟨hc, -, -⟩)
      · exact ⟨hc.symm, hst.symm, hd⟩
      · rw [Exc.isA, hc] at hs
        cases hs
  · next hs =>
    constructor
    · rintro ⟨hc, hst, hd⟩
      exact .inr ⟨hc.symm, hst.symm, hd⟩
    · rintro (⟨hc, -, -⟩ | ⟨hc, hst, hd⟩)
      · rw [Exc.isA, hc] at hs
        exact absurd rfl hs
      · exact ⟨hc.symm, hst.symm, hd⟩

/-- A restored DRF refusal leaves as no class of the kernel's. -/
theorem edgeErrors_not_isKernel {C : Constructors M} {names : WireNames} {t : Thrown C}
    {left : Exc M} (hrestore : t.restore.isKernel = false)
    (hleft : edgeErrors (some names) t = .raised left) : left.isKernel = false := by
  have hparts : t.restore.isA .dispatchError = false ∧ t.restore.isA .serviceError = false := by
    simpa [Exc.isKernel] using hrestore
  have htrans : translateDispatchErrors C t.restore = t.restore := by
    rw [translateDispatchErrors, if_neg (by simp [hparts.1])]
  have hserv : t.restore.isA .serviceValidationError = false := by
    rw [Bool.eq_false_iff]
    intro hs
    have := t.restore.cls.isA_of (b := .serviceValidationError) (d := .serviceError)
      (fun a => by cases a <;> decide) hs
    rw [← Exc.isA, hparts.2] at this
    cases this
  simp only [edgeErrors, htrans, wireNamedError, hserv, Bool.false_or] at hleft
  split at hleft
  · cases hleft
  split at hleft
  · cases hleft
    rfl
  · cases hleft
    exact hrestore

/-- **Exactly the refusals of the two classes the rebuild makes keep their class, status and
renamed detail through a call.** -/
theorem callRefusal_keeps_iff (C : Constructors M) (names : WireNames) (t : Thrown C)
    (hvalid : t.exc.isA .serviceValidationError = true ∨ t.exc.isA .validationError = true)
    (hargs : t.exc.isA .kernelInvalidArguments = false) :
    (∃ left, callRefusal (some names) t = .raised left ∧ Keeps names t.exc left) ↔
      Rebuilt C names t.exc := by
  rw [callRefusal, edgeErrors_translateDrfRefusals]
  cases hfrom : t.translatedFrom with
  | some e =>
    -- a twin an inner block built: the edge restores what it was built from, which is not the
    -- kernel's, and the twin is
    have hbuilt := t.built e hfrom
    have hrestore : t.restore = e := by
      rw [Thrown.restore, if_pos (C.kernelTwin_isA hbuilt), hfrom]
      rfl
    constructor
    · rintro ⟨left, hleft, hkeeps⟩
      have hl := edgeErrors_not_isKernel
        (by rw [hrestore]; exact C.not_isKernel_of_kernelTwin hbuilt) hleft
      have ht := C.kernelTwin_isKernel hbuilt
      rw [Exc.isKernel, Exc.isA, Exc.isA, hkeeps.cls] at hl
      rw [Exc.isKernel, Exc.isA, Exc.isA, hl] at ht
      cases ht
    · intro hre
      rcases C.kernelTwin_cls hbuilt with h | h | h <;>
        rcases hre with ⟨hc, -⟩ | ⟨hc, -⟩ <;> rw [h] at hc <;> cases hc
  | none =>
    have hrestore : t.restore = t.exc := by
      rw [Thrown.restore, hfrom]
      exact ite_self _
    have hinv : t.exc.isA .invalidArguments = false := by
      rw [Bool.eq_false_iff]
      intro h
      have := ExcClass.isA_kernelInvalidArguments h
      rw [← Exc.isA, hargs] at this
      cases this
    have hor : (t.exc.isA .serviceValidationError || t.exc.isA .validationError) = true := by
      simpa using hvalid
    rcases translateDispatchErrors_cases (C := C) hargs with htrans | ⟨hapi, htrans⟩
    · have hedge : edgeErrors (some names) t = .raised (wireNamedError C names t.exc) := by
        simp [edgeErrors, hrestore, htrans, hinv, hor]
      rw [hedge, ← wireNamedError_keeps_iff]
      constructor
      · rintro ⟨left, hleft, hkeeps⟩
        cases hleft
        exact hkeeps
      · exact fun hkeeps => ⟨_, rfl, hkeeps⟩
    · -- a kernel denial that is a validation error too leaves as a dual class, DRF's exception
      have hdenied : edgeErrors (some names) t =
          .raised (translateDispatchErrors C t.exc) := by
        have hnot : ∀ b : Base, b ∈ ([.invalidArguments, .serviceValidationError,
            .validationError] : List Base) →
            (translateDispatchErrors C t.exc).isA b = false := by
          intro b hb
          rw [Exc.isA]
          rcases htrans with h | h <;> rw [h] <;> revert b <;> decide
        simp [edgeErrors, hrestore, hnot]
      rw [hdenied]
      constructor
      · rintro ⟨left, hleft, hkeeps⟩
        cases hleft
        have hc := hkeeps.cls
        rw [Exc.isA, ← hc] at hapi
        rcases htrans with h | h <;> rw [h] at hapi <;> cases hapi
      · rintro (⟨hc, -, -⟩ | ⟨hc, -, -⟩)
        · rw [translateDispatchErrors, Exc.isA, hc] at htrans
          rcases htrans with h | h <;> rw [if_neg (by decide), hc] at h <;> cases h
        · rw [Exc.isA, hc] at hapi
          cases hapi

/-! ### A refusal that keeps what it was, and one that does not -/

/-- DRF's `ErrorDetail`, a message with its code. -/
structure ErrorDetail where
  text : String
  code : String
deriving DecidableEq, Repr

/-- Constructors on details that DRF has built: only a lone message changes, into a list of one. -/
def builtConstructors : Constructors ErrorDetail where
  drfDetail
    | .message m => .rows [.message m]
    | d => d
  kernelDetail := id
  argumentsDetail := id
  errorDetail := id
  kernelMessage := fun m => m.getD ⟨"Validation failed.", "invalid"⟩
  notAuthenticatedText := ⟨"Authentication credentials were not provided.", "not_authenticated"⟩

/-- The detail of `ValidationError({"title": ["Locked."]})`. -/
def lockedDetail : Detail ErrorDetail :=
  .mapping [(.name "title", .rows [.message ⟨"Locked.", "invalid"⟩])]

/-- DRF's own class leaves as itself, under the request's names. -/
theorem callRefusal_keeps_validationError :
    ∃ left, callRefusal (some headlineNames)
        (.raise (C := builtConstructors) ⟨.named .validationError, some 400, none, lockedDetail⟩) =
          .raised left ∧
      Keeps headlineNames ⟨.named .validationError, some 400, none, lockedDetail⟩ left :=
  (callRefusal_keeps_iff builtConstructors headlineNames
    (.raise ⟨.named .validationError, some 400, none, lockedDetail⟩) (.inr rfl) rfl).2
    (.inr ⟨rfl, rfl, rfl⟩)

/-- A subclass `_Locked(ValidationError)` with `status_code = 423`. -/
def lockedRefusal : Exc ErrorDetail :=
  ⟨.author "_Locked" [.validationError], some 423, none, lockedDetail⟩

/-- An author's `_Locked(ValidationError)` with `status_code = 423` leaves as DRF's own class,
with 400. -/
theorem callRefusal_loses_locked :
    ¬ ∀ (C : Constructors ErrorDetail) (names : WireNames) (t : Thrown C),
      t.exc.isA .serviceValidationError = true ∨ t.exc.isA .validationError = true →
      t.exc.isA .kernelInvalidArguments = false →
      ∃ left, callRefusal (some names) t = .raised left ∧ Keeps names t.exc left := by
  intro h
  obtain ⟨left, hleft, hkeeps⟩ :=
    h builtConstructors headlineNames (.raise lockedRefusal) (.inr rfl) rfl
  have hcls : left.cls = .named .validationError := by
    have : callRefusal (C := builtConstructors) (some headlineNames) (.raise lockedRefusal) =
        .raised (wireNamedError builtConstructors headlineNames lockedRefusal) := rfl
    rw [this] at hleft
    cases hleft
    rfl
  rw [hkeeps.cls] at hcls
  cases hcls

end RestFrameworkServices
