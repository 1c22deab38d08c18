import RestFrameworkServices.Dispatch.EdgeErrors
import RestFrameworkServices.Lib.Exceptions

/-!
# An exception through the blocks of a call

One call wraps an author's callable in blocks: `translate_drf_refusals` around the callable,
`edge_errors` around the dispatch, and both again around every kernel call or dispatch the callable
makes. Here the exception in flight is an object with a `__context__` and a `__cause__`
(`Lib.Exceptions`), so that a block that lets an exception through, raises its twin from it or
raises it back are three different things. A chain is the list of the blocks an exception leaves,
innermost first (`Block.runAll`).

`Marked` is what every block keeps: an exception carries `TRANSLATED_FROM` only as the twin of an
exception that carries none. `edgeErrors_runAll` says what leaves the outermost edge.
-/

namespace RestFrameworkServices

open Lib

universe u

variable {M : Type u}

/-- What an exception object carries: the exception, and the object under `TRANSLATED_FROM` where
`_kernel_twin` set it. -/
structure Carried (M : Type u) where
  exc : Exc M
  translatedFrom : Option ExceptionRef

/-- An exception on its way out of a block, among the objects there are. -/
structure Flight (M : Type u) where
  store : Exceptions (Carried M)
  ref : ExceptionRef

/-- An edge: the wire names of its spec's input serializer, where it has one, and what its arm of
`InvalidArguments` raises in place of one, where it reshapes it. -/
structure Edge (M : Type u) where
  names : Option WireNames
  reshape : Exc M → Option (Exc M)

namespace Flight

/-- The exception object in flight. -/
def object (f : Flight M) : Option (ExceptionObject (Carried M)) := f.store.find? f.ref

/-- The exception the author's callable raised: the one in flight, or the one it was translated
from. -/
def origin (f : Flight M) : ExceptionRef :=
  ((f.object.bind (·.payload.translatedFrom))).getD f.ref

/-- `raise c from exc`, in the arm that handles `exc`. -/
def raiseFrom (f : Flight M) (c : Carried M) : Flight M :=
  ⟨f.store.raiseNew f.ref c, f.store.next⟩

/-- An arm that raises another exception from the handled one, or raises that one again. -/
def replacing (f : Flight M) (new : Carried M → Option (Carried M)) : Flight M :=
  match f.object with
  | none => f
  | some o =>
    match new o.payload with
    | none => f
    | some c => f.raiseFrom c

/-- `translate_drf_refusals`: a DRF refusal leaves as its twin, which carries it. -/
def translateDrfRefusals (C : Constructors M) (f : Flight M) : Flight M :=
  f.replacing fun c =>
    if c.exc.isA .apiException then
      (C.kernelTwin c.exc).map fun twin => ⟨twin, some f.ref⟩
    else none

/-- `translate_dispatch_errors`: a kernel refusal leaves as its dual-base twin. -/
def translateDispatchErrors (C : Constructors M) (f : Flight M) : Flight M :=
  f.replacing fun c =>
    if c.exc.isA .dispatchError then (C.drfTwin c.exc).map fun twin => ⟨twin, none⟩ else none

/-- The inner block of `edge_errors`: a translated refusal is raised back, and the context it was
raised in put back. -/
def restore (f : Flight M) : Flight M :=
  match f.object with
  | none => f
  | some o =>
    if o.payload.exc.isA .apiException then
      match o.payload.translatedFrom with
      | none => f
      | some raised => ⟨f.store.raiseBack f.ref raised, raised⟩
    else f

/-- The arms of `edge_errors`. -/
def answered (C : Constructors M) (edge : Edge M) (f : Flight M) : Flight M :=
  f.replacing fun c =>
    if c.exc.isA .invalidArguments then (edge.reshape c.exc).map fun e => ⟨e, none⟩
    else if c.exc.isA .serviceValidationError || c.exc.isA .validationError then
      edge.names.map fun names => ⟨wireNamedError C names c.exc, none⟩
    else none

/-- `edge_errors`. -/
def edgeErrors (C : Constructors M) (edge : Edge M) (f : Flight M) : Flight M :=
  (f.restore.translateDispatchErrors C).answered C edge

end Flight

/-- A block an exception leaves. -/
inductive Block (M : Type u) where
  | translateDrfRefusals
  | translateDispatchErrors
  | edgeErrors (edge : Edge M)

namespace Block

/-- What a block makes of the exception that leaves it. -/
def run (C : Constructors M) : Block M → Flight M → Flight M
  | translateDrfRefusals, f => f.translateDrfRefusals C
  | translateDispatchErrors, f => f.translateDispatchErrors C
  | edgeErrors edge, f => f.edgeErrors C edge

/-- The blocks of a chain, innermost first. -/
def runAll (C : Constructors M) : List (Block M) → Flight M → Flight M
  | [], f => f
  | b :: chain, f => runAll C chain (b.run C f)

/-- The edges of a chain satisfy a predicate. -/
def Edges (p : Edge M → Prop) : Block M → Prop
  | translateDrfRefusals | translateDispatchErrors => True
  | edgeErrors edge => p edge

end Block

/-! ## What every block keeps -/

/-- An exception carries `TRANSLATED_FROM` only as the twin of an exception that carries none, and
the exception in flight is an object there is. -/
structure Marked (C : Constructors M) (f : Flight M) : Prop where
  closed : f.store.Closed
  present : ∃ o, f.object = some o
  twin : ∀ r o s, f.store.find? r = some o → o.payload.translatedFrom = some s →
    ∃ os, f.store.find? s = some os ∧ C.kernelTwin os.payload.exc = some o.payload.exc ∧
      os.payload.translatedFrom = none

namespace Flight

variable {C : Constructors M} {f : Flight M}

/-- An arm that raises the handled exception again changes nothing. -/
theorem replacing_of_none {o : ExceptionObject (Carried M)}
    {new : Carried M → Option (Carried M)} (ho : f.object = some o) (hn : new o.payload = none) :
    f.replacing new = f := by
  simp only [replacing, ho, hn]

/-- An arm that raises another exception raises it from the handled one. -/
theorem replacing_of_some {o : ExceptionObject (Carried M)} {c : Carried M}
    {new : Carried M → Option (Carried M)} (ho : f.object = some o)
    (hn : new o.payload = some c) : f.replacing new = f.raiseFrom c := by
  simp only [replacing, ho, hn]

/-- An exception that is not translated is its own origin. -/
theorem origin_of_none {o : ExceptionObject (Carried M)} (ho : f.object = some o)
    (hn : o.payload.translatedFrom = none) : f.origin = f.ref := by
  simp only [origin, ho, Option.bind_some, hn, Option.getD_none]

/-- A translated exception's origin is the one it was translated from. -/
theorem origin_of_some {o : ExceptionObject (Carried M)} {s : ExceptionRef}
    (ho : f.object = some o) (hs : o.payload.translatedFrom = some s) : f.origin = s := by
  simp only [origin, ho, Option.bind_some, hs, Option.getD_some]

end Flight

namespace Marked

variable {C : Constructors M} {f : Flight M}

/-- The exception in flight was made before the next one. -/
theorem lt_next (hf : Marked C f) : f.ref < f.store.next := by
  obtain ⟨o, ho⟩ := hf.present
  exact Exceptions.lt_next ho

/-- The object a new exception is raised as. -/
theorem object_raiseFrom (hf : Marked C f) (c : Carried M) :
    (f.raiseFrom c).object = some ⟨c, some f.ref, some f.ref⟩ :=
  Exceptions.find?_raiseNew_next hf.closed hf.lt_next c

/-- The objects there were, after a new exception is raised. -/
theorem find?_raiseFrom (hf : Marked C f) (c : Carried M) {r : ExceptionRef}
    (hr : r < f.store.next) : (f.raiseFrom c).store.find? r = f.store.find? r :=
  Exceptions.find?_raiseNew hf.closed hf.lt_next c hr

/-- The objects there are, after a new exception is raised. -/
theorem find?_raiseFrom_cases (hf : Marked C f) {c : Carried M} {r : ExceptionRef}
    {o : ExceptionObject (Carried M)} (ho : (f.raiseFrom c).store.find? r = some o) :
    (r < f.store.next ∧ f.store.find? r = some o) ∨ (r = f.store.next ∧ o.payload = c) := by
  have hlt := Exceptions.lt_next ho
  rw [Flight.raiseFrom, Exceptions.next_raiseNew hf.closed hf.lt_next] at hlt
  rcases Nat.lt_succ_iff_lt_or_eq.1 hlt with hr | rfl
  · rw [hf.find?_raiseFrom c hr] at ho
    exact .inl ⟨hr, ho⟩
  · have := hf.object_raiseFrom c
    rw [Flight.object, Flight.raiseFrom] at this
    rw [Flight.raiseFrom, this] at ho
    cases ho
    exact .inr ⟨rfl, rfl⟩

/-- A new exception that is not translated, or is the twin of one that is not. -/
theorem raiseFrom (hf : Marked C f) {c : Carried M}
    (hc : ∀ s, c.translatedFrom = some s → ∃ os, f.store.find? s = some os ∧
      C.kernelTwin os.payload.exc = some c.exc ∧ os.payload.translatedFrom = none) :
    Marked C (f.raiseFrom c) := by
  refine ⟨hf.closed.raiseNew hf.lt_next c, ⟨_, hf.object_raiseFrom c⟩, fun r o s ho hs => ?_⟩
  have hold : ∃ os, f.store.find? s = some os ∧ C.kernelTwin os.payload.exc = some o.payload.exc ∧
      os.payload.translatedFrom = none := by
    rcases hf.find?_raiseFrom_cases ho with ⟨-, ho⟩ | ⟨-, hpay⟩
    · exact hf.twin r o s ho hs
    · rw [hpay] at hs ⊢
      exact hc s hs
  obtain ⟨os, hos, htwin, hnone⟩ := hold
  rw [hf.find?_raiseFrom c (Exceptions.lt_next hos)]
  exact ⟨os, hos, htwin, hnone⟩

/-- An exception raised back. -/
theorem raiseBack (hf : Marked C f) {raised : ExceptionRef}
    {os : ExceptionObject (Carried M)} (hos : f.store.find? raised = some os) :
    Marked C ⟨f.store.raiseBack f.ref raised, raised⟩ := by
  have hkeeps := f.store.keeps_raiseBack f.ref raised
  refine ⟨hf.closed.raiseBack hf.lt_next, ?_, fun r o s ho hs => ?_⟩
  · obtain ⟨c, hc⟩ := hkeeps.2 raised os hos
    exact ⟨_, hc⟩
  · obtain ⟨o', c, ho', rfl⟩ := hkeeps.find? ho
    obtain ⟨ot, hot, htwin, hnone⟩ := hf.twin r o' s ho' hs
    obtain ⟨c', hc'⟩ := hkeeps.2 s ot hot
    exact ⟨_, hc', htwin, hnone⟩

/-- A refusal with a kernel twin was not translated: a twin has none. -/
theorem not_translated (hf : Marked C f) {o : ExceptionObject (Carried M)} {twin : Exc M}
    (ho : f.object = some o) (htwin : C.kernelTwin o.payload.exc = some twin) :
    o.payload.translatedFrom = none := by
  cases hs : o.payload.translatedFrom with
  | none => rfl
  | some s =>
    obtain ⟨os, -, hos, -⟩ := hf.twin f.ref o s ho hs
    rw [C.kernelTwin_twin hos] at htwin
    cases htwin

/-- An arm that raises exceptions that are not translated, or twins of ones that are not. -/
theorem replacing (hf : Marked C f) {new : Carried M → Option (Carried M)}
    (hnew : ∀ o c s, f.object = some o → new o.payload = some c → c.translatedFrom = some s →
      s = f.ref ∧ C.kernelTwin o.payload.exc = some c.exc) :
    Marked C (f.replacing new) := by
  obtain ⟨o, ho⟩ := hf.present
  cases hc : new o.payload with
  | none =>
    rw [Flight.replacing_of_none ho hc]
    exact hf
  | some c =>
    rw [Flight.replacing_of_some ho hc]
    refine hf.raiseFrom fun s hs => ?_
    obtain ⟨rfl, htwin⟩ := hnew o c s ho hc hs
    exact ⟨o, ho, htwin, hf.not_translated ho htwin⟩

/-- `translate_drf_refusals` never translates an exception twice. -/
theorem translateDrfRefusals (hf : Marked C f) : Marked C (f.translateDrfRefusals C) := by
  refine hf.replacing fun o c s _ hc hs => ?_
  split at hc
  · obtain ⟨twin, htwin, rfl⟩ := Option.map_eq_some_iff.1 hc
    cases hs
    exact ⟨rfl, htwin⟩
  · cases hc

/-- `translate_dispatch_errors` marks nothing. -/
theorem translateDispatchErrors (hf : Marked C f) : Marked C (f.translateDispatchErrors C) := by
  refine hf.replacing fun o c s _ hc hs => ?_
  split at hc
  · obtain ⟨twin, -, rfl⟩ := Option.map_eq_some_iff.1 hc
    cases hs
  · cases hc

/-- The inner block of the edge marks nothing. -/
theorem restore (hf : Marked C f) : Marked C f.restore := by
  obtain ⟨o, ho⟩ := hf.present
  simp only [Flight.restore, ho]
  split
  · split
    · exact hf
    next raised hs =>
    obtain ⟨os, hos, -⟩ := hf.twin f.ref o raised ho hs
    exact hf.raiseBack hos
  · exact hf

/-- The arms of the edge mark nothing. -/
theorem answered (hf : Marked C f) (edge : Edge M) : Marked C (f.answered C edge) := by
  refine hf.replacing fun o c s _ hc hs => ?_
  split at hc
  · obtain ⟨e, -, rfl⟩ := Option.map_eq_some_iff.1 hc
    cases hs
  split at hc
  · obtain ⟨names, -, rfl⟩ := Option.map_eq_some_iff.1 hc
    cases hs
  · cases hc

/-- The edge never translates an exception twice. -/
theorem edgeErrors (hf : Marked C f) (edge : Edge M) : Marked C (f.edgeErrors C edge) :=
  (hf.restore.translateDispatchErrors).answered edge

/-- No block translates an exception twice. -/
theorem run (hf : Marked C f) (b : Block M) : Marked C (b.run C f) := by
  cases b with
  | translateDrfRefusals => exact hf.translateDrfRefusals
  | translateDispatchErrors => exact hf.translateDispatchErrors
  | edgeErrors edge => exact hf.edgeErrors edge

/-- **No chain of blocks translates an exception twice.** -/
theorem runAll (chain : List (Block M)) (hf : Marked C f) : Marked C (Block.runAll C chain f) := by
  induction chain generalizing f with
  | nil => exact hf
  | cons b chain ih => exact ih (hf.run b)

end Marked

/-! ## An exception the edge restores -/

namespace Constructors

variable (C : Constructors M)

/-- A DRF exception has no dual-base twin. -/
theorem drfTwin_of_isA {e : Exc M} (h : e.isA .apiException = true) : C.drfTwin e = none := by
  rw [drfTwin, if_pos h]

/-- A dual-base twin is one of the three dual classes. -/
theorem drfTwin_cls {e twin : Exc M} (h : C.drfTwin e = some twin) :
    twin.cls = .named .invalidArguments ∨ twin.cls = .named .notPermitted ∨
      twin.cls = .named .principalUnavailable := by
  unfold drfTwin at h
  split at h
  · cases h
  split at h
  · cases h
    exact .inl rfl
  split at h
  · cases h
    exact .inr (.inl rfl)
  split at h
  · cases h
    exact .inr (.inr rfl)
  · cases h

/-- A dual-base twin is DRF's exception, and the kernel's. -/
theorem drfTwin_isA {e twin : Exc M} (h : C.drfTwin e = some twin) :
    twin.isA .apiException = true ∧ twin.isKernel = true := by
  rcases C.drfTwin_cls h with h | h | h <;>
    exact ⟨by rw [Exc.isA, h]; rfl, by rw [Exc.isKernel, Exc.isA, Exc.isA, h]; rfl⟩

/-- A refusal that is the kernel's already has no kernel twin. -/
theorem kernelTwin_of_isKernel {e : Exc M} (h : e.isKernel = true) : C.kernelTwin e = none := by
  rw [kernelTwin, if_pos h]

end Constructors

/-- Of the objects made from `first` on, each that carries `TRANSLATED_FROM` carries `s`. -/
def PointsAt (first s : ExceptionRef) (h : Exceptions (Carried M)) : Prop :=
  ∀ r o x, first ≤ r → h.find? r = some o → o.payload.translatedFrom = some x → x = s

namespace PointsAt

variable {first s : ExceptionRef} {C : Constructors M} {f : Flight M}

/-- A new exception that is not translated, or is translated from `s`. -/
theorem raiseFrom (h : PointsAt first s f.store) (hf : Marked C f) {c : Carried M}
    (hc : ∀ x, c.translatedFrom = some x → x = s) : PointsAt first s (f.raiseFrom c).store := by
  intro r o x hr ho hx
  rcases hf.find?_raiseFrom_cases ho with ⟨-, ho⟩ | ⟨-, hpay⟩
  · exact h r o x hr ho hx
  · rw [hpay] at hx
    exact hc x hx

/-- An exception raised back carries what it carried. -/
theorem raiseBack (h : PointsAt first s f.store) (raised : ExceptionRef) :
    PointsAt first s (f.store.raiseBack f.ref raised) := by
  intro r o x hr ho hx
  obtain ⟨o', c, ho', rfl⟩ := (f.store.keeps_raiseBack f.ref raised).find? ho
  exact h r o' x hr ho' hx

end PointsAt

/-- The exception object `o`, made at `s`, is in flight, itself or as its kernel twin, and is as it
was. -/
structure Restorable (C : Constructors M) (first s : ExceptionRef)
    (o : ExceptionObject (Carried M)) (f : Flight M) : Prop where
  marked : Marked C f
  kept : f.store.find? s = some o
  root : o.payload.translatedFrom = none
  origin : f.origin = s
  points : PointsAt first s f.store

namespace Restorable

variable {C : Constructors M} {first s : ExceptionRef} {o : ExceptionObject (Carried M)}
  {f : Flight M}

/-- The exception in flight is the author's, or its twin. -/
theorem cases (h : Restorable C first s o f) :
    (f.ref = s ∧ f.object = some o) ∨
      ∃ ot, f.object = some ot ∧ ot.payload.translatedFrom = some s ∧
        C.kernelTwin o.payload.exc = some ot.payload.exc := by
  obtain ⟨ot, hot⟩ := h.marked.present
  cases hx : ot.payload.translatedFrom with
  | none =>
    have href : f.ref = s := by
      rw [← h.origin, Flight.origin_of_none hot hx]
    refine .inl ⟨href, ?_⟩
    rw [Flight.object, href]
    exact h.kept
  | some x =>
    have hxs : x = s := by
      rw [← h.origin, Flight.origin_of_some hot hx]
    subst hxs
    obtain ⟨os, hos, htwin, -⟩ := h.marked.twin f.ref ot x hot hx
    rw [h.kept] at hos
    cases hos
    exact .inr ⟨ot, hot, hx, htwin⟩

/-- `translate_drf_refusals` lets the author's exception through, or raises its twin from it; its
twin it lets through. -/
theorem translateDrfRefusals (h : Restorable C first s o f) :
    Restorable C first s o (f.translateDrfRefusals C) := by
  rcases h.cases with ⟨href, hobj⟩ | ⟨ot, hot, hx, htwin⟩
  · cases hnew : (if o.payload.exc.isA .apiException then
        (C.kernelTwin o.payload.exc).map fun twin => (⟨twin, some f.ref⟩ : Carried M)
      else none) with
    | none =>
      rw [Flight.translateDrfRefusals, Flight.replacing_of_none hobj hnew]
      exact h
    | some c =>
      have hc : c.translatedFrom = some s := by
        split at hnew
        · obtain ⟨twin, -, rfl⟩ := Option.map_eq_some_iff.1 hnew
          rw [href]
        · cases hnew
      have hmarked := h.marked.translateDrfRefusals
      rw [Flight.translateDrfRefusals, Flight.replacing_of_some hobj hnew] at hmarked ⊢
      refine ⟨hmarked, ?_, h.root, ?_, h.points.raiseFrom h.marked fun x hx => ?_⟩
      · rw [h.marked.find?_raiseFrom c (Exceptions.lt_next h.kept)]
        exact h.kept
      · exact Flight.origin_of_some (h.marked.object_raiseFrom c) hc
      · rw [hc] at hx
        cases hx
        rfl
  · -- a twin is the kernel's already
    rw [Flight.translateDrfRefusals, Flight.replacing_of_none hot (by
      rw [C.kernelTwin_twin htwin, Option.map_none, ite_self])]
    exact h

/-- `translate_dispatch_errors` lets through an exception that is no kernel refusal with a twin. -/
theorem translateDispatchErrors (h : Restorable C first s o f)
    (he : o.payload.exc.isA .dispatchError = true → C.drfTwin o.payload.exc = none) :
    f.translateDispatchErrors C = f := by
  rcases h.cases with ⟨-, hobj⟩ | ⟨ot, hot, -, htwin⟩
  · refine Flight.replacing_of_none hobj ?_
    split
    · next hd => rw [he hd, Option.map_none]
    · rfl
  · refine Flight.replacing_of_none hot ?_
    rw [C.drfTwin_of_isA (C.kernelTwin_isA htwin), Option.map_none, ite_self]

/-- **The inner block of the edge raises the author's exception back as it was.** -/
theorem restore (h : Restorable C first s o f) :
    f.restore.ref = s ∧ Restorable C first s o f.restore := by
  rcases h.cases with ⟨href, hobj⟩ | ⟨ot, hot, hx, htwin⟩
  · have hsame : f.restore = f := by
      simp only [Flight.restore, hobj, h.root, ite_self]
    rw [hsame]
    exact ⟨href, h⟩
  · have hback : f.restore = ⟨f.store.raiseBack f.ref s, s⟩ := by
      simp only [Flight.restore, hot, hx, C.kernelTwin_isA htwin, if_true]
    have hne : f.ref ≠ s := by
      intro href
      rw [Flight.object, href, h.kept] at hot
      cases hot
      rw [h.root] at hx
      cases hx
    have hkept := Exceptions.find?_raiseBack hne h.kept
    have hmarked := h.marked.restore
    rw [hback] at hmarked ⊢
    exact ⟨rfl, hmarked, hkept, h.root, Flight.origin_of_none hkept h.root, h.points.raiseBack s⟩

/-- The edge answers the author's exception with itself. -/
theorem edgeErrors (h : Restorable C first s o f) {edge : Edge M}
    (he : o.payload.exc.isA .dispatchError = true → C.drfTwin o.payload.exc = none)
    (hargs : o.payload.exc.isA .invalidArguments = false) (hnames : edge.names = none) :
    (f.edgeErrors C edge).ref = s ∧ Restorable C first s o (f.edgeErrors C edge) := by
  obtain ⟨href, hback⟩ := h.restore
  have hobj : f.restore.object = some o := by
    rw [Flight.object, href]
    exact hback.kept
  have hsame : f.edgeErrors C edge = f.restore := by
    rw [Flight.edgeErrors, hback.translateDispatchErrors he]
    refine Flight.replacing_of_none hobj ?_
    rw [hargs, hnames, Option.map_none, ite_self]
    rfl
  rw [hsame]
  exact ⟨href, hback⟩

/-- Every block lets the author's exception through, or its twin. -/
theorem run (h : Restorable C first s o f) {b : Block M}
    (he : o.payload.exc.isA .dispatchError = true → C.drfTwin o.payload.exc = none)
    (hargs : o.payload.exc.isA .invalidArguments = false)
    (hb : b.Edges fun edge => edge.names = none) : Restorable C first s o (b.run C f) := by
  cases b with
  | translateDrfRefusals => exact h.translateDrfRefusals
  | translateDispatchErrors =>
    rw [Block.run, h.translateDispatchErrors he]
    exact h
  | edgeErrors edge => exact (h.edgeErrors he hargs hb).2

/-- So does a chain of blocks. -/
theorem runAll {chain : List (Block M)} (h : Restorable C first s o f)
    (he : o.payload.exc.isA .dispatchError = true → C.drfTwin o.payload.exc = none)
    (hargs : o.payload.exc.isA .invalidArguments = false)
    (hchain : ∀ b ∈ chain, b.Edges fun edge => edge.names = none) :
    Restorable C first s o (Block.runAll C chain f) := by
  induction chain generalizing f with
  | nil => exact h
  | cons b chain ih =>
    exact ih (h.run he hargs (hchain b (List.mem_cons_self ..)))
      fun b' hb' => hchain b' (List.mem_cons_of_mem _ hb')

end Restorable

/-! ## A kernel refusal the edge twins -/

/-- The kernel refusal `o`, made at `s`, is in flight, or its dual-base twin `d`, raised from it, and
is as it was. -/
structure Twinned (C : Constructors M) (first s : ExceptionRef)
    (o : ExceptionObject (Carried M)) (d : Exc M) (f : Flight M) : Prop where
  marked : Marked C f
  kept : f.store.find? s = some o
  root : o.payload.translatedFrom = none
  points : PointsAt first s f.store
  grown : first ≤ f.store.next
  current : (f.ref = s ∧ f.object = some o) ∨
    (first ≤ f.ref ∧ f.object = some ⟨⟨d, none⟩, some s, some s⟩)

namespace Twinned

variable {C : Constructors M} {first s : ExceptionRef} {o : ExceptionObject (Carried M)}
  {d : Exc M} {f : Flight M}

/-- `translate_drf_refusals` lets both through. -/
theorem translateDrfRefusals (h : Twinned C first s o d f)
    (hapi : o.payload.exc.isA .apiException = false)
    (hd : C.drfTwin o.payload.exc = some d) : f.translateDrfRefusals C = f := by
  rcases h.current with ⟨-, hobj⟩ | ⟨-, hobj⟩
  · refine Flight.replacing_of_none hobj ?_
    rw [if_neg (by simp [hapi])]
  · refine Flight.replacing_of_none hobj ?_
    rw [C.kernelTwin_of_isKernel (C.drfTwin_isA hd).2, Option.map_none, ite_self]

/-- **`translate_dispatch_errors` raises the twin of the refusal from it, and lets the twin
through.** -/
theorem translateDispatchErrors (h : Twinned C first s o d f)
    (hdisp : o.payload.exc.isA .dispatchError = true)
    (hd : C.drfTwin o.payload.exc = some d) :
    first ≤ (f.translateDispatchErrors C).ref ∧
      (f.translateDispatchErrors C).object = some ⟨⟨d, none⟩, some s, some s⟩ ∧
      Twinned C first s o d (f.translateDispatchErrors C) := by
  have hmarked := h.marked.translateDispatchErrors
  rcases h.current with ⟨href, hobj⟩ | ⟨hlt, hobj⟩
  · have hnew : f.translateDispatchErrors C = f.raiseFrom ⟨d, none⟩ :=
      Flight.replacing_of_some hobj (by rw [if_pos hdisp, hd]; rfl)
    rw [hnew] at hmarked ⊢
    have hraised := h.marked.object_raiseFrom ⟨d, none⟩
    rw [href] at hraised
    refine ⟨h.grown, hraised, hmarked, ?_, h.root, h.points.raiseFrom h.marked (fun x hx => by
      cases hx), ?_, .inr ⟨h.grown, hraised⟩⟩
    · rw [h.marked.find?_raiseFrom _ (Exceptions.lt_next h.kept)]
      exact h.kept
    · rw [Flight.raiseFrom, Exceptions.next_raiseNew h.marked.closed h.marked.lt_next]
      exact Nat.le_succ_of_le h.grown
  · have hsame : f.translateDispatchErrors C = f :=
      Flight.replacing_of_none hobj (by
        rw [C.drfTwin_of_isA (C.drfTwin_isA hd).1, Option.map_none, ite_self])
    rw [hsame]
    exact ⟨hlt, hobj, h⟩

/-- The inner block of the edge restores neither: neither was translated. -/
theorem restore (h : Twinned C first s o d f) : f.restore = f := by
  rcases h.current with ⟨-, hobj⟩ | ⟨-, hobj⟩
  · simp only [Flight.restore, hobj, h.root, ite_self]
  · simp only [Flight.restore, hobj, ite_self]

/-- A twin no edge reshapes leaves the arms as itself. -/
theorem answered {edge : Edge M}
    (hreshape : d.isA .invalidArguments = true → edge.reshape d = none)
    (hnames : edge.names = none) (hobj : f.object = some ⟨⟨d, none⟩, some s, some s⟩) :
    f.answered C edge = f := by
  refine Flight.replacing_of_none hobj ?_
  split
  · next hargs => rw [hreshape hargs, Option.map_none]
  · rw [hnames, Option.map_none, ite_self]

/-- The edge answers the refusal with its twin. -/
theorem edgeErrors (h : Twinned C first s o d f)
    {edge : Edge M} (hdisp : o.payload.exc.isA .dispatchError = true)
    (hd : C.drfTwin o.payload.exc = some d)
    (hreshape : d.isA .invalidArguments = true → edge.reshape d = none)
    (hnames : edge.names = none) :
    first ≤ (f.edgeErrors C edge).ref ∧
      (f.edgeErrors C edge).object = some ⟨⟨d, none⟩, some s, some s⟩ ∧
      Twinned C first s o d (f.edgeErrors C edge) := by
  have hleft := h.translateDispatchErrors hdisp hd
  rw [Flight.edgeErrors, h.restore, answered hreshape hnames hleft.2.1]
  exact hleft

/-- Every block lets the twin through, or raises it from the refusal. -/
theorem run (h : Twinned C first s o d f) {b : Block M}
    (hapi : o.payload.exc.isA .apiException = false)
    (hdisp : o.payload.exc.isA .dispatchError = true) (hd : C.drfTwin o.payload.exc = some d)
    (hb : b.Edges fun edge => edge.names = none ∧
      (d.isA .invalidArguments = true → edge.reshape d = none)) :
    Twinned C first s o d (b.run C f) := by
  cases b with
  | translateDrfRefusals =>
    rw [Block.run, h.translateDrfRefusals hapi hd]
    exact h
  | translateDispatchErrors => exact (h.translateDispatchErrors hdisp hd).2.2
  | edgeErrors edge => exact (h.edgeErrors hdisp hd hb.2 hb.1).2.2

/-- So does a chain of blocks. -/
theorem runAll {chain : List (Block M)} (h : Twinned C first s o d f)
    (hapi : o.payload.exc.isA .apiException = false)
    (hdisp : o.payload.exc.isA .dispatchError = true) (hd : C.drfTwin o.payload.exc = some d)
    (hchain : ∀ b ∈ chain, b.Edges fun edge => edge.names = none ∧
      (d.isA .invalidArguments = true → edge.reshape d = none)) :
    Twinned C first s o d (Block.runAll C chain f) := by
  induction chain generalizing f with
  | nil => exact h
  | cons b chain ih =>
    exact ih (h.run hapi hdisp hd (hchain b (List.mem_cons_self ..)))
      fun b' hb' => hchain b' (List.mem_cons_of_mem _ hb')

end Twinned

/-! ## What leaves the outermost edge -/

namespace Flight

variable {C : Constructors M} {f : Flight M} {o : ExceptionObject (Carried M)}

/-- What leaves the outermost edge of a chain of blocks. -/
def leaving (C : Constructors M) (chain : List (Block M)) (edge : Edge M) (f : Flight M) :
    Flight M := (Block.runAll C chain f).edgeErrors C edge

/-- The exception an author's callable raised was not translated. -/
theorem root_of_origin (hf : Marked C f) (ho : f.store.find? f.origin = some o) :
    o.payload.translatedFrom = none := by
  obtain ⟨ot, hot⟩ := hf.present
  cases hx : ot.payload.translatedFrom with
  | none =>
    rw [origin_of_none hot hx, ← object, hot] at ho
    cases ho
    exact hx
  | some x =>
    obtain ⟨os, hos, -, hnone⟩ := hf.twin f.ref ot x hot hx
    rw [origin_of_some hot hx, hos] at ho
    cases ho
    exact hnone

/-- No object there is was made after the next one. -/
theorem pointsAt_next (s : ExceptionRef) : PointsAt f.store.next s f.store :=
  fun _ _ _ hr ho _ => absurd (Exceptions.lt_next ho) (Nat.not_lt.2 hr)

/-- A kernel refusal was not translated, and neither is it the origin of one that was. -/
theorem origin_of_dispatchError (hf : Marked C f) (ho : f.store.find? f.origin = some o)
    (hdisp : o.payload.exc.isA .dispatchError = true) :
    f.origin = f.ref ∧ f.object = some o := by
  obtain ⟨ot, hot⟩ := hf.present
  cases hx : ot.payload.translatedFrom with
  | none =>
    have href := origin_of_none hot hx
    rw [href] at ho
    exact ⟨href, ho⟩
  | some x =>
    -- only a DRF refusal that is not the kernel's is translated
    obtain ⟨os, hos, htwin, -⟩ := hf.twin f.ref ot x hot hx
    rw [origin_of_some hot hx, hos] at ho
    cases ho
    have hk := C.not_isKernel_of_kernelTwin htwin
    rw [Exc.isKernel, hdisp] at hk
    cases hk

end Flight

/-- **The object that leaves the outermost edge of a chain of blocks, on specs with no input
serializer.** A DRF exception other than `InvalidArguments`, an exception that is not the kernel's
`DispatchError` and a `DispatchError` with no dual-base twin leave as the object the author's callable
raised, as it was; any other `DispatchError` that is no DRF exception as its twin raised from it,
where no edge reshapes the twin; and no exception is translated twice. -/
theorem edgeErrors_runAll (C : Constructors M) (chain : List (Block M)) (edge : Edge M)
    (f : Flight M) (hf : Marked C f) (o : ExceptionObject (Carried M))
    (ho : f.store.find? f.origin = some o)
    (hchain : ∀ b ∈ chain, b.Edges fun edge => edge.names = none) (hedge : edge.names = none) :
    ((o.payload.exc.isA .apiException = true ∧ o.payload.exc.isA .invalidArguments = false ∨
        o.payload.exc.isA .apiException = false ∧
          (o.payload.exc.isA .dispatchError = false ∨ C.drfTwin o.payload.exc = none)) →
      (f.leaving C chain edge).ref = f.origin ∧
        (f.leaving C chain edge).object = some o ∧
        PointsAt f.store.next f.origin (f.leaving C chain edge).store) ∧
    (∀ d, o.payload.exc.isA .apiException = false → o.payload.exc.isA .dispatchError = true →
      C.drfTwin o.payload.exc = some d →
      (∀ b ∈ chain ++ [.edgeErrors edge],
        b.Edges fun edge => d.isA .invalidArguments = true → edge.reshape d = none) →
      f.store.next ≤ (f.leaving C chain edge).ref ∧
        (f.leaving C chain edge).object = some ⟨⟨d, none⟩, some f.ref, some f.ref⟩ ∧
        (f.leaving C chain edge).store.find? f.ref = some o ∧
        PointsAt f.store.next f.ref (f.leaving C chain edge).store) ∧
    Marked C (f.leaving C chain edge) := by
  have hroot := Flight.root_of_origin hf ho
  refine ⟨fun hkind => ?_, fun d hapi hdisp hd hreshape => ?_, (hf.runAll chain).edgeErrors edge⟩
  · have hstart : Restorable C f.store.next f.origin o f :=
      ⟨hf, ho, hroot, rfl, Flight.pointsAt_next _⟩
    have htwin : o.payload.exc.isA .dispatchError = true → C.drfTwin o.payload.exc = none := by
      intro hdisp
      rcases hkind with ⟨hapi, -⟩ | ⟨-, hnot | hnone⟩
      · exact C.drfTwin_of_isA hapi
      · rw [hdisp] at hnot
        cases hnot
      · exact hnone
    have hargs : o.payload.exc.isA .invalidArguments = false := by
      rcases hkind with ⟨-, hargs⟩ | ⟨hapi, -⟩
      · exact hargs
      · rw [Bool.eq_false_iff]
        intro hargs
        have := o.payload.exc.cls.isA_of (b := .invalidArguments) (d := .apiException)
          (fun a => by cases a <;> decide) hargs
        rw [← Exc.isA, hapi] at this
        cases this
    obtain ⟨href, hleft⟩ := (hstart.runAll htwin hargs hchain).edgeErrors htwin hargs hedge
    refine ⟨href, ?_, hleft.points⟩
    rw [Flight.object, Flight.leaving, href]
    exact hleft.kept
  · obtain ⟨horigin, hobj⟩ := Flight.origin_of_dispatchError hf ho hdisp
    have hstart : Twinned C f.store.next f.ref o d f :=
      ⟨hf, hobj, hroot, Flight.pointsAt_next _, Nat.le_refl _, .inl ⟨rfl, hobj⟩⟩
    have hblocks : ∀ b ∈ chain, b.Edges fun edge => edge.names = none ∧
        (d.isA .invalidArguments = true → edge.reshape d = none) := by
      intro b hb
      have hnames := hchain b hb
      have hkeeps := hreshape b (List.mem_append_left _ hb)
      cases b with
      | translateDrfRefusals => trivial
      | translateDispatchErrors => trivial
      | edgeErrors edge => exact ⟨hnames, hkeeps⟩
    have hlast : d.isA .invalidArguments = true → edge.reshape d = none :=
      hreshape (.edgeErrors edge) (List.mem_append_right _ (List.mem_singleton.2 rfl))
    obtain ⟨hlt, hleft, htwinned⟩ :=
      (hstart.runAll hapi hdisp hd hblocks).edgeErrors hdisp hd hlast hedge
    exact ⟨hlt, hleft, htwinned.kept, htwinned.points⟩

/-! ### A refusal raised inside a nested dispatch, and a refusal with no twin -/

/-- An exception among untranslated ones. -/
theorem Marked.of_untranslated {C : Constructors M} {f : Flight M} (hclosed : f.store.Closed)
    (hpresent : ∃ o, f.object = some o)
    (hnone : ∀ r o, f.store.find? r = some o → o.payload.translatedFrom = none) : Marked C f := by
  refine ⟨hclosed, hpresent, fun r o s ho hs => ?_⟩
  rw [hnone r o ho] at hs
  cases hs

/-- The edge of a spec with no input serializer, which answers every refusal of its arguments as it
was translated. -/
def plainEdge : Edge ErrorDetail := ⟨none, fun _ => none⟩

/-- `_Locked` raised while a `KeyError` was handled. -/
def lockedFlight : Flight ErrorDetail :=
  ⟨⟨[⟨⟨⟨.author "KeyError" [], none, none, .rows []⟩, none⟩, none, none⟩,
    ⟨⟨lockedRefusal, none⟩, some 0, none⟩]⟩, 1⟩

/-- Nothing in `lockedFlight` was translated. -/
theorem marked_lockedFlight : Marked builtConstructors lockedFlight := by
  refine .of_untranslated ?_ ⟨_, rfl⟩ ?_
  · intro r c hr
    match r, hr with
    | 1, hr =>
      cases hr
      decide
  · intro r o ho
    match r, ho with
    | 0, ho => cases ho; rfl
    | 1, ho => cases ho; rfl

/-- Raised by the service of a dispatch made inside a service, it leaves the outer edge as itself, in
the context of the `KeyError`. -/
theorem edgeErrors_runAll_locked :
    let left := lockedFlight.leaving builtConstructors
      [.translateDrfRefusals, .edgeErrors plainEdge, .translateDrfRefusals] plainEdge
    left.ref = 1 ∧ left.object = some ⟨⟨lockedRefusal, none⟩, some 0, none⟩ := by
  have h := (edgeErrors_runAll builtConstructors
    [.translateDrfRefusals, .edgeErrors plainEdge, .translateDrfRefusals] plainEdge lockedFlight
    marked_lockedFlight ⟨⟨lockedRefusal, none⟩, some 0, none⟩ rfl
    (by
      intro b hb
      rcases List.mem_cons.1 hb with rfl | hb
      · trivial
      rcases List.mem_cons.1 hb with rfl | hb
      · rfl
      · rw [List.mem_singleton.1 hb]
        trivial) rfl).1 (.inl ⟨rfl, rfl⟩)
  exact ⟨h.1, h.2.1⟩

/-- An author's refusal derived from `DispatchError` itself. -/
def unansweredRefusal : Exc ErrorDetail :=
  ⟨.author "_Unanswered" [.dispatchError], none, some ⟨"Unanswered.", "unanswered"⟩, .rows []⟩

/-- A service raises it. -/
def unansweredFlight : Flight ErrorDetail := ⟨⟨[⟨⟨unansweredRefusal, none⟩, none, none⟩]⟩, 0⟩

/-- It leaves the edge as itself, and not as a new exception raised from it. -/
theorem unanswered_leaves_untwinned :
    ¬ ∀ (C : Constructors ErrorDetail) (chain : List (Block ErrorDetail))
      (edge : Edge ErrorDetail) (f : Flight ErrorDetail) (o : ExceptionObject (Carried ErrorDetail)),
      Marked C f → f.object = some o → o.payload.translatedFrom = none →
      (∀ b ∈ chain, b.Edges fun edge => edge.names = none) → edge.names = none →
      o.payload.exc.isA .dispatchError = true → o.payload.exc.isA .apiException = false →
      ∃ d, (f.leaving C chain edge).object = some ⟨⟨d, none⟩, some f.ref, some f.ref⟩ := by
  intro h
  have hmarked : Marked builtConstructors unansweredFlight := by
    refine .of_untranslated ?_ ⟨_, rfl⟩ ?_
    · intro r c hr
      match r, hr with
      | 0, hr => cases hr
    · intro r o ho
      match r, ho with
      | 0, ho => cases ho; rfl
  obtain ⟨d, hd⟩ := h builtConstructors [.translateDrfRefusals] plainEdge unansweredFlight _
    hmarked rfl rfl
    (by
      intro b hb
      rw [List.mem_singleton.1 hb]
      trivial) rfl rfl rfl
  have hsame : (unansweredFlight.leaving builtConstructors [.translateDrfRefusals]
      plainEdge).object = some ⟨⟨unansweredRefusal, none⟩, none, none⟩ := rfl
  rw [hsame] at hd
  cases hd

/-! ## The objects and the exceptions they carry -/

namespace Flight

variable {C : Constructors M} {f : Flight M} {o : ExceptionObject (Carried M)}

/-- The exception in flight, without the objects around it. -/
def exc? (f : Flight M) : Option (Exc M) := f.object.map (·.payload.exc)

/-- The exception an arm leaves with. -/
theorem exc?_replacing (hf : Marked C f) (ho : f.object = some o)
    (new : Carried M → Option (Carried M)) :
    (f.replacing new).exc? = some (((new o.payload).map (·.exc)).getD o.payload.exc) := by
  cases hc : new o.payload with
  | none =>
    rw [replacing_of_none ho hc, exc?, ho]
    rfl
  | some c =>
    rw [replacing_of_some ho hc, exc?, hf.object_raiseFrom]
    rfl

/-- An exception in flight as the pure model has it: the exception, and the one it was translated
from. -/
def thrown (hf : Marked C f) (ho : f.object = some o) : Thrown C :=
  ⟨o.payload.exc,
    o.payload.translatedFrom.bind fun s => (f.store.find? s).map (·.payload.exc), by
    intro e he
    obtain ⟨s, hs, hmap⟩ := Option.bind_eq_some_iff.1 he
    obtain ⟨os, hos, rfl⟩ := Option.map_eq_some_iff.1 hmap
    obtain ⟨ot, hot, htwin, -⟩ := hf.twin f.ref o s ho hs
    rw [hos] at hot
    cases hot
    exact htwin⟩

/-- The inner block of the edge restores the exception the pure model restores. -/
theorem exc?_restore (hf : Marked C f) (ho : f.object = some o) :
    f.restore.exc? = some (thrown hf ho).restore := by
  cases hapi : o.payload.exc.isA .apiException with
  | true =>
    have hpure : (thrown hf ho).restore =
        (thrown hf ho).translatedFrom.getD o.payload.exc := if_pos hapi
    rw [hpure]
    cases hs : o.payload.translatedFrom with
    | none =>
      simp only [restore, exc?, thrown, ho, hapi, hs, if_true, Option.map_some, Option.bind_none,
        Option.getD_none]
    | some s =>
      obtain ⟨os, hos, -⟩ := hf.twin f.ref o s ho hs
      obtain ⟨c, hc⟩ := (f.store.keeps_raiseBack f.ref s).2 s os hos
      have hback : f.restore = ⟨f.store.raiseBack f.ref s, s⟩ := by
        simp only [restore, ho, hapi, hs, if_true]
      rw [hback]
      simp only [exc?, object, thrown, hc, hos, hs, Option.map_some, Option.bind_some,
        Option.getD_some]
  | false =>
    have hpure : (thrown hf ho).restore = o.payload.exc :=
      if_neg (Bool.eq_false_iff.1 hapi)
    have hsame : f.restore = f := by
      simp only [restore, ho, hapi, if_false, Bool.false_eq_true]
    rw [hpure, hsame, exc?, ho, Option.map_some]

/-- **The edge leaves with the exception the pure model leaves with**, reshaped where the arm of
`InvalidArguments` reshapes it. -/
theorem exc?_edgeErrors (hf : Marked C f) (ho : f.object = some o) (edge : Edge M) :
    (f.edgeErrors C edge).exc? = some
      (match RestFrameworkServices.edgeErrors edge.names (thrown hf ho) with
        | .arguments e => (edge.reshape e).getD e
        | .raised e => e) := by
  obtain ⟨o₁, ho₁⟩ := hf.restore.present
  have h₁ := exc?_restore hf ho
  rw [exc?, ho₁, Option.map_some, Option.some.injEq] at h₁
  obtain ⟨o₂, ho₂⟩ := hf.restore.translateDispatchErrors.present
  have h₂ : o₂.payload.exc = RestFrameworkServices.translateDispatchErrors C
      (thrown hf ho).restore := by
    have h := exc?_replacing hf.restore ho₁ fun c =>
      if c.exc.isA .dispatchError then (C.drfTwin c.exc).map fun twin => ⟨twin, none⟩ else none
    rw [← translateDispatchErrors, exc?, ho₂, Option.map_some, Option.some.injEq] at h
    rw [h, RestFrameworkServices.translateDispatchErrors, ← h₁]
    split
    · cases C.drfTwin o₁.payload.exc <;> rfl
    · rfl
  rw [edgeErrors, answered, exc?_replacing hf.restore.translateDispatchErrors ho₂]
  simp only [RestFrameworkServices.edgeErrors, h₂]
  split
  · dsimp only
    cases edge.reshape (RestFrameworkServices.translateDispatchErrors C (thrown hf ho).restore) <;>
      rfl
  split
  · cases edge.names <;> rfl
  · rfl

end Flight

end RestFrameworkServices
