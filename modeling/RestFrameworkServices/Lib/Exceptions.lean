import Mathlib.Data.List.Basic
import Mathlib.Data.Nat.Notation

/-!
# Exception objects, and what raising one changes

An exception in flight is an object, and raising it while another is handled writes to it: the
handled exception becomes its `__context__`, and a link that would close a cycle of contexts is cut.
`Exceptions` is the store of those objects, of any payload, each named by the place it was made
(`ExceptionRef`).

`Exceptions.raiseNew_objects` says a new exception raised from the handled one changes no object
there was. `Exceptions.find?_raiseBack` says an exception raised back while another is handled is
the object it was once its own context is put back, and `Exceptions.keeps_raiseBack` that every
object keeps its payload and cause.
-/

namespace Lib

universe u

/-- An exception object, by the place it was made. -/
abbrev ExceptionRef := ℕ

/-- An exception object: what it carries, its `__context__` and its `__cause__`. -/
structure ExceptionObject (P : Type u) where
  payload : P
  context : Option ExceptionRef
  cause : Option ExceptionRef
deriving DecidableEq, Repr

/-- The exception objects made so far. -/
structure Exceptions (P : Type u) where
  objects : List (ExceptionObject P)
deriving DecidableEq, Repr

namespace Exceptions

variable {P : Type u}

/-- The object made at a place. -/
def find? (h : Exceptions P) (r : ExceptionRef) : Option (ExceptionObject P) := h.objects[r]?

/-- The `__context__` of an exception. -/
def context (h : Exceptions P) (r : ExceptionRef) : Option ExceptionRef :=
  (h.find? r).bind (·.context)

/-- The place the next object is made at. -/
def next (h : Exceptions P) : ExceptionRef := h.objects.length

/-- A new object, in no context and of no cause. -/
def make (h : Exceptions P) (p : P) : Exceptions P := ⟨h.objects ++ [⟨p, none, none⟩]⟩

/-- `r.__context__ = c`. -/
def setContext (h : Exceptions P) (r : ExceptionRef) (c : Option ExceptionRef) : Exceptions P :=
  ⟨h.objects.modify r fun o => { o with context := c }⟩

/-- `r.__cause__ = c`. -/
def setCause (h : Exceptions P) (r : ExceptionRef) (c : Option ExceptionRef) : Exceptions P :=
  ⟨h.objects.modify r fun o => { o with cause := c }⟩

/-- What a raise of `value` cuts before it makes `o` its context: the first link to `value` along the
contexts of `o`. -/
def unlink (h : Exceptions P) (value : ExceptionRef) : ℕ → ExceptionRef → Exceptions P
  | 0, _ => h
  | fuel + 1, o =>
    match h.context o with
    | none => h
    | some c => if c = value then h.setContext o none else unlink h value fuel c

/-- `raise value` while `handled` is handled. Raising the handled exception again changes nothing. No
chain of contexts has more links than there are objects, unless it is a cycle. -/
def raise (h : Exceptions P) (handled value : ExceptionRef) : Exceptions P :=
  if handled = value then h
  else (h.unlink value h.next handled).setContext value (some handled)

/-- `raise value from handled` while `handled` is handled, of a `value` made for it. -/
def raiseNew (h : Exceptions P) (handled : ExceptionRef) (p : P) : Exceptions P :=
  ((h.make p).setCause h.next (some handled)).raise handled h.next

/-- `raise value` while `handled` is handled, with the context `value` had put back as it leaves. -/
def raiseBack (h : Exceptions P) (handled value : ExceptionRef) : Exceptions P :=
  (h.raise handled value).setContext value (h.context value)

/-- Every context is of an object there is. -/
def Closed (h : Exceptions P) : Prop := ∀ r c, h.context r = some c → c < h.next

/-! ### Reading an object after a write -/

@[simp] theorem next_setContext (h : Exceptions P) (r : ExceptionRef) (c : Option ExceptionRef) :
    (h.setContext r c).next = h.next := by
  simp [next, setContext]

/-- An object there is was made before the next one. -/
theorem lt_next {h : Exceptions P} {r : ExceptionRef} {o : ExceptionObject P}
    (ho : h.find? r = some o) : r < h.next :=
  (List.getElem?_eq_some_iff.1 ho).1

/-- Writing a context writes it to the one object. -/
theorem find?_setContext (h : Exceptions P) (r : ExceptionRef) (c : Option ExceptionRef)
    (x : ExceptionRef) :
    (h.setContext r c).find? x =
      if r = x then (h.find? x).map fun o => { o with context := c } else h.find? x := by
  rw [find?, setContext, List.getElem?_modify]
  split <;> simp [find?]

/-- A write to one object leaves the others. -/
theorem find?_setContext_of_ne {h : Exceptions P} {r x : ExceptionRef}
    {c : Option ExceptionRef} (hne : r ≠ x) : (h.setContext r c).find? x = h.find? x := by
  rw [find?_setContext, if_neg hne]

/-- An object with its own context written back is itself. -/
theorem find?_setContext_self {h : Exceptions P} {r : ExceptionRef} {o : ExceptionObject P}
    {c : Option ExceptionRef} (ho : h.find? r = some o) :
    (h.setContext r c).find? r = some { o with context := c } := by
  rw [find?_setContext, if_pos rfl, ho]
  rfl

/-! ### Contexts of objects there are -/

/-- Writing the context of an object there is. -/
theorem Closed.setContext {h : Exceptions P} (hc : h.Closed) (r : ExceptionRef)
    {c : Option ExceptionRef} (hlt : ∀ x, c = some x → x < h.next) :
    (h.setContext r c).Closed := by
  intro x y hy
  rw [next_setContext]
  rw [context, find?_setContext] at hy
  split at hy
  · cases hx : h.find? x with
    | none =>
      rw [hx] at hy
      cases hy
    | some o =>
      rw [hx] at hy
      exact hlt y hy
  · exact hc x y hy

/-- Cutting a link leaves the contexts of objects there are. -/
theorem Closed.unlink {h : Exceptions P} (hc : h.Closed) (value : ExceptionRef) :
    ∀ fuel o, (h.unlink value fuel o).Closed
  | 0, _ => hc
  | fuel + 1, o => by
    unfold Exceptions.unlink
    split
    · exact hc
    split
    · exact hc.setContext o (fun x hx => by cases hx)
    · exact Closed.unlink hc value fuel _

/-! ### What a raise keeps -/

/-- `h'` has the objects of `h`, each with the payload and cause it had. -/
def Keeps (h h' : Exceptions P) : Prop :=
  h'.next = h.next ∧ ∀ r o, h.find? r = some o → ∃ c, h'.find? r = some { o with context := c }

/-- A store keeps itself. -/
theorem Keeps.refl (h : Exceptions P) : h.Keeps h := ⟨rfl, fun _ o ho => ⟨o.context, ho⟩⟩

/-- What is kept twice is kept. -/
theorem Keeps.trans {h h' h'' : Exceptions P} (h₁ : h.Keeps h') (h₂ : h'.Keeps h'') :
    h.Keeps h'' := by
  refine ⟨h₂.1.trans h₁.1, fun r o ho => ?_⟩
  obtain ⟨c, hc⟩ := h₁.2 r o ho
  obtain ⟨c', hc'⟩ := h₂.2 r _ hc
  exact ⟨c', hc'⟩

/-- An object there is afterwards was there before, with that payload and cause. -/
theorem Keeps.find? {h h' : Exceptions P} (hk : h.Keeps h') {r : ExceptionRef}
    {o' : ExceptionObject P} (ho' : h'.find? r = some o') :
    ∃ o c, h.find? r = some o ∧ o' = { o with context := c } := by
  have hlt : r < h.objects.length := by
    have := lt_next ho'
    rwa [hk.1] at this
  obtain ⟨c, hc⟩ := hk.2 r _ (List.getElem?_eq_getElem hlt)
  rw [hc] at ho'
  cases ho'
  exact ⟨_, c, List.getElem?_eq_getElem hlt, rfl⟩

/-- Writing a context keeps every payload and cause. -/
theorem keeps_setContext (h : Exceptions P) (r : ExceptionRef) (c : Option ExceptionRef) :
    h.Keeps (h.setContext r c) := by
  refine ⟨h.next_setContext r c, fun x o ho => ?_⟩
  by_cases hx : r = x
  · subst hx
    exact ⟨c, find?_setContext_self ho⟩
  · rw [find?_setContext_of_ne hx]
    exact ⟨o.context, ho⟩

/-- Cutting a link keeps every payload and cause. -/
theorem keeps_unlink (h : Exceptions P) (value : ExceptionRef) :
    ∀ fuel o, h.Keeps (h.unlink value fuel o)
  | 0, _ => .refl h
  | fuel + 1, o => by
    unfold unlink
    split
    · exact .refl h
    split
    · exact h.keeps_setContext o none
    · exact keeps_unlink h value fuel _

/-- The cut is never at `value` itself, for a walk that starts elsewhere. -/
theorem find?_unlink (h : Exceptions P) (value : ExceptionRef) :
    ∀ fuel o, o ≠ value → (h.unlink value fuel o).find? value = h.find? value
  | 0, _, _ => rfl
  | fuel + 1, o, ho => by
    unfold unlink
    split
    · rfl
    next c hc =>
    split
    · exact find?_setContext_of_ne ho
    next hcv => exact find?_unlink h value fuel c hcv

/-- Nothing is cut where nothing was raised in the context of `value`. -/
theorem unlink_eq_self {h : Exceptions P} {value : ExceptionRef}
    (hv : ∀ r, h.context r ≠ some value) : ∀ fuel o, h.unlink value fuel o = h
  | 0, _ => rfl
  | fuel + 1, o => by
    unfold unlink
    split
    · rfl
    next c hc =>
    rw [if_neg (fun hcv => hv o (by rw [hc, hcv]))]
    exact unlink_eq_self hv fuel c

/-- A raise keeps every payload and cause. -/
theorem keeps_raise (h : Exceptions P) (handled value : ExceptionRef) :
    h.Keeps (h.raise handled value) := by
  unfold raise
  split
  · exact .refl h
  · exact (h.keeps_unlink value h.next handled).trans (keeps_setContext _ _ _)

/-- Changing the last object of a list. -/
theorem modify_append_length (l : List (ExceptionObject P)) (o : ExceptionObject P)
    (f : ExceptionObject P → ExceptionObject P) :
    (l ++ [o]).modify l.length f = l ++ [f o] := by
  induction l with
  | nil => rfl
  | cons a l ih => rw [List.cons_append, List.length_cons, List.modify_succ_cons, ih]; rfl

/-- **A new exception raised from the handled one changes no object there was.** -/
theorem raiseNew_objects {h : Exceptions P} (hc : h.Closed) {handled : ExceptionRef}
    (hlt : handled < h.next) (p : P) :
    (h.raiseNew handled p).objects = h.objects ++ [⟨p, some handled, some handled⟩] := by
  have hcause : (h.make p).setCause h.next (some handled) =
      ⟨h.objects ++ [⟨p, none, some handled⟩]⟩ := by
    rw [setCause, make, next, modify_append_length]
  have hfresh : ∀ r, (⟨h.objects ++ [⟨p, none, some handled⟩]⟩ : Exceptions P).context r ≠
      some h.next := by
    intro r hr
    rw [context, find?] at hr
    by_cases hrl : r < h.objects.length
    · rw [List.getElem?_append_left hrl] at hr
      exact Nat.lt_irrefl _ (hc r h.next hr)
    · rw [List.getElem?_append_right (Nat.le_of_not_lt hrl)] at hr
      cases hrs : r - h.objects.length with
      | zero =>
        rw [hrs] at hr
        cases hr
      | succ n =>
        rw [hrs] at hr
        cases hr
  rw [raiseNew, hcause, raise, if_neg (Nat.ne_of_lt hlt), unlink_eq_self hfresh, setContext, next,
    modify_append_length]

/-- The objects there were, after a new one is raised. -/
theorem find?_raiseNew {h : Exceptions P} (hc : h.Closed) {handled : ExceptionRef}
    (hlt : handled < h.next) (p : P) {r : ExceptionRef} (hr : r < h.next) :
    (h.raiseNew handled p).find? r = h.find? r := by
  rw [find?, raiseNew_objects hc hlt, List.getElem?_append_left hr, find?]

/-- The new object: raised in the context of the handled one, and from it. -/
theorem find?_raiseNew_next {h : Exceptions P} (hc : h.Closed) {handled : ExceptionRef}
    (hlt : handled < h.next) (p : P) :
    (h.raiseNew handled p).find? h.next = some ⟨p, some handled, some handled⟩ := by
  rw [find?, raiseNew_objects hc hlt, next, List.getElem?_append_right (Nat.le_refl _),
    Nat.sub_self]
  rfl

/-- A new exception is the next. -/
theorem next_raiseNew {h : Exceptions P} (hc : h.Closed) {handled : ExceptionRef}
    (hlt : handled < h.next) (p : P) : (h.raiseNew handled p).next = h.next + 1 := by
  rw [next, raiseNew_objects hc hlt, List.length_append, next]
  rfl

/-- **An exception raised back is the object it was.** -/
theorem find?_raiseBack {h : Exceptions P} {handled value : ExceptionRef}
    {o : ExceptionObject P} (hne : handled ≠ value) (ho : h.find? value = some o) :
    (h.raiseBack handled value).find? value = some o := by
  have hun := h.find?_unlink value h.next handled hne
  rw [ho] at hun
  rw [raiseBack, raise, if_neg hne, find?_setContext_self (find?_setContext_self hun), context, ho]
  rfl

/-- A new exception is raised in the context of one there is. -/
theorem Closed.raiseNew {h : Exceptions P} (hc : h.Closed) {handled : ExceptionRef}
    (hlt : handled < h.next) (p : P) : (h.raiseNew handled p).Closed := by
  intro r c hr
  rw [next_raiseNew hc hlt]
  rw [context] at hr
  rcases Nat.lt_trichotomy r h.next with hlt' | rfl | hgt
  · rw [find?_raiseNew hc hlt p hlt'] at hr
    exact Nat.lt_succ_of_lt (hc r c hr)
  · rw [find?_raiseNew_next hc hlt] at hr
    cases hr
    exact Nat.lt_succ_of_lt hlt
  · cases hfind : (h.raiseNew handled p).find? r with
    | none =>
      rw [hfind] at hr
      cases hr
    | some o =>
      have := lt_next hfind
      rw [next_raiseNew hc hlt] at this
      exact absurd this (Nat.not_lt.2 (Nat.succ_le_of_lt hgt))

/-- Raising an exception back leaves the contexts of objects there are. -/
theorem Closed.raiseBack {h : Exceptions P} (hc : h.Closed) {handled value : ExceptionRef}
    (hlt : handled < h.next) : (h.raiseBack handled value).Closed := by
  have hraise : (h.raise handled value).Closed := by
    unfold Exceptions.raise
    split
    · exact hc
    · refine (hc.unlink value _ _).setContext _ fun x hx => ?_
      cases hx
      rwa [(h.keeps_unlink value _ _).1]
  refine hraise.setContext _ fun x hx => ?_
  rw [(h.keeps_raise handled value).1]
  exact hc value x hx

/-- Raising an exception back keeps every payload and cause. -/
theorem keeps_raiseBack (h : Exceptions P) (handled value : ExceptionRef) :
    h.Keeps (h.raiseBack handled value) :=
  (h.keeps_raise handled value).trans (keeps_setContext _ _ _)

end Exceptions

end Lib
