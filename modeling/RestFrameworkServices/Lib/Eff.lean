import Mathlib.Data.List.Forall2
import Mathlib.Order.Defs.Unbundled

/-!
# Computations whose state outlives an exception

`Eff σ ε α` is a computation over a state `σ` that answers an `α` or raises an `ε`, and leaves a state
either way, as a Python function does. `Eff.attempt` is `try`/`except`, and `Eff.within` sets a part of
the state for the extent of a computation and puts back what it was, however the computation ends
(`ContextVar.set` and `reset` under a `finally`).

`Keeps R m` says the state `m` leaves is related to the one it began in, `Triple P m Q X` what holds of
the state before and after, and `Agree P m m'` that `m` and `m'` do the same from every state of `P`. Each
has a rule for each construct.
-/

namespace Lib

universe u

/-- A computation: from a state, its answer or what it raises, and the state it leaves. -/
def Eff (σ ε α : Type u) : Type u := σ → Except ε α × σ

namespace Eff

variable {σ ε α β ν : Type u}

/-- To answer a value. -/
def answer (a : α) : Eff σ ε α := fun s => (.ok a, s)

/-- To raise an exception. -/
def raise (e : ε) : Eff σ ε α := fun s => (.error e, s)

/-- To go on with an answer. What is raised is raised on. -/
def andThen (m : Eff σ ε α) (f : α → Eff σ ε β) : Eff σ ε β := fun s =>
  match m s with
  | (.ok a, s') => f a s'
  | (.error e, s') => (.error e, s')

instance : Monad (Eff σ ε) where
  pure := answer
  bind := andThen

/-- To write the state. -/
def modify (f : σ → σ) : Eff σ ε PUnit := fun s => (.ok ⟨⟩, f s)

/-- `try` and `except`: what came of a computation, whichever it was. -/
def attempt (m : Eff σ ε α) : Eff σ ε (Except ε α) := fun s => (.ok (m s).1, (m s).2)

/-- To answer, or to raise. -/
def ofExcept : Except ε α → Eff σ ε α
  | .ok a => answer a
  | .error e => raise e

/-- Computations of no answer, one after the other, up to the first that raises. -/
def inOrder : List (Eff σ ε PUnit) → Eff σ ε PUnit
  | [] => answer ⟨⟩
  | m :: ms => andThen m fun _ => inOrder ms

/-- A part of the state, `v` for the extent of a computation, and then what it was. -/
def within (part : σ → ν) (put : ν → σ → σ) (v : ν) (m : Eff σ ε α) : Eff σ ε α := fun s =>
  ((m (put v s)).1, put (part s) (m (put v s)).2)

/-! ### What each construct does from a state -/

/-- What comes of going on, by what came before. -/
theorem bind_apply (m : Eff σ ε α) (f : α → Eff σ ε β) (s : σ) :
    (m >>= f) s = match m s with
      | (.ok a, s') => f a s'
      | (.error e, s') => (.error e, s') := rfl

/-- Where there is an answer, what goes on from it is run in the state it leaves. -/
theorem bind_of_ok {m : Eff σ ε α} {f : α → Eff σ ε β} {s s' : σ} {a : α} (h : m s = (.ok a, s')) :
    (m >>= f) s = f a s' := by
  rw [bind_apply, h]

instance : LawfulMonad (Eff σ ε) :=
  LawfulMonad.mk' _
    (fun m => funext fun s => by
      change (m >>= pure) s = m s
      rw [bind_apply]
      split <;> exact (‹m s = _›).symm)
    (fun _ _ => rfl)
    (fun m f g => funext fun s => by
      rw [bind_apply, bind_apply, bind_apply]
      rcases m s with ⟨_ | a, s'⟩ <;> rfl)

@[simp] theorem ofExcept_ok_bind (a : α) (f : α → Eff σ ε β) : (ofExcept (.ok a) >>= f) = f a := rfl

@[simp] theorem ofExcept_error_bind (e : ε) (f : α → Eff σ ε β) :
    (ofExcept (.error e) >>= f) = raise e := rfl

@[simp] theorem attempt_ofExcept (r : Except ε α) :
    attempt (ofExcept r : Eff σ ε α) = ofExcept (.ok r) := by
  cases r <;> rfl

/-- What goes on from an answer answers where it does from the answer. -/
theorem bind_eq_ok_iff {m : Eff σ ε α} {f : α → Eff σ ε β} {s s' : σ} {b : β} :
    (m >>= f) s = (.ok b, s') ↔ ∃ a t, m s = (.ok a, t) ∧ f a t = (.ok b, s') := by
  rw [bind_apply]
  rcases m s with ⟨_ | a, t⟩ <;> simp

/-! ## What a computation keeps -/

section
variable {R : σ → σ → Prop}

/-- The state a computation leaves is related to the one it began in, however it ends. -/
def Keeps (R : σ → σ → Prop) (m : Eff σ ε α) : Prop := ∀ s, R s (m s).2

/-- A write keeps what holds between the state before it and after it. -/
theorem keeps_modify {f : σ → σ} (h : ∀ s, R s (f s)) : Keeps R (modify f : Eff σ ε PUnit) := h

/-- What is attempted leaves the state it leaves. -/
theorem Keeps.attempt {m : Eff σ ε α} (hm : Keeps R m) : Keeps R (attempt m) := hm

/-- A computation within a part of the state keeps what its own states keep, once the part is put
back. -/
theorem Keeps.within {part : σ → ν} {put : ν → σ → σ} {v : ν} {m : Eff σ ε α} (hm : Keeps R m)
    (hput : ∀ s s', R (put v s) s' → R s (put (part s) s')) : Keeps R (within part put v m) :=
  fun s => hput s _ (hm (put v s))

variable [IsPreorder σ R]

/-- An answer leaves the state as it is. -/
theorem keeps_pure (a : α) : Keeps R (pure a : Eff σ ε α) := fun s => refl_of R s

/-- So does an exception. -/
theorem keeps_raise (e : ε) : Keeps R (raise e : Eff σ ε α) := fun s => refl_of R s

/-- So does either. -/
theorem keeps_ofExcept (r : Except ε α) : Keeps R (ofExcept r : Eff σ ε α) := by
  cases r with
  | ok a => exact keeps_pure a
  | error e => exact keeps_raise e

/-- What is kept on the way and from there on is kept. -/
theorem Keeps.bind {m : Eff σ ε α} {f : α → Eff σ ε β} (hm : Keeps R m)
    (hf : ∀ a, Keeps R (f a)) : Keeps R (m >>= f) := by
  intro s
  have hs := hm s
  rw [bind_apply]
  rcases hms : m s with ⟨_ | a, s'⟩
  · rw [hms] at hs
    exact hs
  · rw [hms] at hs
    exact trans_of R hs (hf a s')

/-- What every computation of a list keeps, the list does. -/
theorem keeps_inOrder : ∀ {ms : List (Eff σ ε PUnit)}, (∀ m ∈ ms, Keeps R m) →
    Keeps R (inOrder ms)
  | [], _ => keeps_pure _
  | m :: _, h =>
    (h m List.mem_cons_self).bind fun _ =>
      keeps_inOrder fun m' hm' => h m' (List.mem_cons_of_mem m hm')

end

/-! ## What holds before and after -/

section
variable {P : σ → Prop} {Q : α → σ → Prop} {X : σ → Prop}

/-- From a state of `P`, an answer comes with a state of `Q`, and an exception with one of `X`. -/
def Triple (P : σ → Prop) (m : Eff σ ε α) (Q : α → σ → Prop) (X : σ → Prop) : Prop :=
  ∀ s, P s → match m s with
    | (.ok a, s') => Q a s'
    | (.error _, s') => X s'

/-- Nothing is said of how a computation ends. -/
theorem triple_true (m : Eff σ ε α) : Triple P m (fun _ _ => True) fun _ => True := by
  intro s _
  rcases m s with ⟨_ | a, s'⟩
  · trivial
  · trivial

/-- An answer comes in the state there is. -/
theorem triple_pure {a : α} (h : ∀ s, P s → Q a s) : Triple P (pure a : Eff σ ε α) Q X := h

/-- So does an exception. -/
theorem triple_raise {e : ε} (h : ∀ s, P s → X s) : Triple P (raise e : Eff σ ε α) Q X := h

/-- A write comes with the state written. -/
theorem triple_modify {f : σ → σ} {Q : PUnit → σ → Prop} (h : ∀ s, P s → Q ⟨⟩ (f s)) :
    Triple P (modify f : Eff σ ε PUnit) Q X := h

/-- Less is said, of fewer states. -/
theorem Triple.mono {P' : σ → Prop} {Q' : α → σ → Prop} {X' : σ → Prop} {m : Eff σ ε α}
    (hm : Triple P m Q X) (hP : ∀ s, P' s → P s) (hQ : ∀ a s, Q a s → Q' a s)
    (hX : ∀ s, X s → X' s) : Triple P' m Q' X' := by
  intro s hs
  have h := hm s (hP s hs)
  rcases hms : m s with ⟨_ | a, s'⟩
  · rw [hms] at h
    exact hX s' h
  · rw [hms] at h
    exact hQ a s' h

/-- What an answer comes with is where the rest begins. -/
theorem Triple.bind {R : α → σ → Prop} {Q : β → σ → Prop} {m : Eff σ ε α} {f : α → Eff σ ε β}
    (hm : Triple P m R X) (hf : ∀ a, Triple (R a) (f a) Q X) : Triple P (m >>= f) Q X := by
  intro s hs
  have h := hm s hs
  rw [bind_apply]
  rcases hms : m s with ⟨_ | a, s'⟩
  · rw [hms] at h
    exact h
  · rw [hms] at h
    exact hf a s' h

/-- States described in one of several ways, of each of which it holds. -/
theorem triple_exists {ι : Type*} {P : ι → σ → Prop} {m : Eff σ ε α}
    (h : ∀ i, Triple (P i) m Q X) : Triple (fun s => ∃ i, P i s) m Q X :=
  fun s ⟨i, hs⟩ => h i s hs

/-- An answer comes of a state of `P` the computation was run from. -/
theorem Triple.ran {m : Eff σ ε α} (hm : Triple P m Q X) :
    Triple P m (fun a s' => (∃ s, P s ∧ m s = (.ok a, s')) ∧ Q a s') X := by
  intro s hs
  have hs' := hm s hs
  rcases hms : m s with ⟨_ | a, s'⟩
  · rw [hms] at hs'
    exact hs'
  · rw [hms] at hs'
    exact ⟨⟨s, hs, hms⟩, hs'⟩

/-- What is refused before a computation is raised from the state it would begin in. -/
theorem triple_ofExcept_bind {r : Except ε β} {f : β → Eff σ ε α} (hX : ∀ s, P s → X s)
    (h : ∀ b, r = .ok b → Triple P (f b) Q X) : Triple P (ofExcept r >>= f) Q X := by
  cases r with
  | ok b => exact h b rfl
  | error e => exact triple_raise hX

/-- A fact of no state is at hand throughout. -/
theorem triple_and {φ : Prop} {m : Eff σ ε α} (h : φ → Triple P m Q X) :
    Triple (fun s => φ ∧ P s) m Q X :=
  fun s hs => h hs.1 s hs.2

/-- What was tried answers either way. -/
theorem Triple.attempt {m : Eff σ ε α} {Q : Except ε α → σ → Prop} {X' : σ → Prop}
    (hm : Triple P m (fun a => Q (.ok a)) X) (hX : ∀ e s, X s → Q (.error e) s) :
    Triple P (attempt m) Q X' := by
  intro s hs
  have h := hm s hs
  rw [Eff.attempt]
  rcases hms : m s with ⟨e | a, s'⟩
  · rw [hms] at h
    exact hX e s' h
  · rw [hms] at h
    exact h

/-- What each of them keeps, they keep one after the other. -/
theorem triple_inOrder : ∀ {ms : List (Eff σ ε PUnit)}, (∀ m ∈ ms, Triple P m (fun _ => P) X) →
    Triple P (inOrder ms) (fun _ => P) X
  | [], _ => triple_pure fun _ hs => hs
  | m :: _, h =>
    Triple.bind (h m List.mem_cons_self) fun _ =>
      triple_inOrder fun m' hm' => h m' (List.mem_cons_of_mem m hm')

/-- A computation that keeps a relation keeps what the relation carries over. -/
theorem Keeps.triple {R : σ → σ → Prop} {m : Eff σ ε α} (hm : Keeps R m)
    (h : ∀ s s', P s → R s s' → P s') : Triple P m (fun _ => P) P := by
  intro s hs
  have h' := h s _ hs (hm s)
  rcases hms : m s with ⟨_ | a, s'⟩
  · rwa [hms] at h'
  · rwa [hms] at h'

end

/-! ## Two computations that do the same -/

section
variable {P : σ → Prop}

/-- Two computations do the same from every state of `P`. -/
def Agree (P : σ → Prop) (m m' : Eff σ ε α) : Prop := ∀ s, P s → m s = m' s

/-- A computation agrees with itself. -/
theorem Agree.refl (m : Eff σ ε α) : Agree P m m := fun _ _ => rfl

/-- Where the first of them answers in a state of `P'`, what goes on from there need agree from `P'`
only. -/
theorem Agree.bind {P' : α → σ → Prop} {m m' : Eff σ ε α} {f f' : α → Eff σ ε β}
    (hm : Agree P m m') (hP : Triple P m P' fun _ => True) (hf : ∀ a, Agree (P' a) (f a) (f' a)) :
    Agree P (m >>= f) (m' >>= f') := by
  intro s hs
  have hs' := hP s hs
  rw [bind_apply, bind_apply, ← hm s hs]
  rcases hms : m s with ⟨_ | a, s'⟩
  · rfl
  · rw [hms] at hs'
    exact hf a s' hs'

/-- Computations that agree do so attempted. -/
theorem Agree.attempt {m m' : Eff σ ε α} (hm : Agree P m m') :
    Agree P (attempt m) (attempt m') := by
  intro s hs
  rw [Eff.attempt, Eff.attempt, hm s hs]

/-- Lists of computations that agree one by one, and keep where they do, agree. -/
theorem agree_inOrder : ∀ {ms ms' : List (Eff σ ε PUnit)},
    List.Forall₂ (fun m m' => Agree P m m' ∧ Triple P m (fun _ => P) fun _ => True) ms ms' →
    Agree P (inOrder ms) (inOrder ms')
  | [], _, .nil => Agree.refl _
  | _ :: _, _, .cons h hs => h.1.bind h.2 fun _ => agree_inOrder hs

end

end Eff

end Lib
