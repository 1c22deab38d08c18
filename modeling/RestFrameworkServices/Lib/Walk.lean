import Mathlib.Order.WellFounded
import Mathlib.Data.Nat.Notation
import Mathlib.Data.List.Forall2

/-!
# Recursive walks and when they end

A recursive walk over states `α` answers a state by consulting the answers of further states, and
may never end. It is given by its step (`Walk.step`), which reads the answers off an oracle, and run
with fuel (`Walk.run`). Which states a step consults may depend on the answers before them, as when
a refusal stops the walk, so the states are read off the oracle too (`Walk.demand`).

`Walk.ends_iff_acc` shows a walk ends at a state exactly when entering states is well-founded
there, and `Walk.ends_iff_no_chain` that this is the absence of an infinite chain of states each
entered from the one before. `Walk.isSome_run_of_measure` is the usual way to show it.
-/

namespace Lib

universe u v

/-- `g` answers as `f` does wherever `f` answers. -/
def Extends {α : Type u} {β : Type v} (f g : α → Option β) : Prop :=
  ∀ a b, f a = some b → g a = some b

/-- A walk: one step over an oracle for the answers of other states, which says what it consults. A
step answers exactly when every state it consults is answered; over an oracle that answers more it
answers alike and consults at least as much, and no more once it was answered all it consults. -/
structure Walk (α : Type u) (β : Type v) where
  step : (α → Option β) → α → Option β
  demand : (α → Option β) → α → List α
  isSome_step : ∀ f a, (step f a).isSome ↔ ∀ c ∈ demand f a, (f c).isSome
  step_mono : ∀ {f g : α → Option β} {a b}, Extends f g → step f a = some b → step g a = some b
  demand_mono : ∀ {f g : α → Option β} {a}, Extends f g → demand f a ⊆ demand g a
  demand_stable : ∀ {f g : α → Option β} {a}, Extends f g →
    (∀ c ∈ demand f a, (f c).isSome) → demand g a ⊆ demand f a

namespace Walk

variable {α : Type u} {β : Type v} (w : Walk α β)

/-- The walk, run with fuel. -/
def run : ℕ → α → Option β
  | 0, _ => none
  | n + 1, a => w.step (run n) a

/-- The walk ends at a state: some fuel is enough. -/
def Ends (a : α) : Prop := ∃ n, (w.run n a).isSome

/-- One more unit of fuel changes no answer. -/
theorem run_extends_succ : ∀ n, Extends (w.run n) (w.run (n + 1))
  | 0, _, _, h => nomatch h
  | n + 1, _, _, h => w.step_mono (run_extends_succ n) h

/-- More fuel changes no answer. -/
theorem run_extends {n m : ℕ} (h : n ≤ m) : Extends (w.run n) (w.run m) := by
  induction h with
  | refl => exact fun _ _ hb => hb
  | step _ ih => exact fun a b hb => w.run_extends_succ _ a b (ih a b hb)

/-- A walk has one answer at a state, whatever the fuel. -/
theorem run_unique {n m : ℕ} {a : α} {b c : β} (hb : w.run n a = some b)
    (hc : w.run m a = some c) : b = c := by
  have hb := w.run_extends (Nat.le_max_left n m) a b hb
  have hc := w.run_extends (Nat.le_max_right n m) a c hc
  exact Option.some.inj (hb.symm.trans hc)

open Classical in
/-- The answer of a walk that ends. -/
noncomputable def value (a : α) : Option β :=
  if h : ∃ n, (w.run n a).isSome then w.run h.choose a else none

/-- An answer of any run is the walk's. -/
theorem run_extends_value (n : ℕ) : Extends (w.run n) w.value := by
  intro a b hb
  have h : ∃ n, (w.run n a).isSome := ⟨n, by simp [hb]⟩
  obtain ⟨c, hc⟩ := Option.isSome_iff_exists.1 h.choose_spec
  rw [value, dif_pos h, hc, w.run_unique hc hb]

/-- The walk's answer is some run's. -/
theorem exists_run_of_value {a : α} {b : β} (h : w.value a = some b) : ∃ n, w.run n a = some b := by
  unfold value at h
  split at h
  · next hex => exact ⟨hex.choose, h⟩
  · cases h

/-- `c` is a state the walk enters from `a`. -/
def Enters (c a : α) : Prop := c ∈ w.demand w.value a

/-- Fuel that is enough for each state of a list is enough for all of them. -/
theorem exists_run_of_forall_ends : ∀ {l : List α}, (∀ c ∈ l, w.Ends c) →
    ∃ n, ∀ c ∈ l, (w.run n c).isSome
  | [], _ => ⟨0, nofun⟩
  | c :: l, h => by
    rw [List.forall_mem_cons] at h
    obtain ⟨n, hn⟩ := h.1
    obtain ⟨m, hm⟩ := exists_run_of_forall_ends h.2
    have hmono : ∀ {k i : ℕ} {a : α}, k ≤ i → (w.run k a).isSome → (w.run i a).isSome := by
      intro k i a hki hk
      obtain ⟨b, hb⟩ := Option.isSome_iff_exists.1 hk
      rw [w.run_extends hki a b hb]
      rfl
    refine ⟨max n m, List.forall_mem_cons.2 ⟨hmono (Nat.le_max_left n m) hn, fun d hd => ?_⟩⟩
    exact hmono (Nat.le_max_right n m) (hm d hd)

/-- A walk that ends at every state it enters from `a` ends at `a`. -/
theorem ends_of_enters {a : α} (h : ∀ c, w.Enters c a → w.Ends c) : w.Ends a := by
  obtain ⟨n, hn⟩ := w.exists_run_of_forall_ends h
  refine ⟨n + 1, (w.isSome_step _ _).2 fun c hc => hn c ?_⟩
  exact w.demand_mono (w.run_extends_value n) hc

/-- Where a run answers, the walk enters the states the run consulted. -/
theorem mem_demand_run {n : ℕ} {a c : α} (h : (w.run (n + 1) a).isSome) (hc : w.Enters c a) :
    c ∈ w.demand (w.run n) a :=
  w.demand_stable (w.run_extends_value n) ((w.isSome_step (w.run n) a).1 h) hc

/-- Entering states is well-founded at a state where a run answers. -/
theorem acc_of_run : ∀ {n : ℕ} {a : α}, (w.run n a).isSome → Acc w.Enters a
  | 0, _, h => nomatch h
  | n + 1, a, h => by
    refine .intro a fun c hc => acc_of_run (n := n) ?_
    exact (w.isSome_step _ _).1 h c (w.mem_demand_run h hc)

/-- **A walk ends at a state exactly when entering states is well-founded there.** -/
theorem ends_iff_acc {a : α} : w.Ends a ↔ Acc w.Enters a := by
  constructor
  · rintro ⟨n, hn⟩
    exact w.acc_of_run hn
  · intro h
    induction h with
    | intro a _ ih => exact w.ends_of_enters ih

/-- **A walk ends at a state exactly when no infinite chain of states, each entered from the one
before, starts there.** -/
theorem ends_iff_no_chain {a : α} :
    w.Ends a ↔ ¬ ∃ f : ℕ → α, f 0 = a ∧ ∀ n, w.Enters (f (n + 1)) (f n) := by
  rw [ends_iff_acc, ← not_acc_iff_exists_descending_chain, not_not]

/-- A walk whose states come down in a measure ends everywhere, with fuel above the measure. -/
theorem isSome_run_of_measure (μ : α → ℕ) (h : ∀ f a, ∀ c ∈ w.demand f a, μ c < μ a) :
    ∀ {n : ℕ} {a : α}, μ a < n → (w.run n a).isSome
  | 0, _, hn => absurd hn (Nat.not_lt_zero _)
  | n + 1, a, hn => by
    refine (w.isSome_step _ _).2 fun c hc => isSome_run_of_measure μ h ?_
    have := h _ a c hc
    omega

end Walk

/-! ## Steps over lists -/

section
variable {α : Type u} {β : Type v}

/-- A run over a list answers exactly when each of its members is answered. -/
theorem isSome_mapM {f : α → Option β} : ∀ {l : List α},
    (l.mapM f).isSome ↔ ∀ a ∈ l, (f a).isSome
  | [] => by simp
  | a :: l => by
    have ih : (l.mapM f).isSome ↔ ∀ a ∈ l, (f a).isSome := isSome_mapM
    rw [List.mapM_cons, List.forall_mem_cons, ← ih]
    cases f a <;> cases l.mapM f <;> simp

/-- A run over a list answers alike over a function that answers more. -/
theorem mapM_mono {f g : α → Option β} : ∀ {l : List α} {r : List β},
    (∀ a ∈ l, ∀ b, f a = some b → g a = some b) → l.mapM f = some r → l.mapM g = some r
  | [], _, _, h => h
  | a :: l, r, hfg, h => by
    rw [List.forall_mem_cons] at hfg
    simp only [List.mapM_cons, Option.bind_eq_bind, Option.bind_eq_some_iff, Option.pure_def,
      Option.some.injEq] at h ⊢
    obtain ⟨b, hb, bs, hbs, rfl⟩ := h
    exact ⟨b, hfg.1 b hb, bs, mapM_mono hfg.2 hbs, rfl⟩

/-- The answers of a run over a list are those of its members, in order. -/
theorem mapM_eq_some_iff {f : α → Option β} : ∀ {l : List α} {r : List β},
    l.mapM f = some r ↔ List.Forall₂ (fun a b => f a = some b) l r
  | [], r => by
    cases r <;> simp
  | a :: l, r => by
    simp only [List.mapM_cons, Option.bind_eq_bind, Option.bind_eq_some_iff, Option.pure_def,
      Option.some.injEq]
    constructor
    · rintro ⟨b, hb, bs, hbs, rfl⟩
      exact .cons hb (mapM_eq_some_iff.1 hbs)
    · rintro (_ | ⟨hb, hbs⟩)
      exact ⟨_, hb, _, mapM_eq_some_iff.2 hbs, rfl⟩

/-- Of a run that is not refused, what comes first is not, and what comes of its answer is the run's. -/
theorem exists_of_bind_eq_ok {ε : Type v} {γ δ : Type u} {x : Except ε γ} {f : γ → Except ε δ} {d : δ}
    (h : x >>= f = .ok d) : ∃ c, x = .ok c ∧ f c = .ok d := by
  cases x with
  | error e => cases h
  | ok c => exact ⟨c, rfl, h⟩

/-- A run over a list that is not refused gives each member's result, in order. -/
theorem forall₂_of_mapM_eq_ok {ε : Type*} {f : α → Except ε β} : ∀ {l : List α} {r : List β},
    l.mapM f = .ok r → List.Forall₂ (fun a b => f a = .ok b) l r
  | [], r, h => by
    cases h
    exact .nil
  | a :: l, r, h => by
    rw [List.mapM_cons] at h
    obtain ⟨b, hb, h⟩ := exists_of_bind_eq_ok h
    obtain ⟨bs, hbs, h⟩ := exists_of_bind_eq_ok h
    cases h
    exact .cons hb (forall₂_of_mapM_eq_ok hbs)

/-- A member of a run's answers is the answer of a member of the list. -/
theorem exists_of_mem_mapM {f : α → Option β} {l : List α} {r : List β} (h : l.mapM f = some r)
    {b : β} (hb : b ∈ r) : ∃ a ∈ l, f a = some b := by
  induction mapM_eq_some_iff.1 h with
  | nil => cases hb
  | @cons a c l r hac hlr ih =>
    rcases List.mem_cons.1 hb with rfl | hb
    · exact ⟨a, List.mem_cons_self, hac⟩
    · obtain ⟨d, hd, hdb⟩ := ih (mapM_eq_some_iff.2 hlr) hb
      exact ⟨d, List.mem_cons_of_mem _ hd, hdb⟩

/-- What an answer shares with its member, a run's answers share with the list, in order. -/
theorem map_eq_of_mapM {γ : Type*} {f : α → Option β} {g : β → γ} {k : α → γ}
    (hfg : ∀ a b, f a = some b → g b = k a) {l : List α} {r : List β} (h : l.mapM f = some r) :
    r.map g = l.map k := by
  induction mapM_eq_some_iff.1 h with
  | nil => rfl
  | cons hac hlr ih =>
    rw [List.map_cons, List.map_cons, hfg _ _ hac, ih (mapM_eq_some_iff.2 hlr)]

end

end Lib
