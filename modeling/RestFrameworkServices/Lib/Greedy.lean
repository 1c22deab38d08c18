import Mathlib.Data.List.Pairwise

/-!
# Greedy search with an oracle

A list of items is tried in order, each kept where an oracle takes it beside those kept before it
(`keep`). Where a refusal stands when later items are added, what the search leaves out is refused
beside everything it kept (`foldl_keep_maximal`).
-/

namespace Lib

universe u v

section
variable {σ : Type u} {ι : Type v} (accepts : σ → Bool) (add : σ → ι → σ)

/-- Add an item where the oracle takes it. -/
def keep (s : σ) (x : ι) : σ := if accepts (add s x) then add s x else s

variable {accepts add}

/-- A property an item's addition preserves is preserved by trying it. -/
theorem keep_preserves {P : σ → Prop} {s : σ} {x : ι} (hs : P s) (hadd : P (add s x)) :
    P (keep accepts add s x) := by
  rw [keep]
  split
  · exact hadd
  · exact hs

/-- A property each addition preserves is preserved by the search. -/
theorem foldl_keep_preserves {P : σ → Prop} : ∀ (items : List ι) {s : σ},
    (∀ s, ∀ x ∈ items, P s → P (add s x)) → P s → P (items.foldl (keep accepts add) s)
  | [], _, _, hs => hs
  | x :: items, s, hadd, hs =>
    foldl_keep_preserves items (fun t y hy => hadd t y (List.mem_cons_of_mem x hy))
      (keep_preserves hs (hadd s x List.mem_cons_self hs))

/-- What is kept leaves a state that is accepted. -/
theorem accepts_keep {s : σ} (x : ι) (hs : accepts s = true) : accepts (keep accepts add s x) = true := by
  rw [keep]
  split
  · assumption
  · exact hs

/-- What the search keeps, the oracle takes together. -/
theorem accepts_foldl_keep : ∀ (items : List ι) {s : σ}, accepts s = true →
    accepts (items.foldl (keep accepts add) s) = true
  | [], _, hs => hs
  | x :: items, _, hs => accepts_foldl_keep items (accepts_keep x hs)

variable (add) in
/-- Additions in an order: what is not there yet, and what is there, through the addition of another. -/
structure Additions (before : ι → ι → Prop) (fresh holds : σ → ι → Prop) : Prop where
  fresh_add : ∀ {s x y}, before x y → fresh s y → fresh (add s x) y
  holds_self : ∀ s x, holds (add s x) x
  holds_add : ∀ {s x y}, before x y → holds s x → holds (add s y) x

variable {before : ι → ι → Prop} {fresh holds : σ → ι → Prop}

variable (accepts add before fresh) in
/-- A refused item stays refused when a later one is added. -/
def RefusalStays : Prop :=
  ∀ s x y, accepts s = true → before x y → fresh s y → accepts (add s x) = false →
    accepts (add (add s y) x) = false

/-- An item refused once is refused beside all the search keeps of the later ones. -/
theorem RefusalStays.foldl_keep (h : Additions add before fresh holds)
    (hstays : RefusalStays accepts add before fresh) {x : ι} : ∀ (items : List ι) {s : σ},
      items.Pairwise before → (∀ y ∈ items, before x y) → (∀ y ∈ items, fresh s y) →
      accepts s = true → accepts (add s x) = false →
      accepts (add (items.foldl (keep accepts add) s) x) = false
  | [], _, _, _, _, _, hrefused => hrefused
  | y :: items, s, hordered, hbefore, hfresh, hs, hrefused => by
    obtain ⟨hy, hrest⟩ := List.pairwise_cons.1 hordered
    have hrefused' : accepts (add (keep accepts add s y) x) = false :=
      @keep_preserves _ _ accepts add (fun t => accepts (add t x) = false) s y hrefused
        (hstays s x y hs (hbefore y List.mem_cons_self) (hfresh y List.mem_cons_self) hrefused)
    have hfresh' : ∀ z ∈ items, fresh (keep accepts add s y) z := fun z hz =>
      @keep_preserves _ _ accepts add (fresh · z) s y (hfresh z (List.mem_cons_of_mem y hz))
        (h.fresh_add (hy z hz) (hfresh z (List.mem_cons_of_mem y hz)))
    exact foldl_keep h hstays items hrest (fun z hz => hbefore z (List.mem_cons_of_mem y hz)) hfresh'
      (accepts_keep y hs) hrefused'

/-- **Every item is kept, or refused beside all that is kept.** -/
theorem foldl_keep_maximal (h : Additions add before fresh holds)
    (hstays : RefusalStays accepts add before fresh) : ∀ (items : List ι) {s : σ},
      items.Pairwise before → (∀ y ∈ items, fresh s y) → accepts s = true →
      ∀ x ∈ items, holds (items.foldl (keep accepts add) s) x ∨
        accepts (add (items.foldl (keep accepts add) s) x) = false
  | [], _, _, _, _, _, hx => absurd hx List.not_mem_nil
  | y :: items, s, hordered, hfresh, hs, x, hx => by
    obtain ⟨hy, hrest⟩ := List.pairwise_cons.1 hordered
    have hfresh' : ∀ z ∈ items, fresh s z := fun z hz => hfresh z (List.mem_cons_of_mem y hz)
    have hkept : ∀ z ∈ items, fresh (keep accepts add s y) z := fun z hz =>
      @keep_preserves _ _ accepts add (fresh · z) s y (hfresh' z hz)
        (h.fresh_add (hy z hz) (hfresh' z hz))
    rcases List.mem_cons.1 hx with rfl | hx
    · rw [List.foldl_cons]
      by_cases htaken : accepts (add s x) = true
      · -- Kept here, it stays through the later additions.
        rw [keep, if_pos htaken]
        exact .inl (@foldl_keep_preserves _ _ accepts add (holds · x) items _
          (fun t z hz => h.holds_add (hy z hz)) (h.holds_self s x))
      · have hrefused := Bool.eq_false_iff.2 htaken
        rw [keep, if_neg htaken]
        exact .inr (hstays.foldl_keep h items hrest hy hfresh' hs hrefused)
    · exact foldl_keep_maximal h hstays items hrest hkept (accepts_keep y hs) x hx

end

end Lib
