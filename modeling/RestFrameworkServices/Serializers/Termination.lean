import RestFrameworkServices.Serializers.Surface
import RestFrameworkServices.Serializers.WireNames
import RestFrameworkServices.Audience.Projection
import Mathlib.Data.Fintype.Pigeonhole
import Mathlib.Order.Monotone.Basic

/-!
# Which walks end

The walk of the schema ends over finitely many classes whatever they nest, for it counts the classes
on its path. The walks dispatch and rendering run on the same serializer, `_wire_names` and
`_project`, count nothing: `walks_end_iff_no_chain` gives the exact condition, and a class that nests
itself breaks it (`tree_describable_endless`). Where no class does, `_project` ends.
-/

namespace RestFrameworkServices

open Lib

universe u v

variable {C : Type u} {S : Type v}

namespace Declarations

variable (G : Declarations C S)

/-- `serializer_to_schema` ends on a serializer, in both directions and with no `max_depth`. -/
def Describable [DecidableEq C] (s : S) : Prop :=
  (G.schemaWalk false none).Ends ([], s) ∧ (G.schemaWalk true none).Ends ([], s)

/-- An endless chain of serializers starts at one, each read by `_wire_names` off the one before. -/
def WireChain (s : S) : Prop := ∃ f : ℕ → S, f 0 = s ∧ ∀ n, G.WireNests (f (n + 1)) (f n)

/-- An endless chain of serializers starts at one, each read by `_project` off the one before. -/
def ProjectChain (s : S) : Prop := ∃ f : ℕ → S, f 0 = s ∧ ∀ n, G.ProjectNests (f (n + 1)) (f n)

/-- Over finitely many classes the schema's walk ends. -/
theorem describable [DecidableEq C] [Fintype C] (s : S) : G.Describable s := by
  refine ⟨⟨budget ([] : List C) + 1, ?_⟩, ⟨budget ([] : List C) + 1, ?_⟩⟩
  · exact G.isSome_schemaWalk false none (Nat.lt_succ_self _)
  · exact G.isSome_schemaWalk true none (Nat.lt_succ_self _)

/-- **On a serializer the schema describes, `_wire_names` and `_project` end exactly where neither
can follow its fields forever.** -/
theorem walks_end_iff_no_chain [DecidableEq C] (isEmpty : AudienceProjection → Bool) (s : S) :
    (G.Describable s → G.wireWalk.Ends s ∧ (G.projectWalk isEmpty).Ends s) ↔
      (G.Describable s → ¬ G.WireChain s ∧ ¬ G.ProjectChain s) := by
  refine imp_congr_right fun _ => and_congr ?_ ?_
  · exact G.wireWalk_ends_iff_no_chain
  · exact G.projectWalk_ends_iff_no_chain isEmpty

end Declarations

/-- A tree: rows of one class, each with its children under `many=True`. -/
def tree : Declarations Unit Unit where
  cls _ := ()
  fields _ := {
    entries := [("children", {
      source := "children", readOnly := false, writeOnly := false, required := true
      allowNull := false, hidden := false, default := .empty, label := none, helpText := none
      style := [], choices := none, shape := .many () })]
    nodup := List.nodup_singleton _ }

/-- The schema describes the tree, and neither `_wire_names` nor `_project` of it ends. -/
theorem tree_describable_endless : tree.Describable () ∧ ¬ tree.wireWalk.Ends () ∧
    ∀ isEmpty, ¬ (tree.projectWalk isEmpty).Ends () := by
  refine ⟨tree.describable (), fun hwire => ?_, fun isEmpty hproject => ?_⟩
  · refine tree.wireWalk_ends_iff_no_chain.1 hwire ⟨fun _ => (), rfl, fun _ => ?_⟩
    exact ⟨_, List.mem_singleton_self _, rfl⟩
  · refine (tree.projectWalk_ends_iff_no_chain isEmpty).1 hproject ⟨fun _ => (), rfl, fun _ => ?_⟩
    exact ⟨[], _, [], rfl, rfl, ⟨none, rfl⟩, List.forall_mem_nil _⟩

/-! ## Trees -/

namespace Declarations

variable (G : Declarations C S)

/-- A serializer's schema describes another in one of its fields. -/
def Nests (s t : S) : Prop := ∃ e ∈ (G.fields s).entries, t ∈ e.2.shape.serializers

/-- Below a serializer a class nests itself. -/
def SelfNesting (s : S) : Prop :=
  ∃ t u, Relation.ReflTransGen G.Nests s t ∧ Relation.TransGen G.Nests t u ∧ G.cls t = G.cls u

/-- What `_project` recurses into, the schema describes. -/
theorem mem_serializers_of_projected {t : S} :
    ∀ {shape : Shape S}, shape.projected = some t → t ∈ shape.serializers
  | .many _, h | .nested _, h | .list (.nested _), h => by
    cases h
    exact List.mem_singleton_self _

/-- Over finitely many classes an endless chain of nested serializers meets a class again. -/
theorem selfNesting_of_chain [Finite C] {f : ℕ → S} (h : ∀ n, G.Nests (f n) (f (n + 1))) :
    G.SelfNesting (f 0) := by
  obtain ⟨i, j, hij, hcls⟩ : ∃ i j, i < j ∧ G.cls (f i) = G.cls (f j) := by
    obtain ⟨i, j, hcls, hne⟩ := Finite.exists_ne_map_eq_of_infinite fun n => G.cls (f n)
    rcases Nat.lt_or_gt_of_ne hcls with hlt | hlt
    · exact ⟨i, j, hlt, hne⟩
    · exact ⟨j, i, hlt, hne.symm⟩
  refine ⟨f i, f j, ?_, ?_, hcls⟩
  · exact Nat.rel_of_forall_rel_succ_of_le _ (fun n => .single (h n)) (Nat.zero_le i)
  · exact Nat.rel_of_forall_rel_succ_of_lt _ (fun n => .single (h n)) hij

/-- **`_project` ends on a tree over finitely many classes none of which nests itself.** -/
theorem projectWalk_ends_of_tree [Finite C] (isEmpty : AudienceProjection → Bool) {s : S}
    (h : ¬ G.SelfNesting s) : (G.projectWalk isEmpty).Ends s := by
  rw [projectWalk_ends_iff_no_chain]
  rintro ⟨f, rfl, hf⟩
  refine h (G.selfNesting_of_chain fun n => ?_)
  obtain ⟨pre, e, post, hfields, ht, -⟩ := hf n
  refine ⟨e, ?_, mem_serializers_of_projected ht⟩
  rw [hfields]
  exact List.mem_append_right _ List.mem_cons_self

end Declarations

end RestFrameworkServices
