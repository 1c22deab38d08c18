import Mathlib.Data.List.Nodup
import Mathlib.Data.List.Perm.Subperm
import Mathlib.Data.List.Perm.Lattice
import Mathlib.Data.List.Flatten

/-!
# Insertion-ordered dictionaries

A mapping that keeps the order in which its keys were first written, as a list of entries whose
keys are distinct (`Dict.nodup`). Writing a key that is there keeps its place and replaces its
value (`assign`); building from a sequence of pairs is a run of writes, so the last pair of a key
is the one that stays (`Dict.get?_ofList`), in the place of the first.

The list functions (`assign`, `ofPairs`) are defined apart from the structure, since a tree whose
nodes are mappings holds its entries as a bare list. What a run of writes keeps is said twice: as a
lookup (`lookup_ofPairs`) and as a multiset (`ofPairs_perm_lastOf`). The second gives the exact
condition under which a measurement of the entries loses nothing (`flatMap_ofPairs_perm_iff`).
-/

namespace Lib

universe u v w

section
variable {κ : Type u} {α : Type v} {β : Type w}

/-! ## Keys -/

/-- The keys of a list of entries. -/
def keysOf (es : List (κ × α)) : List κ := es.map Prod.fst

@[simp] theorem keysOf_nil : keysOf ([] : List (κ × α)) = [] := rfl

@[simp] theorem keysOf_cons (e : κ × α) (es : List (κ × α)) :
    keysOf (e :: es) = e.1 :: keysOf es := rfl

/-- The key of an entry is a key of the list. -/
theorem mem_keysOf_of_mem {e : κ × α} {es : List (κ × α)} (h : e ∈ es) : e.1 ∈ keysOf es :=
  List.mem_map_of_mem h

/-- A sublist of entries with distinct keys has distinct keys. -/
theorem nodup_keysOf_sublist {es ds : List (κ × α)} (h : es.Sublist ds)
    (hd : (keysOf ds).Nodup) : (keysOf es).Nodup :=
  hd.sublist (h.map Prod.fst)

/-- An entry of a filtered and mapped list has the key of an entry it came from. -/
theorem mem_of_mem_keysOf_filterMap {f : κ → α → Option β} {k : κ} {es : List (κ × α)}
    (h : k ∈ keysOf (es.filterMap fun e => (f e.1 e.2).map (e.1, ·))) : k ∈ keysOf es := by
  obtain ⟨e, he, rfl⟩ := List.mem_map.1 h
  obtain ⟨d, hd, hde⟩ := List.mem_filterMap.1 he
  obtain ⟨b, -, rfl⟩ := Option.map_eq_some_iff.1 hde
  exact mem_keysOf_of_mem hd

/-- Entries with distinct keys that are all one entry are that entry alone. -/
theorem eq_singleton_of_nodup {e : κ × α} {es : List (κ × α)} (hnodup : (keysOf es).Nodup)
    (hmem : e ∈ es) (hall : ∀ d ∈ es, d = e) : es = [e] := by
  cases es with
  | nil => cases hmem
  | cons d ds =>
    rw [List.forall_mem_cons] at hall
    obtain ⟨rfl, hrest⟩ := hall
    rw [keysOf_cons, List.nodup_cons] at hnodup
    cases ds with
    | nil => rfl
    | cons c cs =>
      have hc := hrest c List.mem_cons_self
      exact absurd (hc ▸ List.mem_cons_self) hnodup.1

/-- Filtering and mapping keeps distinct keys distinct. -/
theorem nodup_keysOf_filterMap (f : κ → α → Option β) : ∀ {es : List (κ × α)},
    (keysOf es).Nodup → (keysOf (es.filterMap fun e => (f e.1 e.2).map (e.1, ·))).Nodup
  | [], h => h
  | (k, a) :: es, h => by
    rw [keysOf_cons, List.nodup_cons] at h
    have ih := nodup_keysOf_filterMap f h.2
    cases hf : f k a with
    | none => simpa [List.filterMap_cons, hf] using ih
    | some b =>
      simp only [List.filterMap_cons, hf, Option.map_some, keysOf_cons, List.nodup_cons]
      exact ⟨fun hmem => h.1 (mem_of_mem_keysOf_filterMap hmem), ih⟩

/-- Every overwritten pair of the sequence measures nothing. -/
def NoLoss (g : κ × α → List β) : List (κ × α) → Prop
  | [] => True
  | e :: l => (e.1 ∈ keysOf l → g e = []) ∧ NoLoss g l

/-- Two measurements of the same keys that measure nothing at the same places lose alike. -/
theorem noLoss_map_congr {γ : Type*} {δ : Type*} {α' : Type*} {f : γ → κ × α} {p : γ → κ × α'}
    {g : κ × α → List β} {q : κ × α' → List δ} : ∀ {l : List γ},
    (∀ c ∈ l, (f c).1 = (p c).1) → (∀ c ∈ l, g (f c) = [] ↔ q (p c) = []) →
    (NoLoss g (l.map f) ↔ NoLoss q (l.map p))
  | [], _, _ => Iff.rfl
  | c :: l, hk, hg => by
    rw [List.forall_mem_cons] at hk hg
    have hkeys : keysOf (l.map f) = keysOf (l.map p) := by
      simp only [keysOf, List.map_map]
      exact List.map_congr_left hk.2
    simp only [List.map_cons, NoLoss, hk.1, hkeys, hg.1, noLoss_map_congr hk.2 hg.2]

/-- Pointwise shorter images make a shorter concatenation. -/
theorem length_flatMap_le {γ : Type*} {δ : Type*} {ε : Type*} {f : γ → List δ} {g : γ → List ε} :
    ∀ {l : List γ}, (∀ c ∈ l, (f c).length ≤ (g c).length) →
      (l.flatMap f).length ≤ (l.flatMap g).length
  | [], _ => Nat.le_refl _
  | c :: l, h => by
    rw [List.forall_mem_cons] at h
    have ih := length_flatMap_le h.2
    simp only [List.flatMap_cons, List.length_append]
    omega

/-- Pointwise shorter images that concatenate to the same length have the same lengths. -/
theorem length_eq_of_flatMap {γ : Type*} {δ : Type*} {ε : Type*} {f : γ → List δ}
    {g : γ → List ε} : ∀ {l : List γ}, (∀ c ∈ l, (f c).length ≤ (g c).length) →
      (l.flatMap f).length = (l.flatMap g).length → ∀ c ∈ l, (f c).length = (g c).length
  | [], _, _ => by simp
  | c :: l, h, he => by
    rw [List.forall_mem_cons] at h ⊢
    have hle := length_flatMap_le h.2
    simp only [List.flatMap_cons, List.length_append] at he
    exact ⟨by omega, length_eq_of_flatMap h.2 (by omega)⟩

variable [DecidableEq κ]

/-- Looking a key up in a list with a first entry. -/
theorem lookup_cons_ite (j : κ) (e : κ × α) (es : List (κ × α)) :
    (e :: es).lookup j = if j = e.1 then some e.2 else es.lookup j := by
  obtain ⟨i, w⟩ := e
  by_cases h : j = i
  · simp [h]
  · have hb : (j == i) = false := by simpa using h
    simp [List.lookup_cons, h, hb]

/-- A key is looked up with success exactly when it is a key. -/
theorem isSome_lookup_iff {j : κ} : ∀ {es : List (κ × α)},
    (es.lookup j).isSome ↔ j ∈ keysOf es
  | [] => by simp
  | e :: es => by
    have ih : (es.lookup j).isSome ↔ j ∈ keysOf es := isSome_lookup_iff
    by_cases h : j = e.1 <;> simp [lookup_cons_ite, h, ih]

/-- Looking a key up fails exactly when it is no key. -/
theorem lookup_eq_none_iff_notMem {j : κ} {es : List (κ × α)} :
    es.lookup j = none ↔ j ∉ keysOf es := by
  rw [← isSome_lookup_iff, Option.not_isSome_iff_eq_none]

/-! ## Writes on a list of entries -/

/-- Write `v` under `k`: in the place of the key when it is there, at the end otherwise. -/
def assign (k : κ) (v : α) : List (κ × α) → List (κ × α)
  | [] => [(k, v)]
  | (j, w) :: es => if j = k then (k, v) :: es else (j, w) :: assign k v es

/-- The entries a sequence of writes leaves, starting from none. -/
def ofPairs (l : List (κ × α)) : List (κ × α) :=
  l.foldl (fun es e => assign e.1 e.2 es) []

/-- Looking a key up after a write. -/
theorem lookup_assign (k j : κ) (v : α) : ∀ es : List (κ × α),
    (assign k v es).lookup j = if j = k then some v else es.lookup j
  | [] => by simp [assign, lookup_cons_ite]
  | (i, w) :: es => by
    have ih := lookup_assign k j v es
    by_cases hi : i = k
    · subst hi
      by_cases h : j = i <;> simp [assign, lookup_cons_ite, h]
    · by_cases h : j = i
      · subst h
        simp [assign, hi, lookup_cons_ite]
      · simp [assign, hi, lookup_cons_ite, h, ih]

/-- A write keeps the keys of the list and adds its own. -/
theorem mem_keysOf_assign {k j : κ} {v : α} : ∀ {es : List (κ × α)},
    j ∈ keysOf (assign k v es) ↔ j = k ∨ j ∈ keysOf es
  | [] => by simp [assign]
  | (i, w) :: es => by
    by_cases hi : i = k
    · subst hi
      simp [assign]
    · have ih : j ∈ keysOf (assign k v es) ↔ j = k ∨ j ∈ keysOf es := mem_keysOf_assign
      simp only [assign, if_neg hi, keysOf_cons, List.mem_cons, ih]
      tauto

/-- A write of a key that is there keeps the keys as they are. -/
theorem keysOf_assign_of_mem {k : κ} {v : α} : ∀ {es : List (κ × α)}, k ∈ keysOf es →
    keysOf (assign k v es) = keysOf es
  | (i, w) :: es, h => by
    by_cases hi : i = k
    · subst hi
      simp [assign]
    · have hes : k ∈ keysOf es := (List.mem_cons.1 h).resolve_left (Ne.symm hi)
      simp only [assign, if_neg hi, keysOf_cons, keysOf_assign_of_mem hes]

/-- A write of the value a key has changes nothing. -/
theorem assign_of_lookup {k : κ} {v : α} : ∀ {es : List (κ × α)}, es.lookup k = some v →
    assign k v es = es
  | (i, w) :: es, h => by
    rw [lookup_cons_ite] at h
    split at h
    · next hk =>
      cases h
      simp only [assign, hk, if_true]
    · next hk => rw [assign, if_neg (Ne.symm hk), assign_of_lookup h]

/-- A write leaves an entry. -/
theorem assign_ne_nil (k : κ) (v : α) : ∀ es : List (κ × α), assign k v es ≠ []
  | [] => List.cons_ne_nil _ _
  | (i, w) :: es => by
    rw [assign]
    split <;> exact List.cons_ne_nil _ _

/-- A write keeps distinct keys distinct. -/
theorem nodup_assign {k : κ} {v : α} : ∀ {es : List (κ × α)},
    (keysOf es).Nodup → (keysOf (assign k v es)).Nodup
  | [], _ => by simp [assign]
  | (i, w) :: es, h => by
    rw [keysOf_cons, List.nodup_cons] at h
    by_cases hi : i = k
    · subst hi
      simpa [assign] using h
    · simp only [assign, if_neg hi, keysOf_cons, List.nodup_cons]
      refine ⟨fun hmem => ?_, nodup_assign h.2⟩
      rcases mem_keysOf_assign.1 hmem with rfl | hmem
      · exact hi rfl
      · exact h.1 hmem

/-- A run of writes keeps distinct keys distinct. -/
theorem nodup_foldl_assign : ∀ (l : List (κ × α)) {es : List (κ × α)},
    (keysOf es).Nodup → (keysOf (l.foldl (fun es e => assign e.1 e.2 es) es)).Nodup
  | [], _, h => h
  | e :: l, _, h => nodup_foldl_assign l (nodup_assign (k := e.1) (v := e.2) h)

/-- Looking a key up after a run of writes: the last write of the key, else what was there. -/
theorem lookup_foldl_assign (j : κ) : ∀ (l es : List (κ × α)),
    (l.foldl (fun es e => assign e.1 e.2 es) es).lookup j =
      (l.reverse.lookup j).or (es.lookup j)
  | [], es => by simp
  | (k, v) :: l, es => by
    rw [List.foldl_cons, lookup_foldl_assign j l, lookup_assign, List.reverse_cons,
      List.lookup_append]
    by_cases h : j = k
    · subst h
      cases l.reverse.lookup j <;> simp
    · cases l.reverse.lookup j <;> simp [h, lookup_cons_ite]

/-- A write of a key that is not there is the last entry. -/
theorem assign_of_notMem {k : κ} {v : α} : ∀ {es : List (κ × α)}, k ∉ keysOf es →
    assign k v es = es ++ [(k, v)]
  | [], _ => rfl
  | (i, w) :: es, h => by
    rw [keysOf_cons, List.mem_cons, not_or] at h
    obtain ⟨hi, hes⟩ := h
    rw [assign, if_neg fun hik => hi hik.symm, assign_of_notMem hes, List.cons_append]

/-- A run of writes of distinct keys that are not there appends the pairs. -/
theorem foldl_assign_of_nodup : ∀ {l es : List (κ × α)}, (keysOf (es ++ l)).Nodup →
    l.foldl (fun es e => assign e.1 e.2 es) es = es ++ l
  | [], es, _ => (List.append_nil es).symm
  | (k, v) :: l, es, h => by
    have hk : k ∉ keysOf es := by
      intro hmem
      rw [keysOf, List.map_append, List.nodup_append] at h
      exact h.2.2 k hmem k List.mem_cons_self rfl
    have hes : (keysOf ((es ++ [(k, v)]) ++ l)).Nodup := by
      rwa [List.append_assoc]
    rw [List.foldl_cons, assign_of_notMem hk, foldl_assign_of_nodup hes, List.append_assoc]
    rfl

/-- Dropping keys after a write drops it where its key is one of them. -/
theorem filter_assign (p : κ → Bool) (k : κ) (v : α) (es : List (κ × α)) :
    (assign k v es).filter (fun e => p e.1) =
      if p k then assign k v (es.filter fun e => p e.1) else es.filter fun e => p e.1 := by
  induction es with
  | nil => cases hk : p k <;> simp [assign, hk]
  | cons e es ih =>
    obtain ⟨i, w⟩ := e
    by_cases hi : i = k
    · subst hi
      cases hk : p i <;> simp [assign, hk]
    · cases hpi : p i <;> cases hk : p k <;> simp [assign, hi, hpi, hk, ih]

/-- Dropping keys after a run of writes drops the writes of those keys. -/
theorem filter_foldl_assign (p : κ → Bool) (l es : List (κ × α)) :
    (l.foldl (fun es e => assign e.1 e.2 es) es).filter (fun e => p e.1) =
      (l.filter fun e => p e.1).foldl (fun es e => assign e.1 e.2 es)
        (es.filter fun e => p e.1) := by
  induction l generalizing es with
  | nil => rfl
  | cons e l ih =>
    rw [List.foldl_cons, ih, filter_assign]
    cases hp : p e.1 <;> simp [hp]

/-- Looking a key up in what a sequence of writes leaves finds its last pair. -/
theorem lookup_ofPairs (j : κ) (l : List (κ × α)) :
    (ofPairs l).lookup j = l.reverse.lookup j := by
  simp [ofPairs, lookup_foldl_assign]

/-! ## What a run of writes keeps -/

/-- The pairs of a sequence that no later pair of the same key overwrites. -/
def lastOf : List (κ × α) → List (κ × α)
  | [] => []
  | e :: l => if e.1 ∈ keysOf l then lastOf l else e :: lastOf l

/-- A write into distinct keys replaces the key's entry, up to order. -/
theorem assign_perm {k : κ} {v : α} : ∀ {es : List (κ × α)}, (keysOf es).Nodup →
    (assign k v es).Perm ((k, v) :: es.filter (fun e => e.1 ≠ k))
  | [], _ => by simp [assign]
  | (i, w) :: es, h => by
    rw [keysOf_cons, List.nodup_cons] at h
    by_cases hi : i = k
    · subst hi
      have hf : es.filter (fun e => e.1 ≠ i) = es := by
        rw [List.filter_eq_self]
        intro e he
        have : e.1 ≠ i := by
          rintro rfl
          exact h.1 (mem_keysOf_of_mem (e := e) he)
        simpa using this
      simp only [assign, if_true, List.filter_cons, ne_eq, not_true_eq_false, decide_false,
        Bool.false_eq_true, if_false]
      rw [hf]
    · simp only [assign, List.filter_cons, ne_eq, hi, not_false_eq_true, decide_true,
        if_true]
      exact ((assign_perm h.2).cons _).trans (.swap _ _ _)

/-- A run of writes leaves the untouched entries and the last pair of each written key. -/
theorem foldl_assign_perm : ∀ (l : List (κ × α)) {es : List (κ × α)}, (keysOf es).Nodup →
    (l.foldl (fun es e => assign e.1 e.2 es) es).Perm
      (es.filter (fun e => e.1 ∉ keysOf l) ++ lastOf l)
  | [], es, _ => by simp [lastOf]
  | (k, v) :: l, es, h => by
    have ih := foldl_assign_perm l (nodup_assign (k := k) (v := v) h)
    refine ih.trans ?_
    have hw := (assign_perm (k := k) (v := v) h).filter (fun e => e.1 ∉ keysOf l)
    have hes : (es.filter (fun e => e.1 ≠ k)).filter (fun e => e.1 ∉ keysOf l) =
        es.filter (fun e => e.1 ∉ keysOf ((k, v) :: l)) := by
      rw [List.filter_filter]
      refine List.filter_congr fun e _ => ?_
      simp only [keysOf_cons, List.mem_cons, not_or, Bool.decide_and]
      rw [Bool.and_comm]
    rw [List.filter_cons, hes] at hw
    by_cases hk : k ∈ keysOf l
    · simp only [hk, not_true_eq_false, decide_false, Bool.false_eq_true, if_false] at hw
      simp only [lastOf, hk, if_true]
      exact hw.append_right _
    · simp only [hk, not_false_eq_true, decide_true, if_true] at hw
      simp only [lastOf, hk, if_false]
      exact (hw.append_right _).trans List.perm_middle.symm

/-- What a sequence of writes leaves is, up to order, the last pair of each key. -/
theorem ofPairs_perm_lastOf (l : List (κ × α)) : (ofPairs l).Perm (lastOf l) := by
  have hnil : (keysOf ([] : List (κ × α))).Nodup := List.nodup_nil
  simpa [ofPairs] using foldl_assign_perm l hnil

/-- The last pairs are pairs of the sequence. -/
theorem lastOf_sublist : ∀ l : List (κ × α), (lastOf l).Sublist l
  | [] => .slnil
  | e :: l => by
    by_cases h : e.1 ∈ keysOf l
    · simpa [lastOf, h] using (lastOf_sublist l).cons e
    · simpa [lastOf, h] using (lastOf_sublist l).cons_cons e

/-- The last pairs measure as much as the whole sequence exactly when the others measure
nothing. -/
theorem length_flatMap_lastOf_iff (g : κ × α → List β) : ∀ l : List (κ × α),
    ((lastOf l).flatMap g).length = (l.flatMap g).length ↔ NoLoss g l
  | [] => by simp [lastOf, NoLoss]
  | e :: l => by
    have ih := length_flatMap_lastOf_iff g l
    have hle : ((lastOf l).flatMap g).length ≤ (l.flatMap g).length :=
      ((lastOf_sublist l).flatMap g).length_le
    by_cases h : e.1 ∈ keysOf l
    · simp only [lastOf, h, if_true, NoLoss, List.flatMap_cons, List.length_append, forall_const]
      rw [← ih, ← List.length_eq_zero_iff]
      omega
    · simp only [lastOf, h, if_false, NoLoss, List.flatMap_cons, List.length_append, ← ih]
      simp

/-- What a sequence of writes leaves measures no more than the sequence. -/
theorem length_flatMap_ofPairs_le (g : κ × α → List β) (l : List (κ × α)) :
    ((ofPairs l).flatMap g).length ≤ (l.flatMap g).length := by
  rw [((ofPairs_perm_lastOf l).flatMap_right g).length_eq]
  exact ((lastOf_sublist l).flatMap g).length_le

/-- **A sequence of writes keeps everything it measures exactly when every overwritten pair
measures nothing.** -/
theorem flatMap_ofPairs_perm_iff (g : κ × α → List β) (l : List (κ × α)) :
    ((ofPairs l).flatMap g).Perm (l.flatMap g) ↔ NoLoss g l := by
  have hp : ((ofPairs l).flatMap g).Perm ((lastOf l).flatMap g) :=
    (ofPairs_perm_lastOf l).flatMap_right g
  rw [← length_flatMap_lastOf_iff]
  constructor
  · intro h
    exact hp.symm.length_eq.trans h.length_eq
  · intro h
    have := ((lastOf_sublist l).flatMap g).eq_of_length h
    exact this ▸ hp

/-! ## Renamed keys -/

/-- Looking a key up from the end, past a first entry. -/
theorem lookup_reverse_cons (j : κ) (e : κ × α) (es : List (κ × α)) :
    (e :: es).reverse.lookup j =
      (es.reverse.lookup j).or (if j = e.1 then some e.2 else none) := by
  rw [List.reverse_cons, List.lookup_append, lookup_cons_ite]
  rfl

section
variable {γ : Type*} [DecidableEq γ] {f : κ → γ} {n : γ}

/-- Under distinct keys, a name that one key of the entries is renamed to finds that key's value. -/
theorem lookup_reverse_rename {c : κ} : ∀ {es : List (κ × α)},
    (∀ k ∈ keysOf es, f k = n ↔ k = c) → (keysOf es).Nodup →
    (es.map fun e => (f e.1, e.2)).reverse.lookup n = es.lookup c
  | [], _, _ => rfl
  | (k, v) :: es, hpre, h => by
    rw [keysOf_cons, List.nodup_cons] at h
    rw [keysOf_cons, List.forall_mem_cons] at hpre
    rw [List.map_cons, lookup_reverse_cons, lookup_reverse_rename hpre.2 h.2, lookup_cons_ite]
    simp only [eq_comm (a := n), hpre.1]
    by_cases hk : k = c
    · subst hk
      simp [lookup_eq_none_iff_notMem.2 h.1]
    · simp [hk, Ne.symm hk]

/-- Under distinct keys, a name that two keys are renamed to finds the value of the second where
it comes after the first, and otherwise the first's, if there is one. -/
theorem lookup_reverse_rename_of_two {a c : κ} (hac : a ≠ c)
    (hpre : ∀ k, f k = n ↔ k = a ∨ k = c) : ∀ {es : List (κ × α)}, (keysOf es).Nodup →
    (es.map fun e => (f e.1, e.2)).reverse.lookup n =
      if [a, c].Sublist (keysOf es) then es.lookup c else (es.lookup a).or (es.lookup c)
  | [], _ => by simp
  | (k, v) :: es, h => by
    rw [keysOf_cons, List.nodup_cons] at h
    rw [List.map_cons, lookup_reverse_cons, lookup_reverse_rename_of_two hac hpre h.2,
      keysOf_cons, lookup_cons_ite, lookup_cons_ite]
    simp only [List.cons_sublist_cons', eq_comm (a := n), hpre, List.singleton_sublist]
    by_cases ha : k = a
    · subst ha
      have hno : ¬ [k, c].Sublist (keysOf es) := fun hs => h.1 (hs.subset (by simp))
      simp only [hno, if_false, false_or, true_and, lookup_eq_none_iff_notMem.2 h.1,
        Option.none_or, true_or, if_true, Ne.symm hac]
      by_cases hc : c ∈ keysOf es
      · obtain ⟨w, hw⟩ := Option.isSome_iff_exists.1 (isSome_lookup_iff.2 hc)
        simp [hc, hw]
      · simp [hc, lookup_eq_none_iff_notMem.2 hc]
    · by_cases hc : k = c
      · subst hc
        have hno : ¬ [a, k].Sublist (keysOf es) := fun hs => h.1 (hs.subset (by simp))
        simp [hno, hac, lookup_eq_none_iff_notMem.2 h.1]
      · simp [ha, hc, Ne.symm ha, Ne.symm hc]

end

/-! ## Lookups under distinct keys -/

/-- Under distinct keys, a key's value is that of its entry. -/
theorem lookup_eq_some_of_nodup {k : κ} {v : α} : ∀ {es : List (κ × α)}, (keysOf es).Nodup →
    (es.lookup k = some v ↔ (k, v) ∈ es)
  | [], _ => by simp
  | (i, w) :: es, h => by
    rw [keysOf_cons, List.nodup_cons] at h
    have ih := lookup_eq_some_of_nodup (k := k) (v := v) h.2
    by_cases hk : k = i
    · subst hk
      have hmem : (k, v) ∉ es := fun hmem => h.1 (mem_keysOf_of_mem (e := (k, v)) hmem)
      simp only [lookup_cons_ite, if_true, Option.some.injEq, List.mem_cons, Prod.mk.injEq,
        true_and, hmem, or_false]
      exact eq_comm
    · simp [lookup_cons_ite, hk, ih]

/-- Under distinct keys, reading the entries backwards finds the same value. -/
theorem lookup_reverse_of_nodup {k : κ} {es : List (κ × α)} (h : (keysOf es).Nodup) :
    es.reverse.lookup k = es.lookup k := by
  have hr : (keysOf es.reverse).Nodup := by simpa [keysOf] using h
  refine Option.ext fun v => ?_
  rw [lookup_eq_some_of_nodup hr, lookup_eq_some_of_nodup h, List.mem_reverse]

/-- Under distinct keys, filtering the entries filters the value found. -/
theorem lookup_filter_of_nodup (p : κ → α → Bool) (k : κ) {es : List (κ × α)}
    (h : (keysOf es).Nodup) :
    (es.filter fun e => p e.1 e.2).lookup k = (es.lookup k).filter (p k) := by
  refine Option.ext fun v => ?_
  rw [lookup_eq_some_of_nodup (nodup_keysOf_sublist List.filter_sublist h), List.mem_filter,
    Option.filter_eq_some_iff, lookup_eq_some_of_nodup h]

/-- Mapping the values, each with its key, maps the value found. -/
theorem lookup_map_entries (f : κ → α → β) (k : κ) : ∀ es : List (κ × α),
    (es.map fun e => (e.1, f e.1 e.2)).lookup k = (es.lookup k).map (f k)
  | [] => rfl
  | e :: es => by
    have ih := lookup_map_entries f k es
    by_cases h : k = e.1
    · subst h
      simp [lookup_cons_ite]
    · simp [lookup_cons_ite, h, ih]

/-- Mapping the values maps the value found. -/
theorem lookup_map_values (f : α → β) (k : κ) (es : List (κ × α)) :
    (es.map fun e => (e.1, f e.2)).lookup k = (es.lookup k).map f :=
  lookup_map_entries (fun _ => f) k es

/-- Under distinct keys, filtering and mapping the entries maps the value found. -/
theorem lookup_filterMap_of_nodup (f : κ → α → Option β) (k : κ) : ∀ {es : List (κ × α)},
    (keysOf es).Nodup →
    (es.filterMap fun e => (f e.1 e.2).map (e.1, ·)).lookup k = (es.lookup k).bind (f k)
  | [], _ => rfl
  | (i, a) :: es, h => by
    rw [keysOf_cons, List.nodup_cons] at h
    have ih := lookup_filterMap_of_nodup f k h.2
    by_cases hk : k = i
    · subst hk
      cases hf : f k a with
      | none =>
        have hno : es.lookup k = none := lookup_eq_none_iff_notMem.2 h.1
        simp [hf, lookup_cons_ite, ih, hno]
      | some b => simp [hf, lookup_cons_ite]
    · cases hf : f i a <;> simp [hf, lookup_cons_ite, hk, ih]

/-- Under a listed key stands what the key is made of. -/
theorem lookup_filterMap_keys (f : κ → Option α) (k : κ) : ∀ ks : List κ,
    (ks.filterMap fun k => (f k).map (k, ·)).lookup k = if k ∈ ks then f k else none
  | [] => rfl
  | i :: ks => by
    have ih := lookup_filterMap_keys f k ks
    by_cases hk : k = i
    · subst hk
      cases hf : f k with
      | none => simp [hf, ih]
      | some v => simp [hf, lookup_cons_ite]
    · cases hf : f i <;> simp [hf, lookup_cons_ite, hk, ih]

end

/-! ## Dictionaries -/

/-- A mapping with its entries in the order their keys were first written, no key twice. -/
structure Dict (κ : Type u) (α : Type v) where
  entries : List (κ × α)
  nodup : (keysOf entries).Nodup

namespace Dict

section
variable {κ : Type u} {α : Type v} {β : Type w}

/-- The empty mapping. -/
def empty : Dict κ α := ⟨[], .nil⟩

/-- The keys, in order. -/
def keys (d : Dict κ α) : List κ := keysOf d.entries

/-- Keep the entries `p` accepts. -/
def filter (p : κ → α → Bool) (d : Dict κ α) : Dict κ α :=
  ⟨d.entries.filter fun e => p e.1 e.2, nodup_keysOf_sublist List.filter_sublist d.nodup⟩

/-- Replace every value by its image. -/
def mapValues (f : α → β) (d : Dict κ α) : Dict κ β :=
  ⟨d.entries.map fun e => (e.1, f e.2), by
    have : keysOf (d.entries.map fun e => (e.1, f e.2)) = keysOf d.entries := by
      simp [keysOf, Function.comp_def]
    exact this ▸ d.nodup⟩

instance : Membership κ (Dict κ α) := ⟨fun d k => k ∈ d.keys⟩

/-- Keep the entries `f` has an image for, each with its image. -/
def filterMap (f : κ → α → Option β) (d : Dict κ α) : Dict κ β :=
  ⟨d.entries.filterMap fun e => (f e.1 e.2).map (e.1, ·), nodup_keysOf_filterMap f d.nodup⟩

variable [DecidableEq κ]

instance [DecidableEq α] : DecidableEq (Dict κ α) := fun d e =>
  decidable_of_iff (d.entries = e.entries) ⟨fun h => by cases d; cases e; congr, (· ▸ rfl)⟩

/-- The value under a key. -/
def get? (d : Dict κ α) (k : κ) : Option α := d.entries.lookup k

/-- Write `v` under `k`. -/
def set (d : Dict κ α) (k : κ) (v : α) : Dict κ α := ⟨assign k v d.entries, nodup_assign d.nodup⟩

/-- The mapping a sequence of writes leaves. -/
def ofList (l : List (κ × α)) : Dict κ α := ⟨ofPairs l, nodup_foldl_assign l .nil⟩

/-- Write every entry of `e` into `d`. -/
def update (d e : Dict κ α) : Dict κ α :=
  ⟨e.entries.foldl (fun es e => assign e.1 e.2 es) d.entries, nodup_foldl_assign _ d.nodup⟩

/-- Rename every key, a later entry's value standing where two are renamed alike. -/
def mapKeys {γ : Type*} [DecidableEq γ] (f : κ → γ) (d : Dict κ α) : Dict γ α :=
  ofList (d.entries.map fun e => (f e.1, e.2))

/-- Drop the keys of a list. -/
def without (d : Dict κ α) (ks : List κ) : Dict κ α := d.filter fun k _ => k ∉ ks

instance (d : Dict κ α) (k : κ) : Decidable (k ∈ d) := inferInstanceAs (Decidable (k ∈ d.keys))

/-! ### Looking up -/

/-- A key is in the mapping exactly when it has a value. -/
theorem mem_iff_isSome {d : Dict κ α} {k : κ} : k ∈ d ↔ (d.get? k).isSome :=
  isSome_lookup_iff.symm

/-- A key is absent exactly when it has no value. -/
theorem get?_eq_none {d : Dict κ α} {k : κ} : d.get? k = none ↔ k ∉ d :=
  lookup_eq_none_iff_notMem

/-- A key has the value of its entry, since no other entry has the key. -/
theorem get?_eq_some {d : Dict κ α} {k : κ} {v : α} : d.get? k = some v ↔ (k, v) ∈ d.entries :=
  lookup_eq_some_of_nodup d.nodup

@[simp] theorem get?_empty (k : κ) : (empty : Dict κ α).get? k = none := rfl

/-- The values of a mapping, in the order of its keys. -/
def values (d : Dict κ α) : List α := d.entries.map Prod.snd

/-- A value is one some key has. -/
theorem mem_values {d : Dict κ α} {v : α} : v ∈ d.values ↔ ∃ k, d.get? k = some v := by
  simp only [values, List.mem_map, Prod.exists, exists_eq_right, get?_eq_some]

@[simp] theorem get?_set (d : Dict κ α) (k j : κ) (v : α) :
    (d.set k v).get? j = if j = k then some v else d.get? j :=
  lookup_assign k j v d.entries

/-- A sequence of writes leaves the last pair of each key. -/
theorem get?_ofList (l : List (κ × α)) (k : κ) : (ofList l).get? k = l.reverse.lookup k :=
  lookup_ofPairs k l

/-- A value a sequence of writes leaves is the value of one of its pairs. -/
theorem mem_of_get?_ofList {l : List (κ × α)} {k : κ} {v : α} (h : (ofList l).get? k = some v) :
    (k, v) ∈ l := by
  rw [get?_ofList] at h
  obtain ⟨l₁, l₂, hl, -⟩ := List.lookup_eq_some_iff.1 h
  rw [← List.mem_reverse, hl]
  exact List.mem_append_right _ (List.mem_cons_self)

/-- An update's own value stands; without one the old value does. -/
@[simp] theorem get?_update (d e : Dict κ α) (k : κ) :
    (d.update e).get? k = (e.get? k).or (d.get? k) := by
  rw [get?, update, lookup_foldl_assign, lookup_reverse_of_nodup e.nodup]
  rfl

/-- Writing a mapping into the empty one copies it. -/
theorem empty_update (d : Dict κ α) : (empty : Dict κ α).update d = d := by
  cases d with
  | mk entries nodup =>
    rw [update, mk.injEq]
    exact foldl_assign_of_nodup nodup

/-- Updating by nothing changes nothing. -/
theorem update_empty (d : Dict κ α) : d.update empty = d := rfl

/-- A filtered mapping holds the values the filter accepts. -/
@[simp] theorem get?_filter (p : κ → α → Bool) (d : Dict κ α) (k : κ) :
    (d.filter p).get? k = (d.get? k).filter (p k) :=
  lookup_filter_of_nodup p k d.nodup

/-- A dropped key holds nothing, and any other what it held. -/
@[simp] theorem get?_without (d : Dict κ α) (ks : List κ) (k : κ) :
    (d.without ks).get? k = if k ∈ ks then none else d.get? k := by
  rw [without, get?_filter]
  by_cases h : k ∈ ks <;> cases d.get? k <;> simp [h]

/-- Dropping one key leaves the others. -/
theorem get?_without_of_ne {d : Dict κ α} {k n : κ} (h : n ≠ k) :
    (d.without [k]).get? n = d.get? n := by
  rw [get?_without, if_neg fun hmem => h (List.mem_singleton.1 hmem)]

/-- The keys left, in order. -/
theorem keys_without (d : Dict κ α) (ks : List κ) : (d.without ks).keys = d.keys.filter (· ∉ ks) := by
  rw [keys, keys, keysOf, keysOf, List.filter_map]
  rfl

/-- Dropping keys after an update drops them from both. -/
theorem without_update (d e : Dict κ α) (ks : List κ) :
    (d.update e).without ks = (d.without ks).update (e.without ks) := by
  simp only [without, filter, update, mk.injEq]
  exact filter_foldl_assign (fun k => decide (k ∉ ks)) e.entries d.entries

/-- Dropping keys drops nothing of a mapping of other keys. -/
theorem without_eq_self {d : Dict κ α} {ks : List κ} (h : ∀ k ∈ d, k ∉ ks) : d.without ks = d := by
  cases d with
  | mk entries nodup =>
    simp only [without, filter, mk.injEq]
    exact List.filter_eq_self.2 fun e he => decide_eq_true (h e.1 (mem_keysOf_of_mem he))

/-- Dropping every key leaves nothing. -/
theorem without_eq_empty {d : Dict κ α} {ks : List κ} (h : ∀ k ∈ d, k ∈ ks) :
    d.without ks = empty := by
  have hnil : d.entries.filter (fun e => decide (e.1 ∉ ks)) = [] :=
    List.filter_eq_nil_iff.2 fun e he => by simpa using h e.1 (mem_keysOf_of_mem he)
  simp only [without, filter, hnil]
  rfl

/-- Keys are dropped in any order. -/
theorem without_comm (d : Dict κ α) (ks js : List κ) :
    (d.without ks).without js = (d.without js).without ks := by
  simp only [without, filter, List.filter_filter, Bool.and_comm]

/-- Dropping keys drops them from a filtered mapping. -/
theorem without_filter (d : Dict κ α) (p : κ → α → Bool) (ks : List κ) :
    (d.filter p).without ks = (d.without ks).filter p := by
  simp only [without, filter, List.filter_filter, Bool.and_comm]

@[simp] theorem get?_filterMap (f : κ → α → Option β) (d : Dict κ α) (k : κ) :
    (d.filterMap f).get? k = (d.get? k).bind (f k) :=
  lookup_filterMap_of_nodup f k d.nodup

/-- A name that one key of the mapping is renamed to holds that key's value. -/
theorem get?_mapKeys {γ : Type*} [DecidableEq γ] {f : κ → γ} {n : γ} {c : κ} {d : Dict κ α}
    (hpre : ∀ k ∈ d, f k = n ↔ k = c) : (d.mapKeys f).get? n = d.get? c := by
  rw [mapKeys, get?_ofList]
  exact lookup_reverse_rename hpre d.nodup

/-- A name one key alone is renamed to holds what the key held. -/
theorem get?_mapKeys_of_one {γ : Type*} [DecidableEq γ] {f : κ → γ} {n : γ} {c : κ}
    (hpre : ∀ k, f k = n ↔ k = c) (d : Dict κ α) : (d.mapKeys f).get? n = d.get? c :=
  get?_mapKeys fun k _ => hpre k

/-- A name two keys are renamed to holds the value of the later one. -/
theorem get?_mapKeys_of_two {γ : Type*} [DecidableEq γ] {f : κ → γ} {n : γ} {a c : κ}
    (hac : a ≠ c) (hpre : ∀ k, f k = n ↔ k = a ∨ k = c) (d : Dict κ α) :
    (d.mapKeys f).get? n =
      if [a, c].Sublist d.keys then d.get? c else (d.get? a).or (d.get? c) := by
  rw [mapKeys, get?_ofList]
  exact lookup_reverse_rename_of_two hac hpre d.nodup

@[simp] theorem get?_mapValues (f : α → β) (d : Dict κ α) (k : κ) :
    (d.mapValues f).get? k = (d.get? k).map f :=
  lookup_map_values f k d.entries

omit [DecidableEq κ] in
/-- A name that no key of the mapping is renamed to holds nothing. -/
theorem get?_mapKeys_eq_none {γ : Type*} [DecidableEq γ] {f : κ → γ} {n : γ} {d : Dict κ α}
    (h : ∀ k ∈ d, f k ≠ n) : (d.mapKeys f).get? n = none := by
  rw [Option.eq_none_iff_forall_ne_some]
  intro v hv
  obtain ⟨e, hmem, he⟩ := List.mem_map.1 (mem_of_get?_ofList hv)
  exact h e.1 (mem_keysOf_of_mem hmem) (congrArg Prod.fst he)

omit [DecidableEq κ] in
/-- A name no key is renamed to holds nothing. -/
theorem get?_mapKeys_of_none {γ : Type*} [DecidableEq γ] {f : κ → γ} {n : γ} (h : ∀ k, f k ≠ n)
    (d : Dict κ α) : (d.mapKeys f).get? n = none :=
  get?_mapKeys_eq_none fun k _ => h k

/-- The mapping of a list of keys, each to its value where it has one. -/
def tabulate (f : κ → Option α) (ks : List κ) : Dict κ α :=
  ofList (ks.filterMap fun k => (f k).map (k, ·))

/-- Under a listed key stands what it is tabulated as. -/
@[simp] theorem get?_tabulate (f : κ → Option α) (ks : List κ) (k : κ) :
    (tabulate f ks).get? k = if k ∈ ks then f k else none := by
  rw [tabulate, get?_ofList, ← List.filterMap_reverse, lookup_filterMap_keys]
  simp only [List.mem_reverse]

/-- The mapping of a list of keys is of their values alone. -/
theorem tabulate_congr {f g : κ → Option α} {ks : List κ} (h : ∀ k ∈ ks, f k = g k) :
    tabulate f ks = tabulate g ks := by
  rw [tabulate, tabulate, List.filterMap_congr fun k hk => by rw [h k hk]]

/-- Keys with no value make no entry. -/
theorem tabulate_eq_empty {f : κ → Option α} {ks : List κ} (h : ∀ k ∈ ks, f k = none) :
    tabulate f ks = empty := by
  have hnil : (ks.filterMap fun k => (f k).map (k, ·)) = [] :=
    List.filterMap_eq_nil_iff.2 fun k hk => by rw [h k hk, Option.map_none]
  rw [tabulate, hnil]
  rfl

/-- Dropping keys after changing only entries of those keys. -/
theorem without_filterMap {f : κ → α → Option α} {ks : List κ}
    (h : ∀ k v, k ∉ ks → f k v = some v) (d : Dict κ α) :
    (d.filterMap f).without ks = d.without ks := by
  cases d with
  | mk entries nodup =>
    simp only [without, filter, filterMap, mk.injEq]
    clear nodup
    induction entries with
    | nil => rfl
    | cons e es ih =>
      by_cases he : e.1 ∈ ks
      · rw [List.filterMap_cons]
        cases hf : (f e.1 e.2).map (e.1, ·) with
        | none => simpa [he] using ih
        | some e' =>
          obtain ⟨v, -, rfl⟩ := Option.map_eq_some_iff.1 hf
          simpa [he] using ih
      · rw [List.filterMap_cons, h e.1 e.2 he]
        simpa [he] using ih

/-! ### More keys -/

/-- `e` is `d` with more keys, each of which `p` allows. -/
def ExtendedBy (p : κ → Prop) (d e : Dict κ α) : Prop :=
  (∀ k ∈ d, e.get? k = d.get? k) ∧ ∀ k ∈ e, k ∉ d → p k

namespace ExtendedBy

/-- A mapping extends itself. -/
theorem refl (p : κ → Prop) (d : Dict κ α) : ExtendedBy p d d :=
  ⟨fun _ _ => rfl, fun _ hk hno => absurd hk hno⟩

/-- An update by keys the mapping does not have. -/
theorem update {p : κ → Prop} {d e : Dict κ α} (h : ∀ k ∈ e, k ∉ d ∧ p k) :
    ExtendedBy p d (d.update e) := by
  refine ⟨fun k hk => ?_, fun k hk hno => ?_⟩
  · have hnone : e.get? k = none := get?_eq_none.2 fun hke => (h k hke).1 hk
    rw [get?_update, hnone, Option.none_or]
  · rw [mem_iff_isSome, get?_update, get?_eq_none.2 hno, Option.or_none] at hk
    exact (h k (mem_iff_isSome.2 hk)).2

end ExtendedBy

/-! ### The same values -/

/-- Two mappings hold the same values, in whatever order. -/
def Same (d e : Dict κ α) : Prop := ∀ k, d.get? k = e.get? k

namespace Same

variable {d d' e e' : Dict κ α}

/-- A mapping holds the same as itself. -/
theorem refl (d : Dict κ α) : Same d d := fun _ => rfl

/-- Mappings that hold the same do so updated by mappings that do. -/
theorem update (h : Same d d') (he : Same e e') : Same (d.update e) (d'.update e') := by
  intro k
  rw [get?_update, get?_update, h k, he k]

/-- They have the same keys. -/
theorem mem_iff (h : Same d d') {k : κ} : k ∈ d ↔ k ∈ d' := by
  rw [mem_iff_isSome, mem_iff_isSome, h k]

/-- What is kept of them holds the same. -/
theorem filter {p q : κ → α → Bool} (h : Same d d') (hpq : ∀ k v, p k v = q k v) :
    Same (d.filter p) (d'.filter q) := by
  intro k
  have hk : p k = q k := funext (hpq k)
  rw [get?_filter, get?_filter, h k, hk]

/-- So do the images of their values. -/
theorem mapValues (f : α → β) (h : Same d d') : Same (d.mapValues f) (d'.mapValues f) := by
  intro k
  rw [get?_mapValues, get?_mapValues, h k]

/-- So do they with their keys renamed, each to a name of its own. -/
theorem mapKeys {γ : Type*} [DecidableEq γ] {f : κ → γ} (hf : Function.Injective f)
    (h : Same d d') : Same (d.mapKeys f) (d'.mapKeys f) := by
  intro n
  by_cases hn : ∃ k, f k = n
  · obtain ⟨k, rfl⟩ := hn
    have hpre : ∀ j, f j = f k ↔ j = k := fun j => hf.eq_iff
    rw [get?_mapKeys_of_one hpre, get?_mapKeys_of_one hpre, h k]
  · have hno : ∀ k, f k ≠ n := fun k hk => hn ⟨k, hk⟩
    rw [get?_mapKeys_of_none hno, get?_mapKeys_of_none hno]

end Same

end

end Dict

end Lib
