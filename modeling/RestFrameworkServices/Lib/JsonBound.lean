import RestFrameworkServices.Lib.Json

/-!
# The bound of the JSON reader

`Json.scan` descends at most as deep as its bound. What it reads with some bound it reads with every bound
that is no less than the characters read (`enough`), so `Json.parse`, whose bound is the text's length,
accepts what a reader without one does (`parse_eq_some_iff`).
-/

namespace Lib

/-- What is left of a string's text is shorter. -/
theorem length_of_scanUnits : ∀ {t : List Char} {r : List CodePoint × List Char},
    scanUnits t = some r → r.2.length < t.length := by
  intro t
  fun_induction scanUnits t with
  | case1 => rintro r ⟨⟩
  | case2 t => rintro r ⟨⟩; exact Nat.lt_succ_self _
  | case3 a b c d t ih =>
    intro r h
    obtain ⟨u, -, h⟩ := Option.bind_eq_some_iff.1 h
    obtain ⟨r', hr', rfl⟩ := Option.map_eq_some_iff.1 h
    have := ih hr'
    simp only [List.length_cons, Prod.map_snd, id_eq]
    omega
  | case4 c t _ ih =>
    intro r h
    obtain ⟨u, -, h⟩ := Option.bind_eq_some_iff.1 h
    obtain ⟨r', hr', rfl⟩ := Option.map_eq_some_iff.1 h
    have := ih hr'
    simp only [List.length_cons, Prod.map_snd, id_eq]
    omega
  | case5 => rintro r ⟨⟩
  | case6 => rintro r ⟨⟩
  | case7 c t _ _ _ _ _ ih =>
    intro r h
    obtain ⟨r', hr', rfl⟩ := Option.map_eq_some_iff.1 h
    have := ih hr'
    simp only [List.length_cons, Prod.map_snd, id_eq]
    omega

namespace Json

universe u

variable {φ : Type u} {c : Floats φ} {m : ℕ} {t : List Char}

/-! ## What is left is shorter -/

/-- A string read leaves a shorter text. -/
theorem length_of_scanString {r : List CodePoint × List Char} (h : scanString t = some r) :
    r.2.length < t.length := by
  obtain ⟨r', hr', rfl⟩ := Option.map_eq_some_iff.1 h
  exact length_of_scanUnits (r := r') hr'

/-- Blanks skipped leave no longer one. -/
theorem length_skip_le (t : List Char) : (skip t).length ≤ t.length :=
  (List.dropWhile_suffix _).length_le

/-- What follows a character after white space is shorter. -/
theorem length_of_skip {d : Char} {rest : List Char} (h : skip t = d :: rest) :
    rest.length < t.length := by
  have hle := length_skip_le t
  rwa [h, List.length_cons] at hle

/-- Nor do digits read. -/
theorem length_scanDigits_le (t : List Char) : (scanDigits t).2.length ≤ t.length :=
  (List.dropWhile_suffix _).length_le

/-- A word read leaves a shorter text. -/
theorem length_of_scanWord {r : Json φ × List Char} (h : scanWord c t = some r) :
    r.2.length < t.length := by
  have hne : ∀ w ∈ words c, 0 < w.1.length := by simp [words]
  obtain ⟨w, hw, h⟩ := List.exists_of_findSome?_eq_some h
  obtain ⟨rest, hrest, rfl⟩ := Option.map_eq_some_iff.1 h
  have hlen := congrArg List.length (List.append_eq_of_isPrefixOf?_eq_some hrest)
  have := hne w hw
  rw [List.length_append] at hlen
  simp only
  omega

/-- So does a natural number. -/
theorem length_of_scanNatural {r : List Char × List Char} (h : scanNatural t = some r) :
    r.2.length < t.length := by
  cases t with
  | nil => cases h
  | cons d t =>
    rw [scanNatural] at h
    split at h
    · cases h
      exact Nat.lt_succ_self _
    · rw [Option.ite_none_right_eq_some] at h
      obtain ⟨-, ⟨⟩⟩ := h
      exact Nat.lt_succ_of_le (length_scanDigits_le t)

/-- So does an integer. -/
theorem length_of_scanInteger {r : List Char × List Char} (h : scanInteger t = some r) :
    r.2.length < t.length := by
  rw [scanInteger.eq_def] at h
  split at h
  · obtain ⟨r', hr', rfl⟩ := Option.map_eq_some_iff.1 h
    exact Nat.lt_succ_of_lt (length_of_scanNatural (r := r') hr')
  · exact length_of_scanNatural h

/-- A fraction may be empty. -/
theorem length_scanFraction_le (t : List Char) : (scanFraction t).2.length ≤ t.length := by
  rw [scanFraction.eq_def]
  split
  · next t =>
    have hdigits := length_scanDigits_le t
    split
    · exact Nat.le_refl _
    · next hds =>
      rw [hds] at hdigits
      exact Nat.le_succ_of_le hdigits
  · exact Nat.le_refl _

/-- So may a sign. -/
theorem length_scanSign_le (t : List Char) : (scanSign t).2.length ≤ t.length := by
  rw [scanSign.eq_def]
  split
  · exact Nat.le_succ _
  · exact Nat.le_succ _
  · exact Nat.le_refl _

/-- So may an exponent. -/
theorem length_scanExponent_le (t : List Char) : (scanExponent t).2.length ≤ t.length := by
  cases t with
  | nil => exact Nat.le_refl _
  | cons e t =>
    rw [scanExponent]
    split
    · have hsign := length_scanSign_le t
      have hdigits := length_scanDigits_le (scanSign t).2
      simp only
      split
      · exact Nat.le_refl _
      · next hds =>
        rw [hds] at hdigits
        exact Nat.le_succ_of_le (hdigits.trans hsign)
    · exact Nat.le_refl _

/-- A number read leaves a shorter text. -/
theorem length_of_scanNumber {r : Json φ × List Char} (h : scanNumber c t = some r) :
    r.2.length < t.length := by
  obtain ⟨⟨integer, t'⟩, hinteger, rfl⟩ := Option.map_eq_some_iff.1 h
  have hlen := length_of_scanInteger hinteger
  have hfraction := length_scanFraction_le t'
  have hexponent := length_scanExponent_le (scanFraction t').2
  simp only
  split
  · exact (hexponent.trans hfraction).trans_lt hlen
  · exact (hexponent.trans hfraction).trans_lt hlen

/-! ## Bounds that are enough -/

/-- Where a reader answers with a bound, it leaves a shorter text, and every bound no less than the
characters read gives the answer. -/
def Enough {α : Type*} (f : ℕ → List Char → Option (α × List Char)) (m : ℕ) : Prop :=
  ∀ t r, f m t = some r → r.2.length < t.length ∧ ∀ n, t.length ≤ n + r.2.length → f n t = some r

/-- A reader that answers nothing without a bound needs none. -/
theorem Enough.zero {α : Type*} {f : ℕ → List Char → Option (α × List Char)}
    (h : ∀ t, f 0 t = none) : Enough f 0 := fun t r hr => by
  rw [h t] at hr
  cases hr

/-- One bound more is enough, where each answer shortens the text and comes of every bound that covers
it. -/
theorem Enough.succ {α : Type*} {f : ℕ → List Char → Option (α × List Char)}
    (h : ∀ t r, f (m + 1) t = some r → r.2.length < t.length ∧
      ∀ n, t.length ≤ n + 1 + r.2.length → f (n + 1) t = some r) : Enough f (m + 1) := by
  intro t r hr
  obtain ⟨hlen, hmore⟩ := h t r hr
  refine ⟨hlen, fun n hn => ?_⟩
  cases n with
  | zero => omega
  | succ n => exact hmore n hn

/-- What is read after white space is read with every bound that is enough, whatever is made of it. -/
theorem Enough.map_skip {α β : Type*} {f : ℕ → List Char → Option (α × List Char)} (hf : Enough f m)
    {make : α → β} {r : β × List Char} (h : (f m (skip t)).map (Prod.map make id) = some r) :
    r.2.length < t.length ∧ ∀ n, t.length ≤ n + r.2.length →
      (f n (skip t)).map (Prod.map make id) = some r := by
  obtain ⟨r', hr', rfl⟩ := Option.map_eq_some_iff.1 h
  obtain ⟨hlen, hmore⟩ := hf _ _ hr'
  have hskip := length_skip_le t
  simp only [Prod.map_snd, id_eq]
  refine ⟨by omega, fun n hn => ?_⟩
  rw [hmore n (by omega), Option.map_some]

/-- A value's reader is, where those of items and members are. -/
theorem enough_scan (hitems : Enough (scanItems c) m) (hmembers : Enough (scanMembers c) m) :
    Enough (scan c) (m + 1) := by
  refine .succ fun t r h => ?_
  rw [scan.eq_def] at h
  simp only at h
  split at h
  · next t =>
    obtain ⟨r', hr', rfl⟩ := Option.map_eq_some_iff.1 h
    exact ⟨Nat.lt_succ_of_lt (length_of_scanString (r := r') hr'), fun n _ => h⟩
  · next t =>
    split at h
    · next rest hrest =>
      cases h
      refine ⟨Nat.lt_succ_of_lt (length_of_skip hrest), fun n _ => ?_⟩
      rw [scan, hrest]
      rfl
    · next hne =>
      obtain ⟨hlen, hmore⟩ := hitems.map_skip h
      rw [List.length_cons]
      refine ⟨Nat.lt_succ_of_lt hlen, fun n hn => ?_⟩
      rw [scan]
      split
      · next rest hrest => exact (hne rest hrest).elim
      · exact hmore n (by omega)
  · next t =>
    split at h
    · next rest hrest =>
      cases h
      refine ⟨Nat.lt_succ_of_lt (length_of_skip hrest), fun n _ => ?_⟩
      rw [scan, hrest]
      rfl
    · next hne =>
      obtain ⟨hlen, hmore⟩ := hmembers.map_skip h
      rw [List.length_cons]
      refine ⟨Nat.lt_succ_of_lt hlen, fun n hn => ?_⟩
      rw [scan]
      split
      · next rest hrest => exact (hne rest hrest).elim
      · exact hmore n (by omega)
  · next hstring harray hobject =>
    refine ⟨?_, fun n _ => by rw [scan]; exacts [h, hstring, harray, hobject]⟩
    cases hword : scanWord c t with
    | some r' =>
      rw [hword] at h
      cases h
      exact length_of_scanWord hword
    | none =>
      rw [hword] at h
      exact length_of_scanNumber h

/-- So is the items'. -/
theorem enough_scanItems (hscan : Enough (scan c) m) (hitems : Enough (scanItems c) m) :
    Enough (scanItems c) (m + 1) := by
  refine .succ fun t r h => ?_
  rw [scanItems] at h
  obtain ⟨⟨j, t'⟩, hj, h⟩ := Option.bind_eq_some_iff.1 h
  obtain ⟨hlen, hmore⟩ := hscan _ _ hj
  simp only at hlen hmore h
  split at h
  · next rest hrest =>
    cases h
    have hshorter := length_of_skip hrest
    refine ⟨hshorter.trans hlen, fun n hn => ?_⟩
    simp only at hn
    rw [scanItems, hmore n (by omega), Option.bind_some]
    simp only [hrest]
  · next rest hrest =>
    have hshorter := length_of_skip hrest
    obtain ⟨hlen', hmore'⟩ := hitems.map_skip h
    refine ⟨by omega, fun n hn => ?_⟩
    rw [scanItems, hmore n (by omega), Option.bind_some]
    simp only [hrest, hmore' n (by omega)]
  · cases h

/-- So is the members'. -/
theorem enough_scanMembers (hscan : Enough (scan c) m) (hmembers : Enough (scanMembers c) m) :
    Enough (scanMembers c) (m + 1) := by
  refine .succ fun t r h => ?_
  rw [scanMembers.eq_def] at h
  split at h
  · next t hm =>
    cases hm
    obtain ⟨⟨k, t₁⟩, hkey, h⟩ := Option.bind_eq_some_iff.1 h
    have hlen₁ := length_of_scanString hkey
    simp only at hlen₁ h
    split at h
    · next t₂ hcolon =>
      have hlen₂ := length_of_skip hcolon
      have hskip := length_skip_le t₂
      obtain ⟨⟨j, t₃⟩, hj, h⟩ := Option.bind_eq_some_iff.1 h
      obtain ⟨hlen₃, hmore⟩ := hscan _ _ hj
      simp only at hlen₃ hmore h
      rw [List.length_cons]
      split at h
      · next rest hrest =>
        cases h
        have hshorter := length_of_skip hrest
        simp only
        refine ⟨by omega, fun n hn => ?_⟩
        rw [scanMembers, hkey, Option.bind_some]
        simp only [hcolon, hmore n (by omega), Option.bind_some, hrest]
      · next rest hrest =>
        have hshorter := length_of_skip hrest
        obtain ⟨hlen', hmore'⟩ := hmembers.map_skip h
        refine ⟨by omega, fun n hn => ?_⟩
        rw [scanMembers, hkey, Option.bind_some]
        simp only [hcolon, hmore n (by omega), Option.bind_some, hrest, hmore' n (by omega)]
      · cases h
    · cases h
  · cases h

/-- Each reader's bound is enough where it is no less than what is read. -/
theorem enough (c : Floats φ) : ∀ m : ℕ,
    Enough (scan c) m ∧ Enough (scanItems c) m ∧ Enough (scanMembers c) m
  | 0 => ⟨.zero fun _ => rfl, .zero fun _ => rfl, .zero fun _ => by rw [scanMembers]; simp⟩
  | m + 1 => by
    obtain ⟨hscan, hitems, hmembers⟩ := enough c m
    exact ⟨enough_scan hitems hmembers, enough_scanItems hscan hitems,
      enough_scanMembers hscan hmembers⟩

/-- **The bound is no part of what is read: a text is a value where any bound reads one of it.** -/
theorem parse_eq_some_iff {j : Json φ} : parse c t = some j ↔
    ∃ n rest, scan c n (skip t) = some (j, rest) ∧ skip rest = [] := by
  constructor
  · intro h
    obtain ⟨⟨j', rest⟩, hscan, h⟩ := Option.bind_eq_some_iff.1 h
    rw [Option.ite_none_right_eq_some] at h
    obtain ⟨hrest, ⟨⟩⟩ := h
    exact ⟨_, rest, hscan, hrest⟩
  · rintro ⟨n, rest, hscan, hrest⟩
    have hskip := length_skip_le t
    rw [parse, ((enough c n).1 _ _ hscan).2 (t.length + 1) (by omega), Option.bind_some]
    exact if_pos hrest

end Json

end Lib
