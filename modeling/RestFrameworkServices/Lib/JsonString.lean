import Mathlib.Data.List.Chain

/-!
# JSON strings

A string is a list of code points, surrogates among them (`CodePoint`). The text of one escapes what is
not printable ASCII, a code point beyond `0xffff` as a pair of surrogates (`quoted`). Read back, a high
surrogate and a low one after it are one code point (`joinSurrogates`), whichever they were, so a string
comes back as it was exactly where it holds no such pair (`joinSurrogates_eq_self_iff`).
-/

namespace Lib

/-! ## Code points -/

/-- A code point, a surrogate or not. -/
abbrev CodePoint := Fin 0x110000

namespace CodePoint

/-- The code point of a number. -/
def ofNat (n : ℕ) : CodePoint := Fin.ofNat _ n

/-- A number below the last code point is its own. -/
theorem val_ofNat {n : ℕ} (h : n < 0x110000) : (ofNat n).val = n := Nat.mod_eq_of_lt h

/-- The code point of a character. -/
def ofChar (c : Char) : CodePoint := ofNat c.toNat

/-- A high surrogate. -/
def IsHigh (p : CodePoint) : Prop := 0xd800 ≤ p.val ∧ p.val ≤ 0xdbff

/-- A low surrogate. -/
def IsLow (p : CodePoint) : Prop := 0xdc00 ≤ p.val ∧ p.val ≤ 0xdfff

instance (p : CodePoint) : Decidable p.IsHigh := inferInstanceAs (Decidable (_ ∧ _))

instance (p : CodePoint) : Decidable p.IsLow := inferInstanceAs (Decidable (_ ∧ _))

/-- The high surrogate of a code point beyond `0xffff`. -/
def high (p : CodePoint) : CodePoint := ofNat (0xd800 + (p.val - 0x10000) / 0x400)

/-- The low surrogate of a code point beyond `0xffff`. -/
def low (p : CodePoint) : CodePoint := ofNat (0xdc00 + (p.val - 0x10000) % 0x400)

/-- The code point of a pair of surrogates. -/
def join (h l : CodePoint) : CodePoint :=
  ofNat (0x10000 + ((h.val - 0xd800) * 0x400 + (l.val - 0xdc00)))

/-- What a code point is written as: itself, or a pair of surrogates. -/
def units (p : CodePoint) : List CodePoint := if p.val < 0x10000 then [p] else [p.high, p.low]

section
variable {p h l : CodePoint}

/-- The number of the high surrogate. -/
theorem val_high (p : CodePoint) : p.high.val = 0xd800 + (p.val - 0x10000) / 0x400 :=
  val_ofNat (by have := p.isLt; omega)

/-- The number of the low one. -/
theorem val_low (p : CodePoint) : p.low.val = 0xdc00 + (p.val - 0x10000) % 0x400 :=
  val_ofNat (by omega)

/-- The number a pair stands for. -/
theorem val_join (hh : h.IsHigh) (hl : l.IsLow) :
    (join h l).val = 0x10000 + ((h.val - 0xd800) * 0x400 + (l.val - 0xdc00)) := by
  obtain ⟨hh₁, hh₂⟩ := hh
  obtain ⟨hl₁, hl₂⟩ := hl
  exact val_ofNat (by omega)

/-- Beyond `0xffff` the high surrogate is one. -/
theorem isHigh_high (hp : 0x10000 ≤ p.val) : p.high.IsHigh := by
  have hlt := p.isLt
  rw [IsHigh, val_high]
  omega

/-- So is the low one. -/
theorem isLow_low (p : CodePoint) : p.low.IsLow := by
  rw [IsLow, val_low]
  omega

/-- The surrogates of a code point are its own. -/
theorem join_high_low (hp : 0x10000 ≤ p.val) : join p.high p.low = p := by
  apply Fin.ext
  rw [val_join (isHigh_high hp) (isLow_low p), val_high, val_low]
  omega

/-- What a pair makes is no surrogate. -/
theorem le_val_join (hh : h.IsHigh) (hl : l.IsLow) : 0x10000 ≤ (join h l).val := by
  rw [val_join hh hl]
  exact Nat.le_add_right _ _

/-- A code point beyond `0xffff` is no high surrogate. -/
theorem not_isHigh_of_le (hp : 0x10000 ≤ p.val) : ¬ p.IsHigh := by
  rintro ⟨-, hle⟩
  omega

/-- Nor a low one. -/
theorem not_isLow_of_le (hp : 0x10000 ≤ p.val) : ¬ p.IsLow := by
  rintro ⟨-, hle⟩
  omega

/-- A high surrogate is no low one. -/
theorem not_isLow_of_isHigh (hp : p.IsHigh) : ¬ p.IsLow := by
  obtain ⟨-, hle⟩ := hp
  rintro ⟨hge, -⟩
  omega

/-- A low surrogate is written as itself. -/
theorem units_of_isLow (hp : p.IsLow) : p.units = [p] := if_pos (by obtain ⟨-, hle⟩ := hp; omega)

/-- What is no low surrogate is not written from one. -/
theorem not_isLow_of_mem_head?_flatMap {q : CodePoint} {s : List CodePoint} (hp : ¬ p.IsLow)
    (hq : q ∈ ((p :: s).flatMap units).head?) : ¬ q.IsLow := by
  rw [List.flatMap_cons, units] at hq
  split at hq
  · cases hq
    exact hp
  · next hlarge =>
    cases hq
    exact not_isLow_of_isHigh (isHigh_high (Nat.le_of_not_lt hlarge))

end

end CodePoint

open CodePoint

/-! ## Pairs of surrogates -/

/-- Each high surrogate with a low one after it made one code point, from the left. -/
def joinSurrogates : List CodePoint → List CodePoint
  | [] => []
  | [p] => [p]
  | p :: q :: s =>
    if p.IsHigh ∧ q.IsLow then CodePoint.join p q :: joinSurrogates s else p :: joinSurrogates (q :: s)

/-- No high surrogate has a low one after it. -/
def Joined (s : List CodePoint) : Prop := s.IsChain fun p q => ¬ (p.IsHigh ∧ q.IsLow)

instance : DecidablePred Joined := fun s => inferInstanceAs (Decidable (s.IsChain _))

section
variable {p q : CodePoint} {s : List CodePoint}

/-- A pair is joined, and the joining goes on behind it. -/
theorem joinSurrogates_pair (hp : p.IsHigh) (hq : q.IsLow) :
    joinSurrogates (p :: q :: s) = CodePoint.join p q :: joinSurrogates s := by
  rw [joinSurrogates, if_pos ⟨hp, hq⟩]

/-- A code point that makes no pair with the next stays. -/
theorem joinSurrogates_cons (h : ∀ q ∈ s.head?, ¬ (p.IsHigh ∧ q.IsLow)) :
    joinSurrogates (p :: s) = p :: joinSurrogates s := by
  cases s with
  | nil => rfl
  | cons q s => rw [joinSurrogates, if_neg (h q rfl)]

/-- Where the first is no low surrogate, it does not become one. -/
theorem not_isLow_of_mem_head?_join {r : CodePoint} (hs : ∀ q ∈ s.head?, ¬ q.IsLow)
    (hr : r ∈ (joinSurrogates s).head?) : ¬ r.IsLow := by
  cases s with
  | nil => cases hr
  | cons p s =>
    cases s with
    | nil => exact hs r hr
    | cons q s =>
      rw [joinSurrogates] at hr
      split at hr
      · next hpair =>
        rw [List.head?_cons, Option.mem_some_iff] at hr
        rw [← hr]
        exact not_isLow_of_le (le_val_join hpair.1 hpair.2)
      · exact hs r hr

/-- What is read back holds no pair of surrogates. -/
theorem joined_joinSurrogates : ∀ s : List CodePoint, Joined (joinSurrogates s)
  | [] => .nil
  | [p] => .singleton p
  | p :: q :: s => by
    rw [joinSurrogates]
    split
    · next hpair =>
      refine .cons (joined_joinSurrogates s) fun r _ hr => ?_
      exact not_isHigh_of_le (le_val_join hpair.1 hpair.2) hr.1
    · next hpair =>
      refine .cons (joined_joinSurrogates (q :: s)) fun r hr hpr => ?_
      by_cases hq : q.IsLow
      · exact hpair ⟨hpr.1, hq⟩
      · exact not_isLow_of_mem_head?_join (by rintro _ ⟨⟩; exact hq) hr hpr.2

/-- Where no pair stands, joining changes nothing. -/
theorem joinSurrogates_of_joined : ∀ {s : List CodePoint}, Joined s → joinSurrogates s = s
  | [], _ => rfl
  | [_], _ => rfl
  | p :: q :: s, h => by
    obtain ⟨hpair, hs⟩ := List.isChain_cons_cons.1 h
    rw [joinSurrogates, if_neg hpair, joinSurrogates_of_joined hs]

/-- **A string is read back as it was exactly where it holds no pair of surrogates.** -/
theorem joinSurrogates_eq_self_iff : joinSurrogates s = s ↔ Joined s := by
  constructor
  · intro h
    rw [← h]
    exact joined_joinSurrogates s
  · exact joinSurrogates_of_joined

/-- Writing a string's code points as units changes nothing of how it is read back. -/
theorem joinSurrogates_units : ∀ s : List CodePoint,
    joinSurrogates (s.flatMap units) = joinSurrogates s
  | [] => rfl
  | p :: s => by
    rw [List.flatMap_cons]
    by_cases hlarge : p.val < 0x10000
    · rw [units, if_pos hlarge, List.singleton_append]
      by_cases hhigh : p.IsHigh
      · -- A high surrogate: whether it is joined is the next code point's.
        cases s with
        | nil => rfl
        | cons q s =>
          by_cases hlow : q.IsLow
          · rw [List.flatMap_cons, units_of_isLow hlow, List.singleton_append,
              joinSurrogates_pair hhigh hlow, joinSurrogates_pair hhigh hlow, joinSurrogates_units s]
          · have hnext : ∀ r ∈ ((q :: s).flatMap units).head?, ¬ (p.IsHigh ∧ r.IsLow) :=
              fun r hr hpair => not_isLow_of_mem_head?_flatMap hlow hr hpair.2
            rw [joinSurrogates_cons hnext, joinSurrogates_units (q :: s), joinSurrogates,
              if_neg fun hpair => hlow hpair.2]
      · rw [joinSurrogates_cons fun _ _ h => hhigh h.1, joinSurrogates_units s,
          joinSurrogates_cons fun _ _ h => hhigh h.1]
    · have hle := Nat.le_of_not_lt hlarge
      rw [units, if_neg hlarge]
      change joinSurrogates (p.high :: p.low :: s.flatMap units) = _
      rw [joinSurrogates_pair (isHigh_high hle) (isLow_low p), join_high_low hle,
        joinSurrogates_units s, joinSurrogates_cons fun _ _ h => not_isHigh_of_le hle h.1]

end

/-! ## Escapes -/

/-- A number's four hexadecimal digits. -/
def hex4 (n : ℕ) : List Char :=
  [Nat.digitChar (n / 0x1000 % 16), Nat.digitChar (n / 0x100 % 16), Nat.digitChar (n / 0x10 % 16),
    Nat.digitChar (n % 16)]

/-- The value of a hexadecimal digit. -/
def hexValue? (c : Char) : Option ℕ :=
  if '0' ≤ c ∧ c ≤ '9' then some (c.toNat - 48)
  else if 'a' ≤ c ∧ c ≤ 'f' then some (c.toNat - 87)
  else if 'A' ≤ c ∧ c ≤ 'F' then some (c.toNat - 55)
  else none

/-- The code point of four hexadecimal digits. -/
def unit? (a b c d : Char) : Option CodePoint := do
  let a ← hexValue? a
  let b ← hexValue? b
  let c ← hexValue? c
  let d ← hexValue? d
  return .ofNat (0x1000 * a + 0x100 * b + 0x10 * c + d)

/-- The letters written after a backslash, and the character each stands for. -/
def shortEscapes : List (Char × Char) :=
  [('\x22', '\x22'), ('\\', '\\'), ('n', '\n'), ('r', '\r'), ('t', '\t'), ('f', '\x0c'), ('b', '\x08')]

/-- The letter that stands for a code point. -/
def letter? (p : CodePoint) : Option Char :=
  (shortEscapes.find? fun e => ofChar e.2 = p).map Prod.fst

/-- The character a letter stands for: a slash may be escaped too, and is not. -/
def meaning? (c : Char) : Option Char := (('/', '/') :: shortEscapes).lookup c

/-- The text of a code point in a string: a short escape, itself where it is printable ASCII, or its
units as numbers. -/
def escape (p : CodePoint) : List Char :=
  match letter? p with
  | some c => ['\\', c]
  | none =>
    if 0x20 ≤ p.val ∧ p.val < 0x7f then [Char.ofNat p.val]
    else p.units.flatMap fun u => '\\' :: 'u' :: hex4 u.val

/-- The text of a string. -/
def quoted (s : List CodePoint) : List Char := '\x22' :: (s.flatMap escape ++ ['\x22'])

/-- The units of a string after its opening quote, up to the closing one, and the text after it. -/
def scanUnits : List Char → Option (List CodePoint × List Char)
  | [] => none
  | '\x22' :: t => some ([], t)
  | '\\' :: 'u' :: a :: b :: c :: d :: t =>
    (unit? a b c d).bind fun u => (scanUnits t).map (Prod.map (u :: ·) id)
  | '\\' :: c :: t =>
    (meaning? c).bind fun m => (scanUnits t).map (Prod.map (ofChar m :: ·) id)
  | ['\\'] => none
  | c :: t => if c.toNat < 0x20 then none else (scanUnits t).map (Prod.map (ofChar c :: ·) id)

/-- A string after its opening quote. The text holds no surrogate, so those among the units are of escapes,
and a pair of them is a pair of escapes, one after the other. -/
def scanString (t : List Char) : Option (List CodePoint × List Char) :=
  (scanUnits t).map (Prod.map joinSurrogates id)

/-- A digit's value is read back. -/
theorem hexValue?_digitChar {n : ℕ} (h : n < 16) : hexValue? n.digitChar = some n := by
  have hall : ∀ m < 16, hexValue? m.digitChar = some m := by decide
  exact hall n h

/-- Four digits written after `\u` are read as the unit they are of. -/
theorem scanUnits_hex4 {u : CodePoint} (hu : u.val < 0x10000) (t : List Char) :
    scanUnits ('\\' :: 'u' :: (hex4 u.val ++ t)) = (scanUnits t).map (Prod.map (u :: ·) id) := by
  have hunit : unit? (Nat.digitChar (u.val / 0x1000 % 16)) (Nat.digitChar (u.val / 0x100 % 16))
      (Nat.digitChar (u.val / 0x10 % 16)) (Nat.digitChar (u.val % 16)) = some u := by
    have hval : 0x1000 * (u.val / 0x1000 % 16) + 0x100 * (u.val / 0x100 % 16) +
        0x10 * (u.val / 0x10 % 16) + u.val % 16 = u.val := by omega
    simp only [unit?, hexValue?_digitChar (Nat.mod_lt _ (by decide : 0 < 16)), Option.bind_eq_bind,
      Option.bind_some, Option.pure_def, hval]
    exact congrArg some (Fin.ext (val_ofNat u.isLt))
  change ((unit? _ _ _ _).bind fun u => (scanUnits t).map (Prod.map (u :: ·) id)) = _
  rw [hunit, Option.bind_some]

/-- A short escape is read as what it stands for. -/
theorem scanUnits_letter {c m : Char} (hc : c ≠ 'u') (hm : meaning? c = some m) (t : List Char) :
    scanUnits ('\\' :: c :: t) = (scanUnits t).map (Prod.map (ofChar m :: ·) id) := by
  rw [scanUnits]
  · rw [hm, Option.bind_some]
  · rintro a b c' d t' rfl -
    exact hc rfl

/-- A printable character is read as itself. -/
theorem scanUnits_plain {c : Char} (hquote : c ≠ '\x22') (hbackslash : c ≠ '\\')
    (hcontrol : 0x20 ≤ c.toNat) (t : List Char) :
    scanUnits (c :: t) = (scanUnits t).map (Prod.map (ofChar c :: ·) id) := by
  rw [scanUnits]
  · rw [if_neg (Nat.not_lt.2 hcontrol)]
  all_goals simp_all

/-- A code point a letter stands for is a unit, and the letter means it. -/
theorem letter?_eq_some {p : CodePoint} {c : Char} (h : letter? p = some c) :
    c ≠ 'u' ∧ p.units = [p] ∧ ∃ m, meaning? c = some m ∧ ofChar m = p := by
  have hall : ∀ e ∈ shortEscapes, e.1 ≠ 'u' ∧ (ofChar e.2).units = [ofChar e.2] ∧
      meaning? e.1 = some e.2 := by decide
  obtain ⟨e, he, rfl⟩ := Option.map_eq_some_iff.1 h
  have hp : ofChar e.2 = p := by simpa using List.find?_some he
  obtain ⟨hu, hunits, hmeaning⟩ := hall e (List.mem_of_find?_eq_some he)
  exact ⟨hu, hp ▸ hunits, e.2, hmeaning, hp⟩

/-- A printable code point without a letter is read as itself. -/
theorem scanUnits_printable {p : CodePoint} (hletter : letter? p = none) (hlow : 0x20 ≤ p.val)
    (hhigh : p.val < 0x7f) (t : List Char) :
    scanUnits (Char.ofNat p.val :: t) = (scanUnits t).map (Prod.map (p :: ·) id) := by
  have hall : ∀ n < 0x7f, (Char.ofNat n).toNat = n := by decide
  have htoNat := hall p.val hhigh
  have hchar : ofChar (Char.ofNat p.val) = p := by
    rw [ofChar, htoNat]
    exact Fin.ext (val_ofNat p.isLt)
  have hne : ∀ c : Char, letter? (ofChar c) ≠ none → Char.ofNat p.val ≠ c := by
    rintro c hc rfl
    exact hc (hchar.symm ▸ hletter)
  rw [scanUnits_plain (hne _ (by decide)) (hne _ (by decide)) (htoNat.symm ▸ hlow), hchar]

/-- The text of a code point is read as its units. -/
theorem scanUnits_escape (p : CodePoint) (t : List Char) :
    scanUnits (escape p ++ t) = (scanUnits t).map (Prod.map (p.units ++ ·) id) := by
  rw [escape]
  split
  · next c hletter =>
    obtain ⟨hu, hunits, m, hmeaning, rfl⟩ := letter?_eq_some hletter
    rw [hunits]
    exact scanUnits_letter hu hmeaning t
  · next hletter =>
    split
    · next hprint =>
      rw [units, if_pos (by omega)]
      exact scanUnits_printable hletter hprint.1 hprint.2 t
    · rw [units]
      split
      · next hsmall =>
        simp only [List.flatMap_cons, List.flatMap_nil, List.append_nil, List.cons_append]
        exact scanUnits_hex4 hsmall t
      · have hhigh := p.val_high
        have hlow := p.val_low
        have hlt := p.isLt
        simp only [List.flatMap_cons, List.flatMap_nil, List.append_nil, List.cons_append,
          List.append_assoc]
        rw [scanUnits_hex4 (by omega), scanUnits_hex4 (by omega), Option.map_map]
        rfl

/-- The text of a string is read as its units. -/
theorem scanUnits_flatMap (t : List Char) : ∀ s : List CodePoint,
    scanUnits (s.flatMap escape ++ '\x22' :: t) = some (s.flatMap units, t)
  | [] => rfl
  | p :: s => by
    rw [List.flatMap_cons, List.append_assoc, scanUnits_escape, scanUnits_flatMap t s]
    rfl

/-- **The text of a string is read back as the string, its pairs of surrogates joined.** -/
theorem scanString_quoted (s : List CodePoint) (t : List Char) :
    scanString (s.flatMap escape ++ '\x22' :: t) = some (joinSurrogates s, t) := by
  rw [scanString, scanUnits_flatMap, Option.map_some]
  exact congrArg (fun s => some (s, t)) (joinSurrogates_units s)

end Lib
