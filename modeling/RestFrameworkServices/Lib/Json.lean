import RestFrameworkServices.Lib.JsonString

/-!
# JSON text

The text of a JSON value (`Json.text`) as a writer that escapes to ASCII gives it, and the value of a text
(`Json.parse`), read by descent over the characters. What is read of a value's text is the value with the
pairs of surrogates of its strings joined (`parse_text`). How a float is written and read is left open
(`Floats`); the theorem asks of the floats of a value that their texts read back (`Exact`).
-/

namespace Lib

universe u

/-- A JSON value: an integer apart from a number with a fraction or an exponent, and an object's members in
the order of the text. -/
inductive Json (φ : Type u) where
  | null
  | bool (b : Bool)
  | int (i : ℤ)
  | float (x : φ)
  | str (s : List CodePoint)
  | array (items : List (Json φ))
  | object (members : List (List CodePoint × Json φ))

/-- How floats are written and read. -/
structure Floats (φ : Type u) where
  text : φ → List Char
  ofText : List Char → φ

namespace Json

variable {φ : Type u} (c : Floats φ)

/-! ## Writing -/

/-- The decimal text of an integer. -/
def intText (i : ℤ) : List Char :=
  if i < 0 then '-' :: Nat.toDigits 10 i.natAbs else Nat.toDigits 10 i.natAbs

/-- What stands before an item or a member. -/
def separator (first : Bool) : List Char := if first then [] else [',', ' ']

mutual

/-- The text of a value. -/
def text : Json φ → List Char
  | .null => ['n', 'u', 'l', 'l']
  | .bool true => ['t', 'r', 'u', 'e']
  | .bool false => ['f', 'a', 'l', 's', 'e']
  | .int i => intText i
  | .float x => c.text x
  | .str s => quoted s
  | .array items => '[' :: itemsText true items
  | .object members => '\x7b' :: membersText true members

/-- The text of an array's items and its end. -/
def itemsText (first : Bool) : List (Json φ) → List Char
  | [] => [']']
  | j :: js => separator first ++ (text j ++ itemsText false js)

/-- The text of an object's members and its end. -/
def membersText (first : Bool) : List (List CodePoint × Json φ) → List Char
  | [] => ['\x7d']
  | (k, j) :: ms => separator first ++ (quoted k ++ ':' :: ' ' :: (text j ++ membersText false ms))

end

/-! ## Reading -/

/-- White space. -/
def isSpace (c : Char) : Bool := c = ' ' || c = '\t' || c = '\n' || c = '\r'

/-- The text after white space. -/
def skip (t : List Char) : List Char := t.dropWhile isSpace

/-- The digits a text starts with, and the text after them. -/
def scanDigits (t : List Char) : List Char × List Char :=
  (t.takeWhile Char.isDigit, t.dropWhile Char.isDigit)

/-- An integer's digits: a zero alone, or digits that do not start with one. -/
def scanNatural : List Char → Option (List Char × List Char)
  | [] => none
  | d :: t =>
    if d = '0' then some (['0'], t)
    else if d.isDigit then some (Prod.map (d :: ·) id (scanDigits t))
    else none

/-- An integer's sign and digits. -/
def scanInteger : List Char → Option (List Char × List Char)
  | '-' :: t => (scanNatural t).map (Prod.map ('-' :: ·) id)
  | t => scanNatural t

/-- A fraction, if there is one. -/
def scanFraction : List Char → List Char × List Char
  | '.' :: t =>
    match scanDigits t with
    | ([], _) => ([], '.' :: t)
    | (ds, rest) => ('.' :: ds, rest)
  | t => ([], t)

/-- The sign an exponent may have. -/
def scanSign : List Char → List Char × List Char
  | '+' :: t => (['+'], t)
  | '-' :: t => (['-'], t)
  | t => ([], t)

/-- An exponent, if there is one. -/
def scanExponent : List Char → List Char × List Char
  | [] => ([], [])
  | e :: t =>
    if e = 'e' ∨ e = 'E' then
      let (sign, digits) := scanSign t
      match scanDigits digits with
      | ([], _) => ([], e :: t)
      | (ds, rest) => (e :: (sign ++ ds), rest)
    else ([], e :: t)

/-- The integer of a sign and digits. -/
def intOfText : List Char → ℤ
  | '-' :: ds => -(Nat.ofDigitChars 10 ds 0 : ℕ)
  | ds => (Nat.ofDigitChars 10 ds 0 : ℕ)

/-- A number: an integer where it has no fraction and no exponent. -/
def scanNumber (t : List Char) : Option (Json φ × List Char) :=
  (scanInteger t).map fun (integer, t) =>
    let (fraction, t) := scanFraction t
    let (exponent, t) := scanExponent t
    if fraction = [] ∧ exponent = [] then (.int (intOfText integer), t)
    else (.float (c.ofText (integer ++ fraction ++ exponent)), t)

/-- The words that are values. -/
def words : List (List Char × Json φ) :=
  [("null".toList, .null), ("true".toList, .bool true), ("false".toList, .bool false),
    ("NaN".toList, .float (c.ofText "NaN".toList)),
    ("Infinity".toList, .float (c.ofText "Infinity".toList)),
    ("-Infinity".toList, .float (c.ofText "-Infinity".toList))]

/-- A word. -/
def scanWord (t : List Char) : Option (Json φ × List Char) :=
  (words c).findSome? fun w => (w.1.isPrefixOf? t).map (w.2, ·)

mutual

/-- A value at the start of a text, and the text after it. Each call spends one unit of the bound. -/
def scan : ℕ → List Char → Option (Json φ × List Char)
  | 0, _ => none
  | n + 1, t =>
    match t with
    | '\x22' :: t => (scanString t).map (Prod.map .str id)
    | '[' :: t =>
      match skip t with
      | ']' :: t => some (.array [], t)
      | t => (scanItems n t).map (Prod.map .array id)
    | '\x7b' :: t =>
      match skip t with
      | '\x7d' :: t => some (.object [], t)
      | t => (scanMembers n t).map (Prod.map .object id)
    | t => scanWord c t <|> scanNumber c t

/-- An array's items, one at least, and its end. -/
def scanItems : ℕ → List Char → Option (List (Json φ) × List Char)
  | 0, _ => none
  | n + 1, t =>
    (scan n t).bind fun (j, t) =>
      match skip t with
      | ']' :: t => some ([j], t)
      | ',' :: t => (scanItems n (skip t)).map (Prod.map (j :: ·) id)
      | _ => none

/-- An object's members, one at least, and its end. -/
def scanMembers : ℕ → List Char → Option (List (List CodePoint × Json φ) × List Char)
  | n + 1, '\x22' :: t =>
    (scanString t).bind fun (k, t) =>
      match skip t with
      | ':' :: t =>
        (scan n (skip t)).bind fun (j, t) =>
          match skip t with
          | '\x7d' :: t => some ([(k, j)], t)
          | ',' :: t => (scanMembers n (skip t)).map (Prod.map ((k, j) :: ·) id)
          | _ => none
      | _ => none
  | _, _ => none

end

/-- A text that is one value, white space apart. -/
def parse (t : List Char) : Option (Json φ) :=
  (scan c (t.length + 1) (skip t)).bind fun (j, t) => if skip t = [] then some j else none

/-! ## What is read of what was written -/

mutual

/-- The value with the pairs of surrogates of its strings joined. -/
def joined : Json φ → Json φ
  | .null => .null
  | .bool b => .bool b
  | .int i => .int i
  | .float x => .float x
  | .str s => .str (joinSurrogates s)
  | .array items => .array (joinedItems items)
  | .object members => .object (joinedMembers members)

/-- The items, each joined. -/
def joinedItems : List (Json φ) → List (Json φ)
  | [] => []
  | j :: js => joined j :: joinedItems js

/-- The members, each key and value joined. -/
def joinedMembers : List (List CodePoint × Json φ) → List (List CodePoint × Json φ)
  | [] => []
  | (k, j) :: ms => (joinSurrogates k, joined j) :: joinedMembers ms

end

mutual

/-- The floats of a value. -/
def floats : Json φ → List φ
  | .null | .bool _ | .int _ | .str _ => []
  | .float x => [x]
  | .array items => floatsOfItems items
  | .object members => floatsOfMembers members

/-- The floats of an array's items. -/
def floatsOfItems : List (Json φ) → List φ
  | [] => []
  | j :: js => floats j ++ floatsOfItems js

/-- The floats of an object's members. -/
def floatsOfMembers : List (List CodePoint × Json φ) → List φ
  | [] => []
  | (_, j) :: ms => floats j ++ floatsOfMembers ms

end

/-- What stands after a value inside another. -/
def Delimited (t : List Char) : Prop := ∀ d ∈ t.head?, d = ',' ∨ d = ']' ∨ d = '\x7d'

/-- A float's text is read as the float. -/
def Exact (x : φ) : Prop := ∀ n t, Delimited t → scan c (n + 1) (c.text x ++ t) = some (.float x, t)

section
variable {c} {n : ℕ} {t rest rest' : List Char} {d : Char}

/-! ### Numbers -/

/-- What delimits is no digit, and starts no fraction and no exponent. -/
theorem Delimited.head (ht : Delimited t) (hd : d ∈ t.head?) :
    d.isDigit = false ∧ d ≠ '.' ∧ d ≠ 'e' ∧ d ≠ 'E' := by
  rcases ht d hd with rfl | rfl | rfl <;> decide

/-- Digits before a delimiter are all read. -/
theorem scanDigits_append {ds : List Char} (hds : ∀ d ∈ ds, d.isDigit) (ht : Delimited t) :
    scanDigits (ds ++ t) = (ds, t) := by
  rw [scanDigits, List.takeWhile_append_of_pos hds,
    List.dropWhile_append_of_pos hds]
  cases t with
  | nil => rw [List.takeWhile_nil, List.append_nil, List.dropWhile_nil]
  | cons d t =>
    have hd := (ht.head (Option.mem_some_self d)).1
    rw [List.takeWhile_cons_of_neg (by simp [hd]), List.append_nil,
      List.dropWhile_cons_of_neg (by simp [hd])]

/-- Only zero's digits start with a zero. -/
theorem head?_toDigits {i : ℕ} (h : (Nat.toDigits 10 i).head? = some '0') : i = 0 := by
  induction i using Nat.strongRecOn with
  | ind i ih =>
    rcases Nat.lt_or_ge i 10 with hlt | hge
    · rw [Nat.toDigits_of_lt_base hlt, List.head?_cons, Option.some.injEq] at h
      exact Nat.digitChar_eq_zero.1 h
    · rw [Nat.toDigits_of_base_le (by decide) hge,
        List.head?_append_of_ne_nil _ Nat.toDigits_ne_nil] at h
      have := ih (i / 10) (by omega) h
      omega

/-- A natural number's digits are read whole. -/
theorem scanNatural_toDigits (i : ℕ) (ht : Delimited t) :
    scanNatural (Nat.toDigits 10 i ++ t) = some (Nat.toDigits 10 i, t) := by
  have hdigit : ∀ d ∈ Nat.toDigits 10 i, d.isDigit := fun d hd =>
    Nat.isDigit_of_mem_toDigits (by decide) (by decide) hd
  have hzero := @head?_toDigits i
  cases hds : Nat.toDigits 10 i with
  | nil => exact absurd hds Nat.toDigits_ne_nil
  | cons d ds =>
    rw [hds] at hdigit hzero
    rw [List.cons_append, scanNatural]
    by_cases hd : d = '0'
    · obtain rfl := hzero (by rw [hd, List.head?_cons])
      rw [Nat.toDigits_zero, List.cons.injEq] at hds
      obtain ⟨-, rfl⟩ := hds
      rw [if_pos hd, hd, List.nil_append]
    · rw [if_neg hd, if_pos (hdigit d List.mem_cons_self),
        scanDigits_append (fun e he => hdigit e (List.mem_cons_of_mem d he)) ht]
      rfl

/-- Before a delimiter there is no fraction. -/
theorem scanFraction_of_delimited (ht : Delimited t) : scanFraction t = ([], t) := by
  cases t with
  | nil => rfl
  | cons d t =>
    obtain ⟨-, hdot, -⟩ := ht.head (Option.mem_some_self d)
    rw [scanFraction]
    rintro _ ⟨⟩
    exact hdot rfl

/-- Nor an exponent. -/
theorem scanExponent_of_delimited (ht : Delimited t) : scanExponent t = ([], t) := by
  cases t with
  | nil => rfl
  | cons d t =>
    obtain ⟨-, -, he, hE⟩ := ht.head (Option.mem_some_self d)
    rw [scanExponent, if_neg (by rintro (h | h); exacts [he h, hE h])]

/-- An integer's text starts with a digit, or with a sign and a digit. -/
theorem exists_toDigits (i : ℕ) : ∃ d ds, Char.isDigit d ∧ Nat.toDigits 10 i = d :: ds := by
  cases hds : Nat.toDigits 10 i with
  | nil => exact absurd hds Nat.toDigits_ne_nil
  | cons d ds =>
    have hmem : d ∈ Nat.toDigits 10 i := hds ▸ List.mem_cons_self
    exact ⟨d, ds, Nat.isDigit_of_mem_toDigits (by decide) (by decide) hmem, rfl⟩

/-- A digit is no character that is none. -/
theorem ne_of_isDigit {e : Char} (hd : d.isDigit = true) (he : e.isDigit = false) : d ≠ e := by
  rintro rfl
  rw [hd] at he
  cases he

/-- An integer's text is read whole. -/
theorem scanInteger_intText (i : ℤ) (ht : Delimited t) :
    scanInteger (intText i ++ t) = some (intText i, t) := by
  rw [intText]
  split
  · rw [List.cons_append, scanInteger, scanNatural_toDigits _ ht]
    rfl
  · obtain ⟨d, ds, hd, hds⟩ := exists_toDigits i.natAbs
    have hnatural := scanNatural_toDigits i.natAbs ht
    rw [hds] at hnatural ⊢
    rw [List.cons_append, scanInteger, ← List.cons_append, hnatural]
    rintro _ ⟨⟩
    exact ne_of_isDigit hd (by decide) rfl

/-- An integer's text is of the integer. -/
theorem intOfText_intText (i : ℤ) : intOfText (intText i) = i := by
  have hvalue : (Nat.ofDigitChars 10 (Nat.toDigits 10 i.natAbs) 0 : ℤ) = i.natAbs :=
    congrArg Nat.cast (Nat.ofDigitChars_toDigits (by decide) (by decide))
  rw [intText]
  split
  · rw [intOfText, hvalue]
    omega
  · obtain ⟨d, ds, hd, hds⟩ := exists_toDigits i.natAbs
    rw [hds] at hvalue ⊢
    rw [intOfText, hvalue]
    · omega
    · rintro _ ⟨⟩
      exact ne_of_isDigit hd (by decide) rfl

/-- No word starts with a digit. -/
theorem scanWord_of_isDigit (hd : d.isDigit = true) : scanWord c (d :: t) = none := by
  have hne : ∀ e : Char, e.isDigit = false → (e == d) = false := fun e he =>
    beq_eq_false_iff_ne.2 (ne_of_isDigit hd he).symm
  simp [scanWord, words, List.isPrefixOf?, hne]

/-- No word starts with a sign. -/
theorem scanWord_of_sign (hd : d.isDigit = true) : scanWord c ('-' :: d :: t) = none := by
  have hne : ∀ e : Char, e.isDigit = false → (e == d) = false := fun e he =>
    beq_eq_false_iff_ne.2 (ne_of_isDigit hd he).symm
  simp [scanWord, words, List.isPrefixOf?, hne]

/-- An integer's text is read as the integer. -/
theorem scan_intText (i : ℤ) (ht : Delimited t) :
    scan c (n + 1) (intText i ++ t) = some (.int i, t) := by
  have hnumber : scanNumber c (intText i ++ t) = some (.int i, t) := by
    rw [scanNumber, scanInteger_intText i ht, Option.map_some]
    simp only [scanFraction_of_delimited ht, scanExponent_of_delimited ht, and_self, if_true,
      intOfText_intText]
  obtain ⟨d, ds, hd, hds⟩ := exists_toDigits i.natAbs
  have hword : scanWord c (intText i ++ t) = none := by
    rw [intText, hds]
    split
    · exact scanWord_of_sign hd
    · exact scanWord_of_isDigit hd
  have hother : scan c (n + 1) (intText i ++ t) =
      (scanWord c (intText i ++ t) <|> scanNumber c (intText i ++ t)) := by
    rw [intText, hds]
    split
    · rfl
    · rw [List.cons_append, scan]
      all_goals
        rintro _ ⟨⟩
        exact ne_of_isDigit hd (by decide) rfl
  rw [hother, hword, hnumber]
  rfl

/-! ### Arrays and objects -/

/-- There is no white space to skip before another character. -/
theorem skip_cons (hd : isSpace d = false) : skip (d :: t) = d :: t := by
  rw [skip, List.dropWhile_cons_of_neg (by simp [hd])]

/-- What a value is read of starts with neither white space nor a bracket that closes. -/
theorem head_of_scan {r : Json φ × List Char} (h : scan c n t = some r) :
    ∃ d t', t = d :: t' ∧ isSpace d = false ∧ d ≠ ']' := by
  cases n with
  | zero => cases h
  | succ n =>
    cases t with
    | nil => cases h
    | cons d t =>
      refine ⟨d, t, rfl, ?_, ?_⟩
      · by_contra hspace
        simp only [Bool.not_eq_false, isSpace, Bool.or_eq_true, decide_eq_true_eq] at hspace
        obtain ((rfl | rfl) | rfl) | rfl := hspace <;> cases h
      · rintro rfl
        cases h

/-- Items start with a character that neither is white space nor ends the array. -/
theorem head_of_scanItems {r : List (Json φ) × List Char} (h : scanItems c n t = some r) :
    ∃ d t', t = d :: t' ∧ isSpace d = false ∧ d ≠ ']' := by
  cases n with
  | zero => cases h
  | succ n =>
    rw [scanItems] at h
    obtain ⟨item, hitem, -⟩ := Option.bind_eq_some_iff.1 h
    exact head_of_scan hitem

/-- An array is read by its items. -/
theorem scan_array (hspace : isSpace d = false) (hd : d ≠ ']') :
    scan c (n + 1) ('[' :: d :: t) = (scanItems c n (d :: t)).map (Prod.map .array id) := by
  rw [scan, skip_cons hspace]
  split
  · next heq =>
    cases heq
    exact absurd rfl hd
  · rfl

/-- The last item ends the array. -/
theorem scanItems_last {j : Json φ} (h : scan c n t = some (j, ']' :: rest)) :
    scanItems c (n + 1) t = some ([j], rest) := by
  rw [scanItems, h]
  rfl

/-- Another item follows a comma. -/
theorem scanItems_cons {j : Json φ} (hspace : isSpace d = false)
    (h : scan c n t = some (j, ',' :: ' ' :: d :: rest)) :
    scanItems c (n + 1) t = (scanItems c n (d :: rest)).map (Prod.map (j :: ·) id) := by
  have hskip : skip (' ' :: d :: rest) = d :: rest := skip_cons hspace
  rw [scanItems, h, Option.bind_some]
  change (scanItems c n (skip (' ' :: d :: rest))).map _ = _
  rw [hskip]

/-- The last member ends the object. -/
theorem scanMembers_last {k : List CodePoint} {j : Json φ}
    (hkey : scanString t = some (k, ':' :: ' ' :: d :: rest)) (hspace : isSpace d = false)
    (h : scan c n (d :: rest) = some (j, '\x7d' :: rest')) :
    scanMembers c (n + 1) ('\x22' :: t) = some ([(k, j)], rest') := by
  have hskip : skip (' ' :: d :: rest) = d :: rest := skip_cons hspace
  rw [scanMembers, hkey, Option.bind_some]
  change (scan c n (skip (' ' :: d :: rest))).bind _ = _
  rw [hskip, h]
  rfl

/-- Another member follows a comma. -/
theorem scanMembers_cons {k : List CodePoint} {j : Json φ}
    (hkey : scanString t = some (k, ':' :: ' ' :: d :: rest)) (hspace : isSpace d = false)
    (h : scan c n (d :: rest) = some (j, ',' :: ' ' :: '\x22' :: rest')) :
    scanMembers c (n + 1) ('\x22' :: t) =
      (scanMembers c n ('\x22' :: rest')).map (Prod.map ((k, j) :: ·) id) := by
  have hskip : skip (' ' :: d :: rest) = d :: rest := skip_cons hspace
  rw [scanMembers, hkey, Option.bind_some]
  change (scan c n (skip (' ' :: d :: rest))).bind _ = _
  rw [hskip, h]
  rfl

/-- The text of members, up to the value of the first. -/
theorem membersText_cons (k : List CodePoint) (j : Json φ) (ms : List (List CodePoint × Json φ)) :
    membersText c true ((k, j) :: ms) = '\x22' :: (k.flatMap escape ++
      '\x22' :: ':' :: ' ' :: (text c j ++ membersText c false ms)) := by
  rw [membersText, separator, if_pos rfl, List.nil_append, quoted, List.cons_append,
    List.append_assoc, List.singleton_append]

mutual

/-- The text of a value is read as the value joined. -/
theorem scan_text : ∀ (j : Json φ) {n : ℕ} {t : List Char}, (text c j).length < n → Delimited t →
    (∀ x ∈ j.floats, Exact c x) → scan c n (text c j ++ t) = some (j.joined, t)
  | .null, _ + 1, _, _, _, _ => rfl
  | .bool true, _ + 1, _, _, _, _ => rfl
  | .bool false, _ + 1, _, _, _, _ => rfl
  | .int i, _ + 1, _, _, ht, _ => scan_intText i ht
  | .float x, n + 1, _, _, ht, hfloats => hfloats x List.mem_cons_self n _ ht
  | .str s, n + 1, t, _, _, _ => by
    rw [text, quoted, List.cons_append, List.append_assoc, List.singleton_append, scan,
      scanString_quoted, Option.map_some]
    rfl
  | .array [], _ + 1, _, _, _, _ => rfl
  | .array (j :: js), n + 1, t, hn, _, hfloats => by
    have hlen : (itemsText c true (j :: js)).length < n := Nat.lt_of_succ_lt_succ hn
    have hitems := scanItems_text (t := t) (j :: js) (List.cons_ne_nil j js) hlen hfloats
    obtain ⟨d, rest, hhead, hspace, hd⟩ := head_of_scanItems hitems
    rw [text, List.cons_append, hhead, scan_array hspace hd, ← hhead, hitems]
    rfl
  | .object [], _ + 1, _, _, _, _ => rfl
  | .object ((k, j) :: ms), n + 1, t, hn, _, hfloats => by
    have hlen : (membersText c true ((k, j) :: ms)).length < n := Nat.lt_of_succ_lt_succ hn
    have hmembers := scanMembers_text (t := t) ((k, j) :: ms) (List.cons_ne_nil _ ms) hlen hfloats
    change (scanMembers c n (membersText c true ((k, j) :: ms) ++ t)).map (Prod.map Json.object id) = _
    rw [hmembers]
    rfl

/-- The text of an array's items is read as the items joined. -/
theorem scanItems_text : ∀ (items : List (Json φ)) {n : ℕ} {t : List Char}, items ≠ [] →
    (itemsText c true items).length < n → (∀ x ∈ floatsOfItems items, Exact c x) →
    scanItems c n (itemsText c true items ++ t) = some (joinedItems items, t)
  | [], _, _, h, _, _ => absurd rfl h
  | [j], n + 1, t, _, hn, hfloats => by
    have htext : itemsText c true [j] = text c j ++ [']'] := rfl
    rw [htext, List.length_append, List.length_singleton] at hn
    rw [htext, List.append_assoc]
    exact scanItems_last (scan_text j (by omega) (by rintro d ⟨⟩; exact .inr (.inl rfl))
      fun x hx => hfloats x (List.mem_append_left _ hx))
  | j :: j' :: js, n + 1, t, _, hn, hfloats => by
    have htext : itemsText c true (j :: j' :: js) =
      text c j ++ ',' :: ' ' :: itemsText c true (j' :: js) := rfl
    rw [htext, List.length_append, List.length_cons, List.length_cons] at hn
    have hitems := scanItems_text (n := n) (t := t) (j' :: js) (List.cons_ne_nil j' js) (by omega)
      fun x hx => hfloats x (List.mem_append_right _ hx)
    have hitem := scan_text j (n := n) (t := ',' :: ' ' :: (itemsText c true (j' :: js) ++ t))
      (by omega) (by rintro d ⟨⟩; exact .inl rfl) fun x hx => hfloats x (List.mem_append_left _ hx)
    obtain ⟨d, rest, hhead, hspace, -⟩ := head_of_scanItems hitems
    rw [htext, List.append_assoc, List.cons_append, List.cons_append]
    rw [hhead] at hitem hitems ⊢
    rw [scanItems_cons hspace hitem, hitems]
    rfl

/-- The text of an object's members is read as the members joined. -/
theorem scanMembers_text : ∀ (members : List (List CodePoint × Json φ)) {n : ℕ} {t : List Char},
    members ≠ [] → (membersText c true members).length < n →
    (∀ x ∈ floatsOfMembers members, Exact c x) →
    scanMembers c n (membersText c true members ++ t) = some (joinedMembers members, t)
  | [], _, _, h, _, _ => absurd rfl h
  | [(k, j)], n + 1, t, _, hn, hfloats => by
    rw [membersText_cons] at hn ⊢
    simp only [membersText, List.length_cons, List.length_append, List.length_nil] at hn
    have hvalue := scan_text j (n := n) (t := '\x7d' :: t) (by omega)
      (by rintro d ⟨⟩; exact .inr (.inr rfl)) fun x hx => hfloats x (List.mem_append_left _ hx)
    obtain ⟨d, rest, hhead, hspace, -⟩ := head_of_scan hvalue
    simp only [membersText, List.cons_append, List.append_assoc, List.nil_append]
    rw [hhead] at hvalue ⊢
    rw [scanMembers_last (scanString_quoted k _) hspace hvalue]
    rfl
  | (k, j) :: (k', j') :: ms, n + 1, t, _, hn, hfloats => by
    have htail : membersText c false ((k', j') :: ms) =
      ',' :: ' ' :: membersText c true ((k', j') :: ms) := rfl
    rw [membersText_cons, htail] at hn ⊢
    simp only [List.length_cons, List.length_append] at hn
    have hmembers := scanMembers_text (n := n) (t := t) ((k', j') :: ms) (List.cons_ne_nil _ ms)
      (by omega) fun x hx => hfloats x (List.mem_append_right _ hx)
    have hvalue := scan_text j (n := n)
      (t := ',' :: ' ' :: (membersText c true ((k', j') :: ms) ++ t)) (by omega)
      (by rintro d ⟨⟩; exact .inl rfl) fun x hx => hfloats x (List.mem_append_left _ hx)
    obtain ⟨d, rest, hhead, hspace, -⟩ := head_of_scan hvalue
    simp only [List.cons_append, List.append_assoc]
    rw [hhead] at hvalue ⊢
    rw [membersText_cons, List.cons_append] at hvalue hmembers
    rw [scanMembers_cons (scanString_quoted k _) hspace hvalue, hmembers]
    rfl

end

/-- **The text of a value is one value, the value with its strings' pairs of surrogates joined.** -/
theorem parse_text (j : Json φ) (hfloats : ∀ x ∈ j.floats, Exact c x) :
    parse c (text c j) = some j.joined := by
  have hscan := scan_text j (n := (text c j).length + 1) (t := []) (Nat.lt_succ_self _)
    (by rintro d ⟨⟩) hfloats
  rw [List.append_nil] at hscan
  obtain ⟨d, rest, hhead, hspace, -⟩ := head_of_scan hscan
  rw [parse, hhead, skip_cons hspace, ← hhead, hscan]
  rfl

end

end Json

end Lib
