import RestFrameworkServices.Serializers.WireNames

/-!
# Splitting one layer of author values

A layer of author values - a view hook's extras, or what a spec's `kwargs` provider answers - names
what the service is handed. `split` (`_split_author_values`) puts each value naming a caller's
argument into the arguments, by the key itself or by the field whose `source` it is, and leaves the
rest as extras.

A layer's loop claims arguments key by key. `get?_routed`, `get?_authored` and `get?_rest` give what
it leaves as equations in the values that are set (`setAt`): a key the layer declines with `UNSET`
is no key of it at all.
-/

namespace RestFrameworkServices

open Lib

universe u

variable {V : Type u}

/-- What a layer answers under a key: `UNSET`, which declines it, or a value. -/
inductive Answer (V : Type u) where
  | unset
  | given (v : V)
deriving DecidableEq

namespace Answer

def value? : Answer V → Option V
  | unset => none
  | given v => some v

def isSet (a : Answer V) : Bool := a.value?.isSome

@[simp] theorem value?_unset : (unset : Answer V).value? = none := rfl
@[simp] theorem value?_given (v : V) : (given v).value? = some v := rfl
@[simp] theorem isSet_unset : (unset : Answer V).isSet = false := rfl
@[simp] theorem isSet_given (v : V) : (given v).isSet = true := rfl

end Answer

/-- The value a layer gives under a key, if it gives one. -/
def setAt (values : Dict String (Answer V)) (name : String) : Option V :=
  (values.get? name).bind Answer.value?

/-- What a layer's split leaves: the values that go into arguments, the key each was given under,
and the rest. -/
structure Split (V : Type u) where
  routed : Dict String V
  authored : Dict String String
  rest : Dict String (Answer V)

section
variable (names : List String) (wire : Wire)

/-- The argument a key is the value of, where it is no argument itself. -/
def argumentOf (name : String) : String := (wire.map.get? name).getD name

/-- The loop: each key that is no argument claims the one it is the value of, if none has. -/
def claim (named : Dict String String) : List String → Dict String String
  | [] => named
  | name :: keys =>
    if name ∉ names ∧ argumentOf wire name ∉ named then
      claim (named.set (argumentOf wire name) name) keys
    else claim named keys

/-- The arguments a layer claims, each with the key that claims it: those it names outright first. -/
def claimed (values : Dict String (Answer V)) : Dict String String :=
  claim names wire
    (values.filterMap fun name value => if name ∈ names ∧ value.isSet then some name else none)
    values.keys

/-- `_split_author_values`, over the names a caller fills. -/
def split (values : Dict String (Answer V)) : Split V :=
  let named := claimed names wire values
  let routed := named.filterMap fun argument name =>
    if argument ∈ names then setAt values name else none
  let authored := named.filter fun argument _ => argument ∈ routed
  { routed := routed
    authored := authored
    rest := values.filter fun name value =>
      name ∉ authored.entries.map (·.2) ∧ value.isSet }

/-! ## What the loop claims -/

/-- The key that may claim an argument: the `source` of the field of that wire name. -/
def sourceOf (argument : String) : Option String :=
  (wire.map.entries.find? fun e => e.2 == argument).map (·.1)

/-- An argument's key is the `source` whose wire name it is. -/
theorem sourceOf_eq_some {argument name : String} :
    sourceOf wire argument = some name ↔ wire.map.get? name = some argument := by
  unfold sourceOf
  constructor
  · intro h
    obtain ⟨e, he, rfl⟩ := Option.map_eq_some_iff.1 h
    have hargument : e.2 = argument := by simpa using List.find?_some he
    rw [← hargument]
    exact Dict.get?_eq_some.2 (List.mem_of_find?_eq_some he)
  · intro h
    have hmem := Dict.get?_eq_some.1 h
    cases hfind : wire.map.entries.find? fun e => e.2 == argument with
    | none => exact absurd (List.find?_eq_none.1 hfind _ hmem) (by simp)
    | some e =>
      have hargument : e.2 = argument := by simpa using List.find?_some hfind
      have he := Dict.get?_eq_some.2 (List.mem_of_find?_eq_some hfind)
      rw [hargument] at he
      rw [Option.map_some, wire.injective he h]

variable {names wire}

/-- The loop leaves an argument with whom claimed it before, or with the first key that may. -/
theorem get?_claim {a : String} (ha : a ∈ names) : ∀ {keys : List String}
    {named : Dict String String}, (claim names wire named keys).get? a =
      (named.get? a).or (keys.find? fun n => n ∉ names ∧ wire.map.get? n = some a)
  | [], named => by simp [claim]
  | n :: keys, named => by
    -- a key that is no argument and no field's `source` claims itself, which `a` is not
    have hself : n ∉ names → (argumentOf wire n = a ↔ wire.map.get? n = some a) := by
      intro hn
      unfold argumentOf
      cases hw : wire.map.get? n with
      | none => simp only [Option.getD_none, reduceCtorEq, iff_false]; rintro rfl; exact hn ha
      | some b => simp
    unfold claim
    split
    · next hnew =>
      rw [get?_claim ha, Dict.get?_set]
      by_cases hna : argumentOf wire n = a
      · have hnone : named.get? a = none := Dict.get?_eq_none.2 (hna ▸ hnew.2)
        have hfind : (n :: keys).find? (fun n => n ∉ names ∧ wire.map.get? n = some a) = some n :=
          List.find?_cons_of_pos (by simpa [hnew.1] using (hself hnew.1).1 hna)
        rw [if_pos hna.symm, hnone, hfind]
        rfl
      · have hskip : (n :: keys).find? (fun n => n ∉ names ∧ wire.map.get? n = some a) =
            keys.find? fun n => n ∉ names ∧ wire.map.get? n = some a :=
          List.find?_cons_of_neg (by simpa [hnew.1] using fun hw => hna ((hself hnew.1).2 hw))
        rw [if_neg fun h => hna h.symm, hskip]
    · next hold =>
      rw [get?_claim ha]
      by_cases hn : n ∉ names ∧ wire.map.get? n = some a
      · have hmem : a ∈ named := by
          by_contra hno
          exact hold ⟨hn.1, (hself hn.1).2 hn.2 ▸ hno⟩
        obtain ⟨m, hm⟩ := Option.isSome_iff_exists.1 (Dict.mem_iff_isSome.1 hmem)
        simp [hm]
      · have hskip : (n :: keys).find? (fun n => n ∉ names ∧ wire.map.get? n = some a) =
            keys.find? fun n => n ∉ names ∧ wire.map.get? n = some a :=
          List.find?_cons_of_neg (by simpa using hn)
        rw [hskip]

/-- The first key that may claim an argument is its field's `source`, where it is one of the keys. -/
theorem find?_keys {values : Dict String (Answer V)} {a : String} :
    (values.keys.find? fun n => n ∉ names ∧ wire.map.get? n = some a) =
      (sourceOf wire a).filter fun s => s ∉ names ∧ s ∈ values := by
  cases hfind : values.keys.find? fun n => n ∉ names ∧ wire.map.get? n = some a with
  | none =>
    refine (Option.eq_none_iff_forall_ne_some.2 fun s hs => ?_).symm
    obtain ⟨hsource, hs⟩ := Option.filter_eq_some_iff.1 hs
    have hs : s ∉ names ∧ s ∈ values := by simpa using hs
    refine List.find?_eq_none.1 hfind s hs.2 ?_
    simpa using ⟨hs.1, (sourceOf_eq_some wire).1 hsource⟩
  | some s =>
    have hs : s ∉ names ∧ wire.map.get? s = some a := by simpa using List.find?_some hfind
    have hmem : s ∈ values := List.mem_of_find?_eq_some hfind
    rw [(sourceOf_eq_some wire).2 hs.2]
    simp [Option.filter_some, hs.1, hmem]

/-- A key that is set is a key of the layer. -/
theorem mem_of_setAt {values : Dict String (Answer V)} {n : String}
    (h : (setAt values n).isSome) : n ∈ values := by
  rw [Dict.mem_iff_isSome]
  unfold setAt at h
  cases hn : values.get? n with
  | none => simp [hn] at h
  | some _ => rfl

/-- What a layer gives under a key it answers. -/
theorem get?_of_setAt {values : Dict String (Answer V)} {n : String} {v : V}
    (h : setAt values n = some v) : values.get? n = some (.given v) := by
  obtain ⟨a, ha, hv⟩ := Option.bind_eq_some_iff.1 h
  cases a with
  | unset => cases hv
  | given w =>
    cases hv
    exact ha

end

/-! ## What a split leaves, in the values that are set -/

section
variable (names : List String) (wire : Wire) (values : Dict String (Answer V))

/-- The value that goes into an argument: the key's own, or that of its field's `source`. -/
def routedAt (a : String) : Option V :=
  if a ∈ names then
    (setAt values a).or
      ((sourceOf wire a).bind fun s => if s ∈ names then none else setAt values s)
  else none

/-- The key that gives it. -/
def authoredAt (a : String) : Option String :=
  if a ∈ names then
    if (setAt values a).isSome then some a
    else (sourceOf wire a).filter fun s => s ∉ names ∧ (setAt values s).isSome
  else none

/-- A key moves into the argument of the field whose `source` it is: the layer leaves that free. -/
def moves (n : String) : Bool :=
  match wire.map.get? n with
  | some a => a ∈ names ∧ (setAt values a).isNone
  | none => false

/-- An argument is claimed by its own key, or by its field's `source`. -/
theorem get?_claimed {a : String} (ha : a ∈ names) :
    (claimed names wire values).get? a =
      if (setAt values a).isSome then some a
      else (sourceOf wire a).filter fun s => s ∉ names ∧ s ∈ values := by
  rw [claimed, get?_claim ha, find?_keys, Dict.get?_filterMap]
  cases hv : values.get? a with
  | none => simp [setAt, hv]
  | some v => cases v <;> simp [setAt, hv, ha]

/-- The key that gives an argument its value is the one that claims it, where that is set. -/
theorem authoredAt_eq {a : String} (ha : a ∈ names) : authoredAt names wire values a =
    ((claimed names wire values).get? a).filter fun n => (setAt values n).isSome := by
  rw [get?_claimed names wire values ha, authoredAt, if_pos ha]
  split
  · next hset => rw [Option.filter_some, if_pos hset]
  · rw [Option.filter_filter]
    congr 1
    funext s
    by_cases hset : (setAt values s).isSome
    · have hmem : s ∈ values := mem_of_setAt hset
      simp [hset, hmem]
    · simp [hset]

/-- An argument's value is that of the key that gives it. -/
theorem routedAt_eq (a : String) : routedAt names wire values a =
    (authoredAt names wire values a).bind (setAt values) := by
  rw [routedAt, authoredAt]
  split
  · cases hset : setAt values a with
    | some v => simp [hset]
    | none =>
      cases sourceOf wire a with
      | none => rfl
      | some s =>
        by_cases hn : s ∈ names <;> cases hv : setAt values s <;>
          simp [hn, hv, Option.filter_some]
  · rfl

/-- A key that gives an argument its value is set. -/
theorem isSome_setAt_of_authoredAt {a n : String} (h : authoredAt names wire values a = some n) :
    (setAt values n).isSome := by
  by_cases ha : a ∈ names
  · rw [authoredAt_eq names wire values ha, Option.filter_eq_some_iff] at h
    exact h.2
  · rw [authoredAt, if_neg ha] at h
    cases h

/-- A key gives an argument exactly where the argument has a value. -/
theorem isSome_authoredAt (a : String) :
    (authoredAt names wire values a).isSome = (routedAt names wire values a).isSome := by
  rw [routedAt_eq]
  cases ha : authoredAt names wire values a with
  | none => rfl
  | some n => exact (isSome_setAt_of_authoredAt names wire values ha).symm

/-- The values a split routes. -/
theorem get?_routed (a : String) :
    (split names wire values).routed.get? a = routedAt names wire values a := by
  rw [routedAt_eq]
  simp only [split, Dict.get?_filterMap]
  by_cases ha : a ∈ names
  · simp only [ha, if_true, authoredAt_eq names wire values ha]
    cases (claimed names wire values).get? a with
    | none => rfl
    | some n => cases hn : setAt values n <;> simp [hn, Option.filter_some]
  · simp [authoredAt, ha]

/-- The keys it routes them under. -/
theorem get?_authored (a : String) :
    (split names wire values).authored.get? a = authoredAt names wire values a := by
  have hmem : a ∈ (split names wire values).routed ↔ (authoredAt names wire values a).isSome := by
    rw [Dict.mem_iff_isSome, get?_routed, isSome_authoredAt]
  change ((claimed names wire values).filter fun argument _ =>
    argument ∈ (split names wire values).routed).get? a = _
  rw [Dict.get?_filter]
  simp only [hmem]
  by_cases ha : a ∈ names
  · rw [authoredAt_eq names wire values ha]
    cases (claimed names wire values).get? a with
    | none => rfl
    | some n => cases hn : (setAt values n).isSome <;> simp [hn, Option.filter_some]
  · simp [authoredAt, ha]

/-- An argument takes a layer's value from its own key, or from its field's `source`. -/
theorem isSome_authoredAt_iff {a : String} : (authoredAt names wire values a).isSome ↔
    a ∈ names ∧ ((setAt values a).isSome ∨
      ∃ s, wire.map.get? s = some a ∧ s ∉ names ∧ (setAt values s).isSome) := by
  rw [authoredAt]
  by_cases ha : a ∈ names
  · cases hset : (setAt values a).isSome with
    | true => simp [ha]
    | false =>
      simp only [ha, if_true, Bool.false_eq_true, if_false, true_and, false_or,
        Option.isSome_iff_exists, Option.filter_eq_some_iff, sourceOf_eq_some, decide_eq_true_eq]
  · simp [ha]

/-- A key that is set is taken exactly where it is an argument, or moves into one. -/
theorem mem_taken_iff {n : String} (h : (setAt values n).isSome) :
    n ∈ (split names wire values).authored.entries.map (·.2) ↔
      n ∈ names ∨ moves names wire values n = true := by
  have hex : n ∈ (split names wire values).authored.entries.map (·.2) ↔
      ∃ a, authoredAt names wire values a = some n := by
    simp only [← get?_authored, Dict.get?_eq_some, List.mem_map, Prod.exists]
    constructor
    · rintro ⟨a, m, hm, rfl⟩
      exact ⟨a, hm⟩
    · rintro ⟨a, hm⟩
      exact ⟨a, n, hm, rfl⟩
  rw [hex]
  constructor
  · rintro ⟨a, ha⟩
    unfold authoredAt at ha
    split at ha
    · next hmem =>
      split at ha
      · cases ha
        exact .inl hmem
      · next hset =>
        obtain ⟨hsource, -⟩ := Option.filter_eq_some_iff.1 ha
        have hwire := (sourceOf_eq_some wire).1 hsource
        refine .inr ?_
        simp [moves, hwire, hmem, Option.not_isSome_iff_eq_none.1 hset]
    · cases ha
  · intro hn
    by_cases hmem : n ∈ names
    · exact ⟨n, by simp [authoredAt, hmem, h]⟩
    · have hmoves := hn.resolve_left hmem
      unfold moves at hmoves
      split at hmoves
      · next a hwire =>
        have ha : a ∈ names ∧ (setAt values a).isNone := by simpa using hmoves
        refine ⟨a, ?_⟩
        have hnone : setAt values a = none := Option.isNone_iff_eq_none.1 ha.2
        simp [authoredAt, ha.1, hnone, (sourceOf_eq_some wire).2 hwire, hmem, h]
      · cases hmoves

/-- What a split leaves: the values of keys that neither are arguments nor move into one. -/
theorem get?_rest (n : String) : (split names wire values).rest.get? n =
    if n ∈ names ∨ moves names wire values n = true then none
    else (setAt values n).map .given := by
  change (values.filter fun name value =>
    name ∉ (split names wire values).authored.entries.map (·.2) ∧ value.isSet).get? n = _
  rw [Dict.get?_filter]
  cases hv : values.get? n with
  | none => simp [setAt, hv]
  | some v =>
    cases v with
    | unset => simp [setAt, hv]
    | given v =>
      have hset : setAt values n = some v := by simp [setAt, hv]
      have htaken := mem_taken_iff names wire values (n := n) (by rw [hset]; rfl)
      by_cases hn : n ∈ names ∨ moves names wire values n = true
      · simp [htaken.2 hn, hn]
      · have hfree := mt htaken.1 hn
        rw [if_neg hn, hset]
        simp [hfree]

end

/-! ## Two layers of the same set values -/

/-- Two splits leave the same values. -/
structure Split.Same (s t : Split V) : Prop where
  routed : Dict.Same s.routed t.routed
  authored : Dict.Same s.authored t.authored
  rest : Dict.Same s.rest t.rest

/-- A split depends on the values that are set alone: a declined key is as one not answered. -/
theorem split_congr (names : List String) (wire : Wire) {values values' : Dict String (Answer V)}
    (h : ∀ n, setAt values n = setAt values' n) :
    (split names wire values).Same (split names wire values') where
  routed a := by
    rw [get?_routed, get?_routed]
    simp only [routedAt, h]
  authored a := by
    rw [get?_authored, get?_authored]
    simp only [authoredAt, h]
  rest n := by
    have hmoves : moves names wire values n = moves names wire values' n := by
      simp only [moves, h]
    rw [get?_rest, get?_rest, hmoves, h]

/-! ## A layer over another -/

section
variable {names : List String} {wire : Wire} {values values' upper : Dict String (Answer V)}
  {k : String} (hk : ∀ n ≠ k, setAt values' n = setAt values n)
  (hset : (setAt values' k).isSome = (setAt values k).isSome)

include hk hset

/-- Two layers that give the same keys give a value under the same ones. -/
theorem isSome_setAt_congr (n : String) :
    (setAt values' n).isSome = (setAt values n).isSome := by
  by_cases hn : n = k
  · rw [hn, hset]
  · rw [hk n hn]

/-- What a key's value becomes moves no other: the same keys give the same arguments. -/
theorem authoredAt_congr (a : String) :
    authoredAt names wire values' a = authoredAt names wire values a := by
  simp only [authoredAt, isSome_setAt_congr hk hset]

/-- They move the same keys. -/
theorem moves_congr (n : String) :
    moves names wire values' n = moves names wire values n := by
  simp only [moves, ← Option.not_isSome, isSome_setAt_congr hk hset]

omit hset in
/-- An argument a key's value went into is the upper layer's, where it sets the key too. -/
theorem routedAt_or_congr (hover : (setAt upper k).isSome) (a : String) :
    (routedAt names wire upper a).or (routedAt names wire values' a) =
      (routedAt names wire upper a).or (routedAt names wire values a) := by
  have hover_of : (routedAt names wire upper a).isSome →
      (routedAt names wire upper a).or (routedAt names wire values' a) =
        (routedAt names wire upper a).or (routedAt names wire values a) := by
    intro h
    obtain ⟨v, hv⟩ := Option.isSome_iff_exists.1 h
    rw [hv, Option.some_or, Option.some_or]
  by_cases ha : a ∈ names
  · by_cases hak : a = k
    · refine hover_of ?_
      simp only [routedAt, ha, if_true, hak ▸ hover, Option.isSome_or, Bool.true_or]
    · cases hs : sourceOf wire a with
      | none => simp only [routedAt, hs, hk a hak, Option.bind_none]
      | some s =>
        by_cases hsk : s = k ∧ s ∉ names
        · obtain ⟨rfl, hn⟩ := hsk
          refine hover_of ?_
          simp only [routedAt, ha, if_true, hs, Option.bind_some, hn, if_false, hover,
            Option.isSome_or, Bool.or_true]
        · have hsame : (if s ∈ names then none else setAt values' s) =
              if s ∈ names then none else setAt values s := by
            by_cases hn : s ∈ names
            · rw [if_pos hn, if_pos hn]
            · rw [if_neg hn, if_neg hn, hk s fun h => hsk ⟨h, hn⟩]
          simp only [routedAt, hs, hk a hak, Option.bind_some, hsame]
  · simp only [routedAt, ha, if_false]

/-- An extra a key's value became is the upper layer's, where it sets the key too and moves it into
no argument the lower layer gives itself. -/
theorem rest_or_congr (hover : (setAt upper k).isSome)
    (hmoves : ∀ a, wire.map.get? k = some a → k ∉ names → a ∈ names → (setAt values a).isSome →
      (setAt upper a).isSome) (n : String) :
    ((split names wire upper).rest.get? n).or ((split names wire values').rest.get? n) =
      ((split names wire upper).rest.get? n).or ((split names wire values).rest.get? n) := by
  by_cases hnk : n = k
  · subst hnk
    rw [get?_rest _ _ values', get?_rest _ _ values, moves_congr hk hset]
    by_cases hgone : n ∈ names ∨ moves names wire values n = true
    · rw [if_pos hgone, if_pos hgone]
    · obtain ⟨hn, hstays⟩ := not_or.1 hgone
      have hover_stays : ¬ moves names wire upper n = true := by
        intro hover_moves
        unfold moves at hover_moves hstays
        cases hw : wire.map.get? n with
        | none => simp [hw] at hover_moves
        | some a =>
          have hm : a ∈ names ∧ setAt upper a = none := by simpa [hw] using hover_moves
          have hv : (setAt values a).isSome := by
            rw [hw] at hstays
            by_contra hno
            exact hstays (by simpa [hm.1] using hno)
          have hbad := hmoves a hw hn hm.1 hv
          rw [hm.2] at hbad
          cases hbad
      obtain ⟨v, hv⟩ := Option.isSome_iff_exists.1 hover
      have hrest : (split names wire upper).rest.get? n = some (.given v) := by
        rw [get?_rest, if_neg (not_or.2 ⟨hn, hover_stays⟩), hv]
        rfl
      rw [hrest, Option.some_or, Option.some_or]
  · rw [get?_rest _ _ values', get?_rest _ _ values, moves_congr hk hset, hk n hnk]

end

/-! ## Declined keys -/

/-- A layer's keys, less those it declines. -/
def answered (values : Dict String (Answer V)) : Dict String (Answer V) :=
  values.filter fun _ value => value.isSet

/-- What a layer answers, less what it declines. -/
theorem get?_answered (values : Dict String (Answer V)) (n : String) :
    (answered values).get? n = (setAt values n).map .given := by
  rw [answered, Dict.get?_filter, setAt]
  cases values.get? n with
  | none => rfl
  | some a => cases a <;> rfl

/-- It names no other key. -/
theorem mem_of_mem_answered {values : Dict String (Answer V)} {n : String}
    (h : n ∈ answered values) : n ∈ values := by
  rw [Dict.mem_iff_isSome, get?_answered, Option.isSome_map] at h
  exact mem_of_setAt h

/-- It gives the same values. -/
@[simp] theorem setAt_answered (values : Dict String (Answer V)) (n : String) :
    setAt (answered values) n = setAt values n := by
  rw [setAt, get?_answered]
  cases setAt values n <;> rfl

/-- A key kept gives what it gave. -/
theorem setAt_filter (p : String → Bool) (values : Dict String (Answer V)) (n : String) :
    setAt (values.filter fun n _ => p n) n = if p n then setAt values n else none := by
  rw [setAt, Dict.get?_filter, setAt]
  cases values.get? n <;> cases p n <;> rfl

end RestFrameworkServices
