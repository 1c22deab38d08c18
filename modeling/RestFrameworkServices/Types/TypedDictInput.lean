import Mathlib.Data.List.Induction
import RestFrameworkServices.Lib.Dict

/-!
# The required keys of a `TypedDict`

Python computes `__required_keys__` as each class is made, from annotations that are still text where the
class postpones them, and `typed_dict_input` corrects it by the qualifier each resolved hint is wrapped
in. It reads that wrapper alone, so its keys are those of the type system, each with its qualifiers
removed, exactly where no hint has a qualifier under an `Annotated` or under another
(`typedDictInput_iff`).
-/

namespace RestFrameworkServices.TypedDictInput

open Lib

/-! ## Classes -/

/-- A key's hint: the qualifiers and the `Annotated` layers around a type, in any order. -/
inductive Hint where
  | type (name : String)
  | annotated (hint : Hint) (metadata : List String)
  | required (hint : Hint)
  | notRequired (hint : Hint)
deriving DecidableEq

/-- A qualifier of a key. -/
inductive Qualifier where
  | required
  | notRequired
deriving DecidableEq

/-- The qualifiers of a hint, the outermost first. -/
def Hint.qualifiers : Hint → List Qualifier
  | type _ => []
  | annotated hint _ => hint.qualifiers
  | required hint => .required :: hint.qualifiers
  | notRequired hint => .notRequired :: hint.qualifiers

/-- A class of a `TypedDict`'s chain: its `total` flag, whether its annotations are postponed, and the
hints they resolve to, of the keys it declares. -/
structure TypedDictClass where
  total : Bool
  postponed : Bool
  annotations : Dict String Hint

/-- Whether a key is among `__required_keys__` as its class is made. A postponed annotation is text, which
shows no qualifier; of two, `Required` is looked for first. -/
def requiredAsMade (cls : TypedDictClass) (hint : Hint) : Bool :=
  if cls.postponed then cls.total
  else if .required ∈ hint.qualifiers then true
  else if .notRequired ∈ hint.qualifiers then false
  else cls.total

/-- A class's keys over its bases', each with whether it is required. -/
def madeKeys (bases : Dict String Bool) (cls : TypedDictClass) : Dict String Bool :=
  bases.update (cls.annotations.filterMap fun _ hint => some (requiredAsMade cls hint))

/-- `__required_keys__` of the last class of a chain. -/
def requiredKeys (chain : List TypedDictClass) : List String :=
  let made := chain.foldl madeKeys .empty
  made.keys.filter fun name => made.get? name = some true

/-- `annotation_hints` of the last class of a chain, each hint resolved where it was written. -/
def annotationHints (chain : List TypedDictClass) : Dict String Hint :=
  chain.foldl (fun hints cls => hints.update cls.annotations) .empty

/-! ## `typed_dict_input` -/

/-- The loop's step: a hint's own wrapper is taken off, and decides. -/
def readHint (state : List String × Dict String Hint) (e : String × Hint) :
    List String × Dict String Hint :=
  match e.2 with
  | .notRequired hint => (state.1.filter (· ≠ e.1), state.2.set e.1 hint)
  | .required hint => (e.1 :: state.1.filter (· ≠ e.1), state.2.set e.1 hint)
  | hint => (state.1, state.2.set e.1 hint)

/-- `typed_dict_input`: the field types and the required keys. -/
def typedDictInput (chain : List TypedDictClass) : Dict String Hint × List String :=
  let (required, fieldTypes) :=
    (annotationHints chain).entries.foldl readHint (requiredKeys chain, .empty)
  (fieldTypes, required.filter (· ∈ fieldTypes))

/-! ## The type system -/

/-- What the outermost qualifier of a hint says, through `Annotated`. -/
def Hint.outermost : Hint → Option Bool
  | type _ => none
  | annotated hint _ => hint.outermost
  | required _ => some true
  | notRequired _ => some false

/-- A hint with its qualifiers removed. -/
def Hint.bare : Hint → Hint
  | type name => .type name
  | annotated hint metadata => .annotated hint.bare metadata
  | required hint => hint.bare
  | notRequired hint => hint.bare

/-- The last class of a chain that declares a key, and its hint there. -/
def declarer (chain : List TypedDictClass) (name : String) : Option (TypedDictClass × Hint) :=
  chain.reverse.findSome? fun cls => (cls.annotations.get? name).map (cls, ·)

/-- A key's type and requiredness by the typing rules: the outermost qualifier's, else the class's. -/
def ruled (d : TypedDictClass × Hint) : Bool := d.2.outermost.getD d.1.total

/-- The keys of a `TypedDict` are read as the type system does: those required are exactly those it makes
required, and each key stands once, with its qualifiers removed. -/
structure ReadAsTyped (chain : List TypedDictClass) : Prop where
  required : ∀ name, name ∈ (typedDictInput chain).2 ↔
    ∃ d, declarer chain name = some d ∧ ruled d = true
  types : ∀ name, (typedDictInput chain).1.get? name = (declarer chain name).map fun d => d.2.bare

/-- What is under a hint's own wrapper. -/
def Hint.inner : Hint → Hint
  | required hint => hint
  | notRequired hint => hint
  | hint => hint

/-- What a hint's own wrapper says. -/
def Hint.wrapper : Hint → Option Bool
  | required _ => some true
  | notRequired _ => some false
  | _ => none

/-- One key read: its hint, and whether it is required. -/
theorem readHint_eq (state : List String × Dict String Hint) (name : String) (hint : Hint) :
    (readHint state (name, hint)).2 = state.2.set name hint.inner ∧
      ∀ n, n ∈ (readHint state (name, hint)).1 ↔
        if n = name then hint.wrapper.getD (decide (n ∈ state.1)) = true else n ∈ state.1 := by
  cases hint with
  | type _ | annotated _ _ =>
    refine ⟨rfl, fun n => ?_⟩
    split
    · exact decide_eq_true_iff.symm
    · rfl
  | required hint =>
    refine ⟨rfl, fun n => ?_⟩
    rw [readHint, List.mem_cons, List.mem_filter]
    split <;> simp_all [Hint.wrapper]
  | notRequired hint =>
    refine ⟨rfl, fun n => ?_⟩
    rw [readHint, List.mem_filter]
    split <;> simp_all [Hint.wrapper]

/-- Every hint of a class is read by its own wrapper. -/
theorem foldl_readHint : ∀ {entries : List (String × Hint)}, (keysOf entries).Nodup →
    ∀ (state : List String × Dict String Hint) (n : String),
      (entries.foldl readHint state).2.get? n =
        ((entries.lookup n).map Hint.inner).or (state.2.get? n) ∧
      (n ∈ (entries.foldl readHint state).1 ↔
        ((entries.lookup n).bind Hint.wrapper).getD (decide (n ∈ state.1)) = true)
  | [], _, state, n => ⟨rfl, decide_eq_true_iff.symm⟩
  | e :: entries, h, state, n => by
    obtain ⟨hkey, hnodup⟩ := List.nodup_cons.1 h
    obtain ⟨htypes, hrequired⟩ := foldl_readHint hnodup (readHint state e) n
    obtain ⟨hstep, hmem⟩ := readHint_eq state e.1 e.2
    rw [List.foldl_cons, htypes, hrequired, hstep, Dict.get?_set, lookup_cons_ite]
    by_cases hn : n = e.1
    · subst hn
      rw [lookup_eq_none_iff_notMem.2 hkey, if_pos rfl, if_pos rfl]
      refine ⟨rfl, ?_⟩
      have hread := hmem e.1
      rw [if_pos rfl] at hread
      rw [Option.bind_none, Option.getD_none, decide_eq_true_iff, Option.bind_some]
      exact hread
    · rw [if_neg hn, if_neg hn]
      have hread := hmem n
      rw [if_neg hn] at hread
      refine ⟨rfl, ?_⟩
      rw [decide_eq_decide.2 hread]

section
variable (chain : List TypedDictClass) (name : String)

/-- What a run of updates leaves is the last's that has it. -/
theorem get?_foldl_update {α : Type} (written : TypedDictClass → Dict String α) :
    (chain.foldl (fun (d : Dict String α) cls => d.update (written cls)) .empty).get? name =
      chain.reverse.findSome? fun cls => (written cls).get? name := by
  induction chain using List.reverseRecOn with
  | nil => rfl
  | append_singleton chain cls ih =>
    rw [List.foldl_append, List.foldl_cons, List.foldl_nil, Dict.get?_update, ih, List.reverse_append,
      List.reverse_singleton, List.singleton_append, List.findSome?_cons]
    cases (written cls).get? name <;> rfl

/-- So it is what the last class that declares a name writes under it. -/
theorem get?_foldl_update_declarer {α : Type} {written : TypedDictClass → Dict String α}
    {f : TypedDictClass × Hint → α}
    (hwritten : ∀ cls, (written cls).get? name = (cls.annotations.get? name).map fun hint => f (cls, hint)) :
    (chain.foldl (fun (d : Dict String α) cls => d.update (written cls)) .empty).get? name =
      (declarer chain name).map f := by
  rw [get?_foldl_update, declarer, List.map_findSome?]
  refine congrArg (chain.reverse.findSome? ·) (funext fun cls => ?_)
  rw [hwritten, Function.comp_apply, Option.map_map]
  rfl

/-- The hints of a class are those of the last class that declares each key. -/
theorem get?_annotationHints :
    (annotationHints chain).get? name = (declarer chain name).map Prod.snd :=
  get?_foldl_update_declarer chain name fun _ => Option.map_id'.symm

/-- The keys made are as the last class that declares each makes it. -/
theorem get?_madeKeys :
    (chain.foldl madeKeys .empty).get? name =
      (declarer chain name).map fun d => requiredAsMade d.1 d.2 := by
  refine get?_foldl_update_declarer chain name fun cls => ?_
  rw [Dict.get?_filterMap]
  cases cls.annotations.get? name <;> rfl

/-- A key is required where that class makes it so. -/
theorem mem_requiredKeys :
    name ∈ requiredKeys chain ↔ ∃ d, declarer chain name = some d ∧ requiredAsMade d.1 d.2 = true := by
  have hmade := get?_madeKeys chain name
  rw [requiredKeys, List.mem_filter, decide_eq_true_iff, hmade]
  constructor
  · rintro ⟨-, h⟩
    exact Option.map_eq_some_iff.1 h
  · intro h
    have hsome := Option.map_eq_some_iff.2 h
    refine ⟨?_, hsome⟩
    rw [hsome] at hmade
    exact Dict.mem_iff_isSome.2 (Option.isSome_of_eq_some hmade)

/-- A key's type is its hint without its own wrapper. -/
theorem get?_fieldTypes :
    (typedDictInput chain).1.get? name = (declarer chain name).map fun d => d.2.inner := by
  have htypes := (foldl_readHint (annotationHints chain).nodup (requiredKeys chain, .empty) name).1
  show ((annotationHints chain).entries.foldl readHint (requiredKeys chain, .empty)).2.get? name = _
  rw [htypes, Dict.get?_empty, Option.or_none]
  show ((annotationHints chain).get? name).map _ = _
  rw [get?_annotationHints, Option.map_map]
  rfl

/-- A key is required by its own wrapper, else as its class was made. -/
theorem mem_required :
    name ∈ (typedDictInput chain).2 ↔
      ∃ d, declarer chain name = some d ∧
        d.2.wrapper.getD (requiredAsMade d.1 d.2) = true := by
  have hrequired := (foldl_readHint (annotationHints chain).nodup (requiredKeys chain, .empty) name).2
  have hmem : name ∈ (typedDictInput chain).1 ↔ (declarer chain name).isSome := by
    rw [Dict.mem_iff_isSome, get?_fieldTypes, Option.isSome_map]
  show name ∈ List.filter _ _ ↔ _
  rw [List.mem_filter, decide_eq_true_iff]
  show _ ∧ name ∈ (typedDictInput chain).1 ↔ _
  rw [hmem, hrequired]
  have hhint : (annotationHints chain).entries.lookup name = (declarer chain name).map Prod.snd :=
    get?_annotationHints chain name
  rw [hhint]
  have hmade := mem_requiredKeys chain name
  cases hdeclarer : declarer chain name with
  | none => simp
  | some d =>
    rw [hdeclarer] at hmade
    have hbool : decide (name ∈ requiredKeys chain) = requiredAsMade d.1 d.2 := by
      rw [Bool.eq_iff_iff, decide_eq_true_iff, hmade]
      simp
    simp [hbool]

end

/-! ## Where the two agree -/

namespace Hint

/-- A bare hint has no qualifier. -/
theorem qualifiers_bare : ∀ hint : Hint, hint.bare.qualifiers = []
  | type _ => rfl
  | annotated hint _ => qualifiers_bare hint
  | required hint => qualifiers_bare hint
  | notRequired hint => qualifiers_bare hint

/-- A hint with none is bare. -/
theorem bare_of_unqualified : ∀ {hint : Hint}, hint.qualifiers = [] → hint.bare = hint
  | type _, _ => rfl
  | annotated hint metadata, h => congrArg (annotated · metadata) (@bare_of_unqualified hint h)

/-- A hint is bare without its own wrapper exactly where nothing under it is a qualifier. -/
theorem inner_eq_bare_iff (hint : Hint) : hint.inner = hint.bare ↔ hint.inner.qualifiers = [] := by
  have hbare : hint.bare = hint.inner.bare := by cases hint <;> rfl
  constructor
  · intro h
    rw [h]
    exact qualifiers_bare hint
  · intro h
    rw [hbare, bare_of_unqualified h]

/-- It has no outermost one. -/
theorem outermost_of_unqualified : ∀ {hint : Hint}, hint.qualifiers = [] → hint.outermost = none
  | type _, _ => rfl
  | annotated hint _, h => @outermost_of_unqualified hint h

end Hint

/-- With nothing under its own wrapper, a hint's key is required by the typing rules where it is read as
required. -/
theorem ruled_eq {cls : TypedDictClass} {hint : Hint} (h : hint.inner.qualifiers = []) :
    hint.wrapper.getD (requiredAsMade cls hint) = ruled (cls, hint) := by
  cases hint with
  | required hint => rfl
  | notRequired hint => rfl
  | type name => simp [Hint.wrapper, requiredAsMade, ruled, Hint.outermost, Hint.qualifiers]
  | annotated hint metadata =>
    have hqualifiers : (Hint.annotated hint metadata).qualifiers = [] := h
    rw [ruled, Hint.outermost_of_unqualified hqualifiers, requiredAsMade, hqualifiers]
    simp [Hint.wrapper]

/-- **A `TypedDict` is read as the type system reads it exactly where no key's hint has a qualifier under
an `Annotated` or under another qualifier.** -/
theorem typedDictInput_iff (chain : List TypedDictClass) :
    ReadAsTyped chain ↔
      ∀ name d, declarer chain name = some d → d.2.inner.qualifiers = [] := by
  constructor
  · rintro ⟨-, htypes⟩ name d hd
    have htype := htypes name
    rw [get?_fieldTypes, hd] at htype
    exact (Hint.inner_eq_bare_iff d.2).1 (Option.some.inj htype)
  · intro h
    refine ⟨fun name => ?_, fun name => ?_⟩
    · rw [mem_required]
      refine exists_congr fun d => and_congr_right fun hd => ?_
      rw [ruled_eq (h name d hd)]
    · rw [get?_fieldTypes]
      cases hd : declarer chain name with
      | none => rfl
      | some d => exact congrArg some ((Hint.inner_eq_bare_iff d.2).2 (h name d hd))

/-- A key whose `NotRequired` stands under `Annotated` in a class that postpones its annotations. -/
def extras : TypedDictClass where
  total := true
  postponed := true
  annotations := .ofList [("limit", .annotated (.notRequired (.type "int")) ["rows to read"])]

/-- It is read as required, though it is not. -/
theorem extras_not_readAsTyped :
    "limit" ∈ (typedDictInput [extras]).2 ∧ ¬ ReadAsTyped [extras] := by
  have hlimit : "limit" ∈ (typedDictInput [extras]).2 := by decide
  refine ⟨hlimit, fun h => ?_⟩
  obtain ⟨d, hd, hruled⟩ := (h.required "limit").1 hlimit
  cases hd
  cases hruled

end RestFrameworkServices.TypedDictInput
