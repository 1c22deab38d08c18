import Mathlib.Data.List.Basic
import Mathlib.Data.List.Perm.Basic

/-!
# Schema markers in an annotation

`read_schema_markers` reads the markers of one layer of an annotation, the outermost `Annotated` or the
one inside a single `Optional`, and refuses a marker anywhere else it walks to. The walk follows what
`get_args` answers (`carriesAMarker`), which for a type alias is its arguments and never the type it
stands for. So a marker is read or refused exactly where none is inside an alias's value, or the
annotation is refused for something else (`markersRead_iff`).
-/

namespace RestFrameworkServices.SchemaMarkers

/-! ## Annotations -/

/-- An entry of an `Annotated`'s metadata: one of the markers, or another library's. -/
inductive Metadata where
  | inputRequired
  | notClientInput
  | inputDescription (text : String)
  | foreign (id : String)
deriving DecidableEq

/-- `_is_marker`. -/
def Metadata.isMarker : Metadata → Bool
  | inputRequired | notClientInput | inputDescription _ => true
  | foreign _ => false

/-- An annotation: `None`'s type, a type with no arguments, `Annotated`, a union of either spelling, a generic
with its arguments (`Required`, `NotRequired` and the containers among them), a `Callable` with its
parameter list, and a type alias with its arguments and the type it stands for. -/
inductive Hint where
  | noneType
  | type (name : String)
  | annotated (underlying : Hint) (metadata : List Metadata)
  | union (members : List Hint)
  | generic (origin : String) (args : List Hint)
  | callable (params : List Hint) (result : Hint)
  | typeAlias (name : String) (args : List Hint) (value : Hint)

namespace Hint

/-- `member is type(None)`. -/
def isNone : Hint → Bool
  | noneType => true
  | _ => false

/-- The members a type brings to a union it is made a member of. -/
def members : Hint → List Hint
  | union members => members
  | hint => [hint]

/-- The members of a union with `None` once, where it first stands. A union's other members are distinct
already. -/
def noneOnce : List Hint → List Hint
  | [] => []
  | member :: members =>
    member :: if member.isNone then members.filter fun member => !member.isNone else noneOnce members

/-- `Union[...]`: unions among the members are taken apart, and one member is itself. -/
def unionOf (hints : List Hint) : Hint :=
  match noneOnce (hints.flatMap members) with
  | [member] => member
  | members => union members

/-- `X | None`. -/
def orNone (hint : Hint) : Hint := unionOf [hint, noneType]

/-- `Annotated[X, ...]`, which adds to the metadata of an `X` that is `Annotated` itself. -/
def annotate (metadata : List Metadata) : Hint → Hint
  | annotated underlying inner => annotated underlying (inner ++ metadata)
  | hint => annotated hint metadata

end Hint

open Hint

mutual

/-- `_carries_a_marker`. -/
def carriesAMarker : Hint → Bool
  | .noneType | .type _ => false
  | .annotated underlying metadata => metadata.any (·.isMarker) || carriesAMarker underlying
  | .union members => anyCarriesAMarker members
  | .generic _ args => anyCarriesAMarker args
  | .callable params result => anyCarriesAMarker params || carriesAMarker result
  -- `get_args` of an alias: the type it stands for is none of them
  | .typeAlias _ args _ => anyCarriesAMarker args

/-- The loop over the arguments. -/
def anyCarriesAMarker : List Hint → Bool
  | [] => false
  | arg :: args => carriesAMarker arg || anyCarriesAMarker args

end

section
variable (reprHint : Hint → String)

/-- The refusal of `_refuse_misplaced_markers`. -/
def misplaced (whole : Hint) : String :=
  reprHint whole ++ ": a schema marker (InputRequired, NotClientInput or " ++
    "InputDescription) is read only on the outermost layer of an input's " ++
    "annotation, or inside one Optional around it. This one sits deeper, where " ++
    "it would describe part of the type rather than the input. Put it on the " ++
    "outermost layer: Annotated[X, Marker], or Annotated[X | None, Marker] for " ++
    "an input that may be null."

/-- `_refuse_misplaced_markers`, of what remains of an annotation, before it is answered. -/
def refuseMisplacedMarkers {α : Type} (hint whole : Hint) (answer : α) :
    Except String α :=
  if carriesAMarker hint then .error (misplaced reprHint whole) else .ok answer

/-- A union's members with the type of the `Annotated` among them in its place. -/
def rebuilt (inner : Hint) (members : List Hint) : Hint :=
  unionOf (members.map fun
    | .annotated _ _ => inner
    | member => member)

/-- `_marker_layer`. -/
def markerLayer (hint : Hint) : Except String (Hint × List Metadata) :=
  match hint with
  | .annotated underlying metadata =>
    refuseMisplacedMarkers reprHint underlying hint (underlying, metadata)
  | .union members =>
    match members.filter fun member => !member.isNone with
    | [.annotated inner metadata] =>
      refuseMisplacedMarkers reprHint inner hint (rebuilt inner members, metadata)
    | _ => refuseMisplacedMarkers reprHint hint hint (hint, [])
  | _ => refuseMisplacedMarkers reprHint hint hint (hint, [])

/-- An input both required and hidden. -/
def contradictory (hint : Hint) : String :=
  reprHint hint ++ ": an input cannot be both InputRequired and NotClientInput " ++
    "— the caller cannot be required to supply a value it is never told about."

/-- `read_schema_markers`: the type, and whether the input is required and hidden. -/
def readSchemaMarkers (hint : Hint) : Except String (Hint × Bool × Bool) :=
  match markerLayer reprHint hint with
  | .error message => .error message
  | .ok (underlying, metadata) =>
    let required := decide (.inputRequired ∈ metadata)
    let hidden := decide (.notClientInput ∈ metadata)
    if required && hidden then .error (contradictory reprHint hint)
    else .ok (underlying, required, hidden)

/-- `_layer_metadata`; a union has a member that is not `None`, without one the code raises
`StopIteration`. -/
def layerMetadata : Hint → Except String (List Metadata)
  | .annotated _ metadata => .ok metadata
  | .union members =>
    match members.find? fun member => !member.isNone with
    | some (.annotated _ metadata) => .ok metadata
    | some _ => .ok []
    | .none => .error "StopIteration"
  | _ => .ok []

/-- The texts of the descriptions among a layer's metadata. -/
def descriptions (metadata : List Metadata) : List String :=
  metadata.filterMap fun
    | .inputDescription text => some text
    | _ => none

/-- `read_input_description`. -/
def readInputDescription (hint : Hint) : Except String (Option String) :=
  match readSchemaMarkers reprHint hint with
  | .error message => .error message
  | .ok (_, _, hidden) =>
    match layerMetadata hint with
    | .error message => .error message
    | .ok metadata =>
      match descriptions metadata with
      | [] => .ok .none
      | [text] =>
        if hidden then
          .error (reprHint hint ++ ": an input cannot be both described and " ++
            "NotClientInput — the key is dropped from the schema, so the description has no " ++
            "caller to reach. Drop the description, or drop NotClientInput if the caller should " ++
            "see the key.")
        else .ok (some text)
      | declared =>
        .error (reprHint hint ++ ": " ++ toString declared.length ++
          " InputDescription markers on one input. A schema publishes one description, so keep " ++
          "the sentence that says what the input is for and drop the rest.")

end

/-! ## The markers of a tree -/

mutual

/-- Every marker of a tree. -/
def markers : Hint → List Metadata
  | .noneType | .type _ => []
  | .annotated underlying metadata => metadata.filter (·.isMarker) ++ markers underlying
  | .union members => allMarkers members
  | .generic _ args => allMarkers args
  | .callable params result => allMarkers params ++ markers result
  | .typeAlias _ args value => allMarkers args ++ markers value

/-- Every marker of several. -/
def allMarkers : List Hint → List Metadata
  | [] => []
  | arg :: args => markers arg ++ allMarkers args

end

mutual

/-- The markers of a tree that are inside the value of an alias. -/
def aliased : Hint → List Metadata
  | .noneType | .type _ => []
  | .annotated underlying _ => aliased underlying
  | .union members => allAliased members
  | .generic _ args => allAliased args
  | .callable params result => allAliased params ++ aliased result
  | .typeAlias _ args value => allAliased args ++ markers value

/-- Those of several. -/
def allAliased : List Hint → List Metadata
  | [] => []
  | arg :: args => aliased arg ++ allAliased args

end

mutual

/-- What the walk finds no marker in has markers inside the values of aliases alone. -/
theorem markers_eq_aliased : ∀ {hint : Hint}, carriesAMarker hint = false →
    markers hint = aliased hint
  | .noneType, _ => rfl
  | .type _, _ => rfl
  | .annotated underlying metadata, h => by
    rw [carriesAMarker, Bool.or_eq_false_iff, List.any_eq_false] at h
    rw [markers, aliased, List.filter_eq_nil_iff.2 h.1, List.nil_append, markers_eq_aliased h.2]
  | .union members, h => by
    rw [carriesAMarker] at h
    rw [markers, aliased, allMarkers_eq_allAliased h]
  | .generic _ args, h => by
    rw [carriesAMarker] at h
    rw [markers, aliased, allMarkers_eq_allAliased h]
  | .callable params result, h => by
    rw [carriesAMarker, Bool.or_eq_false_iff] at h
    rw [markers, aliased, allMarkers_eq_allAliased h.1, markers_eq_aliased h.2]
  | .typeAlias _ args value, h => by
    rw [carriesAMarker] at h
    rw [markers, aliased, allMarkers_eq_allAliased h]

/-- Where no argument carries a marker, every marker in them is inside an alias. -/
theorem allMarkers_eq_allAliased : ∀ {args : List Hint}, anyCarriesAMarker args = false →
    allMarkers args = allAliased args
  | [], _ => rfl
  | arg :: args, h => by
    rw [anyCarriesAMarker, Bool.or_eq_false_iff] at h
    rw [allMarkers, allAliased, markers_eq_aliased h.1, allMarkers_eq_allAliased h.2]

end

/-! ## The layer that is read -/

/-- The layer markers are read from, with what is under it: the outermost `Annotated`, or the only member
of a union beside `None` where that is one. -/
def layerOf : Hint → Hint × List Metadata
  | .annotated underlying metadata => (underlying, metadata)
  | .union members =>
    match members.filter fun member => !member.isNone with
    | [.annotated inner metadata] => (inner, metadata)
    | _ => (.union members, [])
  | hint => (hint, [])

/-- The markers of several are those of each. -/
theorem allMarkers_eq : ∀ args : List Hint, allMarkers args = args.flatMap markers
  | [] => rfl
  | arg :: args => by rw [allMarkers, allMarkers_eq args, List.flatMap_cons]

/-- So are those inside aliases. -/
theorem allAliased_eq : ∀ args : List Hint, allAliased args = args.flatMap aliased
  | [] => rfl
  | arg :: args => by rw [allAliased, allAliased_eq args, List.flatMap_cons]

/-- `None` adds nothing to what a union's members hold. -/
theorem flatMap_filter_isNone {f : Hint → List Metadata} (hnone : f .noneType = []) (members : List Hint) :
    (members.filter fun member => !member.isNone).flatMap f = members.flatMap f := by
  induction members with
  | nil => rfl
  | cons member members ih =>
    rw [List.filter_cons]
    split
    · rw [List.flatMap_cons, List.flatMap_cons, ih]
    · next hmember =>
      cases member with
      | noneType => rw [List.flatMap_cons, hnone, List.nil_append, ih]
      | _ => exact absurd rfl hmember

/-- An annotation's markers are the layer's and those under it. -/
theorem markers_layerOf (hint : Hint) :
    markers hint =
      (layerOf hint).2.filter (·.isMarker) ++ markers (layerOf hint).1 := by
  rw [layerOf.eq_def]
  split
  · rw [markers]
  · next members =>
    split
    · next inner metadata honly =>
      rw [markers, allMarkers_eq, ← flatMap_filter_isNone (by rw [markers]), honly, List.flatMap_singleton,
        markers]
    · rfl
  · rfl

/-- Its aliases' values are under the layer. -/
theorem aliased_layerOf (hint : Hint) :
    aliased hint = aliased (layerOf hint).1 := by
  rw [layerOf.eq_def]
  split
  · rw [aliased]
  · next members =>
    split
    · next inner metadata honly =>
      rw [aliased, allAliased_eq, ← flatMap_filter_isNone (by rw [aliased]), honly, List.flatMap_singleton,
        aliased]
    · rfl
  · rfl

/-- A layer's markers contradict each other. -/
def Contradictory (metadata : List Metadata) : Prop :=
  .inputRequired ∈ metadata ∧ .notClientInput ∈ metadata

section
variable (reprHint : Hint → String)

/-- The code locates the layer, and refuses a marker it finds under it. -/
theorem markerLayer_eq (hint : Hint) :
    (carriesAMarker (layerOf hint).1 = true ∧
      markerLayer reprHint hint = .error (misplaced reprHint hint)) ∨
    (carriesAMarker (layerOf hint).1 = false ∧
      ∃ type, markerLayer reprHint hint = .ok (type, (layerOf hint).2)) := by
  have hrefuse : ∀ {rest whole answer : Hint} {metadata : List Metadata},
      (carriesAMarker rest = true ∧ refuseMisplacedMarkers reprHint rest whole
        (answer, metadata) = .error (misplaced reprHint whole)) ∨
      (carriesAMarker rest = false ∧ ∃ type, refuseMisplacedMarkers reprHint rest whole
        (answer, metadata) = .ok (type, metadata)) := by
    intro rest whole answer metadata
    rw [refuseMisplacedMarkers]
    cases carriesAMarker rest with
    | true => exact .inl ⟨rfl, rfl⟩
    | false => exact .inr ⟨rfl, answer, rfl⟩
  rw [markerLayer.eq_def, layerOf.eq_def]
  split
  · exact hrefuse
  · split <;> exact hrefuse
  · exact hrefuse

/-- What reading answers: a refusal of a misplaced marker or of a contradiction, or the layer's. -/
theorem readSchemaMarkers_cases (hint : Hint) :
    (carriesAMarker (layerOf hint).1 = true ∧ ∃ message,
      readSchemaMarkers reprHint hint = .error message) ∨
    (Contradictory (layerOf hint).2 ∧ ∃ message,
      readSchemaMarkers reprHint hint = .error message) ∨
    (carriesAMarker (layerOf hint).1 = false ∧ ¬ Contradictory (layerOf hint).2 ∧
      ∃ type, readSchemaMarkers reprHint hint =
        .ok (type, decide (.inputRequired ∈ (layerOf hint).2),
          decide (.notClientInput ∈ (layerOf hint).2))) := by
  rw [readSchemaMarkers]
  rcases markerLayer_eq reprHint hint with ⟨hcarries, herror⟩ | ⟨hnone, type, hok⟩
  · rw [herror]
    exact .inl ⟨hcarries, _, rfl⟩
  · rw [hok]
    by_cases hcontra : Contradictory (layerOf hint).2
    · refine .inr (.inl ⟨hcontra, contradictory reprHint hint, ?_⟩)
      simp only [decide_eq_true hcontra.1, decide_eq_true hcontra.2, Bool.and_self, if_true]
    · refine .inr (.inr ⟨hnone, hcontra, type, ?_⟩)
      have hfalse : (decide (.inputRequired ∈ (layerOf hint).2) &&
          decide (.notClientInput ∈ (layerOf hint).2)) = false := by
        rw [Bool.and_eq_false_iff, decide_eq_false_iff_not, decide_eq_false_iff_not]
        exact Classical.not_and_iff_not_or_not.1 hcontra
      simp only [hfalse, Bool.false_eq_true, if_false]

/-! ## What is read -/

/-- Every marker of an annotation is one of the layer's, which are those read, unless reading it raises. -/
def MarkersRead (hint : Hint) : Prop :=
  ∀ type required hidden, readSchemaMarkers reprHint hint = .ok (type, required, hidden) →
    markers hint = (layerOf hint).2.filter (·.isMarker) ∧
    (required = true ↔ .inputRequired ∈ markers hint) ∧
    (hidden = true ↔ .notClientInput ∈ markers hint)

/-- The markers are read exactly where none is inside an alias, unless reading raises. -/
theorem markersRead_iff_aliased (hint : Hint) :
    MarkersRead reprHint hint ↔
      aliased hint = [] ∨ carriesAMarker (layerOf hint).1 = true ∨
        Contradictory (layerOf hint).2 := by
  rcases readSchemaMarkers_cases reprHint hint with
    ⟨hcarries, message, herror⟩ | ⟨hcontra, message, herror⟩ | ⟨hnone, hfree, type, hok⟩
  · refine ⟨fun _ => .inr (.inl hcarries), fun _ _ _ _ hok => ?_⟩
    rw [herror] at hok
    cases hok
  · refine ⟨fun _ => .inr (.inr hcontra), fun _ _ _ _ hok => ?_⟩
    rw [herror] at hok
    cases hok
  have hunder : markers (layerOf hint).1 = aliased hint :=
    (markers_eq_aliased hnone).trans (aliased_layerOf hint).symm
  constructor
  · intro h
    have hall := (h _ _ _ hok).1
    rw [markers_layerOf, hunder] at hall
    exact .inl (List.append_right_eq_self.1 hall)
  · rintro (haliased | hcarries | hcontra) type' required hidden hok'
    · have hall : markers hint = (layerOf hint).2.filter (·.isMarker) := by
        rw [markers_layerOf, hunder, haliased, List.append_nil]
      rw [hok] at hok'
      cases hok'
      refine ⟨hall, ?_, ?_⟩ <;> rw [hall, List.mem_filter, decide_eq_true_iff] <;>
        exact ⟨fun h => ⟨h, rfl⟩, And.left⟩
    · rw [hnone] at hcarries
      cases hcarries
    · exact absurd hcontra hfree

/-- The markers read of an annotation, where reading it does not raise. -/
def readMarkers (hint : Hint) : Option (Bool × Bool × List Metadata) :=
  match readSchemaMarkers reprHint hint with
  | .ok (_, required, hidden) =>
    some (required, hidden, (layerOf hint).2.filter (·.isMarker))
  | .error _ => .none

/-- They are read off the layer's markers. -/
theorem readMarkers_of_layer {hint rest : Hint} {metadata : List Metadata}
    (h : layerOf hint = (rest, metadata)) :
    ((carriesAMarker rest = true ∨ Contradictory (metadata.filter (·.isMarker))) ∧
      readMarkers reprHint hint = .none) ∨
    (¬ (carriesAMarker rest = true ∨ Contradictory (metadata.filter (·.isMarker))) ∧
      readMarkers reprHint hint =
        some (decide (.inputRequired ∈ metadata.filter (·.isMarker)),
          decide (.notClientInput ∈ metadata.filter (·.isMarker)),
          metadata.filter (·.isMarker))) := by
  have hrequired : Metadata.inputRequired ∈ metadata.filter (·.isMarker) ↔
      .inputRequired ∈ metadata := by
    rw [List.mem_filter]
    exact ⟨And.left, fun h => ⟨h, rfl⟩⟩
  have hhidden : Metadata.notClientInput ∈ metadata.filter (·.isMarker) ↔
      .notClientInput ∈ metadata := by
    rw [List.mem_filter]
    exact ⟨And.left, fun h => ⟨h, rfl⟩⟩
  have hcases := readSchemaMarkers_cases reprHint hint
  rw [h] at hcases
  simp only [Contradictory, hrequired, hhidden]
  rw [readMarkers, h]
  rcases hcases with ⟨hcarries, message, herror⟩ | ⟨hcontra, message, herror⟩ |
    ⟨hnone, hfree, type, hok⟩
  · rw [herror]
    exact .inl ⟨.inl hcarries, rfl⟩
  · rw [herror]
    exact .inl ⟨.inr hcontra, rfl⟩
  · rw [hok]
    refine .inr ⟨?_, rfl⟩
    rintro (hcarries | hcontra)
    · rw [hnone] at hcarries
      cases hcarries
    · exact hfree hcontra

/-! ### The two spellings of an optional -/

section
variable {reprHint}

/-- Keeping `None` once changes nothing of whether a member carries a marker. -/
theorem anyCarriesAMarker_noneOnce : ∀ members : List Hint,
    anyCarriesAMarker (noneOnce members) = anyCarriesAMarker members
  | [] => rfl
  | member :: members => by
    have hfilter : anyCarriesAMarker (members.filter fun member => !member.isNone) =
        anyCarriesAMarker members := by
      induction members with
      | nil => rfl
      | cons member members ih =>
        rw [List.filter_cons]
        split
        · rw [anyCarriesAMarker, anyCarriesAMarker, ih]
        · next hnone =>
          cases member with
          | noneType => rw [anyCarriesAMarker, carriesAMarker, Bool.false_or, ih]
          | _ => exact absurd rfl hnone
    rw [noneOnce, anyCarriesAMarker, anyCarriesAMarker]
    split
    · rw [hfilter]
    · rw [anyCarriesAMarker_noneOnce members]

/-- A marker is carried by one of two lists. -/
theorem anyCarriesAMarker_append : ∀ members members' : List Hint,
    anyCarriesAMarker (members ++ members') =
      (anyCarriesAMarker members || anyCarriesAMarker members')
  | [], _ => rfl
  | member :: members, members' => by
    rw [List.cons_append, anyCarriesAMarker, anyCarriesAMarker, anyCarriesAMarker_append members,
      Bool.or_assoc]

/-- `X | None` carries the markers `X` does. -/
theorem carriesAMarker_orNone (hint : Hint) :
    carriesAMarker hint.orNone = carriesAMarker hint := by
  have hmembers : anyCarriesAMarker hint.members = carriesAMarker hint := by
    cases hint <;>
      simp only [members, anyCarriesAMarker, carriesAMarker, Bool.or_false]
  have hall : anyCarriesAMarker (noneOnce ([hint, noneType].flatMap members)) =
      carriesAMarker hint := by
    rw [anyCarriesAMarker_noneOnce, List.flatMap_cons, anyCarriesAMarker_append, hmembers]
    exact Bool.or_false _
  rw [← hall, orNone, unionOf]
  split
  · next member honly =>
    rw [honly, anyCarriesAMarker, anyCarriesAMarker, Bool.or_false]
  · rw [carriesAMarker]

/-- `None` is kept. -/
theorem noneType_mem_noneOnce : ∀ {members : List Hint}, noneType ∈ members →
    noneType ∈ noneOnce members
  | [], h => h
  | member :: members, h => by
    rw [noneOnce]
    rcases List.mem_cons.1 h with rfl | h
    · exact List.mem_cons_self
    split
    · next hnone =>
      cases member with
      | noneType => exact List.mem_cons_self
      | _ => cases hnone
    · exact List.mem_cons_of_mem _ (noneType_mem_noneOnce h)

/-- `X | None` is never `Annotated`, so `Annotated[X | None, ...]` has its metadata alone. -/
theorem annotate_orNone (metadata : List Metadata) (hint : Hint) :
    annotate metadata hint.orNone = .annotated hint.orNone metadata := by
  have hnone : noneType ∈ noneOnce ([hint, noneType].flatMap members) :=
    noneType_mem_noneOnce (List.mem_flatMap.2 ⟨noneType, by simp, List.mem_singleton_self _⟩)
  rw [orNone, unionOf]
  split
  · next member honly =>
    rw [honly] at hnone
    obtain rfl := List.mem_singleton.1 hnone
    rfl
  · rfl

/-- A type's own `Annotated` layer, and what is under it. -/
def ownLayer : Hint → Hint × List Metadata
  | .annotated underlying metadata => (underlying, metadata)
  | hint => (hint, [])

/-- Metadata is added after an annotation's own. -/
theorem annotate_eq (metadata : List Metadata) (hint : Hint) :
    annotate metadata hint =
      .annotated (ownLayer hint).1 ((ownLayer hint).2 ++ metadata) := by
  cases hint <;> rfl

/-- A marker is of the own layer, or under it. -/
theorem carriesAMarker_ownLayer (hint : Hint) :
    carriesAMarker hint =
      ((ownLayer hint).2.any (·.isMarker) || carriesAMarker (ownLayer hint).1) := by
  cases hint with
  | annotated underlying metadata => rw [carriesAMarker, ownLayer]
  | _ => exact (Bool.false_or _).symm

end

/-- The two spellings are read alike exactly where the type has no marker of its own, or the second is
refused too. -/
theorem readMarkers_orNone_iff (hint : Hint) (metadata : List Metadata) :
    readMarkers reprHint (annotate metadata hint.orNone) =
        readMarkers reprHint (annotate metadata hint).orNone ↔
      (ownLayer hint).2.filter (·.isMarker) = [] ∨
        carriesAMarker (ownLayer hint).1 = true ∨
        Contradictory (((ownLayer hint).2 ++ metadata).filter (·.isMarker)) := by
  have hfirst : layerOf (annotate metadata hint.orNone) = (hint.orNone, metadata) := by
    rw [annotate_orNone, layerOf]
  have hsecond : layerOf (annotate metadata hint).orNone =
      ((ownLayer hint).1, (ownLayer hint).2 ++ metadata) := by
    rw [annotate_eq]
    rfl
  have hcarries := carriesAMarker_ownLayer hint
  have hone := readMarkers_of_layer reprHint hfirst
  have htwo := readMarkers_of_layer reprHint hsecond
  rw [carriesAMarker_orNone, hcarries] at hone
  rw [List.filter_append] at htwo ⊢
  by_cases hown : (ownLayer hint).2.filter (·.isMarker) = []
  · have hany : (ownLayer hint).2.any (·.isMarker) = false :=
      List.any_eq_false.2 (List.filter_eq_nil_iff.1 hown)
    rw [hany, Bool.false_or] at hone
    rw [hown, List.nil_append] at htwo
    refine ⟨fun _ => .inl hown, fun _ => ?_⟩
    rcases hone with ⟨hrefused, hone⟩ | ⟨hread, hone⟩ <;>
      rcases htwo with ⟨hrefused', htwo⟩ | ⟨hread', htwo⟩
    · rw [hone, htwo]
    · exact absurd hrefused hread'
    · exact absurd hrefused' hread
    · rw [hone, htwo]
  · have hany : (ownLayer hint).2.any (·.isMarker) = true := by
      rw [← Bool.not_eq_false, List.any_eq_false]
      exact fun h => hown (List.filter_eq_nil_iff.2 h)
    rw [hany, Bool.true_or] at hone
    have hnone : readMarkers reprHint (annotate metadata hint.orNone) = .none := by
      rcases hone with ⟨-, hone⟩ | ⟨hread, -⟩
      · exact hone
      · exact absurd (.inl rfl) hread
    rw [hnone]
    rcases htwo with ⟨hrefused, htwo⟩ | ⟨hread, htwo⟩
    · exact ⟨fun _ => .inr hrefused, fun _ => htwo.symm⟩
    · rw [htwo]
      refine ⟨fun h => (by cases h), ?_⟩
      rintro (h | h)
      · exact absurd h hown
      · exact absurd h hread

/-! ### The description -/

/-- No marker, no description. -/
theorem descriptions_eq_nil {metadata : List Metadata} (h : metadata.any (·.isMarker) = false) :
    descriptions metadata = [] := by
  refine List.filterMap_eq_nil_iff.2 fun entry hentry => ?_
  have hforeign := List.any_eq_false.1 h entry hentry
  cases entry with
  | inputDescription text => exact absurd rfl hforeign
  | _ => rfl

/-- A member that carries no marker has none in its layer. -/
theorem any_isMarker_of_mem : ∀ {members : List Hint} {underlying : Hint}
    {metadata : List Metadata}, anyCarriesAMarker members = false →
    .annotated underlying metadata ∈ members → metadata.any (·.isMarker) = false
  | member :: members, underlying, metadata, h, hmem => by
    rw [anyCarriesAMarker, Bool.or_eq_false_iff] at h
    rcases List.mem_cons.1 hmem with rfl | hmem
    · rw [carriesAMarker, Bool.or_eq_false_iff] at h
      exact h.1.1
    · exact any_isMarker_of_mem h.2 hmem

/-- Where no marker is under the layer, the descriptions that are found are the layer's. -/
theorem descriptions_layerMetadata {hint : Hint} {metadata : List Metadata}
    (hnone : carriesAMarker (layerOf hint).1 = false)
    (h : layerMetadata hint = .ok metadata) :
    descriptions metadata = descriptions (layerOf hint).2 := by
  cases hint with
  | annotated underlying metadata' =>
    cases h
    rfl
  | union members =>
    rw [layerMetadata] at h
    rw [layerOf] at hnone ⊢
    rw [← List.head?_filter] at h
    split at h
    · next underlying found hfound =>
      cases h
      split at hnone
      · next inner metadata' honly =>
        rw [honly] at hfound
        cases hfound
        rfl
      · -- the first member read is no layer, so it carries no marker
        rw [carriesAMarker] at hnone
        have hmem := List.mem_of_mem_filter (List.mem_of_mem_head? hfound)
        exact descriptions_eq_nil (any_isMarker_of_mem hnone hmem)
    · next member hnot hfound =>
      cases h
      split
      · next inner metadata' honly =>
        rw [honly] at hfound
        cases hfound
        exact absurd rfl (hnot inner metadata')
      · rfl
    · cases h
  | _ =>
    cases h
    rfl

/-- A description is read from the layer the markers are. -/
theorem readInputDescription_ok {hint : Hint} {description : Option String}
    (h : readInputDescription reprHint hint = .ok description) :
    ∃ type required hidden,
      readSchemaMarkers reprHint hint = .ok (type, required, hidden) ∧
      descriptions (layerOf hint).2 = description.toList ∧
      (description.isSome → hidden = false) := by
  rw [readInputDescription] at h
  rcases readSchemaMarkers_cases reprHint hint with
    ⟨-, message, herror⟩ | ⟨-, message, herror⟩ | ⟨hnone, -, type, hok⟩
  · rw [herror] at h
    cases h
  · rw [herror] at h
    cases h
  refine ⟨type, _, _, hok, ?_⟩
  simp only [hok] at h
  cases hlayer : layerMetadata hint with
  | error message =>
    rw [hlayer] at h
    cases h
  | ok metadata =>
    rw [hlayer] at h
    rw [← descriptions_layerMetadata hnone hlayer]
    dsimp only at h
    split at h
    · next hdescriptions =>
      cases h
      exact ⟨hdescriptions, fun h => by cases h⟩
    · next text hdescriptions =>
      split at h
      · cases h
      · next hshown =>
        cases h
        exact ⟨hdescriptions, fun _ => Bool.eq_false_iff.2 hshown⟩
    · cases h

/-- **A marker is read or refused exactly where none is inside an alias's value, or the annotation is
refused for another; the two spellings of an optional are read alike unless the type has a marker of its
own; and a description is read from the layer the markers are.** -/
theorem markersRead_iff :
    (∀ hint, MarkersRead reprHint hint ↔
      aliased hint = [] ∨ carriesAMarker (layerOf hint).1 = true ∨
        Contradictory (layerOf hint).2) ∧
    (∀ hint metadata,
      readMarkers reprHint (annotate metadata hint.orNone) =
          readMarkers reprHint (annotate metadata hint).orNone ↔
        (ownLayer hint).2.filter (·.isMarker) = [] ∨
          carriesAMarker (ownLayer hint).1 = true ∨
          Contradictory (((ownLayer hint).2 ++ metadata).filter (·.isMarker))) ∧
    ∀ hint description, readInputDescription reprHint hint = .ok description →
      ∃ type required hidden,
        readSchemaMarkers reprHint hint = .ok (type, required, hidden) ∧
        descriptions (layerOf hint).2 = description.toList ∧
        (description.isSome → hidden = false) :=
  ⟨markersRead_iff_aliased reprHint, readMarkers_orNone_iff reprHint,
    fun _ _ => readInputDescription_ok reprHint⟩

end

/-- `type Token = Annotated[str, NotClientInput]`: a parameter of it is the client's. -/
theorem not_markersRead_token :
    ¬ MarkersRead (fun _ => "Token")
      (.typeAlias "Token" [] (.annotated (.type "str") [.notClientInput])) := by
  intro h
  obtain ⟨hall, -⟩ := h (.typeAlias "Token" [] (.annotated (.type "str") [.notClientInput])) false
    false rfl
  cases hall

end RestFrameworkServices.SchemaMarkers
