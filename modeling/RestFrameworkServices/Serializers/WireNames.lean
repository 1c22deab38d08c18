import RestFrameworkServices.Serializers.Graph
import RestFrameworkServices.Dispatch.Detail

/-!
# The names an input serializer gives its sources

`_wire_names` reads the `{source: (wire_name, nested)}` map of an input serializer off its writable
fields and recurses into every one of them it keeps: a nested serializer, or the child of whatever
has one. It carries no path, so nothing bounds it: `wireWalk_ends_iff_no_chain` says it ends exactly
where no endless chain of such serializers starts.
-/

namespace RestFrameworkServices

open Lib

universe u v

variable {C : Type u} {S : Type v}

/-- The serializer `_wire_names` of a field reads the fields of: the field's own, or its child's. -/
def Shape.wired (shape : Shape S) : Option S := (shape.child.getD shape).serializer

/-- `_wire_names` skips the field whatever the names before it. -/
def DeclaredField.unnamed (f : DeclaredField S) : Bool :=
  f.readOnly || f.source.toList.contains '.' || f.source == "*"

/-- The fields `_wire_names` keeps, past those whose sources are `names` already. -/
def keptFields (names : List String) :
    List (String × DeclaredField S) → List (String × DeclaredField S)
  | [] => []
  | e :: es =>
    if e.2.unnamed || names.contains e.2.source then keptFields names es
    else e :: keptFields (e.2.source :: names) es

/-- `_wire_names(field) or None`, over what names further serializers. -/
def nestedNames (describe : S → Option WireNames) (shape : Shape S) : Option (Option WireNames) :=
  match shape.wired with
  | none => some none
  | some s => (describe s).map fun names => if names.truthy then some names else none

namespace Declarations

variable (G : Declarations C S)

/-- The fields `_wire_names` of a serializer keeps. -/
def wireFields (s : S) : List (String × DeclaredField S) := keptFields [] (G.fields s).entries

/-- `_wire_names` of a serializer reads the fields of another in turn. -/
def WireNests (t s : S) : Prop := ∃ e ∈ G.wireFields s, e.2.shape.wired = some t

/-- `_wire_names`, over what names further serializers. -/
def wireStep (describe : S → Option WireNames) (s : S) : Option WireNames :=
  ((G.wireFields s).mapM fun e =>
    (nestedNames describe e.2.shape).map fun nested => (e.2.source, e.1, nested)).map .mk

/-- Names are nested where the serializer wired is described. -/
theorem isSome_nestedNames {describe : S → Option WireNames} {shape : Shape S} :
    (nestedNames describe shape).isSome ↔ ∀ t, shape.wired = some t → (describe t).isSome := by
  unfold nestedNames
  cases shape.wired <;> simp

/-- What more is described leaves nested names as they are. -/
theorem nestedNames_mono {f g : S → Option WireNames} (h : Extends f g) {shape : Shape S}
    {x : Option WireNames} (hx : nestedNames f shape = some x) : nestedNames g shape = some x := by
  unfold nestedNames at hx ⊢
  split at hx
  · exact hx
  · next t _ =>
    obtain ⟨names, hnames, rfl⟩ := Option.map_eq_some_iff.1 hx
    rw [h t names hnames]
    rfl

/-- `_wire_names`, as a walk over serializers. -/
def wireWalk : Walk S WireNames where
  step := G.wireStep
  demand _ s := (G.wireFields s).filterMap fun e : String × DeclaredField S => e.2.shape.wired
  isSome_step f s := by
    simp only [wireStep, Option.isSome_map, isSome_mapM, isSome_nestedNames, List.mem_filterMap]
    constructor
    · rintro hall t ⟨e, he, ht⟩
      exact hall e he t ht
    · intro hall e he t ht
      exact hall t ⟨e, he, ht⟩
  step_mono {f g s x} hfg hx := by
    unfold wireStep at hx ⊢
    obtain ⟨entries, hentries, rfl⟩ := Option.map_eq_some_iff.1 hx
    rw [mapM_mono (fun e _ y hy => ?_) hentries]
    · rfl
    · obtain ⟨nested, hnested, rfl⟩ := Option.map_eq_some_iff.1 hy
      rw [nestedNames_mono hfg hnested]
      rfl
  demand_mono _ := fun _ h => h
  demand_stable _ _ := fun _ h => h

/-- `_wire_names`, with fuel. -/
def wireNames (n : ℕ) (s : S) : Option WireNames := G.wireWalk.run n s

/-- The walk enters the serializers a kept field nests. -/
theorem wireWalk_enters {t s : S} : G.wireWalk.Enters t s ↔ G.WireNests t s := by
  simp [Walk.Enters, wireWalk, WireNests, List.mem_filterMap]

/-- **`_wire_names` ends exactly where no endless chain of serializers starts, each read off a field
it keeps of the one before.** -/
theorem wireWalk_ends_iff_no_chain {s : S} :
    G.wireWalk.Ends s ↔ ¬ ∃ f : ℕ → S, f 0 = s ∧ ∀ n, G.WireNests (f (n + 1)) (f n) := by
  simp only [Walk.ends_iff_no_chain, wireWalk_enters]

end Declarations

/-! ## The top level of the map -/

/-- A `{source: wire_name}` map: two fields have two wire names. -/
structure Wire where
  map : Dict String String
  injective : ∀ {s t a : String}, map.get? s = some a → map.get? t = some a → s = t

/-- The map of no serializer. -/
def Wire.empty : Wire := ⟨.empty, fun h => nomatch h⟩

/-- The fields kept stand in their order. -/
theorem keptFields_sublist : ∀ {names : List String} {es : List (String × DeclaredField S)},
    (keptFields names es).Sublist es
  | _, [] => .slnil
  | names, e :: es => by
    unfold keptFields
    split
    · exact keptFields_sublist.cons e
    · exact keptFields_sublist.cons_cons e

/-- None has a source that is a name already. -/
theorem source_notMem_of_mem_keptFields : ∀ {names : List String}
    {es : List (String × DeclaredField S)}, ∀ e ∈ keptFields names es, e.2.source ∉ names
  | _, [], _, he => nomatch he
  | names, f :: es, e, he => by
    unfold keptFields at he
    split at he
    · exact source_notMem_of_mem_keptFields e he
    · next hf =>
      rcases List.mem_cons.1 he with rfl | he
      · simp only [Bool.or_eq_true, not_or, List.contains_iff_mem] at hf
        exact hf.2
      · exact fun hmem => source_notMem_of_mem_keptFields e he (List.mem_cons_of_mem _ hmem)

/-- No two have one source. -/
theorem nodup_source_keptFields : ∀ {names : List String} {es : List (String × DeclaredField S)},
    ((keptFields names es).map (·.2.source)).Nodup
  | _, [] => .nil
  | names, e :: es => by
    unfold keptFields
    split
    · exact nodup_source_keptFields
    · rw [List.map_cons, List.nodup_cons]
      refine ⟨fun hmem => ?_, nodup_source_keptFields⟩
      obtain ⟨f, hf, hsource⟩ := List.mem_map.1 hmem
      exact source_notMem_of_mem_keptFields f hf (by rw [hsource]; exact List.mem_cons_self)

namespace Declarations

variable (G : Declarations C S)

/-- `_source_to_wire` of a serializer's fields. -/
def sourceToWire (s : S) : Wire where
  map := {
    entries := (G.wireFields s).map fun e => (e.2.source, e.1)
    nodup := by
      have h : ((G.wireFields s).map (·.2.source)).Nodup := nodup_source_keptFields
      simpa [keysOf, Function.comp_def] using h }
  injective {s' t a} hs ht := by
    obtain ⟨e, he, heq⟩ := List.mem_map.1 (Dict.get?_eq_some.1 hs)
    obtain ⟨f, hf, hfeq⟩ := List.mem_map.1 (Dict.get?_eq_some.1 ht)
    obtain ⟨rfl, rfl⟩ := Prod.mk.inj heq
    obtain ⟨rfl, hname⟩ := Prod.mk.inj hfeq
    have hsub : (G.wireFields s).Sublist (G.fields s).entries := keptFields_sublist
    have he := Dict.get?_eq_some.2 (hsub.subset he)
    have hf := Dict.get?_eq_some.2 (hsub.subset hf)
    rw [hname, he] at hf
    rw [Option.some.inj hf]

/-- The names `_wire_names` gives are those of `_source_to_wire`, each with what it nests. -/
theorem entries_wireNames {n : ℕ} {s : S} {names : WireNames}
    (h : G.wireNames n s = some names) :
    names.entries.map (fun e => (e.1, e.2.1)) = (G.sourceToWire s).map.entries := by
  cases n with
  | zero => cases h
  | succ n =>
    obtain ⟨entries, hentries, rfl⟩ := Option.map_eq_some_iff.1 h
    refine map_eq_of_mapM (fun e x hx => ?_) hentries
    obtain ⟨_, -, rfl⟩ := Option.map_eq_some_iff.1 hx
    rfl

end Declarations

end RestFrameworkServices
