import RestFrameworkServices.Dispatch.AuthorValues

/-!
# Where each author value lands

`splitAuthorValues` (`_split_author_values`) puts a layer of author values over the arguments of a
compiled variant and returns the arguments it wrote with the keys they were given under, and the
rest. A value that is set lands at one `Place`: an argument, the key's own or its field's, or the
rest (`splitAuthorValues_delivered`). The routing of a call is two such splits
(`routeAuthorValues_eq_splits`).
-/

namespace RestFrameworkServices

open Lib

universe u

variable {V : Type u}

/-- What a compiled variant says of the names its caller fills: its reads; of a service spec, the
reads of its target lookup and the fields of its Validator, where it has one. -/
inductive KernelVariant where
  | selector (reads : List String)
  | service (reads : List String) (target : Option (List String))
      (validator : Option (List String)) (many : Bool)
deriving DecidableEq, Repr

/-- `_caller_names`: what is read, and the Validator's. -/
def KernelVariant.callerNames : KernelVariant → List String × List String
  | .selector reads => (reads, [])
  | .service reads target validator many =>
    (reads ++ target.getD [], if many then [] else validator.getD [])

/-- The names a caller of the variant fills. -/
def KernelVariant.names (variant : KernelVariant) : List String :=
  variant.callerNames.1 ++ variant.callerNames.2

/-- What `_split_author_values` leaves of the arguments, and returns. -/
structure AuthorSplit (V : Type u) where
  arguments : Option (Dict String V)
  authored : Dict String String
  rest : Dict String (Answer V)

/-- `_split_author_values`. Arguments that are no mapping (`none`) take nothing. -/
def splitAuthorValues (variant : KernelVariant) (arguments : Option (Dict String V))
    (values : Dict String (Answer V)) (wire : Wire) : AuthorSplit V :=
  let left := split variant.names wire values
  { arguments := arguments.map fun mapping => mapping.update left.routed
    authored := left.authored
    rest := left.rest }

/-! ## Places -/

/-- Where an author's value can land. -/
inductive Place where
  | argument (name : String)
  | rest
deriving DecidableEq, Repr

/-- The value given under a key stands at a place. -/
def AuthorSplit.Lands (out : AuthorSplit V) (key : String) (v : V) : Place → Prop
  | .argument name => out.authored.get? name = some key ∧
      (out.arguments.bind fun arguments => arguments.get? name) = some v
  | .rest => out.rest.get? key = some (.given v)

/-- The places a key's value may take: its own argument, that of the field it is the `source` of,
the rest. -/
inductive Offered (wire : Wire) (key : String) : Place → Prop
  | own : Offered wire key (.argument key)
  | field {name : String} (h : wire.map.get? key = some name) : Offered wire key (.argument name)
  | rest : Offered wire key .rest

/-- Every value a layer sets lands at one place it may take, and nothing else of the arguments changes.
The place of an argument's own name is an argument's, and that of a `source` its field, where the
field is set under no name of its own. -/
structure DeliveredOnce (names : List String) (wire : Wire) (values : Dict String (Answer V))
    (arguments : Dict String V) (out : AuthorSplit V) : Prop where
  once : ∀ key v, setAt values key = some v → ∃! place, out.Lands key v place
  offered : ∀ key v place, out.Lands key v place → Offered wire key place
  single : ∀ name key key' v v', out.Lands key v (.argument name) →
    out.Lands key' v' (.argument name) → key = key' ∧ v = v'
  outright : ∀ name ∈ names, ∀ v, setAt values name = some v → out.Lands name v (.argument name)
  sourced : ∀ key name, wire.map.get? key = some name → key ∉ names → name ∈ names →
    setAt values name = none → ∀ v, setAt values key = some v → out.Lands key v (.argument name)
  unchanged : ∀ name, name ∉ out.authored →
    (out.arguments.bind fun arguments => arguments.get? name) = arguments.get? name
  filled : ∀ name ∈ out.authored, name ∈ names
  routed_set : ∀ name key, out.authored.get? name = some key →
    ∃ v, setAt values key = some v ∧ out.Lands key v (.argument name)
  rest_set : ∀ key value, out.rest.get? key = some value →
    ∃ v, value = .given v ∧ setAt values key = some v

/-! ## What a split puts where -/

section
variable {names : List String} {wire : Wire} {values : Dict String (Answer V)}

/-- The key that gives an argument its value is that argument, or the `source` of its field. -/
theorem authoredAt_eq_some {name key : String} :
    authoredAt names wire values name = some key ↔
      name ∈ names ∧ (setAt values key).isSome ∧
        (key = name ∨
          wire.map.get? key = some name ∧ key ∉ names ∧ setAt values name = none) := by
  unfold authoredAt
  by_cases hname : name ∈ names
  · rw [if_pos hname]
    by_cases hset : (setAt values name).isSome
    · have hsome : setAt values name ≠ none := Option.isSome_iff_ne_none.1 hset
      rw [if_pos hset]
      constructor
      · intro h
        cases h
        exact ⟨hname, hset, .inl rfl⟩
      · rintro ⟨-, -, rfl | ⟨-, -, hnone⟩⟩
        · rfl
        · exact absurd hnone hsome
    · have hnone : setAt values name = none := Option.not_isSome_iff_eq_none.1 hset
      rw [if_neg hset, Option.filter_eq_some_iff, sourceOf_eq_some, decide_eq_true_eq]
      constructor
      · rintro ⟨hwire, hkey, hgiven⟩
        exact ⟨hname, hgiven, .inr ⟨hwire, hkey, hnone⟩⟩
      · rintro ⟨-, hgiven, rfl | ⟨hwire, hkey, -⟩⟩
        · exact absurd hgiven hset
        · exact ⟨hwire, hkey, hgiven⟩
  · rw [if_neg hname]
    constructor
    · intro h
      cases h
    · rintro ⟨h, -⟩
      exact absurd h hname

/-- No two arguments take their value under one key. -/
theorem authoredAt_injective {name name' key : String}
    (h : authoredAt names wire values name = some key)
    (h' : authoredAt names wire values name' = some key) : name = name' := by
  obtain ⟨hname, -, hway⟩ := authoredAt_eq_some.1 h
  obtain ⟨hname', -, hway'⟩ := authoredAt_eq_some.1 h'
  rcases hway with rfl | ⟨hwire, hkey, -⟩
  · rcases hway' with rfl | ⟨-, hkey, -⟩
    · rfl
    · exact absurd hname hkey
  · rcases hway' with rfl | ⟨hwire', -, -⟩
    · exact absurd hname' hkey
    · exact Option.some_injective _ (hwire.symm.trans hwire')

/-- A key that gives no argument its value stays in the rest, and no other key does. -/
theorem get?_rest_eq_some {key : String} {value : Answer V} :
    (split names wire values).rest.get? key = some value ↔
      ∃ v, value = .given v ∧ setAt values key = some v ∧
        ∀ name, authoredAt names wire values name ≠ some key := by
  have htaken : (key ∈ names ∨ moves names wire values key = true) → (setAt values key).isSome →
      ∃ name, authoredAt names wire values name = some key := by
    rintro (hmem | hmoves) hset
    · exact ⟨key, authoredAt_eq_some.2 ⟨hmem, hset, .inl rfl⟩⟩
    · unfold moves at hmoves
      by_cases hmem : key ∈ names
      · exact ⟨key, authoredAt_eq_some.2 ⟨hmem, hset, .inl rfl⟩⟩
      · split at hmoves
        · next name hwire =>
          have hfree : name ∈ names ∧ (setAt values name).isNone := by simpa using hmoves
          have hnone : setAt values name = none := Option.isNone_iff_eq_none.1 hfree.2
          exact ⟨name, authoredAt_eq_some.2 ⟨hfree.1, hset, .inr ⟨hwire, hmem, hnone⟩⟩⟩
        · cases hmoves
  rw [get?_rest]
  constructor
  · intro h
    split at h
    · cases h
    · next hstays =>
      obtain ⟨v, hv, rfl⟩ := Option.map_eq_some_iff.1 h
      refine ⟨v, rfl, hv, fun name hname => hstays ?_⟩
      obtain ⟨hmem, -, rfl | ⟨hwire, -, hnone⟩⟩ := authoredAt_eq_some.1 hname
      · exact .inl hmem
      · exact .inr (by simp [moves, hwire, hmem, hnone])
  · rintro ⟨v, rfl, hv, hnever⟩
    have hstays : ¬ (key ∈ names ∨ moves names wire values key = true) := by
      intro hgone
      obtain ⟨name, hname⟩ := htaken hgone (by rw [hv]; rfl)
      exact hnever name hname
    rw [if_neg hstays, hv, Option.map_some]

end

/-! ## Exactly once -/

section
variable (variant : KernelVariant) (arguments : Dict String V) (values : Dict String (Answer V))
  (wire : Wire)

/-- An argument holds the value it was given, or what it held. -/
theorem get?_splitAuthorValues (name : String) :
    ((splitAuthorValues variant (some arguments) values wire).arguments.bind
        fun mapping => mapping.get? name) =
      ((authoredAt variant.names wire values name).bind (setAt values)).or
        (arguments.get? name) := by
  simp only [splitAuthorValues, Option.map_some, Option.bind_some, Dict.get?_update, get?_routed,
    routedAt_eq]

/-- The key an argument was given under is the one that gives it. -/
theorem get?_splitAuthorValues_authored (name : String) :
    (splitAuthorValues variant (some arguments) values wire).authored.get? name =
      authoredAt variant.names wire values name := get?_authored _ _ _ _

/-- A key's value lands in an argument exactly where the key gives that argument its value. -/
theorem lands_argument_iff {key name : String} {v : V} :
    (splitAuthorValues variant (some arguments) values wire).Lands key v (.argument name) ↔
      authoredAt variant.names wire values name = some key ∧ setAt values key = some v := by
  simp only [AuthorSplit.Lands, get?_splitAuthorValues, get?_splitAuthorValues_authored]
  constructor
  · rintro ⟨hkey, hv⟩
    obtain ⟨w, hw⟩ := Option.isSome_iff_exists.1 (isSome_setAt_of_authoredAt _ _ _ hkey)
    rw [hkey, Option.bind_some, hw, Option.some_or] at hv
    exact ⟨hkey, hw.trans hv⟩
  · rintro ⟨hkey, hv⟩
    exact ⟨hkey, by rw [hkey, Option.bind_some, hv, Option.some_or]⟩

/-- It lands in the rest exactly where it gives no argument its value. -/
theorem lands_rest_iff {key : String} {v : V} :
    (splitAuthorValues variant (some arguments) values wire).Lands key v .rest ↔
      setAt values key = some v ∧ ∀ name, authoredAt variant.names wire values name ≠ some key := by
  change (split variant.names wire values).rest.get? key = some (.given v) ↔ _
  rw [get?_rest_eq_some]
  constructor
  · rintro ⟨w, hw, hset, hnever⟩
    cases hw
    exact ⟨hset, hnever⟩
  · rintro ⟨hset, hnever⟩
    exact ⟨v, rfl, hset, hnever⟩

/-- A value that is set lands at exactly one place. -/
theorem existsUnique_lands {key : String} {v : V} (hset : setAt values key = some v) :
    ∃! place, (splitAuthorValues variant (some arguments) values wire).Lands key v place := by
  by_cases hex : ∃ name, authoredAt variant.names wire values name = some key
  · obtain ⟨name, hname⟩ := hex
    refine ⟨.argument name, (lands_argument_iff ..).2 ⟨hname, hset⟩, fun place hplace => ?_⟩
    cases place with
    | argument other =>
      obtain ⟨hother, -⟩ := (lands_argument_iff ..).1 hplace
      rw [authoredAt_injective hother hname]
    | rest => exact absurd hname (((lands_rest_iff ..).1 hplace).2 name)
  · have hnever : ∀ name, authoredAt variant.names wire values name ≠ some key :=
      fun name hname => hex ⟨name, hname⟩
    refine ⟨.rest, (lands_rest_iff ..).2 ⟨hset, hnever⟩, fun place hplace => ?_⟩
    cases place with
    | argument other => exact absurd ((lands_argument_iff ..).1 hplace).1 (hnever other)
    | rest => rfl

/-- **Each author value is delivered exactly once**, of any compiled variant, over any arguments. -/
theorem splitAuthorValues_delivered :
    DeliveredOnce variant.names wire values arguments
      (splitAuthorValues variant (some arguments) values wire) where
  once _ _ := existsUnique_lands variant arguments values wire
  offered key v place hplace := by
    cases place with
    | argument name =>
      obtain ⟨hkey, -⟩ := (lands_argument_iff ..).1 hplace
      obtain ⟨-, -, rfl | ⟨hwire, -⟩⟩ := authoredAt_eq_some.1 hkey
      · exact .own
      · exact .field hwire
    | rest => exact .rest
  single name key key' v v' h h' := by
    obtain ⟨hkey, hv⟩ := (lands_argument_iff ..).1 h
    obtain ⟨hkey', hv'⟩ := (lands_argument_iff ..).1 h'
    have hsame : key = key' := Option.some_injective _ (hkey.symm.trans hkey')
    subst hsame
    exact ⟨rfl, Option.some_injective _ (hv.symm.trans hv')⟩
  outright name hname v hv :=
    (lands_argument_iff ..).2
      ⟨authoredAt_eq_some.2 ⟨hname, Option.isSome_iff_exists.2 ⟨v, hv⟩, .inl rfl⟩, hv⟩
  sourced key name hwire hkey hname hnone v hv :=
    (lands_argument_iff ..).2
      ⟨authoredAt_eq_some.2 ⟨hname, Option.isSome_iff_exists.2 ⟨v, hv⟩, .inr ⟨hwire, hkey, hnone⟩⟩, hv⟩
  unchanged name hname := by
    have hfree : authoredAt variant.names wire values name = none := by
      rw [← get?_splitAuthorValues_authored variant arguments]
      exact Dict.get?_eq_none.2 hname
    rw [get?_splitAuthorValues, hfree, Option.bind_none, Option.none_or]
  filled name hname := by
    obtain ⟨key, hkey⟩ := Option.isSome_iff_exists.1 (Dict.mem_iff_isSome.1 hname)
    rw [get?_splitAuthorValues_authored] at hkey
    exact (authoredAt_eq_some.1 hkey).1
  routed_set name key hkey := by
    rw [get?_splitAuthorValues_authored] at hkey
    obtain ⟨v, hv⟩ := Option.isSome_iff_exists.1 (isSome_setAt_of_authoredAt _ _ _ hkey)
    exact ⟨v, hv, (lands_argument_iff ..).2 ⟨hkey, hv⟩⟩
  rest_set key value hvalue := by
    obtain ⟨v, rfl, hv, -⟩ := get?_rest_eq_some.1 hvalue
    exact ⟨v, rfl, hv⟩

end

/-- The wire of a serializer of one field, `title`, of source `headline`. -/
def titleWire : Wire where
  map := .ofList [("headline", "title")]
  injective {s t a} hs ht := by
    have hsource : ∀ s, (Dict.ofList [("headline", "title")]).get? s = some a → s = "headline" := by
      intro s hs
      exact (Prod.ext_iff.1 (List.mem_singleton.1 (Dict.mem_of_get?_ofList hs))).1
    rw [hsource s hs, hsource t ht]

/-- A value set under a source is handed to its field. -/
example : (splitAuthorValues (.service [] none (some ["title"]) false) (some .empty)
    (.ofList [("headline", Answer.given 7)]) titleWire).Lands "headline" 7 (.argument "title") := ⟨rfl, rfl⟩

/-! ## The routing of a call -/

/-- The routing of a call splits the hook's layer over the caller's arguments, then the provider's
over what that leaves. -/
theorem routeAuthorValues_eq_splits {site : Site} (call : Call site V) {variant : KernelVariant}
    (hnames : variant.names = site.names) :
    let base := call.arguments.without (site.owned.filter (· ∉ site.fields))
    let hooked := splitAuthorValues variant (some base) (hookLayer call) site.wire
    let supplied := splitAuthorValues variant hooked.arguments (providedLayer call) site.wire
    supplied.arguments = some (routeAuthorValues call).arguments ∧
      hooked.authored.update supplied.authored = (routeAuthorValues call).authored ∧
      (hooked.rest.update supplied.rest).update (channelledValues call) =
        (routeAuthorValues call).extras := by
  simp only [splitAuthorValues, hnames]
  exact ⟨rfl, rfl, rfl⟩

end RestFrameworkServices
