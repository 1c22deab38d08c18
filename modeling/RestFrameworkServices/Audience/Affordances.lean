import RestFrameworkServices.Types.Value

/-!
# Affordances beside their rows

A selector spec's `affordances` name operations and the conditions of each. A list's query answers every
condition of every row under an annotation (`affordance_alias`), which construction keeps apart from each
other and from the spec's own (`validateAffordances`), and `with_affordances` puts each row's answers into
the object rendered for it, in the shape `affordance_schema` describes.
-/

namespace RestFrameworkServices.Affordances

open Lib

/-! ## Declarations -/

/-- A condition of an operation, as far as an answer reads it. -/
structure Affordance where
  code : String
  reason : String

/-- A value of an `affordances` mapping: a spec that declares conditions, or a value of another type. -/
inductive Declarer where
  | spec (affordances : List Affordance)
  | other (type : String)

/-- What a selector spec is given as its `affordances`. -/
inductive AffordancesField where
  | none
  | mapping (entries : Dict Value Declarer)
  | other (type : String)

/-- `affordance_alias`. -/
def affordanceAlias (name code : String) : String := "affordance__" ++ name ++ "__" ++ code

section
variable (reprValue : Value → String)

/-- One condition's alias, unless an annotation or another condition has it. -/
def claimAlias (own : List String) (name : String) (owners : Dict String String)
    (affordance : Affordance) : Except String (Dict String String) :=
  let aliasName := affordanceAlias name affordance.code
  if aliasName ∈ own then
    .error ("SelectorSpec.affordances[" ++ reprString name ++ "] generates the annotation " ++
      reprString aliasName ++ ", which `annotations` already declares. Rename one: the " ++
      "generated value would silently replace the declared one.")
  else match owners.get? aliasName with
    | some owner =>
      .error ("SelectorSpec.affordances[" ++ reprString name ++ "] and [" ++ reprString owner ++
        "] both generate the annotation " ++ reprString aliasName ++
        ". Rename an entry so each answer has its own.")
    | none => .ok (owners.set aliasName name)

/-- One entry's aliases. -/
def claimEntry (own : List String) (owners : Dict String String) :
    Value × Declarer → Except String (Dict String String)
  | (.str name, declarer) =>
    if name = "" then
      .error ("SelectorSpec.affordances keys must be non-empty strings; got " ++
        reprString name ++ ".")
    else match declarer with
      | .spec affordances => affordances.foldlM (claimAlias own name) owners
      | .other type =>
        .error ("SelectorSpec.affordances[" ++ reprString name ++ "] must be a ServiceSpec; got " ++
          type ++ ". The mapping holds the spec whose affordances are being asked about, not its " ++
          "registry name.")
  | (key, _) =>
    .error ("SelectorSpec.affordances keys must be non-empty strings; got " ++ reprValue key ++ ".")

/-- `_validate_affordances`: the aliases claimed, each by the entry it is generated for. -/
def validateAffordances (annotations : List String) :
    AffordancesField → Except String (Dict String String)
  | .none => .ok .empty
  | .mapping entries => entries.entries.foldlM (claimEntry reprValue annotations) .empty
  | .other type =>
    .error ("SelectorSpec.affordances must be a mapping of name -> ServiceSpec; got " ++ type ++ ".")

/-- The entry of a mapping that its readers go through. -/
def declaredEntry : Value × Declarer → Option (String × List Affordance)
  | (.str name, .spec affordances) => some (name, affordances)
  | _ => none

/-- A selector spec that construction accepts, as far as its annotations and affordances go. -/
structure SelectorSpec where
  annotations : List String
  affordances : AffordancesField
  valid : ∃ owners, validateAffordances reprValue annotations affordances = .ok owners

/-- Operations by name, each with its conditions in the order they are declared. -/
abbrev Operations := Dict String (List Affordance)

/-- The annotations conditions compile to. -/
def aliases (entries : List (String × List Affordance)) : List String :=
  entries.flatMap fun e => e.2.map fun affordance => affordanceAlias e.1 affordance.code

variable {reprValue}

/-- No two affordances declared have one name. -/
theorem nodup_declaredEntry (entries : Dict Value Declarer) :
    (keysOf (entries.entries.filterMap declaredEntry)).Nodup := by
  have hpairwise : entries.entries.Pairwise fun a b => a.1 ≠ b.1 := List.pairwise_map.1 entries.nodup
  refine List.pairwise_map.2 (List.Pairwise.filterMap _ (fun a b hne a' ha b' hb => ?_) hpairwise)
  obtain ⟨key, declarer⟩ := a
  obtain ⟨key', declarer'⟩ := b
  rw [declaredEntry.eq_def] at ha hb
  split at ha <;> cases ha
  split at hb <;> cases hb
  next hkey =>
    rintro rfl
    simp_all

/-- The affordances of a spec. -/
def SelectorSpec.declared (spec : SelectorSpec reprValue) : Operations :=
  match spec.affordances with
  | .mapping entries => ⟨entries.entries.filterMap declaredEntry, nodup_declaredEntry entries⟩
  | .none | .other _ => .empty

/-- A field declares operations where it is a mapping whose entries are theirs, in order, or there are
none. -/
def AffordancesField.Declares (operations : Operations) : AffordancesField → Prop
  | .none => operations.entries = []
  | .mapping entries => entries.entries = operations.entries.map fun e => (.str e.1, .spec e.2)
  | .other _ => False

/-! ## Construction -/

/-- The aliases of an entry are claimed where they are nobody's. -/
theorem claimAliases_ok {own : List String} {name : String} : ∀ {affordances : List Affordance}
    {owners owners' : Dict String String},
    affordances.foldlM (claimAlias own name) owners = .ok owners' →
      (affordances.map fun a => affordanceAlias name a.code).Nodup ∧
      (∀ a ∈ affordances, affordanceAlias name a.code ∉ own ∧ affordanceAlias name a.code ∉ owners) ∧
      ∀ aliasName, aliasName ∈ owners' ↔
        aliasName ∈ owners ∨ aliasName ∈ affordances.map fun a => affordanceAlias name a.code
  | [], owners, owners', h => by
    cases h
    exact ⟨.nil, fun _ h => (List.not_mem_nil h).elim, fun _ => by simp⟩
  | a :: affordances, owners, owners', h => by
    rw [List.foldlM_cons, claimAlias] at h
    split at h
    · cases h
    · next hown =>
      split at h
      · cases h
      · next hnone =>
        obtain ⟨hnodup, hfree, hmem⟩ := claimAliases_ok h
        have hset : ∀ aliasName, aliasName ∈ owners.set (affordanceAlias name a.code) name ↔
            aliasName = affordanceAlias name a.code ∨ aliasName ∈ owners := by
          intro aliasName
          rw [Dict.mem_iff_isSome, Dict.mem_iff_isSome, Dict.get?_set]
          split <;> simp_all
        refine ⟨List.nodup_cons.2 ⟨fun hin => ?_, hnodup⟩, ?_, fun aliasName => ?_⟩
        · obtain ⟨b, hb, halias⟩ := List.mem_map.1 hin
          exact (hfree b hb).2 ((hset _).2 (.inl halias))
        · rintro b hb
          rcases List.mem_cons.1 hb with rfl | hb
          · exact ⟨hown, Dict.get?_eq_none.1 hnone⟩
          · exact ⟨(hfree b hb).1, fun hmem => (hfree b hb).2 ((hset _).2 (.inr hmem))⟩
        · rw [hmem, hset, List.map_cons, List.mem_cons]
          tauto

/-- An entry that claims its aliases is a spec under a name. -/
theorem claimEntry_ok {own : List String} {owners owners' : Dict String String} {e : Value × Declarer}
    (h : claimEntry reprValue own owners e = .ok owners') :
    ∃ name affordances, e = (.str name, .spec affordances) ∧
      affordances.foldlM (claimAlias own name) owners = .ok owners' := by
  obtain ⟨key, declarer⟩ := e
  rw [claimEntry.eq_def] at h
  split at h
  · next name declarer' heq =>
    cases heq
    split at h
    · cases h
    · split at h
      · next affordances => exact ⟨name, affordances, rfl, h⟩
      · cases h
  · cases h

/-- Entries that claim their aliases are all specs under names, whose aliases are distinct and nobody
else's. -/
theorem claimEntries_ok {own : List String} : ∀ {entries : List (Value × Declarer)}
    {owners owners' : Dict String String},
    entries.foldlM (claimEntry reprValue own) owners = .ok owners' →
      (∀ e ∈ entries, (declaredEntry e).isSome) ∧
      (aliases (entries.filterMap declaredEntry)).Nodup ∧
      ∀ a ∈ aliases (entries.filterMap declaredEntry), a ∉ own ∧ a ∉ owners
  | [], owners, owners', _ =>
    ⟨fun _ h => (List.not_mem_nil h).elim, .nil, fun _ h => (List.not_mem_nil h).elim⟩
  | e :: entries, owners, owners', h => by
    rw [List.foldlM_cons] at h
    cases hclaimed : claimEntry reprValue own owners e with
    | error message =>
      rw [hclaimed] at h
      cases h
    | ok claimed =>
      rw [hclaimed] at h
      obtain ⟨name, affordances, rfl, hfold⟩ := claimEntry_ok hclaimed
      obtain ⟨hnodup, hfree, hmem⟩ := claimAliases_ok hfold
      obtain ⟨hspecs, hrest, hrestFree⟩ := claimEntries_ok h
      have hentry : declaredEntry (.str name, .spec affordances) = some (name, affordances) := rfl
      have haliases : aliases (((.str name, .spec affordances) :: entries).filterMap declaredEntry) =
          affordances.map (fun a => affordanceAlias name a.code) ++
            aliases (entries.filterMap declaredEntry) := by
        rw [List.filterMap_cons_some hentry, aliases, List.flatMap_cons, aliases]
      rw [haliases]
      refine ⟨List.forall_mem_cons.2 ⟨rfl, hspecs⟩, List.nodup_append.2 ⟨hnodup, hrest, ?_⟩, ?_⟩
      · rintro a ha _ hb rfl
        exact (hrestFree a hb).2 ((hmem a).2 (.inr ha))
      · intro a ha
        rcases List.mem_append.1 ha with ha | ha
        · obtain ⟨b, hb, rfl⟩ := List.mem_map.1 ha
          exact hfree b hb
        · exact ⟨(hrestFree a ha).1, fun hin => (hrestFree a ha).2 ((hmem a).2 (.inl hin))⟩

/-- Entries that are all specs under names are those their readers go through. -/
theorem eq_map_declaredEntry : ∀ {entries : List (Value × Declarer)},
    (∀ e ∈ entries, (declaredEntry e).isSome) →
      entries = (entries.filterMap declaredEntry).map fun e => (.str e.1, .spec e.2)
  | [], _ => rfl
  | (key, declarer) :: entries, h => by
    obtain ⟨hentry, hrest⟩ := List.forall_mem_cons.1 h
    obtain ⟨declared, hdeclared⟩ := Option.isSome_iff_exists.1 hentry
    rw [List.filterMap_cons_some hdeclared, List.map_cons, ← eq_map_declaredEntry hrest]
    rw [declaredEntry.eq_def] at hdeclared
    split at hdeclared <;> cases hdeclared
    next heq =>
      rw [heq]

namespace SelectorSpec

variable (spec : SelectorSpec reprValue)

/-- What a spec declares is its `affordances`, every entry of them. -/
theorem declares : spec.affordances.Declares spec.declared := by
  obtain ⟨owners, hvalid⟩ := spec.valid
  rw [declared.eq_def]
  cases hfield : spec.affordances with
  | none => rfl
  | other type =>
    rw [hfield] at hvalid
    cases hvalid
  | mapping entries =>
    rw [hfield] at hvalid
    exact eq_map_declaredEntry (claimEntries_ok hvalid).1

/-- The annotations a spec's conditions compile to are distinct, and none is one of its own. -/
theorem aliases_distinct :
    (aliases spec.declared.entries).Nodup ∧
      ∀ a ∈ aliases spec.declared.entries, a ∉ spec.annotations := by
  obtain ⟨owners, hvalid⟩ := spec.valid
  rw [declared.eq_def]
  cases hfield : spec.affordances with
  | none => exact ⟨.nil, fun _ h => (List.not_mem_nil h).elim⟩
  | other type => exact ⟨.nil, fun _ h => (List.not_mem_nil h).elim⟩
  | mapping entries =>
    rw [hfield] at hvalid
    obtain ⟨-, hnodup, hfree⟩ := claimEntries_ok hvalid
    exact ⟨hnodup, fun a ha => (hfree a ha).1⟩

end SelectorSpec

end

/-! ## Answers -/

/-- A row: a mapping's keys, or an instance's attributes. -/
inductive Row where
  | mapping (entries : Dict String Value)
  | object (attributes : String → Option Value)

/-- `_flag`, where the row carries one. -/
def Row.flag? : Row → String → Option Value
  | .mapping entries, name => entries.get? name
  | .object attributes, name => attributes name

/-- How a rendering of affordances fails. -/
inductive RenderFailure where
  | improperlyConfigured (message : String)
  | valueError (message : String)

/-- `AFFORDANCES_KEY`. -/
def affordancesKey : String := "affordances"

/-- The answer of an operation whose conditions are all met. -/
def available : Value := .mapping true [("available", .bool true)]

/-- The answer for a row that no longer exists. -/
def unavailable : Value := .mapping true [("available", .bool false)]

/-- The answer of an unmet condition. -/
def refused (affordance : Affordance) : Value :=
  .mapping true [("available", .bool false), ("code", .str affordance.code),
    ("reason", .str affordance.reason)]

/-- The conditions of one operation walked in order, for a row. -/
def answer (row : Row) (name : String) : List Affordance → Except RenderFailure Value
  | [] => .ok available
  | affordance :: affordances =>
    match row.flag? (affordanceAlias name affordance.code) with
    | none =>
      .error (.improperlyConfigured ("The rendered row carries no " ++
        reprString (affordanceAlias name affordance.code) ++ " answer. Affordance answers are " ++
        "computed by the selector spec that declares them; a value that did not come " ++
        "through that selector -- or a spec whose selector is not set -- has none."))
    | some .null => .ok unavailable
    | some flag => if flag.truthy then answer row name affordances else .ok (refused affordance)

/-- `_answers`. -/
def answers (row : Row) :
    List (String × List Affordance) → Except RenderFailure (List (String × Value))
  | [] => .ok []
  | (name, affordances) :: entries =>
    match answer row name affordances with
    | .error failure => .error failure
    | .ok value => (answers row entries).map ((name, value) :: ·)

section
variable (typeName : Value → String)

/-- `_with_answers`. -/
def withAnswers (operations : Operations) (item : Value) (row : Row) : Except RenderFailure Value :=
  match item with
  | .mapping _ entries =>
    if affordancesKey ∈ keysOf entries then
      .error (.improperlyConfigured ("The rendered object already has an 'affordances' key, which " ++
        "the declared affordances would overwrite. Rename the serializer field."))
    else (answers row operations.entries).map fun values =>
      .mapping true (entries ++ [(affordancesKey, .mapping true values)])
  | item =>
    .error (.improperlyConfigured ("affordances are projected into each rendered object, and this " ++
      "spec rendered " ++ typeName item ++ ". Declare an output_serializer."))

/-- `with_affordances`, of rendered items and their rows walked together. -/
def withAffordances (operations : Operations) :
    List Value → List Row → Except RenderFailure (List Value)
  | [], [] => .ok []
  | item :: items, row :: rows =>
    match withAnswers typeName operations item row with
    | .error failure => .error failure
    | .ok value => (withAffordances operations items rows).map (value :: ·)
  | [], _ :: _ => .error (.valueError "zip() argument 2 is longer than argument 1")
  | _ :: _, [] => .error (.valueError "zip() argument 2 is shorter than argument 1")

end

/-! ### What decides an answer -/

/-- A row's flag for a condition is true. -/
def Met (row : Row) (name : String) (affordance : Affordance) : Prop :=
  ∃ flag, row.flag? (affordanceAlias name affordance.code) = some flag ∧ flag.truthy = true

/-- A condition whose flag is not true decides an answer: with neither its code nor its reason where the
flag is null, and with both else. -/
def Unmet (flag : Value) (affordance : Affordance) (value : Value) : Prop :=
  flag.truthy = false ∧
    ((flag = .null ∧ value = unavailable) ∨ (flag ≠ .null ∧ value = refused affordance))

/-- An answer is decided: available where every flag is true, else by the first condition whose flag is
not. -/
def Decided (row : Row) (name : String) (affordances : List Affordance) (value : Value) : Prop :=
  ((∀ a ∈ affordances, Met row name a) ∧ value = available) ∨
    ∃ met first rest, affordances = met ++ first :: rest ∧ (∀ a ∈ met, Met row name a) ∧
      ∃ flag, row.flag? (affordanceAlias name first.code) = some flag ∧ Unmet flag first value

/-- A condition met leaves the answer to the others. -/
theorem decided_cons_of_met {row : Row} {name : String} {a : Affordance}
    {affordances : List Affordance} {value : Value} (h : Met row name a) :
    Decided row name (a :: affordances) value ↔ Decided row name affordances value := by
  constructor
  · rintro (⟨hmet, rfl⟩ | ⟨met, first, rest, hsplit, hmet, flag, hflag, hunmet⟩)
    · exact .inl ⟨fun b hb => hmet b (List.mem_cons_of_mem _ hb), rfl⟩
    · cases met with
      | nil =>
        obtain ⟨rfl, rfl⟩ := List.cons.inj hsplit
        obtain ⟨flag', hflag', htrue⟩ := h
        rw [hflag] at hflag'
        cases hflag'
        rw [hunmet.1] at htrue
        cases htrue
      | cons b met =>
        obtain ⟨rfl, rfl⟩ := List.cons.inj hsplit
        exact .inr ⟨met, first, rest, rfl, fun c hc => hmet c (List.mem_cons_of_mem _ hc), flag,
          hflag, hunmet⟩
  · rintro (⟨hmet, rfl⟩ | ⟨met, first, rest, rfl, hmet, hflag⟩)
    · exact .inl ⟨List.forall_mem_cons.2 ⟨h, hmet⟩, rfl⟩
    · exact .inr ⟨a :: met, first, rest, rfl, List.forall_mem_cons.2 ⟨h, hmet⟩, hflag⟩

/-- A condition that is not met decides. -/
theorem decided_cons_of_unmet {row : Row} {name : String} {a : Affordance}
    {affordances : List Affordance} {value flag : Value}
    (hflag : row.flag? (affordanceAlias name a.code) = some flag) (hfalse : flag.truthy = false) :
    Decided row name (a :: affordances) value ↔ Unmet flag a value := by
  constructor
  · have hunmet : ¬ Met row name a := by
      rintro ⟨flag', hflag', htrue⟩
      rw [hflag] at hflag'
      cases hflag'
      rw [hfalse] at htrue
      cases htrue
    rintro (⟨hmet, -⟩ | ⟨met, first, rest, hsplit, hmet, flag', hflag', hvalue⟩)
    · exact absurd (hmet a List.mem_cons_self) hunmet
    · cases met with
      | nil =>
        obtain ⟨rfl, rfl⟩ := List.cons.inj hsplit
        rw [hflag] at hflag'
        cases hflag'
        exact hvalue
      | cons b met =>
        obtain ⟨rfl, -⟩ := List.cons.inj hsplit
        exact absurd (hmet _ List.mem_cons_self) hunmet
  · intro hvalue
    exact .inr ⟨[], a, affordances, rfl, fun b hb => (List.not_mem_nil hb).elim, flag, hflag, hvalue⟩

/-- A condition with no flag leaves nothing decided. -/
theorem not_decided_of_no_flag {row : Row} {name : String} {a : Affordance}
    {affordances : List Affordance} {value : Value}
    (hnone : row.flag? (affordanceAlias name a.code) = none) :
    ¬ Decided row name (a :: affordances) value := by
  have hunmet : ¬ Met row name a := by
    rintro ⟨flag, hflag, -⟩
    rw [hnone] at hflag
    cases hflag
  rintro (⟨hmet, -⟩ | ⟨met, first, rest, hsplit, hmet, flag, hflag, -⟩)
  · exact hunmet (hmet a List.mem_cons_self)
  · cases met with
    | nil =>
      obtain ⟨rfl, -⟩ := List.cons.inj hsplit
      rw [hnone] at hflag
      cases hflag
    | cons b met =>
      obtain ⟨rfl, -⟩ := List.cons.inj hsplit
      exact hunmet (hmet _ List.mem_cons_self)

/-- The walk over an operation's conditions answers what decides them. -/
theorem answer_eq_ok_iff {row : Row} {name : String} {value : Value} :
    ∀ {affordances : List Affordance}, answer row name affordances = .ok value ↔
      Decided row name affordances value
  | [] => by
    rw [answer, Except.ok.injEq]
    constructor
    · rintro rfl
      exact .inl ⟨fun _ h => (List.not_mem_nil h).elim, rfl⟩
    · rintro (⟨-, rfl⟩ | ⟨met, first, rest, hsplit, -⟩)
      · rfl
      · cases met <;> cases hsplit
  | a :: affordances => by
    rw [answer]
    split
    · next hnone =>
      constructor
      · intro h
        cases h
      · exact fun h => absurd h (not_decided_of_no_flag hnone)
    · next hnull =>
      rw [decided_cons_of_unmet hnull rfl, Except.ok.injEq]
      constructor
      · rintro rfl
        exact ⟨rfl, .inl ⟨rfl, rfl⟩⟩
      · rintro ⟨-, ⟨-, rfl⟩ | ⟨hne, -⟩⟩
        · rfl
        · exact absurd rfl hne
    · next flag hnotNull hflag =>
      split
      · next htrue => rw [decided_cons_of_met ⟨flag, hflag, htrue⟩, answer_eq_ok_iff]
      · next hfalse =>
        have hfalse := Bool.eq_false_iff.2 hfalse
        rw [decided_cons_of_unmet hflag hfalse, Except.ok.injEq]
        constructor
        · rintro rfl
          exact ⟨hfalse, .inr ⟨hnotNull, rfl⟩⟩
        · rintro ⟨-, ⟨hnull, -⟩ | ⟨-, rfl⟩⟩
          · exact absurd hnull hnotNull
          · rfl

/-- The answers of operations are each operation's own, in order. -/
theorem answers_eq_ok {row : Row} : ∀ {entries : List (String × List Affordance)}
    {values : List (String × Value)}, answers row entries = .ok values ↔
      List.Forall₂ (fun e v => e.1 = v.1 ∧ Decided row e.1 e.2 v.2) entries values
  | [], values => by
    rw [answers, Except.ok.injEq, List.forall₂_nil_left_iff, eq_comm]
  | (name, affordances) :: entries, values => by
    rw [answers]
    cases hanswer : answer row name affordances with
    | error failure =>
      constructor
      · intro h
        cases h
      · intro h
        cases h with
        | cons hfirst _ =>
          rw [answer_eq_ok_iff.2 hfirst.2] at hanswer
          cases hanswer
    | ok value =>
      constructor
      · intro h
        cases hrest : answers row entries with
        | error failure =>
          rw [hrest] at h
          cases h
        | ok rest =>
          rw [hrest] at h
          cases h
          exact .cons ⟨rfl, answer_eq_ok_iff.1 hanswer⟩ (answers_eq_ok.1 hrest)
      · intro h
        cases h with
        | cons hfirst hrest =>
          rename_i v values
          have hvalue : value = v.2 := by
            have hv := answer_eq_ok_iff.2 hfirst.2
            rw [hanswer] at hv
            cases hv
            rfl
          show (answers row entries).map _ = _
          rw [answers_eq_ok.2 hrest, hvalue, Except.map]
          exact congrArg (fun v' => Except.ok (v' :: values)) (Prod.ext hfirst.1 rfl)

/-! ## The schema -/

/-- The schema of an operation's answer. -/
def answerSchema (affordances : List Affordance) : Value :=
  let codes := affordances.map fun affordance => Value.str affordance.code
  let answer := [("available", Value.mapping true [("type", .str "boolean")])] ++
    if codes.isEmpty then []
    else [("code", .mapping true [("type", .str "string"), ("enum", .list codes)]),
      ("reason", .mapping true [("type", .str "string")])]
  .mapping true [("type", .str "object"), ("properties", .mapping true answer),
    ("required", .list [.str "available"])]

/-- `affordance_schema`. -/
def affordanceSchema (operations : Operations) : Value :=
  .mapping true [("type", .str "object"),
    ("properties", .mapping true (operations.entries.map fun e => (e.1, answerSchema e.2))),
    ("required", .list (operations.keys.map .str))]

/-- A value is of a type that JSON Schema names. -/
def HasType (value : Value) : String → Prop
  | "object" => value.isMapping = true
  | "boolean" => ∃ b, value = .bool b
  | "string" => ∃ s, value = .str s
  | _ => False

/-- A value conforms to a schema, of the keywords `type`, `enum`, `required` and `properties`. -/
inductive Conforms : Value → Value → Prop where
  | mk {mutable : Bool} {keywords : List (String × Value)} {value : Value} :
    (∀ type, keywords.lookup "type" = some (.str type) → HasType value type) →
    (∀ items, keywords.lookup "enum" = some (.list items) → value ∈ items) →
    (∀ names name, keywords.lookup "required" = some (.list names) → .str name ∈ names →
      value.isMapping = true → (value.property? name).isSome) →
    (∀ mutable' properties name schema held,
      keywords.lookup "properties" = some (.mapping mutable' properties) →
      properties.lookup name = some schema → value.property? name = some held →
      Conforms schema held) →
    Conforms (.mapping mutable keywords) value

/-- A flag conforms to a boolean's schema. -/
theorem conforms_boolean (b : Bool) : Conforms (.mapping true [("type", .str "boolean")]) (.bool b) := by
  refine .mk (fun type h => ?_) (fun _ h => ?_) (fun _ _ h => ?_) (fun _ _ _ _ _ h => ?_) <;> cases h
  exact ⟨b, rfl⟩

/-- A text conforms to a string's. -/
theorem conforms_string (s : String) : Conforms (.mapping true [("type", .str "string")]) (.str s) := by
  refine .mk (fun type h => ?_) (fun _ h => ?_) (fun _ _ h => ?_) (fun _ _ _ _ _ h => ?_) <;> cases h
  exact ⟨s, rfl⟩

/-- A listed text conforms to a schema of a string and its values. -/
theorem conforms_code {codes : List Value} {s : String} (h : .str s ∈ codes) :
    Conforms (.mapping true [("type", .str "string"), ("enum", .list codes)]) (.str s) := by
  refine .mk (fun type h => ?_) (fun _ h => ?_) (fun _ _ h => ?_) (fun _ _ _ _ _ h => ?_) <;> cases h
  · exact ⟨s, rfl⟩
  · exact h

/-- An object conforms to an operation's schema by what it says is available, and the code and the reason
it gives, where it does. -/
theorem conforms_answerSchema {affordances : List Affordance} {entries : List (String × Value)}
    (havailable : ∃ b, entries.lookup "available" = some (.bool b))
    (hcode : ∀ held, entries.lookup "code" = some held → ∃ a ∈ affordances, held = .str a.code)
    (hreason : ∀ held, entries.lookup "reason" = some held → ∃ s, held = .str s) :
    Conforms (answerSchema affordances) (.mapping true entries) := by
  obtain ⟨b, hb⟩ := havailable
  refine .mk (fun type h => ?_) (fun _ h => ?_) (fun names name h hname _ => ?_)
    (fun mutable properties name schema held h hschema hheld => ?_) <;> cases h
  · rfl
  · obtain rfl := Value.str.inj (List.mem_singleton.1 hname)
    exact Option.isSome_of_eq_some hb
  · rw [List.lookup_append] at hschema
    have hheld : entries.lookup name = some held := hheld
    by_cases hav : name = "available"
    · subst hav
      rw [hb] at hheld
      cases hheld
      cases hschema
      exact conforms_boolean b
    · have hnone : List.lookup name [("available", Value.mapping true [("type", .str "boolean")])] =
          none := by
        rw [lookup_cons_ite, if_neg hav]
        rfl
      rw [hnone, Option.none_or] at hschema
      split at hschema
      · cases hschema
      · rw [lookup_cons_ite] at hschema
        split at hschema
        · next hname =>
          cases hschema
          obtain rfl : name = "code" := hname
          obtain ⟨a, ha, rfl⟩ := hcode held hheld
          exact conforms_code (List.mem_map_of_mem ha)
        · rw [lookup_cons_ite] at hschema
          split at hschema
          · next hname =>
            cases hschema
            obtain rfl : name = "reason" := hname
            obtain ⟨s, rfl⟩ := hreason held hheld
            exact conforms_string s
          · cases hschema

/-- An answer conforms to its operation's schema. -/
theorem Decided.conforms {row : Row} {name : String} {affordances : List Affordance} {value : Value}
    (h : Decided row name affordances value) : Conforms (answerSchema affordances) value := by
  have hnone : ∀ {b key held}, key ≠ "available" →
      List.lookup key [("available", Value.bool b)] = some held → False := by
    intro b key held hkey hlookup
    rw [lookup_cons_ite, if_neg hkey] at hlookup
    cases hlookup
  rcases h with ⟨-, rfl⟩ | ⟨met, first, rest, rfl, -, flag, -, -, ⟨-, rfl⟩ | ⟨-, rfl⟩⟩
  · exact conforms_answerSchema ⟨true, rfl⟩ (fun _ h => (hnone (by decide) h).elim)
      fun _ h => (hnone (by decide) h).elim
  · exact conforms_answerSchema ⟨false, rfl⟩ (fun _ h => (hnone (by decide) h).elim)
      fun _ h => (hnone (by decide) h).elim
  · refine conforms_answerSchema ⟨false, rfl⟩ (fun held h => ?_) fun held h => ?_
    · have h : some (Value.str first.code) = some held := h
      cases h
      exact ⟨first, List.mem_append_right _ List.mem_cons_self, rfl⟩
    · have h : some (Value.str first.reason) = some held := h
      cases h
      exact ⟨_, rfl⟩

/-- The answers of operations hold each operation's under its name, and no other. -/
theorem lookup_answers {row : Row} {entries : List (String × List Affordance)}
    {values : List (String × Value)}
    (h : List.Forall₂ (fun e v => e.1 = v.1 ∧ Decided row e.1 e.2 v.2) entries values)
    (name : String) :
    (entries.lookup name = none ∧ values.lookup name = none) ∨
      ∃ affordances value, entries.lookup name = some affordances ∧
        values.lookup name = some value ∧ Decided row name affordances value := by
  induction h with
  | nil => exact .inl ⟨rfl, rfl⟩
  | @cons e v entries values hfirst hrest ih =>
    rw [lookup_cons_ite, lookup_cons_ite, ← hfirst.1]
    by_cases hname : name = e.1
    · rw [if_pos hname, if_pos hname]
      exact .inr ⟨e.2, v.2, rfl, rfl, hname ▸ hfirst.2⟩
    · rw [if_neg hname, if_neg hname]
      exact ih

/-- The answers conform to the operations' schema. -/
theorem conforms_affordanceSchema {row : Row} {operations : Operations}
    {values : List (String × Value)}
    (h : List.Forall₂ (fun e v => e.1 = v.1 ∧ Decided row e.1 e.2 v.2) operations.entries values) :
    Conforms (affordanceSchema operations) (.mapping true values) := by
  refine .mk (fun type hkey => ?_) (fun _ hkey => ?_) (fun names name hkey hname _ => ?_)
    (fun mutable properties name schema held hkey hschema hheld => ?_) <;> cases hkey
  · rfl
  · obtain ⟨name', hmem, hname'⟩ := List.mem_map.1 hname
    obtain rfl := Value.str.inj hname'
    rcases lookup_answers h name' with ⟨hnone, -⟩ | ⟨_, value, -, hvalue, -⟩
    · exact absurd hmem (lookup_eq_none_iff_notMem.1 hnone)
    · exact Option.isSome_of_eq_some hvalue
  · rw [lookup_map_values] at hschema
    rcases lookup_answers h name with ⟨hnone, -⟩ | ⟨affordances, value, hsome, hvalue, hdecided⟩
    · rw [hnone] at hschema
      cases hschema
    · rw [hsome] at hschema
      cases hschema
      have hheld : values.lookup name = some held := hheld
      rw [hvalue] at hheld
      cases hheld
      exact hdecided.conforms

/-! ## Items and their rows -/

/-- An item rendered with its row's answers: the object it was, and under one more key each operation's
answer, as the row's flags decide it, in the shape the schema describes. -/
structure Answered (operations : Operations) (item : Value) (row : Row) (out : Value) : Prop where
  object : item.isMapping = true ∧ out.isMapping = true
  free : item.property? affordancesKey = none
  kept : ∀ key, key ≠ affordancesKey → out.property? key = item.property? key
  answers : ∃ values, out.property? affordancesKey = some values ∧
    (∀ name, (values.property? name).isSome = (operations.get? name).isSome) ∧
    (∀ name affordances value, operations.get? name = some affordances →
      values.property? name = some value → Decided row name affordances value) ∧
    Conforms (affordanceSchema operations) values

section
variable {typeName : Value → String} {operations : Operations}

/-- What an item is rendered with is its row's answers. -/
theorem answered_of_ok {item out : Value} {row : Row}
    (h : withAnswers typeName operations item row = .ok out) : Answered operations item row out := by
  rw [withAnswers.eq_def] at h
  split at h
  · next mutable entries =>
    split at h
    · cases h
    · next hfree =>
      cases hanswers : answers row operations.entries with
      | error failure =>
        rw [hanswers] at h
        cases h
      | ok values =>
        rw [hanswers] at h
        cases h
        have hvalues := answers_eq_ok.1 hanswers
        have hnone := lookup_eq_none_iff_notMem.2 hfree
        refine ⟨⟨rfl, rfl⟩, hnone, fun key hkey => ?_, .mapping true values, ?_, fun name => ?_,
          fun name affordances value hsome hvalue => ?_, conforms_affordanceSchema hvalues⟩
        · show List.lookup key (entries ++ _) = entries.lookup key
          rw [List.lookup_append, lookup_cons_ite, if_neg hkey]
          exact Option.or_none
        · show List.lookup affordancesKey (entries ++ _) = _
          rw [List.lookup_append, hnone, Option.none_or, lookup_cons_ite, if_pos rfl]
        · show (values.lookup name).isSome = (operations.entries.lookup name).isSome
          rcases lookup_answers hvalues name with ⟨h, h'⟩ | ⟨_, _, h, h', -⟩ <;> rw [h, h'] <;> rfl
        · have hsome : operations.entries.lookup name = some affordances := hsome
          have hvalue : values.lookup name = some value := hvalue
          rcases lookup_answers hvalues name with ⟨h, -⟩ | ⟨_, _, h, h', hdecided⟩
          · rw [h] at hsome
            cases hsome
          · rw [h] at hsome
            rw [h'] at hvalue
            cases hsome
            cases hvalue
            exact hdecided
  · cases h

/-- An item is rendered where it is an object with no such key, and the row's flags decide each operation. -/
theorem exists_ok_iff {item : Value} {row : Row} :
    (∃ out, withAnswers typeName operations item row = .ok out) ↔
      item.isMapping = true ∧ item.property? affordancesKey = none ∧
        ∀ name affordances, operations.get? name = some affordances →
          ∃ value, Decided row name affordances value := by
  constructor
  · rintro ⟨out, hout⟩
    obtain ⟨hobject, hfree, -, values, -, hkeys, hdecided, -⟩ := answered_of_ok hout
    refine ⟨hobject.1, hfree, fun name affordances hsome => ?_⟩
    have hvalue := hkeys name
    rw [hsome, Option.isSome_some] at hvalue
    obtain ⟨value, hvalue⟩ := Option.isSome_iff_exists.1 hvalue
    exact ⟨value, hdecided name affordances value hsome hvalue⟩
  · rintro ⟨hobject, hfree, hdecided⟩
    have hanswers : ∀ entries : List (String × List Affordance),
        (∀ e ∈ entries, ∃ value, Decided row e.1 e.2 value) →
        ∃ values, answers row entries = .ok values := by
      intro entries
      induction entries with
      | nil => exact fun _ => ⟨[], rfl⟩
      | cons e entries ih =>
        rintro h
        obtain ⟨⟨value, hvalue⟩, hrest⟩ := List.forall_mem_cons.1 h
        obtain ⟨values, hvalues⟩ := ih hrest
        refine ⟨(e.1, value) :: values, ?_⟩
        rw [answers, answer_eq_ok_iff.2 hvalue, hvalues]
        rfl
    obtain ⟨values, hvalues⟩ := hanswers operations.entries fun e he =>
      hdecided e.1 e.2 (Dict.get?_eq_some.2 he)
    cases item with
    | mapping mutable entries =>
      have hkey : affordancesKey ∉ keysOf entries := lookup_eq_none_iff_notMem.1 hfree
      exact ⟨_, by rw [withAnswers, if_neg hkey, hvalues, Except.map]⟩
    | _ => cases hobject

/-- The items rendered are each rendered with the row at its index. -/
theorem withAffordances_ok : ∀ {items : List Value} {rows : List Row} {out : List Value},
    withAffordances typeName operations items rows = .ok out →
      rows.length = items.length ∧ out.length = items.length ∧
      ∀ (i : ℕ) item row, items[i]? = some item → rows[i]? = some row →
        ∃ item', out[i]? = some item' ∧ withAnswers typeName operations item row = .ok item'
  | [], [], out, h => by
    cases h
    exact ⟨rfl, rfl, fun i item row hitem => by cases hitem⟩
  | [], _ :: _, _, h => by cases h
  | _ :: _, [], _, h => by cases h
  | item :: items, row :: rows, out, h => by
    rw [withAffordances] at h
    cases hfirst : withAnswers typeName operations item row with
    | error failure =>
      rw [hfirst] at h
      cases h
    | ok value =>
      rw [hfirst] at h
      cases hrest : withAffordances typeName operations items rows with
      | error failure =>
        rw [hrest] at h
        cases h
      | ok rest =>
        rw [hrest] at h
        cases h
        obtain ⟨hrows, hout, heach⟩ := withAffordances_ok hrest
        refine ⟨congrArg Nat.succ hrows, congrArg Nat.succ hout, fun i item' row' hitem hrow => ?_⟩
        cases i with
        | zero =>
          cases hitem
          cases hrow
          exact ⟨value, rfl, hfirst⟩
        | succ i => exact heach i item' row' hitem hrow

/-- Items of which each is rendered with its row are rendered. -/
theorem exists_withAffordances : ∀ {items : List Value} {rows : List Row},
    rows.length = items.length →
    (∀ (i : ℕ) item row, items[i]? = some item → rows[i]? = some row →
      ∃ out, withAnswers typeName operations item row = .ok out) →
    ∃ out, withAffordances typeName operations items rows = .ok out
  | [], [], _, _ => ⟨[], rfl⟩
  | [], _ :: _, hlength, _ => by cases hlength
  | _ :: _, [], hlength, _ => by cases hlength
  | item :: items, row :: rows, hlength, h => by
    obtain ⟨value, hvalue⟩ := h 0 item row rfl rfl
    obtain ⟨out, hout⟩ := exists_withAffordances (Nat.succ.inj hlength) fun i item' row' hitem hrow =>
      h (i + 1) item' row' hitem hrow
    refine ⟨value :: out, ?_⟩
    rw [withAffordances, hvalue, hout]
    rfl

/-- **The affordances of a spec that construction accepts are told apart, and each item is rendered with
the answers of the row at its index, in the shape of the schema.** -/
theorem affordances_paired {reprValue : Value → String} (spec : SelectorSpec reprValue)
    (typeName : Value → String) :
    spec.affordances.Declares spec.declared ∧
      (aliases spec.declared.entries).Nodup ∧
      (∀ a ∈ aliases spec.declared.entries, a ∉ spec.annotations) ∧
      ∀ items rows,
        (∀ out, withAffordances typeName spec.declared items rows = .ok out →
          rows.length = items.length ∧ out.length = items.length ∧
          ∀ (i : ℕ) item row, items[i]? = some item → rows[i]? = some row →
            ∃ item', out[i]? = some item' ∧ Answered spec.declared item row item') ∧
        ((∃ out, withAffordances typeName spec.declared items rows = .ok out) ↔
          rows.length = items.length ∧
          ∀ (i : ℕ) item row, items[i]? = some item → rows[i]? = some row →
            item.isMapping = true ∧ item.property? affordancesKey = none ∧
              ∀ name affordances, spec.declared.get? name = some affordances →
                ∃ value, Decided row name affordances value) := by
  refine ⟨spec.declares, spec.aliases_distinct.1, spec.aliases_distinct.2, fun items rows => ⟨fun out hout => ?_,
    fun ⟨out, hout⟩ => ?_, fun ⟨hlength, heach⟩ => ?_⟩⟩
  · obtain ⟨hrows, hlength, heach⟩ := withAffordances_ok hout
    refine ⟨hrows, hlength, fun i item row hitem hrow => ?_⟩
    obtain ⟨item', hout, hanswers⟩ := heach i item row hitem hrow
    exact ⟨item', hout, answered_of_ok hanswers⟩
  · obtain ⟨hrows, -, heach⟩ := withAffordances_ok hout
    refine ⟨hrows, fun i item row hitem hrow => ?_⟩
    obtain ⟨item', -, hanswers⟩ := heach i item row hitem hrow
    exact exists_ok_iff.1 ⟨item', hanswers⟩
  · exact exists_withAffordances hlength fun i item row hitem hrow =>
      exists_ok_iff.2 (heach i item row hitem hrow)

end

/-- Invoices, of which one that is paid and young is refunded, and any is printed. -/
def invoices : SelectorSpec fun _ => "None" where
  annotations := ["total"]
  affordances := .mapping
    ⟨[(.str "refund", .spec [⟨"unpaid", "It is not paid."⟩, ⟨"old", "It is too old."⟩]),
      (.str "print", .spec [])], by simp [keysOf]⟩
  valid := ⟨_, rfl⟩

/-- A row whose flags are true, one whose second is false, and one whose first is null. -/
theorem invoices_paired :
    let flags (unpaid old : Value) : Row := .mapping (.ofList
      [("affordance__refund__unpaid", unpaid), ("affordance__refund__old", old)])
    let item (id : Int) : Value := .mapping true [("id", .int id)]
    let out (id : Int) (refund : Value) : Value := .mapping true [("id", .int id),
      ("affordances", .mapping true [("refund", refund), ("print", available)])]
    withAffordances (fun _ => "int") invoices.declared [item 1, item 2, item 3]
        [flags (.bool true) (.bool true), flags (.bool true) (.bool false),
          flags .null (.bool true)] =
      .ok [out 1 available, out 2 (refused ⟨"old", "It is too old."⟩), out 3 unavailable] ∧
    Answered invoices.declared (item 2) (flags (.bool true) (.bool false))
      (out 2 (refused ⟨"old", "It is too old."⟩)) := by
  intro flags item out
  have hrun : withAffordances (fun _ => "int") invoices.declared [item 1, item 2, item 3]
      [flags (.bool true) (.bool true), flags (.bool true) (.bool false),
        flags .null (.bool true)] =
      .ok [out 1 available, out 2 (refused ⟨"old", "It is too old."⟩), out 3 unavailable] := rfl
  obtain ⟨item', hout, hanswered⟩ :=
    (((affordances_paired invoices fun _ => "int").2.2.2 _ _).1 _ hrun).2.2 1 _ _ rfl rfl
  cases hout
  exact ⟨hrun, hanswered⟩

end RestFrameworkServices.Affordances
