import RestFrameworkServices.Dispatch.RowErrors

/-!
# Unknown arguments in one message

`_unexpected_as_drf` moves the keys of a refusal that were refused only as unknown into one message at
their level, the call's own or a row's. What is declared it reads off the spec compiled anew, which need
not be the one the call was dispatched with.

`Reworded` says what the rewording is for, of the parameters the call was dispatched with: level by
level, the undeclared keys in one message and the rest as it was. `unexpectedAsDrf_reworded_iff` proves
it of the code exactly where the two compiled specs agree on what is in the refusal (`Agree`).
-/

namespace RestFrameworkServices

open Lib

/-! ## The compiled spec -/

/-- What `kernel_spec_variant` compiles a spec for. -/
structure VariantOptions where
  patch : Option Bool
  unguarded : Bool
  target : Bool
  serverInput : Bool
  spread : Bool
  lenient : Bool
  excluded : List String

/-- What `_unexpected_as_drf` reads of a spec: the parameters of each variant of it, its input
serializer's fields, and its target lookup's reads. -/
structure CompiledSpec where
  parameters : VariantOptions → Parameters
  fields : List String
  lookupReads : List String

/-- `_seeded_fields`. -/
def CompiledSpec.seededFields (spec : CompiledSpec) (seeded : List String) : List String :=
  spec.fields.filter (· ∈ seeded)

/-- The variant `_unexpected_as_drf` compiles. -/
def CompiledSpec.recompiled (spec : CompiledSpec) : Parameters :=
  spec.parameters {
    patch := none
    unguarded := true
    target := false
    serverInput := false
    spread := false
    lenient := false
    excluded := spec.seededFields spec.lookupReads }

/-- `_unexpected_as_drf`, of a call's refusal, which is always a mapping. -/
def unexpectedAsDrf (nonFieldErrors : String) (spec : CompiledSpec)
    (detail : List (Key × Detail ErrorDetail)) : List (Key × Detail ErrorDetail) :=
  rewordUnknown nonFieldErrors spec.recompiled detail

/-! ## Refusals by level -/

namespace Detail

/-- The keys of every mapping are distinct. -/
inductive Distinct : Detail ErrorDetail → Prop where
  | mapping {entries : List (Key × Detail ErrorDetail)} :
    (keysOf entries).Nodup → (∀ e ∈ entries, Distinct e.2) → Distinct (.mapping entries)
  | rows {items : List (Detail ErrorDetail)} :
    (∀ item ∈ items, Distinct item) → Distinct (.rows items)
  | message (m : ErrorDetail) : Distinct (.message m)

/-- A level of distinct keys, and what is below it. -/
theorem Distinct.of_mapping {entries : List (Key × Detail ErrorDetail)}
    (h : Distinct (.mapping entries)) : (keysOf entries).Nodup ∧ ∀ e ∈ entries, e.2.Distinct := by
  cases h with
  | mapping hnodup hbelow => exact ⟨hnodup, hbelow⟩

/-- A row's refusal is smaller than that of the level its rows are in. -/
theorem sizeOf_row_lt {entries rows : List (Key × Detail ErrorDetail)} {key index : Key}
    {row : Detail ErrorDetail} (h : (key, .mapping rows) ∈ entries) (hrow : (index, row) ∈ rows) :
    sizeOf row < sizeOf (Detail.mapping entries) := by
  have hentry := List.sizeOf_lt_of_mem h
  have hindex := List.sizeOf_lt_of_mem hrow
  simp only [Prod.mk.sizeOf_spec, mapping.sizeOf_spec] at hentry hindex ⊢
  omega

/-- Induction on a refusal by its levels: what holds of the refusals of a level's rows holds of the
level's. -/
theorem indRows {P : Detail ErrorDetail → Prop}
    (mapping : ∀ entries, (∀ key rows, (key, .mapping rows) ∈ entries →
      ∀ index row, (index, row) ∈ rows → P row) → P (.mapping entries))
    (rows : ∀ items, P (.rows items)) (message : ∀ m, P (.message m)) : ∀ d, P d
  | .mapping entries => mapping entries fun _ _ _h _ row _hrow => indRows mapping rows message row
  | .rows items => rows items
  | .message m => message m
termination_by d => sizeOf d
decreasing_by exact sizeOf_row_lt _h _hrow

/-- A refusal is of an unknown argument alone: a message with the code, or a list of them. -/
def refusedUnknown : Detail ErrorDetail → Bool
  | .rows items => !items.isEmpty && items.all fun
    | .message m => m.code == "unknown"
    | .mapping _ | .rows _ => false
  | .message m => m.code == "unknown"
  | .mapping _ => false

end Detail

/-- The parameters a level's rows are declared with, under a key of the level. -/
def belowKey (declared : Option Parameters) (key : Key) : Option Parameters :=
  declared.bind (·.items? key)

section
variable (nonFieldErrors : String)

/-- A key of a declared level that its parameters do not declare, refused only as unknown. -/
def undeclared (declared : Option Parameters) (e : Key × Detail ErrorDetail) : Bool :=
  declared.elim false fun parameters =>
    !parameters.declares e.1 && e.1 != .name nonFieldErrors && e.2.refusedUnknown

/-- A key of a level the code moves into the message. -/
def movedByCode (declared : Option Parameters) (e : Key × Detail ErrorDetail) : Bool :=
  declared.elim false fun parameters => isUnknown nonFieldErrors parameters e

/-- The undeclared keys of a level. -/
def undeclaredKeys (declared : Option Parameters) (entries : List (Key × Detail ErrorDetail)) :
    List Key :=
  keysOf (entries.filter (undeclared nonFieldErrors declared))

/-- A key of a level keeps its refusal. -/
def KeptKey (declared : Option Parameters) (entries : List (Key × Detail ErrorDetail))
    (e : Key × Detail ErrorDetail) : Prop :=
  undeclared nonFieldErrors declared e = false ∧
    (e.1 = .name nonFieldErrors → undeclaredKeys nonFieldErrors declared entries = [])

/-- The errors a level held as a whole, as a list. -/
def HeldErrors : Option (Detail ErrorDetail) → List (Detail ErrorDetail) → Prop
  | none, held => held = []
  | some (.rows items), held => held = items
  | some (.message m), held => held = [.message m]
  | some (.mapping entries), held => entries = [] ∧ held = []

/-- The message of names in order. -/
def namesMessage (names : List String) : ErrorDetail :=
  ⟨"Unexpected argument(s): " ++ String.intercalate ", " (names.map reprString) ++ ".", "invalid"⟩

/-- A level reworded: no undeclared key is left under its own name, a kept one holds what it held, and
no other key is there, but where there are undeclared ones the level's own errors are those it held and
one message, of each undeclared key once and in order. -/
structure LevelReworded (call : Option Parameters) (entries out : List (Key × Detail ErrorDetail)) :
    Prop where
  moved : ∀ e ∈ entries, undeclared nonFieldErrors call e = true → out.lookup e.1 = none
  kept : ∀ e ∈ entries, KeptKey nonFieldErrors call entries e → (∀ rows, e.2 ≠ .mapping rows) →
    out.lookup e.1 = some e.2
  added : ∀ key ∈ keysOf out, key ∈ keysOf entries ∨
    key = .name nonFieldErrors ∧ undeclaredKeys nonFieldErrors call entries ≠ []
  message : undeclaredKeys nonFieldErrors call entries ≠ [] → ∃ (held : List (Detail ErrorDetail)) (names : List String),
    out.lookup (.name nonFieldErrors) = some (.rows (held ++ [.message (namesMessage names)])) ∧
    names.Perm ((undeclaredKeys nonFieldErrors call entries).map (·.text)) ∧
    names.Pairwise (· ≤ ·) ∧
    HeldErrors (entries.lookup (.name nonFieldErrors)) held

/-- A refusal reworded for the parameters its level is declared with, if it is: the level is, and each
row below it at its index. -/
def Reworded (call : Option Parameters) : Detail ErrorDetail → Detail ErrorDetail → Prop
  | .mapping entries, out => ∃ entries', out = .mapping entries' ∧
      LevelReworded nonFieldErrors call entries entries' ∧
      ∀ key rows, (h : (key, .mapping rows) ∈ entries) →
        KeptKey nonFieldErrors call entries (key, .mapping rows) →
        ∃ rows', entries'.lookup key = some (.mapping rows') ∧ keysOf rows' = keysOf rows ∧
          ∀ index row, (hrow : (index, row) ∈ rows) → ∃ row', rows'.lookup index = some row' ∧
            Reworded (belowKey call key) row row'
  | .rows items, out => out = .rows items
  | .message m, out => out = .message m
termination_by detail => sizeOf detail
decreasing_by exact Detail.sizeOf_row_lt h hrow

/-- What a level holds as a whole can be a list's items. -/
def Spreads : Option (Detail ErrorDetail) → Prop
  | none | some (.rows _) => True
  | some (.mapping entries) => entries = []
  | some (.message m) => ∃ c : Char, m = ⟨c.toString, "invalid"⟩

/-- Two compiled specs agree on a refusal: at each level the code moves the keys that are undeclared for
the call, and where there are any it can spread what the level holds as a whole. -/
def Agree (code call : Option Parameters) : Detail ErrorDetail → Prop
  | .mapping entries =>
    (∀ e ∈ entries, movedByCode nonFieldErrors code e = undeclared nonFieldErrors call e) ∧
      (undeclaredKeys nonFieldErrors call entries ≠ [] →
        Spreads (entries.lookup (.name nonFieldErrors))) ∧
      ∀ key rows, (h : (key, .mapping rows) ∈ entries) →
        KeptKey nonFieldErrors call entries (key, .mapping rows) →
        ∀ index row, (hrow : (index, row) ∈ rows) →
          Agree (belowKey code key) (belowKey call key) row
  | .rows _ => True
  | .message _ => True
termination_by detail => sizeOf detail
decreasing_by exact Detail.sizeOf_row_lt h hrow

/-! ## What the code makes of a level -/

/-- What the code makes of a level's entries, where it rewords it. -/
def levelByCode (declared : Option Parameters) (entries : List (Key × Detail ErrorDetail)) :
    List (Key × Detail ErrorDetail) :=
  declared.elim entries fun parameters => rewordUnknown nonFieldErrors parameters entries

/-- What it makes of a level's refusal. -/
def byCode (declared : Option Parameters) : Detail ErrorDetail → Detail ErrorDetail
  | .mapping entries => .mapping (levelByCode nonFieldErrors declared entries)
  | .rows items => .rows items
  | .message m => .message m

/-- What it makes of what a key holds. -/
def belowByCode (declared : Option Parameters) : Detail ErrorDetail → Detail ErrorDetail
  | .mapping rows => .mapping (rows.map fun e => (e.1, byCode nonFieldErrors declared e.2))
  | .rows items => .rows items
  | .message m => .message m

variable {nonFieldErrors} {code call : Option Parameters}
  {entries : List (Key × Detail ErrorDetail)}

/-- Where nothing is declared, the code moves nothing. -/
theorem byCode_none (detail : Detail ErrorDetail) : byCode nonFieldErrors none detail = detail := by
  cases detail <;> rfl

/-- A row is reworded as a level declared with the rows' parameters is. -/
theorem rewordedRow_eq_byCode (rows : Parameters) (row : Detail ErrorDetail) :
    rewordedRow nonFieldErrors rows row = byCode nonFieldErrors (some rows) row := by
  cases row <;> rw [rewordedRow] <;> rfl

/-- What a kept key holds is reworded by the rows it declares. -/
theorem rewordedBelow_eq_belowByCode (parameters : Parameters) (key : Key)
    (errors : Detail ErrorDetail) :
    rewordedBelow nonFieldErrors parameters key errors =
      belowByCode nonFieldErrors (belowKey (some parameters) key) errors := by
  rw [rewordedBelow, belowKey, Option.bind_some]
  cases parameters.items? key with
  | none =>
    cases errors with
    | mapping rows => simp only [belowByCode, byCode_none, List.map_id']
    | _ => rfl
  | some items =>
    cases errors with
    | mapping rows =>
      simp only [rewordedRows, rewordedEach_eq_map, rewordedRow_eq_byCode, belowByCode]
    | _ => rfl

variable (nonFieldErrors) in
/-- A key that is not moved keeps what it holds, reworded below. -/
theorem lookup_rewordedEntries (parameters : Parameters) (key : Key) :
    ∀ {entries : List (Key × Detail ErrorDetail)}, (keysOf entries).Nodup →
      (rewordedEntries nonFieldErrors parameters entries).lookup key =
        (entries.lookup key).bind fun errors =>
          if isUnknown nonFieldErrors parameters (key, errors) then none
          else some (belowByCode nonFieldErrors (belowKey (some parameters) key) errors)
  | [], _ => by rw [rewordedEntries]; rfl
  | (name, errors) :: entries, h => by
    obtain ⟨hname, hnodup⟩ := List.nodup_cons.1 h
    have ih := lookup_rewordedEntries parameters key hnodup
    have hstep : rewordedEntries nonFieldErrors parameters ((name, errors) :: entries) =
        if isUnknown nonFieldErrors parameters (name, errors) then
          rewordedEntries nonFieldErrors parameters entries
        else (name, rewordedBelow nonFieldErrors parameters name errors) ::
          rewordedEntries nonFieldErrors parameters entries := by
      rw [rewordedEntries]
      rfl
    rw [hstep, lookup_cons_ite key (name, errors) entries]
    split
    · next hunknown =>
      rw [ih]
      split
      · next hkey =>
        subst hkey
        rw [lookup_eq_none_iff_notMem.2 hname, Option.bind_none, Option.bind_some, if_pos hunknown]
      · rfl
    · next hknown =>
      rw [lookup_cons_ite]
      split
      · next hkey =>
        subst hkey
        rw [Option.bind_some, if_neg hknown, rewordedBelow_eq_belowByCode]
      · exact ih

/-- Nor does it below. -/
theorem belowByCode_none (detail : Detail ErrorDetail) :
    belowByCode nonFieldErrors none detail = detail := by
  cases detail with
  | mapping rows => simp only [belowByCode, byCode_none, List.map_id']
  | _ => rfl

/-- The level's own errors are never moved. -/
theorem movedByCode_held (declared : Option Parameters) (errors : Detail ErrorDetail) :
    movedByCode nonFieldErrors declared (.name nonFieldErrors, errors) = false := by
  cases declared with
  | none => rfl
  | some parameters => simp [movedByCode, isUnknown]

/-- The level's own errors are under no undeclared key. -/
theorem undeclared_held (declared : Option Parameters) (errors : Detail ErrorDetail) :
    undeclared nonFieldErrors declared (.name nonFieldErrors, errors) = false := by
  cases declared with
  | none => rfl
  | some parameters => simp [undeclared]

/-- The keys of a level the code moves. -/
def movedKeys (nonFieldErrors : String) (declared : Option Parameters)
    (entries : List (Key × Detail ErrorDetail)) : List Key :=
  keysOf (entries.filter (movedByCode nonFieldErrors declared))

/-- Where it moves none, and under every key but the level's own errors', a level holds what is not
moved, reworded below. -/
theorem lookup_levelByCode (hnodup : (keysOf entries).Nodup) {key : Key}
    (h : key = .name nonFieldErrors → movedKeys nonFieldErrors code entries = []) :
    (levelByCode nonFieldErrors code entries).lookup key =
      (entries.lookup key).bind fun errors =>
        if movedByCode nonFieldErrors code (key, errors) then none
        else some (belowByCode nonFieldErrors (belowKey code key) errors) := by
  cases code with
  | none =>
    have hkeep : ∀ errors, (if movedByCode nonFieldErrors none (key, errors) = true then none
        else some (belowByCode nonFieldErrors (belowKey none key) errors)) = some errors :=
      fun errors => congrArg some (belowByCode_none errors)
    simp only [hkeep]
    show entries.lookup key = _
    cases entries.lookup key <;> rfl
  | some parameters =>
    have hlookup := lookup_rewordedEntries nonFieldErrors parameters key hnodup
    show (withUnexpected nonFieldErrors parameters entries
      (rewordedEntries nonFieldErrors parameters entries)).lookup key = _
    rw [withUnexpected]
    split
    · exact hlookup
    · next hsome =>
      rw [lookup_assign, if_neg]
      · exact hlookup
      · intro hkey
        have hnone := List.map_eq_nil_iff.1 (h hkey)
        exact hsome (List.isEmpty_iff.2 hnone)

/-- Where it moves any, the level's own errors are those it held, spread, and the message. -/
theorem lookup_levelByCode_held (hnodup : (keysOf entries).Nodup)
    (h : movedKeys nonFieldErrors code entries ≠ []) :
    (levelByCode nonFieldErrors code entries).lookup (.name nonFieldErrors) =
      some (.rows (spreadErrors (((entries.lookup (.name nonFieldErrors)).map
        (belowByCode nonFieldErrors (belowKey code (.name nonFieldErrors)))).getD (.rows [])) ++
        [.message (unexpectedMessage ((movedKeys nonFieldErrors code entries).map (·.text)))])) := by
  cases code with
  | none => exact absurd (List.map_eq_nil_iff.2 (List.filter_eq_nil_iff.2 fun _ _ => by simp [movedByCode])) h
  | some parameters =>
    have hheld : (rewordedEntries nonFieldErrors parameters entries).lookup _ = _ :=
      lookup_rewordedEntries nonFieldErrors parameters (.name nonFieldErrors) hnodup
    have hsome : (entries.filter (isUnknown nonFieldErrors parameters)).isEmpty = false :=
      List.isEmpty_eq_false_iff.2 fun hnil => h (congrArg keysOf hnil)
    have hkeep : ∀ errors, (if isUnknown nonFieldErrors parameters (.name nonFieldErrors, errors)
        then none else some (belowByCode nonFieldErrors
          (belowKey (some parameters) (.name nonFieldErrors)) errors)) =
        some (belowByCode nonFieldErrors (belowKey (some parameters) (.name nonFieldErrors)) errors) :=
      fun errors => by
        have hfalse : isUnknown nonFieldErrors parameters (.name nonFieldErrors, errors) = false :=
          movedByCode_held (some parameters) errors
        rw [hfalse, if_neg Bool.false_ne_true]
    simp only [hkeep] at hheld
    show (withUnexpected nonFieldErrors parameters entries
      (rewordedEntries nonFieldErrors parameters entries)).lookup _ = _
    rw [withUnexpected, hsome, if_neg Bool.false_ne_true, lookup_assign, if_pos rfl, hheld,
      movedKeys, keysOf, List.map_map]
    cases entries.lookup (.name nonFieldErrors) <;> rfl

/-- A level's keys are those it had, and that of its own errors where any is moved. -/
theorem mem_keysOf_levelByCode (hnodup : (keysOf entries).Nodup) {key : Key}
    (h : key ∈ keysOf (levelByCode nonFieldErrors code entries)) :
    key ∈ keysOf entries ∨
      key = .name nonFieldErrors ∧ movedKeys nonFieldErrors code entries ≠ [] := by
  by_cases hheld : key = .name nonFieldErrors → movedKeys nonFieldErrors code entries = []
  · rw [← isSome_lookup_iff, lookup_levelByCode hnodup hheld] at h
    refine .inl (isSome_lookup_iff.1 ?_)
    cases hkey : entries.lookup key with
    | none => rw [hkey] at h; exact h
    | some errors => rfl
  · exact .inr (Classical.not_imp.1 hheld)

/-! ## Where the two agree -/

variable (nonFieldErrors) in
/-- What the code spreads is what the level held. -/
theorem heldErrors_spread {held : Option (Detail ErrorDetail)} (h : Spreads held)
    (declared : Option Parameters) :
    HeldErrors held (spreadErrors ((held.map (belowByCode nonFieldErrors declared)).getD
      (.rows []))) := by
  match held, h with
  | none, _ => rfl
  | some (.rows items), _ => rfl
  | some (.mapping _), rfl => exact ⟨rfl, rfl⟩
  | some (.message _), ⟨c, rfl⟩ =>
    show (c.toString.toList.map fun c => Detail.message (ErrorDetail.mk c.toString "invalid")) = _
    rw [Char.toString_eq_singleton, String.toList_singleton, List.map_singleton,
      Char.toString_eq_singleton]

/-- The errors a level held are spread where what the code leaves of them is the list of them. -/
theorem spreads_of_heldErrors {held : Option (Detail ErrorDetail)} {items : List (Detail ErrorDetail)}
    {declared : Option Parameters} (h : HeldErrors held items)
    (hspread : spreadErrors ((held.map (belowByCode nonFieldErrors declared)).getD (.rows [])) =
      items) : Spreads held := by
  match held, h with
  | none, _ => trivial
  | some (.rows _), _ => trivial
  | some (.mapping _), hmapping => exact hmapping.1
  | some (.message m), rfl =>
    have hchars : (m.text.toList.map fun c => Detail.message (ErrorDetail.mk c.toString "invalid")) =
      [.message m] := hspread
    obtain ⟨c, -, hc⟩ := List.map_eq_singleton_iff.1 hchars
    exact ⟨c, (Detail.message.inj hc).symm⟩

/-- A level reworded shows which keys the code moved, where no kept key's rows are lost. -/
theorem LevelReworded.moved_eq (hnodup : (keysOf entries).Nodup)
    (h : LevelReworded nonFieldErrors call entries (levelByCode nonFieldErrors code entries))
    (hrows : ∀ key rows, (key, .mapping rows) ∈ entries →
      KeptKey nonFieldErrors call entries (key, .mapping rows) →
      ((levelByCode nonFieldErrors code entries).lookup key).isSome)
    {e : Key × Detail ErrorDetail} (he : e ∈ entries) :
    movedByCode nonFieldErrors code e = undeclared nonFieldErrors call e := by
  obtain ⟨key, errors⟩ := e
  by_cases hheld : key = .name nonFieldErrors
  · rw [hheld, movedByCode_held, undeclared_held]
  have hlookup : (levelByCode nonFieldErrors code entries).lookup key = _ :=
    lookup_levelByCode hnodup fun heq => absurd heq hheld
  rw [lookup_eq_some_of_nodup hnodup |>.2 he, Option.bind_some] at hlookup
  cases hundeclared : undeclared nonFieldErrors call (key, errors) with
  | true =>
    rw [h.moved _ he hundeclared] at hlookup
    by_contra hmoved
    rw [if_neg hmoved] at hlookup
    cases hlookup
  | false =>
    have hkept : KeptKey nonFieldErrors call entries (key, errors) :=
      ⟨hundeclared, fun heq => absurd heq hheld⟩
    have hsome : ((levelByCode nonFieldErrors code entries).lookup key).isSome := by
      by_cases hmapping : ∃ rows, errors = .mapping rows
      · obtain ⟨rows, rfl⟩ := hmapping
        exact hrows key rows he hkept
      · rw [h.kept _ he hkept fun rows hrow => hmapping ⟨rows, hrow⟩]
        rfl
    rw [hlookup] at hsome
    split at hsome
    · cases hsome
    · next hmoved => exact Bool.eq_false_iff.2 hmoved

section
variable (hmoved : ∀ e ∈ entries,
  movedByCode nonFieldErrors code e = undeclared nonFieldErrors call e)
include hmoved

/-- Where the two agree, the keys moved are the undeclared ones. -/
theorem movedKeys_eq :
    movedKeys nonFieldErrors code entries = undeclaredKeys nonFieldErrors call entries := by
  rw [movedKeys, undeclaredKeys, List.filter_congr hmoved]

/-- A kept key holds what it held, reworded below. -/
theorem lookup_kept (hnodup : (keysOf entries).Nodup) {key : Key} {errors : Detail ErrorDetail}
    (he : (key, errors) ∈ entries) (hkept : KeptKey nonFieldErrors call entries (key, errors)) :
    (levelByCode nonFieldErrors code entries).lookup key =
      some (belowByCode nonFieldErrors (belowKey code key) errors) := by
  rw [lookup_levelByCode hnodup fun heq => movedKeys_eq hmoved ▸ hkept.2 heq,
    (lookup_eq_some_of_nodup hnodup).2 he, Option.bind_some, hmoved _ he, hkept.1,
    if_neg Bool.false_ne_true]

omit hmoved in
/-- The message is of the names in order. -/
theorem unexpectedMessage_eq (names : List String) :
    unexpectedMessage names = namesMessage (names.insertionSort (· ≤ ·)) := rfl

/-- A level of which the code moves the undeclared keys is reworded. -/
theorem levelReworded_of_moved (hnodup : (keysOf entries).Nodup)
    (hspread : undeclaredKeys nonFieldErrors call entries ≠ [] →
      Spreads (entries.lookup (.name nonFieldErrors))) :
    LevelReworded nonFieldErrors call entries (levelByCode nonFieldErrors code entries) where
  moved := by
    rintro ⟨key, errors⟩ he hundeclared
    have hheld : key ≠ .name nonFieldErrors := by
      rintro rfl
      rw [undeclared_held] at hundeclared
      cases hundeclared
    rw [lookup_levelByCode hnodup fun heq => absurd heq hheld,
      (lookup_eq_some_of_nodup hnodup).2 he, Option.bind_some, hmoved _ he, if_pos hundeclared]
  kept := by
    rintro ⟨key, errors⟩ he hkept hnot
    rw [lookup_kept hmoved hnodup he hkept]
    cases errors with
    | mapping rows => exact absurd rfl (hnot rows)
    | _ => rfl
  added := fun key hkey => by
    rw [← movedKeys_eq hmoved]
    exact mem_keysOf_levelByCode hnodup hkey
  message := fun hne => by
    have hkeys := movedKeys_eq hmoved
    refine ⟨_, ((undeclaredKeys nonFieldErrors call entries).map (·.text)).insertionSort (· ≤ ·),
      ?_, List.perm_insertionSort _ _, List.pairwise_insertionSort _ _,
      heldErrors_spread nonFieldErrors (hspread hne) (belowKey code (.name nonFieldErrors))⟩
    rw [lookup_levelByCode_held hnodup (hkeys.symm ▸ hne), hkeys, unexpectedMessage_eq]

end

/-- The code rewords a refusal for the parameters its level is declared with exactly where its own agree
on it. -/
theorem reworded_byCode_iff {detail : Detail ErrorDetail} (hdistinct : detail.Distinct)
    (code call : Option Parameters) :
    Reworded nonFieldErrors call detail (byCode nonFieldErrors code detail) ↔
      Agree nonFieldErrors code call detail := by
  induction detail using Detail.indRows generalizing code call with
  | rows items => rw [Reworded, Agree, byCode, eq_self]
  | message m => rw [Reworded, Agree, byCode, eq_self]
  | mapping entries ih =>
    obtain ⟨hnodup, hbelow⟩ := hdistinct.of_mapping
    have hrow : ∀ {key rows index row} (declared : Option Parameters), (key, .mapping rows) ∈ entries →
        (index, row) ∈ rows →
        (rows.map fun e => (e.1, byCode nonFieldErrors declared e.2)).lookup index =
          some (byCode nonFieldErrors declared row) := by
      intro key rows index row declared h hrow
      rw [lookup_map_values, (lookup_eq_some_of_nodup (hbelow _ h).of_mapping.1).2 hrow,
        Option.map_some]
    rw [Reworded, Agree, byCode]
    constructor
    · rintro ⟨entries', hout, hlevel, hrows⟩
      obtain rfl := Detail.mapping.inj hout
      have hmoved : ∀ e ∈ entries,
          movedByCode nonFieldErrors code e = undeclared nonFieldErrors call e := by
        refine fun e he => hlevel.moved_eq hnodup (fun key rows h hkept => ?_) he
        obtain ⟨rows', hlookup, -⟩ := hrows key rows h hkept
        exact Option.isSome_of_eq_some hlookup
      refine ⟨hmoved, fun hne => ?_, fun key rows h hkept index row hmem => ?_⟩
      · obtain ⟨held, names, hlookup, -, -, hheld⟩ := hlevel.message hne
        rw [lookup_levelByCode_held hnodup (movedKeys_eq hmoved ▸ hne), unexpectedMessage_eq]
          at hlookup
        have happend := Detail.rows.inj (Option.some.inj hlookup)
        exact spreads_of_heldErrors hheld (List.append_inj_left' happend rfl)
      · obtain ⟨rows', hlookup, -, hrows'⟩ := hrows key rows h hkept
        rw [lookup_kept hmoved hnodup h hkept] at hlookup
        obtain rfl := Detail.mapping.inj (Option.some.inj hlookup)
        obtain ⟨row', hrow', hreworded⟩ := hrows' index row hmem
        rw [hrow _ h hmem] at hrow'
        obtain rfl := Option.some.inj hrow'
        exact (ih key rows h index row hmem ((hbelow _ h).of_mapping.2 _ hmem) _ _).1 hreworded
    · rintro ⟨hmoved, hspread, hrows⟩
      refine ⟨_, rfl, levelReworded_of_moved hmoved hnodup hspread, fun key rows h hkept =>
        ⟨_, lookup_kept hmoved hnodup h hkept, ?_, fun index row hmem =>
          ⟨_, hrow _ h hmem, ?_⟩⟩⟩
      · rw [keysOf, List.map_map]
        rfl
      · exact (ih key rows h index row hmem ((hbelow _ h).of_mapping.2 _ hmem) _ _).2
          (hrows key rows h hkept index row hmem)

end

/-- **A refusal is reworded for the variant its call was dispatched with exactly where the variant
compiled for the rewording agrees on it.** -/
theorem unexpectedAsDrf_reworded_iff (nonFieldErrors : String) (spec : CompiledSpec)
    (options : VariantOptions) {detail : List (Key × Detail ErrorDetail)}
    (hdistinct : (Detail.mapping detail).Distinct) :
    Reworded nonFieldErrors (some (spec.parameters options)) (.mapping detail)
        (.mapping (unexpectedAsDrf nonFieldErrors spec detail)) ↔
      Agree nonFieldErrors (some spec.recompiled) (some (spec.parameters options))
        (.mapping detail) :=
  reworded_byCode_iff hdistinct (some spec.recompiled) (some (spec.parameters options))

/-! ### A channel's refusal -/

/-- A service with a text, and a channel where its parameters are spread. -/
def notifySpec : CompiledSpec where
  parameters options := .mk (("text", none) :: if options.spread then [("channel", none)] else [])
  fields := []
  lookupReads := []

/-- A variant of it. -/
def notifyOptions (spread : Bool) : VariantOptions where
  patch := none
  unguarded := true
  target := false
  serverInput := false
  spread := spread
  lenient := true
  excluded := []

/-- A refusal of one key, with a code. -/
def notifyDetail (key code : String) : List (Key × Detail ErrorDetail) :=
  [(.name key, .rows [.message ⟨"No such channel.", code⟩])]

/-- The refusal's keys are distinct. -/
theorem distinct_notifyDetail (key code : String) :
    (Detail.mapping (notifyDetail key code)).Distinct := by
  refine .mapping (List.nodup_singleton _) fun e he => ?_
  obtain rfl := List.mem_singleton.1 he
  exact .rows fun item hitem => List.mem_singleton.1 hitem ▸ .message _

/-- A key no variant declares is named in the message. -/
theorem unexpectedAsDrf_reworded_notify :
    Reworded "non_field_errors" (some (notifySpec.parameters (notifyOptions true)))
      (.mapping (notifyDetail "chanel" "unknown"))
      (.mapping (unexpectedAsDrf "non_field_errors" notifySpec (notifyDetail "chanel" "unknown"))) := by
  refine (unexpectedAsDrf_reworded_iff _ notifySpec (notifyOptions true)
    (distinct_notifyDetail _ _)).2 ?_
  rw [Agree]
  refine ⟨fun e he => ?_, fun _ => trivial, fun key rows h => ?_⟩
  · obtain rfl := List.mem_singleton.1 he
    decide
  · cases List.mem_singleton.1 h

/-- A spread service's own parameter, refused with the code of an unknown one, is reworded. -/
theorem unexpectedAsDrf_rewords_channel :
    ¬ Reworded "non_field_errors" (some (notifySpec.parameters (notifyOptions true)))
      (.mapping (notifyDetail "channel" "unknown"))
      (.mapping (unexpectedAsDrf "non_field_errors" notifySpec
        (notifyDetail "channel" "unknown"))) := by
  intro h
  have hagree := (reworded_byCode_iff (distinct_notifyDetail "channel" "unknown")
    (some notifySpec.recompiled) _).1 h
  rw [Agree] at hagree
  have hmoved := hagree.1 _ (List.mem_singleton_self _)
  revert hmoved
  decide

end RestFrameworkServices
