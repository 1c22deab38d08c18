import RestFrameworkServices.ServiceSpecs.SerializerValidator

/-!
# The rows of a `many` call

`SerializerValidator.validated_many` binds the rows of a call once, as DRF's list serializer, and
keys what it refuses by the caller's own indices: DRF counts positions in the list it was handed, from
which the kernel may have refused rows (`byRow`). A live view's list body is bound whole, and what the
list serializer refuses is also left for the edge to answer (`rowErrors`); so is a refusal by a length
bound, which counts every row sent (`rowsPastARefusal`).

DRF reports its rows' errors as a list or as a mapping, by version (`ListErrors`); either is read by
key (`ListErrors.byKey`), and `ListErrors.get?_byRow_row` says where an entry stands afterwards.
-/

namespace RestFrameworkServices

open Lib

/-! ## DRF's list serializer -/

/-- An error is truthy: `{}` stands for a row with none. -/
def Detail.truthy : Detail ErrorDetail → Bool
  | .mapping entries => !entries.isEmpty
  | .rows items => !items.isEmpty
  | .message m => m.text != ""

/-- What a list serializer refuses rows with: a list with an entry per row (below 3.18), or a mapping
of the refused rows by position. Its refusal of the list itself is a mapping by name on each. -/
inductive ListErrors where
  | listed (items : List (Detail ErrorDetail))
  | mapped (entries : Dict Key (Detail ErrorDetail))

namespace ListErrors

/-- The errors, as DRF reports them. -/
def detail : ListErrors → Detail ErrorDetail
  | listed items => .rows items
  | mapped entries => .mapping entries.entries

/-- The errors by key: the entry of a listed row is under its position, where it has one. -/
def byKey : ListErrors → Dict Key (Detail ErrorDetail)
  | listed items => .tabulate
    (fun
      | .row position => items[position.toNat]?.filter (·.truthy)
      | .name _ => none)
    ((List.range items.length).map fun (position : ℕ) => Key.row position)
  | mapped entries => entries

/-- The errors are of a list of so many rows: each row's is at a position of the list, and not
empty. -/
structure Of (errors : ListErrors) (count : ℕ) : Prop where
  within : ∀ i d, errors.byKey.get? (.row i) = some d → ∃ p < count, i = (p : Int)
  truthy : ∀ i d, errors.byKey.get? (.row i) = some d → d.truthy = true

/-- What a listed row's entry is read as. -/
theorem get?_byKey_listed (items : List (Detail ErrorDetail)) (p : ℕ) :
    (listed items).byKey.get? (.row p) = items[p]?.filter (·.truthy) := by
  rw [byKey, Dict.get?_tabulate]
  split
  · rfl
  · next hp =>
    have hle : items.length ≤ p := by
      by_contra hlt
      exact hp (List.mem_map_of_mem (List.mem_range.2 (Nat.lt_of_not_le hlt)))
    rw [List.getElem?_eq_none hle]
    rfl

/-- A list with an entry per row is of its rows. -/
theorem of_listed (items : List (Detail ErrorDetail)) : (listed items).Of items.length := by
  have hpos : ∀ i d, (listed items).byKey.get? (.row i) = some d →
      ∃ p < items.length, i = (p : Int) := by
    intro i d h
    rw [byKey, Dict.get?_tabulate] at h
    split at h
    · next hi =>
      obtain ⟨p, hp, hrow⟩ := List.mem_map.1 hi
      cases hrow
      exact ⟨p, List.mem_range.1 hp, rfl⟩
    · cases h
  refine ⟨hpos, fun i d h => ?_⟩
  obtain ⟨p, -, rfl⟩ := hpos i d h
  rw [get?_byKey_listed] at h
  exact (Option.filter_eq_some_iff.1 h).2

end ListErrors

/-- A list serializer bound to rows: its length bounds and what it refuses a length with, its
validation of a list (`is_valid`), and its reading of rows alone, where it may be empty and has no
minimum (`to_internal_value`). Each refuses with errors of the rows it is handed. -/
structure ListSerializer where
  maxLength : Option ℕ
  minLength : Option ℕ
  boundMessage : String → ℕ → String
  isValid : List Value → Except ListErrors (List Value)
  toInternalValue : List Value → Except ListErrors (List Value)
  isValid_of : ∀ rows errors, isValid rows = .error errors → errors.Of rows.length
  toInternalValue_of : ∀ rows errors, toInternalValue rows = .error errors →
    errors.Of rows.length

/-- A refusal's messages under `non_field_errors`, which a project may name otherwise. -/
def nonFieldRefusal (nonFieldErrors text code : String) : Dict Key (Detail ErrorDetail) :=
  Dict.empty.set (.name nonFieldErrors) (.rows [.message ⟨text, code⟩])

/-! ## The rows by the caller's indices -/

/-- A position of the list bound, as the index of its row in the list sent. -/
def callerKey (indices : List ℕ) : Key → Key
  | .row position => .row (indices.getD position.toNat 0)
  | .name s => .name s

/-- A row's key is the caller's own index. -/
theorem callerKey_row {indices : List ℕ} {q : ℕ} (hq : q < indices.length) :
    callerKey indices (.row q) = .row indices[q] := by
  rw [callerKey, Int.toNat_natCast, List.getD_eq_getElem?_getD, List.getElem?_eq_getElem hq,
    Option.getD_some]

/-- `_by_row`. -/
def byRow (errors : ListErrors) (indices : List ℕ) : Dict Key (Detail ErrorDetail) :=
  errors.byKey.mapKeys (callerKey indices)

section
variable {errors : ListErrors} {indices : List ℕ}

/-- The list's own refusal keeps its key. -/
theorem get?_byRow_name (s : String) :
    (byRow errors indices).get? (.name s) = errors.byKey.get? (.name s) := by
  refine Dict.get?_mapKeys fun k _ => ?_
  cases k <;> simp [callerKey]

/-- A row's errors stand at the index its position is of, and nowhere else. -/
theorem get?_byRow_row (herrors : errors.Of indices.length) (hnodup : indices.Nodup) (i : ℕ) :
    (byRow errors indices).get? (.row i) =
      (indices.idxOf? i).bind fun p => errors.byKey.get? (.row p) := by
  have hposition : ∀ j, Key.row j ∈ errors.byKey → ∃ q < indices.length, j = (q : Int) := by
    intro j hj
    obtain ⟨d, hd⟩ := Option.isSome_iff_exists.1 (Dict.mem_iff_isSome.1 hj)
    exact herrors.within j d hd
  cases hp : indices.idxOf? i with
  | none =>
    rw [Option.bind_none]
    refine Dict.get?_mapKeys_eq_none fun k hk => ?_
    cases k with
    | name s => simp [callerKey]
    | row j =>
      obtain ⟨q, hq, rfl⟩ := hposition j hk
      simp only [callerKey_row hq, ne_eq, Key.row.injEq, Int.natCast_inj]
      rintro rfl
      exact List.idxOf?_eq_none_iff.1 hp (List.getElem_mem hq)
  | some p =>
    obtain ⟨hlt, rfl, -⟩ := List.idxOf?_eq_some_iff.1 hp
    rw [Option.bind_some]
    refine Dict.get?_mapKeys fun k hk => ?_
    cases k with
    | name s => simp [callerKey]
    | row j =>
      obtain ⟨q, hq, rfl⟩ := hposition j hk
      simp only [callerKey_row hq, Key.row.injEq, Int.natCast_inj]
      exact hnodup.getElem_inj_iff

end

/-! ## The validation -/

/-- What the edge call in progress carries for a Validator of rows (`EdgeCallState`): the rows it
binds, for the Validator it names; whether they are a live view's list body; and the keys sent beside
them. -/
structure ManyState where
  validatorInput : Option (ℕ × List Value)
  bodyRows : Bool
  besideRows : List String

/-- What `validated_many` refuses a call with: as `_refuse_partial` does, for the keys beside the rows
(`unexpected_arguments`), or for the rows. -/
inductive ManyRefusal where
  | partialCall (refusal : Refusal)
  | unexpected (names : List String)
  | invalidArguments (detail : Dict Key (Detail ErrorDetail))

/-- The rows' values, by name, and their data. -/
structure ValidatedRows where
  values : List (Dict String Value)
  data : List Value

/-- What `validated_many` answers, and the `row_errors` it leaves on the call's state. -/
structure ManyAnswer where
  result : Except ManyRefusal ValidatedRows
  rowErrors : Option (Detail ErrorDetail)

/-- What the answer refuses the rows with. -/
def ManyAnswer.refusal (answer : ManyAnswer) : Option (Dict Key (Detail ErrorDetail)) :=
  match answer.result with
  | .error (.invalidArguments detail) => some detail
  | .error _ | .ok _ => none

/-- `validator_input`: the edge's rows for the Validator it names. -/
def SerializerValidator.sentRows (v : SerializerValidator) (s : ManyState) : Option (List Value) :=
  match s.validatorInput with
  | some (id, body) => if id == v.id then some body else none
  | none => none

/-- The errors of a refused validation. -/
def ListErrors.of? {α : Type*} : Except ListErrors α → Option ListErrors
  | .error errors => some errors
  | .ok _ => none

namespace ListSerializer

variable (list : ListSerializer) (nonFieldErrors : String)

/-- `_bound_refusal`: the maximum before the minimum. -/
def boundRefusal (count : ℕ) : Option (Dict Key (Detail ErrorDetail)) :=
  match list.maxLength.filter (· < count), list.minLength.filter (count < ·) with
  | some bound, _ =>
    some (nonFieldRefusal nonFieldErrors (list.boundMessage "max_length" bound) "max_length")
  | none, some bound =>
    some (nonFieldRefusal nonFieldErrors (list.boundMessage "min_length" bound) "min_length")
  | none, none => none

/-- Rows validated as a list: the errors of one bound whole are left as DRF reported them, and keys
sent beside valid rows are refused. -/
def judged (arguments : List Value) (indices : List ℕ) (whole : Bool) (besideRows : List String) :
    ManyAnswer :=
  match list.isValid arguments with
  | .error errors =>
    ⟨.error (.invalidArguments (byRow errors indices)), if whole then some errors.detail else none⟩
  | .ok data =>
    if besideRows.isEmpty then ⟨.ok ⟨data.map spread, data⟩, none⟩
    else ⟨.error (.unexpected besideRows), none⟩

/-- `_rows_past_a_refusal`: the list sent is held to its bounds, the rows at the indices read. -/
def rowsPastARefusal (sent : List Value) (indices : List ℕ) : ManyAnswer :=
  match list.boundRefusal nonFieldErrors sent.length with
  | some refusal => ⟨.error (.invalidArguments refusal), some (.mapping refusal.entries)⟩
  | none =>
    match list.toInternalValue (indices.map fun index => sent.getD index .null) with
    | .error errors => ⟨.error (.invalidArguments (byRow errors indices)), none⟩
    | .ok data => ⟨.ok ⟨data.map spread, data⟩, none⟩

/-- The list serializer's errors for the rows of a list at some of its indices: of the list itself
where it is bound to every row, else of the rows it reads. -/
def errors? (sent : List Value) (indices : List ℕ) : Option ListErrors :=
  if indices = List.range sent.length then ListErrors.of? (list.isValid sent)
  else ListErrors.of? (list.toInternalValue (indices.map fun index => sent.getD index .null))

end ListSerializer

/-- The indices of the rows bound: every row of a live view's body, else those the kernel passed. -/
def ManyState.boundIndices (s : ManyState) (sent : List Value) (rows : List (ℕ × Value)) : List ℕ :=
  if s.bodyRows then List.range sent.length else rows.map (·.1)

/-- `validated_many`, of the rows the kernel passed by index. -/
def SerializerValidator.validatedMany (v : SerializerValidator) (list : ListSerializer)
    (nonFieldErrors : String) (s : ManyState) (context : ValidationContext)
    (rows : List (ℕ × Value)) : ManyAnswer :=
  match v.refusePartial context with
  | .error refusal => ⟨.error (.partialCall refusal), none⟩
  | .ok () =>
    match v.sentRows s with
    -- outside the edge call: the kernel's checked rows
    | none => list.judged (rows.map (·.2)) (rows.map (·.1)) false []
    | some sent =>
      let indices := s.boundIndices sent rows
      if indices = List.range sent.length then
        list.judged sent indices s.bodyRows s.besideRows
      else list.rowsPastARefusal nonFieldErrors sent indices

/-! ## What an edge call's rows are refused with -/

section
variable {list : ListSerializer} {nonFieldErrors : String}

/-- The errors are those of a list that was refused. -/
theorem ListErrors.of?_eq_some {α : Type*} {result : Except ListErrors α} {errors : ListErrors} :
    ListErrors.of? result = some errors ↔ result = .error errors := by
  cases result <;> simp [ListErrors.of?]

/-- The errors are of the rows at the indices. -/
theorem ListSerializer.errors?_of {sent : List Value} {indices : List ℕ} {errors : ListErrors}
    (h : list.errors? sent indices = some errors) : errors.Of indices.length := by
  rw [ListSerializer.errors?] at h
  split at h
  · next hevery =>
    rw [hevery, List.length_range]
    exact list.isValid_of _ _ (ListErrors.of?_eq_some.1 h)
  · have hof := list.toInternalValue_of _ _ (ListErrors.of?_eq_some.1 h)
    rwa [List.length_map] at hof

/-- A list's validation refuses its rows by the caller's indices. -/
theorem ListSerializer.refusal_judged (arguments : List Value) (indices : List ℕ) (whole : Bool)
    (besideRows : List String) :
    (list.judged arguments indices whole besideRows).refusal =
      (ListErrors.of? (list.isValid arguments)).map (byRow · indices) := by
  rw [judged]
  cases list.isValid arguments with
  | error errors => rfl
  | ok data => cases besideRows <;> rfl

/-- So does the reading of rows past a refusal, of a list within its bounds. -/
theorem ListSerializer.refusal_rowsPastARefusal {sent : List Value} (indices : List ℕ)
    (hbound : list.boundRefusal nonFieldErrors sent.length = none) :
    (list.rowsPastARefusal nonFieldErrors sent indices).refusal =
      (ListErrors.of? (list.toInternalValue
        (indices.map fun index => sent.getD index .null))).map (byRow · indices) := by
  rw [rowsPastARefusal, hbound]
  cases list.toInternalValue (indices.map fun index => sent.getD index .null) <;> rfl

/-- What is left of a list's validation is DRF's errors of a whole body. -/
theorem ListSerializer.rowErrors_judged {arguments : List Value} {indices : List ℕ} {whole : Bool}
    {besideRows : List String} {e : Detail ErrorDetail}
    (h : (list.judged arguments indices whole besideRows).rowErrors = some e) :
    whole = true ∧ ∃ errors, list.isValid arguments = .error errors ∧ e = errors.detail ∧
      (list.judged arguments indices whole besideRows).refusal = some (byRow errors indices) := by
  simp only [judged] at h ⊢
  cases hvalid : list.isValid arguments with
  | error errors =>
    simp only [hvalid] at h
    split at h
    · next hwhole =>
      cases h
      exact ⟨hwhole, errors, rfl, rfl, rfl⟩
    · cases h
  | ok data =>
    simp only [hvalid] at h
    split at h <;> cases h

/-- What is left of the rows past a refusal is the list's bound. -/
theorem ListSerializer.rowErrors_rowsPastARefusal {sent : List Value} {indices : List ℕ}
    {e : Detail ErrorDetail}
    (h : (list.rowsPastARefusal nonFieldErrors sent indices).rowErrors = some e) :
    ∃ refusal, list.boundRefusal nonFieldErrors sent.length = some refusal ∧
      e = .mapping refusal.entries ∧
      (list.rowsPastARefusal nonFieldErrors sent indices).refusal = some refusal := by
  simp only [rowsPastARefusal] at h ⊢
  cases hbound : list.boundRefusal nonFieldErrors sent.length with
  | some refusal =>
    simp only [hbound] at h
    cases h
    exact ⟨refusal, rfl, rfl, rfl⟩
  | none =>
    simp only [hbound] at h
    split at h <;> cases h

variable {v : SerializerValidator} {s : ManyState} {context : ValidationContext}
  {sent : List Value} {rows : List (ℕ × Value)}

/-- The two ways the rows of an edge call are validated. -/
theorem validatedMany_of_sent (hcontext : v.refusePartial context = .ok ())
    (hsent : v.sentRows s = some sent) :
    v.validatedMany list nonFieldErrors s context rows =
      if s.boundIndices sent rows = List.range sent.length then
        list.judged sent (s.boundIndices sent rows) s.bodyRows s.besideRows
      else list.rowsPastARefusal nonFieldErrors sent (s.boundIndices sent rows) := by
  simp only [SerializerValidator.validatedMany, hcontext, hsent]

/-- Where it leaves nothing for the edge, an edge call refuses the rows as the list serializer does, by
the caller's indices. -/
theorem refusal_validatedMany (hcontext : v.refusePartial context = .ok ())
    (hsent : v.sentRows s = some sent)
    (hnone : (v.validatedMany list nonFieldErrors s context rows).rowErrors = none) :
    (v.validatedMany list nonFieldErrors s context rows).refusal =
      (list.errors? sent (s.boundIndices sent rows)).map (byRow · (s.boundIndices sent rows)) := by
  rw [validatedMany_of_sent hcontext hsent] at hnone ⊢
  rw [ListSerializer.errors?]
  split
  · exact ListSerializer.refusal_judged ..
  · next hevery =>
    rw [if_neg hevery] at hnone
    refine ListSerializer.refusal_rowsPastARefusal _ ?_
    cases hbound : list.boundRefusal nonFieldErrors sent.length with
    | none => rfl
    | some refusal =>
      rw [ListSerializer.rowsPastARefusal, hbound] at hnone
      cases hnone

/-- What it leaves for the edge is DRF's errors of a live view's whole body, or the refusal of a list
out of its bounds; and it refuses the rows. -/
theorem rowErrors_validatedMany (hcontext : v.refusePartial context = .ok ())
    (hsent : v.sentRows s = some sent) {e : Detail ErrorDetail}
    (h : (v.validatedMany list nonFieldErrors s context rows).rowErrors = some e) :
    (v.validatedMany list nonFieldErrors s context rows).refusal.isSome ∧
      ((s.bodyRows = true ∧ ∃ errors, list.isValid sent = .error errors ∧ e = errors.detail) ∨
        ∃ refusal, list.boundRefusal nonFieldErrors sent.length = some refusal ∧
          e = .mapping refusal.entries) := by
  rw [validatedMany_of_sent hcontext hsent] at h ⊢
  split at h
  · next hevery =>
    obtain ⟨hwhole, errors, hvalid, he, hrefusal⟩ := ListSerializer.rowErrors_judged h
    rw [if_pos hevery, hrefusal]
    exact ⟨rfl, .inl ⟨hwhole, errors, hvalid, he⟩⟩
  · next hevery =>
    obtain ⟨refusal, hbound, he, hrefusal⟩ := ListSerializer.rowErrors_rowsPastARefusal h
    rw [if_neg hevery, hrefusal]
    exact ⟨rfl, .inr ⟨refusal, hbound, he⟩⟩

/-- A live view's body that leaves nothing for the edge has no errors. -/
theorem errors?_of_bodyRows (hcontext : v.refusePartial context = .ok ())
    (hsent : v.sentRows s = some sent) (hbody : s.bodyRows = true)
    (hnone : (v.validatedMany list nonFieldErrors s context rows).rowErrors = none) :
    list.errors? sent (s.boundIndices sent rows) = none := by
  have hevery : s.boundIndices sent rows = List.range sent.length := if_pos hbody
  rw [validatedMany_of_sent hcontext hsent, if_pos hevery, ListSerializer.judged] at hnone
  rw [ListSerializer.errors?, if_pos hevery]
  cases hvalid : list.isValid sent with
  | ok data => rfl
  | error errors =>
    rw [hvalid] at hnone
    simp [hbody] at hnone

/-- Keys beside the rows are refused where every row is bound and valid. -/
theorem validatedMany_eq_unexpected (hcontext : v.refusePartial context = .ok ())
    (hsent : v.sentRows s = some sent) {names : List String}
    (h : (v.validatedMany list nonFieldErrors s context rows).result = .error (.unexpected names)) :
    s.boundIndices sent rows = List.range sent.length ∧ s.besideRows ≠ [] ∧
      list.errors? sent (s.boundIndices sent rows) = none := by
  rw [validatedMany_of_sent hcontext hsent] at h
  rw [ListSerializer.errors?]
  split at h
  · next hevery =>
    rw [if_pos hevery]
    rw [ListSerializer.judged] at h
    cases hvalid : list.isValid sent with
    | error errors =>
      rw [hvalid] at h
      cases h
    | ok data =>
      rw [hvalid] at h
      cases hbeside : s.besideRows with
      | nil =>
        rw [hbeside] at h
        cases h
      | cons name names => exact ⟨hevery, List.cons_ne_nil _ _, rfl⟩
  · rw [ListSerializer.rowsPastARefusal] at h
    split at h
    · cases h
    · split at h <;> cases h

/-- No edge call is refused as partial that the Validator supports. -/
theorem validatedMany_ne_partialCall (hcontext : v.refusePartial context = .ok ())
    (hsent : v.sentRows s = some sent) (refusal : Refusal) :
    (v.validatedMany list nonFieldErrors s context rows).result ≠ .error (.partialCall refusal) := by
  rw [validatedMany_of_sent hcontext hsent]
  split
  · rw [ListSerializer.judged]
    split
    · rintro ⟨⟩
    · split <;> rintro ⟨⟩
  · rw [ListSerializer.rowsPastARefusal]
    split
    · rintro ⟨⟩
    · split <;> rintro ⟨⟩

/-- It leaves nothing of rows that are no live view's body, where the list sent is within its bounds. -/
theorem rowErrors_eq_none (hcontext : v.refusePartial context = .ok ())
    (hsent : v.sentRows s = some sent) (hbody : s.bodyRows = false)
    (hbound : list.boundRefusal nonFieldErrors sent.length = none) :
    (v.validatedMany list nonFieldErrors s context rows).rowErrors = none := by
  rw [Option.eq_none_iff_forall_ne_some]
  intro e he
  obtain ⟨-, ⟨hwhole, -⟩ | ⟨refusal, hrefusal, -⟩⟩ := rowErrors_validatedMany hcontext hsent he
  · rw [hbody] at hwhole
    cases hwhole
  · rw [hbound] at hrefusal
    cases hrefusal

end

end RestFrameworkServices
