import RestFrameworkServices.ServiceSpecs.ManyRows
import Mathlib.Data.List.Sort

/-!
# A refusal of rows on its way out of the edge

The kernel refuses a `many` call's rows by index under `many_argument`, its shape check's refusals
beside the Validator's. `edge_errors` rewords an undeclared key's (`rewordUnknown`) and those of a row
that is no object (`rowsAsDrf`), puts what the list serializer left for it in their place, and lays
rows that were sent bare out as a list of an entry per row (`bareRowsError`).

`RowsCall.left` is what leaves the edge for a call. `RowsCall.row_errors_keep_indices` reads it by the
indices of the list sent.
-/

namespace RestFrameworkServices

open Lib

/-! ## Undeclared keys -/

/-- The kernel's parameters, by name, each with those of its rows where it is an array of objects. -/
inductive Parameters where
  | mk (entries : List (String × Option Parameters))

namespace Parameters

/-- The parameters in order. -/
def entries : Parameters → List (String × Option Parameters)
  | mk entries => entries

/-- A key of a refusal is a parameter's name. -/
def declares (parameters : Parameters) : Key → Bool
  | .name s => s ∈ keysOf parameters.entries
  | .row _ => false

/-- `parameters.get(key).items`, where it is the parameters of rows. -/
def items? (parameters : Parameters) : Key → Option Parameters
  | .name s => (parameters.entries.lookup s).join
  | .row _ => none

end Parameters

/-- `str` of a key. -/
def Key.text : Key → String
  | .name s => s
  | .row i => toString i

/-- `_only_unknown`: each error of a list of them is an unknown key's; a mapping's keys and a message's
characters carry no code. -/
def onlyUnknown : Detail ErrorDetail → Bool
  | .rows items => items.all fun
    | .message m => m.code == "unknown"
    | .mapping _ | .rows _ => false
  | .mapping entries => entries.isEmpty
  | .message m => m.text == ""

/-- `[*errors]`. -/
def spreadErrors : Detail ErrorDetail → List (Detail ErrorDetail)
  | .rows items => items
  | .mapping entries => entries.map fun e => .message ⟨e.1.text, "invalid"⟩
  | .message m => m.text.toList.map fun c => .message ⟨c.toString, "invalid"⟩

/-- The message that names unexpected arguments, in order. -/
def unexpectedMessage (names : List String) : ErrorDetail :=
  let names := (names.insertionSort (· ≤ ·)).map reprString
  ⟨"Unexpected argument(s): " ++ String.intercalate ", " names ++ ".", "invalid"⟩

section
variable (nonFieldErrors : String)

/-- A key refused only as unknown that is no parameter's. -/
def isUnknown (parameters : Parameters) (e : Key × Detail ErrorDetail) : Bool :=
  !parameters.declares e.1 && e.1 != .name nonFieldErrors && onlyUnknown e.2

/-- The last step of `_reword_unknown`: the unknown keys of a level as one message. -/
def withUnexpected (parameters : Parameters) (detail reworded : List (Key × Detail ErrorDetail)) :
    List (Key × Detail ErrorDetail) :=
  let unknown := detail.filter (isUnknown nonFieldErrors parameters)
  if unknown.isEmpty then reworded
  else
    let held := (reworded.lookup (.name nonFieldErrors)).getD (.rows [])
    assign (.name nonFieldErrors)
      (.rows (spreadErrors held ++ [.message (unexpectedMessage (unknown.map (·.1.text)))]))
      reworded

mutual

/-- A row's refusal reworded, where it is a mapping. -/
def rewordedRow (rows : Parameters) : Detail ErrorDetail → Detail ErrorDetail
  | .mapping entries => .mapping (withUnexpected nonFieldErrors rows entries
    (rewordedEntries rows entries))
  | .rows items => .rows items
  | .message m => .message m

/-- The keys of a level that keep their own errors. -/
def rewordedEntries (parameters : Parameters) :
    List (Key × Detail ErrorDetail) → List (Key × Detail ErrorDetail)
  | [] => []
  | (name, errors) :: entries =>
    if isUnknown nonFieldErrors parameters (name, errors) then rewordedEntries parameters entries
    else
      let errors := match parameters.items? name with
        | some rows => rewordedRows rows errors
        | none => errors
      (name, errors) :: rewordedEntries parameters entries

/-- The rows of a declared array of objects, refused by index. -/
def rewordedRows (rows : Parameters) : Detail ErrorDetail → Detail ErrorDetail
  | .mapping entries => .mapping (rewordedEach rows entries)
  | .rows items => .rows items
  | .message m => .message m

/-- Each of them. -/
def rewordedEach (rows : Parameters) :
    List (Key × Detail ErrorDetail) → List (Key × Detail ErrorDetail)
  | [] => []
  | (index, row) :: entries => (index, rewordedRow rows row) :: rewordedEach rows entries

end

/-- `_reword_unknown`. -/
def rewordUnknown (parameters : Parameters) (detail : List (Key × Detail ErrorDetail)) :
    List (Key × Detail ErrorDetail) :=
  withUnexpected nonFieldErrors parameters detail
    (rewordedEntries nonFieldErrors parameters detail)

variable {nonFieldErrors}

/-- The loop rewords each row. -/
theorem rewordedEach_eq_map (rows : Parameters) : ∀ entries : List (Key × Detail ErrorDetail),
    rewordedEach nonFieldErrors rows entries =
      entries.map fun e => (e.1, rewordedRow nonFieldErrors rows e.2)
  | [] => by rw [rewordedEach, List.map_nil]
  | (index, row) :: entries => by
    rw [rewordedEach, rewordedEach_eq_map rows entries, List.map_cons]

/-- What is under a key that is kept: the rows of a declared array of objects, reworded. -/
def rewordedBelow (nonFieldErrors : String) (parameters : Parameters) (name : Key)
    (errors : Detail ErrorDetail) : Detail ErrorDetail :=
  match parameters.items? name with
  | some rows => rewordedRows nonFieldErrors rows errors
  | none => errors

/-- A level whose keys are all known keeps them all. -/
theorem rewordedEntries_of_known {parameters : Parameters} :
    ∀ {detail : List (Key × Detail ErrorDetail)},
      (∀ e ∈ detail, isUnknown nonFieldErrors parameters e = false) →
      rewordedEntries nonFieldErrors parameters detail =
        detail.map fun e => (e.1, rewordedBelow nonFieldErrors parameters e.1 e.2)
  | [], _ => by rw [rewordedEntries, List.map_nil]
  | (name, errors) :: detail, h => by
    rw [List.forall_mem_cons] at h
    rw [rewordedEntries, h.1, if_neg Bool.false_ne_true, rewordedEntries_of_known h.2,
      List.map_cons]
    rfl

/-- So does one whose keys are all declared. -/
theorem rewordUnknown_of_declared {parameters : Parameters}
    {detail : List (Key × Detail ErrorDetail)} (h : ∀ e ∈ detail, parameters.declares e.1 = true) :
    rewordUnknown nonFieldErrors parameters detail =
      detail.map fun e => (e.1, rewordedBelow nonFieldErrors parameters e.1 e.2) := by
  have hknown : ∀ e ∈ detail, isUnknown nonFieldErrors parameters e = false := by
    intro e he
    rw [isUnknown, h e he]
    rfl
  have hnone : detail.filter (isUnknown nonFieldErrors parameters) = [] :=
    List.filter_eq_nil_iff.2 fun e he => by simp [hknown e he]
  rw [rewordUnknown, withUnexpected, hnone]
  exact rewordedEntries_of_known hknown

/-- A reworded row has errors where the row had. -/
theorem truthy_rewordedRow {rows : Parameters} {row : Detail ErrorDetail}
    (h : row.truthy = true) : (rewordedRow nonFieldErrors rows row).truthy = true := by
  cases row with
  | rows items => rwa [rewordedRow]
  | message m => rwa [rewordedRow]
  | mapping entries =>
    cases entries with
    | nil => cases h
    | cons e entries =>
      have hne : withUnexpected nonFieldErrors rows (e :: entries)
          (rewordedEntries nonFieldErrors rows (e :: entries)) ≠ [] := by
        rw [withUnexpected]
        split
        · next hnone =>
          -- no key is unknown, so the first keeps its entry
          have hfirst : isUnknown nonFieldErrors rows e = false := by
            simpa using (List.filter_eq_nil_iff.1 (List.isEmpty_iff.1 hnone)) e
              List.mem_cons_self
          rw [rewordedEntries, hfirst, if_neg Bool.false_ne_true]
          exact List.cons_ne_nil _ _
        · exact assign_ne_nil _ _ _
      rw [rewordedRow, Detail.truthy, Bool.not_eq_true', List.isEmpty_eq_false_iff]
      exact hne

end

/-! ## Rows that are no object -/

section
variable (nonFieldErrors : String) (typeName : Value → String)

/-- `_row_as_drf`, of a row's type as it names itself. -/
def rowAsDrf : Value → Detail ErrorDetail
  | .null => .rows [.message ⟨"This field may not be null.", "null"⟩]
  | row => .mapping [(.name nonFieldErrors, .rows [.message
    ⟨"Invalid data. Expected a dictionary, but got " ++ typeName row ++ ".", "invalid"⟩])]

/-- A row's errors, in DRF's words where the row sent is no object (`_no_object_row`). -/
def errorsAsDrf (sent : List Value) (e : Key × Detail ErrorDetail) : Detail ErrorDetail :=
  match e.1 with
  | .row index =>
    match sent[index.toNat]? with
    | some row => if row.isMapping then e.2 else rowAsDrf nonFieldErrors typeName row
    | none => e.2
  | .name _ => e.2

/-- `_rows_as_drf`, of the rows sent under an argument or as the arguments themselves. -/
def rowsAsDrf (argument : String) (sent : List Value) (detail : List (Key × Detail ErrorDetail)) :
    List (Key × Detail ErrorDetail) :=
  match detail.lookup (.name argument) with
  | some (.mapping rows) =>
    assign (.name argument)
      (.mapping (rows.map fun e => (e.1, errorsAsDrf nonFieldErrors typeName sent e))) detail
  | some (.rows _) | some (.message _) | none => detail

/-- A key is a row's index. -/
def Key.isRow : Key → Bool
  | .row _ => true
  | .name _ => false

/-- The errors of rows that were sent bare: an entry per row sent where only rows were refused. -/
def bareRows (count : ℕ) (rows : List (Key × Detail ErrorDetail)) : Detail ErrorDetail :=
  if (keysOf rows).all (·.isRow) then
    .rows ((List.range count).map fun index => (rows.lookup (.row index)).getD (.mapping []))
  else .mapping rows

/-- `_bare_rows_error`, of a list of so many rows: the detail of the rows alone. -/
def bareRowsError (detail : List (Key × Detail ErrorDetail)) (argument : String) (count : ℕ)
    (rowErrors : Option (Detail ErrorDetail)) : Option (Detail ErrorDetail) :=
  match detail with
  | [(key, rows)] =>
    if key = .name argument then
      some <| rowErrors.getD <|
        match rows with
        | .mapping rows => bareRows count rows
        | .rows items => .mapping [(.name nonFieldErrors, .rows items)]
        | .message m => .mapping [(.name nonFieldErrors, .message m)]
    else none
  | _ => none

variable {nonFieldErrors typeName}

/-- A row's errors in DRF's words are errors. -/
theorem truthy_errorsAsDrf {sent : List Value} {e : Key × Detail ErrorDetail}
    (h : e.2.truthy = true) : (errorsAsDrf nonFieldErrors typeName sent e).truthy = true := by
  rw [errorsAsDrf]
  split
  · split
    · next row _ =>
      split
      · exact h
      · cases row <;> rfl
    · exact h
  · exact h

end

/-! ## What leaves the edge -/

/-- What of a `many` spec and its compiled variant the edge reads: the rows' argument, the rows'
parameters, the declared reads beside them, and the wire names of its input serializer. -/
structure ManySpec where
  manyArgument : String
  rowParameters : Parameters
  reads : List (String × Option Parameters)
  wireNames : Option WireNames

/-- `variant.parameters()`. -/
def ManySpec.parameters (spec : ManySpec) : Parameters :=
  .mk ((spec.manyArgument, some spec.rowParameters) :: spec.reads)

/-- A refusal of a call as it leaves the edge: `InvalidArguments`, DRF's `ValidationError` of rows that
were sent bare, or another exception. -/
inductive Left where
  | invalidArguments (detail : Detail ErrorDetail)
  | validationError (detail : Detail ErrorDetail)
  | other (e : Exc ErrorDetail)

namespace Left

/-- The answer for the rows: what is under their argument, or the whole refusal of rows sent bare. -/
def rows? (argument : String) : Left → Option (Detail ErrorDetail)
  | invalidArguments (.mapping detail) => detail.lookup (.name argument)
  | invalidArguments _ | other _ => none
  | validationError detail => some detail

end Left

/-- The errors a detail of rows holds for the row at an index, in either shape. -/
def Detail.errorsAt (index : ℕ) : Detail ErrorDetail → Option (Detail ErrorDetail)
  | .mapping held => (held.lookup (.row index)).filter (·.truthy)
  | .rows items => items[index]?.filter (·.truthy)
  | .message _ => none

/-- The errors a detail of rows holds under a name. -/
def Detail.errorsUnder (name : String) : Detail ErrorDetail → Option (Detail ErrorDetail)
  | .mapping held => held.lookup (.name name)
  | .rows _ | .message _ => none

/-- DRF's errors of so many rows hold each row's at its position, in either shape. -/
theorem ListErrors.Of.errorsAt_detail {errors : ListErrors} {count : ℕ} (h : errors.Of count)
    (index : ℕ) : errors.detail.errorsAt index = errors.byKey.get? (.row index) := by
  cases errors with
  | listed items => exact (ListErrors.get?_byKey_listed items index).symm
  | mapped entries =>
    show (entries.get? (.row index)).filter (·.truthy) = entries.get? (.row index)
    cases hrow : entries.get? (.row index) with
    | none => rfl
    | some row => exact Option.filter_eq_some_iff.2 ⟨rfl, h.truthy _ _ hrow⟩

section
variable (C : Constructors ErrorDetail) (nonFieldErrors : String) (typeName : Value → String)
  (spec : ManySpec)

/-- The `InvalidArguments` arm of `edge_errors`, for the rows sent. No filter's refusal is flattened
(`_filter_errors_flat`), since a `many` spec has no target lookup. -/
def argumentsLeft (sent : List Value) (asArgument : Bool) (rowErrors : Option (Detail ErrorDetail))
    (detail : List (Key × Detail ErrorDetail)) : Left :=
  let detail := rowsAsDrf nonFieldErrors typeName spec.manyArgument sent
    (rewordUnknown nonFieldErrors spec.parameters detail)
  let detail := match rowErrors with
    | some errors => assign (.name spec.manyArgument) errors detail
    | none => detail
  let unwrapped :=
    if asArgument then none
    else bareRowsError nonFieldErrors detail spec.manyArgument sent.length rowErrors
  match unwrapped with
  | some rows => .validationError (C.drfDetail rows)
  | none => .invalidArguments (C.drfDetail (C.argumentsDetail (.mapping detail)))

/-- `edge_errors`, around a call of rows: what the kernel raised leaves reshaped where it is a refusal
of the arguments, which is always a mapping. -/
def rowsLeft (sent : List Value) (asArgument : Bool) (rowErrors : Option (Detail ErrorDetail))
    (e : Exc ErrorDetail) : Left :=
  match edgeErrors spec.wireNames (Thrown.raise (C := C) e) with
  | .raised e => .other e
  | .arguments e =>
    match e.detail with
    | .mapping detail => argumentsLeft C nonFieldErrors typeName spec sent asArgument rowErrors detail
    | detail => .invalidArguments detail

end

/-! ## A call of rows -/

/-- `without_seed_names` of a row. -/
def withoutSeedNames (reserved : List String) : Value → Value
  | .mapping mutable entries => .mapping mutable (entries.filter fun e => e.1 ∉ reserved)
  | row => row

/-- The server's keys over a row that is an object. -/
def withServer (server : Dict String Value) : Value → Value
  | .mapping mutable entries =>
    if server.entries.isEmpty then .mapping mutable entries
    else .mapping true (ofPairs (entries ++ server.entries))
  | row => row

/-- A `many` call: the rows sent, themselves or under their argument, over a live view or off HTTP; the
keys sent beside them that are no parameter's; the server's keys and the seeds' names; and the
Validator, with the list serializer it binds, which can validate a partial call where the call is
one, or the spec would not compile for it. -/
structure RowsCall where
  rows : List Value
  asArgument : Bool
  overHttp : Bool
  sentBeside : List String
  server : Dict String Value
  reserved : List String
  context : ValidationContext
  validator : SerializerValidator
  list : ListSerializer
  supported : context.partialCall = true → validator.supportsPartial = true

/-- What the kernel's shape check makes of rows, where it reads them: what it refuses beside them, which
is a declared read; the rows it refuses, by index, each with errors and every row that is no object
among them; what it passes of the others; and whether it asks the Validator about those. -/
structure Checked (spec : ManySpec) (rows : List Value) where
  beside : Dict String (Detail ErrorDetail)
  refused : Dict ℕ (Detail ErrorDetail)
  passed : ℕ → Value
  asks : Bool
  declared : ∀ name ∈ beside, name ∈ keysOf spec.reads
  distinct : spec.manyArgument ∉ beside
  within : ∀ index ∈ refused, index < rows.length
  noObject : ∀ index row, rows[index]? = some row → row.isMapping = false → index ∈ refused
  truthy : ∀ index errors, refused.get? index = some errors → errors.truthy = true

/-- The kernel's refusal of a call, of what it refused beside the rows, the rows it refused and the
Validator's refusal, where it has one: nothing where there is none of these, else a mapping, in which
the rows stand under their argument, the Validator's beside the shape check's. -/
structure RowsKernel where
  raised : String → Dict String (Detail ErrorDetail) → Dict ℕ (Detail ErrorDetail) →
    Option (Dict Key (Detail ErrorDetail)) → Option (Dict Key (Detail ErrorDetail))
  accepts : ∀ argument beside refused validator,
    raised argument beside refused validator = none →
      (∀ index, index ∉ refused) ∧ validator = none
  beside : ∀ argument beside refused validator detail,
    raised argument beside refused validator = some detail →
      (∀ name ≠ argument, detail.get? (.name name) = beside.get? name) ∧
        ∀ index, detail.get? (.row index) = none
  noRows : ∀ argument beside refused detail,
    raised argument beside refused none = some detail → argument ∉ beside →
      (∀ index, index ∉ refused) → detail.get? (.name argument) = none
  rows : ∀ argument beside refused validator detail,
    raised argument beside refused validator = some detail →
      (∃ index, index ∈ refused) ∨ validator.isSome →
      ∃ rows, detail.get? (.name argument) = some (.mapping rows) ∧
        (∀ index : ℕ, validator.bind (·.get? (.row index)) = none →
          rows.lookup (.row index) = refused.get? index) ∧
        (∀ index : ℕ, refused.get? index = none →
          rows.lookup (.row index) = validator.bind (·.get? (.row index))) ∧
        ∀ name, rows.lookup (.name name) = validator.bind (·.get? (.name name))

/-- A refusal of `_refuse_partial`. -/
def partialExc : Refusal → Exc ErrorDetail
  | .improperlyConfigured message =>
    ⟨.author "ImproperlyConfigured" [], none, none, .message ⟨message, "error"⟩⟩
  | .invalidArguments detail =>
    ⟨.named .invalidArguments, Base.invalidArguments.status, none, detail⟩

namespace RowsCall

section
variable (call : RowsCall)

/-- The rows the kernel is handed: no seed's name in any, the server's keys over each. -/
def arguments : List Value :=
  call.rows.map fun row => withServer call.server (withoutSeedNames call.reserved row)

/-- The rows the serializer binds: the ones sent, the server's keys over each. -/
def body : List Value := call.rows.map (withServer call.server)

/-- What the edge holds for the call. Nothing is beside rows sent as the arguments themselves, which
`edge_arguments` adds declared reads to alone. -/
def state : ManyState where
  validatorInput := some (call.validator.id, call.body)
  bodyRows := call.overHttp && !call.asArgument
  besideRows := if call.asArgument then call.sentBeside.insertionSort (· ≤ ·) else []

variable {spec : ManySpec} (checked : Checked spec call.arguments)

/-- The rows the kernel passes. -/
def passedRows : List (ℕ × Value) :=
  ((List.range call.rows.length).filter (· ∉ checked.refused)).map fun index =>
    (index, checked.passed index)

/-- The indices of the rows the list serializer is bound to. -/
def indices : List ℕ := call.state.boundIndices call.body (call.passedRows checked)

variable (nonFieldErrors : String)

/-- What the Validator answers, where it is asked. -/
def answer : Option ManyAnswer :=
  if checked.asks then
    some (call.validator.validatedMany call.list nonFieldErrors call.state call.context
      (call.passedRows checked))
  else none

/-- `row_errors`, as the call leaves it. -/
def rowErrors : Option (Detail ErrorDetail) :=
  (call.answer checked nonFieldErrors).bind (·.rowErrors)

variable (kernel : RowsKernel) (C : Constructors ErrorDetail)

/-- What the kernel's dispatch raises, if anything: what the Validator raises that is no refusal of the
rows, or the kernel's refusal. -/
def raised : Option (Exc ErrorDetail) :=
  match (call.answer checked nonFieldErrors).map ManyAnswer.result with
  | some (.error (.partialCall refusal)) => some (partialExc refusal)
  | some (.error (.unexpected names)) =>
    some ⟨.named .validationError, Base.validationError.status, none,
      C.drfDetail (.mapping [(.name nonFieldErrors, .rows [.message (unexpectedMessage names)])])⟩
  | some (.error (.invalidArguments _)) | some (.ok _) | none =>
    (kernel.raised spec.manyArgument checked.beside checked.refused
      ((call.answer checked nonFieldErrors).bind (·.refusal))).map fun detail =>
        ⟨.named .kernelInvalidArguments, none, some (C.kernelMessage none),
          C.argumentsDetail (.mapping detail.entries)⟩

variable (typeName : Value → String)

/-- What leaves the edge for the call, if it is refused. -/
def left : Option Left :=
  (call.raised checked nonFieldErrors kernel C).map
    (rowsLeft C nonFieldErrors typeName spec call.rows call.asArgument
      (call.rowErrors checked nonFieldErrors))

/-- The answer for the call's rows. -/
def rowsAnswer : Option (Detail ErrorDetail) :=
  (call.left checked nonFieldErrors kernel C typeName).bind (·.rows? spec.manyArgument)

/-- The list serializer's errors for the rows it is bound to. -/
def listErrors : Option ListErrors :=
  if checked.asks then call.list.errors? call.body (call.indices checked) else none

/-- What a row is refused with, by its index in the list sent: by the kernel's shape check, or by the
list serializer at the row's position among those it is bound to. -/
def refusedWith (index : ℕ) : Option (Detail ErrorDetail) :=
  (checked.refused.get? index).or <| (call.listErrors checked).bind fun errors =>
    ((call.indices checked).idxOf? index).bind fun position => errors.byKey.get? (.row position)

end

end RowsCall

/-! ## Rows in either shape -/

section
variable {rows : List (Key × Detail ErrorDetail)} {count : ℕ}

/-- Rows laid out in order hold each row's errors at its index. -/
theorem errorsAt_bareRows
    (hwithin : ∀ index : ℕ, (rows.lookup (.row index)).isSome → index < count) (index : ℕ) :
    (bareRows count rows).errorsAt index = (Detail.mapping rows).errorsAt index := by
  rw [bareRows]
  split
  · rw [Detail.errorsAt, Detail.errorsAt, List.getElem?_map]
    by_cases hindex : index < count
    · rw [List.getElem?_range hindex, Option.map_some]
      cases rows.lookup (.row index) <;> rfl
    · have hnone : rows.lookup (.row index) = none := by
        rw [← Option.not_isSome_iff_eq_none]
        exact fun hsome => hindex (hwithin index hsome)
      rw [List.getElem?_eq_none (by simpa using hindex), hnone]
      rfl
  · rfl

/-- They have no refusal under a name. -/
theorem errorsUnder_bareRows (name : String) :
    (bareRows count rows).errorsUnder name = (Detail.mapping rows).errorsUnder name := by
  rw [bareRows]
  split
  · next hrows =>
    have hnone : rows.lookup (.name name) = none := by
      rw [lookup_eq_none_iff_notMem]
      exact fun hmem => Bool.false_ne_true (List.all_eq_true.1 hrows _ hmem)
    rw [Detail.errorsUnder, Detail.errorsUnder, hnone]
  · rfl

/-- Only a refusal of the rows alone is unwrapped. -/
theorem bareRowsError_eq_some {nonFieldErrors argument : String}
    {detail : List (Key × Detail ErrorDetail)} {rowErrors : Option (Detail ErrorDetail)}
    {answer : Detail ErrorDetail}
    (h : bareRowsError nonFieldErrors detail argument count rowErrors = some answer) :
    ∃ refused, detail = [(.name argument, refused)] ∧
      (∀ errors, rowErrors = some errors → answer = errors) ∧
      ∀ rows, rowErrors = none → refused = .mapping rows → answer = bareRows count rows := by
  match detail, h with
  | [(key, refused)], h =>
    simp only [bareRowsError] at h
    split at h
    · next hkey =>
      cases h
      refine ⟨refused, by rw [hkey], fun errors he => by rw [he]; rfl, fun rows hnone hrows => ?_⟩
      rw [hnone, hrows]
      rfl
    · cases h

end

/-! ## The arm of `InvalidArguments` -/

/-- DRF's constructors and the kernel's keep a detail whose messages are `ErrorDetail`s: a mapping, or
a list. -/
structure Constructors.KeepsDetail (C : Constructors ErrorDetail) : Prop where
  arguments : ∀ entries, C.argumentsDetail (.mapping entries) = .mapping entries
  drf_mapping : ∀ entries, C.drfDetail (.mapping entries) = .mapping entries
  drf_rows : ∀ items, C.drfDetail (.rows items) = .rows items

section
variable {C : Constructors ErrorDetail} {nonFieldErrors : String} {typeName : Value → String}
  {spec : ManySpec}

/-- What a row's errors leave as, of the row at an index of the list sent. -/
def rowLeft (nonFieldErrors : String) (typeName : Value → String) (spec : ManySpec)
    (sent : List Value) (index : ℕ) (errors : Detail ErrorDetail) : Detail ErrorDetail :=
  errorsAsDrf nonFieldErrors typeName sent
    (.row index, rewordedRow nonFieldErrors spec.rowParameters errors)

/-- A row's errors leave as errors. -/
theorem truthy_rowLeft {sent : List Value} {index : ℕ} {errors : Detail ErrorDetail}
    (h : errors.truthy = true) :
    (rowLeft nonFieldErrors typeName spec sent index errors).truthy = true :=
  truthy_errorsAsDrf (truthy_rewordedRow h)

/-- The rows of a refusal, reworded and in DRF's words. -/
def rowsReshaped (nonFieldErrors : String) (typeName : Value → String) (spec : ManySpec)
    (sent : List Value) (rows : List (Key × Detail ErrorDetail)) : List (Key × Detail ErrorDetail) :=
  rows.map fun e => (e.1, errorsAsDrf nonFieldErrors typeName sent
    (e.1, rewordedRow nonFieldErrors spec.rowParameters e.2))

/-- Under a row's index stands what the reshaping leaves of the row. -/
theorem lookup_rowsReshaped_row (sent : List Value) (rows : List (Key × Detail ErrorDetail))
    (index : ℕ) : (rowsReshaped nonFieldErrors typeName spec sent rows).lookup (.row index) =
      (rows.lookup (.row index)).map (rowLeft nonFieldErrors typeName spec sent index) :=
  lookup_map_entries (fun key errors => errorsAsDrf nonFieldErrors typeName sent
    (key, rewordedRow nonFieldErrors spec.rowParameters errors)) _ rows

/-- Under a name stands what the name held, reworded. -/
theorem lookup_rowsReshaped_name (sent : List Value) (rows : List (Key × Detail ErrorDetail))
    (name : String) : (rowsReshaped nonFieldErrors typeName spec sent rows).lookup (.name name) =
      (rows.lookup (.name name)).map (rewordedRow nonFieldErrors spec.rowParameters) :=
  lookup_map_entries (fun key errors => errorsAsDrf nonFieldErrors typeName sent
    (key, rewordedRow nonFieldErrors spec.rowParameters errors)) _ rows

variable {sent : List Value} {detail rows : List (Key × Detail ErrorDetail)}

variable (nonFieldErrors typeName sent) in
/-- The rows under their argument, reshaped. -/
theorem lookup_reshaped (hdeclared : ∀ e ∈ detail, spec.parameters.declares e.1 = true)
    (hrows : detail.lookup (.name spec.manyArgument) = some (.mapping rows)) :
    (rowsAsDrf nonFieldErrors typeName spec.manyArgument sent
      (rewordUnknown nonFieldErrors spec.parameters detail)).lookup (.name spec.manyArgument) =
        some (.mapping (rowsReshaped nonFieldErrors typeName spec sent rows)) := by
  have hitems : spec.parameters.items? (.name spec.manyArgument) = some spec.rowParameters := by
    simp [Parameters.items?, ManySpec.parameters, Parameters.entries]
  have hreworded : (rewordUnknown nonFieldErrors spec.parameters detail).lookup
      (.name spec.manyArgument) = some (.mapping (rows.map fun e =>
        (e.1, rewordedRow nonFieldErrors spec.rowParameters e.2))) := by
    rw [rewordUnknown_of_declared hdeclared,
      lookup_map_entries (rewordedBelow nonFieldErrors spec.parameters), hrows, Option.map_some,
      rewordedBelow, hitems]
    dsimp only
    rw [rewordedRows, rewordedEach_eq_map]
  rw [rowsAsDrf, hreworded]
  dsimp only
  rw [lookup_assign, if_pos rfl, List.map_map]
  rfl

variable (nonFieldErrors typeName sent) in
/-- No key is added or lost. -/
theorem keysOf_reshaped (hdeclared : ∀ e ∈ detail, spec.parameters.declares e.1 = true) :
    keysOf (rowsAsDrf nonFieldErrors typeName spec.manyArgument sent
      (rewordUnknown nonFieldErrors spec.parameters detail)) = keysOf detail := by
  have hreworded : keysOf (rewordUnknown nonFieldErrors spec.parameters detail) = keysOf detail := by
    rw [rewordUnknown_of_declared hdeclared]
    simp [keysOf, List.map_map, Function.comp_def]
  rw [rowsAsDrf]
  split
  · next hlookup =>
    have hmem := isSome_lookup_iff.1 (Option.isSome_of_eq_some hlookup)
    rw [keysOf_assign_of_mem hmem, hreworded]
  all_goals exact hreworded

variable (nonFieldErrors typeName sent) in
/-- No rows are added. -/
theorem lookup_reshaped_eq_none (hdeclared : ∀ e ∈ detail, spec.parameters.declares e.1 = true)
    (hnone : detail.lookup (.name spec.manyArgument) = none) :
    (rowsAsDrf nonFieldErrors typeName spec.manyArgument sent
      (rewordUnknown nonFieldErrors spec.parameters detail)).lookup (.name spec.manyArgument) =
        none := by
  rw [lookup_eq_none_iff_notMem, keysOf_reshaped _ _ _ hdeclared, ← lookup_eq_none_iff_notMem]
  exact hnone

/-- Rows laid out are a list or a mapping. -/
theorem Constructors.KeepsDetail.drf_bareRows (hC : C.KeepsDetail) (count : ℕ) :
    C.drfDetail (bareRows count rows) = bareRows count rows := by
  rw [bareRows]
  split
  · exact hC.drf_rows _
  · exact hC.drf_mapping _

variable {asArgument : Bool}

/-- The answer for rows with no other: the rows reshaped, under their argument or laid out. -/
theorem rows?_argumentsLeft (hC : C.KeepsDetail)
    (hdeclared : ∀ e ∈ detail, spec.parameters.declares e.1 = true)
    (hrows : detail.lookup (.name spec.manyArgument) = some (.mapping rows)) :
    let reshaped := rowsReshaped nonFieldErrors typeName spec sent rows
    (argumentsLeft C nonFieldErrors typeName spec sent asArgument none detail).rows?
        spec.manyArgument = some (.mapping reshaped) ∨
      (argumentsLeft C nonFieldErrors typeName spec sent asArgument none detail).rows?
        spec.manyArgument = some (bareRows sent.length reshaped) := by
  have hlookup := lookup_reshaped nonFieldErrors typeName sent hdeclared hrows
  simp only [argumentsLeft]
  split
  · next answer hunwrapped =>
    split at hunwrapped
    · cases hunwrapped
    · obtain ⟨refused, hdetail, -, hanswer⟩ := bareRowsError_eq_some hunwrapped
      rw [hdetail, lookup_cons_ite, if_pos rfl, Option.some.injEq] at hlookup
      refine .inr ?_
      rw [Left.rows?, hanswer _ rfl hlookup, hC.drf_bareRows]
  · refine .inl ?_
    rw [hC.arguments, hC.drf_mapping, Left.rows?]
    exact hlookup

/-- Rows that were sent bare and refused alone leave laid out. -/
theorem argumentsLeft_of_bareRows (hC : C.KeepsDetail)
    (hrows : detail = [(.name spec.manyArgument, .mapping rows)]) :
    argumentsLeft C nonFieldErrors typeName spec sent false none detail =
      .validationError (bareRows sent.length
        (rowsReshaped nonFieldErrors typeName spec sent rows)) := by
  have hdeclared : ∀ e ∈ detail, spec.parameters.declares e.1 = true := by
    simp [hrows, Parameters.declares, ManySpec.parameters, Parameters.entries]
  have hargument : detail.lookup (.name spec.manyArgument) = some (.mapping rows) := by
    rw [hrows, lookup_cons_ite, if_pos rfl]
  have hkeys := keysOf_reshaped nonFieldErrors typeName sent hdeclared
  have hlookup := lookup_reshaped nonFieldErrors typeName sent hdeclared hargument
  generalize hreshaped : rowsAsDrf nonFieldErrors typeName spec.manyArgument sent
    (rewordUnknown nonFieldErrors spec.parameters detail) = reshaped at hkeys hlookup
  -- the one key is the rows' argument still
  rw [hrows, keysOf_cons, keysOf_nil] at hkeys
  obtain ⟨⟨key, refused⟩, rfl, hkey⟩ := List.map_eq_singleton_iff.1 hkeys
  obtain rfl : key = .name spec.manyArgument := hkey
  rw [lookup_cons_ite, if_pos rfl, Option.some.injEq] at hlookup
  obtain rfl : refused = .mapping (rowsReshaped nonFieldErrors typeName spec sent rows) := hlookup
  simp only [argumentsLeft, hreshaped, bareRowsError, if_true, if_false, Bool.false_eq_true,
    Option.getD_none, hC.drf_bareRows]

/-- The answer where the list serializer left one: that alone, unchanged. -/
theorem rows?_argumentsLeft_of_rowErrors (hC : C.KeepsDetail) {errors : Detail ErrorDetail}
    (herrors : C.drfDetail errors = errors) :
    (argumentsLeft C nonFieldErrors typeName spec sent asArgument (some errors) detail).rows?
      spec.manyArgument = some errors := by
  simp only [argumentsLeft]
  split
  · next answer hunwrapped =>
    split at hunwrapped
    · cases hunwrapped
    · obtain ⟨refused, -, hanswer, -⟩ := bareRowsError_eq_some hunwrapped
      rw [Left.rows?, hanswer errors rfl, herrors]
  · rw [hC.arguments, hC.drf_mapping, Left.rows?, lookup_assign, if_pos rfl]

/-- No rows, no answer for them. -/
theorem rows?_argumentsLeft_eq_none (hC : C.KeepsDetail)
    (hdeclared : ∀ e ∈ detail, spec.parameters.declares e.1 = true)
    (hnone : detail.lookup (.name spec.manyArgument) = none) :
    (argumentsLeft C nonFieldErrors typeName spec sent asArgument none detail).rows?
      spec.manyArgument = none := by
  have hlookup := lookup_reshaped_eq_none nonFieldErrors typeName sent hdeclared hnone
  simp only [argumentsLeft]
  split
  · next answer hunwrapped =>
    split at hunwrapped
    · cases hunwrapped
    · obtain ⟨refused, hdetail, -, -⟩ := bareRowsError_eq_some hunwrapped
      rw [hdetail, lookup_cons_ite, if_pos rfl] at hlookup
      cases hlookup
  · rw [hC.arguments, hC.drf_mapping, Left.rows?]
    exact hlookup

/-- The kernel's refusal leaves through that arm. -/
theorem rowsLeft_kernel (hC : C.KeepsDetail) (rowErrors : Option (Detail ErrorDetail))
    (message : Option ErrorDetail) :
    rowsLeft C nonFieldErrors typeName spec sent asArgument rowErrors
        ⟨.named .kernelInvalidArguments, none, message, C.argumentsDetail (.mapping detail)⟩ =
      argumentsLeft C nonFieldErrors typeName spec sent asArgument rowErrors detail := by
  have hedge : edgeErrors spec.wireNames (Thrown.raise (C := C)
      ⟨.named .kernelInvalidArguments, none, message, C.argumentsDetail (.mapping detail)⟩) =
        .arguments ⟨.named .invalidArguments, Base.invalidArguments.status, message,
          C.drfDetail (C.argumentsDetail (C.argumentsDetail (.mapping detail)))⟩ := rfl
  have hdetail : C.drfDetail (C.argumentsDetail (C.argumentsDetail (.mapping detail))) =
      .mapping detail := by
    rw [hC.arguments, hC.arguments, hC.drf_mapping]
  rw [rowsLeft, hedge]
  dsimp only
  rw [hdetail]

end

/-! ## What refuses a row -/

namespace RowsCall

section
variable {call : RowsCall} {spec : ManySpec} {checked : Checked spec call.arguments}
  {nonFieldErrors : String}

/-- A call has the arguments of as many rows as it was sent. -/
theorem length_arguments : call.arguments.length = call.rows.length := List.length_map _

/-- Its body has as many. -/
theorem length_body : call.body.length = call.rows.length := List.length_map _

/-- The call is refused no partial update: it asks for one only of a serializer that supports it. -/
theorem refusePartial_eq_ok : call.validator.refusePartial call.context = .ok () := by
  rw [SerializerValidator.refusePartial, if_neg]
  intro h
  obtain ⟨hcalled, hunsupported⟩ := Bool.and_eq_true_iff.1 h
  rw [call.supported hcalled] at hunsupported
  cases hunsupported

/-- The Validator binds the edge's rows. -/
theorem sentRows_state : call.validator.sentRows call.state = some call.body := by
  simp [SerializerValidator.sentRows, state]

/-- The indices bound are every row's of a live view's body, else those the kernel does not refuse. -/
theorem indices_eq : call.indices checked =
    if call.state.bodyRows then List.range call.rows.length
    else (List.range call.rows.length).filter (· ∉ checked.refused) := by
  rw [indices, ManyState.boundIndices, length_body, passedRows, List.map_map]
  exact congrArg (ite _ _) (List.map_id _)

/-- No two rows bound have one index. -/
theorem nodup_indices : (call.indices checked).Nodup := by
  rw [indices_eq]
  split
  · exact List.nodup_range
  · exact List.nodup_range.filter _

/-- An index is that of a row sent. -/
theorem lt_of_mem_indices {index : ℕ} (h : index ∈ call.indices checked) :
    index < call.rows.length := by
  rw [indices_eq] at h
  split at h
  · exact List.mem_range.1 h
  · exact List.mem_range.1 (List.mem_of_mem_filter h)

/-- A row the kernel refuses is bound in a live view's body alone. -/
theorem notMem_indices {index : ℕ} (hbody : call.state.bodyRows = false)
    (hrefused : index ∈ checked.refused) : index ∉ call.indices checked := by
  rw [indices_eq, hbody, if_neg Bool.false_ne_true]
  intro h
  have := (List.mem_filter.1 h).2
  simp [hrefused] at this

/-- The list serializer's errors are of the rows it is bound to. -/
theorem listErrors_of {errors : ListErrors} (h : call.listErrors checked = some errors) :
    errors.Of (call.indices checked).length := by
  rw [listErrors] at h
  split at h
  · exact ListSerializer.errors?_of h
  · cases h

/-- What refuses a row is an error, and the row one that was sent. -/
theorem refusedWith_some {index : ℕ} {errors : Detail ErrorDetail}
    (h : call.refusedWith checked index = some errors) :
    errors.truthy = true ∧ index < call.rows.length := by
  rcases Option.or_eq_some_iff.1 h with hrefused | ⟨-, hlist⟩
  · have hlt := checked.within index (Dict.mem_iff_isSome.2 (Option.isSome_of_eq_some hrefused))
    rw [length_arguments] at hlt
    exact ⟨checked.truthy index errors hrefused, hlt⟩
  · obtain ⟨listErrors, hlistErrors, hposition⟩ := Option.bind_eq_some_iff.1 hlist
    obtain ⟨position, hidx, herrors⟩ := Option.bind_eq_some_iff.1 hposition
    have hmem : index ∈ call.indices checked :=
      List.isSome_idxOf?.1 (Option.isSome_of_eq_some hidx)
    exact ⟨(listErrors_of hlistErrors).truthy _ _ herrors, lt_of_mem_indices hmem⟩

variable (hnone : call.rowErrors checked nonFieldErrors = none)
include hnone

/-- Where it leaves nothing for the edge, the Validator refuses the rows as the list serializer does, by
the caller's indices. -/
theorem refusal_answer : (call.answer checked nonFieldErrors).bind (·.refusal) =
    (call.listErrors checked).map (byRow · (call.indices checked)) := by
  rw [rowErrors, answer] at hnone
  rw [answer, listErrors]
  by_cases hasks : checked.asks = true
  · rw [if_pos hasks] at hnone
    rw [if_pos hasks, if_pos hasks, Option.bind_some]
    exact refusal_validatedMany refusePartial_eq_ok sentRows_state hnone
  · rw [if_neg hasks, if_neg hasks]
    rfl

/-- A live view's body that leaves nothing for the edge has no errors. -/
theorem listErrors_of_bodyRows (hbody : call.state.bodyRows = true) :
    call.listErrors checked = none := by
  rw [rowErrors, answer] at hnone
  rw [listErrors]
  by_cases hasks : checked.asks = true
  · rw [if_pos hasks] at hnone ⊢
    exact errors?_of_bodyRows refusePartial_eq_ok sentRows_state hbody hnone
  · rw [if_neg hasks]

/-- A row the kernel refuses is refused by it alone. -/
theorem refusal_answer_of_refused {index : ℕ} (hrefused : index ∈ checked.refused) :
    ((call.answer checked nonFieldErrors).bind (·.refusal)).bind (·.get? (.row index)) = none := by
  rw [refusal_answer hnone]
  cases hbody : call.state.bodyRows with
  | true =>
    rw [listErrors_of_bodyRows hnone hbody]
    rfl
  | false =>
    cases hlist : call.listErrors checked with
    | none => rfl
    | some errors =>
      rw [Option.map_some, Option.bind_some, get?_byRow_row (listErrors_of hlist) nodup_indices,
        List.idxOf?_eq_none_iff.2 (notMem_indices hbody hrefused)]
      rfl

/-- Any other is refused as the list serializer refuses it, at the caller's index. -/
theorem refusal_answer_row (index : ℕ) (hpassed : checked.refused.get? index = none) :
    ((call.answer checked nonFieldErrors).bind (·.refusal)).bind (·.get? (.row index)) =
      call.refusedWith checked index := by
  rw [refusal_answer hnone, refusedWith, hpassed, Option.none_or]
  cases hlist : call.listErrors checked with
  | none => rfl
  | some errors =>
    rw [Option.map_some, Option.bind_some, Option.bind_some]
    exact get?_byRow_row (listErrors_of hlist) nodup_indices index

/-- The list's own refusal is under its name. -/
theorem refusal_answer_name (name : String) :
    ((call.answer checked nonFieldErrors).bind (·.refusal)).bind (·.get? (.name name)) =
      (call.listErrors checked).bind (·.byKey.get? (.name name)) := by
  rw [refusal_answer hnone]
  cases call.listErrors checked with
  | none => rfl
  | some errors =>
    rw [Option.map_some, Option.bind_some, Option.bind_some]
    exact get?_byRow_name name

end

/-! ## What the edge answers for the rows -/

section
variable {call : RowsCall} {spec : ManySpec} {checked : Checked spec call.arguments}
  {nonFieldErrors : String} {kernel : RowsKernel} {C : Constructors ErrorDetail}
  {typeName : Value → String}

/-- Keys beside the rows are refused where no row is. -/
theorem refusedWith_of_unexpected {names : List String}
    (h : (call.answer checked nonFieldErrors).map ManyAnswer.result =
      some (.error (.unexpected names))) :
    (∀ index, call.refusedWith checked index = none) ∧ call.listErrors checked = none := by
  obtain ⟨answer, hanswer, hresult⟩ := Option.map_eq_some_iff.1 h
  rw [RowsCall.answer] at hanswer
  split at hanswer
  · next hasks =>
    cases hanswer
    obtain ⟨hevery, hbeside, herrors⟩ :=
      validatedMany_eq_unexpected refusePartial_eq_ok sentRows_state hresult
    have hbody : call.state.bodyRows = false := by
      -- nothing is beside the rows of a body
      cases hargument : call.asArgument with
      | true => simp [state, hargument]
      | false => exact absurd (by simp [state, hargument]) hbeside
    have hlist : call.listErrors checked = none := by
      rw [listErrors, if_pos hasks]
      exact herrors
    refine ⟨fun index => ?_, hlist⟩
    have hrefused : checked.refused.get? index = none := by
      rw [Dict.get?_eq_none]
      intro hmem
      have hlt := checked.within index hmem
      rw [length_arguments] at hlt
      have hindices : call.indices checked = List.range call.rows.length := by
        rw [← length_body]
        exact hevery
      refine notMem_indices hbody hmem ?_
      rw [hindices]
      exact List.mem_range.2 hlt
    rw [refusedWith, hrefused, hlist]
    rfl
  · cases hanswer

variable (kernel C) in
/-- The kernel raises what the Validator refuses the keys beside the rows with, or its refusal. -/
theorem raised_cases :
    (∃ names, (call.answer checked nonFieldErrors).map ManyAnswer.result =
        some (.error (.unexpected names)) ∧
      call.raised checked nonFieldErrors kernel C =
        some ⟨.named .validationError, Base.validationError.status, none, C.drfDetail (.mapping
          [(.name nonFieldErrors, .rows [.message (unexpectedMessage names)])])⟩) ∨
      call.raised checked nonFieldErrors kernel C =
        (kernel.raised spec.manyArgument checked.beside checked.refused
          ((call.answer checked nonFieldErrors).bind (·.refusal))).map fun detail =>
            ⟨.named .kernelInvalidArguments, none, some (C.kernelMessage none),
              C.argumentsDetail (.mapping detail.entries)⟩ := by
  cases hanswer : (call.answer checked nonFieldErrors).map ManyAnswer.result with
  | none => exact .inr (by rw [raised, hanswer])
  | some result =>
    cases result with
    | ok validated => exact .inr (by rw [raised, hanswer])
    | error refusal =>
      cases refusal with
      | invalidArguments detail => exact .inr (by rw [raised, hanswer])
      | unexpected names => exact .inl ⟨names, rfl, by rw [raised, hanswer]⟩
      | partialCall refusal =>
        obtain ⟨answer, ha, hresult⟩ := Option.map_eq_some_iff.1 hanswer
        rw [RowsCall.answer] at ha
        split at ha
        · cases ha
          exact absurd hresult
            (validatedMany_ne_partialCall refusePartial_eq_ok sentRows_state refusal)
        · cases ha

/-- DRF's `ValidationError` leaves the edge as no answer for the rows. -/
theorem rows?_rowsLeft_validationError (sent : List Value) (asArgument : Bool)
    (rowErrors : Option (Detail ErrorDetail)) (status : Option ℕ) (detail : Detail ErrorDetail) :
    (rowsLeft C nonFieldErrors typeName spec sent asArgument rowErrors
      ⟨.named .validationError, status, none, detail⟩).rows? spec.manyArgument = none := by
  obtain ⟨e, he⟩ : ∃ e, edgeErrors spec.wireNames (Thrown.raise (C := C)
      ⟨.named .validationError, status, none, detail⟩) = .raised e := by
    cases spec.wireNames with
    | none => exact ⟨_, rfl⟩
    | some names => exact ⟨_, rfl⟩
  rw [rowsLeft, he]
  rfl

/-- The keys of a kernel refusal are all declared: the rows' argument, and the reads beside it. -/
theorem declares_raised {validator : Option (Dict Key (Detail ErrorDetail))}
    {detail : Dict Key (Detail ErrorDetail)}
    (h : kernel.raised spec.manyArgument checked.beside checked.refused validator = some detail) :
    ∀ e ∈ detail.entries, spec.parameters.declares e.1 = true := by
  intro e he
  obtain ⟨hbeside, hrow⟩ := kernel.beside _ _ _ _ _ h
  obtain ⟨key, errors⟩ := e
  have hget : detail.get? key = some errors := Dict.get?_eq_some.2 he
  cases key with
  | row index =>
    rw [hrow] at hget
    cases hget
  | name name =>
    by_cases hname : name = spec.manyArgument
    · simp [Parameters.declares, ManySpec.parameters, Parameters.entries, hname]
    · rw [hbeside name hname] at hget
      have hread := checked.declared name (Dict.mem_iff_isSome.2 (Option.isSome_of_eq_some hget))
      simp [Parameters.declares, ManySpec.parameters, Parameters.entries, hread]

/-- The kernel's refusal leaves through the edge's arm. -/
theorem left_of_kernel (hC : C.KeepsDetail)
    (h : call.raised checked nonFieldErrors kernel C =
      (kernel.raised spec.manyArgument checked.beside checked.refused
        ((call.answer checked nonFieldErrors).bind (·.refusal))).map fun detail =>
          ⟨.named .kernelInvalidArguments, none, some (C.kernelMessage none),
            C.argumentsDetail (.mapping detail.entries)⟩) :
    call.left checked nonFieldErrors kernel C typeName =
      (kernel.raised spec.manyArgument checked.beside checked.refused
        ((call.answer checked nonFieldErrors).bind (·.refusal))).map fun detail =>
          argumentsLeft C nonFieldErrors typeName spec call.rows call.asArgument
            (call.rowErrors checked nonFieldErrors) detail.entries := by
  rw [left, h, Option.map_map]
  refine Option.map_congr fun detail _ => ?_
  exact rowsLeft_kernel hC _ _

variable (hnone : call.rowErrors checked nonFieldErrors = none)
include hnone

/-- Where the kernel and the Validator refuse no row, none is refused. -/
theorem refusedWith_eq_none (hkernel : ∀ index, index ∉ checked.refused)
    (hvalidator : (call.answer checked nonFieldErrors).bind (·.refusal) = none) :
    (∀ index, call.refusedWith checked index = none) ∧ call.listErrors checked = none := by
  refine ⟨fun index => ?_, ?_⟩
  · rw [← refusal_answer_row hnone index (Dict.get?_eq_none.2 (hkernel index)), hvalidator]
    rfl
  · rw [refusal_answer hnone, Option.map_eq_none_iff] at hvalidator
    exact hvalidator

/-- The rows of a kernel refusal stand at their own indices, and the list's own refusal under its
name. -/
theorem lookup_raised {detail : Dict Key (Detail ErrorDetail)}
    (hraised : kernel.raised spec.manyArgument checked.beside checked.refused
      ((call.answer checked nonFieldErrors).bind (·.refusal)) = some detail)
    (hrows : (∃ index, index ∈ checked.refused) ∨
      ((call.answer checked nonFieldErrors).bind (·.refusal)).isSome) :
    ∃ rows, detail.get? (.name spec.manyArgument) = some (.mapping rows) ∧
      (∀ index : ℕ, rows.lookup (.row index) = call.refusedWith checked index) ∧
      ∀ name, rows.lookup (.name name) =
        (call.listErrors checked).bind (·.byKey.get? (.name name)) := by
  obtain ⟨rows, hget, hkernel, hvalidator, hname⟩ := kernel.rows _ _ _ _ _ hraised hrows
  refine ⟨rows, hget, fun index => ?_, fun name => ?_⟩
  · cases hrefused : checked.refused.get? index with
    | none => rw [hvalidator index hrefused, refusal_answer_row hnone index hrefused]
    | some errors =>
      have hmem : index ∈ checked.refused :=
        Dict.mem_iff_isSome.2 (Option.isSome_of_eq_some hrefused)
      rw [hkernel index (refusal_answer_of_refused hnone hmem), refusedWith, hrefused,
        Option.some_or]
  · rw [hname, refusal_answer_name hnone]

variable (kernel typeName) in
/-- The answer for the rows is none, where none is refused, or the rows of the kernel's refusal,
reshaped, under their argument or laid out. -/
theorem rowsAnswer_cases (hC : C.KeepsDetail) :
    (call.rowsAnswer checked nonFieldErrors kernel C typeName = none ∧
        (∀ index, call.refusedWith checked index = none) ∧ call.listErrors checked = none) ∨
      ∃ rows, (∀ index : ℕ, rows.lookup (.row index) = call.refusedWith checked index) ∧
        (∀ name, rows.lookup (.name name) =
          (call.listErrors checked).bind (·.byKey.get? (.name name))) ∧
        (call.rowsAnswer checked nonFieldErrors kernel C typeName =
            some (.mapping (rowsReshaped nonFieldErrors typeName spec call.rows rows)) ∨
          call.rowsAnswer checked nonFieldErrors kernel C typeName =
            some (bareRows call.rows.length
              (rowsReshaped nonFieldErrors typeName spec call.rows rows))) := by
  rcases raised_cases kernel C with ⟨names, hresult, hraised⟩ | hraised
  · have hrows : call.rowsAnswer checked nonFieldErrors kernel C typeName = none := by
      rw [rowsAnswer, left, hraised, Option.map_some, Option.bind_some]
      exact rows?_rowsLeft_validationError ..
    exact .inl ⟨hrows, refusedWith_of_unexpected hresult⟩
  rw [rowsAnswer, left_of_kernel hC hraised, hnone]
  cases hdetail : kernel.raised spec.manyArgument checked.beside checked.refused
      ((call.answer checked nonFieldErrors).bind (·.refusal)) with
  | none =>
    obtain ⟨hkernel, hvalidator⟩ := kernel.accepts _ _ _ _ hdetail
    exact .inl ⟨rfl, refusedWith_eq_none hnone hkernel hvalidator⟩
  | some detail =>
    rw [Option.map_some, Option.bind_some]
    have hdeclared := declares_raised hdetail
    by_cases hrows : (∃ index, index ∈ checked.refused) ∨
        ((call.answer checked nonFieldErrors).bind (·.refusal)).isSome
    · obtain ⟨rows, hget, hindex, hname⟩ := lookup_raised hnone hdetail hrows
      exact .inr ⟨rows, hindex, hname, rows?_argumentsLeft hC hdeclared hget⟩
    · -- neither the kernel nor the Validator refuses a row: what is refused is beside them
      obtain ⟨hkernel, hvalidator⟩ := not_or.1 hrows
      have hkernel' : ∀ index, index ∉ checked.refused := fun index h => hkernel ⟨index, h⟩
      have hvalidator' := Option.not_isSome_iff_eq_none.1 hvalidator
      rw [hvalidator'] at hdetail
      have hget := kernel.noRows _ _ _ _ hdetail checked.distinct hkernel'
      exact .inl ⟨rows?_argumentsLeft_eq_none hC hdeclared hget,
        refusedWith_eq_none hnone hkernel' hvalidator'⟩

/-- **Each row's errors stand at the row's own index in the list sent**: a refused row's are there,
and no other row has any. -/
theorem errorsAt_rowsAnswer (hC : C.KeepsDetail) (index : ℕ) :
    (call.rowsAnswer checked nonFieldErrors kernel C typeName).bind (·.errorsAt index) =
      (call.refusedWith checked index).map
        (rowLeft nonFieldErrors typeName spec call.rows index) := by
  rcases rowsAnswer_cases kernel typeName hnone hC with
    ⟨hrows, hno, -⟩ | ⟨rows, hindex, -, hrows⟩
  · rw [hrows, hno]
    rfl
  · have hreshaped : (Detail.mapping
        (rowsReshaped nonFieldErrors typeName spec call.rows rows)).errorsAt index =
          (call.refusedWith checked index).map
            (rowLeft nonFieldErrors typeName spec call.rows index) := by
      rw [Detail.errorsAt, lookup_rowsReshaped_row, hindex]
      cases hrefused : call.refusedWith checked index with
      | none => rfl
      | some errors =>
        rw [Option.map_some, Option.filter_some,
          if_pos (truthy_rowLeft (refusedWith_some hrefused).1)]
    have hwithin : ∀ index : ℕ,
        ((rowsReshaped nonFieldErrors typeName spec call.rows rows).lookup (.row index)).isSome →
          index < call.rows.length := by
      intro index hsome
      rw [lookup_rowsReshaped_row, Option.isSome_map, hindex] at hsome
      obtain ⟨errors, herrors⟩ := Option.isSome_iff_exists.1 hsome
      exact (refusedWith_some herrors).2
    rcases hrows with hrows | hrows <;> rw [hrows, Option.bind_some]
    · exact hreshaped
    · rw [errorsAt_bareRows hwithin]
      exact hreshaped

/-- The list's own refusal stays under its name. -/
theorem errorsUnder_rowsAnswer (hC : C.KeepsDetail) (name : String) :
    (call.rowsAnswer checked nonFieldErrors kernel C typeName).bind (·.errorsUnder name) =
      ((call.listErrors checked).bind (·.byKey.get? (.name name))).map
        (rewordedRow nonFieldErrors spec.rowParameters) := by
  rcases rowsAnswer_cases kernel typeName hnone hC with
    ⟨hrows, -, hno⟩ | ⟨rows, -, hname, hrows⟩
  · rw [hrows, hno]
    rfl
  · have hreshaped : (Detail.mapping
        (rowsReshaped nonFieldErrors typeName spec call.rows rows)).errorsUnder name =
          ((call.listErrors checked).bind (·.byKey.get? (.name name))).map
            (rewordedRow nonFieldErrors spec.rowParameters) := by
      rw [Detail.errorsUnder, lookup_rowsReshaped_name, hname]
    rcases hrows with hrows | hrows <;> rw [hrows, Option.bind_some]
    · exact hreshaped
    · rw [errorsUnder_bareRows]
      exact hreshaped

omit hnone in
/-- The entry of a row is empty exactly where the row is not refused. -/
theorem getD_rowLeft_eq_nil {index : ℕ} :
    ((call.refusedWith checked index).map
        (rowLeft nonFieldErrors typeName spec call.rows index)).getD (.mapping []) = .mapping [] ↔
      call.refusedWith checked index = none := by
  cases hrefused : call.refusedWith checked index with
  | none => simp
  | some errors =>
    have htruthy : (rowLeft nonFieldErrors typeName spec call.rows index errors).truthy = true :=
      truthy_rowLeft (refusedWith_some hrefused).1
    simp only [Option.map_some, Option.getD_some, reduceCtorEq, iff_false]
    intro hempty
    rw [hempty] at htruthy
    cases htruthy

/-- Where the rows were sent bare and only rows are refused, the answer is a list of an entry per row
sent. -/
theorem left_of_bareRows (hC : C.KeepsDetail) (hbare : call.asArgument = false)
    (hbeside : ∀ name, name ∉ checked.beside)
    (hown : ∀ name, (call.listErrors checked).bind (·.byKey.get? (.name name)) = none)
    (hrefused : ∃ index, call.refusedWith checked index ≠ none) :
    call.left checked nonFieldErrors kernel C typeName =
      some (.validationError (.rows ((List.range call.rows.length).map fun index =>
        ((call.refusedWith checked index).map
          (rowLeft nonFieldErrors typeName spec call.rows index)).getD (.mapping [])))) := by
  obtain ⟨refused, hrefused⟩ := hrefused
  rcases raised_cases kernel C with ⟨names, hresult, -⟩ | hraised
  · exact absurd ((refusedWith_of_unexpected hresult).1 refused) hrefused
  rw [left_of_kernel hC hraised, hnone, hbare]
  cases hdetail : kernel.raised spec.manyArgument checked.beside checked.refused
      ((call.answer checked nonFieldErrors).bind (·.refusal)) with
  | none =>
    obtain ⟨hkernel, hvalidator⟩ := kernel.accepts _ _ _ _ hdetail
    exact absurd ((refusedWith_eq_none hnone hkernel hvalidator).1 refused) hrefused
  | some detail =>
    have hrows : (∃ index, index ∈ checked.refused) ∨
        ((call.answer checked nonFieldErrors).bind (·.refusal)).isSome := by
      by_contra hno
      obtain ⟨hkernel, hvalidator⟩ := not_or.1 hno
      exact hrefused ((refusedWith_eq_none hnone (fun index h => hkernel ⟨index, h⟩)
        (Option.not_isSome_iff_eq_none.1 hvalidator)).1 refused)
    obtain ⟨rows, hget, hindex, hname⟩ := lookup_raised hnone hdetail hrows
    obtain ⟨hreads, hrow⟩ := kernel.beside _ _ _ _ _ hdetail
    -- nothing is beside the rows
    have hentries : ∀ e ∈ detail.entries, e = (.name spec.manyArgument, .mapping rows) := by
      intro e he
      obtain ⟨key, errors⟩ := e
      have hkey : detail.get? key = some errors := Dict.get?_eq_some.2 he
      cases key with
      | row index =>
        rw [hrow] at hkey
        cases hkey
      | name name =>
        by_cases hargument : name = spec.manyArgument
        · rw [hargument, hget] at hkey
          cases hkey
          rw [hargument]
        · rw [hreads name hargument, Dict.get?_eq_none.2 (hbeside name)] at hkey
          cases hkey
    have hsingle : detail.entries = [(.name spec.manyArgument, .mapping rows)] :=
      eq_singleton_of_nodup detail.nodup (Dict.get?_eq_some.1 hget) hentries
    have hall : (keysOf (rowsReshaped nonFieldErrors typeName spec call.rows rows)).all
        (·.isRow) = true := by
      rw [List.all_eq_true]
      intro key hkey
      cases key with
      | row index => rfl
      | name name =>
        have hsome := isSome_lookup_iff.2 hkey
        rw [lookup_rowsReshaped_name, Option.isSome_map, hname, hown] at hsome
        cases hsome
    rw [Option.map_some, argumentsLeft_of_bareRows hC hsingle, bareRows, if_pos hall]
    simp only [lookup_rowsReshaped_row, hindex]

omit hnone in
/-- **What the list serializer left for the edge is the answer for the rows, unchanged**: DRF's errors
of the body, whose rows are those sent in order, or the refusal of a list out of its bounds. -/
theorem rowsAnswer_of_rowErrors (hC : C.KeepsDetail) {errors : Detail ErrorDetail}
    (h : call.rowErrors checked nonFieldErrors = some errors) :
    call.rowsAnswer checked nonFieldErrors kernel C typeName = some errors ∧
      ((call.state.bodyRows = true ∧ ∃ listed, call.list.isValid call.body = .error listed ∧
          errors = listed.detail) ∨
        ∃ refusal, call.list.boundRefusal nonFieldErrors call.rows.length = some refusal ∧
          errors = .mapping refusal.entries) := by
  obtain ⟨answer, hanswer, herrors⟩ := Option.bind_eq_some_iff.1 h
  have hvalidated : answer.refusal.isSome ∧
      ((call.state.bodyRows = true ∧ ∃ listed, call.list.isValid call.body = .error listed ∧
          errors = listed.detail) ∨
        ∃ refusal, call.list.boundRefusal nonFieldErrors call.rows.length = some refusal ∧
          errors = .mapping refusal.entries) := by
    have hasked := hanswer
    rw [RowsCall.answer] at hasked
    split at hasked
    · cases hasked
      have hvalidated := rowErrors_validatedMany refusePartial_eq_ok sentRows_state herrors
      rwa [length_body] at hvalidated
    · cases hasked
  have hkeeps : C.drfDetail errors = errors := by
    rcases hvalidated.2 with ⟨-, listed, -, rfl⟩ | ⟨refusal, -, rfl⟩
    · cases listed with
      | listed items => exact hC.drf_rows items
      | mapped entries => exact hC.drf_mapping entries.entries
    · exact hC.drf_mapping refusal.entries
  refine ⟨?_, hvalidated.2⟩
  rcases raised_cases kernel C with ⟨names, hresult, -⟩ | hraised
  · -- keys beside the rows are no refusal of them
    rw [hanswer, Option.map_some, Option.some.injEq] at hresult
    have hno : answer.refusal = none := by rw [ManyAnswer.refusal, hresult]
    rw [hno] at hvalidated
    cases hvalidated.1
  · rw [rowsAnswer, left_of_kernel hC hraised, h]
    cases hdetail : kernel.raised spec.manyArgument checked.beside checked.refused
        ((call.answer checked nonFieldErrors).bind (·.refusal)) with
    | none =>
      have hno := (kernel.accepts _ _ _ _ hdetail).2
      rw [hanswer, Option.bind_some] at hno
      rw [hno] at hvalidated
      cases hvalidated.1
    | some detail => exact rows?_argumentsLeft_of_rowErrors hC hkeeps

omit hnone in
/-- Nothing is left of rows sent off HTTP or under an argument, of a list within its bounds. -/
theorem rowErrors_of_within (hsent : call.overHttp = false ∨ call.asArgument = true)
    (hbound : call.list.boundRefusal nonFieldErrors call.rows.length = none) :
    call.rowErrors checked nonFieldErrors = none := by
  have hbody : call.state.bodyRows = false := by
    rcases hsent with h | h <;> simp [state, h]
  rw [rowErrors, answer]
  split
  · rw [← length_body] at hbound
    exact rowErrors_eq_none refusePartial_eq_ok sentRows_state hbody hbound
  · rfl

omit hnone in
/-- A whole body is bound row by row, in order, so DRF's positions in it are the caller's indices. -/
theorem indices_of_bodyRows (hbody : call.state.bodyRows = true) :
    call.indices checked = List.range call.rows.length := by
  rw [indices_eq, if_pos hbody]

end

/-- **Row errors keep the caller's indices**, from the kernel's shape check and the list serializer to
what leaves the edge. -/
theorem row_errors_keep_indices (call : RowsCall) (spec : ManySpec)
    (checked : Checked spec call.arguments) (nonFieldErrors : String) (kernel : RowsKernel)
    (C : Constructors ErrorDetail) (hC : C.KeepsDetail) (typeName : Value → String) :
    (call.rowErrors checked nonFieldErrors = none →
      (∀ index : ℕ,
        (call.rowsAnswer checked nonFieldErrors kernel C typeName).bind (·.errorsAt index) =
          (call.refusedWith checked index).map
            (rowLeft nonFieldErrors typeName spec call.rows index)) ∧
      (∀ name,
        (call.rowsAnswer checked nonFieldErrors kernel C typeName).bind (·.errorsUnder name) =
          ((call.listErrors checked).bind (·.byKey.get? (.name name))).map
            (rewordedRow nonFieldErrors spec.rowParameters)) ∧
      (call.asArgument = false → (∀ name, name ∉ checked.beside) →
        (∀ name, (call.listErrors checked).bind (·.byKey.get? (.name name)) = none) →
        (∃ index, call.refusedWith checked index ≠ none) →
        ∃ items, call.left checked nonFieldErrors kernel C typeName =
            some (.validationError (.rows items)) ∧
          items.length = call.rows.length ∧
          ∀ index < call.rows.length,
            items[index]? = some (.mapping []) ↔ call.refusedWith checked index = none)) ∧
    (∀ errors, call.rowErrors checked nonFieldErrors = some errors →
      call.rowsAnswer checked nonFieldErrors kernel C typeName = some errors ∧
      ((call.indices checked = List.range call.rows.length ∧
          ∃ listed, call.list.isValid call.body = .error listed ∧ errors = listed.detail ∧
            ∀ index : ℕ, errors.errorsAt index = listed.byKey.get? (.row index)) ∨
        ∃ refusal, call.list.boundRefusal nonFieldErrors call.rows.length = some refusal ∧
          errors = .mapping refusal.entries)) ∧
    (call.overHttp = false ∨ call.asArgument = true →
      call.list.boundRefusal nonFieldErrors call.rows.length = none →
      call.rowErrors checked nonFieldErrors = none) := by
  refine ⟨fun hnone => ⟨errorsAt_rowsAnswer hnone hC, errorsUnder_rowsAnswer hnone hC, ?_⟩,
    fun errors h => ?_, rowErrors_of_within⟩
  · intro hbare hbeside hown hrefused
    refine ⟨_, left_of_bareRows hnone hC hbare hbeside hown hrefused, by simp, ?_⟩
    intro index hindex
    rw [List.getElem?_map, List.getElem?_range hindex, Option.map_some, Option.some.injEq]
    exact getD_rowLeft_eq_nil
  · obtain ⟨hanswer, ⟨hbody, listed, hvalid, rfl⟩ | hbound⟩ := rowsAnswer_of_rowErrors hC h
    · exact ⟨hanswer, .inl ⟨indices_of_bodyRows hbody, listed, hvalid, rfl,
        (call.list.isValid_of _ _ hvalid).errorsAt_detail⟩⟩
    · exact ⟨hanswer, .inr hbound⟩

/-! ### Three rows, one refused on either side -/

/-- What a kernel refuses beside the rows, by name. -/
def namedBeside (beside : Dict String (Detail ErrorDetail)) : Dict Key (Detail ErrorDetail) :=
  beside.mapKeys .name

/-- What is refused beside the rows stands under its name. -/
theorem get?_namedBeside (beside : Dict String (Detail ErrorDetail)) (name : String) :
    (namedBeside beside).get? (.name name) = beside.get? name :=
  Dict.get?_mapKeys fun k _ => by simp

/-- No row does. -/
theorem get?_namedBeside_row (beside : Dict String (Detail ErrorDetail)) (index : Int) :
    (namedBeside beside).get? (.row index) = none :=
  Dict.get?_mapKeys_eq_none fun k _ => by simp

/-- The rows a kernel refuses, and the Validator's over them. -/
def mergedRows (refused : Dict ℕ (Detail ErrorDetail))
    (validator : Option (Dict Key (Detail ErrorDetail))) : Dict Key (Detail ErrorDetail) :=
  (refused.mapKeys fun (index : ℕ) => Key.row index).update (validator.getD .empty)

/-- A row's errors are the Validator's, or the kernel's. -/
theorem get?_mergedRows (refused : Dict ℕ (Detail ErrorDetail))
    (validator : Option (Dict Key (Detail ErrorDetail))) (key : Key) :
    (mergedRows refused validator).get? key =
      (validator.bind (·.get? key)).or
        ((refused.mapKeys fun (index : ℕ) => Key.row index).get? key) := by
  rw [mergedRows, Dict.get?_update]
  cases validator <;> rfl

/-- A row the kernel refused stands under its index. -/
theorem get?_mapKeys_row (refused : Dict ℕ (Detail ErrorDetail)) (index : ℕ) :
    (refused.mapKeys fun (index : ℕ) => Key.row index).get? (.row index) = refused.get? index :=
  Dict.get?_mapKeys fun k _ => by rw [Key.row.injEq, Int.natCast_inj]

/-- A kernel whose refusal has what is beside the rows, then the rows it refused and the Validator's. -/
def builtKernel : RowsKernel where
  raised argument beside refused validator :=
    if refused.entries = [] ∧ validator = none then
      if beside.entries = [] then none else some (namedBeside beside)
    else
      some ((namedBeside beside).set (.name argument) (.mapping (mergedRows refused validator).entries))
  accepts := by
    intro argument beside refused validator h
    split at h
    · next hnone =>
      refine ⟨fun index hmem => ?_, hnone.2⟩
      rw [Dict.mem_iff_isSome, Dict.get?, hnone.1] at hmem
      cases hmem
    · cases h
  beside := by
    intro argument beside refused validator detail h
    split at h
    · split at h
      · cases h
      · cases h
        exact ⟨fun name _ => get?_namedBeside beside name,
          fun index => get?_namedBeside_row beside index⟩
    · cases h
      refine ⟨fun name hname => ?_, fun index => ?_⟩
      · rw [Dict.get?_set, if_neg (by simpa using hname), get?_namedBeside]
      · rw [Dict.get?_set, if_neg (by simp), get?_namedBeside_row]
  noRows := by
    intro argument beside refused detail h hdistinct hrefused
    have hempty : refused.entries = [] :=
      List.eq_nil_iff_forall_not_mem.2 fun e he => hrefused e.1 (mem_keysOf_of_mem he)
    rw [if_pos ⟨hempty, rfl⟩] at h
    split at h
    · cases h
    · cases h
      rw [get?_namedBeside, Dict.get?_eq_none]
      exact hdistinct
  rows := by
    intro argument beside refused validator detail h hrows
    rw [if_neg] at h
    · cases h
      refine ⟨(mergedRows refused validator).entries, by rw [Dict.get?_set, if_pos rfl],
        fun index hnone => ?_, fun index hnone => ?_, fun name => ?_⟩
      · show (mergedRows refused validator).get? _ = _
        rw [get?_mergedRows, hnone, get?_mapKeys_row, Option.none_or]
      · show (mergedRows refused validator).get? _ = _
        rw [get?_mergedRows, get?_mapKeys_row, hnone, Option.or_none]
      · show (mergedRows refused validator).get? _ = _
        rw [get?_mergedRows, Dict.get?_mapKeys_eq_none fun k _ => by simp, Option.or_none]
    · rintro ⟨hempty, rfl⟩
      rcases hrows with ⟨index, hmem⟩ | hsome
      · rw [Dict.mem_iff_isSome, Dict.get?, hempty] at hmem
        cases hmem
      · cases hsome

/-- They keep the detail they are handed. -/
theorem keepsDetail_builtConstructors : builtConstructors.KeepsDetail where
  arguments _ := rfl
  drf_mapping _ := rfl
  drf_rows _ := rfl

/-- A title's refusal. -/
def titleRefusal : Detail ErrorDetail :=
  .mapping [(.name "title",
    .rows [.message ⟨"Ensure this field has no more than 5 characters.", "max_length"⟩])]

/-- A row's errors: a title of more than five characters. -/
def titleErrors : Value → Detail ErrorDetail
  | .mapping _ [("title", .str title)] => if 5 < title.length then titleRefusal else .mapping []
  | _ => .mapping []

/-- What a list serializer of titles makes of rows, its errors by position. -/
def titlesValid (rows : List Value) : Except ListErrors (List Value) :=
  let items := rows.map titleErrors
  if items.any (·.truthy) then .error (.mapped (ListErrors.listed items).byKey) else .ok rows

/-- The errors of the titles are of the rows bound. -/
theorem titlesValid_of (rows : List Value) (errors : ListErrors)
    (h : titlesValid rows = .error errors) : errors.Of rows.length := by
  have hof := ListErrors.of_listed (rows.map titleErrors)
  rw [List.length_map] at hof
  rw [titlesValid] at h
  split at h
  · cases h
    exact ⟨hof.within, hof.truthy⟩
  · cases h

/-- A list serializer of titles, of any length. -/
def titles : ListSerializer where
  maxLength := none
  minLength := none
  boundMessage _ _ := ""
  isValid := titlesValid
  toInternalValue := titlesValid
  isValid_of := titlesValid_of
  toInternalValue_of := titlesValid_of

/-- Three rows sent off HTTP, bare: a title, a number and a title that is too long. -/
def threeRows : RowsCall where
  rows := [.mapping true [("title", .str "ok")], .int 5, .mapping true [("title", .str "toolong")]]
  asArgument := false
  overHttp := false
  sentBeside := []
  server := .empty
  reserved := []
  context := ⟨false, []⟩
  validator := ⟨0, "TitleSerializer", ⟨.empty, fun _ => .ok .null⟩, true, []⟩
  list := titles
  supported h := by cases h

/-- A spec of rows with a title. -/
def titlesSpec : ManySpec where
  manyArgument := "rows"
  rowParameters := .mk [("title", none)]
  reads := []
  wireNames := none

/-- The kernel's shape check of them. -/
def numberRefused : Checked titlesSpec threeRows.arguments where
  beside := .empty
  refused := .ofList [(1, .mapping [(.name "non_field_errors",
    .rows [.message ⟨"Expected an object.", "invalid"⟩])])]
  passed index := threeRows.rows.getD index .null
  asks := true
  declared name h := by cases h
  distinct h := by cases h
  within index h := by
    rw [List.mem_singleton.1 h]
    decide
  noObject index row hrow hobject := by
    match index, hrow with
    | 0, hrow => cases hrow; cases hobject
    | 1, _ => exact List.mem_singleton_self 1
    | 2, hrow => cases hrow; cases hobject
  truthy index errors h := by
    have hmem := Dict.mem_of_get?_ofList h
    cases List.mem_singleton.1 hmem
    rfl

/-- The number's errors stand at index 1 in DRF's words, the long title's at index 2, and the answer is
a list of three. -/
theorem row_errors_keep_indices_three :
    let answer := threeRows.rowsAnswer numberRefused "non_field_errors" builtKernel builtConstructors
      fun _ => "int"
    answer.bind (·.errorsAt 0) = none ∧
      answer.bind (·.errorsAt 1) = some (.mapping [(.name "non_field_errors", .rows [.message
        ⟨"Invalid data. Expected a dictionary, but got int.", "invalid"⟩])]) ∧
      answer.bind (·.errorsAt 2) = some titleRefusal ∧
      ∃ items, threeRows.left numberRefused "non_field_errors" builtKernel builtConstructors
          (fun _ => "int") = some (.validationError (.rows items)) ∧ items.length = 3 ∧
        items[0]? = some (.mapping []) := by
  obtain ⟨hkept, -, hwithin⟩ := row_errors_keep_indices threeRows titlesSpec numberRefused
    "non_field_errors" builtKernel builtConstructors keepsDetail_builtConstructors fun _ => "int"
  obtain ⟨herrors, -, hlist⟩ := hkept (hwithin (.inl rfl) rfl)
  have htitle : threeRows.refusedWith numberRefused 2 = some titleRefusal := by rfl
  obtain ⟨items, hleft, hlength, hempty⟩ := hlist rfl (by intro name h; cases h)
    (fun name => by rfl) ⟨2, by rw [htitle]; exact Option.some_ne_none _⟩
  refine ⟨(herrors 0).trans rfl, (herrors 1).trans rfl, ?_, items, hleft, hlength,
    (hempty 0 (by decide)).2 rfl⟩
  rw [herrors 2, htitle]
  rfl

end RowsCall

end RestFrameworkServices
