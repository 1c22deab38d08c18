import RestFrameworkServices.Dispatch.EdgeInput
import RestFrameworkServices.Dispatch.RowErrors

/-!
# The body a Validator binds

`_validator_body` tells what the edge put over the caller's values by the objects themselves: a field's
value that is the very object that was sent was not put. So it is modelled over references, of which a
heap gives the values, and bodies are objects too, that `copy` makes new ones of and a form's writes
change in place (`Bodies`).

`ServerOver` says what the body is for: the caller's, with the edge's values over it. The code meets it
exactly where no value the edge put is the object that was sent, or the body answers it already
(`serverOver_iff`); over the rows of a `many` call it always does.
-/

namespace RestFrameworkServices

open Lib

/-! ## What a body answers -/

/-- A value as the values of a form's key: a list's items, anything else as the one value. -/
def formValues : Value → List Value
  | .list items => items
  | value => [value]

/-- What a body answers a key with: all of a form's values, in order, or an object's value. -/
inductive Answered where
  | values (values : List Value)
  | value (value : Value)

namespace RequestData

/-- What a body answers a key with. -/
def get? : RequestData → String → Option Answered
  | .form body, name => (body.lists.get? name).map .values
  | .object entries, name => (entries.get? name).map .value
  | .other _, _ => none

/-- A value as a body of its kind holds it. -/
def written : RequestData → Value → Answered
  | .form _, value => .values (formValues value)
  | .object _, value | .other _, value => .value value

/-- `isinstance(params, Mapping)`, which a form is too. -/
def isMapping : RequestData → Bool
  | .form _ | .object _ => true
  | .other _ => false

/-- Two bodies are equal: of one kind, with the same answers. -/
def Same (body body' : RequestData) : Prop :=
  body.isObject = body'.isObject ∧ ∀ name, body.get? name = body'.get? name

end RequestData

/-- A form's value is written under its name alone. -/
theorem QueryDict.writeFormValue_eq (body : QueryDict) (name : String) (value : Value) :
    body.writeFormValue name value = ⟨body.lists.set name (formValues value)⟩ := by
  cases value <;> rfl

/-- Values written into a form one after another leave each key the last of its own. -/
theorem entries_foldl_writeFormValue : ∀ (entries : List (String × Value)) (body : QueryDict),
    (entries.foldl (fun body e => body.writeFormValue e.1 e.2) body).lists.entries =
      (entries.map fun e => (e.1, formValues e.2)).foldl (fun es e => assign e.1 e.2 es)
        body.lists.entries
  | [], _ => rfl
  | e :: entries, body => by
    rw [List.foldl_cons, entries_foldl_writeFormValue entries, QueryDict.writeFormValue_eq]
    rfl

/-- So a form is updated by the values written into it. -/
theorem lists_foldl_writeFormValue (put : Dict String Value) (body : QueryDict) :
    (put.entries.foldl (fun body e => body.writeFormValue e.1 e.2) body).lists =
      body.lists.update (put.mapValues formValues) := by
  rw [Dict.mk.injEq]
  exact entries_foldl_writeFormValue put.entries body

/-- A body answers a key with what was put under it, else as it did. -/
theorem get?_validatorBody {data : RequestData} (h : data.isMapping = true)
    (put : Dict String Value) (name : String) :
    (validatorBody data put).get? name = ((put.get? name).map data.written).or (data.get? name) := by
  rw [validatorBody.eq_def]
  split
  · next hnone =>
    have hput : put.get? name = none := by
      rw [Dict.get?, List.isEmpty_iff.1 hnone]
      rfl
    rw [hput, Option.map_none, Option.none_or]
  · cases data with
    | form body =>
      simp only [RequestData.get?, lists_foldl_writeFormValue, Dict.get?_update, Dict.get?_mapValues]
      cases put.get? name <;> rfl
    | object entries =>
      simp only [RequestData.get?, Dict.get?_update]
      cases put.get? name <;> rfl
    | other type => cases h

/-- A body put over is an object where it was one. -/
theorem isObject_validatorBody (data : RequestData) (put : Dict String Value) :
    (validatorBody data put).isObject = data.isObject := by
  rw [validatorBody.eq_def]
  cases data <;> split <;> rfl

/-! ## `apply_input_data` -/

/-- What `apply_input_data` is handed: a list of rows, or one body. -/
inductive InputParams where
  | rows (items : List Value)
  | body (data : RequestData)

/-- `{**item, **extra}`, of an item that is a mapping. -/
def mergeItem (extra : Dict String Value) : Value → Option Value
  | .mapping _ entries => some (.mapping true (ofPairs (entries ++ extra.entries)))
  | _ => none

/-- `apply_input_data`, which has no answer where it would unpack what is no mapping. -/
def applyInputData (params : InputParams) (extra : Dict String Value) : Option InputParams :=
  if extra.entries.isEmpty then some params
  else match params with
    | .rows items => (items.mapM (mergeItem extra)).map .rows
    | .body (.form body) =>
      some (.body (.form (extra.entries.foldl (fun merged e => merged.writeFormValue e.1 e.2) body)))
    | .body (.object entries) => some (.body (.object (entries.update extra)))
    | .body (.other _) => none

/-- Of one body it is what the edge makes of it and of what it puts. -/
theorem applyInputData_body {data : RequestData} (h : data.isMapping = true)
    (extra : Dict String Value) :
    applyInputData (.body data) extra = some (.body (validatorBody data extra)) := by
  rw [applyInputData.eq_def, validatorBody.eq_def]
  split
  · rfl
  · cases data with
    | form body => rfl
    | object entries => rfl
    | other type => cases h

/-- Where the server puts nothing, a row is as it was. -/
theorem withServer_of_empty {server : Dict String Value} (h : server.entries.isEmpty = true)
    (row : Value) : withServer server row = row := by
  cases row <;> first | rfl | rw [withServer, if_pos h]

/-- Of rows that are all objects it is the server's keys over each. -/
theorem applyInputData_rows {items : List Value} (h : ∀ item ∈ items, item.isMapping = true)
    (extra : Dict String Value) :
    applyInputData (.rows items) extra = some (.rows (items.map (withServer extra))) := by
  rw [applyInputData.eq_def]
  split
  · next hnone => rw [List.map_congr_left fun item _ => withServer_of_empty hnone item, List.map_id']
  · next hsome =>
    have hmerge : ∀ item ∈ items, mergeItem extra item = some (withServer extra item) := by
      intro item hitem
      have hmapping := h item hitem
      cases item with
      | mapping mutable entries => rw [mergeItem, withServer, if_neg hsome]
      | _ => cases hmapping
    have hrows : items.mapM (mergeItem extra) = some (items.map (withServer extra)) := by
      clear h
      induction items with
      | nil => rfl
      | cons item items ih =>
        rw [List.forall_mem_cons] at hmerge
        rw [List.mapM_cons, hmerge.1, ih hmerge.2]
        rfl
    show (items.mapM (mergeItem extra)).map InputParams.rows = _
    rw [hrows, Option.map_some]

/-! ## Bodies as objects -/

/-- The bodies there are, each at the position it was made at. -/
abbrev Bodies := List RequestData

namespace Bodies

/-- A new body. -/
def add (bodies : Bodies) (body : RequestData) : Bodies × ℕ := (bodies ++ [body], bodies.length)

/-- `write_form_value`, which changes the form it is handed. -/
def writeFormValue (bodies : Bodies) (body : ℕ) (name : String) (value : Value) : Bodies :=
  bodies.modify body fun
    | .form form => .form (form.writeFormValue name value)
    | data => data

/-- A write into the newest body changes no other. -/
theorem writeFormValue_newest (bodies : Bodies) (form : QueryDict) (name : String) (value : Value) :
    writeFormValue (bodies ++ [.form form]) bodies.length name value =
      bodies ++ [.form (form.writeFormValue name value)] := by
  rw [writeFormValue, List.modify_eq_set_getElem?, List.getElem?_concat_length]
  simp

/-- Nor do several. -/
theorem foldl_writeFormValue_newest (bodies : Bodies) : ∀ (writes : List (String × Value))
    (form : QueryDict),
    writes.foldl (fun bodies' e => writeFormValue bodies' bodies.length e.1 e.2)
        (bodies ++ [.form form]) =
      bodies ++ [.form (writes.foldl (fun form e => form.writeFormValue e.1 e.2) form)]
  | [], _ => rfl
  | e :: writes, form => by
    rw [List.foldl_cons, writeFormValue_newest, foldl_writeFormValue_newest bodies writes,
      List.foldl_cons]

end Bodies

section
variable (heap : ℕ → Value) (fields : List String)

/-- `put` of `_validator_body`: each field's value that was not sent, or is another object than was. -/
def putReferences (sent arguments : Dict String ℕ) : Dict String ℕ :=
  .tabulate (fun name => (arguments.get? name).filter fun value => sent.get? name != some value)
    fields

/-- `_validator_body`, over references to the values and to the bodies. -/
def Bodies.validatorBody (bodies : Bodies) (params : ℕ) (sent arguments : Dict String ℕ) :
    Bodies × ℕ :=
  let put := putReferences fields sent arguments
  if put.entries.isEmpty then (bodies, params)
  else match bodies[params]? with
    | some (.form form) =>
      let (bodies, body) := bodies.add (.form form)
      (put.entries.foldl (fun bodies e => bodies.writeFormValue body e.1 (heap e.2)) bodies, body)
    | some (.object entries) => bodies.add (.object (entries.update (put.mapValues heap)))
    | some (.other _) | none => (bodies, params)

/-- What the edge makes of a call's arguments over what the caller's body became: the keys it takes out,
and the values it puts, an author's, a filter's or the server's, the last of them for each name. -/
structure EdgeValues where
  sent : Dict String ℕ
  taken : List String
  put : Dict String ℕ

/-- The arguments the kernel goes on with. -/
def EdgeValues.arguments (edge : EdgeValues) : Dict String ℕ :=
  (edge.sent.without edge.taken).update edge.put

/-- The caller's body with the edge's values over it: no body there was is changed, and with no field's
value put the body is the caller's itself; a field put answers with the value, as the body's own kind
writes it, and any other key as the caller's does; which is what `apply_input_data` makes of the
fields' values. -/
structure ServerOver (edge : EdgeValues) (bodies : Bodies) (params : ℕ) (data : RequestData)
    (bound : Bodies × ℕ) : Prop where
  kept : bodies <+: bound.1
  itself : (∀ name ∈ fields, name ∉ edge.put) → bound.2 = params
  body : ∃ body, bound.1[bound.2]? = some body ∧
    (∀ name ∈ fields, ∀ value, edge.put.get? name = some value →
      body.get? name = some (data.written (heap value))) ∧
    (∀ name, name ∉ fields ∨ name ∉ edge.put → body.get? name = data.get? name) ∧
    ∃ applied, applyInputData (.body data)
        ((edge.put.filter fun name _ => name ∈ fields).mapValues heap) = some (.body applied) ∧
      body.Same applied

variable {heap fields} {bodies : Bodies} {params : ℕ} {data : RequestData}

variable (heap fields) in
/-- The body bound is the caller's with what was put over it, made beside the bodies there were. -/
theorem validatorBody_bound (hparams : bodies[params]? = some data) (hmapping : data.isMapping = true)
    (sent arguments : Dict String ℕ) :
    bodies <+: (bodies.validatorBody heap fields params sent arguments).1 ∧
      (bodies.validatorBody heap fields params sent arguments).1[
          (bodies.validatorBody heap fields params sent arguments).2]? =
        some (validatorBody data ((putReferences fields sent arguments).mapValues heap)) ∧
      ((putReferences fields sent arguments).entries = [] →
        (bodies.validatorBody heap fields params sent arguments).2 = params) := by
  rw [Bodies.validatorBody.eq_def, validatorBody.eq_def, hparams]
  generalize putReferences fields sent arguments = put
  have hempty : (put.mapValues heap).entries.isEmpty = put.entries.isEmpty := List.isEmpty_map
  rw [hempty]
  by_cases hnone : put.entries.isEmpty
  · simp only [if_pos hnone]
    exact ⟨List.prefix_refl _, hparams, fun _ => trivial⟩
  · have hsome : put.entries ≠ [] := fun hnil => hnone (List.isEmpty_iff.2 hnil)
    simp only [if_neg hnone]
    cases data with
    | form form =>
      have hwrites := Bodies.foldl_writeFormValue_newest bodies (put.mapValues heap).entries form
      simp only [Dict.mapValues, List.foldl_map] at hwrites ⊢
      simp only [Bodies.add, hwrites]
      exact ⟨List.prefix_append _ _, List.getElem?_concat_length, fun hnil => absurd hnil hsome⟩
    | object entries =>
      exact ⟨List.prefix_append _ _, List.getElem?_concat_length, fun hnil => absurd hnil hsome⟩
    | other type => cases hmapping

/-- What is put for a name: what the edge put, unless it is the object that was sent. -/
theorem get?_putReferences (edge : EdgeValues) (name : String) :
    (putReferences fields edge.sent edge.arguments).get? name =
      if name ∈ fields then (edge.put.get? name).filter fun value => edge.sent.get? name != some value
      else none := by
  rw [putReferences, Dict.get?_tabulate]
  split
  · rw [EdgeValues.arguments, Dict.get?_update, Dict.get?_without]
    cases edge.put.get? name with
    | some value => rw [Option.some_or]
    | none =>
      -- the value there is, if any, is the one sent
      split
      · rfl
      · cases edge.sent.get? name <;> simp
  · rfl

variable (heap fields) in
/-- The body answers a field with what the edge put, unless it is the object that was sent. -/
theorem get?_validatorBody_put (hmapping : data.isMapping = true) (edge : EdgeValues) (name : String) :
    (validatorBody data ((putReferences fields edge.sent edge.arguments).mapValues heap)).get? name =
      (if name ∈ fields then (edge.put.get? name).filter fun value => edge.sent.get? name != some value
        else none).elim (data.get? name) fun value => some (data.written (heap value)) := by
  rw [get?_validatorBody hmapping, Dict.get?_mapValues, get?_putReferences]
  split
  · cases (edge.put.get? name).filter _ <;> rfl
  · rfl

/-- A field the edge put is not put where its value is the object that was sent: there the caller's body
has to answer it already. -/
theorem serverOver_single_iff (edge : EdgeValues) (hparams : bodies[params]? = some data)
    (hmapping : data.isMapping = true) :
    ServerOver heap fields edge bodies params data
        (bodies.validatorBody heap fields params edge.sent edge.arguments) ↔
      ∀ name ∈ fields, ∀ value, edge.put.get? name = some value →
        edge.sent.get? name = some value → data.get? name = some (data.written (heap value)) := by
  obtain ⟨hkept, hbound, hitself⟩ :=
    validatorBody_bound heap fields hparams hmapping edge.sent edge.arguments
  generalize bodies.validatorBody heap fields params edge.sent edge.arguments = bound at *
  have hanswer := get?_validatorBody_put heap fields hmapping edge
  constructor
  · rintro ⟨-, -, body, hbody, hput, -⟩ name hname value hvalue hsent
    obtain rfl : _ = body := Option.some.inj (hbound.symm.trans hbody)
    rw [← hput name hname value hvalue, hanswer, if_pos hname, hvalue, hsent,
      Option.filter_some, bne_self_eq_false, if_neg Bool.false_ne_true, Option.elim_none]
  · intro h
    have hput : ∀ name ∈ fields, ∀ value, edge.put.get? name = some value →
        (validatorBody data ((putReferences fields edge.sent edge.arguments).mapValues heap)).get?
          name = some (data.written (heap value)) := by
      intro name hname value hvalue
      rw [hanswer, if_pos hname, hvalue, Option.filter_some]
      by_cases hsent : edge.sent.get? name = some value
      · rw [hsent, bne_self_eq_false, if_neg Bool.false_ne_true, Option.elim_none]
        exact h name hname value hvalue hsent
      · rw [bne_iff_ne.2 hsent, if_pos rfl, Option.elim_some]
    have hothers : ∀ name, name ∉ fields ∨ name ∉ edge.put →
        (validatorBody data ((putReferences fields edge.sent edge.arguments).mapValues heap)).get?
          name = data.get? name := by
      rintro name (hname | hname)
      · rw [hanswer, if_neg hname, Option.elim_none]
      · rw [hanswer, Dict.get?_eq_none.2 hname, Option.filter_none, ite_self, Option.elim_none]
    refine ⟨hkept, fun hnone => hitself ?_, _, hbound, hput, hothers, _,
      applyInputData_body hmapping _, ?_, fun name => ?_⟩
    · refine List.eq_nil_iff_forall_not_mem.2 fun e he => ?_
      have hvalue := Dict.get?_eq_some.2 he
      rw [get?_putReferences] at hvalue
      split at hvalue
      · next hname =>
        rw [Dict.get?_eq_none.2 (hnone e.1 hname), Option.filter_none] at hvalue
        cases hvalue
      · cases hvalue
    · rw [isObject_validatorBody, isObject_validatorBody]
    · rw [get?_validatorBody hmapping ((edge.put.filter _).mapValues heap), Dict.get?_mapValues,
        Dict.get?_filter]
      by_cases hname : name ∈ fields
      · cases hvalue : edge.put.get? name with
        | some value =>
          rw [hput name hname value hvalue, Option.filter_some, if_pos (decide_eq_true hname)]
          rfl
        | none =>
          rw [hothers name (.inr (Dict.get?_eq_none.1 hvalue))]
          rfl
      · rw [hothers name (.inl hname)]
        cases edge.put.get? name <;> simp [hname]

end

/-! ## Rows -/

/-- The rows a `many` call's Validator binds, of the lists there are: the list sent, where nothing goes
over its rows. -/
def rowsBody (server : Dict String Value) (lists : List (List Value)) (sent : ℕ) :
    List (List Value) × ℕ :=
  if server.entries.isEmpty then (lists, sent)
  else match lists[sent]? with
    | some rows => (lists ++ [rows.map (withServer server)], lists.length)
    | none => (lists, sent)

/-- What an object holds. -/
def Value.dict? : Value → Option (Dict String Value)
  | .mapping _ entries => some (.ofList entries)
  | _ => none

/-- The rows sent with the server's values over each: no list there was is changed, and with no value
the rows are the list sent itself; each row that is an object holds the server's values and its own
others, and any other row is as it was sent; which is what `apply_input_data` makes of the rows. -/
structure ServerOverRows (server : Dict String Value) (lists : List (List Value)) (sent : ℕ)
    (rows : List Value) (bound : List (List Value) × ℕ) : Prop where
  kept : lists <+: bound.1
  itself : server.entries = [] → bound.2 = sent
  body : ∃ body, bound.1[bound.2]? = some body ∧ body.length = rows.length ∧
    (∀ (index : ℕ) row, rows[index]? = some row → ∃ row', body[index]? = some row' ∧
      (row.dict? = none → row' = row) ∧
      ∀ held, row.dict? = some held → ∃ held', row'.dict? = some held' ∧
        (∀ name value, server.get? name = some value → held'.get? name = some value) ∧
        ∀ name, name ∉ server → held'.get? name = held.get? name) ∧
    ((∀ row ∈ rows, row.isMapping = true) →
      applyInputData (.rows rows) server = some (.rows body))

section
variable (server : Dict String Value)

/-- An object with the server's keys over it holds the server's value for each of them, and its own for
any other. -/
theorem dict?_withServer {row : Value} {held : Dict String Value} (h : row.dict? = some held) :
    ∃ held', (withServer server row).dict? = some held' ∧
      ∀ name, held'.get? name = (server.get? name).or (held.get? name) := by
  cases row with
  | mapping mutable entries =>
    obtain rfl := Option.some.inj h
    rw [withServer]
    split
    · next hnone =>
      refine ⟨_, rfl, fun name => ?_⟩
      have hserver : server.get? name = none := by
        rw [Dict.get?, List.isEmpty_iff.1 hnone]
        rfl
      rw [hserver, Option.none_or]
    · refine ⟨_, rfl, fun name => ?_⟩
      have hnodup : (keysOf (ofPairs (entries ++ server.entries))).Nodup :=
        nodup_foldl_assign _ .nil
      rw [Dict.get?_ofList, lookup_reverse_of_nodup hnodup, lookup_ofPairs, List.reverse_append,
        List.lookup_append, lookup_reverse_of_nodup server.nodup, Dict.get?_ofList]
      rfl
  | _ => cases h

/-- A row that is no object is bound as it was sent. -/
theorem withServer_of_no_dict {row : Value} (h : row.dict? = none) : withServer server row = row := by
  cases row with
  | mapping mutable entries => cases h
  | _ => rfl

/-- The rows are bound in a list of their own, each with what the server puts. -/
theorem rowsBody_bound {lists : List (List Value)} {sent : ℕ} {rows : List Value}
    (h : lists[sent]? = some rows) :
    lists <+: (rowsBody server lists sent).1 ∧
      (rowsBody server lists sent).1[(rowsBody server lists sent).2]? =
        some (rows.map (withServer server)) := by
  rw [rowsBody]
  split
  · next hnone =>
    rw [List.map_congr_left fun row _ => withServer_of_empty hnone row, List.map_id']
    exact ⟨List.prefix_refl _, h⟩
  · rw [h]
    exact ⟨List.prefix_append _ _, List.getElem?_concat_length⟩

/-- So the server's values are over each row that is an object, and no list there was is changed. -/
theorem serverOverRows {lists : List (List Value)} {sent : ℕ} {rows : List Value}
    (h : lists[sent]? = some rows) :
    ServerOverRows server lists sent rows (rowsBody server lists sent) := by
  obtain ⟨hkept, hbound⟩ := rowsBody_bound server h
  refine ⟨hkept, fun hnone => by rw [rowsBody, if_pos (List.isEmpty_iff.2 hnone)], _, hbound,
    List.length_map _, fun index row hrow => ?_, fun hrows => applyInputData_rows hrows server⟩
  refine ⟨withServer server row, by rw [List.getElem?_map, hrow, Option.map_some],
    withServer_of_no_dict server, fun held hheld => ?_⟩
  obtain ⟨held', hheld', hget⟩ := dict?_withServer server hheld
  refine ⟨held', hheld', fun name value hvalue => ?_, fun name hname => ?_⟩
  · rw [hget, hvalue, Option.some_or]
  · rw [hget, Dict.get?_eq_none.2 hname, Option.none_or]

end

/-- **The body a Validator binds is the caller's with the server's values over it exactly where no value
put is the object sent for its field, or the caller's body answers it already; and each row of a
`many` call is the caller's with the server's values over it.** -/
theorem serverOver_iff {heap : ℕ → Value} {fields : List String} {bodies : Bodies} {params : ℕ}
    {data : RequestData} (edge : EdgeValues) (hparams : bodies[params]? = some data)
    (hmapping : data.isMapping = true) (server : Dict String Value) {lists : List (List Value)}
    {sent : ℕ} {rows : List Value} (hrows : lists[sent]? = some rows) :
    (ServerOver heap fields edge bodies params data
        (bodies.validatorBody heap fields params edge.sent edge.arguments) ↔
      ∀ name ∈ fields, ∀ value, edge.put.get? name = some value →
        edge.sent.get? name = some value → data.get? name = some (data.written (heap value))) ∧
      ServerOverRows server lists sent rows (rowsBody server lists sent) :=
  ⟨serverOver_single_iff edge hparams hmapping, serverOverRows server hrows⟩

/-! ### A post's comment -/

/-- The objects of a call: the post the route captures, another post, and two tags. -/
def commentHeap : ℕ → Value
  | 0 => .str "7"
  | 1 => .str "9"
  | 2 => .str "old"
  | _ => .list [.str "new"]

/-- A form that sends two tags and no post. -/
def commentForm : RequestData := .form ⟨.ofList [("tags", [.str "a", .str "b"]), ("text", [.str "hi"])]⟩

/-- The server's tags are put over the form's, and the row of a `many` call takes them too. -/
theorem serverOver_iff_comment :
    ServerOver commentHeap ["tags", "text"] ⟨.ofList [("tags", 2)], [], .ofList [("tags", 3)]⟩
        [commentForm] 0 commentForm
        (Bodies.validatorBody commentHeap ["tags", "text"] [commentForm] 0 (.ofList [("tags", 2)])
          (EdgeValues.arguments ⟨.ofList [("tags", 2)], [], .ofList [("tags", 3)]⟩)) ∧
      ServerOverRows (.ofList [("post", .str "7")]) [[.mapping true [], .null]] 0
        [.mapping true [], .null]
        (rowsBody (.ofList [("post", .str "7")]) [[.mapping true [], .null]] 0) := by
  obtain ⟨hsingle, hrows⟩ := @serverOver_iff commentHeap ["tags", "text"] [commentForm] 0 commentForm
    ⟨.ofList [("tags", 2)], [], .ofList [("tags", 3)]⟩ rfl rfl (.ofList [("post", .str "7")])
    [[.mapping true [], .null]] 0 _ rfl
  refine ⟨hsingle.2 fun name _ value hput hsent => ?_, hrows⟩
  have hput := Dict.get?_eq_some.1 hput
  have hsent := Dict.get?_eq_some.1 hsent
  cases List.mem_singleton.1 hput
  cases List.mem_singleton.1 hsent

/-- The route's post is sent for the field too, so the server's value of it, the same object, is not
put, and the body keeps the client's. -/
theorem not_serverOver_captured :
    ¬ ServerOver commentHeap ["post"] ⟨.ofList [("post", 0)], [], .ofList [("post", 0)]⟩
      [.object (.ofList [("post", .str "9")])] 0 (.object (.ofList [("post", .str "9")]))
      (Bodies.validatorBody commentHeap ["post"] [.object (.ofList [("post", .str "9")])] 0
        (.ofList [("post", 0)])
        (EdgeValues.arguments ⟨.ofList [("post", 0)], [], .ofList [("post", 0)]⟩)) := by
  rintro ⟨-, -, body, hbody, hput, -⟩
  have hpost := hput "post" (List.mem_singleton_self _) 0 rfl
  obtain rfl : RequestData.object (.ofList [("post", .str "9")]) = body := Option.some.inj hbody
  have hkept : Answered.value (.str "9") = .value (.str "7") := Option.some.inj hpost
  simp at hkept

end RestFrameworkServices
