import RestFrameworkServices.Lib.Dict

/-!
# A parameter named like a filter

A name a filter reads and a callable marks as the server's is two things: the filter's argument,
the client's value, and the callable's parameter, which only the server fills. The compile wraps
such a callable twice (`as_kernel_spec.py`). `onTheServersChannel` takes each such parameter under
its `serverChannel` name and hands it back under its own. `besideItsFilter` drops the filter's
values an edge call's mapping holds and hands the values the edge prepared instead (`Beside`),
which hold no hidden name.

The first wrapper renames every key by its prefix, so the client's value under the filter's name
and the server's under the channel meet in one parameter. `get?_received_iff` says exactly when the
callable is handed the server's value there and no other: within an edge call, where no filter
reads the channel's own name; outside one, where the mapping holds no value of the filter's, or
holds it before the channel's.
-/

namespace RestFrameworkServices

open Lib

universe u v

/-! ## The channel's name -/

/-- Python's `s.removeprefix(p)`. -/
def removePrefix (p s : String) : String :=
  if p.toList <+: s.toList then String.ofList (s.toList.drop p.toList.length) else s

/-- Two strings become one name: the name behind the prefix, and the name itself where it does not
start with the prefix. -/
theorem removePrefix_eq_iff {p k n : String} :
    removePrefix p k = n ↔ k = p ++ n ∨ (k = n ∧ ¬ p.toList <+: n.toList) := by
  unfold removePrefix
  split
  · next hp =>
    obtain ⟨t, ht⟩ := hp
    have hk : k = p ++ String.ofList t := by
      rw [← String.toList_inj, String.toList_append, String.toList_ofList, ht]
    have hdrop : String.ofList (k.toList.drop p.toList.length) = String.ofList t := by
      rw [← ht, List.drop_left]
    rw [hdrop]
    constructor
    · rintro rfl
      exact .inl hk
    · rintro (h | ⟨rfl, hn⟩)
      · rw [hk, ← String.toList_inj, String.toList_append, String.toList_append] at h
        exact String.toList_inj.1 (List.append_cancel_left h)
      · exact absurd ⟨t, ht⟩ hn
  · next hp =>
    constructor
    · rintro rfl
      exact .inr ⟨rfl, hp⟩
    · rintro (rfl | ⟨rfl, -⟩)
      · exact absurd ⟨n.toList, String.toList_append.symm⟩ hp
      · rfl

/-- The prefix of the name a server's value travels under beside a filter (`SERVER_CHANNEL`). -/
def serverChannelPrefix : String := "_server_owned_"

/-- `server_channel`: the name the server's value for `name` travels under. -/
def serverChannel (name : String) : String := serverChannelPrefix ++ name

/-- A channel's name is not the name itself. -/
theorem ne_serverChannel (name : String) : name ≠ serverChannel name := by
  intro h
  have hlen := congrArg (fun s => s.toList.length) h
  simp only [serverChannel, String.toList_append, List.length_append] at hlen
  have : serverChannelPrefix.toList.length = 14 := by decide
  omega

/-- Two names have two channels. -/
theorem serverChannel_injective : Function.Injective serverChannel := by
  intro k n h
  have hlist := congrArg String.toList h
  simp only [serverChannel, String.toList_append] at hlist
  exact String.toList_inj.1 (List.append_cancel_left hlist)

/-! ## What the edge prepares -/

variable {V : Type u}

/-- What an edge call hands a spec's callables under its filter's names: a value for names the
filter reads (`filtered`) and no callable hides. -/
structure Beside (filtered hidden : List String) (V : Type u) where
  values : Dict String V
  within : ∀ name ∈ values.keys, name ∈ filtered ∧ name ∉ hidden

section
variable {filtered hidden : List String}

/-- `_filter_names`: the names the filter reads, less the hidden ones. -/
def filterNames (filtered hidden : List String) : List String := filtered.filter (· ∉ hidden)

@[simp] theorem mem_filterNames {name : String} :
    name ∈ filterNames filtered hidden ↔ name ∈ filtered ∧ name ∉ hidden := by
  simp [filterNames]

/-- The entries of `d` under the names the filter hands on. -/
def Dict.within (filtered hidden : List String) (d : Dict String V) : Dict String V :=
  d.filter fun name _ => name ∈ filterNames filtered hidden

/-- The names an entry is kept under are names the filter hands on. -/
theorem Dict.mem_within {d : Dict String V} {name : String}
    (h : name ∈ Dict.within filtered hidden d) : name ∈ filtered ∧ name ∉ hidden := by
  obtain ⟨x, hx⟩ := Option.isSome_iff_exists.1 (Dict.mem_iff_isSome.1 h)
  rw [Dict.within, Dict.get?_filter, Option.filter_eq_some_iff] at hx
  simpa using hx.2

namespace Beside

/-- A name the edge prepared no value for holds none. -/
theorem get?_of_hidden (b : Beside filtered hidden V) {name : String} (h : name ∈ hidden) :
    b.values.get? name = none :=
  Dict.get?_eq_none.2 fun hmem => (b.within name hmem).2 h

/-- Further values for names the filter hands on, over those prepared: an author's value, or what
a target lookup's provider answers (`_recording_beside_its_filter`). -/
def record (b : Beside filtered hidden V) (answered : Dict String V) :
    Beside filtered hidden V where
  values := b.values.update (Dict.within filtered hidden answered)
  within name hmem := by
    have h := Dict.mem_iff_isSome.1 hmem
    rw [Dict.get?_update, Option.isSome_or] at h
    rcases Bool.or_eq_true_iff.1 h with h | h
    · exact Dict.mem_within (Dict.mem_iff_isSome.2 h)
    · exact b.within name (Dict.mem_iff_isSome.2 h)

/-- What is recorded stands over what was prepared, under the names the filter hands on. -/
theorem get?_record (b : Beside filtered hidden V) (answered : Dict String V) (name : String) :
    (b.record answered).values.get? name =
      if name ∈ filtered ∧ name ∉ hidden then (answered.get? name).or (b.values.get? name)
      else none := by
  rw [record, Dict.get?_update, Dict.within, Dict.get?_filter]
  by_cases h : name ∈ filtered ∧ name ∉ hidden
  · have hname : name ∈ filterNames filtered hidden := mem_filterNames.2 h
    cases answered.get? name <;> simp [h, hname]
  · have hname : name ∉ filterNames filtered hidden := fun hmem => h (mem_filterNames.1 hmem)
    have hnone : b.values.get? name = none :=
      Dict.get?_eq_none.2 fun hmem => h (b.within name hmem)
    cases answered.get? name <;> simp [h, hname, hnone]

/-- `_beside_filter`: the caller's argument for each name the filter hands on, and the route's
capture over it; nothing where the arguments are no object. -/
def ofArguments (filtered hidden : List String) (arguments : Option (Dict String V))
    (route : Dict String V) : Beside filtered hidden V :=
  match arguments with
  | none => ⟨.empty, nofun⟩
  | some arguments =>
    (Beside.mk (V := V) .empty nofun |>.record arguments).record route

end Beside

end

/-! ## The two wrappers -/

/-- The signature of a callable, as far as the wrappers read it: the names of its parameters,
variadic ones included, and whether one of them is a `**kwargs`. -/
structure Signature where
  parameters : List String
  openEnded : Bool

/-- A callable: its signature, and what it does with the keyword arguments it is handed. What the
edge call in progress prepared for its spec is read as it runs (`values_beside_filter`), `none`
outside such a call. -/
structure Callable (filtered hidden : List String) (V : Type u) (R : Type v) where
  signature : Signature
  call : Option (Beside filtered hidden V) → Dict String V → R

section
variable {filtered hidden : List String} {R : Type v}

/-- The parameters of a signature that are taken on their server channel. -/
def channelled (filtered hidden : List String) (signature : Signature) : List String :=
  signature.parameters.filter fun name => name ∈ filtered ∧ name ∈ hidden

/-- `own_names`: each keyword argument under its parameter's own name. -/
def ownNames (kwargs : Dict String V) : Dict String V :=
  kwargs.mapKeys (removePrefix serverChannelPrefix)

/-- The signature with each parameter that is taken on its channel named so. -/
def channelledSignature (filtered hidden : List String) (signature : Signature) : Signature :=
  { signature with
    parameters := signature.parameters.map fun name =>
      if name ∈ channelled filtered hidden signature then serverChannel name else name }

/-- `_on_the_server_s_channel`: the callable, taking each of its shadowed parameters on its server
channel; `Signature.replace` refuses two parameters of one name. -/
def onTheServersChannel (fn : Callable filtered hidden V R) :
    Option (Callable filtered hidden V R) :=
  if (channelled filtered hidden fn.signature).isEmpty then some fn
  else if (channelledSignature filtered hidden fn.signature).parameters.Nodup then
    some
      { signature := channelledSignature filtered hidden fn.signature
        call := fun values kwargs => fn.call values (ownNames kwargs) }
  else none

/-- The filter's names a callable takes. -/
def takenBeside (filtered : List String) (signature : Signature) : List String :=
  if signature.openEnded then filtered else filtered.filter (· ∈ signature.parameters)

/-- `as_handed`: within an edge call, the filter's values dropped and the prepared ones handed
instead, where the callable takes the name. -/
def asHanded (taken : List String) (values : Option (Beside filtered hidden V))
    (kwargs : Dict String V) : Dict String V :=
  match values with
  | none => kwargs
  | some b => (kwargs.without filtered).update (b.values.filter fun name _ => name ∈ taken)

/-- `_beside_its_filter`: the callable, handed under its filter's names what the edge prepared. -/
def besideItsFilter (fn : Callable filtered hidden V R) : Callable filtered hidden V R :=
  let taken := takenBeside filtered fn.signature
  if taken.isEmpty then fn
  else { fn with call := fun values kwargs => fn.call values (asHanded taken values kwargs) }

/-- The callable the compile hands the kernel, before its refusals are translated. -/
def compiled (fn : Callable filtered hidden V R) : Option (Callable filtered hidden V R) :=
  (onTheServersChannel fn).map besideItsFilter

/-! ## What the author's callable is handed -/

/-- The keyword arguments the first wrapper hands on. -/
def handedBeside (signature : Signature) (values : Option (Beside filtered hidden V))
    (kwargs : Dict String V) : Dict String V :=
  let taken := takenBeside filtered (channelledSignature filtered hidden signature)
  if taken.isEmpty then kwargs else asHanded taken values kwargs

/-- The keyword arguments the author's callable is handed. -/
def received (signature : Signature) (values : Option (Beside filtered hidden V))
    (kwargs : Dict String V) : Dict String V :=
  if (channelled filtered hidden signature).isEmpty then handedBeside signature values kwargs
  else ownNames (handedBeside signature values kwargs)

/-- A signature with no parameter on a channel keeps its names. -/
theorem channelledSignature_eq {signature : Signature}
    (h : channelled filtered hidden signature = []) :
    channelledSignature filtered hidden signature = signature := by
  simp [channelledSignature, h]

/-- The compiled callable runs the author's on what it is handed. -/
theorem compiled_call {fn c : Callable filtered hidden V R} (h : compiled fn = some c)
    (values : Option (Beside filtered hidden V)) (kwargs : Dict String V) :
    c.call values kwargs = fn.call values (received fn.signature values kwargs) := by
  obtain ⟨d, hd, rfl⟩ := Option.map_eq_some_iff.1 h
  unfold onTheServersChannel at hd
  split at hd
  · next hc =>
    cases hd
    have hsig := channelledSignature_eq (List.isEmpty_iff.1 hc)
    by_cases hb : (takenBeside filtered fn.signature).isEmpty <;>
      simp [besideItsFilter, received, handedBeside, hsig, hc, hb]
  · next hc =>
    split at hd
    · cases hd
      by_cases hb : (takenBeside filtered
          (channelledSignature filtered hidden fn.signature)).isEmpty <;>
        simp [besideItsFilter, received, handedBeside, hc, hb]
    · cases hd

/-! ## The server's value and no other -/

/-- A parameter's value, over the mapping the second wrapper renames: the channel's where its entry
comes after the filter's, or where there is none of the filter's to come after. -/
theorem get?_ownNames (kwargs : Dict String V) (n : String) :
    (ownNames kwargs).get? n =
      if serverChannelPrefix.toList <+: n.toList ∨ [n, serverChannel n].Sublist kwargs.keys then
        kwargs.get? (serverChannel n)
      else (kwargs.get? n).or (kwargs.get? (serverChannel n)) := by
  by_cases hp : serverChannelPrefix.toList <+: n.toList
  · have hpre : ∀ k, removePrefix serverChannelPrefix k = n ↔ k = serverChannel n := by
      intro k
      simp [removePrefix_eq_iff, hp, serverChannel]
    rw [ownNames, Dict.get?_mapKeys_of_one hpre, if_pos (.inl hp)]
  · have hpre : ∀ k, removePrefix serverChannelPrefix k = n ↔ k = n ∨ k = serverChannel n := by
      intro k
      rw [removePrefix_eq_iff, serverChannel]
      simp [hp, or_comm]
    rw [ownNames, Dict.get?_mapKeys_of_two (ne_serverChannel n) hpre]
    simp [hp]

/-- Within an edge call, a hidden name holds nothing past the first wrapper. -/
theorem get?_asHanded_of_hidden {taken : List String} (b : Beside filtered hidden V)
    (kwargs : Dict String V) {n : String} (hf : n ∈ filtered) (hh : n ∈ hidden) :
    (asHanded taken (some b) kwargs).get? n = none := by
  simp [asHanded, b.get?_of_hidden hh, hf]

/-- Where the author's callable is handed under a hidden name the server's value and no other.
Within an edge call: no filter reads the channel's own name, or the one the edge prepared for it is
the server's value, and a callable with no parameter on a channel is handed nothing under one.
Outside one: the mapping holds nothing of the filter's, the same value, or the channel's after it,
and a callable with no parameter on a channel is handed the two alike. -/
def ServerAlone (signature : Signature) (values : Option (Beside filtered hidden V))
    (kwargs : Dict String V) (n : String) : Prop :=
  let taken := takenBeside filtered (channelledSignature filtered hidden signature)
  match if taken.isEmpty then none else values with
  | some b =>
    if (channelled filtered hidden signature).isEmpty then kwargs.get? (serverChannel n) = none
    else serverChannel n ∉ filtered ∨
      (b.values.get? (serverChannel n)).filter (fun _ => serverChannel n ∈ taken) =
        kwargs.get? (serverChannel n)
  | none =>
    if (channelled filtered hidden signature).isEmpty then
      kwargs.get? n = kwargs.get? (serverChannel n)
    else serverChannelPrefix.toList <+: n.toList ∨ n ∉ kwargs ∨
      kwargs.get? n = kwargs.get? (serverChannel n) ∨ [n, serverChannel n].Sublist kwargs.keys

/-- Handed the kernel's mapping as it is, the renamed one holds the server's value where the filter
left none behind it. -/
theorem get?_ownNames_iff (kwargs : Dict String V) (n : String) :
    (ownNames kwargs).get? n = kwargs.get? (serverChannel n) ↔
      serverChannelPrefix.toList <+: n.toList ∨ n ∉ kwargs ∨
        kwargs.get? n = kwargs.get? (serverChannel n) ∨
        [n, serverChannel n].Sublist kwargs.keys := by
  rw [get?_ownNames]
  by_cases hp : serverChannelPrefix.toList <+: n.toList ∨
      [n, serverChannel n].Sublist kwargs.keys
  · rw [if_pos hp]
    simp only [true_iff]
    rcases hp with hp | hs
    · exact .inl hp
    · exact .inr (.inr (.inr hs))
  · rw [if_neg hp]
    rw [not_or] at hp
    simp only [hp.1, hp.2, false_or, or_false]
    cases hn : kwargs.get? n with
    | none => simp [Dict.get?_eq_none.1 hn]
    | some x =>
      have hmem : n ∈ kwargs := Dict.mem_iff_isSome.2 (by simp [hn])
      simp [hmem]

/-- Within an edge call, the channel holds past the first wrapper what the kernel handed it, a
filter of its own name aside. -/
theorem get?_asHanded_serverChannel {taken : List String} (b : Beside filtered hidden V)
    (kwargs : Dict String V) (n : String) :
    (asHanded taken (some b) kwargs).get? (serverChannel n) =
        kwargs.get? (serverChannel n) ↔
      serverChannel n ∉ filtered ∨
        (b.values.get? (serverChannel n)).filter (fun _ => serverChannel n ∈ taken) =
          kwargs.get? (serverChannel n) := by
  rw [asHanded, Dict.get?_update, Dict.get?_filter, Dict.get?_without]
  by_cases hf : serverChannel n ∈ filtered
  · simp [hf]
  · have hno : b.values.get? (serverChannel n) = none :=
      Dict.get?_eq_none.2 fun hmem => hf (b.within _ hmem).1
    simp [hf, hno]

/-- What the author's callable receives under a hidden name a filter reads is the server's value
exactly in the calls `ServerAlone` describes. -/
theorem get?_received (signature : Signature) (values : Option (Beside filtered hidden V))
    (kwargs : Dict String V) (n : String) (hf : n ∈ filtered) (hh : n ∈ hidden) :
    (received signature values kwargs).get? n = kwargs.get? (serverChannel n) ↔
      ServerAlone signature values kwargs n := by
  unfold received ServerAlone handedBeside
  by_cases ht : (takenBeside filtered (channelledSignature filtered hidden signature)).isEmpty
  · simp only [ht, if_true]
    by_cases hc : (channelled filtered hidden signature).isEmpty
    · simp only [hc, if_true]
    · simp only [hc, Bool.false_eq_true, if_false]
      exact get?_ownNames_iff kwargs n
  · simp only [ht, Bool.false_eq_true, if_false]
    cases values with
    | none =>
      by_cases hc : (channelled filtered hidden signature).isEmpty
      · simp only [hc, if_true, asHanded]
      · simp only [hc, Bool.false_eq_true, if_false, asHanded]
        exact get?_ownNames_iff kwargs n
    | some b =>
      by_cases hc : (channelled filtered hidden signature).isEmpty
      · simp only [hc, if_true, get?_asHanded_of_hidden b kwargs hf hh]
        exact eq_comm
      · -- the filter's value is dropped, so the channel's is the only one renamed
        simp only [hc, Bool.false_eq_true, if_false, get?_ownNames,
          get?_asHanded_of_hidden b kwargs hf hh, Option.none_or, ite_self]
        exact get?_asHanded_serverChannel b kwargs n

/-- **The compiled callable runs the author's on what it receives, which under a hidden name a filter
reads is the server's value and no other exactly in the calls `ServerAlone` describes.** -/
theorem get?_received_iff (signature : Signature) (values : Option (Beside filtered hidden V))
    (kwargs : Dict String V) (n : String) (hf : n ∈ filtered) (hh : n ∈ hidden) :
    (∀ fn c : Callable filtered hidden V R, fn.signature = signature → compiled fn = some c →
      c.call values kwargs = fn.call values (received signature values kwargs)) ∧
    ((received signature values kwargs).get? n = kwargs.get? (serverChannel n) ↔
      ServerAlone signature values kwargs n) := by
  refine ⟨?_, get?_received signature values kwargs n hf hh⟩
  rintro fn c rfl hcompiled
  exact compiled_call hcompiled values kwargs

/-- The signature of `def every_post(title: Annotated[str, NotClientInput] = "unset", **rest)`. -/
def everyPost : Signature := ⟨["title", "rest"], true⟩

/-- A callable that answers with the keyword arguments it is handed. -/
def recording (signature : Signature) : Callable filtered hidden V (Dict String V) :=
  ⟨signature, fun _ kwargs => kwargs⟩

/-- A call's arguments: a title and an ordering. -/
def titleArguments : Dict String String := .ofList [("title", "a"), ("ordering", "-name")]

/-- Within an edge call the client's value filters and never reaches the parameter. -/
theorem get?_received_everyPost : ∃ c,
    compiled (recording everyPost : Callable ["title", "ordering"] ["title"] String _) = some c ∧
      (c.call (some (.ofArguments ["title", "ordering"] ["title"] (some titleArguments) .empty))
          titleArguments).get? "title" =
        titleArguments.get? (serverChannel "title") := by
  refine ⟨_, rfl, ?_⟩
  obtain ⟨hruns, halone⟩ := get?_received_iff everyPost
    (some (.ofArguments ["title", "ordering"] ["title"] (some titleArguments) .empty)) titleArguments
    "title" (by decide) (by decide)
  rw [hruns (recording everyPost) _ rfl rfl]
  exact halone.2 (.inl (by decide))

/-- In the kernel's own dispatch the client's value reaches the parameter: the pool holds the
filter's argument, a `**kwargs` is handed it, and it is renamed into the parameter. -/
theorem get?_received_leaks_everyPost :
    ¬ ∀ (filtered hidden : List String) (signature : Signature)
      (c : Callable filtered hidden String (Dict String String))
      (values : Option (Beside filtered hidden String)) (kwargs : Dict String String) (n : String),
      compiled (recording signature) = some c → n ∈ filtered → n ∈ hidden →
      (c.call values kwargs).get? n = kwargs.get? (serverChannel n) := by
  intro h
  have := h ["title"] ["title"] everyPost _ none (.ofList [("title", "a")]) "title" rfl (by decide)
    (by decide)
  revert this
  decide

end

end RestFrameworkServices
