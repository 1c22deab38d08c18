import Mathlib.Data.List.Dedup
import RestFrameworkServices.Types.Value

/-!
# The permissions of a polymorphic action

An action of a viewset may hold several service specs, of which a discriminator picks one for each
request. What the request's permission check enforces (`getPermissions`) and what its handler
dispatches (`dispatchedSpec`) each ask for the variant, at two times of the request, through the
choices the view memoizes. `polymorphicPermissions_enforced`: over every order of resolutions,
permission checks and handlers of a request, and whatever the discriminator answers at each call, a
variant is dispatched only past a check of all its classes, and under `discriminate` the variant
that was checked is the one dispatched, where no other spec is keyed under the action's name. The
check reads an entry of `action_specs` before the spec a decorator stamped, the handler of a
decorated action only the stamped one, so an entry under the name of a decorated action parts the
two (`keyedPay_unenforced`).
-/

namespace RestFrameworkServices.Viewsets

open Lib

universe u v w

/-- `permission_strategy`. -/
inductive PermissionStrategy where
  | union
  | discriminate
  | requireIdentical
deriving DecidableEq, Repr

/-- A service spec, of which the permissions are declared or left to the view (`none`). -/
structure ServiceSpec (P : Type u) (S : Type v) where
  service : S
  permissionClasses : Option (List P)
deriving DecidableEq

/-- The variants of a polymorphic spec, keyed by what its discriminator returns. -/
structure PolymorphicServiceSpec (P : Type u) (S : Type v) where
  specs : Dict String (ServiceSpec P S)
  permissionStrategy : PermissionStrategy := .union

/-- A spec of an action. A polymorphic one is an object, told from others by its `id`. -/
inductive ActionSpec (P : Type u) (S : Type v) where
  | selector (permissionClasses : Option (List P))
  | service (spec : ServiceSpec P S)
  | polymorphic (id : Nat)
deriving DecidableEq

/-- What a request finds on its view: the entries of `action_specs`, the spec a decorator stamped on
the handler of a name, the polymorphic specs by their `id`, the class-level permissions, and the
action and method it was routed to. -/
structure View (P : Type u) (S : Type v) where
  actionSpecs : Dict String (ActionSpec P S)
  stamped : String → Option (ActionSpec P S)
  polymorphic : Nat → PolymorphicServiceSpec P S
  permissionClasses : List P
  action : Option String
  method : String

/-- What a call of the discriminator comes to: a key, a `ServiceError` that rejects the payload, or
another exception. -/
inductive Verdict (E : Type w) where
  | key (name : String)
  | rejected (error : E)
  | raised (error : E)

/-- What a resolution raises: a `ServiceError` in its DRF form, the discriminator's own exception, a
misconfiguration, or that the action serves no such method. -/
inductive ResolutionError (E : Type w) where
  | mapped (error : E)
  | raised (error : E)
  | improperlyConfigured (text : String)
  | methodNotAllowed (method : String)
deriving DecidableEq

/-- The variants a view has resolved (`_rfs_polymorphic_choices`), by the `id` of their spec. -/
abbrev Choices (P : Type u) (S : Type v) := Dict Nat (ServiceSpec P S)

variable {P : Type u} {S : Type v} {E : Type w}

section
variable (view : View P S)

/-! ## Resolution -/

/-- `_ACTION_SPEC_FALLBACKS`. -/
def actionSpecFallback (action : String) : Option String :=
  if action = "partial_update" then some "update" else none

/-- `resolve_action_spec_entry`. -/
def resolveActionSpecEntry (actionSpecs : Dict String (ActionSpec P S)) (action : Option String) :
    Option (ActionSpec P S) :=
  action.bind fun action =>
    (actionSpecs.get? action).or ((actionSpecFallback action).bind actionSpecs.get?)

/-- `resolve_action_spec`: the entry of an action, or what is stamped on its handler. -/
def resolveActionSpec (action : Option String) : Option (ActionSpec P S) :=
  (resolveActionSpecEntry view.actionSpecs action).or (action.bind view.stamped)

/-- The text of a discriminator's answer that names no variant. -/
def unconfiguredVariant (poly : PolymorphicServiceSpec P S) (name : String) : String :=
  "PolymorphicServiceSpec discriminator returned " ++ reprString name ++
    ", which is not a configured variant (have " ++
      reprNames (poly.specs.keys.mergeSort (· ≤ ·)) ++ ")."

/-- `resolve_polymorphic_service_spec`, where the discriminator comes to `verdict` if it is asked. -/
def resolvePolymorphicServiceSpec (id : Nat) (verdict : Verdict E) (choices : Choices P S) :
    Except (ResolutionError E) (ServiceSpec P S) × Choices P S :=
  match choices.get? id with
  | some chosen => (.ok chosen, choices)
  | none =>
    match verdict with
    | .rejected error => (.error (.mapped error), choices)
    | .raised error => (.error (.raised error), choices)
    | .key name =>
      match (view.polymorphic id).specs.get? name with
      | none =>
        (.error (.improperlyConfigured (unconfiguredVariant (view.polymorphic id) name)), choices)
      | some chosen => (.ok chosen, choices.set id chosen)

/-- `resolve_action_service_spec`. -/
def resolveActionServiceSpec (action : String) (verdict : Verdict E) (choices : Choices P S) :
    Except (ResolutionError E) (ServiceSpec P S) × Choices P S :=
  match resolveActionSpecEntry view.actionSpecs (some action) with
  | none => (.error (.methodNotAllowed view.method), choices)
  | some (.polymorphic id) => resolvePolymorphicServiceSpec view id verdict choices
  | some (.service spec) => (.ok spec, choices)
  | some (.selector _) =>
    (.error (.improperlyConfigured ("action_specs[" ++ reprString action ++
      "] must be a ServiceSpec, got SelectorSpec. " ++
      "Use ServiceSpec(service=...) for write actions.")), choices)

/-- The spec the handler of an action dispatches: the one its decorator stamped on it, or the entry a
mutation mixin resolves. A selector's handler, or no handler, dispatches no service spec. -/
def dispatchedSpec (verdict : Verdict E) (choices : Choices P S) :
    Option (Except (ResolutionError E) (ServiceSpec P S) × Choices P S) :=
  view.action.bind fun action =>
    match view.stamped action with
    | some (.polymorphic id) => some (resolvePolymorphicServiceSpec view id verdict choices)
    | some (.service spec) => some (.ok spec, choices)
    | some (.selector _) => none
    | none => some (resolveActionServiceSpec view action verdict choices)

/-! ## Permissions -/

/-- A spec's classes, or those it inherits from the view. -/
def View.effective (spec : ServiceSpec P S) : List P :=
  spec.permissionClasses.getD view.permissionClasses

variable [DecidableEq P]

/-- A class joins those before it, if it equals none of them. -/
def addClass (classes : List P) (permissionClass : P) : List P :=
  if permissionClass ∈ classes then classes else classes ++ [permissionClass]

/-- The classes of every variant, in the order first seen. -/
def unionClasses (poly : PolymorphicServiceSpec P S) : List P :=
  poly.specs.values.foldl (fun classes variant => (view.effective variant).foldl addClass classes) []

/-- `_polymorphic_permissions`. -/
def polymorphicPermissions (id : Nat) (verdict : Verdict E) (choices : Choices P S) :
    Except (ResolutionError E) (List P) × Choices P S :=
  if (view.polymorphic id).permissionStrategy = .discriminate then
    match resolvePolymorphicServiceSpec view id verdict choices with
    | (.ok chosen, choices) => (.ok (view.effective chosen), choices)
    | (.error error, choices) => (.error error, choices)
  else (.ok (unionClasses view (view.polymorphic id)), choices)

/-- `get_permissions`, as the classes of its instances. -/
def getPermissions (verdict : Verdict E) (choices : Choices P S) :
    Except (ResolutionError E) (List P) × Choices P S :=
  match resolveActionSpec view view.action with
  | some (.polymorphic id) => polymorphicPermissions view id verdict choices
  | some (.service spec) => (.ok (view.effective spec), choices)
  | some (.selector declared) => (.ok (declared.getD view.permissionClasses), choices)
  | none => (.ok view.permissionClasses, choices)

/-! ## A request -/

/-- What is seen of a request: a permission check that admitted it, with the variant its polymorphic
spec had come to by then, or a spec its handler dispatched. -/
inductive Observed (P : Type u) (S : Type v) where
  | admitted (classes : List P) (variant : Option (ServiceSpec P S))
  | dispatched (spec : ServiceSpec P S)

/-- A request under way: the choices memoized on its view, whether its last permission check admitted
it, and what was seen of it, the latest first. -/
structure Exchange (P : Type u) (S : Type v) where
  choices : Choices P S
  admitted : Bool
  seen : List (Observed P S)

/-- A request as it arrives. -/
def Exchange.arrived : Exchange P S := ⟨.empty, false, []⟩

/-- What happens in a request: code that resolves a polymorphic spec, a permission check with the
verdict of each class, and the handler. Each carries what the discriminator would come to then. -/
inductive Event (P : Type u) (E : Type w) where
  | resolve (id : Nat) (verdict : Verdict E)
  | checkPermissions (verdict : Verdict E) (allows : P → Bool)
  | handle (verdict : Verdict E)

/-- The variant a polymorphic action has come to. -/
def Exchange.variant (s : Exchange P S) : Option (ServiceSpec P S) :=
  match resolveActionSpec view view.action with
  | some (.polymorphic id) => s.choices.get? id
  | _ => none

/-- One event of a request. The handler runs only past a check that admitted the request. -/
def step (s : Exchange P S) : Event P E → Exchange P S
  | .resolve id verdict =>
    { s with choices := (resolvePolymorphicServiceSpec view id verdict s.choices).2 }
  | .checkPermissions verdict allows =>
    match getPermissions view verdict s.choices with
    | (.error _, choices) => { s with choices := choices, admitted := false }
    | (.ok classes, choices) =>
      let checked := { s with choices := choices, admitted := classes.all allows }
      if classes.all allows then
        { checked with seen := .admitted classes (checked.variant view) :: s.seen }
      else checked
  | .handle verdict =>
    if s.admitted then
      match dispatchedSpec view verdict s.choices with
      | some (.ok spec, choices) => { s with choices := choices, seen := .dispatched spec :: s.seen }
      | some (.error _, choices) => { s with choices := choices }
      | none => s
    else s

/-- A request, event by event. -/
def run (events : List (Event P E)) : Exchange P S := events.foldl (step view) .arrived

end

/-! ## What a resolution leaves -/

section
variable {view : View P S}

/-- A choice once made is the answer of every later resolution. -/
theorem resolvePolymorphicServiceSpec_of_chosen {id : Nat} {verdict : Verdict E}
    {choices : Choices P S} {chosen : ServiceSpec P S} (h : choices.get? id = some chosen) :
    resolvePolymorphicServiceSpec view id verdict choices = (.ok chosen, choices) := by
  simp only [resolvePolymorphicServiceSpec, h]

/-- A resolution keeps the choices made before it. -/
theorem get?_resolvePolymorphicServiceSpec {id other : Nat} {verdict : Verdict E}
    {choices : Choices P S} {chosen : ServiceSpec P S} (h : choices.get? other = some chosen) :
    (resolvePolymorphicServiceSpec view id verdict choices).2.get? other = some chosen := by
  unfold resolvePolymorphicServiceSpec
  split
  · exact h
  · next hnew =>
    split
    · exact h
    · exact h
    · split
      · exact h
      · rw [Dict.get?_set, if_neg (by rintro rfl; rw [hnew] at h; cases h)]
        exact h

/-- A resolution that answers has chosen what it answers. -/
theorem chosen_of_resolved {id : Nat} {verdict : Verdict E} {choices choices' : Choices P S}
    {chosen : ServiceSpec P S}
    (h : resolvePolymorphicServiceSpec view id verdict choices = (.ok chosen, choices')) :
    choices'.get? id = some chosen := by
  unfold resolvePolymorphicServiceSpec at h
  split at h
  · next hchosen =>
    cases h
    exact hchosen
  · split at h
    · cases h
    · cases h
    · split at h
      · cases h
      · cases h
        rw [Dict.get?_set, if_pos rfl]

/-- What is chosen is a variant of its spec. -/
def Configured (view : View P S) (choices : Choices P S) : Prop :=
  ∀ id chosen, choices.get? id = some chosen → chosen ∈ (view.polymorphic id).specs.values

/-- Resolving a variant keeps the choices to configured ones. -/
theorem Configured.resolve {id : Nat} {verdict : Verdict E} {choices : Choices P S}
    (h : Configured view choices) :
    Configured view (resolvePolymorphicServiceSpec view id verdict choices).2 := by
  unfold resolvePolymorphicServiceSpec
  split
  · exact h
  · split
    · exact h
    · exact h
    · split
      · exact h
      · next hvariant =>
        intro other chosen hchosen
        rw [Dict.get?_set] at hchosen
        split at hchosen
        · next heq =>
          cases hchosen
          exact heq ▸ Dict.mem_values.2 ⟨_, hvariant⟩
        · exact h other chosen hchosen

end

/-! ## The union -/

section
variable [DecidableEq P]

/-- Classes added are there with those there were. -/
theorem mem_foldl_addClass {p : P} : ∀ {added classes : List P},
    p ∈ added.foldl addClass classes ↔ p ∈ classes ∨ p ∈ added
  | [], classes => by simp
  | q :: added, classes => by
    rw [List.foldl_cons, mem_foldl_addClass, addClass]
    split
    · next hq =>
      constructor
      · rintro (h | h)
        · exact .inl h
        · exact .inr (List.mem_cons_of_mem q h)
      · rintro (h | h)
        · exact .inl h
        · rcases List.mem_cons.1 h with rfl | h
          · exact .inl hq
          · exact .inr h
    · simp only [List.mem_append, List.mem_cons, List.not_mem_nil, or_false, or_assoc]

/-- None is added twice. -/
theorem nodup_foldl_addClass : ∀ {added classes : List P}, classes.Nodup →
    (added.foldl addClass classes).Nodup
  | [], _, h => h
  | q :: added, classes, h => by
    have hadd : (addClass classes q).Nodup := by
      unfold addClass
      split
      · exact h
      · next hq => exact List.nodup_append.2 ⟨h, List.nodup_singleton q, by
          rintro a ha b hb rfl
          exact hq (List.mem_singleton.1 hb ▸ ha)⟩
    rw [List.foldl_cons]
    exact nodup_foldl_addClass hadd

variable (view : View P S)

/-- The union adds the classes of all variants in turn. -/
theorem unionClasses_eq (poly : PolymorphicServiceSpec P S) :
    unionClasses view poly = (poly.specs.values.flatMap view.effective).foldl addClass [] := by
  rw [unionClasses, List.foldl_flatMap]

/-- The union is of the variants' own classes. -/
theorem mem_unionClasses {poly : PolymorphicServiceSpec P S} {p : P} :
    p ∈ unionClasses view poly ↔ ∃ spec ∈ poly.specs.values, p ∈ view.effective spec := by
  simp only [unionClasses_eq, mem_foldl_addClass, List.not_mem_nil, false_or, List.mem_flatMap]

/-- It has none twice. -/
theorem nodup_unionClasses (poly : PolymorphicServiceSpec P S) :
    (unionClasses view poly).Nodup := by
  rw [unionClasses_eq]
  exact nodup_foldl_addClass .nil

/-! ## `require_identical` -/

/-- `validate_polymorphic_service_spec`, over the validation of each variant under its label. -/
def validatePolymorphicServiceSpec (label : String) (poly : PolymorphicServiceSpec P S)
    (validateServiceSpec : String → ServiceSpec P S → Except String Unit) : Except String Unit := do
  if poly.specs.entries.isEmpty then
    throw (label ++ ": PolymorphicServiceSpec.specs must not be empty.")
  poly.specs.entries.forM fun entry =>
    validateServiceSpec (label ++ "[" ++ reprString entry.1 ++ "]") entry.2
  let distinct := (poly.specs.values.map (·.permissionClasses)).dedup
  if poly.permissionStrategy = .requireIdentical ∧ distinct.length > 1 then
    throw (label ++ ": permission_strategy='require_identical' but the variants declare " ++
      "different `permission_classes`. Make them identical or use 'union'.")

/-- The variants of a validated `require_identical` spec declare the same classes. -/
theorem permissionClasses_eq_of_validated {label : String} {poly : PolymorphicServiceSpec P S}
    {validateServiceSpec : String → ServiceSpec P S → Except String Unit}
    (h : validatePolymorphicServiceSpec label poly validateServiceSpec = .ok ())
    (hstrategy : poly.permissionStrategy = .requireIdentical) :
    ∀ a ∈ poly.specs.values, ∀ b ∈ poly.specs.values,
      a.permissionClasses = b.permissionClasses := by
  have hone : (poly.specs.values.map (·.permissionClasses)).dedup.length ≤ 1 := by
    by_contra hmany
    simp only [validatePolymorphicServiceSpec, hstrategy, true_and, gt_iff_lt,
      Nat.lt_of_not_le hmany, if_true] at h
    split at h
    · cases h
    · cases hall : poly.specs.entries.forM fun entry =>
          validateServiceSpec (label ++ "[" ++ reprString entry.1 ++ "]") entry.2 with
      | error _ =>
        rw [hall] at h
        cases h
      | ok _ =>
        rw [hall] at h
        cases h
  intro a ha b hb
  have hmem : ∀ spec ∈ poly.specs.values,
      spec.permissionClasses ∈ (poly.specs.values.map (·.permissionClasses)).dedup := by
    intro spec hspec
    exact List.mem_dedup.2 (List.mem_map_of_mem hspec)
  match hdistinct : (poly.specs.values.map (·.permissionClasses)).dedup with
  | [] => exact absurd (hdistinct ▸ hmem a ha) List.not_mem_nil
  | [classes] =>
    have ha := List.mem_singleton.1 (hdistinct ▸ hmem a ha)
    have hb := List.mem_singleton.1 (hdistinct ▸ hmem b hb)
    rw [ha, hb]
  | _ :: _ :: _ =>
    rw [hdistinct] at hone
    simp at hone

/-- So the union of a validated `require_identical` spec is each variant's classes. -/
theorem mem_unionClasses_of_validated {label : String} {poly : PolymorphicServiceSpec P S}
    {validateServiceSpec : String → ServiceSpec P S → Except String Unit}
    (h : validatePolymorphicServiceSpec label poly validateServiceSpec = .ok ())
    (hstrategy : poly.permissionStrategy = .requireIdentical) {spec : ServiceSpec P S}
    (hspec : spec ∈ poly.specs.values) {p : P} :
    p ∈ unionClasses view poly ↔ p ∈ view.effective spec := by
  rw [mem_unionClasses]
  constructor
  · rintro ⟨other, hother, hp⟩
    have hsame := permissionClasses_eq_of_validated h hstrategy other hother spec hspec
    simpa only [View.effective, hsame] using hp
  · intro hp
    exact ⟨spec, hspec, hp⟩

end

/-! ## Check and dispatch -/

/-- The handler of a view's action dispatches the variants of a polymorphic spec: the one stamped on
it, or the entry a mutation mixin resolves. -/
def View.Dispatches (view : View P S) (id : Nat) : Prop :=
  ∃ action, view.action = some action ∧
    (view.stamped action).or (resolveActionSpecEntry view.actionSpecs (some action)) =
      some (.polymorphic id)

section
variable {view : View P S} {id : Nat}

/-- Such a handler dispatches a variant the discriminator chooses. -/
theorem dispatchedSpec_of_dispatches (h : view.Dispatches id) (verdict : Verdict E)
    (choices : Choices P S) : dispatchedSpec view verdict choices =
      some (resolvePolymorphicServiceSpec view id verdict choices) := by
  obtain ⟨action, haction, hspec⟩ := h
  cases hstamped : view.stamped action with
  | some spec =>
    rw [hstamped, Option.some_or] at hspec
    cases hspec
    simp only [dispatchedSpec, haction, Option.bind_some, hstamped]
  | none =>
    rw [hstamped, Option.none_or] at hspec
    simp only [dispatchedSpec, haction, Option.bind_some, hstamped, resolveActionServiceSpec, hspec]

/-- No other spec is keyed under the name of such an action. -/
def View.KeyedAs (view : View P S) (id : Nat) : Prop :=
  ∀ spec, resolveActionSpecEntry view.actionSpecs view.action = some spec → spec = .polymorphic id

/-- Then the permissions are resolved from the spec the handler dispatches, and only then. -/
theorem resolveActionSpec_iff_keyedAs (h : view.Dispatches id) :
    resolveActionSpec view view.action = some (.polymorphic id) ↔ view.KeyedAs id := by
  obtain ⟨action, haction, hspec⟩ := h
  rw [View.KeyedAs, resolveActionSpec, haction, Option.bind_some]
  cases hentry : resolveActionSpecEntry view.actionSpecs (some action) with
  | none =>
    rw [hentry, Option.or_none] at hspec
    simp [hspec]
  | some entry => simp

/-- A handler no decorator stamped dispatches the entry its permissions are resolved from. -/
theorem View.Dispatches.keyedAs_of_unstamped (h : view.Dispatches id)
    (hplain : ∀ action, view.action = some action → view.stamped action = none) :
    view.KeyedAs id := by
  obtain ⟨action, haction, hspec⟩ := h
  rw [hplain action haction, Option.none_or] at hspec
  rintro spec hentry
  rw [haction, hspec] at hentry
  exact (Option.some.inj hentry).symm

variable [DecidableEq P]

/-- What a check that admitted the request had come to: the chosen variant's classes, or those of
every variant. -/
def Passed (view : View P S) (id : Nat) (choices : Choices P S) (classes : List P)
    (variant : Option (ServiceSpec P S)) : Prop :=
  if (view.polymorphic id).permissionStrategy = .discriminate then
    ∃ chosen, variant = some chosen ∧ choices.get? id = some chosen ∧
      classes = view.effective chosen
  else classes = unionClasses view (view.polymorphic id)

/-- What has passed has, once another choice is made. -/
theorem Passed.mono {choices choices' : Choices P S} {classes : List P}
    {variant : Option (ServiceSpec P S)} (h : Passed view id choices classes variant)
    (hkept : ∀ chosen, choices.get? id = some chosen → choices'.get? id = some chosen) :
    Passed view id choices' classes variant := by
  by_cases hstrategy : (view.polymorphic id).permissionStrategy = .discriminate
  · rw [Passed, if_pos hstrategy] at h ⊢
    obtain ⟨chosen, hvariant, hchosen, hclasses⟩ := h
    exact ⟨chosen, hvariant, hkept chosen hchosen, hclasses⟩
  · rw [Passed, if_neg hstrategy] at h ⊢
    exact h

/-- A permission check keeps the choices made before it, and what it enforces has passed. -/
theorem getPermissions_cases (h : resolveActionSpec view view.action = some (.polymorphic id))
    (verdict : Verdict E) {choices : Choices P S} (hconfigured : Configured view choices) :
    let after := getPermissions view verdict choices
    Configured view after.2 ∧
    (∀ chosen, choices.get? id = some chosen → after.2.get? id = some chosen) ∧
    ∀ classes, after.1 = .ok classes → Passed view id after.2 classes (after.2.get? id) := by
  have hresolved : Configured view (resolvePolymorphicServiceSpec view id verdict choices).2 :=
    hconfigured.resolve
  have hkept : ∀ chosen, choices.get? id = some chosen →
      (resolvePolymorphicServiceSpec view id verdict choices).2.get? id = some chosen :=
    fun _ hchosen => get?_resolvePolymorphicServiceSpec hchosen
  simp only [getPermissions, h, polymorphicPermissions, Passed]
  split
  · next hstrategy =>
    cases hresult : resolvePolymorphicServiceSpec view id verdict choices with
    | mk result choices' =>
      rw [hresult] at hresolved hkept
      cases result with
      | error error => exact ⟨hresolved, hkept, fun classes hok => by cases hok⟩
      | ok chosen =>
        refine ⟨hresolved, hkept, fun classes hok => ?_⟩
        cases hok
        have hchosen := chosen_of_resolved hresult
        exact ⟨chosen, hchosen, hchosen, rfl⟩
  · refine ⟨hconfigured, fun _ hchosen => hchosen, fun classes hok => ?_⟩
    cases hok
    rfl

/-- A dispatched variant is configured, and what was seen before it checked its classes. -/
structure Guarded (view : View P S) (id : Nat) (spec : ServiceSpec P S)
    (earlier : List (Observed P S)) : Prop where
  variant : spec ∈ (view.polymorphic id).specs.values
  checked : ∃ classes variant, .admitted classes variant ∈ earlier ∧
    ∀ p ∈ spec.permissionClasses.getD view.permissionClasses, p ∈ classes
  same : (view.polymorphic id).permissionStrategy = .discriminate → ∀ classes variant,
    .admitted classes variant ∈ earlier →
      variant = some spec ∧ classes = spec.permissionClasses.getD view.permissionClasses

/-- What holds of a request after every event. -/
structure Sound (view : View P S) (id : Nat) (s : Exchange P S) : Prop where
  configured : Configured view s.choices
  passed : ∀ classes variant, .admitted classes variant ∈ s.seen →
    Passed view id s.choices classes variant
  admitted : s.admitted = true → ∃ classes variant, .admitted classes variant ∈ s.seen
  guarded : ∀ later spec earlier, s.seen = later ++ .dispatched spec :: earlier →
    Guarded view id spec earlier

/-- Nothing has been decided of a request that arrives. -/
theorem Sound.arrived : Sound view id (.arrived : Exchange P S) where
  configured _ _ h := by cases h
  passed _ _ h := by cases h
  admitted h := by cases h
  guarded later spec earlier h := by cases later <;> cases h

/-- Choices made beside what was seen leave a request sound, whether it stays admitted or not. -/
theorem Sound.choose {s : Exchange P S} (h : Sound view id s) {choices : Choices P S}
    {admitted : Bool} (hconfigured : Configured view choices)
    (hkept : ∀ chosen, s.choices.get? id = some chosen → choices.get? id = some chosen)
    (hadmitted : admitted = true → s.admitted = true) :
    Sound view id { s with choices := choices, admitted := admitted } where
  configured := hconfigured
  passed classes variant hseen := (h.passed classes variant hseen).mono hkept
  admitted hnow := h.admitted (hadmitted hnow)
  guarded := h.guarded

/-- A variant resolved past a check was checked. -/
theorem Sound.guards {s : Exchange P S} (h : Sound view id s) (hadmitted : s.admitted = true)
    {choices : Choices P S} {spec : ServiceSpec P S} (hconfigured : Configured view choices)
    (hkept : ∀ chosen, s.choices.get? id = some chosen → choices.get? id = some chosen)
    (hspec : choices.get? id = some spec) : Guarded view id spec s.seen where
  variant := hconfigured id spec hspec
  checked := by
    obtain ⟨classes, variant, hseen⟩ := h.admitted hadmitted
    have hpassed := (h.passed classes variant hseen).mono hkept
    refine ⟨classes, variant, hseen, fun p hp => ?_⟩
    unfold Passed at hpassed
    split at hpassed
    · obtain ⟨chosen, -, hchosen, rfl⟩ := hpassed
      have hsame : chosen = spec := Option.some.inj (hchosen.symm.trans hspec)
      exact hsame ▸ hp
    · rw [hpassed, mem_unionClasses]
      exact ⟨spec, hconfigured id spec hspec, hp⟩
  same hstrategy classes variant hseen := by
    have hpassed := (h.passed classes variant hseen).mono hkept
    rw [Passed, if_pos hstrategy] at hpassed
    obtain ⟨chosen, hvariant, hchosen, hclasses⟩ := hpassed
    have hsame : chosen = spec := Option.some.inj (hchosen.symm.trans hspec)
    exact hsame ▸ ⟨hvariant, hclasses⟩

/-- Every event of a request keeps it sound. -/
theorem step_sound (hdispatches : view.Dispatches id)
    (hrouted : resolveActionSpec view view.action = some (.polymorphic id)) {s : Exchange P S}
    (h : Sound view id s) (event : Event P E) : Sound view id (step view s event) := by
  cases event with
  | resolve other verdict =>
    exact h.choose h.configured.resolve
      (fun _ hchosen => get?_resolvePolymorphicServiceSpec hchosen) (fun hnow => hnow)
  | checkPermissions verdict allows =>
    obtain ⟨hconfigured, hkept, hpassed⟩ := getPermissions_cases hrouted verdict h.configured
    simp only [step]
    cases hresult : getPermissions view verdict s.choices with
    | mk result choices =>
      rw [hresult] at hconfigured hkept hpassed
      cases result with
      | error error => exact h.choose hconfigured hkept (fun hno => by cases hno)
      | ok classes =>
        have hvariant : Exchange.variant view ⟨choices, true, s.seen⟩ = choices.get? id := by
          simp only [Exchange.variant, hrouted]
        by_cases hall : classes.all allows = true
        · simp only [hall, if_true, hvariant]
          exact {
            configured := hconfigured
            passed := by
              intro before variant hseen
              rcases List.mem_cons.1 hseen with hnow | hseen
              · cases hnow
                exact hpassed classes rfl
              · exact (h.passed before variant hseen).mono hkept
            admitted := fun _ => ⟨classes, choices.get? id, List.mem_cons_self⟩
            guarded := by
              intro later spec earlier hseen
              cases later with
              | nil => cases hseen
              | cons _ later => exact h.guarded later spec earlier (List.cons.inj hseen).2 }
        · simp only [hall, Bool.false_eq_true, if_false]
          exact h.choose hconfigured hkept (fun hno => by cases hno)
  | handle verdict =>
    simp only [step, dispatchedSpec_of_dispatches hdispatches]
    split
    · next hadmitted =>
      have hconfigured :
          Configured view (resolvePolymorphicServiceSpec view id verdict s.choices).2 :=
        h.configured.resolve
      have hkept : ∀ chosen, s.choices.get? id = some chosen →
          (resolvePolymorphicServiceSpec view id verdict s.choices).2.get? id = some chosen :=
        fun _ hchosen => get?_resolvePolymorphicServiceSpec hchosen
      cases hresult : resolvePolymorphicServiceSpec view id verdict s.choices with
      | mk result choices =>
        rw [hresult] at hconfigured hkept
        cases result with
        | error error => exact h.choose hconfigured hkept (fun hnow => hnow)
        | ok spec =>
          have hguards := h.guards hadmitted hconfigured hkept (chosen_of_resolved hresult)
          exact {
            configured := hconfigured
            passed := by
              intro classes variant hseen
              rcases List.mem_cons.1 hseen with hnow | hseen
              · cases hnow
              · exact (h.passed classes variant hseen).mono hkept
            admitted := by
              intro _
              obtain ⟨classes, variant, hseen⟩ := h.admitted hadmitted
              exact ⟨classes, variant, List.mem_cons_of_mem _ hseen⟩
            guarded := by
              intro later other earlier hseen
              cases later with
              | nil =>
                cases hseen
                exact hguards
              | cons _ later => exact h.guarded later other earlier (List.cons.inj hseen).2 }
    · exact h

/-- A request stays sound over any run of events. -/
theorem run_sound (hdispatches : view.Dispatches id)
    (hrouted : resolveActionSpec view view.action = some (.polymorphic id))
    (events : List (Event P E)) : Sound view id (run view events) :=
  events.foldlRecOn (step view) .arrived fun _ h event _ =>
    step_sound hdispatches hrouted h event

/-! ## What is enforced -/

/-- What a polymorphic action enforces: the union of its variants' classes, each once, unless it
discriminates, and a check of its classes before any variant that is dispatched. -/
structure Enforced (view : View P S) (id : Nat) (events : List (Event P E)) : Prop where
  every : (view.polymorphic id).permissionStrategy ≠ .discriminate →
    ∀ (verdict : Verdict E) (choices : Choices P S),
      ∃ classes, getPermissions view verdict choices = (.ok classes, choices) ∧ classes.Nodup ∧
        ∀ p, p ∈ classes ↔ ∃ spec ∈ (view.polymorphic id).specs.values,
          p ∈ spec.permissionClasses.getD view.permissionClasses
  guarded : ∀ later spec earlier, (run view events).seen = later ++ .dispatched spec :: earlier →
    Guarded view id spec earlier

/-- **Polymorphic permissions are the dispatched variant's**, over every order of resolutions, checks
and handlers, and whatever the discriminator answers at each call, where no other spec is keyed under
the action's name. -/
theorem polymorphicPermissions_enforced (hdispatches : view.Dispatches id)
    (hkeyed : view.KeyedAs id) (events : List (Event P E)) : Enforced view id events :=
  have hrouted := (resolveActionSpec_iff_keyedAs hdispatches).2 hkeyed
  { every := fun hstrategy verdict choices =>
      ⟨unionClasses view (view.polymorphic id), by
          simp only [getPermissions, hrouted, polymorphicPermissions, if_neg hstrategy],
        nodup_unionClasses view _, fun _ => mem_unionClasses view⟩
    guarded := (run_sound hdispatches hrouted events).guarded }

end

/-- A viewset whose `create` takes a card or cash, of which the first has a rule of its own. -/
def payments : View String String where
  actionSpecs := .ofList [("create", .polymorphic 0)]
  stamped _ := none
  polymorphic _ :=
    { specs := .ofList [("card", ⟨"pay_by_card", some ["IsCardHolder"]⟩), ("cash", ⟨"pay_cash", none⟩)]
      permissionStrategy := .discriminate }
  permissionClasses := ["IsAuthenticated"]
  action := some "create"
  method := "POST"

/-- The discriminator changes its mind past the check, and the variant checked, which inherits the
view's classes, is dispatched. -/
theorem payments_enforced :
    let events : List (Event String Unit) :=
      [.checkPermissions (.key "cash") (fun _ => true), .handle (.key "card")]
    payments.Dispatches 0 ∧ (run payments events).seen =
      [.dispatched ⟨"pay_cash", none⟩,
        .admitted ["IsAuthenticated"] (some ⟨"pay_cash", none⟩)] ∧
      Enforced payments 0 events :=
  have hdispatches : payments.Dispatches 0 := ⟨"create", rfl, by decide⟩
  ⟨hdispatches, by rfl, polymorphicPermissions_enforced hdispatches
    (hdispatches.keyedAs_of_unstamped fun _ _ => rfl) _⟩

/-- A viewset whose decorated `pay` takes a card, of which an entry of `action_specs` is keyed `pay`
as well. -/
def keyedPay : View String String where
  actionSpecs := .ofList [("pay", .service ⟨"quote", some ["AllowAny"]⟩)]
  stamped action := if action = "pay" then some (.polymorphic 0) else none
  polymorphic _ := { specs := .ofList [("card", ⟨"pay_by_card", some ["IsCardHolder"]⟩)] }
  permissionClasses := ["IsAuthenticated"]
  action := some "pay"
  method := "POST"

/-- The check admits the entry's classes, and the handler dispatches a variant that none of them
guards. -/
theorem keyedPay_unenforced :
    let events : List (Event String Unit) :=
      [.checkPermissions (.key "card") (· == "AllowAny"), .handle (.key "card")]
    keyedPay.Dispatches 0 ∧ (run keyedPay events).seen =
      [.dispatched ⟨"pay_by_card", some ["IsCardHolder"]⟩, .admitted ["AllowAny"] none] ∧
      ¬ Enforced keyedPay 0 events := by
  refine ⟨⟨"pay", rfl, by decide⟩, by rfl, fun h => ?_⟩
  obtain ⟨classes, variant, hadmitted, hchecked⟩ :=
    (h.guarded [] ⟨"pay_by_card", some ["IsCardHolder"]⟩ [.admitted ["AllowAny"] none] rfl).checked
  cases List.mem_singleton.1 hadmitted
  exact absurd (hchecked "IsCardHolder" (List.mem_singleton.2 rfl)) (by decide)

end RestFrameworkServices.Viewsets
