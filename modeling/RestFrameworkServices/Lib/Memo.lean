import RestFrameworkServices.Lib.Identity

/-!
# Memos keyed by the addresses of what they were asked

A memo answers again what it answered before for the same objects. It is keyed by their addresses
and holds the objects beside the answer, so none of them dies while the memo lasts (`Memo.step`), and
no address of a key is another object's. `Memo.run_told` says every answer it gives was computed for
the very objects asked about, over every run of creations, deaths, asks and computations, which may
ask the memo themselves.
-/

namespace Lib.Identity

universe u v w

/-- How a memo is keyed: by the objects of what is asked, at their addresses. One key is of one ask,
where no two of the objects are at one address. -/
structure Keyed (ρ : Type u) (κ : Type v) where
  objects : ρ → List ℕ
  key : (ℕ → ℕ) → ρ → κ
  key_injective : ∀ (address : ℕ → ℕ) (r r' : ρ),
    (∀ o ∈ objects r, ∀ o' ∈ objects r', address o = address o' → o = o') →
    key address r = key address r' → r = r'
  key_congr : ∀ (address address' : ℕ → ℕ) (r : ρ),
    (∀ o ∈ objects r, address o = address' o) → key address r = key address' r

/-- A memo, the objects there are, and the asks whose answer is being computed. -/
structure Memo (ρ : Type u) (κ : Type v) (α : Type w) where
  heap : Heap Unit
  held : Dict κ (ρ × α)
  asking : List ρ

namespace Memo

/-- What happens while a memo lasts: an object is created, dies, is freed; the memo is asked; an answer
is computed and held, or its computation fails. -/
inductive Event (ρ : Type u) (α : Type w) where
  | create (address : ℕ)
  | die (o : ℕ)
  | free (o : ℕ)
  | ask (r : ρ)
  | answer (r : ρ) (a : α)
  | fail (r : ρ)

/-- What comes of it: an answer computed, or one the memo held. -/
inductive Outcome (ρ : Type u) (α : Type w) where
  | computed (r : ρ) (a : α)
  | told (r : ρ) (a : α)

section
variable {ρ : Type u} {κ : Type v} {α : Type w} (keyed : Keyed ρ κ) (m : Memo ρ κ α)

/-- The objects the memo and the computations keep from dying. -/
def strong : List ℕ :=
  m.held.values.flatMap (fun entry => keyed.objects entry.1) ++ m.asking.flatMap keyed.objects

variable [DecidableEq κ]

/-- A memo of the objects there are that holds nothing yet. -/
def start (h : Heap Unit) : Memo ρ κ α := ⟨h, .empty, []⟩

/-! ## The invariant -/

/-- What holds of a memo after the outcomes of a log: the objects of its entries and of the asks in
progress are live, an entry is under its key and was computed, and so was what the memo told. -/
structure Sound (log : List (Outcome ρ α)) : Prop where
  entry : ∀ k r a, m.held.get? k = some (r, a) →
    (∀ o ∈ keyed.objects r, m.heap.Live o) ∧ keyed.key m.heap.address r = k ∧
      .computed r a ∈ log
  asking : ∀ r ∈ m.asking, ∀ o ∈ keyed.objects r, m.heap.Live o
  told : ∀ r a, .told r a ∈ log → .computed r a ∈ log

variable {keyed m} {log : List (Outcome ρ α)}

/-- The objects may evolve, if those the memo keeps stay live. -/
theorem Sound.evolve (hs : m.Sound keyed log) {h : Heap Unit} (he : m.heap.Evolves h)
    (hstrong : ∀ o ∈ m.strong keyed, m.heap.Live o → h.Live o) :
    Sound keyed { m with heap := h } log := by
  have hentry : ∀ k r a, m.held.get? k = some (r, a) → ∀ o ∈ keyed.objects r,
      o ∈ m.strong keyed := by
    intro k r a hget o ho
    exact List.mem_append_left _
      (List.mem_flatMap.2 ⟨(r, a), Dict.mem_values.2 ⟨k, hget⟩, ho⟩)
  refine ⟨fun k r a hget => ?_, fun r hr o ho => ?_, hs.told⟩
  · obtain ⟨hlive, hkey, hlog⟩ := hs.entry k r a hget
    refine ⟨fun o ho => hstrong o (hentry k r a hget o ho) (hlive o ho), ?_, hlog⟩
    refine (keyed.key_congr _ _ r fun o ho => ?_).trans hkey
    obtain ⟨x, hx, -⟩ := (hlive o ho).placed.exists
    exact he.address o x hx
  · exact hstrong o (List.mem_append_right _ (List.mem_flatMap.2 ⟨r, hr, ho⟩))
      (hs.asking r hr o ho)

/-- What the memo holds for an ask of live objects was computed for it. -/
theorem Sound.computed_of_held (hs : m.Sound keyed log) {r r' : ρ} {a : α}
    (hlive : ∀ o ∈ keyed.objects r, m.heap.Live o)
    (hget : m.held.get? (keyed.key m.heap.address r) = some (r', a)) :
    .computed r a ∈ log := by
  obtain ⟨hlive', hkey, hlog⟩ := hs.entry _ r' a hget
  have hsame : r' = r := keyed.key_injective m.heap.address r' r
    (fun o ho o' ho' => Heap.eq_of_address (hlive' o ho).placed (hlive o' ho').placed) hkey
  exact hsame ▸ hlog

/-- A longer log. -/
theorem Sound.append (hs : m.Sound keyed log) {out : List (Outcome ρ α)}
    (hout : ∀ r a, .told r a ∈ out → .computed r a ∈ log) :
    m.Sound keyed (log ++ out) where
  entry k r a hget := by
    obtain ⟨hlive, hkey, hlog⟩ := hs.entry k r a hget
    exact ⟨hlive, hkey, List.mem_append_left _ hlog⟩
  asking := hs.asking
  told r a ha := List.mem_append_left _
    ((List.mem_append.1 ha).elim (hs.told r a) (hout r a))

/-! ## Runs -/

variable [DecidableEq ρ]

/-- One step, where it can be taken. -/
def step (keyed : Keyed ρ κ) (m : Memo ρ κ α) : Event ρ α → Option (Memo ρ κ α × List (Outcome ρ α))
  | .create address =>
    if h : m.heap.Free address then
      some ({ m with heap := m.heap.create address () h }, [])
    else none
  | .die o =>
    if m.heap.Live o ∧ o ∉ m.strong keyed then
      some ({ m with heap := m.heap.setStatus o .dying }, [])
    else none
  | .free o =>
    if m.heap.status? o = some .dying then
      some ({ m with heap := m.heap.setStatus o .freed }, [])
    else none
  | .ask r =>
    if ∀ o ∈ keyed.objects r, m.heap.Live o then
      match m.held.get? (keyed.key m.heap.address r) with
      | some (_, a) => some (m, [.told r a])
      | none => some ({ m with asking := r :: m.asking }, [])
    else none
  | .answer r a =>
    if r ∈ m.asking then
      some ({ m with
        held := m.held.set (keyed.key m.heap.address r) (r, a)
        asking := m.asking.erase r }, [.computed r a])
    else none
  | .fail r => some ({ m with asking := m.asking.erase r }, [])

/-- A run, and what comes of it. -/
def run (keyed : Keyed ρ κ) (m : Memo ρ κ α) :
    List (Event ρ α) → Option (Memo ρ κ α × List (Outcome ρ α))
  | [] => some (m, [])
  | e :: es => (m.step keyed e).bind fun (m', out) =>
    (run keyed m' es).map fun (m'', out') => (m'', out ++ out')

/-- A step keeps the memo sound. -/
theorem Sound.step (hs : m.Sound keyed log) {e : Event ρ α} {m' : Memo ρ κ α}
    {out : List (Outcome ρ α)} (h : m.step keyed e = some (m', out)) :
    m'.Sound keyed (log ++ out) := by
  cases e with
  | create address =>
    rw [Memo.step] at h
    split at h
    · next hfree =>
      cases h
      rw [List.append_nil]
      exact hs.evolve (Heap.evolves_create hfree)
        fun _ _ hlive => Heap.status?_create_of_some hfree hlive
    · cases h
  | die o =>
    rw [Memo.step] at h
    split at h
    · next hguard =>
      cases h
      rw [List.append_nil]
      refine hs.evolve (Heap.evolves_setStatus o (by decide)) fun o' ho' hlive => ?_
      exact (Heap.status?_setStatus_of_ne _ fun h : o' = o => hguard.2 (h ▸ ho')).trans hlive
    · cases h
  | free o =>
    rw [Memo.step] at h
    split at h
    · next hdying =>
      cases h
      rw [List.append_nil]
      refine hs.evolve (Heap.evolves_setStatus o (by decide)) fun o' _ hlive => ?_
      have hne : o' ≠ o := by
        rintro rfl
        rw [Heap.Live, hdying] at hlive
        cases hlive
      exact (Heap.status?_setStatus_of_ne _ hne).trans hlive
    · cases h
  | ask r =>
    rw [Memo.step] at h
    split at h
    · next hlive =>
      split at h
      · next r' a hget =>
        cases h
        refine hs.append fun r₁ a₁ ha₁ => ?_
        cases List.mem_singleton.1 ha₁
        exact hs.computed_of_held hlive hget
      · cases h
        rw [List.append_nil]
        refine ⟨hs.entry, fun r₁ hr₁ => ?_, hs.told⟩
        rcases List.mem_cons.1 hr₁ with rfl | hr₁
        · exact hlive
        · exact hs.asking r₁ hr₁
    · cases h
  | answer r a =>
    rw [Memo.step] at h
    split at h
    · next hasking =>
      cases h
      refine ⟨fun k r₁ a₁ hget => ?_, fun r₁ hr₁ => hs.asking r₁ (List.mem_of_mem_erase hr₁),
        fun r₁ a₁ ha₁ => ?_⟩
      · rw [Dict.get?_set] at hget
        split at hget
        · next hk =>
          cases hget
          exact ⟨hs.asking _ hasking, hk.symm, List.mem_append_right _ (List.mem_singleton_self _)⟩
        · obtain ⟨hlive, hkey, hlog⟩ := hs.entry k r₁ a₁ hget
          exact ⟨hlive, hkey, List.mem_append_left _ hlog⟩
      · rcases List.mem_append.1 ha₁ with ha₁ | ha₁
        · exact List.mem_append_left _ (hs.told r₁ a₁ ha₁)
        · cases List.mem_singleton.1 ha₁
    · cases h
  | fail r =>
    cases h
    rw [List.append_nil]
    exact ⟨hs.entry, fun r₁ hr₁ => hs.asking r₁ (List.mem_of_mem_erase hr₁), hs.told⟩

/-- A run keeps it. -/
theorem Sound.run (hs : m.Sound keyed log) {events : List (Event ρ α)} {m' : Memo ρ κ α}
    {out : List (Outcome ρ α)} (h : m.run keyed events = some (m', out)) :
    m'.Sound keyed (log ++ out) := by
  induction events generalizing m log out with
  | nil =>
    cases h
    rw [List.append_nil]
    exact hs
  | cons e events ih =>
    obtain ⟨⟨m₁, first⟩, hstep, hrest⟩ := Option.bind_eq_some_iff.1 h
    obtain ⟨⟨m₂, rest⟩, hrun, hpair⟩ := Option.map_eq_some_iff.1 hrest
    cases hpair
    rw [← List.append_assoc]
    exact ih (hs.step hstep) hrun

/-- **Every answer a memo gives was computed for the very objects it is asked about.** -/
theorem run_told {h : Heap Unit} {events : List (Event ρ α)} {m' : Memo ρ κ α}
    {out : List (Outcome ρ α)} (hrun : (start h).run keyed events = some (m', out)) :
    ∀ r a, .told r a ∈ out → .computed r a ∈ out := by
  have hstart : (start h : Memo ρ κ α).Sound keyed [] :=
    ⟨fun _ _ _ hget => (by cases hget), fun _ hr => (by cases hr), fun _ _ ha => (by cases ha)⟩
  exact (hstart.run hrun).told

end

end Memo

end Lib.Identity
