import Mathlib.Data.List.Basic

namespace C

variable {σ α : Type} (step : σ → α → Option σ)

/-- A machine whose steps may fail, driven by a list of actions. -/
def runs (s : σ) (actions : List α) : Option σ := actions.foldlM step s

@[simp] theorem runs_nil (s : σ) : runs step s [] = some s := rfl

theorem runs_cons (s : σ) (a : α) (actions : List α) :
    runs step s (a :: actions) = (step s a).bind fun s' => runs step s' actions := rfl

variable {step}

theorem runs_cons_eq_some {s t : σ} {a : α} {actions : List α} :
    runs step s (a :: actions) = some t ↔ ∃ s', step s a = some s' ∧ runs step s' actions = some t := by
  rw [runs_cons, Option.bind_eq_some_iff]

theorem runs_append {s t : σ} {first second : List α} :
    runs step s (first ++ second) = some t ↔ ∃ s', runs step s first = some s' ∧ runs step s' second = some t := by
  induction first generalizing s with
  | nil => simp
  | cons a first ih =>
    rw [List.cons_append, runs_cons_eq_some]
    constructor
    · rintro ⟨m, stepped, rest⟩
      obtain ⟨s', ran, later⟩ := ih.mp rest
      exact ⟨s', runs_cons_eq_some.mpr ⟨m, stepped, ran⟩, later⟩
    · rintro ⟨s', ran, later⟩
      obtain ⟨m, stepped, rest⟩ := runs_cons_eq_some.mp ran
      exact ⟨m, stepped, ih.mpr ⟨s', rest, later⟩⟩

theorem runs_singleton {s t : σ} {a : α} : runs step s [a] = some t ↔ step s a = some t := by
  rw [runs_cons_eq_some]
  simp

theorem runs_invariant {inv : σ → Prop} (kept : ∀ s a s', inv s → step s a = some s' → inv s')
    {s t : σ} {actions : List α} (start : inv s) (ran : runs step s actions = some t) : inv t := by
  induction actions generalizing s with
  | nil =>
    obtain rfl : s = t := by simpa using ran
    exact start
  | cons a actions ih =>
    obtain ⟨s', stepped, rest⟩ := runs_cons_eq_some.mp ran
    exact ih (kept s a s' start stepped) rest

/-- An invariant under which every step can be taken. -/
theorem runs_live {inv : σ → Prop} (steps : ∀ s a, inv s → ∃ s', step s a = some s' ∧ inv s')
    {s : σ} (start : inv s) (actions : List α) : ∃ t, runs step s actions = some t ∧ inv t := by
  induction actions generalizing s with
  | nil => exact ⟨s, rfl, start⟩
  | cons a actions ih =>
    obtain ⟨s', stepped, kept⟩ := steps s a start
    obtain ⟨t, rest, ends⟩ := ih kept
    exact ⟨t, runs_cons_eq_some.mpr ⟨s', stepped, rest⟩, ends⟩

/-- A relation between where a run starts and where it ends, from what one step does. -/
theorem runs_relation {rel : σ → σ → Prop} (refl : ∀ s, rel s s) (trans : ∀ s m t, rel s m → rel m t → rel s t)
    (steps : ∀ s a s', step s a = some s' → rel s s')
    {s t : σ} {actions : List α} (ran : runs step s actions = some t) : rel s t :=
  @runs_invariant σ α step (rel s) (fun m a m' before stepped => trans s m m' before (steps m a m' stepped)) s t
    actions (refl s) ran

theorem runs_isSome (safe : ∀ s a, (step s a).isSome) (s : σ) (actions : List α) :
    (runs step s actions).isSome := by
  induction actions generalizing s with
  | nil => rfl
  | cons a actions ih =>
    obtain ⟨s', stepped⟩ := Option.isSome_iff_exists.mp (safe s a)
    rw [runs_cons, stepped]
    exact ih s'

/-- A quantity that only the actions of one kind raise, and by one at most. -/
theorem runs_counted (size : σ → Nat) {counted : α → Bool}
    (steps : ∀ s a s', step s a = some s' → size s' ≤ size s + if counted a then 1 else 0)
    {s t : σ} {actions : List α} (ran : runs step s actions = some t) :
    size t ≤ size s + actions.countP counted := by
  induction actions generalizing s with
  | nil =>
    obtain rfl : s = t := by simpa using ran
    exact Nat.le_add_right _ _
  | cons a actions ih =>
    obtain ⟨s', stepped, rest⟩ := runs_cons_eq_some.mp ran
    have first := steps s a s' stepped
    have later := ih rest
    rw [List.countP_cons]
    omega

end C
