import SeguridadRedes.C.Process

namespace C

inductive Flow (σ : Type) where
  | next (s : σ)
  | stop (s : σ)

section Counted

variable {σ : Type}

def forCount {hi : Nat} (body : (i : Nat) → i < hi → σ → Flow σ) : (n i : Nat) → i + n = hi → σ → σ
  | 0, _, _, s => s
  | n + 1, i, h, s =>
    match body i (by omega) s with
    | .next s => forCount body n (i + 1) (by omega) s
    | .stop s => s

def forRange (lo hi : Nat) (body : (i : Nat) → i < hi → σ → Flow σ) (s : σ) : σ :=
  if h : lo ≤ hi then forCount body (hi - lo) lo (by omega) s else s

theorem forCount_rule {hi : Nat} (body : (i : Nat) → i < hi → σ → Flow σ)
    (inv : Nat → σ → Prop) (post : σ → Prop) (lo : Nat)
    (next : ∀ i h s s', lo ≤ i → inv i s → body i h s = .next s' → inv (i + 1) s')
    (stop : ∀ i h s s', lo ≤ i → inv i s → body i h s = .stop s' → post s')
    (finish : ∀ s, inv hi s → post s) :
    ∀ n i (h : i + n = hi) s, lo ≤ i → inv i s → post (forCount body n i h s) := by
  intro n
  induction n with
  | zero =>
    intro i h s _ holds
    have last : i = hi := by omega
    subst last
    exact finish s holds
  | succ n ih =>
    intro i h s low holds
    simp only [forCount]
    split
    · rename_i s' taken
      exact ih (i + 1) _ s' (by omega) (next i _ s s' low holds taken)
    · rename_i s' taken
      exact stop i _ s s' low holds taken

theorem forRange_rule {lo hi : Nat} (body : (i : Nat) → i < hi → σ → Flow σ)
    (inv : Nat → σ → Prop) (post : σ → Prop) {s : σ} (bound : lo ≤ hi) (start : inv lo s)
    (next : ∀ i h s s', lo ≤ i → inv i s → body i h s = .next s' → inv (i + 1) s')
    (stop : ∀ i h s s', lo ≤ i → inv i s → body i h s = .stop s' → post s')
    (finish : ∀ s, inv hi s → post s) : post (forRange lo hi body s) := by
  unfold forRange
  rw [dif_pos bound]
  exact forCount_rule body inv post lo next stop finish _ lo _ s (Nat.le_refl lo) start

theorem getElem_forRange_set {α : Type} {n lo hi : Nat} (offset : Nat) (position : Nat → Nat)
    (value : (i : Nat) → i < hi → α) (room : ∀ i, i < hi → position i < n)
    (shape : ∀ i, position i = i + offset) (buffer : Vector α n) (bound : lo ≤ hi) (j : Nat) (hj : j < n) :
    (forRange lo hi (fun i h buffer => .next (buffer.set (position i) (value i h) (room i h))) buffer)[j] =
      if h : lo + offset ≤ j ∧ j < hi + offset then value (j - offset) (by omega) else buffer[j] := by
  apply forRange_rule _
    (fun i (filled : Vector α n) => filled[j] =
      if h : (lo + offset ≤ j ∧ j < hi + offset) ∧ j < i + offset then value (j - offset) (by omega)
      else buffer[j])
    (fun filled => filled[j] =
      if h : lo + offset ≤ j ∧ j < hi + offset then value (j - offset) (by omega) else buffer[j])
    bound
  · rw [dif_neg (by omega)]
  · intro i h filled filled' low before taken
    cases taken
    rw [Vector.getElem_set]
    by_cases here : position i = j
    · have same : j - offset = i := by rw [← here, shape]; omega
      have inside : (lo + offset ≤ j ∧ j < hi + offset) ∧ j < i + 1 + offset := by
        rw [← here, shape]
        omega
      rw [if_pos here, dif_pos inside]
      simp only [same]
    · rw [if_neg here, before]
      have other : j ≠ i + offset := by rw [← shape]; exact fun h => here h.symm
      by_cases inside : (lo + offset ≤ j ∧ j < hi + offset) ∧ j < i + offset
      · rw [dif_pos inside, dif_pos (by omega)]
      · rw [dif_neg inside, dif_neg (by omega)]
  · intro i h filled filled' low before taken
    cases taken
  · intro filled after
    rw [after]
    by_cases inside : lo + offset ≤ j ∧ j < hi + offset
    · rw [dif_pos inside, dif_pos (by omega)]
    · rw [dif_neg inside, dif_neg (by omega)]

theorem forRange_search_clear {lo hi : Nat} (fails : (i : Nat) → i < hi → Prop)
    [∀ i h, Decidable (fails i h)] (flag raised : σ) (bound : lo ≤ hi)
    (clear : ∀ i h, lo ≤ i → ¬ fails i h) :
    forRange lo hi (fun i h flag => if fails i h then .stop raised else .next flag) flag = flag := by
  apply forRange_rule _ (fun _ s => s = flag) (fun s => s = flag) bound rfl
  · intro i h s s' low before taken
    rw [if_neg (clear i h low)] at taken
    cases taken
    exact before
  · intro i h s s' low before taken
    rw [if_neg (clear i h low)] at taken
    cases taken
  · exact fun s after => after

theorem forRange_search_hit {lo hi : Nat} (fails : (i : Nat) → i < hi → Prop)
    [∀ i h, Decidable (fails i h)] (flag raised : σ) {found : Nat} (low : lo ≤ found) (h : found < hi)
    (hit : fails found h) :
    forRange lo hi (fun i h flag => if fails i h then .stop raised else .next flag) flag = raised := by
  apply forRange_rule _ (fun i _ => i ≤ found) (fun s => s = raised) (by omega) low
  · intro i hi s s' _ before taken
    by_cases here : i = found
    · subst here
      rw [if_pos hit] at taken
      cases taken
    · omega
  · intro i hi s s' _ before taken
    split at taken
    · cases taken
      rfl
    · cases taken
  · intro s after
    omega

end Counted

inductive Pass (σ β : Type) where
  | again (s : σ)
  | leave (b : β)

/-- A `for (;;)` together with the reason it ends. -/
structure Loop (ε σ β : Type) where
  body : σ → Proc ε (Pass σ β)
  variant : σ → Nat
  decreases : ∀ s s', (body s).result = .ok (.again s') → variant s' < variant s

namespace Loop

variable {ε σ β : Type}

def run (loop : Loop ε σ β) (s : σ) : Proc ε β :=
  match _same : (loop.body s).result with
  | .ok (.again s') =>
    let rest := loop.run s'
    ⟨(loop.body s).trace ++ rest.trace, rest.result⟩
  | .ok (.leave b) => ⟨(loop.body s).trace, .ok b⟩
  | .error status => ⟨(loop.body s).trace, .error status⟩
termination_by loop.variant s
decreasing_by exact loop.decreases s s' _same

def after (f : σ → Proc ε β) : Pass σ β → Proc ε β
  | .again s => f s
  | .leave b => pure b

@[simp] theorem after_again (f : σ → Proc ε β) (s : σ) : after f (.again s) = f s := rfl
@[simp] theorem after_leave (f : σ → Proc ε β) (b : β) : after f (.leave b : Pass σ β) = pure b := rfl

theorem run_eq (loop : Loop ε σ β) (s : σ) : loop.run s = loop.body s >>= after loop.run := by
  rw [run]
  split
  · rename_i s' h
    rw [Proc.bind_of_ok _ h]
    rfl
  · rename_i b h
    rw [Proc.bind_of_ok _ h]
    simp [after]
  · rename_i status h
    rw [Proc.bind_of_error _ h]

section Passes

variable {loop : Loop ε σ β} {s : σ}

theorem run_of_again {s' : σ} (again : (loop.body s).result = .ok (.again s')) :
    loop.run s = ⟨(loop.body s).trace ++ (loop.run s').trace, (loop.run s').result⟩ := by
  rw [run_eq, Proc.bind_of_ok _ again]
  rfl

theorem run_of_leave {b : β} (leaves : (loop.body s).result = .ok (.leave b)) :
    loop.run s = ⟨(loop.body s).trace, .ok b⟩ := by
  rw [run_eq, Proc.bind_of_ok _ leaves]
  simp

theorem run_of_error {status : Nat} (ends : (loop.body s).result = .error status) :
    loop.run s = ⟨(loop.body s).trace, .error status⟩ := by
  rw [run_eq, Proc.bind_of_error _ ends]

end Passes

theorem run_induct (loop : Loop ε σ β) (motive : σ → Prop)
    (again : ∀ s s', (loop.body s).result = .ok (.again s') → motive s' → motive s)
    (leave : ∀ s b, (loop.body s).result = .ok (.leave b) → motive s)
    (error : ∀ s status, (loop.body s).result = .error status → motive s) (s : σ) : motive s := by
  induction measured : loop.variant s using Nat.strongRecOn generalizing s with
  | _ bound ih =>
    cases h : (loop.body s).result with
    | error status => exact error s status h
    | ok pass =>
      cases pass with
      | leave b => exact leave s b h
      | again s' =>
        have smaller := loop.decreases s s' h
        exact again s s' h (ih (loop.variant s') (by omega) s' rfl)

/-- A function that satisfies the loop's equation wherever an invariant holds is the loop there. -/
theorem run_unique (loop : Loop ε σ β) (f : σ → Proc ε β) (inv : σ → Prop)
    (keep : ∀ s s', inv s → (loop.body s).result = .ok (.again s') → inv s')
    (equation : ∀ s, inv s → f s = loop.body s >>= after f) : ∀ s, inv s → loop.run s = f s := by
  intro s
  induction s using run_induct loop with
  | again s s' h ih =>
    intro holds
    rw [run_eq, equation s holds, Proc.bind_of_ok _ h, Proc.bind_of_ok _ h, after_again, after_again,
      ih (keep s s' holds h)]
  | leave s b h =>
    intro holds
    rw [run_eq, equation s holds, Proc.bind_of_ok _ h, Proc.bind_of_ok _ h]
    rfl
  | error s status h =>
    intro holds
    rw [run_eq, equation s holds, Proc.bind_of_error _ h, Proc.bind_of_error _ h]

/-- The states in which a run starts another pass. -/
inductive Reaches (loop : Loop ε σ β) : σ → σ → Prop where
  | start (s : σ) : Reaches loop s s
  | pass {s s' last : σ} (again : (loop.body s).result = .ok (.again s')) (rest : Reaches loop s' last) :
      Reaches loop s last

theorem Reaches.invariant {loop : Loop ε σ β} {s last : σ} (reaches : loop.Reaches s last) {inv : σ → Prop}
    (keep : ∀ s s', inv s → (loop.body s).result = .ok (.again s') → inv s') (holds : inv s) : inv last := by
  induction reaches with
  | start s => exact holds
  | pass again rest ih => exact ih (keep _ _ holds again)

theorem mem_run {loop : Loop ε σ β} {s : σ} {event : ε} (member : event ∈ (loop.run s).trace) :
    ∃ last, loop.Reaches s last ∧ event ∈ (loop.body last).trace := by
  induction s using run_induct loop with
  | again s s' h ih =>
    rw [run_of_again h] at member
    rcases List.mem_append.mp member with here | later
    · exact ⟨s, .start s, here⟩
    · obtain ⟨last, rest, there⟩ := ih later
      exact ⟨last, .pass h rest, there⟩
  | leave s b h =>
    rw [run_of_leave h] at member
    exact ⟨s, .start s, member⟩
  | error s status h =>
    rw [run_of_error h] at member
    exact ⟨s, .start s, member⟩

theorem emits_run {loop : Loop ε σ β} {P : ε → Prop} (body : ∀ s, Proc.Emits P (loop.body s)) (s : σ) :
    Proc.Emits P (loop.run s) := by
  intro event member
  obtain ⟨last, _, here⟩ := mem_run member
  exact body last event here

section Rules

variable (loop : Loop ε σ β) (inv : σ → Prop)
  (keep : ∀ s s', inv s → (loop.body s).result = .ok (.again s') → inv s')

include keep

theorem run_rule (post : Except Nat β → Prop)
    (leave : ∀ s b, inv s → (loop.body s).result = .ok (.leave b) → post (.ok b))
    (error : ∀ s status, inv s → (loop.body s).result = .error status → post (.error status)) :
    ∀ s, inv s → post (loop.run s).result := by
  intro s
  induction s using run_induct loop with
  | again s s' h ih =>
    intro holds
    rw [run_of_again h]
    exact ih (keep s s' holds h)
  | leave s b h =>
    intro holds
    rw [run_of_leave h]
    exact leave s b holds h
  | error s status h =>
    intro holds
    rw [run_of_error h]
    exact error s status holds h

/-- A pass that goes on lowers the measure, so there are at most as many passes and one more. -/
theorem run_count (counted : ε → Bool) (measure : σ → Nat)
    (once : ∀ s, inv s → (loop.body s).trace.countP counted ≤ 1)
    (lowers : ∀ s s', inv s → (loop.body s).result = .ok (.again s') → measure s' < measure s) :
    ∀ s, inv s → (loop.run s).trace.countP counted ≤ measure s + 1 := by
  intro s
  induction s using run_induct loop with
  | again s s' h ih =>
    intro holds
    have here := once s holds
    have later := ih (keep s s' holds h)
    have lower := lowers s s' holds h
    rw [run_of_again h, List.countP_append]
    omega
  | leave s b h =>
    intro holds
    rw [run_of_leave h]
    exact Nat.le_trans (once s holds) (Nat.le_add_left 1 _)
  | error s status h =>
    intro holds
    rw [run_of_error h]
    exact Nat.le_trans (once s holds) (Nat.le_add_left 1 _)

end Rules

end Loop

end C
