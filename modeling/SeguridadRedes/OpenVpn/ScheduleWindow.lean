import SeguridadRedes.OpenVpn.ScheduleRuns

namespace OpenVpn

open C (runs)

variable {n : Nat} {s : Schedule n} {sigma : Nat} {t1 t2 tv : Timeval}

section Microseconds

def Timeval.usecs (tv : Timeval) : Int := tv.tv_sec * 1000000 + tv.tv_usec

@[mk_iff formed_iff]
structure Timeval.Formed (tv : Timeval) : Prop where
  sec : 0 ≤ tv.tv_sec ∧ tv.tv_sec < 2 ^ 31
  usec : 0 ≤ tv.tv_usec ∧ tv.tv_usec < 1000000

theorem usecs_le_of_not_lt (formed1 : t1.Formed) (formed2 : t2.Formed) (late : tvLt t1 t2 = false) :
    t2.usecs ≤ t1.usecs := by
  obtain ⟨_, usec1⟩ := formed1
  obtain ⟨_, usec2⟩ := formed2
  unfold Timeval.usecs
  unfold tvLt at late
  split at late
  · cases late
  · split at late
    · omega
    · have usecs := of_decide_eq_false late
      omega

/-- Nothing of it overflows while the seconds fit an `int`. -/
theorem tvSubtract_formed (formed1 : t1.Formed) (formed2 : t2.Formed) :
    tvSubtract t1 t2 TV_WITHIN_SIGMA_MAX_SEC =
      if t1.tv_sec - t2.tv_sec > 610 then 600000000
      else if t1.tv_sec - t2.tv_sec < -610 then -600000000
      else constrainInt (t1.usecs - t2.usecs) (-600000000) 600000000 := by
  obtain ⟨sec1, usec1⟩ := formed1
  obtain ⟨sec2, usec2⟩ := formed2
  have seconds : asInt (t1.tv_sec - t2.tv_sec) = t1.tv_sec - t2.tv_sec := asInt_small (by omega) (by omega)
  have spread : (t1.tv_sec - t2.tv_sec) * 1000000 + (t1.tv_usec - t2.tv_usec) = t1.usecs - t2.usecs := by
    unfold Timeval.usecs
    omega
  unfold tvSubtract TV_WITHIN_SIGMA_MAX_SEC
  dsimp only
  rw [seconds, ← spread]
  change (if t1.tv_sec - t2.tv_sec > 610 then 600000000 else if t1.tv_sec - t2.tv_sec < -610 then -600000000
    else constrainInt (asInt ((t1.tv_sec - t2.tv_sec) * 1000000 + (t1.tv_usec - t2.tv_usec))) (-600000000)
      600000000) = _
  split
  · rfl
  · split
    · rfl
    · rw [asInt_small (by omega) (by omega)]

/-- Sigma should be less than 10 minutes. -/
theorem within_sigma_iff (formed1 : t1.Formed) (formed2 : t2.Formed) (small : sigma < 600000000) :
    tvWithinSigma t1 t2 sigma = true ↔ t2.usecs - sigma ≤ t1.usecs ∧ t1.usecs ≤ t2.usecs + sigma := by
  have cast : asInt sigma = sigma := asInt_small (by omega) (by omega)
  obtain ⟨_, usec1⟩ := id formed1
  obtain ⟨_, usec2⟩ := id formed2
  unfold tvWithinSigma
  rw [tvSubtract_formed formed1 formed2, cast, decide_eq_true_iff]
  unfold constrainInt Timeval.usecs
  split
  · omega
  · split
    · omega
    · split
      · omega
      · split
        · omega
        · split <;> omega

end Microseconds

section Windows

variable {waiting : Fin n → Option Timeval} {windows : Fin n → Option (Timeval × Nat)}
  {actions : List (ScheduleAction n)}

/-- What was asked for last: a time, and how far from it the event may be. -/
def ask (asked : Fin n → Option (Timeval × Nat)) : ScheduleAction n → Fin n → Option (Timeval × Nat)
  | .add e tv sigma _ => Function.update asked e (some (tv, sigma))
  | .remove e => Function.update asked e none
  | .earliest => asked

def asked (actions : List (ScheduleAction n)) : Fin n → Option (Timeval × Nat) := actions.foldl ask fun _ => none

def ScheduleAction.Timely : ScheduleAction n → Prop
  | .add _ tv sigma _ => tv.Formed ∧ sigma < 600000000
  | _ => True

def Within : Option Timeval → Option (Timeval × Nat) → Prop
  | some time, some (tv, sigma) => time.Formed ∧ tv.usecs - sigma ≤ time.usecs ∧ time.usecs ≤ tv.usecs + sigma
  | none, none => True
  | _, _ => False

theorem Within.window {time : Timeval} {window : Option (Timeval × Nat)} (within : Within (some time) window) :
    ∃ tv sigma, window = some (tv, sigma) ∧ time.Formed ∧ tv.usecs - sigma ≤ time.usecs := by
  cases window with
  | none => exact within.elim
  | some window => exact ⟨window.1, window.2, rfl, within.1, within.2.1⟩

theorem Within.time {waiting : Option Timeval} (within : Within waiting (some (tv, sigma))) :
    ∃ time, waiting = some time ∧ time.Formed ∧ time.usecs ≤ tv.usecs + sigma := by
  cases waiting with
  | none => exact within.elim
  | some time => exact ⟨time, rfl, within.1, within.2.2⟩

theorem Within.reschedule {old : Option Timeval} {window : Option (Timeval × Nat)} (within : Within old window)
    (formed : tv.Formed) (small : sigma < 600000000) : Within (some (rescheduled old tv sigma)) (some (tv, sigma)) := by
  have itself : Within (some tv) (some (tv, sigma)) := ⟨formed, by omega, by omega⟩
  cases old with
  | none => exact itself
  | some time =>
    cases window with
    | none => exact within.elim
    | some window =>
      unfold rescheduled
      dsimp only
      split
      · exact itself
      · rename_i settled
        rw [not_or, Bool.not_eq_false] at settled
        have near := (within_sigma_iff formed within.1 small).mp settled.2
        exact ⟨within.1, by omega, by omega⟩

theorem within_update (within : ∀ x, Within (waiting x) (windows x)) {new : Option Timeval}
    {window : Option (Timeval × Nat)}
    (inside : Within new window) (e x : Fin n) :
    Within (Function.update waiting e new x) (Function.update windows e window x) := by
  by_cases here : x = e
  · subst here
    rw [Function.update_self, Function.update_self]
    exact inside
  · rw [Function.update_of_ne here, Function.update_of_ne here]
    exact within x

theorem within_step (within : ∀ x, Within (waiting x) (windows x)) {action : ScheduleAction n} (timely : action.Timely)
    (x : Fin n) :
    Within (plan waiting action x) (ask windows action x) := by
  cases action with
  | add e tv sigma draws => exact within_update within ((within e).reschedule timely.1 timely.2) e x
  | remove e =>
    have nothing : Within none none := trivial
    exact within_update within nothing e x
  | earliest => exact within x

theorem within_run (within : ∀ x, Within (waiting x) (windows x)) (timely : ∀ action ∈ actions, action.Timely)
    (x : Fin n) :
    Within (actions.foldl plan waiting x) (actions.foldl ask windows x) := by
  induction actions generalizing waiting windows with
  | nil => exact within x
  | cons action actions ih =>
    have first := within_step within (timely action List.mem_cons_self)
    exact ih first fun a member => timely a (List.mem_cons_of_mem _ member)

theorem planned_within (timely : ∀ action ∈ actions, action.Timely) (x : Fin n) :
    Within (planned actions x) (asked actions x) := by
  have start : Fin n → Within none none := fun _ => trivial
  exact within_run start timely x

/-- Its own event is not signalled before its window, and no event after its own. -/
def InWindow (windows : Fin n → Option (Timeval × Nat)) : Option (Fin n × Timeval) → Prop
  | none => ∀ x, windows x = none
  | some (e, time) => (∃ tv sigma, windows e = some (tv, sigma) ∧ tv.usecs - sigma ≤ time.usecs) ∧
      ∀ x tv sigma, windows x = some (tv, sigma) → time.usecs ≤ tv.usecs + sigma

theorem IsEarliest.in_window {pri : Fin n → Nat} {found : Option (Fin n × Timeval)}
    (least : IsEarliest pri waiting found) (within : ∀ x, Within (waiting x) (windows x)) : InWindow windows found := by
  cases found with
  | none =>
    intro x
    have nothing : waiting x = none := least x
    by_contra wanted
    obtain ⟨⟨tv, sigma⟩, window⟩ := Option.ne_none_iff_exists'.mp wanted
    obtain ⟨time, waits, _⟩ := (window ▸ within x).time
    cases nothing.symm.trans waits
  | some found =>
    obtain ⟨e, time⟩ := found
    obtain ⟨waits, first⟩ := least
    obtain ⟨tv, sigma, window, formed, early⟩ := (waits ▸ within e).window
    refine ⟨⟨tv, sigma, window, early⟩, fun x tv' sigma' window' => ?_⟩
    obtain ⟨time', waits', formed', late⟩ := (window' ▸ within x).time
    have order := usecs_le_of_not_lt formed' formed (first x time' waits').1
    exact order.trans late

/-- Event signaling can occur anywhere within this interval. -/
theorem wakeup_in_window (timely : ∀ action ∈ actions, action.Timely)
    (ran : runs Schedule.step (scheduleInit n) actions = some s) :
    ∃ s' found, scheduleGetEarliestWakeup s = some (s', found) ∧ InWindow (asked actions) found := by
  obtain ⟨t, wakes, waits⟩ := wakes_of_run ran
  obtain ⟨s', found, got, least⟩ := wakes.least
  rw [waits] at least
  exact ⟨s', found, got, least.in_window (planned_within timely)⟩

theorem sample_window : ∃ s s' found, runs Schedule.step (scheduleInit 3) sampleActions = some s ∧
    scheduleGetEarliestWakeup s = some (s', found) ∧ InWindow (asked sampleActions) found := by
  have timely : ∀ action ∈ sampleActions, action.Timely := by
    simp [sampleActions, ScheduleAction.Timely, Timeval.formed_iff]
  obtain ⟨s, ran⟩ := Option.isSome_iff_exists.mp
    (show (runs Schedule.step (scheduleInit 3) sampleActions).isSome = true by decide)
  obtain ⟨s', found, got, inside⟩ := wakeup_in_window timely ran
  exact ⟨s, s', found, ran, got, inside⟩

end Windows

end OpenVpn
