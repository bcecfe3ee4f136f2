import Mathlib.Algebra.Order.Group.Int
import Mathlib.Algebra.Order.Group.Nat
import Mathlib.Logic.Function.Basic
import Mathlib.Data.List.Basic

namespace OpenVpn

/-- What a replay window is for, apart from how it is stored: of the packets that bear the latest
time stamp seen, when each id was received, and which ids are too old to be told apart. -/
structure Window where
  time : Int
  top : Nat
  /-- Nothing has been received by this window yet, whatever it was set to. -/
  blank : Bool
  received : Nat → Option Int
  expired : Nat → Prop
  reaped : Int

namespace Window

def starting (time : Int) (top : Nat) : Window := ⟨time, top, true, fun _ => none, fun _ => False, 0⟩

/-- Newer than all seen, or among the last `size` ids, not yet received and not too old. -/
def Accepts (size : Nat) (w : Window) (time : Int) (id : Nat) : Prop :=
  id ≠ 0 ∧ (w.time < time ∨ time = w.time ∧
    (w.top < id ∨ w.blank = false ∧ w.top < id + size ∧ ¬ w.expired id ∧ w.received id = none))

def accept (w : Window) (time : Int) (id : Nat) (now : Int) : Window :=
  if w.blank = true ∨ w.time < time then
    ⟨time, id, false, Function.update (fun _ => none) id (some now), fun _ => False, w.reaped⟩
  else { w with top := max w.top id, received := Function.update w.received id (some now) }

/-- Something received at `id` or after it has grown too old. -/
def Stale (w : Window) (age now : Int) (id : Nat) : Prop :=
  ∃ later received, id ≤ later ∧ w.received later = some received ∧ received + age < now

/-- Whatever was received more than `age` ago is too old, and all the ids below it. -/
def reap (age : Int) (w : Window) (now : Int) : Window :=
  { w with reaped := now, expired := fun id => w.expired id ∨ age ≠ 0 ∧ w.Stale age now id }

/-- A packet arrives: every `interval` the window is cleared of what is too old first. -/
noncomputable def arrive (size : Nat) (age interval : Int) (w : Window) (time : Int) (id : Nat) (now : Int) :
    Window × Bool :=
  let w := if w.reaped + interval ≤ now then w.reap age now else w
  open Classical in if w.Accepts size time id then (w.accept time id now, true) else (w, false)

structure Sound (w : Window) : Prop where
  received_le : ∀ id received, w.received id = some received → id ≤ w.top ∧ 1 < received
  expired_le : ∀ id, w.expired id → id ≤ w.top
  expired_down : ∀ id below, below ≤ id → w.expired id → w.expired below
  blank_empty : w.blank = true → (∀ id, w.received id = none) ∧ ∀ id, ¬ w.expired id
  positive : w.blank = false → 0 < w.top

variable {w : Window}

theorem starting_sound (time : Int) (top : Nat) : (starting time top).Sound := by
  constructor
  · intro id received at_id
    cases at_id
  · exact fun id expired => expired.elim
  · exact fun id below _ expired => expired.elim
  · exact fun _ => ⟨fun id => rfl, fun id expired => expired⟩
  · exact fun nonblank => by cases nonblank

theorem accept_sound (sound : w.Sound) (time : Int) {id : Nat} (nonzero : id ≠ 0) {now : Int} (clock : 1 < now) :
    (w.accept time id now).Sound := by
  unfold accept
  split
  · constructor
    · intro other received at_other
      simp only [Function.update_apply] at at_other
      split at at_other
      · rename_i same
        obtain rfl : now = received := by simpa using at_other
        exact ⟨same.le, clock⟩
      · cases at_other
    · exact fun other expired => expired.elim
    · exact fun other below _ expired => expired.elim
    · exact fun blank => by cases blank
    · exact fun _ => Nat.pos_of_ne_zero nonzero
  · rename_i kept
    constructor
    · intro other received at_other
      simp only [Function.update_apply] at at_other
      split at at_other
      · rename_i same
        obtain rfl : now = received := by simpa using at_other
        exact ⟨same ▸ Nat.le_max_right _ _, clock⟩
      · obtain ⟨low, late⟩ := sound.received_le other received at_other
        exact ⟨low.trans (Nat.le_max_left _ _), late⟩
    · exact fun other expired => (sound.expired_le other expired).trans (Nat.le_max_left _ _)
    · exact sound.expired_down
    · exact fun blank => absurd (Or.inl blank) kept
    · exact fun _ => lt_of_lt_of_le (Nat.pos_of_ne_zero nonzero) (Nat.le_max_right _ _)

theorem reap_sound (sound : w.Sound) (age now : Int) : (w.reap age now).Sound := by
  constructor
  · exact sound.received_le
  · rintro id (expired | ⟨_, later, received, below, at_later, _⟩)
    · exact sound.expired_le id expired
    · exact below.trans (sound.received_le later received at_later).1
  · rintro id below under (expired | ⟨nonzero, later, received, between, at_later, stale⟩)
    · exact Or.inl (sound.expired_down id below under expired)
    · exact Or.inr ⟨nonzero, later, received, under.trans between, at_later, stale⟩
  · intro blank
    obtain ⟨none_received, none_expired⟩ := sound.blank_empty blank
    refine ⟨none_received, ?_⟩
    rintro id (expired | ⟨_, later, received, _, at_later, _⟩)
    · exact none_expired id expired
    · rw [none_received later] at at_later
      cases at_later
  · exact sound.positive

theorem accept_nonblank {time : Int} {id : Nat} {now : Int} : (w.accept time id now).blank = false := by
  unfold accept
  split
  · rfl
  · rename_i kept
    simpa using fun blank => kept (Or.inl blank)

theorem accept_reaped {time : Int} {id : Nat} {now : Int} : (w.accept time id now).reaped = w.reaped := by
  unfold accept
  split <;> rfl

theorem Accepts.within {size : Nat} {time : Int} {id : Nat} (accepts : w.Accepts size time id) (now : Int) :
    id ≤ (w.accept time id now).top ∧ (0 < size → (w.accept time id now).top < id + size) := by
  unfold accept
  split
  · exact ⟨le_rfl, fun positive => Nat.lt_add_of_pos_right positive⟩
  · rename_i kept
    refine ⟨Nat.le_max_right _ _, fun positive => ?_⟩
    simp only
    obtain ⟨_, later | ⟨_, above | ⟨_, near, _⟩⟩⟩ := accepts
    · exact absurd (Or.inr later) kept
    · omega
    · omega

/-- A packet that can never be accepted any more. -/
def Spent (w : Window) (time : Int) (id : Nat) : Prop :=
  w.blank = false ∧ (time < w.time ∨ time = w.time ∧ id ≤ w.top ∧ (w.expired id ∨ w.received id ≠ none))

theorem Spent.refused {size : Nat} {time : Int} {id : Nat} (spent : w.Spent time id) : ¬ w.Accepts size time id := by
  obtain ⟨_, older | ⟨same, low, gone⟩⟩ := spent
  · rintro ⟨_, newer | ⟨same, _⟩⟩ <;> omega
  · rintro ⟨_, newer | ⟨_, above | ⟨_, _, fresh, missing⟩⟩⟩
    · omega
    · omega
    · rcases gone with expired | received
      · exact fresh expired
      · exact received missing

theorem Spent.accept {time : Int} {id : Nat} (spent : w.Spent time id) (newTime : Int) (newId : Nat) (now : Int) :
    (w.accept newTime newId now).Spent time id := by
  obtain ⟨open_, spent⟩ := spent
  unfold Window.accept
  by_cases restart : w.time < newTime
  · rw [if_pos (Or.inr restart)]
    refine ⟨rfl, Or.inl ?_⟩
    rcases spent with older | ⟨same, _⟩
    · exact older.trans restart
    · exact same ▸ restart
  · rw [if_neg (by simp [open_, restart])]
    refine ⟨open_, spent.imp_right ?_⟩
    rintro ⟨same, low, gone⟩
    refine ⟨same, low.trans (Nat.le_max_left _ _), gone.imp_right fun received => ?_⟩
    simp only [Function.update_apply]
    split
    · simp
    · exact received

theorem Spent.reap {time : Int} {id : Nat} (spent : w.Spent time id) (age now : Int) : (w.reap age now).Spent time id :=
  ⟨spent.1, spent.2.imp_right fun ⟨same, low, gone⟩ => ⟨same, low, gone.imp_left Or.inl⟩⟩

theorem accepted_spent {time : Int} (newer : w.time ≤ time) (id : Nat) (now : Int) :
    (w.accept time id now).Spent time id := by
  unfold Window.accept
  split
  · exact ⟨rfl, Or.inr ⟨rfl, le_rfl, Or.inr (by simp)⟩⟩
  · rename_i kept
    have open_ : w.blank = false := by
      simpa using fun blank => kept (Or.inl blank)
    have same : time = w.time := by
      have later : ¬ w.time < time := fun later => kept (Or.inr later)
      omega
    exact ⟨open_, Or.inr ⟨same, Nat.le_max_right _ _, Or.inr (by simp)⟩⟩

theorem Accepts.newer {size : Nat} {time : Int} {id : Nat} (accepts : w.Accepts size time id) : w.time ≤ time := by
  obtain ⟨_, later | ⟨same, _⟩⟩ := accepts
  · exact later.le
  · exact same.ge

theorem arrive_cases (size : Nat) (age interval : Int) (w : Window) (time : Int) (id : Nat) (now : Int) :
    ∃ swept, (swept = w ∨ swept = w.reap age now) ∧
      (swept.Accepts size time id ∧ w.arrive size age interval time id now = (swept.accept time id now, true) ∨
        ¬ swept.Accepts size time id ∧ w.arrive size age interval time id now = (swept, false)) := by
  unfold arrive
  dsimp only
  generalize kept : (if w.reaped + interval ≤ now then w.reap age now else w) = swept
  refine ⟨swept, ?_, ?_⟩
  · rw [← kept]
    split
    · exact Or.inr rfl
    · exact Or.inl rfl
  · by_cases accepts : swept.Accepts size time id
    · exact Or.inl ⟨accepts, if_pos accepts⟩
    · exact Or.inr ⟨accepts, if_neg accepts⟩

theorem Spent.arrive {time : Int} {id : Nat} (spent : w.Spent time id) (size : Nat) (age interval newTime : Int)
    (newId : Nat) (now : Int) : (w.arrive size age interval newTime newId now).1.Spent time id := by
  obtain ⟨swept, same, ⟨_, arrived⟩ | ⟨_, arrived⟩⟩ := arrive_cases size age interval w newTime newId now
  · rw [arrived]
    rcases same with rfl | rfl
    · exact spent.accept newTime newId now
    · exact (spent.reap age now).accept newTime newId now
  · rw [arrived]
    rcases same with rfl | rfl
    · exact spent
    · exact spent.reap age now

theorem arrive_spends {size : Nat} {age interval time : Int} {id : Nat} {now : Int}
    (ok : (w.arrive size age interval time id now).2 = true) :
    ¬ w.Spent time id ∧ (w.arrive size age interval time id now).1.Spent time id := by
  obtain ⟨swept, same, ⟨accepts, arrived⟩ | ⟨_, arrived⟩⟩ := arrive_cases size age interval w time id now
  · rw [arrived]
    refine ⟨fun spent => ?_, accepted_spent accepts.newer id now⟩
    rcases same with rfl | rfl
    · exact spent.refused accepts
    · exact (spent.reap age now).refused accepts
  · rw [arrived] at ok
    cases ok

theorem arrive_nonzero {size : Nat} {age interval time : Int} {id : Nat} {now : Int}
    (ok : (w.arrive size age interval time id now).2 = true) : id ≠ 0 := by
  obtain ⟨swept, _, ⟨accepts, _⟩ | ⟨_, arrived⟩⟩ := arrive_cases size age interval w time id now
  · exact accepts.1
  · rw [arrived] at ok
    cases ok

theorem arrive_of_accepts {size : Nat} {age interval time : Int} {id : Nat} {now : Int}
    (unswept : now < w.reaped + interval) (accepts : w.Accepts size time id) :
    w.arrive size age interval time id now = (w.accept time id now, true) := by
  have still : (if w.reaped + interval ≤ now then w.reap age now else w) = w := if_neg (by omega)
  unfold arrive
  dsimp only
  rw [still]
  exact if_pos accepts

/-- The window has come past a point, or stands there with nothing received. -/
def Past (w : Window) (time : Int) (top : Nat) : Prop :=
  w.blank = true ∧ w.time = time ∧ w.top = top ∨ w.blank = false ∧ (time < w.time ∨ time = w.time ∧ top < w.top)

theorem Past.accept {time : Int} {top : Nat} (past : w.Past time top) {size : Nat} {newTime : Int} {id : Nat}
    (accepts : w.Accepts size newTime id) (now : Int) : (w.accept newTime id now).Past time top := by
  obtain ⟨_, order⟩ := accepts
  unfold Window.accept
  split
  · refine Or.inr ⟨rfl, ?_⟩
    rcases past with ⟨blank, rfl, rfl⟩ | ⟨nonblank, beyond⟩
    · rcases order with later | ⟨rfl, above | ⟨nonblank, _⟩⟩
      · exact Or.inl later
      · exact Or.inr ⟨rfl, above⟩
      · rw [blank] at nonblank
        cases nonblank
    · rename_i restarts
      have later : w.time < newTime := restarts.resolve_left (by simp [nonblank])
      rcases beyond with before | ⟨rfl, _⟩
      · exact Or.inl (before.trans later)
      · exact Or.inl later
  · rename_i kept
    rcases past with ⟨blank, _⟩ | ⟨nonblank, beyond⟩
    · exact absurd (Or.inl blank) kept
    · exact Or.inr ⟨nonblank, beyond.imp_right fun ⟨same, above⟩ => ⟨same, lt_max_of_lt_left above⟩⟩

theorem Past.accepts {time : Int} {top : Nat} (past : w.Past time top) {size : Nat} {newTime : Int} {id : Nat}
    (accepts : w.Accepts size newTime id) :
    time < newTime ∨ newTime = time ∧ (top < id ∨ top < w.top ∧ w.top < id + size) := by
  obtain ⟨_, order⟩ := accepts
  rcases past with ⟨blank, rfl, rfl⟩ | ⟨_, before | ⟨rfl, below⟩⟩
  · rcases order with later | ⟨same, above | ⟨nonblank, _⟩⟩
    · exact Or.inl later
    · exact Or.inr ⟨same, Or.inl above⟩
    · rw [blank] at nonblank
      cases nonblank
  · rcases order with later | ⟨rfl, _⟩
    · exact Or.inl (before.trans later)
    · exact Or.inl before
  · rcases order with later | ⟨same, above | ⟨_, near, _⟩⟩
    · exact Or.inl later
    · exact Or.inr ⟨same, Or.inl (below.trans above)⟩
    · exact Or.inr ⟨same, Or.inr ⟨below, near⟩⟩

theorem Past.arrive {time : Int} {top : Nat} (past : w.Past time top) (size : Nat) (age interval newTime : Int)
    (id : Nat) (now : Int) : (w.arrive size age interval newTime id now).1.Past time top ∧
      ((w.arrive size age interval newTime id now).2 = true →
        time < newTime ∨ newTime = time ∧ (top < id ∨ top < w.top ∧ w.top < id + size)) := by
  obtain ⟨swept, same, ⟨accepts, arrived⟩ | ⟨_, arrived⟩⟩ := arrive_cases size age interval w newTime id now
  · rw [arrived]
    rcases same with rfl | rfl
    · exact ⟨past.accept accepts now, fun _ => past.accepts accepts⟩
    · have swept : (w.reap age now).Past time top := past
      exact ⟨swept.accept accepts now, fun _ => swept.accepts accepts⟩
  · rw [arrived]
    rcases same with rfl | rfl
    · exact ⟨past, fun ok => by cases ok⟩
    · exact ⟨past, fun ok => by cases ok⟩

end Window

end OpenVpn
