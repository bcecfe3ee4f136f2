import Mathlib.Data.List.Chain
import SeguridadRedes.OpenVpn.ReplayRefinement

namespace OpenVpn

open C (runs_cons_eq_some runs_invariant)

variable {seq_backtrack : Nat}

section Window

variable {age : Int} {p : PacketIdRec seq_backtrack} {w : Window}

theorem init_refines {time_backtrack : Int} {send : PacketIdSend} (positive : 0 < seq_backtrack)
    (made : packetIdInit seq_backtrack time_backtrack = some (send, p)) (persist : PacketIdPersist) :
    Refines time_backtrack (packetIdPersistLoadObj persist p)
      (Window.starting (packetIdPersistLoadObj persist p).time
        (packetIdPersistLoadObj persist p).id.toNat) := by
  unfold packetIdInit at made
  rw [dif_pos positive] at made
  split at made
  · rename_i allowed
    obtain ⟨_, rfl⟩ := by simpa using made
    unfold packetIdPersistLoadObj
    split <;> exact ⟨positive, allowed.1, rfl, rfl, rfl, rfl, rfl, Window.starting_sound _ _, _, rfl,
      by simp [toList_alloc, Window.starting]⟩
  · cases made

theorem Refines.arrive (refines : Refines age p w) (arrival : Arrival) :
    ∃ p', openvpnDecryptPacketId p arrival.packet arrival.now =
        some (p', (w.arrive seq_backtrack age SEQ_REAP_INTERVAL arrival.packet.time arrival.packet.id.toNat
          arrival.now).2) ∧
      Refines age p' (w.arrive seq_backtrack age SEQ_REAP_INTERVAL arrival.packet.time arrival.packet.id.toNat
        arrival.now).1 := by
  have reaped : Refines age (packetIdReapTest p arrival.now)
      (if w.reaped + SEQ_REAP_INTERVAL ≤ arrival.now then w.reap age arrival.now else w) := by
    unfold packetIdReapTest
    rw [refines.reaped]
    split
    · exact refines.reap arrival.now
    · exact refines
  obtain ⟨ok, tested, verdict⟩ := reaped.test arrival.packet
  unfold openvpnDecryptPacketId Window.arrive
  dsimp only
  rw [tested]
  cases ok with
  | true =>
    have accepts := verdict.mp rfl
    rw [if_pos accepts]
    exact ⟨_, rfl, reaped.add arrival.clock accepts⟩
  | false =>
    have refuses := mt verdict.mpr (by decide)
    rw [if_neg refuses]
    exact ⟨_, rfl, reaped⟩

/-- What becomes of each packet by the window alone. -/
noncomputable def Window.watch (size : Nat) (age : Int) (w : Window) : List Arrival → List (PacketIdNet × Bool)
  | [] => []
  | arrival :: rest =>
    let out := w.arrive size age SEQ_REAP_INTERVAL arrival.packet.time arrival.packet.id.toNat arrival.now
    (arrival.packet, out.2) :: out.1.watch size age rest

theorem Refines.runs (refines : Refines age p w) (arrivals : List Arrival) (log : List (PacketIdNet × Bool)) :
    ∃ r, C.runs OpenVpn.arrive ⟨p, log⟩ arrivals = some r ∧ r.log = log ++ w.watch seq_backtrack age arrivals := by
  induction arrivals generalizing p w log with
  | nil => exact ⟨_, rfl, (List.append_nil log).symm⟩
  | cons arrival rest ih =>
    obtain ⟨p', decrypted, next⟩ := refines.arrive arrival
    obtain ⟨r, ran, logged⟩ := ih next (log ++ [(arrival.packet, _)])
    refine ⟨r, runs_cons_eq_some.mpr ⟨_, ?_, ran⟩, ?_⟩
    · unfold OpenVpn.arrive
      rw [decrypted]
    · rw [logged, List.append_assoc]
      rfl

end Window

/-- The list of received ids, moved, reset and swept as packets come in, answers like the window it stands for. -/
theorem replay_window_exact {p : PacketIdRec seq_backtrack} {send : PacketIdSend} {time_backtrack : Int}
    (positive : 0 < seq_backtrack) (made : packetIdInit seq_backtrack time_backtrack = some (send, p))
    (persist : PacketIdPersist) (arrivals : List Arrival) :
    ∃ r, receive (packetIdPersistLoadObj persist p) arrivals = some r ∧
      r.log = (Window.starting (packetIdPersistLoadObj persist p).time
        (packetIdPersistLoadObj persist p).id.toNat).watch seq_backtrack time_backtrack arrivals := by
  obtain ⟨r, ran, logged⟩ := (init_refines positive made persist).runs arrivals []
  exact ⟨r, ran, by rw [logged, List.nil_append]⟩

def sampleRecord : PacketIdRec 64 :=
  { last_reap := 0, time := 0, id := 0, time_backtrack := 15, initialized := true
    seq_list := some (CIRC_LIST_ALLOC 0 (by decide)) }

theorem sample_made : packetIdInit 64 15 = some (⟨0, 0⟩, sampleRecord) := rfl

def unsaved : PacketIdPersist := ⟨true, 0, 0⟩

theorem sample_window_exact : ∃ r, receive sampleRecord [⟨⟨2, 5⟩, 2, by decide⟩, ⟨⟨1, 5⟩, 60, by decide⟩] = some r ∧
    r.log = (Window.starting 0 0).watch 64 15 [⟨⟨2, 5⟩, 2, by decide⟩, ⟨⟨1, 5⟩, 60, by decide⟩] :=
  replay_window_exact (by decide) sample_made unsaved [⟨⟨2, 5⟩, 2, by decide⟩, ⟨⟨1, 5⟩, 60, by decide⟩]

section Sequential

/-- The next of a sequence, or the first of a later one. -/
def Succeeds (a b : PacketIdNet) : Prop :=
  b.time = a.time ∧ b.id.toNat = a.id.toNat + 1 ∨ a.time < b.time ∧ b.id = 1

def Before (a b : PacketIdNet) : Prop := a.time < b.time ∨ a.time = b.time ∧ a.id.toNat < b.id.toNat

instance : Trans Before Before Before where
  trans first second := by
    unfold Before at first second ⊢
    omega

theorem Succeeds.before {a b : PacketIdNet} (next : Succeeds a b) : Before a b := by
  unfold Succeeds Before at *
  omega

theorem Before.ne {a b : PacketIdNet} (before : Before a b) : a ≠ b := by
  rintro rfl
  unfold Before at before
  omega

/-- A receiver without a window: what it remembers is the last packet it took. -/
structure Following (p : PacketIdRec 0) (accepted : List PacketIdNet) : Prop where
  initialized : p.initialized = true
  last : ∀ a ∈ accepted.getLast?, p.time = a.time ∧ p.id = a.id ∧ a.id ≠ 0
  sequence : accepted.IsChain Succeeds

theorem no_window (p : PacketIdRec 0) : p.seq_list = none := by
  cases stored : p.seq_list with
  | none => rfl
  | some list => exact absurd list.head_lt (Nat.not_lt_zero _)

theorem reap_test_frame (p : PacketIdRec seq_backtrack) (now : Int) :
    (packetIdReapTest p now).time = p.time ∧ (packetIdReapTest p now).id = p.id ∧
      (packetIdReapTest p now).initialized = p.initialized := by
  unfold packetIdReapTest packetIdReap
  split
  · split <;> exact ⟨rfl, rfl, rfl⟩
  · exact ⟨rfl, rfl, rfl⟩

/-- The packets a receiver without a window takes. -/
def InTurn (p : PacketIdRec 0) (pin : PacketIdNet) : Prop :=
  pin.id ≠ 0 ∧ (pin.time = p.time ∧ (p.id = 0 ∨ pin.id = p.id + 1) ∨ p.time < pin.time ∧ pin.id = 1)

theorem test_in_turn {p : PacketIdRec 0} (initialized : p.initialized = true) (pin : PacketIdNet) :
    ∃ ok, packetIdTest p pin = some ok ∧ (ok = true ↔ InTurn p pin) := by
  unfold packetIdTest InTurn
  rw [if_pos initialized, if_neg (not_not.mpr rfl : ¬ (0 ≠ 0))]
  by_cases zero : pin.id = 0
  · rw [if_pos zero]
    exact ⟨false, rfl, by simp [zero]⟩
  · rw [if_neg zero]
    by_cases same : pin.time = p.time
    · rw [if_pos same]
      exact ⟨_, rfl, by simp [zero, same]⟩
    · rw [if_neg same]
      by_cases older : pin.time < p.time
      · rw [if_pos older]
        have notLater : ¬ p.time < pin.time := by omega
        exact ⟨false, rfl, by simp [same, notLater]⟩
      · rw [if_neg older]
        have later : p.time < pin.time := by omega
        exact ⟨_, rfl, by simp [zero, same, later]⟩

theorem decrypt_in_turn {p : PacketIdRec 0} (initialized : p.initialized = true) (pin : PacketIdNet) (now : Int) :
    ∃ p' ok, openvpnDecryptPacketId p pin now = some (p', ok) ∧ p'.initialized = true ∧ (ok = true ↔ InTurn p pin) ∧
      p'.time = (if ok then pin.time else p.time) ∧ p'.id = if ok then pin.id else p.id := by
  obtain ⟨time, id, still⟩ := reap_test_frame p now
  obtain ⟨ok, tested, verdict⟩ := test_in_turn (still.trans initialized) pin
  have turn : InTurn (packetIdReapTest p now) pin ↔ InTurn p pin := by
    unfold InTurn
    rw [time, id]
  unfold openvpnDecryptPacketId
  dsimp only
  rw [tested]
  cases ok with
  | true =>
    refine ⟨_, true, rfl, ?_, verdict.trans turn, ?_, ?_⟩ <;> simp [packetIdAdd, no_window, still.trans initialized]
  | false => exact ⟨_, false, rfl, still.trans initialized, verdict.trans turn, time, id⟩

theorem accepted_append (p : PacketIdRec seq_backtrack) (log : List (PacketIdNet × Bool)) (pin : PacketIdNet)
    (ok : Bool) :
    (Receiving.mk p (log ++ [(pin, ok)])).accepted =
      (Receiving.mk p log).accepted ++ if ok then [pin] else [] := by
  unfold Receiving.accepted
  cases ok <;> simp

theorem Following.arrive {r r' : Receiving 0} {arrival : Arrival} (following : Following r.receiver r.accepted)
    (arrived : OpenVpn.arrive r arrival = some r') : Following r'.receiver r'.accepted := by
  obtain ⟨p', ok, decrypted, initialized, verdict, time, id⟩ :=
    decrypt_in_turn following.initialized arrival.packet arrival.now
  unfold OpenVpn.arrive at arrived
  rw [decrypted] at arrived
  obtain rfl := by simpa using arrived
  have same : (Receiving.mk r.receiver r.log).accepted = r.accepted := rfl
  cases ok with
  | false =>
    have unchanged : (Receiving.mk p' (r.log ++ [(arrival.packet, false)])).accepted = r.accepted := by
      rw [accepted_append]
      simp [Receiving.accepted]
    rw [unchanged]
    refine ⟨initialized, fun a member => ?_, following.sequence⟩
    obtain ⟨sameTime, sameId, nonzero⟩ := following.last a member
    exact ⟨time.trans sameTime, id.trans sameId, nonzero⟩
  | true =>
    obtain ⟨nonzero, turn⟩ := verdict.mp rfl
    have longer : (Receiving.mk p' (r.log ++ [(arrival.packet, true)])).accepted = r.accepted ++ [arrival.packet] := by
      rw [accepted_append]
      simp [Receiving.accepted]
    rw [longer]
    refine ⟨initialized, fun a member => ?_, ?_⟩
    · obtain rfl : arrival.packet = a := by simpa using member
      exact ⟨time, id, nonzero⟩
    · rw [List.isChain_append]
      refine ⟨following.sequence, List.isChain_singleton _, fun a member b isFirst => ?_⟩
      obtain rfl : arrival.packet = b := by simpa using isFirst
      obtain ⟨sameTime, sameId, aNonzero⟩ := following.last a member
      rcases turn with ⟨equal, unset | next⟩ | ⟨later, first⟩
      · exact absurd (sameId ▸ unset) aNonzero
      · refine Or.inl ⟨equal.trans sameTime, ?_⟩
        rw [sameId] at next
        rw [next] at nonzero ⊢
        rw [UInt32.toNat_add, Nat.mod_eq_of_lt]
        · rfl
        · by_contra wraps
          apply nonzero
          have bound := a.id.toNat_lt
          apply UInt32.toNat_inj.mp
          rw [UInt32.toNat_add]
          simp only [UInt32.reduceToNat] at wraps ⊢
          omega
      · exact Or.inr ⟨sameTime ▸ later, first⟩

theorem following_init {p : PacketIdRec 0} {send : PacketIdSend} {time_backtrack : Int}
    (made : packetIdInit 0 time_backtrack = some (send, p)) (persist : PacketIdPersist) :
    Following (packetIdPersistLoadObj persist p) [] := by
  obtain ⟨_, rfl⟩ := by simpa [packetIdInit] using made
  refine ⟨?_, by simp, List.isChain_nil⟩
  unfold packetIdPersistLoadObj
  split <;> rfl

/-- Without a window (over TCP) what is accepted is sequences without gaps, each later than the one before. -/
theorem sequential_without_gaps {p : PacketIdRec 0} {send : PacketIdSend} {time_backtrack : Int}
    (made : packetIdInit 0 time_backtrack = some (send, p)) (persist : PacketIdPersist) (arrivals : List Arrival)
    {r : Receiving 0} (ran : receive (packetIdPersistLoadObj persist p) arrivals = some r) :
    r.accepted.IsChain Succeeds := by
  have start := following_init made persist
  exact (runs_invariant (fun s a s' before arrived => Following.arrive before arrived) start ran).sequence

def sampleStreamRecord : PacketIdRec 0 :=
  { last_reap := 0, time := 0, id := 0, time_backtrack := 0, initialized := true, seq_list := none }

theorem sample_without_gaps : [⟨1, 5⟩, ⟨2, 5⟩, ⟨1, 9⟩].IsChain Succeeds :=
  sequential_without_gaps (rfl : packetIdInit 0 0 = some (⟨0, 0⟩, sampleStreamRecord)) unsaved
    [⟨⟨1, 5⟩, 2, by decide⟩, ⟨⟨3, 5⟩, 2, by decide⟩, ⟨⟨2, 5⟩, 2, by decide⟩, ⟨⟨1, 9⟩, 2, by decide⟩]
    (r := ⟨⟨0, 9, 1, 0, true, none⟩, [(⟨1, 5⟩, true), (⟨3, 5⟩, false), (⟨2, 5⟩, true), (⟨1, 9⟩, true)]⟩) rfl

end Sequential

end OpenVpn
