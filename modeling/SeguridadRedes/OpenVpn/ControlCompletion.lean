import Mathlib.Data.Set.Finite.Lattice
import Mathlib.Order.Bounds.Basic
import SeguridadRedes.OpenVpn.ControlDelivery

namespace OpenVpn

open C (Bytes runs_append runs_singleton)

section Quiet

variable {session_id : Side → SessionId}

/-- Nothing new to deliver, and nothing new in a send buffer. -/
structure Quiet (cfg cfg' : Config) : Prop where
  written : ∀ a, cfg'.written a = cfg.written a
  active : ∀ a id, (cfg'.ks a).send_reliable.Active id → (cfg.ks a).send_reliable.Active id
  flowing : ∀ a, (cfg.ks a).send_reliable.hold = false → (cfg'.ks a).send_reliable.hold = false

theorem Quiet.refl (cfg : Config) : Quiet cfg cfg := ⟨fun _ => rfl, fun _ _ active => active, fun _ flowing => flowing⟩

theorem Quiet.trans {cfg mid cfg' : Config} (first : Quiet cfg mid) (second : Quiet mid cfg') : Quiet cfg cfg' where
  written a := (second.written a).trans (first.written a)
  active a id active := first.active a id (second.active a id active)
  flowing a flowing := second.flowing a (first.flowing a flowing)

theorem Quiet.evolve {cfg : Config} {a : Side} {ks : KeyState} (packets : List Packet) (read : List Bytes)
    (active : ∀ id, ks.send_reliable.Active id → (cfg.ks a).send_reliable.Active id)
    (flowing : (cfg.ks a).send_reliable.hold = false → ks.send_reliable.hold = false) :
    Quiet cfg (cfg.evolve a ks packets (cfg.written a) read) where
  written b := evolve_written_same _ _ _ _ _ _
  active b := by
    by_cases same : b = a
    · subst same
      simpa [Config.evolve] using active
    · simp [Config.evolve, Function.update_of_ne same]
  flowing b := by
    by_cases same : b = a
    · subst same
      simpa [Config.evolve] using flowing
    · simp [Config.evolve, Function.update_of_ne same]

theorem purge_active_of {rel : Reliable size} {ack : ReliableAck} {id : UInt32}
    (active : (reliableSendPurge rel ack).Active id) : rel.Active id := by
  obtain ⟨i, active, named⟩ := active
  have same := purge_still rel ack active
  rw [same] at active named
  exact ⟨i, active, named⟩

theorem pre_decrypt_data_send {ks ks' : KeyState} {op : Opcode} {buf : Bytes}
    (taken : tlsPreDecryptData ks op buf = some ks') : ks'.send_reliable = ks.send_reliable := by
  rcases pre_decrypt_data_cases taken with rfl | ⟨_, _, _, _, _, same, _, _⟩
  · rfl
  · exact same

theorem pre_decrypt_data_acks {ks ks' : KeyState} {op : Opcode} {id : UInt32} {ciphertext : Bytes}
    (control : op ≠ .P_ACK_V1) (room : reliableCanGet ks.rec_reliable = true)
    (near : reliableWontBreakSequentiality ks.rec_reliable id = true)
    (taken : tlsPreDecryptData ks op (htonpid id ++ ciphertext) = some ks') :
    ks'.rec_ack = (reliableAckAcknowledgePacketId ks.rec_ack id).1 := by
  unfold tlsPreDecryptData at taken
  simp only [control, room, near, reliableAckReadPacketId_append, ne_eq, not_false_eq_true, decide_true,
    Bool.and_self, if_true] at taken
  split at taken
  · split at taken
    · simp only [Option.some.injEq] at taken
      rw [← taken]
    · cases taken
  · simp only [Option.some.injEq] at taken
    rw [← taken]

theorem pre_decrypt_send {ks ks' : KeyState} {sid : SessionId} {packet : Packet}
    (taken : tlsPreDecrypt ks sid packet = some ks') :
    (∀ id, ks'.send_reliable.Active id → ks.send_reliable.Active id) ∧
      ks'.send_reliable.hold = ks.send_reliable.hold := by
  unfold tlsPreDecrypt at taken
  split at taken
  · rename_i send_ack buf _
    rw [pre_decrypt_data_send taken]
    exact ⟨fun id active => purge_active_of active, (purge_frame _ send_ack).2⟩
  · simp only [Option.some.injEq] at taken
    rw [taken]
    exact ⟨fun _ active => active, rfl⟩

theorem process_ack_cases {ks ks' : KeyState} {sid : SessionId} {packets : List Packet}
    (sent : tlsProcessAck ks sid = some (ks', packets)) :
    ks.rec_ack.packet_id = [] ∧ ks' = ks ∧ packets = [] ∨
      ∃ ack : ReliableAck, ack.packet_id = [] ∧ ks' = { ks with rec_ack := ack } ∧
        packets = [⟨.P_ACK_V1, ackRecord ks.rec_ack.packet_id sid⟩] := by
  have fits := ks.rec_ack.fits
  unfold tlsProcessAck at sent
  split at sent
  · rename_i none_waiting
    obtain ⟨rfl, rfl⟩ := by simpa using sent
    exact Or.inl ⟨reliableAckEmpty_iff.mp none_waiting, rfl, rfl⟩
  · unfold writeControlAuth reliableAckWrite at sent
    have whole : min ks.rec_ack.len RELIABLE_ACK_SIZE = ks.rec_ack.packet_id.length := Nat.min_eq_left fits
    simp only [whole, List.take_length] at sent
    split at sent
    · rename_i ack out written
      split at written
      · obtain ⟨rfl, rfl⟩ := by simpa using written
        obtain ⟨rfl, rfl⟩ := by simpa using sent
        exact Or.inr ⟨_, by simp [ReliableAck.shift], rfl, by simp⟩
      · cases written
    · cases sent

theorem step_quiet {cfg cfg' : Config} {action : Action} (idle : ∀ a, action.writes a = false)
    (stepped : step session_id cfg action = some cfg') : Quiet cfg cfg' := by
  cases step_cases stepped with
  | clock now => exact ⟨fun _ => rfl, fun _ _ active => active, fun _ flowing => flowing⟩
  | idle => exact Quiet.refl cfg
  | @generate a opcode control ciphertext ks made =>
    have writes := idle a
    simp [Action.writes] at writes
  | @send a ks packets sent =>
    rcases process_send_cases sent with ⟨_, rfl, rfl⟩ | ⟨rel, best, opcode, n, chosen, rfl, rfl⟩
    · exact Quiet.evolve _ _ (fun _ active => active) fun flowing => flowing
    · obtain ⟨same, _, _, hold⟩ := send_best chosen
      exact Quiet.evolve _ _ (fun id active => (same.active_iff id).mp active) fun flowing => hold.trans flowing
  | @acknowledge a ks packets sent =>
    rcases process_ack_cases sent with ⟨_, rfl, rfl⟩ | ⟨ack, _, rfl, rfl⟩
    · exact Quiet.evolve _ _ (fun _ active => active) fun flowing => flowing
    · exact Quiet.evolve _ _ (fun _ active => active) fun flowing => flowing
  | @consume a ks ciphertext taken =>
    have same := (read_state taken).1
    exact Quiet.evolve _ _ (fun id active => by rwa [same] at active) fun flowing => by rwa [same]
  | @receive a n packet ks at_n taken =>
    obtain ⟨active, hold⟩ := pre_decrypt_send taken
    exact Quiet.evolve _ _ active fun flowing => hold.trans flowing
  | burst a =>
    exact Quiet.evolve _ _ (fun id active => ((schedule_now_same _ _).active_iff id).mp active) fun _ => rfl

/-- Some schedule without writes leads from the one to the other. -/
def Goes (session_id : Side → SessionId) (cfg cfg' : Config) : Prop :=
  ∃ actions : List Action, (∀ action ∈ actions, ∀ a, action.writes a = false) ∧
    run session_id cfg actions = some cfg'

theorem Goes.refl (cfg : Config) : Goes session_id cfg cfg := ⟨[], by simp, rfl⟩

theorem Goes.trans {cfg mid cfg' : Config} (first : Goes session_id cfg mid) (second : Goes session_id mid cfg') :
    Goes session_id cfg cfg' := by
  obtain ⟨before, idle, ran⟩ := first
  obtain ⟨after, idle', ran'⟩ := second
  refine ⟨before ++ after, ?_, runs_append.mpr ⟨mid, ran, ran'⟩⟩
  intro action member
  rcases List.mem_append.mp member with member | member
  · exact idle action member
  · exact idle' action member

theorem Goes.step {cfg cfg' : Config} {action : Action} (idle : ∀ a, action.writes a = false)
    (stepped : step session_id cfg action = some cfg') : Goes session_id cfg cfg' :=
  ⟨[action], by simpa using idle, runs_singleton.mpr stepped⟩

theorem Goes.quiet {cfg cfg' : Config} (goes : Goes session_id cfg cfg') : Quiet cfg cfg' := by
  obtain ⟨actions, idle, ran⟩ := goes
  induction actions generalizing cfg with
  | nil =>
    obtain rfl : cfg = cfg' := by simpa [run] using ran
    exact Quiet.refl cfg
  | cons action actions ih =>
    obtain ⟨mid, stepped, rest⟩ := C.runs_cons_eq_some.mp ran
    have first := step_quiet (idle action List.mem_cons_self) stepped
    exact first.trans (ih (fun action member => idle action (List.mem_cons_of_mem _ member)) rest)

/-- A configuration from which traffic can go on. -/
structure Live (session_id : Side → SessionId) (cfg : Config) : Prop where
  good : cfg.Good session_id
  few : ∀ a, (cfg.written a).length ≤ 2 ^ 31
  flowing : ∀ a, (cfg.ks a).send_reliable.hold = false

theorem Live.goes (defined : ∀ a, sessionIdDefined (session_id a) = true) {cfg cfg' : Config}
    (live : Live session_id cfg) (goes : Goes session_id cfg cfg') : Live session_id cfg' := by
  have quiet := goes.quiet
  have few : ∀ a, (cfg'.written a).length ≤ 2 ^ 31 := fun a => by
    rw [quiet.written a]
    exact live.few a
  obtain ⟨actions, _, ran⟩ := goes
  exact ⟨run_good defined live.good ran few, few, fun a => quiet.flowing a (live.flowing a)⟩

end Quiet

section Round

variable {session_id : Side → SessionId} {cfg : Config}

theorem consume_all (defined : ∀ a, sessionIdDefined (session_id a) = true) (live : Live session_id cfg) (a : Side) :
    ∃ cfg', Goes session_id cfg cfg' ∧ tlsProcessRead (cfg'.ks a) = none := by
  generalize measured : (cfg.written a.other).length - (cfg.read a).length = unread
  induction unread using Nat.strongRecOn generalizing cfg with
  | ind unread ih =>
    cases taken : tlsProcessRead (cfg.ks a) with
    | none => exact ⟨cfg, Goes.refl cfg, taken⟩
    | some out =>
      obtain ⟨ks, ciphertext⟩ := out
      have stepped : step session_id cfg (.consume a) =
          some (cfg.evolve a ks [] (cfg.written a) (cfg.read a ++ [ciphertext])) := by
        simp only [step, taken, setState_deliver_eq]
      have goes := Goes.step (by simp [Action.writes]) stepped
      have next := live.goes defined goes
      have ordered := (next.good.incoming a).receiver.inOrder.length_le
      rw [goes.quiet.written] at ordered
      have longer : ((cfg.evolve a ks [] (cfg.written a) (cfg.read a ++ [ciphertext])).read a).length =
          (cfg.read a).length + 1 := by
        simp [Config.evolve]
      rw [longer] at ordered
      obtain ⟨cfg', later, done⟩ := ih _ (by
        rw [goes.quiet.written, longer]
        omega) next rfl
      exact ⟨cfg', goes.trans later, done⟩

theorem acknowledge_all (defined : ∀ a, sessionIdDefined (session_id a) = true) (cfg : Config) (a : Side) :
    ∃ cfg', Goes session_id cfg cfg' ∧ (cfg'.ks a).rec_ack.packet_id = [] ∧
      (cfg'.ks a).rec_reliable = (cfg.ks a).rec_reliable ∧
      ((cfg.ks a).rec_ack.packet_id ≠ [] → cfg'.net a = cfg.net a ++
        [⟨.P_ACK_V1, ackRecord (cfg.ks a).rec_ack.packet_id (session_id a.other)⟩]) := by
  obtain ⟨⟨ks, packets⟩, sent⟩ := acknowledge_succeeds (defined a.other) (cfg.ks a)
  have stepped : step session_id cfg (.acknowledge a) =
      some (cfg.evolve a ks packets (cfg.written a) (cfg.read a)) := by
    simp only [step, sent, setState_transmit_eq]
  refine ⟨_, Goes.step (by simp [Action.writes]) stepped, ?_⟩
  rcases process_ack_cases sent with ⟨nothing, rfl, rfl⟩ | ⟨ack, emptied, rfl, rfl⟩
  · simp [Config.evolve, nothing]
  · simp [Config.evolve, emptied]

theorem wait_until_due (cfg : Config) (a : Side) :
    ∃ cfg', Goes session_id cfg cfg' ∧ cfg'.ks = cfg.ks ∧
      ∀ i, ((cfg'.ks a).send_reliable.entry i).next_try ≤ cfg'.now := by
  obtain ⟨late, bound⟩ := (Set.finite_range fun i => ((cfg.ks a).send_reliable.entry i).next_try).bddAbove
  refine ⟨{ cfg with now := late }, @Goes.step session_id cfg _ (.clock late) (by simp [Action.writes]) rfl, rfl, ?_⟩
  exact fun i => bound ⟨i, rfl⟩

/-- With everything due, the oldest packet goes out first. -/
theorem send_lowest (defined : ∀ a, sessionIdDefined (session_id a) = true) (live : Live session_id cfg) (a : Side)
    (due : ∀ i, ((cfg.ks a).send_reliable.entry i).next_try ≤ cfg.now)
    (pending : reliableEmpty (cfg.ks a).send_reliable = false) :
    ∃ cfg' id ids ciphertext opcode, Goes session_id cfg cfg' ∧
      (cfg.ks a).send_reliable.Active id ∧
      (∀ other, (cfg.ks a).send_reliable.Active other → id.toNat ≤ other.toNat) ∧
      ids.length ≤ RELIABLE_ACK_SIZE ∧ opcode ≠ .P_ACK_V1 ∧
      cfg'.net a = cfg.net a ++ [⟨opcode, ackRecord ids (session_id a.other) ++ (htonpid id ++ ciphertext)⟩] ∧
      cfg'.ks a.other = cfg.ks a.other := by
  have sender := (live.good.outgoing a).sender
  have low : ∀ i, ((cfg.ks a).send_reliable.entry i).active = true →
      ((cfg.ks a).send_reliable.entry i).packet_id.toNat < 2 ^ 31 := by
    intro i active
    have bound := sender.active_lt ⟨i, active, rfl⟩
    have few := live.few a
    omega
  obtain ⟨first, waiting⟩ : ∃ i, ((cfg.ks a).send_reliable.entry i).active = true := by
    by_contra nobody
    have empty : reliableEmpty (cfg.ks a).send_reliable = true :=
      empty_iff.mpr fun i => by simpa using fun active => nobody ⟨i, active⟩
    rw [pending] at empty
    cases empty
  have can : reliableCanSend (cfg.ks a).send_reliable cfg.now = true :=
    can_send_iff.mpr ⟨⟨first, waiting, due first⟩, live.flowing a⟩
  obtain ⟨⟨ks, packets⟩, sent⟩ := send_succeeds (defined a.other) (cfg.ks a) cfg.now
  have stepped : step session_id cfg (.send a) = some (cfg.evolve a ks packets (cfg.written a) (cfg.read a)) := by
    simp only [step, sent, setState_transmit_eq]
  rcases process_send_cases sent with ⟨idle, _, _⟩ | ⟨rel, best, opcode, n, chosen, rfl, rfl⟩
  · rw [can] at idle
    cases idle
  · obtain ⟨_, active, named, _⟩ := send_best chosen
    obtain ⟨ciphertext, _, content⟩ := sender.holds best active
    refine ⟨_, _, (cfg.ks a).rec_ack.packet_id.take n, ciphertext, opcode,
      Goes.step (by simp [Action.writes]) stepped, ⟨best, active, rfl⟩, ?_, take_acks_fit _ _, ?_, ?_, ?_⟩
    · rintro other ⟨j, jActive, rfl⟩
      exact send_least chosen (fun i active _ => low i active) j jActive (due j)
    · rw [← named]
      exact sender.control best active
    · simp [Config.evolve, content]
    · simp [Config.evolve, Function.update_of_ne a.other_ne]

/-- A packet that is next or has been taken already is acknowledged on arrival. -/
theorem receive_acknowledged (defined : ∀ a, sessionIdDefined (session_id a) = true) (live : Live session_id cfg)
    (a : Side) {n : Nat} {id : UInt32} {ids : List UInt32} {ciphertext : Bytes} {opcode : Opcode}
    (fits : ids.length ≤ RELIABLE_ACK_SIZE) (control : opcode ≠ .P_ACK_V1)
    (at_n : (cfg.net a.other)[n]? =
      some ⟨opcode, ackRecord ids (session_id a) ++ (htonpid id ++ ciphertext)⟩)
    (near : id.toNat ≤ (cfg.read a).length) (waiting : tlsProcessRead (cfg.ks a) = none)
    (clear : (cfg.ks a).rec_ack.packet_id = []) :
    ∃ cfg', Goes session_id cfg cfg' ∧ (cfg'.ks a).rec_ack.packet_id = [id] ∧ cfg'.ks a.other = cfg.ks a.other := by
  have receiver := (live.good.incoming a).receiver
  have count := receiver.count
  have ordered := receiver.inOrder.length_le
  have few := live.few a.other
  have room : reliableCanGet (cfg.ks a).rec_reliable = true := by
    apply receiver.room
    intro next
    obtain ⟨out, taken⟩ := read_of_sequenced (cfg.ks a) next
    rw [waiting] at taken
    cases taken
  have inRange : reliableWontBreakSequentiality (cfg.ks a).rec_reliable id = true := by
    unfold reliableWontBreakSequentiality
    have extent : (UInt32.ofNat TLS_RELIABLE_N_REC_BUFFERS).toNat = 8 := rfl
    rw [pid_in_range2_iff (by omega)]
    omega
  have empty : (cfg.ks a).rec_ack = .empty := ReliableAck.ext_ids clear
  obtain ⟨send_ack, _, decrypted⟩ :=
    pre_decrypt_record (cfg.ks a) ids fits (defined a) opcode (htonpid id ++ ciphertext)
  obtain ⟨ks, taken⟩ := pre_decrypt_succeeds (cfg.ks a) (session_id a)
    ⟨opcode, ackRecord ids (session_id a) ++ (htonpid id ++ ciphertext)⟩
  have stepped : step session_id cfg (.receive a n) = some (cfg.evolve a ks [] (cfg.written a) (cfg.read a)) := by
    simp only [step, at_n, taken, setState_eq]
  refine ⟨_, Goes.step (by simp [Action.writes]) stepped, ?_, ?_⟩
  · rw [decrypted] at taken
    have acked := pre_decrypt_data_acks control (by exact room) (by exact inRange) taken
    simp only [empty] at acked
    simp [Config.evolve, acked, acknowledge_empty]
  · simp [Config.evolve, Function.update_of_ne a.other_ne]

theorem receive_purges (defined : ∀ a, sessionIdDefined (session_id a) = true) (live : Live session_id cfg)
    (a : Side) {n : Nat} {id : UInt32}
    (at_n : (cfg.net a.other)[n]? = some ⟨.P_ACK_V1, ackRecord [id] (session_id a)⟩) :
    ∃ cfg', Goes session_id cfg cfg' ∧ ¬ (cfg'.ks a).send_reliable.Active id := by
  obtain ⟨send_ack, only, decrypted⟩ := pre_decrypt_record (cfg.ks a) [id] (by simp [RELIABLE_ACK_SIZE]) (defined a)
    .P_ACK_V1 []
  rw [List.append_nil] at decrypted
  obtain ⟨ks, taken⟩ := pre_decrypt_succeeds (cfg.ks a) (session_id a) ⟨.P_ACK_V1, ackRecord [id] (session_id a)⟩
  have stepped : step session_id cfg (.receive a n) = some (cfg.evolve a ks [] (cfg.written a) (cfg.read a)) := by
    simp only [step, at_n, taken, setState_eq]
  refine ⟨_, Goes.step (by simp [Action.writes]) stepped, ?_⟩
  rw [decrypted] at taken
  have purged : ks.send_reliable = reliableSendPurgeId (cfg.ks a).send_reliable id := by
    rw [pre_decrypt_data_send taken]
    simp [reliableSendPurge, only]
  simp only [Config.evolve, Function.update_self, purged]
  exact purge_id_clears _ (live.good.outgoing a).sender.distinct id

theorem empty_iff_no_active {size : Nat} {rel : Reliable size} :
    reliableEmpty rel = true ↔ ∀ id, ¬ rel.Active id := by
  rw [empty_iff]
  constructor
  · rintro inactive id ⟨i, active, _⟩
    rw [inactive i] at active
    cases active
  · intro nobody i
    by_contra active
    exact nobody _ ⟨i, by simpa using active, rfl⟩

theorem read_none_iff {ks : KeyState} :
    tlsProcessRead ks = none ↔ reliableGetBufSequenced ks.rec_reliable = none := by
  unfold tlsProcessRead
  cases reliableGetBufSequenced ks.rec_reliable <;> simp

/-- What the sender still holds is no further than what the reader waits for. -/
theorem lowest_near (live : Live session_id cfg) (a : Side) {id : UInt32} (named : id.toNat < (cfg.written a).length)
    (lowest : ∀ other, (cfg.ks a).send_reliable.Active other → id.toNat ≤ other.toNat)
    (waiting : tlsProcessRead (cfg.ks a.other) = none) : id.toNat ≤ (cfg.read a.other).length := by
  have direction := live.good.outgoing a
  have count := direction.receiver.count
  by_contra further
  rcases direction.kept (cfg.ks a.other).rec_reliable.packet_id (by omega) with (low | next) | active
  · omega
  · obtain ⟨out, taken⟩ := read_of_sequenced _ next
    rw [waiting] at taken
    cases taken
  · have order := lowest _ active
    omega

/-- One exchange: the oldest packet still to be acknowledged is sent, taken, acknowledged and let go. -/
theorem release_oldest (defined : ∀ a, sessionIdDefined (session_id a) = true) (live : Live session_id cfg) (a : Side)
    (pending : reliableEmpty (cfg.ks a).send_reliable = false) :
    ∃ cfg' id, Goes session_id cfg cfg' ∧ (cfg.ks a).send_reliable.Active id ∧
      ¬ (cfg'.ks a).send_reliable.Active id := by
  -- the receiver reads what it can and lets its acknowledgements out, until everything is due
  obtain ⟨read, goes, drained⟩ := consume_all defined live a.other
  obtain ⟨clear, toClear, noAcks, sameRec, _⟩ := acknowledge_all defined read a.other
  obtain ⟨due, toDue, sameKs, isDue⟩ := @wait_until_due session_id clear a
  have goes := goes.trans (toClear.trans toDue)
  have waiting : tlsProcessRead (due.ks a.other) = none := by
    rw [read_none_iff, sameKs, sameRec]
    exact read_none_iff.mp drained
  cases still : reliableEmpty (due.ks a).send_reliable with
  | true =>
    obtain ⟨id, active⟩ : ∃ id, (cfg.ks a).send_reliable.Active id := by
      by_contra nobody
      rw [empty_iff_no_active.mpr fun id active => nobody ⟨id, active⟩] at pending
      cases pending
    exact ⟨due, id, goes, active, empty_iff_no_active.mp still id⟩
  | false =>
    have live := live.goes defined goes
    obtain ⟨sent, id, ids, ciphertext, opcode, toSent, active, lowest, fits, control, wire, sameOther⟩ :=
      send_lowest defined live a isDue still
    have named := (live.good.outgoing a).sender.active_lt active
    have before := goes.quiet.active a id active
    have live := live.goes defined toSent
    rw [← toSent.quiet.written a] at named
    have near := lowest_near live a named (fun other active => lowest other (toSent.quiet.active a other active))
      (by rwa [sameOther])
    have at_n : (sent.net a.other.other)[(due.net a).length]? =
        some ⟨opcode, ackRecord ids (session_id a.other) ++ (htonpid id ++ ciphertext)⟩ := by
      rw [Side.other_other, wire]
      simp
    obtain ⟨taken, toTaken, acked, _⟩ := receive_acknowledged defined live a.other fits control at_n near
      (by rwa [sameOther]) (by rwa [sameOther, sameKs])
    obtain ⟨back, toBack, _, _, answered⟩ := acknowledge_all defined taken a.other
    have live := live.goes defined (toTaken.trans toBack)
    have at_m : (back.net a.other)[(taken.net a.other).length]? =
        some ⟨.P_ACK_V1, ackRecord [id] (session_id a)⟩ := by
      rw [answered (by simp [acked]), acked]
      simp
    obtain ⟨freed, toFreed, gone⟩ := receive_purges defined live a at_m
    exact ⟨freed, id, goes.trans (toSent.trans (toTaken.trans (toBack.trans toFreed))), before, gone⟩

end Round

section Completion

variable {session_id : Side → SessionId} {cfg : Config}

def activeIds {size : Nat} (rel : Reliable size) : Finset UInt32 :=
  (Finset.univ.filter fun i => (rel.entry i).active = true).image fun i => (rel.entry i).packet_id

theorem mem_activeIds {size : Nat} {rel : Reliable size} {id : UInt32} : id ∈ activeIds rel ↔ rel.Active id := by
  simp [activeIds, Reliable.Active]

theorem send_buffer_empties (defined : ∀ a, sessionIdDefined (session_id a) = true) (live : Live session_id cfg)
    (a : Side) : ∃ cfg', Goes session_id cfg cfg' ∧ reliableEmpty (cfg'.ks a).send_reliable = true := by
  generalize measured : (activeIds (cfg.ks a).send_reliable).card = pending
  induction pending using Nat.strongRecOn generalizing cfg with
  | ind pending ih =>
    cases empty : reliableEmpty (cfg.ks a).send_reliable with
    | true => exact ⟨cfg, Goes.refl cfg, empty⟩
    | false =>
      obtain ⟨mid, id, goes, before, after⟩ := release_oldest defined live a empty
      have fewer : (activeIds (mid.ks a).send_reliable).card < pending := by
        rw [← measured]
        apply Finset.card_lt_card
        rw [Finset.ssubset_iff_of_subset]
        · exact ⟨id, mem_activeIds.mpr before, mt mem_activeIds.mp after⟩
        · exact fun other member => mem_activeIds.mpr (goes.quiet.active a other (mem_activeIds.mp member))
      obtain ⟨cfg', later, done⟩ := ih _ fewer (live.goes defined goes) rfl
      exact ⟨cfg', goes.trans later, done⟩

theorem empty_stays {cfg' : Config} (goes : Goes session_id cfg cfg') (a : Side)
    (empty : reliableEmpty (cfg.ks a).send_reliable = true) : reliableEmpty (cfg'.ks a).send_reliable = true :=
  empty_iff_no_active.mpr fun id active => empty_iff_no_active.mp empty id (goes.quiet.active a id active)

/-- With nothing left to send and nothing left to read, all has been read. -/
theorem all_read (live : Live session_id cfg) (a : Side) (empty : reliableEmpty (cfg.ks a).send_reliable = true)
    (waiting : tlsProcessRead (cfg.ks a.other) = none) : cfg.read a.other = cfg.written a := by
  have direction := live.good.outgoing a
  have count := direction.receiver.count
  have few := live.few a
  apply direction.receiver.inOrder.eq_of_length_le
  by_contra short
  rcases direction.kept (cfg.ks a.other).rec_reliable.packet_id (by omega) with (low | next) | active
  · omega
  · obtain ⟨out, taken⟩ := read_of_sequenced _ next
    rw [waiting] at taken
    cases taken
  · exact empty_iff_no_active.mp empty _ active

theorem evolve_read_prefix (cfg : Config) (a b : Side) (ks : KeyState) (packets : List Packet)
    (written more : List Bytes) : cfg.read b <+: (cfg.evolve a ks packets written (cfg.read a ++ more)).read b := by
  by_cases same : b = a
  · subst same
    simp [Config.evolve]
  · simp [Config.evolve, Function.update_of_ne same]

theorem evolve_read_same (cfg : Config) (a b : Side) (ks : KeyState) (packets : List Packet) (written : List Bytes) :
    cfg.read b <+: (cfg.evolve a ks packets written (cfg.read a)).read b := by
  have longer := evolve_read_prefix cfg a b ks packets written []
  rwa [List.append_nil] at longer

theorem step_read_prefix {cfg' : Config} {action : Action} (stepped : step session_id cfg action = some cfg')
    (a : Side) : cfg.read a <+: cfg'.read a := by
  cases step_cases stepped with
  | clock => exact List.prefix_rfl
  | idle => exact List.prefix_rfl
  | consume => exact evolve_read_prefix _ _ _ _ _ _ _
  | generate => exact evolve_read_same _ _ _ _ _ _
  | send => exact evolve_read_same _ _ _ _ _ _
  | acknowledge => exact evolve_read_same _ _ _ _ _ _
  | receive => exact evolve_read_same _ _ _ _ _ _
  | burst => exact evolve_read_same _ _ _ _ _ _

theorem all_read_stays (defined : ∀ a, sessionIdDefined (session_id a) = true) {cfg' : Config}
    (live : Live session_id cfg) (goes : Goes session_id cfg cfg') (a : Side)
    (all : cfg.read a.other = cfg.written a) : cfg'.read a.other = cfg'.written a := by
  have ordered := ((live.goes defined goes).good.direction a).receiver.inOrder
  rw [goes.quiet.written a] at ordered ⊢
  obtain ⟨actions, _, ran⟩ := goes
  have longer : cfg.read a.other <+: cfg'.read a.other :=
    @C.runs_relation Config Action (step session_id) (fun c c' => c.read a.other <+: c'.read a.other)
      (fun _ => List.prefix_rfl) (fun _ _ _ first second => first.trans second)
      (fun _ _ _ stepped => step_read_prefix stepped a.other) cfg cfg' actions ran
  rw [all] at longer
  exact ordered.eq_of_length_le longer.length_le

theorem both_read (defined : ∀ a, sessionIdDefined (session_id a) = true) (live : Live session_id cfg) :
    ∃ cfg', Goes session_id cfg cfg' ∧
      ∀ a, cfg'.read a.other = cfg'.written a ∧ reliableEmpty (cfg'.ks a).send_reliable = true := by
  obtain ⟨first, toFirst, firstEmpty⟩ := send_buffer_empties defined live .client
  have live := live.goes defined toFirst
  obtain ⟨second, toSecond, serverEmpty⟩ := send_buffer_empties defined live .server
  have live := live.goes defined toSecond
  have clientEmpty := empty_stays toSecond .client firstEmpty
  obtain ⟨third, toThird, clientDrained⟩ := consume_all defined live .client
  have live := live.goes defined toThird
  have clientRead := all_read live .server (empty_stays toThird .server serverEmpty) clientDrained
  obtain ⟨fourth, toFourth, serverDrained⟩ := consume_all defined live .server
  have stays := all_read_stays defined live toFourth .server clientRead
  have live := live.goes defined toFourth
  have clientEmpty := empty_stays (toThird.trans toFourth) .client clientEmpty
  have serverEmpty := empty_stays (toThird.trans toFourth) .server serverEmpty
  refine ⟨fourth, toFirst.trans (toSecond.trans (toThird.trans toFourth)), fun a => ?_⟩
  cases a with
  | client => exact ⟨all_read live .client clientEmpty serverDrained, clientEmpty⟩
  | server => exact ⟨stays, serverEmpty⟩

/-- Wherever losses, repetitions and reorderings have led to, some further traffic delivers all that was written. -/
theorem channel_completes (channel : Channel) (reached : channel.Reached cfg)
    (flowing : ∀ a, (cfg.ks a).send_reliable.hold = false) :
    ∃ actions cfg', (∀ action ∈ actions, ∀ a, Action.writes a action = false) ∧
      run channel.session_id cfg actions = some cfg' ∧
      ∀ a, cfg'.read a.other = cfg.written a ∧ reliableEmpty (cfg'.ks a).send_reliable = true := by
  obtain ⟨cfg', ⟨actions, idle, ran⟩, done⟩ := both_read channel.defined ⟨reached.good, reached.few, flowing⟩
  refine ⟨actions, cfg', idle, ran, fun a => ⟨?_, (done a).2⟩⟩
  rw [(done a).1]
  exact (Goes.quiet ⟨actions, idle, ran⟩).written a

def sampleStart : List Action := [.generate .client .P_CONTROL_V1 (by decide) [22]]

/-- The client has a packet to deliver and nothing has been sent yet. -/
def sampleStalled : Config := (sampleChannel.run sampleStart).get rfl

theorem sample_completes :
    ∃ actions cfg', (∀ action ∈ actions, ∀ a, Action.writes a action = false) ∧
      run sampleChannel.session_id sampleStalled actions = some cfg' ∧
      ∀ a, cfg'.read a.other = sampleStalled.written a ∧ reliableEmpty (cfg'.ks a).send_reliable = true :=
  channel_completes sampleChannel ⟨sampleStart, (Option.some_get _).symm, by intro a; cases a <;> decide⟩
    (by intro a; cases a <;> rfl)

end Completion

end OpenVpn
