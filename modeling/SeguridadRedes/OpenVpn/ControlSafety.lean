import SeguridadRedes.OpenVpn.ControlInvariant

namespace OpenVpn

open C (Bytes runs_invariant runs_isSome runs_counted)

section Evolution

theorem Side.eq_or_other (a b : Side) : b = a ∨ b = a.other := by cases a <;> cases b <;> decide

/-- What one end does by itself. -/
def Config.evolve (cfg : Config) (a : Side) (ks : KeyState) (packets : List Packet) (written read : List Bytes) :
    Config where
  now := cfg.now
  ks := Function.update cfg.ks a ks
  net := Function.update cfg.net a (cfg.net a ++ packets)
  written := Function.update cfg.written a written
  read := Function.update cfg.read a read

variable {session_id : Side → SessionId} {cfg cfg' : Config}

theorem setState_eq (cfg : Config) (a : Side) (ks : KeyState) :
    cfg.setState a ks = cfg.evolve a ks [] (cfg.written a) (cfg.read a) := by
  simp [Config.setState, Config.evolve]

theorem setState_transmit_eq (cfg : Config) (a : Side) (ks : KeyState) (packets : List Packet) :
    (cfg.setState a ks).transmit a packets = cfg.evolve a ks packets (cfg.written a) (cfg.read a) := by
  simp [Config.setState, Config.transmit, Config.evolve]

theorem setState_write_eq (cfg : Config) (a : Side) (ks : KeyState) (ciphertext : Bytes) :
    (cfg.setState a ks).write a ciphertext = cfg.evolve a ks [] (cfg.written a ++ [ciphertext]) (cfg.read a) := by
  simp [Config.setState, Config.write, Config.evolve]

theorem setState_deliver_eq (cfg : Config) (a : Side) (ks : KeyState) (ciphertext : Bytes) :
    (cfg.setState a ks).deliver a ciphertext = cfg.evolve a ks [] (cfg.written a) (cfg.read a ++ [ciphertext]) := by
  simp [Config.setState, Config.deliver, Config.evolve]

theorem Config.Good.evolve (good : cfg.Good session_id) (a : Side) {ks : KeyState} {packets : List Packet}
    {written read : List Bytes}
    (outgoing : Direction written (cfg.read a.other) ks.send_reliable (cfg.ks a.other).rec_reliable
      (cfg.ks a.other).rec_ack)
    (incoming : Direction (cfg.written a.other) read (cfg.ks a.other).send_reliable ks.rec_reliable ks.rec_ack)
    (longer : cfg.written a <+: written)
    (more : ∀ id, Had (cfg.read a) (cfg.ks a).rec_reliable id → Had read ks.rec_reliable id)
    (sent : ∀ packet ∈ packets, Authentic written (Had read ks.rec_reliable) (session_id a.other) packet) :
    (cfg.evolve a ks packets written read).Good session_id := by
  have apart : a.other ≠ a := a.other_ne
  constructor
  · intro d
    rcases Side.eq_or_other a d with rfl | rfl
    · simpa [Config.evolve, apart] using outgoing
    · simpa [Config.evolve, apart] using incoming
  · intro d packet member
    rcases Side.eq_or_other a d with rfl | rfl
    · simp only [Config.evolve, Function.update_self] at member ⊢
      rcases List.mem_append.mp member with old | new
      · exact (good.authentic d packet old).mono longer more
      · exact sent packet new
    · simp only [Config.evolve, Function.update_of_ne apart] at member ⊢
      exact good.authentic a.other packet member

theorem Config.Good.outgoing (good : cfg.Good session_id) (a : Side) :
    Direction (cfg.written a) (cfg.read a.other) (cfg.ks a).send_reliable (cfg.ks a.other).rec_reliable
      (cfg.ks a.other).rec_ack := good.direction a

theorem Config.Good.incoming (good : cfg.Good session_id) (a : Side) :
    Direction (cfg.written a.other) (cfg.read a) (cfg.ks a.other).send_reliable (cfg.ks a).rec_reliable
      (cfg.ks a).rec_ack := by
  have direction := good.direction a.other
  rwa [Side.other_other] at direction

end Evolution

section Steps

variable {session_id : Side → SessionId} {cfg : Config}

theorem good_initial (xmit_hold : Side → Bool) (packet_timeout : Side → Int) (now : Int) :
    (Config.initial xmit_hold packet_timeout now).Good session_id := by
  have nobody : ∀ (n : Nat) (hold : Bool) (timeout : Int) (i : Fin n),
      ((reliableSetTimeout (reliableInit n hold) timeout).entry i).active = false :=
    fun n hold timeout i => init_inactive hold i
  constructor
  · intro a
    constructor
    · constructor
      · rfl
      · intro i active
        exact absurd active (by simp [Config.initial, keyStateInit, nobody])
      · intro i active
        exact absurd active (by simp [Config.initial, keyStateInit, nobody])
      · intro i j active
        exact absurd active (by simp [Config.initial, keyStateInit, nobody])
      · intro i active
        exact absurd active (by simp [Config.initial, keyStateInit, nobody])
    · constructor
      · rfl
      · exact List.prefix_rfl
      · intro i active
        exact absurd active (by simp [Config.initial, keyStateInit, init_inactive])
      · intro i j active
        exact absurd active (by simp [Config.initial, keyStateInit, init_inactive])
    · simp [Config.initial, keyStateInit, ReliableAck.empty]
    · intro id written
      exact absurd written (Nat.not_lt_zero _)
  · intro a packet member
    cases member

theorem good_generate (good : cfg.Good session_id) (a : Side) {opcode : Opcode} (control : opcode ≠ .P_ACK_V1)
    {ciphertext : Bytes} {ks : KeyState} (made : tlsProcessGenerate (cfg.ks a) opcode ciphertext = some ks)
    (few : (cfg.written a).length < 2 ^ 31) :
    (cfg.evolve a ks [] (cfg.written a ++ [ciphertext]) (cfg.read a)).Good session_id := by
  have direction := good.outgoing a
  have longer : cfg.written a <+: cfg.written a ++ [ciphertext] := List.prefix_append _ _
  obtain ⟨sameRec, sameAck, _, _, i, placed⟩ := generate_placed made
  apply good.evolve a
  · constructor
    · exact direction.sender.generate control few made
    · exact direction.receiver.longer longer
    · exact direction.acked
    · intro id written
      rw [List.length_append, List.length_singleton] at written
      rw [placed.active_iff]
      by_cases old : id.toNat < (cfg.written a).length
      · rcases direction.kept id old with had | active
        · exact Or.inl had
        · exact Or.inr (Or.inl active)
      · have count := direction.sender.count
        exact Or.inr (Or.inr (UInt32.toNat_inj.mp (by simp only; omega)))
  · rw [sameRec, sameAck]
    exact good.incoming a
  · exact longer
  · intro id had
    rwa [sameRec]
  · simp

/-- A state with the timers of the send buffer moved and some ids of the acknowledgements gone. -/
theorem good_sent (good : cfg.Good session_id) (a : Side) {ks : KeyState} {packets : List Packet}
    (same : SamePackets (cfg.ks a).send_reliable ks.send_reliable)
    (sameRec : ks.rec_reliable = (cfg.ks a).rec_reliable)
    (fewer : ∀ id ∈ ks.rec_ack.packet_id, id ∈ (cfg.ks a).rec_ack.packet_id)
    (sent : ∀ packet ∈ packets,
      Authentic (cfg.written a) (Had (cfg.read a) (cfg.ks a).rec_reliable) (session_id a.other) packet) :
    (cfg.evolve a ks packets (cfg.written a) (cfg.read a)).Good session_id := by
  have direction := good.outgoing a
  have back := good.incoming a
  apply good.evolve a
  · constructor
    · exact direction.sender.same same
    · exact direction.receiver
    · exact direction.acked
    · intro id written
      rw [same.active_iff]
      exact direction.kept id written
  · rw [sameRec]
    exact ⟨back.sender, back.receiver, fun id member => back.acked id (fewer id member), back.kept⟩
  · exact List.prefix_rfl
  · intro id had
    rwa [sameRec]
  · rwa [sameRec]

theorem writeControlAuth_eq {ks ks' : KeyState} {sid : SessionId} {buf : Bytes} {opcode : Opcode} {max : Nat}
    {prepend : Bool} {packets : List Packet}
    (wrote : writeControlAuth ks sid buf opcode max prepend = some (ks', packets)) :
    ∃ n, ks' = { ks with rec_ack := ks.rec_ack.shift n } ∧
      packets = [⟨opcode, if prepend then ackRecord (ks.rec_ack.packet_id.take n) sid ++ buf
        else buf ++ ackRecord (ks.rec_ack.packet_id.take n) sid⟩] := by
  unfold writeControlAuth reliableAckWrite at wrote
  simp only at wrote
  split at wrote
  · rename_i ack out written
    split at written
    · obtain ⟨rfl, rfl⟩ := by simpa using written
      obtain ⟨rfl, rfl⟩ := by simpa using wrote
      exact ⟨_, rfl, rfl⟩
    · cases written
  · cases wrote

theorem writeControlAuth_succeeds {sid : SessionId} (defined : sessionIdDefined sid = true) (ks : KeyState)
    (buf : Bytes) (opcode : Opcode) (max : Nat) (prepend : Bool) :
    (writeControlAuth ks sid buf opcode max prepend).isSome := by
  simp [writeControlAuth, reliableAckWrite, defined]

theorem take_acks_fit (ack : ReliableAck) (n : Nat) : (ack.packet_id.take n).length ≤ RELIABLE_ACK_SIZE := by
  have fits := ack.fits
  rw [List.length_take]
  omega

/-- Either nothing is due, or the packet of an active entry goes out with some acknowledgements. -/
theorem process_send_cases {ks ks' : KeyState} {sid : SessionId} {now : Int} {packets : List Packet}
    (sent : tlsProcessSend ks sid now = some (ks', packets)) :
    reliableCanSend ks.send_reliable now = false ∧ ks' = ks ∧ packets = [] ∨
      ∃ rel best opcode n, reliableSend ks.send_reliable now = some (rel, best, opcode) ∧
        ks' = { ks with send_reliable := rel, rec_ack := ks.rec_ack.shift n } ∧
        packets = [⟨opcode, ackRecord (ks.rec_ack.packet_id.take n) sid ++ (ks.send_reliable.entry best).buf⟩] := by
  unfold tlsProcessSend at sent
  split at sent
  · split at sent
    · rename_i rel best opcode chosen
      obtain ⟨n, rfl, rfl⟩ := writeControlAuth_eq sent
      refine Or.inr ⟨rel, best, opcode, n, chosen, rfl, ?_⟩
      simp only [((send_best chosen).1.entries best).buf, if_true]
    · cases sent
  · rename_i idle
    obtain ⟨rfl, rfl⟩ := by simpa using sent
    exact Or.inl ⟨by simpa using idle, rfl, rfl⟩

theorem good_send (good : cfg.Good session_id) (a : Side) {ks : KeyState} {packets : List Packet}
    (sent : tlsProcessSend (cfg.ks a) (session_id a.other) cfg.now = some (ks, packets)) :
    (cfg.evolve a ks packets (cfg.written a) (cfg.read a)).Good session_id := by
  rcases process_send_cases sent with ⟨_, rfl, rfl⟩ | ⟨rel, best, opcode, n, chosen, rfl, rfl⟩
  · apply good_sent good a ⟨rfl, fun i => SamePacket.refl _⟩ rfl (fun id member => member)
    simp
  · obtain ⟨same, active, named, _⟩ := send_best chosen
    apply good_sent good a
    · exact same
    · rfl
    · exact fun id member => List.mem_of_mem_drop member
    · intro packet member
      obtain rfl := List.mem_singleton.mp member
      obtain ⟨ciphertext, at_id, content⟩ := (good.outgoing a).sender.holds best active
      refine ⟨_, take_acks_fit (cfg.ks a).rec_ack n, fun id acked => ?_, Or.inr ⟨?_, _, ciphertext, at_id, ?_⟩⟩
      · exact (good.incoming a).acked id (List.mem_of_mem_take acked)
      · rw [← named]
        exact (good.outgoing a).sender.control best active
      · rw [content]

theorem good_acknowledge (good : cfg.Good session_id) (a : Side) {ks : KeyState} {packets : List Packet}
    (sent : tlsProcessAck (cfg.ks a) (session_id a.other) = some (ks, packets)) :
    (cfg.evolve a ks packets (cfg.written a) (cfg.read a)).Good session_id := by
  unfold tlsProcessAck at sent
  split at sent
  · obtain ⟨rfl, rfl⟩ := by simpa using sent
    apply good_sent good a ⟨rfl, fun i => SamePacket.refl _⟩ rfl (fun id member => member)
    simp
  · obtain ⟨n, rfl, rfl⟩ := writeControlAuth_eq sent
    apply good_sent good a
    · exact ⟨rfl, fun i => SamePacket.refl _⟩
    · rfl
    · exact fun id member => List.mem_of_mem_drop member
    · intro packet member
      obtain rfl := List.mem_singleton.mp member
      refine ⟨_, take_acks_fit (cfg.ks a).rec_ack n, fun id acked => ?_, Or.inl ⟨rfl, rfl⟩⟩
      exact (good.incoming a).acked id (List.mem_of_mem_take acked)

theorem good_consume (good : cfg.Good session_id) (a : Side) {ks : KeyState} {ciphertext : Bytes}
    (taken : tlsProcessRead (cfg.ks a) = some (ks, ciphertext)) (few : (cfg.written a.other).length ≤ 2 ^ 31) :
    (cfg.evolve a ks [] (cfg.written a) (cfg.read a ++ [ciphertext])).Good session_id := by
  have direction := good.incoming a
  obtain ⟨sameSend, sameAck, _⟩ := read_state taken
  have more : ∀ id, Had (cfg.read a) (cfg.ks a).rec_reliable id → Had (cfg.read a ++ [ciphertext]) ks.rec_reliable id :=
    fun id => had_next direction.receiver.count taken
  apply good.evolve a
  · rw [sameSend]
    exact good.outgoing a
  · constructor
    · exact direction.sender
    · exact direction.receiver.next few taken
    · intro id member
      rw [sameAck] at member
      exact more id (direction.acked id member)
    · exact fun id written => (direction.kept id written).imp_left (more id)
  · exact List.prefix_rfl
  · exact more
  · simp

theorem pre_decrypt_data_cases {ks ks' : KeyState} {op : Opcode} {buf : Bytes}
    (taken : tlsPreDecryptData ks op buf = some ks') :
    ks' = ks ∨ ∃ id ciphertext, op ≠ .P_ACK_V1 ∧ reliableAckReadPacketId buf = some (id, ciphertext) ∧
      reliableWontBreakSequentiality ks.rec_reliable id = true ∧
      ks'.send_reliable = ks.send_reliable ∧
      ks'.rec_ack = (reliableAckAcknowledgePacketId ks.rec_ack id).1 ∧
      (reliableNotReplay ks.rec_reliable id = false ∧ ks'.rec_reliable = ks.rec_reliable ∨
        reliableNotReplay ks.rec_reliable id = true ∧
          saveIncoming ks.rec_reliable ciphertext id op = some ks'.rec_reliable) := by
  unfold tlsPreDecryptData at taken
  split at taken
  · rename_i room
    split at taken
    · rename_i id ciphertext named
      split at taken
      · rename_i near
        have control : op ≠ .P_ACK_V1 := by
          simp only [Bool.and_eq_true, decide_eq_true_eq] at room
          exact room.1
        refine Or.inr ⟨id, ciphertext, control, named, near, ?_⟩
        simp only at taken
        split at taken
        · rename_i fresh
          split at taken
          · rename_i rel saved
            simp only [Option.some.injEq] at taken
            rw [← taken]
            exact ⟨rfl, rfl, Or.inr ⟨fresh, saved⟩⟩
          · cases taken
        · rename_i stale
          simp only [Option.some.injEq] at taken
          rw [← taken]
          exact ⟨rfl, rfl, Or.inl ⟨by simpa using stale, rfl⟩⟩
      · simp only [Option.some.injEq] at taken
        exact Or.inl taken.symm
    · simp only [Option.some.injEq] at taken
      exact Or.inl taken.symm
  · simp only [Option.some.injEq] at taken
    exact Or.inl taken.symm

theorem pre_decrypt_data_succeeds (ks : KeyState) (op : Opcode) (buf : Bytes) :
    (tlsPreDecryptData ks op buf).isSome := by
  unfold tlsPreDecryptData
  split
  · rename_i room
    have free : reliableCanGet ks.rec_reliable = true := by
      simp only [Bool.and_eq_true] at room
      exact room.2
    split
    · rename_i id ciphertext named
      split
      · simp only
        split
        · rename_i fresh
          obtain ⟨rel, saved⟩ := save_succeeds free fresh ciphertext op
          rw [saved]
          rfl
        · rfl
      · rfl
    · rfl
  · rfl

/-- A stale packet is one the receiver has already. -/
theorem had_of_replay {written read : List Bytes} {rec : Reliable TLS_RELIABLE_N_REC_BUFFERS}
    (receiver : Receiver written read rec) (few : written.length ≤ 2 ^ 31) {id : UInt32}
    (named : id.toNat < written.length) (stale : reliableNotReplay rec id = false) : Had read rec id := by
  have ordered := receiver.inOrder.length_le
  have count := receiver.count
  by_cases low : reliablePidMin id rec.packet_id = true
  · left
    have less := (@pid_min_iff id rec.packet_id (by omega) (by omega)).mp low
    omega
  · right
    by_contra absent
    have fresh := not_replay_iff.mpr ⟨by simpa using low, absent⟩
    rw [stale] at fresh
    cases fresh

theorem good_data (good : cfg.Good session_id) (a : Side) {ks : KeyState} (packet : Packet)
    (few : (cfg.written a.other).length ≤ 2 ^ 31) {buf : Bytes}
    (genuine : packet.opcode ≠ .P_ACK_V1 → ∃ (id : UInt32) (ciphertext : Bytes),
      (cfg.written a.other)[id.toNat]? = some ciphertext ∧ buf = htonpid id ++ ciphertext)
    (taken : tlsPreDecryptData (cfg.ks a) packet.opcode buf = some ks) :
    (cfg.evolve a ks [] (cfg.written a) (cfg.read a)).Good session_id := by
  have direction := good.incoming a
  rcases pre_decrypt_data_cases taken with rfl | ⟨id, ciphertext, control, named, near, sameSend, acks, saved⟩
  · exact good_sent good a ⟨rfl, fun i => SamePacket.refl _⟩ rfl (fun id member => member) (by simp)
  · obtain ⟨id', ciphertext', at_id, rfl⟩ := genuine control
    rw [reliableAckReadPacketId_append] at named
    obtain ⟨rfl, rfl⟩ : id' = id ∧ ciphertext' = ciphertext := by simpa using named
    have bound := (List.getElem?_eq_some_iff.mp at_id).1
    have step : Receiver (cfg.written a.other) (cfg.read a) ks.rec_reliable ∧ Had (cfg.read a) ks.rec_reliable id' ∧
        ∀ other, Had (cfg.read a) (cfg.ks a).rec_reliable other → Had (cfg.read a) ks.rec_reliable other := by
      rcases saved with ⟨stale, same⟩ | ⟨fresh, saved⟩
      · rw [same]
        exact ⟨direction.receiver, had_of_replay direction.receiver few bound stale, fun _ had => had⟩
      · obtain ⟨_, i, placed⟩ := save_placed saved
        refine ⟨direction.receiver.save few at_id near fresh saved, ?_, fun other had => ?_⟩
        · exact Or.inr ((placed.active_iff id').mpr (Or.inr rfl))
        · exact had.imp_right fun active => (placed.active_iff other).mpr (Or.inl active)
    obtain ⟨receiver, had, more⟩ := step
    apply good.evolve a
    · rw [sameSend]
      exact good.outgoing a
    · constructor
      · exact direction.sender
      · exact receiver
      · intro other member
        rw [acks] at member
        rcases acknowledge_mem member with old | rfl
        · exact more other (direction.acked other old)
        · exact had
      · exact fun other written => (direction.kept other written).imp_left (more other)
    · exact List.prefix_rfl
    · exact more
    · simp

theorem good_purge (good : cfg.Good session_id) (a : Side) (send_ack : ReliableAck)
    (acked : ∀ id ∈ send_ack.packet_id, Had (cfg.read a.other) (cfg.ks a.other).rec_reliable id) :
    (cfg.setState a { cfg.ks a with
      send_reliable := reliableSendPurge (cfg.ks a).send_reliable send_ack }).Good session_id := by
  have direction := good.outgoing a
  rw [setState_eq]
  apply good.evolve a
  · constructor
    · exact direction.sender.purge send_ack
    · exact direction.receiver
    · exact direction.acked
    · intro id written
      rcases direction.kept id written with had | active
      · exact Or.inl had
      · rcases purge_active send_ack active with still | member
        · exact Or.inr still
        · exact Or.inl (acked id member)
  · exact good.incoming a
  · exact List.prefix_rfl
  · exact fun _ had => had
  · simp

theorem pre_decrypt_record (ks : KeyState) (ids : List UInt32) {sid : SessionId}
    (fits : ids.length ≤ RELIABLE_ACK_SIZE) (defined : sessionIdDefined sid = true) (op : Opcode) (rest : Bytes) :
    ∃ send_ack : ReliableAck, send_ack.packet_id = ids ∧
      tlsPreDecrypt ks sid ⟨op, ackRecord ids sid ++ rest⟩ =
        tlsPreDecryptData { ks with send_reliable := reliableSendPurge ks.send_reliable send_ack } op rest := by
  obtain ⟨send_ack, read, same⟩ := ack_read_record fits defined rest
  refine ⟨send_ack, same, ?_⟩
  unfold tlsPreDecrypt
  simp only [read]

theorem good_receive (good : cfg.Good session_id) (defined : ∀ a, sessionIdDefined (session_id a) = true)
    (a : Side) {packet : Packet} (sent : packet ∈ cfg.net a.other) {ks : KeyState}
    (few : (cfg.written a.other).length ≤ 2 ^ 31)
    (taken : tlsPreDecrypt (cfg.ks a) (session_id a) packet = some ks) :
    (cfg.evolve a ks [] (cfg.written a) (cfg.read a)).Good session_id := by
  obtain ⟨ids, fits, acked, shape⟩ := good.authentic a.other packet sent
  rw [Side.other_other] at shape
  have record : ∃ rest, packet.buf = ackRecord ids (session_id a) ++ rest ∧
      (packet.opcode ≠ .P_ACK_V1 → ∃ (id : UInt32) (ciphertext : Bytes),
        (cfg.written a.other)[id.toNat]? = some ciphertext ∧ rest = htonpid id ++ ciphertext) := by
    rcases shape with ⟨ack, content⟩ | ⟨_, id, ciphertext, at_id, content⟩
    · exact ⟨[], by simp [content], fun control => absurd ack control⟩
    · exact ⟨_, content, fun _ => ⟨id, ciphertext, at_id, rfl⟩⟩
  obtain ⟨rest, content, genuine⟩ := record
  obtain ⟨send_ack, same, decrypted⟩ := pre_decrypt_record (cfg.ks a) ids fits (defined a) packet.opcode rest
  have whole : packet = ⟨packet.opcode, ackRecord ids (session_id a) ++ rest⟩ := by rw [← content]
  rw [whole, decrypted] at taken
  have purged := good_purge good a send_ack (by
    rw [same]
    exact acked)
  have data := good_data purged a packet few genuine (by simpa [Config.setState] using taken)
  simpa [Config.evolve, Config.setState] using data

theorem good_burst (good : cfg.Good session_id) (a : Side) :
    (cfg.evolve a { cfg.ks a with send_reliable := reliableScheduleNow (cfg.ks a).send_reliable cfg.now } []
      (cfg.written a) (cfg.read a)).Good session_id := by
  exact good_sent good a (schedule_now_same _ _) rfl (fun id member => member) (by simp)

end Steps

section Runs

variable {session_id : Side → SessionId}

def Action.writes (a : Side) : Action → Bool
  | .generate b _ _ _ => decide (b = a)
  | _ => false

/-- Every way a step can go, with the state it leaves. -/
inductive Stepped (session_id : Side → SessionId) (cfg : Config) : Action → Config → Prop
  | clock (now : Int) : Stepped session_id cfg (.clock now) { cfg with now := now }
  | idle (action : Action) : Stepped session_id cfg action cfg
  | generate {a : Side} {opcode : Opcode} {control : opcode ≠ .P_ACK_V1} {ciphertext : Bytes} {ks : KeyState}
      (made : tlsProcessGenerate (cfg.ks a) opcode ciphertext = some ks) :
      Stepped session_id cfg (.generate a opcode control ciphertext)
        (cfg.evolve a ks [] (cfg.written a ++ [ciphertext]) (cfg.read a))
  | send {a : Side} {ks : KeyState} {packets : List Packet}
      (sent : tlsProcessSend (cfg.ks a) (session_id a.other) cfg.now = some (ks, packets)) :
      Stepped session_id cfg (.send a) (cfg.evolve a ks packets (cfg.written a) (cfg.read a))
  | acknowledge {a : Side} {ks : KeyState} {packets : List Packet}
      (sent : tlsProcessAck (cfg.ks a) (session_id a.other) = some (ks, packets)) :
      Stepped session_id cfg (.acknowledge a) (cfg.evolve a ks packets (cfg.written a) (cfg.read a))
  | consume {a : Side} {ks : KeyState} {ciphertext : Bytes}
      (taken : tlsProcessRead (cfg.ks a) = some (ks, ciphertext)) :
      Stepped session_id cfg (.consume a) (cfg.evolve a ks [] (cfg.written a) (cfg.read a ++ [ciphertext]))
  | receive {a : Side} {n : Nat} {packet : Packet} {ks : KeyState} (at_n : (cfg.net a.other)[n]? = some packet)
      (taken : tlsPreDecrypt (cfg.ks a) (session_id a) packet = some ks) :
      Stepped session_id cfg (.receive a n) (cfg.evolve a ks [] (cfg.written a) (cfg.read a))
  | burst (a : Side) :
      Stepped session_id cfg (.burst a) (cfg.evolve a
        { cfg.ks a with send_reliable := reliableScheduleNow (cfg.ks a).send_reliable cfg.now } []
        (cfg.written a) (cfg.read a))

theorem step_cases {cfg cfg' : Config} {action : Action} (stepped : step session_id cfg action = some cfg') :
    Stepped session_id cfg action cfg' := by
  cases action with
  | clock now =>
    simp only [step, Option.some.injEq] at stepped
    exact stepped ▸ .clock now
  | generate a opcode control ciphertext =>
    simp only [step] at stepped
    split at stepped <;> simp only [Option.some.injEq] at stepped
    · rename_i ks made
      rw [← stepped, setState_write_eq]
      exact .generate made
    · exact stepped ▸ .idle _
  | send a =>
    simp only [step] at stepped
    split at stepped
    · rename_i ks packets sent
      simp only [Option.some.injEq] at stepped
      rw [← stepped, setState_transmit_eq]
      exact .send sent
    · cases stepped
  | acknowledge a =>
    simp only [step] at stepped
    split at stepped
    · rename_i ks packets sent
      simp only [Option.some.injEq] at stepped
      rw [← stepped, setState_transmit_eq]
      exact .acknowledge sent
    · cases stepped
  | consume a =>
    simp only [step] at stepped
    split at stepped <;> simp only [Option.some.injEq] at stepped
    · rename_i ks ciphertext taken
      rw [← stepped, setState_deliver_eq]
      exact .consume taken
    · exact stepped ▸ .idle _
  | receive a n =>
    simp only [step] at stepped
    split at stepped
    · rename_i packet at_n
      split at stepped
      · rename_i ks taken
        simp only [Option.some.injEq] at stepped
        rw [← stepped, setState_eq]
        exact .receive at_n taken
      · cases stepped
    · simp only [Option.some.injEq] at stepped
      exact stepped ▸ .idle _
  | burst a =>
    simp only [step, Option.some.injEq, setState_eq] at stepped
    exact stepped ▸ .burst a

theorem send_succeeds {sid : SessionId} (defined : sessionIdDefined sid = true) (ks : KeyState) (now : Int) :
    ∃ out, tlsProcessSend ks sid now = some out := by
  unfold tlsProcessSend
  split
  · rename_i can
    obtain ⟨out, chosen⟩ := send_of_can_send can
    rw [chosen]
    exact Option.isSome_iff_exists.mp (writeControlAuth_succeeds defined _ _ _ _ _)
  · exact ⟨_, rfl⟩

theorem acknowledge_succeeds {sid : SessionId} (defined : sessionIdDefined sid = true) (ks : KeyState) :
    ∃ out, tlsProcessAck ks sid = some out := by
  unfold tlsProcessAck
  split
  · exact ⟨_, rfl⟩
  · exact Option.isSome_iff_exists.mp (writeControlAuth_succeeds defined _ _ _ _ _)

theorem pre_decrypt_succeeds (ks : KeyState) (sid : SessionId) (packet : Packet) :
    ∃ out, tlsPreDecrypt ks sid packet = some out := by
  unfold tlsPreDecrypt
  split
  · exact Option.isSome_iff_exists.mp (pre_decrypt_data_succeeds _ _ _)
  · exact ⟨_, rfl⟩

/-- No ASSERT fails, whatever the state. -/
theorem step_succeeds (defined : ∀ a, sessionIdDefined (session_id a) = true) (cfg : Config) (action : Action) :
    (step session_id cfg action).isSome := by
  cases action with
  | clock now => rfl
  | generate a opcode control ciphertext =>
    simp only [step]
    split <;> rfl
  | send a =>
    obtain ⟨out, sent⟩ := send_succeeds (defined a.other) (cfg.ks a) cfg.now
    simp [step, sent]
  | acknowledge a =>
    obtain ⟨out, sent⟩ := acknowledge_succeeds (defined a.other) (cfg.ks a)
    simp [step, sent]
  | consume a =>
    simp only [step]
    split <;> rfl
  | receive a n =>
    simp only [step]
    split
    · rename_i packet _
      obtain ⟨ks, taken⟩ := pre_decrypt_succeeds (cfg.ks a) (session_id a) packet
      rw [taken]
      rfl
    · rfl
  | burst a => rfl

theorem evolve_written (cfg : Config) (a b : Side) (ks : KeyState) (packets : List Packet)
    (written read : List Bytes) :
    (cfg.evolve a ks packets written read).written b = if b = a then written else cfg.written b := by
  simp [Config.evolve, Function.update_apply]

theorem evolve_written_same (cfg : Config) (a b : Side) (ks : KeyState) (packets : List Packet) (read : List Bytes) :
    (cfg.evolve a ks packets (cfg.written a) read).written b = cfg.written b := by
  simp [Config.evolve]

theorem step_written {cfg cfg' : Config} {action : Action} (stepped : step session_id cfg action = some cfg')
    (a : Side) : cfg'.written a = cfg.written a ∨
      action.writes a = true ∧ ∃ ciphertext, cfg'.written a = cfg.written a ++ [ciphertext] := by
  cases step_cases stepped with
  | @generate b opcode control ciphertext ks made =>
    rw [evolve_written]
    by_cases same : a = b
    · subst same
      exact Or.inr ⟨by simp [Action.writes], ciphertext, if_pos rfl⟩
    · exact Or.inl (if_neg same)
  | clock => exact Or.inl rfl
  | idle => exact Or.inl rfl
  | send => exact Or.inl (evolve_written_same _ _ _ _ _ _)
  | acknowledge => exact Or.inl (evolve_written_same _ _ _ _ _ _)
  | consume => exact Or.inl (evolve_written_same _ _ _ _ _ _)
  | receive => exact Or.inl (evolve_written_same _ _ _ _ _ _)
  | burst => exact Or.inl (evolve_written_same _ _ _ _ _ _)

theorem step_counted {cfg cfg' : Config} {action : Action} (stepped : step session_id cfg action = some cfg')
    (a : Side) : (cfg'.written a).length ≤ (cfg.written a).length + if action.writes a then 1 else 0 := by
  rcases step_written stepped a with same | ⟨writes, ciphertext, longer⟩
  · rw [same]
    exact Nat.le_add_right _ _
  · rw [longer, if_pos writes, List.length_append, List.length_singleton]

theorem step_longer {cfg cfg' : Config} {action : Action} (stepped : step session_id cfg action = some cfg')
    (a : Side) : (cfg.written a).length ≤ (cfg'.written a).length := by
  rcases step_written stepped a with same | ⟨_, ciphertext, longer⟩
  · rw [same]
  · rw [longer, List.length_append]
    exact Nat.le_add_right _ _

theorem step_good (defined : ∀ a, sessionIdDefined (session_id a) = true) {cfg cfg' : Config} {action : Action}
    (good : cfg.Good session_id) (few : ∀ a, (cfg'.written a).length ≤ 2 ^ 31)
    (stepped : step session_id cfg action = some cfg') : cfg'.Good session_id := by
  have before : ∀ a, (cfg.written a).length ≤ 2 ^ 31 := fun a => (step_longer stepped a).trans (few a)
  cases step_cases stepped with
  | clock now => exact ⟨good.direction, good.authentic⟩
  | idle => exact good
  | @generate a opcode control ciphertext ks made =>
    have room := few a
    rw [evolve_written, if_pos rfl, List.length_append, List.length_singleton] at room
    exact good_generate good a control made (by omega)
  | send sent => exact good_send good _ sent
  | acknowledge sent => exact good_acknowledge good _ sent
  | @consume a ks ciphertext taken => exact good_consume good a taken (before a.other)
  | @receive a n packet ks at_n taken =>
    exact good_receive good defined a (List.mem_of_getElem? at_n) (before a.other) taken
  | burst a => exact good_burst good a

/-- The invariant of every run short enough for its packet ids not to wrap around. -/
theorem run_good (defined : ∀ a, sessionIdDefined (session_id a) = true) {cfg cfg' : Config}
    {actions : List Action} (good : cfg.Good session_id) (ran : run session_id cfg actions = some cfg')
    (few : ∀ a, (cfg'.written a).length ≤ 2 ^ 31) : cfg'.Good session_id := by
  have kept : ∀ c action c', ((∀ a, (c.written a).length ≤ 2 ^ 31) → c.Good session_id) →
      step session_id c action = some c' → (∀ a, (c'.written a).length ≤ 2 ^ 31) → c'.Good session_id := by
    intro c action c' before stepped bounded
    exact step_good defined (before fun a => (step_longer stepped a).trans (bounded a)) bounded stepped
  exact runs_invariant kept (fun _ => good) ran few

theorem run_written {cfg cfg' : Config} {actions : List Action} (ran : run session_id cfg actions = some cfg')
    (a : Side) : (cfg'.written a).length ≤ (cfg.written a).length + actions.countP (Action.writes a) := by
  have counted : ∀ c action c', step session_id c action = some c' →
      (c'.written a).length ≤ (c.written a).length + if Action.writes a action then 1 else 0 :=
    fun c action c' stepped => step_counted stepped a
  exact runs_counted (fun c : Config => (c.written a).length) counted ran

theorem run_succeeds (defined : ∀ a, sessionIdDefined (session_id a) = true) (cfg : Config)
    (actions : List Action) : ∃ cfg', run session_id cfg actions = some cfg' :=
  Option.isSome_iff_exists.mp (runs_isSome (step_succeeds defined) cfg actions)

end Runs

/-- Two ends that have learned each other's session ids, with the options they start from. -/
structure Channel where
  session_id : Side → SessionId
  defined : ∀ a, sessionIdDefined (session_id a) = true
  xmit_hold : Side → Bool
  packet_timeout : Side → Int
  start : Int

namespace Channel

variable (channel : Channel)

def run (actions : List Action) : Option Config :=
  OpenVpn.run channel.session_id
    (Config.initial channel.xmit_hold channel.packet_timeout channel.start) actions

/-- Where some run with fewer packets than wrap the ids around leads to. -/
def Reached (cfg : Config) : Prop :=
  ∃ actions, channel.run actions = some cfg ∧ ∀ a, actions.countP (Action.writes a) ≤ 2 ^ 31

variable {channel} {cfg : Config}

theorem Reached.few (reached : channel.Reached cfg) (a : Side) : (cfg.written a).length ≤ 2 ^ 31 := by
  obtain ⟨actions, ran, few⟩ := reached
  have counted := run_written ran a
  have bound := few a
  simp only [Config.initial, List.length_nil] at counted
  omega

theorem Reached.good (reached : channel.Reached cfg) : cfg.Good channel.session_id := by
  have few := reached.few
  obtain ⟨actions, ran, _⟩ := reached
  exact run_good channel.defined (good_initial _ _ _) ran few

theorem run_reached (channel : Channel) (actions : List Action)
    (few : ∀ a, actions.countP (Action.writes a) ≤ 2 ^ 31) :
    ∃ cfg, channel.run actions = some cfg ∧ channel.Reached cfg := by
  obtain ⟨cfg, ran⟩ := run_succeeds channel.defined _ actions
  exact ⟨cfg, ran, actions, ran, few⟩

end Channel

end OpenVpn
