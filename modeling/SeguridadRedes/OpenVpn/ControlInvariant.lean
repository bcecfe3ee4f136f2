import SeguridadRedes.OpenVpn.ControlChannel
import SeguridadRedes.OpenVpn.Entries

namespace OpenVpn

open C (Bytes)

/-- What the receiving end has: read already, or waiting in a buffer. -/
def Had (read : List Bytes) (rec : Reliable TLS_RELIABLE_N_REC_BUFFERS) (id : UInt32) : Prop :=
  id.toNat < read.length ∨ rec.Active id

structure Sender (written : List Bytes) (snd : Reliable TLS_RELIABLE_N_SEND_BUFFERS) : Prop where
  count : snd.packet_id.toNat = written.length
  holds : ∀ i, (snd.entry i).active = true →
    ∃ ciphertext, written[(snd.entry i).packet_id.toNat]? = some ciphertext ∧
      (snd.entry i).buf = htonpid (snd.entry i).packet_id ++ ciphertext
  control : ∀ i, (snd.entry i).active = true → (snd.entry i).opcode ≠ .P_ACK_V1
  distinct : snd.Distinct
  window : ∀ i, (snd.entry i).active = true →
    written.length ≤ (snd.entry i).packet_id.toNat + TLS_RELIABLE_N_SEND_BUFFERS

structure Receiver (written read : List Bytes) (rec : Reliable TLS_RELIABLE_N_REC_BUFFERS) : Prop where
  count : rec.packet_id.toNat = read.length
  inOrder : read <+: written
  holds : ∀ i, (rec.entry i).active = true →
    read.length ≤ (rec.entry i).packet_id.toNat ∧
      (rec.entry i).packet_id.toNat < read.length + TLS_RELIABLE_N_REC_BUFFERS ∧
      written[(rec.entry i).packet_id.toNat]? = some (rec.entry i).buf
  distinct : rec.Distinct

/-- One direction of the channel: nothing is acknowledged that the receiver does not have,
and nothing is dropped by the sender before the receiver has it. -/
structure Direction (written read : List Bytes) (snd : Reliable TLS_RELIABLE_N_SEND_BUFFERS)
    (rec : Reliable TLS_RELIABLE_N_REC_BUFFERS) (ack : ReliableAck) : Prop where
  sender : Sender written snd
  receiver : Receiver written read rec
  acked : ∀ id ∈ ack.packet_id, Had read rec id
  kept : ∀ id : UInt32, id.toNat < written.length → Had read rec id ∨ snd.Active id

/-- A packet as its sender makes it: ids the sender has, and one of the ciphertexts it has written. -/
def Authentic (written : List Bytes) (had : UInt32 → Prop) (sid : SessionId) (packet : Packet) : Prop :=
  ∃ ids : List UInt32, ids.length ≤ RELIABLE_ACK_SIZE ∧ (∀ id ∈ ids, had id) ∧
    (packet.opcode = .P_ACK_V1 ∧ packet.buf = ackRecord ids sid ∨
      packet.opcode ≠ .P_ACK_V1 ∧ ∃ (id : UInt32) (ciphertext : Bytes), written[id.toNat]? = some ciphertext ∧
        packet.buf = ackRecord ids sid ++ (htonpid id ++ ciphertext))

structure Config.Good (session_id : Side → SessionId) (cfg : Config) : Prop where
  direction : ∀ a, Direction (cfg.written a) (cfg.read a.other) (cfg.ks a).send_reliable
    (cfg.ks a.other).rec_reliable (cfg.ks a.other).rec_ack
  authentic : ∀ a, ∀ packet ∈ cfg.net a,
    Authentic (cfg.written a) (Had (cfg.read a) (cfg.ks a).rec_reliable) (session_id a.other) packet

section Growth

theorem getElem?_of_prefix {l l' : List Bytes} (longer : l <+: l') {n : Nat} {x : Bytes} (at_n : l[n]? = some x) :
    l'[n]? = some x := by
  obtain ⟨rest, rfl⟩ := longer
  rw [List.getElem?_append_left (List.getElem?_eq_some_iff.mp at_n).1, at_n]

theorem Authentic.mono {written written' : List Bytes} {had had' : UInt32 → Prop} {sid : SessionId}
    {packet : Packet} (longer : written <+: written') (more : ∀ id, had id → had' id)
    (authentic : Authentic written had sid packet) : Authentic written' had' sid packet := by
  obtain ⟨ids, fits, acked, shape⟩ := authentic
  refine ⟨ids, fits, fun id member => more id (acked id member), ?_⟩
  rcases shape with ack | ⟨control, id, ciphertext, at_id, content⟩
  · exact Or.inl ack
  · exact Or.inr ⟨control, id, ciphertext, getElem?_of_prefix longer at_id, content⟩

theorem Sender.active_lt {written : List Bytes} {snd : Reliable TLS_RELIABLE_N_SEND_BUFFERS}
    (sender : Sender written snd) {id : UInt32} (active : snd.Active id) : id.toNat < written.length := by
  obtain ⟨i, active, rfl⟩ := active
  obtain ⟨ciphertext, at_id, _⟩ := sender.holds i active
  exact (List.getElem?_eq_some_iff.mp at_id).1

end Growth

section SenderSteps

variable {written : List Bytes} {snd snd' : Reliable TLS_RELIABLE_N_SEND_BUFFERS}

theorem Sender.same (sender : Sender written snd) (same : SamePackets snd snd') : Sender written snd' where
  count := by rw [same.packet_id, sender.count]
  holds i active := by
    rw [(same.entries i).packet_id, (same.entries i).buf]
    exact sender.holds i ((same.entries i).active ▸ active)
  control i active := by
    rw [(same.entries i).opcode]
    exact sender.control i ((same.entries i).active ▸ active)
  distinct i j hi hj named := by
    rw [(same.entries i).packet_id, (same.entries j).packet_id] at named
    exact sender.distinct i j ((same.entries i).active ▸ hi) ((same.entries j).active ▸ hj) named
  window i active := by
    rw [(same.entries i).packet_id]
    exact sender.window i ((same.entries i).active ▸ active)

theorem purge_still (rel : Reliable size) (ack : ReliableAck) {i : Fin size}
    (active : ((reliableSendPurge rel ack).entry i).active = true) :
    (reliableSendPurge rel ack).entry i = rel.entry i := by
  rcases purge_entry rel ack i with same | ⟨_, _, purged⟩
  · exact same
  · rw [purged] at active
    cases active

theorem Sender.purge (sender : Sender written snd) (ack : ReliableAck) :
    Sender written (reliableSendPurge snd ack) where
  count := by rw [(purge_frame snd ack).1, sender.count]
  holds i active := by
    have same := purge_still snd ack active
    rw [same] at active ⊢
    exact sender.holds i active
  control i active := by
    have same := purge_still snd ack active
    rw [same] at active ⊢
    exact sender.control i active
  distinct i j hi hj named := by
    have iSame := purge_still snd ack hi
    have jSame := purge_still snd ack hj
    rw [iSame] at hi named
    rw [jSame] at hj named
    exact sender.distinct i j hi hj named
  window i active := by
    have same := purge_still snd ack active
    rw [same] at active ⊢
    exact sender.window i active

/-- Only acknowledged ids leave the send buffer. -/
theorem purge_active {rel : Reliable size} (ack : ReliableAck) {id : UInt32} (active : rel.Active id) :
    (reliableSendPurge rel ack).Active id ∨ id ∈ ack.packet_id := by
  obtain ⟨i, active, rfl⟩ := active
  rcases purge_entry rel ack i with same | ⟨_, member, _⟩
  · exact Or.inl ⟨i, by rw [same]; exact active, by rw [same]⟩
  · exact Or.inr member

theorem generate_placed {ks ks' : KeyState} {opcode : Opcode} {ciphertext : Bytes}
    (made : tlsProcessGenerate ks opcode ciphertext = some ks') :
    ks'.rec_reliable = ks.rec_reliable ∧ ks'.rec_ack = ks.rec_ack ∧
      ks'.send_reliable.packet_id = ks.send_reliable.packet_id + 1 ∧
      (∃ out, reliableGetBufOutputSequenced ks.send_reliable = some out) ∧
      ∃ i, Placed ks.send_reliable ks'.send_reliable i
        { active := true, opcode := opcode, next_try := 0, timeout := ks.send_reliable.initial_timeout
          packet_id := ks.send_reliable.packet_id, buf := htonpid ks.send_reliable.packet_id ++ ciphertext } := by
  unfold tlsProcessGenerate at made
  split at made
  · rename_i rel i found
    have free := get_buf_of_output_sequenced found
    have placed := mark_active_outgoing_placed free opcode ciphertext
    obtain ⟨_, rfl⟩ := get_buf_free free
    simp only [Option.some.injEq] at made
    rw [← made]
    exact ⟨rfl, rfl, rfl, ⟨_, found⟩, i, placed⟩
  · cases made

theorem Sender.generate {ks ks' : KeyState} (sender : Sender written ks.send_reliable) {opcode : Opcode}
    {ciphertext : Bytes} (control : opcode ≠ .P_ACK_V1) (few : written.length < 2 ^ 31)
    (made : tlsProcessGenerate ks opcode ciphertext = some ks') :
    Sender (written ++ [ciphertext]) ks'.send_reliable := by
  obtain ⟨_, _, counted, ⟨⟨rel, slot⟩, found⟩, i, placed⟩ := generate_placed made
  have count := sender.count
  constructor
  · rw [counted, UInt32.toNat_add, count]
    simp only [UInt32.reduceToNat, List.length_append, List.length_singleton]
    omega
  · apply placed.forall_active (P := fun e => ∃ payload,
      (written ++ [ciphertext])[e.packet_id.toNat]? = some payload ∧ e.buf = htonpid e.packet_id ++ payload)
    · exact ⟨ciphertext, by simp [count], rfl⟩
    · intro j active
      obtain ⟨payload, at_id, content⟩ := sender.holds j active
      exact ⟨payload, getElem?_of_prefix (List.prefix_append _ _) at_id, content⟩
  · exact placed.forall_active (P := fun e => e.opcode ≠ .P_ACK_V1) control sender.control
  · apply placed.distinct sender.distinct
    intro active
    have bound : ks.send_reliable.packet_id.toNat < written.length := sender.active_lt active
    omega
  · have window := output_sequenced_window (by decide) (by omega) (fun j active => by
      rw [count]
      exact sender.active_lt ⟨j, active, rfl⟩) found
    rw [List.length_append, List.length_singleton]
    apply placed.forall_active (P := fun e => written.length + 1 ≤ e.packet_id.toNat + TLS_RELIABLE_N_SEND_BUFFERS)
    · simp only [count]
      unfold TLS_RELIABLE_N_SEND_BUFFERS
      omega
    · intro j active
      have near := window j active
      omega

end SenderSteps

section ReceiverSteps

variable {written read : List Bytes} {rec : Reliable TLS_RELIABLE_N_REC_BUFFERS}

theorem Receiver.longer {written' : List Bytes} (receiver : Receiver written read rec)
    (longer : written <+: written') : Receiver written' read rec where
  count := receiver.count
  inOrder := receiver.inOrder.trans longer
  holds i active := by
    obtain ⟨low, high, at_id⟩ := receiver.holds i active
    exact ⟨low, high, getElem?_of_prefix longer at_id⟩
  distinct := receiver.distinct

theorem read_state {ks ks' : KeyState} {ciphertext : Bytes} (taken : tlsProcessRead ks = some (ks', ciphertext)) :
    ks'.send_reliable = ks.send_reliable ∧ ks'.rec_ack = ks.rec_ack ∧
      ∃ i, (ks.rec_reliable.entry i).active = true ∧
        (ks.rec_reliable.entry i).packet_id = ks.rec_reliable.packet_id ∧
        (ks.rec_reliable.entry i).buf = ciphertext ∧
        ks'.rec_reliable.packet_id = ks.rec_reliable.packet_id + 1 ∧
        Freed ks.rec_reliable ks'.rec_reliable i := by
  unfold tlsProcessRead at taken
  split at taken
  · rename_i i found
    obtain ⟨rfl, rfl⟩ := by simpa using taken
    obtain ⟨active, named⟩ := sequenced_found found
    obtain ⟨counted, freed⟩ := mark_deleted_freed ks.rec_reliable i
    exact ⟨rfl, rfl, i, active, named, rfl, by rw [← named]; exact counted, freed⟩
  · cases taken

theorem prefix_snoc {l l' : List Bytes} (ordered : l <+: l') {x : Bytes} (next : l'[l.length]? = some x) :
    l ++ [x] <+: l' := by
  obtain ⟨rest, rfl⟩ := ordered
  rw [List.getElem?_append_right (Nat.le_refl _), Nat.sub_self] at next
  cases rest with
  | nil => cases next
  | cons y rest =>
    obtain rfl : y = x := by simpa using next
    exact ⟨rest, by simp⟩

theorem Receiver.next {ks ks' : KeyState} (receiver : Receiver written read ks.rec_reliable) {ciphertext : Bytes}
    (few : written.length ≤ 2 ^ 31) (taken : tlsProcessRead ks = some (ks', ciphertext)) :
    Receiver written (read ++ [ciphertext]) ks'.rec_reliable := by
  obtain ⟨_, _, i, active, named, content, counted, freed⟩ := read_state taken
  obtain ⟨_, _, at_id⟩ := receiver.holds i active
  rw [named, receiver.count, content] at at_id
  have short : read.length < written.length := (List.getElem?_eq_some_iff.mp at_id).1
  have count := receiver.count
  constructor
  · rw [counted, UInt32.toNat_add, count]
    simp only [UInt32.reduceToNat, List.length_append, List.length_singleton]
    omega
  · exact prefix_snoc receiver.inOrder at_id
  · intro j still
    obtain ⟨apart, same⟩ := freed.still still
    rw [same] at still ⊢
    obtain ⟨low, high, at_j⟩ := receiver.holds j still
    -- the one entry that bears the id just read is the one given up
    have other : (ks.rec_reliable.entry j).packet_id.toNat ≠ read.length := by
      intro equal
      apply apart
      apply receiver.distinct j i still active
      rw [named]
      exact UInt32.toNat_inj.mp (equal.trans count.symm)
    rw [List.length_append, List.length_singleton]
    exact ⟨by omega, by omega, at_j⟩
  · exact freed.distinct receiver.distinct

/-- Reading takes nothing away from what the receiver has. -/
theorem had_next {ks ks' : KeyState} {ciphertext : Bytes} (count : ks.rec_reliable.packet_id.toNat = read.length)
    (taken : tlsProcessRead ks = some (ks', ciphertext)) {id : UInt32} (had : Had read ks.rec_reliable id) :
    Had (read ++ [ciphertext]) ks'.rec_reliable id := by
  obtain ⟨_, _, i, _, named, _, _, freed⟩ := read_state taken
  rcases had with low | ⟨j, active, rfl⟩
  · left
    rw [List.length_append]
    omega
  · by_cases same : j = i
    · left
      rw [same, named, count, List.length_append, List.length_singleton]
      omega
    · exact Or.inr ⟨j, by rw [freed.others j same]; exact active, by rw [freed.others j same]⟩

theorem save_placed {rel : Reliable size} {ciphertext : Bytes} {id : UInt32} {op : Opcode}
    {rel' : Reliable size} (saved : saveIncoming rel ciphertext id op = some rel') :
    rel'.packet_id = rel.packet_id ∧ ∃ i, Placed rel rel' i
      { active := true, opcode := op, next_try := 0, timeout := 0, packet_id := id, buf := ciphertext } := by
  unfold saveIncoming at saved
  split at saved
  · rename_i mid i found
    obtain ⟨same, placed⟩ := mark_active_incoming_placed found saved
    exact ⟨same, i, placed⟩
  · cases saved

theorem save_succeeds {rel : Reliable size} {id : UInt32} (free : reliableCanGet rel = true)
    (fresh : reliableNotReplay rel id = true) (ciphertext : Bytes) (op : Opcode) :
    ∃ rel', saveIncoming rel ciphertext id op = some rel' := by
  obtain ⟨⟨mid, i⟩, found⟩ := get_buf_of_can_get free
  obtain ⟨high, _⟩ := not_replay_iff.mp fresh
  obtain ⟨_, stored⟩ := get_buf_free found
  have number : mid.packet_id = rel.packet_id := by rw [stored, store_packet_id]
  unfold saveIncoming reliableMarkActiveIncoming
  simp only [found, store_packet_id, number, high]
  exact ⟨_, rfl⟩

theorem Receiver.save {rec' : Reliable TLS_RELIABLE_N_REC_BUFFERS} (receiver : Receiver written read rec)
    (few : written.length ≤ 2 ^ 31) {id : UInt32} {ciphertext : Bytes} {op : Opcode}
    (at_id : written[id.toNat]? = some ciphertext)
    (near : reliableWontBreakSequentiality rec id = true) (fresh : reliableNotReplay rec id = true)
    (saved : saveIncoming rec ciphertext id op = some rec') : Receiver written read rec' := by
  obtain ⟨counted, i, placed⟩ := save_placed saved
  obtain ⟨high, absent⟩ := not_replay_iff.mp fresh
  have count := receiver.count
  have ordered := receiver.inOrder.length_le
  have named : id.toNat < written.length := (List.getElem?_eq_some_iff.mp at_id).1
  have low : read.length ≤ id.toNat := by
    have notLess := (@pid_min_iff id rec.packet_id (by omega) (by omega)).not
    rw [high] at notLess
    have := notLess.mp (by decide)
    omega
  have window : id.toNat < read.length + TLS_RELIABLE_N_REC_BUFFERS := by
    unfold reliableWontBreakSequentiality at near
    have extent : (UInt32.ofNat TLS_RELIABLE_N_REC_BUFFERS).toNat = TLS_RELIABLE_N_REC_BUFFERS := rfl
    rw [pid_in_range2_iff (by rw [extent, count]; unfold TLS_RELIABLE_N_REC_BUFFERS; omega), extent, count] at near
    exact near
  constructor
  · rw [counted, count]
  · exact receiver.inOrder
  · exact placed.forall_active (P := fun e => read.length ≤ e.packet_id.toNat ∧
      e.packet_id.toNat < read.length + TLS_RELIABLE_N_REC_BUFFERS ∧ written[e.packet_id.toNat]? = some e.buf)
      ⟨low, window, at_id⟩ receiver.holds
  · exact placed.distinct receiver.distinct absent

end ReceiverSteps

end OpenVpn
