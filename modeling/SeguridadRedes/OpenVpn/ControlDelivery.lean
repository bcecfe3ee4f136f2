import Mathlib.Data.Fintype.EquivFin
import SeguridadRedes.OpenVpn.ControlSafety

namespace OpenVpn

open C (Bytes)

section Directions

variable {written read : List Bytes} {snd : Reliable TLS_RELIABLE_N_SEND_BUFFERS}
  {rec : Reliable TLS_RELIABLE_N_REC_BUFFERS} {ack : ReliableAck}

theorem read_of_sequenced (ks : KeyState) (active : ks.rec_reliable.Active ks.rec_reliable.packet_id) :
    ∃ out, tlsProcessRead ks = some out := by
  unfold tlsProcessRead
  split
  · exact ⟨_, rfl⟩
  · rename_i missing
    exact absurd active (sequenced_eq_none missing)

/-- Eight distinct ids out of the eight that may be held are all of them, the next one included. -/
theorem Receiver.full_has_next (receiver : Receiver written read rec)
    (full : ∀ i, (rec.entry i).active = true) : rec.Active rec.packet_id := by
  let place : Fin TLS_RELIABLE_N_REC_BUFFERS → Fin TLS_RELIABLE_N_REC_BUFFERS := fun i =>
    ⟨(rec.entry i).packet_id.toNat - read.length, by
      have bounds := receiver.holds i (full i)
      omega⟩
  have injective : Function.Injective place := by
    intro i j same
    have values : (rec.entry i).packet_id.toNat - read.length = (rec.entry j).packet_id.toNat - read.length :=
      congrArg Fin.val same
    have iBounds := receiver.holds i (full i)
    have jBounds := receiver.holds j (full j)
    exact receiver.distinct i j (full i) (full j) (UInt32.toNat_inj.mp (by omega))
  obtain ⟨i, first⟩ := Finite.injective_iff_surjective.mp injective ⟨0, by decide⟩
  have value : (rec.entry i).packet_id.toNat - read.length = 0 := congrArg Fin.val first
  have bounds := receiver.holds i (full i)
  have count := receiver.count
  exact ⟨i, full i, UInt32.toNat_inj.mp (by omega)⟩

theorem Receiver.room (receiver : Receiver written read rec) (waiting : ¬ rec.Active rec.packet_id) :
    reliableCanGet rec = true := by
  rw [can_get_iff]
  by_contra full
  apply waiting
  apply receiver.full_has_next
  intro i
  by_contra inactive
  exact full ⟨i, by simpa using inactive⟩

theorem Had.near (receiver : Receiver written read rec) {id : UInt32} (had : Had read rec id) :
    id.toNat < read.length + TLS_RELIABLE_N_REC_BUFFERS := by
  rcases had with low | ⟨i, active, rfl⟩
  · omega
  · exact (receiver.holds i active).2.1

theorem Direction.at_most_twelve (direction : Direction written read snd rec ack)
    (few : written.length ≤ 2 ^ 31) : written.length ≤ read.length + 12 := by
  by_contra ahead
  -- the packet eight past the reader cannot be with the receiver, and is too old for the sender
  have value : (UInt32.ofNat (read.length + 8)).toNat = read.length + 8 :=
    UInt32.toNat_ofNat_of_lt' (lt_of_lt_of_le (by omega : read.length + 8 < 2 ^ 31) (by decide))
  rcases direction.kept (UInt32.ofNat (read.length + 8)) (by omega) with had | ⟨i, active, named⟩
  · have near := had.near direction.receiver
    unfold TLS_RELIABLE_N_REC_BUFFERS at near
    omega
  · have window := direction.sender.window i active
    rw [named, value] at window
    unfold TLS_RELIABLE_N_SEND_BUFFERS at window
    omega

end Directions

section Delivery

variable (channel : Channel) (actions : List Action)

theorem channel_delivers_in_order (few : ∀ a, actions.countP (Action.writes a) ≤ 2 ^ 31) :
    ∃ cfg, channel.run actions = some cfg ∧ ∀ a, cfg.read a.other <+: cfg.written a := by
  obtain ⟨cfg, ran, reached⟩ := channel.run_reached actions few
  exact ⟨cfg, ran, fun a => (reached.good.direction a).receiver.inOrder⟩

def sampleChannel : Channel where
  session_id
    | .client => ⟨[1, 2, 3, 4, 5, 6, 7, 8], rfl⟩
    | .server => ⟨[8, 7, 6, 5, 4, 3, 2, 1], rfl⟩
  defined a := by cases a <;> decide
  xmit_hold _ := false
  packet_timeout _ := 2
  start := 0

/-- The client's first packet is lost, its second copy arrives twice, and the server answers. -/
def sampleTraffic : List Action :=
  [.generate .client .P_CONTROL_HARD_RESET_CLIENT_V2 (by decide) [], .send .client, .clock 2, .send .client,
    .receive .server 1, .receive .server 1, .consume .server,
    .generate .server .P_CONTROL_HARD_RESET_SERVER_V2 (by decide) [22, 3, 1], .send .server, .receive .client 0,
    .consume .client]

theorem sampleTraffic_few (a : Side) : sampleTraffic.countP (Action.writes a) ≤ 2 ^ 31 := by
  cases a <;> decide

theorem sample_delivers_in_order :
    ∃ cfg, sampleChannel.run sampleTraffic = some cfg ∧ ∀ a, cfg.read a.other <+: cfg.written a :=
  channel_delivers_in_order sampleChannel sampleTraffic sampleTraffic_few

theorem channel_loses_nothing (few : ∀ a, actions.countP (Action.writes a) ≤ 2 ^ 31) :
    ∃ cfg, channel.run actions = some cfg ∧
      ∀ (a : Side) (id : UInt32) (ciphertext : Bytes), (cfg.written a)[id.toNat]? = some ciphertext →
        (cfg.read a.other)[id.toNat]? = some ciphertext ∨
        (∃ i, ((cfg.ks a.other).rec_reliable.entry i).active = true ∧
          ((cfg.ks a.other).rec_reliable.entry i).packet_id = id ∧
          ((cfg.ks a.other).rec_reliable.entry i).buf = ciphertext) ∨
        ∃ i, ((cfg.ks a).send_reliable.entry i).active = true ∧
          ((cfg.ks a).send_reliable.entry i).packet_id = id ∧
          ((cfg.ks a).send_reliable.entry i).buf = htonpid id ++ ciphertext := by
  obtain ⟨cfg, ran, reached⟩ := channel.run_reached actions few
  refine ⟨cfg, ran, fun a id ciphertext at_id => ?_⟩
  have direction := reached.good.direction a
  have bound := (List.getElem?_eq_some_iff.mp at_id).1
  rcases direction.kept id bound with (read | ⟨i, active, rfl⟩) | ⟨i, active, rfl⟩
  · left
    have same := getElem?_of_prefix direction.receiver.inOrder (List.getElem?_eq_getElem read)
    rw [at_id] at same
    rw [List.getElem?_eq_getElem read, ← same]
  · obtain ⟨_, _, held⟩ := direction.receiver.holds i active
    rw [at_id] at held
    exact Or.inr (Or.inl ⟨i, active, rfl, by simpa using held.symm⟩)
  · obtain ⟨payload, held, content⟩ := direction.sender.holds i active
    rw [at_id] at held
    obtain rfl : ciphertext = payload := by simpa using held
    exact Or.inr (Or.inr ⟨i, active, rfl, content⟩)

theorem sample_loses_nothing :
    ∃ cfg, sampleChannel.run sampleTraffic = some cfg ∧
      ∀ (a : Side) (id : UInt32) (ciphertext : Bytes), (cfg.written a)[id.toNat]? = some ciphertext →
        (cfg.read a.other)[id.toNat]? = some ciphertext ∨
        (∃ i, ((cfg.ks a.other).rec_reliable.entry i).active = true ∧
          ((cfg.ks a.other).rec_reliable.entry i).packet_id = id ∧
          ((cfg.ks a.other).rec_reliable.entry i).buf = ciphertext) ∨
        ∃ i, ((cfg.ks a).send_reliable.entry i).active = true ∧
          ((cfg.ks a).send_reliable.entry i).packet_id = id ∧
          ((cfg.ks a).send_reliable.entry i).buf = htonpid id ++ ciphertext :=
  channel_loses_nothing sampleChannel sampleTraffic sampleTraffic_few

/-- A receive buffer that can take no packet has the one the reader waits for. -/
theorem receive_buffer_never_clogs (few : ∀ a, actions.countP (Action.writes a) ≤ 2 ^ 31) :
    ∃ cfg, channel.run actions = some cfg ∧
      ∀ a, reliableCanGet (cfg.ks a).rec_reliable = false → ∃ out, tlsProcessRead (cfg.ks a) = some out := by
  obtain ⟨cfg, ran, reached⟩ := channel.run_reached actions few
  refine ⟨cfg, ran, fun a full => read_of_sequenced _ ?_⟩
  by_contra waiting
  have room := (reached.good.incoming a).receiver.room waiting
  rw [full] at room
  cases room

theorem data_packet : Opcode.P_CONTROL_V1 ≠ .P_ACK_V1 := by decide

/-- The client fills the server's eight buffers, whose reader takes nothing. -/
def fullTraffic : List Action :=
  let written := List.replicate 4 (.generate .client .P_CONTROL_V1 data_packet [22, 3, 1])
  let sent := List.replicate 4 (.send .client)
  written ++ sent ++ (List.range 4).map (.receive .server) ++ [.acknowledge .server, .receive .client 0] ++
    written ++ sent ++ (List.range' 4 4).map (.receive .server)

theorem fullTraffic_few (a : Side) : fullTraffic.countP (Action.writes a) ≤ 2 ^ 31 := by
  cases a <;> decide

theorem sample_never_clogs :
    ∃ cfg, sampleChannel.run fullTraffic = some cfg ∧
      reliableCanGet (cfg.ks .server).rec_reliable = false ∧ ∃ out, tlsProcessRead (cfg.ks .server) = some out := by
  obtain ⟨cfg, ran, reads⟩ := receive_buffer_never_clogs sampleChannel fullTraffic fullTraffic_few
  have full : (sampleChannel.run fullTraffic).map (fun cfg => reliableCanGet (cfg.ks .server).rec_reliable) =
      some false := by decide +kernel
  rw [ran, Option.map_some, Option.some.injEq] at full
  exact ⟨cfg, ran, full, reads .server full⟩

theorem writer_at_most_twelve_ahead (few : ∀ a, actions.countP (Action.writes a) ≤ 2 ^ 31) :
    ∃ cfg, channel.run actions = some cfg ∧
      ∀ a, (cfg.written a).length ≤ (cfg.read a.other).length + 12 := by
  obtain ⟨cfg, ran, reached⟩ := channel.run_reached actions few
  exact ⟨cfg, ran, fun a => (reached.good.direction a).at_most_twelve (reached.few a)⟩

theorem sample_at_most_twelve_ahead :
    ∃ cfg, sampleChannel.run sampleTraffic = some cfg ∧
      ∀ a, (cfg.written a).length ≤ (cfg.read a.other).length + 12 :=
  writer_at_most_twelve_ahead sampleChannel sampleTraffic sampleTraffic_few

end Delivery

end OpenVpn
