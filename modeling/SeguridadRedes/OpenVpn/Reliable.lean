import Mathlib.Data.Fintype.Basic
import Mathlib.Data.Finset.Card
import SeguridadRedes.C.Slots
import SeguridadRedes.OpenVpn.ReliableAck

namespace OpenVpn

open C (Bytes firstSlot anySlot bestSlot put)

section PacketIds

def reliablePidInRange1 (test base extent : UInt32) : Bool :=
  if test ≥ base then decide (test - base < extent)
  else decide ((test + 0x80000000) - (base + 0x80000000) < extent)

def reliablePidInRange2 (test base extent : UInt32) : Bool :=
  if base + extent ≥ base then decide (test < base + extent)
  else decide (test + 0x80000000 < base + 0x80000000 + extent)

def reliablePidMin (p1 p2 : UInt32) : Bool := !reliablePidInRange1 p1 p2 0x80000000

theorem sub_of_shifted (test base shift : UInt32) : test + shift - (base + shift) = test - base := by
  apply UInt32.toNat_inj.mp
  have t := test.toNat_lt
  have b := base.toNat_lt
  have s := shift.toNat_lt
  rw [UInt32.toNat_sub, UInt32.toNat_sub, UInt32.toNat_add, UInt32.toNat_add]
  omega

/-- Either branch subtracts modulo 2^32. -/
theorem pid_in_range1_eq (test base extent : UInt32) :
    reliablePidInRange1 test base extent = decide (test - base < extent) := by
  unfold reliablePidInRange1
  split
  · rfl
  · rw [sub_of_shifted]

theorem pid_in_range1_iff {test base extent : UInt32} (ordered : base.toNat ≤ test.toNat) :
    reliablePidInRange1 test base extent = true ↔ test.toNat - base.toNat < extent.toNat := by
  have le : base ≤ test := UInt32.le_iff_toNat_le.mpr ordered
  rw [pid_in_range1_eq, decide_eq_true_iff, UInt32.lt_iff_toNat_lt, UInt32.toNat_sub_of_le _ _ le]

theorem pid_in_range2_iff {test base extent : UInt32} (room : base.toNat + extent.toNat < 2 ^ 32) :
    reliablePidInRange2 test base extent = true ↔ test.toNat < base.toNat + extent.toNat := by
  have sum : (base + extent).toNat = base.toNat + extent.toNat := by
    rw [UInt32.toNat_add, Nat.mod_eq_of_lt room]
  have le : base ≤ base + extent := by
    rw [UInt32.le_iff_toNat_le, sum]
    omega
  unfold reliablePidInRange2
  rw [if_pos le, decide_eq_true_iff, UInt32.lt_iff_toNat_lt, sum]

theorem pid_min_iff {p1 p2 : UInt32} (first : p1.toNat < 2 ^ 31) (second : p2.toNat ≤ 2 ^ 31) :
    reliablePidMin p1 p2 = true ↔ p1.toNat < p2.toNat := by
  unfold reliablePidMin
  rw [pid_in_range1_eq, Bool.not_eq_true', decide_eq_false_iff_not, UInt32.lt_iff_toNat_lt, UInt32.toNat_sub]
  have half : (0x80000000 : UInt32).toNat = 2 ^ 31 := rfl
  rw [half]
  omega

end PacketIds

section Model

/-- The opcodes of the control channel. -/
inductive Opcode
  | P_CONTROL_HARD_RESET_CLIENT_V1
  | P_CONTROL_HARD_RESET_SERVER_V1
  | P_CONTROL_SOFT_RESET_V1
  | P_CONTROL_V1
  | P_ACK_V1
  | P_CONTROL_HARD_RESET_CLIENT_V2
  | P_CONTROL_HARD_RESET_SERVER_V2
  deriving DecidableEq

/-- `struct reliable_entry`. -/
structure ReliableEntry where
  active : Bool
  timeout : Int
  next_try : Int
  packet_id : UInt32
  opcode : Opcode
  buf : Bytes

/-- `struct reliable`, with as many entries of its array as it uses. -/
structure Reliable (size : Nat) where
  initial_timeout : Int
  packet_id : UInt32
  hold : Bool
  array : Vector ReliableEntry size

variable {size : Nat}

namespace Reliable

def entry (rel : Reliable size) (i : Fin size) : ReliableEntry := rel.array.get i

def store (rel : Reliable size) (i : Fin size) (e : ReliableEntry) : Reliable size :=
  { rel with array := put rel.array i e }

def setPacketId (rel : Reliable size) (pid : UInt32) : Reliable size := { rel with packet_id := pid }

end Reliable

def reliableInit (size : Nat) (hold : Bool) : Reliable size :=
  { initial_timeout := 0, packet_id := 0, hold := hold
    array := Vector.replicate size
      { active := false, timeout := 0, next_try := 0, packet_id := 0, opcode := .P_CONTROL_V1, buf := [] } }

def reliableSetTimeout (rel : Reliable size) (timeout : Int) : Reliable size :=
  { rel with initial_timeout := timeout }

def reliableEmpty (rel : Reliable size) : Bool := !anySlot rel.array fun e => e.active

/-- The inner loop of `reliable_send_purge`, for one acknowledged id. -/
def reliableSendPurgeId (rel : Reliable size) (pid : UInt32) : Reliable size :=
  match firstSlot rel.array fun e => e.active && decide (e.packet_id = pid) with
  | some j => rel.store j { rel.entry j with active := false }
  | none => rel

def reliableSendPurge (rel : Reliable size) (ack : ReliableAck) : Reliable size :=
  ack.packet_id.foldl reliableSendPurgeId rel

def reliableCanGet (rel : Reliable size) : Bool := anySlot rel.array fun e => !e.active

def reliableNotReplay (rel : Reliable size) (id : UInt32) : Bool :=
  if reliablePidMin id rel.packet_id then false
  else !anySlot rel.array fun e => e.active && decide (e.packet_id = id)

def reliableWontBreakSequentiality (rel : Reliable size) (id : UInt32) : Bool :=
  reliablePidInRange2 id rel.packet_id (UInt32.ofNat size)

def reliableGetBuf (rel : Reliable size) : Option (Reliable size × Fin size) :=
  match firstSlot rel.array fun e => !e.active with
  | some i => some (rel.store i { rel.entry i with buf := [] }, i)
  | none => none

def reliableGetBufOutputSequenced (rel : Reliable size) : Option (Reliable size × Fin size) :=
  match bestSlot rel.array (fun e => e.active) fun e min => reliablePidMin e.packet_id min.packet_id with
  | none => reliableGetBuf rel
  | some min =>
    if reliablePidInRange1 rel.packet_id (rel.entry min).packet_id (UInt32.ofNat size)
    then reliableGetBuf rel else none

def reliableGetBufSequenced (rel : Reliable size) : Option (Fin size) :=
  firstSlot rel.array fun e => e.active && decide (e.packet_id = rel.packet_id)

def reliableCanSend (rel : Reliable size) (now : Int) : Bool :=
  let n_current := ((List.finRange size).filter fun i =>
    (rel.entry i).active && decide (now ≥ (rel.entry i).next_try)).length
  decide (n_current > 0) && !rel.hold

theorem unique_retry_decreases (rel : Reliable size) (retry : Int)
    (again : anySlot rel.array (fun e => e.active && decide (e.next_try = retry)) = true) :
    (Finset.univ.filter fun i : Fin size => retry + 1 ≤ (rel.entry i).next_try).card <
      (Finset.univ.filter fun i : Fin size => retry ≤ (rel.entry i).next_try).card := by
  obtain ⟨i, taken⟩ := C.anySlot_iff.mp again
  have at_retry : (rel.entry i).next_try = retry := by
    unfold Reliable.entry
    simp only [Bool.and_eq_true, decide_eq_true_eq] at taken
    exact taken.2
  apply Finset.card_lt_card
  rw [Finset.ssubset_iff_of_subset]
  · refine ⟨i, ?_, ?_⟩
    · simp [at_retry]
    · simp [at_retry]
  · intro j member
    simp only [Finset.mem_filter, Finset.mem_univ, true_and] at member ⊢
    omega

def reliableUniqueRetry (rel : Reliable size) (retry : Int) : Int :=
  if anySlot rel.array fun e => e.active && decide (e.next_try = retry) then
    reliableUniqueRetry rel (retry + 1)
  else retry
termination_by (Finset.univ.filter fun i : Fin size => retry ≤ (rel.entry i).next_try).card
decreasing_by
  rename_i again
  exact unique_retry_decreases rel retry again

def reliableSend (rel : Reliable size) (now : Int) : Option (Reliable size × Fin size × Opcode) :=
  match bestSlot rel.array (fun e => e.active && decide (now ≥ e.next_try))
      fun e best => reliablePidMin e.packet_id best.packet_id with
  | some best =>
    let e := rel.entry best
    let next_try := reliableUniqueRetry rel (now + e.timeout)
    some (rel.store best { e with next_try := next_try, timeout := asInt (e.timeout * 2) }, best, e.opcode)
  | none => none

def reliableScheduleNow (rel : Reliable size) (now : Int) : Reliable size :=
  { rel with
    hold := false
    array := rel.array.map fun e =>
      if e.active then { e with next_try := now, timeout := rel.initial_timeout } else e }

def BIG_TIMEOUT : Int := 60 * 60 * 24 * 7

/-- One pass of the loop of `reliable_send_timeout`; `true` once it has left the loop. -/
def reliableSendTimeoutStep (now : Int) (acc : Int × Bool) (e : ReliableEntry) : Int × Bool :=
  if acc.2 then acc
  else if e.active then
    if e.next_try ≤ now then (0, true) else (min acc.1 (asInt (e.next_try - now)), false)
  else acc

def reliableSendTimeout (rel : Reliable size) (now : Int) : Int :=
  (rel.array.toList.foldl (reliableSendTimeoutStep now) (BIG_TIMEOUT, false)).1

/-- `none` is a failed ASSERT. -/
def reliableMarkActiveIncoming (rel : Reliable size) (buf : Fin size) (pid : UInt32) (opcode : Opcode) :
    Option (Reliable size) :=
  let rel := rel.store buf { rel.entry buf with active := true, packet_id := pid }
  if reliablePidMin pid rel.packet_id then none
  else some (rel.store buf { rel.entry buf with opcode := opcode, next_try := 0, timeout := 0 })

def reliableMarkActiveOutgoing (rel : Reliable size) (buf : Fin size) (opcode : Opcode) : Reliable size :=
  let e := rel.entry buf
  (rel.setPacketId (rel.packet_id + 1)).store buf
    { active := true, opcode := opcode, next_try := 0, timeout := rel.initial_timeout
      packet_id := rel.packet_id, buf := htonpid rel.packet_id ++ e.buf }

def reliableMarkDeleted (rel : Reliable size) (buf : Fin size) (inc_pid : Bool) : Reliable size :=
  let e := rel.entry buf
  let rel := rel.store buf { e with active := false }
  if inc_pid then rel.setPacketId (e.packet_id + 1) else rel

end Model

end OpenVpn
