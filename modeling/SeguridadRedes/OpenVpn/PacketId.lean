import SeguridadRedes.C.Machine
import SeguridadRedes.OpenVpn.CircList
import SeguridadRedes.OpenVpn.Wire

namespace OpenVpn

open C (runs)

def SEQ_UNSEEN : Int := 0

def SEQ_EXPIRED : Int := 1

def MAX_SEQ_BACKTRACK : Nat := 65536

def MAX_TIME_BACKTRACK : Int := 600

def SEQ_REAP_INTERVAL : Int := 5

structure PacketIdNet where
  id : UInt32
  time : Int
  deriving DecidableEq

/-- What is left of a packet id on its way. -/
def PacketIdNet.onWire (pin : PacketIdNet) (long_form : Bool) : PacketIdNet :=
  ⟨pin.id, if long_form then pin.time % 2 ^ 32 else 0⟩

structure PacketIdSend where
  id : UInt32
  time : Int

structure PacketIdRec (seq_backtrack : Nat) where
  last_reap : Int
  time : Int
  id : UInt32
  time_backtrack : Int
  initialized : Bool
  seq_list : Option (CircList Int seq_backtrack)

variable {seq_backtrack : Nat}

/-- `none` is a failed ASSERT, here and in what follows. -/
def packetIdInit (seq_backtrack : Nat) (time_backtrack : Int) : Option (PacketIdSend × PacketIdRec seq_backtrack) :=
  if positive : 0 < seq_backtrack then
    if seq_backtrack ≤ MAX_SEQ_BACKTRACK ∧ 0 ≤ time_backtrack ∧ time_backtrack ≤ MAX_TIME_BACKTRACK then
      some (⟨0, 0⟩,
        { last_reap := 0, time := 0, id := 0, time_backtrack := time_backtrack, initialized := true
          seq_list := some (CIRC_LIST_ALLOC 0 positive) })
    else none
  else some (⟨0, 0⟩, { last_reap := 0, time := 0, id := 0, time_backtrack := 0, initialized := true, seq_list := none })

/-- The `while (p->id < pin->id)` of `packet_id_add`: the list and `p->id` it leaves. -/
def packetIdPushUnseen (list : CircList Int seq_backtrack) (id pin_id : UInt32) :
    CircList Int seq_backtrack × UInt32 :=
  if id < pin_id then packetIdPushUnseen (CIRC_LIST_PUSH list SEQ_UNSEEN) (id + 1) pin_id else (list, id)
termination_by pin_id.toNat - id.toNat
decreasing_by
  rename_i less
  have bound := pin_id.toNat_lt
  rw [UInt32.lt_iff_toNat_lt] at less
  have next : (id + 1).toNat = id.toNat + 1 := by
    rw [UInt32.toNat_add, Nat.mod_eq_of_lt]
    · rfl
    · simp only [UInt32.reduceToNat]
      omega
  omega

def packetIdRestarts (p : PacketIdRec seq_backtrack) (list : CircList Int seq_backtrack) (pin : PacketIdNet) : Bool :=
  decide (CIRC_LIST_SIZE list = 0) || decide (pin.time > p.time) ||
    decide (pin.id ≥ UInt32.ofNat seq_backtrack) && decide (pin.id - UInt32.ofNat seq_backtrack > p.id)

def packetIdAdd (p : PacketIdRec seq_backtrack) (pin : PacketIdNet) (now : Int) : PacketIdRec seq_backtrack :=
  match p.seq_list with
  | none => { p with time := pin.time, id := pin.id }
  | some list =>
    let restarts := packetIdRestarts p list pin
    let time := if restarts then pin.time else p.time
    let id :=
      if restarts then
        if pin.id > UInt32.ofNat seq_backtrack then pin.id - UInt32.ofNat seq_backtrack else 0
      else p.id
    let list := if restarts then CIRC_LIST_RESET list else list
    let (list, id) := packetIdPushUnseen list id pin.id
    let diff := (id - pin.id).toNat
    if inside : diff < list.x_size then
      let list := if now > SEQ_EXPIRED then CIRC_LIST_STORE list diff inside now else list
      { p with time := time, id := id, seq_list := some list }
    else { p with time := time, id := id, seq_list := some list }

/-- The loop of `packet_id_reap` from index `i` on. -/
def packetIdReapFrom (time_backtrack now : Int) (list : CircList Int seq_backtrack) (i : Nat) (expire : Bool) :
    CircList Int seq_backtrack :=
  if inside : i < list.x_size then
    let t := CIRC_LIST_ITEM list i inside
    if t = SEQ_EXPIRED then list
    else
      let expire := expire || (decide (t ≠ 0) && decide (t + time_backtrack < now))
      if expire then
        packetIdReapFrom time_backtrack now (CIRC_LIST_STORE list i inside SEQ_EXPIRED) (i + 1) expire
      else packetIdReapFrom time_backtrack now list (i + 1) expire
  else list
termination_by list.x_size - i
decreasing_by
  · change list.x_size - (i + 1) < list.x_size - i
    omega
  · omega

def packetIdReap (p : PacketIdRec seq_backtrack) (now : Int) : PacketIdRec seq_backtrack :=
  if p.time_backtrack ≠ 0 then
    { p with
      last_reap := now
      seq_list := p.seq_list.map fun list => packetIdReapFrom p.time_backtrack now list 0 false }
  else { p with last_reap := now }

def packetIdReapTest (p : PacketIdRec seq_backtrack) (now : Int) : PacketIdRec seq_backtrack :=
  if p.last_reap + SEQ_REAP_INTERVAL ≤ now then packetIdReap p now else p

/-- `none` is a failed ASSERT, or a list that is not there. -/
def packetIdTest (p : PacketIdRec seq_backtrack) (pin : PacketIdNet) : Option Bool :=
  if p.initialized then
    if pin.id = 0 then some false
    else if seq_backtrack ≠ 0 then
      if pin.time = p.time then
        if pin.id > p.id then some true
        else
          let diff := (p.id - pin.id).toNat
          match p.seq_list with
          | none => none
          | some list =>
            if inside : diff < list.x_size then some (decide (CIRC_LIST_ITEM list diff inside = 0)) else some false
      else if pin.time < p.time then some false
      else some true
    else
      if pin.time = p.time then some (decide (p.id = 0) || decide (pin.id = p.id + 1))
      else if pin.time < p.time then some false
      else some (decide (pin.id = 1))
  else none

/-- What `openvpn_decrypt` does with the id of a packet that arrives at `now`. -/
def openvpnDecryptPacketId (p : PacketIdRec seq_backtrack) (pin : PacketIdNet) (now : Int) :
    Option (PacketIdRec seq_backtrack × Bool) :=
  let p := packetIdReapTest p now
  match packetIdTest p pin with
  | some true => some (packetIdAdd p pin now, true)
  | some false => some (p, false)
  | none => none

def packetIdAllocOutgoing (p : PacketIdSend) (now : Int) (long_form : Bool) : Option (PacketIdSend × PacketIdNet) :=
  let time := if p.time = 0 then now else p.time
  let id := p.id + 1
  if id = 0 then
    if long_form then some (⟨1, now⟩, ⟨1, now⟩) else none
  else some (⟨id, time⟩, ⟨id, time⟩)

section Persist

structure PacketIdPersist where
  enabled : Bool
  time : Int
  id : UInt32

def packetIdPersistSaveObj (p : PacketIdPersist) (rec : PacketIdRec seq_backtrack) : PacketIdPersist :=
  if p.enabled && decide (rec.time ≠ 0) then { p with time := rec.time, id := rec.id } else p

def packetIdPersistLoadObj (p : PacketIdPersist) (rec : PacketIdRec seq_backtrack) : PacketIdRec seq_backtrack :=
  if p.enabled && decide (p.time ≠ 0) then { rec with time := p.time, id := p.id } else rec

end Persist

structure Receiving (seq_backtrack : Nat) where
  receiver : PacketIdRec seq_backtrack
  log : List (PacketIdNet × Bool)

def Receiving.accepted (r : Receiving seq_backtrack) : List PacketIdNet := (r.log.filter Prod.snd).map Prod.fst

/-- A packet with the moment it arrives at, by a clock past the two values the list gives a meaning of its own. -/
structure Arrival where
  packet : PacketIdNet
  now : Int
  clock : SEQ_EXPIRED < now

def arrive (r : Receiving seq_backtrack) (arrival : Arrival) : Option (Receiving seq_backtrack) :=
  match openvpnDecryptPacketId r.receiver arrival.packet arrival.now with
  | some (receiver, ok) => some ⟨receiver, r.log ++ [(arrival.packet, ok)]⟩
  | none => none

def receive (receiver : PacketIdRec seq_backtrack) (arrivals : List Arrival) : Option (Receiving seq_backtrack) :=
  runs arrive ⟨receiver, []⟩ arrivals

end OpenVpn
