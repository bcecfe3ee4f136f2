import Mathlib.Logic.Function.Basic
import SeguridadRedes.C.Machine
import SeguridadRedes.OpenVpn.Reliable

namespace OpenVpn

open C (Bytes runs)

def TLS_RELIABLE_N_SEND_BUFFERS : Nat := 4

def TLS_RELIABLE_N_REC_BUFFERS : Nat := 8

def CONTROL_SEND_ACK_MAX : Nat := 4

structure KeyState where
  send_reliable : Reliable TLS_RELIABLE_N_SEND_BUFFERS
  rec_reliable : Reliable TLS_RELIABLE_N_REC_BUFFERS
  rec_ack : ReliableAck

/-- A control channel packet past its header: the opcode, then all that follows the sender's session id. -/
structure Packet where
  opcode : Opcode
  buf : Bytes

def keyStateInit (xmit_hold : Bool) (packet_timeout : Int) : KeyState where
  send_reliable := reliableSetTimeout (reliableInit TLS_RELIABLE_N_SEND_BUFFERS xmit_hold) packet_timeout
  rec_reliable := reliableInit TLS_RELIABLE_N_REC_BUFFERS false
  rec_ack := .empty

/-- `none` is a failed ASSERT, here and in what follows. -/
def writeControlAuth (ks : KeyState) (session_id_remote : SessionId) (buf : Bytes) (opcode : Opcode)
    (max_ack : Nat) (prepend_ack : Bool) : Option (KeyState × List Packet) :=
  match reliableAckWrite ks.rec_ack buf session_id_remote max_ack prepend_ack with
  | some (ack, buf) => some ({ ks with rec_ack := ack }, [⟨opcode, buf⟩])
  | none => none

section TlsProcess

/-- Outgoing ciphertext to reliable buffer; the initial packet is the one with nothing in it. -/
def tlsProcessGenerate (ks : KeyState) (opcode : Opcode) (ciphertext : Bytes) : Option KeyState :=
  match reliableGetBufOutputSequenced ks.send_reliable with
  | some (rel, buf) =>
    let rel := rel.store buf { rel.entry buf with buf := (rel.entry buf).buf ++ ciphertext }
    some { ks with send_reliable := reliableMarkActiveOutgoing rel buf opcode }
  | none => none

def tlsProcessSend (ks : KeyState) (session_id_remote : SessionId) (now : Int) :
    Option (KeyState × List Packet) :=
  if reliableCanSend ks.send_reliable now then
    match reliableSend ks.send_reliable now with
    | some (rel, best, opcode) =>
      writeControlAuth { ks with send_reliable := rel } session_id_remote (rel.entry best).buf opcode
        CONTROL_SEND_ACK_MAX true
    | none => none
  else some (ks, [])

/-- A dedicated packet for the ids still to be acknowledged. -/
def tlsProcessAck (ks : KeyState) (session_id_remote : SessionId) : Option (KeyState × List Packet) :=
  if reliableAckEmpty ks.rec_ack then some (ks, [])
  else writeControlAuth ks session_id_remote [] .P_ACK_V1 RELIABLE_ACK_SIZE false

def tlsProcessRead (ks : KeyState) : Option (KeyState × Bytes) :=
  match reliableGetBufSequenced ks.rec_reliable with
  | some buf =>
    some ({ ks with rec_reliable := reliableMarkDeleted ks.rec_reliable buf true },
      (ks.rec_reliable.entry buf).buf)
  | none => none

end TlsProcess

section TlsPreDecrypt

def saveIncoming {size : Nat} (rel : Reliable size) (buf : Bytes) (id : UInt32) (op : Opcode) :
    Option (Reliable size) :=
  match reliableGetBuf rel with
  | some (rel, i) =>
    let rel := rel.store i { rel.entry i with buf := (rel.entry i).buf ++ buf }
    reliableMarkActiveIncoming rel i id op
  | none => none

/-- The part of `tls_pre_decrypt` after the ids of an acknowledgement record are purged. -/
def tlsPreDecryptData (ks : KeyState) (op : Opcode) (buf : Bytes) : Option KeyState :=
  if decide (op ≠ .P_ACK_V1) && reliableCanGet ks.rec_reliable then
    match reliableAckReadPacketId buf with
    | some (id, buf) =>
      if reliableWontBreakSequentiality ks.rec_reliable id then
        let rec_ack := (reliableAckAcknowledgePacketId ks.rec_ack id).1
        if reliableNotReplay ks.rec_reliable id then
          match saveIncoming ks.rec_reliable buf id op with
          | some rel => some { ks with rec_reliable := rel, rec_ack := rec_ack }
          | none => none
        else some { ks with rec_ack := rec_ack }
      else some ks
    | none => some ks
  else some ks

def tlsPreDecrypt (ks : KeyState) (session_id : SessionId) (packet : Packet) : Option KeyState :=
  match reliableAckRead .empty packet.buf session_id with
  | some (send_ack, buf) =>
    tlsPreDecryptData { ks with send_reliable := reliableSendPurge ks.send_reliable send_ack } packet.opcode buf
  | none => some ks

end TlsPreDecrypt

inductive Side
  | client
  | server
  deriving DecidableEq

def Side.other : Side → Side
  | .client => .server
  | .server => .client

@[simp] theorem Side.other_other (a : Side) : a.other.other = a := by cases a <;> rfl

theorem Side.other_ne (a : Side) : a.other ≠ a := by cases a <;> decide

/-- Both ends of a control channel, with every packet either of them has put on the wire
and the ciphertexts their TLS objects have written and been given so far. -/
structure Config where
  now : Int
  ks : Side → KeyState
  net : Side → List Packet
  written : Side → List Bytes
  read : Side → List Bytes

namespace Config

def setState (cfg : Config) (a : Side) (ks : KeyState) : Config :=
  { cfg with ks := Function.update cfg.ks a ks }

def transmit (cfg : Config) (a : Side) (packets : List Packet) : Config :=
  { cfg with net := Function.update cfg.net a (cfg.net a ++ packets) }

def write (cfg : Config) (a : Side) (ciphertext : Bytes) : Config :=
  { cfg with written := Function.update cfg.written a (cfg.written a ++ [ciphertext]) }

def deliver (cfg : Config) (a : Side) (ciphertext : Bytes) : Config :=
  { cfg with read := Function.update cfg.read a (cfg.read a ++ [ciphertext]) }

def initial (xmit_hold : Side → Bool) (packet_timeout : Side → Int) (now : Int) : Config where
  now := now
  ks a := keyStateInit (xmit_hold a) (packet_timeout a)
  net _ := []
  written _ := []
  read _ := []

end Config

/-- What may happen next. `receive a n` brings the n-th packet the other end ever sent, so that
packets are lost, repeated and reordered at will. -/
inductive Action
  | clock (now : Int)
  | generate (a : Side) (opcode : Opcode) (control : opcode ≠ .P_ACK_V1) (ciphertext : Bytes)
  | send (a : Side)
  | acknowledge (a : Side)
  | consume (a : Side)
  | receive (a : Side) (n : Nat)
  | burst (a : Side)

def step (session_id : Side → SessionId) (cfg : Config) : Action → Option Config
  | .clock now => some { cfg with now := now }
  | .generate a opcode _ ciphertext =>
    match tlsProcessGenerate (cfg.ks a) opcode ciphertext with
    | some ks => some ((cfg.setState a ks).write a ciphertext)
    | none => some cfg
  | .send a =>
    match tlsProcessSend (cfg.ks a) (session_id a.other) cfg.now with
    | some (ks, packets) => some ((cfg.setState a ks).transmit a packets)
    | none => none
  | .acknowledge a =>
    match tlsProcessAck (cfg.ks a) (session_id a.other) with
    | some (ks, packets) => some ((cfg.setState a ks).transmit a packets)
    | none => none
  | .consume a =>
    match tlsProcessRead (cfg.ks a) with
    | some (ks, ciphertext) => some ((cfg.setState a ks).deliver a ciphertext)
    | none => some cfg
  | .receive a n =>
    match (cfg.net a.other)[n]? with
    | some packet =>
      match tlsPreDecrypt (cfg.ks a) (session_id a) packet with
      | some ks => some (cfg.setState a ks)
      | none => none
    | none => some cfg
  | .burst a =>
    some (cfg.setState a
      { cfg.ks a with send_reliable := reliableScheduleNow (cfg.ks a).send_reliable cfg.now })

def run (session_id : Side → SessionId) (cfg : Config) (actions : List Action) : Option Config :=
  runs (step session_id) cfg actions

end OpenVpn
