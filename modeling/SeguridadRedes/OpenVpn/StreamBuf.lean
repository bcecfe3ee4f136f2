import SeguridadRedes.C.Machine
import SeguridadRedes.C.Source
import SeguridadRedes.OpenVpn.Wire

namespace OpenVpn

open C (Bytes Source runs)
open Crypto (i2osp os2ip)

def htonps (len : Nat) : Bytes := i2osp 2 (len % 2 ^ 16)

def ntohps (net_size : Bytes) : Nat := os2ip net_size

inductive PortShare where
  | PS_DISABLED
  | PS_ENABLED
  | PS_FOREIGN
  deriving DecidableEq

def P_CONTROL_HARD_RESET_CLIENT_V2 : UInt8 := 7

def P_OPCODE_SHIFT : UInt8 := 3

def isOpenvpnProtocol (buf : Bytes) : Bool :=
  match buf with
  | p0 :: p1 :: p2 :: _ => p0 == 0 && decide (p1 ≥ 14) && p2 == P_CONTROL_HARD_RESET_CLIENT_V2 <<< P_OPCODE_SHIFT
  | [p0, p1] => p0 == 0 && decide (p1 ≥ 14)
  | _ => true

/-- `struct stream_buf`: of `next` only its length, `none` when it is not defined; `none` for a `len` of -1. -/
structure StreamBuf where
  maxlen : Nat
  residual : Bytes
  residual_fully_formed : Bool
  buf : Bytes
  next : Option Nat
  len : Option Nat
  error : Bool
  port_share_state : PortShare

def streamBufReset (sb : StreamBuf) : StreamBuf :=
  { sb with residual_fully_formed := false, buf := [], next := none, len := none }

def streamBufInit (maxlen : Nat) (port_share_state : PortShare) : StreamBuf :=
  { maxlen := maxlen, residual := [], residual_fully_formed := false, buf := [], next := none,
    len := none, error := false
    port_share_state := port_share_state }

/-- `none` is a failed ASSERT, here and in what follows. -/
def streamBufSetNext (sb : StreamBuf) : Option StreamBuf :=
  let room := (sb.len.getD sb.maxlen : Int) - sb.buf.length
  if room > 0 then some { sb with next := some room.toNat } else none

/-- The part of `stream_buf_added` that looks for the length prefix; `none` if the stream is refused. -/
def streamBufSize (sb : StreamBuf) : StreamBuf × Bool :=
  match sb.len, sb.buf with
  | none, b₀ :: b₁ :: rest =>
    if sb.port_share_state = .PS_ENABLED ∧ isOpenvpnProtocol sb.buf = false then
      ({ sb with port_share_state := .PS_FOREIGN, error := true }, false)
    else
      let port_share_state := if sb.port_share_state = .PS_ENABLED then .PS_DISABLED else sb.port_share_state
      let len := ntohps [b₀, b₁]
      let sb := { sb with port_share_state := port_share_state, len := some len, buf := rest }
      if len < 1 ∨ sb.maxlen < len then ({ streamBufReset sb with error := true }, false) else (sb, true)
  | _, _ => (sb, true)

/-- The part of `stream_buf_added` that looks whether the packet is fully read. -/
def streamBufFullyRead (sb : StreamBuf) : Option (StreamBuf × Bool) :=
  match sb.len with
  | some len =>
    if 0 < len ∧ len ≤ sb.buf.length then
      if sb.buf.length - len ≤ sb.maxlen then
        some ({ sb with buf := sb.buf.take len, residual := sb.buf.drop len }, true)
      else none
    else (streamBufSetNext sb).map (·, false)
  | none => (streamBufSetNext sb).map (·, false)

def streamBufAdded (sb : StreamBuf) (added : Bytes) : Option (StreamBuf × Bool) :=
  match streamBufSize { sb with buf := sb.buf ++ added } with
  | (sb, false) => some (sb, false)
  | (sb, true) => streamBufFullyRead sb

def streamBufReadSetup (sb : StreamBuf) : Option StreamBuf := do
  let sb ←
    if sb.residual ≠ [] ∧ sb.residual_fully_formed = false then
      (streamBufAdded { sb with buf := sb.buf ++ sb.residual, residual := [] } []).map fun (sb, formed) =>
        { sb with residual_fully_formed := formed }
    else some sb
  if sb.residual_fully_formed then some sb else streamBufSetNext sb

inductive RecvError where
  | ECONNRESET
  | other
  deriving DecidableEq

/-- Of `struct link_socket` what a TCP connection reads with; behind `sd` is what it has still to bring. -/
structure LinkSocket where
  stream_buf : StreamBuf
  stream_reset : Bool
  sd : Source UInt8 RecvError

def linkSocketReadTcp (sock : LinkSocket) : Option (LinkSocket × Except RecvError Bytes) :=
  if sock.stream_buf.residual_fully_formed then
    some ({ sock with stream_buf := streamBufReset sock.stream_buf }, .ok sock.stream_buf.buf)
  else do
    let len ← sock.stream_buf.next
    match sock.sd.pull len with
    | (.error failure, sd) => some ({ sock with sd := sd }, .error failure)
    | (.ok [], sd) => some ({ sock with sd := sd, stream_reset := true }, .ok [])
    | (.ok (b :: received), sd) =>
      match streamBufAdded sock.stream_buf (b :: received) with
      | none => none
      | some (sb, true) => some ({ sock with sd := sd, stream_buf := streamBufReset sb }, .ok sb.buf)
      | some (sb, false) => some ({ sock with sd := sd, stream_buf := sb }, .ok [])

def socketConnectionReset (sock : LinkSocket) (status : Except RecvError Bytes) : Bool :=
  sock.stream_reset || sock.stream_buf.error ||
    match status with
    | .error failure => failure == .ECONNRESET
    | .ok _ => false

structure Connection where
  sock : LinkSocket
  closed : Bool
  packets : List Bytes

def takeIncoming (c : Connection) (sock : LinkSocket) (status : Except RecvError Bytes) : Connection :=
  if socketConnectionReset sock status then { c with sock := sock, closed := true }
  else
    match status with
    | .ok buf => { c with sock := sock, packets := if buf = [] then c.packets else c.packets ++ [buf] }
    | .error _ => { c with sock := sock }

/-- One round of waiting for the socket and `read_incoming_link`. -/
def readIncomingLink (c : Connection) (_ : Unit) : Option Connection :=
  if c.closed then some c
  else do
    let stream_buf ← streamBufReadSetup c.sock.stream_buf
    let (sock, status) ← linkSocketReadTcp { c.sock with stream_buf := stream_buf }
    some (takeIncoming c sock status)

def readRounds (rounds : Nat) (c : Connection) : Option Connection :=
  runs readIncomingLink c (List.replicate rounds ())

/-- What `link_socket_write_tcp` sends for a packet. -/
def linkSocketWriteTcp (maxlen : Nat) (buf : Bytes) : Option Bytes :=
  if buf.length % 2 ^ 16 ≤ maxlen then some (htonps buf.length ++ buf) else none

end OpenVpn
