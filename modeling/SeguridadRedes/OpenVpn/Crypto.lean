import SeguridadRedes.OpenVpn.PacketId

namespace OpenVpn

open C (Bytes)
open Crypto (i2osp os2ip i2osp_length os2ip_i2osp)

section Parameters

inductive CipherMode where
  | EVP_CIPH_CBC_MODE
  | EVP_CIPH_CFB_MODE
  | EVP_CIPH_OFB_MODE
  deriving DecidableEq

/-- An initialised `EVP_CIPHER_CTX`: the output of the update and of the final call, or what failed. -/
structure Cipher where
  mode : CipherMode
  iv_size : Nat
  encrypt : Bytes → Bytes → Bytes × Bytes
  decrypt : Bytes → Bytes → Except String Bytes

structure Hmac where
  size : Nat
  mac : Bytes → Bytes
  mac_length : ∀ text, (mac text).length = size

structure KeyCtx where
  cipher : Option Cipher
  hmac : Option Hmac

structure KeyCtxBi where
  encrypt : KeyCtx
  decrypt : KeyCtx

/-- What of `struct crypto_options` stays the same, the flags by their names. -/
structure CryptoOptions where
  key_ctx_bi : Option KeyCtxBi
  packet_id_long_form : Bool
  use_iv : Bool
  ignore_packet_id : Bool

structure PacketId (seq_backtrack : Nat) where
  send : PacketIdSend
  receiver : PacketIdRec seq_backtrack

/-- What of `struct crypto_options` changes with each packet. -/
structure CryptoState (seq_backtrack : Nat) where
  packet_id : Option (PacketId seq_backtrack)
  pid_persist : Option PacketIdPersist

end Parameters

def htontime (time : Int) : Bytes := i2osp 4 (time % 2 ^ 32).toNat

def ntohtime (net_time : Bytes) : Int := os2ip net_time

@[simp] theorem htontime_length (time : Int) : (htontime time).length = 4 := i2osp_length 4 _

theorem ntohtime_htontime {time : Int} (low : 0 ≤ time) (high : time < 2 ^ 32) : ntohtime (htontime time) = time := by
  have same : time % 2 ^ 32 = time := Int.emod_eq_of_lt low high
  unfold ntohtime htontime
  rw [same, os2ip_i2osp]
  · omega
  · omega

def packetIdRead (buf : Bytes) (long_form : Bool) : Option (PacketIdNet × Bytes) :=
  match bufRead buf 4 with
  | none => none
  | some (net_id, buf) =>
    if long_form then
      match bufRead buf 4 with
      | none => none
      | some (net_time, buf) => some (⟨ntohpid net_id, ntohtime net_time⟩, buf)
    else some (⟨ntohpid net_id, 0⟩, buf)

/-- What `packet_id_write` puts before or after what the buffer holds. -/
def packetIdWrite (pin : PacketIdNet) (long_form : Bool) : Bytes :=
  htonpid pin.id ++ if long_form then htontime pin.time else []

theorem packetIdRead_write (pin : PacketIdNet) (long_form : Bool) (rest : Bytes) :
    packetIdRead (packetIdWrite pin long_form ++ rest) long_form = some (pin.onWire long_form, rest) := by
  have bounds : 0 ≤ pin.time % 2 ^ 32 ∧ pin.time % 2 ^ 32 < 2 ^ 32 :=
    ⟨Int.emod_nonneg _ (by decide), Int.emod_lt_of_pos _ (by decide)⟩
  have time : ntohtime (htontime pin.time) = pin.time % 2 ^ 32 := by
    have again := ntohtime_htontime bounds.1 bounds.2
    unfold htontime at again ⊢
    rwa [Int.emod_emod_of_dvd _ (dvd_refl _)] at again
  unfold packetIdRead packetIdWrite PacketIdNet.onWire
  rw [List.append_assoc, bufRead_append (htonpid_length _)]
  cases long_form with
  | true => simp [bufRead_append (htontime_length _), time]
  | false => simp

variable {seq_backtrack : Nat}

section Encrypt

/-- `none` is a failed ASSERT, here and in what follows. -/
def putPacketId (state : CryptoState seq_backtrack) (now : Int) (long_form : Bool) (buf : Bytes) :
    Option (CryptoState seq_backtrack × Bytes) :=
  match state.packet_id with
  | none => some (state, buf)
  | some packet_id => do
    let (send, pin) ← packetIdAllocOutgoing packet_id.send now long_form
    some ({ state with packet_id := some { packet_id with send := send } }, packetIdWrite pin long_form ++ buf)

def ivOfPacketId (pin : PacketIdNet) (iv_size : Nat) : Option Bytes :=
  if (packetIdWrite pin true).length ≤ iv_size then
    some (packetIdWrite pin true ++ List.replicate (iv_size - (packetIdWrite pin true).length) 0)
  else none

def encryptText (cipher : Cipher) (use_iv : Bool) (iv_buf buf : Bytes) : Option Bytes :=
  let (update, final) := cipher.encrypt iv_buf buf
  if final.length = cipher.iv_size then some ((if use_iv then iv_buf else []) ++ (update ++ final)) else none

def encryptWork (opt : CryptoOptions) (cipher : Option Cipher) (state : CryptoState seq_backtrack) (prng_bytes : Bytes)
    (now : Int) (buf : Bytes) : Option (CryptoState seq_backtrack × Bytes) :=
  match cipher with
  | some cipher =>
    match cipher.mode with
    | .EVP_CIPH_CBC_MODE => do
      let iv_buf := if opt.use_iv then prng_bytes else List.replicate cipher.iv_size 0
      let (state, buf) ← putPacketId state now opt.packet_id_long_form buf
      let work ← encryptText cipher opt.use_iv iv_buf buf
      some (state, work)
    | .EVP_CIPH_CFB_MODE | .EVP_CIPH_OFB_MODE =>
      if opt.use_iv then do
        let packet_id ← state.packet_id
        let (send, pin) ← packetIdAllocOutgoing packet_id.send now true
        let iv_buf ← ivOfPacketId pin cipher.iv_size
        let work ← encryptText cipher opt.use_iv iv_buf buf
        some ({ state with packet_id := some { packet_id with send := send } }, work)
      else none
  | none => putPacketId state now opt.packet_id_long_form buf

def prependHmac (hmac : Option Hmac) (work : Bytes) : Bytes :=
  match hmac with
  | none => work
  | some hmac => hmac.mac work ++ work

def openvpnEncrypt (opt : CryptoOptions) (state : CryptoState seq_backtrack) (prng_bytes : Bytes) (now : Int)
    (buf : Bytes) : Option (CryptoState seq_backtrack × Bytes) :=
  match opt.key_ctx_bi with
  | none => some (state, buf)
  | some key_ctx_bi =>
    if buf.length = 0 then some (state, buf)
    else do
      let (state, work) ← encryptWork opt key_ctx_bi.encrypt.cipher state prng_bytes now buf
      some (state, prependHmac key_ctx_bi.encrypt.hmac work)

end Encrypt

section Decrypt

def errorPrefix : String := "Authenticate/Decrypt packet error"

def CRYPT_ERROR {α : Type} (format : String) : Except String α := .error ( errorPrefix ++ ": " ++ format)

def checkHmac (hmac : Option Hmac) (buf : Bytes) : Except String Bytes :=
  match hmac with
  | none => .ok buf
  | some hmac =>
    if buf.length < hmac.size then CRYPT_ERROR "missing authentication info"
    else if hmac.mac (buf.drop hmac.size) ≠ buf.take hmac.size then CRYPT_ERROR "packet HMAC authentication failed"
    else .ok (buf.drop hmac.size)

def decryptText (cipher : Cipher) (use_iv : Bool) (buf : Bytes) : Except String (Bytes × Bytes) :=
  if use_iv = true ∧ buf.length < cipher.iv_size then CRYPT_ERROR "missing IV info"
  else
    let iv_buf := if use_iv then buf.take cipher.iv_size else List.replicate cipher.iv_size 0
    let buf := if use_iv then buf.drop cipher.iv_size else buf
    if buf.length < 1 then CRYPT_ERROR "missing payload"
    else
      match cipher.decrypt iv_buf buf with
      | .error failed => CRYPT_ERROR failed
      | .ok work => .ok (iv_buf, work)

/-- The packet id, if the packet has one to check, and the payload. -/
def decryptWork (opt : CryptoOptions) (cipher : Option Cipher) (has_packet_id : Bool) (buf : Bytes) :
    Option (Except String (Option PacketIdNet × Bytes)) :=
  match cipher with
  | some cipher =>
    match decryptText cipher opt.use_iv buf with
    | .error failed => some (.error failed)
    | .ok (iv_buf, work) =>
      match cipher.mode with
      | .EVP_CIPH_CBC_MODE =>
        if has_packet_id then
          match packetIdRead work opt.packet_id_long_form with
          | none => some (CRYPT_ERROR "error reading CBC packet-id")
          | some (pin, work) => some (.ok (some pin, work))
        else some (.ok (none, work))
      | .EVP_CIPH_CFB_MODE | .EVP_CIPH_OFB_MODE =>
        if opt.use_iv = true ∧ has_packet_id = true then
          match packetIdRead iv_buf true with
          | none => some (CRYPT_ERROR "error reading CFB/OFB packet-id")
          | some (pin, _) => some (.ok (some pin, work))
        else none
  | none =>
    if has_packet_id then
      match packetIdRead buf opt.packet_id_long_form with
      | none => some (CRYPT_ERROR "error reading packet-id")
      | some (pin, work) => some (.ok (if opt.ignore_packet_id then none else some pin, work))
    else some (.ok (none, buf))

/-- The part of `openvpn_decrypt` that looks for replays. -/
def checkPacketId (opt : CryptoOptions) (state : CryptoState seq_backtrack) (now : Int)
    (have_pin : Option PacketIdNet)
    (work : Bytes) : Option (CryptoState seq_backtrack × Except String Bytes) :=
  match have_pin, state.packet_id with
  | none, _ => some (state, .ok work)
  | some _, none => none
  | some pin, some packet_id =>
    match openvpnDecryptPacketId packet_id.receiver pin now with
    | none => none
    | some (receiver, true) =>
      some (⟨some { packet_id with receiver := receiver },
        if opt.packet_id_long_form then state.pid_persist.map (packetIdPersistSaveObj · receiver)
        else state.pid_persist⟩, .ok work)
    | some (receiver, false) =>
      some ({ state with packet_id := some { packet_id with receiver := receiver } },
        CRYPT_ERROR "bad packet ID (may be a replay)")

def openvpnDecrypt (opt : CryptoOptions) (state : CryptoState seq_backtrack) (now : Int) (buf : Bytes) :
    Option (CryptoState seq_backtrack × Except String Bytes) :=
  match opt.key_ctx_bi with
  | none => some (state, .ok buf)
  | some key_ctx_bi =>
    if buf.length = 0 then some (state, .ok buf)
    else
      match checkHmac key_ctx_bi.decrypt.hmac buf with
      | .error failed => some (state, .error failed)
      | .ok buf =>
        match decryptWork opt key_ctx_bi.decrypt.cipher state.packet_id.isSome buf with
        | none => none
        | some (.error failed) => some (state, .error failed)
        | some (.ok (have_pin, work)) => checkPacketId opt state now have_pin work

end Decrypt

end OpenVpn
