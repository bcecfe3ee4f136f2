import Mathlib.Data.List.GetD
import Mathlib.Data.Nat.Digits.Lemmas
import SeguridadRedes.C.Process

namespace Crypto

open C (Bytes)

def os2ip (bytes : Bytes) : Nat := Nat.ofDigits 256 (bytes.reverse.map UInt8.toNat)

/-- The last `size` big-endian bytes of an integer. -/
def i2osp : Nat → Nat → Bytes
  | 0, _ => []
  | size + 1, n => i2osp size (n / 256) ++ [UInt8.ofNat (n % 256)]

@[simp] theorem i2osp_length (size n : Nat) : (i2osp size n).length = size := by
  induction size generalizing n with
  | zero => rfl
  | succ size ih => simp [i2osp, ih]

theorem os2ip_append_byte (bytes : Bytes) (b : UInt8) : os2ip (bytes ++ [b]) = b.toNat + 256 * os2ip bytes := by
  simp [os2ip, Nat.ofDigits_cons]

theorem os2ip_i2osp {size n : Nat} (fits : n < 256 ^ size) : os2ip (i2osp size n) = n := by
  induction size generalizing n with
  | zero =>
    have zero : n = 0 := by simpa using fits
    subst zero
    rfl
  | succ size ih =>
    have smaller : n / 256 < 256 ^ size := by
      rw [Nat.div_lt_iff_lt_mul (by decide)]
      rwa [Nat.pow_succ] at fits
    have last : (UInt8.ofNat (n % 256)).toNat = n % 256 := by simp
    rw [i2osp, os2ip_append_byte, ih smaller, last, Nat.mod_add_div]

theorem digits_lt {bytes : Bytes} {d : Nat} (member : d ∈ bytes.reverse.map UInt8.toNat) : d < 256 := by
  obtain ⟨b, _, rfl⟩ := List.mem_map.mp member
  exact b.toNat_lt

theorem os2ip_lt (bytes : Bytes) : os2ip bytes < 256 ^ bytes.length := by
  have bounded : os2ip bytes < 256 ^ (bytes.reverse.map UInt8.toNat).length :=
    Nat.ofDigits_lt_base_pow_length (by decide) fun _ member => digits_lt member
  rwa [List.length_map, List.length_reverse] at bounded

theorem os2ip_injective {bytes other : Bytes} (size : bytes.length = other.length)
    (same : os2ip bytes = os2ip other) : bytes = other := by
  have digits := Nat.ofDigits_inj_of_len_eq (by decide : 1 < 256) (by simpa using size)
    (fun d member => digits_lt member) (fun d member => digits_lt member) same
  have unmapped := List.map_injective_iff.mpr (fun _ _ => UInt8.toNat_inj.mp) digits
  exact List.reverse_injective unmapped

theorem i2osp_os2ip {size : Nat} {bytes : Bytes} (length : bytes.length = size) :
    i2osp size (os2ip bytes) = bytes := by
  subst length
  exact os2ip_injective (i2osp_length _ _) (os2ip_i2osp (os2ip_lt bytes))

theorem os2ip_zero_cons (bytes : Bytes) : os2ip (0 :: bytes) = os2ip bytes := by
  simp [os2ip, Nat.ofDigits_append]

/-- An RSA key pair by its raw operations on the integers below the modulus. -/
structure RawKeyPair where
  n : Nat
  privateOp : Nat → Nat
  publicOp : Nat → Nat
  private_lt : ∀ m, m < n → privateOp m < n
  public_private : ∀ m, m < n → publicOp (privateOp m) = m

def rawBlock (size : Nat) (op : Nat → Nat) (block : Bytes) : Bytes := i2osp size (op (os2ip block))

@[simp] theorem rawBlock_length (size : Nat) (op : Nat → Nat) (block : Bytes) :
    (rawBlock size op block).length = size := i2osp_length _ _

namespace RawKeyPair

variable (pair : RawKeyPair) {size : Nat} {block : Bytes}

theorem os2ip_privateBlock (fits : pair.n ≤ 256 ^ size) (inRange : os2ip block < pair.n) :
    os2ip (rawBlock size pair.privateOp block) = pair.privateOp (os2ip block) :=
  os2ip_i2osp (Nat.lt_of_lt_of_le (pair.private_lt _ inRange) fits)

theorem privateBlock_inRange (fits : pair.n ≤ 256 ^ size) (inRange : os2ip block < pair.n) :
    os2ip (rawBlock size pair.privateOp block) < pair.n := by
  rw [pair.os2ip_privateBlock fits inRange]
  exact pair.private_lt _ inRange

theorem public_privateBlock (fits : pair.n ≤ 256 ^ size) (inRange : os2ip block < pair.n)
    (length : block.length = size) :
    rawBlock size pair.publicOp (rawBlock size pair.privateOp block) = block := by
  rw [rawBlock, pair.os2ip_privateBlock fits inRange, pair.public_private _ inRange, i2osp_os2ip length]

end RawKeyPair

/-- The encoded message of EMSA-PKCS1-v1_5 for a `T` already built. -/
def emsaEncode (size : Nat) (T : Bytes) : Bytes :=
  [0x00, 0x01] ++ List.replicate (size - T.length - 3) 0xff ++ [0x00] ++ T

theorem emsaEncode_length {size : Nat} {T : Bytes} (room : T.length + 3 ≤ size) :
    (emsaEncode size T).length = size := by
  simp only [emsaEncode, List.length_append, List.length_replicate, List.length_cons, List.length_nil]
  omega

theorem emsaEncode_injective {size : Nat} {T T' : Bytes} (length : T.length = T'.length)
    (same : emsaEncode size T = emsaEncode size T') : T = T' := by
  simp only [emsaEncode, length] at same
  exact List.append_cancel_left same

theorem getD_emsaEncode {size : Nat} {T : Bytes} (room : T.length + 3 ≤ size) (i : Nat) :
    (emsaEncode size T).getD i 0 =
      if i < size - T.length then
        if i = 0 ∨ i = size - T.length - 1 then 0x00 else if i = 1 then 0x01 else 0xff
      else T.getD (i - (size - T.length)) 0 := by
  have header : ([0x00, 0x01] ++ List.replicate (size - T.length - 3) 0xff ++ [0x00] : Bytes).length =
      size - T.length := by
    simp only [List.length_append, List.length_replicate, List.length_cons, List.length_nil]
    omega
  by_cases inside : i < size - T.length
  · rw [if_pos inside, emsaEncode, List.getD_append _ _ _ _ (by omega)]
    by_cases last : i = size - T.length - 1
    · rw [if_pos (Or.inr last), List.getD_append_right _ _ _ _ (by simp; omega)]
      simp
    · rw [List.getD_append _ _ _ _ (by simp; omega)]
      by_cases start : i < 2
      · have position : i = 0 ∨ i = 1 := by omega
        rcases position with rfl | rfl
        · rfl
        · rw [if_neg (by omega)]
          rfl
      · rw [if_neg (by omega), if_neg (by omega), List.getD_append_right _ _ _ _ (by simp; omega),
          List.getD_replicate _ (by simp; omega)]
  · rw [if_neg inside, emsaEncode, List.getD_append_right _ _ _ _ (by omega), header]

/-- The DigestInfo of SHA-512 up to the digest (RFC 8017, section 9.2). -/
def sha512DigestInfo : Bytes :=
  [0x30, 0x51, 0x30, 0x0d, 0x06, 0x09, 0x60, 0x86, 0x48, 0x01, 0x65, 0x03, 0x04, 0x02, 0x03, 0x05, 0x00,
    0x04, 0x40]

/-- The leading zero keeps an encoded message below every modulus of its own size in bytes. -/
theorem os2ip_emsaEncode_lt {size : Nat} {T : Bytes} (room : T.length + 3 ≤ size) :
    os2ip (emsaEncode size T) < 256 ^ (size - 1) := by
  have length := emsaEncode_length room
  have split : emsaEncode size T =
      0 :: ([0x01] ++ List.replicate (size - T.length - 3) 0xff ++ [0x00] ++ T) := rfl
  rw [split, List.length_cons] at length
  rw [split, os2ip_zero_cons, show size - 1 = _ from by rw [← length, Nat.add_sub_cancel]]
  exact os2ip_lt _

end Crypto
