import SeguridadRedes.Crypto.Pkcs1

namespace OpenVpn

open C (Bytes)
open Crypto (i2osp os2ip i2osp_length os2ip_i2osp i2osp_os2ip os2ip_lt)

/-- The conversion to `int`. -/
def asInt (x : Int) : Int := x.bmod (2 ^ 32)

theorem asInt_small {x : Int} (low : -2 ^ 31 ≤ x) (high : x < 2 ^ 31) : asInt x = x := by
  unfold asInt
  exact Int.bmod_eq_of_le (by omega) (by omega)

def bufRead (buf : Bytes) (size : Nat) : Option (Bytes × Bytes) :=
  if buf.length < size then none else some (buf.take size, buf.drop size)

theorem bufRead_append {front : Bytes} {size : Nat} (length : front.length = size) (rest : Bytes) :
    bufRead (front ++ rest) size = some (front, rest) := by
  subst length
  simp [bufRead]

theorem bufRead_eq_some {buf front rest : Bytes} {size : Nat} :
    bufRead buf size = some (front, rest) ↔ buf = front ++ rest ∧ front.length = size := by
  constructor
  · intro read
    unfold bufRead at read
    split at read
    · cases read
    · rename_i enough
      obtain ⟨rfl, rfl⟩ : buf.take size = front ∧ buf.drop size = rest := by simpa using read
      refine ⟨(List.take_append_drop size buf).symm, ?_⟩
      rw [List.length_take]
      omega
  · rintro ⟨rfl, length⟩
    exact bufRead_append length rest

def htonpid (pid : UInt32) : Bytes := i2osp 4 pid.toNat

def ntohpid (net_pid : Bytes) : UInt32 := UInt32.ofNat (os2ip net_pid)

@[simp] theorem htonpid_length (pid : UInt32) : (htonpid pid).length = 4 := i2osp_length 4 _

@[simp] theorem ntohpid_htonpid (pid : UInt32) : ntohpid (htonpid pid) = pid := by
  unfold ntohpid htonpid
  rw [os2ip_i2osp (by simpa using pid.toNat_lt)]
  simp

theorem htonpid_ntohpid {net_pid : Bytes} (length : net_pid.length = 4) :
    htonpid (ntohpid net_pid) = net_pid := by
  have small := os2ip_lt net_pid
  rw [length] at small
  unfold htonpid ntohpid
  rw [UInt32.toNat_ofNat_of_lt' (by simpa [UInt32.size] using small)]
  exact i2osp_os2ip length

/-- `struct session_id`. -/
structure SessionId where
  id : Bytes
  size : id.length = 8
  deriving DecidableEq

def xSessionIdZero : SessionId := ⟨List.replicate 8 0, rfl⟩

def sessionIdEqual (sid1 sid2 : SessionId) : Bool := decide (sid1.id = sid2.id)

def sessionIdDefined (sid1 : SessionId) : Bool := decide (sid1.id ≠ xSessionIdZero.id)

def sessionIdRead (buf : Bytes) : Option (SessionId × Bytes) :=
  if enough : 8 ≤ buf.length then some (⟨buf.take 8, by simpa using enough⟩, buf.drop 8) else none

theorem sessionIdRead_append (sid : SessionId) (rest : Bytes) :
    sessionIdRead (sid.id ++ rest) = some (sid, rest) := by
  obtain ⟨id, size⟩ := sid
  have enough : 8 ≤ (id ++ rest).length := by
    rw [List.length_append]
    omega
  unfold sessionIdRead
  rw [dif_pos enough]
  simp [← size]

theorem sessionIdRead_eq_some {buf rest : Bytes} {sid : SessionId} :
    sessionIdRead buf = some (sid, rest) ↔ buf = sid.id ++ rest := by
  constructor
  · intro read
    unfold sessionIdRead at read
    split at read
    · obtain ⟨rfl, rfl⟩ := by simpa using read
      exact (List.take_append_drop 8 buf).symm
    · cases read
  · rintro rfl
    exact sessionIdRead_append sid rest

end OpenVpn
