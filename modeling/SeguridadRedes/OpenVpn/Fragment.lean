import SeguridadRedes.C.Pieces
import SeguridadRedes.OpenVpn.CircList
import SeguridadRedes.OpenVpn.Wire

namespace OpenVpn

open C (Bytes blit put)
open Crypto (i2osp os2ip i2osp_length os2ip_i2osp)

def moduloSubtract (x y mod : Int) : Int :=
  let d1 := x - y
  let d2 := (if x > y then -mod else mod) + d1
  if d1.natAbs > d2.natAbs then d2 else d1

def N_FRAG_BUF : Nat := 25

def FRAG_TTL_SEC : Int := 10

def MAX_FRAGS : Nat := 32

def N_SEQ_ID : Nat := 256

section Header

def FRAG_TYPE_MASK : Nat := 0x00000003
def FRAG_TYPE_SHIFT : Nat := 0
def FRAG_WHOLE : Nat := 0
def FRAG_YES_NOTLAST : Nat := 1
def FRAG_YES_LAST : Nat := 2
def FRAG_TEST : Nat := 3
def FRAG_SEQ_ID_MASK : Nat := 0x000000ff
def FRAG_SEQ_ID_SHIFT : Nat := 2
def FRAG_ID_MASK : Nat := 0x0000001f
def FRAG_ID_SHIFT : Nat := 10
def FRAG_SIZE_MASK : Nat := 0x00003fff
def FRAG_SIZE_SHIFT : Nat := 15
def FRAG_SIZE_ROUND_SHIFT : Nat := 2
def FRAG_SIZE_ROUND_MASK : Nat := 1 <<< FRAG_SIZE_ROUND_SHIFT - 1

def htonFragmentHeaderType (flags : Nat) : Bytes := i2osp 4 flags

def ntohFragmentHeaderType (net_flags : Bytes) : Nat := os2ip net_flags

def fragmentFlags (type seq_id frag_id frag_size : Nat) : Nat :=
  let flags := (type &&& FRAG_TYPE_MASK) <<< FRAG_TYPE_SHIFT ||| (seq_id &&& FRAG_SEQ_ID_MASK) <<< FRAG_SEQ_ID_SHIFT |||
    (frag_id &&& FRAG_ID_MASK) <<< FRAG_ID_SHIFT
  if type = FRAG_WHOLE ∨ type = FRAG_YES_NOTLAST then flags
  else flags ||| (frag_size >>> FRAG_SIZE_ROUND_SHIFT &&& FRAG_SIZE_MASK) <<< FRAG_SIZE_SHIFT

def fragmentPrependFlags (buf : Bytes) (type seq_id frag_id frag_size : Nat) : Bytes :=
  htonFragmentHeaderType (fragmentFlags type seq_id frag_id frag_size) ++ buf

theorem seq_id_lt (flags : Nat) : flags >>> FRAG_SEQ_ID_SHIFT &&& FRAG_SEQ_ID_MASK < N_SEQ_ID :=
  Nat.lt_succ_of_le Nat.and_le_right

end Header

section Incoming

/-- `struct fragment`; of its buffer the part behind the headroom. -/
structure Fragment (capacity : Nat) where
  defined : Bool
  max_frag_size : Nat
  map : BitVec 32
  timestamp : Int
  buf : Vector UInt8 capacity
  len : Nat
  len_le : len ≤ capacity

def FRAG_MAP_MASK : BitVec 32 := 0xFFFFFFFF

structure FragmentList (capacity : Nat) where
  seq_id : Fin N_SEQ_ID
  index : Fin N_FRAG_BUF
  fragments : Vector (Fragment capacity) N_FRAG_BUF

variable {capacity : Nat}

/-- `modulo_add` where its ASSERT holds. -/
def moduloAddFin {mod : Nat} (x : Fin mod) (y : Int) (inside : -mod ≤ y ∧ y ≤ mod) : Fin mod :=
  ⟨(moduloAdd x y mod).toNat, by
    have among := @moduloAdd_inside x y mod (by omega) (by omega) inside.1 inside.2
    omega⟩

theorem seq_step : -(N_SEQ_ID : Int) ≤ 1 ∧ 1 ≤ (N_SEQ_ID : Int) := by decide

theorem index_step : -(N_FRAG_BUF : Int) ≤ 1 ∧ 1 ≤ (N_FRAG_BUF : Int) := by decide

def Fragment.undefine (frag : Fragment capacity) : Fragment capacity := { frag with defined := false }

/-- The loop of `fragment_list_get_buf` that moves the list on. -/
def fragmentListAdvance (list : FragmentList capacity) (diff : Nat) : FragmentList capacity :=
  match diff with
  | 0 => list
  | diff + 1 =>
    let index := moduloAddFin list.index 1 index_step
    fragmentListAdvance
      { seq_id := moduloAddFin list.seq_id 1 seq_step
        index := index
        fragments := put list.fragments index (list.fragments.get index).undefine } diff

/-- The buffer is given by its place in the list. -/
def fragmentListGetBuf (list : FragmentList capacity) (seq_id : Fin N_SEQ_ID) :
    FragmentList capacity × Fin N_FRAG_BUF :=
  let diff := moduloSubtract seq_id list.seq_id N_SEQ_ID
  if far : diff.natAbs ≥ N_FRAG_BUF then
    (⟨seq_id, ⟨0, by decide⟩, list.fragments.map Fragment.undefine⟩, moduloAddFin ⟨0, by decide⟩ 0 (by decide))
  else
    let list := fragmentListAdvance list diff.toNat
    (list, moduloAddFin list.index (if diff > 0 then 0 else diff) (by split <;> omega))

def bufCopyRange (dest : Fragment capacity) (dest_index : Nat) (src : Bytes) : Option (Fragment capacity) :=
  if fits : dest_index + src.length > capacity then none
  else
    some { dest with
      buf := blit dest.buf dest_index src
      len := if dest_index + src.length > dest.len then dest_index + src.length else dest.len
      len_le := by
        have already := dest.len_le
        split <;> omega }

/-- The part of `fragment_incoming` for the first fragment of a datagram. -/
def fragmentBegin (frag : Fragment capacity) (size : Nat) : Fragment capacity :=
  if frag.defined = false ∨ frag.defined = true ∧ frag.max_frag_size ≠ size then
    { frag with defined := true, max_frag_size := size, map := 0, len := 0, len_le := Nat.zero_le _ }
  else frag

/-- The part of `fragment_incoming` that joins a fragment with those received so far. -/
def fragmentJoin (frag : Fragment capacity) (frag_type n size : Nat) (now : Int) (buf : Bytes) :
    Fragment capacity × Except String Bytes :=
  let frag := fragmentBegin frag size
  match bufCopyRange frag (n * size) buf with
  | none => (frag, .error "fragment buffer overflow")
  | some frag =>
    let frag :=
      { frag with
        map := frag.map ||| (if frag_type = FRAG_YES_LAST then FRAG_MAP_MASK else 1) <<< n
        timestamp := now }
    if frag.map &&& FRAG_MAP_MASK = FRAG_MAP_MASK then (frag.undefine, .ok (frag.buf.toList.take frag.len))
    else (frag, .ok [])

def fragmentIncoming (list : FragmentList capacity) (now : Int) (buf : Bytes) :
    FragmentList capacity × Except String Bytes :=
  if buf.length > 0 then
    match bufRead buf 4 with
    | none => (list, .error "flags not found in packet")
    | some (net_flags, buf) =>
      let flags := ntohFragmentHeaderType net_flags
      let frag_type := flags >>> FRAG_TYPE_SHIFT &&& FRAG_TYPE_MASK
      if frag_type = FRAG_WHOLE then
        if flags &&& (FRAG_SEQ_ID_MASK ||| FRAG_ID_MASK) ≠ 0 then (list, .error "spurrious FRAG_WHOLE flags")
        else (list, .ok buf)
      else if frag_type = FRAG_YES_NOTLAST ∨ frag_type = FRAG_YES_LAST then
        let seq_id : Fin N_SEQ_ID :=
          ⟨flags >>> FRAG_SEQ_ID_SHIFT &&& FRAG_SEQ_ID_MASK, seq_id_lt flags⟩
        let n := flags >>> FRAG_ID_SHIFT &&& FRAG_ID_MASK
        let size :=
          if frag_type = FRAG_YES_LAST then (flags >>> FRAG_SIZE_SHIFT &&& FRAG_SIZE_MASK) <<< FRAG_SIZE_ROUND_SHIFT
          else buf.length
        let (list, i) := fragmentListGetBuf list seq_id
        if size &&& FRAG_SIZE_ROUND_MASK ≠ 0 then (list, .error "bad fragment size")
        else
          let (frag, outcome) := fragmentJoin (list.fragments.get i) frag_type n size now buf
          ({ list with fragments := put list.fragments i frag }, outcome)
      else if frag_type = FRAG_TEST then (list, .error "FRAG_TEST not implemented")
      else (list, .error "unknown fragment type")
  else (list, .ok buf)

/-- `fragment_wakeup`. -/
def fragmentTtlReap (list : FragmentList capacity) (now : Int) : FragmentList capacity :=
  { list with
    fragments := list.fragments.map fun frag =>
      if frag.defined = true ∧ frag.timestamp + FRAG_TTL_SEC ≤ now then frag.undefine else frag }

end Incoming

section Outgoing

/-- The part of `struct fragment_master` that sends. -/
structure FragmentOutgoing where
  outgoing_seq_id : Fin N_SEQ_ID
  outgoing_frag_size : Nat
  outgoing_frag_id : Nat
  outgoing : Bytes

/-- `x & ~FRAG_SIZE_ROUND_MASK`. -/
def roundDown (x : Nat) : Nat := x - (x &&& FRAG_SIZE_ROUND_MASK)

def optimalFragmentSize (len max_frag_size : Nat) : Nat :=
  let mfs_aligned := roundDown max_frag_size
  let div := len / mfs_aligned
  let mod := len % mfs_aligned
  if div > 0 ∧ mod > 0 ∧ mod < mfs_aligned * 3 / 4 then
    min mfs_aligned (roundDown (max_frag_size - (max_frag_size - mod) / (div + 1) + FRAG_SIZE_ROUND_MASK))
  else mfs_aligned

def fragmentReadyToSend (f : FragmentOutgoing) : FragmentOutgoing × Option Bytes :=
  if f.outgoing.length > 0 then
    let last := f.outgoing.length ≤ f.outgoing_frag_size
    let size := if last then f.outgoing.length else f.outgoing_frag_size
    ({ f with outgoing_frag_id := f.outgoing_frag_id + 1, outgoing := f.outgoing.drop size },
      some (fragmentPrependFlags (f.outgoing.take size)
        (if last then FRAG_YES_LAST else FRAG_YES_NOTLAST) f.outgoing_seq_id
        f.outgoing_frag_id f.outgoing_frag_size))
  else (f, none)

/-- `payload_size` is `PAYLOAD_SIZE_DYNAMIC(frame)`; `none` is a failed ASSERT, or a division by zero. -/
def fragmentOutgoing (f : FragmentOutgoing) (payload_size : Nat) (buf : Bytes) :
    Option (FragmentOutgoing × Except String Bytes) :=
  if buf.length > 0 then
    if buf.length > payload_size then
      if roundDown payload_size = 0 then none
      else
        let f := { f with outgoing_frag_size := optimalFragmentSize buf.length payload_size }
        if buf.length > f.outgoing_frag_size * MAX_FRAGS then
          some (f, .error "too many fragments would be required to send datagram")
        else
          let f :=
            { f with
              outgoing := buf
              outgoing_seq_id := moduloAddFin f.outgoing_seq_id 1 seq_step
              outgoing_frag_id := 0 }
          match fragmentReadyToSend f with
          | (f, some buf) => some (f, .ok buf)
          | (_, none) => none
    else some (f, .ok (fragmentPrependFlags buf FRAG_WHOLE 0 0 0))
  else some (f, .ok buf)

end Outgoing

end OpenVpn
