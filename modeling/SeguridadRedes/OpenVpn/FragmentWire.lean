import SeguridadRedes.OpenVpn.Fragment

namespace OpenVpn

open C (Bytes put lastPiece)
open Crypto (i2osp os2ip i2osp_length os2ip_i2osp)

section Header

/-- The header of a fragment: of which datagram it is, which piece of it, and how long its pieces are. -/
structure FragmentHeader where
  frag_type : Nat
  seq_id : Fin N_SEQ_ID
  frag_id : Nat
  frag_size : Nat
  kind : frag_type = FRAG_YES_NOTLAST ∨ frag_type = FRAG_YES_LAST
  id_lt : frag_id < MAX_FRAGS
  size_lt : frag_size < 2 ^ 16
  aligned : frag_size % 4 = 0

def FragmentHeader.flags (header : FragmentHeader) : Nat :=
  fragmentFlags header.frag_type header.seq_id header.frag_id header.frag_size

theorem mask_eq_mod (x n : Nat) : x &&& (2 ^ n - 1) = x % 2 ^ n := Nat.and_two_pow_sub_one_eq_mod x n

theorem type_field (x : Nat) : x >>> FRAG_TYPE_SHIFT &&& FRAG_TYPE_MASK = x % 4 := mask_eq_mod x 2

theorem seq_field (x : Nat) : x >>> FRAG_SEQ_ID_SHIFT &&& FRAG_SEQ_ID_MASK = x / 4 % 256 := by
  rw [Nat.shiftRight_eq_div_pow]
  exact mask_eq_mod _ 8

theorem id_field (x : Nat) : x >>> FRAG_ID_SHIFT &&& FRAG_ID_MASK = x / 1024 % 32 := by
  rw [Nat.shiftRight_eq_div_pow]
  exact mask_eq_mod _ 5

theorem size_field (x : Nat) : x >>> FRAG_SIZE_SHIFT &&& FRAG_SIZE_MASK = x / 32768 % 16384 := by
  rw [Nat.shiftRight_eq_div_pow]
  exact mask_eq_mod _ 14

theorem round_field (x : Nat) : x &&& FRAG_SIZE_ROUND_MASK = x % 4 := mask_eq_mod x 2

theorem or_fields {low : Nat} (n high : Nat) (small : low < 2 ^ n) : low ||| high <<< n = low + high * 2 ^ n := by
  rw [Nat.or_comm, ← Nat.shiftLeft_add_eq_or_of_lt small, Nat.shiftLeft_eq, Nat.add_comm]

theorem first_flags (type seq_id frag_id : Nat) :
    (type &&& FRAG_TYPE_MASK) <<< FRAG_TYPE_SHIFT ||| (seq_id &&& FRAG_SEQ_ID_MASK) <<< FRAG_SEQ_ID_SHIFT |||
        (frag_id &&& FRAG_ID_MASK) <<< FRAG_ID_SHIFT =
      type % 4 + seq_id % 256 * 4 + frag_id % 32 * 1024 := by
  have kind : (type &&& FRAG_TYPE_MASK) <<< FRAG_TYPE_SHIFT = type % 4 := mask_eq_mod type 2
  have seq : seq_id &&& FRAG_SEQ_ID_MASK = seq_id % 256 := mask_eq_mod seq_id 8
  have id : frag_id &&& FRAG_ID_MASK = frag_id % 32 := mask_eq_mod frag_id 5
  have low := @or_fields (type % 4) FRAG_SEQ_ID_SHIFT (seq_id % 256) (by unfold FRAG_SEQ_ID_SHIFT; omega)
  have more := @or_fields (type % 4 + seq_id % 256 * 4) FRAG_ID_SHIFT (frag_id % 32) (by unfold FRAG_ID_SHIFT; omega)
  rw [kind, seq, id, low]
  exact more

theorem FragmentHeader.flags_eq (header : FragmentHeader) :
    header.flags = header.frag_type + header.seq_id * 4 + header.frag_id * 1024 +
      if header.frag_type = FRAG_YES_LAST then header.frag_size / 4 * 32768 else 0 := by
  obtain ⟨type, ⟨seq, seq_lt⟩, id, size, kind, id_lt, size_lt, aligned⟩ := header
  unfold N_SEQ_ID at seq_lt
  unfold MAX_FRAGS at id_lt
  have small : type % 4 = type ∧ seq % 256 = seq ∧ id % 32 = id := by
    unfold FRAG_YES_NOTLAST FRAG_YES_LAST at kind
    omega
  unfold FragmentHeader.flags fragmentFlags
  simp only [first_flags, small]
  rcases kind with rfl | rfl
  · rfl
  · have masked : size >>> FRAG_SIZE_ROUND_SHIFT &&& FRAG_SIZE_MASK = size / 4 := by
      rw [Nat.shiftRight_eq_div_pow]
      exact (mask_eq_mod _ 14).trans (Nat.mod_eq_of_lt (by unfold FRAG_SIZE_ROUND_SHIFT; omega))
    rw [if_neg (by decide), if_pos rfl, masked]
    exact or_fields FRAG_SIZE_SHIFT _ (by unfold FRAG_YES_LAST FRAG_SIZE_SHIFT; omega)

variable {header : FragmentHeader}

theorem FragmentHeader.flags_lt (header : FragmentHeader) : header.flags < 2 ^ 32 := by
  have seq_lt := header.seq_id.isLt
  have id_lt := header.id_lt
  have size_lt := header.size_lt
  have kind := header.kind
  rw [header.flags_eq]
  unfold N_SEQ_ID at seq_lt
  unfold MAX_FRAGS at id_lt
  unfold FRAG_YES_NOTLAST FRAG_YES_LAST at *
  split <;> omega

/-- What a receiver reads in the header is what the sender wrote there. -/
theorem FragmentHeader.fields (header : FragmentHeader) :
    header.flags >>> FRAG_TYPE_SHIFT &&& FRAG_TYPE_MASK = header.frag_type ∧
      header.flags >>> FRAG_SEQ_ID_SHIFT &&& FRAG_SEQ_ID_MASK = header.seq_id ∧
      header.flags >>> FRAG_ID_SHIFT &&& FRAG_ID_MASK = header.frag_id ∧
      (header.frag_type = FRAG_YES_LAST →
        (header.flags >>> FRAG_SIZE_SHIFT &&& FRAG_SIZE_MASK) <<< FRAG_SIZE_ROUND_SHIFT = header.frag_size) := by
  have seq_lt := header.seq_id.isLt
  have id_lt := header.id_lt
  have size_lt := header.size_lt
  have aligned := header.aligned
  have kind := header.kind
  rw [type_field, seq_field, id_field, size_field, header.flags_eq]
  unfold N_SEQ_ID at seq_lt
  unfold MAX_FRAGS at id_lt
  unfold FRAG_YES_NOTLAST FRAG_YES_LAST at *
  refine ⟨by split <;> omega, by split <;> omega, by split <;> omega, fun last => ?_⟩
  rw [if_pos last, Nat.shiftLeft_eq]
  unfold FRAG_SIZE_ROUND_SHIFT
  omega

def FragmentHeader.packet (header : FragmentHeader) (buf : Bytes) : Bytes :=
  fragmentPrependFlags buf header.frag_type header.seq_id header.frag_id header.frag_size

theorem read_flags {flags : Nat} (small : flags < 2 ^ 32) (buf : Bytes) :
    bufRead (htonFragmentHeaderType flags ++ buf) 4 = some (htonFragmentHeaderType flags, buf) ∧
      ntohFragmentHeaderType (htonFragmentHeaderType flags) = flags :=
  ⟨bufRead_append (i2osp_length 4 _) buf, os2ip_i2osp (by simpa using small)⟩

theorem prepend_length (buf : Bytes) (type seq_id frag_id frag_size : Nat) :
    (fragmentPrependFlags buf type seq_id frag_id frag_size).length = 4 + buf.length := by
  unfold fragmentPrependFlags htonFragmentHeaderType
  rw [List.length_append, i2osp_length]

variable {capacity : Nat}

/-- A fragment goes to the buffer of its sequence id. -/
theorem incoming_packet (list : FragmentList capacity) (now : Int) (header : FragmentHeader) {buf : Bytes}
    (size : header.frag_type = FRAG_YES_NOTLAST → buf.length = header.frag_size) :
    fragmentIncoming list now (header.packet buf) =
      let (list, i) := fragmentListGetBuf list header.seq_id
      let (frag, outcome) :=
        fragmentJoin (list.fragments.get i) header.frag_type header.frag_id header.frag_size now buf
      ({ list with fragments := put list.fragments i frag }, outcome) := by
  obtain ⟨kind, seq, id, last_size⟩ := header.fields
  obtain ⟨read, value⟩ := read_flags header.flags_lt buf
  have long := prepend_length buf header.frag_type header.seq_id header.frag_id header.frag_size
  have packet : header.packet buf = htonFragmentHeaderType header.flags ++ buf := rfl
  have not_whole : ¬ header.frag_type = FRAG_WHOLE := by
    have kinds := header.kind
    unfold FRAG_YES_NOTLAST FRAG_YES_LAST at kinds
    unfold FRAG_WHOLE
    omega
  have sized : (if header.frag_type = FRAG_YES_LAST then
      (header.flags >>> FRAG_SIZE_SHIFT &&& FRAG_SIZE_MASK) <<< FRAG_SIZE_ROUND_SHIFT else buf.length) =
        header.frag_size := by
    split
    · rename_i last
      exact last_size last
    · rename_i not_last
      exact size (header.kind.resolve_right not_last)
  have fits : ¬ header.frag_size &&& FRAG_SIZE_ROUND_MASK ≠ 0 := by
    rw [round_field, header.aligned]
    exact not_not.mpr rfl
  unfold fragmentIncoming
  rw [if_pos (by unfold FragmentHeader.packet; omega), packet, read]
  simp only [value, kind, if_neg not_whole, if_pos header.kind, id, sized, if_neg fits, seq, Fin.eta]

theorem incoming_whole (list : FragmentList capacity) (now : Int) (buf : Bytes) :
    fragmentIncoming list now (fragmentPrependFlags buf FRAG_WHOLE 0 0 0) = (list, .ok buf) := by
  obtain ⟨read, value⟩ := @read_flags 0 (by decide) buf
  have packet : fragmentPrependFlags buf FRAG_WHOLE 0 0 0 = htonFragmentHeaderType 0 ++ buf := rfl
  have long := prepend_length buf FRAG_WHOLE 0 0 0
  unfold fragmentIncoming
  rw [if_pos (by omega), packet, read]
  simp only [value]
  rfl

end Header

section Cut

/-- A datagram and the size it is cut into pieces of. -/
structure Cut where
  data : Bytes
  size : Nat
  some_data : data ≠ []
  some_size : 0 < size
  aligned : size % 4 = 0
  size_lt : size < 2 ^ 16
  few : lastPiece size data < MAX_FRAGS

def Cut.last (cut : Cut) : Nat := lastPiece cut.size cut.data

def Cut.piece (cut : Cut) (n : Nat) : Bytes := C.piece cut.size cut.data n

def Cut.header (cut : Cut) (seq_id : Fin N_SEQ_ID) (n : Nat) (among : n ≤ cut.last) : FragmentHeader where
  frag_type := if n = cut.last then FRAG_YES_LAST else FRAG_YES_NOTLAST
  seq_id := seq_id
  frag_id := n
  frag_size := cut.size
  kind := by
    split
    · exact Or.inr rfl
    · exact Or.inl rfl
  id_lt := Nat.lt_of_le_of_lt among cut.few
  size_lt := cut.size_lt
  aligned := cut.aligned

/-- The packet that brings a piece of the datagram. -/
def Cut.packet (cut : Cut) (seq_id : Fin N_SEQ_ID) (n : Nat) (among : n ≤ cut.last) : Bytes :=
  (cut.header seq_id n among).packet (cut.piece n)

end Cut

end OpenVpn
