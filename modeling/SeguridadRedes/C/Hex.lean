import SeguridadRedes.C.Strings

namespace C

def hexDigit (n : Nat) : UInt8 := if n < 10 then UInt8.ofNat (48 + n) else UInt8.ofNat (87 + n)

/-- What `printf("%02x", b)` prints. -/
def hex02 (b : UInt8) : Bytes := [hexDigit (b.toNat / 16), hexDigit (b.toNat % 16)]

def hexDigits : Bytes := ascii "0123456789abcdef"

def hexValue (c : UInt8) : Option Nat := hexDigits.findIdx? (· == c)

def hexDecode : Bytes → Option Bytes
  | [] => some []
  | [_] => none
  | high :: low :: rest =>
    match hexValue high, hexValue low, hexDecode rest with
    | some h, some l, some bytes => some (UInt8.ofNat (16 * h + l) :: bytes)
    | _, _, _ => none

theorem hexDigit_mem (n : Nat) (h : n < 16) : hexDigit n ∈ hexDigits := by
  have all : ∀ n ∈ List.range 16, hexDigit n ∈ hexDigits := by decide
  exact all n (List.mem_range.mpr h)

theorem hexValue_hexDigit (n : Nat) (h : n < 16) : hexValue (hexDigit n) = some n := by
  have all : ∀ n ∈ List.range 16, hexValue (hexDigit n) = some n := by decide
  exact all n (List.mem_range.mpr h)

theorem hex02_halves (b : UInt8) : b.toNat / 16 < 16 ∧ b.toNat % 16 < 16 := by
  have bound := b.toNat_lt
  omega

theorem mem_hex02 {b c : UInt8} (h : c ∈ hex02 b) : c ∈ hexDigits := by
  have halves := hex02_halves b
  simp only [hex02, List.mem_cons, List.not_mem_nil, or_false] at h
  rcases h with rfl | rfl
  · exact hexDigit_mem _ halves.1
  · exact hexDigit_mem _ halves.2

theorem hexDecode_hex02 (bytes : Bytes) : hexDecode (bytes.flatMap hex02) = some bytes := by
  induction bytes with
  | nil => rfl
  | cons b rest ih =>
    have halves := hex02_halves b
    have whole : 16 * (b.toNat / 16) + b.toNat % 16 = b.toNat := Nat.div_add_mod _ _
    simp only [List.flatMap_cons, hex02, List.cons_append, List.nil_append, hexDecode,
      hexValue_hexDigit _ halves.1, hexValue_hexDigit _ halves.2, ih, whole, UInt8.ofNat_toNat]

theorem length_flatMap_hex02 (bytes : Bytes) : (bytes.flatMap hex02).length = 2 * bytes.length := by
  induction bytes with
  | nil => rfl
  | cons b rest ih =>
    rw [List.flatMap_cons, List.length_append, ih, List.length_cons]
    simp only [hex02, List.length_cons, List.length_nil]
    omega

end C
