import SeguridadRedes.C.Process

namespace C

/-- The bytes of a string before its terminating NUL. -/
structure CString where
  bytes : Bytes
  noNul : 0 ∉ bytes
  deriving DecidableEq

theorem CString.ext {a b : CString} (h : a.bytes = b.bytes) : a = b := by
  cases a
  cases b
  simp_all

def ascii (text : String) : Bytes := text.toList.map fun c => UInt8.ofNat c.toNat

def strlen (s : CString) : Nat := s.bytes.length

/-- Comparison of at most `n` characters; the end of a list is its terminating NUL. -/
def strncmpBytes : Nat → Bytes → Bytes → Int
  | 0, _, _ => 0
  | _ + 1, [], [] => 0
  | _ + 1, [], b :: _ => 0 - b.toNat
  | _ + 1, a :: _, [] => a.toNat
  | n + 1, a :: as, b :: bs => if a = b then strncmpBytes n as bs else a.toNat - b.toNat

def strncmp (a b : CString) (n : Nat) : Int := strncmpBytes n a.bytes b.bytes

theorem toNat_pos_of_ne_zero {b : UInt8} (h : b ≠ 0) : 0 < b.toNat :=
  Nat.pos_of_ne_zero fun zero => h (UInt8.toNat_inj.mp (by simpa using zero))

theorem strncmpBytes_eq_zero (n : Nat) (a b : Bytes) (noNulA : 0 ∉ a) (noNulB : 0 ∉ b) :
    strncmpBytes n a b = 0 ↔ a.take n = b.take n := by
  induction n generalizing a b with
  | zero => simp [strncmpBytes]
  | succ n ih =>
    cases a with
    | nil =>
      cases b with
      | nil => simp [strncmpBytes]
      | cons b bs =>
        have positive := toNat_pos_of_ne_zero (b := b) fun h => noNulB (by simp [h])
        simp only [strncmpBytes, List.take_nil, List.take_succ_cons]
        refine iff_of_false ?_ (by simp)
        omega
    | cons a as =>
      cases b with
      | nil =>
        have positive := toNat_pos_of_ne_zero (b := a) fun h => noNulA (by simp [h])
        simp only [strncmpBytes, List.take_nil, List.take_succ_cons]
        refine iff_of_false ?_ (by simp)
        omega
      | cons b bs =>
        have restA : 0 ∉ as := fun h => noNulA (List.mem_cons_of_mem _ h)
        have restB : 0 ∉ bs := fun h => noNulB (List.mem_cons_of_mem _ h)
        simp only [strncmpBytes, List.take_succ_cons, List.cons.injEq]
        by_cases same : a = b
        · simp only [same, ↓reduceIte, true_and]
          exact ih as bs restA restB
        · have different : a.toNat ≠ b.toNat := fun h => same (UInt8.toNat_inj.mp h)
          simp only [same, ↓reduceIte, false_and, iff_false]
          omega

theorem strncmp_eq_zero {a b : CString} {n : Nat} (long : strlen a < n) : strncmp a b n = 0 ↔ a = b := by
  unfold strncmp
  rw [strncmpBytes_eq_zero n a.bytes b.bytes a.noNul b.noNul]
  have whole : a.bytes.take n = a.bytes := List.take_of_length_le (by simp only [strlen] at long; omega)
  apply Iff.intro
  · intro same
    apply CString.ext
    rw [whole] at same
    have lengths := congrArg List.length same
    rw [List.length_take] at lengths
    simp only [strlen] at long
    rw [same, List.take_of_length_le (by omega)]
  · intro same
    rw [same]

end C
