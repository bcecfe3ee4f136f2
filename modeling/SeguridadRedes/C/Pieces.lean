import SeguridadRedes.C.Buffer

namespace C

variable {α : Type} {capacity : Nat}

/-- The `n`th piece of some data that is cut into pieces of one size. -/
def piece (size : Nat) (data : List α) (n : Nat) : List α := (data.drop (n * size)).take size

/-- The last piece, which may be shorter. -/
def lastPiece (size : Nat) (data : List α) : Nat := (data.length - 1) / size

section Cut

variable {size n : Nat} {data : List α}

theorem piece_length (size : Nat) (data : List α) (n : Nat) :
    (piece size data n).length = min size (data.length - n * size) := by
  rw [piece, List.length_take, List.length_drop]

theorem getElem?_piece (size : Nat) (data : List α) (n i : Nat) :
    (piece size data n)[i]? = if i < size then data[n * size + i]? else none := by
  rw [piece, List.getElem?_take, List.getElem?_drop]

theorem piece_inside (nonempty : data ≠ []) (among : n ≤ lastPiece size data) : n * size < data.length := by
  have positive := List.length_pos_of_ne_nil nonempty
  have below := Nat.mul_le_mul_right size among
  have total : (data.length - 1) / size * size ≤ data.length - 1 := Nat.div_mul_le_self _ _
  unfold lastPiece at below
  omega

theorem piece_ends (some_size : 0 < size) (data : List α) : data.length ≤ (lastPiece size data + 1) * size := by
  have short : data.length - 1 < size * (lastPiece size data + 1) := Nat.lt_mul_div_succ _ some_size
  rw [Nat.mul_comm] at short
  omega

theorem piece_full (before : n < lastPiece size data) : (piece size data n).length = size := by
  have below := Nat.mul_le_mul_right size before
  have total : (data.length - 1) / size * size ≤ data.length - 1 := Nat.div_mul_le_self _ _
  rw [Nat.succ_mul] at below
  rw [piece_length]
  unfold lastPiece at below
  omega

theorem lastPiece_reaches (some_size : 0 < size) (nonempty : data ≠ []) :
    lastPiece size data * size + (piece size data (lastPiece size data)).length = data.length := by
  have inside : lastPiece size data * size < data.length := piece_inside nonempty (Nat.le_refl _)
  have ends := piece_ends some_size data
  rw [Nat.succ_mul] at ends
  rw [piece_length]
  omega

theorem place_among (i : Nat) (inside : i < data.length) : i / size ≤ lastPiece size data :=
  Nat.div_le_div_right (Nat.le_sub_one_of_lt inside)

end Cut

section Assembly

variable {size : Nat} {data : List α} {there : Nat → Prop} {buffer : Vector α capacity}

theorem getElem?_blit (buffer : Vector α capacity) {offset : Nat} {stored : List α}
    (fits : offset + stored.length ≤ capacity) (i : Nat) :
    (blit buffer offset stored).toList[i]? =
      if offset ≤ i ∧ i < offset + stored.length then stored[i - offset]? else buffer.toList[i]? := by
  by_cases inside : i < capacity
  · rw [List.getElem?_eq_getElem (by simpa using inside), Vector.getElem_toList, getElem_blit]
    split
    · rw [List.getElem?_eq_getElem]
    · rw [List.getElem?_eq_getElem (by simpa using inside), Vector.getElem_toList]
  · rw [if_neg (by omega), List.getElem?_eq_none (by simpa using inside), List.getElem?_eq_none (by simpa using inside)]

/-- The data stands in the buffer, as far as its pieces are there. -/
def Assembled (size : Nat) (data : List α) (there : Nat → Prop) (buffer : Vector α capacity) : Prop :=
  ∀ i, i < data.length → there (i / size) → buffer.toList[i]? = data[i]?

theorem Assembled.store (assembled : Assembled size data there buffer) (some_size : 0 < size) {n : Nat}
    (fits : n * size + (piece size data n).length ≤ capacity) :
    Assembled size data (fun m => there m ∨ m = n) (blit buffer (n * size) (piece size data n)) := by
  intro i inside here
  have place := Nat.div_mul_le_self i size
  rw [getElem?_blit _ fits, getElem?_piece, piece_length]
  by_cases mine : i / size = n
  · subst mine
    have within : i < (i / size + 1) * size := by
      rw [Nat.mul_comm]
      exact Nat.lt_mul_div_succ i some_size
    rw [Nat.succ_mul] at within
    rw [if_pos ⟨place, by omega⟩, if_pos (by omega), Nat.add_sub_cancel' place]
  · have outside : ¬ (n * size ≤ i ∧ i < n * size + min size (data.length - n * size)) := by
      rintro ⟨low, high⟩
      have above : n ≤ i / size := (Nat.le_div_iff_mul_le some_size).mpr low
      have below : i / size < n + 1 := (Nat.div_lt_iff_lt_mul some_size).mpr (by rw [Nat.succ_mul]; omega)
      omega
    rw [if_neg outside]
    exact assembled i inside (here.resolve_right mine)

/-- When all its pieces are there, all the data is. -/
theorem Assembled.whole (assembled : Assembled size data there buffer) (all : ∀ n ≤ lastPiece size data, there n) :
    buffer.toList.take data.length = data := by
  apply List.ext_getElem?
  intro i
  rw [List.getElem?_take]
  by_cases inside : i < data.length
  · rw [if_pos inside]
    exact assembled i inside (all _ (place_among i inside))
  · rw [if_neg inside, List.getElem?_eq_none (Nat.le_of_not_lt inside)]

end Assembly

end C
