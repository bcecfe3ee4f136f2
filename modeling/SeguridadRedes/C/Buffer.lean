import Mathlib.Data.List.GetD
import SeguridadRedes.C.Process

namespace C

variable {α : Type} {n : Nat}

theorem getD_toList (v : Vector α n) (fallback : α) {i : Nat} (h : i < n) : v.toList.getD i fallback = v[i] := by
  rw [List.getD_eq_getElem _ _ (by simpa using h), Vector.getElem_toList]

/-- The array after `data` has been stored from index `offset` on. -/
def blit (buffer : Vector α n) (offset : Nat) (data : List α) : Vector α n :=
  Vector.ofFn fun i =>
    if h : offset ≤ i.val ∧ i.val < offset + data.length then data[i.val - offset] else buffer[i]

theorem getElem_blit (buffer : Vector α n) (offset : Nat) (data : List α) (i : Nat) (hi : i < n) :
    (blit buffer offset data)[i] =
      if h : offset ≤ i ∧ i < offset + data.length then data[i - offset] else buffer[i] := by
  simp [blit]

@[simp] theorem blit_nil (buffer : Vector α n) (offset : Nat) : blit buffer offset [] = buffer := by
  apply Vector.ext
  intro i hi
  rw [getElem_blit, dif_neg]
  simp only [List.length_nil]
  omega

theorem blit_blit (buffer : Vector α n) (offset : Nat) (first second : List α) :
    blit (blit buffer offset first) (offset + first.length) second =
      blit buffer offset (first ++ second) := by
  apply Vector.ext
  intro i hi
  simp only [getElem_blit, List.length_append]
  by_cases left : offset ≤ i ∧ i < offset + first.length
  · rw [dif_neg (by omega), dif_pos left, dif_pos (by omega), List.getElem_append_left]
  · by_cases right : offset + first.length ≤ i ∧ i < offset + first.length + second.length
    · rw [dif_pos right, dif_pos (by omega), List.getElem_append_right (by omega)]
      congr 1
      omega
    · rw [dif_neg right, dif_neg left, dif_neg (by omega)]

theorem toList_blit_full (buffer : Vector α n) (data : List α) (full : data.length = n) :
    (blit buffer 0 data).toList = data := by
  apply List.ext_getElem (by simp [full])
  intro i hi inside
  rw [Vector.getElem_toList, getElem_blit, dif_pos (by omega)]
  rfl

theorem blit_full (buffer other : Vector α n) (data : List α) (full : data.length = n) :
    blit buffer 0 data = blit other 0 data := by
  rw [← Vector.toList_inj, toList_blit_full _ _ full, toList_blit_full _ _ full]

theorem take_blit (buffer : Vector α n) (data : List α) (fits : data.length ≤ n) :
    (blit buffer 0 data).toList.take data.length = data := by
  apply List.ext_getElem (by simp [fits])
  intro i hi inside
  rw [List.getElem_take, Vector.getElem_toList, getElem_blit, dif_pos (by omega)]
  rfl

theorem toList_blit (buffer : Vector α n) (data : List α) (fits : data.length ≤ n) :
    (blit buffer 0 data).toList = data ++ buffer.toList.drop data.length := by
  apply List.ext_getElem
  · simp
    omega
  · intro i hi inside
    rw [Vector.getElem_toList, getElem_blit]
    by_cases stored : i < data.length
    · rw [dif_pos (by omega), List.getElem_append_left stored]
      rfl
    · rw [dif_neg (by omega), List.getElem_append_right (by omega), List.getElem_drop, Vector.getElem_toList]
      congr 1
      omega

theorem blit_injective_of_ne (buffer other : Vector α n) (data : List α)
    (same : blit buffer 0 data = blit other 0 data) (i : Nat) (hi : i < n) (behind : data.length ≤ i) :
    buffer[i] = other[i] := by
  have at_i := congrArg (fun v : Vector α n => v[i]) same
  simp only [getElem_blit] at at_i
  rwa [dif_neg (by omega), dif_neg (by omega)] at at_i

end C
