import Mathlib.Data.List.OfFn
import SeguridadRedes.C.Slots

namespace OpenVpn

open C (put get_put)

def moduloAdd (x y mod : Int) : Int :=
  let sum := x + y
  let sum := if sum ≥ mod then sum - mod else sum
  if sum < 0 then sum + mod else sum

theorem moduloAdd_inside {x y mod : Int} (low : 0 ≤ x) (high : x < mod) (back : -mod ≤ y) (forth : y ≤ mod) :
    0 ≤ moduloAdd x y mod ∧ moduloAdd x y mod < mod := by
  unfold moduloAdd
  dsimp only
  split <;> split <;> omega

/-- `CIRC_LIST (name, type)`: a list in `cap` cells, its first item at `x_head`. -/
structure CircList (α : Type) (cap : Nat) where
  x_head : Nat
  x_size : Nat
  x_list : Vector α cap
  head_lt : x_head < cap
  size_le : x_size ≤ cap

variable {α : Type} {cap : Nat}

def CIRC_LIST_ALLOC (zero : α) (positive : 0 < cap) : CircList α cap where
  x_head := 0
  x_size := 0
  x_list := Vector.replicate cap zero
  head_lt := positive
  size_le := Nat.zero_le _

def CIRC_LIST_RESET (obj : CircList α cap) : CircList α cap :=
  { obj with x_head := 0, x_size := 0, head_lt := Nat.zero_lt_of_lt obj.head_lt, size_le := Nat.zero_le _ }

def CIRC_LIST_SIZE (obj : CircList α cap) : Nat := obj.x_size

/-- The cell of an index that `index_verify` lets through. -/
def CIRC_LIST_INDEX (obj : CircList α cap) (index : Nat) (verified : index < obj.x_size) : Fin cap :=
  ⟨(moduloAdd obj.x_head index cap).toNat, by
    have head := obj.head_lt
    have size := obj.size_le
    have inside := @moduloAdd_inside obj.x_head index cap (by omega) (by omega) (by omega) (by omega)
    omega⟩

def CIRC_LIST_ITEM (obj : CircList α cap) (index : Nat) (verified : index < obj.x_size) : α :=
  obj.x_list.get (CIRC_LIST_INDEX obj index verified)

/-- `CIRC_LIST_ITEM (obj, index) = item`. -/
def CIRC_LIST_STORE (obj : CircList α cap) (index : Nat) (verified : index < obj.x_size) (item : α) : CircList α cap :=
  { obj with x_list := put obj.x_list (CIRC_LIST_INDEX obj index verified) item }

def CIRC_LIST_PUSH (obj : CircList α cap) (item : α) : CircList α cap :=
  have head := obj.head_lt
  have inside := @moduloAdd_inside obj.x_head (-1) cap (by omega) (by omega) (by omega) (by omega)
  { x_head := (moduloAdd obj.x_head (-1) cap).toNat
    x_size := min (obj.x_size + 1) cap
    x_list := put obj.x_list ⟨(moduloAdd obj.x_head (-1) cap).toNat, by omega⟩ item
    head_lt := by omega
    size_le := Nat.min_le_right _ _ }

section Contents

/-- The items, the one pushed last in front. -/
def CircList.toList (obj : CircList α cap) : List α :=
  List.ofFn fun i : Fin obj.x_size => CIRC_LIST_ITEM obj i i.isLt

@[simp] theorem toList_length (obj : CircList α cap) : obj.toList.length = obj.x_size := List.length_ofFn

theorem getElem_toList (obj : CircList α cap) (i : Nat) (inside : i < obj.toList.length) :
    obj.toList[i] = CIRC_LIST_ITEM obj i (by simpa using inside) := List.getElem_ofFn _

theorem index_val (obj : CircList α cap) (i : Nat) (verified : i < obj.x_size) :
    (CIRC_LIST_INDEX obj i verified).val = if obj.x_head + i < cap then obj.x_head + i else obj.x_head + i - cap := by
  have head := obj.head_lt
  have size := obj.size_le
  unfold CIRC_LIST_INDEX moduloAdd
  dsimp only
  split <;> split <;> split <;> omega

theorem index_injective (obj : CircList α cap) {i j : Nat} (hi : i < obj.x_size) (hj : j < obj.x_size)
    (same : CIRC_LIST_INDEX obj i hi = CIRC_LIST_INDEX obj j hj) : i = j := by
  have head := obj.head_lt
  have size := obj.size_le
  have values := congrArg Fin.val same
  rw [index_val, index_val] at values
  split at values <;> split at values <;> omega

theorem toList_alloc (zero : α) (positive : 0 < cap) : (CIRC_LIST_ALLOC zero positive).toList = [] :=
  List.length_eq_zero_iff.mp (toList_length _)

theorem toList_reset (obj : CircList α cap) : (CIRC_LIST_RESET obj).toList = [] :=
  List.length_eq_zero_iff.mp (toList_length _)

theorem toList_store (obj : CircList α cap) (index : Nat) (verified : index < obj.x_size) (item : α) :
    (CIRC_LIST_STORE obj index verified item).toList = obj.toList.set index item := by
  apply List.ext_getElem
  · simp [CIRC_LIST_STORE]
  · intro i hi hi'
    have inside : i < obj.x_size := by simpa using hi'
    rw [getElem_toList, List.getElem_set]
    have stored : CIRC_LIST_ITEM (CIRC_LIST_STORE obj index verified item) i inside =
        (put obj.x_list (CIRC_LIST_INDEX obj index verified) item).get (CIRC_LIST_INDEX obj i inside) := rfl
    rw [stored, get_put]
    by_cases same : index = i
    · subst same
      rw [if_pos rfl, if_pos rfl]
    · rw [if_neg same, if_neg fun h => same (index_injective obj inside verified h).symm, getElem_toList]
      rfl

theorem head_push (obj : CircList α cap) (item : α) :
    (CIRC_LIST_PUSH obj item).x_head = if obj.x_head = 0 then cap - 1 else obj.x_head - 1 := by
  have head := obj.head_lt
  unfold CIRC_LIST_PUSH moduloAdd
  dsimp only
  split <;> split <;> split <;> omega

/-- A full list forgets its last item. -/
theorem toList_push (obj : CircList α cap) (item : α) :
    (CIRC_LIST_PUSH obj item).toList = (item :: obj.toList).take cap := by
  have head := obj.head_lt
  have size := obj.size_le
  have newHead := head_push obj item
  have newSize : (CIRC_LIST_PUSH obj item).x_size = min (obj.x_size + 1) cap := rfl
  apply List.ext_getElem
  · rw [toList_length, newSize, List.length_take, List.length_cons, toList_length]
    exact Nat.min_comm _ _
  · intro i hi hi'
    have inside : i < (CIRC_LIST_PUSH obj item).x_size := by simpa using hi
    have pushed : CIRC_LIST_ITEM (CIRC_LIST_PUSH obj item) i inside =
        (put obj.x_list ⟨(CIRC_LIST_PUSH obj item).x_head, (CIRC_LIST_PUSH obj item).head_lt⟩ item).get
          (CIRC_LIST_INDEX (CIRC_LIST_PUSH obj item) i inside) := rfl
    have cell := index_val (CIRC_LIST_PUSH obj item) i inside
    rw [getElem_toList, List.getElem_take, pushed, get_put]
    rw [newHead] at cell
    cases i with
    | zero =>
      rw [if_pos]
      · rfl
      · apply Fin.ext
        simp only [cell, newHead]
        split <;> split <;> omega
    | succ i =>
      rw [List.getElem_cons_succ, getElem_toList, if_neg]
      · unfold CIRC_LIST_ITEM
        congr 1
        apply Fin.ext
        rw [cell, index_val]
        split <;> split <;> split <;> omega
      · intro same
        have values := congrArg Fin.val same
        simp only [cell, newHead] at values
        split at values <;> split at values <;> omega

end Contents

end OpenVpn
