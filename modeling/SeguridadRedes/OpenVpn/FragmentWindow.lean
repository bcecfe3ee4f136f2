import SeguridadRedes.OpenVpn.Fragment

namespace OpenVpn

open C (put get_put get_put_self get_mapped)

variable {capacity : Nat} {list : FragmentList capacity}

section Circles

theorem moduloAdd_eq {x y mod : Int} (low : 0 ≤ x) (high : x < mod) (back : -mod ≤ y) (forth : y ≤ mod) :
    moduloAdd x y mod = (x + y) % mod := by
  have inside := moduloAdd_inside low high back forth
  have same : moduloAdd x y mod % mod = (x + y) % mod := by
    unfold moduloAdd
    dsimp only
    split <;> split <;> simp
  rw [← same, Int.emod_eq_of_lt inside.1 inside.2]

theorem moduloAddFin_val {mod : Nat} (x : Fin mod) (y : Int) (inside : -mod ≤ y ∧ y ≤ mod) :
    ((moduloAddFin x y inside).val : Int) = (x.val + y) % mod := by
  have among := @moduloAdd_inside x y mod (by omega) (by omega) inside.1 inside.2
  have same := @moduloAdd_eq x y mod (by omega) (by omega) inside.1 inside.2
  rw [← same]
  exact Int.toNat_of_nonneg among.1

/-- The shortest way round the circle. -/
theorem moduloSubtract_spec {x y : Int} (lowX : 0 ≤ x) (highX : x < N_SEQ_ID) (lowY : 0 ≤ y) (highY : y < N_SEQ_ID) :
    (moduloSubtract x y N_SEQ_ID).natAbs ≤ 128 ∧ (y + moduloSubtract x y N_SEQ_ID) % 256 = x := by
  unfold N_SEQ_ID at *
  unfold moduloSubtract
  dsimp only
  split <;> split <;> omega

end Circles

section Window

/-- How far behind the newest sequence id another one is. -/
def FragmentList.behind (list : FragmentList capacity) (seq_id : Fin N_SEQ_ID) : Nat :=
  (list.seq_id.val + N_SEQ_ID - seq_id.val) % N_SEQ_ID

/-- The buffer that far back in the list. -/
def FragmentList.back (list : FragmentList capacity) (k : Nat) : Fin N_FRAG_BUF :=
  ⟨(list.index.val + N_FRAG_BUF - k % N_FRAG_BUF) % N_FRAG_BUF, Nat.mod_lt _ (by decide)⟩

def FragmentList.place (list : FragmentList capacity) (seq_id : Fin N_SEQ_ID) : Fin N_FRAG_BUF :=
  list.back (list.behind seq_id)

/-- What has been received of a datagram, if anything. -/
def FragmentList.find (list : FragmentList capacity) (seq_id : Fin N_SEQ_ID) : Option (Fragment capacity) :=
  if list.behind seq_id < N_FRAG_BUF ∧ (list.fragments.get (list.place seq_id)).defined = true then
    some (list.fragments.get (list.place seq_id))
  else none

theorem back_injective (list : FragmentList capacity) {j k : Nat} (hj : j < N_FRAG_BUF) (hk : k < N_FRAG_BUF)
    (same : list.back j = list.back k) : j = k := by
  have values := congrArg Fin.val same
  have index := list.index.isLt
  unfold FragmentList.back at values
  unfold N_FRAG_BUF at *
  dsimp only at values
  omega

theorem behind_injective (list : FragmentList capacity) {s s' : Fin N_SEQ_ID} (same : list.behind s = list.behind s') :
    s = s' := by
  have seq := list.seq_id.isLt
  have hs := s.isLt
  have hs' := s'.isLt
  unfold FragmentList.behind at same
  unfold N_SEQ_ID at *
  apply Fin.ext
  omega

theorem find_undefined {s : Fin N_SEQ_ID} (undefined : (list.fragments.get (list.place s)).defined = false) :
    list.find s = none := if_neg fun both => by simp [undefined] at both

theorem find_outside {s : Fin N_SEQ_ID} (outside : N_FRAG_BUF ≤ list.behind s) : list.find s = none :=
  if_neg fun both => absurd both.1 (Nat.not_lt_of_le outside)

theorem find_get {s : Fin N_SEQ_ID} (inside : list.behind s < N_FRAG_BUF) (frag : Fragment capacity)
    (found : list.fragments.get (list.place s) = frag) :
      list.find s = if frag.defined = true then some frag else none := by
  unfold FragmentList.find
  rw [found]
  simp only [inside, true_and]

/-- What has been received of a datagram changes with its buffer only. -/
theorem find_store {s : Fin N_SEQ_ID} (inside : list.behind s < N_FRAG_BUF) (frag : Fragment capacity)
    (s' : Fin N_SEQ_ID) :
    FragmentList.find { list with fragments := put list.fragments (list.place s) frag } s' =
      if s' = s then (if frag.defined = true then some frag else none) else list.find s' := by
  by_cases same : s' = s
  · subst same
    rw [if_pos rfl]
    exact @find_get capacity { list with fragments := put list.fragments (list.place s') frag } s' inside frag
      (get_put_self _ _ _)
  · rw [if_neg same]
    by_cases inside' : list.behind s' < N_FRAG_BUF
    · have apart : list.place s' ≠ list.place s := fun here =>
        same (behind_injective list (back_injective list inside' inside here))
      have kept : (put list.fragments (list.place s) frag).get (list.place s') =
        list.fragments.get (list.place s') := by
        rw [get_put, if_neg apart]
      rw [find_get inside' _ rfl]
      exact @find_get capacity { list with fragments := put list.fragments (list.place s) frag } s' inside' _ kept
    · rw [find_outside (Nat.le_of_not_lt inside')]
      exact find_outside (Nat.le_of_not_lt inside')

end Window

section Advance

/-- One round of the loop of `fragment_list_get_buf`. -/
def FragmentList.next (list : FragmentList capacity) : FragmentList capacity where
  seq_id := moduloAddFin list.seq_id 1 seq_step
  index := moduloAddFin list.index 1 index_step
  fragments := put list.fragments (moduloAddFin list.index 1 index_step)
    (list.fragments.get (moduloAddFin list.index 1 index_step)).undefine

theorem advance_succ (list : FragmentList capacity) (diff : Nat) :
    fragmentListAdvance list (diff + 1) = fragmentListAdvance list.next diff := rfl

theorem next_seq (list : FragmentList capacity) : (list.next.seq_id.val : Int) = (list.seq_id.val + 1) % 256 :=
  moduloAddFin_val list.seq_id 1 seq_step

theorem next_index (list : FragmentList capacity) : (list.next.index.val : Int) = (list.index.val + 1) % 25 :=
  moduloAddFin_val list.index 1 index_step

theorem next_behind (list : FragmentList capacity) (s : Fin N_SEQ_ID) :
    list.next.behind s = if list.behind s = 255 then 0 else list.behind s + 1 := by
  have seq := next_seq list
  have bound := list.seq_id.isLt
  have hs := s.isLt
  unfold FragmentList.behind N_SEQ_ID at *
  split <;> omega

theorem next_back (list : FragmentList capacity) {k : Nat} (inside : k + 1 < N_FRAG_BUF) :
    list.next.back (k + 1) = list.back k := by
  have index := next_index list
  have bound := list.index.isLt
  apply Fin.ext
  unfold FragmentList.back
  unfold N_FRAG_BUF at *
  dsimp only
  omega

theorem next_back_zero (list : FragmentList capacity) : list.next.back 0 = list.next.index := by
  have bound := list.next.index.isLt
  apply Fin.ext
  unfold FragmentList.back
  unfold N_FRAG_BUF at *
  dsimp only
  omega

theorem find_next (list : FragmentList capacity) (s : Fin N_SEQ_ID) :
    list.next.find s = if list.behind s + 1 < N_FRAG_BUF then list.find s else none := by
  have behind := next_behind list s
  by_cases inside : list.behind s + 1 < N_FRAG_BUF
  · rw [if_pos inside]
    rw [if_neg (by unfold N_FRAG_BUF at inside; omega)] at behind
    have same : list.next.place s = list.place s := by
      unfold FragmentList.place
      rw [behind, next_back list inside]
    have apart : list.next.place s ≠ list.next.index := by
      intro here
      rw [← next_back_zero list] at here
      have zero := back_injective list.next (behind ▸ inside) (by decide) here
      omega
    have kept : list.next.fragments.get (list.next.place s) = list.fragments.get (list.place s) := by
      rw [← same]
      change (put _ list.next.index _).get _ = _
      rw [get_put, if_neg apart]
    rw [find_get (behind ▸ inside) _ kept, find_get (Nat.lt_of_succ_lt inside) _ rfl]
  · rw [if_neg inside]
    by_cases newest : list.behind s = 255
    · rw [if_pos newest] at behind
      apply find_undefined
      have here : list.next.place s = list.next.index := by
        unfold FragmentList.place
        rw [behind, next_back_zero]
      have stored : list.next.fragments.get list.next.index = (list.fragments.get list.next.index).undefine :=
        get_put_self _ _ _
      rw [here, stored]
      rfl
    · rw [if_neg newest] at behind
      exact find_outside (behind ▸ Nat.le_of_not_lt inside)

theorem advance_behind (list : FragmentList capacity) (d : Nat) (s : Fin N_SEQ_ID) :
    (fragmentListAdvance list d).behind s = (list.behind s + d) % 256 := by
  induction d generalizing list with
  | zero =>
    have bound : list.behind s < N_SEQ_ID := Nat.mod_lt _ (by decide)
    exact (Nat.mod_eq_of_lt bound).symm
  | succ d ih =>
    rw [advance_succ, ih, next_behind]
    split <;> omega

theorem find_advance (list : FragmentList capacity) {d : Nat} (near : d < N_FRAG_BUF) (s : Fin N_SEQ_ID) :
    (fragmentListAdvance list d).find s = if list.behind s + d < N_FRAG_BUF then list.find s else none := by
  induction d generalizing list with
  | zero =>
    split
    · rfl
    · rename_i outside
      exact find_outside (Nat.le_of_not_lt outside)
  | succ d ih =>
    rw [advance_succ, ih list.next (Nat.lt_of_succ_lt near), find_next, next_behind]
    unfold N_FRAG_BUF at *
    by_cases inside : list.behind s + (d + 1) < 25
    · rw [if_pos inside, if_neg (by omega : ¬ list.behind s = 255), if_pos (by omega), if_pos (by omega)]
    · rw [if_neg inside]
      by_cases newest : list.behind s = 255
      · rw [if_neg (by omega : ¬ list.behind s + 1 < 25), ite_self]
      · rw [if_neg newest, if_neg (by omega)]

theorem advance_seq (list : FragmentList capacity) (d : Nat) :
    ((fragmentListAdvance list d).seq_id.val : Int) = (list.seq_id.val + d) % 256 := by
  induction d generalizing list with
  | zero =>
    have bound := list.seq_id.isLt
    unfold N_SEQ_ID at bound
    change (list.seq_id.val : Int) = _
    omega
  | succ d ih =>
    have next := next_seq list
    rw [advance_succ, ih]
    omega

end Advance

section Lookup

theorem restart_find (list : FragmentList capacity) (s s' : Fin N_SEQ_ID) (index : Fin N_FRAG_BUF) :
    FragmentList.find ⟨s, index, list.fragments.map Fragment.undefine⟩ s' = none := by
  apply find_undefined
  have stored := get_mapped Fragment.undefine list.fragments
    (FragmentList.place ⟨s, index, list.fragments.map Fragment.undefine⟩ s')
  exact congrArg Fragment.defined stored

/-- Where `fragment_list_get_buf` looks: it starts anew, moves on, or goes back. -/
inductive Lookup (list : FragmentList capacity) (s : Fin N_SEQ_ID) : FragmentList capacity → Prop where
  | restarts {list' : FragmentList capacity} (far : N_FRAG_BUF ≤ list.behind s)
      (far' : list.behind s + N_FRAG_BUF ≤ N_SEQ_ID) (newest : list'.seq_id = s) (empty : ∀ s', list'.find s' = none) :
      Lookup list s list'
  | advances {d : Nat} (near : d < N_FRAG_BUF) (newest : (list.behind s + d) % 256 = 0) :
      Lookup list s (fragmentListAdvance list d)
  | stays (near : list.behind s < N_FRAG_BUF) : Lookup list s list

theorem back_of_sum (list : FragmentList capacity) {s : Fin N_SEQ_ID} {diff : Int}
    (inside : -(N_FRAG_BUF : Int) ≤ diff ∧ diff ≤ N_FRAG_BUF) (near : list.behind s < N_FRAG_BUF)
    (behind : (list.behind s : Int) = -diff) : moduloAddFin list.index diff inside = list.place s := by
  have value := moduloAddFin_val list.index diff inside
  have index := list.index.isLt
  apply Fin.ext
  unfold FragmentList.place FragmentList.back
  unfold N_FRAG_BUF at *
  dsimp only
  omega

theorem newest_behind (list : FragmentList capacity) {s : Fin N_SEQ_ID} (newest : list.seq_id = s) :
    list.behind s = 0 := by
  subst newest
  unfold FragmentList.behind
  rw [Nat.add_sub_cancel_left]
  rfl

theorem get_buf_lookup (list : FragmentList capacity) (s : Fin N_SEQ_ID) :
    ∃ list', fragmentListGetBuf list s = (list', list'.place s) ∧ list'.behind s < N_FRAG_BUF ∧
      Lookup list s list' := by
  have seq := list.seq_id.isLt
  have hs := s.isLt
  obtain ⟨short, round⟩ := @moduloSubtract_spec s list.seq_id (by omega) (by omega) (by omega) (by omega)
  have behind : list.behind s = (list.seq_id.val + N_SEQ_ID - s.val) % N_SEQ_ID := rfl
  have behind_lt : list.behind s < N_SEQ_ID := Nat.mod_lt _ (by decide)
  have opposite : ((list.behind s : Int) + moduloSubtract s list.seq_id N_SEQ_ID) % 256 = 0 := by
    unfold N_SEQ_ID at *
    omega
  unfold fragmentListGetBuf
  dsimp only
  by_cases far : (moduloSubtract s list.seq_id N_SEQ_ID).natAbs ≥ N_FRAG_BUF
  · rw [dif_pos far]
    have zero := @newest_behind capacity ⟨s, ⟨0, by decide⟩, list.fragments.map Fragment.undefine⟩ s rfl
    have near : FragmentList.behind ⟨s, ⟨0, by decide⟩, list.fragments.map Fragment.undefine⟩ s < N_FRAG_BUF := by
      rw [zero]
      decide
    have place := back_of_sum ⟨s, ⟨0, by decide⟩, list.fragments.map Fragment.undefine⟩
      (by decide : -(N_FRAG_BUF : Int) ≤ 0 ∧ 0 ≤ (N_FRAG_BUF : Int)) near (by rw [zero]; rfl)
    refine ⟨_, congrArg (Prod.mk _) place, near, .restarts ?_ ?_ rfl fun s' => restart_find list s s' _⟩
    · unfold N_FRAG_BUF N_SEQ_ID at *
      omega
    · unfold N_FRAG_BUF N_SEQ_ID at *
      omega
  · rw [dif_neg far]
    by_cases forth : moduloSubtract s list.seq_id N_SEQ_ID > 0
    · have newest : (list.behind s + (moduloSubtract s list.seq_id N_SEQ_ID).toNat) % 256 = 0 := by omega
      have zero := (advance_behind list (moduloSubtract s list.seq_id N_SEQ_ID).toNat s).trans newest
      have near : (fragmentListAdvance list (moduloSubtract s list.seq_id N_SEQ_ID).toNat).behind s <
        N_FRAG_BUF := by
        rw [zero]
        decide
      refine ⟨_, congrArg (Prod.mk _) (back_of_sum _ _ near ?_), near, .advances (by omega) newest⟩
      rw [zero, if_pos forth]
      rfl
    · have same : fragmentListAdvance list (moduloSubtract s list.seq_id N_SEQ_ID).toNat = list := by
        rw [Int.toNat_of_nonpos (by omega)]
        rfl
      have near : list.behind s < N_FRAG_BUF := by
        unfold N_FRAG_BUF N_SEQ_ID at *
        omega
      have back : (list.behind s : Int) = - moduloSubtract s list.seq_id N_SEQ_ID := by
        unfold N_FRAG_BUF N_SEQ_ID at *
        omega
      simp only [same]
      refine ⟨list, congrArg (Prod.mk _) (back_of_sum _ _ near ?_), near, .stays near⟩
      rw [if_neg forth, back]

/-- Whatever is there after a look was there before. -/
theorem Lookup.find {list' : FragmentList capacity} {s : Fin N_SEQ_ID} (look : Lookup list s list') {s' : Fin N_SEQ_ID}
    {frag : Fragment capacity} (found : list'.find s' = some frag) : list.find s' = some frag := by
  cases look with
  | restarts _ _ _ empty =>
    rw [empty] at found
    cases found
  | advances near _ =>
    rw [find_advance list near] at found
    split at found
    · exact found
    · cases found
  | stays => exact found

end Lookup

/-- Of what has been received only what is too old is dropped. -/
theorem find_reap (list : FragmentList capacity) (now : Int) (s : Fin N_SEQ_ID) :
    (fragmentTtlReap list now).find s = (list.find s).filter fun frag => now < frag.timestamp + FRAG_TTL_SEC := by
  have behind : (fragmentTtlReap list now).behind s = list.behind s := rfl
  by_cases near : list.behind s < N_FRAG_BUF
  · have stored : (fragmentTtlReap list now).fragments.get ((fragmentTtlReap list now).place s) = _ :=
      get_mapped _ list.fragments (list.place s)
    rw [find_get (behind ▸ near) _ stored, find_get near _ rfl]
    cases defined : (list.fragments.get (list.place s)).defined with
    | false => simp [defined]
    | true =>
      by_cases old : (list.fragments.get (list.place s)).timestamp + FRAG_TTL_SEC ≤ now
      · simp [old, Fragment.undefine, Option.filter]
      · simp [defined, old, Option.filter]
  · have outside := Nat.le_of_not_lt near
    rw [find_outside outside, find_outside (behind ▸ outside)]
    rfl

end OpenVpn
