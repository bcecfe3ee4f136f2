import Mathlib.Data.Int.Interval
import SeguridadRedes.OpenVpn.Entries

namespace OpenVpn

variable {size : Nat}

section Retry

theorem retry_taken_iff {rel : Reliable size} {retry : Int} :
    C.anySlot rel.array (fun e => e.active && decide (e.next_try = retry)) = true ↔
      ∃ i, (rel.entry i).active = true ∧ (rel.entry i).next_try = retry := by
  rw [C.anySlot_iff]
  simp [Reliable.entry]

theorem unique_retry_range (rel : Reliable size) (retry : Int) :
    retry ≤ reliableUniqueRetry rel retry ∧
      (¬ ∃ i, (rel.entry i).active = true ∧ (rel.entry i).next_try = reliableUniqueRetry rel retry) ∧
      ∀ t, retry ≤ t → t < reliableUniqueRetry rel retry →
        ∃ i, (rel.entry i).active = true ∧ (rel.entry i).next_try = t := by
  induction retry using reliableUniqueRetry.induct rel with
  | case1 retry again ih =>
    obtain ⟨later, free, taken⟩ := ih
    rw [reliableUniqueRetry, if_pos again]
    refine ⟨by omega, free, fun t low high => ?_⟩
    by_cases first : t = retry
    · rw [first]
      exact retry_taken_iff.mp again
    · exact taken t (by omega) high
  | case2 retry free =>
    rw [reliableUniqueRetry, if_neg free]
    exact ⟨le_rfl, mt retry_taken_iff.mpr free, fun t low high => absurd high (not_lt.mpr low)⟩

/-- A retransmission is put off to the first moment no other one has, never by more than one tick a buffer. -/
theorem unique_retry_first_free (rel : Reliable size) (retry : Int) :
    retry ≤ reliableUniqueRetry rel retry ∧ reliableUniqueRetry rel retry ≤ retry + size ∧
      (∀ i, (rel.entry i).active = true → (rel.entry i).next_try ≠ reliableUniqueRetry rel retry) ∧
      ∀ t, retry ≤ t → t < reliableUniqueRetry rel retry →
        ∃ i, (rel.entry i).active = true ∧ (rel.entry i).next_try = t := by
  obtain ⟨later, free, taken⟩ := unique_retry_range rel retry
  refine ⟨later, ?_, fun i active same => free ⟨i, active, same⟩, taken⟩
  have covered : Finset.Ico retry (reliableUniqueRetry rel retry) ⊆
      Finset.univ.image fun i => (rel.entry i).next_try := by
    intro t member
    obtain ⟨low, high⟩ := Finset.mem_Ico.mp member
    obtain ⟨i, _, at_t⟩ := taken t low high
    exact Finset.mem_image.mpr ⟨i, Finset.mem_univ i, at_t⟩
  have counted := (Finset.card_le_card covered).trans Finset.card_image_le
  rw [Int.card_Ico, Finset.card_univ, Fintype.card_fin] at counted
  omega

end Retry

section Timeout

def ReliableEntry.Near (now : Int) (e : ReliableEntry) : Prop := e.active = true → e.next_try - now < 2 ^ 31

/-- What the loop of `reliable_send_timeout` knows of the entries behind it. -/
def TimeoutOf (now : Int) (seen : List ReliableEntry) (acc : Int × Bool) : Prop :=
  if acc.2 then acc.1 = 0 ∧ ∃ e ∈ seen, e.active = true ∧ e.next_try ≤ now
  else 0 < acc.1 ∧ acc.1 ≤ BIG_TIMEOUT ∧ (∀ e ∈ seen, e.active = true → now + acc.1 ≤ e.next_try) ∧
    (acc.1 < BIG_TIMEOUT → ∃ e ∈ seen, e.active = true ∧ e.next_try = now + acc.1)

theorem timeout_step {now : Int} {seen : List ReliableEntry} {acc : Int × Bool} {e : ReliableEntry}
    (near : e.Near now) (before : TimeoutOf now seen acc) :
    TimeoutOf now (seen ++ [e]) (reliableSendTimeoutStep now acc e) := by
  obtain ⟨ret, left⟩ := acc
  unfold reliableSendTimeoutStep
  cases left with
  | true =>
    obtain ⟨zero, d, member, due⟩ := by simpa [TimeoutOf] using before
    simp only [TimeoutOf, if_true]
    exact ⟨zero, d, List.mem_append_left _ member, due⟩
  | false =>
    obtain ⟨positive, capped, never, needed⟩ := by simpa [TimeoutOf] using before
    by_cases active : e.active = true
    · by_cases due : e.next_try ≤ now
      · simp only [TimeoutOf, active, due, if_true, if_false, Bool.false_eq_true]
        exact ⟨trivial, e, by simp, active, due⟩
      · have wait : asInt (e.next_try - now) = e.next_try - now := asInt_small (by omega) (near active)
        simp only [TimeoutOf, active, due, wait, if_true, if_false, Bool.false_eq_true]
        refine ⟨by omega, by omega, fun d member dActive => ?_, fun short => ?_⟩
        · rcases List.mem_append.mp member with old | new
          · have later := never d old dActive
            omega
          · obtain rfl := List.mem_singleton.mp new
            omega
        · by_cases sooner : e.next_try - now ≤ ret
          · exact ⟨e, by simp, active, by omega⟩
          · obtain ⟨d, member, dActive, at_ret⟩ := needed (by omega)
            exact ⟨d, List.mem_append_left _ member, dActive, by omega⟩
    · simp only [TimeoutOf, active, if_false, Bool.false_eq_true]
      refine ⟨positive, capped, fun d member dActive => ?_, fun short => ?_⟩
      · rcases List.mem_append.mp member with old | new
        · exact never d old dActive
        · obtain rfl := List.mem_singleton.mp new
          exact absurd dActive active
      · obtain ⟨d, member, dActive, at_ret⟩ := needed short
        exact ⟨d, List.mem_append_left _ member, dActive, at_ret⟩

theorem timeout_fold (now : Int) (entries seen : List ReliableEntry) (acc : Int × Bool)
    (near : ∀ e ∈ entries, e.Near now) (before : TimeoutOf now seen acc) :
    TimeoutOf now (seen ++ entries) (entries.foldl (reliableSendTimeoutStep now) acc) := by
  induction entries generalizing seen acc with
  | nil => simpa using before
  | cons e entries ih =>
    have later := fun d member => near d (List.mem_cons_of_mem e member)
    have step := ih (seen ++ [e]) _ later (timeout_step (near e List.mem_cons_self) before)
    rwa [List.append_assoc, List.singleton_append] at step

theorem mem_entries {rel : Reliable size} {e : ReliableEntry} : e ∈ rel.array ↔ ∃ i, rel.entry i = e := by
  rw [Vector.mem_iff_getElem]
  constructor
  · rintro ⟨i, hi, rfl⟩
    exact ⟨⟨i, hi⟩, rfl⟩
  · rintro ⟨i, rfl⟩
    exact ⟨i.val, i.isLt, rfl⟩

/-- The sleep ends with the first retransmission due, neither past it nor before it, while no packet waits
    2 ^ 31 seconds for its own. -/
theorem send_timeout_exact (rel : Reliable size) (now : Int)
    (near : ∀ i, (rel.entry i).active = true → (rel.entry i).next_try - now < 2 ^ 31) :
    0 ≤ reliableSendTimeout rel now ∧ reliableSendTimeout rel now ≤ BIG_TIMEOUT ∧
      (reliableSendTimeout rel now = 0 ↔ ∃ i, (rel.entry i).active = true ∧ (rel.entry i).next_try ≤ now) ∧
      (∀ i t, (rel.entry i).active = true → now < t → t < now + reliableSendTimeout rel now →
        t < (rel.entry i).next_try) ∧
      (reliableSendTimeout rel now < BIG_TIMEOUT →
        ∃ i, (rel.entry i).active = true ∧ (rel.entry i).next_try ≤ now + reliableSendTimeout rel now) := by
  have known : TimeoutOf now rel.array.toList
      (rel.array.toList.foldl (reliableSendTimeoutStep now) (BIG_TIMEOUT, false)) := by
    have waits : ∀ e ∈ rel.array.toList, e.Near now := by
      intro e member
      obtain ⟨i, rfl⟩ := mem_entries.mp (Vector.mem_toList_iff.mp member)
      exact near i
    have fold := timeout_fold now rel.array.toList [] (BIG_TIMEOUT, false) waits (by simp [TimeoutOf, BIG_TIMEOUT])
    rwa [List.nil_append] at fold
  unfold reliableSendTimeout
  generalize rel.array.toList.foldl (reliableSendTimeoutStep now) (BIG_TIMEOUT, false) = acc at known ⊢
  obtain ⟨ret, left⟩ := acc
  have week : (0 : Int) ≤ BIG_TIMEOUT := by decide
  cases left with
  | true =>
    obtain ⟨zero, d, member, active, due⟩ := by simpa [TimeoutOf] using known
    obtain ⟨i, rfl⟩ := mem_entries.mp member
    subst zero
    exact ⟨le_rfl, week, by simpa using ⟨i, active, due⟩, fun _ t _ low high => by omega,
      fun _ => ⟨i, active, by simpa using due⟩⟩
  | false =>
    obtain ⟨positive, capped, never, needed⟩ := by simpa [TimeoutOf] using known
    refine ⟨positive.le, capped, ?_, fun i t active _ high => ?_, fun short => ?_⟩
    · constructor
      · intro zero
        exact absurd zero positive.ne'
      · rintro ⟨i, active, due⟩
        have later := never _ (mem_entries.mpr ⟨i, rfl⟩) active
        simp only at later ⊢
        omega
    · exact lt_of_lt_of_le high (never _ (mem_entries.mpr ⟨i, rfl⟩) active)
    · obtain ⟨d, member, active, at_ret⟩ := needed short
      obtain ⟨i, rfl⟩ := mem_entries.mp member
      exact ⟨i, active, at_ret.le⟩

def waitingPacket (next_try : Int) : ReliableEntry :=
  { active := true, timeout := 4, next_try := next_try, packet_id := 0, opcode := .P_CONTROL_V1, buf := [] }

def waitingPackets : Reliable 3 :=
  { reliableInit 3 false with
    array := #v[waitingPacket 1007, { waitingPacket 1001 with active := false }, waitingPacket 1003] }

theorem sample_send_timeout :
    reliableSendTimeout waitingPackets 1000 = 3 ∧
      (∀ i t, (waitingPackets.entry i).active = true → 1000 < t → t < 1003 → t < (waitingPackets.entry i).next_try) ∧
      ∃ i, (waitingPackets.entry i).active = true ∧ (waitingPackets.entry i).next_try ≤ 1003 := by
  have value : reliableSendTimeout waitingPackets 1000 = 3 := by decide
  obtain ⟨_, _, _, never, needed⟩ := send_timeout_exact waitingPackets 1000 (by decide)
  rw [value] at never needed
  exact ⟨value, never, needed (by decide)⟩

end Timeout

end OpenVpn
