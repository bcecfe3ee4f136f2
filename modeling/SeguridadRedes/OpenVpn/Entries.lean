import SeguridadRedes.OpenVpn.Reliable

namespace OpenVpn

open C (Bytes firstSlot_passes firstSlot_eq_none anySlot_iff anySlot_eq_false bestSlot_eq_none bestSlot_passes
  bestSlot_least
  get_put get_put_self get_mapped get_filled)

variable {size : Nat}

section Store

variable (rel : Reliable size) (i j : Fin size) (e : ReliableEntry)

@[simp] theorem entry_store_self : (rel.store i e).entry i = e := get_put_self _ _ _

theorem entry_store : (rel.store i e).entry j = if j = i then e else rel.entry j := get_put _ _ _ _

@[simp] theorem store_store (e' : ReliableEntry) : (rel.store i e).store i e' = rel.store i e' := by
  simp [Reliable.store, C.put]

@[simp] theorem store_initial_timeout : (rel.store i e).initial_timeout = rel.initial_timeout := rfl

@[simp] theorem store_packet_id : (rel.store i e).packet_id = rel.packet_id := rfl

@[simp] theorem store_hold : (rel.store i e).hold = rel.hold := rfl

end Store

@[simp] theorem entry_setPacketId (rel : Reliable size) (pid : UInt32) (i : Fin size) :
    (rel.setPacketId pid).entry i = rel.entry i := rfl

@[simp] theorem setPacketId_packet_id (rel : Reliable size) (pid : UInt32) :
    (rel.setPacketId pid).packet_id = pid := rfl

@[simp] theorem setPacketId_hold (rel : Reliable size) (pid : UInt32) :
    (rel.setPacketId pid).hold = rel.hold := rfl

/-- The ids of the active entries. -/
def Reliable.Active (rel : Reliable size) (id : UInt32) : Prop :=
  ∃ i, (rel.entry i).active = true ∧ (rel.entry i).packet_id = id

/-- No two active entries bear one id. -/
def Reliable.Distinct (rel : Reliable size) : Prop :=
  ∀ i j, (rel.entry i).active = true → (rel.entry j).active = true →
    (rel.entry i).packet_id = (rel.entry j).packet_id → i = j

/-- All but the timers of an entry. -/
structure SamePacket (e e' : ReliableEntry) : Prop where
  active : e'.active = e.active
  packet_id : e'.packet_id = e.packet_id
  opcode : e'.opcode = e.opcode
  buf : e'.buf = e.buf

theorem SamePacket.refl (e : ReliableEntry) : SamePacket e e := ⟨rfl, rfl, rfl, rfl⟩

/-- Two reliable objects that differ in their timers only. -/
structure SamePackets (rel rel' : Reliable size) : Prop where
  packet_id : rel'.packet_id = rel.packet_id
  entries : ∀ i, SamePacket (rel.entry i) (rel'.entry i)

theorem SamePackets.active_iff {rel rel' : Reliable size} (same : SamePackets rel rel') (id : UInt32) :
    rel'.Active id ↔ rel.Active id := by
  unfold Reliable.Active
  constructor
  · rintro ⟨i, active, named⟩
    exact ⟨i, (same.entries i).active ▸ active, (same.entries i).packet_id ▸ named⟩
  · rintro ⟨i, active, named⟩
    exact ⟨i, (same.entries i).active.trans active, (same.entries i).packet_id.trans named⟩

theorem init_inactive (hold : Bool) (i : Fin size) : ((reliableInit size hold).entry i).active = false := by
  unfold reliableInit Reliable.entry
  rw [get_filled]

theorem empty_iff {rel : Reliable size} : reliableEmpty rel = true ↔ ∀ i, (rel.entry i).active = false := by
  unfold reliableEmpty
  rw [Bool.not_eq_true', anySlot_eq_false]
  rfl

/-- A free entry has become active with what `e` holds. -/
structure Placed (rel rel' : Reliable size) (i : Fin size) (e : ReliableEntry) : Prop where
  free : (rel.entry i).active = false
  active : e.active = true
  here : rel'.entry i = e
  others : ∀ j, j ≠ i → rel'.entry j = rel.entry j

section Placed

variable {rel rel' : Reliable size} {i : Fin size} {e : ReliableEntry}

theorem Placed.forall_active {P : ReliableEntry → Prop} (placed : Placed rel rel' i e) (new : P e)
    (old : ∀ j, (rel.entry j).active = true → P (rel.entry j)) :
    ∀ j, (rel'.entry j).active = true → P (rel'.entry j) := by
  intro j active
  by_cases same : j = i
  · rw [same, placed.here]
    exact new
  · rw [placed.others j same] at active ⊢
    exact old j active

theorem Placed.active_iff (placed : Placed rel rel' i e) (id : UInt32) :
    rel'.Active id ↔ rel.Active id ∨ e.packet_id = id := by
  constructor
  · rintro ⟨j, active, named⟩
    by_cases same : j = i
    · rw [same, placed.here] at named
      exact Or.inr named
    · rw [placed.others j same] at active named
      exact Or.inl ⟨j, active, named⟩
  · rintro (⟨j, active, named⟩ | named)
    · have apart : j ≠ i := by
        rintro rfl
        rw [placed.free] at active
        cases active
      exact ⟨j, by rw [placed.others j apart]; exact active, by rw [placed.others j apart]; exact named⟩
    · exact ⟨i, by rw [placed.here]; exact placed.active, by rw [placed.here]; exact named⟩

theorem Placed.distinct (placed : Placed rel rel' i e) (distinct : rel.Distinct)
    (fresh : ¬ rel.Active e.packet_id) : rel'.Distinct := by
  intro j k hj hk named
  by_cases jNew : j = i <;> by_cases kNew : k = i
  · rw [jNew, kNew]
  · rw [jNew, placed.here, placed.others k kNew] at named
    rw [placed.others k kNew] at hk
    exact absurd ⟨k, hk, named.symm⟩ fresh
  · rw [kNew, placed.here, placed.others j jNew] at named
    rw [placed.others j jNew] at hj
    exact absurd ⟨j, hj, named⟩ fresh
  · rw [placed.others j jNew] at hj named
    rw [placed.others k kNew] at hk named
    exact distinct j k hj hk named

end Placed

section Buffers

variable {rel rel' : Reliable size} {i : Fin size}

theorem get_buf_free (found : reliableGetBuf rel = some (rel', i)) :
    (rel.entry i).active = false ∧ rel' = rel.store i { rel.entry i with buf := [] } := by
  unfold reliableGetBuf at found
  split at found
  · rename_i j free
    obtain ⟨rfl, rfl⟩ := by simpa using found
    have passes := firstSlot_passes free
    exact ⟨by simpa [Reliable.entry] using passes, rfl⟩
  · cases found

theorem get_buf_of_can_get (free : reliableCanGet rel = true) : ∃ out, reliableGetBuf rel = some out := by
  obtain ⟨j, inactive⟩ := anySlot_iff.mp free
  unfold reliableGetBuf
  split
  · exact ⟨_, rfl⟩
  · rename_i none_free
    rw [firstSlot_eq_none.mp none_free j] at inactive
    cases inactive

theorem can_get_iff : reliableCanGet rel = true ↔ ∃ i, (rel.entry i).active = false := by
  unfold reliableCanGet
  rw [anySlot_iff]
  simp [Reliable.entry]

theorem get_buf_of_output_sequenced (found : reliableGetBufOutputSequenced rel = some (rel', i)) :
    reliableGetBuf rel = some (rel', i) := by
  unfold reliableGetBufOutputSequenced at found
  split at found
  · exact found
  · split at found
    · exact found
    · cases found

theorem extent_toNat (small : size ≤ 8) : (UInt32.ofNat size).toNat = size :=
  UInt32.toNat_ofNat_of_lt' (lt_of_le_of_lt small (by decide))

/-- A new packet is within `size` of every one still to be acknowledged. -/
theorem output_sequenced_window (small : size ≤ 8) (first : rel.packet_id.toNat < 2 ^ 31)
    (below : ∀ j, (rel.entry j).active = true → (rel.entry j).packet_id.toNat < rel.packet_id.toNat)
    (found : reliableGetBufOutputSequenced rel = some (rel', i)) (j : Fin size)
    (active : (rel.entry j).active = true) : rel.packet_id.toNat < (rel.entry j).packet_id.toNat + size := by
  unfold reliableGetBufOutputSequenced at found
  split at found
  · rename_i nobody
    have inactive := bestSlot_eq_none.mp nobody j
    exact absurd active (by simpa [Reliable.entry] using inactive)
  · rename_i least chosen
    obtain ⟨passes, lowest⟩ := bestSlot_least (fun e : ReliableEntry => e.packet_id.toNat) (by
      intro x y hx hy
      have xLow := below x hx
      have yLow := below y hy
      simp only [Reliable.entry] at xLow yLow
      exact pid_min_iff (by omega) (by omega)) chosen
    have near := lowest j active
    split at found
    · rename_i inRange
      have under := below least passes
      rw [pid_in_range1_iff (by omega), extent_toNat small] at inRange
      simp only [Reliable.entry] at inRange near under ⊢
      omega
    · cases found

theorem sequenced_found (found : reliableGetBufSequenced rel = some i) :
    (rel.entry i).active = true ∧ (rel.entry i).packet_id = rel.packet_id := by
  have passes := firstSlot_passes found
  simpa [Reliable.entry] using passes

theorem sequenced_eq_none (missing : reliableGetBufSequenced rel = none) : ¬ rel.Active rel.packet_id := by
  rintro ⟨j, active, named⟩
  have fails := firstSlot_eq_none.mp missing j
  simp only [Reliable.entry] at active named
  simp [active, named] at fails

theorem not_replay_iff {id : UInt32} :
    reliableNotReplay rel id = true ↔ reliablePidMin id rel.packet_id = false ∧ ¬ rel.Active id := by
  unfold reliableNotReplay Reliable.Active Reliable.entry
  by_cases low : reliablePidMin id rel.packet_id = true
  · simp [low]
  · rw [if_neg low, Bool.not_eq_true', anySlot_eq_false]
    simp [low]

end Buffers

section Marks

variable {rel rel' : Reliable size} {i : Fin size}

theorem mark_active_outgoing_placed (found : reliableGetBuf rel = some (rel', i)) (opcode : Opcode)
    (ciphertext : Bytes) :
    Placed rel (reliableMarkActiveOutgoing
        (rel'.store i { rel'.entry i with buf := (rel'.entry i).buf ++ ciphertext }) i opcode) i
      { active := true, opcode := opcode, next_try := 0, timeout := rel.initial_timeout
        packet_id := rel.packet_id, buf := htonpid rel.packet_id ++ ciphertext } := by
  obtain ⟨free, rfl⟩ := get_buf_free found
  unfold reliableMarkActiveOutgoing
  refine ⟨free, rfl, by simp, fun j apart => ?_⟩
  simp [entry_store, apart]

theorem mark_active_incoming_placed (found : reliableGetBuf rel = some (rel', i)) {rel'' : Reliable size}
    {pid : UInt32} {opcode : Opcode} {ciphertext : Bytes}
    (marked : reliableMarkActiveIncoming
      (rel'.store i { rel'.entry i with buf := (rel'.entry i).buf ++ ciphertext }) i pid opcode = some rel'') :
    rel''.packet_id = rel.packet_id ∧ Placed rel rel'' i
      { active := true, opcode := opcode, next_try := 0, timeout := 0, packet_id := pid, buf := ciphertext } := by
  obtain ⟨free, rfl⟩ := get_buf_free found
  unfold reliableMarkActiveIncoming at marked
  simp only [store_store, entry_store_self, store_packet_id, List.nil_append] at marked
  split at marked
  · cases marked
  · simp only [Option.some.injEq] at marked
    rw [← marked]
    refine ⟨rfl, free, rfl, by simp, fun j apart => ?_⟩
    simp [entry_store, apart]

/-- An active entry has been given up. -/
structure Freed (rel rel' : Reliable size) (i : Fin size) : Prop where
  here : (rel'.entry i).active = false
  others : ∀ j, j ≠ i → rel'.entry j = rel.entry j

theorem Freed.still (freed : Freed rel rel' i) {j : Fin size} (active : (rel'.entry j).active = true) :
    j ≠ i ∧ rel'.entry j = rel.entry j := by
  have apart : j ≠ i := by
    rintro rfl
    rw [freed.here] at active
    cases active
  exact ⟨apart, freed.others j apart⟩

theorem Freed.distinct (freed : Freed rel rel' i) (distinct : rel.Distinct) : rel'.Distinct := by
  intro j k hj hk named
  have jSame := (freed.still hj).2
  have kSame := (freed.still hk).2
  rw [jSame] at hj named
  rw [kSame] at hk named
  exact distinct j k hj hk named

theorem mark_deleted_freed (rel : Reliable size) (i : Fin size) :
    (reliableMarkDeleted rel i true).packet_id = (rel.entry i).packet_id + 1 ∧
      Freed rel (reliableMarkDeleted rel i true) i := by
  unfold reliableMarkDeleted
  refine ⟨rfl, by simp, fun j apart => ?_⟩
  simp [entry_store, apart]

end Marks

section Purge

variable (rel : Reliable size)

/-- What acknowledging the ids of a record may do to an entry. -/
def PurgedBy (ids : List UInt32) (e e' : ReliableEntry) : Prop :=
  e' = e ∨ e.active = true ∧ e.packet_id ∈ ids ∧ e' = { e with active := false }

theorem purge_id_entry (pid : UInt32) (j : Fin size) :
    PurgedBy [pid] (rel.entry j) ((reliableSendPurgeId rel pid).entry j) := by
  unfold reliableSendPurgeId
  split
  · rename_i i found
    have passes := firstSlot_passes found
    have acked : (rel.entry i).active = true ∧ (rel.entry i).packet_id = pid := by
      simpa [Reliable.entry] using passes
    rw [entry_store]
    by_cases same : j = i
    · subst same
      rw [if_pos rfl]
      exact Or.inr ⟨acked.1, by simp [acked.2], rfl⟩
    · rw [if_neg same]
      exact Or.inl rfl
  · exact Or.inl rfl

theorem purge_id_frame (pid : UInt32) :
    (reliableSendPurgeId rel pid).packet_id = rel.packet_id ∧ (reliableSendPurgeId rel pid).hold = rel.hold := by
  unfold reliableSendPurgeId
  split <;> exact ⟨rfl, rfl⟩

theorem purge_ids_entry (ids : List UInt32) (j : Fin size) :
    PurgedBy ids (rel.entry j) ((ids.foldl reliableSendPurgeId rel).entry j) := by
  induction ids generalizing rel with
  | nil => exact Or.inl rfl
  | cons id ids ih =>
    rw [List.foldl_cons]
    rcases purge_id_entry rel id j with first | ⟨active, named, first⟩ <;>
      rcases ih (reliableSendPurgeId rel id) with later | ⟨still, member, later⟩ <;> rw [first] at later
    · exact Or.inl later
    · rw [first] at still member
      exact Or.inr ⟨still, List.mem_cons_of_mem _ member, later⟩
    · exact Or.inr ⟨active, by simp [List.mem_singleton.mp named], later⟩
    · rw [first] at still
      cases still

theorem purge_entry (ack : ReliableAck) (j : Fin size) :
    PurgedBy ack.packet_id (rel.entry j) ((reliableSendPurge rel ack).entry j) := purge_ids_entry rel _ j

theorem purge_frame (ack : ReliableAck) :
    (reliableSendPurge rel ack).packet_id = rel.packet_id ∧ (reliableSendPurge rel ack).hold = rel.hold := by
  unfold reliableSendPurge
  generalize ack.packet_id = ids
  induction ids generalizing rel with
  | nil => exact ⟨rfl, rfl⟩
  | cons id ids ih =>
    obtain ⟨number, hold⟩ := ih (reliableSendPurgeId rel id)
    obtain ⟨number', hold'⟩ := purge_id_frame rel id
    exact ⟨number.trans number', hold.trans hold'⟩

theorem purge_id_clears (distinct : rel.Distinct) (pid : UInt32) : ¬ (reliableSendPurgeId rel pid).Active pid := by
  rintro ⟨j, active, named⟩
  unfold reliableSendPurgeId at active named
  split at active
  · rename_i i found
    have passes := firstSlot_passes found
    have acked : (rel.entry i).active = true ∧ (rel.entry i).packet_id = pid := by
      simpa [Reliable.entry] using passes
    simp only [found, entry_store] at active named
    by_cases same : j = i
    · simp [same] at active
    · rw [if_neg same] at active named
      exact same (distinct j i active acked.1 (named.trans acked.2.symm))
  · rename_i missing
    have fails := firstSlot_eq_none.mp missing j
    simp only [missing] at named
    simp only [Reliable.entry] at active named
    simp [active, named] at fails

end Purge

section Send

variable {rel : Reliable size} {now : Int}

theorem can_send_iff : reliableCanSend rel now = true ↔
    (∃ i, (rel.entry i).active = true ∧ (rel.entry i).next_try ≤ now) ∧ rel.hold = false := by
  unfold reliableCanSend
  simp only [Bool.and_eq_true, decide_eq_true_eq, gt_iff_lt, List.length_pos_iff_exists_mem, List.mem_filter,
    List.mem_finRange, true_and, ge_iff_le, Bool.not_eq_true']

theorem send_of_can_send (can : reliableCanSend rel now = true) : ∃ out, reliableSend rel now = some out := by
  obtain ⟨⟨i, active, due⟩, _⟩ := can_send_iff.mp can
  unfold reliableSend
  split
  · exact ⟨_, rfl⟩
  · rename_i missing
    have fails := bestSlot_eq_none.mp missing i
    simp only [Reliable.entry] at active due
    simp [active, due] at fails

theorem send_best {rel' : Reliable size} {best : Fin size} {opcode : Opcode}
    (sent : reliableSend rel now = some (rel', best, opcode)) :
    SamePackets rel rel' ∧ (rel.entry best).active = true ∧ (rel.entry best).opcode = opcode ∧
      rel'.hold = rel.hold := by
  unfold reliableSend at sent
  split at sent
  · rename_i i found
    obtain ⟨rfl, rfl, rfl⟩ := by simpa using sent
    have passes := bestSlot_passes found
    refine ⟨⟨rfl, fun j => ?_⟩, ?_, rfl, rfl⟩
    · rw [entry_store]
      by_cases same : j = i
      · subst same
        rw [if_pos rfl]
        exact ⟨rfl, rfl, rfl, rfl⟩
      · rw [if_neg same]
        exact SamePacket.refl _
    · simp only [Bool.and_eq_true] at passes
      exact passes.1
  · cases sent

theorem send_least {rel' : Reliable size} {best : Fin size} {opcode : Opcode}
    (sent : reliableSend rel now = some (rel', best, opcode))
    (low : ∀ i, (rel.entry i).active = true → (rel.entry i).next_try ≤ now → (rel.entry i).packet_id.toNat < 2 ^ 31)
    (j : Fin size) (active : (rel.entry j).active = true) (due : (rel.entry j).next_try ≤ now) :
    (rel.entry best).packet_id.toNat ≤ (rel.entry j).packet_id.toNat := by
  unfold reliableSend at sent
  split at sent
  · rename_i i found
    obtain ⟨_, rfl, _⟩ := by simpa using sent
    obtain ⟨_, lowest⟩ := bestSlot_least (fun e : ReliableEntry => e.packet_id.toNat) (by
      intro x y hx hy
      simp only [Bool.and_eq_true, decide_eq_true_eq, ge_iff_le] at hx hy
      have xLow := low x hx.1 hx.2
      have yLow := low y hy.1 hy.2
      simp only [Reliable.entry] at xLow yLow
      exact pid_min_iff (by omega) (by omega)) found
    apply lowest
    simp only [Reliable.entry] at active due
    simp [active, due]
  · cases sent

theorem schedule_now_same (rel : Reliable size) (now : Int) : SamePackets rel (reliableScheduleNow rel now) := by
  refine ⟨rfl, fun i => ?_⟩
  unfold reliableScheduleNow Reliable.entry
  rw [get_mapped]
  split
  · exact ⟨rfl, rfl, rfl, rfl⟩
  · exact SamePacket.refl _

end Send

end OpenVpn
