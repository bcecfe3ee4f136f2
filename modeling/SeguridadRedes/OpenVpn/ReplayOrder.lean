import SeguridadRedes.OpenVpn.ReplaySafety

namespace OpenVpn

open C (runs runs_cons_eq_some)

variable {seq_backtrack : Nat}

theorem init_zero {p : PacketIdRec seq_backtrack} {send : PacketIdSend} {time_backtrack : Int}
    (made : packetIdInit seq_backtrack time_backtrack = some (send, p)) : send = ⟨0, 0⟩ ∧ p.time = 0 ∧ p.id = 0 := by
  unfold packetIdInit at made
  split at made
  · split at made
    · obtain ⟨rfl, rfl⟩ := by simpa using made
      exact ⟨rfl, rfl, rfl⟩
    · cases made
  · obtain ⟨rfl, rfl⟩ := by simpa using made
    exact ⟨rfl, rfl, rfl⟩

theorem init_loads_nothing (p : PacketIdRec seq_backtrack) : packetIdPersistLoadObj ⟨false, 0, 0⟩ p = p := rfl

section Reordered

/-- What two packets, the first of which arrives before the other, must keep to for both to be taken. -/
def Timely (seq_backtrack : Nat) (time_backtrack : Int) (a b : Arrival) : Prop :=
  a.packet.id ≠ b.packet.id ∧ a.packet.id.toNat < b.packet.id.toNat + seq_backtrack ∧
    (time_backtrack = 0 ∨ b.now ≤ a.now + time_backtrack)

instance (time_backtrack : Int) : DecidableRel (Timely seq_backtrack time_backtrack) :=
  fun _ _ => inferInstanceAs (Decidable (_ ∧ _ ∧ (_ ∨ _)))

/-- The window has taken these arrivals of one sequence, and nothing else. -/
structure Window.Took (w : Window) (time : Int) (past : List Arrival) : Prop where
  fresh : ∀ id, ¬ w.expired id
  received : ∀ id at_id, w.received id = some at_id → ∃ a ∈ past, a.packet.id.toNat = id ∧ a.now = at_id
  stands : w.blank = true ∧ (w.time < time ∨ w.time = time ∧ w.top = 0) ∨
    w.blank = false ∧ w.time = time ∧ ∃ a ∈ past, w.top = a.packet.id.toNat

variable {age time : Int} {w : Window} {past : List Arrival} {b : Arrival}

theorem Window.Took.reap (took : w.Took time past) {now : Int} (patient : ∀ a ∈ past, age = 0 ∨ now ≤ a.now + age) :
    (w.reap age now).Took time past := by
  refine ⟨?_, took.received, took.stands⟩
  rintro id (expired | ⟨limited, later, received, _, at_later, old⟩)
  · exact took.fresh id expired
  · obtain ⟨a, member, _, rfl⟩ := took.received later received at_later
    rcases patient a member with unlimited | soon
    · exact limited unlimited
    · omega

theorem Window.Took.accepts (took : w.Took time past) (nonzero : b.packet.id ≠ 0)
    (timely : ∀ a ∈ past, Timely seq_backtrack age a b) : w.Accepts seq_backtrack time b.packet.id.toNat := by
  have positive : b.packet.id.toNat ≠ 0 := fun zero => nonzero (UInt32.toNat_inj.mp zero)
  refine ⟨positive, ?_⟩
  rcases took.stands with ⟨_, before | ⟨same, zero⟩⟩ | ⟨nonblank, same, last, member, top⟩
  · exact Or.inl before
  · exact Or.inr ⟨same.symm, Or.inl (by omega)⟩
  · refine Or.inr ⟨same.symm, Or.inr ⟨nonblank, top ▸ (timely last member).2.1, took.fresh _, ?_⟩⟩
    by_contra something
    obtain ⟨at_id, received⟩ := Option.ne_none_iff_exists'.mp something
    obtain ⟨a, already, sameId, _⟩ := took.received _ at_id received
    exact (timely a already).1 (UInt32.toNat_inj.mp sameId)

theorem Window.Took.accept (took : w.Took time past) :
    (w.accept time b.packet.id.toNat b.now).Took time (past ++ [b]) := by
  have last : b ∈ past ++ [b] := List.mem_append_right _ (List.mem_singleton_self b)
  have noted : ∀ (earlier : Nat → Option Int),
      (∀ id at_id, earlier id = some at_id → ∃ a ∈ past, a.packet.id.toNat = id ∧ a.now = at_id) →
      ∀ id at_id, Function.update earlier b.packet.id.toNat (some b.now) id = some at_id →
        ∃ a ∈ past ++ [b], a.packet.id.toNat = id ∧ a.now = at_id := by
    intro earlier known id at_id stored
    rw [Function.update_apply] at stored
    split at stored
    · rename_i same
      exact ⟨b, last, same.symm, by simpa using stored⟩
    · obtain ⟨a, member, same⟩ := known id at_id stored
      exact ⟨a, List.mem_append_left _ member, same⟩
  unfold Window.accept
  split
  · exact ⟨fun _ => not_false, noted _ (fun _ _ empty => by cases empty), Or.inr ⟨rfl, rfl, b, last, rfl⟩⟩
  · rename_i kept
    refine ⟨took.fresh, noted _ took.received, ?_⟩
    rcases took.stands with ⟨blank, _⟩ | ⟨nonblank, same, top, member, stands⟩
    · exact absurd (Or.inl blank) kept
    · refine Or.inr ⟨nonblank, same, ?_⟩
      rcases Nat.le_total w.top b.packet.id.toNat with above | below
      · exact ⟨b, last, Nat.max_eq_right above⟩
      · exact ⟨top, List.mem_append_left _ member, (Nat.max_eq_left below).trans stands⟩

theorem Window.Took.arrive (took : w.Took time past) (nonzero : b.packet.id ≠ 0)
    (timely : ∀ a ∈ past, Timely seq_backtrack age a b) (interval : Int) :
    (w.arrive seq_backtrack age interval time b.packet.id.toNat b.now).2 = true ∧
      (w.arrive seq_backtrack age interval time b.packet.id.toNat b.now).1.Took time (past ++ [b]) := by
  obtain ⟨swept, same, arrived⟩ := Window.arrive_cases seq_backtrack age interval w time b.packet.id.toNat b.now
  have still : swept.Took time past := by
    rcases same with rfl | rfl
    · exact took
    · exact took.reap fun a member => (timely a member).2.2
  have accepts := still.accepts nonzero timely
  rcases arrived with ⟨_, arrived⟩ | ⟨refuses, _⟩
  · rw [arrived]
    exact ⟨rfl, still.accept⟩
  · exact absurd accepts refuses

theorem Guarded.all_timely {r : Receiving seq_backtrack} (guarded : Guarded age r w) (took : w.Took time past)
    {arrivals : List Arrival} (packets : ∀ b ∈ arrivals, b.packet.time = time ∧ b.packet.id ≠ 0)
    (timely : (past ++ arrivals).Pairwise (Timely seq_backtrack age)) :
    ∃ r', runs OpenVpn.arrive r arrivals = some r' ∧ r'.accepted = r.accepted ++ arrivals.map Arrival.packet := by
  induction arrivals generalizing r w past with
  | nil => exact ⟨r, rfl, by simp⟩
  | cons b rest ih =>
    obtain ⟨same, nonzero⟩ := packets b List.mem_cons_self
    have sooner : ∀ a ∈ past, Timely seq_backtrack age a b :=
      fun a member => (List.pairwise_append.mp timely).2.2 a member b List.mem_cons_self
    obtain ⟨ok, later⟩ := took.arrive nonzero sooner SEQ_REAP_INTERVAL
    obtain ⟨r₁, arrived, next, accepted⟩ := guarded.arrive b
    rw [same] at next accepted
    rw [if_pos ok] at accepted
    obtain ⟨r', ran, all⟩ := ih next later (fun c member => packets c (List.mem_cons_of_mem _ member))
      (by rw [List.append_assoc]; exact timely)
    refine ⟨r', runs_cons_eq_some.mpr ⟨r₁, arrived, ran⟩, ?_⟩
    rw [all, accepted, List.append_assoc]
    rfl

end Reordered

/-- Distinct packets of one sequence are all taken, in whatever order they come, as long as none comes a window or more
behind another or after its time. -/
theorem reordered_all_accepted (positive : 0 < seq_backtrack) {p : PacketIdRec seq_backtrack} {send : PacketIdSend}
    {time_backtrack : Int} (made : packetIdInit seq_backtrack time_backtrack = some (send, p)) {time : Int}
    (stamp : 0 ≤ time) {arrivals : List Arrival} (packets : ∀ b ∈ arrivals, b.packet.time = time ∧ b.packet.id ≠ 0)
    (timely : arrivals.Pairwise (Timely seq_backtrack time_backtrack)) :
    ∃ r, receive p arrivals = some r ∧ r.accepted = arrivals.map Arrival.packet := by
  have begun := init_refines positive made ⟨false, 0, 0⟩
  rw [init_loads_nothing] at begun
  obtain ⟨_, zeroTime, zeroId⟩ := init_zero made
  have took : (Window.starting p.time p.id.toNat).Took time [] := by
    refine ⟨fun _ => not_false, (fun _ _ empty => by cases empty), Or.inl ⟨rfl, ?_⟩⟩
    rcases stamp.lt_or_eq with later | same
    · exact Or.inl (zeroTime ▸ later)
    · exact Or.inr ⟨zeroTime.trans same, zeroId ▸ rfl⟩
  exact (guarded_start begun).all_timely took packets timely

theorem sample_reordered : ∃ r, receive sampleRecord
    [⟨⟨2, 5⟩, 2, by decide⟩, ⟨⟨1, 5⟩, 9, by decide⟩, ⟨⟨40, 5⟩, 9, by decide⟩, ⟨⟨3, 5⟩, 17, by decide⟩] = some r ∧
      r.accepted = [⟨2, 5⟩, ⟨1, 5⟩, ⟨40, 5⟩, ⟨3, 5⟩] :=
  reordered_all_accepted (by decide) sample_made (by decide : (0 : Int) ≤ 5) (by decide) (by decide)

section InOrder

variable {age : Int} {w : Window}

/-- Newer than all the window has seen. -/
def Window.Below (w : Window) (b : PacketIdNet) : Prop :=
  w.time < b.time ∨ w.time = b.time ∧ w.top < b.id.toNat

theorem Window.Below.arrive {a : Arrival} (below : w.Below a.packet) (nonzero : a.packet.id ≠ 0) (interval : Int) :
    (w.arrive seq_backtrack age interval a.packet.time a.packet.id.toNat a.now).2 = true ∧
      ∀ b, Before a.packet b →
        (w.arrive seq_backtrack age interval a.packet.time a.packet.id.toNat a.now).1.Below b := by
  obtain ⟨swept, same, arrived⟩ :=
    Window.arrive_cases seq_backtrack age interval w a.packet.time a.packet.id.toNat a.now
  have still : swept.Below a.packet := by
    rcases same with rfl | rfl <;> exact below
  have positive : a.packet.id.toNat ≠ 0 := fun zero => nonzero (UInt32.toNat_inj.mp zero)
  have accepts : swept.Accepts seq_backtrack a.packet.time a.packet.id.toNat :=
    ⟨positive, still.imp_right fun ⟨equal, above⟩ => ⟨equal.symm, Or.inl above⟩⟩
  rcases arrived with ⟨_, arrived⟩ | ⟨refuses, _⟩
  · rw [arrived]
    refine ⟨rfl, fun b before => ?_⟩
    unfold Window.Below Window.accept
    unfold Window.Below at still
    unfold Before at before
    split
    · exact before
    · rename_i kept
      have notLater : ¬ swept.time < a.packet.time := fun later => kept (Or.inr later)
      simp only
      omega
  · exact absurd accepts refuses

theorem Guarded.all_in_order {r : Receiving seq_backtrack} (guarded : Guarded age r w) {arrivals : List Arrival}
    (below : ∀ b ∈ arrivals, w.Below b.packet) (nonzero : ∀ b ∈ arrivals, b.packet.id ≠ 0)
    (ordered : (arrivals.map Arrival.packet).Pairwise Before) :
    ∃ r', runs OpenVpn.arrive r arrivals = some r' ∧ r'.accepted = r.accepted ++ arrivals.map Arrival.packet := by
  induction arrivals generalizing r w with
  | nil => exact ⟨r, rfl, by simp⟩
  | cons b rest ih =>
    obtain ⟨ok, later⟩ :=
      @Window.Below.arrive seq_backtrack age w b (below b List.mem_cons_self) (nonzero b List.mem_cons_self)
        SEQ_REAP_INTERVAL
    obtain ⟨r₁, arrived, next, accepted⟩ := guarded.arrive b
    rw [if_pos ok] at accepted
    rw [List.map_cons, List.pairwise_cons] at ordered
    obtain ⟨r', ran, all⟩ := ih next
      (fun c member => later c.packet (ordered.1 c.packet (List.mem_map_of_mem member)))
      (fun c member => nonzero c (List.mem_cons_of_mem _ member)) ordered.2
    refine ⟨r', runs_cons_eq_some.mpr ⟨r₁, arrived, ran⟩, ?_⟩
    rw [all, accepted, List.append_assoc]
    rfl

theorem Following.all_in_turn {r : Receiving 0} (following : Following r.receiver r.accepted) {arrivals : List Arrival}
    (turn : ∀ b ∈ (arrivals.map Arrival.packet).head?, InTurn r.receiver b)
    (nonzero : ∀ b ∈ arrivals, b.packet.id ≠ 0)
    (sequence : (arrivals.map Arrival.packet).IsChain Succeeds) :
    ∃ r', runs OpenVpn.arrive r arrivals = some r' ∧ r'.accepted = r.accepted ++ arrivals.map Arrival.packet := by
  induction arrivals generalizing r with
  | nil => exact ⟨r, rfl, by simp⟩
  | cons b rest ih =>
    obtain ⟨p', ok, decrypted, _, verdict, time, id⟩ := decrypt_in_turn following.initialized b.packet b.now
    obtain rfl : ok = true := verdict.mpr (turn b.packet (by simp))
    have arrived : OpenVpn.arrive r b = some ⟨p', r.log ++ [(b.packet, true)]⟩ := by
      unfold OpenVpn.arrive
      rw [decrypted]
    have accepted : (Receiving.mk p' (r.log ++ [(b.packet, true)])).accepted = r.accepted ++ [b.packet] :=
      accepted_append p' r.log b.packet true
    rw [List.map_cons, List.isChain_cons] at sequence
    have next : ∀ c ∈ (rest.map Arrival.packet).head?, InTurn p' c := by
      intro c first
      have member : c ∈ rest.map Arrival.packet := List.mem_of_mem_head? first
      obtain ⟨arrival, inside, rfl⟩ := List.mem_map.mp member
      refine ⟨nonzero arrival (List.mem_cons_of_mem _ inside), ?_⟩
      rw [time, id]
      rcases sequence.1 _ first with ⟨same, succ⟩ | ⟨later, one⟩
      · refine Or.inl ⟨same, Or.inr (UInt32.toNat_inj.mp ?_)⟩
        have bound := arrival.packet.id.toNat_lt
        rw [if_pos rfl, succ_toNat (by omega)]
        exact succ
      · exact Or.inr ⟨later, one⟩
    obtain ⟨r', ran, all⟩ := ih (following.arrive arrived) next
      (fun c member => nonzero c (List.mem_cons_of_mem _ member)) sequence.2
    refine ⟨r', runs_cons_eq_some.mpr ⟨_, arrived, ran⟩, ?_⟩
    rw [all, accepted, List.append_assoc]
    rfl

end InOrder

end OpenVpn
