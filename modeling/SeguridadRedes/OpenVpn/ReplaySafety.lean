import SeguridadRedes.OpenVpn.Replay

namespace OpenVpn

open C (runs runs_nil runs_cons_eq_some runs_invariant)

variable {seq_backtrack : Nat}

/-- The window of a receiver, and what it says of the packets accepted so far. -/
structure Guarded (age : Int) (r : Receiving seq_backtrack) (w : Window) : Prop where
  refines : Refines age r.receiver w
  spent : ∀ a ∈ r.accepted, w.Spent a.time a.id.toNat
  nonzero : ∀ a ∈ r.accepted, a.id.toNat ≠ 0
  distinct : r.accepted.Nodup

section AtMostOnce

variable {age : Int} {r r' : Receiving seq_backtrack} {w : Window}

theorem guarded_start {p : PacketIdRec seq_backtrack} (refines : Refines age p w) : Guarded age ⟨p, []⟩ w :=
  ⟨refines, fun _ member => absurd member List.not_mem_nil, fun _ member => absurd member List.not_mem_nil,
    List.nodup_nil⟩

theorem Guarded.arrive (guarded : Guarded age r w) (arrival : Arrival) :
    ∃ r', OpenVpn.arrive r arrival = some r' ∧
      Guarded age r' (w.arrive seq_backtrack age SEQ_REAP_INTERVAL arrival.packet.time arrival.packet.id.toNat
        arrival.now).1 ∧
      r'.accepted = r.accepted ++ if (w.arrive seq_backtrack age SEQ_REAP_INTERVAL arrival.packet.time
        arrival.packet.id.toNat arrival.now).2 then [arrival.packet] else [] := by
  obtain ⟨p', decrypted, refines⟩ := guarded.refines.arrive arrival
  generalize out : w.arrive seq_backtrack age SEQ_REAP_INTERVAL arrival.packet.time arrival.packet.id.toNat
    arrival.now = watched at decrypted refines ⊢
  obtain ⟨w', ok⟩ := watched
  have accepted : (Receiving.mk p' (r.log ++ [(arrival.packet, ok)])).accepted =
      r.accepted ++ if ok then [arrival.packet] else [] := accepted_append p' r.log arrival.packet ok
  have kept : ∀ a ∈ r.accepted, w'.Spent a.time a.id.toNat := by
    intro a member
    have still := (guarded.spent a member).arrive seq_backtrack age SEQ_REAP_INTERVAL arrival.packet.time
      arrival.packet.id.toNat arrival.now
    rwa [out] at still
  refine ⟨⟨p', r.log ++ [(arrival.packet, ok)]⟩, ?_, ⟨refines, ?_, ?_, ?_⟩, accepted⟩
  · unfold OpenVpn.arrive
    rw [decrypted]
  · intro a member
    rw [accepted] at member
    cases ok with
    | false => exact kept a (by simpa using member)
    | true =>
      have spends := @Window.arrive_spends w seq_backtrack age SEQ_REAP_INTERVAL arrival.packet.time
        arrival.packet.id.toNat arrival.now (by rw [out])
      rw [out] at spends
      rcases List.mem_append.mp member with before | last
      · exact kept a before
      · obtain rfl : a = arrival.packet := by simpa using last
        exact spends.2
  · intro a member
    rw [accepted] at member
    cases ok with
    | false => exact guarded.nonzero a (by simpa using member)
    | true =>
      rcases List.mem_append.mp member with before | last
      · exact guarded.nonzero a before
      · obtain rfl : a = arrival.packet := by simpa using last
        exact @Window.arrive_nonzero w seq_backtrack age SEQ_REAP_INTERVAL arrival.packet.time
          arrival.packet.id.toNat arrival.now (by rw [out])
  · rw [accepted]
    cases ok with
    | false => simpa using guarded.distinct
    | true =>
      have spends := @Window.arrive_spends w seq_backtrack age SEQ_REAP_INTERVAL arrival.packet.time
        arrival.packet.id.toNat arrival.now (by rw [out])
      simp only [if_true]
      rw [List.nodup_append]
      refine ⟨guarded.distinct, List.nodup_singleton _, ?_⟩
      intro a member b isLast same
      obtain rfl : b = arrival.packet := by simpa using isLast
      exact spends.1 (same ▸ guarded.spent a member)

theorem Guarded.run (guarded : Guarded age r w) {arrivals : List Arrival}
    (ran : runs OpenVpn.arrive r arrivals = some r') : ∃ w', Guarded age r' w' := by
  have step : ∀ (s : Receiving seq_backtrack) arrival s', (∃ w, Guarded age s w) →
    OpenVpn.arrive s arrival = some s' → ∃ w, Guarded age s' w := by
    rintro s arrival s' ⟨w, before⟩ arrived
    obtain ⟨next, same, after, _⟩ := before.arrive arrival
    obtain rfl : s' = next := by simpa [arrived] using same
    exact ⟨_, after⟩
  exact runs_invariant step ⟨w, guarded⟩ ran

theorem Following.distinct {p : PacketIdRec 0} {accepted : List PacketIdNet} (following : Following p accepted) :
    accepted.Nodup := by
  have increasing : accepted.IsChain Before := following.sequence.imp fun a b next => next.before
  exact (List.isChain_iff_pairwise.mp increasing).imp Before.ne

/-- What keeps a receiver from taking a packet twice: with a window its list, without one the order of the ids. -/
def Remembers : {seq_backtrack : Nat} → Receiving seq_backtrack → Prop
  | 0, r => Following r.receiver r.accepted
  | _ + 1, r => ∃ age w, Guarded age r w

theorem remembers_start {p : PacketIdRec seq_backtrack} {send : PacketIdSend} {time_backtrack : Int}
    (made : packetIdInit seq_backtrack time_backtrack = some (send, p)) (persist : PacketIdPersist) :
    Remembers ⟨packetIdPersistLoadObj persist p, []⟩ := by
  cases seq_backtrack with
  | zero => exact following_init made persist
  | succ n => exact ⟨_, _, guarded_start (init_refines (Nat.succ_pos n) made persist)⟩

theorem Remembers.arrive (remembers : Remembers r) {arrival : Arrival}
    (arrived : OpenVpn.arrive r arrival = some r') : Remembers r' := by
  cases seq_backtrack with
  | zero => exact Following.arrive remembers arrived
  | succ n =>
    obtain ⟨age, w, guarded⟩ := remembers
    obtain ⟨next, same, after, _⟩ := guarded.arrive arrival
    obtain rfl : r' = next := by simpa [arrived] using same
    exact ⟨age, _, after⟩

theorem Remembers.distinct (remembers : Remembers r) : r.accepted.Nodup := by
  cases seq_backtrack with
  | zero => exact Following.distinct remembers
  | succ n =>
    obtain ⟨_, _, guarded⟩ := remembers
    exact guarded.distinct

end AtMostOnce

/-- Whatever arrives, repeated and reordered at will, no packet is accepted twice. -/
theorem accepted_at_most_once {p : PacketIdRec seq_backtrack} {send : PacketIdSend} {time_backtrack : Int}
    (made : packetIdInit seq_backtrack time_backtrack = some (send, p)) (persist : PacketIdPersist)
    (arrivals : List Arrival) {r : Receiving seq_backtrack}
    (ran : receive (packetIdPersistLoadObj persist p) arrivals = some r) : r.accepted.Nodup :=
  (runs_invariant (fun _ _ _ before arrived => Remembers.arrive before arrived)
    (remembers_start made persist) ran).distinct

theorem sample_accepted_once : ∃ r, receive sampleRecord
    [⟨⟨1, 5⟩, 2, by decide⟩, ⟨⟨3, 5⟩, 4, by decide⟩, ⟨⟨1, 5⟩, 6, by decide⟩] = some r ∧ r.accepted.Nodup := by
  obtain ⟨r, ran, _⟩ := (init_refines (by decide) sample_made unsaved).runs
    [⟨⟨1, 5⟩, 2, by decide⟩, ⟨⟨3, 5⟩, 4, by decide⟩, ⟨⟨1, 5⟩, 6, by decide⟩] []
  exact ⟨r, ran, accepted_at_most_once sample_made unsaved _ ran⟩

section Restart

variable {age : Int} {r r' : Receiving seq_backtrack} {w : Window} {time : Int} {top : Nat}

def Reachable (seq_backtrack : Nat) (time : Int) (top : Nat) (pin : PacketIdNet) : Prop :=
  time < pin.time ∨ pin.time = time ∧ (top < pin.id.toNat ∨ top + 1 < pin.id.toNat + seq_backtrack ∧ top + 1 < 2 ^ 32)

theorem Guarded.past_run (guarded : Guarded age r w) (past : w.Past time top)
    (reachable : ∀ a ∈ r.accepted, Reachable seq_backtrack time top a) {arrivals : List Arrival}
    (ran : runs OpenVpn.arrive r arrivals = some r') : ∀ a ∈ r'.accepted, Reachable seq_backtrack time top a := by
  have step : ∀ (s : Receiving seq_backtrack) arrival s',
      (∃ w, Guarded age s w ∧ w.Past time top ∧ ∀ a ∈ s.accepted, Reachable seq_backtrack time top a) →
      OpenVpn.arrive s arrival = some s' →
      ∃ w, Guarded age s' w ∧ w.Past time top ∧ ∀ a ∈ s'.accepted, Reachable seq_backtrack time top a := by
    rintro s arrival s' ⟨w, before, past, reachable⟩ arrived
    obtain ⟨next, same, after, accepted⟩ := before.arrive arrival
    obtain rfl : s' = next := by simpa [arrived] using same
    obtain ⟨later, verdict⟩ := past.arrive seq_backtrack age SEQ_REAP_INTERVAL arrival.packet.time
      arrival.packet.id.toNat arrival.now
    refine ⟨_, after, later, fun a member => ?_⟩
    rw [accepted] at member
    rcases List.mem_append.mp member with old | new
    · exact reachable a old
    · split at new
      · rename_i ok
        obtain rfl : a = arrival.packet := by simpa using new
        have small : w.top < 2 ^ 32 := by
          rw [← before.refines.top]
          exact s.receiver.id.toNat_lt
        refine (verdict ok).imp_right fun ⟨same, order⟩ => ⟨same, order.imp_right fun ⟨above, near⟩ => ?_⟩
        omega
      · cases new
  obtain ⟨_, _, _, all⟩ := runs_invariant step ⟨w, guarded, past, reachable⟩ ran
  exact all

theorem Guarded.at_most (guarded : Guarded age r w) {pin : PacketIdNet} (member : pin ∈ r.accepted) :
    pin.time < r.receiver.time ∨ pin.time = r.receiver.time ∧ pin.id.toNat ≤ r.receiver.id.toNat := by
  obtain ⟨_, older | ⟨same, low, _⟩⟩ := guarded.spent pin member
  · exact Or.inl (guarded.refines.time ▸ older)
  · rw [guarded.refines.time, guarded.refines.top]
    exact Or.inr ⟨same, low⟩

theorem load_of_save {persist : PacketIdPersist} (enabled : persist.enabled = true) {rec : PacketIdRec seq_backtrack}
    (stamped : rec.time ≠ 0) (p : PacketIdRec seq_backtrack) :
    packetIdPersistLoadObj (packetIdPersistSaveObj persist rec) p =
      { p with time := rec.time, id := rec.id } := by
  unfold packetIdPersistLoadObj packetIdPersistSaveObj
  simp [enabled, stamped]

theorem succ_toNat {id : UInt32} (small : id.toNat + 1 < 2 ^ 32) : (id + 1).toNat = id.toNat + 1 := by
  rw [UInt32.toNat_add, Nat.mod_eq_of_lt]
  · rfl
  · exact small

/-- One newer packet reopens the window below it, whatever was received there before. -/
theorem reopened {p : PacketIdRec seq_backtrack} {id : UInt32} (refines : Refines age p (Window.starting time id.toNat))
    {pin : PacketIdNet} (nonzero : pin.id.toNat ≠ 0) (same : pin.time = time) (low : pin.id.toNat ≤ id.toNat)
    (near : id.toNat + 1 < pin.id.toNat + seq_backtrack) (small : id.toNat + 1 < 2 ^ 32) :
    ∃ later second, receive p later = some second ∧ pin ∈ second.accepted := by
  let newer : Arrival := ⟨⟨id + 1, time⟩, 2, by decide⟩
  let again : Arrival := ⟨pin, 2, by decide⟩
  have value : newer.packet.id.toNat = id.toNat + 1 := succ_toNat small
  have unswept : (2 : Int) < 0 + SEQ_REAP_INTERVAL := by decide
  obtain ⟨r₁, arrived₁, guarded₁, _⟩ := (guarded_start refines).arrive newer
  have first : (Window.starting time id.toNat).Accepts seq_backtrack time newer.packet.id.toNat :=
    ⟨by omega, Or.inr ⟨rfl, Or.inl (by rw [value]; exact Nat.lt_succ_self _)⟩⟩
  rw [Window.arrive_of_accepts unswept first] at guarded₁
  obtain ⟨r₂, arrived₂, _, accepted₂⟩ := guarded₁.arrive again
  have second : ((Window.starting time id.toNat).accept time newer.packet.id.toNat 2).Accepts seq_backtrack pin.time
      pin.id.toNat := by
    have opened : (Window.starting time id.toNat).accept time newer.packet.id.toNat 2 =
        ⟨time, newer.packet.id.toNat, false, Function.update (fun _ => none) newer.packet.id.toNat (some 2),
          fun _ => False, 0⟩ := rfl
    rw [opened, value]
    have other : pin.id.toNat ≠ id.toNat + 1 := by omega
    exact ⟨nonzero, Or.inr ⟨same, Or.inr ⟨rfl, near, not_false, Function.update_of_ne other (some 2) fun _ => none⟩⟩⟩
  rw [Window.arrive_of_accepts (by rw [Window.accept_reaped]; exact unswept) second] at accepted₂
  refine ⟨[newer, again], r₂, ?_, ?_⟩
  · exact runs_cons_eq_some.mpr ⟨r₁, arrived₁, runs_cons_eq_some.mpr ⟨r₂, arrived₂, runs_nil _ _⟩⟩
  · rw [accepted₂]
    exact List.mem_append_right _ (List.mem_singleton_self _)

end Restart

/-- What a restart forgets: a packet accepted before it can be accepted once more exactly if it bears the saved time
stamp and is still within reach of an id above the saved one. -/
theorem replayable_after_restart (positive : 0 < seq_backtrack) {p : PacketIdRec seq_backtrack} {send : PacketIdSend}
    {time_backtrack : Int} (made : packetIdInit seq_backtrack time_backtrack = some (send, p))
    {persist : PacketIdPersist} (enabled : persist.enabled = true) (arrivals : List Arrival)
    {first : Receiving seq_backtrack} (ran : receive (packetIdPersistLoadObj persist p) arrivals = some first)
    (stamped : first.receiver.time ≠ 0) {pin : PacketIdNet} (accepted : pin ∈ first.accepted) :
    (∃ later second, receive (packetIdPersistLoadObj (packetIdPersistSaveObj persist first.receiver) p) later =
        some second ∧ pin ∈ second.accepted) ↔
      pin.time = first.receiver.time ∧ first.receiver.id.toNat + 1 < pin.id.toNat + seq_backtrack ∧
        first.receiver.id.toNat + 1 < 2 ^ 32 := by
  obtain ⟨w, guarded⟩ := (guarded_start (init_refines positive made persist)).run ran
  have atMost := guarded.at_most accepted
  have restarted := init_refines positive made (packetIdPersistSaveObj persist first.receiver)
  have stands : Window.starting first.receiver.time first.receiver.id.toNat =
      Window.starting
        (packetIdPersistLoadObj (packetIdPersistSaveObj persist first.receiver) p).time
        (packetIdPersistLoadObj (packetIdPersistSaveObj persist first.receiver) p).id.toNat := by
    rw [load_of_save enabled stamped]
  rw [← stands] at restarted
  constructor
  · rintro ⟨later, second, ranAgain, member⟩
    have past : (Window.starting first.receiver.time first.receiver.id.toNat).Past first.receiver.time
        first.receiver.id.toNat := Or.inl ⟨rfl, rfl, rfl⟩
    have reachable := (guarded_start restarted).past_run past
      (fun _ none_yet => absurd none_yet List.not_mem_nil) ranAgain pin member
    rcases reachable with beyond | ⟨same, above | ⟨near, small⟩⟩
    · omega
    · omega
    · exact ⟨same, near, small⟩
  · rintro ⟨same, near, small⟩
    exact reopened restarted (guarded.nonzero pin accepted) same (by omega) near small

theorem sample_replayed : ∃ first later second, receive sampleRecord [⟨⟨1, 5⟩, 2, by decide⟩] = some first ∧
    receive (packetIdPersistLoadObj (packetIdPersistSaveObj unsaved first.receiver) sampleRecord) later =
      some second ∧ ⟨1, 5⟩ ∈ first.accepted ∧ ⟨1, 5⟩ ∈ second.accepted := by
  have begun : Refines 15 sampleRecord (Window.starting 0 0) := init_refines (by decide) sample_made unsaved
  obtain ⟨first, arrived, guarded, accepted⟩ := (guarded_start begun).arrive ⟨⟨1, 5⟩, 2, by decide⟩
  have accepts : (Window.starting 0 0).Accepts 64 5 1 := ⟨by decide, Or.inl (by decide)⟩
  have taken : (Window.starting 0 0).arrive 64 15 SEQ_REAP_INTERVAL 5 1 2 =
    ((Window.starting 0 0).accept 5 1 2, true) :=
    Window.arrive_of_accepts (by decide) accepts
  have member : ⟨1, 5⟩ ∈ first.accepted := by
    have ok : ((Window.starting 0 0).arrive 64 15 SEQ_REAP_INTERVAL 5 1 2).2 = true := congrArg Prod.snd taken
    exact accepted ▸ List.mem_append_right _ ((if_pos ok).symm ▸ List.mem_singleton_self _)
  have time : first.receiver.time = 5 := by
    rw [guarded.refines.time]
    exact congrArg (fun out => out.1.time) taken
  have top : first.receiver.id.toNat = 1 := by
    rw [guarded.refines.top]
    exact congrArg (fun out => out.1.top) taken
  have ran : receive sampleRecord [⟨⟨1, 5⟩, 2, by decide⟩] = some first :=
    runs_cons_eq_some.mpr ⟨first, arrived, runs_nil _ _⟩
  obtain ⟨later, second, ranAgain, again⟩ := (replayable_after_restart (by decide) sample_made
    (rfl : unsaved.enabled = true) _ ran (by rw [time]; decide) member).mpr
    ⟨time.symm, by rw [top]; decide, by rw [top]; decide⟩
  exact ⟨first, later, second, ran, ranAgain, member, again⟩

end OpenVpn
