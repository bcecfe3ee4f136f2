import Mathlib.Data.List.Range
import SeguridadRedes.OpenVpn.ReplayOrder

namespace OpenVpn

open C (runs runs_append runs_singleton runs_cons_eq_some)

/-- A sender with the packet ids it has given out. -/
structure Sending where
  sender : PacketIdSend
  sent : List PacketIdNet

def allocate (long_form : Bool) (s : Sending) (now : Int) : Option Sending :=
  match packetIdAllocOutgoing s.sender now long_form with
  | some (sender, pin) => some ⟨sender, s.sent ++ [pin]⟩
  | none => none

/-- How many ids a time stamp serves. -/
def idsPerStamp : Nat := 2 ^ 32 - 1

/-- The packet that is sent `k`th, the clock being read at each. -/
def stamped (clocks : List Int) (k : Nat) : PacketIdNet :=
  ⟨UInt32.ofNat (k % idsPerStamp + 1), clocks.getD (k / idsPerStamp * idsPerStamp) 0⟩

theorem stamped_id (clocks : List Int) (k : Nat) : (stamped clocks k).id.toNat = k % idsPerStamp + 1 := by
  have bound : k % idsPerStamp < idsPerStamp := Nat.mod_lt _ (by decide)
  apply UInt32.toNat_ofNat_of_lt'
  unfold idsPerStamp at *
  simp only [UInt32.size]
  omega

theorem stamped_append (clocks : List Int) (now : Int) {k : Nat} (before : k < clocks.length) :
    stamped (clocks ++ [now]) k = stamped clocks k := by
  have inside : k / idsPerStamp * idsPerStamp < clocks.length := (Nat.div_mul_le_self k idsPerStamp).trans_lt before
  unfold stamped
  rw [List.getD_append _ _ _ _ inside]

section Sequence

def standing (clocks : List Int) : PacketIdSend :=
  match clocks.length with
  | 0 => ⟨0, 0⟩
  | n + 1 => ⟨(stamped clocks n).id, (stamped clocks n).time⟩

theorem stamped_positive {clocks : List Int} (positive : ∀ c ∈ clocks, 0 < c) {k : Nat} (inside : k < clocks.length) :
    0 < (stamped clocks k).time := by
  have within : k / idsPerStamp * idsPerStamp < clocks.length := (Nat.div_mul_le_self k idsPerStamp).trans_lt inside
  unfold stamped
  rw [List.getD_eq_getElem _ _ within]
  exact positive _ (List.getElem_mem within)

theorem stamped_first {clocks : List Int} (now : Int) (starts : clocks.length % idsPerStamp = 0) :
    stamped (clocks ++ [now]) clocks.length = ⟨1, now⟩ := by
  have multiple : clocks.length / idsPerStamp * idsPerStamp = clocks.length :=
    Nat.div_mul_cancel (Nat.dvd_of_mod_eq_zero starts)
  unfold stamped
  rw [starts, multiple]
  simp

theorem stamped_next {clocks : List Int} (now : Int) {m : Nat} (length : clocks.length = m + 1)
    (goesOn : (m + 1) % idsPerStamp ≠ 0) :
    stamped (clocks ++ [now]) (m + 1) = ⟨(stamped clocks m).id + 1, (stamped clocks m).time⟩ := by
  have place : (m + 1) % idsPerStamp = m % idsPerStamp + 1 ∧ (m + 1) / idsPerStamp = m / idsPerStamp := by
    unfold idsPerStamp at *
    omega
  have inside : m / idsPerStamp * idsPerStamp < clocks.length := by
    rw [length]
    exact Nat.lt_succ_of_le (Nat.div_mul_le_self m idsPerStamp)
  unfold stamped
  rw [place.1, place.2, List.getD_append _ _ _ _ inside, UInt32.ofNat_add (m % idsPerStamp + 1) 1]
  rfl

theorem stamped_wraps (clocks : List Int) (m : Nat) :
    (stamped clocks m).id + 1 = 0 ↔ (m + 1) % idsPerStamp = 0 := by
  have value := stamped_id clocks m
  have bound : m % idsPerStamp < idsPerStamp := Nat.mod_lt _ (by decide)
  rw [← UInt32.toNat_inj, UInt32.toNat_add, value]
  unfold idsPerStamp at *
  simp only [UInt32.reduceToNat]
  omega

/-- One packet more: the next id under the same stamp, or the first under a new one. -/
theorem alloc_standing {clocks : List Int} (positive : ∀ c ∈ clocks, 0 < c) (now : Int) (long_form : Bool) :
    packetIdAllocOutgoing (standing clocks) now long_form =
      if long_form = true ∨ clocks.length = 0 ∨ clocks.length % idsPerStamp ≠ 0 then
        some (standing (clocks ++ [now]), stamped (clocks ++ [now]) clocks.length)
      else none := by
  have stands : standing (clocks ++ [now]) = ⟨(stamped (clocks ++ [now]) clocks.length).id,
      (stamped (clocks ++ [now]) clocks.length).time⟩ := by
    unfold standing
    rw [List.length_append]
    rfl
  rw [stands]
  unfold packetIdAllocOutgoing
  cases length : clocks.length with
  | zero =>
    have first := @stamped_first clocks now (by rw [length]; rfl)
    rw [length] at first
    simp [standing, length, first]
  | succ m =>
    have before : standing clocks = ⟨(stamped clocks m).id, (stamped clocks m).time⟩ := by
      unfold standing
      rw [length]
    have nonzero : (stamped clocks m).time ≠ 0 := (stamped_positive positive (by omega)).ne'
    simp only [before, nonzero, if_false, stamped_wraps]
    by_cases wraps : (m + 1) % idsPerStamp = 0
    · have first := @stamped_first clocks now (by rw [length]; exact wraps)
      rw [length] at first
      simp [wraps, first]
    · have next := stamped_next now length wraps
      simp [wraps, next]

/-- The sender after the readings of the clock, with what it has sent. -/
def afterReadings (clocks : List Int) : Sending := ⟨standing clocks, (List.range clocks.length).map (stamped clocks)⟩

theorem allocate_after {clocks : List Int} (positive : ∀ c ∈ clocks, 0 < c) (now : Int) (long_form : Bool) :
    allocate long_form (afterReadings clocks) now =
      if long_form = true ∨ clocks.length = 0 ∨ clocks.length % idsPerStamp ≠ 0 then
        some (afterReadings (clocks ++ [now]))
      else none := by
  have sent : (List.range clocks.length).map (stamped clocks) ++ [stamped (clocks ++ [now]) clocks.length] =
      (List.range (clocks ++ [now]).length).map (stamped (clocks ++ [now])) := by
    rw [List.length_append, List.length_singleton, List.range_succ, List.map_append, List.map_singleton]
    congr 1
    apply List.map_congr_left
    intro k member
    exact (stamped_append clocks now (List.mem_range.mp member)).symm
  unfold allocate afterReadings
  simp only [alloc_standing positive]
  by_cases room : long_form = true ∨ clocks.length = 0 ∨ clocks.length % idsPerStamp ≠ 0
  · simp only [if_pos room, sent]
  · simp only [if_neg room]

theorem runs_allocate {long_form : Bool} {clocks : List Int} (positive : ∀ c ∈ clocks, 0 < c)
    (room : long_form = true ∨ clocks.length ≤ idsPerStamp) :
    runs (allocate long_form) (afterReadings []) clocks = some (afterReadings clocks) := by
  induction clocks using List.reverseRecOn with
  | nil => rfl
  | append_singleton clocks now ih =>
    have earlier : ∀ c ∈ clocks, 0 < c := fun c member => positive c (List.mem_append_left _ member)
    rw [List.length_append, List.length_singleton] at room
    have still := ih earlier (room.imp_right fun fits => by omega)
    refine runs_append.mpr ⟨_, still, runs_singleton.mpr ?_⟩
    rw [allocate_after earlier, if_pos]
    refine room.imp_right fun fits => ?_
    unfold idsPerStamp at *
    omega

theorem runs_allocate_none {long_form : Bool} {clocks : List Int} (positive : ∀ c ∈ clocks, 0 < c)
    (crowded : ¬ (long_form = true ∨ clocks.length ≤ idsPerStamp)) :
    runs (allocate long_form) (afterReadings []) clocks = none := by
  rw [not_or] at crowded
  obtain ⟨short, many⟩ := crowded
  have early : ∀ c ∈ clocks.take idsPerStamp, 0 < c := fun c member => positive c (List.mem_of_mem_take member)
  have length : (clocks.take idsPerStamp).length = idsPerStamp := by
    rw [List.length_take]
    omega
  obtain ⟨now, rest, later⟩ := List.exists_cons_of_length_pos (l := clocks.drop idsPerStamp) (by
    rw [List.length_drop]
    omega)
  rw [Option.eq_none_iff_forall_ne_some]
  intro s ran
  rw [← List.take_append_drop idsPerStamp clocks, later] at ran
  obtain ⟨full, filled, ranOn⟩ := runs_append.mp ran
  have expected := @runs_allocate long_form _ early (Or.inr length.le)
  obtain rfl : afterReadings (clocks.take idsPerStamp) = full := Option.some.inj (expected.symm.trans filled)
  obtain ⟨_, stepped, _⟩ := runs_cons_eq_some.mp ranOn
  rw [allocate_after early, if_neg] at stepped
  · cases stepped
  · rw [length]
    simp [short, idsPerStamp]

end Sequence

/-- The ids count up to their last, and then start anew under the time of that moment, for which the short form has no
place: there the sender stops. -/
theorem outgoing_exact (long_form : Bool) {clocks : List Int} (positive : ∀ c ∈ clocks, 0 < c) :
    ((runs (allocate long_form) ⟨⟨0, 0⟩, []⟩ clocks).isSome = true ↔
      long_form = true ∨ clocks.length ≤ idsPerStamp) ∧
    ∀ s, runs (allocate long_form) ⟨⟨0, 0⟩, []⟩ clocks = some s →
      s.sent = (List.range clocks.length).map (stamped clocks) := by
  by_cases room : long_form = true ∨ clocks.length ≤ idsPerStamp
  · have ran : runs (allocate long_form) ⟨⟨0, 0⟩, []⟩ clocks = some (afterReadings clocks) :=
      runs_allocate positive room
    rw [ran]
    refine ⟨by simp [room], fun s same => ?_⟩
    obtain rfl : afterReadings clocks = s := by simpa using same
    rfl
  · have stops : runs (allocate long_form) ⟨⟨0, 0⟩, []⟩ clocks = none := runs_allocate_none positive room
    rw [stops]
    exact ⟨by simp [room], fun s impossible => by cases impossible⟩

theorem sample_outgoing : ((runs (allocate false) ⟨⟨0, 0⟩, []⟩ [7, 7, 8]).isSome = true ↔
      false = true ∨ [7, 7, 8].length ≤ idsPerStamp) ∧
    ∀ s, runs (allocate false) ⟨⟨0, 0⟩, []⟩ [7, 7, 8] = some s →
      s.sent = (List.range [7, 7, 8].length).map (stamped [7, 7, 8]) := outgoing_exact false (by decide)

section Clocked

/-- A clock that does not go back, and moves on within the time it takes to use up the ids of a stamp. -/
structure Clocked (clocks : List Int) : Prop where
  positive : ∀ c ∈ clocks, 0 < c
  forward : ∀ i j (hi : i < clocks.length) (hj : j < clocks.length), i ≤ j → clocks[i] ≤ clocks[j]
  paced : ∀ i j (hi : i < clocks.length) (hj : j < clocks.length), i + idsPerStamp ≤ j → clocks[i] < clocks[j]

variable {clocks : List Int}

theorem stamped_time {k : Nat} (inside : k < clocks.length) :
    (stamped clocks k).time = clocks.get
      ⟨k / idsPerStamp * idsPerStamp, (Nat.div_mul_le_self k idsPerStamp).trans_lt inside⟩ :=
  List.getD_eq_getElem _ _ _

theorem Clocked.before (clocked : Clocked clocks) {i j : Nat} (less : i < j) (inside : j < clocks.length) :
    Before (stamped clocks i) (stamped clocks j) := by
  have withinI := (Nat.div_mul_le_self i idsPerStamp).trans_lt (less.trans inside)
  have withinJ := (Nat.div_mul_le_self j idsPerStamp).trans_lt inside
  unfold Before
  rw [stamped_id, stamped_id, stamped_time (less.trans inside), stamped_time inside]
  by_cases same : i / idsPerStamp = j / idsPerStamp
  · refine Or.inr ⟨by simp only [same], ?_⟩
    unfold idsPerStamp at *
    omega
  · have later : i / idsPerStamp < j / idsPerStamp := Nat.lt_of_le_of_ne (Nat.div_le_div_right less.le) same
    refine Or.inl (clocked.paced _ _ withinI withinJ ?_)
    rw [← Nat.succ_mul]
    exact Nat.mul_le_mul_right _ later

theorem Clocked.increasing (clocked : Clocked clocks) :
    ((List.range clocks.length).map (stamped clocks)).Pairwise Before := by
  rw [List.pairwise_map]
  refine List.Pairwise.imp_of_mem ?_ List.pairwise_lt_range
  intro i j _ inside less
  exact clocked.before less (List.mem_range.mp inside)

theorem Clocked.succeeds (clocked : Clocked clocks) {k : Nat} (inside : k + 1 < clocks.length) :
    Succeeds (stamped clocks k) (stamped clocks (k + 1)) := by
  have order := clocked.before (Nat.lt_succ_self k) inside
  unfold Before at order
  unfold Succeeds
  rw [stamped_id, stamped_id] at *
  by_cases starts : (k + 1) % idsPerStamp = 0
  · refine Or.inr ⟨?_, UInt32.toNat_inj.mp (by rw [stamped_id, starts]; rfl)⟩
    rcases order with later | ⟨_, above⟩
    · exact later
    · unfold idsPerStamp at *
      omega
  · refine Or.inl ⟨?_, ?_⟩
    · have sameStamp : (k + 1) / idsPerStamp = k / idsPerStamp := by
        unfold idsPerStamp at *
        omega
      unfold stamped
      rw [sameStamp]
    · unfold idsPerStamp at *
      omega

theorem room_of_run {long_form : Bool} (clocked : Clocked clocks) {s : Sending}
    (ran : runs (allocate long_form) ⟨⟨0, 0⟩, []⟩ clocks = some s) :
    long_form = true ∨ clocks.length ≤ idsPerStamp := by
  by_contra crowded
  have stops : runs (allocate long_form) ⟨⟨0, 0⟩, []⟩ clocks = none := runs_allocate_none clocked.positive crowded
  rw [stops] at ran
  cases ran

theorem sent_eq {long_form : Bool} (clocked : Clocked clocks) {s : Sending}
    (ran : runs (allocate long_form) ⟨⟨0, 0⟩, []⟩ clocks = some s) :
      s.sent = (List.range clocks.length).map (stamped clocks) := by
  have exact_run := runs_allocate clocked.positive (room_of_run clocked ran)
  obtain rfl : afterReadings clocks = s := Option.some.inj (exact_run.symm.trans ran)
  rfl

theorem stamped_nonzero (k : Nat) : (stamped clocks k).id ≠ 0 := by
  intro zero
  have value := stamped_id clocks k
  rw [zero] at value
  cases value

end Clocked

/-- No packet id is given out twice, which the ciphers that take it for their initial vector depend on: each is past all
before it. -/
theorem ids_never_repeat {long_form : Bool} {clocks : List Int} (clocked : Clocked clocks) {s : Sending}
    (ran : runs (allocate long_form) ⟨⟨0, 0⟩, []⟩ clocks = some s) : s.sent.Pairwise Before := by
  rw [sent_eq clocked ran]
  exact clocked.increasing

theorem sample_clocked : Clocked [7, 7, 8] := by
  refine ⟨by decide, ?_, ?_⟩
  · intro i j hi hj less
    have cases : j = 0 ∨ j = 1 ∨ j = 2 := by
      simp only [List.length_cons, List.length_nil] at hj
      omega
    have others : i = 0 ∨ i = 1 ∨ i = 2 := by omega
    rcases cases with rfl | rfl | rfl <;> rcases others with rfl | rfl | rfl <;> simp at less ⊢
  · intro i j hi hj far
    simp only [List.length_cons, List.length_nil] at hj
    unfold idsPerStamp at far
    omega

theorem sample_ids : [⟨1, 7⟩, ⟨2, 7⟩, ⟨3, 7⟩].Pairwise Before :=
  ids_never_repeat (s := ⟨⟨3, 7⟩, [⟨1, 7⟩, ⟨2, 7⟩, ⟨3, 7⟩]⟩) sample_clocked
    (rfl : runs (allocate false) ⟨⟨0, 0⟩, []⟩ [7, 7, 8] = _)

section Wire

variable {clocks : List Int} {long_form : Bool}

@[simp] theorem onWire_id (pin : PacketIdNet) : (pin.onWire long_form).id = pin.id := rfl

@[simp] theorem onWire_short_time (pin : PacketIdNet) : (pin.onWire false).time = 0 := rfl

theorem onWire_long (clocked : Clocked clocks) (era : ∀ now ∈ clocks, now < 2 ^ 32) {k : Nat}
    (inside : k < clocks.length) : (stamped clocks k).onWire true = stamped clocks k := by
  have positive := stamped_positive clocked.positive inside
  have early : (stamped clocks k).time < 2 ^ 32 := by
    rw [stamped_time inside]
    exact era _ (List.get_mem _ _)
  have same : (stamped clocks k).time % 2 ^ 32 = (stamped clocks k).time := Int.emod_eq_of_lt positive.le early
  unfold PacketIdNet.onWire
  rw [if_pos rfl, same]

theorem onWire_time_nonneg (pin : PacketIdNet) : 0 ≤ (pin.onWire long_form).time := by
  cases long_form with
  | true => exact Int.emod_nonneg _ (by decide)
  | false => exact le_rfl

/-- Each packet follows the one before, also in what the short form leaves of their ids. -/
theorem wire_chain (clocked : Clocked clocks) (era : long_form = true → ∀ now ∈ clocks, now < 2 ^ 32)
    (room : long_form = true ∨ clocks.length ≤ idsPerStamp) :
    ((List.range clocks.length).map fun k => (stamped clocks k).onWire long_form).IsChain Succeeds := by
  rw [List.isChain_map, List.isChain_range]
  intro k inside
  cases long_form with
  | true =>
    rw [onWire_long clocked (era rfl) (by omega), onWire_long clocked (era rfl) (by omega)]
    exact clocked.succeeds (by omega)
  | false =>
    have few : clocks.length ≤ idsPerStamp := by simpa using room
    have first : k % idsPerStamp = k := Nat.mod_eq_of_lt (by omega)
    have second : (k + 1) % idsPerStamp = k + 1 := Nat.mod_eq_of_lt (by omega)
    refine Or.inl ⟨by rw [onWire_short_time, onWire_short_time], ?_⟩
    rw [onWire_id, onWire_id, stamped_id, stamped_id, first, second]

theorem wire_first (clocked : Clocked clocks) (era : long_form = true → ∀ now ∈ clocks, now < 2 ^ 32)
    (nonempty : 0 < clocks.length) {p : PacketIdRec 0} (zeroTime : p.time = 0) (zeroId : p.id = 0) :
    InTurn p ((stamped clocks 0).onWire long_form) := by
  refine ⟨@stamped_nonzero clocks 0, ?_⟩
  cases long_form with
  | true =>
    rw [onWire_long clocked (era rfl) nonempty, zeroTime]
    exact Or.inr ⟨stamped_positive clocked.positive nonempty, rfl⟩
  | false => exact Or.inl ⟨zeroTime.symm, Or.inl zeroId⟩

theorem wire_sent (clocked : Clocked clocks) {s : Sending}
    (ran : runs (allocate long_form) ⟨⟨0, 0⟩, []⟩ clocks = some s) :
    s.sent.map (·.onWire long_form) =
      (List.range clocks.length).map fun k => (stamped clocks k).onWire long_form := by
  rw [sent_eq clocked ran, List.map_map]
  rfl

theorem wire_nonzero {arrivals : List Arrival} (among : arrivals.map Arrival.packet ⊆
    (List.range clocks.length).map fun k => (stamped clocks k).onWire long_form) :
    ∀ b ∈ arrivals, b.packet.id ≠ 0 := by
  intro b member
  obtain ⟨k, _, same⟩ := List.mem_map.mp (among (List.mem_map_of_mem member))
  rw [← same, onWire_id]
  exact stamped_nonzero k

/-- Without a window all that comes in turn is taken. -/
theorem wire_taken_in_turn (clocked : Clocked clocks) (era : long_form = true → ∀ now ∈ clocks, now < 2 ^ 32)
    (room : long_form = true ∨ clocks.length ≤ idsPerStamp) {p : PacketIdRec 0} {send : PacketIdSend}
    {time_backtrack : Int} (made : packetIdInit 0 time_backtrack = some (send, p)) {arrivals : List Arrival}
    (whole : arrivals.map Arrival.packet =
      (List.range clocks.length).map fun k => (stamped clocks k).onWire long_form) :
    ∃ r, receive p arrivals = some r ∧ r.accepted = arrivals.map Arrival.packet := by
  obtain ⟨_, zeroTime, zeroId⟩ := init_zero made
  have start := following_init made ⟨false, 0, 0⟩
  rw [init_loads_nothing] at start
  have nonzero : ∀ b ∈ arrivals, b.packet.id ≠ 0 := by
    apply @wire_nonzero clocks long_form
    rw [whole]
    exact List.Subset.refl _
  refine @Following.all_in_turn ⟨p, []⟩ start arrivals ?_ nonzero ?_
  · intro b first
    have inside : 0 < clocks.length := by
      by_contra none_sent
      rw [whole, Nat.eq_zero_of_not_pos none_sent] at first
      cases first
    obtain rfl : (stamped clocks 0).onWire long_form = b := by
      simpa [whole, List.head?_range, inside.ne'] using first
    exact wire_first clocked era inside zeroTime zeroId
  · rw [whole]
    exact wire_chain clocked era room

/-- A window takes all that comes in order, whatever is missing. -/
theorem wire_taken_in_order (clocked : Clocked clocks) (era : long_form = true → ∀ now ∈ clocks, now < 2 ^ 32)
    (room : long_form = true ∨ clocks.length ≤ idsPerStamp) {seq_backtrack : Nat} (positive : 0 < seq_backtrack)
    {p : PacketIdRec seq_backtrack} {send : PacketIdSend} {time_backtrack : Int}
    (made : packetIdInit seq_backtrack time_backtrack = some (send, p)) {arrivals : List Arrival}
    (inOrder : (arrivals.map Arrival.packet).Sublist
      ((List.range clocks.length).map fun k => (stamped clocks k).onWire long_form)) :
    ∃ r, receive p arrivals = some r ∧ r.accepted = arrivals.map Arrival.packet := by
  obtain ⟨_, zeroTime, zeroId⟩ := init_zero made
  have begun := init_refines positive made ⟨false, 0, 0⟩
  rw [init_loads_nothing] at begun
  have nonzero := wire_nonzero inOrder.subset
  have below : ∀ b ∈ arrivals, (Window.starting p.time p.id.toNat).Below b.packet := by
    intro b member
    obtain ⟨k, _, same⟩ := List.mem_map.mp (inOrder.subset (List.mem_map_of_mem member))
    have later := @onWire_time_nonneg long_form (stamped clocks k)
    have counted : b.packet.id.toNat ≠ 0 := fun zero => nonzero b member (UInt32.toNat_inj.mp zero)
    rw [same] at later
    rw [zeroTime, zeroId]
    rcases later.lt_or_eq with past | now
    · exact Or.inl past
    · exact Or.inr ⟨now, Nat.pos_of_ne_zero counted⟩
  have ordered := List.isChain_iff_pairwise.mp ((wire_chain clocked era room).imp fun _ _ next => next.before)
  exact (guarded_start begun).all_in_order below nonzero (ordered.sublist inOrder)

end Wire

/-- What is sent, in either form of the packet id, is taken as long as it comes in order: over UDP with any losses, over
TCP, which has none, all of it. -/
theorem in_order_all_accepted {seq_backtrack : Nat} {long_form : Bool} {clocks : List Int} (clocked : Clocked clocks)
    (era : long_form = true → ∀ now ∈ clocks, now < 2 ^ 32) {s : Sending}
    (ran : runs (allocate long_form) ⟨⟨0, 0⟩, []⟩ clocks = some s) {p : PacketIdRec seq_backtrack}
    {send : PacketIdSend} {time_backtrack : Int} (made : packetIdInit seq_backtrack time_backtrack = some (send, p))
    {arrivals : List Arrival} (inOrder : (arrivals.map Arrival.packet).Sublist (s.sent.map (·.onWire long_form)))
    (whole : seq_backtrack = 0 → arrivals.map Arrival.packet = s.sent.map (·.onWire long_form)) :
    ∃ r, receive p arrivals = some r ∧ r.accepted = arrivals.map Arrival.packet := by
  have room := room_of_run clocked ran
  rw [wire_sent clocked ran] at inOrder whole
  cases seq_backtrack with
  | zero => exact wire_taken_in_turn clocked era room made (whole rfl)
  | succ n => exact wire_taken_in_order clocked era room (Nat.succ_pos n) made inOrder

/-- With times in the long form, of which one packet gets lost, and without them in the short one. -/
theorem sample_in_order :
    (∃ r, receive sampleRecord [⟨⟨1, 7⟩, 9, by decide⟩, ⟨⟨3, 7⟩, 99, by decide⟩] = some r ∧
      r.accepted = [⟨1, 7⟩, ⟨3, 7⟩]) ∧
    ∃ r, receive sampleRecord [⟨⟨1, 0⟩, 9, by decide⟩, ⟨⟨3, 0⟩, 99, by decide⟩] = some r ∧
      r.accepted = [⟨1, 0⟩, ⟨3, 0⟩] := by
  have sent : ∀ long_form, runs (allocate long_form) ⟨⟨0, 0⟩, []⟩ [7, 7, 8] =
      some ⟨⟨3, 7⟩, [⟨1, 7⟩, ⟨2, 7⟩, ⟨3, 7⟩]⟩ := by
    intro long_form
    cases long_form <;> rfl
  exact ⟨in_order_all_accepted sample_clocked (by decide) (sent true) sample_made (by decide) (by decide),
    in_order_all_accepted sample_clocked (by decide) (sent false) sample_made (by decide) (by decide)⟩

end OpenVpn
