import SeguridadRedes.OpenVpn.FragmentSafety

namespace OpenVpn

open C (Bytes put piece_inside piece_length)

variable {capacity : Nat} {list list' : FragmentList capacity} {base s s' : Fin N_SEQ_ID}

section Around

/-- The sequence ids of consecutive datagrams, as many as there are buffers. -/
def Inside (base s : Fin N_SEQ_ID) : Prop := (s.val + N_SEQ_ID - base.val) % N_SEQ_ID < N_FRAG_BUF

theorem Lookup.keeps (look : Lookup list s' list') (here : Inside base list.seq_id) (other : Inside base s')
    (mine : Inside base s) : Inside base list'.seq_id ∧ list'.find s = list.find s := by
  have seq := list.seq_id.isLt
  have hs := s.isLt
  have hs' := s'.isLt
  have hbase := base.isLt
  have back : list.behind s = (list.seq_id.val + N_SEQ_ID - s.val) % N_SEQ_ID := rfl
  have back' : list.behind s' = (list.seq_id.val + N_SEQ_ID - s'.val) % N_SEQ_ID := rfl
  unfold Inside at *
  cases look with
  | restarts far far' _ _ =>
    unfold N_SEQ_ID N_FRAG_BUF at *
    omega
  | @advances d short newest =>
    have moved := advance_seq list d
    constructor
    · unfold N_SEQ_ID N_FRAG_BUF at *
      omega
    · rw [find_advance list short]
      split
      · rfl
      · rename_i outside
        apply (find_outside _).symm
        unfold N_SEQ_ID N_FRAG_BUF at *
        omega
  | stays _ => exact ⟨here, rfl⟩

def fragmentSeqId (buf : Bytes) : Option (Fin N_SEQ_ID) :=
  match bufRead buf 4 with
  | none => none
  | some (net_flags, _) =>
    let flags := ntohFragmentHeaderType net_flags
    let frag_type := flags >>> FRAG_TYPE_SHIFT &&& FRAG_TYPE_MASK
    if frag_type = FRAG_YES_NOTLAST ∨ frag_type = FRAG_YES_LAST then
      some ⟨flags >>> FRAG_SEQ_ID_SHIFT &&& FRAG_SEQ_ID_MASK, seq_id_lt flags⟩
    else none

theorem join_other (near : list.behind s' < N_FRAG_BUF) (frag_type n size : Nat) (now : Int) (buf : Bytes) :
    let joined := if size &&& FRAG_SIZE_ROUND_MASK ≠ 0 then (list, .error "bad fragment size") else
      let (frag, outcome) := fragmentJoin (list.fragments.get (list.place s')) frag_type n size now buf
      ({ list with fragments := put list.fragments (list.place s') frag }, outcome)
    joined.1.seq_id = list.seq_id ∧ ∀ s ≠ s', joined.1.find s = list.find s := by
  dsimp only
  split
  · exact ⟨rfl, fun _ _ => rfl⟩
  · refine ⟨rfl, fun s apart => ?_⟩
    dsimp only
    rw [find_store near, if_neg apart]

/-- What any packet does to what there is of a datagram that it is not of. -/
theorem incoming_other (list : FragmentList capacity) (now : Int) (buf : Bytes) :
    (fragmentIncoming list now buf).1 = list ∨ ∃ s' ∈ fragmentSeqId buf, ∃ list', Lookup list s' list' ∧
      (fragmentIncoming list now buf).1.seq_id = list'.seq_id ∧
      ∀ s ≠ s', (fragmentIncoming list now buf).1.find s = list'.find s := by
  unfold fragmentIncoming fragmentSeqId
  by_cases some_buf : buf.length > 0
  · rw [if_pos some_buf]
    cases bufRead buf 4 with
    | none => exact Or.inl rfl
    | some parts =>
      obtain ⟨net_flags, rest⟩ := parts
      dsimp only
      split
      · split
        · exact Or.inl rfl
        · exact Or.inl rfl
      · split
        · right
          refine ⟨_, rfl, ?_⟩
          obtain ⟨list', found, near, look⟩ := get_buf_lookup list
            ⟨ntohFragmentHeaderType net_flags >>> FRAG_SEQ_ID_SHIFT &&& FRAG_SEQ_ID_MASK, seq_id_lt _⟩
          refine ⟨list', look, ?_⟩
          rw [found]
          exact join_other near _ _ _ now rest
        · left
          split
          · rfl
          · rfl
  · rw [if_neg some_buf]
    exact Or.inl rfl

end Around

section Gathering

variable {cut : Cut} {n : Nat} {since : Int} {came : Nat → Prop}

/-- The pieces of a datagram that have come are there, and recent enough. -/
structure Gathers (cut : Cut) (s : Fin N_SEQ_ID) (since : Int) (came : Nat → Prop)
    (list : FragmentList capacity) : Prop where
  received : ∀ frag, list.find s = some frag → cut.Received frag
  recent : ∀ frag, list.find s = some frag → since ≤ frag.timestamp
  marked : ∀ frag, list.find s = some frag → ∀ m < 32, frag.map.getLsbD m = true ↔ came (min m cut.last)
  nothing : list.find s = none → ∀ m, ¬ came m

theorem Gathers.same (gathers : Gathers cut s since came list) (same : list'.find s = list.find s) :
    Gathers cut s since came list' :=
  ⟨same ▸ gathers.received, same ▸ gathers.recent, same ▸ gathers.marked, same ▸ gathers.nothing⟩

theorem marked_came {frag : Fragment capacity} {now : Int} {fits : n * cut.size + (cut.piece n).length ≤ capacity}
    (among : n ≤ cut.last) (marked : ∀ m < 32, frag.map.getLsbD m = true ↔ came (min m cut.last)) {m : Nat}
      (small : m < 32) :
    (cut.marked frag n now fits).map.getLsbD m = true ↔ came (min m cut.last) ∨ min m cut.last = n := by
  rw [marked_map small, marked m small]
  apply or_congr Iff.rfl
  omega

theorem all_marked {map : BitVec 32} (marked : ∀ m < 32, map.getLsbD m = true ↔ came (min m cut.last)) :
    (∀ m < 32, map.getLsbD m = true) ↔ ∀ m ≤ cut.last, came m := by
  constructor
  · intro all m among
    have small : m < 32 := Nat.lt_of_le_of_lt among cut.few
    have here := (marked m small).mp (all m small)
    rwa [Nat.min_eq_left among] at here
  · intro all m small
    exact (marked m small).mpr (all _ (Nat.min_le_right _ _))

/-- A piece that comes completes the datagram, or waits with the others. -/
theorem Gathers.piece (gathers : Gathers cut s since came list) (room : cut.data.length ≤ capacity)
    (here : Inside base list.seq_id) (mine : Inside base s) (among : n ≤ cut.last) (now : Int) :
    ∃ list' outcome, fragmentIncoming list now (cut.packet s n among) = (list', outcome) ∧ Inside base list'.seq_id ∧
      ((∀ m ≤ cut.last, came m ∨ m = n) ∧ outcome = .ok cut.data ∨
        (∃ m ≤ cut.last, ¬ (came m ∨ m = n)) ∧ outcome = .ok [] ∧
          (since ≤ now → Gathers cut s since (fun m => came m ∨ m = n) list')) := by
  obtain ⟨list', begun, frag, outcome, look, near, received, found, blank, joined, goes⟩ :=
    incoming_piece gathers.received among now
  obtain ⟨still, kept⟩ := look.keeps here mine mine
  have marked : ∀ m < 32, begun.map.getLsbD m = true ↔ came (min m cut.last) := by
    rw [kept] at found blank
    intro m small
    cases there : list.find s with
    | none => simp [blank there, gathers.nothing there]
    | some frag => exact found frag there ▸ gathers.marked frag there m small
  have inside : n * cut.size < cut.data.length := piece_inside cut.some_data among
  have size : (cut.piece n).length = min cut.size (cut.data.length - n * cut.size) := piece_length _ _ _
  have after : ∀ fits m, m < 32 → ((cut.marked begun n now fits).map.getLsbD m = true ↔
      came (min m cut.last) ∨ min m cut.last = n) := fun fits m small => marked_came among marked small
  refine ⟨_, outcome, goes, still, ?_⟩
  cases joined with
  | overflows long => omega
  | completes fits all => exact Or.inl ⟨(all_marked (after fits)).mp all, rfl⟩
  | waits fits missing =>
    right
    have missed : ∃ m ≤ cut.last, ¬ (came m ∨ m = n) := by
      by_contra none
      push Not at none
      obtain ⟨m, small, unset⟩ := missing
      rw [(all_marked (after fits)).mpr none m small] at unset
      cases unset
    refine ⟨missed, rfl, fun recent => ?_⟩
    have stored := find_store near (cut.marked begun n now fits) s
    have defined : (cut.marked begun n now fits).defined = true := received.defined
    rw [if_pos rfl, if_pos defined] at stored
    refine ⟨?_, ?_, ?_, ?_⟩
    · intro frag now_there
      rw [stored] at now_there
      exact Option.some.inj now_there ▸ received.marked among now fits
    · intro frag now_there
      rw [stored] at now_there
      exact Option.some.inj now_there ▸ recent
    · intro frag now_there m small
      rw [stored] at now_there
      exact Option.some.inj now_there ▸ after fits m small
    · intro gone
      rw [stored] at gone
      cases gone

theorem Gathers.other (gathers : Gathers cut s since came list) (here : Inside base list.seq_id) (mine : Inside base s)
    (now : Int) {buf : Bytes} (fair : ∀ s' ∈ fragmentSeqId buf, s' ≠ s ∧ Inside base s') :
    Gathers cut s since came (fragmentIncoming list now buf).1 ∧
      Inside base (fragmentIncoming list now buf).1.seq_id := by
  rcases incoming_other list now buf with same | ⟨s', read, list', look, seq, found⟩
  · rw [same]
    exact ⟨gathers, here⟩
  · obtain ⟨apart, other⟩ := fair s' read
    obtain ⟨still, kept⟩ := look.keeps here other mine
    exact ⟨gathers.same ((found s apart.symm).trans kept), seq ▸ still⟩

theorem Gathers.reap (gathers : Gathers cut s since came list) {now : Int} (soon : now < since + FRAG_TTL_SEC) :
    Gathers cut s since came (fragmentTtlReap list now) := by
  apply gathers.same
  rw [find_reap]
  cases there : list.find s with
  | none => rfl
  | some frag =>
    have recent := gathers.recent frag there
    exact Option.filter_some_pos (decide_eq_true (by omega))

end Gathering

section Arriving

variable {cut : Cut} {n m : Nat} {since : Int} {came : Nat → Prop}

inductive Reception
  | packet (wire : Bytes) (now : Int)
  | wakeup (now : Int)

def FragmentList.receive (list : FragmentList capacity) : Reception → FragmentList capacity
  | .packet wire now => (fragmentIncoming list now wire).1
  | .wakeup now => fragmentTtlReap list now

def arrived (receptions : List Reception) : List Bytes :=
  receptions.filterMap fun
    | .packet wire _ => some wire
    | .wakeup _ => none

/-- The packets of a datagram come among those of other datagrams near it, and none of its buffer's time runs out. -/
def Reception.Fair (wires : List Bytes) (base s : Fin N_SEQ_ID) (since : Int) : Reception → Prop
  | .packet wire now => wire ∈ wires ∧ since ≤ now ∨ ∀ s' ∈ fragmentSeqId wire, s' ≠ s ∧ Inside base s'
  | .wakeup now => now < since + FRAG_TTL_SEC

theorem packet_seq_id (s : Fin N_SEQ_ID) (among : n ≤ cut.last) : fragmentSeqId (cut.packet s n among) = some s := by
  obtain ⟨kind, seq, _, _⟩ := (cut.header s n among).fields
  obtain ⟨read, value⟩ := read_flags (cut.header s n among).flags_lt (cut.piece n)
  have packet : cut.packet s n among = htonFragmentHeaderType (cut.header s n among).flags ++ cut.piece n := rfl
  unfold fragmentSeqId
  rw [packet, read]
  simp only [value, kind, seq, if_pos (cut.header s n among).kind]
  rfl

theorem packet_injective {s : Fin N_SEQ_ID} {among : n ≤ cut.last} {among' : m ≤ cut.last}
    (same : cut.packet s n among = cut.packet s m among') : n = m := by
  obtain ⟨read, value⟩ := read_flags (cut.header s n among).flags_lt (cut.piece n)
  obtain ⟨read', value'⟩ := read_flags (cut.header s m among').flags_lt (cut.piece m)
  have both : htonFragmentHeaderType (cut.header s n among).flags ++ cut.piece n =
      htonFragmentHeaderType (cut.header s m among').flags ++ cut.piece m := same
  rw [both, read'] at read
  have flags := congrArg ntohFragmentHeaderType (Prod.ext_iff.mp (Option.some.inj read)).1
  rw [value, value'] at flags
  have id := (cut.header s n among).fields.2.2.1
  rw [← flags, (cut.header s m among').fields.2.2.1] at id
  exact id.symm

def Came (cut : Cut) (s : Fin N_SEQ_ID) (receptions : List Reception) (m : Nat) : Prop :=
  ∃ among : m ≤ cut.last, cut.packet s m among ∈ arrived receptions

theorem came_cons (reception : Reception) (receptions : List Reception) (m : Nat) :
    Came cut s (reception :: receptions) m ↔ Came cut s [reception] m ∨ Came cut s receptions m := by
  have split : arrived (reception :: receptions) = arrived [reception] ++ arrived receptions :=
    List.filterMap_append (l := [reception])
  unfold Came
  rw [split]
  simp only [List.mem_append]
  exact exists_or

theorem came_piece {now : Int} (among : n ≤ cut.last) (m : Nat) :
    Came cut s [.packet (cut.packet s n among) now] m ↔ m = n := by
  constructor
  · rintro ⟨among', member⟩
    exact packet_injective (List.mem_singleton.mp member)
  · rintro rfl
    exact ⟨among, List.mem_singleton_self _⟩

theorem came_other {wire : Bytes} {now : Int} (other : ∀ s' ∈ fragmentSeqId wire, s' ≠ s) (m : Nat) :
    ¬ Came cut s [.packet wire now] m := by
  rintro ⟨among, member⟩
  obtain rfl := List.mem_singleton.mp member
  exact other s (packet_seq_id s among) rfl

theorem Gathers.congr {came' : Nat → Prop} (gathers : Gathers cut s since came list) (same : ∀ m, came m ↔ came' m) :
    Gathers cut s since came' list := by
  have equal : came = came' := funext fun m => propext (same m)
  exact equal ▸ gathers

theorem Gathers.run {wires : List Bytes} (mine : Inside base s) (room : cut.data.length ≤ capacity)
    (pieces : ∀ wire ∈ wires, ∃ n, ∃ among : n ≤ cut.last, wire = cut.packet s n among) {receptions : List Reception}
    (gathers : Gathers cut s since came list) (here : Inside base list.seq_id)
    (fair : ∀ reception ∈ receptions, reception.Fair wires base s since)
    (incomplete : ∃ m ≤ cut.last, ¬ (came m ∨ Came cut s receptions m)) :
    Gathers cut s since (fun m => came m ∨ Came cut s receptions m) (receptions.foldl FragmentList.receive list) ∧
      Inside base (receptions.foldl FragmentList.receive list).seq_id := by
  induction receptions generalizing list came with
  | nil =>
    refine ⟨gathers.congr fun m => ?_, here⟩
    have none : ¬ Came cut s [] m := fun ⟨_, member⟩ => List.not_mem_nil member
    exact (or_iff_left none).symm
  | cons reception receptions ih =>
    have later : ∀ r ∈ receptions, r.Fair wires base s since := fun r member => fair r (List.mem_cons_of_mem _ member)
    have first := fair reception List.mem_cons_self
    have regroup : ∀ m, (came m ∨ Came cut s [reception] m) ∨ Came cut s receptions m ↔
        came m ∨ Came cut s (reception :: receptions) m := by
      intro m
      rw [came_cons reception receptions m, or_assoc]
    have incomplete' : ∃ m ≤ cut.last, ¬ ((came m ∨ Came cut s [reception] m) ∨ Came cut s receptions m) := by
      simpa only [regroup] using incomplete
    have next : Gathers cut s since (fun m => came m ∨ Came cut s [reception] m) (list.receive reception) ∧
        Inside base (list.receive reception).seq_id := by
      cases reception with
      | wakeup now =>
        refine ⟨(gathers.reap first).congr fun m => ?_, here⟩
        have none : ¬ Came cut s [.wakeup now] m := fun ⟨_, member⟩ => List.not_mem_nil member
        exact (or_iff_left none).symm
      | packet wire now =>
        rcases first with ⟨own, recent⟩ | other
        · obtain ⟨n, among, rfl⟩ := pieces wire own
          obtain ⟨list', outcome, goes, still, ⟨all, _⟩ | ⟨_, _, waits⟩⟩ := gathers.piece room here mine among now
          · obtain ⟨m, small, missing⟩ := incomplete'
            rw [came_piece among] at missing
            exact absurd (Or.inl (all m small)) missing
          · unfold FragmentList.receive
            dsimp only
            rw [goes]
            exact ⟨(waits recent).congr fun m => by rw [came_piece among], still⟩
        · obtain ⟨kept, still⟩ := gathers.other here mine now other
          refine ⟨kept.congr fun m => ?_, still⟩
          exact (or_iff_left (came_other (fun s' read => (other s' read).1) m)).symm
    obtain ⟨gathered, inside⟩ := ih next.1 next.2 later incomplete'
    exact ⟨gathered.congr regroup, inside⟩

end Arriving

/-- A datagram that is split comes out of its packets, in whatever order and however often they arrive and whatever else
arrives in between, with the last of them to come and not before. -/
theorem fragment_round_trip (f : FragmentOutgoing) {payload : PayloadSize} {buf : Bytes}
    (large : payload.size < buf.length)
    (few : buf.length ≤ optimalFragmentSize buf.length payload.size * MAX_FRAGS) :
    ∃ f' wires, fragmentDatagram f payload.size buf = some (f', wires) ∧ f'.outgoing = [] ∧ wires.length ≤ MAX_FRAGS ∧
      (∀ wire ∈ wires, wire.length ≤ 4 + payload.size) ∧
      ∀ {capacity : Nat} {list : FragmentList capacity} {base : Fin N_SEQ_ID} {since : Int}
        {receptions : List Reception},
        buf.length ≤ capacity → Inside base list.seq_id → Inside base f'.outgoing_seq_id →
        list.find f'.outgoing_seq_id = none →
        (∀ reception ∈ receptions, reception.Fair wires base f'.outgoing_seq_id since) →
        (∃ wire ∈ wires, wire ∉ arrived receptions) → ∀ wire ∈ wires, ∀ now,
          (fragmentIncoming (receptions.foldl FragmentList.receive list) now wire).2 =
            .ok (if ∀ w ∈ wires, w = wire ∨ w ∈ arrived receptions then buf else []) := by
  obtain ⟨cut, f', wires, rfl, size, sent, empty, length, each⟩ := datagram_pieces f payload.room payload.told large few
  have pieces : ∀ wire ∈ wires, ∃ n, ∃ among : n ≤ cut.last, wire = cut.packet f'.outgoing_seq_id n among := by
    intro wire member
    obtain ⟨n, inside, here⟩ := List.getElem_of_mem member
    have among : n ≤ cut.last := by omega
    refine ⟨n, among, ?_⟩
    have there := each n among
    rw [List.getElem?_eq_getElem inside, here] at there
    exact Option.some.inj there
  have packets : ∀ n (among : n ≤ cut.last), cut.packet f'.outgoing_seq_id n among ∈ wires :=
    fun n among => List.mem_of_getElem? (each n among)
  refine ⟨f', wires, sent, empty, ?_, ?_, ?_⟩
  · have fewer := cut.few
    rw [length]
    exact fewer
  · intro wire member
    obtain ⟨n, among, rfl⟩ := pieces wire member
    obtain ⟨_, less, _⟩ := optimal_bounds payload.room cut.data.length
    obtain ⟨_, smaller, _⟩ := roundDown_bounds payload.room
    have whole : (cut.packet f'.outgoing_seq_id n among).length = 4 + (cut.piece n).length := prepend_length _ _ _ _ _
    have short : (cut.piece n).length = min cut.size (cut.data.length - n * cut.size) := piece_length _ _ _
    omega
  · intro capacity list base since receptions room here mine fresh fair incomplete wire member now
    have start : Gathers cut f'.outgoing_seq_id since (fun _ => False) list :=
      ⟨by simp [fresh], by simp [fresh], by simp [fresh], fun _ _ impossible => impossible⟩
    have missing : ∃ m ≤ cut.last, ¬ (False ∨ Came cut f'.outgoing_seq_id receptions m) := by
      obtain ⟨w, own, absent⟩ := incomplete
      obtain ⟨m, small, rfl⟩ := pieces w own
      exact ⟨m, small, by rintro (impossible | ⟨_, came⟩); exacts [impossible, absent came]⟩
    obtain ⟨gathered, inside⟩ := start.run mine room pieces here fair missing
    obtain ⟨n, among, rfl⟩ := pieces wire member
    obtain ⟨list', outcome, goes, _, ⟨all, rfl⟩ | ⟨⟨m, small, absent⟩, rfl, _⟩⟩ :=
      gathered.piece room inside mine among now
    · rw [goes, if_pos]
      intro w own
      obtain ⟨m, small, rfl⟩ := pieces w own
      rcases all m small with (impossible | ⟨_, came⟩) | rfl
      · exact impossible.elim
      · exact Or.inr came
      · exact Or.inl rfl
    · rw [goes, if_neg]
      intro all
      rcases all _ (packets m small) with same | came
      · exact absent (Or.inr (packet_injective same))
      · exact absent (Or.inl (Or.inr ⟨small, came⟩))

def sampleReceptions : List Reception := [.packet [0, 0, 132, 2, 5, 6] 0, .packet [0, 0, 132, 2, 5, 6] 2, .wakeup 5]

theorem sample_round_trip :
    (fragmentIncoming (sampleReceptions.foldl FragmentList.receive sampleReceiver) 7 [0, 0, 0, 1, 1, 2, 3, 4]).2 =
      .ok [1, 2, 3, 4, 5, 6] := by
  have sends : fragmentDatagram sampleSender 4 [1, 2, 3, 4, 5, 6] =
      some (⟨⟨0, by decide⟩, 4, 2, []⟩, [[0, 0, 0, 1, 1, 2, 3, 4], [0, 0, 132, 2, 5, 6]]) := rfl
  obtain ⟨f', wires, sent, _, _, _, arrives⟩ := fragment_round_trip sampleSender
    (by decide : samplePayload.size < ([1, 2, 3, 4, 5, 6] : Bytes).length) (by decide)
  obtain ⟨rfl, rfl⟩ := Prod.ext_iff.mp (Option.some.inj (sends.symm.trans sent))
  have fair : ∀ reception ∈ sampleReceptions, reception.Fair [[0, 0, 0, 1, 1, 2, 3, 4], [0, 0, 132, 2, 5, 6]]
      ⟨0, by decide⟩ ⟨0, by decide⟩ 0 := by
    simp [sampleReceptions, Reception.Fair, FRAG_TTL_SEC]
  have undefined : ∀ i, (sampleReceiver.fragments.get i).defined = false := by decide
  have here : Inside ⟨0, by decide⟩ sampleReceiver.seq_id := Nat.zero_lt_succ 24
  exact @arrives 8 sampleReceiver ⟨0, by decide⟩ 0 sampleReceptions (by decide) here here
    (find_undefined (undefined _)) fair ⟨_, List.mem_cons_self, by decide⟩ _ List.mem_cons_self 7

end OpenVpn
