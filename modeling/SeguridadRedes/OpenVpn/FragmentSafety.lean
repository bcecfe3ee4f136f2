import SeguridadRedes.C.Machine
import SeguridadRedes.OpenVpn.FragmentSender
import SeguridadRedes.OpenVpn.Reassembly

namespace OpenVpn

open C (Bytes put runs runs_invariant)

variable {capacity : Nat}

section System

/-- A value of `PAYLOAD_SIZE_DYNAMIC(frame)` that a fragment fits in and the header can tell. -/
structure PayloadSize where
  size : Nat
  room : 4 ≤ size
  told : size < 2 ^ 16

/-- A packet on the wire, and of a fragment also which of the datagrams that were split it is a piece of. -/
structure FragmentPacket where
  wire : Bytes
  number : Option Nat

/-- One end that sends, with all it has put on the wire, and one that receives. -/
structure FragmentLink (capacity : Nat) where
  sender : FragmentOutgoing
  receiver : FragmentList capacity
  splits : Nat
  last : Option Nat
  packets : List FragmentPacket
  sent : List Bytes
  delivered : List Bytes

def connectFragments (sender : FragmentOutgoing) (receiver : FragmentList capacity) : FragmentLink capacity :=
  ⟨sender, receiver, 0, none, [], [], []⟩

inductive FragmentMove
  | send (payload : PayloadSize) (buf : Bytes)
  | fragment
  | arrives (i : Nat) (now : Int)
  | wakeup (now : Int)

/-- How far a network may reorder. -/
def Near (last number : Option Nat) : Prop :=
  ∀ k ∈ last, ∀ j ∈ number, j + 2 * N_FRAG_BUF ≤ k + N_SEQ_ID ∧ k + 2 * N_FRAG_BUF ≤ j + N_SEQ_ID

instance (last number : Option Nat) : Decidable (Near last number) :=
  inferInstanceAs (Decidable (∀ k ∈ last, ∀ j ∈ number, _))

def passedOn : Except String Bytes → List Bytes
  | .ok buf => if buf = [] then [] else [buf]
  | .error _ => []

/-- No datagram that needs splitting is read while pieces of another are still to be sent, as `io_wait` sees to. Packets
are lost, repeated and reordered by which of them arrive. -/
def FragmentLink.step (link : FragmentLink capacity) : FragmentMove → Option (FragmentLink capacity)
  | .send payload buf =>
    if link.sender.outgoing ≠ [] ∧ payload.size < buf.length then none
    else
      match fragmentOutgoing link.sender payload.size buf with
      | none => none
      | some (sender, outcome) =>
        let number := if payload.size < buf.length then some link.splits else none
        let packets := (passedOn outcome).map (⟨·, number⟩)
        some { link with
          sender := sender
          splits := if payload.size < buf.length then link.splits + packets.length else link.splits
          packets := link.packets ++ packets
          sent := link.sent ++ [buf] }
  | .fragment =>
    let (sender, outcome) := fragmentReadyToSend link.sender
    some { link with
      sender := sender
      packets := link.packets ++ outcome.toList.map (⟨·, some (link.splits - 1)⟩) }
  | .arrives i now =>
    match link.packets[i]? with
    | none => none
    | some packet =>
      if Near link.last packet.number then
        let (receiver, outcome) := fragmentIncoming link.receiver now packet.wire
        some { link with
          receiver := receiver
          last := packet.number.or link.last
          delivered := link.delivered ++ passedOn outcome }
      else none
  | .wakeup now => some { link with receiver := fragmentTtlReap link.receiver now }

end System

section Standing

variable {start : Fin N_SEQ_ID} {issued : List Cut} {list list' : FragmentList capacity} {newest j : Nat} {cut : Cut}
  {frag : Fragment capacity}

/-- The sequence id of a datagram that is split, from the sequence id there was at the start. -/
def splitId (start : Fin N_SEQ_ID) (k : Nat) : Fin N_SEQ_ID := ⟨(start + 1 + k) % N_SEQ_ID, Nat.mod_lt _ (by decide)⟩

/-- The list stands at one of the datagrams, and each of its buffers holds pieces of the one that far back. -/
structure Stands (start : Fin N_SEQ_ID) (issued : List Cut) (list : FragmentList capacity) (newest : Nat) : Prop where
  seq : list.seq_id = splitId start newest
  found : ∀ s frag, list.find s = some frag →
    ∃ k cut, k + list.behind s = newest ∧ issued[k]? = some cut ∧ cut.Received frag

theorem Stands.behind (stands : Stands start issued list newest) (j : Nat) :
    list.behind (splitId start j) =
      ((start + 1 + newest) % N_SEQ_ID + N_SEQ_ID - (start + 1 + j) % N_SEQ_ID) % N_SEQ_ID := by
  unfold FragmentList.behind
  rw [stands.seq]
  rfl

theorem Stands.more (stands : Stands start issued list newest) (later : List Cut) :
    Stands start (issued ++ later) list newest := by
  refine ⟨stands.seq, fun s frag found => ?_⟩
  obtain ⟨k, cut, back, known, received⟩ := stands.found s frag found
  exact ⟨k, cut, back, List.getElem?_append_left (List.getElem?_eq_some_iff.mp known).1 ▸ known, received⟩

theorem Stands.reap (stands : Stands start issued list newest) (now : Int) :
    Stands start issued (fragmentTtlReap list now) newest := by
  refine ⟨stands.seq, fun s frag found => stands.found s frag ?_⟩
  rw [find_reap] at found
  exact Option.eq_some_of_filter_eq_some found

theorem stands_fresh (empty : ∀ s, list.find s = none) (j : Nat) :
    Stands start issued list (j + list.behind (splitId start j)) := by
  refine ⟨?_, fun s frag found => ?_⟩
  · have seq := list.seq_id.isLt
    apply Fin.ext
    unfold FragmentList.behind splitId at *
    unfold N_SEQ_ID at *
    dsimp only
    omega
  · rw [empty] at found
    cases found

theorem Stands.look (stands : Stands start issued list newest) (below : j < newest + (N_SEQ_ID - N_FRAG_BUF + 1))
    (above : newest < j + (N_SEQ_ID - N_FRAG_BUF + 1)) (look : Lookup list (splitId start j) list')
    (near : list'.behind (splitId start j) < N_FRAG_BUF) :
    Stands start issued list' (j + list'.behind (splitId start j)) := by
  have behind := stands.behind j
  cases look with
  | restarts _ _ newest empty => exact stands_fresh empty j
  | @advances d short here =>
    have zero := (advance_behind list d (splitId start j)).trans here
    have moved : j = newest + d := by
      unfold N_SEQ_ID N_FRAG_BUF at *
      omega
    rw [zero]
    refine ⟨?_, fun s frag found => ?_⟩
    · have seq := advance_seq list d
      rw [stands.seq] at seq
      apply Fin.ext
      unfold splitId at *
      unfold N_SEQ_ID N_FRAG_BUF at *
      dsimp only at *
      omega
    · rw [find_advance list short] at found
      split at found
      · rename_i inside
        obtain ⟨k, cut, back, known, received⟩ := stands.found s frag found
        have further := advance_behind list d s
        rw [Nat.mod_eq_of_lt (by unfold N_FRAG_BUF at inside; omega)] at further
        exact ⟨k, cut, by omega, known, received⟩
      · cases found
  | stays _ =>
    have same : j + list.behind (splitId start j) = newest := by
      unfold N_SEQ_ID N_FRAG_BUF at *
      omega
    rw [same]
    exact stands

theorem Stands.store {s : Fin N_SEQ_ID} (stands : Stands start issued list (j + list.behind s))
    (near : list.behind s < N_FRAG_BUF) (known : issued[j]? = some cut)
      (received : frag.defined = true → cut.Received frag) :
    Stands start issued { list with fragments := put list.fragments (list.place s) frag } (j + list.behind s) := by
  refine ⟨stands.seq, fun s' frag' found => ?_⟩
  rw [find_store near] at found
  split at found
  · rename_i same
    subst same
    split at found
    · rename_i defined
      obtain rfl := Option.some.inj found
      exact ⟨j, cut, rfl, known, received defined⟩
    · cases found
  · exact stands.found s' frag' found

theorem Stands.known (stands : Stands start issued list newest) (below : j < newest + (N_SEQ_ID - N_FRAG_BUF + 1))
    (above : newest < j + (N_SEQ_ID - N_FRAG_BUF + 1)) (known : issued[j]? = some cut) :
    ∀ frag, list.find (splitId start j) = some frag → cut.Received frag := by
  intro frag found
  obtain ⟨k, cut', back, known', received⟩ := stands.found _ frag found
  have near : list.behind (splitId start j) < N_FRAG_BUF := by
    by_contra outside
    rw [find_outside (Nat.le_of_not_lt outside)] at found
    cases found
  have behind := stands.behind j
  obtain rfl : k = j := by
    unfold N_SEQ_ID N_FRAG_BUF at *
    omega
  rw [known] at known'
  exact Option.some.inj known' ▸ received

/-- Where a piece of a datagram goes, the list stands near it. -/
def Reaches (start : Fin N_SEQ_ID) (issued : List Cut) (list : FragmentList capacity) : Option Nat → Prop
  | none => ∀ s, list.find s = none
  | some j => Stands start issued list (j + list.behind (splitId start j)) ∧ list.behind (splitId start j) < N_FRAG_BUF

variable {last : Option Nat}

theorem Reaches.more (reaches : Reaches start issued list last) (later : List Cut) :
    Reaches start (issued ++ later) list last := by
  cases last with
  | none => exact reaches
  | some j => exact ⟨reaches.1.more later, reaches.2⟩

theorem Reaches.reap (reaches : Reaches start issued list last) (now : Int) :
    Reaches start issued (fragmentTtlReap list now) last := by
  cases last with
  | none =>
    intro s
    rw [find_reap, reaches s]
    rfl
  | some j => exact ⟨reaches.1.reap now, reaches.2⟩

theorem Near.within {k j ahead : Nat} (near : Near (some k) (some j)) (short : ahead < N_FRAG_BUF) :
    j < k + ahead + (N_SEQ_ID - N_FRAG_BUF + 1) ∧ k + ahead < j + (N_SEQ_ID - N_FRAG_BUF + 1) := by
  have both := near k rfl j rfl
  unfold N_SEQ_ID N_FRAG_BUF at *
  omega

/-- A fragment changes only what there is of its datagram, and gives that datagram or nothing. -/
theorem Reaches.incoming (reaches : Reaches start issued list last) {k n : Nat} (near : Near last (some k))
    (known : issued[k]? = some cut) (among : n ≤ cut.last) (now : Int) :
    ∃ list' outcome, fragmentIncoming list now (cut.packet (splitId start k) n among) = (list', outcome) ∧
      Reaches start issued list' (some k) ∧ ∀ buf ∈ passedOn outcome, buf = cut.data := by
  have there : ∀ frag, list.find (splitId start k) = some frag → cut.Received frag := by
    cases last with
    | none =>
      intro frag found
      rw [reaches] at found
      cases found
    | some j =>
      obtain ⟨below, above⟩ := near.within reaches.2
      exact reaches.1.known below above known
  obtain ⟨list', begun, frag, outcome, look, inside, received, _, _, joined, goes⟩ := incoming_piece there among now
  have stands : Stands start issued list' (k + list'.behind (splitId start k)) := by
    cases last with
    | none => exact stands_fresh (fun s => Option.eq_none_iff_forall_ne_some.mpr fun frag found => by
        have before := look.find found
        rw [reaches] at before
        cases before) k
    | some j =>
      obtain ⟨below, above⟩ := near.within reaches.2
      exact reaches.1.look below above look inside
  refine ⟨_, outcome, goes, ⟨stands.store inside known ?_, inside⟩, ?_⟩
  · intro defined
    cases joined with
    | overflows => exact received
    | waits fits => exact received.marked among now fits
    | completes fits => cases defined
  · intro buf member
    cases joined with
    | overflows => cases member
    | waits => cases member
    | completes => simpa [passedOn, cut.some_data] using member

end Standing

section Safety

variable {start : Fin N_SEQ_ID} {issued : List Cut} {link link' : FragmentLink capacity}

/-- What a packet is: a datagram that was sent whole, or a piece of one that was split. -/
inductive Genuine (start : Fin N_SEQ_ID) (issued : List Cut) (sent : List Bytes) : FragmentPacket → Prop
  | whole {buf : Bytes} (member : buf ∈ sent) :
      Genuine start issued sent ⟨fragmentPrependFlags buf FRAG_WHOLE 0 0 0, none⟩
  | piece {k n : Nat} {cut : Cut} (known : issued[k]? = some cut) (among : n ≤ cut.last) :
      Genuine start issued sent ⟨cut.packet (splitId start k) n among, some k⟩

theorem Genuine.more {sent : List Bytes} {packet : FragmentPacket} (genuine : Genuine start issued sent packet)
    (later : List Cut) (buf : Bytes) : Genuine start (issued ++ later) (sent ++ [buf]) packet := by
  cases genuine with
  | whole member => exact .whole (List.mem_append_left _ member)
  | piece known among =>
    exact .piece (List.getElem?_append_left (List.getElem?_eq_some_iff.mp known).1 ▸ known) among

def Unsent (issued : List Cut) (sender : FragmentOutgoing) : Prop :=
  sender.outgoing = [] ∨ ∃ cut n, issued.getLast? = some cut ∧ n ≤ cut.last ∧ cut.Rest sender n

structure FragmentInv (start : Fin N_SEQ_ID) (issued : List Cut) (link : FragmentLink capacity) : Prop where
  count : issued.length = link.splits
  seq : link.sender.outgoing_seq_id.val = (start.val + issued.length) % N_SEQ_ID
  among : ∀ cut ∈ issued, cut.data ∈ link.sent
  unsent : Unsent issued link.sender
  packets : ∀ packet ∈ link.packets, Genuine start issued link.sent packet
  reaches : Reaches start issued link.receiver link.last
  delivered : ∀ buf ∈ link.delivered, buf ∈ link.sent

theorem Cut.Rest.unsent {cut : Cut} {n : Nat} {f : FragmentOutgoing} (rest : cut.Rest f n)
    (current : issued.getLast? = some cut) : Unsent issued f := by
  rcases Nat.lt_or_ge cut.last n with behind | among
  · exact Or.inl (rest.finished behind)
  · exact Or.inr ⟨cut, n, current, among, rest⟩

theorem passedOn_ok {buf : Bytes} (some_buf : buf ≠ []) : passedOn (.ok buf) = [buf] := if_neg some_buf

theorem prepend_nonempty (buf : Bytes) (type seq_id frag_id frag_size : Nat) :
    fragmentPrependFlags buf type seq_id frag_id frag_size ≠ [] := by
  apply List.ne_nil_of_length_pos
  rw [prepend_length]
  omega

theorem FragmentInv.offer (inv : FragmentInv start issued link) {sender : FragmentOutgoing}
    {packets : List FragmentPacket}
    (buf : Bytes) (same : sender.outgoing_seq_id = link.sender.outgoing_seq_id) (unsent : Unsent issued sender)
    (genuine : ∀ packet ∈ packets, Genuine start issued (link.sent ++ [buf]) packet) :
    FragmentInv start issued
      { link with sender := sender, packets := link.packets ++ packets, sent := link.sent ++ [buf] } := by
  refine ⟨inv.count, same ▸ inv.seq, ?_, unsent, ?_, inv.reaches, ?_⟩
  · exact fun cut member => List.mem_append_left _ (inv.among cut member)
  · intro packet member
    rcases List.mem_append.mp member with old | new
    · have more := (inv.packets packet old).more [] buf
      rwa [List.append_nil] at more
    · exact genuine packet new
  · exact fun b member => List.mem_append_left _ (inv.delivered b member)

theorem FragmentInv.current (inv : FragmentInv start issued link) {cut : Cut} (last : issued.getLast? = some cut) :
    issued[link.splits - 1]? = some cut ∧ splitId start (link.splits - 1) = link.sender.outgoing_seq_id := by
  have positive : 0 < issued.length := List.length_pos_of_mem (List.mem_of_getLast? last)
  rw [List.getLast?_eq_getElem?] at last
  refine ⟨inv.count ▸ last, Fin.ext ?_⟩
  rw [inv.seq, ← inv.count]
  unfold splitId
  dsimp only
  congr 1
  omega

theorem FragmentInv.split (inv : FragmentInv start issued link) {sender : FragmentOutgoing} {cut : Cut}
    (next : sender.outgoing_seq_id = moduloAddFin link.sender.outgoing_seq_id 1 seq_step) (rest : cut.Rest sender 1) :
    FragmentInv start (issued ++ [cut])
      { link with
        sender := sender
        splits := link.splits + 1
        packets := link.packets ++ [⟨cut.packet sender.outgoing_seq_id 0 (Nat.zero_le _), some link.splits⟩]
        sent := link.sent ++ [cut.data] } := by
  have seq : sender.outgoing_seq_id = splitId start link.splits := by
    have value := moduloAddFin_val link.sender.outgoing_seq_id 1 seq_step
    have before := inv.seq
    have count := inv.count
    rw [next]
    apply Fin.ext
    unfold splitId N_SEQ_ID at *
    dsimp only
    omega
  have current : (issued ++ [cut]).getLast? = some cut := List.getLast?_concat
  refine ⟨by rw [List.length_append, inv.count]; rfl, ?_, ?_, rest.unsent current, ?_, inv.reaches.more _, ?_⟩
  · rw [seq, List.length_append, inv.count]
    unfold splitId
    dsimp only [List.length_singleton]
    congr 1
    omega
  · intro cut' member
    rcases List.mem_append.mp member with old | new
    · exact List.mem_append_left _ (inv.among cut' old)
    · obtain rfl := List.mem_singleton.mp new
      exact List.mem_append_right _ (List.mem_singleton_self _)
  · intro packet member
    rcases List.mem_append.mp member with old | new
    · exact (inv.packets packet old).more [cut] cut.data
    · obtain rfl := List.mem_singleton.mp new
      rw [seq]
      exact .piece (by rw [← inv.count, List.getElem?_concat_length]) _
  · exact fun b member => List.mem_append_left _ (inv.delivered b member)

theorem FragmentInv.send (inv : FragmentInv start issued link) {payload : PayloadSize} {buf : Bytes}
    (stepped : link.step (.send payload buf) = some link') : ∃ later, FragmentInv start later link' := by
  obtain ⟨sender, outcome, out, sends⟩ := outgoing_cases link.sender payload.room payload.told buf
  unfold FragmentLink.step at stepped
  dsimp only at stepped
  split at stepped
  · cases stepped
  · rename_i free
    rw [out] at stepped
    obtain rfl := Option.some.inj stepped
    cases sends with
    | nothing empty =>
      have small : ¬ payload.size < buf.length := by simp [empty]
      simp only [if_neg small]
      exact ⟨issued, inv.offer buf rfl inv.unsent fun packet member => by cases member⟩
    | whole small nonempty =>
      simp only [if_neg (Nat.not_lt_of_le small), passedOn_ok (prepend_nonempty _ _ _ _ _)]
      refine ⟨issued, inv.offer buf rfl inv.unsent fun packet member => ?_⟩
      obtain rfl := List.mem_singleton.mp member
      exact .whole (List.mem_append_right _ (List.mem_singleton_self _))
    | splits large cut same _ next rest =>
      subst same
      simp only [if_pos large, Cut.packet, FragmentHeader.packet, passedOn_ok (prepend_nonempty _ _ _ _ _)]
      exact ⟨issued ++ [cut], inv.split next rest⟩
    | refused large =>
      simp only [if_pos large]
      refine ⟨issued, inv.offer buf rfl (Or.inl ?_) fun packet member => by cases member⟩
      exact by_contra fun busy => free ⟨busy, large⟩

theorem FragmentInv.fragment (inv : FragmentInv start issued link)
    (stepped : link.step .fragment = some link') : FragmentInv start issued link' := by
  unfold FragmentLink.step at stepped
  dsimp only at stepped
  rcases inv.unsent with nothing | ⟨cut, n, current, among, rest⟩
  · rw [ready_nothing nothing] at stepped
    obtain rfl := Option.some.inj stepped
    rw [Option.toList_none, List.map_nil, List.append_nil]
    exact inv
  · obtain ⟨sender, ready, left, same⟩ := rest.ready among
    obtain ⟨known, seq⟩ := inv.current current
    rw [ready] at stepped
    obtain rfl := Option.some.inj stepped
    refine ⟨inv.count, same ▸ inv.seq, inv.among, left.unsent current, ?_, inv.reaches, inv.delivered⟩
    intro packet member
    rcases List.mem_append.mp member with old | new
    · exact inv.packets packet old
    · obtain rfl := List.mem_singleton.mp new
      rw [← seq]
      exact .piece known among

theorem FragmentInv.arrives (inv : FragmentInv start issued link) {i : Nat} {now : Int}
    (stepped : link.step (.arrives i now) = some link') : FragmentInv start issued link' := by
  unfold FragmentLink.step at stepped
  dsimp only at stepped
  split at stepped
  · cases stepped
  · rename_i packet found
    split at stepped
    · rename_i near
      obtain rfl := Option.some.inj stepped
      have genuine := inv.packets packet (List.mem_of_getElem? found)
      cases genuine with
      | whole member =>
        simp only [incoming_whole]
        refine ⟨inv.count, inv.seq, inv.among, inv.unsent, inv.packets, inv.reaches, ?_⟩
        intro b came
        rcases List.mem_append.mp came with old | new
        · exact inv.delivered b old
        · unfold passedOn at new
          dsimp only at new
          split at new
          · cases new
          · exact List.mem_singleton.mp new ▸ member
      | piece known among =>
        obtain ⟨receiver, outcome, goes, reaches, given⟩ := inv.reaches.incoming near known among now
        simp only [goes]
        refine ⟨inv.count, inv.seq, inv.among, inv.unsent, inv.packets, reaches, ?_⟩
        intro b came
        rcases List.mem_append.mp came with old | new
        · exact inv.delivered b old
        · rw [given b new]
          exact inv.among _ (List.mem_of_getElem? known)
    · cases stepped

theorem FragmentInv.step (inv : FragmentInv start issued link) {move : FragmentMove}
    (stepped : link.step move = some link') : ∃ later, FragmentInv start later link' := by
  cases move with
  | send payload buf => exact inv.send stepped
  | fragment => exact ⟨issued, inv.fragment stepped⟩
  | arrives i now => exact ⟨issued, inv.arrives stepped⟩
  | wakeup now =>
    obtain rfl := Option.some.inj stepped
    exact ⟨issued, inv.count, inv.seq, inv.among, inv.unsent, inv.packets, inv.reaches.reap now, inv.delivered⟩

theorem fragment_inv_start {sender : FragmentOutgoing} {receiver : FragmentList capacity} (idle : sender.outgoing = [])
    (empty : ∀ s, receiver.find s = none) :
    FragmentInv sender.outgoing_seq_id [] (connectFragments sender receiver) :=
  ⟨rfl, (Nat.mod_eq_of_lt sender.outgoing_seq_id.isLt).symm, by simp, Or.inl idle,
    fun _ member => absurd member List.not_mem_nil, empty, fun _ member => absurd member List.not_mem_nil⟩

end Safety

/-- Whatever is lost, repeated or reordered, and however often the sequence ids wrap around, what the receiver puts
together is a datagram that was sent: no piece of one comes to stand among the pieces of another. -/
theorem reassembly_safe {sender : FragmentOutgoing} {receiver : FragmentList capacity} (idle : sender.outgoing = [])
    (undefined : ∀ i, (receiver.fragments.get i).defined = false) {moves : List FragmentMove}
      {link : FragmentLink capacity}
    (ran : runs FragmentLink.step (connectFragments sender receiver) moves = some link) :
    ∀ buf ∈ link.delivered, buf ∈ link.sent := by
  have start := fragment_inv_start idle fun s => find_undefined (undefined (receiver.place s))
  have kept : ∀ (link : FragmentLink capacity) move link', (∃ issued, FragmentInv sender.outgoing_seq_id issued link) →
      link.step move = some link' → ∃ issued, FragmentInv sender.outgoing_seq_id issued link' :=
    fun link move link' ⟨_, inv⟩ stepped => inv.step stepped
  obtain ⟨_, inv⟩ := runs_invariant kept ⟨[], start⟩ ran
  exact inv.delivered

def samplePayload : PayloadSize := ⟨4, by decide, by decide⟩

def sampleSender : FragmentOutgoing := ⟨⟨255, by decide⟩, 0, 0, []⟩

def sampleReceiver : FragmentList 8 :=
  ⟨⟨0, Nat.zero_lt_succ 255⟩, ⟨0, Nat.zero_lt_succ 24⟩,
    Vector.replicate 25 ⟨false, 0, 0, 0, Vector.replicate 8 0, 0, Nat.zero_le 8⟩⟩

def sampleFragmentMoves : List FragmentMove :=
  [.send samplePayload [1, 2, 3, 4, 5, 6], .fragment, .arrives 1 0, .arrives 0 0, .arrives 0 3, .wakeup 13,
    .send samplePayload [7, 8], .arrives 2 14]

theorem sample_reassembly : ∃ link, runs FragmentLink.step (connectFragments sampleSender sampleReceiver)
      sampleFragmentMoves = some link ∧
    link.delivered = [[1, 2, 3, 4, 5, 6], [7, 8]] ∧ ∀ buf ∈ link.delivered, buf ∈ link.sent := by
  obtain ⟨link, ran, came⟩ : ∃ link, runs FragmentLink.step (connectFragments sampleSender sampleReceiver)
      sampleFragmentMoves = some link ∧ link.delivered = [[1, 2, 3, 4, 5, 6], [7, 8]] := ⟨_, rfl, rfl⟩
  exact ⟨link, ran, came, reassembly_safe rfl (by decide) ran⟩

end OpenVpn
