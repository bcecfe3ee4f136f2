import SeguridadRedes.OpenVpn.FragmentWindow
import SeguridadRedes.OpenVpn.FragmentWire

namespace OpenVpn

open C (Bytes lastPiece piece_inside piece_ends)

section Size

theorem roundDown_eq (x : Nat) : roundDown x = x - x % 4 := by
  unfold roundDown
  rw [round_field]

theorem roundDown_least {x size : Nat} (aligned : size % 4 = 0) (enough : x ≤ size) :
    roundDown (x + FRAG_SIZE_ROUND_MASK) ≤ size := by
  have mask : FRAG_SIZE_ROUND_MASK = 3 := rfl
  rw [roundDown_eq, mask]
  omega

theorem roundDown_covers (x : Nat) : x ≤ roundDown (x + FRAG_SIZE_ROUND_MASK) := by
  have mask : FRAG_SIZE_ROUND_MASK = 3 := rfl
  rw [roundDown_eq, mask]
  omega

variable {len max_frag_size : Nat}

theorem roundDown_bounds (room : 4 ≤ max_frag_size) :
    0 < roundDown max_frag_size ∧ roundDown max_frag_size ≤ max_frag_size ∧ roundDown max_frag_size % 4 = 0 := by
  have aligned := roundDown_eq max_frag_size
  omega

def share (len max_frag_size : Nat) : Nat :=
  max_frag_size - (max_frag_size - len % roundDown max_frag_size) / (len / roundDown max_frag_size + 1)

theorem share_covers (room : 4 ≤ max_frag_size) (len : Nat) :
    len ≤ (len / roundDown max_frag_size + 1) * share len max_frag_size := by
  obtain ⟨positive, smaller, _⟩ := roundDown_bounds room
  have left : len % roundDown max_frag_size < roundDown max_frag_size := Nat.mod_lt _ positive
  have whole := Nat.div_add_mod len (roundDown max_frag_size)
  have taken := Nat.mul_div_le (max_frag_size - len % roundDown max_frag_size) (len / roundDown max_frag_size + 1)
  have more := Nat.mul_le_mul_left (len / roundDown max_frag_size) smaller
  unfold share
  rw [Nat.mul_sub, Nat.succ_mul]
  rw [Nat.mul_comm] at whole
  omega

theorem optimal_cases (len max_frag_size : Nat) :
    optimalFragmentSize len max_frag_size = roundDown max_frag_size ∨
      0 < len / roundDown max_frag_size ∧ 0 < len % roundDown max_frag_size ∧
        optimalFragmentSize len max_frag_size = roundDown (share len max_frag_size + FRAG_SIZE_ROUND_MASK) ∧
        roundDown (share len max_frag_size + FRAG_SIZE_ROUND_MASK) ≤ roundDown max_frag_size := by
  unfold optimalFragmentSize
  dsimp only
  split
  · rename_i uneven
    rcases Nat.le_total (roundDown max_frag_size) (roundDown (share len max_frag_size + FRAG_SIZE_ROUND_MASK)) with
      less | more
    · exact Or.inl (Nat.min_eq_left less)
    · exact Or.inr ⟨uneven.1, uneven.2.1, Nat.min_eq_right more, more⟩
  · exact Or.inl rfl

theorem optimal_bounds (room : 4 ≤ max_frag_size) (len : Nat) :
    0 < optimalFragmentSize len max_frag_size ∧ optimalFragmentSize len max_frag_size ≤ roundDown max_frag_size ∧
      optimalFragmentSize len max_frag_size % 4 = 0 := by
  obtain ⟨positive, smaller, aligned⟩ := roundDown_bounds room
  rcases optimal_cases len max_frag_size with same | ⟨several, _, shared, less⟩
  · rw [same]
    exact ⟨positive, Nat.le_refl _, aligned⟩
  · rw [shared]
    have covers := share_covers room len
    have whole := Nat.div_mul_le_self len (roundDown max_frag_size)
    have rounded := roundDown_covers (share len max_frag_size)
    have mask : FRAG_SIZE_ROUND_MASK = 3 := rfl
    have round := roundDown_eq (share len max_frag_size + FRAG_SIZE_ROUND_MASK)
    have some_share : 0 < share len max_frag_size := by
      by_contra none_share
      rw [Nat.eq_zero_of_not_pos none_share, Nat.mul_zero] at covers
      have blocks := Nat.mul_le_mul several positive
      omega
    exact ⟨by omega, less, by omega⟩

theorem optimal_count (room : 4 ≤ max_frag_size) (positive : 0 < len) :
    (len - 1) / optimalFragmentSize len max_frag_size = (len - 1) / roundDown max_frag_size := by
  rcases optimal_cases len max_frag_size with same | ⟨several, left, shared, less⟩
  · rw [same]
  · obtain ⟨some_size, _, _⟩ := roundDown_bounds room
    obtain ⟨size, _, _⟩ := optimal_bounds room len
    have covers := share_covers room len
    have rounded := roundDown_covers (share len max_frag_size)
    have whole := Nat.div_add_mod len (roundDown max_frag_size)
    have rest := Nat.mod_lt len some_size
    have all := Nat.mul_le_mul_left (len / roundDown max_frag_size + 1) rounded
    rw [shared] at size ⊢
    rw [Nat.mul_comm] at whole
    have first : (len - 1) / roundDown max_frag_size = len / roundDown max_frag_size := by
      apply Nat.div_eq_of_lt_le
      · omega
      · rw [Nat.succ_mul]
        omega
    have second : (len - 1) / roundDown (share len max_frag_size + FRAG_SIZE_ROUND_MASK) =
      len / roundDown max_frag_size := by
      have fewer := Nat.mul_le_mul_left (len / roundDown max_frag_size) less
      apply Nat.div_eq_of_lt_le
      · omega
      · omega
    rw [first, second]

theorem share_least (room : 4 ≤ max_frag_size) (whole : max_frag_size % 4 = 0) {size : Nat} (some_size : 0 < size)
    (few : (len - 1) / size ≤ (len - 1) / max_frag_size) (left : 0 < len % max_frag_size) :
    share len max_frag_size ≤ size := by
  have same : roundDown max_frag_size = max_frag_size := by
    rw [roundDown_eq, whole]
    rfl
  have parts := Nat.div_add_mod len max_frag_size
  have rest : len % max_frag_size < max_frag_size := Nat.mod_lt _ (by omega)
  have count : (len - 1) / max_frag_size = len / max_frag_size := by
    apply Nat.div_eq_of_lt_le
    · rw [Nat.mul_comm]
      omega
    · rw [Nat.succ_mul, Nat.mul_comm]
      omega
  have enough : len - 1 < size * ((len - 1) / size + 1) := Nat.lt_mul_div_succ _ some_size
  have more : size * ((len - 1) / size + 1) ≤ size * (len / max_frag_size + 1) :=
    Nat.mul_le_mul_left _ (by omega)
  have step : max_frag_size - len % max_frag_size <
      (len / max_frag_size + 1) * ((max_frag_size - len % max_frag_size) / (len / max_frag_size + 1) + 1) :=
    Nat.lt_mul_div_succ _ (Nat.succ_pos _)
  by_contra short
  unfold share at short
  rw [same] at short
  have below : size + ((max_frag_size - len % max_frag_size) / (len / max_frag_size + 1) + 1) ≤ max_frag_size := by
    omega
  have scaled := Nat.mul_le_mul_left (len / max_frag_size + 1) below
  rw [Nat.mul_add, Nat.succ_mul _ max_frag_size, Nat.mul_comm _ size] at scaled
  rw [Nat.mul_comm] at parts
  omega

end Size

/-- The size chosen is aligned, fits, and changes nothing of the number of fragments; where it evens out a short last
fragment it is the least that does so. -/
theorem optimal_fragment_size_exact {len max_frag_size : Nat} (room : 4 ≤ max_frag_size) (positive : 0 < len) :
    0 < optimalFragmentSize len max_frag_size ∧ optimalFragmentSize len max_frag_size ≤ max_frag_size ∧
      optimalFragmentSize len max_frag_size % 4 = 0 ∧
      (len - 1) / optimalFragmentSize len max_frag_size = (len - 1) / roundDown max_frag_size ∧
      (max_frag_size % 4 = 0 → max_frag_size ≤ len → 0 < len % max_frag_size →
        len % max_frag_size < max_frag_size * 3 / 4 →
        ∀ size, 0 < size → size % 4 = 0 → (len - 1) / size ≤ (len - 1) / max_frag_size →
          optimalFragmentSize len max_frag_size ≤ size) := by
  obtain ⟨some_size, less, aligned⟩ := optimal_bounds room len
  obtain ⟨_, smaller, _⟩ := roundDown_bounds room
  refine ⟨some_size, less.trans smaller, aligned, optimal_count room positive, ?_⟩
  intro whole several left short size some_size' aligned' few
  have least := roundDown_least aligned' (share_least room whole some_size' few left)
  have same : roundDown max_frag_size = max_frag_size := by
    rw [roundDown_eq, whole]
    rfl
  have uneven : len / max_frag_size > 0 ∧ len % max_frag_size > 0 ∧ len % max_frag_size < max_frag_size * 3 / 4 :=
    ⟨Nat.div_pos several (by omega), left, short⟩
  have chosen : optimalFragmentSize len max_frag_size =
      min max_frag_size (roundDown (share len max_frag_size + FRAG_SIZE_ROUND_MASK)) := by
    unfold optimalFragmentSize share
    rw [same]
    exact if_pos uneven
  rw [chosen]
  exact (Nat.min_le_right _ _).trans least

theorem sample_optimal : 0 < optimalFragmentSize 1410 1400 ∧ optimalFragmentSize 1410 1400 ≤ 1400 ∧
    optimalFragmentSize 1410 1400 % 4 = 0 ∧
      (1410 - 1) / optimalFragmentSize 1410 1400 = (1410 - 1) / roundDown 1400 ∧
    (1400 % 4 = 0 → 1400 ≤ 1410 → 0 < 1410 % 1400 → 1410 % 1400 < 1400 * 3 / 4 →
      ∀ size, 0 < size → size % 4 = 0 → (1410 - 1) / size ≤ (1410 - 1) / 1400 →
        optimalFragmentSize 1410 1400 ≤ size) :=
  optimal_fragment_size_exact (by decide) (by decide)

section Pieces

/-- What is left of a datagram when pieces of it have been sent. -/
structure Cut.Rest (cut : Cut) (f : FragmentOutgoing) (n : Nat) : Prop where
  size : f.outgoing_frag_size = cut.size
  next : f.outgoing_frag_id = n
  left : f.outgoing = cut.data.drop (n * cut.size)

variable {cut : Cut} {f : FragmentOutgoing} {n : Nat}

theorem Cut.Rest.ready (rest : cut.Rest f n) (among : n ≤ cut.last) :
    ∃ f', fragmentReadyToSend f = (f', some (cut.packet f.outgoing_seq_id n among)) ∧ cut.Rest f' (n + 1) ∧
      f'.outgoing_seq_id = f.outgoing_seq_id := by
  have inside : n * cut.size < cut.data.length := piece_inside cut.some_data among
  have length : f.outgoing.length = cut.data.length - n * cut.size := by rw [rest.left, List.length_drop]
  have ends : cut.data.length ≤ (cut.last + 1) * cut.size := piece_ends cut.some_size cut.data
  have last : f.outgoing.length ≤ f.outgoing_frag_size ↔ n = cut.last := by
    rw [length, rest.size]
    constructor
    · intro short
      by_contra before
      have later : n + 1 ≤ cut.last := Nat.lt_of_le_of_ne among before
      have there : (n + 1) * cut.size < cut.data.length := piece_inside cut.some_data later
      rw [Nat.succ_mul] at there
      omega
    · rintro rfl
      rw [Nat.succ_mul] at ends
      omega
  have taken : f.outgoing.take (if f.outgoing.length ≤ f.outgoing_frag_size then f.outgoing.length
      else f.outgoing_frag_size) = cut.piece n := by
    have piece : cut.piece n = f.outgoing.take cut.size := by
      rw [rest.left]
      rfl
    rw [piece]
    split
    · rename_i short
      rw [rest.size] at short
      rw [List.take_length, List.take_of_length_le short]
    · rw [rest.size]
  have left : f.outgoing.drop (if f.outgoing.length ≤ f.outgoing_frag_size then f.outgoing.length
      else f.outgoing_frag_size) = cut.data.drop ((n + 1) * cut.size) := by
    rw [Nat.succ_mul, ← List.drop_drop, ← rest.left]
    split
    · rename_i short
      rw [rest.size] at short
      rw [List.drop_length, List.drop_of_length_le short]
    · rw [rest.size]
  have kind : (if f.outgoing.length ≤ f.outgoing_frag_size then FRAG_YES_LAST else FRAG_YES_NOTLAST) =
      (cut.header f.outgoing_seq_id n among).frag_type := by simp only [last, Cut.header]
  unfold fragmentReadyToSend
  rw [if_pos (by omega)]
  dsimp only
  rw [taken, left, kind, rest.next, rest.size]
  exact ⟨_, rfl, ⟨rfl, rfl, rfl⟩, rfl⟩

theorem Cut.Rest.finished (rest : cut.Rest f n) (behind : cut.last < n) : f.outgoing = [] := by
  have ends : cut.data.length ≤ (cut.last + 1) * cut.size := piece_ends cut.some_size cut.data
  have more := Nat.mul_le_mul_right cut.size behind
  rw [rest.left, List.drop_of_length_le (ends.trans more)]

theorem ready_nothing (nothing : f.outgoing = []) : fragmentReadyToSend f = (f, none) := by
  unfold fragmentReadyToSend
  rw [if_neg (by simp [nothing])]

/-- What becomes of a datagram: it is sent whole, or its first piece is, or it is given up. -/
inductive Sends (f : FragmentOutgoing) (payload_size : Nat) (buf : Bytes) :
  FragmentOutgoing → Except String Bytes → Prop where
  | nothing (empty : buf = []) : Sends f payload_size buf f (.ok [])
  | whole (small : buf.length ≤ payload_size) (nonempty : buf ≠ []) :
      Sends f payload_size buf f (.ok (fragmentPrependFlags buf FRAG_WHOLE 0 0 0))
  | splits {f' : FragmentOutgoing} (large : payload_size < buf.length) (cut : Cut) (same : cut.data = buf)
      (size : cut.size = optimalFragmentSize buf.length payload_size)
      (next : f'.outgoing_seq_id = moduloAddFin f.outgoing_seq_id 1 seq_step) (rest : cut.Rest f' 1) :
      Sends f payload_size buf f' (.ok (cut.packet f'.outgoing_seq_id 0 (Nat.zero_le _)))
  | refused (large : payload_size < buf.length) (size : Nat) (failed : String)
      (many : optimalFragmentSize buf.length payload_size * MAX_FRAGS < buf.length) :
      Sends f payload_size buf { f with outgoing_frag_size := size } (.error failed)

theorem outgoing_cases (f : FragmentOutgoing) {payload_size : Nat} (room : 4 ≤ payload_size)
    (datagram : payload_size < 2 ^ 16) (buf : Bytes) :
    ∃ f' outcome, fragmentOutgoing f payload_size buf = some (f', outcome) ∧ Sends f payload_size buf f' outcome := by
  unfold fragmentOutgoing
  by_cases empty : buf = []
  · subst empty
    exact ⟨_, _, rfl, .nothing rfl⟩
  · have positive : buf.length > 0 := List.length_pos_of_ne_nil empty
    obtain ⟨some_size, _, _⟩ := roundDown_bounds room
    rw [if_pos positive]
    by_cases large : buf.length > payload_size
    · obtain ⟨size, less, aligned⟩ := optimal_bounds room buf.length
      obtain ⟨_, smaller, _⟩ := roundDown_bounds room
      rw [if_pos large, if_neg some_size.ne']
      dsimp only
      by_cases many : buf.length > optimalFragmentSize buf.length payload_size * MAX_FRAGS
      · rw [if_pos many]
        exact ⟨_, _, rfl, .refused large _ _ many⟩
      · rw [if_neg many]
        have few : lastPiece (optimalFragmentSize buf.length payload_size) buf < MAX_FRAGS := by
          apply Nat.div_lt_of_lt_mul
          omega
        let cut : Cut := ⟨buf, optimalFragmentSize buf.length payload_size, empty, size, aligned, by omega, few⟩
        have rest : cut.Rest ⟨moduloAddFin f.outgoing_seq_id 1 seq_step, cut.size, 0, buf⟩ 0 :=
          ⟨rfl, rfl, by rw [Nat.zero_mul]; rfl⟩
        obtain ⟨f', ready, next, same⟩ := rest.ready (Nat.zero_le _)
        rw [← same] at ready
        simp only [cut] at ready
        rw [ready]
        exact ⟨_, _, rfl, .splits large cut rfl rfl same next⟩
    · rw [if_neg large]
      exact ⟨_, _, rfl, .whole (Nat.le_of_not_lt large) empty⟩

/-- What goes out in so many rounds of `check_fragment_dowork`. -/
def checkFragmentRounds : Nat → FragmentOutgoing → FragmentOutgoing × List Bytes
  | 0, f => (f, [])
  | rounds + 1, f =>
    match fragmentReadyToSend f with
    | (f, none) => (f, [])
    | (f, some buf) =>
      let (f, bufs) := checkFragmentRounds rounds f
      (f, buf :: bufs)

theorem rounds_nothing (nothing : f.outgoing = []) (rounds : Nat) : checkFragmentRounds rounds f = (f, []) := by
  cases rounds with
  | zero => rfl
  | succ rounds =>
    unfold checkFragmentRounds
    rw [ready_nothing nothing]

theorem Cut.Rest.rounds {rounds : Nat} (rest : cut.Rest f n) (enough : cut.last < n + rounds) :
    ∃ f' bufs, checkFragmentRounds rounds f = (f', bufs) ∧ f'.outgoing = [] ∧ f'.outgoing_seq_id = f.outgoing_seq_id ∧
      bufs.length = cut.last + 1 - n ∧
      ∀ m (among : m ≤ cut.last), n ≤ m → bufs[m - n]? = some (cut.packet f.outgoing_seq_id m among) := by
  induction rounds generalizing f n with
  | zero => exact ⟨f, [], rfl, rest.finished (by omega), rfl, by simp; omega, fun m among later => by omega⟩
  | succ rounds ih =>
    rcases Nat.lt_or_ge cut.last n with behind | among
    · have nothing := rest.finished behind
      exact ⟨f, [], rounds_nothing nothing _, nothing, rfl, by simp; omega, fun m among later => by omega⟩
    · obtain ⟨f₁, ready, next, same⟩ := rest.ready among
      obtain ⟨f', bufs, sent, empty, seq, length, each⟩ := ih next (by omega)
      refine ⟨f', cut.packet f.outgoing_seq_id n among :: bufs, ?_, empty, seq.trans same, ?_, ?_⟩
      · unfold checkFragmentRounds
        rw [ready]
        dsimp only
        rw [sent]
      · rw [List.length_cons, length]
        omega
      · intro m among' later
        rcases Nat.eq_or_lt_of_le later with rfl | after
        · rw [Nat.sub_self]
          rfl
        · obtain ⟨k, places⟩ : ∃ k, m - n = k + 1 := ⟨m - n - 1, by omega⟩
          have there := each m among' after
          rw [places, List.getElem?_cons_succ, ← same, ← there]
          congr 1
          omega

def fragmentDatagram (f : FragmentOutgoing) (payload_size : Nat) (buf : Bytes) :
    Option (FragmentOutgoing × List Bytes) :=
  match fragmentOutgoing f payload_size buf with
  | some (f, .ok buf) =>
    let (f, bufs) := checkFragmentRounds MAX_FRAGS f
    some (f, buf :: bufs)
  | _ => none

/-- A datagram that is split goes out as its pieces, in their order. -/
theorem datagram_pieces (f : FragmentOutgoing) {payload_size : Nat} (room : 4 ≤ payload_size)
    (told : payload_size < 2 ^ 16)
    {buf : Bytes} (large : payload_size < buf.length)
    (few : buf.length ≤ optimalFragmentSize buf.length payload_size * MAX_FRAGS) :
    ∃ (cut : Cut) (f' : FragmentOutgoing) (wires : List Bytes), cut.data = buf ∧
      cut.size = optimalFragmentSize buf.length payload_size ∧
        fragmentDatagram f payload_size buf = some (f', wires) ∧
      f'.outgoing = [] ∧ wires.length = cut.last + 1 ∧
      ∀ m (among : m ≤ cut.last), wires[m]? = some (cut.packet f'.outgoing_seq_id m among) := by
  obtain ⟨f₁, outcome, out, sends⟩ := outgoing_cases f room told buf
  cases sends with
  | nothing empty => simp [empty] at large
  | whole small => omega
  | refused _ _ _ many => omega
  | splits _ cut same size next rest =>
    have fewer := cut.few
    obtain ⟨f', bufs, sent, empty, seq, length, each⟩ :=
      @Cut.Rest.rounds cut f₁ 1 MAX_FRAGS rest (Nat.lt_add_left 1 fewer)
    refine ⟨cut, f', cut.packet f₁.outgoing_seq_id 0 (Nat.zero_le _) :: bufs, same, size, ?_, empty, ?_, ?_⟩
    · unfold fragmentDatagram
      rw [out]
      dsimp only
      rw [sent]
    · rw [List.length_cons, length]
      rfl
    · intro m among
      rw [seq]
      cases m with
      | zero => rfl
      | succ m => exact each (m + 1) among (Nat.succ_pos m)

end Pieces

end OpenVpn
