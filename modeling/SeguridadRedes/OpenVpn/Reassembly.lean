import SeguridadRedes.OpenVpn.FragmentWindow
import SeguridadRedes.OpenVpn.FragmentWire

namespace OpenVpn

open C (Bytes blit put piece_length piece_full piece_inside lastPiece_reaches Assembled)

variable {capacity : Nat} {cut : Cut} {n : Nat}

section Map

theorem map_full {map : BitVec 32} : map &&& FRAG_MAP_MASK = FRAG_MAP_MASK ↔ ∀ m < 32, map.getLsbD m = true := by
  have mask : FRAG_MAP_MASK = BitVec.allOnes 32 := rfl
  rw [mask, BitVec.and_allOnes]
  constructor
  · rintro rfl m inside
    rw [BitVec.getLsbD_allOnes]
    exact decide_eq_true inside
  · intro all
    apply BitVec.eq_of_getLsbD_eq
    intro m inside
    rw [all m inside, BitVec.getLsbD_allOnes]
    exact (decide_eq_true inside).symm

theorem marked_bit (map : BitVec 32) (last : Bool) {n m : Nat} (inside : m < 32) :
    (map ||| (if last = true then FRAG_MAP_MASK else 1) <<< n).getLsbD m =
      (map.getLsbD m || decide (m = n) || (last && decide (n ≤ m))) := by
  have mask : FRAG_MAP_MASK = BitVec.allOnes 32 := rfl
  rw [BitVec.getLsbD_or, BitVec.getLsbD_shiftLeft, decide_eq_true inside, Bool.true_and, Bool.or_assoc]
  congr 1
  cases last with
  | true =>
    rw [if_pos rfl, mask, BitVec.getLsbD_allOnes, decide_eq_true (by omega : m - n < 32), Bool.and_true, Bool.true_and]
    by_cases before : m < n
    · simp [before, before.ne]
    · simp [before, Nat.le_of_not_lt before]
  | false =>
    have one : (1 : BitVec 32) = 1#32 := rfl
    rw [if_neg Bool.false_ne_true, one, BitVec.getLsbD_one, Bool.false_and, Bool.or_false]
    by_cases before : m < n
    · simp [before, before.ne]
    · simp only [before, decide_false, Bool.not_false, Bool.true_and]
      have first : m - n = 0 ↔ m = n := by omega
      simp [first]

end Map

section Join

/-- A buffer that holds pieces of the datagram and nothing else, each where it belongs. -/
structure Cut.Received (cut : Cut) (frag : Fragment capacity) : Prop where
  defined : frag.defined = true
  size : frag.max_frag_size = cut.size
  assembled : Assembled cut.size cut.data (fun m => frag.map.getLsbD m = true) frag.buf
  len_le : frag.len ≤ cut.data.length
  ended : ∀ m, cut.last ≤ m → frag.map.getLsbD m = true → frag.len = cut.data.length

variable {frag : Fragment capacity}

theorem begin_blank (undefined : frag.defined = false) :
    cut.Received (fragmentBegin frag cut.size) ∧ (fragmentBegin frag cut.size).map = 0 := by
  unfold fragmentBegin
  rw [if_pos (Or.inl undefined)]
  refine ⟨⟨rfl, rfl, ?_, Nat.zero_le _, ?_⟩, rfl⟩
  · intro i _ impossible
    simp at impossible
  · intro m _ impossible
    simp at impossible

theorem begin_received (received : cut.Received frag) : fragmentBegin frag cut.size = frag := by
  unfold fragmentBegin
  rw [if_neg]
  simp [received.defined, received.size]

theorem begin_either (known : frag.defined = true → cut.Received frag) :
    cut.Received (fragmentBegin frag cut.size) := by
  cases defined : frag.defined with
  | false => exact (begin_blank defined).1
  | true =>
    rw [begin_received (known defined)]
    exact known defined

/-- The buffer with one piece more. -/
def Cut.marked (cut : Cut) (frag : Fragment capacity) (n : Nat) (now : Int)
    (fits : n * cut.size + (cut.piece n).length ≤ capacity) : Fragment capacity :=
  { frag with
    buf := blit frag.buf (n * cut.size) (cut.piece n)
    len := max frag.len (n * cut.size + (cut.piece n).length)
    len_le := Nat.max_le.mpr ⟨frag.len_le, fits⟩
    map := frag.map ||| (if decide (n = cut.last) = true then FRAG_MAP_MASK else 1) <<< n
    timestamp := now }

theorem marked_map {now : Int} {fits : n * cut.size + (cut.piece n).length ≤ capacity} {m : Nat} (inside : m < 32) :
    (cut.marked frag n now fits).map.getLsbD m = true ↔
      frag.map.getLsbD m = true ∨ m = n ∨ n = cut.last ∧ n ≤ m := by
  unfold Cut.marked
  rw [marked_bit _ _ inside]
  simp [or_assoc]

theorem Cut.Received.marked (received : cut.Received frag) (among : n ≤ cut.last) (now : Int)
    (fits : n * cut.size + (cut.piece n).length ≤ capacity) : cut.Received (cut.marked frag n now fits) := by
  have inside : n * cut.size < cut.data.length := piece_inside cut.some_data among
  have size : (cut.piece n).length = min cut.size (cut.data.length - n * cut.size) := piece_length _ _ _
  have within : n * cut.size + (cut.piece n).length ≤ cut.data.length := by omega
  refine ⟨received.defined, received.size, ?_, Nat.max_le.mpr ⟨received.len_le, within⟩, ?_⟩
  · intro i here there
    have place : i / cut.size ≤ cut.last := C.place_among i here
    have small : i / cut.size < 32 := Nat.lt_of_le_of_lt place cut.few
    refine received.assembled.store cut.some_size fits i here ?_
    rcases (marked_map small).mp there with before | now | ⟨last, above⟩
    · exact Or.inl before
    · exact Or.inr now
    · exact Or.inr (by omega)
  · intro m behind there
    by_cases small : m < 32
    · have reaches : cut.last * cut.size + (cut.piece cut.last).length = cut.data.length :=
        lastPiece_reaches cut.some_size cut.some_data
      have old_le := received.len_le
      rcases (marked_map small).mp there with before | rfl | ⟨rfl, _⟩
      · have old := received.ended m behind before
        exact (max_eq_left (old ▸ within)).trans old
      · obtain rfl : m = cut.last := Nat.le_antisymm among behind
        exact (congrArg (max frag.len) reaches).trans (max_eq_right old_le)
      · exact (congrArg (max frag.len) reaches).trans (max_eq_right old_le)
    · rw [BitVec.getLsbD_of_ge _ _ (Nat.le_of_not_lt small)] at there
      cases there

/-- With all its pieces there, the buffer holds the datagram. -/
theorem Cut.Received.whole (received : cut.Received frag) (all : ∀ m < 32, frag.map.getLsbD m = true) :
    frag.buf.toList.take frag.len = cut.data := by
  rw [received.ended cut.last (Nat.le_refl _) (all _ cut.few)]
  exact received.assembled.whole fun m among => all m (Nat.lt_of_le_of_lt among cut.few)

/-- What becomes of a piece: there is no room for it, it waits for the others, or it is the last to come. -/
inductive Joined (cut : Cut) (frag : Fragment capacity) (n : Nat) (now : Int) :
    Fragment capacity → Except String Bytes → Prop where
  | overflows (long : capacity < n * cut.size + (cut.piece n).length) :
      Joined cut frag n now frag (.error "fragment buffer overflow")
  | waits (fits : n * cut.size + (cut.piece n).length ≤ capacity)
      (missing : ∃ m < 32, (cut.marked frag n now fits).map.getLsbD m = false) :
      Joined cut frag n now (cut.marked frag n now fits) (.ok [])
  | completes (fits : n * cut.size + (cut.piece n).length ≤ capacity)
      (all : ∀ m < 32, (cut.marked frag n now fits).map.getLsbD m = true) :
      Joined cut frag n now (cut.marked frag n now fits).undefine (.ok cut.data)

theorem last_kind (seq_id : Fin N_SEQ_ID) (among : n ≤ cut.last) :
    (cut.header seq_id n among).frag_type = FRAG_YES_LAST ↔ decide (n = cut.last) = true := by
  unfold Cut.header
  by_cases last : n = cut.last
  · simp [last]
  · simp [last, FRAG_YES_NOTLAST, FRAG_YES_LAST]

theorem copy_piece {size : Nat} {buf : Bytes} (fits : n * size + buf.length ≤ capacity) :
    bufCopyRange frag (n * size) buf = some { frag with
      buf := blit frag.buf (n * size) buf
      len := max frag.len (n * size + buf.length)
      len_le := Nat.max_le.mpr ⟨frag.len_le, fits⟩ } := by
  have longer : (if n * size + buf.length > frag.len then n * size + buf.length else frag.len) =
      max frag.len (n * size + buf.length) := by
    split <;> omega
  unfold bufCopyRange
  rw [dif_neg (Nat.not_lt_of_le fits)]
  simp only [longer]

theorem join_piece (frag : Fragment capacity) (seq_id : Fin N_SEQ_ID) (among : n ≤ cut.last) (now : Int)
    (received : cut.Received (fragmentBegin frag cut.size)) :
    ∃ frag' outcome, fragmentJoin frag (cut.header seq_id n among).frag_type n cut.size now (cut.piece n) =
      (frag', outcome) ∧ Joined cut (fragmentBegin frag cut.size) n now frag' outcome := by
  unfold fragmentJoin
  dsimp only
  by_cases long : n * cut.size + (cut.piece n).length > capacity
  · have copy : bufCopyRange (fragmentBegin frag cut.size) (n * cut.size) (cut.piece n) = none := dif_pos long
    rw [copy]
    exact ⟨_, _, rfl, .overflows long⟩
  · have fits := Nat.le_of_not_lt long
    rw [copy_piece fits]
    simp only [last_kind]
    change ∃ frag' outcome, (if
      (cut.marked (fragmentBegin frag cut.size) n now fits).map &&& FRAG_MAP_MASK = FRAG_MAP_MASK
      then ((cut.marked (fragmentBegin frag cut.size) n now fits).undefine,
        Except.ok ((cut.marked (fragmentBegin frag cut.size) n now fits).buf.toList.take
          (cut.marked (fragmentBegin frag cut.size) n now fits).len))
      else (cut.marked (fragmentBegin frag cut.size) n now fits, .ok [])) = (frag', outcome) ∧ _
    by_cases all : ∀ m < 32, (cut.marked (fragmentBegin frag cut.size) n now fits).map.getLsbD m = true
    · rw [if_pos (map_full.mpr all), (received.marked among now fits).whole all]
      exact ⟨_, _, rfl, .completes fits all⟩
    · rw [if_neg (mt map_full.mp all)]
      exact ⟨_, _, rfl, .waits fits (by simpa using all)⟩

theorem find_blank {list : FragmentList capacity} {seq_id : Fin N_SEQ_ID} (near : list.behind seq_id < N_FRAG_BUF)
    (nothing : list.find seq_id = none) : (list.fragments.get (list.place seq_id)).defined = false := by
  rw [find_get near _ rfl] at nothing
  exact Bool.eq_false_iff.mpr fun defined => by simp [defined] at nothing

theorem find_some {list : FragmentList capacity} {seq_id : Fin N_SEQ_ID} (near : list.behind seq_id < N_FRAG_BUF)
    (found : list.find seq_id = some frag) : list.fragments.get (list.place seq_id) = frag := by
  rw [find_get near _ rfl] at found
  split at found
  · exact Option.some.inj found
  · cases found

/-- A piece of a datagram goes to the other pieces of it. -/
theorem incoming_piece {list : FragmentList capacity} {seq_id : Fin N_SEQ_ID}
    (known : ∀ frag, list.find seq_id = some frag → cut.Received frag) (among : n ≤ cut.last) (now : Int) :
    ∃ list' begun frag' outcome, Lookup list seq_id list' ∧ list'.behind seq_id < N_FRAG_BUF ∧
      cut.Received begun ∧ (∀ frag, list'.find seq_id = some frag → begun = frag) ∧
      (list'.find seq_id = none → begun.map = 0) ∧ Joined cut begun n now frag' outcome ∧
      fragmentIncoming list now (cut.packet seq_id n among) =
        ({ list' with fragments := put list'.fragments (list'.place seq_id) frag' }, outcome) := by
  obtain ⟨list', here, near, look⟩ := get_buf_lookup list seq_id
  have known' : (list'.fragments.get (list'.place seq_id)).defined = true →
      cut.Received (list'.fragments.get (list'.place seq_id)) := by
    intro defined
    apply known
    apply look.find
    rw [find_get near _ rfl, if_pos defined]
  have received := begin_either known'
  obtain ⟨frag', outcome, joins, joined⟩ :=
    join_piece (list'.fragments.get (list'.place seq_id)) seq_id among now received
  refine ⟨list', _, frag', outcome, look, near, received, fun frag found => ?_, fun nothing => ?_, joined, ?_⟩
  · have stored := find_some near found
    rw [stored]
    rw [stored] at known'
    rw [find_get near _ stored] at found
    split at found
    · rename_i defined
      exact begin_received (known' defined)
    · cases found
  · exact (begin_blank (find_blank near nothing)).2
  · have size : (cut.header seq_id n among).frag_type = FRAG_YES_NOTLAST →
        (cut.piece n).length = (cut.header seq_id n among).frag_size := by
      intro kind
      have before : n ≠ cut.last := by
        intro last
        have both := (last_kind seq_id among).mpr (decide_eq_true last)
        rw [kind] at both
        cases both
      exact piece_full (Nat.lt_of_le_of_ne among before)
    have goes := incoming_packet list now (cut.header seq_id n among) size
    have found : fragmentListGetBuf list (cut.header seq_id n among).seq_id = (list', list'.place seq_id) := here
    have together : fragmentJoin (list'.fragments.get (list'.place seq_id)) (cut.header seq_id n among).frag_type
        (cut.header seq_id n among).frag_id (cut.header seq_id n among).frag_size now (cut.piece n) =
          (frag', outcome) := joins
    unfold Cut.packet
    rw [goes, found]
    simp only [together]

end Join

end OpenVpn
