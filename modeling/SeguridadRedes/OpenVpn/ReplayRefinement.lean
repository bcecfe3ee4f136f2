import SeguridadRedes.OpenVpn.PacketId
import SeguridadRedes.OpenVpn.ReplayWindow

namespace OpenVpn

variable {seq_backtrack : Nat}

section Descending

variable {α : Type}

/-- The marks of `count` ids from `top` down. -/
def descending (mark : Nat → α) : Nat → Nat → List α
  | _, 0 => []
  | top, count + 1 => mark top :: descending mark (top - 1) count

@[simp] theorem descending_length (mark : Nat → α) (top count : Nat) : (descending mark top count).length = count := by
  induction count generalizing top with
  | zero => rfl
  | succ count ih => simp [descending, ih]

theorem getElem_descending (mark : Nat → α) (top count i : Nat) (inside : i < (descending mark top count).length) :
    (descending mark top count)[i] = mark (top - i) := by
  induction count generalizing top i with
  | zero => simp [descending] at inside
  | succ count ih =>
    cases i with
    | zero => rfl
    | succ i =>
      simp only [descending, List.getElem_cons_succ]
      rw [ih]
      congr 1
      omega

theorem descending_congr {mark mark' : Nat → α} {top count : Nat}
    (same : ∀ i, i < count → mark (top - i) = mark' (top - i)) :
    descending mark top count = descending mark' top count := by
  apply List.ext_getElem
  · simp
  · intro i hi hi'
    rw [getElem_descending, getElem_descending]
    exact same i (by simpa using hi)

theorem take_descending (mark : Nat → α) (top count n : Nat) :
    (descending mark top count).take n = descending mark top (min n count) := by
  apply List.ext_getElem
  · simp
  · intro i hi hi'
    rw [List.getElem_take, getElem_descending, getElem_descending]

theorem set_descending (mark : Nat → α) {top count i : Nat} (inside : i < count) (fits : count ≤ top) (x : α) :
    (descending mark top count).set i x = descending (Function.update mark (top - i) x) top count := by
  apply List.ext_getElem
  · simp
  · intro j hj hj'
    have within : j < count := by simpa using hj'
    rw [List.getElem_set, getElem_descending, getElem_descending, Function.update_apply]
    by_cases same : i = j
    · rw [if_pos same, if_pos (by omega)]
    · rw [if_neg same, if_neg (by omega)]

end Descending

section Fill

theorem push_unseen_eq {mark : Nat → Int} {pin_id : UInt32} (list : CircList Int seq_backtrack) (id : UInt32)
    (count : Nat) (fits : count ≤ seq_backtrack) (content : list.toList = descending mark id.toNat count)
    (unseen : ∀ i, id.toNat < i → i ≤ pin_id.toNat → mark i = SEQ_UNSEEN) (below : id.toNat ≤ pin_id.toNat) :
    (packetIdPushUnseen list id pin_id).2 = pin_id ∧
      (packetIdPushUnseen list id pin_id).1.toList =
        descending mark pin_id.toNat (min seq_backtrack (count + (pin_id.toNat - id.toNat))) := by
  induction list, id using packetIdPushUnseen.induct pin_id generalizing count with
  | case1 list id less ih =>
    have bound := pin_id.toNat_lt
    have order := UInt32.lt_iff_toNat_lt.mp less
    have next : (id + 1).toNat = id.toNat + 1 := by
      rw [UInt32.toNat_add, Nat.mod_eq_of_lt]
      · rfl
      · simp only [UInt32.reduceToNat]
        omega
    have pushed : (CIRC_LIST_PUSH list SEQ_UNSEEN).toList =
        descending mark (id + 1).toNat (min seq_backtrack (count + 1)) := by
      rw [toList_push, content, next, ← take_descending]
      congr 1
      rw [descending, unseen (id.toNat + 1) (by omega) (by omega), Nat.add_sub_cancel]
    obtain ⟨last, filled⟩ := ih (min seq_backtrack (count + 1)) (Nat.min_le_left _ _) pushed
      (fun i low high => unseen i (by omega) high) (by omega)
    rw [packetIdPushUnseen, if_pos less]
    refine ⟨last, filled.trans ?_⟩
    congr 1
    omega
  | case2 list id stop =>
    have order := mt UInt32.lt_iff_toNat_lt.mpr stop
    have same : id = pin_id := UInt32.toNat_inj.mp (by omega)
    rw [packetIdPushUnseen, if_neg stop]
    subst same
    refine ⟨rfl, ?_⟩
    rw [content]
    congr 1
    omega

end Fill

section Reap

/-- The loop of `packet_id_reap` on the items themselves. -/
def reapItems (age now : Int) : Bool → List Int → List Int
  | _, [] => []
  | expire, t :: items =>
    if t = SEQ_EXPIRED then t :: items
    else
      let expire := expire || (decide (t ≠ 0) && decide (t + age < now))
      (if expire then SEQ_EXPIRED else t) :: reapItems age now expire items

theorem reap_from_toList (age now : Int) (list : CircList Int seq_backtrack) (i : Nat) (expire : Bool) :
    (packetIdReapFrom age now list i expire).toList =
      list.toList.take i ++ reapItems age now expire (list.toList.drop i) := by
  induction list, i, expire using packetIdReapFrom.induct age now with
  | case1 list i expire inside t expired =>
    have here : i < list.toList.length := by simpa using inside
    have item : list.toList[i] = t := getElem_toList list i here
    rw [packetIdReapFrom, dif_pos inside, if_pos expired]
    conv => rhs; rw [List.drop_eq_getElem_cons here]
    rw [item, reapItems, if_pos expired, ← item, ← List.drop_eq_getElem_cons here, List.take_append_drop]
  | case2 list i expire inside t fresh expire' marked ih =>
    have here : i < list.toList.length := by simpa using inside
    have item : list.toList[i] = t := getElem_toList list i here
    rw [packetIdReapFrom, dif_pos inside, if_neg fresh, if_pos marked, ih, toList_store,
      List.drop_eq_getElem_cons here, item, reapItems, if_neg fresh]
    dsimp only
    rw [if_pos marked, List.take_succ_eq_append_getElem (by simpa using here), List.getElem_set_self,
      List.take_set_of_le (Nat.le_refl i), List.drop_set_of_lt (Nat.lt_succ_self i), List.append_assoc]
    rfl
  | case3 list i expire inside t fresh expire' kept ih =>
    have here : i < list.toList.length := by simpa using inside
    have item : list.toList[i] = t := getElem_toList list i here
    rw [packetIdReapFrom, dif_pos inside, if_neg fresh, if_neg kept, ih, List.drop_eq_getElem_cons here, item,
      reapItems, if_neg fresh]
    dsimp only
    rw [if_neg kept, List.take_succ_eq_append_getElem here, item, List.append_assoc]
    rfl
  | case4 list i expire outside =>
    have past : list.toList.length ≤ i := by simpa using outside
    rw [packetIdReapFrom, dif_neg outside, List.take_of_length_le past, List.drop_of_length_le past]
    simp [reapItems]

/-- What the list holds for an id of the window. -/
noncomputable def Window.mark (w : Window) (id : Nat) : Int :=
  open Classical in if w.expired id then SEQ_EXPIRED else (w.received id).getD SEQ_UNSEEN

theorem mark_of_expired {w : Window} {id : Nat} (expired : w.expired id) : w.mark id = SEQ_EXPIRED := if_pos expired

theorem mark_of_fresh {w : Window} {id : Nat} (fresh : ¬ w.expired id) :
    w.mark id = (w.received id).getD SEQ_UNSEEN := if_neg fresh

theorem mark_eq_unseen {w : Window} (sound : w.Sound) (id : Nat) :
    w.mark id = 0 ↔ ¬ w.expired id ∧ w.received id = none := by
  by_cases expired : w.expired id
  · simp [mark_of_expired expired, SEQ_EXPIRED, expired]
  · rw [mark_of_fresh expired]
    cases received : w.received id with
    | none => simp [SEQ_UNSEEN, expired]
    | some at_id =>
      have late := (sound.received_le id at_id received).2
      simp only [Option.getD_some]
      constructor
      · intro zero
        omega
      · rintro ⟨_, missing⟩
        cases missing

theorem stale_split {w : Window} {age now : Int} {id : Nat} :
    w.Stale age now id ↔ w.Stale age now (id + 1) ∨ ∃ received, w.received id = some received ∧
      received + age < now := by
  constructor
  · rintro ⟨later, received, order, at_later, old⟩
    rcases Nat.lt_or_eq_of_le order with above | rfl
    · exact Or.inl ⟨later, received, above, at_later, old⟩
    · exact Or.inr ⟨received, at_later, old⟩
  · rintro (⟨later, received, order, at_later, old⟩ | ⟨received, at_id, old⟩)
    · exact ⟨later, received, by omega, at_later, old⟩
    · exact ⟨id, received, Nat.le_refl id, at_id, old⟩

theorem old_item_iff {w : Window} (sound : w.Sound) {age now : Int} {id : Nat} :
    (decide ((w.received id).getD SEQ_UNSEEN ≠ 0) && decide ((w.received id).getD SEQ_UNSEEN + age < now)) = true ↔
      ∃ received, w.received id = some received ∧ received + age < now := by
  cases received : w.received id with
  | none => simp [SEQ_UNSEEN]
  | some at_id =>
    have late := (sound.received_le id at_id received).2
    have nonzero : at_id ≠ 0 := by omega
    simp [nonzero]

theorem reapItems_descending {w : Window} (sound : w.Sound) {age : Int} (limited : age ≠ 0) (now : Int)
    (top count : Nat) (fits : count ≤ top)
    (expire : Bool) (known : expire = true ↔ w.Stale age now (top + 1)) :
    reapItems age now expire (descending w.mark top count) = descending (w.reap age now).mark top count := by
  induction count generalizing top expire with
  | zero => rfl
  | succ count ih =>
    by_cases expired : w.expired top
    · have all : descending w.mark top (count + 1) = descending (w.reap age now).mark top (count + 1) := by
        apply descending_congr
        intro i _
        have down := sound.expired_down top (top - i) (Nat.sub_le _ _) expired
        rw [mark_of_expired down, mark_of_expired (Or.inl down)]
      rw [← all, descending, reapItems, if_pos (mark_of_expired expired)]
    · have notOne : (w.received top).getD SEQ_UNSEEN ≠ SEQ_EXPIRED := by
        cases received : w.received top with
        | none => decide
        | some at_top =>
          have late := (sound.received_le top at_top received).2
          simp only [Option.getD_some, SEQ_EXPIRED]
          omega
      have next : (expire || (decide ((w.received top).getD SEQ_UNSEEN ≠ 0) &&
          decide ((w.received top).getD SEQ_UNSEEN + age < now))) = true ↔ w.Stale age now top := by
        rw [Bool.or_eq_true, known, old_item_iff sound]
        exact stale_split.symm
      rw [descending, reapItems, mark_of_fresh expired, if_neg notOne, descending]
      dsimp only
      congr 1
      · by_cases stale : w.Stale age now top
        · rw [if_pos (next.mpr stale), mark_of_expired (Or.inr ⟨limited, stale⟩)]
        · have still : ¬ (w.reap age now).expired top := by
            rintro (old | ⟨_, old⟩)
            · exact expired old
            · exact stale old
          rw [if_neg fun set => stale (next.mp set), mark_of_fresh still]
          rfl
      · apply ih (top - 1) (by omega)
        have back : top - 1 + 1 = top := by omega
        rw [back]
        exact next

end Reap

section Refinement

/-- The receiver's record holds what the window knows of the ids within its reach. -/
structure Refines (age : Int) (p : PacketIdRec seq_backtrack) (w : Window) : Prop where
  positive : 0 < seq_backtrack
  small : seq_backtrack ≤ MAX_SEQ_BACKTRACK
  initialized : p.initialized = true
  age : p.time_backtrack = age
  time : p.time = w.time
  top : p.id.toNat = w.top
  reaped : p.last_reap = w.reaped
  sound : w.Sound
  list : ∃ list, p.seq_list = some list ∧
    list.toList = if w.blank then [] else descending w.mark w.top (min seq_backtrack w.top)

variable {age : Int} {p : PacketIdRec seq_backtrack} {w : Window}

theorem backtrack_toNat (small : seq_backtrack ≤ MAX_SEQ_BACKTRACK) :
    (UInt32.ofNat seq_backtrack).toNat = seq_backtrack :=
  UInt32.toNat_ofNat_of_lt' (Nat.lt_of_le_of_lt small (by decide))

theorem Refines.reap (refines : Refines age p w) (now : Int) : Refines age (packetIdReap p now) (w.reap age now) := by
  obtain ⟨list, stored, content⟩ := refines.list
  have sound := refines.sound
  unfold packetIdReap
  rw [refines.age]
  by_cases limited : age ≠ 0
  · rw [if_pos limited, stored]
    refine ⟨refines.positive, refines.small, refines.initialized, rfl, refines.time, refines.top, rfl,
      Window.reap_sound sound age now, _, rfl, ?_⟩
    rw [reap_from_toList, content]
    by_cases blank : w.blank = true
    · simp [blank, Window.reap, reapItems]
    · have nothingAbove : (false : Bool) = true ↔ w.Stale age now (w.top + 1) := by
        constructor
        · intro impossible
          cases impossible
        · rintro ⟨later, received, order, at_later, _⟩
          have low := (sound.received_le later received at_later).1
          omega
      simp only [blank, if_false, Bool.false_eq_true, List.take_zero, List.nil_append, List.drop_zero, Window.reap]
      exact reapItems_descending sound limited now w.top _ (Nat.min_le_right _ _) false nothingAbove
  · rw [if_neg limited]
    have same : (w.reap age now).expired = w.expired := by
      funext id
      simp [Window.reap, not_not.mp limited]
    have marks : (w.reap age now).mark = w.mark := by
      funext id
      unfold Window.mark
      rw [same]
      rfl
    refine ⟨refines.positive, refines.small, refines.initialized, rfl, refines.time, refines.top, rfl,
      Window.reap_sound sound age now, list, stored, ?_⟩
    rw [content, marks]
    rfl

section Test

variable {list : CircList Int seq_backtrack} {pin : PacketIdNet}

theorem Refines.list_size
    (content : list.toList = if w.blank then [] else descending w.mark w.top (min seq_backtrack w.top)) :
    list.x_size = if w.blank then 0 else min seq_backtrack w.top := by
  rw [← toList_length, content]
  split <;> simp

theorem Refines.diff (refines : Refines age p w) (order : pin.id.toNat ≤ w.top) :
    (p.id - pin.id).toNat = w.top - pin.id.toNat := by
  rw [UInt32.toNat_sub_of_le _ _ (by rw [UInt32.le_iff_toNat_le, refines.top]; exact order), refines.top]

/-- The list reaches as far back as the window. -/
theorem Refines.inside_iff (refines : Refines age p w)
    (content : list.toList = if w.blank then [] else descending w.mark w.top (min seq_backtrack w.top))
    (nonzero : pin.id.toNat ≠ 0) (order : pin.id.toNat ≤ w.top) :
    (p.id - pin.id).toNat < list.x_size ↔ w.blank = false ∧ w.top < pin.id.toNat + seq_backtrack := by
  rw [refines.diff order, Refines.list_size content]
  cases w.blank with
  | true => simp
  | false =>
    simp only [Bool.false_eq_true, if_false, true_and]
    omega

theorem Refines.item (refines : Refines age p w)
    (content : list.toList = if w.blank then [] else descending w.mark w.top (min seq_backtrack w.top))
    (nonblank : w.blank = false) (order : pin.id.toNat ≤ w.top) (inside : (p.id - pin.id).toNat < list.x_size) :
    CIRC_LIST_ITEM list (p.id - pin.id).toNat inside = w.mark pin.id.toNat := by
  rw [← getElem_toList list _ (by simpa using inside)]
  simp only [content, nonblank, Bool.false_eq_true, if_false]
  rw [getElem_descending, refines.diff order]
  congr 1
  omega

/-- An id of the same time that is not newer than all others is looked up in the list. -/
theorem Refines.test_known (refines : Refines age p w) (stored : p.seq_list = some list)
    (content : list.toList = if w.blank then [] else descending w.mark w.top (min seq_backtrack w.top))
    (nonzero : pin.id.toNat ≠ 0) (same : pin.time = w.time) (order : pin.id.toNat ≤ w.top) :
    ∃ ok, (match p.seq_list with
      | none => none
      | some list =>
        if inside : (p.id - pin.id).toNat < list.x_size then
          some (decide (CIRC_LIST_ITEM list (p.id - pin.id).toNat inside = 0))
        else some false) = some ok ∧ (ok = true ↔ w.Accepts seq_backtrack pin.time pin.id.toNat) := by
  have notNewer : ¬ w.top < pin.id.toNat := Nat.not_lt.mpr order
  have reach := refines.inside_iff content nonzero order
  rw [stored]
  dsimp only
  by_cases inside : (p.id - pin.id).toNat < list.x_size
  · obtain ⟨nonblank, near⟩ := reach.mp inside
    rw [dif_pos inside]
    refine ⟨_, rfl, ?_⟩
    rw [decide_eq_true_iff, refines.item content nonblank order inside, mark_eq_unseen refines.sound]
    simp [Window.Accepts, nonzero, same, nonblank, near, notNewer]
  · rw [dif_neg inside]
    refine ⟨false, rfl, ?_⟩
    simp only [Bool.false_eq_true, false_iff]
    rintro ⟨_, later | ⟨_, newer | ⟨nonblank, near, _⟩⟩⟩
    · omega
    · exact notNewer newer
    · exact inside (reach.mpr ⟨nonblank, near⟩)

theorem Window.not_accepts_older {size id : Nat} {time : Int} (older : time < w.time) :
    ¬ w.Accepts size time id := by
  rintro ⟨_, later | ⟨equal, _⟩⟩
  · omega
  · omega

theorem Refines.test (refines : Refines age p w) (pin : PacketIdNet) :
    ∃ ok, packetIdTest p pin = some ok ∧ (ok = true ↔ w.Accepts seq_backtrack pin.time pin.id.toNat) := by
  obtain ⟨list, stored, content⟩ := refines.list
  have zero_iff : pin.id = 0 ↔ pin.id.toNat = 0 := by
    rw [← UInt32.toNat_inj]
    rfl
  unfold packetIdTest
  rw [if_pos refines.initialized]
  by_cases zero : pin.id = 0
  · rw [if_pos zero]
    exact ⟨false, rfl, by simp [Window.Accepts, zero_iff.mp zero]⟩
  rw [if_neg zero, if_pos (Nat.ne_of_gt refines.positive), refines.time]
  have nonzero := mt zero_iff.mpr zero
  by_cases same : pin.time = w.time
  · rw [if_pos same]
    by_cases above : pin.id > p.id
    · have order := UInt32.lt_iff_toNat_lt.mp above
      rw [refines.top] at order
      rw [if_pos above]
      exact ⟨true, rfl, by simp [Window.Accepts, nonzero, same, order]⟩
    · have order : pin.id.toNat ≤ w.top := by
        rw [← refines.top]
        exact Nat.le_of_not_lt fun less => above (UInt32.lt_iff_toNat_lt.mpr less)
      rw [if_neg above]
      exact refines.test_known stored content nonzero same order
  · rw [if_neg same]
    by_cases older : pin.time < w.time
    · rw [if_pos older]
      exact ⟨false, rfl, by simp [Window.not_accepts_older older]⟩
    · rw [if_neg older]
      have later : w.time < pin.time := by omega
      exact ⟨true, rfl, by simp [Window.Accepts, nonzero, later]⟩

end Test

theorem packetIdAdd_eq {pin : PacketIdNet} {now : Int} {list list' : CircList Int seq_backtrack} {id start : UInt32}
    {base : CircList Int seq_backtrack} (stored : p.seq_list = some list)
    (begun : (if packetIdRestarts p list pin then
        if pin.id > UInt32.ofNat seq_backtrack then pin.id - UInt32.ofNat seq_backtrack else 0
      else p.id) = start)
    (kept : (if packetIdRestarts p list pin then CIRC_LIST_RESET list else list) = base)
    (pushed : packetIdPushUnseen base start pin.id = (list', id))
    (inside : (id - pin.id).toNat < list'.x_size) (clock : now > SEQ_EXPIRED) :
    packetIdAdd p pin now = { p with
      time := if packetIdRestarts p list pin then pin.time else p.time
      id := id
      seq_list := some (CIRC_LIST_STORE list' (id - pin.id).toNat inside now) } := by
  unfold packetIdAdd
  rw [stored]
  simp only [begun, kept, pushed]
  rw [dif_pos inside, if_pos clock]

theorem mark_accept_fresh {time : Int} {id : Nat} {now : Int} (fresh : w.blank = true ∨ w.time < time) :
    (w.accept time id now).mark = Function.update (fun _ => SEQ_UNSEEN) id now := by
  funext other
  unfold Window.accept Window.mark
  rw [if_pos fresh]
  by_cases same : other = id <;> simp [same]

theorem mark_accept_kept {time : Int} {id : Nat} {now : Int} (kept : ¬ (w.blank = true ∨ w.time < time))
    (notExpired : ¬ w.expired id) : (w.accept time id now).mark = Function.update w.mark id now := by
  funext other
  unfold Window.accept Window.mark
  rw [if_neg kept]
  by_cases same : other = id
  · simp [same, notExpired]
  · simp [same]

theorem mark_above (sound : w.Sound) {id : Nat} (above : w.top < id) : w.mark id = SEQ_UNSEEN := by
  have unseen : ¬ w.expired id ∧ w.received id = none := by
    constructor
    · intro expired
      have low := sound.expired_le id expired
      omega
    · by_contra something
      obtain ⟨received, at_id⟩ := Option.ne_none_iff_exists'.mp something
      have low := (sound.received_le id received at_id).1
      omega
  exact (mark_eq_unseen sound id).mpr unseen

theorem push_unseen_done (list : CircList Int seq_backtrack) {id pin_id : UInt32} (past : pin_id.toNat ≤ id.toNat) :
    packetIdPushUnseen list id pin_id = (list, id) := by
  have stop : ¬ id < pin_id := fun less => Nat.not_lt.mpr past (UInt32.lt_iff_toNat_lt.mp less)
  rw [packetIdPushUnseen, if_neg stop]

theorem Refines.restarts_iff (refines : Refines age p w) {list : CircList Int seq_backtrack}
    (content : list.toList = if w.blank then [] else descending w.mark w.top (min seq_backtrack w.top))
    (pin : PacketIdNet) : packetIdRestarts p list pin = true ↔ (w.blank = true ∨ w.time < pin.time) ∨
      seq_backtrack ≤ pin.id.toNat ∧ w.top < pin.id.toNat - seq_backtrack := by
  have positive := refines.positive
  have width := backtrack_toNat refines.small
  have empty_iff : CIRC_LIST_SIZE list = 0 ↔ w.blank = true := by
    unfold CIRC_LIST_SIZE
    rw [← toList_length, content]
    cases blank : w.blank with
    | true => simp
    | false =>
      have some_top := refines.sound.positive blank
      simp only [Bool.false_eq_true, if_false, descending_length, iff_false]
      omega
  have jump_iff : pin.id ≥ UInt32.ofNat seq_backtrack ∧ pin.id - UInt32.ofNat seq_backtrack > p.id ↔
      seq_backtrack ≤ pin.id.toNat ∧ w.top < pin.id.toNat - seq_backtrack := by
    rw [ge_iff_le, UInt32.le_iff_toNat_le, width]
    apply and_congr_right
    intro enough
    rw [gt_iff_lt, UInt32.lt_iff_toNat_lt, refines.top,
      UInt32.toNat_sub_of_le _ _ (by rw [UInt32.le_iff_toNat_le, width]; exact enough), width]
  unfold packetIdRestarts
  rw [Bool.or_eq_true, Bool.or_eq_true, Bool.and_eq_true, decide_eq_true_iff, decide_eq_true_iff, decide_eq_true_iff,
    decide_eq_true_iff, jump_iff, empty_iff, refines.time]

/-- A sequence that starts anew ends in the marks of the last `seq_backtrack` ids. -/
theorem push_restarted (small : seq_backtrack ≤ MAX_SEQ_BACKTRACK) (list : CircList Int seq_backtrack)
    (mark : Nat → Int)
    (pin_id : UInt32) (unseen : ∀ i, pin_id.toNat - seq_backtrack < i → i ≤ pin_id.toNat → mark i = SEQ_UNSEEN) :
    ∃ list' id', packetIdPushUnseen (CIRC_LIST_RESET list)
        (if pin_id > UInt32.ofNat seq_backtrack then pin_id - UInt32.ofNat seq_backtrack else 0) pin_id = (list', id') ∧
      id' = pin_id ∧ list'.toList = descending mark pin_id.toNat (min seq_backtrack pin_id.toNat) := by
  have width := backtrack_toNat small
  have begins : (if pin_id > UInt32.ofNat seq_backtrack then pin_id - UInt32.ofNat seq_backtrack else 0).toNat =
      pin_id.toNat - seq_backtrack := by
    split
    · rename_i more
      have order := UInt32.lt_iff_toNat_lt.mp more
      rw [UInt32.toNat_sub_of_le _ _ (by rw [UInt32.le_iff_toNat_le]; omega), width]
    · rename_i few
      have order := mt UInt32.lt_iff_toNat_lt.mpr few
      rw [width] at order
      simp only [UInt32.reduceToNat]
      omega
  obtain ⟨last, filled⟩ := @push_unseen_eq _ mark pin_id (CIRC_LIST_RESET list)
    (if pin_id > UInt32.ofNat seq_backtrack then pin_id - UInt32.ofNat seq_backtrack else 0) 0 (Nat.zero_le _)
    (by rw [toList_reset]; rfl) (by rw [begins]; exact unseen) (by rw [begins]; exact Nat.sub_le _ _)
  refine ⟨_, _, rfl, last, filled.trans ?_⟩
  rw [begins]
  congr 1
  omega

section Filled

variable {list : CircList Int seq_backtrack} {pin : PacketIdNet} {now : Int}

/-- What `packet_id_add` has pushed the list to, but for the mark of the new packet. -/
def Filled (p : PacketIdRec seq_backtrack) (w : Window) (list : CircList Int seq_backtrack) (pin : PacketIdNet)
    (now : Int) : Prop :=
  ∃ mark list' id',
    packetIdPushUnseen (if packetIdRestarts p list pin then CIRC_LIST_RESET list else list)
      (if packetIdRestarts p list pin then
        if pin.id > UInt32.ofNat seq_backtrack then pin.id - UInt32.ofNat seq_backtrack else 0
      else p.id) pin.id = (list', id') ∧
    id'.toNat = (w.accept pin.time pin.id.toNat now).top ∧
    list'.toList = descending mark (w.accept pin.time pin.id.toNat now).top
      (min seq_backtrack (w.accept pin.time pin.id.toNat now).top) ∧
    (w.accept pin.time pin.id.toNat now).mark = Function.update mark pin.id.toNat now ∧
    (if packetIdRestarts p list pin then pin.time else p.time) = (w.accept pin.time pin.id.toNat now).time

theorem Refines.filled_fresh (refines : Refines age p w) (restarts : packetIdRestarts p list pin = true)
    (fresh : w.blank = true ∨ w.time < pin.time) : Filled p w list pin now := by
  have top : (w.accept pin.time pin.id.toNat now).top = pin.id.toNat := by simp [Window.accept, fresh]
  have time : (w.accept pin.time pin.id.toNat now).time = pin.time := by simp [Window.accept, fresh]
  obtain ⟨list', id', pushed, rfl, filled⟩ :=
    push_restarted refines.small list (fun _ => SEQ_UNSEEN) pin.id fun _ _ _ => rfl
  unfold Filled
  simp only [restarts, if_true, top, time]
  exact ⟨_, list', pin.id, pushed, rfl, filled, mark_accept_fresh fresh, trivial⟩

variable (stays : ¬ (w.blank = true ∨ w.time < pin.time))
  (marks : (w.accept pin.time pin.id.toNat now).mark = Function.update w.mark pin.id.toNat now)

include stays marks

/-- The new id is so far past the others that none of them is within reach of it. -/
theorem Refines.filled_jump (refines : Refines age p w) (sameTime : pin.time = w.time)
    (restarts : packetIdRestarts p list pin = true)
    (jump : seq_backtrack ≤ pin.id.toNat ∧ w.top < pin.id.toNat - seq_backtrack) :
    Filled p w list pin now := by
  have top : (w.accept pin.time pin.id.toNat now).top = max w.top pin.id.toNat := by simp [Window.accept, stays]
  have time : (w.accept pin.time pin.id.toNat now).time = w.time := by simp [Window.accept, stays]
  obtain ⟨list', id', pushed, rfl, filled⟩ :=
    push_restarted refines.small list w.mark pin.id fun i low _ => mark_above refines.sound (by omega)
  unfold Filled
  simp only [restarts, if_true]
  rw [top, time, marks, Nat.max_eq_right (by omega)]
  exact ⟨w.mark, list', pin.id, pushed, rfl, filled, rfl, sameTime⟩

theorem Refines.filled_on (refines : Refines age p w) (goesOn : packetIdRestarts p list pin = false)
    (content : list.toList = descending w.mark w.top (min seq_backtrack w.top)) : Filled p w list pin now := by
  have top : (w.accept pin.time pin.id.toNat now).top = max w.top pin.id.toNat := by simp [Window.accept, stays]
  have time : (w.accept pin.time pin.id.toNat now).time = w.time := by simp [Window.accept, stays]
  unfold Filled
  simp only [goesOn, Bool.false_eq_true, if_false]
  rw [top, time, marks]
  by_cases above : p.id.toNat ≤ pin.id.toNat
  · obtain ⟨last, filled⟩ := push_unseen_eq list p.id (min seq_backtrack w.top) (Nat.min_le_left _ _)
      (by rw [content, refines.top]) (fun i low _ => mark_above refines.sound (by rw [← refines.top]; exact low)) above
    rw [refines.top] at above filled
    rw [Nat.max_eq_right above]
    refine ⟨w.mark, _, _, rfl, by rw [last], filled.trans ?_, rfl, refines.time⟩
    congr 1
    omega
  · have below : pin.id.toNat ≤ w.top := by
      rw [← refines.top]
      omega
    rw [push_unseen_done list (by omega), Nat.max_eq_left below]
    exact ⟨w.mark, list, p.id, rfl, refines.top, content, rfl, refines.time⟩

end Filled

/-- What the list holds just before the new packet is marked. -/
theorem Refines.filled (refines : Refines age p w) {list : CircList Int seq_backtrack}
    (content : list.toList = if w.blank then [] else descending w.mark w.top (min seq_backtrack w.top))
    {pin : PacketIdNet} (now : Int) (accepts : w.Accepts seq_backtrack pin.time pin.id.toNat) :
    Filled p w list pin now := by
  have restarts_iff := refines.restarts_iff content pin
  by_cases fresh : w.blank = true ∨ w.time < pin.time
  · exact refines.filled_fresh (restarts_iff.mpr (Or.inl fresh)) fresh
  · have sameTime : pin.time = w.time := by
      rcases accepts.2 with later | ⟨same, _⟩
      · exact absurd (Or.inr later) fresh
      · exact same
    have nonblank : w.blank = false := by
      simpa using fun blank => fresh (Or.inl blank)
    have notExpired : ¬ w.expired pin.id.toNat := by
      obtain ⟨_, later | ⟨_, above | ⟨_, _, missing, _⟩⟩⟩ := accepts
      · omega
      · intro expired
        have low := refines.sound.expired_le _ expired
        omega
      · exact missing
    have marks := @mark_accept_kept w pin.time pin.id.toNat now fresh notExpired
    by_cases jump : seq_backtrack ≤ pin.id.toNat ∧ w.top < pin.id.toNat - seq_backtrack
    · exact refines.filled_jump fresh marks sameTime (restarts_iff.mpr (Or.inr jump)) jump
    · have goesOn : packetIdRestarts p list pin = false := by
        by_contra restarts
        rcases restarts_iff.mp (by simpa using restarts) with fresh' | jump'
        · exact fresh fresh'
        · exact jump jump'
      rw [nonblank] at content
      exact refines.filled_on fresh marks goesOn content

theorem Refines.add (refines : Refines age p w) {pin : PacketIdNet} {now : Int} (clock : 1 < now)
    (accepts : w.Accepts seq_backtrack pin.time pin.id.toNat) :
    Refines age (packetIdAdd p pin now) (w.accept pin.time pin.id.toNat now) := by
  obtain ⟨list, stored, content⟩ := refines.list
  obtain ⟨mark, list', id', pushed, top, filled, marks, time⟩ := refines.filled content now accepts
  have sound := Window.accept_sound refines.sound pin.time accepts.1 clock
  have nonblank : (w.accept pin.time pin.id.toNat now).blank = false := Window.accept_nonblank
  have reach := accepts.within now
  have diff : (id' - pin.id).toNat = (w.accept pin.time pin.id.toNat now).top - pin.id.toNat := by
    rw [UInt32.toNat_sub_of_le _ _ (by rw [UInt32.le_iff_toNat_le, top]; exact reach.1), top]
  have within : (w.accept pin.time pin.id.toNat now).top - pin.id.toNat <
      min seq_backtrack (w.accept pin.time pin.id.toNat now).top := by
    have near := reach.2 refines.positive
    have some_id := accepts.1
    omega
  have inside : (id' - pin.id).toNat < list'.x_size := by
    rwa [← toList_length, filled, descending_length, diff]
  rw [packetIdAdd_eq stored rfl rfl pushed inside clock]
  refine ⟨refines.positive, refines.small, refines.initialized, refines.age, time, top, ?_, sound, _, rfl, ?_⟩
  · rw [Window.accept_reaped]
    exact refines.reaped
  · rw [toList_store, filled, nonblank, diff, marks, set_descending]
    · simp only [Bool.false_eq_true, if_false]
      rw [Nat.sub_sub_self reach.1]
    · exact within
    · exact Nat.min_le_right _ _

end Refinement

end OpenVpn
