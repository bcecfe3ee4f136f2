import Mathlib.Data.Prod.Lex
import SeguridadRedes.OpenVpn.ScheduleLinks

namespace OpenVpn

open C (BinTree Frame plug up Sorted Belongs Heaped Climbing Sinking)
open C.BinTree
open Schedule

variable {n : Nat} {s s' : Schedule n} {e c p x : Fin n} {ctx : List (Frame (Fin n))} {side : C.Side}
  {a b l r o t : BinTree (Fin n)}

section Keys

/-- The order of the entries: by time, and by priority at one time. -/
def Schedule.key (s : Schedule n) (x : Fin n) : Int ×ₗ Int ×ₗ Nat :=
  toLex ((s.tv x).tv_sec, toLex ((s.tv x).tv_usec, s.pri x))

theorem Keeps.key (keeps : Keeps s s') : s'.key = s.key := by
  funext x
  unfold Schedule.key
  rw [keeps.tv, keeps.pri]

theorem compare_cases (s : Schedule n) (e c : Fin n) :
    scheduleEntryCompare (s.entry e) (s.entry c) = -1 ∧ s.key e < s.key c ∨
      scheduleEntryCompare (s.entry e) (s.entry c) = 1 ∧ s.key c < s.key e ∨
      scheduleEntryCompare (s.entry e) (s.entry c) = 0 ∧ s.key e = s.key c := by
  unfold scheduleEntryCompare Schedule.key Schedule.tv Schedule.pri
  simp only [Prod.Lex.toLex_lt_toLex, EmbeddingLike.apply_eq_iff_eq, Prod.mk.injEq]
  split
  · omega
  · split
    · omega
    · split
      · omega
      · split
        · omega
        · split
          · omega
          · split
            · omega
            · omega

end Keys

section Remove

/-- The child that is rotated up, where there is one, is one that no node on the other side comes before. -/
theorem lesser_child (shaped : Shaped s (plug ctx (node l e r))) :
    l = leaf ∧ r = leaf ∧ scheduleLesserChild s e = none ∨
      ∃ side a x b o, node l e r = build side (build side a x b) e o ∧ scheduleLesserChild s e = some x ∧
        (Sinking s.pri ctx l r → Sinking s.pri ctx (build side a x b) o ∧ ∀ y ∈ o.nodes, s.pri x ≤ s.pri y) := by
  obtain ⟨_, sub⟩ := (C.linked_plug _ _).mp shaped.linked
  have lt : (s.entry e).lt = l.root := sub.2.1
  have gt : (s.entry e).gt = r.root := sub.2.2.1
  unfold scheduleLesserChild
  rw [lt, gt]
  cases l with
  | leaf =>
    cases r with
    | leaf => exact Or.inl ⟨rfl, rfl, rfl⟩
    | node rl y rr =>
      refine Or.inr ⟨.gt, rr, y, rl, leaf, rfl, rfl, fun sinking => ⟨sinking.flip, fun z impossible => ?_⟩⟩
      cases impossible
  | node ll x lr =>
    cases r with
    | leaf =>
      refine Or.inr ⟨.lt, ll, x, lr, leaf, rfl, rfl, fun sinking => ⟨sinking, fun z impossible => ?_⟩⟩
      cases impossible
    | node rl y rr =>
      change _ ∨ ∃ side a z b o, _ ∧ (if s.pri x < s.pri y then some x else some y) = some z ∧ _
      right
      by_cases less : s.pri x < s.pri y
      · refine ⟨.lt, ll, x, lr, node rl y rr, rfl, if_pos less, fun sinking => ⟨sinking, fun z member => ?_⟩⟩
        exact less.le.trans (sinking.right.root_le rfl z member)
      · refine ⟨.gt, rr, y, rl, node ll x lr, rfl, if_neg less, fun sinking => ⟨sinking.flip, fun z member => ?_⟩⟩
        exact (Nat.le_of_not_lt less).trans (sinking.left.root_le rfl z member)

theorem remove_loop {rounds : Nat} (shaped : Shaped s (plug ctx (node l e r))) (sinking : Sinking s.pri ctx l r)
    (enough : l.nodes.length + r.nodes.length < rounds) :
    ∃ s' ctx', scheduleRemoveLoop rounds s e = some s' ∧ Shaped s' (plug ctx' (build .lt leaf e leaf)) ∧
      Sinking s.pri ctx' leaf leaf ∧ Keeps s s' ∧
      (plug ctx' (build .lt leaf e leaf)).nodes = (plug ctx (node l e r)).nodes := by
  induction rounds generalizing s ctx l r with
  | zero => cases enough
  | succ rounds ih =>
    rcases lesser_child shaped with ⟨rfl, rfl, none⟩ | ⟨side, a, x, b, o, same, found, least⟩
    · refine ⟨s, ctx, ?_, shaped, sinking, .refl s, rfl⟩
      unfold scheduleRemoveLoop
      rw [none]
    · obtain ⟨sunk, before⟩ := least sinking
      rw [same] at shaped ⊢
      obtain ⟨s₁, rotated, shaped₁, keeps₁⟩ := @Shaped.rotate n s x e ctx side a b o shaped
      have next := sunk.sink before
      have nodes : (plug (⟨side.flip, x, a⟩ :: ctx) (build side b e o)).nodes =
          (plug ctx (build side (build side a x b) e o)).nodes := by
        rw [C.plug_flip, C.nodes_order, C.nodes_order, nodes_rotate]
      rw [← C.plug_flip] at shaped₁
      have sizes : b.nodes.length + o.nodes.length < rounds := by
        have first := congrArg (fun t : BinTree (Fin n) => t.nodes.length) same
        have outer := (nodes_build side (build side a x b) e o).length_eq
        have inner := (nodes_build side a x b).length_eq
        simp only [BinTree.nodes, List.length_append, List.length_cons] at first outer inner
        omega
      have gone : ∃ s' ctx', scheduleRemoveLoop rounds s₁ e = some s' ∧
        Shaped s' (plug ctx' (build .lt leaf e leaf)) ∧
          Sinking s₁.pri ctx' leaf leaf ∧ Keeps s₁ s' ∧ (plug ctx' (build .lt leaf e leaf)).nodes =
            (plug (⟨side.flip, x, a⟩ :: ctx) (build side b e o)).nodes := by
        cases side with
        | lt => exact ih shaped₁ (keeps₁.pri ▸ next) sizes
        | gt => exact ih shaped₁ (keeps₁.pri ▸ next.flip) (by omega)
      obtain ⟨s', ctx', removed, shaped', sinking', keeps', nodes'⟩ := gone
      refine ⟨s', ctx', ?_, shaped', keeps₁.pri ▸ sinking', keeps₁.trans keeps', nodes'.trans nodes⟩
      unfold scheduleRemoveLoop
      rw [found]
      dsimp only
      rw [rotated]
      exact removed

theorem nodes_le (distinct : t.nodes.Nodup) : t.nodes.length ≤ n := by
  have bound := distinct.length_le_card
  rwa [Fintype.card_fin] at bound

/-- Only the priority of one entry differs, and links. -/
structure Spares (s s' : Schedule n) (e : Fin n) : Prop where
  tv : s'.tv = s.tv
  pri : ∀ x ≠ e, s'.pri x = s.pri x
  earliest : s'.earliest_wakeup = s.earliest_wakeup

theorem Keeps.spares (keeps : Keeps s s') (e : Fin n) : Spares s s' e :=
  ⟨keeps.tv, fun x _ => congrFun keeps.pri x, keeps.earliest⟩

theorem Spares.trans {s'' : Schedule n} (first : Spares s s' e) (second : Spares s' s'' e) : Spares s s'' e :=
  ⟨second.tv.trans first.tv, fun x apart => (second.pri x apart).trans (first.pri x apart),
    second.earliest.trans first.earliest⟩

theorem Spares.key (spares : Spares s s' e) (apart : x ≠ e) : s'.key x = s.key x := by
  unfold Schedule.key
  rw [spares.tv, spares.pri x apart]

theorem setPri_pri (s : Schedule n) (e x : Fin n) (v : Nat) : (s.setPri e v).pri x = if x = e then v else s.pri x := by
  unfold Schedule.pri
  change ((entry { s with entries := _ } x)).pri = _
  rw [entry_set]
  split <;> rfl

theorem setPri_tv (s : Schedule n) (e : Fin n) (v : Nat) : (s.setPri e v).tv = s.tv := by
  funext x
  unfold Schedule.tv
  change ((entry { s with entries := _ } x)).tv = _
  rw [entry_set]
  split
  · rename_i same
    rw [same]
  · rfl

theorem setPri_spares (s : Schedule n) (e : Fin n) (v : Nat) : Spares s (s.setPri e v) e :=
  ⟨setPri_tv s e v, fun x apart => (setPri_pri s e x v).trans (if_neg apart), rfl⟩

theorem Shaped.of_links (shaped : Shaped s t) (root : s'.root = s.root) (links : s'.links = s.links) : Shaped s' t :=
  shaped.of_same (root.trans shaped.root) (links ▸ shaped.linked) rfl fun _ _ => ⟨by rw [links], fun _ => by rw [links]⟩

/-- What `schedule_remove_node` leaves, whether the entry was there or not. -/
theorem remove_node (shaped : Shaped s t) (heaped : Heaped s.pri t) (e : Fin n) :
    ∃ s' t', scheduleRemoveNode s e = some s' ∧ Shaped s' t' ∧ Heaped s'.pri t' ∧ t'.nodes.Sublist t.nodes ∧
      (∀ x, x ∈ t'.nodes ↔ x ∈ t.nodes ∧ x ≠ e) ∧ Spares s s' e ∧ s'.pri e = 0 := by
  suffices removed : ∃ s₁ s₂ t', scheduleRemoveLoop (n + 1) s e = some s₁ ∧ scheduleDetachParent s₁ e = some s₂ ∧
      Shaped s₂ t' ∧ Heaped s.pri t' ∧ t'.nodes.Sublist t.nodes ∧ (∀ x, x ∈ t'.nodes ↔ x ∈ t.nodes ∧ x ≠ e) ∧
      Keeps s s₂ by
    obtain ⟨s₁, s₂, t', looped, detached, shaped₂, heaped₂, fewer, among, keeps⟩ := removed
    have spares := (keeps.spares e).trans (setPri_spares s₂ e 0)
    refine ⟨s₂.setPri e 0, t', ?_, shaped₂.of_links rfl (links_setPri _ _ _), heaped₂.congr fun x member => ?_, fewer,
      among, spares, (setPri_pri s₂ e e 0).trans (if_pos rfl)⟩
    · unfold scheduleRemoveNode
      rw [looped, Option.bind_eq_bind, Option.bind_some, detached]
      rfl
    · exact spares.pri x ((among x).mp member).2
  by_cases member : e ∈ t.nodes
  · obtain ⟨ctx, l, r, rfl⟩ := C.exists_plug member
    have enough : l.nodes.length + r.nodes.length < n + 1 := by
      have bound := nodes_le shaped.distinct
      have all := (C.nodes_plug ctx (node l e r)).length_eq
      simp only [BinTree.nodes, List.length_append, List.length_cons] at all
      omega
    obtain ⟨s₁, ctx', looped, shaped₁, sinking, keeps₁, nodes⟩ := remove_loop shaped (Sinking.of_heaped heaped) enough
    obtain ⟨s₂, detached, shaped₂, keeps₂⟩ := shaped₁.detach
    have order : (plug ctx (node l e r)).nodes = C.before ctx' ++ e :: C.after ctx' := by
      rw [← nodes, C.nodes_order]
      simp [build, BinTree.nodes]
    have rest : (plug ctx' leaf).nodes = C.before ctx' ++ C.after ctx' := by
      rw [C.nodes_order]
      simp [BinTree.nodes]
    have distinct := shaped.distinct
    rw [order] at distinct
    have apart := (List.nodup_cons.mp (List.perm_middle.nodup_iff.mp distinct)).1
    refine ⟨s₁, s₂, plug ctx' leaf, looped, detached, shaped₂, sinking.gone, ?_, fun x => ?_, keeps₁.trans keeps₂⟩
    · rw [order, rest]
      exact (List.sublist_cons_self e _).append_left _
    · rw [order, rest, List.mem_append, List.mem_append, List.mem_cons]
      constructor
      · intro there
        refine ⟨there.imp_right Or.inr, fun same => apart ?_⟩
        rw [← same]
        exact List.mem_append.mpr there
      · rintro ⟨first | same | later, away⟩
        · exact Or.inl first
        · exact absurd same away
        · exact Or.inr later
  · have none : scheduleLesserChild s e = none := by
      have lt : (s.entry e).lt = none := shaped.childless e member .lt
      have gt : (s.entry e).gt = none := shaped.childless e member .gt
      unfold scheduleLesserChild
      rw [lt, gt]
    refine ⟨s, s, t, ?_, ?_, shaped, heaped, List.Sublist.refl _, fun x => ?_, .refl s⟩
    · unfold scheduleRemoveLoop
      rw [none]
    · have parent : (s.entry e).parent = Option.none := shaped.parentless e member
      have root : s.root ≠ some e := fun same => member (root_mem (shaped.root.symm.trans same))
      unfold scheduleDetachParent
      rw [parent]
      exact congrArg some (if_neg root)
    · exact ⟨fun there => ⟨there, fun same => member (same ▸ there)⟩, And.left⟩

end Remove

section Insert

/-- The way down ends where the entry belongs, or at one with the same key. -/
theorem insert_down {rounds : Nat} (shaped : Shaped s (plug ctx (node l c r)))
    (sorted : Sorted s.key (plug ctx (node l c r)))
    (belongs : Belongs s.key ctx (s.key e)) (fresh : e ∉ (plug ctx (node l c r)).nodes)
    (enough : (node l c r).nodes.length ≤ rounds) :
    scheduleInsertDown rounds s e c = some none ∧ (∃ x ∈ (plug ctx (node l c r)).nodes, s.pri x = s.pri e) ∨
      ∃ s' f ctx', scheduleInsertDown rounds s e c = some (some s') ∧ plug ctx (node l c r) = plug (f :: ctx') leaf ∧
        Belongs s.key (f :: ctx') (s.key e) ∧ Shaped s' (plug (f :: ctx') (build .lt leaf e leaf)) ∧ Keeps s s' := by
  induction rounds generalizing ctx l c r with
  | zero => simp [BinTree.nodes] at enough
  | succ rounds ih =>
    obtain ⟨_, sub⟩ := (C.linked_plug _ _).mp shaped.linked
    have lt : (s.entry c).lt = l.root := sub.2.1
    have gt : (s.entry c).gt = r.root := sub.2.2.1
    rw [BinTree.nodes, List.length_append, List.length_cons] at enough
    unfold scheduleInsertDown
    dsimp only
    rcases compare_cases s e c with ⟨less, before⟩ | ⟨more, after⟩ | ⟨equal, same⟩
    · rw [if_pos less, lt]
      have next := belongs.left sorted before
      cases l with
      | node ll x lr =>
        have below : Shaped s (plug (⟨.lt, c, r⟩ :: ctx) (node ll x lr)) := shaped
        exact ih below sorted next fresh (by omega)
      | leaf =>
        refine Or.inr ⟨_, ⟨.lt, c, r⟩, ctx, rfl, rfl, next, @Shaped.attach n s _ e ctx ⟨.lt, c, r⟩ shaped fresh rfl ?_,
          (keeps_setLt s c (some e)).trans (keeps_setParent _ e (some c))⟩
        rw [links_setParent, links_setLt]
    · rw [if_neg (by omega), if_pos more, gt]
      have next := belongs.right sorted after
      cases r with
      | node rl x rr =>
        have below : Shaped s (plug (⟨.gt, c, l⟩ :: ctx) (node rl x rr)) := shaped
        exact ih below sorted next fresh (by omega)
      | leaf =>
        refine Or.inr ⟨_, ⟨.gt, c, l⟩, ctx, rfl, rfl, next, @Shaped.attach n s _ e ctx ⟨.gt, c, l⟩ shaped fresh rfl ?_,
          (keeps_setGt s c (some e)).trans (keeps_setParent _ e (some c))⟩
        rw [links_setParent, links_setGt]
    · rw [if_neg (by omega), if_neg (by omega)]
      have there : c ∈ (plug ctx (node l c r)).nodes :=
        (C.nodes_plug ctx (node l c r)).mem_iff.mpr (List.mem_append_left _ (root_mem rfl))
      refine Or.inl ⟨rfl, c, there, ?_⟩
      have keys : ((s.tv e).tv_sec, toLex ((s.tv e).tv_usec, s.pri e)) =
        ((s.tv c).tv_sec, toLex ((s.tv c).tv_usec, s.pri c)) :=
        same
      have inner := (Prod.ext_iff.mp (Prod.ext_iff.mp keys).2).2
      exact inner.symm

theorem insert_from_root (shaped : Shaped s (node l c r)) (sorted : Sorted s.key (node l c r))
    (fresh : e ∉ (node l c r).nodes) :
    scheduleInsertDown (n + 1) s e c = some none ∧ (∃ x ≠ e, s.pri x = s.pri e) ∨
      ∃ s' f ctx, scheduleInsertDown (n + 1) s e c = some (some s') ∧ node l c r = plug (f :: ctx) leaf ∧
        Belongs s'.key (f :: ctx) (s'.key e) ∧ Shaped s' (plug (f :: ctx) (build .lt leaf e leaf)) ∧ Keeps s s' := by
  have belongs : Belongs s.key [] (s.key e) := ⟨by simp [C.before], by simp [C.after]⟩
  have whole : Shaped s (plug [] (node l c r)) := shaped
  have enough : (node l c r).nodes.length ≤ n + 1 := (nodes_le shaped.distinct).trans (Nat.le_succ n)
  rcases insert_down whole sorted belongs fresh enough with
    ⟨collides, x, there, same⟩ | ⟨s', f, ctx, down, place, fits, made, keeps⟩
  · exact Or.inl ⟨collides, x, fun here => fresh (here ▸ there), same⟩
  · exact Or.inr ⟨s', f, ctx, down, place, keeps.key ▸ fits, made, keeps⟩

def drawnPri (random : Nat) : Nat := if random < 1 then 1 else random

theorem drawnPri_pos (random : Nat) : drawnPri random ≠ 0 := by
  unfold drawnPri
  split <;> omega

theorem insert_draws {draws : List Nat} (shaped : Shaped s (node l c r)) (sorted : Sorted s.key (node l c r))
    (fresh : e ∉ (node l c r).nodes) (drawn : s.pri e ≠ 0) :
    scheduleInsert s e c draws = none ∧ (∃ x ≠ e, s.pri x = s.pri e) ∧
        (∀ random ∈ draws, ∃ x ≠ e, s.pri x = drawnPri random) ∨
      ∃ s' f ctx, scheduleInsert s e c draws = some s' ∧ node l c r = plug (f :: ctx) leaf ∧
        Belongs s'.key (f :: ctx) (s'.key e) ∧ Shaped s' (plug (f :: ctx) (build .lt leaf e leaf)) ∧ Spares s s' e ∧
          s'.pri e ≠ 0 := by
  induction draws generalizing s with
  | nil =>
    unfold scheduleInsert
    rcases insert_from_root shaped sorted fresh with ⟨collides, taken⟩ | ⟨s', f, ctx, down, place, fits, made, keeps⟩
    · rw [collides]
      exact Or.inl ⟨rfl, taken, by simp⟩
    · rw [down]
      exact Or.inr ⟨s', f, ctx, rfl, place, fits, made, keeps.spares e, keeps.pri ▸ drawn⟩
  | cons random draws ih =>
    unfold scheduleInsert
    rcases insert_from_root shaped sorted fresh with ⟨collides, taken⟩ | ⟨s', f, ctx, down, place, fits, made, keeps⟩
    · rw [collides]
      dsimp only
      have spares := setPri_spares s e (drawnPri random)
      have now : (s.setPri e (drawnPri random)).pri e = drawnPri random := (setPri_pri s e e _).trans (if_pos rfl)
      have shaped' : Shaped (s.setPri e (drawnPri random)) (node l c r) := shaped.of_links rfl (links_setPri _ _ _)
      have sorted' := sorted.congr fun y member => spares.key fun here => fresh (here ▸ member)
      have drawn' : (s.setPri e (drawnPri random)).pri e ≠ 0 := by
        rw [now]
        exact drawnPri_pos random
      rcases ih shaped' sorted' drawn' with ⟨failed, ⟨y, apart, collided⟩, others⟩ |
        ⟨s', f, ctx, inserted, place, fits, made, spares', drawn''⟩
      · refine Or.inl ⟨failed, taken, fun other member => ?_⟩
        rcases List.mem_cons.mp member with rfl | later
        · exact ⟨y, apart, (spares.pri y apart).symm.trans (collided.trans now)⟩
        · obtain ⟨z, away, collided'⟩ := others other later
          exact ⟨z, away, (spares.pri z away).symm.trans collided'⟩
      · exact Or.inr ⟨s', f, ctx, inserted, place, fits, made, spares.trans spares', drawn''⟩
    · rw [down]
      exact Or.inr ⟨s', f, ctx, rfl, place, fits, made, keeps.spares e, keeps.pri ▸ drawn⟩

/-- The entry rises until the one above it comes first. -/
theorem rise {rounds : Nat} (shaped : Shaped s (plug ctx (build side a e b))) (climbing : Climbing s.pri ctx side a e b)
    (enough : ctx.length < rounds) :
    ∃ s' t', scheduleRise rounds s e = some s' ∧ Shaped s' t' ∧ Heaped s.pri t' ∧
      t'.nodes = (plug ctx (build side a e b)).nodes ∧ Keeps s s' := by
  induction rounds generalizing s ctx side a b with
  | zero => cases enough
  | succ rounds ih =>
    have parent : (s.entry e).parent = up ctx := by
      obtain ⟨_, sub⟩ := (C.linked_plug _ _).mp shaped.linked
      exact (C.linked_build.mp sub).1
    cases ctx with
    | nil =>
      refine ⟨s, build side a e b, ?_, shaped, climbing.inside, rfl, .refl s⟩
      unfold scheduleRise
      rw [parent]
      rfl
    | cons f ctx =>
      obtain ⟨side', p, o⟩ := f
      obtain ⟨a', b', same, faced⟩ := climbing.face side'
      rw [same] at shaped ⊢
      unfold scheduleRise
      rw [parent]
      dsimp only [up]
      by_cases less : (s.entry p).pri > (s.entry e).pri
      · obtain ⟨s₁, rotated, shaped₁, keeps₁⟩ := shaped.rotate
        obtain ⟨s', t', risen, shaped', heaped, nodes, keeps'⟩ :=
          ih shaped₁ (keeps₁.pri ▸ faced.climb less.le) (Nat.lt_of_succ_lt_succ enough)
        have whole : plug (⟨side', p, o⟩ :: ctx) (build side' a' e b') =
          plug ctx (build side' (build side' a' e b') p o) := rfl
        refine ⟨s', t', ?_, shaped', keeps₁.pri ▸ heaped, ?_, keeps₁.trans keeps'⟩
        · rw [if_pos less, rotated]
          exact risen
        · rw [nodes, whole, C.nodes_order, C.nodes_order, nodes_rotate]
      · refine ⟨s, _, if_neg less, shaped, faced.stay fun f first => ?_, rfl, .refl s⟩
        obtain rfl := Option.some.inj first
        exact Nat.le_of_not_lt less

end Insert

section AddModify

/-- The links make a tree of the entries that are scheduled, in order of time from left to right and of priority
from top to bottom. -/
structure Treap (s : Schedule n) (t : BinTree (Fin n)) : Prop where
  shaped : Shaped s t
  sorted : Sorted s.key t
  heaped : Heaped s.pri t
  present : ∀ x, x ∈ t.nodes ↔ s.pri x ≠ 0

theorem setTv_tv (s : Schedule n) (e : Fin n) (tv : Timeval) : (s.setTv e tv).tv = Function.update s.tv e tv := by
  funext x
  unfold Schedule.tv
  change ((entry { s with entries := _ } x)).tv = _
  rw [entry_set, Function.update_apply]
  split <;> rfl

theorem setTv_pri (s : Schedule n) (e : Fin n) (tv : Timeval) : (s.setTv e tv).pri = s.pri := by
  funext x
  unfold Schedule.pri
  change ((entry { s with entries := _ } x)).pri = _
  rw [entry_set]
  split
  · rename_i same
    rw [same]
  · rfl

/-- The entry is taken out, where it was in, and its new time stands. -/
theorem take_out (treap : Treap s t) (e : Fin n) (tv : Timeval) :
    ∃ s₂ t₂,
      (if (s.setTv e tv).pri e ≠ 0 then scheduleRemoveNode (s.setTv e tv) e else some (s.setTv e tv)) = some s₂ ∧
      Shaped s₂ t₂ ∧ Sorted s₂.key t₂ ∧ Heaped s₂.pri t₂ ∧ (∀ x, x ∈ t₂.nodes ↔ x ∈ t.nodes ∧ x ≠ e) ∧
      Spares (s.setTv e tv) s₂ e := by
  have shaped : Shaped (s.setTv e tv) t := treap.shaped.of_links rfl (links_setTv _ _ _)
  have heaped : Heaped (s.setTv e tv).pri t := by
    rw [setTv_pri]
    exact treap.heaped
  have key : ∀ x ≠ e, (s.setTv e tv).key x = s.key x := by
    intro x apart
    unfold Schedule.key
    rw [setTv_tv, setTv_pri, Function.update_of_ne apart]
  by_cases inside : s.pri e ≠ 0
  · obtain ⟨s₂, t₂, removed, shaped₂, heaped₂, fewer, among, spares, _⟩ := remove_node shaped heaped e
    refine ⟨s₂, t₂, ?_, shaped₂, ?_, heaped₂, among, spares⟩
    · rw [setTv_pri, if_pos inside, removed]
    · have sorted : Sorted s.key t₂ := List.Pairwise.sublist fewer treap.sorted
      refine sorted.congr fun x member => ?_
      have apart := ((among x).mp member).2
      rw [spares.key apart, key x apart]
  · have absent : e ∉ t.nodes := fun there => inside ((treap.present e).mp there)
    refine ⟨s.setTv e tv, t, ?_, shaped, ?_, heaped, fun x => ?_, (Keeps.refl _).spares e⟩
    · rw [setTv_pri, if_neg inside]
    · exact treap.sorted.congr fun x member => key x fun same => absent (same ▸ member)
    · exact ⟨fun there => ⟨there, fun same => absent (same ▸ there)⟩, And.left⟩

/-- The entry is put in at the bottom of the tree, unless the numbers drawn run out. -/
theorem put_in (shaped : Shaped s t) (sorted : Sorted s.key t) (fresh : e ∉ t.nodes) (random : Nat) (draws : List Nat) :
    schedulePlace (scheduleSetPri s e random) e draws = none ∧
        (∀ number ∈ random :: draws, ∃ x ≠ e, s.pri x = drawnPri number) ∨
      ∃ s' ctx, schedulePlace (scheduleSetPri s e random) e draws = some s' ∧ t = plug ctx leaf ∧
        Belongs s'.key ctx (s'.key e) ∧ Shaped s' (plug ctx (build .lt leaf e leaf)) ∧ Spares s s' e ∧
          s'.pri e ≠ 0 := by
  have drawing : scheduleSetPri s e random = s.setPri e (drawnPri random) := rfl
  have spares := setPri_spares s e (drawnPri random)
  have now : (s.setPri e (drawnPri random)).pri e = drawnPri random := (setPri_pri s e e _).trans (if_pos rfl)
  have drawn : (s.setPri e (drawnPri random)).pri e ≠ 0 := by
    rw [now]
    exact drawnPri_pos random
  have shaped' : Shaped (s.setPri e (drawnPri random)) t := shaped.of_links rfl (links_setPri _ _ _)
  have root := shaped'.root
  rw [drawing]
  unfold schedulePlace
  rw [root]
  cases t with
  | leaf =>
    refine Or.inr ⟨_, [], rfl, rfl, ⟨by simp [C.before], by simp [C.after]⟩, ?_, ⟨spares.tv, spares.pri, rfl⟩, drawn⟩
    have bare : ∀ side, (s.setPri e (drawnPri random)).links.child side e = none :=
      shaped'.childless e (by simp [BinTree.nodes])
    refine ⟨rfl, ⟨shaped'.parentless e (by simp [BinTree.nodes]), bare .lt, bare .gt, trivial, trivial⟩,
      List.nodup_singleton e, fun x _ => ?_, fun x _ => ?_⟩
    · exact shaped'.parentless x (by simp [BinTree.nodes])
    · exact shaped'.childless x (by simp [BinTree.nodes])
  | node l c r =>
    have sorted' := sorted.congr fun y member => spares.key fun here => fresh (here ▸ member)
    rcases insert_draws shaped' sorted' fresh drawn with ⟨failed, ⟨x, apart, taken⟩, others⟩ |
      ⟨s', f, ctx, inserted, place, fits, made, spares', drawn'⟩
    · refine Or.inl ⟨failed, fun number member => ?_⟩
      rcases List.mem_cons.mp member with rfl | later
      · exact ⟨x, apart, (spares.pri x apart).symm.trans (taken.trans now)⟩
      · obtain ⟨y, away, collided⟩ := others number later
        exact ⟨y, away, (spares.pri y away).symm.trans collided⟩
    · exact Or.inr ⟨s', f :: ctx, inserted, place, fits, made, spares.trans spares', drawn'⟩

theorem add_modify (treap : Treap s t) (e : Fin n) (tv : Timeval) (draws : List Nat) :
    scheduleAddModify (s.setTv e tv) e draws = none ∧ (∀ number ∈ draws, ∃ x ≠ e, s.pri x = drawnPri number) ∨
      ∃ s' t', scheduleAddModify (s.setTv e tv) e draws = some s' ∧ Treap s' t' ∧ s'.tv = Function.update s.tv e tv ∧
        ∀ x, s'.pri x ≠ 0 ↔ x = e ∨ s.pri x ≠ 0 := by
  obtain ⟨s₂, t₂, taken, shaped₂, sorted₂, heaped₂, among, spares₂⟩ := take_out treap e tv
  have fresh : e ∉ t₂.nodes := fun there => ((among e).mp there).2 rfl
  have pri₂ : ∀ x ≠ e, s₂.pri x = s.pri x := by
    intro x apart
    rw [spares₂.pri x apart, setTv_pri]
  have first : (if ((s.setTv e tv).entry e).pri ≠ 0 then scheduleRemoveNode (s.setTv e tv) e
      else some (s.setTv e tv)) = some s₂ := taken
  unfold scheduleAddModify
  rw [first, Option.bind_some]
  cases draws with
  | nil => exact Or.inl ⟨rfl, by simp⟩
  | cons random draws =>
    dsimp only
    rcases put_in shaped₂ sorted₂ fresh random draws with ⟨failed, exhausted⟩ |
      ⟨s₃, ctx, placed, rfl, belongs, shaped₃, spares₃, drawn⟩
    · rw [failed]
      refine Or.inl ⟨rfl, fun number member => ?_⟩
      obtain ⟨x, apart, collided⟩ := exhausted number member
      exact ⟨x, apart, (pri₂ x apart).symm.trans collided⟩
    · rw [placed, Option.bind_some]
      have away : ∀ x ∈ (plug ctx leaf).nodes, x ≠ e := fun x member here => fresh (here ▸ member)
      have heaped₃ : Heaped s₃.pri (plug ctx leaf) := heaped₂.congr fun x member => spares₃.pri x (away x member)
      have sorted₃ := C.sorted_insert (sorted₂.congr fun x member => spares₃.key (away x member)) belongs
      have climbing : Climbing s₃.pri ctx .lt leaf e leaf :=
        ⟨⟨by simp [BinTree.nodes], by simp [BinTree.nodes], trivial, trivial⟩, ((C.heaped_plug _ _).mp heaped₃).2⟩
      have enough : ctx.length < n + 1 := by
        have bound := nodes_le shaped₂.distinct
        have all := (C.nodes_plug ctx (leaf : BinTree (Fin n))).length_eq
        have deep := C.length_around ctx
        rw [List.length_append] at all
        omega
      obtain ⟨s₄, t₄, risen, shaped₄, heaped₄, nodes₄, keeps₄⟩ := rise shaped₃ climbing enough
      have members : ∀ x, x ∈ t₄.nodes ↔ x = e ∨ x ∈ (plug ctx leaf).nodes := by
        intro x
        rw [nodes₄, (C.nodes_plug _ _).mem_iff, (C.nodes_plug ctx leaf).mem_iff, List.mem_append, mem_build]
        simp [BinTree.nodes]
      have present : ∀ x, x ∈ t₄.nodes ↔ x = e ∨ s.pri x ≠ 0 := by
        intro x
        rw [members, among, treap.present]
        by_cases here : x = e
        · simp [here]
        · simp [here]
      have priority : ∀ x, s₄.pri x ≠ 0 ↔ x = e ∨ s.pri x ≠ 0 := by
        intro x
        rw [keeps₄.pri]
        by_cases here : x = e
        · subst here
          simp [drawn]
        · rw [spares₃.pri x here, pri₂ x here]
          simp [here]
      refine Or.inr ⟨s₄, t₄, risen, ⟨shaped₄, ?_, keeps₄.pri ▸ heaped₄,
        fun x => (present x).trans (priority x).symm⟩, ?_,
        priority⟩
      · unfold Sorted
        rw [nodes₄, keeps₄.key]
        exact sorted₃
      · rw [keeps₄.tv, spares₃.tv, spares₂.tv, setTv_tv]

end AddModify

end OpenVpn
