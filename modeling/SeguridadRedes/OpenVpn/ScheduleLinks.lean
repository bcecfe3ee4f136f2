import SeguridadRedes.C.Treap
import SeguridadRedes.OpenVpn.Schedule

namespace OpenVpn

open C (put get_put BinTree Frame Links Linked plug up hangs)
open C.BinTree

variable {n : Nat} {s s' : Schedule n} {e p x : Fin n} {ctx : List (Frame (Fin n))} {side : C.Side}
  {a b o t : BinTree (Fin n)}

namespace Schedule

def links (s : Schedule n) : Links (Fin n) where
  parent x := (s.entry x).parent
  child side x :=
    match side with
    | .lt => (s.entry x).lt
    | .gt => (s.entry x).gt

def tv (s : Schedule n) (x : Fin n) : Timeval := (s.entry x).tv

def pri (s : Schedule n) (x : Fin n) : Nat := (s.entry x).pri

theorem entry_set (s : Schedule n) (x y : Fin n) (e : ScheduleEntry n) :
    entry { s with entries := put s.entries x e } y = if y = x then e else s.entry y := get_put _ _ _ _

@[simp] theorem links_setParent (s : Schedule n) (x : Fin n) (v : Option (Fin n)) :
    (s.setParent x v).links = s.links.setParent x v := by
  ext1
  · funext y
    rw [C.setParent_parent]
    simp only [links, setParent, entry_set]
    split <;> rfl
  · funext side y
    rw [C.setParent_child]
    simp only [links, setParent, entry_set]
    by_cases same : y = x
    · cases side <;> simp [same]
    · cases side <;> simp [same]

@[simp] theorem links_setLt (s : Schedule n) (x : Fin n) (v : Option (Fin n)) :
    (s.setLt x v).links = s.links.setChild .lt x v := by
  ext1
  · funext y
    rw [C.setChild_parent]
    simp only [links, setLt, entry_set]
    split
    · rename_i same
      rw [same]
    · rfl
  · funext side y
    rw [C.setChild_child]
    simp only [links, setLt, entry_set]
    by_cases same : y = x
    · cases side <;> simp [same]
    · cases side <;> simp [same]

@[simp] theorem links_setGt (s : Schedule n) (x : Fin n) (v : Option (Fin n)) :
    (s.setGt x v).links = s.links.setChild .gt x v := by
  ext1
  · funext y
    rw [C.setChild_parent]
    simp only [links, setGt, entry_set]
    split
    · rename_i same
      rw [same]
    · rfl
  · funext side y
    rw [C.setChild_child]
    simp only [links, setGt, entry_set]
    by_cases same : y = x
    · cases side <;> simp [same]
    · cases side <;> simp [same]

theorem links_same (s : Schedule n) (x : Fin n) (e : ScheduleEntry n) (parent : e.parent = (s.entry x).parent)
    (lt : e.lt = (s.entry x).lt) (gt : e.gt = (s.entry x).gt) :
    links { s with entries := put s.entries x e } = s.links := by
  ext1
  · funext y
    simp only [links, entry_set]
    split
    · rename_i same
      rw [parent, same]
    · rfl
  · funext side y
    simp only [links, entry_set]
    by_cases same : y = x
    · cases side <;> simp [same, lt, gt]
    · cases side <;> simp [same]

@[simp] theorem links_setTv (s : Schedule n) (x : Fin n) (tv : Timeval) : (s.setTv x tv).links = s.links :=
  links_same s x _ rfl rfl rfl

@[simp] theorem links_setPri (s : Schedule n) (x : Fin n) (pri : Nat) : (s.setPri x pri).links = s.links :=
  links_same s x _ rfl rfl rfl

end Schedule

open Schedule

/-- Only links differ. -/
structure Keeps (s s' : Schedule n) : Prop where
  tv : s'.tv = s.tv
  pri : s'.pri = s.pri
  earliest : s'.earliest_wakeup = s.earliest_wakeup

theorem Keeps.refl (s : Schedule n) : Keeps s s := ⟨rfl, rfl, rfl⟩

theorem Keeps.trans {s s' s'' : Schedule n} (first : Keeps s s') (second : Keeps s' s'') : Keeps s s'' :=
  ⟨second.tv.trans first.tv, second.pri.trans first.pri, second.earliest.trans first.earliest⟩

theorem keeps_set (s : Schedule n) (x : Fin n) (e : ScheduleEntry n) (tv : e.tv = (s.entry x).tv)
    (pri : e.pri = (s.entry x).pri) : Keeps s { s with entries := put s.entries x e } := by
  refine ⟨funext fun y => ?_, funext fun y => ?_, rfl⟩
  · unfold Schedule.tv
    rw [entry_set]
    split
    · rename_i same
      rw [tv, same]
    · rfl
  · unfold Schedule.pri
    rw [entry_set]
    split
    · rename_i same
      rw [pri, same]
    · rfl

theorem keeps_setParent (s : Schedule n) (x : Fin n) (v : Option (Fin n)) : Keeps s (s.setParent x v) :=
  keeps_set s x _ rfl rfl

theorem keeps_setLt (s : Schedule n) (x : Fin n) (v : Option (Fin n)) : Keeps s (s.setLt x v) := keeps_set s x _ rfl rfl

theorem keeps_setGt (s : Schedule n) (x : Fin n) (v : Option (Fin n)) : Keeps s (s.setGt x v) := keeps_set s x _ rfl rfl

theorem keeps_adopt (s : Schedule n) (c : Option (Fin n)) (p : Fin n) : Keeps s (rotateAdopt s c p) := by
  cases c with
  | none => exact Keeps.refl s
  | some c => exact keeps_setParent s c _

theorem links_adopt (s : Schedule n) (c : Option (Fin n)) (p : Fin n) :
    (rotateAdopt s c p).links = s.links.adopt c p := by
  cases c with
  | none => rfl
  | some c => exact links_setParent s c _

section Rotation

/-- The links of the entries are those of a tree, and entries outside of it have none. -/
structure Shaped (s : Schedule n) (t : BinTree (Fin n)) : Prop where
  root : s.root = t.root
  linked : Linked s.links none t
  distinct : t.nodes.Nodup
  parentless : ∀ x ∉ t.nodes, s.links.parent x = none
  childless : ∀ x ∉ t.nodes, ∀ side, s.links.child side x = none

theorem rotateGrandparent_links (linked : Linked s.links none (plug ctx t)) (distinct : (plug ctx t).nodes.Nodup)
    (root : t.root = some p) (e : Fin n) :
    ∃ s', rotateGrandparent s (up ctx) p e = some s' ∧ s'.links = s.links.relink (up ctx) (hangs ctx) (some e) ∧
      (ctx = [] → s'.root = some e) ∧ (ctx ≠ [] → s'.root = s.root) ∧ Keeps s s' := by
  cases ctx with
  | nil => exact ⟨_, rfl, rfl, fun _ => rfl, fun some_ctx => absurd rfl some_ctx, ⟨rfl, rfl, rfl⟩⟩
  | cons f ctx =>
    obtain ⟨_, child, other⟩ := linked.neighbours distinct root
    obtain ⟨side, g, o⟩ := f
    cases side with
    | gt => exact ⟨s.setGt g (some e), if_pos child, links_setGt _ _ _, (absurd · (List.cons_ne_nil _ _)),
      fun _ => rfl, keeps_setGt _ _ _⟩
    | lt =>
      refine ⟨s.setLt g (some e), ?_, links_setLt _ _ _, (absurd · (List.cons_ne_nil _ _)), fun _ => rfl,
        keeps_setLt _ _ _⟩
      have both : rotateGrandparent s (some g) p e = if (s.entry g).gt = some p then some (s.setGt g (some e))
        else if (s.entry g).lt = some p then some (s.setLt g (some e)) else none := rfl
      exact both.trans ((if_neg other).trans (if_pos child))

theorem root_adopt (s : Schedule n) (c : Option (Fin n)) (p : Fin n) : (rotateAdopt s c p).root = s.root := by
  cases c <;> rfl

theorem Shaped.of_same {t' : BinTree (Fin n)} (shaped : Shaped s t) (root : s'.root = t'.root)
    (linked : Linked s'.links none t')
    (nodes : t'.nodes = t.nodes) (far : ∀ x ∉ t.nodes, C.SameAt s.links s'.links x) : Shaped s' t' := by
  refine ⟨root, linked, nodes ▸ shaped.distinct, fun x outside => ?_, fun x outside side => ?_⟩
  · rw [nodes] at outside
    exact (far x outside).1.trans (shaped.parentless x outside)
  · rw [nodes] at outside
    exact ((far x outside).2 side).trans (shaped.childless x outside side)

/-- The code rotates as the tree is rotated; no ASSERT of it fails. -/
theorem Shaped.rotate (shaped : Shaped s (plug (⟨side, p, o⟩ :: ctx) (build side a e b))) :
    ∃ s', scheduleRotateUp s e = some s' ∧ Shaped s' (plug ctx (build side a e (build side b p o))) ∧ Keeps s s' := by
  obtain ⟨parent, child, other⟩ := shaped.linked.neighbours shaped.distinct (root_build side a e b)
  obtain ⟨hole, sub⟩ := (C.linked_plug _ _).mp shaped.linked
  obtain ⟨_, _, childB, _, _⟩ := C.linked_build.mp sub
  have above : (s.entry p).parent = up ctx := hole.1
  have notUp : up ctx ≠ some p := by
    intro same
    have apart := (C.nodup_plug shaped.distinct).2.1
    exact (List.nodup_cons.mp apart).1 (List.mem_append_right _ (C.up_mem same))
  obtain ⟨s₁, grandparent, links₁, rootNil, rootCons, keeps₁⟩ :=
    @rotateGrandparent_links n s p ctx (Frame.fill ⟨side, p, o⟩ (build side a e b)) shaped.linked shaped.distinct
      (root_build _ _ _ _) e
  have links₂ : ((s₁.setParent e (up ctx)).setParent p (some e)).links =
      ((s.links.relink (up ctx) (hangs ctx) (some e)).setParent e (up ctx)).setParent p (some e) := by
    rw [links_setParent, links_setParent, links₁]
  have kept : ∀ side', ((s₁.setParent e (up ctx)).setParent p (some e)).links.child side' p =
    s.links.child side' p := by
    intro side'
    rw [links₂, C.setParent_child, C.setParent_child, C.relink_child, if_neg fun both => notUp both.2]
  have keeps₂ := keeps₁.trans ((keeps_setParent s₁ e (up ctx)).trans (keeps_setParent _ p (some e)))
  suffices turned : ∃ s', scheduleRotateUp s e = some s' ∧ s'.links = s.links.climb ctx side p e b.root ∧
      s'.root = s₁.root ∧ Keeps s s' by
    obtain ⟨s', rotated, links, root, keeps⟩ := turned
    refine ⟨s', rotated, shaped.of_same ?_ (links ▸ shaped.linked.climb shaped.distinct) ?_ ?_, keeps⟩
    · rw [root]
      cases ctx with
      | nil => exact (rootNil rfl).trans (root_build _ _ _ _).symm
      | cons f ctx => exact (rootCons (List.cons_ne_nil _ _)).trans (shaped.root.trans (C.root_plug f ctx _ _))
    · have before : plug (⟨side, p, o⟩ :: ctx) (build side a e b) = plug ctx (build side (build side a e b) p o) := rfl
      rw [before, C.nodes_order, C.nodes_order, nodes_rotate]
    · exact fun x outside => links ▸ C.climb_far outside
  have gtOf : (((s₁.setParent e (up ctx)).setParent p (some e)).entry p).gt = s.links.child .gt p := kept .gt
  have ltOf : (((s₁.setParent e (up ctx)).setParent p (some e)).entry p).lt = s.links.child .lt p := kept .lt
  have parentOf : (s.entry e).parent = some p := parent
  unfold scheduleRotateUp
  rw [parentOf]
  dsimp only
  rw [above, grandparent]
  dsimp only
  cases side with
  | gt =>
    have subtree : (s.entry e).lt = b.root := childB
    rw [if_pos (gtOf.trans child)]
    refine ⟨_, rfl, ?_, root_adopt _ _ _, keeps₂.trans ((keeps_setLt _ _ _).trans ((keeps_setGt _ _ _).trans
      (keeps_adopt _ _ _)))⟩
    rw [links_adopt, links_setGt, links_setLt, links₂, subtree]
    rfl
  | lt =>
    have subtree : (s.entry e).gt = b.root := childB
    rw [if_neg fun same => other (gtOf.symm.trans same), if_pos (ltOf.trans child)]
    refine ⟨_, rfl, ?_, root_adopt _ _ _, keeps₂.trans ((keeps_setGt _ _ _).trans ((keeps_setLt _ _ _).trans
      (keeps_adopt _ _ _)))⟩
    rw [links_adopt, links_setLt, links_setGt, links₂, subtree]
    rfl

end Rotation

section Leaves

variable {f : Frame (Fin n)}

theorem Shaped.attach (shaped : Shaped s (plug (f :: ctx) leaf)) (fresh : e ∉ (plug (f :: ctx) leaf).nodes)
    (root : s'.root = s.root) (links : s'.links = (s.links.setChild f.side f.node (some e)).setParent e (some f.node)) :
    Shaped s' (plug (f :: ctx) (build .lt leaf e leaf)) := by
  have nodes : (plug (f :: ctx) (build .lt leaf e leaf)).nodes.Perm (e :: (plug (f :: ctx) leaf).nodes) :=
    (C.nodes_plug _ _).trans ((C.nodes_plug (f :: ctx) leaf).symm.cons e)
  have above : f.node ∈ (plug (f :: ctx) leaf).nodes :=
    (C.nodes_plug (f :: ctx) leaf).mem_iff.mpr (List.mem_append_right _ List.mem_cons_self)
  refine ⟨root.trans (shaped.root.trans (C.root_plug f ctx _ _)), links ▸ shaped.linked.attach shaped.distinct fresh
    (shaped.childless e fresh), nodes.nodup_iff.mpr (List.nodup_cons.mpr ⟨fresh, shaped.distinct⟩), ?_, ?_⟩
  · intro x outside
    rw [nodes.mem_iff, List.mem_cons, not_or] at outside
    rw [links, C.setParent_parent, if_neg outside.1, C.setChild_parent]
    exact shaped.parentless x outside.2
  · intro x outside side
    rw [nodes.mem_iff, List.mem_cons, not_or] at outside
    have apart : x ≠ f.node := fun same => outside.2 (same ▸ above)
    rw [links, C.setParent_child, C.setChild_child, if_neg fun both => apart both.2]
    exact shaped.childless x outside.2 side

theorem Shaped.detached (shaped : Shaped s (plug (f :: ctx) (build .lt leaf e leaf))) (root : s'.root = s.root)
    (links : s'.links = (s.links.setChild f.side f.node none).setParent e none) : Shaped s' (plug (f :: ctx) leaf) := by
  have nodes : (plug (f :: ctx) (build .lt leaf e leaf)).nodes.Perm (e :: (plug (f :: ctx) leaf).nodes) :=
    (C.nodes_plug _ _).trans ((C.nodes_plug (f :: ctx) leaf).symm.cons e)
  have above : f.node ∈ (plug (f :: ctx) leaf).nodes :=
    (C.nodes_plug (f :: ctx) leaf).mem_iff.mpr (List.mem_append_right _ List.mem_cons_self)
  obtain ⟨_, sub⟩ := (C.linked_plug _ _).mp shaped.linked
  obtain ⟨_, lt, gt, _, _⟩ := C.linked_build.mp sub
  refine ⟨root.trans (shaped.root.trans (C.root_plug f ctx _ _)), links ▸ shaped.linked.detach shaped.distinct,
    (List.nodup_cons.mp (nodes.nodup_iff.mp shaped.distinct)).2, ?_, ?_⟩
  · intro x outside
    rw [links, C.setParent_parent, C.setChild_parent]
    split
    · rfl
    · rename_i apart
      exact shaped.parentless x fun there => (List.mem_cons.mp (nodes.mem_iff.mp there)).elim apart outside
  · intro x outside side
    have apart : x ≠ f.node := fun same => outside (same ▸ above)
    rw [links, C.setParent_child, C.setChild_child, if_neg fun both => apart both.2]
    by_cases same : x = e
    · subst same
      cases side with
      | lt => exact lt
      | gt => exact gt
    · exact shaped.childless x (fun there => (List.mem_cons.mp (nodes.mem_iff.mp there)).elim same outside) side

theorem Shaped.detach (shaped : Shaped s (plug ctx (build .lt leaf e leaf))) :
    ∃ s', scheduleDetachParent s e = some s' ∧ Shaped s' (plug ctx leaf) ∧ Keeps s s' := by
  cases ctx with
  | nil =>
    have parent : (s.entry e).parent = none := shaped.linked.1
    have root : s.root = some e := shaped.root
    refine ⟨{ s with root := none }, ?_, ⟨rfl, trivial, List.nodup_nil, fun x _ => ?_, fun x _ side => ?_⟩,
      ⟨rfl, rfl, rfl⟩⟩
    · unfold scheduleDetachParent
      rw [parent]
      exact congrArg some (if_pos root)
    · by_cases same : x = e
      · exact same ▸ parent
      · exact shaped.parentless x (by simpa [plug, build, nodes] using same)
    · by_cases same : x = e
      · subst same
        cases side with
        | lt => exact shaped.linked.2.1
        | gt => exact shaped.linked.2.2.1
      · exact shaped.childless x (by simpa [plug, build, nodes] using same) side
  | cons f ctx =>
    obtain ⟨parent, child, other⟩ := shaped.linked.neighbours shaped.distinct (root_build .lt leaf e leaf)
    have parentOf : (s.entry e).parent = some f.node := parent
    unfold scheduleDetachParent
    rw [parentOf]
    dsimp only
    obtain ⟨side, g, o⟩ := f
    cases side with
    | lt =>
      have here : (s.entry g).lt = some e := child
      rw [if_pos here]
      refine ⟨_, rfl, shaped.detached rfl ?_, (keeps_setLt s g none).trans (keeps_setParent _ e none)⟩
      rw [links_setParent, links_setLt]
    | gt =>
      have here : (s.entry g).gt = some e := child
      have away : (s.entry g).lt ≠ some e := other
      rw [if_neg away, if_pos here]
      refine ⟨_, rfl, shaped.detached rfl ?_, (keeps_setGt s g none).trans (keeps_setParent _ e none)⟩
      rw [links_setParent, links_setGt]

end Leaves

end OpenVpn
