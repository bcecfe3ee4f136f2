import Mathlib
import SeguridadRedes.C.LinkedTree

namespace C

open BinTree

variable {ι : Type} {ctx : List (Frame ι)} {t a b o : BinTree ι} {e p x : ι} {side : Side}

section Order

variable {κ : Type} [LinearOrder κ] {key : ι → κ} {k : κ}

def Sorted (key : ι → κ) (t : BinTree ι) : Prop := t.nodes.Pairwise fun x y => key x < key y

structure Belongs (key : ι → κ) (ctx : List (Frame ι)) (k : κ) : Prop where
  before : ∀ x ∈ before ctx, key x < k
  after : ∀ y ∈ after ctx, k < key y

theorem sorted_around (sorted : Sorted key (plug ctx (node a x b))) :
    (∀ y ∈ a.nodes, key y < key x) ∧ ∀ y ∈ b.nodes, key x < key y := by
  unfold Sorted at sorted
  rw [nodes_order] at sorted
  have here := (List.pairwise_append.mp (List.pairwise_append.mp sorted).1).2.1
  obtain ⟨_, right, cross⟩ := List.pairwise_append.mp here
  exact ⟨fun y member => cross y member x List.mem_cons_self, (List.pairwise_cons.mp right).1⟩

theorem Belongs.left (belongs : Belongs key ctx k) (sorted : Sorted key (plug ctx (node a x b))) (less : k < key x) :
    Belongs key (⟨.lt, x, b⟩ :: ctx) k := by
  refine ⟨fun y member => belongs.before y (by simpa [C.before] using member), fun y member => ?_⟩
  rcases List.mem_append.mp member with here | further
  · rcases List.mem_cons.mp here with rfl | right
    · exact less
    · exact less.trans ((sorted_around sorted).2 y right)
  · exact belongs.after y further

theorem Belongs.right (belongs : Belongs key ctx k) (sorted : Sorted key (plug ctx (node a x b))) (more : key x < k) :
    Belongs key (⟨.gt, x, a⟩ :: ctx) k := by
  refine ⟨fun y member => ?_, fun y member => belongs.after y (by simpa [C.after] using member)⟩
  rcases List.mem_append.mp member with further | here
  · exact belongs.before y further
  · rcases List.mem_append.mp here with left | same
    · exact ((sorted_around sorted).1 y left).trans more
    · rw [List.mem_singleton.mp same]
      exact more

theorem sorted_insert (sorted : Sorted key (plug ctx leaf)) (belongs : Belongs key ctx (key e)) :
    Sorted key (plug ctx (build .lt leaf e leaf)) := by
  unfold Sorted at *
  rw [nodes_order] at *
  have parts := List.pairwise_append.mp sorted
  rw [List.append_assoc]
  refine List.pairwise_append.mpr
    ⟨by simpa [nodes] using parts.1, List.pairwise_cons.mpr ⟨belongs.after, parts.2.1⟩, ?_⟩
  intro y first z later
  rcases List.mem_cons.mp later with rfl | last
  · exact belongs.before y first
  · exact parts.2.2 y (List.mem_append_left _ first) z last

theorem Sorted.congr {key' : ι → κ} (sorted : Sorted key t) (same : ∀ x ∈ t.nodes, key' x = key x) : Sorted key' t := by
  refine List.Pairwise.imp_of_mem (fun {x y} hx hy less => ?_) sorted
  rw [same x hx, same y hy]
  exact less

theorem sorted_least (sorted : Sorted key t) (first : t.nodes.head? = some x) : ∀ y ∈ t.nodes, key x ≤ key y := by
  obtain ⟨rest, split⟩ := List.head?_eq_some_iff.mp first
  unfold Sorted at sorted
  rw [split] at sorted ⊢
  intro y member
  rcases List.mem_cons.mp member with rfl | later
  · exact le_rfl
  · exact ((List.pairwise_cons.mp sorted).1 y later).le

end Order

section Priorities

variable {κ : Type} [LinearOrder κ] {pri pri' : ι → κ} {below below' : List ι}

/-- No node comes before the one above it. -/
def Heaped (pri : ι → κ) : BinTree ι → Prop
  | leaf => True
  | node l x r => (∀ y ∈ l.nodes, pri x ≤ pri y) ∧ (∀ y ∈ r.nodes, pri x ≤ pri y) ∧ Heaped pri l ∧ Heaped pri r

theorem heaped_build {u : BinTree ι} : Heaped pri (build side t x u) ↔
    (∀ y ∈ t.nodes, pri x ≤ pri y) ∧ (∀ y ∈ u.nodes, pri x ≤ pri y) ∧ Heaped pri t ∧ Heaped pri u := by
  cases side with
  | lt => exact Iff.rfl
  | gt =>
    constructor
    · rintro ⟨l, r, left, right⟩
      exact ⟨r, l, right, left⟩
    · rintro ⟨r, l, right, left⟩
      exact ⟨l, r, left, right⟩

/-- The same of the nodes around a subtree, with the nodes that are in it. -/
def HeapedAround (pri : ι → κ) : List (Frame ι) → List ι → Prop
  | [], _ => True
  | f :: ctx, below =>
    (∀ y ∈ below, pri f.node ≤ pri y) ∧ (∀ y ∈ f.other.nodes, pri f.node ≤ pri y) ∧ Heaped pri f.other ∧
      HeapedAround pri ctx (f.node :: (below ++ f.other.nodes))

theorem HeapedAround.mono (heaped : HeapedAround pri ctx below) (fewer : ∀ y ∈ below', y ∈ below) :
    HeapedAround pri ctx below' := by
  induction ctx generalizing below below' with
  | nil => trivial
  | cons f ctx ih =>
    obtain ⟨first, others, heapedOthers, rest⟩ := heaped
    refine ⟨fun y member => first y (fewer y member), others, heapedOthers, ih rest fun y member => ?_⟩
    rcases List.mem_cons.mp member with rfl | later
    · exact List.mem_cons_self
    · rcases List.mem_append.mp later with inside | other
      · exact List.mem_cons_of_mem _ (List.mem_append_left _ (fewer y inside))
      · exact List.mem_cons_of_mem _ (List.mem_append_right _ other)

/-- What comes after a node that is already there may come in. -/
theorem HeapedAround.add (heaped : HeapedAround pri ctx below) (there : x ∈ below) (later : pri x ≤ pri e) :
    HeapedAround pri ctx (e :: below) := by
  induction ctx generalizing below with
  | nil => trivial
  | cons f ctx ih =>
    obtain ⟨first, others, heapedOthers, rest⟩ := heaped
    refine ⟨?_, others, heapedOthers, ?_⟩
    · intro y member
      rcases List.mem_cons.mp member with rfl | old
      · exact (first x there).trans later
      · exact first y old
    · refine (ih rest (List.mem_cons_of_mem _ (List.mem_append_left _ there))).mono fun y member => ?_
      simpa [or_left_comm] using member

theorem heaped_plug (ctx : List (Frame ι)) (t : BinTree ι) :
    Heaped pri (plug ctx t) ↔ Heaped pri t ∧ HeapedAround pri ctx t.nodes := by
  induction ctx generalizing t with
  | nil => exact (and_iff_left trivial).symm
  | cons f ctx ih =>
    have here : HeapedAround pri (f :: ctx) t.nodes ↔ (∀ y ∈ t.nodes, pri f.node ≤ pri y) ∧
      (∀ y ∈ f.other.nodes, pri f.node ≤ pri y) ∧ Heaped pri f.other ∧
        HeapedAround pri ctx (f.node :: (t.nodes ++ f.other.nodes)) := Iff.rfl
    have same : HeapedAround pri ctx (f.fill t).nodes ↔ HeapedAround pri ctx (f.node :: (t.nodes ++ f.other.nodes)) :=
      have perm := nodes_build f.side t f.node f.other
      ⟨fun h => h.mono fun y member => perm.mem_iff.mpr member, fun h => h.mono fun y member => perm.mem_iff.mp member⟩
    unfold plug
    rw [ih, same, here, Frame.fill, heaped_build]
    tauto

/-- A node that is to climb is out of order with those above it only. -/
structure Climbing (pri : ι → κ) (ctx : List (Frame ι)) (side : Side) (a : BinTree ι) (e : ι) (b : BinTree ι) : Prop
    where
  inside : Heaped pri (build side a e b)
  around : HeapedAround pri ctx (a.nodes ++ b.nodes)

theorem Climbing.climb (climbing : Climbing pri (⟨side, p, o⟩ :: ctx) side a e b) (less : pri e ≤ pri p) :
    Climbing pri ctx side a e (build side b p o) := by
  obtain ⟨first, second, heapedA, heapedB⟩ := heaped_build.mp climbing.inside
  obtain ⟨below, others, heapedO, rest⟩ := climbing.around
  refine ⟨heaped_build.mpr ⟨first, fun y member => ?_, heapedA, heaped_build.mpr ⟨?_, others, heapedB, heapedO⟩⟩, ?_⟩
  · rcases mem_build.mp member with rfl | inB | inO
    · exact less
    · exact second y inB
    · exact less.trans (others y inO)
  · exact fun y inB => below y (List.mem_append_right _ inB)
  · refine rest.mono fun y member => ?_
    rcases List.mem_append.mp member with inA | later
    · exact List.mem_cons_of_mem _ (List.mem_append_left _ (List.mem_append_left _ inA))
    · rcases mem_build.mp later with rfl | inB | inO
      · exact List.mem_cons_self
      · exact List.mem_cons_of_mem _ (List.mem_append_left _ (List.mem_append_right _ inB))
      · exact List.mem_cons_of_mem _ (List.mem_append_right _ inO)

theorem Climbing.face (climbing : Climbing pri ctx side a e b) (side' : Side) :
    ∃ a' b', build side a e b = build side' a' e b' ∧ Climbing pri ctx side' a' e b' := by
  by_cases same : side' = side
  · subst same
    exact ⟨a, b, rfl, climbing⟩
  · obtain rfl : side' = side.flip := by
      cases side <;> cases side' <;> first | rfl | exact absurd rfl same
    have turned : build side a e b = build side.flip b e a := (build_flip side b e a).symm
    refine ⟨b, a, turned, turned ▸ climbing.inside, climbing.around.mono fun y member => ?_⟩
    simpa [or_comm] using member

/-- It may stay where the node above it is not after it. -/
theorem Climbing.stay (climbing : Climbing pri ctx side a e b) (settled : ∀ f ∈ ctx.head?, pri f.node ≤ pri e) :
    Heaped pri (plug ctx (build side a e b)) := by
  refine (heaped_plug _ _).mpr ⟨climbing.inside, ?_⟩
  have around : HeapedAround pri ctx (e :: (a.nodes ++ b.nodes)) := by
    cases ctx with
    | nil => trivial
    | cons f ctx =>
      obtain ⟨below, others, heapedO, rest⟩ := climbing.around
      have late := settled f rfl
      refine ⟨?_, others, heapedO, ?_⟩
      · intro y member
        rcases List.mem_cons.mp member with rfl | old
        · exact late
        · exact below y old
      · refine (rest.add List.mem_cons_self late).mono fun y member => ?_
        simpa [or_left_comm] using member
  exact around.mono fun y member => (nodes_build side a e b).mem_iff.mp member

/-- A node that is to go is out of order with those below it only. -/
structure Sinking (pri : ι → κ) (ctx : List (Frame ι)) (l r : BinTree ι) : Prop where
  left : Heaped pri l
  right : Heaped pri r
  around : HeapedAround pri ctx (l.nodes ++ r.nodes)

theorem Sinking.of_heaped {l r : BinTree ι} (heaped : Heaped pri (plug ctx (node l x r))) : Sinking pri ctx l r := by
  obtain ⟨⟨_, _, left, right⟩, around⟩ := (heaped_plug _ _).mp heaped
  refine ⟨left, right, around.mono fun y member => ?_⟩
  rcases List.mem_append.mp member with inL | inR
  · exact List.mem_append_left _ inL
  · exact List.mem_append_right _ (List.mem_cons_of_mem _ inR)

theorem Sinking.flip {l r : BinTree ι} (sinking : Sinking pri ctx l r) : Sinking pri ctx r l :=
  ⟨sinking.right, sinking.left, sinking.around.mono fun y member => by simpa [or_comm] using member⟩

/-- The child that takes its place is one that no other below comes before. -/
theorem Sinking.sink (sinking : Sinking pri ctx (build side a x b) o) (least : ∀ y ∈ o.nodes, pri x ≤ pri y) :
    Sinking pri (⟨side.flip, x, a⟩ :: ctx) b o := by
  obtain ⟨first, second, heapedA, heapedB⟩ := heaped_build.mp sinking.left
  refine ⟨heapedB, sinking.right, ?_, first, heapedA, sinking.around.mono fun y member => ?_⟩
  · intro y member
    rcases List.mem_append.mp member with inB | inO
    · exact second y inB
    · exact least y inO
  · have among : y ∈ (build side a x b).nodes ↔ y = x ∨ y ∈ a.nodes ∨ y ∈ b.nodes := mem_build
    simp only [List.mem_cons, List.mem_append] at member ⊢
    rw [among]
    tauto

theorem Sinking.gone (sinking : Sinking pri ctx leaf leaf) : Heaped pri (plug ctx leaf) :=
  (heaped_plug _ _).mpr ⟨trivial, sinking.around⟩

theorem Heaped.root_le (heaped : Heaped pri t) (root : t.root = some x) : ∀ y ∈ t.nodes, pri x ≤ pri y := by
  cases t with
  | leaf => cases root
  | node l z r =>
    obtain rfl : z = x := Option.some.inj root
    intro y member
    rcases List.mem_append.mp member with inL | later
    · exact heaped.1 y inL
    · rcases List.mem_cons.mp later with rfl | inR
      · exact le_rfl
      · exact heaped.2.1 y inR

theorem Heaped.congr (heaped : Heaped pri t) (same : ∀ x ∈ t.nodes, pri' x = pri x) : Heaped pri' t := by
  induction t with
  | leaf => trivial
  | node l x r ihl ihr =>
    obtain ⟨left, right, heapedL, heapedR⟩ := heaped
    have inL : ∀ y ∈ l.nodes, y ∈ (BinTree.node l x r).nodes := fun y member => List.mem_append_left _ member
    have inR : ∀ y ∈ r.nodes, y ∈ (BinTree.node l x r).nodes :=
      fun y member => List.mem_append_right _ (List.mem_cons_of_mem _ member)
    have root := same x (List.mem_append_right _ List.mem_cons_self)
    refine ⟨fun y member => ?_, fun y member => ?_, ihl heapedL fun y member => same y (inL y member),
      ihr heapedR fun y member => same y (inR y member)⟩
    · rw [root, same y (inL y member)]
      exact left y member
    · rw [root, same y (inR y member)]
      exact right y member

end Priorities

end C
