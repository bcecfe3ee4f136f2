import Mathlib.Data.List.Perm.Basic
import Mathlib.Data.List.Nodup
import Mathlib.Logic.Function.Basic

namespace C

variable {ι : Type}

inductive Side
  | lt
  | gt
  deriving DecidableEq

def Side.flip : Side → Side
  | .lt => .gt
  | .gt => .lt

@[simp] theorem Side.flip_flip (side : Side) : side.flip.flip = side := by cases side <;> rfl

theorem Side.flip_ne (side : Side) : side.flip ≠ side := by cases side <;> decide

inductive BinTree (ι : Type)
  | leaf
  | node (l : BinTree ι) (x : ι) (r : BinTree ι)

namespace BinTree

def root : BinTree ι → Option ι
  | leaf => none
  | node _ x _ => some x

def nodes : BinTree ι → List ι
  | leaf => []
  | node l x r => l.nodes ++ x :: r.nodes

/-- A node with one subtree on a side and one on the other. -/
def build (side : Side) (t : BinTree ι) (x : ι) (u : BinTree ι) : BinTree ι :=
  match side with
  | .lt => node t x u
  | .gt => node u x t

@[simp] theorem root_build (side : Side) (t : BinTree ι) (x : ι) (u : BinTree ι) :
    (build side t x u).root = some x := by
  cases side <;> rfl

theorem build_flip (side : Side) (t : BinTree ι) (x : ι) (u : BinTree ι) :
    build side.flip t x u = build side u x t := by
  cases side <;> rfl

theorem nodes_build (side : Side) (t : BinTree ι) (x : ι) (u : BinTree ι) :
    (build side t x u).nodes.Perm (x :: (t.nodes ++ u.nodes)) := by
  cases side with
  | lt => exact List.perm_middle
  | gt => exact List.perm_middle.trans (List.perm_append_comm.cons x)

theorem mem_build {side : Side} {t u : BinTree ι} {x y : ι} :
    y ∈ (build side t x u).nodes ↔ y = x ∨ y ∈ t.nodes ∨ y ∈ u.nodes := by
  rw [(nodes_build side t x u).mem_iff, List.mem_cons, List.mem_append]

theorem nodes_rotate (side : Side) (a : BinTree ι) (e : ι) (b : BinTree ι) (p : ι) (o : BinTree ι) :
    (build side a e (build side b p o)).nodes = (build side (build side a e b) p o).nodes := by
  cases side <;> simp [build, nodes]

theorem root_mem {t : BinTree ι} {x : ι} (root : t.root = some x) : x ∈ t.nodes := by
  cases t with
  | leaf => cases root
  | node l y r =>
    obtain rfl : y = x := Option.some.inj root
    exact List.mem_append_right _ List.mem_cons_self

end BinTree

open BinTree

section Contexts

/-- A node on the way up, with its subtree on the other side. -/
structure Frame (ι : Type) where
  side : Side
  node : ι
  other : BinTree ι

def Frame.fill (f : Frame ι) (t : BinTree ι) : BinTree ι := build f.side t f.node f.other

def Frame.nodes (f : Frame ι) : List ι := f.node :: f.other.nodes

/-- The whole tree around a subtree. -/
def plug : List (Frame ι) → BinTree ι → BinTree ι
  | [], t => t
  | f :: ctx, t => plug ctx (f.fill t)

def around (ctx : List (Frame ι)) : List ι := ctx.flatMap Frame.nodes

def up : List (Frame ι) → Option ι
  | [] => none
  | f :: _ => some f.node

theorem around_cons (f : Frame ι) (ctx : List (Frame ι)) : around (f :: ctx) = f.nodes ++ around ctx := rfl

theorem up_mem {ctx : List (Frame ι)} {x : ι} (above : up ctx = some x) : x ∈ around ctx := by
  cases ctx with
  | nil => cases above
  | cons f ctx =>
    obtain rfl : f.node = x := Option.some.inj above
    exact List.mem_cons_self

theorem nodes_plug (ctx : List (Frame ι)) (t : BinTree ι) : (plug ctx t).nodes.Perm (t.nodes ++ around ctx) := by
  induction ctx generalizing t with
  | nil => simp [plug, around]
  | cons f ctx ih =>
    refine (ih (f.fill t)).trans ?_
    rw [around_cons, ← List.append_assoc]
    refine List.Perm.append_right _ ((nodes_build f.side t f.node f.other).trans ?_)
    exact List.perm_middle.symm

theorem length_around (ctx : List (Frame ι)) : ctx.length ≤ (around ctx).length := by
  induction ctx with
  | nil => exact Nat.le_refl _
  | cons f ctx ih =>
    rw [around_cons, List.length_append, List.length_cons]
    unfold Frame.nodes
    rw [List.length_cons]
    omega

theorem root_plug (f : Frame ι) (ctx : List (Frame ι)) (t u : BinTree ι) :
    (plug (f :: ctx) t).root = (plug (f :: ctx) u).root := by
  induction ctx generalizing f t u with
  | nil => exact (root_build _ _ _ _).trans (root_build _ _ _ _).symm
  | cons g ctx ih => exact ih g (f.fill t) (f.fill u)

theorem plug_flip (side : Side) (a : BinTree ι) (x : ι) (t : BinTree ι) (ctx : List (Frame ι)) :
    plug (⟨side.flip, x, a⟩ :: ctx) t = plug ctx (build side a x t) := congrArg (plug ctx) (build_flip side t x a)

theorem exists_plug {t : BinTree ι} {x : ι} (member : x ∈ t.nodes) : ∃ ctx l r, t = plug ctx (node l x r) := by
  suffices placed : ∀ (t : BinTree ι) ctx, x ∈ t.nodes → ∃ ctx' l r, plug ctx t = plug ctx' (node l x r) from
    placed t [] member
  intro t
  induction t with
  | leaf =>
    intro ctx impossible
    cases impossible
  | node l y r ihl ihr =>
    intro ctx member
    rcases List.mem_append.mp member with inL | later
    · exact ihl (⟨.lt, y, r⟩ :: ctx) inL
    · rcases List.mem_cons.mp later with rfl | inR
      · exact ⟨ctx, l, r, rfl⟩
      · exact ihr (⟨.gt, y, l⟩ :: ctx) inR

theorem nodup_plug {ctx : List (Frame ι)} {t : BinTree ι} (distinct : (plug ctx t).nodes.Nodup) :
    t.nodes.Nodup ∧ (around ctx).Nodup ∧ ∀ x ∈ t.nodes, x ∉ around ctx := by
  have parts := List.nodup_append'.mp ((nodes_plug ctx t).nodup_iff.mp distinct)
  exact ⟨parts.1, parts.2.1, fun x member there => parts.2.2 member there⟩

theorem nodup_build {side : Side} {a b : BinTree ι} {x : ι} (distinct : (build side a x b).nodes.Nodup) :
    x ∉ a.nodes ∧ x ∉ b.nodes ∧ a.nodes.Nodup ∧ b.nodes.Nodup ∧ ∀ y ∈ a.nodes, y ∉ b.nodes := by
  have parts := List.nodup_cons.mp ((nodes_build side a x b).nodup_iff.mp distinct)
  have both := List.nodup_append'.mp parts.2
  refine ⟨fun there => parts.1 (List.mem_append_left _ there),
    fun there => parts.1 (List.mem_append_right _ there), both.1,
    both.2.1, fun y member there => both.2.2 member there⟩

/-- What stands before a subtree, and after it. -/
def before : List (Frame ι) → List ι
  | [] => []
  | f :: ctx => before ctx ++ match f.side with
    | .lt => []
    | .gt => f.other.nodes ++ [f.node]

def after : List (Frame ι) → List ι
  | [] => []
  | f :: ctx => (match f.side with
    | .lt => f.node :: f.other.nodes
    | .gt => []) ++ after ctx

theorem nodes_order (ctx : List (Frame ι)) (t : BinTree ι) :
    (plug ctx t).nodes = before ctx ++ t.nodes ++ after ctx := by
  induction ctx generalizing t with
  | nil => simp [plug, before, after]
  | cons f ctx ih =>
    obtain ⟨side, x, other⟩ := f
    unfold plug
    rw [ih]
    cases side <;> simp [Frame.fill, build, nodes, before, after]

end Contexts

section Links

/-- What every node knows of its neighbours. -/
@[ext] structure Links (ι : Type) where
  parent : ι → Option ι
  child : Side → ι → Option ι

variable {m m' : Links ι} {above : Option ι}

def Linked (m : Links ι) (above : Option ι) : BinTree ι → Prop
  | leaf => True
  | node l x r =>
    m.parent x = above ∧ m.child .lt x = l.root ∧ m.child .gt x = r.root ∧ Linked m (some x) l ∧ Linked m (some x) r

theorem linked_build {side : Side} {t u : BinTree ι} {x : ι} : Linked m above (build side t x u) ↔
    m.parent x = above ∧ m.child side x = t.root ∧ m.child side.flip x = u.root ∧ Linked m (some x) t ∧
      Linked m (some x) u := by
  cases side with
  | lt => exact Iff.rfl
  | gt =>
    constructor
    · rintro ⟨parent, lt, gt, l, r⟩
      exact ⟨parent, gt, lt, r, l⟩
    · rintro ⟨parent, gt, lt, r, l⟩
      exact ⟨parent, lt, gt, l, r⟩

/-- The nodes around a subtree, whose root is given, are linked. -/
def LinkedAround (m : Links ι) : List (Frame ι) → Option ι → Prop
  | [], _ => True
  | f :: ctx, hole =>
    m.parent f.node = up ctx ∧ m.child f.side f.node = hole ∧ m.child f.side.flip f.node = f.other.root ∧
      Linked m (some f.node) f.other ∧ LinkedAround m ctx (some f.node)

theorem linked_plug (ctx : List (Frame ι)) (t : BinTree ι) :
    Linked m none (plug ctx t) ↔ LinkedAround m ctx t.root ∧ Linked m (up ctx) t := by
  induction ctx generalizing t with
  | nil => exact (and_iff_right trivial).symm
  | cons f ctx ih =>
    unfold plug
    rw [ih]
    have here : LinkedAround m (f :: ctx) t.root ↔ m.parent f.node = up ctx ∧ m.child f.side f.node = t.root ∧
      m.child f.side.flip f.node = f.other.root ∧ Linked m (some f.node) f.other ∧
        LinkedAround m ctx (some f.node) := Iff.rfl
    have above : up (f :: ctx) = some f.node := rfl
    unfold Frame.fill
    rw [linked_build, root_build, here, above]
    tauto

def SameAt (m m' : Links ι) (x : ι) : Prop := m'.parent x = m.parent x ∧ ∀ side, m'.child side x = m.child side x

theorem Linked.frame {t : BinTree ι} (linked : Linked m above t) (same : ∀ x ∈ t.nodes, SameAt m m' x) :
    Linked m' above t := by
  induction t generalizing above with
  | leaf => trivial
  | node l x r ihl ihr =>
    obtain ⟨parent, lt, gt, left, right⟩ := linked
    obtain ⟨parent', child'⟩ := same x (List.mem_append_right _ List.mem_cons_self)
    refine ⟨parent'.trans parent, (child' _).trans lt, (child' _).trans gt, ihl left ?_, ihr right ?_⟩
    · exact fun y member => same y (List.mem_append_left _ member)
    · exact fun y member => same y (List.mem_append_right _ (List.mem_cons_of_mem _ member))

theorem LinkedAround.frame {ctx : List (Frame ι)} {hole : Option ι} (linked : LinkedAround m ctx hole)
    (same : ∀ x ∈ around ctx, SameAt m m' x) : LinkedAround m' ctx hole := by
  induction ctx generalizing hole with
  | nil => trivial
  | cons f ctx ih =>
    obtain ⟨parent, child, other, linkedOther, rest⟩ := linked
    obtain ⟨parent', child'⟩ := same f.node List.mem_cons_self
    refine ⟨parent'.trans parent, (child' _).trans child, (child' _).trans other, linkedOther.frame ?_, ih rest ?_⟩
    · exact fun y member => same y (List.mem_append_left _ (List.mem_cons_of_mem _ member))
    · exact fun y member => same y (List.mem_append_right _ member)

theorem Linked.moved {t : BinTree ι} {above' : Option ι} (linked : Linked m above t) (nodup : t.nodes.Nodup)
    (root : ∀ x, t.root = some x → m'.parent x = above')
    (parents : ∀ x ∈ t.nodes, t.root ≠ some x → m'.parent x = m.parent x)
    (children : ∀ x ∈ t.nodes, ∀ side, m'.child side x = m.child side x) : Linked m' above' t := by
  cases t with
  | leaf => trivial
  | node l x r =>
    obtain ⟨_, lt, gt, left, right⟩ := linked
    have here : x ∈ (BinTree.node l x r).nodes := List.mem_append_right _ List.mem_cons_self
    have apart : x ∉ l.nodes ∧ x ∉ r.nodes := by
      have distinct := List.perm_middle.nodup_iff.mp nodup
      simpa using (List.nodup_cons.mp distinct).1
    refine ⟨root x rfl, (children x here _).trans lt, (children x here _).trans gt, left.frame ?_, right.frame ?_⟩
    · intro y member
      have there : y ∈ (BinTree.node l x r).nodes := List.mem_append_left _ member
      refine ⟨parents y there fun same => apart.1 ?_, children y there⟩
      obtain rfl : x = y := Option.some.inj same
      exact member
    · intro y member
      have there : y ∈ (BinTree.node l x r).nodes := List.mem_append_right _ (List.mem_cons_of_mem _ member)
      refine ⟨parents y there fun same => apart.2 ?_, children y there⟩
      obtain rfl : x = y := Option.some.inj same
      exact member

/-- The node above a subtree has it on one side only. -/
theorem Linked.neighbours {f : Frame ι} {ctx : List (Frame ι)} {t : BinTree ι} {e : ι}
    (linked : Linked m none (plug (f :: ctx) t)) (distinct : (plug (f :: ctx) t).nodes.Nodup) (root : t.root = some e) :
    m.parent e = some f.node ∧ m.child f.side f.node = some e ∧ m.child f.side.flip f.node ≠ some e := by
  obtain ⟨⟨_, child, other, _, _⟩, sub⟩ := (linked_plug _ _).mp linked
  obtain ⟨_, _, outer⟩ := nodup_plug distinct
  refine ⟨?_, child.trans root, fun same => ?_⟩
  · cases t with
    | leaf => cases root
    | node l x r =>
      obtain rfl : x = e := Option.some.inj root
      exact sub.1
  · rw [other] at same
    exact outer e (root_mem root) (List.mem_append_left _ (List.mem_cons_of_mem _ (root_mem same)))

end Links

section Updates

variable [DecidableEq ι] {m : Links ι}

def Links.setParent (m : Links ι) (x : ι) (v : Option ι) : Links ι := { m with parent := Function.update m.parent x v }

def Links.setChild (m : Links ι) (side : Side) (x : ι) (v : Option ι) : Links ι :=
  { m with child := Function.update m.child side (Function.update (m.child side) x v) }

@[simp] theorem setParent_parent (m : Links ι) (x y : ι) (v : Option ι) :
    (m.setParent x v).parent y = if y = x then v else m.parent y := Function.update_apply _ _ _ _

@[simp] theorem setParent_child (m : Links ι) (x : ι) (v : Option ι) (side : Side) :
    (m.setParent x v).child side = m.child side := rfl

@[simp] theorem setChild_parent (m : Links ι) (side : Side) (x : ι) (v : Option ι) :
    (m.setChild side x v).parent = m.parent := rfl

@[simp] theorem setChild_child (m : Links ι) (side side' : Side) (x y : ι) (v : Option ι) :
    (m.setChild side x v).child side' y = if side' = side ∧ y = x then v else m.child side' y := by
  unfold Links.setChild
  by_cases here : side' = side
  · subst here
    simp [Function.update_apply]
  · simp [here]

/-- The node above a subtree gets another child in the place of the one it has. -/
def Links.relink (m : Links ι) (above : Option ι) (side : Side) (v : Option ι) : Links ι :=
  match above with
  | none => m
  | some g => m.setChild side g v

def Links.adopt (m : Links ι) (c : Option ι) (x : ι) : Links ι :=
  match c with
  | none => m
  | some c => m.setParent c (some x)

@[simp] theorem relink_parent (m : Links ι) (above : Option ι) (side : Side) (v : Option ι) :
    (m.relink above side v).parent = m.parent := by cases above <;> rfl

theorem relink_child (m : Links ι) (above : Option ι) (side side' : Side) (v : Option ι) (y : ι) :
    (m.relink above side v).child side' y = if side' = side ∧ above = some y then v else m.child side' y := by
  cases above with
  | none => simp [Links.relink]
  | some g => simp [Links.relink, eq_comm]

@[simp] theorem adopt_child (m : Links ι) (c : Option ι) (x : ι) : (m.adopt c x).child = m.child := by cases c <;> rfl

theorem adopt_parent (m : Links ι) (c : Option ι) (x y : ι) :
    (m.adopt c x).parent y = if c = some y then some x else m.parent y := by
  cases c with
  | none => simp [Links.adopt]
  | some c => simp [Links.adopt, eq_comm]

def hangs : List (Frame ι) → Side
  | [] => .lt
  | f :: _ => f.side

/-- A node changes places with the one above it. -/
def Links.climb (m : Links ι) (ctx : List (Frame ι)) (side : Side) (p e : ι) (b : Option ι) : Links ι :=
  (((((m.relink (up ctx) (hangs ctx) (some e)).setParent e (up ctx)).setParent p (some e)).setChild
    side.flip e (some p)).setChild
    side p b).adopt b p

variable {ctx : List (Frame ι)} {side : Side} {a b o t : BinTree ι} {e p x : ι}

theorem LinkedAround.relink {hole : Option ι} (linked : LinkedAround m ctx hole) (distinct : (around ctx).Nodup)
    (v : Option ι) : LinkedAround (m.relink (up ctx) (hangs ctx) v) ctx v := by
  cases ctx with
  | nil => trivial
  | cons f ctx =>
    obtain ⟨parent, _, other, linkedOther, rest⟩ := linked
    have parts : f.node ∉ f.other.nodes ++ around ctx := by
      rw [around_cons] at distinct
      exact (List.nodup_cons.mp distinct).1
    rw [List.mem_append, not_or] at parts
    have child : ∀ side' y, (m.relink (some f.node) f.side v).child side' y =
        if side' = f.side ∧ some f.node = some y then v else m.child side' y :=
      fun side' y => relink_child m (some f.node) f.side side' v y
    refine ⟨parent, ?_, ?_, linkedOther.frame ?_, rest.frame ?_⟩
    · exact (child _ _).trans (if_pos ⟨rfl, rfl⟩)
    · exact ((child _ _).trans (if_neg fun both => f.side.flip_ne both.1)).trans other
    · intro y member
      refine ⟨rfl, fun side' => (child _ _).trans (if_neg fun both => parts.1 ?_)⟩
      rw [Option.some.inj both.2]
      exact member
    · intro y member
      refine ⟨rfl, fun side' => (child _ _).trans (if_neg fun both => parts.2 ?_)⟩
      rw [Option.some.inj both.2]
      exact member

theorem climb_parent (m : Links ι) (ctx : List (Frame ι)) (side : Side) (p e : ι) (b : Option ι) (y : ι) :
    (m.climb ctx side p e b).parent y =
      if b = some y then some p else if y = p then some e else if y = e then up ctx else m.parent y := by
  unfold Links.climb
  rw [adopt_parent]
  simp only [setChild_parent, setParent_parent, relink_parent]

theorem climb_child (m : Links ι) (ctx : List (Frame ι)) (side : Side) (p e : ι) (b : Option ι) (side' : Side) (y : ι) :
    (m.climb ctx side p e b).child side' y =
      if side' = side ∧ y = p then b else if side' = side.flip ∧ y = e then some p
      else (m.relink (up ctx) (hangs ctx) (some e)).child side' y := by
  unfold Links.climb
  rw [adopt_child]
  simp only [setChild_child, setParent_child]

/-- The rotation of linked nodes is the rotation of the tree. -/
theorem Linked.climb (linked : Linked m none (plug (⟨side, p, o⟩ :: ctx) (build side a e b)))
    (distinct : (plug (⟨side, p, o⟩ :: ctx) (build side a e b)).nodes.Nodup) :
    Linked (m.climb ctx side p e b.root) none (plug ctx (build side a e (build side b p o))) := by
  obtain ⟨hole, sub⟩ := (linked_plug _ _).mp linked
  obtain ⟨_, _, other, linkedO, rest⟩ := hole
  obtain ⟨_, childA, _, linkedA, linkedB⟩ := linked_build.mp sub
  obtain ⟨inner, aroundP, outer⟩ := nodup_plug distinct
  obtain ⟨notA, notB, nodupA, nodupB, apartAB⟩ := nodup_build inner
  rw [around_cons] at aroundP outer
  obtain ⟨_, nodupCtx, apartOC⟩ := List.nodup_append'.mp aroundP
  have fresh : ∀ x, x = e ∨ x ∈ a.nodes ∨ x ∈ b.nodes → x ≠ p ∧ x ∉ o.nodes ∧ x ∉ around ctx := by
    intro x member
    have away := outer x (mem_build.mpr member)
    simpa [Frame.nodes, not_or, and_assoc] using away
  have pOutside : p ∉ around ctx := fun there => apartOC List.mem_cons_self there
  have pNotO : p ∉ o.nodes := by
    have here := (List.nodup_append'.mp aroundP).1
    exact (List.nodup_cons.mp here).1
  have oOutside : ∀ x ∈ o.nodes, x ∉ around ctx := fun x member there => apartOC (List.mem_cons_of_mem _ member) there
  have eFresh := fresh e (Or.inl rfl)
  have notUp : ∀ x, x ∉ around ctx → up ctx ≠ some x := fun x outside above => outside (up_mem above)
  have notB' : ∀ y, y ∉ b.nodes → b.root ≠ some y := fun y outside root => outside (root_mem root)
  have childNear : ∀ y, y ≠ p → y ≠ e → ∀ side', (m.climb ctx side p e b.root).child side' y =
      (m.relink (up ctx) (hangs ctx) (some e)).child side' y := by
    intro y notP notE side'
    rw [climb_child, if_neg fun both => notP both.2, if_neg fun both => notE both.2]
  have childFar : ∀ y, up ctx ≠ some y → ∀ side',
      (m.relink (up ctx) (hangs ctx) (some e)).child side' y = m.child side' y := by
    intro y far side'
    rw [relink_child, if_neg fun both => far both.2]
  have parentFar : ∀ y, y ≠ p → y ≠ e → b.root ≠ some y → (m.climb ctx side p e b.root).parent y = m.parent y := by
    intro y notP notE notRoot
    rw [climb_parent, if_neg notRoot, if_neg notP, if_neg notE]
  have same : ∀ y, y ≠ p → y ≠ e → y ∉ b.nodes → y ∉ around ctx → SameAt m (m.climb ctx side p e b.root) y :=
    fun y notP notE outside far => ⟨parentFar y notP notE (notB' y outside), fun side' =>
      (childNear y notP notE side').trans (childFar y (notUp y far) side')⟩
  refine (linked_plug _ _).mpr ⟨?_, linked_build.mpr ⟨?_, ?_, ?_, ?_, linked_build.mpr ⟨?_, ?_, ?_, ?_, ?_⟩⟩⟩
  · rw [root_build]
    refine (rest.relink nodupCtx (some e)).frame fun y there => ?_
    have notP : y ≠ p := fun here => pOutside (here ▸ there)
    have notE : y ≠ e := fun here => eFresh.2.2 (here ▸ there)
    refine ⟨?_, childNear y notP notE⟩
    rw [relink_parent]
    exact parentFar y notP notE (notB' y fun inside => (fresh y (Or.inr (Or.inr inside))).2.2 there)
  · rw [climb_parent, if_neg (notB' e notB), if_neg eFresh.1, if_pos rfl]
  · rw [climb_child, if_neg fun both => eFresh.1 both.2, if_neg fun both => side.flip_ne both.1.symm,
      childFar e (notUp e eFresh.2.2), childA]
  · rw [climb_child, if_neg fun both => side.flip_ne both.1, if_pos ⟨rfl, rfl⟩, root_build]
  · refine linkedA.frame fun y there => ?_
    obtain ⟨notP, _, far⟩ := fresh y (Or.inr (Or.inl there))
    exact same y notP (fun here => notA (here ▸ there)) (apartAB y there) far
  · have notRoot : b.root ≠ some p := notB' p fun inside => (fresh p (Or.inr (Or.inr inside))).1 rfl
    rw [climb_parent, if_neg notRoot, if_pos rfl]
  · rw [climb_child, if_pos ⟨rfl, rfl⟩]
  · rw [climb_child, if_neg fun both => side.flip_ne both.1, if_neg fun both => eFresh.1 both.2.symm,
      childFar p (notUp p pOutside), other]
  · refine linkedB.moved nodupB (fun y root => ?_) (fun y there notRoot => ?_) fun y there side' => ?_
    · rw [climb_parent, if_pos root]
    · exact parentFar y (fresh y (Or.inr (Or.inr there))).1 (fun here => notB (here ▸ there)) notRoot
    · obtain ⟨notP, _, far⟩ := fresh y (Or.inr (Or.inr there))
      exact (childNear y notP (fun here => notB (here ▸ there)) side').trans (childFar y (notUp y far) side')
  · refine linkedO.frame fun y there => ?_
    have notB : y ∉ b.nodes := fun inside => (fresh y (Or.inr (Or.inr inside))).2.1 there
    exact same y (fun here => pNotO (here ▸ there)) (fun here => eFresh.2.1 (here ▸ there)) notB (oOutside y there)

variable {f : Frame ι}

theorem climb_far (outside : x ∉ (plug (⟨side, p, o⟩ :: ctx) (build side a e b)).nodes) :
    SameAt m (m.climb ctx side p e b.root) x := by
  rw [(nodes_plug _ _).mem_iff, List.mem_append, mem_build, around_cons] at outside
  simp only [Frame.nodes, List.cons_append, List.mem_cons, List.mem_append, not_or] at outside
  obtain ⟨⟨notE, _, notB⟩, notP, _, notCtx⟩ := outside
  constructor
  · rw [climb_parent, if_neg fun root => notB (root_mem root), if_neg notP, if_neg notE]
  · intro side'
    rw [climb_child, if_neg fun both => notP both.2, if_neg fun both => notE both.2, relink_child,
      if_neg fun both => notCtx (up_mem both.2)]

theorem Linked.attach (linked : Linked m none (plug (f :: ctx) leaf)) (distinct : (plug (f :: ctx) leaf).nodes.Nodup)
    (fresh : e ∉ (plug (f :: ctx) leaf).nodes) (bare : ∀ side, m.child side e = none) :
    Linked ((m.setChild f.side f.node (some e)).setParent e (some f.node)) none
      (plug (f :: ctx) (build .lt leaf e leaf)) := by
  obtain ⟨hole, _⟩ := (linked_plug _ _).mp linked
  obtain ⟨_, nodup, _⟩ := nodup_plug distinct
  have outside : e ∉ around (f :: ctx) := by
    rw [(nodes_plug _ _).mem_iff] at fresh
    exact fun there => fresh (List.mem_append_right _ there)
  refine (linked_plug _ _).mpr ⟨(hole.relink nodup (some e)).frame fun y there => ?_, ?_⟩
  · have apart : y ≠ e := fun here => outside (here ▸ there)
    refine ⟨?_, fun side => rfl⟩
    rw [setParent_parent, if_neg apart, relink_parent, setChild_parent]
  · have away : ¬ e = f.node := fun here => outside (here ▸ List.mem_cons_self)
    have child : ∀ side, ((m.setChild f.side f.node (some e)).setParent e (some f.node)).child side e = none := by
      intro side
      rw [setParent_child, setChild_child, if_neg fun both => away both.2, bare]
    refine linked_build.mpr ⟨?_, child _, child _, trivial, trivial⟩
    rw [setParent_parent, if_pos rfl]
    rfl

theorem Linked.detach (linked : Linked m none (plug (f :: ctx) (build .lt leaf e leaf)))
    (distinct : (plug (f :: ctx) (build .lt leaf e leaf)).nodes.Nodup) :
    Linked ((m.setChild f.side f.node none).setParent e none) none (plug (f :: ctx) leaf) := by
  obtain ⟨hole, _⟩ := (linked_plug _ _).mp linked
  obtain ⟨_, nodup, outer⟩ := nodup_plug distinct
  have outside : e ∉ around (f :: ctx) := outer e (mem_build.mpr (Or.inl rfl))
  refine (linked_plug _ _).mpr ⟨(hole.relink nodup none).frame fun y there => ?_, trivial⟩
  have apart : y ≠ e := fun here => outside (here ▸ there)
  refine ⟨?_, fun side => rfl⟩
  rw [setParent_parent, if_neg apart, relink_parent, setChild_parent]

end Updates

end C
