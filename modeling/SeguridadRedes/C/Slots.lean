import Mathlib.Data.List.FinRange
import Mathlib.Data.Fintype.Pigeonhole
import Mathlib.Data.Fintype.Card
import SeguridadRedes.C.Buffer

namespace C

variable {α : Type} {n : Nat}

section Store

def put (v : Vector α n) (i : Fin n) (x : α) : Vector α n := v.set i.val x i.isLt

@[simp] theorem get_put_self (v : Vector α n) (i : Fin n) (x : α) : (put v i x).get i = x :=
  Vector.getElem_set_self i.isLt

theorem get_put (v : Vector α n) (i j : Fin n) (x : α) :
    (put v i x).get j = if j = i then x else v.get j := by
  by_cases same : j = i
  · subst same
    rw [if_pos rfl, get_put_self]
  · have apart : i.val ≠ j.val := fun h => same (Fin.ext h.symm)
    rw [if_neg same]
    exact Vector.getElem_set_ne i.isLt j.isLt apart

theorem get_mapped (f : α → α) (v : Vector α n) (i : Fin n) : (v.map f).get i = f (v.get i) :=
  Vector.getElem_map f i.isLt

theorem get_filled (x : α) (i : Fin n) : (Vector.replicate n x).get i = x :=
  Vector.getElem_replicate i.isLt

end Store

section Search

variable {v : Vector α n} {p : α → Bool}

/-- What `for (i = 0; i < n; ++i) if (p (&v[i])) return &v[i];` returns. -/
def firstSlot (v : Vector α n) (p : α → Bool) : Option (Fin n) := (List.finRange n).find? fun i => p (v.get i)

theorem firstSlot_passes {i : Fin n} (found : firstSlot v p = some i) : p (v.get i) = true := by
  unfold firstSlot at found
  simpa using List.find?_some found

theorem firstSlot_eq_none : firstSlot v p = none ↔ ∀ i, p (v.get i) = false := by
  simp [firstSlot]

def anySlot (v : Vector α n) (p : α → Bool) : Bool := (List.finRange n).any fun i => p (v.get i)

theorem anySlot_iff : anySlot v p = true ↔ ∃ i, p (v.get i) = true := by
  simp [anySlot]

theorem anySlot_eq_false : anySlot v p = false ↔ ∀ i, p (v.get i) = false := by
  simp [anySlot]

end Search

section Best

variable (v : Vector α n) (p : α → Bool) (better : α → α → Bool)

/-- One pass of a loop that keeps the passing entry no other is better than. -/
def keepBetter (best : Option (Fin n)) (i : Fin n) : Option (Fin n) :=
  if p (v.get i) then
    match best with
    | none => some i
    | some j => if better (v.get i) (v.get j) then some i else some j
  else best

def bestSlot : Option (Fin n) := (List.finRange n).foldl (keepBetter v p better) none

variable {v p better}

theorem keepBetter_isSome (best : Option (Fin n)) (i : Fin n) :
    (keepBetter v p better best i).isSome ↔ best.isSome ∨ p (v.get i) = true := by
  unfold keepBetter
  by_cases passes : p (v.get i) = true
  · rw [if_pos passes]
    cases best with
    | none => simp [passes]
    | some j => by_cases improves : better (v.get i) (v.get j) = true <;> simp [improves]
  · rw [if_neg passes]
    simp [passes]

theorem bestSlot_isSome : (bestSlot v p better).isSome ↔ ∃ i, p (v.get i) = true := by
  have fold : ∀ (l : List (Fin n)) (best : Option (Fin n)),
      (l.foldl (keepBetter v p better) best).isSome ↔ best.isSome ∨ ∃ i ∈ l, p (v.get i) = true := by
    intro l
    induction l with
    | nil => simp
    | cons i l ih =>
      intro best
      rw [List.foldl_cons, ih, keepBetter_isSome]
      simp [or_assoc]
  simp [bestSlot, fold]

theorem bestSlot_eq_none : bestSlot v p better = none ↔ ∀ i, p (v.get i) = false := by
  rw [← Option.not_isSome_iff_eq_none, bestSlot_isSome]
  simp

theorem keepBetter_cases (best : Option (Fin n)) (i : Fin n) :
    keepBetter v p better best i = best ∨ keepBetter v p better best i = some i ∧ p (v.get i) = true := by
  unfold keepBetter
  by_cases passes : p (v.get i) = true
  · rw [if_pos passes]
    cases best with
    | none => exact Or.inr ⟨rfl, passes⟩
    | some j => by_cases improves : better (v.get i) (v.get j) = true <;> simp [improves, passes]
  · rw [if_neg passes]
    exact Or.inl rfl

theorem bestSlot_passes {i : Fin n} (found : bestSlot v p better = some i) : p (v.get i) = true := by
  have fold : ∀ (l : List (Fin n)) (best : Option (Fin n)), (∀ j ∈ best, p (v.get j) = true) →
      ∀ j ∈ l.foldl (keepBetter v p better) best, p (v.get j) = true := by
    intro l
    induction l with
    | nil => exact fun best passes => passes
    | cons k l ih =>
      intro best passes
      rw [List.foldl_cons]
      apply ih
      intro j kept
      rcases keepBetter_cases best k with same | ⟨replaced, kPasses⟩
      · exact passes j (same ▸ kept)
      · rw [replaced] at kept
        have same : k = j := by simpa using kept
        exact same ▸ kPasses
  exact fold (List.finRange n) none (by simp) i found

/-- The kept entry passes, and ranks no higher than any entry the loop has seen. -/
def LeastOf (v : Vector α n) (p : α → Bool) (rank : α → Nat) (l : List (Fin n)) (i : Fin n) : Prop :=
  p (v.get i) = true ∧ ∀ j ∈ l, p (v.get j) = true → rank (v.get i) ≤ rank (v.get j)

theorem keepBetter_least {rank : α → Nat}
    (ranked : ∀ i j, p (v.get i) = true → p (v.get j) = true →
      (better (v.get i) (v.get j) = true ↔ rank (v.get i) < rank (v.get j)))
    (l : List (Fin n)) (best : Option (Fin n)) (i : Fin n) (kept : ∀ j ∈ best, LeastOf v p rank l j)
    (empty : best = none → ∀ j ∈ l, p (v.get j) = false) :
    ∀ j ∈ keepBetter v p better best i, LeastOf v p rank (i :: l) j := by
  intro j keeps
  unfold keepBetter at keeps
  by_cases passes : p (v.get i) = true
  · rw [if_pos passes] at keeps
    cases best with
    | none =>
      have same : i = j := by simpa using keeps
      subst same
      refine ⟨passes, fun k member hk => ?_⟩
      rcases List.mem_cons.mp member with rfl | member
      · exact le_rfl
      · simp [empty rfl k member] at hk
    | some b =>
      obtain ⟨bPasses, bLeast⟩ := kept b rfl
      have order := ranked i b passes bPasses
      by_cases improves : better (v.get i) (v.get b) = true
      · have same : i = j := by simpa [improves] using keeps
        subst same
        refine ⟨passes, fun k member hk => ?_⟩
        rcases List.mem_cons.mp member with rfl | member
        · exact le_rfl
        · exact le_trans (order.mp improves).le (bLeast k member hk)
      · have same : b = j := by simpa [improves] using keeps
        subst same
        refine ⟨bPasses, fun k member hk => ?_⟩
        rcases List.mem_cons.mp member with rfl | member
        · exact not_lt.mp fun h => improves (order.mpr h)
        · exact bLeast k member hk
  · rw [if_neg passes] at keeps
    obtain ⟨jPasses, jLeast⟩ := kept j keeps
    refine ⟨jPasses, fun k member hk => ?_⟩
    rcases List.mem_cons.mp member with rfl | member
    · exact absurd hk passes
    · exact jLeast k member hk

theorem bestSlot_least (rank : α → Nat)
    (ranked : ∀ i j, p (v.get i) = true → p (v.get j) = true →
      (better (v.get i) (v.get j) = true ↔ rank (v.get i) < rank (v.get j)))
    {i : Fin n} (found : bestSlot v p better = some i) :
    p (v.get i) = true ∧ ∀ j, p (v.get j) = true → rank (v.get i) ≤ rank (v.get j) := by
  have fold : ∀ (l seen : List (Fin n)) (best : Option (Fin n)),
      (∀ j ∈ best, LeastOf v p rank seen j) → (best = none → ∀ j ∈ seen, p (v.get j) = false) →
      ∀ j ∈ l.foldl (keepBetter v p better) best, LeastOf v p rank (l.reverse ++ seen) j := by
    intro l
    induction l with
    | nil => exact fun seen best kept _ => kept
    | cons k l ih =>
      intro seen best kept empty j member
      rw [List.foldl_cons] at member
      have step := ih (k :: seen) _ (keepBetter_least ranked seen best k kept empty) (by
        intro nothing m hm
        have none_passes := mt (@keepBetter_isSome α n v p better best k).mpr (by
          simp [nothing])
        rcases List.mem_cons.mp hm with rfl | hm
        · simpa using fun h => none_passes (Or.inr h)
        · exact empty (by simpa using fun h => none_passes (Or.inl h)) m hm) j member
      simpa using step
  obtain ⟨passes, least⟩ := fold (List.finRange n) [] none (by simp) (by simp) i found
  exact ⟨passes, fun j hj => least j (by simp) hj⟩

end Best

section Holders

variable {ι κ : Type} [DecidableEq ι] [DecidableEq κ] {busy : ι → Bool} {held : κ → Option ι} {i : ι} {c : κ}

/-- What is busy is held by one holder, and nothing else is held. -/
structure Holding (busy : ι → Bool) (held : κ → Option ι) : Prop where
  busy : ∀ i, busy i = true ↔ ∃ c, held c = some i
  apart : ∀ c c' i, held c = some i → held c' = some i → c = c'

theorem Holding.take (holding : Holding busy held) (free : busy i = false) (without : held c = none) :
    Holding (Function.update busy i true) (Function.update held c (some i)) := by
  have unheld : ∀ c', held c' ≠ some i := by
    intro c' holds
    rw [(holding.busy i).mpr ⟨c', holds⟩] at free
    cases free
  constructor
  · intro j
    by_cases same : j = i
    · subst same
      simp only [Function.update_self, true_iff]
      exact ⟨c, Function.update_self _ _ _⟩
    · rw [Function.update_of_ne same, holding.busy]
      constructor
      · rintro ⟨c', holds⟩
        have other : c' ≠ c := fun here => by simp [here, without] at holds
        exact ⟨c', (Function.update_of_ne other _ _).trans holds⟩
      · rintro ⟨c', holds⟩
        by_cases here : c' = c
        · rw [here, Function.update_self] at holds
          exact absurd (Option.some.inj holds).symm same
        · exact ⟨c', (Function.update_of_ne here _ _).symm.trans holds⟩
  · intro c₁ c₂ j first second
    rw [Function.update_apply] at first second
    split at first
    · rename_i here
      split at second
      · rename_i there
        exact here.trans there.symm
      · exact absurd (second.trans first.symm) (unheld c₂)
    · split at second
      · exact absurd (first.trans second.symm) (unheld c₁)
      · exact holding.apart c₁ c₂ j first second

theorem Holding.give (holding : Holding busy held) (holds : held c = some i) :
    Holding (Function.update busy i false) (Function.update held c none) := by
  have remains : ∀ c' j, Function.update held c none c' = some j ↔ held c' = some j ∧ j ≠ i := by
    intro c' j
    by_cases here : c' = c
    · subst here
      simp only [Function.update_self, holds]
      simp [eq_comm]
    · rw [Function.update_of_ne here]
      exact ⟨fun other => ⟨other, fun same => here (holding.apart c' c i (same ▸ other) holds)⟩, And.left⟩
  constructor
  · intro j
    simp only [remains]
    by_cases same : j = i
    · simp [same]
    · rw [Function.update_of_ne same, holding.busy]
      simp [same]
  · intro c₁ c₂ j first second
    exact holding.apart c₁ c₂ j ((remains c₁ j).mp first).1 ((remains c₂ j).mp second).1

end Holders

end C
