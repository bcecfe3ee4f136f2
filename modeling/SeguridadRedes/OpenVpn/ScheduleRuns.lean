import Mathlib.Data.Fintype.Card
import SeguridadRedes.C.Machine
import SeguridadRedes.OpenVpn.ScheduleTreap

namespace OpenVpn

open C (BinTree Linked Sorted runs)
open C.BinTree
open Schedule

variable {n : Nat} {s s' : Schedule n} {e c x : Fin n} {l r t : BinTree (Fin n)}

section Earliest

theorem find_least_loop {rounds : Nat} {above : Option (Fin n)} (linked : Linked s.links above (node l c r))
    (enough : (node l c r).nodes.length ≤ rounds) :
    scheduleFindLeastLoop rounds s c = (node l c r).nodes.head? := by
  induction rounds generalizing l c r above with
  | zero => simp [BinTree.nodes] at enough
  | succ rounds ih =>
    obtain ⟨_, lt, _, left, _⟩ := linked
    have child : (s.entry c).lt = l.root := lt
    unfold scheduleFindLeastLoop
    rw [child]
    rw [BinTree.nodes, List.length_append, List.length_cons] at enough
    cases l with
    | leaf => rfl
    | node ll x lr =>
      have first := ih left (by omega)
      change scheduleFindLeastLoop rounds s x = _
      rw [first]
      simp [BinTree.nodes, List.head?_append]

theorem find_least (shaped : Shaped s t) : scheduleFindLeast s s.root = some t.nodes.head? := by
  rw [shaped.root]
  cases t with
  | leaf => rfl
  | node l c r =>
    have enough := (nodes_le shaped.distinct).trans (Nat.le_succ n)
    have least := find_least_loop shaped.linked enough
    have some_least : (node l c r).nodes.head? ≠ none := by simp [BinTree.nodes]
    obtain ⟨x, first⟩ := Option.ne_none_iff_exists'.mp some_least
    unfold scheduleFindLeast
    change (scheduleFindLeastLoop (n + 1) s c).map some = _
    rw [least, first]
    rfl

/-- The tree with the cache. -/
structure Wakes (s : Schedule n) (t : BinTree (Fin n)) : Prop where
  treap : Treap s t
  cached : ∀ x, s.earliest_wakeup = some x → t.nodes.head? = some x

theorem Wakes.earliest (wakes : Wakes s t) :
    ∃ s', scheduleGetEarliestWakeup s = some (s', t.nodes.head?.map fun e => (e, s.tv e)) ∧ Wakes s' t ∧
      s'.tv = s.tv ∧ s'.pri = s.pri := by
  unfold scheduleGetEarliestWakeup
  cases cache : s.earliest_wakeup with
  | some x =>
    have first := wakes.cached x cache
    refine ⟨s, ?_, wakes, rfl, rfl⟩
    simp only [Option.bind_eq_bind, Option.bind_some, cache, first]
    rfl
  | none =>
    have shaped : Shaped { s with earliest_wakeup := t.nodes.head? } t := wakes.treap.shaped.of_links rfl rfl
    refine ⟨{ s with earliest_wakeup := t.nodes.head? }, ?_, ⟨⟨shaped, wakes.treap.sorted, wakes.treap.heaped,
      wakes.treap.present⟩, fun x same => same⟩, rfl, rfl⟩
    simp only [find_least wakes.treap.shaped]
    rfl

end Earliest

section Plan

inductive ScheduleAction (n : Nat)
  | add (e : Fin n) (tv : Timeval) (sigma : Nat) (draws : List Nat)
  | remove (e : Fin n)
  | earliest

def Schedule.step (s : Schedule n) : ScheduleAction n → Option (Schedule n)
  | .add e tv sigma draws => scheduleAddEntry s e tv sigma draws
  | .remove e => scheduleRemoveEntry s e
  | .earliest => (scheduleGetEarliestWakeup s).map Prod.fst

/-- The time an entry waits for, when a new one is asked for. -/
def rescheduled (old : Option Timeval) (tv : Timeval) (sigma : Nat) : Timeval :=
  match old with
  | some old => if sigma = 0 ∨ tvWithinSigma tv old sigma = false then tv else old
  | none => tv

/-- What a scheduler is for: which entry waits, and for what time. -/
def plan (planned : Fin n → Option Timeval) : ScheduleAction n → Fin n → Option Timeval
  | .add e tv sigma _ => Function.update planned e (some (rescheduled (planned e) tv sigma))
  | .remove e => Function.update planned e none
  | .earliest => planned

def Schedule.waits (s : Schedule n) (x : Fin n) : Option Timeval := if s.pri x = 0 then none else some (s.tv x)

/-- Enough different numbers are drawn for one of them to be no entry's priority. -/
def ScheduleAction.Plentiful : ScheduleAction n → Prop
  | .add _ _ _ draws => draws.Nodup ∧ n + 1 < draws.length
  | _ => True

theorem plentiful_draws (s : Schedule n) {draws : List Nat} (distinct : draws.Nodup) (many : n + 1 < draws.length) :
    ∃ number ∈ draws, ∀ x, s.pri x ≠ drawnPri number := by
  by_contra taken
  push Not at taken
  have inside : draws.toFinset.erase 0 ⊆ Finset.univ.image s.pri := by
    intro number member
    obtain ⟨positive, drawn⟩ := Finset.mem_erase.mp member
    obtain ⟨x, same⟩ := taken number (List.mem_toFinset.mp drawn)
    have itself : drawnPri number = number := if_neg (by omega)
    exact Finset.mem_image.mpr ⟨x, Finset.mem_univ x, same.trans itself⟩
  have few := (Finset.card_le_card inside).trans Finset.card_image_le
  have most := Finset.pred_card_le_card_erase (a := 0) (s := draws.toFinset)
  rw [List.toFinset_card_of_nodup distinct] at most
  rw [Finset.card_univ, Fintype.card_fin] at few
  omega

theorem waits_ne_none : s.waits x ≠ none ↔ s.pri x ≠ 0 := by
  unfold Schedule.waits
  split <;> simp_all

theorem rescheduled_waits (s : Schedule n) (e : Fin n) (tv : Timeval) (sigma : Nat) :
    rescheduled (s.waits e) tv sigma =
      if (s.entry e).pri = 0 ∨ sigma = 0 ∨ tvWithinSigma tv (s.entry e).tv sigma = false then tv else s.tv e := by
  unfold Schedule.waits rescheduled
  by_cases outside : s.pri e = 0
  · have pri : (s.entry e).pri = 0 := outside
    rw [if_pos outside, if_pos (Or.inl pri)]
  · have pri : (s.entry e).pri ≠ 0 := outside
    rw [if_neg outside]
    simp only [pri, false_or]
    rfl

theorem Wakes.add (wakes : Wakes s t) (e : Fin n) (tv : Timeval) (sigma : Nat) (draws : List Nat) :
    scheduleAddEntry s e tv sigma draws = none ∧ ¬ (draws.Nodup ∧ n + 1 < draws.length) ∨
      ∃ s' t', scheduleAddEntry s e tv sigma draws = some s' ∧ Wakes s' t' ∧
        s'.waits = Function.update s.waits e (some (rescheduled (s.waits e) tv sigma)) := by
  rw [rescheduled_waits]
  unfold scheduleAddEntry
  split
  · rcases add_modify wakes.treap e tv draws with ⟨failed, exhausted⟩ | ⟨s₁, t₁, added, treap, times, priority⟩
    · rw [failed]
      refine Or.inl ⟨rfl, fun ⟨distinct, many⟩ => ?_⟩
      obtain ⟨number, member, free⟩ := plentiful_draws s distinct many
      obtain ⟨x, _, taken⟩ := exhausted number member
      exact free x taken
    · rw [added]
      have shaped : Shaped { s₁ with earliest_wakeup := none } t₁ := treap.shaped.of_links rfl rfl
      refine Or.inr ⟨{ s₁ with earliest_wakeup := none }, t₁, rfl, ⟨⟨shaped, treap.sorted, treap.heaped, treap.present⟩,
        fun x impossible => by cases impossible⟩, funext fun x => ?_⟩
      change s₁.waits x = _
      unfold Schedule.waits
      rw [times]
      by_cases here : x = e
      · subst here
        rw [if_neg ((priority x).mpr (Or.inl rfl)), Function.update_self, Function.update_self]
      · rw [Function.update_of_ne here, Function.update_of_ne here]
        have same : s₁.pri x = 0 ↔ s.pri x = 0 := by
          have both := priority x
          simp only [here, false_or] at both
          exact not_iff_not.mp both
        simp only [same]
  · rename_i settled
    refine Or.inr ⟨s, t, rfl, wakes, ?_⟩
    have inside : s.pri e ≠ 0 := fun outside => settled (Or.inl outside)
    have here : s.waits e = some (s.tv e) := if_neg inside
    rw [← here, Function.update_eq_self]

theorem Wakes.remove (wakes : Wakes s t) (e : Fin n) :
    ∃ s' t', scheduleRemoveEntry s e = some s' ∧ Wakes s' t' ∧ s'.waits = Function.update s.waits e none := by
  have shaped : Shaped { s with earliest_wakeup := none } t := wakes.treap.shaped.of_links rfl rfl
  obtain ⟨s', t', removed, shaped', heaped, fewer, among, spares, gone⟩ := remove_node shaped wakes.treap.heaped e
  have sorted : Sorted s.key t' := List.Pairwise.sublist fewer wakes.treap.sorted
  have pri : ∀ x ≠ e, s'.pri x = s.pri x := spares.pri
  refine ⟨s', t', removed, ⟨⟨shaped', ?_, heaped, fun x => ?_⟩, fun x cached => ?_⟩, funext fun x => ?_⟩
  · exact sorted.congr fun x member => spares.key ((among x).mp member).2
  · rw [among, wakes.treap.present]
    by_cases here : x = e
    · subst here
      simp [gone]
    · rw [pri x here]
      exact and_iff_left here
  · rw [spares.earliest] at cached
    cases cached
  · have times : s'.tv x = s.tv x := congrFun spares.tv x
    unfold Schedule.waits
    by_cases here : x = e
    · subst here
      rw [if_pos gone, Function.update_self]
    · rw [Function.update_of_ne here, pri x here, times]

theorem Wakes.step (wakes : Wakes s t) (action : ScheduleAction n) :
    s.step action = none ∧ ¬ action.Plentiful ∨
      ∃ s' t', s.step action = some s' ∧ Wakes s' t' ∧ s'.waits = plan s.waits action := by
  cases action with
  | add e tv sigma draws => exact wakes.add e tv sigma draws
  | remove e => exact Or.inr (wakes.remove e)
  | earliest =>
    obtain ⟨s', found, wakes', times, priorities⟩ := wakes.earliest
    refine Or.inr ⟨s', t, ?_, wakes', funext fun x => ?_⟩
    · change (scheduleGetEarliestWakeup s).map Prod.fst = some s'
      rw [found]
      rfl
    · change s'.waits x = s.waits x
      unfold Schedule.waits
      rw [times, priorities]

theorem wakes_init (n : Nat) : Wakes (scheduleInit n) leaf := by
  have bare : ∀ x, (scheduleInit n).entry x = ⟨⟨0, 0⟩, 0, none, none, none⟩ := fun x =>
    Vector.getElem_replicate x.isLt
  refine ⟨⟨⟨rfl, trivial, List.nodup_nil, fun x _ => ?_, fun x _ side => ?_⟩, List.Pairwise.nil, trivial, fun x => ?_⟩,
    fun x impossible => by cases impossible⟩
  · exact congrArg ScheduleEntry.parent (bare x)
  · cases side with
    | lt => exact congrArg ScheduleEntry.lt (bare x)
    | gt => exact congrArg ScheduleEntry.gt (bare x)
  · have pri : (scheduleInit n).pri x = 0 := congrArg ScheduleEntry.pri (bare x)
    simp [BinTree.nodes, pri]

/-- What is to be waited for after all of the actions. -/
def planned (actions : List (ScheduleAction n)) : Fin n → Option Timeval := actions.foldl plan fun _ => none

theorem waits_init (n : Nat) : (scheduleInit n).waits = fun _ => none := by
  funext x
  have absent : x ∉ (leaf : BinTree (Fin n)).nodes := by simp [BinTree.nodes]
  exact if_pos (not_not.mp fun inside => absent (((wakes_init n).treap.present x).mpr inside))

theorem Wakes.runs (wakes : Wakes s t) (actions : List (ScheduleAction n)) :
    C.runs Schedule.step s actions = none ∧ ¬ (∀ action ∈ actions, action.Plentiful) ∨
      ∃ s' t', C.runs Schedule.step s actions = some s' ∧ Wakes s' t' ∧ s'.waits = actions.foldl plan s.waits := by
  induction actions generalizing s t with
  | nil => exact Or.inr ⟨s, t, rfl, wakes, rfl⟩
  | cons action actions ih =>
    rw [C.runs_cons]
    rcases wakes.step action with ⟨failed, scarce⟩ | ⟨s₁, t₁, stepped, wakes₁, waits₁⟩
    · rw [failed]
      exact Or.inl ⟨rfl, fun plentiful => scarce (plentiful action List.mem_cons_self)⟩
    · rw [stepped, Option.bind_some, List.foldl_cons, ← waits₁]
      rcases ih wakes₁ with ⟨failed, scarce⟩ | later
      · exact Or.inl ⟨failed, fun plentiful => scarce fun a member => plentiful a (List.mem_cons_of_mem _ member)⟩
      · exact Or.inr later

end Plan

section Runs

variable {actions : List (ScheduleAction n)}

theorem key_le {y : Fin n} (le : s.key x ≤ s.key y) :
    tvLt (s.tv y) (s.tv x) = false ∧ (s.tv y = s.tv x → s.pri x ≤ s.pri y) := by
  unfold Schedule.key at le
  simp only [Prod.Lex.toLex_le_toLex] at le
  constructor
  · unfold tvLt
    split
    · omega
    · split
      · rfl
      · exact decide_eq_false (by omega)
  · intro same
    rw [same] at le
    omega

/-- Nothing waits for an earlier time; of entries that wait for the same one, it has the least priority. -/
def IsEarliest (pri : Fin n → Nat) (waiting : Fin n → Option Timeval) : Option (Fin n × Timeval) → Prop
  | none => ∀ x, waiting x = none
  | some (e, tv) => waiting e = some tv ∧
      ∀ x tv', waiting x = some tv' → tvLt tv' tv = false ∧ (tv' = tv → pri e ≤ pri x)

theorem Wakes.least (wakes : Wakes s t) :
    ∃ s' found, scheduleGetEarliestWakeup s = some (s', found) ∧ IsEarliest s.pri s.waits found := by
  obtain ⟨s', found, _⟩ := wakes.earliest
  refine ⟨s', _, found, ?_⟩
  cases first : t.nodes.head? with
  | none =>
    intro x
    have absent : x ∉ t.nodes := by simp [List.head?_eq_none_iff.mp first]
    exact if_pos (not_not.mp fun inside => absent ((wakes.treap.present x).mpr inside))
  | some e =>
    have inside := (wakes.treap.present e).mp (List.mem_of_head? first)
    refine ⟨if_neg inside, fun x tv' waiting => ?_⟩
    have there : s.pri x ≠ 0 := waits_ne_none.mp (by simp [waiting])
    have time : s.tv x = tv' := Option.some.inj ((if_neg there).symm.trans waiting)
    rw [← time]
    exact key_le (C.sorted_least wakes.treap.sorted first x ((wakes.treap.present x).mpr there))

theorem wakes_of_run (ran : runs Schedule.step (scheduleInit n) actions = some s) :
    ∃ t, Wakes s t ∧ s.waits = planned actions := by
  rcases (wakes_init n).runs actions with ⟨failed, _⟩ | ⟨s', t, reached, wakes, waits⟩
  · rw [ran] at failed
    cases failed
  · obtain rfl := Option.some.inj (ran.symm.trans reached)
    rw [waits_init] at waits
    exact ⟨t, wakes, waits⟩

/-- Whatever was added, moved and removed before. -/
theorem earliest_in_every_run (ran : runs Schedule.step (scheduleInit n) actions = some s) :
    ∃ s' found, scheduleGetEarliestWakeup s = some (s', found) ∧ IsEarliest s.pri (planned actions) found := by
  obtain ⟨t, wakes, waits⟩ := wakes_of_run ran
  rw [← waits]
  exact wakes.least

def sampleActions : List (ScheduleAction 3) :=
  [.add 0 ⟨30, 0⟩ 0 [7, 8, 9, 10, 11], .add 1 ⟨20, 5⟩ 0 [7, 3, 1, 2, 4], .earliest, .add 2 ⟨20, 5⟩ 0 [3, 9, 6, 5, 4],
    .add 1 ⟨20, 9⟩ 10 [5, 6, 7, 8, 9], .add 0 ⟨10, 0⟩ 10 [1, 2, 3, 4, 5], .remove 0, .earliest]

theorem sample_earliest : ∃ s s' found, runs Schedule.step (scheduleInit 3) sampleActions = some s ∧
    scheduleGetEarliestWakeup s = some (s', found) ∧ IsEarliest s.pri (planned sampleActions) found := by
  obtain ⟨s, ran⟩ := Option.isSome_iff_exists.mp
    (show (runs Schedule.step (scheduleInit 3) sampleActions).isSome = true by decide)
  obtain ⟨s', found, got, least⟩ := earliest_in_every_run ran
  exact ⟨s, s', found, ran, got, least⟩

/-- No ASSERT fails, every loop ends, and the links make a treap of what is waited for. -/
theorem treap_in_every_run (plentiful : ∀ action ∈ actions, action.Plentiful) :
    ∃ s t, runs Schedule.step (scheduleInit n) actions = some s ∧ Treap s t ∧ s.waits = planned actions ∧
      ∀ x, x ∈ t.nodes ↔ planned actions x ≠ none := by
  rcases (wakes_init n).runs actions with ⟨_, scarce⟩ | ⟨s, t, reached, wakes, waits⟩
  · exact absurd plentiful scarce
  · rw [waits_init] at waits
    refine ⟨s, t, reached, wakes.treap, waits, fun x => ?_⟩
    have same : s.waits x = planned actions x := congrFun waits x
    rw [wakes.treap.present, ← same, waits_ne_none]

theorem sample_treap : (∀ action ∈ sampleActions, action.Plentiful) ∧
    ∃ s t, runs Schedule.step (scheduleInit 3) sampleActions = some s ∧ Treap s t ∧ s.waits = planned sampleActions ∧
      ∀ x, x ∈ t.nodes ↔ planned sampleActions x ≠ none := by
  have plentiful : ∀ action ∈ sampleActions, action.Plentiful := by
    simp [sampleActions, ScheduleAction.Plentiful]
  exact ⟨plentiful, treap_in_every_run plentiful⟩

end Runs

end OpenVpn
