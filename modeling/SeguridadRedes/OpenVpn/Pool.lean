import SeguridadRedes.C.Machine
import SeguridadRedes.C.Slots

namespace OpenVpn

open C (Bytes put)

section Model

inductive PoolType
  | IFCONFIG_POOL_30NET
  | IFCONFIG_POOL_INDIV
  deriving DecidableEq

def IFCONFIG_POOL_MAX : UInt32 := 65536

structure IfconfigPoolEntry where
  in_use : Bool
  common_name : Option Bytes
  last_release : Int
  fixed : Bool

def poolBase (type : PoolType) (start : UInt32) : UInt32 :=
  match type with
  | .IFCONFIG_POOL_30NET => start &&& ~~~3
  | .IFCONFIG_POOL_INDIV => start

def poolSize (type : PoolType) (start stop : UInt32) : Nat :=
  match type with
  | .IFCONFIG_POOL_30NET => ((((stop ||| 3) + 1) - poolBase type start) >>> 2).toNat
  | .IFCONFIG_POOL_INDIV => (stop - start + 1).toNat

theorem poolSize_lt {type : PoolType} {start stop : UInt32} (range : start ≤ stop ∧ stop - start < IFCONFIG_POOL_MAX) :
    poolSize type start stop < 2 ^ 30 := by
  cases type with
  | IFCONFIG_POOL_30NET =>
    have whole := (((stop ||| 3) + 1) - poolBase .IFCONFIG_POOL_30NET start).toNat_lt
    unfold poolSize
    rw [UInt32.toNat_shiftRight, Nat.shiftRight_eq_div_pow]
    change _ / 2 ^ 2 < 2 ^ 30
    omega
  | IFCONFIG_POOL_INDIV =>
    have few : (stop - start).toNat < 65536 := range.2
    unfold poolSize
    rw [UInt32.toNat_add]
    change _ % 2 ^ 32 < 2 ^ 30
    change ((stop - start).toNat + 1) % 2 ^ 32 < 2 ^ 30
    omega

structure IfconfigPool (size : Nat) where
  base : UInt32
  type : PoolType
  duplicate_cn : Bool
  list : Vector IfconfigPoolEntry size
  small : size < 2 ^ 30

/-- `none` is a failed ASSERT. -/
def ifconfigPoolInit (type : PoolType) (start stop : UInt32) (duplicate_cn : Bool) :
    Option (IfconfigPool (poolSize type start stop)) :=
  if range : start ≤ stop ∧ stop - start < IFCONFIG_POOL_MAX then
    some ⟨poolBase type start, type, duplicate_cn, Vector.replicate _ ⟨false, none, 0, false⟩, poolSize_lt range⟩
  else none

variable {size : Nat}

def ifconfigPoolEntryFree (ipe : IfconfigPoolEntry) (hard : Bool) (now : Int) : IfconfigPoolEntry :=
  { ipe with
    in_use := false
    common_name := if hard then none else ipe.common_name
    last_release := if hard then 0 else now }

structure PoolFinding (size : Nat) where
  earliest_release : Int
  previous_usage : Option (Fin size)
  new_usage : Option (Fin size)

/-- Keep track of the unused IP address entry which was released earliest. -/
def poolFindNew (ipe : IfconfigPoolEntry) (i : Fin size) (s : PoolFinding size) : PoolFinding size :=
  if (s.new_usage = none ∨ ipe.last_release < s.earliest_release) ∧ ipe.fixed = false then
    { s with earliest_release := ipe.last_release, new_usage := some i }
  else s

/-- Keep track of a possible allocation to us from an earlier session. -/
def poolFindPrevious (common_name : Option Bytes) (ipe : IfconfigPoolEntry) (i : Fin size) (s : PoolFinding size) :
    PoolFinding size :=
  if s.previous_usage = none ∧ common_name ≠ none ∧ ipe.common_name = common_name then
    { s with previous_usage := some i }
  else s

def poolFindLoop (pool : IfconfigPool size) (common_name : Option Bytes) :
    List (Fin size) → PoolFinding size → PoolFinding size
  | [], s => s
  | i :: rest, s =>
    let ipe := pool.list.get i
    if ipe.in_use then poolFindLoop pool common_name rest s
    else if pool.duplicate_cn then { s with new_usage := some i }
    else poolFindLoop pool common_name rest (poolFindPrevious common_name ipe i (poolFindNew ipe i s))

/-- `none` is -1. -/
def ifconfigPoolFind (pool : IfconfigPool size) (common_name : Option Bytes) : Option (Fin size) :=
  let s := poolFindLoop pool common_name (List.finRange size) ⟨0, none, none⟩
  match s.previous_usage with
  | some i => some i
  | none => s.new_usage

/-- What `ifconfig_pool_acquire` writes to `local` and to `remote`. -/
def poolAddresses (pool : IfconfigPool size) (i : Fin size) : UInt32 × UInt32 :=
  match pool.type with
  | .IFCONFIG_POOL_30NET =>
    let b := pool.base + UInt32.ofNat (i.val <<< 2)
    (b + 1, b + 2)
  | .IFCONFIG_POOL_INDIV => (0, pool.base + UInt32.ofNat i.val)

/-- A handle with the two addresses; the inner `none` is -1. -/
def ifconfigPoolAcquire (pool : IfconfigPool size) (common_name : Option Bytes) (now : Int) :
    Option (IfconfigPool size × Option (Fin size × UInt32 × UInt32)) :=
  match ifconfigPoolFind pool common_name with
  | some i =>
    let ipe := pool.list.get i
    if ipe.in_use then none
    else
      let ipe := { ifconfigPoolEntryFree ipe true now with in_use := true, common_name := common_name }
      some ({ pool with list := put pool.list i ipe }, some (i, poolAddresses pool i))
  | none => some (pool, none)

def ifconfigPoolRelease (pool : IfconfigPool size) (hand : Option (Fin size)) (hard : Bool) (now : Int) :
    IfconfigPool size × Bool :=
  match hand with
  | some hand =>
    ({ pool with list := put pool.list hand (ifconfigPoolEntryFree (pool.list.get hand) hard now) }, true)
  | none => (pool, false)

def ifconfigPoolIpBaseToHandle (pool : IfconfigPool size) (addr : UInt32) : Option (Fin size) :=
  let ret :=
    match pool.type with
    | .IFCONFIG_POOL_30NET => ((addr - pool.base) >>> 2).toNat
    | .IFCONFIG_POOL_INDIV => (addr - pool.base).toNat
  if inside : ret < size then some ⟨ret, inside⟩ else none

def ifconfigPoolSet (pool : IfconfigPool size) (cn : Bytes) (addr : UInt32) (fixed : Bool) (now : Int) :
    IfconfigPool size :=
  match ifconfigPoolIpBaseToHandle pool addr with
  | some h => { pool with list := put pool.list h ⟨false, some cn, now, fixed⟩ }
  | none => pool

def ifconfigPoolRead (pool : IfconfigPool size) (lines : List (Bytes × UInt32)) (fixed : Bool) (now : Int) :
    IfconfigPool size := lines.foldl (fun pool line => ifconfigPoolSet pool line.1 line.2 fixed now) pool

end Model

section Find

variable {size : Nat} {pool : IfconfigPool size} {common_name : Option Bytes} {i j : Fin size}

def IfconfigPool.Free (pool : IfconfigPool size) (i : Fin size) : Prop := (pool.list.get i).in_use = false

/-- Kept for a client from an earlier session. -/
def IfconfigPool.Kept (pool : IfconfigPool size) (common_name : Option Bytes) (i : Fin size) : Prop :=
  common_name ≠ none ∧ (pool.list.get i).common_name = common_name

/-- What the loop knows of the entries it has seen. -/
structure Sought (pool : IfconfigPool size) (common_name : Option Bytes) (seen : List (Fin size))
    (s : PoolFinding size) : Prop where
  previous : ∀ i, s.previous_usage = some i → pool.Free i ∧ pool.Kept common_name i
  nobody : s.previous_usage = none → ∀ i ∈ seen, pool.Free i → ¬ pool.Kept common_name i
  new : ∀ i, s.new_usage = some i → pool.Free i ∧ (pool.list.get i).fixed = false ∧
    s.earliest_release = (pool.list.get i).last_release
  earliest : ∀ i, s.new_usage = some i → ∀ j ∈ seen, pool.Free j → (pool.list.get j).fixed = false →
    (pool.list.get i).last_release ≤ (pool.list.get j).last_release
  nothing : s.new_usage = none → ∀ i ∈ seen, pool.Free i → (pool.list.get i).fixed = true

variable {s : PoolFinding size} {seen : List (Fin size)}

theorem Sought.skip (sought : Sought pool common_name seen s) (used : (pool.list.get i).in_use = true) :
    Sought pool common_name (i :: seen) s := by
  have known : ∀ j ∈ i :: seen, pool.Free j → j ∈ seen := by
    intro j member free
    rcases List.mem_cons.mp member with rfl | there
    · cases used.symm.trans free
    · exact there
  exact ⟨sought.previous, fun none j member free => sought.nobody none j (known j member free) free, sought.new,
    fun i found j member free => sought.earliest i found j (known j member free) free,
    fun none j member free => sought.nothing none j (known j member free) free⟩

theorem Sought.find_new (sought : Sought pool common_name seen s) (free : pool.Free i) :
    let s' := poolFindNew (pool.list.get i) i s
    s'.previous_usage = s.previous_usage ∧
      (∀ j, s'.new_usage = some j → pool.Free j ∧ (pool.list.get j).fixed = false ∧
        s'.earliest_release = (pool.list.get j).last_release) ∧
      (∀ j, s'.new_usage = some j → ∀ k ∈ i :: seen, pool.Free k → (pool.list.get k).fixed = false →
        (pool.list.get j).last_release ≤ (pool.list.get k).last_release) ∧
      (s'.new_usage = none → ∀ k ∈ i :: seen, pool.Free k → (pool.list.get k).fixed = true) := by
  unfold poolFindNew
  split
  · rename_i taken
    refine ⟨rfl, fun j found => ?_, fun j found k member freeK fluid => ?_, fun none => (by cases none)⟩
    · obtain rfl : i = j := Option.some.inj found
      exact ⟨free, taken.2, rfl⟩
    · obtain rfl : i = j := Option.some.inj found
      rcases List.mem_cons.mp member with rfl | there
      · exact le_rfl
      · rcases taken.1 with none | earlier
        · cases (sought.nothing none k there freeK).symm.trans fluid
        · cases old : s.new_usage with
          | none => cases (sought.nothing old k there freeK).symm.trans fluid
          | some m =>
            have release := (sought.new m old).2.2
            have least := sought.earliest m old k there freeK fluid
            omega
  · rename_i left
    refine ⟨rfl, sought.new, fun j found k member freeK fluid => ?_, fun none k member freeK => ?_⟩
    · rcases List.mem_cons.mp member with rfl | there
      · have release := (sought.new j found).2.2
        have late : ¬ (pool.list.get k).last_release < s.earliest_release := fun earlier => left ⟨Or.inr earlier, fluid⟩
        omega
      · exact sought.earliest j found k there freeK fluid
    · rcases List.mem_cons.mp member with rfl | there
      · by_contra fluid
        exact left ⟨Or.inl none, Bool.eq_false_of_not_eq_true fluid⟩
      · exact sought.nothing none k there freeK

theorem Sought.see (sought : Sought pool common_name seen s) (free : pool.Free i) :
    Sought pool common_name (i :: seen)
      (poolFindPrevious common_name (pool.list.get i) i (poolFindNew (pool.list.get i) i s)) := by
  obtain ⟨same, new, earliest, nothing⟩ := sought.find_new free
  unfold poolFindPrevious
  rw [same]
  split
  · rename_i kept
    refine ⟨fun j found => ?_, fun none => (by cases none), new, earliest, nothing⟩
    obtain rfl : i = j := Option.some.inj found
    exact ⟨free, kept.2⟩
  · rename_i left
    refine ⟨fun j found => sought.previous j (same ▸ found), fun none j member freeJ keptJ => ?_, new, earliest,
      nothing⟩
    rw [same] at none
    rcases List.mem_cons.mp member with rfl | there
    · exact left ⟨none, keptJ⟩
    · exact sought.nobody none j there freeJ keptJ

theorem Sought.loop (single : pool.duplicate_cn = false) {rest : List (Fin size)}
    (sought : Sought pool common_name seen s) :
    Sought pool common_name (rest.reverse ++ seen) (poolFindLoop pool common_name rest s) := by
  induction rest generalizing seen s with
  | nil => exact sought
  | cons i rest ih =>
    rw [List.reverse_cons, List.append_assoc, List.singleton_append]
    unfold poolFindLoop
    dsimp only
    split
    · rename_i used
      exact ih (sought.skip used)
    · rename_i unused
      rw [if_neg (by rw [single]; exact Bool.false_ne_true)]
      exact ih (sought.see (Bool.eq_false_of_not_eq_true unused))

/-- The entry of an earlier session, and otherwise the one that was released earliest. -/
def IfconfigPool.Preferred (pool : IfconfigPool size) (common_name : Option Bytes) (i : Fin size) : Prop :=
  pool.Kept common_name i ∨
    (∀ j, pool.Free j → ¬ pool.Kept common_name j) ∧ (pool.list.get i).fixed = false ∧ ∀ j, pool.Free j →
      (pool.list.get j).fixed = false → (pool.list.get i).last_release ≤ (pool.list.get j).last_release

theorem pool_find_single (single : pool.duplicate_cn = false) :
    (∀ i, ifconfigPoolFind pool common_name = some i → pool.Free i ∧ pool.Preferred common_name i) ∧
    (ifconfigPoolFind pool common_name = none →
      ∀ i, pool.Free i → ¬ pool.Kept common_name i ∧ (pool.list.get i).fixed = true) := by
  have start : Sought pool common_name [] ⟨0, none, none⟩ :=
    ⟨fun _ found => (by cases found), fun _ _ member => (by cases member), fun _ found => (by cases found),
      fun _ _ _ member => (by cases member), fun _ _ member => (by cases member)⟩
  have sought : Sought pool common_name _ (poolFindLoop pool common_name (List.finRange size) ⟨0, none, none⟩) :=
    start.loop single
  have everything : ∀ j, j ∈ (List.finRange size).reverse ++ [] := by simp
  unfold ifconfigPoolFind
  dsimp only
  split
  · rename_i k found
    refine ⟨fun i same => ?_, fun none => (by cases none)⟩
    obtain rfl : k = i := Option.some.inj same
    obtain ⟨free, kept⟩ := sought.previous k found
    exact ⟨free, Or.inl kept⟩
  · rename_i nobody
    have others := fun j => sought.nobody nobody j (everything j)
    refine ⟨fun i found => ?_, fun none j free => ⟨others j free, sought.nothing none j (everything j) free⟩⟩
    obtain ⟨free, fluid, _⟩ := sought.new i found
    exact ⟨free, Or.inr ⟨others, fluid, fun j => sought.earliest i found j (everything j)⟩⟩

theorem pool_find_duplicate (many : pool.duplicate_cn = true) (rest : List (Fin size)) :
    poolFindLoop pool common_name rest ⟨0, none, none⟩ =
      ⟨0, none, rest.find? fun i => !(pool.list.get i).in_use⟩ := by
  induction rest with
  | nil => rfl
  | cons i rest ih =>
    unfold poolFindLoop
    dsimp only
    by_cases used : (pool.list.get i).in_use = true
    · rw [if_pos used, ih, List.find?_cons_of_neg (by simp [used])]
    · rw [if_neg used, if_pos many, List.find?_cons_of_pos (by simp [used])]

def IfconfigPool.Reserved (pool : IfconfigPool size) (common_name : Option Bytes) (i : Fin size) : Prop :=
  pool.duplicate_cn = false ∧ (pool.list.get i).fixed = true ∧ ¬ pool.Kept common_name i

theorem pool_find_some (found : ifconfigPoolFind pool common_name = some i) :
    pool.Free i ∧ ¬ pool.Reserved common_name i ∧ (pool.duplicate_cn = false → pool.Preferred common_name i) := by
  cases many : pool.duplicate_cn with
  | false =>
    obtain ⟨free, preferred⟩ := (pool_find_single many).1 i found
    refine ⟨free, fun reserved => ?_, fun _ => preferred⟩
    rcases preferred with kept | ⟨_, fluid, _⟩
    · exact reserved.2.2 kept
    · cases fluid.symm.trans reserved.2.1
  | true =>
    unfold ifconfigPoolFind at found
    rw [pool_find_duplicate many] at found
    have free := List.find?_some found
    exact ⟨by simpa [IfconfigPool.Free] using free, fun reserved => (by cases many.symm.trans reserved.1),
      fun single => (by cases single)⟩

theorem pool_find_none (none : ifconfigPoolFind pool common_name = none) (free : pool.Free i) :
    pool.Reserved common_name i := by
  cases many : pool.duplicate_cn with
  | false =>
    obtain ⟨others, fixed⟩ := (pool_find_single many).2 none i free
    exact ⟨many, fixed, others⟩
  | true =>
    unfold ifconfigPoolFind at none
    rw [pool_find_duplicate many] at none
    have used := List.find?_eq_none.mp none i (List.mem_finRange i)
    exact absurd free (by simpa [IfconfigPool.Free] using used)

end Find

section Leases

variable {size : Nat} {pool : IfconfigPool size} {i j : Fin size}

def IfconfigPool.busy (pool : IfconfigPool size) (i : Fin size) : Bool := (pool.list.get i).in_use

theorem busy_put (pool : IfconfigPool size) (i : Fin size) (ipe : IfconfigPoolEntry) :
    IfconfigPool.busy { pool with list := put pool.list i ipe } = Function.update pool.busy i ipe.in_use := by
  funext j
  unfold IfconfigPool.busy
  rw [C.get_put, Function.update_apply]
  split <;> rfl

/-- The ASSERT does not fail, and an address is refused only when none is left. -/
theorem acquire_cases (pool : IfconfigPool size) (common_name : Option Bytes) (now : Int) :
    (∃ pool' i, ifconfigPoolAcquire pool common_name now = some (pool', some (i, poolAddresses pool i)) ∧
      pool.Free i ∧ ¬ pool.Reserved common_name i ∧ (pool.duplicate_cn = false → pool.Preferred common_name i) ∧
      pool'.busy = Function.update pool.busy i true ∧ poolAddresses pool' = poolAddresses pool) ∨
    ifconfigPoolAcquire pool common_name now = some (pool, none) ∧
      ∀ i, pool.Free i → pool.Reserved common_name i := by
  unfold ifconfigPoolAcquire
  split
  · rename_i i found
    obtain ⟨free, unreserved, preferred⟩ := pool_find_some found
    have unused : ¬ (pool.list.get i).in_use = true := by
      rw [show (pool.list.get i).in_use = false from free]
      exact Bool.false_ne_true
    dsimp only
    rw [if_neg unused]
    exact Or.inl ⟨_, i, rfl, free, unreserved, preferred, busy_put _ _ _, rfl⟩
  · rename_i none
    exact Or.inr ⟨rfl, fun i free => pool_find_none none free⟩

theorem busy_release (pool : IfconfigPool size) (i : Fin size) (hard : Bool) (now : Int) :
    (ifconfigPoolRelease pool (some i) hard now).1.busy = Function.update pool.busy i false := busy_put _ _ _

theorem poolAddresses_apart (pool : IfconfigPool size) (apart : i ≠ j) :
    (poolAddresses pool i).2 ≠ (poolAddresses pool j).2 ∧
      (pool.type = .IFCONFIG_POOL_30NET → (poolAddresses pool i).1 ≠ (poolAddresses pool j).1 ∧
        (poolAddresses pool i).1 ≠ (poolAddresses pool j).2) := by
  have small := pool.small
  have differ : i.val ≠ j.val := fun same => apart (Fin.ext same)
  have base := pool.base.toNat_lt
  unfold poolAddresses
  cases pool.type with
  | IFCONFIG_POOL_30NET =>
    simp only [ne_eq, ← UInt32.toNat_inj, UInt32.toNat_add, UInt32.toNat_ofNat', Nat.shiftLeft_eq]
    refine ⟨?_, fun _ => ⟨?_, ?_⟩⟩
    · change ¬ ((_ + _ * 4 % 2 ^ 32) % 2 ^ 32 + 2) % 2 ^ 32 = ((_ + _ * 4 % 2 ^ 32) % 2 ^ 32 + 2) % 2 ^ 32
      omega
    · change ¬ ((_ + _ * 4 % 2 ^ 32) % 2 ^ 32 + 1) % 2 ^ 32 = ((_ + _ * 4 % 2 ^ 32) % 2 ^ 32 + 1) % 2 ^ 32
      omega
    · change ¬ ((_ + _ * 4 % 2 ^ 32) % 2 ^ 32 + 1) % 2 ^ 32 = ((_ + _ * 4 % 2 ^ 32) % 2 ^ 32 + 2) % 2 ^ 32
      omega
  | IFCONFIG_POOL_INDIV =>
    refine ⟨?_, fun other => by cases other⟩
    simp only [ne_eq, ← UInt32.toNat_inj, UInt32.toNat_add, UInt32.toNat_ofNat']
    omega

end Leases

end OpenVpn
