import SeguridadRedes.OpenVpn.Pool

namespace OpenVpn

open C (Bytes Holding runs)

variable {size : Nat} {Client : Type}

section Server

variable [DecidableEq Client]

/-- `vaddr_handle` of every instance, with the addresses that came with it. -/
structure PoolServer (size : Nat) (Client : Type) where
  pool : IfconfigPool size
  vaddr : Client → Option (Fin size × UInt32 × UInt32)

def PoolServer.vaddrHandle (s : PoolServer size Client) (mi : Client) : Option (Fin size) := (s.vaddr mi).map Prod.fst

def multiSelectVirtualAddr (s : PoolServer size Client) (mi : Client) (push_ifconfig_defined : Bool)
    (common_name : Option Bytes) (now : Int) : Option (PoolServer size Client) :=
  if push_ifconfig_defined then
    match s.vaddrHandle mi with
    | some hand =>
      some ⟨(ifconfigPoolRelease s.pool (some hand) true now).1, Function.update s.vaddr mi none⟩
    | none => some s
  else
    match s.vaddrHandle mi with
    | some _ => some s
    | none =>
      let cn := if s.pool.duplicate_cn then none else common_name
      (ifconfigPoolAcquire s.pool cn now).map fun got => ⟨got.1, Function.update s.vaddr mi got.2⟩

/-- The instance is gone afterwards; another may come in its place. -/
def multiCloseInstance (s : PoolServer size Client) (mi : Client) (now : Int) : PoolServer size Client :=
  ⟨(ifconfigPoolRelease s.pool (s.vaddrHandle mi) false now).1, Function.update s.vaddr mi none⟩

inductive PoolAction (Client : Type)
  | select (mi : Client) (push_ifconfig_defined : Bool) (common_name : Option Bytes) (now : Int)
  | close (mi : Client) (now : Int)

def PoolServer.step (s : PoolServer size Client) : PoolAction Client → Option (PoolServer size Client)
  | .select mi push_ifconfig_defined common_name now =>
    multiSelectVirtualAddr s mi push_ifconfig_defined common_name now
  | .close mi now => some (multiCloseInstance s mi now)

end Server

section Leases

variable [DecidableEq Client] {s : PoolServer size Client} {mi : Client} {i : Fin size}

/-- What is in use is leased to one instance, with its addresses. -/
structure Leases (s : PoolServer size Client) : Prop where
  holding : Holding s.pool.busy s.vaddrHandle
  addresses : ∀ mi lease, s.vaddr mi = some lease → lease.2 = poolAddresses s.pool lease.1

theorem handle_update (s : PoolServer size Client) (pool : IfconfigPool size) (mi : Client)
    (lease : Option (Fin size × UInt32 × UInt32)) :
    PoolServer.vaddrHandle ⟨pool, Function.update s.vaddr mi lease⟩ =
      Function.update s.vaddrHandle mi (lease.map Prod.fst) := by
  funext c
  unfold PoolServer.vaddrHandle
  dsimp only
  rw [Function.update_apply, Function.update_apply]
  split <;> rfl

theorem vaddr_without (without : s.vaddrHandle mi = none) : Function.update s.vaddr mi none = s.vaddr := by
  have nothing : s.vaddr mi = none := Option.map_eq_none_iff.mp without
  rw [← nothing, Function.update_eq_self]

theorem Leases.give (leases : Leases s) (holds : s.vaddrHandle mi = some i) (hard : Bool) (now : Int) :
    Leases ⟨(ifconfigPoolRelease s.pool (some i) hard now).1, Function.update s.vaddr mi none⟩ := by
  constructor
  · rw [handle_update, busy_release]
    exact leases.holding.give holds
  · intro c lease leased
    dsimp only at leased
    rw [Function.update_apply] at leased
    split at leased
    · cases leased
    · exact leases.addresses c lease leased

theorem Leases.select (leases : Leases s) (mi : Client) (push_ifconfig_defined : Bool) (common_name : Option Bytes)
    (now : Int) :
    ∃ s', multiSelectVirtualAddr s mi push_ifconfig_defined common_name now = some s' ∧ Leases s' := by
  unfold multiSelectVirtualAddr
  split
  · split
    · rename_i hand holds
      exact ⟨_, rfl, leases.give holds true now⟩
    · exact ⟨s, rfl, leases⟩
  · split
    · exact ⟨s, rfl, leases⟩
    · rename_i without
      dsimp only
      rcases acquire_cases s.pool (if s.pool.duplicate_cn = true then none else common_name) now with
        ⟨pool', i, acquired, free, _, _, busy, same⟩ | ⟨refused, _⟩
      · rw [acquired]
        refine ⟨_, rfl, ?_, fun c lease leased => ?_⟩
        · rw [handle_update]
          dsimp only
          rw [busy]
          exact leases.holding.take free without
        · dsimp only at leased ⊢
          rw [same]
          rw [Function.update_apply] at leased
          split at leased
          · cases leased
            rfl
          · exact leases.addresses c lease leased
      · rw [refused]
        refine ⟨_, rfl, ?_⟩
        dsimp only
        rw [vaddr_without without]
        exact leases

theorem Leases.close (leases : Leases s) (mi : Client) (now : Int) : Leases (multiCloseInstance s mi now) := by
  unfold multiCloseInstance
  cases holds : s.vaddrHandle mi with
  | some i => exact leases.give holds false now
  | none =>
    rw [vaddr_without holds]
    exact leases

theorem Leases.step (s : PoolServer size Client) (action : PoolAction Client) (leases : Leases s) :
    ∃ s', s.step action = some s' ∧ Leases s' := by
  cases action with
  | select mi push_ifconfig_defined common_name now =>
    exact leases.select mi push_ifconfig_defined common_name now
  | close mi now => exact ⟨_, rfl, leases.close mi now⟩

end Leases

section Start

variable {pool : IfconfigPool size}

theorem busy_init {type : PoolType} {start stop : UInt32} {duplicate_cn : Bool}
    {pool : IfconfigPool (poolSize type start stop)}
    (made : ifconfigPoolInit type start stop duplicate_cn = some pool) (i : Fin (poolSize type start stop)) :
    pool.busy i = false := by
  unfold ifconfigPoolInit at made
  split at made
  · cases made
    unfold IfconfigPool.busy
    rw [C.get_filled]
  · cases made

theorem busy_read (idle : ∀ i, pool.busy i = false) (lines : List (Bytes × UInt32)) (fixed : Bool) (now : Int)
    (i : Fin size) : (ifconfigPoolRead pool lines fixed now).busy i = false := by
  induction lines generalizing pool with
  | nil => exact idle i
  | cons line lines ih =>
    refine @ih (ifconfigPoolSet pool line.1 line.2 fixed now) fun j => ?_
    unfold ifconfigPoolSet
    split
    · rw [busy_put, Function.update_apply]
      split
      · rfl
      · exact idle j
    · exact idle j

theorem leases_start (idle : ∀ i, pool.busy i = false) : Leases (⟨pool, fun _ => none⟩ : PoolServer size Client) := by
  refine ⟨⟨fun i => ?_, fun _ _ _ held => (by cases held)⟩, fun _ _ leased => (by cases leased)⟩
  constructor
  · intro busy
    cases (idle i).symm.trans busy
  · rintro ⟨_, held⟩
    cases held

/-- No address is given to two, none is lost, and the next client gets the one that it is to get while one is left. -/
structure Leased (s : PoolServer size Client) : Prop where
  apart : ∀ c c' lease lease', s.vaddr c = some lease → s.vaddr c' = some lease' → c ≠ c' →
    lease.2.2 ≠ lease'.2.2 ∧ (s.pool.type = .IFCONFIG_POOL_30NET → lease.2.1 ≠ lease'.2.1 ∧ lease.2.1 ≠ lease'.2.2)
  used : ∀ i, s.pool.busy i = true ↔ ∃ c, s.vaddrHandle c = some i
  next : ∀ common_name now, ∃ pool' lease, ifconfigPoolAcquire s.pool common_name now = some (pool', lease) ∧
    (lease = none ↔ ∀ i, (∃ c, s.vaddrHandle c = some i) ∨ s.pool.Reserved common_name i) ∧
    (s.pool.duplicate_cn = false → ∀ given ∈ lease, s.pool.Preferred common_name given.1)

theorem Leases.leased {s : PoolServer size Client} (leases : Leases s) : Leased s := by
  refine ⟨fun c c' lease lease' first second apart => ?_, leases.holding.busy, fun common_name now => ?_⟩
  · have differ : lease.1 ≠ lease'.1 := by
      intro same
      have held : s.vaddrHandle c = some lease.1 := congrArg (Option.map Prod.fst) first
      have held' : s.vaddrHandle c' = some lease'.1 := congrArg (Option.map Prod.fst) second
      exact apart (leases.holding.apart c c' lease.1 held (same ▸ held'))
    rw [leases.addresses c lease first, leases.addresses c' lease' second]
    exact poolAddresses_apart s.pool differ
  · rcases acquire_cases s.pool common_name now with ⟨pool', i, acquired, free, unreserved, preferred, _⟩ |
      ⟨refused, full⟩
    · refine ⟨pool', _, acquired, ⟨fun none => (by cases none), fun full => ?_⟩, fun single given member => ?_⟩
      · rcases full i with held | reserved
        · cases free.symm.trans ((leases.holding.busy i).mpr held)
        · exact absurd reserved unreserved
      · cases member
        exact preferred single
    · refine ⟨s.pool, none, refused, ⟨fun _ i => ?_, fun _ => rfl⟩, fun _ _ member => (by cases member)⟩
      cases busy : s.pool.busy i with
      | true => exact Or.inl ((leases.holding.busy i).mp busy)
      | false => exact Or.inr (full i busy)

/-- Whatever is read from the file, and whoever comes and goes. -/
theorem leased_in_every_run [DecidableEq Client] {type : PoolType} {start stop : UInt32} {duplicate_cn : Bool}
    {pool : IfconfigPool (poolSize type start stop)}
    (made : ifconfigPoolInit type start stop duplicate_cn = some pool) (lines : List (Bytes × UInt32)) (fixed : Bool)
    (now : Int) (actions : List (PoolAction Client)) :
    ∃ s, runs PoolServer.step ⟨ifconfigPoolRead pool lines fixed now, fun _ => none⟩ actions = some s ∧ Leased s := by
  have idle := busy_read (busy_init made) lines fixed now
  obtain ⟨s, ran, leases⟩ := C.runs_live Leases.step (leases_start idle) actions
  exact ⟨s, ran, leases.leased⟩

theorem sample_leased : ∃ pool s, ifconfigPoolInit .IFCONFIG_POOL_30NET 8 15 false = some pool ∧
    runs PoolServer.step ⟨ifconfigPoolRead pool [([97], 12)] false 5, fun _ => none⟩
      [.select 1 false (some [97]) 6, .select 2 false (some [98]) 7, .select 3 false none 8, .close 1 9,
        .select 3 false (some [97]) 10] = some s ∧ Leased (s : PoolServer _ Nat) := by
  obtain ⟨pool, made⟩ := Option.isSome_iff_exists.mp
    (show (ifconfigPoolInit .IFCONFIG_POOL_30NET 8 15 false).isSome = true by decide)
  obtain ⟨s, ran, leased⟩ := @leased_in_every_run Nat _ _ _ _ _ pool made [([97], 12)] false 5
    [.select 1 false (some [97]) 6, .select 2 false (some [98]) 7, .select 3 false none 8, .close 1 9,
      .select 3 false (some [97]) 10]
  exact ⟨pool, s, made, ran, leased⟩

end Start

end OpenVpn
