import SeguridadRedes.C.Slots
import SeguridadRedes.OpenVpn.Wire

namespace OpenVpn

open C (put)

structure Timeval where
  tv_sec : Int
  tv_usec : Int
  deriving DecidableEq

def constrainInt (x min max : Int) : Int :=
  if min > max then min
  else if x < min then min
  else if x > max then max
  else x

def tvSubtract (tv1 tv2 : Timeval) (max_seconds : Int) : Int :=
  let max_usec := max_seconds * 1000000
  let sec_diff := asInt (tv1.tv_sec - tv2.tv_sec)
  if sec_diff > max_seconds + 10 then max_usec
  else if sec_diff < -(max_seconds + 10) then -max_usec
  else constrainInt (asInt (sec_diff * 1000000 + (tv1.tv_usec - tv2.tv_usec))) (-max_usec) max_usec

def TV_WITHIN_SIGMA_MAX_SEC : Int := 600

def tvWithinSigma (t1 t2 : Timeval) (sigma : Nat) : Bool :=
  let delta := tvSubtract t1 t2 TV_WITHIN_SIGMA_MAX_SEC
  decide (-asInt sigma ≤ delta ∧ delta ≤ asInt sigma)

def tvLt (t1 t2 : Timeval) : Bool :=
  if t1.tv_sec < t2.tv_sec then true
  else if t1.tv_sec > t2.tv_sec then false
  else decide (t1.tv_usec < t2.tv_usec)

variable {n : Nat}

/-- Entries are known by their places in the memory of their owners. -/
structure ScheduleEntry (n : Nat) where
  tv : Timeval
  pri : Nat
  parent : Option (Fin n)
  lt : Option (Fin n)
  gt : Option (Fin n)

structure Schedule (n : Nat) where
  earliest_wakeup : Option (Fin n)
  root : Option (Fin n)
  entries : Vector (ScheduleEntry n) n

namespace Schedule

def entry (s : Schedule n) (e : Fin n) : ScheduleEntry n := s.entries.get e

def setTv (s : Schedule n) (e : Fin n) (tv : Timeval) : Schedule n :=
  { s with entries := put s.entries e { s.entry e with tv := tv } }

def setPri (s : Schedule n) (e : Fin n) (pri : Nat) : Schedule n :=
  { s with entries := put s.entries e { s.entry e with pri := pri } }

def setParent (s : Schedule n) (e : Fin n) (parent : Option (Fin n)) : Schedule n :=
  { s with entries := put s.entries e { s.entry e with parent := parent } }

def setLt (s : Schedule n) (e : Fin n) (lt : Option (Fin n)) : Schedule n :=
  { s with entries := put s.entries e { s.entry e with lt := lt } }

def setGt (s : Schedule n) (e : Fin n) (gt : Option (Fin n)) : Schedule n :=
  { s with entries := put s.entries e { s.entry e with gt := gt } }

end Schedule

def scheduleSetPri (s : Schedule n) (e : Fin n) (random : Nat) : Schedule n :=
  s.setPri e (if random < 1 then 1 else random)

def scheduleEntryCompare (e1 e2 : ScheduleEntry n) : Int :=
  if e1.tv.tv_sec < e2.tv.tv_sec then -1
  else if e1.tv.tv_sec > e2.tv.tv_sec then 1
  else if e1.tv.tv_usec < e2.tv.tv_usec then -1
  else if e1.tv.tv_usec > e2.tv.tv_usec then 1
  else if e1.pri < e2.pri then -1
  else if e1.pri > e2.pri then 1
  else 0

/-- `none` is a failed ASSERT, here and in what follows. -/
def scheduleDetachParent (s : Schedule n) (e : Fin n) : Option (Schedule n) :=
  match (s.entry e).parent with
  | some parent =>
    if (s.entry parent).lt = some e then some ((s.setLt parent none).setParent e none)
    else if (s.entry parent).gt = some e then some ((s.setGt parent none).setParent e none)
    else none
  | none => some (if s.root = some e then { s with root := none } else s)

section Rotate

/-- If grandparent exists, modify its child link. -/
def rotateGrandparent (s : Schedule n) (gp : Option (Fin n)) (p e : Fin n) : Option (Schedule n) :=
  match gp with
  | some gp =>
    if (s.entry gp).gt = some p then some (s.setGt gp (some e))
    else if (s.entry gp).lt = some p then some (s.setLt gp (some e))
    else none
  | none => some { s with root := some e }

/-- `if (c) c->parent = p`. -/
def rotateAdopt (s : Schedule n) (c : Option (Fin n)) (p : Fin n) : Schedule n :=
  match c with
  | some c => s.setParent c (some p)
  | none => s

def scheduleRotateUp (s : Schedule n) (e : Fin n) : Option (Schedule n) :=
  match (s.entry e).parent with
  | none => some s
  | some p =>
    let lt := (s.entry e).lt
    let gt := (s.entry e).gt
    let gp := (s.entry p).parent
    match rotateGrandparent s gp p e with
    | none => none
    | some s =>
      let s := (s.setParent e gp).setParent p (some e)
      if (s.entry p).gt = some e then some (rotateAdopt ((s.setLt e (some p)).setGt p lt) lt p)
      else if (s.entry p).lt = some e then some (rotateAdopt ((s.setGt e (some p)).setLt p gt) gt p)
      else none

end Rotate

section Loops

/-- The child that `schedule_remove_node` rotates up. -/
def scheduleLesserChild (s : Schedule n) (e : Fin n) : Option (Fin n) :=
  match (s.entry e).lt, (s.entry e).gt with
  | some lt, some gt => if (s.entry lt).pri < (s.entry gt).pri then some lt else some gt
  | some lt, none => some lt
  | none, some gt => some gt
  | none, none => none

/-- A loop is given as many rounds as there are entries, and one more to end in; `none` is also one that needs more. -/
def scheduleRemoveLoop : Nat → Schedule n → Fin n → Option (Schedule n)
  | 0, _, _ => none
  | rounds + 1, s, e =>
    match scheduleLesserChild s e with
    | none => some s
    | some c => (scheduleRotateUp s c).bind fun s => scheduleRemoveLoop rounds s e

def scheduleRemoveNode (s : Schedule n) (e : Fin n) : Option (Schedule n) := do
  let s ← scheduleRemoveLoop (n + 1) s e
  let s ← scheduleDetachParent s e
  some (s.setPri e 0)

/-- The way down of `schedule_insert`; the inner `none` is a collision. -/
def scheduleInsertDown : Nat → Schedule n → Fin n → Fin n → Option (Option (Schedule n))
  | 0, _, _, _ => none
  | rounds + 1, s, e, c =>
    let comp := scheduleEntryCompare (s.entry e) (s.entry c)
    if comp = -1 then
      match (s.entry c).lt with
      | some lt => scheduleInsertDown rounds s e lt
      | none => some (some ((s.setLt c (some e)).setParent e (some c)))
    else if comp = 1 then
      match (s.entry c).gt with
      | some gt => scheduleInsertDown rounds s e gt
      | none => some (some ((s.setGt c (some e)).setParent e (some c)))
    else some none

/-- With what `random` gives until there is no collision; `none` is also too little of it. -/
def scheduleInsert (s : Schedule n) (e root : Fin n) (draws : List Nat) : Option (Schedule n) :=
  match scheduleInsertDown (n + 1) s e root with
  | none => none
  | some (some s) => some s
  | some none =>
    match draws with
    | [] => none
    | random :: draws => scheduleInsert (scheduleSetPri s e random) e root draws
termination_by structural draws

def scheduleRise : Nat → Schedule n → Fin n → Option (Schedule n)
  | 0, _, _ => none
  | rounds + 1, s, e =>
    match (s.entry e).parent with
    | none => some s
    | some parent =>
      if (s.entry parent).pri > (s.entry e).pri then (scheduleRotateUp s e).bind fun s => scheduleRise rounds s e
      else some s

/-- Trivial insert into tree, or tree was empty, we are the first element. -/
def schedulePlace (s : Schedule n) (e : Fin n) (draws : List Nat) : Option (Schedule n) :=
  match s.root with
  | some root => scheduleInsert s e root draws
  | none => some { s with root := some e }

def scheduleAddModify (s : Schedule n) (e : Fin n) (draws : List Nat) : Option (Schedule n) :=
  (if (s.entry e).pri ≠ 0 then scheduleRemoveNode s e else some s).bind fun s =>
    match draws with
    | [] => none
    | random :: draws =>
      (schedulePlace (scheduleSetPri s e random) e draws).bind fun s => scheduleRise (n + 1) s e

def scheduleFindLeastLoop : Nat → Schedule n → Fin n → Option (Fin n)
  | 0, _, _ => none
  | rounds + 1, s, e =>
    match (s.entry e).lt with
    | some lt => scheduleFindLeastLoop rounds s lt
    | none => some e

def scheduleFindLeast (s : Schedule n) (e : Option (Fin n)) : Option (Option (Fin n)) :=
  match e with
  | some e => (scheduleFindLeastLoop (n + 1) s e).map some
  | none => some none

end Loops

section Public

/-- With the entries as they are allocated. -/
def scheduleInit (n : Nat) : Schedule n := ⟨none, none, Vector.replicate n ⟨⟨0, 0⟩, 0, none, none, none⟩⟩

def scheduleRemoveEntry (s : Schedule n) (e : Fin n) : Option (Schedule n) :=
  scheduleRemoveNode { s with earliest_wakeup := none } e

def scheduleAddEntry (s : Schedule n) (e : Fin n) (tv : Timeval) (sigma : Nat) (draws : List Nat) :
    Option (Schedule n) :=
  if (s.entry e).pri = 0 ∨ sigma = 0 ∨ tvWithinSigma tv (s.entry e).tv sigma = false then do
    let s ← scheduleAddModify (s.setTv e tv) e draws
    some { s with earliest_wakeup := none }
  else some s

def scheduleGetEarliestWakeup (s : Schedule n) : Option (Schedule n × Option (Fin n × Timeval)) := do
  let s ←
    match s.earliest_wakeup with
    | none => (scheduleFindLeast s s.root).map fun least => { s with earliest_wakeup := least }
    | some _ => some s
  some (s, s.earliest_wakeup.map fun e => (e, (s.entry e).tv))

end Public

end OpenVpn
