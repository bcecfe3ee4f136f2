import Mathlib.Data.List.Basic

namespace C

abbrev Bytes := List UInt8

/-- What a piece of a C program did, in order, and whether it goes on with a value or has ended
    the process with an exit status. -/
structure Proc (ε α : Type) where
  trace : List ε
  result : Except Nat α

namespace Proc

variable {ε α β γ : Type}

def emit (event : ε) : Proc ε Unit := ⟨[event], .ok ()⟩

def exit (status : Nat) : Proc ε α := ⟨[], .error status⟩

def bind (p : Proc ε α) (f : α → Proc ε β) : Proc ε β :=
  match p.result with
  | .ok a => ⟨p.trace ++ (f a).trace, (f a).result⟩
  | .error status => ⟨p.trace, .error status⟩

instance : Monad (Proc ε) where
  pure a := ⟨[], .ok a⟩
  bind := bind

theorem ext {p q : Proc ε α} (trace : p.trace = q.trace) (result : p.result = q.result) : p = q := by
  cases p
  cases q
  simp_all

theorem pure_def (a : α) : (pure a : Proc ε α) = ⟨[], .ok a⟩ := rfl

theorem bind_def (p : Proc ε α) (f : α → Proc ε β) : p >>= f = p.bind f := rfl

@[simp] theorem trace_pure (a : α) : (pure a : Proc ε α).trace = [] := rfl
@[simp] theorem result_pure (a : α) : (pure a : Proc ε α).result = .ok a := rfl
@[simp] theorem trace_emit (event : ε) : (emit event).trace = [event] := rfl
@[simp] theorem result_emit (event : ε) : (emit event).result = .ok () := rfl
@[simp] theorem trace_exit (status : Nat) : (exit status : Proc ε α).trace = [] := rfl
@[simp] theorem result_exit (status : Nat) : (exit status : Proc ε α).result = .error status := rfl

@[simp] theorem ok_bind (trace : List ε) (a : α) (f : α → Proc ε β) :
    (⟨trace, .ok a⟩ : Proc ε α) >>= f = ⟨trace ++ (f a).trace, (f a).result⟩ := rfl

@[simp] theorem error_bind (trace : List ε) (status : Nat) (f : α → Proc ε β) :
    (⟨trace, .error status⟩ : Proc ε α) >>= f = ⟨trace, .error status⟩ := rfl

@[simp] theorem emit_bind (event : ε) (f : Unit → Proc ε β) :
    emit event >>= f = ⟨event :: (f ()).trace, (f ()).result⟩ := rfl

@[simp] theorem exit_bind (status : Nat) (f : α → Proc ε β) :
    (exit status : Proc ε α) >>= f = exit status := rfl

theorem bind_of_ok {p : Proc ε α} {a : α} (f : α → Proc ε β) (h : p.result = .ok a) :
    p >>= f = ⟨p.trace ++ (f a).trace, (f a).result⟩ := by
  rw [bind_def, bind, h]

theorem bind_of_error {p : Proc ε α} {status : Nat} (f : α → Proc ε β) (h : p.result = .error status) :
    p >>= f = ⟨p.trace, .error status⟩ := by
  rw [bind_def, bind, h]

theorem bind_nested (p : Proc ε α) (f : α → Proc ε β) (g : β → Proc ε γ) :
    p >>= f >>= g = p >>= fun a => f a >>= g := by
  obtain ⟨trace, result⟩ := p
  cases result with
  | error status => simp
  | ok a =>
    cases h : (f a).result with
    | error status => simp [h, bind_of_error g h]
    | ok b => simp [h, bind_of_ok g h]

instance : LawfulMonad (Proc ε) :=
  LawfulMonad.mk' (Proc ε)
    (by
      intro α p
      obtain ⟨trace, result⟩ := p
      cases result <;> simp [Functor.map, bind])
    (by
      intro α β a f
      apply ext <;> simp [pure_def])
    bind_nested

def status (p : Proc ε Empty) : Nat :=
  match p.result with
  | .error status => status

@[simp] theorem status_error (trace : List ε) (code : Nat) :
    status (⟨trace, .error code⟩ : Proc ε Empty) = code := rfl

@[simp] theorem status_exit (code : Nat) : status (exit code : Proc ε Empty) = code := rfl

theorem status_eq_iff {p : Proc ε Empty} {code : Nat} : p.status = code ↔ p.result = .error code := by
  obtain ⟨trace, result⟩ := p
  cases result with
  | error found => simp
  | ok value => exact value.elim

section Emits

variable {P : ε → Prop}

/-- Every event of a piece of a program satisfies a property. -/
def Emits (P : ε → Prop) (p : Proc ε α) : Prop := ∀ event ∈ p.trace, P event

theorem emits_pure (a : α) : Emits P (pure a : Proc ε α) := fun _ member => by cases member

theorem emits_exit (code : Nat) : Emits P (exit code : Proc ε α) := fun _ member => by cases member

theorem emits_emit {event : ε} (holds : P event) : Emits P (emit event) := by
  intro other member
  rw [List.mem_singleton.mp member]
  exact holds

theorem Emits.bind {p : Proc ε α} {f : α → Proc ε β} (first : Emits P p) (rest : ∀ a, Emits P (f a)) :
    Emits P (p >>= f) := by
  cases h : p.result with
  | error code =>
    rw [bind_of_error f h]
    exact first
  | ok a =>
    rw [bind_of_ok f h]
    intro event member
    rcases List.mem_append.mp member with early | late
    · exact first event early
    · exact rest a event late

theorem emits_cons {event : ε} {f : Unit → Proc ε β} (holds : P event) (rest : Emits P (f ())) :
    Emits P (emit event >>= f) := (emits_emit holds).bind fun _ => rest

end Emits

section View

variable {ω : Type} (view : ε → List ω)

/-- What a view of its events shows of a piece of a program, and how the piece ends. -/
structure Shows (p : Proc ε α) (shown : List ω) (result : Except Nat α) : Prop where
  trace : p.trace.flatMap view = shown
  result : p.result = result

variable {view} {p : Proc ε α} {shown more : List ω} {f : α → Proc ε β} {a : α}

theorem Shows.bind {result : Except Nat β} (first : Shows view p shown (.ok a))
    (rest : Shows view (f a) more result) : Shows view (p >>= f) (shown ++ more) result := by
  rw [bind_of_ok f first.result]
  refine ⟨?_, rest.result⟩
  dsimp only
  rw [List.flatMap_append, first.trace, rest.trace]

theorem Shows.stop {code : Nat} (first : Shows view p shown (.error code)) :
    Shows view (p >>= f) shown (.error code) := by
  rw [bind_of_error f first.result]
  exact ⟨first.trace, rfl⟩

theorem shows_pure (a : α) : Shows view (pure a : Proc ε α) [] (.ok a) := ⟨rfl, rfl⟩

theorem shows_exit (code : Nat) : Shows view (exit code : Proc ε α) [] (.error code) := ⟨rfl, rfl⟩

theorem shows_emit (event : ε) : Shows view (emit event) (view event) (.ok ()) :=
  ⟨List.append_nil _, rfl⟩

theorem Shows.exit (first : Shows view p shown (.ok a)) (code : Nat) :
    Shows view (p >>= fun _ => (Proc.exit code : Proc ε β)) shown (.error code) := by
  have ended : Shows view (p >>= fun _ => (Proc.exit code : Proc ε β)) (shown ++ []) (.error code) :=
    first.bind (shows_exit code)
  rwa [List.append_nil] at ended

theorem Shows.status {run : Proc ε Empty} {code : Nat} (h : Shows view run shown (.error code)) :
    run.status = code := status_eq_iff.mpr h.result

end View

end Proc

end C
