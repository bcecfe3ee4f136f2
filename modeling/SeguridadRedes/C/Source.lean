import SeguridadRedes.C.Process

namespace C

/-- A source of data behind a descriptor: what it has still to deliver, and what each later call on
    it will do (refuse with a failure, or deliver at most so many elements). -/
structure Source (α E : Type) where
  pending : List α
  plan : Nat → Except E Nat

structure Delivery (α E : Type) where
  chunks : List (List α)
  failure : Option E

namespace Source

variable {α E : Type}

def advance (s : Source α E) (count : Nat) : Source α E :=
  ⟨s.pending.drop count, fun i => s.plan (i + 1)⟩

def pull (s : Source α E) (request : Nat) : Except E (List α) × Source α E :=
  match s.plan 0 with
  | .error failure => (.error failure, s.advance 0)
  | .ok most =>
    (.ok (s.pending.take (min request most)), s.advance (min request most))

/-- A source that delivers nothing only when asked for nothing or at its end. -/
def Prompt (s : Source α E) : Prop := ∀ i most, s.plan i = .ok most → 0 < most

def Faultless (s : Source α E) : Prop := ∀ i failure, s.plan i ≠ .error failure

theorem Prompt.advance {s : Source α E} (prompt : s.Prompt) (count : Nat) : (s.advance count).Prompt :=
  fun i most h => prompt (i + 1) most h

theorem Faultless.advance {s : Source α E} (faultless : s.Faultless) (count : Nat) :
    (s.advance count).Faultless := fun i failure h => faultless (i + 1) failure h

theorem pull_snd (s : Source α E) (request : Nat) :
    ∃ count, (s.pull request).2 = s.advance count := by
  unfold pull
  split
  · exact ⟨0, rfl⟩
  · exact ⟨_, rfl⟩

theorem Prompt.pull {s : Source α E} (prompt : s.Prompt) (request : Nat) : (s.pull request).2.Prompt := by
  obtain ⟨count, same⟩ := s.pull_snd request
  rw [same]
  exact prompt.advance count

theorem Faultless.pull {s : Source α E} (faultless : s.Faultless) (request : Nat) :
    (s.pull request).2.Faultless := by
  obtain ⟨count, same⟩ := s.pull_snd request
  rw [same]
  exact faultless.advance count

theorem pull_ok {s : Source α E} {request : Nat} {data : List α} (h : (s.pull request).1 = .ok data) :
    data ++ (s.pull request).2.pending = s.pending ∧ data.length ≤ request := by
  unfold pull at h ⊢
  split at h
  · cases h
  · cases h
    refine ⟨List.take_append_drop _ _, ?_⟩
    rw [List.length_take]
    omega

theorem pull_shrinks {s : Source α E} {request : Nat} {data : List α} (h : (s.pull request).1 = .ok data)
    (nonempty : data ≠ []) : (s.pull request).2.pending.length < s.pending.length := by
  have lengths := congrArg List.length (pull_ok h).1
  have positive := List.length_pos_iff.mpr nonempty
  rw [List.length_append] at lengths
  omega

theorem Prompt.pull_nil {s : Source α E} (prompt : s.Prompt) {request : Nat} (asked : 0 < request)
    (h : (s.pull request).1 = .ok []) : s.pending = [] := by
  unfold Source.pull at h
  split at h
  · cases h
  · rename_i most allowed
    have positive := prompt 0 most allowed
    have empty := Except.ok.inj h
    rw [List.take_eq_nil_iff] at empty
    rcases empty with none | empty
    · omega
    · exact empty

theorem Faultless.pull_ok {s : Source α E} (faultless : s.Faultless) (request : Nat) :
    ∃ data, (s.pull request).1 = .ok data := by
  unfold Source.pull
  split
  · rename_i failure refused
    exact absurd refused (faultless 0 failure)
  · exact ⟨_, rfl⟩

/-- Repeated calls. `ask` says, from what has been delivered so far, how much the next call asks
    for, or that there is no next call; an empty delivery or a failure also ends the sequence. -/
def collect (ask : Nat → Option Nat) (got : Nat) (s : Source α E) : Delivery α E :=
  match ask got with
  | none => ⟨[], none⟩
  | some request =>
    match _answer : s.pull request with
    | (.error failure, _) => ⟨[], some failure⟩
    | (.ok [], _) => ⟨[], none⟩
    | (.ok (a :: rest), later) =>
      let delivered := later.collect ask (got + (a :: rest).length)
      ⟨(a :: rest) :: delivered.chunks, delivered.failure⟩
termination_by s.pending.length
decreasing_by
  have answered : (s.pull request).1 = .ok (a :: rest) := by rw [_answer]
  have shrinks := pull_shrinks answered (by simp)
  rwa [_answer] at shrinks

section Collect

variable (ask : Nat → Option Nat) (got : Nat) (s : Source α E)

theorem collect_idle (h : ask got = none) : s.collect ask got = ⟨[], none⟩ := by
  rw [collect, h]

variable {ask got s} {request : Nat}

theorem collect_failure {failure : E} (asks : ask got = some request)
    (h : (s.pull request).1 = .error failure) : s.collect ask got = ⟨[], some failure⟩ := by
  rw [collect, asks]
  dsimp only
  split <;> simp_all

theorem collect_end (asks : ask got = some request) (h : (s.pull request).1 = .ok []) :
    s.collect ask got = ⟨[], none⟩ := by
  rw [collect, asks]
  dsimp only
  split <;> simp_all

theorem collect_chunk {data : List α} (asks : ask got = some request)
    (h : (s.pull request).1 = .ok data) (nonempty : data ≠ []) :
    s.collect ask got =
      ⟨data :: ((s.pull request).2.collect ask (got + data.length)).chunks,
        ((s.pull request).2.collect ask (got + data.length)).failure⟩ := by
  rw [collect, asks]
  dsimp only
  split <;> simp_all

theorem collect_induct (ask : Nat → Option Nat) (motive : Nat → Source α E → Prop)
    (idle : ∀ got s, ask got = none → motive got s)
    (failure : ∀ got s request failure, ask got = some request →
      (s.pull request).1 = .error failure → motive got s)
    (finish : ∀ got s request, ask got = some request → (s.pull request).1 = .ok [] → motive got s)
    (chunk : ∀ got s request data, ask got = some request → (s.pull request).1 = .ok data → data ≠ [] →
      motive (got + data.length) (s.pull request).2 → motive got s)
    (got : Nat) (s : Source α E) : motive got s := by
  induction measured : s.pending.length using Nat.strongRecOn generalizing got s with
  | _ bound ih =>
    cases asks : ask got with
    | none => exact idle got s asks
    | some request =>
      cases answer : (s.pull request).1 with
      | error stopped => exact failure got s request stopped asks answer
      | ok data =>
        by_cases empty : data = []
        · subst empty
          exact finish got s request asks answer
        · have shrinks := pull_shrinks answer empty
          exact chunk got s request data asks answer empty (ih _ (by omega) _ _ rfl)

theorem collect_prefix (ask : Nat → Option Nat) (got : Nat) (s : Source α E) :
    (s.collect ask got).chunks.flatten <+: s.pending := by
  induction got, s using collect_induct ask with
  | idle got s asks => simp [collect_idle ask got s asks]
  | failure got s request failure asks answer => simp [collect_failure asks answer]
  | finish got s request asks answer => simp [collect_end asks answer]
  | chunk got s request data asks answer nonempty ih =>
    rw [collect_chunk asks answer nonempty, List.flatten_cons, ← (pull_ok answer).1]
    exact List.prefix_append_right_inj data |>.mpr ih

theorem collect_chunks_ne_nil (ask : Nat → Option Nat) (got : Nat) (s : Source α E) :
    ∀ data ∈ (s.collect ask got).chunks, data ≠ [] := by
  induction got, s using collect_induct ask with
  | idle got s asks => simp [collect_idle ask got s asks]
  | failure got s request failure asks answer => simp [collect_failure asks answer]
  | finish got s request asks answer => simp [collect_end asks answer]
  | chunk got s request data asks answer nonempty ih =>
    rw [collect_chunk asks answer nonempty]
    intro other member
    rcases List.mem_cons.mp member with rfl | member
    · exact nonempty
    · exact ih other member

theorem collect_chunk_length (ask : Nat → Option Nat) (bound got : Nat) (s : Source α E)
    (respects : ∀ got request, ask got = some request → request ≤ bound) :
    ∀ data ∈ (s.collect ask got).chunks, data.length ≤ bound := by
  induction got, s using collect_induct ask with
  | idle got s asks => simp [collect_idle ask got s asks]
  | failure got s request failure asks answer => simp [collect_failure asks answer]
  | finish got s request asks answer => simp [collect_end asks answer]
  | chunk got s request data asks answer nonempty ih =>
    rw [collect_chunk asks answer nonempty]
    intro other member
    rcases List.mem_cons.mp member with rfl | member
    · exact Nat.le_trans (pull_ok answer).2 (respects got request asks)
    · exact ih other member

theorem Faultless.collect {s : Source α E} (faultless : s.Faultless) (ask : Nat → Option Nat) (got : Nat) :
    (s.collect ask got).failure = none := by
  induction got, s using collect_induct ask with
  | idle got s asks => simp [collect_idle ask got s asks]
  | failure got s request failure asks answer =>
    obtain ⟨data, ok⟩ := faultless.pull_ok request
    rw [answer] at ok
    cases ok
  | finish got s request asks answer => simp [collect_end asks answer]
  | chunk got s request data asks answer nonempty ih =>
    rw [collect_chunk asks answer nonempty]
    exact ih (faultless.pull request)

/-- Without a failure the calls stop because no more is asked for or because all has been delivered. -/
theorem Prompt.collect {s : Source α E} (prompt : s.Prompt) (ask : Nat → Option Nat) (got : Nat)
    (positive : ∀ got request, ask got = some request → 0 < request)
    (faultless : (s.collect ask got).failure = none) :
    ask (got + (s.collect ask got).chunks.flatten.length) = none ∨
      (s.collect ask got).chunks.flatten = s.pending := by
  induction got, s using collect_induct ask with
  | idle got s asks =>
    left
    simpa [collect_idle ask got s asks] using asks
  | failure got s request failure asks answer =>
    rw [collect_failure asks answer] at faultless
    cases faultless
  | finish got s request asks answer =>
    right
    rw [collect_end asks answer, prompt.pull_nil (positive got request asks) answer]
    rfl
  | chunk got s request data asks answer nonempty ih =>
    rw [collect_chunk asks answer nonempty] at faultless ⊢
    rw [List.flatten_cons, List.length_append, ← Nat.add_assoc, ← (pull_ok answer).1]
    rcases ih (prompt.pull request) faultless with stopped | all
    · exact Or.inl stopped
    · rw [all]
      exact Or.inr rfl

theorem collect_bounded (ask : Nat → Option Nat) (bound got : Nat) (s : Source α E)
    (respects : ∀ got request, ask got = some request → got + request ≤ bound) (start : got ≤ bound) :
    got + (s.collect ask got).chunks.flatten.length ≤ bound := by
  induction got, s using collect_induct ask with
  | idle got s asks => simpa [collect_idle ask got s asks] using start
  | failure got s request failure asks answer => simpa [collect_failure asks answer] using start
  | finish got s request asks answer => simpa [collect_end asks answer] using start
  | chunk got s request data asks answer nonempty ih =>
    have limit := respects got request asks
    have size := (pull_ok answer).2
    have rest := ih (by omega)
    rw [collect_chunk asks answer nonempty, List.flatten_cons, List.length_append]
    omega

end Collect

def askAlways (request : Nat) : Nat → Option Nat := fun _ => some request

def drain (request : Nat) (s : Source α E) : Delivery α E := s.collect (askAlways request) 0

theorem collect_askAlways (request got other : Nat) (s : Source α E) :
    s.collect (askAlways request) got = s.collect (askAlways request) other := by
  induction got, s using collect_induct (askAlways request) generalizing other with
  | idle got s asks => cases asks
  | failure got s asked failure asks answer =>
    have again : askAlways request other = some asked := asks
    rw [collect_failure asks answer, collect_failure again answer]
  | finish got s asked asks answer =>
    have again : askAlways request other = some asked := asks
    rw [collect_end asks answer, collect_end again answer]
  | chunk got s asked data asks answer nonempty ih =>
    have again : askAlways request other = some asked := asks
    rw [collect_chunk asks answer nonempty, collect_chunk again answer nonempty,
      ih (other + data.length)]

section Drain

variable {s : Source α E} {request : Nat}

theorem drain_failure {failure : E} (h : (s.pull request).1 = .error failure) :
    s.drain request = ⟨[], some failure⟩ := collect_failure rfl h

theorem drain_end (h : (s.pull request).1 = .ok []) : s.drain request = ⟨[], none⟩ := collect_end rfl h

theorem drain_chunk {data : List α} (h : (s.pull request).1 = .ok data) (nonempty : data ≠ []) :
    s.drain request =
      ⟨data :: ((s.pull request).2.drain request).chunks, ((s.pull request).2.drain request).failure⟩ := by
  have asks : askAlways request 0 = some request := rfl
  rw [drain, collect_chunk asks h nonempty, collect_askAlways _ _ 0]
  rfl

end Drain

theorem Prompt.drain {s : Source α E} (prompt : s.Prompt) {request : Nat} (asked : 0 < request)
    (faultless : (s.drain request).failure = none) : (s.drain request).chunks.flatten = s.pending := by
  have positive : ∀ got other, askAlways request got = some other → 0 < other := by
    intro got other same
    cases same
    exact asked
  rcases prompt.collect (askAlways request) 0 positive faultless with stopped | all
  · cases stopped
  · exact all

theorem Faultless.drain {s : Source α E} (faultless : s.Faultless) (request : Nat) :
    (s.drain request).failure = none := faultless.collect _ _

theorem drain_chunk_length (request : Nat) (s : Source α E) :
    ∀ data ∈ (s.drain request).chunks, data.length ≤ request := by
  apply collect_chunk_length
  intro got asked asks
  cases asks
  exact Nat.le_refl request

/-- Every sequence of pieces that fit the request is what some source delivers. -/
theorem drain_of_pieces {request : Nat} (pieces : List (List α)) (s : Source α E)
    (pending : s.pending = pieces.flatten)
    (plan : ∀ i (h : i < pieces.length), s.plan i = .ok (pieces.get ⟨i, h⟩).length)
    (last : ∃ most, s.plan pieces.length = .ok most)
    (fits : ∀ piece ∈ pieces, piece ≠ [] ∧ piece.length ≤ request) :
    s.drain request = ⟨pieces, none⟩ := by
  induction pieces generalizing s with
  | nil =>
    obtain ⟨most, allowed⟩ := last
    have allowed : s.plan 0 = .ok most := allowed
    apply drain_end
    unfold pull
    rw [allowed]
    simp [pending]
  | cons piece rest ih =>
    obtain ⟨nonempty, short⟩ := fits piece List.mem_cons_self
    have allowed : s.plan 0 = .ok piece.length := plan 0 (Nat.zero_lt_succ _)
    have answer : s.pull request = (.ok piece, s.advance piece.length) := by
      unfold pull
      rw [allowed]
      simp only [Nat.min_eq_right short, pending, List.flatten_cons, List.take_left]
    have later : (s.pull request).2 = s.advance piece.length := by rw [answer]
    rw [drain_chunk (by rw [answer]) nonempty, later, ih]
    · simp only [advance, pending, List.flatten_cons, List.drop_left]
    · exact fun i h => plan (i + 1) (Nat.succ_lt_succ h)
    · exact last
    · exact fun other member => fits other (List.mem_cons_of_mem _ member)

def askWindow (room got : Nat) : Option Nat := if got < room then some (room - got) else none

theorem askWindow_some {room got request : Nat} (h : askWindow room got = some request) :
    0 < request ∧ got + request = room := by
  unfold askWindow at h
  split at h
  · cases h
    omega
  · cases h

theorem askWindow_none {room got : Nat} : askWindow room got = none ↔ room ≤ got := by
  unfold askWindow
  split <;> simp <;> omega

def fill (room : Nat) (s : Source α E) : Delivery α E := s.collect (askWindow room) 0

theorem fill_length_le (room : Nat) (s : Source α E) : (s.fill room).chunks.flatten.length ≤ room := by
  have bounded := collect_bounded (askWindow room) room 0 s
    (fun got request asks => Nat.le_of_eq (askWindow_some asks).2) (Nat.zero_le room)
  rwa [Nat.zero_add] at bounded

theorem Faultless.fill {s : Source α E} (faultless : s.Faultless) (room : Nat) :
    (s.fill room).failure = none := faultless.collect _ _

theorem fill_prefix (room : Nat) (s : Source α E) : (s.fill room).chunks.flatten <+: s.pending :=
  collect_prefix _ _ _

theorem Prompt.fill {s : Source α E} (prompt : s.Prompt) (room : Nat)
    (faultless : (s.fill room).failure = none) :
    (s.fill room).chunks.flatten = s.pending.take room := by
  have bounded := fill_length_le room s
  obtain ⟨rest, initial⟩ := fill_prefix room s
  have ended := prompt.collect (askWindow room) 0 (fun got request asks => (askWindow_some asks).1) faultless
  rcases ended with stopped | all
  · rw [askWindow_none] at stopped
    change room ≤ 0 + (s.fill room).chunks.flatten.length at stopped
    rw [← initial, List.take_append_of_le_length (by omega), List.take_of_length_le (by omega)]
  · change (s.fill room).chunks.flatten = s.pending at all
    rw [all] at bounded ⊢
    rw [List.take_of_length_le bounded]

end Source

end C
