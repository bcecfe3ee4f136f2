import SeguridadRedes.Practica2.HmacSha1

namespace HmacProof

open C Programs HmacModel

variable {size_key : Nat}

def keyReads (size_key : Nat) : Nat → List Bytes → List Event
  | _, [] => []
  | got, data :: rest =>
    .read .readkey got (size_key - got) data.length data :: keyReads size_key (got + data.length) rest

def keyEnding (size_key got : Nat) : Option Unit → List Event
  | some _ => [.read .readkey got (size_key - got) (-1) [], .closed, .err .readkey (ascii "read")]
  | none => if got < size_key then [.read .readkey got (size_key - got) 0 []] else []

def keyEvents (size_key got : Nat) (delivery : Delivery UInt8 Unit) : List Event :=
  keyReads size_key got delivery.chunks ++
    keyEnding size_key (got + delivery.chunks.flatten.length) delivery.failure

def keyRun (got : Nat) (fd : Source UInt8 Unit) (key : Vector UInt8 size_key) :
    Process (Vector UInt8 size_key) where
  trace := keyEvents size_key got (fd.collect (Source.askWindow size_key) got)
  result :=
    match (fd.collect (Source.askWindow size_key) got).failure with
    | none => .ok (blit key got (fd.collect (Source.askWindow size_key) got).chunks.flatten)
    | some _ => .error 1

/-- The two counters of `readkey` agree while there is room in the buffer. -/
structure Counting (r : Reading size_key) (got : Nat) : Prop where
  t : r.t = got
  s : r.s = size_key - got
  room : got < size_key

/-- What one pass can do while the counters agree. -/
theorem readkeyPass_cases {r : Reading size_key} {got : Nat} (t : r.t = got) (s : r.s = size_key - got)
    (room : got ≤ size_key) :
    (∃ failure, (r.fd.pull (size_key - got)).1 = .error failure ∧
      readkeyPass r =
        ⟨[.read .readkey got (size_key - got) (-1) [], .closed, .err .readkey (ascii "read")], .error 1⟩) ∨
    ((r.fd.pull (size_key - got)).1 = .ok [] ∧
      readkeyPass r = ⟨[.read .readkey got (size_key - got) 0 []], .ok (.leave r.key)⟩) ∨
    ∃ data, data ≠ [] ∧ got + data.length ≤ size_key ∧ (r.fd.pull (size_key - got)).1 = .ok data ∧
      readkeyPass r = ⟨[.read .readkey got (size_key - got) data.length data],
        .ok (if got + data.length = size_key then .leave (blit r.key got data)
          else .again ⟨(r.fd.pull (size_key - got)).2, blit r.key got data, (got + data.length : Nat),
            size_key - (got + data.length : Nat)⟩)⟩ := by
  have window : (size_key - r.t).toNat = size_key - got := by omega
  cases answer : (r.fd.pull (size_key - got)).1 with
  | error failure =>
    refine Or.inl ⟨failure, rfl, ?_⟩
    rw [readkeyPass_failure window answer, t]
  | ok data =>
    have fits := (Source.pull_ok answer).2
    by_cases empty : data = []
    · subst empty
      refine Or.inr (Or.inl ⟨rfl, ?_⟩)
      rw [readkeyPass_end window answer, t]
    · refine Or.inr (Or.inr ⟨data, empty, by omega, rfl, ?_⟩)
      rw [readkeyPass_chunk window answer empty, t, s]
      by_cases full : got + data.length = size_key
      · rw [if_pos full, if_pos (by omega)]
        rfl
      · have rest : (size_key - got - data.length : Int) = size_key - (got + data.length : Nat) := by omega
        rw [if_neg full, if_neg (by omega), rest]
        rfl

theorem Counting.next {r r' : Reading size_key} {got : Nat} (counting : Counting r got)
    (again : (readkeyPass r).result = .ok (.again r')) : ∃ got', Counting r' got' := by
  rcases readkeyPass_cases counting.t counting.s (Nat.le_of_lt counting.room) with
    ⟨failure, _, pass⟩ | ⟨_, pass⟩ | ⟨data, _, fits, _, pass⟩
  · rw [pass] at again
    cases again
  · rw [pass] at again
    cases again
  · rw [pass] at again
    by_cases full : got + data.length = size_key
    · rw [if_pos full] at again
      cases again
    · rw [if_neg full] at again
      cases again
      exact ⟨got + data.length, rfl, rfl, by omega⟩

theorem keyRun_equation {r : Reading size_key} {got : Nat} (counting : Counting r got)
    (f : Reading size_key → Process (Vector UInt8 size_key))
    (rest : ∀ (r' : Reading size_key) (got' : Nat), Counting r' got' → f r' = keyRun got' r'.fd r'.key) :
    keyRun got r.fd r.key = readkeyPass r >>= Loop.after f := by
  have room := counting.room
  have asks : Source.askWindow size_key got = some (size_key - got) := if_pos room
  rcases readkeyPass_cases counting.t counting.s (Nat.le_of_lt room) with
    ⟨failure, answer, pass⟩ | ⟨answer, pass⟩ | ⟨data, nonempty, fits, answer, pass⟩
  · rw [pass]
    simp [keyRun, keyEvents, keyReads, keyEnding, Source.collect_failure asks answer]
  · rw [pass]
    simp [keyRun, keyEvents, keyReads, keyEnding, Source.collect_end asks answer, room]
  · have chunk := Source.collect_chunk asks answer nonempty
    rw [pass]
    by_cases full : got + data.length = size_key
    · have idle := Source.collect_idle (Source.askWindow size_key) size_key
        (r.fd.pull (size_key - got)).2 (Source.askWindow_none.mpr (Nat.le_refl _))
      rw [if_pos full]
      simp [keyRun, keyEvents, keyReads, keyEnding, chunk, idle, full]
    · rw [if_neg full, Proc.ok_bind, Loop.after_again, rest _ (got + data.length) ⟨rfl, rfl, by omega⟩]
      simp [keyRun, keyEvents, keyReads, chunk, blit_blit, Nat.add_assoc]

theorem readkeyLoop_run {r : Reading size_key} {got : Nat} (counting : Counting r got) :
    (readkeyLoop size_key).run r = keyRun got r.fd r.key := by
  let f := fun r : Reading size_key => keyRun r.t.toNat r.fd r.key
  have agrees : ∀ (r' : Reading size_key) (got' : Nat), Counting r' got' → f r' = keyRun got' r'.fd r'.key := by
    intro r' got' counting'
    simp [f, counting'.t]
  rw [← agrees r got counting]
  apply Loop.run_unique _ f (fun r => ∃ got, Counting r got) _ _ r ⟨got, counting⟩
  · intro r r' counted again
    rcases counted with ⟨got, counting⟩
    exact counting.next again
  · intro r counted
    rcases counted with ⟨got, counting⟩
    rw [agrees r got counting]
    exact keyRun_equation counting f agrees

theorem keyReads_stdout (size_key got : Nat) (chunks : List Bytes) :
    stdout (keyReads size_key got chunks) = [] := by
  induction chunks generalizing got with
  | nil => rfl
  | cons data rest ih => simp [keyReads, printedBy, ih]

theorem keyEvents_stdout (size_key got : Nat) (delivery : Delivery UInt8 Unit) :
    stdout (keyEvents size_key got delivery) = [] := by
  cases ended : delivery.failure with
  | some failure => simp [keyEvents, keyEnding, keyReads_stdout, ended, printedBy]
  | none =>
    simp only [keyEvents, keyEnding, ended, stdout_append, keyReads_stdout, List.nil_append]
    split <;> rfl

def keyDelivery (file : File) : Delivery UInt8 Unit := file.source.fill K_SIZE

theorem readkey_opened {openFile : CString → Option File} {path : CString} {file : File}
    (found : openFile path = some file) (key : Vector UInt8 K_SIZE) :
    readkey openFile path key =
      ⟨.opened path true :: keyEvents K_SIZE 0 (keyDelivery file) ++
          match (keyDelivery file).failure, file.closes with
          | none, true => [.closed]
          | none, false => [.closed, .err .readkey (ascii "close")]
          | some _, _ => [],
        match (keyDelivery file).failure, file.closes with
        | none, true => .ok (blit key 0 (keyDelivery file).chunks.flatten)
        | _, _ => .error 1⟩ := by
  have counting : Counting ⟨file.source, key, 0, K_SIZE⟩ 0 := ⟨rfl, by simp, by decide⟩
  simp only [readkey, found, Proc.emit_bind, readkeyLoop_run counting]
  cases ended : (keyDelivery file).failure with
  | some failure =>
    have stopped : (file.source.collect (Source.askWindow K_SIZE) 0).failure = some failure := ended
    simp [keyRun, stopped, keyDelivery, Source.fill]
  | none =>
    have reached : (file.source.collect (Source.askWindow K_SIZE) 0).failure = none := ended
    cases closes : file.closes <;> simp [keyRun, reached, keyDelivery, Source.fill, err, Proc.pure_def]

section Exact

/-- The loop of `readkey` once it has stored the bytes `stored` of a file. -/
structure Storing (content : Bytes) (key : Vector UInt8 size_key) (r : Reading size_key) (stored : Bytes) :
    Prop where
  t : r.t = stored.length
  s : r.s = size_key - stored.length
  room : stored.length ≤ size_key
  rest : stored ++ r.fd.pending = content
  prompt : r.fd.Prompt
  stores : r.key = blit key 0 stored

variable {content : Bytes} {key : Vector UInt8 size_key} {r r' : Reading size_key} {stored : Bytes}

theorem Storing.start (file : File) (key : Vector UInt8 size_key) :
    Storing file.content key ⟨file.source, key, 0, size_key⟩ [] where
  t := rfl
  s := by simp
  room := Nat.zero_le _
  rest := rfl
  prompt := file.source_prompt
  stores := (blit_nil _ _).symm

theorem Storing.cases (storing : Storing content key r stored) :
    (∃ tail, readkeyPass r = ⟨.read .readkey stored.length (size_key - stored.length) (-1) [] :: tail, .error 1⟩ ∧
      tail.countP isRead = 0) ∨
    (readkeyPass r = ⟨[.read .readkey stored.length (size_key - stored.length) 0 []],
        .ok (.leave (blit key 0 (content.take size_key)))⟩) ∨
    ∃ data, data ≠ [] ∧ stored.length + data.length ≤ size_key ∧
      (readkeyPass r).trace = [.read .readkey stored.length (size_key - stored.length) data.length data] ∧
      ((readkeyPass r).result = .ok (.leave (blit key 0 (content.take size_key))) ∨
        ∃ r', (readkeyPass r).result = .ok (.again r') ∧ Storing content key r' (stored ++ data)) := by
  have room := storing.room
  have joined : ∀ data, blit r.key stored.length data = blit key 0 (stored ++ data) := by
    intro data
    have composed := blit_blit key 0 stored data
    rwa [Nat.zero_add, ← storing.stores] at composed
  rcases readkeyPass_cases storing.t storing.s room with
    ⟨failure, _, pass⟩ | ⟨answer, pass⟩ | ⟨data, nonempty, fits, answer, pass⟩
  · exact Or.inl ⟨_, pass, rfl⟩
  · right
    left
    have whole : content.take size_key = stored := by
      by_cases full : stored.length = size_key
      · rw [← storing.rest]
        exact List.take_left' full
      · have empty := storing.prompt.pull_nil (by omega) answer
        rw [← storing.rest, empty, List.append_nil, List.take_of_length_le room]
    rw [pass, whole, storing.stores]
  · right
    right
    obtain ⟨delivered, _⟩ := Source.pull_ok answer
    have rest : stored ++ data ++ (r.fd.pull (size_key - stored.length)).2.pending = content := by
      rw [List.append_assoc, delivered, storing.rest]
    refine ⟨data, nonempty, fits, by rw [pass], ?_⟩
    rw [pass, joined]
    by_cases full : stored.length + data.length = size_key
    · left
      have whole : content.take size_key = stored ++ data := by
        rw [← rest]
        exact List.take_left' (by rw [List.length_append, full])
      rw [if_pos full, whole]
    · right
      rw [if_neg full]
      refine ⟨_, rfl, ?_, ?_, ?_, rest, storing.prompt.pull _, rfl⟩
      · rw [List.length_append]
      · rw [List.length_append]
      · rwa [List.length_append]

theorem Storing.result (storing : Storing content key r stored) :
    (readkeyPass r).result = .error 1 ∨
    (readkeyPass r).result = .ok (.leave (blit key 0 (content.take size_key))) ∨
    ∃ r', (readkeyPass r).result = .ok (.again r') := by
  rcases storing.cases with ⟨tail, pass, _⟩ | pass | ⟨data, _, _, _, leaves | ⟨r', goes, _⟩⟩
  · rw [pass]
    exact Or.inl rfl
  · rw [pass]
    exact Or.inr (Or.inl rfl)
  · exact Or.inr (Or.inl leaves)
  · exact Or.inr (Or.inr ⟨r', goes⟩)

theorem Storing.next (storing : Storing content key r stored)
    (again : (readkeyPass r).result = .ok (.again r')) :
    r.t < r'.t ∧ ∃ stored', Storing content key r' stored' := by
  rcases storing.cases with ⟨tail, pass, _⟩ | pass | ⟨data, nonempty, _, _, leaves | ⟨r'', goes, storing'⟩⟩
  · rw [pass] at again
    cases again
  · rw [pass] at again
    cases again
  · rw [leaves] at again
    cases again
  · rw [goes] at again
    cases again
    have positive := List.length_pos_iff.mpr nonempty
    have before := storing.t
    have after := storing'.t
    rw [List.length_append] at after
    exact ⟨by omega, stored ++ data, storing'⟩

theorem Storing.kept (r r' : Reading size_key) (storing : ∃ stored, Storing content key r stored)
    (again : (readkeyPass r).result = .ok (.again r')) : ∃ stored, Storing content key r' stored := by
  rcases storing with ⟨stored, storing⟩
  exact (storing.next again).2

theorem Storing.once (storing : Storing content key r stored) : (readkeyPass r).trace.countP isRead ≤ 1 := by
  rcases storing.cases with ⟨tail, pass, quiet⟩ | pass | ⟨data, _, _, trace, _⟩
  · have counted : (readkeyPass r).trace.countP isRead = 0 + 1 := by
      rw [pass, List.countP_cons_of_pos rfl, quiet]
    exact Nat.le_of_eq counted
  · rw [pass]
    exact Nat.le_refl 1
  · rw [trace]
    exact Nat.le_refl 1

theorem Storing.in_bounds (storing : Storing content key r stored) {t request nr : Int} {data : Bytes}
    (member : .read .readkey t request nr data ∈ (readkeyPass r).trace) :
    0 ≤ t ∧ request = size_key - t ∧ t + data.length ≤ size_key := by
  have room := storing.room
  have nothing : ([] : Bytes).length = 0 := rfl
  rcases storing.cases with ⟨tail, pass, quiet⟩ | pass | ⟨chunk, _, fits, trace, _⟩
  · rw [pass] at member
    rcases List.mem_cons.mp member with here | later
    · cases here
      omega
    · have counted := List.countP_eq_zero.mp quiet _ later
      exact absurd rfl counted
  · rw [pass, List.mem_singleton] at member
    cases member
    omega
  · rw [trace, List.mem_singleton] at member
    cases member
    omega

theorem readkeyLoop_reaches {file : File} {key : Vector UInt8 size_key} {r : Reading size_key}
    (reaches : (readkeyLoop size_key).Reaches ⟨file.source, key, 0, size_key⟩ r) :
    ∃ stored, Storing file.content key r stored :=
  reaches.invariant Storing.kept ⟨[], Storing.start file key⟩

theorem readkeyLoop_result (file : File) (key : Vector UInt8 size_key) :
    ((readkeyLoop size_key).run ⟨file.source, key, 0, size_key⟩).result = .error 1 ∨
    ((readkeyLoop size_key).run ⟨file.source, key, 0, size_key⟩).result =
      .ok (blit key 0 (file.content.take size_key)) := by
  apply (readkeyLoop size_key).run_rule (fun r => ∃ stored, Storing file.content key r stored) Storing.kept
    (fun result => result = .error 1 ∨ result = .ok (blit key 0 (file.content.take size_key))) _ _ _
    ⟨[], Storing.start file key⟩
  · intro r key' storing leaves
    rcases storing with ⟨stored, storing⟩
    change (readkeyPass r).result = _ at leaves
    right
    rcases storing.result with ends | whole | ⟨r', goes⟩
    · rw [ends] at leaves
      cases leaves
    · rw [whole] at leaves
      cases leaves
      rfl
    · rw [goes] at leaves
      cases leaves
  · intro r status storing ends
    rcases storing with ⟨stored, storing⟩
    change (readkeyPass r).result = _ at ends
    left
    rcases storing.result with fails | whole | ⟨r', goes⟩
    · rw [fails] at ends
      cases ends
      rfl
    · rw [whole] at ends
      cases ends
    · rw [goes] at ends
      cases ends

theorem readkeyLoop_count (file : File) (key : Vector UInt8 size_key) :
    ((readkeyLoop size_key).run ⟨file.source, key, 0, size_key⟩).trace.countP isRead ≤ size_key + 1 := by
  have counted := (readkeyLoop size_key).run_count (fun r => ∃ stored, Storing file.content key r stored)
    Storing.kept isRead (fun r => (size_key - r.t).toNat)
    (fun r storing => storing.elim fun stored storing => storing.once) (by
      intro r r' storing again
      rcases storing with ⟨stored, storing⟩
      obtain ⟨lower, stored', storing'⟩ := storing.next again
      have room := storing'.room
      have position := storing'.t
      omega) ⟨file.source, key, 0, size_key⟩ ⟨[], Storing.start file key⟩
  have start : ((size_key : Int) - 0).toNat = size_key := by omega
  rwa [start] at counted

end Exact

theorem readkey_found {openFile : CString → Option File} {path : CString} {file : File}
    (found : openFile path = some file) (key : Vector UInt8 size_key) :
    ∃ tail, (readkey openFile path key).trace =
        .opened path true :: ((readkeyLoop size_key).run ⟨file.source, key, 0, size_key⟩).trace ++ tail ∧
      (∀ event ∈ tail, isRead event = false) ∧
      ((readkey openFile path key).result = .error 1 ∨
        (readkey openFile path key).result = .ok (blit key 0 (file.content.take size_key))) := by
  simp only [readkey, found]
  rcases readkeyLoop_result file key with ends | leaves
  · refine ⟨[], ?_, by simp, Or.inl ?_⟩
    · rw [Proc.emit_bind, Proc.bind_of_error _ ends, List.append_nil]
    · rw [Proc.emit_bind, Proc.bind_of_error _ ends]
  · rw [Proc.emit_bind, Proc.bind_of_ok _ leaves]
    cases closes : file.closes with
    | true => exact ⟨[.closed], rfl, by simp [isRead], Or.inr rfl⟩
    | false => exact ⟨[.closed, .err .readkey (ascii "close")], rfl, by simp [isRead], Or.inl rfl⟩

/-- A call of `readkey` exits 1, or returns the key with as much of the file as fits in front of what it held. -/
def KeyStored (content : Bytes) (key : Vector UInt8 size_key) : Except Nat (Vector UInt8 size_key) → Prop
  | .error status => status = 1
  | .ok key' => key'.toList = content.take size_key ++ key.toList.drop (min content.length size_key)

/-- Whatever the results of read(2), the counters of `readkey` agree, every call stays inside the key, there
    are at most `size_key + 1` of them, and the file is stored as far as it fits. -/
theorem readkey_exact (openFile : CString → Option File) (path : CString) (file : File)
    (found : openFile path = some file) (key : Vector UInt8 size_key) :
    let run := readkey openFile path key
    (∀ r, (readkeyLoop size_key).Reaches ⟨file.source, key, 0, size_key⟩ r →
      r.s + r.t = size_key ∧ 0 ≤ r.t ∧ r.t ≤ size_key) ∧
    (∀ t request nr data, Event.read .readkey t request nr data ∈ run.trace →
      0 ≤ t ∧ request = size_key - t ∧ t + data.length ≤ size_key) ∧
    run.trace.countP isRead ≤ size_key + 1 ∧
    KeyStored file.content key run.result := by
  obtain ⟨tail, trace, quiet, outcome⟩ := readkey_found found key
  dsimp only
  rw [trace]
  refine ⟨?_, ?_, ?_, ?_⟩
  · intro r reaches
    obtain ⟨stored, storing⟩ := readkeyLoop_reaches reaches
    have t := storing.t
    have s := storing.s
    have room := storing.room
    omega
  · intro t request nr data member
    rcases List.mem_append.mp member with inside | late
    · rcases List.mem_cons.mp inside with first | inside
      · cases first
      · obtain ⟨r, reaches, here⟩ := Loop.mem_run inside
        obtain ⟨stored, storing⟩ := readkeyLoop_reaches reaches
        exact storing.in_bounds here
    · exact absurd (quiet _ late) (by simp [isRead])
  · have counted := readkeyLoop_count file key
    have ending : tail.countP isRead = 0 := by
      rw [List.countP_eq_zero]
      intro event member
      simp [quiet event member]
    rw [List.countP_append, List.countP_cons_of_neg (by simp [isRead]), ending]
    exact counted
  · rcases outcome with ends | leaves
    · rw [ends]
      rfl
    · rw [leaves]
      have fits : (file.content.take size_key).length ≤ size_key := List.length_take_le _ _
      show (blit key 0 (file.content.take size_key)).toList = _
      rw [toList_blit _ _ fits, List.length_take, Nat.min_comm]

section Sample

def keyFilePath : CString := ⟨ascii "clave.txt", by decide⟩

def shortBuffer : Vector UInt8 4 := Vector.replicate 4 0

theorem readkey_exact_sample :
    let run := readkey (fun _ => some (sampleFile (ascii "clave\n"))) keyFilePath shortBuffer
    run.trace.countP isRead ≤ 5 ∧
    KeyStored (ascii "clave\n") shortBuffer run.result :=
  (readkey_exact (fun _ => some (sampleFile (ascii "clave\n"))) keyFilePath (sampleFile (ascii "clave\n")) rfl
    shortBuffer).2.2

end Sample

end HmacProof
