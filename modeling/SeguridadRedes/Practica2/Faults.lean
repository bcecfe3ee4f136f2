import SeguridadRedes.Practica2.Correctness

namespace HmacProof

open C Crypto Programs HmacModel

def readIn (inside : Function) : Event → Option (Int × Bytes)
  | .read caller _ _ nr data => if caller = inside then some (nr, data) else none
  | _ => none

def readsIn (inside : Function) (trace : List Event) : List (Int × Bytes) := trace.filterMap (readIn inside)

def transferred (data : Bytes) : Int × Bytes := (data.length, data)

/-- The updates a hash context receives before the first digest is taken. -/
def updatesBeforeFinal : List Event → List Bytes
  | [] => []
  | .hashFinal _ :: _ => []
  | .hashUpdate data :: rest => data :: updatesBeforeFinal rest
  | _ :: rest => updatesBeforeFinal rest

@[simp] theorem readsIn_nil (inside : Function) : readsIn inside [] = [] := rfl

@[simp] theorem readsIn_cons (inside : Function) (event : Event) (trace : List Event) :
    readsIn inside (event :: trace) = (readIn inside event).toList ++ readsIn inside trace := by
  cases found : readIn inside event <;> simp [readsIn, found]

@[simp] theorem readsIn_append (inside : Function) (first second : List Event) :
    readsIn inside (first ++ second) = readsIn inside first ++ readsIn inside second := by
  simp [readsIn]

theorem readsIn_keyReads (size_key got : Nat) (chunks : List Bytes) (inside : Function) :
    readsIn inside (keyReads size_key got chunks) =
      if inside = .readkey then chunks.map transferred else [] := by
  induction chunks generalizing got with
  | nil => simp [keyReads]
  | cons data rest ih =>
    rw [keyReads, readsIn_cons, ih (got + data.length)]
    by_cases here : inside = .readkey
    · subst here
      simp [readIn, transferred]
    · simp [readIn, here, Ne.symm here]

theorem readsIn_feedEvents (inside caller : Function) (text_len : Nat) {delivery : Delivery UInt8 Unit}
    (complete : delivery.failure = none) :
    readsIn inside (feedEvents caller text_len delivery) =
      if inside = caller then delivery.chunks.map transferred ++ [(0, [])] else [] := by
  have pieces : ∀ chunks : List Bytes, readsIn inside (chunks.flatMap fun data =>
      [Event.read caller 0 text_len data.length data, Event.hashUpdate data]) =
      if inside = caller then chunks.map transferred else [] := by
    intro chunks
    induction chunks with
    | nil => simp
    | cons data rest ih =>
      rw [List.flatMap_cons, readsIn_append, ih]
      by_cases here : inside = caller
      · subst here
        simp [readIn, transferred]
      · simp [readIn, here, Ne.symm here]
  unfold feedEvents
  rw [complete, readsIn_append, pieces]
  by_cases here : inside = caller
  · subst here
    simp [readIn]
  · simp [readIn, here, Ne.symm here]

theorem readsIn_macPrints (inside : Function) (mac : Bytes) : readsIn inside (macPrints mac) = [] := by
  simp [readsIn, macPrints, readIn, List.filterMap_map, Function.comp_def]

theorem updatesBeforeFinal_keyReads (size_key got : Nat) (chunks : List Bytes) (rest : List Event) :
    updatesBeforeFinal (keyReads size_key got chunks ++ rest) = updatesBeforeFinal rest := by
  induction chunks generalizing got with
  | nil => rfl
  | cons data tail ih => simpa [keyReads, updatesBeforeFinal] using ih (got + data.length)

theorem updatesBeforeFinal_feedEvents (caller : Function) (text_len : Nat) {delivery : Delivery UInt8 Unit}
    (complete : delivery.failure = none) (rest : List Event) :
    updatesBeforeFinal (feedEvents caller text_len delivery ++ rest) =
      delivery.chunks ++ updatesBeforeFinal rest := by
  have pieces : ∀ (chunks : List Bytes) (tail : List Event), updatesBeforeFinal ((chunks.flatMap fun data =>
      [Event.read caller 0 text_len data.length data, Event.hashUpdate data]) ++ tail) =
      chunks ++ updatesBeforeFinal tail := by
    intro chunks tail
    induction chunks with
    | nil => rfl
    | cons data more ih => simpa [updatesBeforeFinal] using ih
  unfold feedEvents
  rw [complete, List.append_assoc, pieces]
  rfl

theorem updatesBeforeFinal_keyTrace {path : CString} {file : File}
    (complete : (keyDelivery file).failure = none) (rest : List Event) :
    updatesBeforeFinal (keyTrace path file ++ rest) = updatesBeforeFinal rest := by
  simp only [keyTrace, keyEvents, keyEnding, complete, List.cons_append, List.append_assoc,
    updatesBeforeFinal, updatesBeforeFinal_keyReads]
  split <;> rfl

theorem readsIn_keyTrace {path : CString} {file : File} (complete : (keyDelivery file).failure = none) :
    (readsIn .readkey (keyTrace path file) = (keyDelivery file).chunks.map transferred ++ [(0, [])] ∧
      (keyBytes file).length < 64) ∨
    (readsIn .readkey (keyTrace path file) = (keyDelivery file).chunks.map transferred ∧
      (keyBytes file).length = 64) := by
  have bounded := keyBytes_length file
  have reads : readsIn .readkey (keyTrace path file) = (keyDelivery file).chunks.map transferred ++
      readsIn .readkey (keyEnding K_SIZE (0 + (keyBytes file).length) none) := by
    simp [keyTrace, keyEvents, complete, readsIn_keyReads, keyBytes, readIn]
  rw [reads, keyEnding]
  by_cases room : 0 + (keyBytes file).length < K_SIZE
  · left
    rw [if_pos room]
    exact ⟨rfl, by rwa [Nat.zero_add] at room⟩
  · right
    rw [if_neg room]
    refine ⟨List.append_nil _, ?_⟩
    simp only [K_SIZE] at bounded room
    omega

theorem readsIn_runTrace {sys : System} {fichero clave : CString} {key message : File} (inside : Function)
    (complete : (messageDelivery TEXT_SIZE message).failure = none) :
    readsIn inside (runTrace sys fichero clave key message) =
      readsIn inside (keyTrace clave key) ++
        if inside = .hmacsha1 then (messageDelivery TEXT_SIZE message).chunks.map transferred ++ [(0, [])]
        else [] := by
  simp only [runTrace, messageTrace, macEvents, readsIn_append, readsIn_feedEvents inside _ _ complete,
    readsIn_macPrints]
  simp [readIn]

theorem readsIn_keyTrace_other {path : CString} {file : File} (complete : (keyDelivery file).failure = none) :
    readsIn .hmacsha1 (keyTrace path file) = [] := by
  simp only [keyTrace, keyEvents, keyEnding, complete, List.cons_append]
  split <;> simp [readIn, readsIn_keyReads]

theorem updatesBeforeFinal_runTrace {sys : System} {fichero clave : CString} {key message : File}
    (keyComplete : (keyDelivery key).failure = none)
    (complete : (messageDelivery TEXT_SIZE message).failure = none) :
    updatesBeforeFinal (runTrace sys fichero clave key message) =
      innerPad (zeroPad K_SIZE (keyBytes key)) :: (messageDelivery TEXT_SIZE message).chunks := by
  unfold runTrace
  rw [updatesBeforeFinal_keyTrace keyComplete]
  simp only [messageTrace, List.cons_append, List.nil_append, updatesBeforeFinal,
    updatesBeforeFinal_feedEvents _ _ complete]
  simp [macEvents, updatesBeforeFinal]

/-- Whatever the system calls do, the program exits 1 without printing, or prints the MAC of all the
    message chunks up to the end of file, under the key bytes received. -/
theorem mac_only_of_whole_message (sys : System) (program fichero clave : CString) (rest : List CString) :
    let run := main sys (program :: fichero :: clave :: rest)
    (run.status = 1 ∧ stdout run.trace = []) ∨
    ∃ keyChunks messageChunks : List Bytes,
      run.status = 0 ∧
      IsMacLine (stdout run.trace)
        (hmacWith sys.sha1.digest (zeroPad 64 keyChunks.flatten) messageChunks.flatten) ∧
      (readsIn .readkey run.trace = keyChunks.map transferred ++ [(0, [])] ∧ keyChunks.flatten.length < 64 ∨
        readsIn .readkey run.trace = keyChunks.map transferred ∧ keyChunks.flatten.length = 64) ∧
      readsIn .hmacsha1 run.trace = messageChunks.map transferred ++ [(0, [])] ∧
      (∀ chunk ∈ messageChunks, chunk ≠ []) ∧
      updatesBeforeFinal run.trace = innerPad (zeroPad 64 keyChunks.flatten) :: messageChunks := by
  dsimp only
  rcases completed_or_not (sys.openFile 0 clave) keyDelivery with ⟨key, keyDone⟩ | stopped
  · rcases completed_or_not (sys.openFile 1 fichero) (messageDelivery TEXT_SIZE) with ⟨message, done⟩ | stopped
    · right
      rw [main_completed keyDone done]
      refine ⟨(keyDelivery key).chunks, (messageDelivery TEXT_SIZE message).chunks, rfl, ?_, ?_, ?_, ?_, ?_⟩
      · dsimp only
        rw [runTrace_stdout]
        exact macLine_isMacLine (hmacWith_length _ _ _)
      · dsimp only
        rw [readsIn_runTrace .readkey done.reads, if_neg (by decide), List.append_nil]
        exact readsIn_keyTrace keyDone.reads
      · dsimp only
        rw [readsIn_runTrace .hmacsha1 done.reads, readsIn_keyTrace_other keyDone.reads]
        rfl
      · exact Source.collect_chunks_ne_nil _ _ _
      · exact updatesBeforeFinal_runTrace keyDone.reads done.reads
    · exact Or.inl (main_stopped (Or.inr stopped))
  · exact Or.inl (main_stopped (Or.inl stopped))

end HmacProof
