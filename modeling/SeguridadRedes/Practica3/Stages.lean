import SeguridadRedes.Practica3.Sign

namespace SignProof

open C Crypto Programs SignModel

section Shown

variable {α : Type} {p : Process α} {shown : List Event} {result : Except Nat α}

theorem mem_of_shows (h : Proc.Shows shownBy p shown result) {event : Event}
    (kept : shownBy event = [event]) : event ∈ p.trace ↔ event ∈ shown := by
  rw [← mem_visible kept, visible, h.trace]

theorem stdout_of_shows (h : Proc.Shows shownBy p shown result) : stdout p.trace = stdout shown := by
  rw [← stdout_visible, visible, h.trace]

theorem printError_shows (sig_size : Int) (text : Bytes) :
    Proc.Shows shownBy (printError sig_size text) [] (.ok ()) := by
  unfold printError
  split
  · exact Proc.shows_emit _
  · exact Proc.shows_pure ()

end Shown

section Hashing

variable (hash : StreamingHash L_SHA512) {openFile : CString → Option File} {path : CString} {text_len : Nat}

def digestOf (path : CString) (message : Bytes) : Vector UInt8 L_SHA512 :=
  hash.hash (message ++ path.bytes)

def hashEnding (path : CString) (text_len : Nat) (file : File) : List Event :=
  match (messageDelivery text_len file).failure, file.closes with
  | none, true =>
    [.hashUpdate path.bytes, .closed, .hashFinal (digestOf hash path (messageText text_len file)).toList]
  | none, false => [.hashUpdate path.bytes, .closed, .err .sha512 (ascii "close")]
  | some _, _ => []

theorem streamed_name (path : CString) (chunks : List Bytes) :
    hash.final (hash.update (chunks.foldl hash.update hash.init) path.bytes) =
      digestOf hash path chunks.flatten := by
  have streamed := hash.streaming (chunks ++ [path.bytes])
  rwa [List.foldl_append, List.flatten_append, List.flatten_singleton] at streamed

theorem sha512_opened {file : File} (found : openFile path = some file) (text : Vector UInt8 text_len) :
    sha512 hash openFile path text =
      ⟨[.opened path true, .hashInit] ++ feedEvents .sha512 text_len (messageDelivery text_len file) ++
          hashEnding hash path text_len file,
        match (messageDelivery text_len file).failure, file.closes with
        | none, true =>
          .ok (0, (messageDelivery text_len file).chunks.foldl (fun text data => blit text 0 data) text,
            digestOf hash path (messageText text_len file))
        | _, _ => .error 1⟩ := by
  have name : path.bytes.take (strlen path) = path.bytes := List.take_length
  simp only [sha512, found, name, Proc.emit_bind, feedLoop_run, feedRun, hashEnding]
  cases ended : (messageDelivery text_len file).failure with
  | some failure =>
    have stopped : (file.source.drain text_len).failure = some failure := ended
    simp [stopped, messageDelivery]
  | none =>
    have reached : (file.source.drain text_len).failure = none := ended
    cases closes : file.closes with
    | false => simp [reached, messageDelivery, err]
    | true => simp [reached, messageDelivery, messageText, streamed_name, Proc.pure_def]

theorem sha512_completed {file : File}
    (completed : Completed (openFile path) (messageDelivery text_len) file) (text : Vector UInt8 text_len) :
    ∃ text', Proc.Shows shownBy (sha512 hash openFile path text) []
      (.ok (0, text', digestOf hash path (messageText text_len file))) := by
  refine ⟨(messageDelivery text_len file).chunks.foldl (fun text data => blit text 0 data) text, ?_, ?_⟩
  · have fed := feedEvents_shown .sha512 text_len (messageDelivery text_len file)
    rw [completed.reads] at fed
    rw [sha512_opened hash completed.found, hashEnding, completed.reads, completed.closes]
    show visible _ = _
    rw [visible_append, visible_append, fed]
    rfl
  · rw [sha512_opened hash completed.found, completed.reads, completed.closes]

theorem sha512_stopped (stopped : ∀ file, ¬ Completed (openFile path) (messageDelivery text_len) file)
    (text : Vector UInt8 text_len) :
    ∃ message, Proc.Shows shownBy (sha512 hash openFile path text) [.err .sha512 message] (.error 1) := by
  cases found : openFile path with
  | none =>
    refine ⟨ascii "open " ++ path.bytes, ?_, ?_⟩
    · simp [sha512, found, err, shownBy]
    · simp [sha512, found, err]
  | some file =>
    have fed := feedEvents_shown .sha512 text_len (messageDelivery text_len file)
    cases ended : (messageDelivery text_len file).failure with
    | some failure =>
      rw [ended] at fed
      refine ⟨ascii "read", ?_, ?_⟩
      · rw [sha512_opened hash found, hashEnding, ended]
        show visible _ = _
        rw [visible_append, visible_append, fed]
        rfl
      · rw [sha512_opened hash found, ended]
    | none =>
      rw [ended] at fed
      cases closes : file.closes with
      | true => exact absurd ⟨found, ended, closes⟩ (stopped file)
      | false =>
        refine ⟨ascii "close", ?_, ?_⟩
        · rw [sha512_opened hash found, hashEnding, ended, closes]
          show visible _ = _
          rw [visible_append, visible_append, fed]
          rfl
        · rw [sha512_opened hash found, ended, closes]

end Hashing

section Keys

variable {Key : Type} {inside : Function} {fopen : CString → FilePtr} {RSA_new : Bool}
  {pemRead : FilePtr → Option Key} {nullKey : Bytes} {path : CString}

/-- The check behind fopen never stops the function. -/
theorem readKey_eq (inside : Function) (fopen : CString → FilePtr) (RSA_new : Bool)
    (pemRead : FilePtr → Option Key) (nullKey : Bytes) (path : CString) :
    readKey inside fopen RSA_new pemRead nullKey path =
      Proc.emit (.fopened path (fopen path)) >>= fun _ =>
        if RSA_new = false then err inside 1 nullKey
        else Proc.emit (.pemRead inside (fopen path)) >>= fun _ =>
          match pemRead (fopen path) with
          | none => err inside 1 (ascii "PEM_read_RSAPrivateKey " ++ path.bytes)
          | some RSAKey => pure RSAKey := by
  have goesOn : ∀ refused kept : Process Key, (if (fopen path).address < 0 then refused else kept) = kept :=
    fun _ _ => if_neg (FilePtr.not_address_neg _)
  exact congrArg (fun rest => Proc.emit (.fopened path (fopen path)) >>= fun _ => rest) (goesOn _ _)

theorem readKey_loaded {key : Key} (loaded : (if RSA_new then pemRead (fopen path) else none) = some key) :
    Proc.Shows shownBy (readKey inside fopen RSA_new pemRead nullKey path) [] (.ok key) := by
  cases RSA_new with
  | false => cases loaded
  | true =>
    have found : pemRead (fopen path) = some key := loaded
    rw [readKey_eq, found]
    exact ⟨rfl, rfl⟩

theorem readKey_missing (missing : (if RSA_new then pemRead (fopen path) else none) = none) :
    ∃ message, Proc.Shows shownBy (readKey inside fopen RSA_new pemRead nullKey path)
      [.err inside message] (.error 1) := by
  rw [readKey_eq]
  cases RSA_new with
  | false => exact ⟨nullKey, rfl, rfl⟩
  | true =>
    have absent : pemRead (fopen path) = none := missing
    rw [absent]
    exact ⟨ascii "PEM_read_RSAPrivateKey " ++ path.bytes, rfl, rfl⟩

end Keys

end SignProof
