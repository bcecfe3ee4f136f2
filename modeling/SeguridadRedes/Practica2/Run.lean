import SeguridadRedes.Practica2.Message
import SeguridadRedes.Practica2.ReadKey

namespace HmacProof

open C Crypto Programs HmacModel

def keyTrace (path : CString) (file : File) : List Event :=
  .opened path true :: keyEvents K_SIZE 0 (keyDelivery file) ++ [.closed]

def keyBytes (file : File) : Bytes := (keyDelivery file).chunks.flatten

theorem keyBytes_length (file : File) : (keyBytes file).length ≤ K_SIZE :=
  Source.fill_length_le K_SIZE file.source

theorem key_toList (file : File) :
    (blit (Vector.replicate K_SIZE 0) 0 (keyBytes file)).toList = zeroPad K_SIZE (keyBytes file) := by
  rw [toList_blit _ _ (keyBytes_length file), zeroPad]
  simp

theorem readkey_completed {openFile : CString → Option File} {path : CString} {file : File}
    (completed : Completed (openFile path) keyDelivery file) :
    readkey openFile path (Vector.replicate K_SIZE 0) =
      ⟨keyTrace path file, .ok (blit (Vector.replicate K_SIZE 0) 0 (keyBytes file))⟩ := by
  rw [readkey_opened completed.found, completed.reads, completed.closes]
  rfl

theorem readkey_stopped {openFile : CString → Option File} {path : CString}
    (stopped : ∀ file, ¬ Completed (openFile path) keyDelivery file) (key : Vector UInt8 K_SIZE) :
    (readkey openFile path key).result = .error 1 ∧ stdout (readkey openFile path key).trace = [] := by
  cases found : openFile path with
  | none => simp [readkey, found, err, printedBy]
  | some file =>
    rw [readkey_opened found]
    cases ended : (keyDelivery file).failure with
    | some failure => simp [keyEvents_stdout, printedBy]
    | none =>
      cases closes : file.closes with
      | true => exact absurd ⟨found, ended, closes⟩ (stopped file)
      | false => simp [keyEvents_stdout, printedBy]

def messageTrace (sha1 : StreamingHash SHA_DIGEST_LENGTH) (path : CString) (text_len : Nat) (block : Bytes)
    (file : File) : List Event :=
  [.hashInit, .hashUpdate (innerPad block), .opened path true] ++
    feedEvents .hmacsha1 text_len (messageDelivery text_len file) ++
    macEvents sha1 block (messageText text_len file)

section Message

variable {sha1 : StreamingHash SHA_DIGEST_LENGTH} {openFile : CString → Option File} {path : CString}
  {text_len : Nat}

theorem hmacsha1_completed {file : File}
    (completed : Completed (openFile path) (messageDelivery text_len) file) (text : Vector UInt8 text_len)
    (key : Vector UInt8 K_SIZE) :
    (hmacsha1 sha1 openFile path text key K_SIZE).trace =
      messageTrace sha1 path text_len key.toList file ∧
    ∃ returned, (hmacsha1 sha1 openFile path text key K_SIZE).result = .ok returned := by
  rw [hmacsha1_opened sha1 completed.found, completed.reads, completed.closes]
  exact ⟨rfl, _, rfl⟩

theorem hmacsha1_stopped (stopped : ∀ file, ¬ Completed (openFile path) (messageDelivery text_len) file)
    (text : Vector UInt8 text_len) (key : Vector UInt8 K_SIZE) :
    (hmacsha1 sha1 openFile path text key K_SIZE).result = .error 1 ∧
    stdout (hmacsha1 sha1 openFile path text key K_SIZE).trace = [] := by
  cases found : openFile path with
  | none => simp [hmacsha1, found, err, printedBy]
  | some file =>
    rw [hmacsha1_opened sha1 found]
    cases ended : (messageDelivery text_len file).failure with
    | some failure => simp [feedEvents_stdout, printedBy]
    | none =>
      cases closes : file.closes with
      | true => exact absurd ⟨found, ended, closes⟩ (stopped file)
      | false => simp [feedEvents_stdout, printedBy]

theorem messageTrace_stdout (block : Bytes) (file : File) :
    stdout (messageTrace sha1 path text_len block file) =
      macLine (hmacWith sha1.digest block (messageText text_len file)) := by
  simp [messageTrace, macEvents, feedEvents_stdout, macPrints_stdout, printedBy]

end Message

section Main

variable {sys : System} {program fichero clave : CString} {rest : List CString}

theorem main_eq (sys : System) (program fichero clave : CString) (rest : List CString) :
    main sys (program :: fichero :: clave :: rest) =
      readkey (sys.openFile 0) clave (Vector.replicate K_SIZE 0) >>= fun key =>
        hmacsha1 sys.sha1 (sys.openFile 1) fichero (Vector.replicate TEXT_SIZE 0) key K_SIZE >>= fun _ =>
          Proc.exit 0 := by
  rw [main, dif_neg (by simp only [List.length_cons]; omega)]
  rfl

def runTrace (sys : System) (fichero clave : CString) (key message : File) : List Event :=
  keyTrace clave key ++
    messageTrace sys.sha1 fichero TEXT_SIZE (zeroPad K_SIZE (keyBytes key)) message

theorem main_completed {key message : File} (keyDone : Completed (sys.openFile 0 clave) keyDelivery key)
    (messageDone : Completed (sys.openFile 1 fichero) (messageDelivery TEXT_SIZE) message) :
    main sys (program :: fichero :: clave :: rest) =
      ⟨runTrace sys fichero clave key message, .error 0⟩ := by
  let block := blit (Vector.replicate K_SIZE 0) 0 (keyBytes key)
  have hashed : _ ∧ ∃ returned, (hmacsha1 sys.sha1 _ _ _ block K_SIZE).result = .ok returned :=
    hmacsha1_completed messageDone (Vector.replicate TEXT_SIZE 0) block
  rcases hashed with ⟨trace, returned, result⟩
  rw [main_eq, readkey_completed keyDone, Proc.ok_bind, Proc.bind_of_ok _ result, trace, key_toList]
  simp [runTrace]

theorem main_stopped (stopped : (∀ file, ¬ Completed (sys.openFile 0 clave) keyDelivery file) ∨
    ∀ file, ¬ Completed (sys.openFile 1 fichero) (messageDelivery TEXT_SIZE) file) :
    (main sys (program :: fichero :: clave :: rest)).status = 1 ∧
    stdout (main sys (program :: fichero :: clave :: rest)).trace = [] := by
  rw [main_eq]
  rcases completed_or_not (sys.openFile 0 clave) keyDelivery with ⟨key, done⟩ | keyStopped
  · rcases stopped with keyStopped | messageStopped
    · exact absurd done (keyStopped key)
    · let block := blit (Vector.replicate K_SIZE 0) 0 (keyBytes key)
      have hashed : (hmacsha1 sys.sha1 _ _ _ block K_SIZE).result = .error 1 ∧ _ :=
        hmacsha1_stopped messageStopped (Vector.replicate TEXT_SIZE 0) block
      have silent : stdout (keyTrace clave key) = [] := by simp [keyTrace, keyEvents_stdout, printedBy]
      rw [readkey_completed done, Proc.ok_bind, Proc.bind_of_error _ hashed.1]
      simp [hashed.2, silent]
  · have failed := readkey_stopped keyStopped (Vector.replicate K_SIZE 0)
    rw [Proc.bind_of_error _ failed.1]
    simp [failed.2]

theorem runTrace_stdout (key message : File) :
    stdout (runTrace sys fichero clave key message) =
      macLine (hmacWith sys.sha1.digest (zeroPad K_SIZE (keyBytes key)) (messageText TEXT_SIZE message)) := by
  have silent : stdout (keyTrace clave key) = [] := by simp [keyTrace, keyEvents_stdout, printedBy]
  unfold runTrace
  rw [stdout_append, silent, messageTrace_stdout, List.nil_append]

end Main

end HmacProof
