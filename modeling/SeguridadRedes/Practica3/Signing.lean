import SeguridadRedes.Practica3.Arguments
import SeguridadRedes.Practica3.Block
import SeguridadRedes.Practica3.Stages

namespace SignProof

open C Crypto Programs SignModel

variable {ssl : OpenSSL} {sys : System ssl}

section Output

variable (BLOCK C_BLOCK : Vector UInt8 BLOCK_SIZE) (key : ssl.Private)

def signatureBlock : Vector UInt8 BLOCK_SIZE :=
  blit C_BLOCK 0 (ssl.RSA_private_encrypt key BLOCK).written

def signingShown (sys : System ssl) : List Event :=
  [.rsaPrivateEncrypt BLOCK.toList (ssl.RSA_private_encrypt key BLOCK).sig_size
      (ssl.RSA_private_encrypt key BLOCK).written,
    .printed (beginLine.take sys.out.beginning),
    .bioWrite (signatureBlock BLOCK C_BLOCK key).toList (bioWritten sys.BIO_write)]

/-- The bytes that the filter takes. -/
def filtered (sys : System ssl) : Bytes :=
  (signatureBlock BLOCK C_BLOCK key).toList.take (bioWritten sys.BIO_write).toNat

def textShown (sys : System ssl) (data : Bytes) : List Event :=
  [.printed ((ssl.base64Update data).take sys.out.update), .printed ((ssl.base64Final data).take sys.out.final),
    .printed (endLine.take sys.out.ending)]

/-- All that is printed for a signature of these bytes gets out of stdout. -/
structure GetsOut (sys : System ssl) (data : Bytes) : Prop where
  beginning : beginLine.length ≤ sys.out.beginning
  update : (ssl.base64Update data).length ≤ sys.out.update
  final : (ssl.base64Final data).length ≤ sys.out.final
  ending : endLine.length ≤ sys.out.ending

theorem getsOut_iff (sys : System ssl) (data : Bytes) :
    beginLine.take sys.out.beginning ++ stdout (textShown sys data) = beginLine ++ ssl.base64 data ++ endLine ↔
      GetsOut sys data := by
  apply Iff.intro
  · intro same
    have lengths := congrArg List.length same
    simp only [textShown, stdout_cons, stdout_nil, printedBy, OpenSSL.base64, List.length_append,
      List.length_take, List.append_nil] at lengths
    exact ⟨by omega, by omega, by omega, by omega⟩
  · intro whole
    simp only [textShown, stdout_cons, stdout_nil, printedBy, OpenSSL.base64, List.append_nil,
      List.take_of_length_le whole.beginning, List.take_of_length_le whole.update,
      List.take_of_length_le whole.final, List.take_of_length_le whole.ending, List.append_assoc]

theorem bioWritten_cases (wr : Except BioFailure (Fin (BLOCK_SIZE + 1))) :
    bioWritten wr = -1 ∨ bioWritten wr = -2 ∨ bioWritten wr = 0 ∨ 0 < bioWritten wr := by
  cases wr with
  | error failure =>
    cases failure with
    | noData => exact Or.inl rfl
    | notImplemented => exact Or.inr (Or.inl rfl)
  | ok count =>
    simp only [bioWritten]
    omega

theorem generarFirmaDigital_shows {shown : List Event} {result : Except Nat (Vector UInt8 BLOCK_SIZE)}
    (rest : Proc.Shows shownBy
      (if bioWritten sys.BIO_write = -1 ∨ bioWritten sys.BIO_write = 0 then
        err .generarFirmaDigital 1 (ascii "BIO_write: No data written")
      else if bioWritten sys.BIO_write = -2 then
        err .generarFirmaDigital 1
          (ascii "BIO_write: the operation is not implemented in the specific BIO type")
      else do
        printf ((ssl.base64Update (filtered BLOCK C_BLOCK key sys)).take sys.out.update)
        BIO_flush sys (filtered BLOCK C_BLOCK key sys)
        printf (endLine.take sys.out.ending)
        return signatureBlock BLOCK C_BLOCK key) shown result) :
    Proc.Shows shownBy (generarFirmaDigital sys BLOCK key C_BLOCK)
      (signingShown BLOCK C_BLOCK key sys ++ shown) result := by
  have silent := printError_shows (ssl.RSA_private_encrypt key BLOCK).sig_size sys.ERR_error_string
  exact (Proc.shows_emit _).bind (silent.bind ((Proc.shows_emit _).bind ((Proc.shows_emit _).bind rest)))

theorem generarFirmaDigital_rejected (rejected : bioWritten sys.BIO_write ≤ 0) :
    ∃ message, Proc.Shows shownBy (generarFirmaDigital sys BLOCK key C_BLOCK)
      (signingShown BLOCK C_BLOCK key sys ++ [.err .generarFirmaDigital message]) (.error 1) := by
  by_cases noData : bioWritten sys.BIO_write = -1 ∨ bioWritten sys.BIO_write = 0
  · refine ⟨ascii "BIO_write: No data written", generarFirmaDigital_shows BLOCK C_BLOCK key ?_⟩
    rw [if_pos noData]
    exact ⟨rfl, rfl⟩
  · have absent : bioWritten sys.BIO_write = -2 := by
      rcases bioWritten_cases sys.BIO_write with one | two | zero | positive <;> omega
    refine ⟨ascii "BIO_write: the operation is not implemented in the specific BIO type",
      generarFirmaDigital_shows BLOCK C_BLOCK key ?_⟩
    rw [if_neg noData, if_pos absent]
    exact ⟨rfl, rfl⟩

theorem generarFirmaDigital_written (written : 0 < bioWritten sys.BIO_write) :
    Proc.Shows shownBy (generarFirmaDigital sys BLOCK key C_BLOCK)
      (signingShown BLOCK C_BLOCK key sys ++ textShown sys (filtered BLOCK C_BLOCK key sys))
      (.ok (signatureBlock BLOCK C_BLOCK key)) := by
  have data : ¬ (bioWritten sys.BIO_write = -1 ∨ bioWritten sys.BIO_write = 0) := by omega
  have implemented : ¬ bioWritten sys.BIO_write = -2 := by omega
  apply generarFirmaDigital_shows BLOCK C_BLOCK key
  rw [if_neg data, if_neg implemented]
  exact ⟨rfl, rfl⟩

end Output

section Run

variable (C_BLOCK : Vector UInt8 BLOCK_SIZE) {fichero priv : CString} {file : File} {key : ssl.Private}

def privateKey (sys : System ssl) (pathPrivateKey : CString) : Option ssl.Private :=
  if sys.RSA_new then sys.PEM_read_RSAPrivateKey (sys.fopen .readPrivkey pathPrivateKey) else none

theorem readPrivkey_loaded (loaded : privateKey sys priv = some key) :
    Proc.Shows shownBy (readPrivkey sys priv) [] (.ok key) := readKey_loaded loaded

theorem readPrivkey_missing (missing : privateKey sys priv = none) :
    ∃ message, Proc.Shows shownBy (readPrivkey sys priv) [.err .readPrivkey message] (.error 1) :=
  readKey_missing missing

def blockOf (ssl : OpenSSL) (fichero : CString) (file : File) : Vector UInt8 BLOCK_SIZE :=
  signedBlock (digestOf ssl.sha512 fichero (messageText TEXT_SIZE file))

theorem creacionFirma_unread (priv : CString)
    (stopped : ∀ file, ¬ Completed (sys.openFile fichero) (messageDelivery TEXT_SIZE) file) :
    ∃ message, Proc.Shows shownBy (creacionFirma sys C_BLOCK fichero priv) [.err .sha512 message] (.error 1) := by
  obtain ⟨message, failed⟩ := sha512_stopped ssl.sha512 stopped (Vector.replicate TEXT_SIZE 0)
  exact ⟨message, failed.stop⟩

theorem creacionFirma_read (completed : Completed (sys.openFile fichero) (messageDelivery TEXT_SIZE) file)
    {shown : List Event} {result : Except Nat Empty}
    (rest : Proc.Shows shownBy (readPrivkey sys priv >>= fun key =>
      generarFirmaDigital sys (blockOf ssl fichero file) key C_BLOCK >>= fun _ => Proc.exit 0) shown result) :
    Proc.Shows shownBy (creacionFirma sys C_BLOCK fichero priv) shown result := by
  obtain ⟨text, hashed⟩ := sha512_completed ssl.sha512 completed (Vector.replicate TEXT_SIZE 0)
  exact hashed.bind rest

theorem creacionFirma_unkeyed
    (completed : Completed (sys.openFile fichero) (messageDelivery TEXT_SIZE) file)
    (missing : privateKey sys priv = none) :
    ∃ message, Proc.Shows shownBy (creacionFirma sys C_BLOCK fichero priv) [.err .readPrivkey message]
      (.error 1) := by
  obtain ⟨message, failed⟩ := readPrivkey_missing missing
  exact ⟨message, creacionFirma_read C_BLOCK completed failed.stop⟩

theorem creacionFirma_rejected
    (completed : Completed (sys.openFile fichero) (messageDelivery TEXT_SIZE) file)
    (loaded : privateKey sys priv = some key) (rejected : bioWritten sys.BIO_write ≤ 0) :
    ∃ message, Proc.Shows shownBy (creacionFirma sys C_BLOCK fichero priv)
      (signingShown (blockOf ssl fichero file) C_BLOCK key sys ++ [.err .generarFirmaDigital message])
      (.error 1) := by
  obtain ⟨message, failed⟩ := generarFirmaDigital_rejected (blockOf ssl fichero file) C_BLOCK key rejected
  exact ⟨message, creacionFirma_read C_BLOCK completed ((readPrivkey_loaded loaded).bind failed.stop)⟩

theorem creacionFirma_written
    (completed : Completed (sys.openFile fichero) (messageDelivery TEXT_SIZE) file)
    (loaded : privateKey sys priv = some key) (written : 0 < bioWritten sys.BIO_write) :
    Proc.Shows shownBy (creacionFirma sys C_BLOCK fichero priv)
      (signingShown (blockOf ssl fichero file) C_BLOCK key sys ++
        textShown sys (filtered (blockOf ssl fichero file) C_BLOCK key sys))
      (.error 0) := by
  have signed := generarFirmaDigital_written (blockOf ssl fichero file) C_BLOCK key written
  exact creacionFirma_read C_BLOCK completed ((readPrivkey_loaded loaded).bind (signed.exit 0))

end Run

/-- RSA wrote a whole block, the filter took all of it, and its base64 is what was printed. -/
def SignaturePrinted (ssl : OpenSSL) (trace : List Event) : Prop :=
  ∃ block written data, Event.rsaPrivateEncrypt block 512 written ∈ trace ∧
    Event.bioWrite data 512 ∈ trace ∧ stdout trace = beginLine ++ ssl.base64 written ++ endLine

/-- Signing fails closed: exit status 0 means that a signature was printed, and what the block held
    before RSA wrote to it never shows in the output. -/
def SigningFailsClosed (sys : System ssl) (program fichero priv : CString) : Prop :=
  ∀ uninit : Uninitialised,
    ((main sys uninit [program, fichero, priv]).status = 0 →
      SignaturePrinted ssl (main sys uninit [program, fichero, priv]).trace) ∧
    ∀ uninit' : Uninitialised,
      stdout (main sys uninit' [program, fichero, priv]).trace =
        stdout (main sys uninit [program, fichero, priv]).trace

section FailsClosed

variable {program fichero priv : CString} {file : File} {key : ssl.Private}

theorem main_three (sys : System ssl) (uninit : Uninitialised) (program fichero priv : CString) :
    main sys uninit [program, fichero, priv] = creacionFirma sys uninit.C_BLOCK fichero priv := rfl

theorem failsClosed_of_stopped (printed : Bytes)
    (runs : ∀ C_BLOCK, ∃ shown, Proc.Shows shownBy (creacionFirma sys C_BLOCK fichero priv) shown (.error 1) ∧
      stdout shown = printed) : SigningFailsClosed sys program fichero priv := by
  intro uninit
  obtain ⟨shown, ended, output⟩ := runs uninit.C_BLOCK
  constructor
  · intro success
    rw [main_three, ended.status] at success
    cases success
  · intro uninit'
    obtain ⟨shown', ended', output'⟩ := runs uninit'.C_BLOCK
    rw [main_three, main_three, stdout_of_shows ended, stdout_of_shows ended', output, output']

theorem stdout_signingShown (BLOCK C_BLOCK : Vector UInt8 BLOCK_SIZE) (key : ssl.Private) (rest : List Event) :
    stdout (signingShown BLOCK C_BLOCK key sys ++ rest) =
      beginLine.take sys.out.beginning ++ stdout rest := by
  simp [signingShown, printedBy]

theorem signatureBlock_full {BLOCK : Vector UInt8 BLOCK_SIZE}
    (whole : (ssl.RSA_private_encrypt key BLOCK).sig_size = 512) (C_BLOCK : Vector UInt8 BLOCK_SIZE) :
    (signatureBlock BLOCK C_BLOCK key).toList = (ssl.RSA_private_encrypt key BLOCK).written := by
  have length : (ssl.RSA_private_encrypt key BLOCK).written.length = BLOCK_SIZE := by
    cases result : ssl.RSA_private_encrypt key BLOCK with
    | failed =>
      rw [result] at whole
      cases whole
    | wrote bytes fits =>
      rw [result] at whole
      exact Int.ofNat.inj whole
  exact toList_blit_full _ _ length

theorem filtered_whole {BLOCK : Vector UInt8 BLOCK_SIZE}
    (whole : (ssl.RSA_private_encrypt key BLOCK).sig_size = 512) (taken : bioWritten sys.BIO_write = 512)
    (C_BLOCK : Vector UInt8 BLOCK_SIZE) :
    filtered BLOCK C_BLOCK key sys = (ssl.RSA_private_encrypt key BLOCK).written := by
  unfold filtered
  rw [taken, signatureBlock_full whole, ← signatureBlock_full whole C_BLOCK]
  exact List.take_of_length_le (Nat.le_of_eq Vector.length_toList)

theorem creacionFirma_whole (completed : Completed (sys.openFile fichero) (messageDelivery TEXT_SIZE) file)
    (loaded : privateKey sys priv = some key)
    (whole : (ssl.RSA_private_encrypt key (blockOf ssl fichero file)).sig_size = 512)
    (taken : bioWritten sys.BIO_write = 512)
    (getsOut : GetsOut sys (ssl.RSA_private_encrypt key (blockOf ssl fichero file)).written)
    (C_BLOCK : Vector UInt8 BLOCK_SIZE) :
    (creacionFirma sys C_BLOCK fichero priv).status = 0 ∧
    SignaturePrinted ssl (creacionFirma sys C_BLOCK fichero priv).trace ∧
    stdout (creacionFirma sys C_BLOCK fichero priv).trace = beginLine ++
      ssl.base64 (ssl.RSA_private_encrypt key (blockOf ssl fichero file)).written ++ endLine := by
  have run := creacionFirma_written C_BLOCK completed loaded (by omega)
  have output : stdout (creacionFirma sys C_BLOCK fichero priv).trace = beginLine ++
      ssl.base64 (ssl.RSA_private_encrypt key (blockOf ssl fichero file)).written ++ endLine := by
    rw [stdout_of_shows run, stdout_signingShown, filtered_whole whole taken]
    exact (getsOut_iff sys _).mpr getsOut
  refine ⟨run.status, ⟨(blockOf ssl fichero file).toList, _,
    (signatureBlock (blockOf ssl fichero file) C_BLOCK key).toList, ?_, ?_, output⟩, output⟩
  · rw [mem_of_shows run rfl]
    simp [signingShown, whole]
  · rw [mem_of_shows run rfl]
    simp [signingShown, taken]

theorem whole_of_signaturePrinted
    (completed : Completed (sys.openFile fichero) (messageDelivery TEXT_SIZE) file)
    (loaded : privateKey sys priv = some key) (written : 0 < bioWritten sys.BIO_write)
    {C_BLOCK : Vector UInt8 BLOCK_SIZE}
    (printed : SignaturePrinted ssl (creacionFirma sys C_BLOCK fichero priv).trace) :
    (ssl.RSA_private_encrypt key (blockOf ssl fichero file)).sig_size = 512 ∧
    bioWritten sys.BIO_write = 512 ∧
    GetsOut sys (ssl.RSA_private_encrypt key (blockOf ssl fichero file)).written := by
  have run := creacionFirma_written C_BLOCK completed loaded written
  obtain ⟨block, bytes, data, encrypted, taken, output⟩ := printed
  rw [mem_of_shows run rfl] at encrypted taken
  simp only [signingShown, textShown, List.cons_append, List.nil_append, List.mem_cons,
    Event.rsaPrivateEncrypt.injEq, Event.bioWrite.injEq, List.not_mem_nil, reduceCtorEq, or_false,
    false_or] at encrypted taken
  have whole := encrypted.2.1.symm
  have all := taken.2.symm
  refine ⟨whole, all, ?_⟩
  rwa [stdout_of_shows run, stdout_signingShown, filtered_whole whole all, encrypted.2.2, getsOut_iff] at output

theorem failsClosed_unread (program priv : CString)
    (stopped : ∀ file, ¬ Completed (sys.openFile fichero) (messageDelivery TEXT_SIZE) file) :
    SigningFailsClosed sys program fichero priv := by
  apply failsClosed_of_stopped []
  intro C_BLOCK
  obtain ⟨message, ended⟩ := creacionFirma_unread C_BLOCK priv stopped
  exact ⟨_, ended, rfl⟩

theorem failsClosed_unkeyed (program : CString)
    (completed : Completed (sys.openFile fichero) (messageDelivery TEXT_SIZE) file)
    (missing : privateKey sys priv = none) : SigningFailsClosed sys program fichero priv := by
  apply failsClosed_of_stopped []
  intro C_BLOCK
  obtain ⟨message, ended⟩ := creacionFirma_unkeyed C_BLOCK completed missing
  exact ⟨_, ended, rfl⟩

theorem failsClosed_rejected (program : CString)
    (completed : Completed (sys.openFile fichero) (messageDelivery TEXT_SIZE) file)
    (loaded : privateKey sys priv = some key) (rejected : bioWritten sys.BIO_write ≤ 0) :
    SigningFailsClosed sys program fichero priv := by
  apply failsClosed_of_stopped (beginLine.take sys.out.beginning)
  intro C_BLOCK
  obtain ⟨message, ended⟩ := creacionFirma_rejected C_BLOCK completed loaded rejected
  refine ⟨_, ended, ?_⟩
  rw [stdout_signingShown]
  exact List.append_nil _

theorem failsClosed_written_iff (program : CString)
    (completed : Completed (sys.openFile fichero) (messageDelivery TEXT_SIZE) file)
    (loaded : privateKey sys priv = some key) (written : 0 < bioWritten sys.BIO_write) :
    SigningFailsClosed sys program fichero priv ↔
      (ssl.RSA_private_encrypt key (blockOf ssl fichero file)).sig_size = 512 ∧
      bioWritten sys.BIO_write = 512 ∧
      GetsOut sys (ssl.RSA_private_encrypt key (blockOf ssl fichero file)).written := by
  apply Iff.intro
  · intro closed
    let uninit : Uninitialised := ⟨Vector.replicate BLOCK_SIZE 0, program⟩
    have run := creacionFirma_written uninit.C_BLOCK completed loaded written
    exact whole_of_signaturePrinted completed loaded written ((closed uninit).1 run.status)
  · intro all uninit
    have run := creacionFirma_whole completed loaded all.1 all.2.1 all.2.2
    exact ⟨fun _ => (run uninit.C_BLOCK).2.1,
      fun uninit' => (run uninit'.C_BLOCK).2.2.trans (run uninit.C_BLOCK).2.2.symm⟩

end FailsClosed

/-- Signing fails closed exactly when it stops earlier, when the filter takes nothing, or when RSA writes
    a whole block, the filter takes all of it and all of the text gets out. -/
theorem signing_fails_closed_iff (sys : System ssl) (program fichero priv : CString) :
    SigningFailsClosed sys program fichero priv ↔
      (∀ file, ¬ Completed (sys.openFile fichero) (messageDelivery TEXT_SIZE) file) ∨
      privateKey sys priv = none ∨
      bioWritten sys.BIO_write ≤ 0 ∨
      ∃ file key, Completed (sys.openFile fichero) (messageDelivery TEXT_SIZE) file ∧
        privateKey sys priv = some key ∧
        (ssl.RSA_private_encrypt key (blockOf ssl fichero file)).sig_size = 512 ∧
        bioWritten sys.BIO_write = 512 ∧
        GetsOut sys (ssl.RSA_private_encrypt key (blockOf ssl fichero file)).written := by
  rcases completed_or_not (sys.openFile fichero) (messageDelivery TEXT_SIZE) with ⟨file, completed⟩ | stopped
  · cases loaded : privateKey sys priv with
    | none => exact iff_of_true (failsClosed_unkeyed program completed loaded) (Or.inr (Or.inl rfl))
    | some key =>
      by_cases rejected : bioWritten sys.BIO_write ≤ 0
      · exact iff_of_true (failsClosed_rejected program completed loaded rejected)
          (Or.inr (Or.inr (Or.inl rejected)))
      · rw [failsClosed_written_iff program completed loaded (by omega)]
        apply Iff.intro
        · intro all
          exact Or.inr (Or.inr (Or.inr ⟨file, key, completed, rfl, all⟩))
        · intro condition
          rcases condition with unread | missing | refused | ⟨other, found, again, same, all⟩
          · exact absurd completed (unread file)
          · cases missing
          · exact absurd refused rejected
          · cases same
            rwa [completed.unique again] at all
  · exact iff_of_true (failsClosed_unread program priv stopped) (Or.inl stopped)

section Sample

def shortKeyFile : Bytes := List.replicate 256 0x00

def unsignedFiles : List (CString × Bytes) := [(messagePath, ascii "hola\n"), (keyPath, shortKeyFile)]

def unsignedRun (byte : UInt8) : Process Empty :=
  main (sampleSystem unsignedFiles) (sampleUninit byte) [programName, messagePath, keyPath]

def shortKey : sampleSsl.Private := shortKeyFile.length

theorem sample_getsOut (files : List (CString × Bytes)) {data : Bytes} (length : data.length = 512) :
    GetsOut (sampleSystem files) data := by
  have room : ∀ text : Bytes, text.length ≤ (base64Print data).length → text.length ≤ 4096 := by
    intro text shorter
    have printed := base64Print_length data
    omega
  have heading : beginLine.length ≤ 4096 := by decide
  have closing : endLine.length ≤ 4096 := by decide
  exact ⟨heading, room _ (List.length_take_le' _ _), room _ (by simp [sampleSsl, base64Rest]), closing⟩

theorem shortKey_refused (block : Vector UInt8 BLOCK_SIZE) :
    sampleSsl.RSA_private_encrypt shortKey block = .failed := by
  have sizes := sizes
  have length : shortKeyFile.length = 256 := List.length_replicate
  have other : shortKeyFile.length ≠ BLOCK_SIZE := by omega
  exact sample_private_refuses block other

/-- With a key of 2048 bits RSA fails, and the run prints what the block held as if it were a signature
    and exits 0. -/
theorem uninitialised_block_printed :
    (unsignedRun 0x41).status = 0 ∧
    Event.rsaPrivateEncrypt (blockOf sampleSsl messagePath (sampleFile (ascii "hola\n"))).toList (-1) [] ∈
      (unsignedRun 0x41).trace ∧
    stdout (unsignedRun 0x41).trace = beginLine ++ base64Print (List.replicate 512 0x41) ++ endLine ∧
    ¬ SigningFailsClosed (sampleSystem unsignedFiles) programName messagePath keyPath := by
  have completed : Completed ((sampleSystem unsignedFiles).openFile messagePath) (messageDelivery TEXT_SIZE)
      (sampleFile (ascii "hola\n")) := completed_message rfl (sampleFile_faultless _)
  have loaded : privateKey (sampleSystem unsignedFiles) keyPath = some shortKey := rfl
  have refused := shortKey_refused (blockOf sampleSsl messagePath (sampleFile (ascii "hola\n")))
  have taken := sample_written unsignedFiles
  have run := creacionFirma_written (sampleUninit 0x41).C_BLOCK completed loaded (by omega)
  refine ⟨run.status, ?_, ?_, ?_⟩
  · rw [unsignedRun, main_three, mem_of_shows run rfl]
    simp [signingShown, refused, RsaResult.sig_size, RsaResult.written]
  · have untouched : signatureBlock (blockOf sampleSsl messagePath (sampleFile (ascii "hola\n")))
        (sampleUninit 0x41).C_BLOCK shortKey = Vector.replicate BLOCK_SIZE 0x41 := by
      unfold signatureBlock
      rw [refused]
      exact blit_nil _ _
    have all : filtered (blockOf sampleSsl messagePath (sampleFile (ascii "hola\n")))
        (sampleUninit 0x41).C_BLOCK shortKey (sampleSystem unsignedFiles) = List.replicate 512 0x41 := by
      unfold filtered
      rw [untouched, taken, Vector.toList_replicate, List.take_replicate]
      rfl
    have getsOut : GetsOut (sampleSystem unsignedFiles) (List.replicate 512 0x41) :=
      sample_getsOut unsignedFiles List.length_replicate
    unfold unsignedRun
    rw [main_three, stdout_of_shows run, stdout_signingShown, all, (getsOut_iff _ _).mpr getsOut, sample_base64]
  · intro closed
    have whole := whole_of_signaturePrinted completed loaded (by omega) ((closed (sampleUninit 0x41)).1 run.status)
    rw [refused] at whole
    exact absurd whole.1 (by decide)

end Sample

end SignProof
