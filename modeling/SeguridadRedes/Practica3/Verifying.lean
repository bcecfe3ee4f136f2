import SeguridadRedes.Practica3.Arguments
import SeguridadRedes.Practica3.Block
import SeguridadRedes.Practica3.Stages

namespace SignProof

open C Crypto Programs SignModel

variable {ssl : OpenSSL} {sys : System ssl}

def publicKey (sys : System ssl) (pathPubkey : CString) : Option ssl.Public :=
  if sys.RSA_new then sys.PEM_read_RSA_PUBKEY (sys.fopen .readPubkey pathPubkey) else none

/-- `BLOCK`, cleared beforehand, after the raw operation on a signature. -/
def recoveredBlock (key : ssl.Public) (firma : Vector UInt8 BLOCK_SIZE) : Vector UInt8 BLOCK_SIZE :=
  blit (Vector.replicate BLOCK_SIZE 0) 0 (ssl.RSA_public_decrypt key firma).written

def firmaBlock (sys : System ssl) (sig : CString) (C_BLOCK : Vector UInt8 BLOCK_SIZE) :
    Vector UInt8 BLOCK_SIZE := blit C_BLOCK 0 (signatureBytes sys sig)

def decrypted (key : ssl.Public) (firma : Vector UInt8 BLOCK_SIZE) : Event :=
  .rsaPublicDecrypt firma.toList (ssl.RSA_public_decrypt key firma).sig_size
    (ssl.RSA_public_decrypt key firma).written

def decryptShown (key : ssl.Public) (firma : Vector UInt8 BLOCK_SIZE) : List Event :=
  [decrypted key firma, .paddingChecked (comprobarPadding (recoveredBlock key firma))]

/-- The raw operation stays inside the block. -/
def Fits (key : ssl.Public) (firma : Vector UInt8 BLOCK_SIZE) : Prop :=
  (ssl.RSA_public_decrypt key firma).written.length ≤ BLOCK_SIZE

theorem fits_of_modulus {key : ssl.Public} (modulus : ssl.RSA_size key ≤ BLOCK_SIZE)
    (firma : Vector UInt8 BLOCK_SIZE) : Fits key firma :=
  Nat.le_trans (ssl.RSA_public_decrypt key firma).written_length modulus

section Run

variable {sig pub : CString} {key : ssl.Public} {file : File} (C_BLOCK : Vector UInt8 BLOCK_SIZE)
  (fichero : CString)

theorem readPubkey_loaded (loaded : publicKey sys pub = some key) :
    Proc.Shows shownBy (readPubkey sys pub) [] (.ok key) := readKey_loaded loaded

theorem readPubkey_missing (missing : publicKey sys pub = none) :
    ∃ message, Proc.Shows shownBy (readPubkey sys pub) [.err .readPubkey message] (.error 1) :=
  readKey_missing missing

theorem desencryptarMSG_shows (BLOCK : Vector UInt8 BLOCK_SIZE) {firma : Vector UInt8 BLOCK_SIZE}
    (fits : Fits key firma) :
    Proc.Shows shownBy (desencryptarMSG sys BLOCK key firma) [decrypted key firma]
      (.ok (blit BLOCK 0 (ssl.RSA_public_decrypt key firma).written)) := by
  have silent := printError_shows (ssl.RSA_public_decrypt key firma).sig_size sys.ERR_error_string
  refine (Proc.shows_emit _).bind ?_
  rw [if_neg (Nat.not_lt_of_le fits)]
  exact silent.bind (Proc.shows_pure _)

theorem desencryptarMSG_overruns (BLOCK : Vector UInt8 BLOCK_SIZE) {firma : Vector UInt8 BLOCK_SIZE}
    (beyond : ¬ Fits key firma) :
    Proc.Shows shownBy (desencryptarMSG sys BLOCK key firma) [decrypted key firma]
      (.error (sys.overrun (ssl.RSA_public_decrypt key firma).written)) := by
  refine (Proc.shows_emit _).bind ?_
  rw [if_pos (Nat.lt_of_not_le beyond)]
  exact Proc.shows_exit _

theorem verificacionFirma_failed (pub : CString) {failure : BioFailure}
    (fails : (signatureDelivery sys sig).failure = some failure) :
    Proc.Shows shownBy (verificacionFirma sys C_BLOCK sig fichero pub)
      [.err .leerFirmaB64 (readMessage failure)] (.error 1) := (leerFirmaB64_failed fails C_BLOCK).stop

theorem verificacionFirma_unkeyed (reads : (signatureDelivery sys sig).failure = none)
    (missing : publicKey sys pub = none) :
    ∃ message, Proc.Shows shownBy (verificacionFirma sys C_BLOCK sig fichero pub)
      [.err .readPubkey message] (.error 1) := by
  rcases readPubkey_missing missing with ⟨message, failed⟩
  exact ⟨message, (leerFirmaB64_read reads C_BLOCK).bind failed.stop⟩

theorem verificacionFirma_overruns (reads : (signatureDelivery sys sig).failure = none)
    (loaded : publicKey sys pub = some key) (beyond : ¬ Fits key (firmaBlock sys sig C_BLOCK)) :
    Proc.Shows shownBy (verificacionFirma sys C_BLOCK sig fichero pub)
      [decrypted key (firmaBlock sys sig C_BLOCK)]
      (.error (sys.overrun (ssl.RSA_public_decrypt key (firmaBlock sys sig C_BLOCK)).written)) :=
  (leerFirmaB64_read reads C_BLOCK).bind ((readPubkey_loaded loaded).bind
    (desencryptarMSG_overruns _ beyond).stop)

theorem verificacionFirma_decrypted (reads : (signatureDelivery sys sig).failure = none)
    (loaded : publicKey sys pub = some key) (fits : Fits key (firmaBlock sys sig C_BLOCK))
    {shown : List Event} {result : Except Nat Empty}
    (rest : Proc.Shows shownBy
      (if comprobarPadding (recoveredBlock key (firmaBlock sys sig C_BLOCK)) = 0 then
        comprobarHash sys fichero (recoveredBlock key (firmaBlock sys sig C_BLOCK))
      else Proc.exit 0) shown result) :
    Proc.Shows shownBy (verificacionFirma sys C_BLOCK sig fichero pub)
      (decryptShown key (firmaBlock sys sig C_BLOCK) ++ shown) result :=
  (leerFirmaB64_read reads C_BLOCK).bind ((readPubkey_loaded loaded).bind
    ((desencryptarMSG_shows _ fits).bind ((Proc.shows_emit _).bind rest)))

theorem verificacionFirma_unpadded (reads : (signatureDelivery sys sig).failure = none)
    (loaded : publicKey sys pub = some key) (fits : Fits key (firmaBlock sys sig C_BLOCK))
    (broken : ¬ Padded (recoveredBlock key (firmaBlock sys sig C_BLOCK))) :
    Proc.Shows shownBy (verificacionFirma sys C_BLOCK sig fichero pub)
      (decryptShown key (firmaBlock sys sig C_BLOCK) ++ []) (.error 0) := by
  have rejected : ¬ comprobarPadding (recoveredBlock key (firmaBlock sys sig C_BLOCK)) = 0 := by
    rwa [comprobarPadding_eq_zero]
  apply verificacionFirma_decrypted C_BLOCK fichero reads loaded fits
  rw [if_neg rejected]
  exact Proc.shows_exit 0

theorem verificacionFirma_unread (reads : (signatureDelivery sys sig).failure = none)
    (loaded : publicKey sys pub = some key) (fits : Fits key (firmaBlock sys sig C_BLOCK))
    (padded : Padded (recoveredBlock key (firmaBlock sys sig C_BLOCK)))
    (stopped : ∀ file, ¬ Completed (sys.openFile fichero) (messageDelivery TEXT_SIZE) file) :
    ∃ message, Proc.Shows shownBy (verificacionFirma sys C_BLOCK sig fichero pub)
      (decryptShown key (firmaBlock sys sig C_BLOCK) ++ [.err .sha512 message]) (.error 1) := by
  rcases sha512_stopped ssl.sha512 stopped (Vector.replicate TEXT_SIZE 0) with ⟨message, failed⟩
  refine ⟨message, verificacionFirma_decrypted C_BLOCK fichero reads loaded fits ?_⟩
  rw [if_pos (comprobarPadding_of_padded _ padded)]
  exact failed.stop

theorem verificacionFirma_compared (reads : (signatureDelivery sys sig).failure = none)
    (loaded : publicKey sys pub = some key) (fits : Fits key (firmaBlock sys sig C_BLOCK))
    (padded : Padded (recoveredBlock key (firmaBlock sys sig C_BLOCK)))
    (completed : Completed (sys.openFile fichero) (messageDelivery TEXT_SIZE) file) :
    Proc.Shows shownBy (verificacionFirma sys C_BLOCK sig fichero pub)
      (decryptShown key (firmaBlock sys sig C_BLOCK) ++
        [.hashesCompared (compararHASHES (digestOf ssl.sha512 fichero (messageText TEXT_SIZE file))
          (sacarHashFirma (recoveredBlock key (firmaBlock sys sig C_BLOCK)) (Vector.replicate L_SHA512 0)))])
      (.error 0) := by
  rcases sha512_completed ssl.sha512 completed (Vector.replicate TEXT_SIZE 0) with ⟨text, hashed⟩
  apply verificacionFirma_decrypted C_BLOCK fichero reads loaded fits
  rw [if_pos (comprobarPadding_of_padded _ padded)]
  exact hashed.bind ((Proc.shows_emit _).exit 0)

end Run

section BlockFromFile

def rsaInput : Event → Option Bytes
  | .rsaPublicDecrypt block _ _ => some block
  | _ => none

def rsaInputs (trace : List Event) : List Bytes := trace.filterMap rsaInput

def ErrsReadingSignature (run : Process Empty) : Prop :=
  run.status ≠ 0 ∧ ∃ message, Event.err .leerFirmaB64 message ∈ run.trace

/-- Two verifications that differ in what the block held at the start both end with an error while they
    read the signature, or hand the same block to RSA. -/
def BlockFromFile (sys : System ssl) (program first second third fourth : CString) : Prop :=
  ∀ uninit uninit' : Uninitialised,
    let run := main sys uninit [program, first, second, third, fourth]
    let run' := main sys uninit' [program, first, second, third, fourth]
    ErrsReadingSignature run ∧ ErrsReadingSignature run' ∨ rsaInputs run.trace = rsaInputs run'.trace

def signatureArgument (first second third fourth : CString) : Option CString :=
  if first = verb_v then some second
  else if second = verb_v then some third
  else if third = verb_v then some fourth
  else none

theorem main_of_signatureArgument (sys : System ssl) (uninit : Uninitialised)
    (program first second third fourth : CString) :
    main sys uninit [program, first, second, third, fourth] =
      match signatureArgument first second third fourth with
      | none => usage
      | some sig => verificacionFirma sys uninit.C_BLOCK sig third fourth := by
  rw [main_five, buscarFirma_five]
  rfl

theorem rsaInputs_visible (trace : List Event) : rsaInputs (visible trace) = rsaInputs trace := by
  induction trace with
  | nil => rfl
  | cons event rest ih =>
    have split : visible (event :: rest) = shownBy event ++ visible rest := rfl
    rw [split, rsaInputs, List.filterMap_append, ← rsaInputs, ← rsaInputs, ih]
    cases event <;> rfl

theorem rsaInputs_of_shows {p : Process Empty} {shown : List Event} {result : Except Nat Empty}
    (h : Proc.Shows shownBy p shown result) : rsaInputs p.trace = rsaInputs shown := by
  rw [← rsaInputs_visible, visible, h.trace]

variable {sig fichero pub : CString} {key : ssl.Public}

theorem verificacionFirma_input (fichero : CString) (reads : (signatureDelivery sys sig).failure = none)
    (loaded : publicKey sys pub = some key) (C_BLOCK : Vector UInt8 BLOCK_SIZE) :
    rsaInputs (verificacionFirma sys C_BLOCK sig fichero pub).trace = [(firmaBlock sys sig C_BLOCK).toList] ∧
    ¬ ErrsReadingSignature (verificacionFirma sys C_BLOCK sig fichero pub) := by
  have outcome : ∃ more result, Proc.Shows shownBy (verificacionFirma sys C_BLOCK sig fichero pub)
      (decrypted key (firmaBlock sys sig C_BLOCK) :: more) result ∧ rsaInputs more = [] ∧
      ∀ message, Event.err .leerFirmaB64 message ∉ more := by
    by_cases fits : Fits key (firmaBlock sys sig C_BLOCK)
    · by_cases padded : Padded (recoveredBlock key (firmaBlock sys sig C_BLOCK))
      · rcases completed_or_not (sys.openFile fichero) (messageDelivery TEXT_SIZE) with
          ⟨file, completed⟩ | stopped
        · exact ⟨_, _, verificacionFirma_compared C_BLOCK fichero reads loaded fits padded completed, rfl, by simp⟩
        · obtain ⟨message, failed⟩ := verificacionFirma_unread C_BLOCK fichero reads loaded fits padded stopped
          exact ⟨_, _, failed, rfl, by simp⟩
      · exact ⟨_, _, verificacionFirma_unpadded C_BLOCK fichero reads loaded fits padded, rfl, by simp⟩
    · exact ⟨_, _, verificacionFirma_overruns C_BLOCK fichero reads loaded fits, rfl, by simp⟩
  rcases outcome with ⟨more, result, run, inputs, quiet⟩
  constructor
  · rw [rsaInputs_of_shows run, rsaInputs, List.filterMap_cons, ← rsaInputs, inputs]
    rfl
  · intro errs
    rcases errs with ⟨_, message, member⟩
    rw [mem_of_shows run rfl, List.mem_cons] at member
    rcases member with early | late
    · cases early
    · exact quiet message late

theorem verificacionFirma_unkeyed_input (fichero : CString) (reads : (signatureDelivery sys sig).failure = none)
    (missing : publicKey sys pub = none) (C_BLOCK : Vector UInt8 BLOCK_SIZE) :
    rsaInputs (verificacionFirma sys C_BLOCK sig fichero pub).trace = [] := by
  rcases verificacionFirma_unkeyed C_BLOCK fichero reads missing with ⟨message, run⟩
  rw [rsaInputs_of_shows run]
  rfl

theorem errsReadingSignature_of_failure {failure : BioFailure}
    (fails : (signatureDelivery sys sig).failure = some failure) (C_BLOCK : Vector UInt8 BLOCK_SIZE) :
    ErrsReadingSignature (verificacionFirma sys C_BLOCK sig fichero pub) := by
  have run := verificacionFirma_failed C_BLOCK fichero pub fails
  refine ⟨?_, readMessage failure, ?_⟩
  · rw [run.status]
    decide
  · rw [mem_of_shows run rfl]
    exact List.mem_singleton_self _

/-- A signature that does not fill the block leaves some of what was there before. -/
theorem firmaBlock_independent_iff (sys : System ssl) (sig : CString) :
    (∀ C_BLOCK C_BLOCK', firmaBlock sys sig C_BLOCK = firmaBlock sys sig C_BLOCK') ↔
      (signatureBytes sys sig).length = 512 := by
  have bounded := signatureBytes_length sys sig
  constructor
  · intro independent
    by_contra short
    have room : (signatureBytes sys sig).length < BLOCK_SIZE := Nat.lt_of_le_of_ne bounded short
    have kept := blit_injective_of_ne _ _ _
      (independent (Vector.replicate BLOCK_SIZE 0) (Vector.replicate BLOCK_SIZE 1)) _ room (Nat.le_refl _)
    simp at kept
  · intro full C_BLOCK C_BLOCK'
    exact blit_full _ _ _ full

/-- The block depends on the signature file alone exactly when the file cannot be decoded, no key is
    loaded, or the file fills the block. -/
theorem block_from_file_iff (sys : System ssl) (program first second third fourth : CString) :
    BlockFromFile sys program first second third fourth ↔
      ∀ sig, signatureArgument first second third fourth = some sig →
        (signatureDelivery sys sig).failure ≠ none ∨ publicKey sys fourth = none ∨
          (signatureBytes sys sig).length = 512 := by
  simp only [BlockFromFile, main_of_signatureArgument]
  cases signatureArgument first second third fourth with
  | none => exact iff_of_true (fun _ _ => Or.inr rfl) (fun sig absent => by cases absent)
  | some sig =>
    simp only [Option.some.injEq, forall_eq']
    cases reads : (signatureDelivery sys sig).failure with
    | some failure =>
      refine iff_of_true (fun uninit uninit' => Or.inl ?_) (Or.inl (by simp))
      exact ⟨errsReadingSignature_of_failure reads _, errsReadingSignature_of_failure reads _⟩
    | none =>
      cases loaded : publicKey sys fourth with
      | none =>
        refine iff_of_true (fun uninit uninit' => Or.inr ?_) (Or.inr (Or.inl rfl))
        rw [verificacionFirma_unkeyed_input third reads loaded, verificacionFirma_unkeyed_input third reads loaded]
      | some key =>
        have input := verificacionFirma_input third reads loaded
        simp only [(input _).1, (input _).2, false_and, false_or, List.cons.injEq, and_true,
          Vector.toList_inj, ne_eq, not_true_eq_false, reduceCtorEq]
        rw [← firmaBlock_independent_iff]
        exact ⟨fun same C_BLOCK C_BLOCK' => same ⟨C_BLOCK, program⟩ ⟨C_BLOCK', program⟩,
          fun same uninit uninit' => same _ _⟩

section Sample

def fullKey : sampleSsl.Public := fullKeyFile.length

theorem fullKey_decrypts (firma : Vector UInt8 BLOCK_SIZE) :
    sampleSsl.RSA_public_decrypt fullKey firma = wroteBlock firma :=
  sample_public_writes firma fullKeyFile_length

theorem fullKey_fits (firma : Vector UInt8 BLOCK_SIZE) : Fits fullKey firma :=
  @fits_of_modulus sampleSsl fullKey (Nat.le_refl BLOCK_SIZE) firma

theorem fullKey_recovers (firma : Vector UInt8 BLOCK_SIZE) : recoveredBlock fullKey firma = firma := by
  unfold recoveredBlock
  rw [fullKey_decrypts, ← Vector.toList_inj]
  exact toList_blit_full _ _ Vector.length_toList

def incompleteFiles : List (CString × Bytes) :=
  [(signaturePath, beginLine ++ base64Print [0x01, 0x02, 0x03] ++ endLine), (keyPath, fullKeyFile)]

def incompleteRun (byte : UInt8) : Process Empty :=
  main (sampleSystem incompleteFiles) (sampleUninit byte)
    [programName, verb_v, signaturePath, messagePath, keyPath]

/-- A signature of three bytes is completed with what the block held before. -/
theorem incomplete_signature_completed :
    rsaInputs (incompleteRun 0x41).trace = [[0x01, 0x02, 0x03] ++ List.replicate 509 0x41] ∧
    rsaInputs (incompleteRun 0x42).trace = [[0x01, 0x02, 0x03] ++ List.replicate 509 0x42] ∧
    ¬ BlockFromFile (sampleSystem incompleteFiles) programName verb_v signaturePath messagePath keyPath := by
  obtain ⟨reads, bytes⟩ : _ ∧ signatureBytes (sampleSystem incompleteFiles) signaturePath = _ :=
    sample_signature rfl (by decide)
  have loaded : publicKey (sampleSystem incompleteFiles) keyPath = some fullKey := rfl
  have block : ∀ byte, (firmaBlock (sampleSystem incompleteFiles) signaturePath (sampleUninit byte).C_BLOCK).toList =
      [0x01, 0x02, 0x03] ++ List.replicate 509 byte := by
    intro byte
    unfold firmaBlock
    rw [bytes, toList_blit _ _ (by decide), sampleUninit, Vector.toList_replicate, List.drop_replicate]
    rfl
  have input := fun byte => verificacionFirma_input messagePath reads loaded (sampleUninit byte).C_BLOCK
  have inputs : ∀ byte, rsaInputs (incompleteRun byte).trace = [[0x01, 0x02, 0x03] ++ List.replicate 509 byte] := by
    intro byte
    unfold incompleteRun
    rw [main_verifies, (input byte).1, block]
  refine ⟨inputs _, inputs _, fun fromFile => ?_⟩
  rcases fromFile (sampleUninit 0x41) (sampleUninit 0x42) with ⟨errs, _⟩ | same
  · rw [main_verifies] at errs
    exact (input 0x41).2 errs
  · have lists := (inputs 0x41).symm.trans (same.trans (inputs 0x42))
    exact absurd lists (by decide)

end Sample

end BlockFromFile

section Verdict

variable {sig fichero pub : CString} {key : ssl.Public}

/-- RSA recovered a block, its padding was found right and the two digests equal. -/
def Verified (trace : List Event) : Prop :=
  (∃ block sig_size written, 0 ≤ sig_size ∧ Event.rsaPublicDecrypt block sig_size written ∈ trace) ∧
    Event.paddingChecked 0 ∈ trace ∧ Event.hashesCompared 0 ∈ trace

/-- Exit status 0 tells the caller that the signature was verified, and any other that it was not, whatever
    becomes of a run that writes past the end of the block. -/
def VerdictInStatus (sys : System ssl) (uninit : Uninitialised) (program sig fichero pub : CString) : Prop :=
  ∀ overrun : Bytes → Nat,
    let run := main { sys with overrun := overrun } uninit [program, verb_v, sig, fichero, pub]
    run.status = 0 ↔ Verified run.trace

theorem decrypted_of_padded {firma : Vector UInt8 BLOCK_SIZE} (padded : Padded (recoveredBlock key firma)) :
    0 ≤ (ssl.RSA_public_decrypt key firma).sig_size := by
  cases result : ssl.RSA_public_decrypt key firma with
  | wrote bytes bounded => exact Int.natCast_nonneg _
  | failed =>
    have second := padded 1 (by decide) (by decide)
    rw [recoveredBlock, result, RsaResult.written, blit_nil, Vector.getElem_replicate] at second
    exact absurd second (by decide)

theorem not_verified_of_error {run : Process Empty} {shown : List Event}
    (h : Proc.Shows shownBy run shown (.error 1)) (uncompared : Event.hashesCompared 0 ∉ shown) :
    run.status = 0 ↔ Verified run.trace := by
  refine iff_of_false ?_ fun verified => uncompared ((mem_of_shows h rfl).mp verified.2.2)
  rw [h.status]
  decide

def recoveredDigest (BLOCK : Vector UInt8 BLOCK_SIZE) : Bytes := BLOCK.toList.drop (PADDING_SIZE + LEN_ID)

theorem sacarHashFirma_toList (BLOCK : Vector UInt8 BLOCK_SIZE) (HASH : Vector UInt8 L_SHA512) :
    (sacarHashFirma BLOCK HASH).toList = recoveredDigest BLOCK := by
  have sizes := sizes
  apply List.ext_getElem
  · simp only [recoveredDigest, Vector.length_toList, List.length_drop]
    omega
  · intro i h h'
    have inside : i < L_SHA512 := by simpa using h
    simp only [recoveredDigest, Vector.getElem_toList, List.getElem_drop]
    rw [getElem_sacarHashFirma _ _ _ inside (behindPadding inside)]
    congr 1
    omega

theorem hashesEqual_iff (message : Bytes) (BLOCK : Vector UInt8 BLOCK_SIZE) :
    compararHASHES (digestOf ssl.sha512 fichero message) (sacarHashFirma BLOCK (Vector.replicate L_SHA512 0)) = 0 ↔
      recoveredDigest BLOCK = ssl.sha512.digest (message ++ fichero.bytes) := by
  rw [compararHASHES_eq_zero, ← Vector.toList_inj, sacarHashFirma_toList]
  exact eq_comm

section Compared

variable (C_BLOCK : Vector UInt8 BLOCK_SIZE) (reads : (signatureDelivery sys sig).failure = none)
  (loaded : publicKey sys pub = some key)

include reads loaded

theorem not_verified_of_overrun (fichero : CString) (beyond : ¬ Fits key (firmaBlock sys sig C_BLOCK)) :
    ¬ Verified (verificacionFirma sys C_BLOCK sig fichero pub).trace := by
  have run := verificacionFirma_overruns C_BLOCK fichero reads loaded beyond
  intro verified
  have compared := (mem_of_shows run rfl).mp verified.2.2
  cases List.mem_singleton.mp compared

variable (fits : Fits key (firmaBlock sys sig C_BLOCK))

include fits

theorem not_verified_of_unpadded (fichero : CString)
    (broken : ¬ Padded (recoveredBlock key (firmaBlock sys sig C_BLOCK))) :
    ¬ Verified (verificacionFirma sys C_BLOCK sig fichero pub).trace := by
  have run := verificacionFirma_unpadded C_BLOCK fichero reads loaded fits broken
  intro verified
  have checked := (mem_of_shows run rfl).mp verified.2.1
  simp only [decryptShown, decrypted, List.append_nil, List.mem_cons, reduceCtorEq, Event.paddingChecked.injEq,
    List.not_mem_nil, or_false, false_or] at checked
  exact broken ((comprobarPadding_eq_zero _).mp checked.symm)

theorem verified_compared_iff {file : File}
    (padded : Padded (recoveredBlock key (firmaBlock sys sig C_BLOCK)))
    (completed : Completed (sys.openFile fichero) (messageDelivery TEXT_SIZE) file) :
    Verified (verificacionFirma sys C_BLOCK sig fichero pub).trace ↔
      recoveredDigest (recoveredBlock key (firmaBlock sys sig C_BLOCK)) =
        ssl.sha512.digest (messageText TEXT_SIZE file ++ fichero.bytes) := by
  have run := verificacionFirma_compared C_BLOCK fichero reads loaded fits padded completed
  rw [← hashesEqual_iff]
  apply Iff.intro
  · intro verified
    have compared := (mem_of_shows run rfl).mp verified.2.2
    simp only [decryptShown, decrypted, List.cons_append, List.nil_append, List.mem_cons, reduceCtorEq,
      Event.hashesCompared.injEq, List.not_mem_nil, or_false, false_or] at compared
    exact compared.symm
  · intro equal
    have recovered : decrypted key (firmaBlock sys sig C_BLOCK) ∈
        (verificacionFirma sys C_BLOCK sig fichero pub).trace :=
      (mem_of_shows run rfl).mpr (List.mem_append_left _ List.mem_cons_self)
    refine ⟨⟨_, _, _, decrypted_of_padded padded, recovered⟩, ?_, ?_⟩
    · rw [mem_of_shows run rfl, decryptShown, comprobarPadding_of_padded _ padded]
      simp
    · rw [mem_of_shows run rfl, equal]
      simp

/-- A run that recovers a block tells the truth exactly when the block has the padding and, if the message
    can be read, its digest. -/
theorem truthful_iff (fichero : CString) :
    ((verificacionFirma sys C_BLOCK sig fichero pub).status = 0 ↔
        Verified (verificacionFirma sys C_BLOCK sig fichero pub).trace) ↔
      Padded (recoveredBlock key (firmaBlock sys sig C_BLOCK)) ∧
      ∀ file, Completed (sys.openFile fichero) (messageDelivery TEXT_SIZE) file →
        recoveredDigest (recoveredBlock key (firmaBlock sys sig C_BLOCK)) =
          ssl.sha512.digest (messageText TEXT_SIZE file ++ fichero.bytes) := by
  by_cases padded : Padded (recoveredBlock key (firmaBlock sys sig C_BLOCK))
  · rcases completed_or_not (sys.openFile fichero) (messageDelivery TEXT_SIZE) with ⟨file, completed⟩ | stopped
    · have success := (verificacionFirma_compared C_BLOCK fichero reads loaded fits padded completed).status
      have digests := verified_compared_iff C_BLOCK reads loaded fits padded completed
      apply Iff.intro
      · intro verdict
        refine ⟨padded, fun other again => ?_⟩
        rw [completed.unique again]
        exact digests.mp (verdict.mp success)
      · intro condition
        exact iff_of_true success (digests.mpr (condition.2 file completed))
    · obtain ⟨message, run⟩ := verificacionFirma_unread C_BLOCK fichero reads loaded fits padded stopped
      exact iff_of_true (not_verified_of_error run (by simp [decryptShown, decrypted]))
        ⟨padded, fun file completed => absurd completed (stopped file)⟩
  · have success := (verificacionFirma_unpadded C_BLOCK fichero reads loaded fits padded).status
    have unverified := not_verified_of_unpadded C_BLOCK reads loaded fits fichero padded
    exact iff_of_false (fun verdict => unverified (verdict.mp success)) (fun condition => padded condition.1)

end Compared

theorem verdictInStatus_iff (sys : System ssl) (uninit : Uninitialised) (program sig fichero pub : CString) :
    VerdictInStatus sys uninit program sig fichero pub ↔
      ∀ overrun : Bytes → Nat,
        let run := verificacionFirma { sys with overrun := overrun } uninit.C_BLOCK sig fichero pub
        run.status = 0 ↔ Verified run.trace := by
  simp only [VerdictInStatus, main_verifies]

/-- The exit status tells the truth exactly when the run stops at the signature or the key, or when what the
    key recovers fits the block and has the padding and, if the message can be read, its digest. -/
theorem verdict_in_status_iff (sys : System ssl) (uninit : Uninitialised)
    (program sig fichero pub : CString) :
    VerdictInStatus sys uninit program sig fichero pub ↔
      (signatureDelivery sys sig).failure ≠ none ∨ publicKey sys pub = none ∨
      ∃ key, publicKey sys pub = some key ∧
        (ssl.RSA_public_decrypt key (firmaBlock sys sig uninit.C_BLOCK)).written.length ≤ BLOCK_SIZE ∧
        Padded (recoveredBlock key (firmaBlock sys sig uninit.C_BLOCK)) ∧
        ∀ file, Completed (sys.openFile fichero) (messageDelivery TEXT_SIZE) file →
          recoveredDigest (recoveredBlock key (firmaBlock sys sig uninit.C_BLOCK)) =
            ssl.sha512.digest (messageText TEXT_SIZE file ++ fichero.bytes) := by
  rw [verdictInStatus_iff]
  cases reads : (signatureDelivery sys sig).failure with
  | some failure =>
    refine iff_of_true (fun overrun => ?_) (Or.inl (by simp))
    have run := @verificacionFirma_failed ssl { sys with overrun := overrun } sig uninit.C_BLOCK fichero pub
      failure reads
    exact not_verified_of_error run (by simp)
  | none =>
    cases loaded : publicKey sys pub with
    | none =>
      refine iff_of_true (fun overrun => ?_) (Or.inr (Or.inl rfl))
      rcases @verificacionFirma_unkeyed ssl { sys with overrun := overrun } sig pub uninit.C_BLOCK fichero reads
        loaded with ⟨message, run⟩
      exact not_verified_of_error run (by simp)
    | some key =>
      simp only [ne_eq, not_true_eq_false, reduceCtorEq, false_or, Option.some.injEq, exists_eq_left']
      by_cases fits : Fits key (firmaBlock sys sig uninit.C_BLOCK)
      · have truthful := fun overrun => @truthful_iff ssl { sys with overrun := overrun } sig pub key
          uninit.C_BLOCK reads loaded fits fichero
        apply Iff.intro
        · intro verdict
          exact ⟨fits, (truthful sys.overrun).mp (verdict sys.overrun)⟩
        · intro condition overrun
          exact (truthful overrun).mpr condition.2
      · refine iff_of_false (fun verdict => ?_) (fun condition => fits condition.1)
        -- nothing keeps the overrun from ending in exit status 0
        have run := @verificacionFirma_overruns ssl { sys with overrun := fun _ => 0 } sig pub key
          uninit.C_BLOCK fichero reads loaded fits
        exact @not_verified_of_overrun ssl { sys with overrun := fun _ => 0 } sig pub key uninit.C_BLOCK reads
          loaded fichero fits ((verdict fun _ => 0).mp run.status)

section Sample

def rejectedFiles : List (CString × Bytes) :=
  [(signaturePath, beginLine ++ base64Print (List.replicate 512 0x00) ++ endLine),
    (messagePath, ascii "hola\n"), (keyPath, fullKeyFile)]

def rejectedRun : Process Empty :=
  main (sampleSystem rejectedFiles) (sampleUninit 0)
    [programName, verb_v, signaturePath, messagePath, keyPath]

/-- A block of zeros is found to have the wrong padding, and the run exits 0. -/
theorem rejected_signature_exits_zero :
    rejectedRun.status = 0 ∧ Event.paddingChecked (-1) ∈ rejectedRun.trace ∧ ¬ Verified rejectedRun.trace ∧
    ¬ VerdictInStatus (sampleSystem rejectedFiles) (sampleUninit 0) programName signaturePath messagePath
      keyPath := by
  obtain ⟨reads, bytes⟩ : _ ∧ signatureBytes (sampleSystem rejectedFiles) signaturePath = _ :=
    sample_signature rfl (Nat.le_of_eq List.length_replicate)
  have loaded : publicKey (sampleSystem rejectedFiles) keyPath = some fullKey := rfl
  have broken : ¬ Padded (recoveredBlock fullKey
      (firmaBlock (sampleSystem rejectedFiles) signaturePath (sampleUninit 0).C_BLOCK)) := by
    intro padded
    have second := padded 1 (by decide) (by decide)
    rw [fullKey_recovers, firmaBlock, bytes] at second
    simp only [getElem_blit] at second
    rw [dif_pos (by rw [List.length_replicate]; omega), List.getElem_replicate] at second
    exact absurd second (by decide)
  have run := verificacionFirma_unpadded (sampleUninit 0).C_BLOCK messagePath reads loaded (fullKey_fits _) broken
  have rejected := comprobarPadding_of_not_padded _ broken
  have checked : Event.paddingChecked (-1) ∈ rejectedRun.trace := by
    unfold rejectedRun
    rw [main_verifies, mem_of_shows run rfl, decryptShown, rejected]
    simp
  have unverified : ¬ Verified rejectedRun.trace := by
    unfold rejectedRun
    rw [main_verifies]
    exact not_verified_of_unpadded _ reads loaded (fullKey_fits _) _ broken
  exact ⟨run.status, checked, unverified,
    fun verdict => unverified ((verdict (sampleSystem rejectedFiles).overrun).mp run.status)⟩

end Sample

end Verdict

end SignProof
