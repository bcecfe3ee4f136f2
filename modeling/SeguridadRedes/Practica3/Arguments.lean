import SeguridadRedes.Crypto.Base64
import SeguridadRedes.Crypto.Sha
import SeguridadRedes.Practica3.ReadSignature

namespace SignProof

open C Crypto Programs SignModel

variable {ssl : OpenSSL}

theorem strncmp_verb_v (arg : CString) : strncmp verb_v arg sizeof_verb_v = 0 ↔ arg = verb_v := by
  have long : strlen verb_v < sizeof_verb_v := Nat.lt_succ_self _
  rw [strncmp_eq_zero long]
  exact eq_comm

theorem buscarFirma_five (program first second third fourth pathSignature : CString) :
    buscarFirma [program, first, second, third, fourth] pathSignature =
      if first = verb_v then some second
      else if second = verb_v then some third
      else if third = verb_v then some fourth
      else none := by
  by_cases one : first = verb_v
  · simp [buscarFirma, forRange, forCount, strncmp_verb_v, one]
  · by_cases two : second = verb_v
    · simp [buscarFirma, forRange, forCount, strncmp_verb_v, one, two]
    · by_cases three : third = verb_v
      · simp [buscarFirma, forRange, forCount, strncmp_verb_v, one, two, three]
      · simp [buscarFirma, forRange, forCount, strncmp_verb_v, one, two, three]

theorem main_five (sys : System ssl) (uninit : Uninitialised)
    (program first second third fourth : CString) :
    main sys uninit [program, first, second, third, fourth] =
      match buscarFirma [program, first, second, third, fourth] uninit.pathSignature with
      | none => usage
      | some pathSignature => verificacionFirma sys uninit.C_BLOCK pathSignature third fourth := rfl

theorem main_verifies (sys : System ssl) (uninit : Uninitialised) (program sig fichero pub : CString) :
    main sys uninit [program, verb_v, sig, fichero, pub] =
      verificacionFirma sys uninit.C_BLOCK sig fichero pub := by
  rw [main_five, buscarFirma_five, if_pos rfl]

theorem verificacionFirma_ne_usage (sys : System ssl) (C_BLOCK : Vector UInt8 BLOCK_SIZE)
    (sig fichero pub : CString) : verificacionFirma sys C_BLOCK sig fichero pub ≠ usage := by
  intro same
  have start : ∃ rest, (verificacionFirma sys C_BLOCK sig fichero pub).trace =
      .fopened sig (sys.fopen .leerFirmaB64 sig) :: rest := by
    rw [verificacionFirma, leerFirmaB64_eq]
    cases (signatureDelivery sys sig).failure with
    | none => exact ⟨_, rfl⟩
    | some failure => exact ⟨_, rfl⟩
  rcases start with ⟨rest, trace⟩
  rw [same] at trace
  cases trace

/-- The documented order of the arguments, as a run follows it: either the usage line and exit status 1,
    or a verification with `-v`, the signature, the message and the key in this order. -/
def FollowsGrammar (sys : System ssl) (uninit : Uninitialised)
    (program first second third fourth : CString) : Prop :=
  (main sys uninit [program, first, second, third, fourth]).trace =
      [.printed (ascii "Usage: [-v signature.pem] myfile.txt privkey.pem" ++ ascii "\n")] ∧
    (main sys uninit [program, first, second, third, fourth]).status = 1 ∨
  first = verb_v ∧
    main sys uninit [program, first, second, third, fourth] =
      verificacionFirma sys uninit.C_BLOCK second third fourth

theorem usage_trace : usage.trace =
    [.printed (ascii "Usage: [-v signature.pem] myfile.txt privkey.pem" ++ ascii "\n")] := rfl

theorem not_usage_of_verifies {run : Process Empty} {sys : System ssl} {C_BLOCK : Vector UInt8 BLOCK_SIZE}
    {sig fichero pub : CString} (verifies : run = verificacionFirma sys C_BLOCK sig fichero pub)
    (trace : run.trace = [.printed (ascii "Usage: [-v signature.pem] myfile.txt privkey.pem" ++ ascii "\n")]) :
    run.status ≠ 1 := by
  intro status
  have ended : run = usage := Proc.ext (trace.trans usage_trace.symm) (Proc.status_eq_iff.mp status)
  exact verificacionFirma_ne_usage _ _ _ _ _ (verifies.symm.trans ended)

theorem followsGrammar_iff (sys : System ssl) (uninit : Uninitialised)
    (program first second third fourth : CString) :
    FollowsGrammar sys uninit program first second third fourth ↔
      first = verb_v ∨ second ≠ verb_v ∧ third ≠ verb_v := by
  have run := main_five sys uninit program first second third fourth
  rw [buscarFirma_five] at run
  by_cases one : first = verb_v
  · refine iff_of_true (Or.inr ⟨one, ?_⟩) (Or.inl one)
    rw [run, if_pos one]
  · rw [if_neg one] at run
    constructor
    · intro follows
      rcases follows with ⟨trace, status⟩ | ⟨same, _⟩
      · right
        by_cases two : second = verb_v
        · rw [if_pos two] at run
          exact absurd status (not_usage_of_verifies run trace)
        · by_cases three : third = verb_v
          · rw [if_neg two, if_pos three] at run
            exact absurd status (not_usage_of_verifies run trace)
          · exact ⟨two, three⟩
      · exact absurd same one
    · intro order
      rcases order with same | ⟨two, three⟩
      · exact absurd same one
      · rw [if_neg two, if_neg three] at run
        left
        rw [run]
        exact ⟨usage_trace, rfl⟩

section Sample

def wroteBlock (block : Vector UInt8 BLOCK_SIZE) : RsaResult BLOCK_SIZE :=
  .wrote block.toList (Nat.le_of_eq Vector.length_toList)

/-- A raw operation that leaves the block as it is, and refuses a modulus of another size. -/
def sampleRsa (size : Nat) (block : Vector UInt8 BLOCK_SIZE) : RsaResult BLOCK_SIZE :=
  if size = BLOCK_SIZE then wroteBlock block else .failed

def sampleSsl : OpenSSL where
  Private := Nat
  Public := Nat
  sha512 := fipsSha512
  base64Update := base64Lines
  base64Final := base64Rest
  RSA_size _ := BLOCK_SIZE
  RSA_private_encrypt := sampleRsa
  RSA_public_decrypt := sampleRsa

theorem sample_base64 (data : Bytes) : sampleSsl.base64 data = base64Print data := base64Lines_rest data

section SampleKeys

variable {size : Nat} (block : Vector UInt8 BLOCK_SIZE)

theorem sample_private_refuses (other : size ≠ BLOCK_SIZE) :
    sampleSsl.RSA_private_encrypt size block = .failed := by
  have refused : sampleRsa size block = .failed := if_neg other
  exact refused

theorem sample_private_writes (full : size = BLOCK_SIZE) :
    sampleSsl.RSA_private_encrypt size block = wroteBlock block := by
  have written : sampleRsa size block = wroteBlock block := if_pos full
  exact written

theorem sample_public_writes (full : size = BLOCK_SIZE) :
    sampleSsl.RSA_public_decrypt size block = wroteBlock block :=
  sample_private_writes block full

end SampleKeys

def fullKeyFile : Bytes := List.replicate 512 0x00

theorem fullKeyFile_length : fullKeyFile.length = BLOCK_SIZE := by
  have sizes := sizes
  unfold fullKeyFile
  rw [List.length_replicate]
  omega

def sampleStream (content : Bytes) : Stream := ⟨4096, content, by decide⟩

/-- A run over the files listed; a key file is as long as the modulus of its key. -/
def sampleSystem (files : List (CString × Bytes)) : System sampleSsl where
  openFile path := (files.lookup path).map sampleFile
  fopen _ path := (files.lookup path).map sampleStream
  RSA_new := true
  PEM_read_RSAPrivateKey fp := fp.map (·.content.length)
  PEM_read_RSA_PUBKEY fp := fp.map (·.content.length)
  base64Bio fp := ⟨(fp.map fun stream => base64Read stream.content).getD [], fun _ => .ok BLOCK_SIZE⟩
  BIO_write := .ok ⟨BLOCK_SIZE, by decide⟩
  out := ⟨4096, 4096, 4096, 4096⟩
  ERR_error_string := ascii "error:0200006E:rsa routines::data too large for key size"
  overrun _ := 139

theorem sample_written (files : List (CString × Bytes)) : bioWritten (sampleSystem files).BIO_write = 512 :=
  rfl

theorem signature_framed (text : Bytes) : beginLine ++ text ++ endLine =
    0x2d :: ascii "--BEGIN SRO SIGNATURE---" ++ 0x0a :: (text ++ 0x2d :: ascii "--END SRO SIGNATURE---\n") := by
  have opening : beginLine = 0x2d :: ascii "--BEGIN SRO SIGNATURE---" ++ [0x0a] := by decide
  have closing : endLine = 0x2d :: ascii "--END SRO SIGNATURE---\n" := by decide
  rw [opening, closing]
  simp

theorem base64Read_signature (data : Bytes) : base64Read (beginLine ++ base64Print data ++ endLine) = data := by
  rw [signature_framed]
  exact base64Read_framed (by decide) _ _

section SampleBio

variable (files : List (CString × Bytes))

theorem sample_pending (stream : Stream) :
    ((sampleSystem files).base64Bio (some stream)).pending = base64Read stream.content := rfl

theorem sample_prompt (fp : FilePtr) : ((sampleSystem files).base64Bio fp).Prompt := by
  intro i most same
  cases same
  decide

theorem sample_delivers (fp : FilePtr) : ((sampleSystem files).base64Bio fp).Faultless := by
  intro i failure same
  cases same

end SampleBio

theorem sample_signature {files : List (CString × Bytes)} {sig : CString} {data : Bytes}
    (found : files.lookup sig = some (beginLine ++ base64Print data ++ endLine))
    (fits : data.length ≤ BLOCK_SIZE) :
    (signatureDelivery (sampleSystem files) sig).failure = none ∧
    signatureBytes (sampleSystem files) sig = data := by
  have opened : (sampleSystem files).fopen .leerFirmaB64 sig =
      some (sampleStream (beginLine ++ base64Print data ++ endLine)) := by
    simp [sampleSystem, found]
  have reads := (sample_delivers files ((sampleSystem files).fopen .leerFirmaB64 sig)).fill BLOCK_SIZE
  refine ⟨reads, ?_⟩
  rw [signatureBytes, signatureDelivery, (sample_prompt files _).fill BLOCK_SIZE reads, opened,
    sample_pending, sampleStream, base64Read_signature, List.take_of_length_le fits]

def programName : CString := ⟨ascii "./sign", by decide⟩
def messagePath : CString := ⟨ascii "fichero.txt", by decide⟩
def signaturePath : CString := ⟨ascii "firma.pem", by decide⟩
def keyPath : CString := ⟨ascii "clave.pem", by decide⟩

def sampleUninit (byte : UInt8) : Uninitialised := ⟨Vector.replicate BLOCK_SIZE byte, programName⟩

/-- With `-v` in the second place the signature is verified as if it were the message. -/
theorem option_in_second_place :
    main (sampleSystem []) (sampleUninit 0) [programName, messagePath, verb_v, signaturePath, keyPath] =
      verificacionFirma (sampleSystem []) (sampleUninit 0).C_BLOCK signaturePath signaturePath keyPath ∧
    ¬ FollowsGrammar (sampleSystem []) (sampleUninit 0)
      programName messagePath verb_v signaturePath keyPath := by
  have different : messagePath ≠ verb_v := by decide
  constructor
  · rw [main_five, buscarFirma_five, if_neg different, if_pos rfl]
  · intro follows
    have run := main_five (sampleSystem []) (sampleUninit 0) programName messagePath verb_v signaturePath keyPath
    rw [buscarFirma_five, if_neg different, if_pos rfl] at run
    rcases follows with ⟨trace, status⟩ | ⟨same, _⟩
    · exact not_usage_of_verifies run trace status
    · exact different same

end Sample

end SignProof
