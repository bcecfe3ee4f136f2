import SeguridadRedes.Programs.Feed

namespace SignModel

open C Crypto Programs

def L_SHA512 : Nat := 64
def TEXT_SIZE : Nat := 50
def KEY_SIZE : Nat := 4096
def BLOCK_SIZE : Nat := KEY_SIZE / 8
def LEN_ID : Nat := 19
def LEN_T : Nat := LEN_ID + L_SHA512
def PADDING_SIZE : Nat := BLOCK_SIZE - L_SHA512 - LEN_ID

def EMSASHA512ID : Vector UInt8 LEN_ID :=
  #v[0x30, 0x51, 0x30, 0x0d, 0x06, 0x09, 0x60, 0x86, 0x48, 0x01,
     0x65, 0x03, 0x04, 0x02, 0x03, 0x05, 0x00, 0x04, 0x40]

def verb_v : CString := ⟨ascii "-v", by decide⟩

def sizeof_verb_v : Nat := strlen verb_v + 1

theorem sizes : L_SHA512 = 64 ∧ BLOCK_SIZE = 512 ∧ LEN_ID = 19 ∧ LEN_T = 83 ∧ PADDING_SIZE = 429 := by
  decide

/-- What a raw RSA operation does: it fails and writes nothing, or writes at most `size` bytes to the
    address it is given. -/
inductive RsaResult (size : Nat) where
  | failed
  | wrote (bytes : Bytes) (bounded : bytes.length ≤ size)

namespace RsaResult

variable {size : Nat}

def sig_size : RsaResult size → Int
  | failed => -1
  | wrote bytes _ => bytes.length

def written : RsaResult size → Bytes
  | failed => []
  | wrote bytes _ => bytes

theorem written_length (result : RsaResult size) : result.written.length ≤ size := by
  cases result with
  | failed => exact Nat.zero_le size
  | wrote bytes bounded => exact bounded

end RsaResult

inductive BioFailure where
  | noData
  | notImplemented
  deriving DecidableEq

def BioFailure.code : BioFailure → Int
  | noData => -1
  | notImplemented => -2

/-- The cryptography the program takes from OpenSSL. For the bytes written to a base64 filter,
    `base64Update` is the text it passes on at once, and `base64Final` the rest, which it keeps until it is
    flushed. A private operation writes no more than a block, a public one as many bytes as the modulus has. -/
structure OpenSSL where
  Private : Type
  Public : Type
  sha512 : StreamingHash L_SHA512
  base64Update : Bytes → Bytes
  base64Final : Bytes → Bytes
  RSA_size : Public → Nat
  RSA_private_encrypt : Private → Vector UInt8 BLOCK_SIZE → RsaResult BLOCK_SIZE
  RSA_public_decrypt : (key : Public) → Vector UInt8 BLOCK_SIZE → RsaResult (RSA_size key)

def OpenSSL.base64 (ssl : OpenSSL) (data : Bytes) : Bytes := ssl.base64Update data ++ ssl.base64Final data

/-- How many characters get out of each text that is handed to stdout for a signature: the begin line, what
    the filter passes on when it is written to, what it passes on when it is flushed, the end line. -/
structure Stdout where
  beginning : Nat
  update : Nat
  final : Nat
  ending : Nat

/-- The surroundings of one run: what each call on a file, a key or a filter finds. -/
structure System (ssl : OpenSSL) where
  openFile : CString → Option File
  fopen : Function → CString → FilePtr
  RSA_new : Bool
  PEM_read_RSAPrivateKey : FilePtr → Option ssl.Private
  PEM_read_RSA_PUBKEY : FilePtr → Option ssl.Public
  base64Bio : FilePtr → Source UInt8 BioFailure
  BIO_write : Except BioFailure (Fin (BLOCK_SIZE + 1))
  out : Stdout
  ERR_error_string : Bytes
  /-- The exit status of a run that writes these bytes to `BLOCK` and past its end, which C leaves open. -/
  overrun : Bytes → Nat

/-- What the variables of `main` that are not initialised hold when it starts. -/
structure Uninitialised where
  C_BLOCK : Vector UInt8 BLOCK_SIZE
  pathSignature : CString

def sha512 {text_len : Nat} (hash : StreamingHash L_SHA512) (openFile : CString → Option File)
    (path_fichero : CString) (text : Vector UInt8 text_len) :
    Process (Int × Vector UInt8 text_len × Vector UInt8 L_SHA512) :=
  match openFile path_fichero with
  | none => do
    Proc.emit (.opened path_fichero false)
    err .sha512 1 (ascii "open " ++ path_fichero.bytes)
  | some file => do
    Proc.emit (.opened path_fichero true)
    Proc.emit .hashInit
    let fed ← (feedLoop .sha512 hash text_len).run ⟨file.source, text, hash.init⟩
    let name := path_fichero.bytes.take (strlen path_fichero)
    Proc.emit (.hashUpdate name)
    Proc.emit .closed
    if file.closes = false then
      err .sha512 1 (ascii "close")
    else
      let md := hash.final (hash.update fed.c name)
      Proc.emit (.hashFinal md.toList)
      return (fed.nr, fed.text, md)

def concatenaIDsha512 (md : Vector UInt8 L_SHA512) (IDsha512 : Vector UInt8 LEN_T) : Vector UInt8 LEN_T :=
  let IDsha512 := forRange 0 LEN_ID
    (fun i h IDsha512 => .next (IDsha512.set i EMSASHA512ID[i] (Nat.lt_of_lt_of_le h (by decide)))) IDsha512
  forRange 0 L_SHA512
    (fun i h IDsha512 => .next (IDsha512.set (i + LEN_ID) md[i] (by
      have inside : i + LEN_ID < L_SHA512 + LEN_ID := Nat.add_lt_add_right h LEN_ID
      exact inside))) IDsha512

def createPadding (PD : Vector UInt8 PADDING_SIZE) : Vector UInt8 PADDING_SIZE :=
  let PD := PD.set 0 0x00 (by decide)
  let PD := PD.set 1 0x01 (by decide)
  let PD := forRange 2 (PADDING_SIZE - 1)
    (fun i h PD => .next (PD.set i 0xff (Nat.lt_of_lt_of_le h (by decide)))) PD
  PD.set (PADDING_SIZE - 1) 0x00 (by decide)

def concatenaPaddingHash (PD : Vector UInt8 PADDING_SIZE) (HASH : Vector UInt8 LEN_T)
    (MSG : Vector UInt8 BLOCK_SIZE) : Vector UInt8 BLOCK_SIZE :=
  let MSG := forRange 0 PADDING_SIZE
    (fun i h MSG => .next (MSG.set i PD[i] (Nat.lt_of_lt_of_le h (by decide)))) MSG
  forRange 0 LEN_T
    (fun i h MSG => .next (MSG.set (i + PADDING_SIZE) HASH[i] (by
      have inside : i + PADDING_SIZE < LEN_T + PADDING_SIZE := Nat.add_lt_add_right h PADDING_SIZE
      exact inside))) MSG

/-- The body that `readPrivkey` and `readPubkey` share. -/
def readKey {Key : Type} (inside : Function) (fopen : CString → FilePtr) (RSA_new : Bool)
    (pemRead : FilePtr → Option Key) (nullKey : Bytes) (path : CString) : Process Key :=
  let fp := fopen path
  do
    Proc.emit (.fopened path fp)
    if fp.address < 0 then
      err inside 1 (ascii "fopen " ++ path.bytes)
    else if RSA_new = false then
      err inside 1 nullKey
    else
      Proc.emit (.pemRead inside fp)
      match pemRead fp with
      | none => err inside 1 (ascii "PEM_read_RSAPrivateKey " ++ path.bytes)
      | some RSAKey => return RSAKey

variable {ssl : OpenSSL}

def readPrivkey (sys : System ssl) (pathPrivateKey : CString) : Process ssl.Private :=
  readKey .readPrivkey (sys.fopen .readPrivkey) sys.RSA_new sys.PEM_read_RSAPrivateKey
    (ascii "readPrivkey: RSA_new(): RSAKey is NULL") pathPrivateKey

def readPubkey (sys : System ssl) (pathPubkey : CString) : Process ssl.Public :=
  readKey .readPubkey (sys.fopen .readPubkey) sys.RSA_new sys.PEM_read_RSA_PUBKEY
    (ascii "readPubkey: RSA_new(): RSAKey is NULL") pathPubkey

def printError (sig_size : Int) (ERR_error_string : Bytes) : Process Unit :=
  if sig_size < 0 then Proc.emit (.printedError (ERR_error_string ++ ascii "\n")) else return ()

def bioWritten : Except BioFailure (Fin (BLOCK_SIZE + 1)) → Int
  | .error failure => failure.code
  | .ok count => count.val

def beginLine : Bytes := ascii "---BEGIN SRO SIGNATURE---\n"
def endLine : Bytes := ascii "---END SRO SIGNATURE---\n"

/-- `BIO_flush`, whose result the program does not look at. -/
def BIO_flush (sys : System ssl) (data : Bytes) : Process Unit :=
  printf ((ssl.base64Final data).take sys.out.final)

def generarFirmaDigital (sys : System ssl) (BLOCK : Vector UInt8 BLOCK_SIZE) (RSAKey : ssl.Private)
    (C_BLOCK : Vector UInt8 BLOCK_SIZE) : Process (Vector UInt8 BLOCK_SIZE) :=
  let encrypted := ssl.RSA_private_encrypt RSAKey BLOCK
  let C_BLOCK := blit C_BLOCK 0 encrypted.written
  let wr := bioWritten sys.BIO_write
  do
    Proc.emit (.rsaPrivateEncrypt BLOCK.toList encrypted.sig_size encrypted.written)
    printError encrypted.sig_size sys.ERR_error_string
    printf (beginLine.take sys.out.beginning)
    Proc.emit (.bioWrite C_BLOCK.toList wr)
    if wr = -1 ∨ wr = 0 then
      err .generarFirmaDigital 1 (ascii "BIO_write: No data written")
    else if wr = -2 then
      err .generarFirmaDigital 1
        (ascii "BIO_write: the operation is not implemented in the specific BIO type")
    else
      let data := C_BLOCK.toList.take wr.toNat
      printf ((ssl.base64Update data).take sys.out.update)
      BIO_flush sys data
      printf (endLine.take sys.out.ending)
      return C_BLOCK

/-- `BIO_read`: a request for no bytes delivers none. -/
def BIO_read (bio : Source UInt8 BioFailure) (request : Int) :
    Except BioFailure Bytes × Source UInt8 BioFailure :=
  if request ≤ 0 then (.ok [], bio) else bio.pull request.toNat

structure Leyendo where
  Base64 : Source UInt8 BioFailure
  BLOCK : Vector UInt8 BLOCK_SIZE
  t : Int

def leerFirmaPass (s : Leyendo) : Process (Pass Leyendo (Vector UInt8 BLOCK_SIZE)) :=
  let answer := BIO_read s.Base64 (BLOCK_SIZE - s.t)
  let leido := returned BioFailure.code answer.1
  let BLOCK := blit s.BLOCK s.t.toNat (delivered answer.1)
  do
    Proc.emit (.bioRead s.t (BLOCK_SIZE - s.t) leido (delivered answer.1))
    if leido = -1 then
      err .leerFirmaB64 1 (ascii "BIO_read: No data read")
    else if leido = -2 then
      err .leerFirmaB64 1 (ascii "BIO_read: the operation is not implemented in the specific BIO type")
    else if leido = 0 ∨ s.t > BLOCK_SIZE then
      return .leave BLOCK
    else
      return .again ⟨answer.2, BLOCK, s.t + leido⟩

def readMessage : BioFailure → Bytes
  | .noData => ascii "BIO_read: No data read"
  | .notImplemented => ascii "BIO_read: the operation is not implemented in the specific BIO type"

section Pass

variable {s : Leyendo} {request : Nat}

theorem leerFirmaPass_failure {failure : BioFailure} (window : BLOCK_SIZE - s.t = request)
    (asked : 0 < request) (answer : (s.Base64.pull request).1 = .error failure) :
    leerFirmaPass s =
      ⟨[.bioRead s.t request failure.code [], .err .leerFirmaB64 (readMessage failure)], .error 1⟩ := by
  have positive : ¬ (request : Int) ≤ 0 := by omega
  simp only [leerFirmaPass, BIO_read, window, if_neg positive, Int.toNat_natCast, answer, returned, delivered]
  cases failure with
  | noData => rfl
  | notImplemented => rfl

theorem leerFirmaPass_end (window : BLOCK_SIZE - s.t = request)
    (answer : (BIO_read s.Base64 request).1 = .ok []) :
    leerFirmaPass s = ⟨[.bioRead s.t request 0 []], .ok (.leave s.BLOCK)⟩ := by
  simp only [leerFirmaPass, window, answer, returned, delivered, blit_nil]
  rfl

theorem leerFirmaPass_chunk {data : Bytes} (window : BLOCK_SIZE - s.t = request)
    (asked : 0 < request) (answer : (s.Base64.pull request).1 = .ok data) (nonempty : data ≠ []) :
    leerFirmaPass s =
      ⟨[.bioRead s.t request data.length data],
        .ok (.again ⟨(s.Base64.pull request).2, blit s.BLOCK s.t.toNat data, s.t + data.length⟩)⟩ := by
  have positive : ¬ (request : Int) ≤ 0 := by omega
  have size := List.length_pos_iff.mpr nonempty
  have inside : ¬ s.t > BLOCK_SIZE := by omega
  have noData : ¬ (data.length : Int) = -1 := by omega
  have implemented : ¬ (data.length : Int) = -2 := by omega
  have nonzero : ¬ (data.length : Int) = 0 := by omega
  simp only [leerFirmaPass, BIO_read, window, if_neg positive, Int.toNat_natCast, answer, returned,
    delivered, Proc.emit_bind, noData, implemented, nonzero, inside, or_self, ↓reduceIte]
  rfl

end Pass

def leerFirmaLoop : Loop Event Leyendo (Vector UInt8 BLOCK_SIZE) where
  body := leerFirmaPass
  variant s := s.Base64.pending.length
  decreases := by
    intro s s' again
    by_cases asked : BLOCK_SIZE - s.t ≤ 0
    · have nothing : (BIO_read s.Base64 (BLOCK_SIZE - s.t)).1 = .ok [] := by rw [BIO_read, if_pos asked]
      simp only [leerFirmaPass, nothing, returned, delivered] at again
      cases again
    · have window : BLOCK_SIZE - s.t = (BLOCK_SIZE - s.t).toNat := by omega
      have positive : 0 < (BLOCK_SIZE - s.t).toNat := by omega
      cases answer : (s.Base64.pull (BLOCK_SIZE - s.t).toNat).1 with
      | error failure =>
        rw [leerFirmaPass_failure window positive answer] at again
        cases again
      | ok data =>
        by_cases empty : data = []
        · subst empty
          have ended : (BIO_read s.Base64 (BLOCK_SIZE - s.t).toNat).1 = .ok [] := by
            rw [← window, BIO_read, if_neg asked, answer]
          rw [leerFirmaPass_end window ended] at again
          cases again
        · rw [leerFirmaPass_chunk window positive answer empty] at again
          cases again
          exact Source.pull_shrinks answer empty

def leerFirmaB64 (sys : System ssl) (pathSignature : CString) (BLOCK : Vector UInt8 BLOCK_SIZE) :
    Process (Vector UInt8 BLOCK_SIZE) :=
  let fp := sys.fopen .leerFirmaB64 pathSignature
  do
    Proc.emit (.fopened pathSignature fp)
    if fp.address < 0 then
      err .leerFirmaB64 1 (ascii "fopen " ++ pathSignature.bytes)
    else
      Proc.emit (.bioNewFp fp)
      leerFirmaLoop.run ⟨sys.base64Bio fp, BLOCK, 0⟩

def desencryptarMSG (sys : System ssl) (BLOCK : Vector UInt8 BLOCK_SIZE) (RSAKey : ssl.Public)
    (C_BLOCK : Vector UInt8 BLOCK_SIZE) : Process (Vector UInt8 BLOCK_SIZE) :=
  let decrypted := ssl.RSA_public_decrypt RSAKey C_BLOCK
  do
    Proc.emit (.rsaPublicDecrypt C_BLOCK.toList decrypted.sig_size decrypted.written)
    if BLOCK_SIZE < decrypted.written.length then
      Proc.exit (sys.overrun decrypted.written)
    else
      printError decrypted.sig_size sys.ERR_error_string
      return blit BLOCK 0 decrypted.written

def comprobarPadding (BLOCK : Vector UInt8 BLOCK_SIZE) : Int :=
  let padding : Int := 0
  let padding :=
    if BLOCK[0] ≠ 0x00 ∨ BLOCK[1] ≠ 0x01 ∨ BLOCK[PADDING_SIZE - 1] ≠ 0x00 then -1 else padding
  forRange 2 (PADDING_SIZE - 1)
    (fun i h padding =>
      if BLOCK.get ⟨i, Nat.lt_of_lt_of_le h (by decide)⟩ ≠ 0xff then .stop (-1) else .next padding)
    padding

theorem behindPadding {i : Nat} (h : i < L_SHA512) : i + PADDING_SIZE + LEN_ID < BLOCK_SIZE := by
  have sizes := sizes
  omega

def sacarHashFirma (BLOCK : Vector UInt8 BLOCK_SIZE) (HASH : Vector UInt8 L_SHA512) :
    Vector UInt8 L_SHA512 :=
  forRange 0 L_SHA512
    (fun i h HASH => .next (HASH.set i (BLOCK.get ⟨i + PADDING_SIZE + LEN_ID, behindPadding h⟩))) HASH

def compararHASHES (md HASH : Vector UInt8 L_SHA512) : Int :=
  forRange 0 L_SHA512 (fun i _ cmp => if md[i] ≠ HASH[i] then .stop (-1) else .next cmp) 0

/-- `main` with three arguments. -/
def creacionFirma (sys : System ssl) (C_BLOCK : Vector UInt8 BLOCK_SIZE)
    (path_fichero pathPrivateKey : CString) : Process Empty := do
  let text : Vector UInt8 TEXT_SIZE := Vector.replicate TEXT_SIZE 0
  let (i, _, md) ← sha512 ssl.sha512 sys.openFile path_fichero text
  if i < 0 then
    Proc.exit 1
  else
    let IDsha512 := concatenaIDsha512 md (Vector.replicate LEN_T 0)
    let PADDING := createPadding (Vector.replicate PADDING_SIZE 0)
    let BLOCK := concatenaPaddingHash PADDING IDsha512 (Vector.replicate BLOCK_SIZE 0)
    let RSAKeyPrivada ← readPrivkey sys pathPrivateKey
    let _ ← generarFirmaDigital sys BLOCK RSAKeyPrivada C_BLOCK
    Proc.exit 0

def comprobarHash (sys : System ssl) (path_fichero : CString) (BLOCK : Vector UInt8 BLOCK_SIZE) :
    Process Empty := do
  let HASH := sacarHashFirma BLOCK (Vector.replicate L_SHA512 0)
  let text : Vector UInt8 TEXT_SIZE := Vector.replicate TEXT_SIZE 0
  let (i, _, md) ← sha512 ssl.sha512 sys.openFile path_fichero text
  if i < 0 then
    Proc.exit 1
  else
    Proc.emit (.hashesCompared (compararHASHES md HASH))
    Proc.exit 0

/-- `main` with five arguments, once the path of the signature is known. -/
def verificacionFirma (sys : System ssl) (C_BLOCK : Vector UInt8 BLOCK_SIZE)
    (pathSignature path_fichero pathPubkey : CString) : Process Empty := do
  let C_BLOCK ← leerFirmaB64 sys pathSignature C_BLOCK
  let RSAKeyPublica ← readPubkey sys pathPubkey
  let BLOCK ← desencryptarMSG sys (Vector.replicate BLOCK_SIZE 0) RSAKeyPublica C_BLOCK
  let r_padding := comprobarPadding BLOCK
  Proc.emit (.paddingChecked r_padding)
  if r_padding = 0 then
    comprobarHash sys path_fichero BLOCK
  else
    Proc.exit 0

/-- The loop over the arguments of a verification: the path of the signature, or none when the last
    argument is reached. -/
def buscarFirma (argv : List CString) (pathSignature : CString) : Option CString :=
  forRange 1 argv.length
    (fun i h found =>
      let cmp := strncmp verb_v argv[i] sizeof_verb_v
      if here : cmp = 0 ∧ i ≠ argv.length - 1 then .stop (some argv[i + 1])
      else if i = argv.length - 1 then .stop none
      else .next found)
    (some pathSignature)

def usage : Process Empty := do
  puts (ascii "Usage: [-v signature.pem] myfile.txt privkey.pem")
  Proc.exit 1

def main (sys : System ssl) (uninit : Uninitialised) (argv : List CString) : Process Empty :=
  if sign : argv.length = 3 then
    creacionFirma sys uninit.C_BLOCK argv[1] argv[2]
  else if verify : argv.length = 5 then
    match buscarFirma argv uninit.pathSignature with
    | none => usage
    | some pathSignature => verificacionFirma sys uninit.C_BLOCK pathSignature argv[3] argv[4]
  else usage

end SignModel
