import SeguridadRedes.Practica3.Signing
import SeguridadRedes.Practica3.Verifying

namespace SignProof

open C Crypto Programs SignModel

variable {ssl : OpenSSL} {pair : RawKeyPair} {priv : ssl.Private} {pub : ssl.Public}

/-- Two keys of OpenSSL that carry out the raw operations of a pair with a modulus of exactly 512 bytes. -/
structure CarriesOut (ssl : OpenSSL) (pair : RawKeyPair) (priv : ssl.Private) (pub : ssl.Public) : Prop where
  lower : 256 ^ 511 ≤ pair.n
  upper : pair.n < 256 ^ 512
  signs : ∀ block : Vector UInt8 BLOCK_SIZE, os2ip block.toList < pair.n →
    (ssl.RSA_private_encrypt priv block).written = rawBlock 512 pair.privateOp block.toList
  recovers : ∀ block : Vector UInt8 BLOCK_SIZE, os2ip block.toList < pair.n →
    (ssl.RSA_public_decrypt pub block).written = rawBlock 512 pair.publicOp block.toList

theorem sig_size_of_written {size : Nat} {result : RsaResult size} (whole : result.written.length = 512) :
    result.sig_size = 512 := by
  cases result with
  | failed => cases whole
  | wrote bytes bounded => exact congrArg Int.ofNat whole

/-- The signed block starts with a zero byte, which puts it below the modulus. -/
theorem signedBlock_inRange (carries : CarriesOut ssl pair priv pub) (md : Vector UInt8 L_SHA512) :
    os2ip (signedBlock md).toList < pair.n :=
  Nat.lt_of_lt_of_le (os2ip_block_lt md _ _ _) carries.lower

section Raw

variable (md : Vector UInt8 L_SHA512) {firma : Vector UInt8 BLOCK_SIZE}

theorem private_written (carries : CarriesOut ssl pair priv pub) :
    (ssl.RSA_private_encrypt priv (signedBlock md)).written =
      rawBlock 512 pair.privateOp (signedBlock md).toList :=
  carries.signs _ (signedBlock_inRange carries md)

theorem private_sig_size (carries : CarriesOut ssl pair priv pub) :
    (ssl.RSA_private_encrypt priv (signedBlock md)).sig_size = 512 := by
  apply sig_size_of_written
  rw [private_written md carries, rawBlock_length]

/-- The public operation gives the signed block back, byte for byte. -/
theorem public_written (carries : CarriesOut ssl pair priv pub)
    (signature : firma.toList = (ssl.RSA_private_encrypt priv (signedBlock md)).written) :
    (ssl.RSA_public_decrypt pub firma).written = (signedBlock md).toList := by
  have inRange := signedBlock_inRange carries md
  have fits := Nat.le_of_lt carries.upper
  have below := pair.privateBlock_inRange fits inRange
  rw [private_written md carries] at signature
  rw [← signature] at below
  rw [carries.recovers firma below, signature]
  exact pair.public_privateBlock fits inRange Vector.length_toList

theorem public_sig_size (carries : CarriesOut ssl pair priv pub)
    (signature : firma.toList = (ssl.RSA_private_encrypt priv (signedBlock md)).written) :
    (ssl.RSA_public_decrypt pub firma).sig_size = 512 := by
  apply sig_size_of_written
  rw [public_written md carries signature, Vector.length_toList]
  rfl

theorem signed_fits (carries : CarriesOut ssl pair priv pub)
    (signature : firma.toList = (ssl.RSA_private_encrypt priv (signedBlock md)).written) : Fits pub firma := by
  unfold Fits
  rw [public_written md carries signature]
  exact Nat.le_of_eq Vector.length_toList

theorem recoveredBlock_signed (carries : CarriesOut ssl pair priv pub)
    (signature : firma.toList = (ssl.RSA_private_encrypt priv (signedBlock md)).written) :
    recoveredBlock pub firma = signedBlock md := by
  unfold recoveredBlock
  rw [public_written md carries signature, ← Vector.toList_inj]
  exact toList_blit_full _ _ Vector.length_toList

end Raw

section Join

variable {signer verifier : System ssl} {fichero privPath sigPath pubPath : CString} {message message' : File}
  {signature : Stream}

theorem blockOf_faultless (faultless : message.Faultless) :
    blockOf ssl fichero message = signedBlock (digestOf ssl.sha512 fichero message.content) := by
  unfold blockOf
  rw [messageText_faultless faultless (by decide)]

theorem firmaBlock_toList (stored : verifier.fopen .leerFirmaB64 sigPath = some signature)
    (prompt : (verifier.base64Bio (some signature)).Prompt)
    (delivers : (verifier.base64Bio (some signature)).Faultless)
    (whole : (verifier.base64Bio (some signature)).pending.length = 512) (C_BLOCK : Vector UInt8 BLOCK_SIZE) :
    (signatureDelivery verifier sigPath).failure = none ∧
    (firmaBlock verifier sigPath C_BLOCK).toList = (verifier.base64Bio (some signature)).pending := by
  have reads := delivers.fill BLOCK_SIZE
  have bytes : signatureBytes verifier sigPath = (verifier.base64Bio (some signature)).pending := by
    rw [signatureBytes, signatureDelivery, stored, prompt.fill BLOCK_SIZE reads]
    exact List.take_of_length_le (Nat.le_of_eq whole)
  refine ⟨by rw [signatureDelivery, stored]; exact reads, ?_⟩
  unfold firmaBlock
  rw [bytes]
  exact toList_blit_full _ _ whole

end Join

/-- A signature made for a message, all of which gets out, is verified for the same content under the same
    name, whatever the short reads of the two runs and of the signature file. -/
theorem sign_then_verify (ssl : OpenSSL) (pair : RawKeyPair) (priv : ssl.Private) (pub : ssl.Public)
    (carries : CarriesOut ssl pair priv pub) (signer verifier : System ssl) (uninit uninit' : Uninitialised)
    (program fichero privPath sigPath pubPath : CString) (message message' : File) (signature : Stream)
    (opens : signer.openFile fichero = some message) (opens' : verifier.openFile fichero = some message')
    (faultless : message.Faultless) (faultless' : message'.Faultless)
    (sameContent : message'.content = message.content)
    (loads : privateKey signer privPath = some priv) (loads' : publicKey verifier pubPath = some pub)
    (taken : bioWritten signer.BIO_write = 512)
    (getsOut : GetsOut signer (ssl.RSA_private_encrypt priv (blockOf ssl fichero message)).written)
    (stored : verifier.fopen .leerFirmaB64 sigPath = some signature)
    (saved : signature.content = stdout (main signer uninit [program, fichero, privPath]).trace)
    (decodes : ∀ data, signature.content = beginLine ++ ssl.base64 data ++ endLine →
      (verifier.base64Bio (some signature)).pending = data)
    (prompt : (verifier.base64Bio (some signature)).Prompt)
    (delivers : (verifier.base64Bio (some signature)).Faultless) :
    (main signer uninit [program, fichero, privPath]).status = 0 ∧
    (main verifier uninit' [program, verb_v, sigPath, fichero, pubPath]).status = 0 ∧
    ∃ BLOCK firma,
      .rsaPrivateEncrypt BLOCK 512 firma ∈ (main signer uninit [program, fichero, privPath]).trace ∧
      .rsaPublicDecrypt firma 512 BLOCK ∈
        (main verifier uninit' [program, verb_v, sigPath, fichero, pubPath]).trace ∧
      .paddingChecked 0 ∈ (main verifier uninit' [program, verb_v, sigPath, fichero, pubPath]).trace ∧
      .hashesCompared 0 ∈ (main verifier uninit' [program, verb_v, sigPath, fichero, pubPath]).trace := by
  have completed : Completed (signer.openFile fichero) (messageDelivery TEXT_SIZE) message :=
    completed_message opens faultless
  have completed' : Completed (verifier.openFile fichero) (messageDelivery TEXT_SIZE) message' :=
    completed_message opens' faultless'
  let md := digestOf ssl.sha512 fichero message.content
  have block : blockOf ssl fichero message = signedBlock md := blockOf_faultless faultless
  have size : (ssl.RSA_private_encrypt priv (blockOf ssl fichero message)).sig_size = 512 := by
    rw [block]
    exact private_sig_size md carries
  -- the run that signs
  obtain ⟨success, _, output⟩ := creacionFirma_whole completed loads size taken getsOut uninit.C_BLOCK
  have signed := creacionFirma_written uninit.C_BLOCK completed loads (by omega)
  -- the signature file holds what it printed
  have pending := decodes _ (saved.trans output)
  have length : (ssl.RSA_private_encrypt priv (blockOf ssl fichero message)).written.length = 512 := by
    rw [block, private_written md carries, rawBlock_length]
  obtain ⟨reads, firma⟩ := firmaBlock_toList stored prompt delivers (by rw [pending, length]) uninit'.C_BLOCK
  rw [pending, block] at firma
  -- the run that verifies
  have recovered := recoveredBlock_signed md carries firma
  have accepted := accepted_signedBlock md
  have padded : Padded (recoveredBlock pub (firmaBlock verifier sigPath uninit'.C_BLOCK)) := by
    rw [recovered]
    exact (comprobarPadding_eq_zero _).mp accepted.1
  have fits := signed_fits md carries firma
  have verified := verificacionFirma_compared uninit'.C_BLOCK fichero reads loads' fits padded completed'
  have digest : digestOf ssl.sha512 fichero (messageText TEXT_SIZE message') = md := by
    rw [messageText_faultless faultless' (by decide), sameContent]
  rw [digest, recovered, accepted.2, decryptShown, decrypted, recovered, accepted.1, firma,
    public_sig_size md carries firma, public_written md carries firma] at verified
  rw [main_verifies]
  refine ⟨success, verified.status, (signedBlock md).toList,
    (ssl.RSA_private_encrypt priv (signedBlock md)).written, ?_, ?_, ?_, ?_⟩
  · rw [main_three, mem_of_shows signed rfl, signingShown, size, block]
    simp
  · rw [mem_of_shows verified rfl]
    simp
  · rw [mem_of_shows verified rfl]
    simp
  · rw [mem_of_shows verified rfl]
    simp

section Sample

def identityPair : RawKeyPair where
  n := 256 ^ 511
  privateOp := id
  publicOp := id
  private_lt _ h := h
  public_private _ _ := rfl

def fullPrivateKey : sampleSsl.Private := fullKeyFile.length

theorem rawBlock_id (block : Vector UInt8 BLOCK_SIZE) : rawBlock 512 id block.toList = block.toList :=
  i2osp_os2ip Vector.length_toList

theorem fullKey_carriesOut : CarriesOut sampleSsl identityPair fullPrivateKey fullKey where
  lower := Nat.le_refl _
  upper := pow_lt_pow_right₀ (by decide) (by decide)
  signs block _ := by
    have written : sampleSsl.RSA_private_encrypt fullPrivateKey block = wroteBlock block :=
      sample_private_writes block fullKeyFile_length
    rw [written]
    exact (rawBlock_id block).symm
  recovers block _ := by
    rw [fullKey_decrypts]
    exact (rawBlock_id block).symm

def signedFiles : List (CString × Bytes) := [(messagePath, ascii "hola\n"), (keyPath, fullKeyFile)]

def signedRun : Process Empty :=
  main (sampleSystem signedFiles) (sampleUninit 0x41) [programName, messagePath, keyPath]

def verifiedRun : Process Empty :=
  main (sampleSystem ((signaturePath, stdout signedRun.trace) :: signedFiles)) (sampleUninit 0x42)
    [programName, verb_v, signaturePath, messagePath, keyPath]

theorem fullKey_writes (block : Vector UInt8 BLOCK_SIZE) :
    (sampleSsl.RSA_private_encrypt fullPrivateKey block).written.length = 512 := by
  have written : sampleSsl.RSA_private_encrypt fullPrivateKey block = wroteBlock block :=
    sample_private_writes block fullKeyFile_length
  rw [written]
  exact Vector.length_toList

theorem sample_framed {content data : Bytes} (framed : content = beginLine ++ sampleSsl.base64 data ++ endLine) :
    content = beginLine ++ base64Print data ++ endLine := by
  rwa [sample_base64] at framed

theorem sign_then_verify_sample :
    signedRun.status = 0 ∧ verifiedRun.status = 0 ∧
    ∃ BLOCK firma, .rsaPrivateEncrypt BLOCK 512 firma ∈ signedRun.trace ∧
      .rsaPublicDecrypt firma 512 BLOCK ∈ verifiedRun.trace ∧
      .paddingChecked 0 ∈ verifiedRun.trace ∧ .hashesCompared 0 ∈ verifiedRun.trace :=
  sign_then_verify sampleSsl identityPair fullPrivateKey fullKey fullKey_carriesOut
    (sampleSystem signedFiles) (sampleSystem ((signaturePath, stdout signedRun.trace) :: signedFiles))
    (sampleUninit 0x41) (sampleUninit 0x42) programName messagePath keyPath signaturePath keyPath
    (sampleFile (ascii "hola\n")) (sampleFile (ascii "hola\n")) (sampleStream (stdout signedRun.trace))
    rfl rfl (sampleFile_faultless _) (sampleFile_faultless _) rfl rfl rfl (sample_written _)
    (sample_getsOut _ (fullKey_writes _)) rfl rfl
    (fun data framed => (sample_pending _ _).trans
      ((congrArg base64Read (sample_framed framed)).trans (base64Read_signature data)))
    (sample_prompt _ _) (sample_delivers _ _)

end Sample

end SignProof
