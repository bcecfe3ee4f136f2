import SeguridadRedes.Crypto.Sha
import SeguridadRedes.Practica3.Block
import SeguridadRedes.Practica3.Stages

namespace SignProof

open C Crypto Programs SignModel

section Stream

variable (hash : StreamingHash L_SHA512) {openFile : CString → Option File} {path : CString} {file : File}
  {text_len : Nat}

def fed (openFile : CString → Option File) (path : CString) (text : Vector UInt8 text_len) : Bytes :=
  absorbed (sha512 hash openFile path text).trace

theorem fed_completed (completed : Completed (openFile path) (messageDelivery text_len) file)
    (text : Vector UInt8 text_len) : fed hash openFile path text = messageText text_len file ++ path.bytes := by
  unfold fed
  rw [sha512_opened hash completed.found, hashEnding, completed.reads, completed.closes]
  simp [feedEvents_absorbed, absorbedBy, messageText]

theorem fed_faultless (found : openFile path = some file) (faultless : file.Faultless)
    (text : Vector UInt8 TEXT_SIZE) : fed hash openFile path text = file.content ++ path.bytes := by
  rw [fed_completed hash (completed_message found faultless), messageText_faultless faultless (by decide)]

theorem sha512_faultless (found : openFile path = some file) (faultless : file.Faultless)
    (text : Vector UInt8 TEXT_SIZE) :
    ∃ text', (sha512 hash openFile path text).result = .ok (0, text', digestOf hash path file.content) := by
  obtain ⟨text', run⟩ := sha512_completed hash (completed_message found faultless) text
  rw [messageText_faultless faultless (by decide)] at run
  exact ⟨text', run.result⟩

end Stream

/-- Two splittings of one list agree, or the second part of one is a proper end of the other's. -/
theorem splittings {first second first' second' : Bytes} (same : first ++ second = first' ++ second') :
    first = first' ∧ second = second' ∨
    second <:+ second' ∧ second ≠ second' ∨ second' <:+ second ∧ second' ≠ second := by
  by_cases ends : second = second'
  · subst ends
    exact Or.inl ⟨List.append_cancel_right same, rfl⟩
  · right
    rcases List.append_eq_append_iff.mp same with ⟨between, _, here⟩ | ⟨between, _, here⟩
    · exact Or.inr ⟨⟨between, here.symm⟩, Ne.symm ends⟩
    · exact Or.inl ⟨⟨between, here.symm⟩, ends⟩

theorem accepted_signedBlock_iff (md md' : Vector UInt8 L_SHA512) : Accepted (signedBlock md) md' ↔ md = md' := by
  apply Iff.intro
  · intro accepted
    have equal := (compararHASHES_eq_zero md' _).mp accepted.2
    rw [equal]
    apply Vector.ext
    intro i h
    rw [getElem_sacarHashFirma _ _ _ h (behindPadding h), getElem_signedBlock, imageByte_digest md h]
  · intro same
    subst same
    exact accepted_signedBlock md

theorem digestOf_eq_iff (hash : StreamingHash L_SHA512) {path path' : CString} {content content' : Bytes}
    (noCollision : hash.digest (content ++ path.bytes) = hash.digest (content' ++ path'.bytes) →
      content ++ path.bytes = content' ++ path'.bytes) :
    digestOf hash path content = digestOf hash path' content' ↔
      content ++ path.bytes = content' ++ path'.bytes := by
  constructor
  · exact fun same => noCollision (congrArg Vector.toList same)
  · intro same
    unfold digestOf
    rw [same]

/-- What a signature binds is the content followed by the name: another pair passes exactly when it has
    the same concatenation, and then one name is a proper end of the other. -/
theorem signature_binds_concatenation (hash : StreamingHash L_SHA512)
    (openFile openFile' : CString → Option File) (path path' : CString) (file file' : File)
    (text text' : Vector UInt8 TEXT_SIZE) (found : openFile path = some file)
    (found' : openFile' path' = some file') (faultless : file.Faultless) (faultless' : file'.Faultless)
    (noCollision : hash.digest (file.content ++ path.bytes) = hash.digest (file'.content ++ path'.bytes) →
      file.content ++ path.bytes = file'.content ++ path'.bytes) :
    (fed hash openFile path text = fed hash openFile' path' text' ↔
      file.content ++ path.bytes = file'.content ++ path'.bytes) ∧
    (fed hash openFile path text = fed hash openFile' path' text' →
      file.content = file'.content ∧ path = path' ∨
      path.bytes <:+ path'.bytes ∧ path ≠ path' ∨ path'.bytes <:+ path.bytes ∧ path' ≠ path) ∧
    ∃ buffer buffer' md md',
      (sha512 hash openFile path text).result = .ok (0, buffer, md) ∧
      (sha512 hash openFile' path' text').result = .ok (0, buffer', md') ∧
      (Accepted (signedBlock md) md' ↔ file.content ++ path.bytes = file'.content ++ path'.bytes) := by
  have stream := fed_faultless hash found faultless text
  have stream' := fed_faultless hash found' faultless' text'
  refine ⟨by rw [stream, stream'], fun same => ?_, ?_⟩
  · rw [stream, stream'] at same
    rcases splittings same with ⟨content, name⟩ | ⟨ending, other⟩ | ⟨ending, other⟩
    · exact Or.inl ⟨content, CString.ext name⟩
    · exact Or.inr (Or.inl ⟨ending, fun equal => other (congrArg CString.bytes equal)⟩)
    · exact Or.inr (Or.inr ⟨ending, fun equal => other (congrArg CString.bytes equal)⟩)
  · obtain ⟨buffer, run⟩ := sha512_faultless hash found faultless text
    obtain ⟨buffer', run'⟩ := sha512_faultless hash found' faultless' text'
    refine ⟨buffer, buffer', _, _, run, run', ?_⟩
    rw [accepted_signedBlock_iff, digestOf_eq_iff hash noCollision]

section Sample

def firstName : CString := ⟨ascii "c", by decide⟩
def secondName : CString := ⟨ascii "bc", by decide⟩

def onlyFile (content : Bytes) : CString → Option File := fun _ => some (sampleFile content)

def clearedText : Vector UInt8 TEXT_SIZE := Vector.replicate TEXT_SIZE 0

theorem signature_binds_concatenation_sample :
    (fed fipsSha512 (onlyFile (ascii "ab")) firstName clearedText =
        fed fipsSha512 (onlyFile (ascii "ab")) secondName clearedText ↔
      ascii "ab" ++ firstName.bytes = ascii "ab" ++ secondName.bytes) ∧
    (fed fipsSha512 (onlyFile (ascii "ab")) firstName clearedText =
        fed fipsSha512 (onlyFile (ascii "ab")) secondName clearedText →
      ascii "ab" = ascii "ab" ∧ firstName = secondName ∨
      firstName.bytes <:+ secondName.bytes ∧ firstName ≠ secondName ∨
      secondName.bytes <:+ firstName.bytes ∧ secondName ≠ firstName) ∧
    ∃ buffer buffer' md md',
      (sha512 fipsSha512 (onlyFile (ascii "ab")) firstName clearedText).result = .ok (0, buffer, md) ∧
      (sha512 fipsSha512 (onlyFile (ascii "ab")) secondName clearedText).result = .ok (0, buffer', md') ∧
      (Accepted (signedBlock md) md' ↔ ascii "ab" ++ firstName.bytes = ascii "ab" ++ secondName.bytes) :=
  signature_binds_concatenation fipsSha512 (onlyFile (ascii "ab")) (onlyFile (ascii "ab")) firstName
    secondName (sampleFile (ascii "ab")) (sampleFile (ascii "ab")) clearedText clearedText rfl rfl
    (sampleFile_faultless _) (sampleFile_faultless _) fun same => absurd same (by decide +kernel)

/-- The content "ab" under the name "c" and the content "a" under the name "bc" are hashed as one stream,
    and the signature of the first pair passes for the second. -/
theorem two_pairs_one_signature :
    ascii "ab" ≠ ascii "a" ∧ firstName ≠ secondName ∧
    fed fipsSha512 (onlyFile (ascii "ab")) firstName clearedText =
      fed fipsSha512 (onlyFile (ascii "a")) secondName clearedText ∧
    ∃ buffer buffer' md md',
      (sha512 fipsSha512 (onlyFile (ascii "ab")) firstName clearedText).result = .ok (0, buffer, md) ∧
      (sha512 fipsSha512 (onlyFile (ascii "a")) secondName clearedText).result = .ok (0, buffer', md') ∧
      Accepted (signedBlock md) md' := by
  have joined : ascii "ab" ++ firstName.bytes = ascii "a" ++ secondName.bytes := by decide
  have found : onlyFile (ascii "ab") firstName = some (sampleFile (ascii "ab")) := rfl
  have found' : onlyFile (ascii "a") secondName = some (sampleFile (ascii "a")) := rfl
  refine ⟨by decide, by decide, ?_, ?_⟩
  · have stream := fed_faultless fipsSha512 found (sampleFile_faultless _) clearedText
    have stream' := fed_faultless fipsSha512 found' (sampleFile_faultless _) clearedText
    exact stream.trans (joined.trans stream'.symm)
  · obtain ⟨buffer, run⟩ := sha512_faultless fipsSha512 found (sampleFile_faultless _) clearedText
    obtain ⟨buffer', run'⟩ := sha512_faultless fipsSha512 found' (sampleFile_faultless _) clearedText
    refine ⟨buffer, buffer', _, _, run, run', (accepted_signedBlock_iff _ _).mpr ?_⟩
    exact congrArg fipsSha512.hash joined

end Sample

end SignProof
