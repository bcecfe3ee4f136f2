import SeguridadRedes.Crypto.Sha
import SeguridadRedes.Practica2.Run

namespace HmacProof

open C Crypto Programs HmacModel

/-- One line of forty lowercase hexadecimal digits that decode to `mac`. -/
def IsMacLine (line mac : Bytes) : Prop :=
  ∃ digits, line = digits ++ ascii "\n" ∧ digits.length = 40 ∧ (∀ d ∈ digits, d ∈ hexDigits) ∧
    hexDecode digits = some mac

theorem macLine_isMacLine {mac : Bytes} (size : mac.length = SHA_DIGEST_LENGTH) :
    IsMacLine (macLine mac) mac := by
  refine ⟨mac.flatMap hex02, rfl, ?_, ?_, hexDecode_hex02 mac⟩
  · rw [length_flatMap_hex02, size]
    rfl
  · intro d member
    rcases List.mem_flatMap.mp member with ⟨b, _, digit⟩
    exact mem_hex02 digit

theorem IsMacLine.unique {line mac other : Bytes} (first : IsMacLine line mac)
    (second : IsMacLine line other) : mac = other := by
  rcases first with ⟨digits, same, _, _, decoded⟩
  rcases second with ⟨digits', same', _, _, decoded'⟩
  have equal : digits = digits' := List.append_cancel_right (same.symm.trans same')
  rw [equal, decoded'] at decoded
  exact (Option.some.inj decoded).symm

theorem completed_key {opened : Option File} {file : File} (found : opened = some file)
    (faultless : file.Faultless) : Completed opened keyDelivery file :=
  ⟨found, faultless.source.fill K_SIZE, faultless.closes⟩

theorem keyBytes_faultless {file : File} (faultless : file.Faultless) :
    keyBytes file = file.content.take K_SIZE :=
  file.source_prompt.fill K_SIZE (faultless.source.fill K_SIZE)

theorem main_faultless {sys : System} {program fichero clave : CString} {rest : List CString}
    {key message : File} (keyOpens : sys.openFile 0 clave = some key)
    (messageOpens : sys.openFile 1 fichero = some message)
    (keyFaultless : key.Faultless) (messageFaultless : message.Faultless) :
    (main sys (program :: fichero :: clave :: rest)).status = 0 ∧
    stdout (main sys (program :: fichero :: clave :: rest)).trace =
      macLine (hmacWith sys.sha1.digest (zeroPad K_SIZE (key.content.take K_SIZE)) message.content) := by
  rw [main_completed (completed_key keyOpens keyFaultless)
    (completed_message messageOpens messageFaultless)]
  refine ⟨rfl, ?_⟩
  dsimp only
  rw [runTrace_stdout, keyBytes_faultless keyFaultless, messageText_faultless messageFaultless (by decide)]

theorem hmacWith_length (sha1 : StreamingHash SHA_DIGEST_LENGTH) (block text : Bytes) :
    (hmacWith sha1.digest block text).length = SHA_DIGEST_LENGTH := sha1.digest_length _

theorem hmac_of_short_key (sys : System) (program fichero clave : CString) (rest : List CString)
    (key message : File) (keyOpens : sys.openFile 0 clave = some key)
    (messageOpens : sys.openFile 1 fichero = some message) (keyFaultless : key.Faultless)
    (messageFaultless : message.Faultless) (short : key.content.length ≤ 64) :
    (main sys (program :: fichero :: clave :: rest)).status = 0 ∧
    IsMacLine (stdout (main sys (program :: fichero :: clave :: rest)).trace)
      (hmac sys.sha1.digest 64 key.content message.content) := by
  rcases main_faultless keyOpens messageOpens keyFaultless messageFaultless with ⟨status, printed⟩
  have whole : key.content.take K_SIZE = key.content := List.take_of_length_le short
  refine ⟨status, ?_⟩
  rw [printed, whole, hmac_of_short _ _ short]
  exact macLine_isMacLine (hmacWith_length _ _ _)

section Sample

def sampleSystem (key message : Bytes) : System :=
  ⟨fipsSha1, fun n _ => if n = 0 then some (sampleFile key) else some (sampleFile message)⟩

def samplePath : CString := ⟨ascii "datos.txt", by decide⟩

theorem hmac_of_short_key_sample :
    (main (sampleSystem (ascii "clave\n") (ascii "hola\n")) [samplePath, samplePath, samplePath]).status = 0 ∧
    IsMacLine (stdout (main (sampleSystem (ascii "clave\n") (ascii "hola\n"))
        [samplePath, samplePath, samplePath]).trace)
      (hmac fipsSha1.digest 64 (ascii "clave\n") (ascii "hola\n")) :=
  hmac_of_short_key (sampleSystem (ascii "clave\n") (ascii "hola\n")) samplePath samplePath samplePath []
    (sampleFile (ascii "clave\n")) (sampleFile (ascii "hola\n")) rfl rfl (sampleFile_faultless _)
    (sampleFile_faultless _) (by decide)

end Sample

/-- A longer key file is cut to its first sixty-four bytes, and what follows them has no effect. -/
theorem hmac_of_long_key (sha1 : StreamingHash SHA_DIGEST_LENGTH)
    (openFile openFile' : Nat → CString → Option File) (program fichero clave : CString)
    (rest : List CString) (key key' message message' : File)
    (keyOpens : openFile 0 clave = some key) (messageOpens : openFile 1 fichero = some message)
    (keyOpens' : openFile' 0 clave = some key') (messageOpens' : openFile' 1 fichero = some message')
    (keyFaultless : key.Faultless) (messageFaultless : message.Faultless)
    (keyFaultless' : key'.Faultless) (messageFaultless' : message'.Faultless)
    (long : 64 < key.content.length) (sameText : message'.content = message.content)
    (sameStart : key'.content.take 64 = key.content.take 64) :
    (main ⟨sha1, openFile⟩ (program :: fichero :: clave :: rest)).status = 0 ∧
    IsMacLine (stdout (main ⟨sha1, openFile⟩ (program :: fichero :: clave :: rest)).trace)
      (hmacWith sha1.digest (key.content.take 64) message.content) ∧
    stdout (main ⟨sha1, openFile'⟩ (program :: fichero :: clave :: rest)).trace =
      stdout (main ⟨sha1, openFile⟩ (program :: fichero :: clave :: rest)).trace := by
  have full : zeroPad 64 (key.content.take 64) = key.content.take 64 := by
    have size : (key.content.take 64).length = 64 := by
      rw [List.length_take]
      omega
    simp [zeroPad, size]
  have run : _ ∧ stdout (main ⟨sha1, openFile⟩ (program :: fichero :: clave :: rest)).trace = _ :=
    main_faultless keyOpens messageOpens keyFaultless messageFaultless
  have run' : _ ∧ stdout (main ⟨sha1, openFile'⟩ (program :: fichero :: clave :: rest)).trace = _ :=
    main_faultless keyOpens' messageOpens' keyFaultless' messageFaultless'
  refine ⟨run.1, ?_, ?_⟩
  · rw [run.2, show K_SIZE = 64 from rfl, full]
    exact macLine_isMacLine (hmacWith_length _ _ _)
  · rw [run.2, run'.2, sameText, show K_SIZE = 64 from rfl, sameStart]

section LongSample

def longKey (last : UInt8) : Bytes := List.replicate 64 0x61 ++ [last]

def longRun (last : UInt8) : Process Empty :=
  main (sampleSystem (longKey last) (ascii "hola\n")) [samplePath, samplePath, samplePath]

theorem hmac_of_long_key_sample :
    (longRun 0x61).status = 0 ∧
    IsMacLine (stdout (longRun 0x61).trace)
      (hmacWith fipsSha1.digest ((longKey 0x61).take 64) (ascii "hola\n")) ∧
    stdout (longRun 0x62).trace = stdout (longRun 0x61).trace :=
  hmac_of_long_key fipsSha1 (sampleSystem (longKey 0x61) (ascii "hola\n")).openFile
    (sampleSystem (longKey 0x62) (ascii "hola\n")).openFile samplePath samplePath samplePath []
    (sampleFile (longKey 0x61)) (sampleFile (longKey 0x62)) (sampleFile (ascii "hola\n"))
    (sampleFile (ascii "hola\n")) rfl rfl rfl rfl (sampleFile_faultless _) (sampleFile_faultless _)
    (sampleFile_faultless _) (sampleFile_faultless _) (by decide) rfl rfl

/-- Two key files of sixty-five bytes that differ in the last one give the same line, and it is not
    the MAC of RFC 2104 for the key read. -/
theorem long_keys_confused :
    longKey 0x61 ≠ longKey 0x62 ∧
    (longRun 0x61).status = 0 ∧ (longRun 0x62).status = 0 ∧
    stdout (longRun 0x62).trace = stdout (longRun 0x61).trace ∧
    ¬ IsMacLine (stdout (longRun 0x61).trace) (hmac fipsSha1.digest 64 (longKey 0x61) (ascii "hola\n")) := by
  have cut : ∀ last, (longKey last).take K_SIZE = List.replicate 64 0x61 := fun last => rfl
  have printed : ∀ last, (longRun last).status = 0 ∧ stdout (longRun last).trace =
      macLine (hmacWith fipsSha1.digest (zeroPad K_SIZE ((longKey last).take K_SIZE)) (ascii "hola\n")) :=
    fun last => @main_faultless (sampleSystem (longKey last) (ascii "hola\n")) samplePath samplePath
      samplePath [] (sampleFile (longKey last)) (sampleFile (ascii "hola\n")) rfl rfl
      (sampleFile_faultless _) (sampleFile_faultless _)
  simp only [cut] at printed
  refine ⟨by decide, (printed _).1, (printed _).1, (printed _).2.trans (printed _).2.symm, ?_⟩
  intro line
  rw [(printed _).2] at line
  have same := (macLine_isMacLine (hmacWith_length fipsSha1 _ _)).unique line
  exact absurd same (by decide +kernel)

end LongSample

end HmacProof
