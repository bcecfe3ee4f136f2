import SeguridadRedes.Practica3.Arguments
import SeguridadRedes.Practica3.Stages

namespace SignProof

open C Crypto Programs SignModel

/-- A file that is opened, read in these chunks up to a read of nothing, and closed. -/
structure ReadIn (opened : Option File) (text_len : Nat) (chunks : List Bytes) (file : File) : Prop where
  found : opened = some file
  reads : messageDelivery text_len file = ⟨chunks, none⟩
  closes : file.closes = true

section Read

variable {opened : Option File} {text_len : Nat} {chunks : List Bytes} {file : File}

theorem ReadIn.flatten (read : ReadIn opened text_len chunks file) (asked : 0 < text_len) :
    chunks.flatten = file.content := by
  have ended : (messageDelivery text_len file).failure = none := by rw [read.reads]
  have all : (messageDelivery text_len file).chunks.flatten = file.content :=
    file.source_prompt.drain asked ended
  rwa [read.reads] at all

theorem ReadIn.fits (read : ReadIn opened text_len chunks file) :
    ∀ chunk ∈ chunks, chunk ≠ [] ∧ chunk.length ≤ text_len := by
  intro chunk member
  have inside : chunk ∈ (messageDelivery text_len file).chunks := by rwa [read.reads]
  exact ⟨Source.collect_chunks_ne_nil _ _ _ chunk inside, Source.drain_chunk_length _ _ chunk inside⟩

/-- Every sequence of chunks that fit the buffer is how some file is read. -/
theorem readIn_delivering (fits : ∀ chunk ∈ chunks, chunk ≠ [] ∧ chunk.length ≤ text_len) :
    ReadIn (some (File.delivering chunks)) text_len chunks (File.delivering chunks) :=
  ⟨rfl, messageDelivery_delivering chunks fits, rfl⟩

end Read

section Run

variable (hash : StreamingHash L_SHA512) {openFile : CString → Option File} {path : CString}
  {text_len : Nat} {chunks : List Bytes} {file : File}

def hashingEvents (path : CString) (text_len : Nat) (chunks : List Bytes) (md : Vector UInt8 L_SHA512) :
    List Event :=
  [.opened path true, .hashInit] ++
    chunks.flatMap (fun data => [.read .sha512 0 text_len data.length data, .hashUpdate data]) ++
    [.read .sha512 0 text_len 0 [], .hashUpdate path.bytes, .closed, .hashFinal md.toList]

theorem sha512_read (read : ReadIn (openFile path) text_len chunks file) (text : Vector UInt8 text_len) :
    sha512 hash openFile path text =
      ⟨hashingEvents path text_len chunks (digestOf hash path chunks.flatten),
        .ok (0, chunks.foldl (fun text data => blit text 0 data) text, digestOf hash path chunks.flatten)⟩ := by
  rw [sha512_opened hash read.found]
  simp [hashingEvents, hashEnding, feedEvents, messageText, read.reads, read.closes]

/-- The digest is that of the content and the path, whatever the size of the buffer and the lengths of
    the reads, and what is hashed is what each read delivers. -/
theorem sha512_chunk_independent (openFile openFile' : CString → Option File) (path : CString)
    {text_len' : Nat} {chunks' : List Bytes} {file' : File}
    (text : Vector UInt8 text_len) (text' : Vector UInt8 text_len')
    (asked : 0 < text_len) (asked' : 0 < text_len')
    (read : ReadIn (openFile path) text_len chunks file)
    (read' : ReadIn (openFile' path) text_len' chunks' file') (same : file'.content = file.content) :
    let run := sha512 hash openFile path text
    let run' := sha512 hash openFile' path text'
    let md := hash.hash (file.content ++ path.bytes)
    (chunks.flatten = file.content ∧ ∀ chunk ∈ chunks, chunk ≠ [] ∧ chunk.length ≤ text_len) ∧
    run.trace = [.opened path true, .hashInit] ++
      chunks.flatMap (fun data => [.read .sha512 0 text_len data.length data, .hashUpdate data]) ++
      [.read .sha512 0 text_len 0 [], .hashUpdate path.bytes, .closed, .hashFinal md.toList] ∧
    (∃ buffer, run.result = .ok (0, buffer, md)) ∧
    ∃ buffer', run'.result = .ok (0, buffer', md) := by
  have all := read.flatten asked
  have all' := read'.flatten asked'
  dsimp only
  rw [sha512_read hash read, sha512_read hash read', all, all', same]
  exact ⟨⟨rfl, read.fits⟩, rfl, ⟨_, rfl⟩, _, rfl⟩

def piecewise (chunks : List Bytes) (_ : CString) : Option File := some (File.delivering chunks)

/-- Two short reads into three bytes, and one read into fifty. -/
theorem sha512_chunk_independent_sample :
    (∃ buffer, (sha512 fipsSha512 (piecewise [ascii "ho", ascii "la\n"]) messagePath
      (Vector.replicate 3 0)).result = .ok (0, buffer, fipsSha512.hash (ascii "hola\nfichero.txt"))) ∧
    ∃ buffer', (sha512 fipsSha512 (piecewise [ascii "hola\n"]) messagePath
      (Vector.replicate TEXT_SIZE 0)).result =
        .ok (0, buffer', fipsSha512.hash (ascii "hola\nfichero.txt")) := by
  have agree := sha512_chunk_independent fipsSha512 (piecewise [ascii "ho", ascii "la\n"])
    (piecewise [ascii "hola\n"]) messagePath (Vector.replicate 3 0) (Vector.replicate TEXT_SIZE 0)
    (by decide) (by decide) (readIn_delivering (by decide)) (readIn_delivering (by decide)) (by decide)
  exact agree.2.2

end Run

end SignProof
