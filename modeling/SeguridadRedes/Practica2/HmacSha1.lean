import SeguridadRedes.C.Hex
import SeguridadRedes.Programs.Feed

namespace HmacModel

open C Crypto Programs

def K_SIZE : Nat := 64
def TEXT_SIZE : Nat := 50
def SHA_DIGEST_LENGTH : Nat := 20

/-- The surroundings of a run of hmacsha1: SHA-1, and what the n-th open(2) on a path finds. -/
structure System where
  sha1 : StreamingHash SHA_DIGEST_LENGTH
  openFile : Nat → CString → Option File

def converthexa (md : Vector UInt8 SHA_DIGEST_LENGTH) : Process Unit := do
  md.toList.forM fun b => printf (hex02 b)
  printf (ascii "\n")

def xorPads (k_ipad k_opad : Vector UInt8 K_SIZE) : Vector UInt8 K_SIZE × Vector UInt8 K_SIZE :=
  forRange 0 K_SIZE
    (fun i _ pads => .next (pads.1.set i (pads.1[i] ^^^ 0x36), pads.2.set i (pads.2[i] ^^^ 0x5c)))
    (k_ipad, k_opad)

def hmacsha1 {text_len n : Nat} (sha1 : StreamingHash SHA_DIGEST_LENGTH) (openFile : CString → Option File)
    (path_fichero : CString) (text : Vector UInt8 text_len) (key : Vector UInt8 n) (key_len : Nat) :
    Process (Vector UInt8 text_len × Vector UInt8 SHA_DIGEST_LENGTH) :=
  let k_ipad : Vector UInt8 K_SIZE := Vector.replicate K_SIZE 0
  let k_opad : Vector UInt8 K_SIZE := Vector.replicate K_SIZE 0
  let k_ipad := blit k_ipad 0 (key.toList.take key_len)
  let k_opad := blit k_opad 0 (key.toList.take key_len)
  let pads := xorPads k_ipad k_opad
  do
    Proc.emit .hashInit
    Proc.emit (.hashUpdate pads.1.toList)
    match openFile path_fichero with
    | none =>
      Proc.emit (.opened path_fichero false)
      err .hmacsha1 1 (ascii "open " ++ path_fichero.bytes)
    | some file =>
      Proc.emit (.opened path_fichero true)
      let fed ← (feedLoop .hmacsha1 sha1 text_len).run
        ⟨file.source, text, sha1.update sha1.init pads.1.toList⟩
      Proc.emit .closed
      if file.closes = false then
        err .hmacsha1 1 (ascii "close")
      else
        let md := sha1.final fed.c
        Proc.emit (.hashFinal md.toList)
        Proc.emit .hashInit
        Proc.emit (.hashUpdate pads.2.toList)
        Proc.emit (.hashUpdate md.toList)
        let md := sha1.final (sha1.update (sha1.update sha1.init pads.2.toList) md.toList)
        Proc.emit (.hashFinal md.toList)
        converthexa md
        return (fed.text, md)

structure Reading (size_key : Nat) where
  fd : Source UInt8 Unit
  key : Vector UInt8 size_key
  t : Int
  s : Int

def readkeyPass {size_key : Nat} (r : Reading size_key) :
    Process (Pass (Reading size_key) (Vector UInt8 size_key)) :=
  let answer := (r.fd.pull (size_key - r.t).toNat).1
  let nr := returned (fun _ => -1) answer
  let key := blit r.key r.t.toNat (delivered answer)
  do
    Proc.emit (.read .readkey r.t (size_key - r.t) nr (delivered answer))
    if nr < 0 then
      Proc.emit .closed
      err .readkey 1 (ascii "read")
    else if nr = 0 then
      return .leave key
    else
      let t := r.t + nr
      let s := r.s - nr
      if t > size_key ∨ s = 0 then
        return .leave key
      else
        return .again ⟨(r.fd.pull (size_key - r.t).toNat).2, key, t, s⟩

section Pass

variable {size_key : Nat} {r : Reading size_key} {request : Nat}

theorem readkeyPass_failure {failure : Unit} (window : (size_key - r.t).toNat = request)
    (answer : (r.fd.pull request).1 = .error failure) :
    readkeyPass r =
      ⟨[.read .readkey r.t (size_key - r.t) (-1) [], .closed, .err .readkey (ascii "read")], .error 1⟩ := by
  simp [readkeyPass, window, answer, returned, delivered, err]

theorem readkeyPass_end (window : (size_key - r.t).toNat = request)
    (answer : (r.fd.pull request).1 = .ok []) :
    readkeyPass r = ⟨[.read .readkey r.t (size_key - r.t) 0 []], .ok (.leave r.key)⟩ := by
  simp [readkeyPass, window, answer, returned, delivered, Proc.pure_def]

theorem readkeyPass_chunk {data : Bytes} (window : (size_key - r.t).toNat = request)
    (answer : (r.fd.pull request).1 = .ok data) (nonempty : data ≠ []) :
    readkeyPass r =
      ⟨[.read .readkey r.t (size_key - r.t) data.length data],
        .ok (if r.t + data.length > size_key ∨ r.s - data.length = 0 then
            .leave (blit r.key r.t.toNat data)
          else .again ⟨(r.fd.pull request).2, blit r.key r.t.toNat data, r.t + data.length,
            r.s - data.length⟩)⟩ := by
  have notNegative : ¬ (data.length : Int) < 0 := by omega
  simp only [readkeyPass, window, answer, returned, delivered, Proc.emit_bind, notNegative, ↓reduceIte,
    Int.natCast_eq_zero, List.length_eq_zero_iff, nonempty]
  split <;> rfl

end Pass

def readkeyLoop (size_key : Nat) : Loop Event (Reading size_key) (Vector UInt8 size_key) where
  body := readkeyPass
  variant r := r.fd.pending.length
  decreases := by
    intro r r' again
    cases answer : (r.fd.pull (size_key - r.t).toNat).1 with
    | error failure => rw [readkeyPass_failure rfl answer] at again; cases again
    | ok data =>
      by_cases empty : data = []
      · subst empty
        rw [readkeyPass_end rfl answer] at again
        cases again
      · rw [readkeyPass_chunk rfl answer empty] at again
        split at again
        · cases again
        · cases again
          exact Source.pull_shrinks answer empty

def readkey (openFile : CString → Option File) (path_fich : CString) {size_key : Nat}
    (key : Vector UInt8 size_key) : Process (Vector UInt8 size_key) :=
  match openFile path_fich with
  | none => do
    Proc.emit (.opened path_fich false)
    err .readkey 1 (ascii "open " ++ path_fich.bytes)
  | some file => do
    Proc.emit (.opened path_fich true)
    let key ← (readkeyLoop size_key).run ⟨file.source, key, 0, size_key⟩
    Proc.emit .closed
    if file.closes = false then
      err .readkey 1 (ascii "close")
    else
      return key

def main (sys : System) (argv : List CString) : Process Empty :=
  if h : argv.length < 3 then do
    puts (ascii "Usage: ./nombreprograma myfile.txt key")
    Proc.exit 1
  else
    let path_fichero := argv[1]
    let path_key := argv[2]
    let key : Vector UInt8 K_SIZE := Vector.replicate K_SIZE 0
    let buffer_text : Vector UInt8 TEXT_SIZE := Vector.replicate TEXT_SIZE 0
    do
      let key ← readkey (sys.openFile 0) path_key key
      let _ ← hmacsha1 sys.sha1 (sys.openFile 1) path_fichero buffer_text key K_SIZE
      Proc.exit 0

end HmacModel
