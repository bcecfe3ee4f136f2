import SeguridadRedes.C.Source
import SeguridadRedes.C.Strings

namespace Programs

open C

inductive Function where
  | sha512
  | readPrivkey
  | generarFirmaDigital
  | leerFirmaB64
  | readPubkey
  | desencryptarMSG
  | hmacsha1
  | readkey
  deriving DecidableEq

structure Stream where
  address : UInt64
  content : Bytes
  notNull : address ≠ 0
  deriving DecidableEq

/-- A `FILE *`; `none` is NULL. -/
abbrev FilePtr := Option Stream

def FilePtr.address : FilePtr → UInt64
  | none => 0
  | some stream => stream.address

theorem FilePtr.not_address_neg (fp : FilePtr) : ¬ fp.address < 0 := UInt64.not_lt_zero

/-- The calls a program makes to the system and to OpenSSL, with their results, and the results of
    the verifier's two checks. -/
inductive Event where
  | opened (path : CString) (success : Bool)
  | read (inside : Function) (offset request nr : Int) (data : Bytes)
  | closed
  | hashInit
  | hashUpdate (data : Bytes)
  | hashFinal (md : Bytes)
  | fopened (path : CString) (fp : FilePtr)
  | pemRead (inside : Function) (fp : FilePtr)
  | bioNewFp (fp : FilePtr)
  | bioRead (offset request leido : Int) (data : Bytes)
  | bioWrite (data : Bytes) (wr : Int)
  | rsaPrivateEncrypt (block : Bytes) (sig_size : Int) (written : Bytes)
  | rsaPublicDecrypt (block : Bytes) (sig_size : Int) (written : Bytes)
  | paddingChecked (padding : Int)
  | hashesCompared (cmp : Int)
  | printed (text : Bytes)
  | printedError (text : Bytes)
  | err (inside : Function) (message : Bytes)
  deriving DecidableEq

abbrev Process := Proc Event

def printf (text : Bytes) : Process Unit := Proc.emit (.printed text)

def puts (text : Bytes) : Process Unit := printf (text ++ ascii "\n")

/-- `err(status, ...)`: the message goes to the standard error and the process exits. -/
def err {α : Type} (inside : Function) (status : Nat) (message : Bytes) : Process α := do
  Proc.emit (.err inside message)
  Proc.exit status

def isRead : Event → Bool
  | .read .. => true
  | _ => false

def isOpening : Event → Bool
  | .fopened .. => true
  | _ => false

def printedBy : Event → Bytes
  | .printed text => text
  | _ => []

def stdout (trace : List Event) : Bytes := trace.flatMap printedBy

def absorbedBy : Event → Bytes
  | .hashUpdate data => data
  | _ => []

def absorbed (trace : List Event) : Bytes := trace.flatMap absorbedBy

@[simp] theorem stdout_nil : stdout [] = [] := rfl

@[simp] theorem stdout_cons (event : Event) (trace : List Event) :
    stdout (event :: trace) = printedBy event ++ stdout trace := rfl

@[simp] theorem stdout_append (first second : List Event) :
    stdout (first ++ second) = stdout first ++ stdout second := by
  simp [stdout]

@[simp] theorem absorbed_nil : absorbed [] = [] := rfl

@[simp] theorem absorbed_cons (event : Event) (trace : List Event) :
    absorbed (event :: trace) = absorbedBy event ++ absorbed trace := rfl

@[simp] theorem absorbed_append (first second : List Event) :
    absorbed (first ++ second) = absorbed first ++ absorbed second := by
  simp [absorbed]

/-- The events that concern the blocks, the output and the errors; the rest is reading. -/
def shownBy : Event → List Event
  | .bioWrite data wr => [.bioWrite data wr]
  | .rsaPrivateEncrypt block sig_size written => [.rsaPrivateEncrypt block sig_size written]
  | .rsaPublicDecrypt block sig_size written => [.rsaPublicDecrypt block sig_size written]
  | .paddingChecked padding => [.paddingChecked padding]
  | .hashesCompared cmp => [.hashesCompared cmp]
  | .printed text => [.printed text]
  | .err inside message => [.err inside message]
  | _ => []

def visible (trace : List Event) : List Event := trace.flatMap shownBy

@[simp] theorem visible_append (first second : List Event) :
    visible (first ++ second) = visible first ++ visible second := List.flatMap_append

theorem mem_visible {event : Event} (shown : shownBy event = [event]) (trace : List Event) :
    event ∈ visible trace ↔ event ∈ trace := by
  unfold visible
  rw [List.mem_flatMap]
  constructor
  · intro found
    rcases found with ⟨other, member, here⟩
    have same : other = event := by cases other <;> simp_all [shownBy]
    exact same ▸ member
  · exact fun member => ⟨event, member, by simp [shown]⟩

theorem stdout_visible (trace : List Event) : stdout (visible trace) = stdout trace := by
  induction trace with
  | nil => rfl
  | cons event rest ih =>
    have head : stdout (shownBy event) = printedBy event := by cases event <;> simp [shownBy, printedBy]
    have split : visible (event :: rest) = shownBy event ++ visible rest := rfl
    rw [split, stdout_append, head, ih, stdout_cons]

/-- A file as a run of read(2) calls meets it: the n-th call fails when `plan n` is `none`, and
    otherwise transfers at most `k + 1` bytes for `some k`; `closes` is the success of close(2). -/
structure File where
  content : Bytes
  plan : Nat → Option Nat
  closes : Bool

namespace File

def source (file : File) : Source UInt8 Unit where
  pending := file.content
  plan i :=
    match file.plan i with
    | none => .error ()
    | some k => .ok (k + 1)

structure Faultless (file : File) : Prop where
  reads : ∀ i, file.plan i ≠ none
  closes : file.closes = true

theorem source_prompt (file : File) : file.source.Prompt := by
  intro i most h
  simp only [source] at h
  split at h
  · cases h
  · cases h
    omega

theorem Faultless.source {file : File} (faultless : file.Faultless) : file.source.Faultless := by
  intro i failure h
  simp only [File.source] at h
  split at h
  · rename_i refused
    exact faultless.reads i refused
  · cases h

end File

def returned {E : Type} (code : E → Int) : Except E Bytes → Int
  | .error failure => code failure
  | .ok data => data.length

def delivered {E : Type} : Except E Bytes → Bytes
  | .error _ => []
  | .ok data => data

end Programs
