import SeguridadRedes.Practica3.Signing
import SeguridadRedes.Practica3.Verifying

namespace SignProof

open C Crypto Programs SignModel

/-- An event other than a call of fopen. -/
def Unopened (event : Event) : Prop := isOpening event = false

variable {ssl : OpenSSL} {sys : System ssl}

section Unopened

variable {α : Type}

theorem unopened_err (inside : Function) (status : Nat) (message : Bytes) :
    Proc.Emits Unopened (err inside status message : Process α) :=
  Proc.emits_cons rfl (Proc.emits_exit status)

theorem unopened_feedPass {size text_len : Nat} {h : StreamingHash size} (inside : Function)
    (s : Feed h text_len) : Proc.Emits Unopened (feedPass inside s) := by
  unfold feedPass
  refine Proc.emits_cons rfl ?_
  split
  · exact Proc.emits_cons rfl (unopened_err _ _ _)
  · split
    · exact Proc.emits_pure _
    · exact Proc.emits_cons rfl (Proc.emits_pure _)

theorem unopened_sha512 {text_len : Nat} (hash : StreamingHash L_SHA512) (openFile : CString → Option File)
    (path : CString) (text : Vector UInt8 text_len) :
    Proc.Emits Unopened (sha512 hash openFile path text) := by
  unfold sha512
  split
  · exact Proc.emits_cons rfl (unopened_err _ _ _)
  · refine Proc.emits_cons rfl (Proc.emits_cons rfl ?_)
    refine Proc.Emits.bind (Loop.emits_run (unopened_feedPass .sha512) _) fun fed => ?_
    refine Proc.emits_cons rfl (Proc.emits_cons rfl ?_)
    split
    · exact unopened_err _ _ _
    · exact Proc.emits_cons rfl (Proc.emits_pure _)

theorem unopened_printError (sig_size : Int) (text : Bytes) : Proc.Emits Unopened (printError sig_size text) := by
  unfold printError
  split
  · exact Proc.emits_emit rfl
  · exact Proc.emits_pure _

theorem unopened_generarFirmaDigital (BLOCK C_BLOCK : Vector UInt8 BLOCK_SIZE) (RSAKey : ssl.Private) :
    Proc.Emits Unopened (generarFirmaDigital sys BLOCK RSAKey C_BLOCK) := by
  unfold generarFirmaDigital
  refine Proc.emits_cons rfl ((unopened_printError _ _).bind fun _ => ?_)
  refine Proc.emits_cons rfl (Proc.emits_cons rfl ?_)
  split
  · exact unopened_err _ _ _
  · split
    · exact unopened_err _ _ _
    · exact Proc.emits_cons rfl (Proc.emits_cons rfl (Proc.emits_cons rfl (Proc.emits_pure _)))

theorem unopened_leerFirmaPass (s : Leyendo) : Proc.Emits Unopened (leerFirmaPass s) := by
  unfold leerFirmaPass
  refine Proc.emits_cons rfl ?_
  split
  · exact unopened_err _ _ _
  · split
    · exact unopened_err _ _ _
    · split
      · exact Proc.emits_pure _
      · exact Proc.emits_pure _

theorem unopened_desencryptarMSG (BLOCK C_BLOCK : Vector UInt8 BLOCK_SIZE) (RSAKey : ssl.Public) :
    Proc.Emits Unopened (desencryptarMSG sys BLOCK RSAKey C_BLOCK) := by
  unfold desencryptarMSG
  refine Proc.emits_cons rfl ?_
  split
  · exact Proc.emits_exit _
  · exact (unopened_printError _ _).bind fun _ => Proc.emits_pure _

theorem unopened_comprobarHash (fichero : CString) (BLOCK : Vector UInt8 BLOCK_SIZE) :
    Proc.Emits Unopened (comprobarHash sys fichero BLOCK) := by
  unfold comprobarHash
  apply (unopened_sha512 _ _ _ _).bind
  intro hashed
  dsimp only
  split
  · exact Proc.emits_exit 1
  · exact Proc.emits_cons rfl (Proc.emits_exit 0)

end Unopened

section Caught

/-- Each NULL that fopen returns is followed by the err of the function that called it and by nothing else,
    and comes before anything is printed; `callers` has the functions in the order of their calls. -/
def CaughtIn (callers : List Function) (trace : List Event) : Prop :=
  ∀ before path after, trace = before ++ .fopened path none :: after →
    ∃ inside message, callers[before.countP isOpening]? = some inside ∧
      after = [.err inside message] ∧ stdout before = []

structure Caught (callers : List Function) (run : Process Empty) : Prop where
  traced : CaughtIn callers run.trace
  exits : ∀ path, .fopened path none ∈ run.trace → run.status = 1

variable {callers : List Function} {first rest : List Event} {path : CString}

theorem unopened_ne {event : Event} (other : Unopened event) (fp : FilePtr) : event ≠ .fopened path fp := by
  intro same
  subst same
  cases other

theorem caughtIn_cons {event : Event} (found : ∀ path, event ≠ .fopened path none)
    (silent : printedBy event = []) :
    CaughtIn callers (event :: rest) ↔
      CaughtIn (callers.drop (if isOpening event then 1 else 0)) rest := by
  have shifted : ∀ before : List Event,
      (callers.drop (if isOpening event then 1 else 0))[before.countP isOpening]? =
        callers[(event :: before).countP isOpening]? := by
    intro before
    rw [List.getElem?_drop, List.countP_cons, Nat.add_comm]
  have printed : ∀ before, stdout (event :: before) = stdout before := by
    intro before
    rw [stdout_cons, silent, List.nil_append]
  apply Iff.intro
  · intro caught before path after split
    obtain ⟨inside, message, calls, ended, quiet⟩ := caught (event :: before) path after (congrArg _ split)
    exact ⟨inside, message, (shifted before).trans calls, ended, (printed before).symm.trans quiet⟩
  · intro caught before path after split
    cases before with
    | nil => exact absurd (List.cons.inj split).1 (found path)
    | cons head before =>
      obtain ⟨rfl, tail⟩ := List.cons.inj split
      obtain ⟨inside, message, calls, ended, quiet⟩ := caught before path after tail
      exact ⟨inside, message, (shifted before).symm.trans calls, ended, (printed before).trans quiet⟩

theorem caughtIn_append (unopened : ∀ event ∈ first, Unopened event) (silent : stdout first = []) :
    CaughtIn callers (first ++ rest) ↔ CaughtIn callers rest := by
  induction first with
  | nil => rfl
  | cons event first ih =>
    obtain ⟨here, later⟩ := List.append_eq_nil_iff.mp silent
    have other : Unopened event := unopened event List.mem_cons_self
    have next := ih (fun event member => unopened event (List.mem_cons_of_mem _ member)) later
    rw [List.cons_append, caughtIn_cons (fun path => unopened_ne other none) here, ← next, other]
    rfl

theorem caughtIn_null :
    CaughtIn callers (.fopened path none :: rest) ↔
      ∃ inside message, callers[0]? = some inside ∧ rest = [.err inside message] := by
  apply Iff.intro
  · intro caught
    obtain ⟨inside, message, calls, ended, _⟩ := caught [] path rest rfl
    exact ⟨inside, message, calls, ended⟩
  · intro answered before path' after split
    obtain ⟨inside, message, calls, ended⟩ := answered
    cases before with
    | nil =>
      obtain ⟨_, rfl⟩ := List.cons.inj split
      exact ⟨inside, message, calls, ended, rfl⟩
    | cons head before =>
      obtain ⟨_, tail⟩ := List.cons.inj split
      have member : .fopened path' none ∈ rest := by
        rw [tail]
        exact List.mem_append_cons_self
      rw [ended] at member
      cases List.mem_singleton.mp member

theorem not_mem_of_unopened (unopened : ∀ event ∈ rest, Unopened event) (fp : FilePtr) :
    .fopened path fp ∉ rest := by
  intro member
  exact unopened_ne (unopened _ member) fp rfl

theorem caught_of_unopened {run : Process Empty} (unopened : Proc.Emits Unopened run) : Caught callers run := by
  have absent : ∀ path, .fopened path none ∉ run.trace := fun path => not_mem_of_unopened unopened none
  constructor
  · intro before path after split
    have member : .fopened path none ∈ run.trace := by
      rw [split]
      exact List.mem_append_cons_self
    exact absurd member (absent path)
  · intro path member
    exact absurd member (absent path)

theorem caught_bind {α : Type} {p : Process α} {f : α → Process Empty} {a : α}
    (unopened : Proc.Emits Unopened p) (silent : stdout p.trace = []) (result : p.result = .ok a) :
    Caught callers (p >>= f) ↔ Caught callers (f a) := by
  have traces : CaughtIn callers (p.trace ++ (f a).trace) ↔ CaughtIn callers (f a).trace :=
    caughtIn_append unopened silent
  rw [Proc.bind_of_ok f result]
  apply Iff.intro
  · intro caught
    constructor
    · exact traces.mp caught.traced
    · intro path member
      exact caught.exits path (List.mem_append_right _ member)
  · intro caught
    constructor
    · exact traces.mpr caught.traced
    · intro path member
      rcases List.mem_append.mp member with early | late
      · exact absurd early (not_mem_of_unopened unopened none)
      · exact caught.exits path late

variable {inside : Function} {next : Process Empty}

theorem caught_opened (stream : Stream) :
    Caught (inside :: callers) (Proc.emit (.fopened path (some stream)) >>= fun _ => next) ↔
      Caught callers next := by
  have traces : CaughtIn (inside :: callers) (.fopened path (some stream) :: next.trace) ↔
      CaughtIn callers next.trace := caughtIn_cons (by simp) rfl
  apply Iff.intro
  · intro caught
    constructor
    · exact traces.mp caught.traced
    · intro path member
      exact caught.exits path (List.mem_cons_of_mem _ member)
  · intro caught
    constructor
    · exact traces.mpr caught.traced
    · intro path member
      rcases List.mem_cons.mp member with same | later
      · cases same
      · exact caught.exits path later

theorem caught_null :
    Caught (inside :: callers) (Proc.emit (.fopened path none) >>= fun _ => next) ↔
      (∃ message, next.trace = [.err inside message]) ∧ next.status = 1 := by
  have traces : CaughtIn (inside :: callers) (.fopened path none :: next.trace) ↔
      ∃ caller message, some inside = some caller ∧ next.trace = [.err caller message] := caughtIn_null
  apply Iff.intro
  · intro caught
    obtain ⟨_, message, ⟨⟩, ended⟩ := traces.mp caught.traced
    exact ⟨⟨message, ended⟩, caught.exits path List.mem_cons_self⟩
  · intro answered
    obtain ⟨⟨message, ended⟩, status⟩ := answered
    exact ⟨traces.mpr ⟨inside, message, rfl, ended⟩, fun _ _ => status⟩

end Caught

section Functions

variable {path : CString}

theorem readKey_caught_iff {Key : Type} {inside : Function} {fopen : CString → FilePtr} {RSA_new : Bool}
    {pemRead : FilePtr → Option Key} {nullKey : Bytes} {f : Key → Process Empty}
    (later : ∀ key, Proc.Emits Unopened (f key)) :
    Caught [inside] (readKey inside fopen RSA_new pemRead nullKey path >>= f) ↔
      ¬ (fopen path = none ∧ RSA_new = true) := by
  rw [readKey_eq, bind_assoc]
  cases found : fopen path with
  | some stream =>
    rw [caught_opened]
    apply iff_of_true
    · apply caught_of_unopened
      refine Proc.Emits.bind ?_ later
      split
      · exact unopened_err _ _ _
      · refine Proc.emits_cons rfl ?_
        split
        · exact unopened_err _ _ _
        · exact Proc.emits_pure _
    · simp
  | none =>
    rw [caught_null]
    cases RSA_new with
    | false => exact iff_of_true ⟨⟨nullKey, rfl⟩, rfl⟩ (by simp)
    | true =>
      apply iff_of_false
      · intro answered
        obtain ⟨⟨message, ended⟩, _⟩ := answered
        rw [if_neg (by decide), bind_assoc] at ended
        cases ended
      · simp

theorem unopened_leerFirmaAbierta (fp : FilePtr) (BLOCK : Vector UInt8 BLOCK_SIZE) :
    Proc.Emits Unopened (leerFirmaAbierta sys fp BLOCK) :=
  Proc.emits_cons rfl (Loop.emits_run unopened_leerFirmaPass _)

theorem leerFirmaB64_caught_iff {BLOCK : Vector UInt8 BLOCK_SIZE}
    {f : Vector UInt8 BLOCK_SIZE → Process Empty} {callers : List Function} :
    Caught (.leerFirmaB64 :: callers) (leerFirmaB64 sys path BLOCK >>= f) ↔
      sys.fopen .leerFirmaB64 path ≠ none ∧
        ((signatureDelivery sys path).failure = none →
          Caught callers (f (blit BLOCK 0 (signatureBytes sys path)))) := by
  have opens := leerFirmaB64_opens sys path BLOCK
  have trace : (leerFirmaB64 sys path BLOCK).trace = .fopened path (sys.fopen .leerFirmaB64 path) ::
      (leerFirmaAbierta sys (sys.fopen .leerFirmaB64 path) BLOCK).trace := by
    rw [opens]
    rfl
  have result : (leerFirmaAbierta sys (sys.fopen .leerFirmaB64 path) BLOCK).result =
      (leerFirmaB64 sys path BLOCK).result := by
    rw [opens]
    rfl
  rw [opens, bind_assoc]
  cases found : sys.fopen .leerFirmaB64 path with
  | none =>
    rw [caught_null]
    apply iff_of_false
    · intro answered
      obtain ⟨⟨message, ended⟩, _⟩ := answered
      rw [leerFirmaAbierta, bind_assoc] at ended
      cases ended
    · intro condition
      exact condition.1 rfl
  | some stream =>
    rw [found] at trace result
    rw [caught_opened]
    cases reads : (signatureDelivery sys path).failure with
    | some failure =>
      have stops := result.trans (leerFirmaB64_failed reads BLOCK).result
      apply iff_of_true
      · rw [Proc.bind_of_error f stops]
        exact caught_of_unopened (unopened_leerFirmaAbierta (some stream) BLOCK)
      · simp
    | none =>
      have read := leerFirmaB64_read reads BLOCK
      have silent := stdout_of_shows read
      rw [trace] at silent
      rw [caught_bind (unopened_leerFirmaAbierta (some stream) BLOCK) silent (result.trans read.result)]
      simp

theorem creacionFirma_caught_iff (sys : System ssl) (C_BLOCK : Vector UInt8 BLOCK_SIZE)
    (fichero priv : CString) :
    Caught [.readPrivkey] (creacionFirma sys C_BLOCK fichero priv) ↔
      ¬ ((∃ file, Completed (sys.openFile fichero) (messageDelivery TEXT_SIZE) file) ∧
        sys.fopen .readPrivkey priv = none ∧ sys.RSA_new = true) := by
  have reading := unopened_sha512 ssl.sha512 sys.openFile fichero (Vector.replicate TEXT_SIZE 0)
  unfold creacionFirma
  rcases completed_or_not (sys.openFile fichero) (messageDelivery TEXT_SIZE) with ⟨file, completed⟩ | stopped
  · obtain ⟨text, hashed⟩ := sha512_completed ssl.sha512 completed (Vector.replicate TEXT_SIZE 0)
    rw [caught_bind reading (stdout_of_shows hashed) hashed.result]
    have keyed : Caught [.readPrivkey] (readPrivkey sys priv >>= fun key =>
        generarFirmaDigital sys (blockOf ssl fichero file) key C_BLOCK >>= fun _ => Proc.exit 0) ↔
        ¬ (sys.fopen .readPrivkey priv = none ∧ sys.RSA_new = true) :=
      readKey_caught_iff fun key => (unopened_generarFirmaDigital _ _ key).bind fun _ => Proc.emits_exit 0
    rw [and_iff_right ⟨file, completed⟩]
    exact keyed
  · obtain ⟨message, failed⟩ := sha512_stopped ssl.sha512 stopped (Vector.replicate TEXT_SIZE 0)
    apply iff_of_true
    · rw [Proc.bind_of_error _ failed.result]
      exact caught_of_unopened reading
    · intro condition
      exact condition.1.elim stopped

theorem verificacionFirma_caught_iff (sys : System ssl) (C_BLOCK : Vector UInt8 BLOCK_SIZE)
    (sig fichero pub : CString) :
    Caught [.leerFirmaB64, .readPubkey] (verificacionFirma sys C_BLOCK sig fichero pub) ↔
      ¬ (sys.fopen .leerFirmaB64 sig = none ∨
        (signatureDelivery sys sig).failure = none ∧ sys.fopen .readPubkey pub = none ∧ sys.RSA_new = true) := by
  have keyed : ∀ BLOCK, Caught [.readPubkey] (readPubkey sys pub >>= fun key =>
      desencryptarMSG sys (Vector.replicate BLOCK_SIZE 0) key BLOCK >>= fun BLOCK =>
        Proc.emit (.paddingChecked (comprobarPadding BLOCK)) >>= fun _ =>
          if comprobarPadding BLOCK = 0 then comprobarHash sys fichero BLOCK else Proc.exit 0) ↔
      ¬ (sys.fopen .readPubkey pub = none ∧ sys.RSA_new = true) := by
    intro BLOCK
    apply readKey_caught_iff
    intro key
    refine (unopened_desencryptarMSG _ _ key).bind fun BLOCK => Proc.emits_cons rfl ?_
    split
    · exact unopened_comprobarHash fichero BLOCK
    · exact Proc.emits_exit 0
  unfold verificacionFirma
  rw [leerFirmaB64_caught_iff, keyed]
  tauto

end Functions

/-- The functions that call fopen, in the order of their calls. -/
def fopenCallers (argv : List CString) : List Function :=
  if argv.length = 3 then [.readPrivkey] else [.leerFirmaB64, .readPubkey]

def OpeningsCaught (sys : System ssl) (uninit : Uninitialised) (argv : List CString) : Prop :=
  Caught (fopenCallers argv) (main sys uninit argv)

/-- The run comes to an fopen that returns NULL, and RSA_new, where it is called next, does not fail. -/
def NullOpening (sys : System ssl) : List CString → Prop
  | [_, fichero, priv] =>
    (∃ file, Completed (sys.openFile fichero) (messageDelivery TEXT_SIZE) file) ∧
      sys.fopen .readPrivkey priv = none ∧ sys.RSA_new = true
  | [_, first, second, third, fourth] =>
    ∃ sig, signatureArgument first second third fourth = some sig ∧
      (sys.fopen .leerFirmaB64 sig = none ∨
        (signatureDelivery sys sig).failure = none ∧ sys.fopen .readPubkey fourth = none ∧ sys.RSA_new = true)
  | _ => False

section Run

variable {uninit : Uninitialised} {argv : List CString}

theorem main_usage (three : argv.length ≠ 3) (five : argv.length ≠ 5) : main sys uninit argv = usage := by
  unfold main
  rw [dif_neg three, dif_neg five]

theorem usage_caught (callers : List Function) : Caught callers usage :=
  caught_of_unopened (Proc.emits_cons rfl (Proc.emits_exit 1))

end Run

/-- The check behind fopen never stops a run: a NULL is caught exactly where RSA_new happens to fail behind
    it. -/
theorem openings_caught_iff (sys : System ssl) (uninit : Uninitialised) (argv : List CString) :
    OpeningsCaught sys uninit argv ↔ ¬ NullOpening sys argv := by
  unfold NullOpening
  split
  · exact creacionFirma_caught_iff sys _ _ _
  · rename_i first second third fourth
    unfold OpeningsCaught
    rw [main_of_signatureArgument]
    cases signatureArgument first second third fourth with
    | none => exact iff_of_true (usage_caught _) (by simp)
    | some sig =>
      simp only [Option.some.injEq, exists_eq_left']
      exact verificacionFirma_caught_iff sys uninit.C_BLOCK sig third fourth
  · rename_i signs verifies
    unfold OpeningsCaught
    rw [main_usage]
    · exact iff_of_true (usage_caught _) not_false
    · intro three
      obtain ⟨program, fichero, priv, rfl⟩ := List.length_eq_three.mp three
      exact signs program fichero priv rfl
    · intro five
      match argv, five with
      | [program, first, second, third, fourth], _ => exact verifies program first second third fourth rfl

section Sample

def keylessFiles : List (CString × Bytes) := [(messagePath, ascii "hola\n")]

/-- Without a key file, NULL goes to PEM_read_RSAPrivateKey. -/
theorem missing_key_passed_on :
    Event.pemRead .readPrivkey none ∈
      (main (sampleSystem keylessFiles) (sampleUninit 0) [programName, messagePath, keyPath]).trace ∧
    ¬ OpeningsCaught (sampleSystem keylessFiles) (sampleUninit 0) [programName, messagePath, keyPath] := by
  have completed : Completed ((sampleSystem keylessFiles).openFile messagePath) (messageDelivery TEXT_SIZE)
      (sampleFile (ascii "hola\n")) := completed_message rfl (sampleFile_faultless _)
  have absent : (sampleSystem keylessFiles).fopen .readPrivkey keyPath = none := rfl
  constructor
  · obtain ⟨text, hashed⟩ := sha512_completed sampleSsl.sha512 completed (Vector.replicate TEXT_SIZE 0)
    rw [main_three, creacionFirma, Proc.bind_of_ok _ hashed.result]
    apply List.mem_append_right
    have keyed : ∀ f : sampleSsl.Private → Process Empty,
        Event.pemRead .readPrivkey none ∈ (readPrivkey (sampleSystem keylessFiles) keyPath >>= f).trace := by
      intro f
      rw [readPrivkey, readKey_eq, absent]
      exact List.mem_cons_of_mem _ List.mem_cons_self
    exact keyed _
  · intro caught
    exact (creacionFirma_caught_iff _ _ _ _).mp caught ⟨⟨_, completed⟩, absent, rfl⟩

end Sample

end SignProof
