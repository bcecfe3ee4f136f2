import Mathlib.Algebra.GroupWithZero.Nat
import SeguridadRedes.Practica3.Sign

namespace SignProof

open C Programs SignModel

def signatureReads : Nat → List Bytes → List Event
  | _, [] => []
  | got, data :: rest =>
    .bioRead got (BLOCK_SIZE - got : Int) data.length data :: signatureReads (got + data.length) rest

def signatureEnding (got : Nat) : Option BioFailure → List Event
  | none => [.bioRead got (BLOCK_SIZE - got : Int) 0 []]
  | some failure =>
    [.bioRead got (BLOCK_SIZE - got : Int) failure.code [], .err .leerFirmaB64 (readMessage failure)]

def signatureEvents (got : Nat) (delivery : Delivery UInt8 BioFailure) : List Event :=
  signatureReads got delivery.chunks ++ signatureEnding (got + delivery.chunks.flatten.length) delivery.failure

def signatureRun (got : Nat) (bio : Source UInt8 BioFailure) (BLOCK : Vector UInt8 BLOCK_SIZE) :
    Process (Vector UInt8 BLOCK_SIZE) where
  trace := signatureEvents got (bio.collect (Source.askWindow BLOCK_SIZE) got)
  result :=
    match (bio.collect (Source.askWindow BLOCK_SIZE) got).failure with
    | none => .ok (blit BLOCK got (bio.collect (Source.askWindow BLOCK_SIZE) got).chunks.flatten)
    | some _ => .error 1

/-- The position stays inside the block. -/
structure Filling (s : Leyendo) (got : Nat) : Prop where
  t : s.t = got
  room : got ≤ BLOCK_SIZE

theorem Filling.window {s : Leyendo} {got : Nat} (filling : Filling s got) :
    (BLOCK_SIZE - s.t : Int) = (BLOCK_SIZE - got : Nat) := by
  have room := filling.room
  rw [filling.t]
  omega

theorem Filling.full {s : Leyendo} (filling : Filling s BLOCK_SIZE) :
    leerFirmaPass s = ⟨[.bioRead BLOCK_SIZE 0 0 []], .ok (.leave s.BLOCK)⟩ := by
  have ended := leerFirmaPass_end filling.window (show (BIO_read s.Base64 _).1 = .ok [] by simp [BIO_read])
  rw [ended, filling.t]
  simp

/-- What one pass can do, and what it makes of the rest of the data. -/
theorem Filling.cases {s : Leyendo} {got : Nat} (filling : Filling s got) :
    (∃ failure, s.Base64.collect (Source.askWindow BLOCK_SIZE) got = ⟨[], some failure⟩ ∧
      leerFirmaPass s = ⟨signatureEnding got (some failure), .error 1⟩) ∨
    (s.Base64.collect (Source.askWindow BLOCK_SIZE) got = ⟨[], none⟩ ∧
      leerFirmaPass s = ⟨signatureEnding got none, .ok (.leave s.BLOCK)⟩) ∨
    ∃ data later, data ≠ [] ∧ got + data.length ≤ BLOCK_SIZE ∧
      s.Base64.collect (Source.askWindow BLOCK_SIZE) got =
        ⟨data :: (later.collect (Source.askWindow BLOCK_SIZE) (got + data.length)).chunks,
          (later.collect (Source.askWindow BLOCK_SIZE) (got + data.length)).failure⟩ ∧
      leerFirmaPass s = ⟨[.bioRead got (BLOCK_SIZE - got : Int) data.length data],
        .ok (.again ⟨later, blit s.BLOCK got data, (got + data.length : Nat)⟩)⟩ := by
  have room := filling.room
  have window := filling.window
  by_cases full : got = BLOCK_SIZE
  · subst full
    have idle := Source.collect_idle (Source.askWindow BLOCK_SIZE) BLOCK_SIZE s.Base64
      (Source.askWindow_none.mpr (Nat.le_refl _))
    refine Or.inr (Or.inl ⟨idle, ?_⟩)
    rw [filling.full]
    simp [signatureEnding]
  · have asked : 0 < BLOCK_SIZE - got := by omega
    have asks : Source.askWindow BLOCK_SIZE got = some (BLOCK_SIZE - got) := if_pos (by omega)
    have position : (BLOCK_SIZE - got : Int) = (BLOCK_SIZE - got : Nat) := by omega
    cases answer : (s.Base64.pull (BLOCK_SIZE - got)).1 with
    | error failure =>
      refine Or.inl ⟨failure, Source.collect_failure asks answer, ?_⟩
      rw [leerFirmaPass_failure window asked answer, filling.t, signatureEnding, position]
    | ok data =>
      have fits := (Source.pull_ok answer).2
      by_cases empty : data = []
      · subst empty
        have ended : (BIO_read s.Base64 (BLOCK_SIZE - got : Nat)).1 = .ok [] := by
          unfold BIO_read
          rw [if_neg (by omega), Int.toNat_natCast, answer]
        refine Or.inr (Or.inl ⟨Source.collect_end asks answer, ?_⟩)
        rw [leerFirmaPass_end window ended, filling.t, signatureEnding, position]
      · refine Or.inr (Or.inr ⟨data, (s.Base64.pull (BLOCK_SIZE - got)).2, empty, by omega,
          Source.collect_chunk asks answer empty, ?_⟩)
        rw [leerFirmaPass_chunk window asked answer empty, filling.t, position]
        rfl

theorem Filling.next {s s' : Leyendo} {got : Nat} (filling : Filling s got)
    (again : (leerFirmaPass s).result = .ok (.again s')) : s.t < s'.t ∧ ∃ got', Filling s' got' := by
  have position := filling.t
  rcases filling.cases with ⟨failure, _, pass⟩ | ⟨_, pass⟩ | ⟨data, later, nonempty, fits, _, pass⟩
  · rw [pass] at again
    cases again
  · rw [pass] at again
    cases again
  · have positive := List.length_pos_iff.mpr nonempty
    rw [pass] at again
    cases again
    refine ⟨?_, got + data.length, rfl, fits⟩
    dsimp only
    omega

theorem Filling.kept (s s' : Leyendo) (filled : ∃ got, Filling s got)
    (again : (leerFirmaPass s).result = .ok (.again s')) : ∃ got, Filling s' got := by
  rcases filled with ⟨got, filling⟩
  exact (filling.next again).2

theorem signatureRun_equation {s : Leyendo} {got : Nat} (filling : Filling s got)
    (f : Leyendo → Process (Vector UInt8 BLOCK_SIZE))
    (rest : ∀ (s' : Leyendo) (got' : Nat), Filling s' got' → f s' = signatureRun got' s'.Base64 s'.BLOCK) :
    signatureRun got s.Base64 s.BLOCK = leerFirmaPass s >>= Loop.after f := by
  rcases filling.cases with ⟨failure, stops, pass⟩ | ⟨ends, pass⟩ | ⟨data, later, _, fits, goes, pass⟩
  · rw [pass]
    simp [signatureRun, signatureEvents, signatureReads, stops]
  · rw [pass]
    simp [signatureRun, signatureEvents, signatureReads, ends]
  · rw [pass, Proc.ok_bind, Loop.after_again, rest _ (got + data.length) ⟨rfl, fits⟩]
    simp [signatureRun, signatureEvents, signatureReads, goes, blit_blit, Nat.add_assoc]

theorem leerFirmaLoop_run {s : Leyendo} {got : Nat} (filling : Filling s got) :
    leerFirmaLoop.run s = signatureRun got s.Base64 s.BLOCK := by
  let f := fun s : Leyendo => signatureRun s.t.toNat s.Base64 s.BLOCK
  have agrees : ∀ (s' : Leyendo) (got' : Nat), Filling s' got' → f s' = signatureRun got' s'.Base64 s'.BLOCK := by
    intro s' got' filling'
    simp [f, filling'.t]
  rw [← agrees s got filling]
  apply Loop.run_unique _ f (fun s => ∃ got, Filling s got) Filling.kept _ s ⟨got, filling⟩
  intro s filled
  rcases filled with ⟨got, filling⟩
  rw [agrees s got filling]
  exact signatureRun_equation filling f agrees

theorem signatureReads_shown (got : Nat) (chunks : List Bytes) : visible (signatureReads got chunks) = [] := by
  induction chunks generalizing got with
  | nil => rfl
  | cons data rest ih => exact ih (got + data.length)

theorem signatureEvents_shown (got : Nat) (delivery : Delivery UInt8 BioFailure) :
    visible (signatureEvents got delivery) =
      match delivery.failure with
      | none => []
      | some failure => [.err .leerFirmaB64 (readMessage failure)] := by
  unfold signatureEvents
  rw [visible_append, signatureReads_shown]
  cases delivery.failure with
  | none => rfl
  | some failure => rfl

variable {ssl : OpenSSL} {sys : System ssl} {path : CString}

def signatureDelivery (sys : System ssl) (pathSignature : CString) : Delivery UInt8 BioFailure :=
  (sys.base64Bio (sys.fopen .leerFirmaB64 pathSignature)).fill BLOCK_SIZE

def signatureBytes (sys : System ssl) (pathSignature : CString) : Bytes :=
  (signatureDelivery sys pathSignature).chunks.flatten

theorem signatureBytes_length (sys : System ssl) (pathSignature : CString) :
    (signatureBytes sys pathSignature).length ≤ BLOCK_SIZE := Source.fill_length_le _ _

/-- `leerFirmaB64` behind its call of fopen. -/
def leerFirmaAbierta (sys : System ssl) (fp : FilePtr) (BLOCK : Vector UInt8 BLOCK_SIZE) :
    Process (Vector UInt8 BLOCK_SIZE) := do
  Proc.emit (.bioNewFp fp)
  leerFirmaLoop.run ⟨sys.base64Bio fp, BLOCK, 0⟩

theorem leerFirmaB64_opens (sys : System ssl) (path : CString) (BLOCK : Vector UInt8 BLOCK_SIZE) :
    leerFirmaB64 sys path BLOCK =
      Proc.emit (.fopened path (sys.fopen .leerFirmaB64 path)) >>= fun _ =>
        leerFirmaAbierta sys (sys.fopen .leerFirmaB64 path) BLOCK := by
  unfold leerFirmaB64 leerFirmaAbierta
  simp only [if_neg (FilePtr.not_address_neg _)]

theorem leerFirmaB64_eq (sys : System ssl) (path : CString) (BLOCK : Vector UInt8 BLOCK_SIZE) :
    leerFirmaB64 sys path BLOCK =
      ⟨[.fopened path (sys.fopen .leerFirmaB64 path), .bioNewFp (sys.fopen .leerFirmaB64 path)] ++
          signatureEvents 0 (signatureDelivery sys path),
        match (signatureDelivery sys path).failure with
        | none => .ok (blit BLOCK 0 (signatureBytes sys path))
        | some _ => .error 1⟩ := by
  have started : Filling ⟨sys.base64Bio (sys.fopen .leerFirmaB64 path), BLOCK, 0⟩ 0 :=
    ⟨rfl, Nat.zero_le _⟩
  rw [leerFirmaB64_opens, leerFirmaAbierta, leerFirmaLoop_run started]
  rfl

section Accumulation

def bioResult : Event → Option Int
  | .bioRead _ _ leido _ => some leido
  | _ => none

/-- The results of the BIO_read calls of a run. -/
def bioResults (trace : List Event) : List Int := trace.filterMap bioResult

theorem bioResults_append (first second : List Event) :
    bioResults (first ++ second) = bioResults first ++ bioResults second := List.filterMap_append

theorem bioResults_signatureReads (got : Nat) (chunks : List Bytes) :
    bioResults (signatureReads got chunks) = (chunks.map List.length).map Int.ofNat := by
  induction chunks generalizing got with
  | nil => rfl
  | cons data rest ih =>
    rw [List.map_cons, List.map_cons, ← ih (got + data.length)]
    rfl

theorem Filling.in_bounds {s : Leyendo} {got : Nat} (filling : Filling s got) {t request leido : Int}
    {data : Bytes} (member : .bioRead t request leido data ∈ (leerFirmaPass s).trace) :
    t = got ∧ request = 512 - t ∧ got + data.length ≤ 512 := by
  have room := filling.room
  have sizes := sizes
  rcases filling.cases with ⟨failure, _, pass⟩ | ⟨_, pass⟩ | ⟨chunk, later, _, fits, _, pass⟩
  · simp only [pass, signatureEnding, List.mem_cons, reduceCtorEq, List.not_mem_nil, or_false,
      Event.bioRead.injEq] at member
    obtain ⟨rfl, rfl, _, rfl⟩ := member
    have nothing : ([] : Bytes).length = 0 := rfl
    omega
  · simp only [pass, signatureEnding, List.mem_singleton, Event.bioRead.injEq] at member
    obtain ⟨rfl, rfl, _, rfl⟩ := member
    have nothing : ([] : Bytes).length = 0 := rfl
    omega
  · simp only [pass, List.mem_singleton, Event.bioRead.injEq] at member
    obtain ⟨rfl, rfl, _, rfl⟩ := member
    omega

theorem Filling.once {s : Leyendo} {got : Nat} (filling : Filling s got) :
    (leerFirmaPass s).trace.countP (fun event => (bioResult event).isSome) ≤ 1 := by
  rcases filling.cases with ⟨failure, _, pass⟩ | ⟨_, pass⟩ | ⟨data, later, _, _, _, pass⟩
  · rw [pass]
    exact Nat.le_refl 1
  · rw [pass]
    exact Nat.le_refl 1
  · rw [pass]
    exact Nat.le_refl 1

theorem leerFirmaLoop_in_bounds {s : Leyendo} {got : Nat} (filling : Filling s got) {t request leido : Int}
    {data : Bytes} (member : .bioRead t request leido data ∈ (leerFirmaLoop.run s).trace) :
    0 ≤ t ∧ t ≤ 512 ∧ request = 512 - t ∧ t + data.length ≤ 512 := by
  obtain ⟨last, reaches, here⟩ := Loop.mem_run member
  obtain ⟨position, filled⟩ := reaches.invariant Filling.kept ⟨got, filling⟩
  have bounds := filled.in_bounds here
  omega

theorem leerFirmaLoop_count {s : Leyendo} {got : Nat} (filling : Filling s got) :
    (bioResults (leerFirmaLoop.run s).trace).length ≤ 512 - got + 1 := by
  have counted := leerFirmaLoop.run_count (fun s => ∃ got, Filling s got) Filling.kept
    (fun event => (bioResult event).isSome) (fun s => (512 - s.t).toNat)
    (fun s filled => filled.elim fun got filling => filling.once) (by
      intro s s' filled again
      rcases filled with ⟨got, filling⟩
      obtain ⟨lower, got', filling'⟩ := filling.next again
      have room := filling'.room
      have position := filling'.t
      have sizes := sizes
      omega) s ⟨got, filling⟩
  have room := filling.room
  have position := filling.t
  unfold bioResults
  rw [List.length_filterMap_eq_countP]
  omega

/-- Whatever the results of BIO_read, every call stays inside the block, there are at most 513 of them, and
    a block that is returned holds exactly the bytes delivered, in front of what it held before. -/
theorem leerFirmaB64_accumulates (sys : System ssl) (path : CString) (BLOCK : Vector UInt8 BLOCK_SIZE) :
    let run := leerFirmaB64 sys path BLOCK
    let stream := (sys.base64Bio (sys.fopen .leerFirmaB64 path)).pending
    (∀ t request leido data, Event.bioRead t request leido data ∈ run.trace →
      0 ≤ t ∧ t ≤ 512 ∧ request = 512 - t ∧ t + data.length ≤ 512) ∧
    (bioResults run.trace).length ≤ 513 ∧
    match run.result with
    | .error status => status = 1
    | .ok BLOCK' =>
      ∃ results : List Nat, (∀ r ∈ results, 0 < r) ∧
        bioResults run.trace = results.map Int.ofNat ++ [0] ∧
        results.sum ≤ 512 ∧ results.sum ≤ stream.length ∧
        BLOCK'.toList = stream.take results.sum ++ BLOCK.toList.drop results.sum := by
  let started : Leyendo := ⟨sys.base64Bio (sys.fopen .leerFirmaB64 path), BLOCK, 0⟩
  have filling : Filling started 0 := ⟨rfl, Nat.zero_le _⟩
  have loop : signatureEvents 0 (signatureDelivery sys path) = (leerFirmaLoop.run started).trace := by
    rw [leerFirmaLoop_run filling]
    rfl
  dsimp only
  rw [leerFirmaB64_eq]
  refine ⟨?_, ?_, ?_⟩
  · intro t request leido data member
    simp only [List.cons_append, List.nil_append, List.mem_cons, reduceCtorEq, false_or] at member
    rw [loop] at member
    exact leerFirmaLoop_in_bounds filling member
  · have counted := leerFirmaLoop_count filling
    rw [← loop] at counted
    exact counted
  · cases ended : (signatureDelivery sys path).failure with
    | some failure => rfl
    | none =>
      have bounded := signatureBytes_length sys path
      have total : ((signatureDelivery sys path).chunks.map List.length).sum =
          (signatureBytes sys path).length := List.length_flatten.symm
      have first : signatureBytes sys path <+: (sys.base64Bio (sys.fopen .leerFirmaB64 path)).pending :=
        Source.fill_prefix _ _
      refine ⟨(signatureDelivery sys path).chunks.map List.length, ?_, ?_, ?_, ?_, ?_⟩
      · intro r member
        obtain ⟨chunk, inside, rfl⟩ := List.mem_map.mp member
        exact List.length_pos_iff.mpr (Source.collect_chunks_ne_nil _ _ _ chunk inside)
      · unfold signatureEvents
        rw [bioResults_append, bioResults_append, bioResults_signatureReads, ended]
        rfl
      · rw [total]
        exact bounded
      · rw [total]
        exact first.length_le
      · rw [total, ← List.prefix_iff_eq_take.mp first]
        exact toList_blit BLOCK _ bounded

end Accumulation

theorem leerFirmaB64_read (reads : (signatureDelivery sys path).failure = none)
    (BLOCK : Vector UInt8 BLOCK_SIZE) :
    Proc.Shows shownBy (leerFirmaB64 sys path BLOCK) [] (.ok (blit BLOCK 0 (signatureBytes sys path))) := by
  rw [leerFirmaB64_eq, reads]
  refine ⟨?_, rfl⟩
  show visible _ = _
  rw [visible_append, signatureEvents_shown, reads]
  rfl

theorem leerFirmaB64_failed {failure : BioFailure} (fails : (signatureDelivery sys path).failure = some failure)
    (BLOCK : Vector UInt8 BLOCK_SIZE) :
    Proc.Shows shownBy (leerFirmaB64 sys path BLOCK) [.err .leerFirmaB64 (readMessage failure)] (.error 1) := by
  rw [leerFirmaB64_eq, fails]
  refine ⟨?_, rfl⟩
  show visible _ = _
  rw [visible_append, signatureEvents_shown, fails]
  rfl

end SignProof
