import SeguridadRedes.C.Buffer
import SeguridadRedes.C.Loop
import SeguridadRedes.Crypto.StreamingHash
import SeguridadRedes.Programs.Events

namespace Programs

open C Crypto

variable {size text_len : Nat} {h : StreamingHash size}

structure Feed (h : StreamingHash size) (text_len : Nat) where
  fd : Source UInt8 Unit
  text : Vector UInt8 text_len
  c : h.Context

structure Fed (h : StreamingHash size) (text_len : Nat) where
  text : Vector UInt8 text_len
  c : h.Context
  nr : Int

def feedPass (inside : Function) (s : Feed h text_len) : Process (Pass (Feed h text_len) (Fed h text_len)) :=
  let answer := (s.fd.pull text_len).1
  let nr := returned (fun _ => -1) answer
  let text := blit s.text 0 (delivered answer)
  do
    Proc.emit (.read inside 0 text_len nr (delivered answer))
    if nr < 0 then
      Proc.emit .closed
      err inside 1 (ascii "read")
    else if nr = 0 then
      return .leave ⟨text, s.c, nr⟩
    else
      let data := text.toList.take nr.toNat
      Proc.emit (.hashUpdate data)
      return .again ⟨(s.fd.pull text_len).2, text, h.update s.c data⟩

section Pass

variable {s : Feed h text_len} {data : Bytes}

theorem feedPass_failure (inside : Function) {failure : Unit} (answer : (s.fd.pull text_len).1 = .error failure) :
    feedPass inside s =
      ⟨[.read inside 0 text_len (-1) [], .closed, .err inside (ascii "read")], .error 1⟩ := by
  simp [feedPass, answer, returned, delivered, err]

theorem feedPass_end (inside : Function) (answer : (s.fd.pull text_len).1 = .ok []) :
    feedPass inside s = ⟨[.read inside 0 text_len 0 []], .ok (.leave ⟨s.text, s.c, 0⟩)⟩ := by
  simp [feedPass, answer, returned, delivered, Proc.pure_def]

theorem feedPass_chunk (inside : Function) (answer : (s.fd.pull text_len).1 = .ok data) (nonempty : data ≠ []) :
    feedPass inside s =
      ⟨[.read inside 0 text_len data.length data, .hashUpdate data],
        .ok (.again ⟨(s.fd.pull text_len).2, blit s.text 0 data, h.update s.c data⟩)⟩ := by
  have fits := (Source.pull_ok answer).2
  have stored := take_blit s.text data fits
  have notNegative : ¬ (data.length : Int) < 0 := by omega
  simp [feedPass, answer, returned, delivered, Proc.pure_def, nonempty, stored, notNegative]

end Pass

def feedLoop (inside : Function) (h : StreamingHash size) (text_len : Nat) :
    Loop Event (Feed h text_len) (Fed h text_len) where
  body := feedPass inside
  variant s := s.fd.pending.length
  decreases := by
    intro s s' again
    cases answer : (s.fd.pull text_len).1 with
    | error failure => rw [feedPass_failure inside answer] at again; cases again
    | ok data =>
      by_cases empty : data = []
      · subst empty
        rw [feedPass_end inside answer] at again
        cases again
      · rw [feedPass_chunk inside answer empty] at again
        cases again
        exact Source.pull_shrinks answer empty

def feedEvents (inside : Function) (text_len : Nat) (delivery : Delivery UInt8 Unit) : List Event :=
  delivery.chunks.flatMap (fun data => [.read inside 0 text_len data.length data, .hashUpdate data]) ++
    match delivery.failure with
    | none => [.read inside 0 text_len 0 []]
    | some _ => [.read inside 0 text_len (-1) [], .closed, .err inside (ascii "read")]

/-- The loop in terms of what the file delivers. -/
def feedRun (inside : Function) (s : Feed h text_len) : Process (Fed h text_len) where
  trace := feedEvents inside text_len (s.fd.drain text_len)
  result :=
    match (s.fd.drain text_len).failure with
    | none =>
      .ok ⟨(s.fd.drain text_len).chunks.foldl (fun text data => blit text 0 data) s.text,
        (s.fd.drain text_len).chunks.foldl h.update s.c, 0⟩
    | some _ => .error 1

theorem feedLoop_run (inside : Function) (s : Feed h text_len) :
    (feedLoop inside h text_len).run s = feedRun inside s := by
  apply Loop.run_unique _ _ (fun _ => True) (fun _ _ _ _ => trivial) _ s trivial
  intro s _
  show feedRun inside s = feedPass inside s >>= Loop.after (feedRun inside)
  cases answer : (s.fd.pull text_len).1 with
  | error failure =>
    rw [feedPass_failure inside answer]
    simp [feedRun, feedEvents, Source.drain_failure answer]
  | ok data =>
    by_cases empty : data = []
    · subst empty
      rw [feedPass_end inside answer]
      simp [feedRun, feedEvents, Source.drain_end answer]
    · rw [feedPass_chunk inside answer empty]
      simp [feedRun, feedEvents, Source.drain_chunk answer empty]

theorem feedEvents_stdout (inside : Function) (text_len : Nat) (delivery : Delivery UInt8 Unit) :
    stdout (feedEvents inside text_len delivery) = [] := by
  have chunks : ∀ pieces : List Bytes, stdout (pieces.flatMap fun data =>
      [Event.read inside 0 text_len data.length data, Event.hashUpdate data]) = [] := by
    intro pieces
    induction pieces with
    | nil => rfl
    | cons data rest ih => simp [printedBy, ih]
  cases ended : delivery.failure <;> simp [feedEvents, ended, chunks, printedBy]

theorem feedEvents_absorbed (inside : Function) (text_len : Nat) (delivery : Delivery UInt8 Unit) :
    absorbed (feedEvents inside text_len delivery) = delivery.chunks.flatten := by
  have chunks : ∀ pieces : List Bytes, absorbed (pieces.flatMap fun data =>
      [Event.read inside 0 text_len data.length data, Event.hashUpdate data]) = pieces.flatten := by
    intro pieces
    induction pieces with
    | nil => rfl
    | cons data rest ih => simp [absorbedBy, ih]
  cases ended : delivery.failure <;> simp [feedEvents, ended, chunks, absorbedBy]

theorem feedEvents_shown (inside : Function) (text_len : Nat) (delivery : Delivery UInt8 Unit) :
    visible (feedEvents inside text_len delivery) =
      match delivery.failure with
      | none => []
      | some _ => [.err inside (ascii "read")] := by
  have chunks : ∀ pieces : List Bytes, visible (pieces.flatMap fun data =>
      [Event.read inside 0 text_len data.length data, Event.hashUpdate data]) = [] := by
    intro pieces
    induction pieces with
    | nil => rfl
    | cons data rest ih => simpa [visible, shownBy] using ih
  unfold feedEvents
  rw [visible_append, chunks]
  cases delivery.failure <;> rfl

def messageDelivery (text_len : Nat) (file : File) : Delivery UInt8 Unit := file.source.drain text_len

def messageText (text_len : Nat) (file : File) : Bytes := (messageDelivery text_len file).chunks.flatten

/-- A file that is opened, read to the end of what is asked for, and closed, without a failure. -/
structure Completed (opened : Option File) (read : File → Delivery UInt8 Unit) (file : File) : Prop where
  found : opened = some file
  reads : (read file).failure = none
  closes : file.closes = true

theorem completed_or_not (opened : Option File) (read : File → Delivery UInt8 Unit) :
    (∃ file, Completed opened read file) ∨ ∀ file, ¬ Completed opened read file := by
  by_cases completed : ∃ file, Completed opened read file
  · exact Or.inl completed
  · exact Or.inr fun file h => completed ⟨file, h⟩

theorem Completed.unique {opened : Option File} {read : File → Delivery UInt8 Unit} {file other : File}
    (first : Completed opened read file) (second : Completed opened read other) : other = file :=
  Option.some.inj (second.found.symm.trans first.found)

theorem completed_message {opened : Option File} {file : File} {text_len : Nat}
    (found : opened = some file) (faultless : file.Faultless) :
    Completed opened (messageDelivery text_len) file :=
  ⟨found, faultless.source.drain text_len, faultless.closes⟩

theorem messageText_faultless {file : File} (faultless : file.Faultless) {text_len : Nat}
    (asked : 0 < text_len) : messageText text_len file = file.content :=
  file.source_prompt.drain asked (faultless.source.drain text_len)

def sampleFile (content : Bytes) : File := ⟨content, fun n => some (7 * n), true⟩

theorem sampleFile_faultless (content : Bytes) : (sampleFile content).Faultless :=
  ⟨fun _ => Option.some_ne_none _, rfl⟩

/-- The file whose reads give these pieces, one by one. -/
def File.delivering (pieces : List Bytes) : File :=
  ⟨pieces.flatten, fun i => some ((pieces.getD i []).length - 1), true⟩

theorem messageDelivery_delivering {text_len : Nat} (pieces : List Bytes)
    (fits : ∀ piece ∈ pieces, piece ≠ [] ∧ piece.length ≤ text_len) :
    messageDelivery text_len (File.delivering pieces) = ⟨pieces, none⟩ := by
  apply Source.drain_of_pieces pieces _ rfl
  · intro i h
    have positive := List.length_pos_iff.mpr (fits _ (List.get_mem pieces ⟨i, h⟩)).1
    have piece : pieces.getD i [] = pieces.get ⟨i, h⟩ := List.getD_eq_getElem _ _ h
    simp only [File.source, File.delivering, piece]
    rw [Nat.sub_add_cancel positive]
  · exact ⟨_, rfl⟩
  · exact fits

end Programs
