import SeguridadRedes.Crypto.Hmac
import SeguridadRedes.Practica2.HmacSha1

namespace HmacProof

open C Crypto Programs HmacModel

theorem xorPads_eq (k_ipad k_opad : Vector UInt8 K_SIZE) :
    xorPads k_ipad k_opad = (k_ipad.map (· ^^^ 0x36), k_opad.map (· ^^^ 0x5c)) := by
  apply forRange_rule _
    (fun i (pads : Vector UInt8 K_SIZE × Vector UInt8 K_SIZE) => ∀ j (h : j < K_SIZE),
      pads.1[j] = (if j < i then k_ipad[j] ^^^ 0x36 else k_ipad[j]) ∧
      pads.2[j] = (if j < i then k_opad[j] ^^^ 0x5c else k_opad[j]))
    (fun pads => pads = (k_ipad.map (· ^^^ 0x36), k_opad.map (· ^^^ 0x5c))) (Nat.zero_le _)
  · intro j h
    simp
  · intro i h pads pads' _ before taken
    cases taken
    intro j hj
    have here := before i h
    have there := before j hj
    simp only [Nat.lt_irrefl, ↓reduceIte] at here
    simp only [Vector.getElem_set]
    by_cases same : i = j
    · subst same
      simp [here.1, here.2]
    · have step : j < i + 1 ↔ j < i := by omega
      simp only [same, ↓reduceIte, step]
      exact there
  · intro i h pads pads' _ before taken
    cases taken
  · intro pads after
    apply Prod.ext
    · apply Vector.ext
      intro j hj
      have done := (after j hj).1
      rw [if_pos hj] at done
      simpa using done
    · apply Vector.ext
      intro j hj
      have done := (after j hj).2
      rw [if_pos hj] at done
      simpa using done

theorem copied_key (key : Vector UInt8 K_SIZE) :
    blit (Vector.replicate K_SIZE 0) 0 (key.toList.take K_SIZE) = key := by
  have whole : key.toList.take K_SIZE = key.toList := List.take_of_length_le (by simp)
  rw [whole, ← Vector.toList_inj, toList_blit_full _ _ (by simp)]

def macLine (mac : Bytes) : Bytes := mac.flatMap hex02 ++ ascii "\n"

def macPrints (mac : Bytes) : List Event :=
  mac.map (fun b => .printed (hex02 b)) ++ [.printed (ascii "\n")]

theorem macPrints_stdout (mac : Bytes) : stdout (macPrints mac) = macLine mac := by
  have digits : stdout (mac.map fun b => Event.printed (hex02 b)) = mac.flatMap hex02 := by
    simp only [stdout, List.flatMap_map]
    rfl
  simp [macPrints, macLine, digits, printedBy]

theorem converthexa_eq (md : Vector UInt8 SHA_DIGEST_LENGTH) :
    converthexa md = ⟨macPrints md.toList, .ok ()⟩ := by
  have loop : ∀ bytes : Bytes, (forM bytes fun b => printf (hex02 b)) =
      (⟨bytes.map fun b => .printed (hex02 b), .ok ()⟩ : Process Unit) := by
    intro bytes
    induction bytes with
    | nil => rfl
    | cons b rest ih =>
      rw [List.forM_cons, ih]
      rfl
  simp only [converthexa, List.forM_eq_forM, loop]
  rfl

section Message

variable (sha1 : StreamingHash SHA_DIGEST_LENGTH)

def innerHash (block text : Bytes) : Vector UInt8 SHA_DIGEST_LENGTH :=
  sha1.hash (innerPad block ++ text)

def outerHash (block text : Bytes) : Vector UInt8 SHA_DIGEST_LENGTH :=
  sha1.hash (outerPad block ++ (innerHash sha1 block text).toList)

theorem outerHash_toList (block text : Bytes) :
    (outerHash sha1 block text).toList = hmacWith sha1.digest block text := rfl

def macEvents (block text : Bytes) : List Event :=
  [.closed, .hashFinal (innerHash sha1 block text).toList, .hashInit, .hashUpdate (outerPad block),
    .hashUpdate (innerHash sha1 block text).toList, .hashFinal (outerHash sha1 block text).toList] ++
    macPrints (hmacWith sha1.digest block text)

theorem inner_streaming (block : Bytes) (chunks : List Bytes) :
    sha1.final (chunks.foldl sha1.update (sha1.update sha1.init (innerPad block))) =
      innerHash sha1 block chunks.flatten := by
  have streamed := sha1.streaming (innerPad block :: chunks)
  rwa [List.foldl_cons, List.flatten_cons] at streamed

theorem outer_streaming (block text : Bytes) :
    sha1.final (sha1.update (sha1.update sha1.init (outerPad block)) (innerHash sha1 block text).toList) =
      outerHash sha1 block text := by
  have streamed := sha1.streaming [outerPad block, (innerHash sha1 block text).toList]
  simpa [outerHash] using streamed

theorem hmacsha1_opened {openFile : CString → Option File} {path : CString} {file : File} {text_len : Nat}
    (found : openFile path = some file) (text : Vector UInt8 text_len) (key : Vector UInt8 K_SIZE) :
    hmacsha1 sha1 openFile path text key K_SIZE =
      ⟨[.hashInit, .hashUpdate (innerPad key.toList), .opened path true] ++
          feedEvents .hmacsha1 text_len (messageDelivery text_len file) ++
          match (messageDelivery text_len file).failure, file.closes with
          | none, true => macEvents sha1 key.toList (messageDelivery text_len file).chunks.flatten
          | none, false => [.closed, .err .hmacsha1 (ascii "close")]
          | some _, _ => [],
        match (messageDelivery text_len file).failure, file.closes with
        | none, true =>
          .ok ((messageDelivery text_len file).chunks.foldl (fun text data => blit text 0 data) text,
            outerHash sha1 key.toList (messageDelivery text_len file).chunks.flatten)
        | _, _ => .error 1⟩ := by
  have inner : (key.map (· ^^^ 0x36)).toList = innerPad key.toList := Vector.toList_map
  have outer : (key.map (· ^^^ 0x5c)).toList = outerPad key.toList := Vector.toList_map
  simp only [hmacsha1, copied_key, xorPads_eq, inner, outer, found, Proc.emit_bind, feedLoop_run, feedRun]
  cases ended : (messageDelivery text_len file).failure with
  | some failure =>
    have stopped : (file.source.drain text_len).failure = some failure := ended
    simp [stopped, messageDelivery]
  | none =>
    have reached : (file.source.drain text_len).failure = none := ended
    cases closes : file.closes with
    | false => simp [reached, messageDelivery, err]
    | true =>
      simp [reached, messageDelivery, inner_streaming, outer_streaming, converthexa_eq, Proc.pure_def,
        macEvents, outerHash_toList]

end Message

end HmacProof
