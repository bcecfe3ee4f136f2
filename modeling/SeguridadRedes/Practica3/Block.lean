import SeguridadRedes.Crypto.Pkcs1
import SeguridadRedes.Practica3.Arguments

namespace SignProof

open C Crypto Programs SignModel

theorem getElem_concatenaIDsha512 (md : Vector UInt8 L_SHA512) (IDsha512 : Vector UInt8 LEN_T) (i : Nat)
    (h : i < LEN_T) :
    (concatenaIDsha512 md IDsha512)[i] =
      if i < LEN_ID then EMSASHA512ID.toList.getD i 0 else md.toList.getD (i - LEN_ID) 0 := by
  have sizes := sizes
  have digest := fun IDsha512 => getElem_forRange_set LEN_ID (fun i => i + LEN_ID)
    (fun i (h : i < L_SHA512) => md[i]) (fun i h => show i + LEN_ID < LEN_T from Nat.add_lt_add_right h LEN_ID)
    (fun _ => rfl) IDsha512 (Nat.zero_le _) i h
  have identifier := getElem_forRange_set 0 (fun i => i) (fun i (h : i < LEN_ID) => EMSASHA512ID[i])
    (fun i h => show i < LEN_T from Nat.lt_of_lt_of_le h (by decide)) (fun _ => rfl) IDsha512 (Nat.zero_le _) i h
  rw [concatenaIDsha512, digest, identifier]
  by_cases low : i < LEN_ID
  · rw [dif_neg (by omega), dif_pos (by omega), if_pos low, getD_toList _ _ low]
    rfl
  · rw [dif_pos (by omega), if_neg low, getD_toList _ _ (by omega)]

/-- The byte that `createPadding` stores at a position. -/
def paddingByte (i : Nat) : UInt8 :=
  if i = 0 ∨ i = PADDING_SIZE - 1 then 0x00 else if i = 1 then 0x01 else 0xff

theorem getElem_createPadding (PD : Vector UInt8 PADDING_SIZE) (i : Nat) (h : i < PADDING_SIZE) :
    (createPadding PD)[i] = paddingByte i := by
  have sizes := sizes
  have filled := fun PD => getElem_forRange_set 0 (fun i => i)
    (fun i (_ : i < PADDING_SIZE - 1) => (0xff : UInt8))
    (fun i h => show i < PADDING_SIZE from Nat.lt_of_lt_of_le h (by decide)) (fun _ => rfl) PD
    (show 2 ≤ PADDING_SIZE - 1 by decide) i h
  rw [createPadding, Vector.getElem_set, filled, Vector.getElem_set, Vector.getElem_set, paddingByte]
  by_cases last : i = PADDING_SIZE - 1
  · rw [if_pos last.symm, if_pos (Or.inr last)]
  · rw [if_neg (Ne.symm last)]
    by_cases first : i = 0
    · rw [dif_neg (by omega), if_neg (by omega), if_pos first.symm, if_pos (Or.inl first)]
    · by_cases second : i = 1
      · rw [dif_neg (by omega), if_pos second.symm, if_neg (by omega), if_pos second]
      · rw [dif_pos (by omega), if_neg (by omega), if_neg second]

theorem getElem_concatenaPaddingHash (PD : Vector UInt8 PADDING_SIZE) (HASH : Vector UInt8 LEN_T)
    (MSG : Vector UInt8 BLOCK_SIZE) (i : Nat) (h : i < BLOCK_SIZE) :
    (concatenaPaddingHash PD HASH MSG)[i] =
      if i < PADDING_SIZE then PD.toList.getD i 0 else HASH.toList.getD (i - PADDING_SIZE) 0 := by
  have sizes := sizes
  have hash := fun MSG => getElem_forRange_set PADDING_SIZE (fun i => i + PADDING_SIZE)
    (fun i (h : i < LEN_T) => HASH[i])
    (fun i h => show i + PADDING_SIZE < BLOCK_SIZE from Nat.add_lt_add_right h PADDING_SIZE) (fun _ => rfl)
    MSG (Nat.zero_le _) i h
  have padding := getElem_forRange_set 0 (fun i => i) (fun i (h : i < PADDING_SIZE) => PD[i])
    (fun i h => show i < BLOCK_SIZE from Nat.lt_of_lt_of_le h (by decide)) (fun _ => rfl) MSG
    (Nat.zero_le _) i h
  rw [concatenaPaddingHash, hash, padding]
  by_cases low : i < PADDING_SIZE
  · rw [dif_neg (by omega), dif_pos (by omega), if_pos low, getD_toList _ _ low]
    rfl
  · rw [dif_pos (by omega), if_neg low, getD_toList _ _ (by omega)]

def imageByte (md : Vector UInt8 L_SHA512) (i : Nat) : UInt8 :=
  if i < PADDING_SIZE then paddingByte i
  else if i < PADDING_SIZE + LEN_ID then EMSASHA512ID.toList.getD (i - PADDING_SIZE) 0
  else md.toList.getD (i - (PADDING_SIZE + LEN_ID)) 0

/-- Every byte of the block is written, so the earlier contents of the buffers do not matter. -/
theorem getElem_block (md : Vector UInt8 L_SHA512) (PD : Vector UInt8 PADDING_SIZE)
    (IDsha512 : Vector UInt8 LEN_T) (MSG : Vector UInt8 BLOCK_SIZE) (i : Nat) (h : i < BLOCK_SIZE) :
    (concatenaPaddingHash (createPadding PD) (concatenaIDsha512 md IDsha512) MSG)[i] = imageByte md i := by
  have sizes := sizes
  rw [getElem_concatenaPaddingHash, imageByte]
  by_cases low : i < PADDING_SIZE
  · rw [if_pos low, if_pos low, getD_toList _ _ low, getElem_createPadding]
  · rw [if_neg low, if_neg low, getD_toList _ _ (by omega), getElem_concatenaIDsha512]
    by_cases middle : i < PADDING_SIZE + LEN_ID
    · rw [if_pos (by omega), if_pos middle]
    · rw [if_neg (by omega), if_neg middle, Nat.sub_sub]

def signedBlock (md : Vector UInt8 L_SHA512) : Vector UInt8 BLOCK_SIZE :=
  concatenaPaddingHash (createPadding (Vector.replicate PADDING_SIZE 0))
    (concatenaIDsha512 md (Vector.replicate LEN_T 0)) (Vector.replicate BLOCK_SIZE 0)

theorem getElem_signedBlock (md : Vector UInt8 L_SHA512) (i : Nat) (h : i < BLOCK_SIZE) :
    (signedBlock md)[i] = imageByte md i := getElem_block md _ _ _ i h

theorem imageByte_padding (md : Vector UInt8 L_SHA512) {i : Nat} (h : i < PADDING_SIZE) :
    imageByte md i = paddingByte i := if_pos h

theorem imageByte_digest (md : Vector UInt8 L_SHA512) {i : Nat} (h : i < L_SHA512) :
    imageByte md (i + PADDING_SIZE + LEN_ID) = md[i] := by
  have offset : i + PADDING_SIZE + LEN_ID - (PADDING_SIZE + LEN_ID) = i := by omega
  unfold imageByte
  rw [if_neg (by omega), if_neg (by omega), offset, getD_toList _ _ h]

theorem imageByte_identifier (md : Vector UInt8 L_SHA512) {i : Nat} (h : i < LEN_ID) :
    imageByte md (PADDING_SIZE + i) = EMSASHA512ID[i] := by
  have offset : PADDING_SIZE + i - PADDING_SIZE = i := by omega
  unfold imageByte
  rw [if_neg (by omega), if_pos (by omega), offset, getD_toList _ _ h]

/-- The block is the encoded message of EMSA-PKCS1-v1_5, whatever the buffers held before. -/
theorem block_toList (md : Vector UInt8 L_SHA512) (PD : Vector UInt8 PADDING_SIZE)
    (IDsha512 : Vector UInt8 LEN_T) (MSG : Vector UInt8 BLOCK_SIZE) :
    (concatenaPaddingHash (createPadding PD) (concatenaIDsha512 md IDsha512) MSG).toList =
      emsaEncode BLOCK_SIZE (EMSASHA512ID.toList ++ md.toList) := by
  have sizes := sizes
  have identifier : EMSASHA512ID.toList.length = LEN_ID := Vector.length_toList
  have digest : md.toList.length = L_SHA512 := Vector.length_toList
  have whole : (EMSASHA512ID.toList ++ md.toList).length = LEN_T := by
    rw [List.length_append, identifier, digest]
    rfl
  have header : BLOCK_SIZE - LEN_T = PADDING_SIZE := rfl
  apply List.ext_getElem
  · rw [Vector.length_toList, emsaEncode_length (by omega)]
  · intro i h h'
    have inside : i < BLOCK_SIZE := by simpa using h
    rw [Vector.getElem_toList, getElem_block, ← List.getD_eq_getElem _ 0 h', getD_emsaEncode (by omega),
      whole, header, imageByte]
    by_cases low : i < PADDING_SIZE
    · rw [if_pos low, if_pos low, paddingByte]
    · rw [if_neg low, if_neg low]
      by_cases middle : i < PADDING_SIZE + LEN_ID
      · rw [if_pos middle, List.getD_append _ _ _ _ (by omega)]
      · rw [if_neg middle, List.getD_append_right _ _ _ _ (by omega), identifier, Nat.sub_sub]

section Encoder

variable (md : Vector UInt8 L_SHA512) (PD : Vector UInt8 PADDING_SIZE) (IDsha512 : Vector UInt8 LEN_T)
  (MSG : Vector UInt8 BLOCK_SIZE)

theorem identified_length : (EMSASHA512ID.toList ++ md.toList).length = 83 := by
  rw [List.length_append, Vector.length_toList, Vector.length_toList]
  rfl

/-- The first byte is zero, so the block is below every modulus of 512 bytes. -/
theorem os2ip_block_lt :
    os2ip (concatenaPaddingHash (createPadding PD) (concatenaIDsha512 md IDsha512) MSG).toList < 256 ^ 511 := by
  have sizes := sizes
  have length := identified_length md
  have room : (EMSASHA512ID.toList ++ md.toList).length + 3 ≤ BLOCK_SIZE := by omega
  have exponent : BLOCK_SIZE - 1 = 511 := by omega
  have below := os2ip_emsaEncode_lt room
  rwa [exponent, ← block_toList md PD IDsha512 MSG] at below

theorem block_eq_iff (md' : Vector UInt8 L_SHA512) (PD' : Vector UInt8 PADDING_SIZE)
    (IDsha512' : Vector UInt8 LEN_T) (MSG' : Vector UInt8 BLOCK_SIZE) :
    concatenaPaddingHash (createPadding PD) (concatenaIDsha512 md IDsha512) MSG =
      concatenaPaddingHash (createPadding PD') (concatenaIDsha512 md' IDsha512') MSG' ↔ md = md' := by
  rw [← Vector.toList_inj, block_toList, block_toList]
  apply Iff.intro
  · intro same
    have lengths := (identified_length md).trans (identified_length md').symm
    have parts := emsaEncode_injective lengths same
    exact Vector.toList_inj.mp (List.append_cancel_left parts)
  · intro same
    rw [same]

/-- Whatever the buffers held before, the encoder writes the encoded message of EMSA-PKCS1-v1_5: another digest
    gives another block, and no modulus of 512 bytes is too small for it. -/
theorem encoder_is_emsa (md : Vector UInt8 L_SHA512) (PD : Vector UInt8 PADDING_SIZE)
    (IDsha512 : Vector UInt8 LEN_T) (MSG : Vector UInt8 BLOCK_SIZE) :
    let BLOCK := concatenaPaddingHash (createPadding PD) (concatenaIDsha512 md IDsha512) MSG
    BLOCK.toList = [0x00, 0x01] ++ List.replicate 426 0xff ++ [0x00] ++ sha512DigestInfo ++ md.toList ∧
    (∀ md' PD' IDsha512' MSG',
      BLOCK = concatenaPaddingHash (createPadding PD') (concatenaIDsha512 md' IDsha512') MSG' ↔ md = md') ∧
    ∀ n, 256 ^ 511 ≤ n → n < 256 ^ 512 → os2ip BLOCK.toList < n ∧
      ∀ (ssl : OpenSSL) (key : ssl.Private),
        (∀ block, ssl.RSA_private_encrypt key block = .failed → n ≤ os2ip block.toList) →
        ssl.RSA_private_encrypt key BLOCK ≠ .failed := by
  dsimp only
  refine ⟨?_, block_eq_iff md PD IDsha512 MSG, ?_⟩
  · have length := identified_length md
    have sizes := sizes
    have filling : BLOCK_SIZE - (EMSASHA512ID.toList ++ md.toList).length - 3 = 426 := by omega
    have identifier : EMSASHA512ID.toList = sha512DigestInfo := rfl
    rw [block_toList, emsaEncode, filling, identifier]
    exact (List.append_assoc _ _ _).symm
  · intro n lower _
    have below := Nat.lt_of_lt_of_le (os2ip_block_lt md PD IDsha512 MSG) lower
    refine ⟨below, ?_⟩
    intro ssl key refuses failed
    have tooLarge := refuses _ failed
    exact Nat.not_le_of_lt below tooLarge

def countingDigest (first : UInt8) : Vector UInt8 L_SHA512 := Vector.ofFn fun i => first + UInt8.ofNat i.val

/-- The signed block, built in buffers that hold this byte. -/
def blockOver (byte : UInt8) (md : Vector UInt8 L_SHA512) : Vector UInt8 BLOCK_SIZE :=
  concatenaPaddingHash (createPadding (Vector.replicate PADDING_SIZE byte))
    (concatenaIDsha512 md (Vector.replicate LEN_T byte)) (Vector.replicate BLOCK_SIZE byte)

theorem encoder_is_emsa_sample :
    (blockOver 0xaa (countingDigest 1)).toList =
      [0x00, 0x01] ++ List.replicate 426 0xff ++ [0x00] ++ sha512DigestInfo ++ (countingDigest 1).toList ∧
    blockOver 0xaa (countingDigest 1) = blockOver 0xbb (countingDigest 1) ∧
    blockOver 0xaa (countingDigest 1) ≠ blockOver 0xaa (countingDigest 2) ∧
    os2ip (blockOver 0xaa (countingDigest 1)).toList < 256 ^ 511 ∧
    sampleSsl.RSA_private_encrypt BLOCK_SIZE (blockOver 0xaa (countingDigest 1)) ≠ .failed := by
  have different : countingDigest 1 ≠ countingDigest 2 := by
    intro same
    have first := congrArg (fun md => md[0]) same
    exact absurd first (by decide)
  have wider : (256 : Nat) ^ 511 < 256 ^ 512 := pow_lt_pow_right₀ (by decide) (by decide)
  obtain ⟨layout, other, range⟩ := encoder_is_emsa (countingDigest 1) (Vector.replicate PADDING_SIZE 0xaa)
    (Vector.replicate LEN_T 0xaa) (Vector.replicate BLOCK_SIZE 0xaa)
  obtain ⟨below, accepted⟩ := range _ le_rfl wider
  refine ⟨layout, (other _ _ _ _).mpr rfl, fun same => different ((other _ _ _ _).mp same), below, ?_⟩
  apply accepted sampleSsl BLOCK_SIZE
  intro block failed
  rw [sample_private_writes block rfl] at failed
  cases failed

end Encoder

/-- What the padding check looks for: every byte that `createPadding` writes. -/
def Padded (BLOCK : Vector UInt8 BLOCK_SIZE) : Prop :=
  ∀ i (_ : i < BLOCK_SIZE), i < PADDING_SIZE → BLOCK[i] = paddingByte i

section Checks

variable (BLOCK : Vector UInt8 BLOCK_SIZE)

theorem comprobarPadding_of_padded (padded : Padded BLOCK) : comprobarPadding BLOCK = 0 := by
  have sizes := sizes
  have first := padded 0 (by decide) (by decide)
  have second := padded 1 (by decide) (by decide)
  have last := padded (PADDING_SIZE - 1) (by decide) (by decide)
  have edges : ¬ (BLOCK[0] ≠ 0x00 ∨ BLOCK[1] ≠ 0x01 ∨ BLOCK[PADDING_SIZE - 1] ≠ 0x00) := by
    rw [first, second, last]
    decide
  rw [comprobarPadding, if_neg edges]
  apply forRange_search_clear _ _ _ (by decide)
  intro i h low wrong
  have inside : i < BLOCK_SIZE := by omega
  have byte : BLOCK[i] = 0xff := by
    rw [padded i inside (by omega), paddingByte, if_neg (by omega), if_neg (by omega)]
  exact wrong byte

theorem comprobarPadding_of_not_padded (broken : ¬ Padded BLOCK) : comprobarPadding BLOCK = -1 := by
  have sizes := sizes
  by_cases inner : ∃ i, ∃ _ : i < BLOCK_SIZE, i < PADDING_SIZE - 1 ∧ 2 ≤ i ∧ BLOCK[i] ≠ 0xff
  · obtain ⟨i, inside, h, low, wrong⟩ := inner
    exact forRange_search_hit _ _ _ low h wrong
  · have full : ∀ i (_ : i < BLOCK_SIZE), i < PADDING_SIZE - 1 → 2 ≤ i → BLOCK[i] = 0xff :=
      fun i inside h low => not_not.mp fun wrong => inner ⟨i, inside, h, low, wrong⟩
    have edges : BLOCK[0] ≠ 0x00 ∨ BLOCK[1] ≠ 0x01 ∨ BLOCK[PADDING_SIZE - 1] ≠ 0x00 := by
      by_contra clear
      simp only [not_or, not_not] at clear
      apply broken
      intro i inside h
      by_cases first : i = 0
      · subst first
        exact clear.1
      · by_cases second : i = 1
        · subst second
          exact clear.2.1
        · by_cases last : i = PADDING_SIZE - 1
          · subst last
            exact clear.2.2
          · rw [paddingByte, if_neg (by omega), if_neg second]
            exact full i inside (by omega) (by omega)
    rw [comprobarPadding, if_pos edges]
    exact forRange_search_clear _ _ _ (by decide) fun i h low wrong => wrong (full i (by omega) h low)

theorem comprobarPadding_eq_zero : comprobarPadding BLOCK = 0 ↔ Padded BLOCK := by
  by_cases padded : Padded BLOCK
  · exact iff_of_true (comprobarPadding_of_padded BLOCK padded) padded
  · refine iff_of_false ?_ padded
    rw [comprobarPadding_of_not_padded BLOCK padded]
    decide

theorem padded_iff (PD : Vector UInt8 PADDING_SIZE) :
    Padded BLOCK ↔ ∀ i (h : i < PADDING_SIZE) (_ : i < BLOCK_SIZE), BLOCK[i] = (createPadding PD)[i] := by
  apply Iff.intro
  · intro padded i h inside
    rw [padded i inside h, getElem_createPadding]
  · intro same i inside h
    rw [same i h inside, getElem_createPadding]

/-- The first test is not undone by the loop behind it. -/
theorem comprobarPadding_of_edges
    (edges : BLOCK[0] ≠ 0x00 ∨ BLOCK[1] ≠ 0x01 ∨ BLOCK[PADDING_SIZE - 1] ≠ 0x00) : comprobarPadding BLOCK = -1 := by
  apply comprobarPadding_of_not_padded
  intro padded
  rcases edges with first | second | last
  · exact first (padded 0 (by decide) (by decide))
  · exact second (padded 1 (by decide) (by decide))
  · exact last (padded (PADDING_SIZE - 1) (by decide) (by decide))

/-- The padding check finds exactly the bytes that `createPadding` writes, and looks at no others. -/
theorem comprobarPadding_agrees (PD : Vector UInt8 PADDING_SIZE) :
    (comprobarPadding BLOCK = 0 ↔
      ∀ i (h : i < PADDING_SIZE) (_ : i < BLOCK_SIZE), BLOCK[i] = (createPadding PD)[i]) ∧
    (comprobarPadding BLOCK = 0 ∨ comprobarPadding BLOCK = -1) ∧
    (∀ BLOCK' : Vector UInt8 BLOCK_SIZE,
      (∀ i (_ : i < BLOCK_SIZE), i < PADDING_SIZE → BLOCK'[i] = BLOCK[i]) →
      comprobarPadding BLOCK' = comprobarPadding BLOCK) ∧
    (BLOCK[0] ≠ 0x00 ∨ BLOCK[1] ≠ 0x01 ∨ BLOCK[PADDING_SIZE - 1] ≠ 0x00 → comprobarPadding BLOCK = -1) := by
  refine ⟨?_, ?_, ?_, comprobarPadding_of_edges BLOCK⟩
  · rw [comprobarPadding_eq_zero, padded_iff BLOCK PD]
  · by_cases padded : Padded BLOCK
    · exact Or.inl (comprobarPadding_of_padded BLOCK padded)
    · exact Or.inr (comprobarPadding_of_not_padded BLOCK padded)
  · intro BLOCK' same
    by_cases padded : Padded BLOCK
    · have padded' : Padded BLOCK' := fun i inside h => (same i inside h).trans (padded i inside h)
      rw [comprobarPadding_of_padded BLOCK padded, comprobarPadding_of_padded BLOCK' padded']
    · have broken' : ¬ Padded BLOCK' :=
        fun padded' => padded fun i inside h => (same i inside h).symm.trans (padded' i inside h)
      rw [comprobarPadding_of_not_padded BLOCK padded, comprobarPadding_of_not_padded BLOCK' broken']

theorem getElem_sacarHashFirma (HASH : Vector UInt8 L_SHA512) (i : Nat) (h : i < L_SHA512)
    (inside : i + PADDING_SIZE + LEN_ID < BLOCK_SIZE) :
    (sacarHashFirma BLOCK HASH)[i] = BLOCK[i + PADDING_SIZE + LEN_ID] := by
  have copied := getElem_forRange_set 0 (fun i => i)
    (fun i (h : i < L_SHA512) => BLOCK.get ⟨i + PADDING_SIZE + LEN_ID, behindPadding h⟩)
    (fun i h => h) (fun _ => rfl) HASH (Nat.zero_le _) i h
  rw [sacarHashFirma, copied, dif_pos (by omega)]
  rfl

end Checks

theorem compararHASHES_eq_zero (md HASH : Vector UInt8 L_SHA512) : compararHASHES md HASH = 0 ↔ md = HASH := by
  constructor
  · intro equal
    apply Vector.ext
    intro i h
    by_contra different
    have stopped : compararHASHES md HASH = -1 := forRange_search_hit _ _ _ (Nat.zero_le i) h different
    rw [stopped] at equal
    exact absurd equal (by decide)
  · intro same
    subst same
    exact forRange_search_clear _ _ _ (Nat.zero_le _) fun i h _ wrong => wrong rfl

/-- The checks of the verifier on a recovered block and the digest of the message. -/
def Accepted (BLOCK : Vector UInt8 BLOCK_SIZE) (md : Vector UInt8 L_SHA512) : Prop :=
  comprobarPadding BLOCK = 0 ∧
    compararHASHES md (sacarHashFirma BLOCK (Vector.replicate L_SHA512 0)) = 0

/-- The checks look at every byte of the block except the nineteen of the identifier. -/
theorem accepted_iff (BLOCK : Vector UInt8 BLOCK_SIZE) (md : Vector UInt8 L_SHA512) :
    Accepted BLOCK md ↔
      ∀ i (h : i < BLOCK_SIZE), i < PADDING_SIZE ∨ PADDING_SIZE + LEN_ID ≤ i → BLOCK[i] = imageByte md i := by
  have sizes := sizes
  unfold Accepted
  rw [comprobarPadding_eq_zero, compararHASHES_eq_zero]
  apply Iff.intro
  · intro checks i h position
    rcases checks with ⟨padded, digest⟩
    rcases position with low | high
    · rw [padded i h low, imageByte_padding md low]
    · obtain ⟨j, rfl⟩ : ∃ j, i = j + PADDING_SIZE + LEN_ID := ⟨i - (PADDING_SIZE + LEN_ID), by omega⟩
      have inside : j < L_SHA512 := by omega
      rw [imageByte_digest md inside, ← getElem_sacarHashFirma BLOCK (Vector.replicate L_SHA512 0) j inside h]
      exact congrArg (fun v : Vector UInt8 L_SHA512 => v[j]) digest.symm
  · intro checked
    constructor
    · intro i inside h
      rw [checked i inside (Or.inl h), imageByte_padding md h]
    · apply Vector.ext
      intro i h
      rw [getElem_sacarHashFirma _ _ _ _ (behindPadding h), checked _ _ (Or.inr (by omega)),
        imageByte_digest md h]

theorem accepted_signedBlock (md : Vector UInt8 L_SHA512) : Accepted (signedBlock md) md := by
  rw [accepted_iff]
  exact fun i h _ => getElem_signedBlock md i h

theorem eq_signedBlock_iff (BLOCK : Vector UInt8 BLOCK_SIZE) (md : Vector UInt8 L_SHA512) :
    BLOCK = signedBlock md ↔ ∀ i (h : i < BLOCK_SIZE), BLOCK[i] = imageByte md i := by
  apply Iff.intro
  · intro same
    subst same
    exact getElem_signedBlock md
  · intro same
    apply Vector.ext
    intro i h
    rw [same i h, getElem_signedBlock]

/-- The checks single out the signer's block exactly where a block that agrees with it elsewhere also
    carries the identifier. -/
theorem checks_exact_iff (BLOCK : Vector UInt8 BLOCK_SIZE) (md : Vector UInt8 L_SHA512) :
    (Accepted BLOCK md ↔ BLOCK = signedBlock md) ↔
    ((∀ i (h : i < BLOCK_SIZE), i < 429 ∨ 448 ≤ i → BLOCK[i] = (signedBlock md)[i]) →
      ∀ i (_ : i < LEN_ID) (_ : 429 + i < BLOCK_SIZE), BLOCK[429 + i] = EMSASHA512ID[i]) := by
  have sizes := sizes
  have outside : Accepted BLOCK md ↔
      ∀ i (h : i < BLOCK_SIZE), i < 429 ∨ 448 ≤ i → BLOCK[i] = (signedBlock md)[i] := by
    simp only [accepted_iff, getElem_signedBlock]
    rfl
  rw [← outside]
  constructor
  · intro same accepted i h inside
    rw [(eq_signedBlock_iff BLOCK md).mp (same.mp accepted) (429 + i) inside]
    exact imageByte_identifier md h
  · intro identified
    constructor
    · intro accepted
      rw [eq_signedBlock_iff]
      intro i h
      by_cases checked : i < PADDING_SIZE ∨ PADDING_SIZE + LEN_ID ≤ i
      · exact (accepted_iff BLOCK md).mp accepted i h checked
      · obtain ⟨j, rfl⟩ : ∃ j, i = PADDING_SIZE + j := ⟨i - PADDING_SIZE, by omega⟩
        have inside : j < LEN_ID := by omega
        rw [imageByte_identifier md inside]
        exact identified accepted j inside h
    · intro same
      subst same
      exact accepted_signedBlock md

section WithoutIdentifier

def blankIdentifier : Vector UInt8 BLOCK_SIZE :=
  Vector.ofFn fun i => if i.val < PADDING_SIZE then paddingByte i.val else 0

theorem blankIdentifier_accepted :
    Accepted blankIdentifier (Vector.replicate L_SHA512 0) ∧
    blankIdentifier ≠ signedBlock (Vector.replicate L_SHA512 0) := by
  have sizes := sizes
  constructor
  · rw [accepted_iff]
    intro i h checked
    by_cases low : i < PADDING_SIZE
    · simp [blankIdentifier, imageByte, low]
    · have high : ¬ i < PADDING_SIZE + LEN_ID := by omega
      simp [blankIdentifier, imageByte, low, high]
  · intro same
    have position := (eq_signedBlock_iff _ _).mp same 429 (by decide)
    exact absurd position (by simp [blankIdentifier]; decide)

end WithoutIdentifier

end SignProof
