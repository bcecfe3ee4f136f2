import SeguridadRedes.OpenVpn.Crypto
import SeguridadRedes.OpenVpn.Outgoing

namespace OpenVpn

open C (Bytes runs runs_cons_eq_some)

variable {seq_backtrack : Nat}

section RoundTrip

/-- What is relied on of a cipher: it gives back what it was given, and is never shorter. -/
structure Cipher.Sound (cipher : Cipher) : Prop where
  inverse : ∀ iv text, cipher.decrypt iv ((cipher.encrypt iv text).1 ++ (cipher.encrypt iv text).2) = .ok text
  grows : ∀ iv text, text.length ≤ ((cipher.encrypt iv text).1 ++ (cipher.encrypt iv text).2).length

/-- The stream modes, whose initial vector is the packet id, always send the long form. -/
def sendsLongForm (opt : CryptoOptions) (cipher : Option Cipher) : Bool :=
  match cipher with
  | none => opt.packet_id_long_form
  | some cipher => cipher.mode ≠ .EVP_CIPH_CBC_MODE || opt.packet_id_long_form

/-- The id that goes with a packet, and the state that remembers it. -/
def nextPin (opt : CryptoOptions) (cipher : Option Cipher) (state : CryptoState seq_backtrack) (now : Int) :
    Option (CryptoState seq_backtrack × Option PacketIdNet) :=
  match state.packet_id with
  | none => some (state, none)
  | some packet_id => do
    let (send, pin) ← packetIdAllocOutgoing packet_id.send now (sendsLongForm opt cipher)
    some ({ state with packet_id := some { packet_id with send := send } }, some pin)

def checkedPin (opt : CryptoOptions) (cipher : Option Cipher) (pin : Option PacketIdNet) : Option PacketIdNet :=
  if cipher.isNone && opt.ignore_packet_id then none else pin.map (·.onWire (sendsLongForm opt cipher))

theorem check_prepend (hmac : Option Hmac) (work : Bytes) : checkHmac hmac (prependHmac hmac work) = .ok work := by
  cases hmac with
  | none => rfl
  | some hmac =>
    have length := hmac.mac_length work
    have enough : ¬ (hmac.mac work ++ work).length < hmac.size := by
      rw [List.length_append]
      omega
    have front : (hmac.mac work ++ work).take hmac.size = hmac.mac work := by rw [← length, List.take_left']; rfl
    have back : (hmac.mac work ++ work).drop hmac.size = work := by rw [← length, List.drop_left']; rfl
    change checkHmac (some hmac) (hmac.mac work ++ work) = .ok work
    unfold checkHmac
    dsimp only
    rw [if_neg enough, front, back, if_neg (not_not.mpr rfl)]

theorem decryptText_behind {cipher : Cipher} {use_iv : Bool} {iv_buf text buf : Bytes}
    (iv_length : iv_buf.length = cipher.iv_size) (zero : use_iv = false → iv_buf = List.replicate cipher.iv_size 0)
    (some_text : text ≠ []) (opens : cipher.decrypt iv_buf text = .ok buf) :
    decryptText cipher use_iv ((if use_iv then iv_buf else []) ++ text) = .ok (iv_buf, buf) := by
  cases use_iv with
  | true => simp [decryptText, ← iv_length, some_text, opens]
  | false =>
    have vector := zero rfl
    simp [decryptText, ← vector, some_text, opens]

theorem decrypt_encrypt_text {cipher : Cipher} (sound : cipher.Sound) {use_iv : Bool} {iv_buf buf work : Bytes}
    (iv_length : iv_buf.length = cipher.iv_size) (zero : use_iv = false → iv_buf = List.replicate cipher.iv_size 0)
    (nonempty : buf ≠ []) (encrypted : encryptText cipher use_iv iv_buf buf = some work) :
    decryptText cipher use_iv work = .ok (iv_buf, buf) ∧ work ≠ [] := by
  have grows := sound.grows iv_buf buf
  have opens := sound.inverse iv_buf buf
  have positive := List.length_pos_of_ne_nil nonempty
  have some_text : (cipher.encrypt iv_buf buf).1 ++ (cipher.encrypt iv_buf buf).2 ≠ [] :=
    List.ne_nil_of_length_pos (positive.trans_le grows)
  unfold encryptText at encrypted
  simp only at encrypted
  split at encrypted
  · obtain rfl := Option.some.inj encrypted
    exact ⟨decryptText_behind iv_length zero some_text opens, List.append_ne_nil_of_right_ne_nil _ some_text⟩
  · cases encrypted

theorem putPacketId_next {opt : CryptoOptions} {cipher : Option Cipher} {state state' : CryptoState seq_backtrack}
    {now : Int} {buf buf' : Bytes} (short : sendsLongForm opt cipher = opt.packet_id_long_form)
    (put : putPacketId state now opt.packet_id_long_form buf = some (state', buf')) :
    (state.packet_id.isSome = false ∧ buf' = buf ∧ nextPin opt cipher state now = some (state', none)) ∨
      ∃ pin, state.packet_id.isSome = true ∧ nextPin opt cipher state now = some (state', some pin) ∧
        packetIdRead buf' opt.packet_id_long_form = some (pin.onWire opt.packet_id_long_form, buf) ∧ buf' ≠ [] := by
  unfold putPacketId at put
  unfold nextPin
  cases present : state.packet_id with
  | none =>
    rw [present] at put
    obtain ⟨rfl, rfl⟩ := by simpa using put
    exact Or.inl ⟨rfl, rfl, rfl⟩
  | some packet_id =>
    rw [present] at put
    obtain ⟨⟨send, pin⟩, allocated, made⟩ := Option.bind_eq_some_iff.mp put
    obtain ⟨rfl, rfl⟩ := by simpa using made
    refine Or.inr ⟨pin, rfl, ?_, packetIdRead_write pin _ buf, ?_⟩
    · simp only [short, allocated]
      rfl
    · intro empty
      have some_bytes := congrArg List.length empty
      simp [packetIdWrite] at some_bytes

theorem ivOfPacketId_reads {pin : PacketIdNet} {iv_size : Nat} {iv_buf : Bytes}
    (made : ivOfPacketId pin iv_size = some iv_buf) :
    iv_buf.length = iv_size ∧ ∃ rest, packetIdRead iv_buf true = some (pin.onWire true, rest) := by
  unfold ivOfPacketId at made
  split at made
  · rename_i fits
    obtain rfl := Option.some.inj made
    refine ⟨?_, _, packetIdRead_write pin true _⟩
    rw [List.length_append, List.length_replicate]
    omega
  · cases made

theorem decryptWork_of_encrypt_cipher (opt : CryptoOptions) {cipher : Cipher} (sound : cipher.Sound)
    {state state' : CryptoState seq_backtrack} {prng_bytes : Bytes} (random : prng_bytes.length = cipher.iv_size)
    {now : Int} {buf work : Bytes} (nonempty : buf ≠ [])
    (encrypted : encryptWork opt (some cipher) state prng_bytes now buf = some (state', work)) :
    work ≠ [] ∧ ∃ pin, nextPin opt (some cipher) state now = some (state', pin) ∧
      decryptWork opt (some cipher) state.packet_id.isSome work =
        some (.ok (checkedPin opt (some cipher) pin, buf)) := by
  unfold encryptWork at encrypted
  cases mode : cipher.mode with
  | EVP_CIPH_CBC_MODE =>
    have short : sendsLongForm opt (some cipher) = opt.packet_id_long_form := by simp [sendsLongForm, mode]
    simp only [mode] at encrypted
    obtain ⟨⟨next, behind⟩, put, rest⟩ := Option.bind_eq_some_iff.mp encrypted
    obtain ⟨sealed, text, made⟩ := Option.bind_eq_some_iff.mp rest
    obtain ⟨rfl, rfl⟩ := by simpa using made
    have iv_length : (if opt.use_iv then prng_bytes else List.replicate cipher.iv_size 0).length = cipher.iv_size := by
      split
      · exact random
      · exact List.length_replicate
    have zero : opt.use_iv = false →
        (if opt.use_iv then prng_bytes else List.replicate cipher.iv_size 0) = List.replicate cipher.iv_size 0 := by
      intro unused
      rw [unused]
      rfl
    rcases putPacketId_next short put with ⟨absent, rfl, next⟩ | ⟨pin, present, next, reads, behind_nonempty⟩
    · obtain ⟨opened, some_work⟩ := decrypt_encrypt_text sound iv_length zero nonempty text
      refine ⟨some_work, none, next, ?_⟩
      simp [decryptWork, opened, mode, absent, checkedPin]
    · obtain ⟨opened, some_work⟩ := decrypt_encrypt_text sound iv_length zero behind_nonempty text
      refine ⟨some_work, some pin, next, ?_⟩
      simp [decryptWork, opened, mode, present, reads, checkedPin, short]
  | EVP_CIPH_CFB_MODE | EVP_CIPH_OFB_MODE =>
    have long : sendsLongForm opt (some cipher) = true := by simp [sendsLongForm, mode]
    simp only [mode] at encrypted
    split at encrypted
    · rename_i used
      obtain ⟨packet_id, present, rest⟩ := Option.bind_eq_some_iff.mp encrypted
      obtain ⟨⟨send, pin⟩, allocated, rest⟩ := Option.bind_eq_some_iff.mp rest
      obtain ⟨iv_buf, vector, rest⟩ := Option.bind_eq_some_iff.mp rest
      obtain ⟨sealed, text, made⟩ := Option.bind_eq_some_iff.mp rest
      obtain ⟨rfl, rfl⟩ := by simpa using made
      obtain ⟨iv_length, tail, reads⟩ := ivOfPacketId_reads vector
      obtain ⟨opened, some_work⟩ := decrypt_encrypt_text sound iv_length (by simp [used]) nonempty text
      rw [used] at opened
      refine ⟨some_work, some pin, ?_, ?_⟩
      · unfold nextPin
        rw [present]
        simp only [long, allocated]
        rfl
      · simp [decryptWork, opened, mode, present, used, reads, checkedPin, long]
    · cases encrypted

/-- What leaves the sender, but for the HMAC, is opened by the same key to the payload and the id it was sent with. -/
theorem decryptWork_of_encrypt (opt : CryptoOptions) {cipher : Option Cipher} (sound : ∀ c ∈ cipher, c.Sound)
    {state state' : CryptoState seq_backtrack} {prng_bytes : Bytes}
    (random : ∀ c ∈ cipher, prng_bytes.length = c.iv_size) {now : Int} {buf work : Bytes} (nonempty : buf ≠ [])
    (encrypted : encryptWork opt cipher state prng_bytes now buf = some (state', work)) :
    work ≠ [] ∧ ∃ pin, nextPin opt cipher state now = some (state', pin) ∧
      decryptWork opt cipher state.packet_id.isSome work = some (.ok (checkedPin opt cipher pin, buf)) := by
  cases cipher with
  | some cipher => exact decryptWork_of_encrypt_cipher opt (sound cipher rfl) (random cipher rfl) nonempty encrypted
  | none =>
    have short : sendsLongForm opt none = opt.packet_id_long_form := rfl
    rcases putPacketId_next short encrypted with ⟨absent, rfl, next⟩ | ⟨pin, present, next, reads, some_work⟩
    · refine ⟨nonempty, none, next, ?_⟩
      simp [decryptWork, absent, checkedPin]
    · refine ⟨some_work, some pin, next, ?_⟩
      cases ignored : opt.ignore_packet_id <;>
        simp [decryptWork, present, reads, checkedPin, ignored, sendsLongForm]

/-- Whatever the key does to a packet, the same key undoes. -/
theorem encrypt_opens {opt : CryptoOptions} {key_ctx_bi : KeyCtxBi} (keyed : opt.key_ctx_bi = some key_ctx_bi)
    (sound : ∀ cipher ∈ key_ctx_bi.encrypt.cipher, cipher.Sound) {state state' : CryptoState seq_backtrack}
    {prng_bytes : Bytes} (random : ∀ cipher ∈ key_ctx_bi.encrypt.cipher, prng_bytes.length = cipher.iv_size)
    {now : Int} {buf wire : Bytes} (nonempty : buf ≠ [])
    (encrypted : openvpnEncrypt opt state prng_bytes now buf = some (state', wire)) :
    wire ≠ [] ∧ ∃ pin work, nextPin opt key_ctx_bi.encrypt.cipher state now = some (state', pin) ∧
      checkHmac key_ctx_bi.encrypt.hmac wire = .ok work ∧
      decryptWork opt key_ctx_bi.encrypt.cipher state.packet_id.isSome work =
        some (.ok (checkedPin opt key_ctx_bi.encrypt.cipher pin, buf)) := by
  unfold openvpnEncrypt at encrypted
  rw [keyed] at encrypted
  simp only at encrypted
  rw [if_neg fun empty => nonempty (List.length_eq_zero_iff.mp empty)] at encrypted
  obtain ⟨⟨next, work⟩, worked, made⟩ := Option.bind_eq_some_iff.mp encrypted
  obtain ⟨rfl, rfl⟩ := by simpa using made
  obtain ⟨some_work, pin, next, opened⟩ := decryptWork_of_encrypt opt sound random nonempty worked
  refine ⟨?_, pin, work, next, check_prepend _ work, opened⟩
  unfold prependHmac
  split
  · exact some_work
  · exact List.append_ne_nil_of_right_ne_nil _ some_work

end RoundTrip

/-- A packet opens, with the key it was sealed with, to its payload and its id, and only what is remembered of that
id can still refuse it. -/
theorem decrypt_encrypt {there here : Nat} (opt : CryptoOptions) {key : KeyCtx} (back : KeyCtx)
    (sound : ∀ cipher ∈ key.cipher, cipher.Sound) {state state' : CryptoState there} {prng_bytes : Bytes}
    (random : ∀ cipher ∈ key.cipher, prng_bytes.length = cipher.iv_size) {now : Int} {buf wire : Bytes}
    (nonempty : buf ≠ [])
    (encrypted : openvpnEncrypt { opt with key_ctx_bi := some ⟨key, back⟩ } state prng_bytes now buf =
      some (state', wire))
    (peer : CryptoState here) (both : peer.packet_id.isSome = state.packet_id.isSome) (later : Int) :
    ∃ pin, nextPin opt key.cipher state now = some (state', pin) ∧
      openvpnDecrypt { opt with key_ctx_bi := some ⟨back, key⟩ } peer later wire =
        checkPacketId { opt with key_ctx_bi := some ⟨back, key⟩ } peer later (checkedPin opt key.cipher pin) buf := by
  obtain ⟨some_wire, pin, work, next, authentic, opened⟩ := encrypt_opens rfl sound random nonempty encrypted
  have some_bytes : ¬ wire.length = 0 := fun empty => some_wire (List.length_eq_zero_iff.mp empty)
  have here_opened : decryptWork { opt with key_ctx_bi := some ⟨back, key⟩ } key.cipher peer.packet_id.isSome work =
      some (.ok (checkedPin opt key.cipher pin, buf)) := by
    rw [both]
    exact opened
  have here_authentic : checkHmac key.hmac wire = .ok work := authentic
  refine ⟨pin, next, ?_⟩
  unfold openvpnDecrypt
  simp only
  rw [if_neg some_bytes, here_authentic]
  simp only [here_opened]

section Sample

def sampleChain (key : UInt8) : UInt8 → Bytes → Bytes
  | _, [] => []
  | last, b :: rest => (b ^^^ last ^^^ key) :: sampleChain key (b ^^^ last ^^^ key) rest

def sampleUnchain (key : UInt8) : UInt8 → Bytes → Bytes
  | _, [] => []
  | last, c :: rest => (c ^^^ last ^^^ key) :: sampleUnchain key c rest

@[simp] theorem sampleChain_length (key last : UInt8) (text : Bytes) :
    (sampleChain key last text).length = text.length := by
  induction text generalizing last with
  | nil => rfl
  | cons b rest ih => simp [sampleChain, ih]

@[simp] theorem sampleUnchain_chain (key last : UInt8) (text : Bytes) :
    sampleUnchain key last (sampleChain key last text) = text := by
  induction text generalizing last with
  | nil => rfl
  | cons b rest ih =>
    have back : b ^^^ last ^^^ key ^^^ last ^^^ key = b := by
      rw [UInt8.xor_assoc b, UInt8.xor_assoc (b ^^^ (last ^^^ key)), UInt8.xor_assoc b, UInt8.xor_self, UInt8.xor_zero]
    simp [sampleChain, sampleUnchain, ih, back]

def sampleCipher : Cipher where
  mode := .EVP_CIPH_CBC_MODE
  iv_size := 1
  encrypt iv text :=
    ((sampleChain 7 (iv.headD 0) (text ++ [1])).take text.length,
      (sampleChain 7 (iv.headD 0) (text ++ [1])).drop text.length)
  decrypt iv text :=
    if (sampleUnchain 7 (iv.headD 0) text).getLast? = some 1 then .ok (sampleUnchain 7 (iv.headD 0) text).dropLast
    else .error "cipher final failed"

theorem sampleCipher_sound : sampleCipher.Sound := by
  constructor
  · intro iv text
    simp [sampleCipher]
  · intro iv text
    simp [sampleCipher]

def sampleHmac : Hmac := ⟨1, fun text => [text.foldr (· + ·) 3], fun _ => rfl⟩

def sampleKey : KeyCtx := ⟨some sampleCipher, some sampleHmac⟩

def sampleOptions : CryptoOptions := ⟨none, false, true, false⟩

theorem sampleKey_sound : ∀ cipher ∈ sampleKey.cipher, cipher.Sound := by
  intro cipher chosen
  obtain rfl : sampleCipher = cipher := by simpa [sampleKey] using chosen
  exact sampleCipher_sound

end Sample

theorem sample_decrypt_encrypt :
    openvpnDecrypt { sampleOptions with key_ctx_bi := some ⟨sampleKey, sampleKey⟩ }
        (⟨some ⟨⟨0, 0⟩, sampleRecord⟩, none⟩ : CryptoState 64) 9 [79, 9, 14, 9, 14, 8, 10, 12] =
      checkPacketId { sampleOptions with key_ctx_bi := some ⟨sampleKey, sampleKey⟩ }
        ⟨some ⟨⟨0, 0⟩, sampleRecord⟩, none⟩ 9 (some ⟨1, 0⟩) [5] := by
  have random : ∀ cipher ∈ sampleKey.cipher, ([9] : Bytes).length = cipher.iv_size := by
    intro cipher chosen
    obtain rfl : sampleCipher = cipher := by simpa [sampleKey] using chosen
    rfl
  obtain ⟨pin, next, opened⟩ := decrypt_encrypt sampleOptions sampleKey sampleKey_sound random
    (by decide : ([5] : Bytes) ≠ [])
    (rfl : openvpnEncrypt { sampleOptions with key_ctx_bi := some ⟨sampleKey, sampleKey⟩ }
      (⟨some ⟨⟨0, 0⟩, sampleRecord⟩, none⟩ : CryptoState 64) [9] 2 [5] =
        some (⟨some ⟨⟨1, 2⟩, sampleRecord⟩, none⟩, [79, 9, 14, 9, 14, 8, 10, 12]))
    (⟨some ⟨⟨0, 0⟩, sampleRecord⟩, none⟩ : CryptoState 64) rfl 9
  have first : nextPin sampleOptions sampleKey.cipher (⟨some ⟨⟨0, 0⟩, sampleRecord⟩, none⟩ : CryptoState 64) 2 =
      some (⟨some ⟨⟨1, 2⟩, sampleRecord⟩, none⟩, some ⟨1, 2⟩) := rfl
  obtain rfl : some ⟨1, 2⟩ = pin := (Prod.mk.inj (Option.some.inj (first.symm.trans next))).2
  exact opened

section Tunnel

/-- Two peers that share a key, seen in one direction: what was sent, with the payload of each packet, and what came out
of the other end. -/
structure Tunnel (there here : Nat) where
  sender : CryptoState there
  receiver : CryptoState here
  sent : List (Bytes × Bytes)
  delivered : List Bytes

inductive Move where
  | send (payload prng_bytes : Bytes) (now : Int) (nonempty : payload ≠ [])
  | arrive (wire : Bytes) (now : Int) (nonempty : wire ≠ []) (clock : SEQ_EXPIRED < now)

variable {there here : Nat}

/-- The network loses, repeats and reorders packets and makes up others, but no HMAC. -/
def Tunnel.step (opt : CryptoOptions) (key back : KeyCtx) (t : Tunnel there here) : Move → Option (Tunnel there here)
  | .send payload prng_bytes now _ =>
    match openvpnEncrypt { opt with key_ctx_bi := some ⟨key, back⟩ } t.sender prng_bytes now payload with
    | none => none
    | some (sender, wire) => some { t with sender := sender, sent := t.sent ++ [(payload, wire)] }
  | .arrive wire now _ _ =>
    if (checkHmac key.hmac wire).isOk = true ∧ wire ∉ t.sent.map Prod.snd then none
    else
      match openvpnDecrypt { opt with key_ctx_bi := some ⟨back, key⟩ } t.receiver now wire with
      | none => none
      | some (receiver, .ok payload) => some { t with receiver := receiver, delivered := t.delivered ++ [payload] }
      | some (receiver, .error _) => some { t with receiver := receiver }

def Opens (opt : CryptoOptions) (key : KeyCtx) (wire : Bytes) (pin : PacketIdNet) (payload : Bytes) : Prop :=
  ∃ work, checkHmac key.hmac wire = .ok work ∧ decryptWork opt key.cipher true work = some (.ok (some pin, payload))

/-- What is delivered is some of what was offered, no id twice. -/
structure Conveys (opt : CryptoOptions) (key : KeyCtx) (t : Tunnel there here)
    (offered got : List (PacketIdNet × Bytes)) : Prop where
  payloads : offered.map Prod.snd = t.sent.map Prod.fst
  opens : ∀ wire ∈ t.sent.map Prod.snd, ∃ o ∈ offered, Opens opt key wire o.1 o.2
  delivered : got.map Prod.snd = t.delivered
  among : got ⊆ offered
  sender : t.sender.packet_id.isSome = true
  receiver : ∃ send r, t.receiver.packet_id = some ⟨send, r.receiver⟩ ∧ Remembers r ∧ r.accepted = got.map Prod.fst

variable {opt : CryptoOptions} {key back : KeyCtx} {t t' : Tunnel there here}
  {offered got : List (PacketIdNet × Bytes)}

theorem Conveys.distinct (conveys : Conveys opt key t offered got) : got.Nodup := by
  obtain ⟨_, r, _, remembers, accepted⟩ := conveys.receiver
  have once := remembers.distinct
  rw [accepted] at once
  exact once.of_map Prod.fst

theorem Conveys.subperm (conveys : Conveys opt key t offered got) : t.delivered.Subperm (t.sent.map Prod.fst) := by
  rw [← conveys.delivered, ← conveys.payloads]
  obtain ⟨some_of, same, among⟩ := List.subperm_of_subset conveys.distinct conveys.among
  exact ⟨some_of.map Prod.snd, same.map Prod.snd, among.map Prod.snd⟩

theorem Conveys.send (conveys : Conveys opt key t offered got) (sound : ∀ cipher ∈ key.cipher, cipher.Sound)
    (watched : (key.cipher.isNone && opt.ignore_packet_id) = false) {payload prng_bytes : Bytes} {now : Int}
    {nonempty : payload ≠ []} (random : ∀ cipher ∈ key.cipher, prng_bytes.length = cipher.iv_size)
    (stepped : t.step opt key back (.send payload prng_bytes now nonempty) = some t') :
    ∃ offered', Conveys opt key t' offered' got := by
  unfold Tunnel.step at stepped
  simp only at stepped
  split at stepped
  · cases stepped
  · rename_i sender wire encrypted
    obtain rfl := Option.some.inj stepped
    obtain ⟨_, pin, work, next, authentic, opened⟩ := encrypt_opens rfl sound random nonempty encrypted
    obtain ⟨packet_id, present⟩ := Option.isSome_iff_exists.mp conveys.sender
    unfold nextPin at next
    rw [present] at next
    obtain ⟨⟨send, allocated⟩, _, made⟩ := Option.bind_eq_some_iff.mp next
    obtain ⟨rfl, rfl⟩ := by simpa using made
    rw [conveys.sender] at opened
    simp only [checkedPin, watched, Bool.false_eq_true, if_false, Option.map_some] at opened
    have opens : Opens opt key wire (allocated.onWire (sendsLongForm opt key.cipher)) payload :=
      ⟨work, authentic, opened⟩
    refine ⟨offered ++ [(allocated.onWire (sendsLongForm opt key.cipher), payload)], ?_, ?_, conveys.delivered,
      fun o member => ?_, rfl, conveys.receiver⟩
    · simp [conveys.payloads]
    · intro w member
      rw [List.map_append, List.mem_append] at member
      rcases member with old | new
      · obtain ⟨o, inside, opens⟩ := conveys.opens w old
        exact ⟨o, List.mem_append_left _ inside, opens⟩
      · obtain rfl : w = wire := by simpa using new
        exact ⟨_, List.mem_append_right _ (List.mem_singleton_self _), opens⟩
    · exact List.mem_append_left _ (conveys.among member)

theorem arrive_eq {r : Receiving here} {pin : PacketIdNet} {now : Int} (clock : SEQ_EXPIRED < now)
    {receiver : PacketIdRec here} {ok : Bool}
    (decrypted : openvpnDecryptPacketId r.receiver pin now = some (receiver, ok)) :
    arrive r ⟨pin, now, clock⟩ = some ⟨receiver, r.log ++ [(pin, ok)]⟩ := by
  unfold arrive
  rw [decrypted]

theorem Conveys.arrive (conveys : Conveys opt key t offered got) {wire : Bytes} {now : Int} {nonempty : wire ≠ []}
    {clock : SEQ_EXPIRED < now} (stepped : t.step opt key back (.arrive wire now nonempty clock) = some t') :
    ∃ got', Conveys opt key t' offered got' := by
  obtain ⟨send, r, present, remembers, accepted⟩ := conveys.receiver
  have some_bytes : ¬ wire.length = 0 := fun empty => nonempty (List.length_eq_zero_iff.mp empty)
  unfold Tunnel.step at stepped
  simp only at stepped
  split at stepped
  · cases stepped
  · rename_i possible
    unfold openvpnDecrypt at stepped
    simp only at stepped
    rw [if_neg some_bytes] at stepped
    cases checked : checkHmac key.hmac wire with
    | error failed =>
      rw [checked] at stepped
      obtain rfl := Option.some.inj stepped
      exact ⟨got, conveys⟩
    | ok work =>
      have known : wire ∈ t.sent.map Prod.snd := by
        by_contra unknown
        exact possible ⟨by rw [checked]; rfl, unknown⟩
      obtain ⟨⟨pin, payload⟩, offer, work', checked', opened⟩ := conveys.opens wire known
      obtain rfl : work = work' := Except.ok.inj (checked.symm.trans checked')
      have here_opened : decryptWork { opt with key_ctx_bi := some ⟨back, key⟩ } key.cipher
          t.receiver.packet_id.isSome work = some (.ok (some pin, payload)) := by
        rw [present]
        exact opened
      rw [checked] at stepped
      simp only [here_opened] at stepped
      unfold checkPacketId at stepped
      rw [present] at stepped
      simp only at stepped
      cases decrypted : openvpnDecryptPacketId r.receiver pin now with
      | none =>
        rw [decrypted] at stepped
        cases stepped
      | some out =>
        obtain ⟨receiver, ok⟩ := out
        have next := remembers.arrive (arrive_eq clock decrypted)
        have longer := accepted_append receiver r.log pin ok
        have before : (Receiving.mk receiver r.log).accepted = got.map Prod.fst := accepted
        rw [before] at longer
        rw [decrypted] at stepped
        cases ok with
        | true =>
          obtain rfl := Option.some.inj stepped
          refine ⟨got ++ [(pin, payload)], conveys.payloads, conveys.opens, ?_, ?_, conveys.sender, send, _,
            rfl, next, ?_⟩
          · simp [conveys.delivered]
          · intro o member
            rcases List.mem_append.mp member with old | new
            · exact conveys.among old
            · obtain rfl : o = (pin, payload) := by simpa using new
              exact offer
          · rw [longer, List.map_append]
            rfl
        | false =>
          obtain rfl := Option.some.inj stepped
          refine ⟨got, conveys.payloads, conveys.opens, conveys.delivered, conveys.among, conveys.sender, send, _, rfl,
            next, ?_⟩
          rw [longer]
          simp

def Tunnel.start (q : PacketIdRec there) (p : PacketIdRec here) (persist : PacketIdPersist) : Tunnel there here where
  sender := ⟨some ⟨⟨0, 0⟩, q⟩, none⟩
  receiver := ⟨some ⟨⟨0, 0⟩, packetIdPersistLoadObj persist p⟩, some persist⟩
  sent := []
  delivered := []

def Move.Random (key : KeyCtx) : Move → Prop
  | .send _ prng_bytes _ _ => ∀ cipher ∈ key.cipher, prng_bytes.length = cipher.iv_size
  | .arrive _ _ _ _ => True

theorem conveys_start (q : PacketIdRec there) {p : PacketIdRec here} {send : PacketIdSend} {time_backtrack : Int}
    (made : packetIdInit here time_backtrack = some (send, p)) (persist : PacketIdPersist) :
    Conveys opt key (Tunnel.start q p persist) [] [] :=
  ⟨rfl, fun _ member => absurd member List.not_mem_nil, rfl, List.Subset.refl _, rfl, _, _, rfl,
    remembers_start made persist, rfl⟩

theorem Conveys.run (conveys : Conveys opt key t offered got) (sound : ∀ cipher ∈ key.cipher, cipher.Sound)
    (watched : (key.cipher.isNone && opt.ignore_packet_id) = false) {moves : List Move}
    (random : ∀ move ∈ moves, move.Random key) (ran : runs (Tunnel.step opt key back) t moves = some t') :
    ∃ offered' got', Conveys opt key t' offered' got' := by
  induction moves generalizing t offered got with
  | nil =>
    obtain rfl : t = t' := by simpa using ran
    exact ⟨offered, got, conveys⟩
  | cons move rest ih =>
    obtain ⟨t₁, stepped, ranOn⟩ := runs_cons_eq_some.mp ran
    have later : ∀ move ∈ rest, move.Random key := fun m member => random m (List.mem_cons_of_mem _ member)
    cases move with
    | send payload prng_bytes now nonempty =>
      obtain ⟨offered', next⟩ := conveys.send sound watched (random _ List.mem_cons_self) stepped
      exact ih next later ranOn
    | arrive wire now nonempty clock =>
      obtain ⟨got', next⟩ := conveys.arrive stepped
      exact ih next later ranOn

end Tunnel

/-- Whatever a network without the key does to the packets, what comes out of a tunnel is some of what went into it, and
no packet more often than it was sent. -/
theorem tunnel_delivers_once {there here : Nat} (opt : CryptoOptions) {key : KeyCtx} (back : KeyCtx)
    (sound : ∀ cipher ∈ key.cipher, cipher.Sound) (watched : (key.cipher.isNone && opt.ignore_packet_id) = false)
    (q : PacketIdRec there) {p : PacketIdRec here} {send : PacketIdSend} {time_backtrack : Int}
    (made : packetIdInit here time_backtrack = some (send, p)) (persist : PacketIdPersist) {moves : List Move}
    (random : ∀ move ∈ moves, move.Random key) {t : Tunnel there here}
    (ran : runs (Tunnel.step opt key back) (Tunnel.start q p persist) moves = some t) :
    t.delivered.Subperm (t.sent.map Prod.fst) := by
  obtain ⟨_, _, conveys⟩ := (conveys_start q made persist).run sound watched random ran
  exact conveys.subperm

def sampleMoves : List Move :=
  [.send [5] [9] 2 (by decide), .arrive [79, 9, 14, 9, 14, 8, 10, 12] 3 (by decide) (by decide),
    .arrive [80, 9, 14, 9, 14, 8, 10, 12] 3 (by decide) (by decide),
    .arrive [79, 9, 14, 9, 14, 8, 10, 12] 4 (by decide) (by decide)]

theorem sample_tunnel : ∃ t : Tunnel 0 0, runs (Tunnel.step sampleOptions sampleKey sampleKey)
    (Tunnel.start sampleStreamRecord sampleStreamRecord unsaved) sampleMoves = some t ∧
      t.delivered = [[5]] ∧ t.delivered.Subperm (t.sent.map Prod.fst) := by
  have random : ∀ move ∈ sampleMoves, move.Random sampleKey := by
    intro move member
    have cases : move = .send [5] [9] 2 (by decide) ∨
      ∃ wire nonempty now clock, move = .arrive wire now nonempty clock := by
      simp only [sampleMoves, List.mem_cons, List.not_mem_nil, or_false] at member
      rcases member with rfl | rfl | rfl | rfl
      · exact Or.inl rfl
      all_goals exact Or.inr ⟨_, _, _, _, rfl⟩
    rcases cases with rfl | ⟨_, _, _, _, rfl⟩
    · intro cipher chosen
      obtain rfl : sampleCipher = cipher := by simpa [sampleKey] using chosen
      rfl
    · trivial
  obtain ⟨t, ran, delivered⟩ : ∃ t : Tunnel 0 0, runs (Tunnel.step sampleOptions sampleKey sampleKey)
      (Tunnel.start sampleStreamRecord sampleStreamRecord unsaved) sampleMoves = some t ∧ t.delivered = [[5]] :=
    ⟨_, rfl, by decide⟩
  exact ⟨t, ran, delivered, tunnel_delivers_once sampleOptions sampleKey sampleKey_sound rfl sampleStreamRecord
    (rfl : packetIdInit 0 0 = some (⟨0, 0⟩, sampleStreamRecord)) unsaved random ran⟩

end OpenVpn
