import SeguridadRedes.OpenVpn.DataChannel
import SeguridadRedes.OpenVpn.TcpDelivery

namespace OpenVpn

open C (Bytes Source runs runs_cons_eq_some)

/-- A payload on its way into the tunnel, with what is drawn for its initial vector and the clock at that moment. -/
structure Outgoing where
  payload : Bytes
  prng_bytes : Bytes
  now : Int

variable {there here : Nat}

/-- `encrypt_sign` with what it has made so far, where the payload is neither compressed nor fragmented and the key is
static; `none` is a failed ASSERT. -/
def encryptSign (opt : CryptoOptions) (s : CryptoState there × List Bytes) (o : Outgoing) :
    Option (CryptoState there × List Bytes) := do
  let (crypto, to_link) ← openvpnEncrypt opt s.1 o.prng_bytes o.now o.payload
  some (crypto, s.2 ++ [to_link])

/-- Of `struct context` what `process_incoming_link` changes, with all that has gone to the tunnel's end. -/
structure Context (seq_backtrack : Nat) where
  crypto : CryptoState seq_backtrack
  to_tun : List Bytes
  signal_received : Bool

/-- `process_incoming_link` of a TCP connection, at a reading of the clock; `none` is a failed ASSERT. -/
def processIncomingLink (opt : CryptoOptions) (c : Context here) (a : Bytes × Int) : Option (Context here) :=
  if c.signal_received then some c
  else if a.1.length > 0 then
    match openvpnDecrypt opt c.crypto a.2 a.1 with
    | none => none
    | some (crypto, .error _) => some { c with crypto := crypto, signal_received := true }
    | some (crypto, .ok buf) => some { c with crypto := crypto, to_tun := c.to_tun ++ [buf] }
  else some c

variable {opt : CryptoOptions} {key back : KeyCtx}

section Sealing

def Seals (opt : CryptoOptions) (key : KeyCtx) (wire : Bytes) (o : PacketIdNet × Bytes) : Prop :=
  wire ≠ [] ∧ Opens opt key wire o.1 o.2

/-- What the sender has sealed so far, under the ids it has given out. -/
structure Sealed (opt : CryptoOptions) (key : KeyCtx) (s : CryptoState there × List Bytes) (a : Sending)
    (offered : List (PacketIdNet × Bytes)) : Prop where
  sender : ∃ q, s.1.packet_id = some ⟨a.sender, q⟩
  ids : offered.map Prod.fst = a.sent.map (·.onWire (sendsLongForm opt key.cipher))
  opens : List.Forall₂ (Seals opt key) s.2 offered

variable {s s' : CryptoState there × List Bytes} {a : Sending} {offered : List (PacketIdNet × Bytes)}

theorem Sealed.next (sealed : Sealed opt key s a offered) (sound : ∀ cipher ∈ key.cipher, cipher.Sound)
    (watched : (key.cipher.isNone && opt.ignore_packet_id) = false) {o : Outgoing} (nonempty : o.payload ≠ [])
    (random : ∀ cipher ∈ key.cipher, o.prng_bytes.length = cipher.iv_size)
      (stepped : encryptSign { opt with key_ctx_bi := some ⟨key, back⟩ } s o = some s') :
    ∃ a' pin, allocate (sendsLongForm opt key.cipher) a o.now = some a' ∧
      Sealed opt key s' a' (offered ++ [(pin, o.payload)]) := by
  obtain ⟨⟨sender, wire⟩, encrypted, made⟩ := Option.bind_eq_some_iff.mp stepped
  obtain rfl := Option.some.inj made
  obtain ⟨some_wire, pin, work, next, authentic, opened⟩ := encrypt_opens rfl sound random nonempty encrypted
  obtain ⟨q, present⟩ := sealed.sender
  unfold nextPin at next
  rw [present] at next
  obtain ⟨⟨send, given⟩, allocated, made⟩ := Option.bind_eq_some_iff.mp next
  obtain ⟨rfl, rfl⟩ := by simpa using made
  rw [present] at opened
  simp only [checkedPin, watched, Bool.false_eq_true, if_false, Option.map_some, Option.isSome_some] at opened
  refine ⟨⟨send, a.sent ++ [given]⟩, given.onWire (sendsLongForm opt key.cipher), ?_, ⟨q, rfl⟩, ?_, ?_⟩
  · have gives : packetIdAllocOutgoing a.sender o.now (sendsLongForm opt key.cipher) = some (send, given) :=
      allocated
    unfold allocate
    rw [gives]
  · simp [sealed.ids]
  · exact List.rel_append sealed.opens (.cons ⟨some_wire, work, authentic, opened⟩ .nil)

theorem Sealed.run (sealed : Sealed opt key s a offered) (sound : ∀ cipher ∈ key.cipher, cipher.Sound)
    (watched : (key.cipher.isNone && opt.ignore_packet_id) = false) {sends : List Outgoing}
    (nonempty : ∀ o ∈ sends, o.payload ≠ [])
    (random : ∀ o ∈ sends, ∀ cipher ∈ key.cipher, o.prng_bytes.length = cipher.iv_size)
    (ran : runs (encryptSign { opt with key_ctx_bi := some ⟨key, back⟩ }) s sends = some s') :
    ∃ a' more, runs (allocate (sendsLongForm opt key.cipher)) a (sends.map Outgoing.now) = some a' ∧
      Sealed opt key s' a' (offered ++ more) ∧ more.map Prod.snd = sends.map Outgoing.payload := by
  induction sends generalizing s a offered with
  | nil =>
    obtain rfl : s = s' := by simpa using ran
    exact ⟨a, [], rfl, by rwa [List.append_nil], rfl⟩
  | cons o sends ih =>
    obtain ⟨s₁, stepped, ranOn⟩ := runs_cons_eq_some.mp ran
    obtain ⟨a₁, pin, allocated, next⟩ :=
      sealed.next sound watched (nonempty o List.mem_cons_self) (random o List.mem_cons_self) stepped
    obtain ⟨a', more, ranToo, last, payloads⟩ := ih next (fun o' member => nonempty o' (List.mem_cons_of_mem _ member))
      (fun o' member => random o' (List.mem_cons_of_mem _ member)) ranOn
    rw [List.append_assoc] at last
    exact ⟨a', (pin, o.payload) :: more, runs_cons_eq_some.mpr ⟨a₁, allocated, ranToo⟩, last, by simp [payloads]⟩

end Sealing

section Opening

structure Turns (c : Context 0) (pins : List PacketIdNet) : Prop where
  running : c.signal_received = false
  receiver : ∃ send p, c.crypto.packet_id = some ⟨send, p⟩ ∧ p.initialized = true ∧ ∀ pin ∈ pins.head?, InTurn p pin
  nonzero : ∀ pin ∈ pins, pin.id ≠ 0
  chain : pins.IsChain Succeeds

variable {c : Context 0} {pin : PacketIdNet} {pins : List PacketIdNet} {wire payload : Bytes}

theorem Turns.next (turns : Turns c (pin :: pins)) (seals : Seals opt key wire (pin, payload)) (now : Int) :
    ∃ c', processIncomingLink { opt with key_ctx_bi := some ⟨back, key⟩ } c (wire, now) = some c' ∧
      c'.to_tun = c.to_tun ++ [payload] ∧ Turns c' pins := by
  obtain ⟨send, p, present, initialized, turn⟩ := turns.receiver
  obtain ⟨some_wire, work, authentic, opened⟩ := seals
  obtain ⟨p', ok, decrypted, initialized', verdict, time, id⟩ := decrypt_in_turn initialized pin now
  obtain rfl : ok = true := verdict.mpr (turn pin rfl)
  have some_bytes : ¬ wire.length = 0 := fun empty => some_wire (List.length_eq_zero_iff.mp empty)
  have here_opened :
    decryptWork { opt with key_ctx_bi := some ⟨back, key⟩ } key.cipher c.crypto.packet_id.isSome work =
      some (.ok (some pin, payload)) := by
    rw [present]
    exact opened
  let crypto : CryptoState 0 := ⟨some ⟨send, p'⟩,
    if opt.packet_id_long_form then c.crypto.pid_persist.map (packetIdPersistSaveObj · p')
    else c.crypto.pid_persist⟩
  have decrypts : openvpnDecrypt { opt with key_ctx_bi := some ⟨back, key⟩ } c.crypto now wire =
      some (crypto, .ok payload) := by
    unfold openvpnDecrypt
    simp only
    rw [if_neg some_bytes, authentic]
    simp only [here_opened]
    unfold checkPacketId
    rw [present]
    simp only [decrypted]
    rfl
  have chain := List.isChain_cons.mp turns.chain
  refine ⟨{ c with crypto := crypto, to_tun := c.to_tun ++ [payload] }, ?_, rfl, turns.running,
    ⟨send, p', rfl, initialized', fun succ first => ?_⟩,
    fun other member => turns.nonzero other (List.mem_cons_of_mem _ member), chain.2⟩
  · unfold processIncomingLink
    rw [if_neg (by simp [turns.running]), if_pos (Nat.pos_of_ne_zero some_bytes), decrypts]
  · refine ⟨turns.nonzero succ (List.mem_cons_of_mem _ (List.mem_of_mem_head? first)), ?_⟩
    rw [time, id]
    rcases chain.1 succ first with ⟨same, following⟩ | ⟨later, one⟩
    · refine Or.inl ⟨same, Or.inr (UInt32.toNat_inj.mp ?_)⟩
      have bound := succ.id.toNat_lt
      rw [if_pos rfl, succ_toNat (by omega)]
      exact following
    · exact Or.inr ⟨later, one⟩

theorem Turns.take (turns : Turns c pins) (n : Nat) : Turns c (pins.take n) := by
  obtain ⟨send, p, present, initialized, turn⟩ := turns.receiver
  refine ⟨turns.running, ⟨send, p, present, initialized, fun pin first => ?_⟩,
    fun pin member => turns.nonzero pin (List.mem_of_mem_take member), turns.chain.take n⟩
  cases n with
  | zero => cases first
  | succ n => exact turn pin (by rwa [List.head?_take, if_neg (Nat.succ_ne_zero n)] at first)

theorem Turns.run {wires : List Bytes} {offered : List (PacketIdNet × Bytes)}
    (turns : Turns c (offered.map Prod.fst)) (opens : List.Forall₂ (Seals opt key) wires offered)
    {arrivals : List (Bytes × Int)} (arrive : arrivals.map Prod.fst = wires) :
    ∃ c', runs (processIncomingLink { opt with key_ctx_bi := some ⟨back, key⟩ }) c arrivals = some c' ∧
      c'.to_tun = c.to_tun ++ offered.map Prod.snd ∧ c'.signal_received = false := by
  induction opens generalizing c arrivals with
  | nil =>
    obtain rfl : arrivals = [] := List.map_eq_nil_iff.mp arrive
    exact ⟨c, rfl, by simp, turns.running⟩
  | @cons wire o wires offered seals _ ih =>
    obtain ⟨a, rest, rfl, rfl, later⟩ := List.map_eq_cons_iff.mp arrive
    obtain ⟨c₁, opened, delivered, next⟩ :=
      @Turns.next opt key back c o.1 (offered.map Prod.fst) a.1 o.2 turns seals a.2
    obtain ⟨c', ran, all, running⟩ := ih next later
    exact ⟨c', runs_cons_eq_some.mpr ⟨c₁, opened, ran⟩, by simp [all, delivered], running⟩

end Opening

section Stream

variable {sends : List Outgoing} {s : CryptoState there × List Bytes}

end Stream

end OpenVpn
