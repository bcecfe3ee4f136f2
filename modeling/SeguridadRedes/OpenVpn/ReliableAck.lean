import SeguridadRedes.OpenVpn.Wire

namespace OpenVpn

open C (Bytes)

def RELIABLE_ACK_SIZE : Nat := 8

/-- `struct reliable_ack`: the first `len` entries of its array. -/
structure ReliableAck where
  packet_id : List UInt32
  fits : packet_id.length ≤ RELIABLE_ACK_SIZE
  deriving DecidableEq

namespace ReliableAck

def len (ack : ReliableAck) : Nat := ack.packet_id.length

def empty : ReliableAck := ⟨[], Nat.zero_le _⟩

/-- `ack->packet_id[ack->len++] = pid`. -/
def push (ack : ReliableAck) (pid : UInt32) (room : ack.len < RELIABLE_ACK_SIZE) : ReliableAck :=
  ⟨ack.packet_id ++ [pid], by simpa [len] using room⟩

/-- The entries from `n` on, moved to the front. -/
def shift (ack : ReliableAck) (n : Nat) : ReliableAck :=
  ⟨ack.packet_id.drop n, by
    have fits := ack.fits
    rw [List.length_drop]
    omega⟩

end ReliableAck

def reliableAckEmpty (ack : ReliableAck) : Bool := decide (ack.len = 0)

def reliableAckPacketIdPresent (ack : ReliableAck) (pid : UInt32) : Bool :=
  ack.packet_id.any fun id => decide (id = pid)

def reliableAckReadPacketId (buf : Bytes) : Option (UInt32 × Bytes) :=
  match bufRead buf 4 with
  | some (net_pid, rest) => some (ntohpid net_pid, rest)
  | none => none

def reliableAckAcknowledgePacketId (ack : ReliableAck) (pid : UInt32) : ReliableAck × Bool :=
  if room : reliableAckPacketIdPresent ack pid = false ∧ ack.len < RELIABLE_ACK_SIZE then
    (ack.push pid room.2, true)
  else (ack, false)

/-- The loop of `reliable_ack_read` over the `count` ids of the record. -/
def reliableAckReadIds : Nat → ReliableAck → Bytes → Option (ReliableAck × Bytes)
  | 0, ack, buf => some (ack, buf)
  | count + 1, ack, buf =>
    match reliableAckReadPacketId buf with
    | none => none
    | some (pid, rest) =>
      if room : ack.len < RELIABLE_ACK_SIZE then reliableAckReadIds count (ack.push pid room) rest else none

def reliableAckRead (ack : ReliableAck) (buf : Bytes) (sid : SessionId) : Option (ReliableAck × Bytes) :=
  match bufRead buf 1 with
  | none => none
  | some (first, buf) =>
    let count := (first.headD 0).toNat
    match reliableAckReadIds count ack buf with
    | none => none
    | some (ack, buf) =>
      if count = 0 then some (ack, buf)
      else match sessionIdRead buf with
        | none => none
        | some (session_id_remote, buf) =>
          if sessionIdDefined session_id_remote && sessionIdEqual session_id_remote sid
          then some (ack, buf) else none

/-- `ack->len` or `max` ids, whichever is less, then the session id they belong to. -/
def ackRecord (ids : List UInt32) (sid : SessionId) : Bytes :=
  UInt8.ofNat ids.length :: (ids.flatMap htonpid ++ if ids = [] then [] else sid.id)

/-- `none` is a failed ASSERT. -/
def reliableAckWrite (ack : ReliableAck) (buf : Bytes) (sid : SessionId) (max : Nat) (prepend : Bool) :
    Option (ReliableAck × Bytes) :=
  let n := min ack.len max
  let sub := ackRecord (ack.packet_id.take n) sid
  if n = 0 ∨ sessionIdDefined sid = true then
    some (ack.shift n, if prepend then sub ++ buf else buf ++ sub)
  else none

@[simp] theorem ReliableAck.len_empty : ReliableAck.empty.len = 0 := rfl

theorem ReliableAck.len_push (ack : ReliableAck) (pid : UInt32) (room : ack.len < RELIABLE_ACK_SIZE) :
    (ack.push pid room).len = ack.len + 1 := by
  simp [ReliableAck.len, ReliableAck.push]

theorem ReliableAck.ext_ids {ack other : ReliableAck} (same : ack.packet_id = other.packet_id) : ack = other := by
  cases ack
  cases other
  cases same
  rfl

theorem reliableAckEmpty_iff {ack : ReliableAck} : reliableAckEmpty ack = true ↔ ack.packet_id = [] := by
  simp [reliableAckEmpty, ReliableAck.len]

theorem reliableAckReadPacketId_append (pid : UInt32) (rest : Bytes) :
    reliableAckReadPacketId (htonpid pid ++ rest) = some (pid, rest) := by
  unfold reliableAckReadPacketId
  rw [bufRead_append (htonpid_length pid)]
  simp

theorem reliableAckReadPacketId_eq_some {buf rest : Bytes} {pid : UInt32} :
    reliableAckReadPacketId buf = some (pid, rest) ↔ buf = htonpid pid ++ rest := by
  constructor
  · intro read
    unfold reliableAckReadPacketId at read
    split at read
    · rename_i net_pid tail front
      obtain ⟨whole, length⟩ := bufRead_eq_some.mp front
      obtain ⟨rfl, rfl⟩ : ntohpid net_pid = pid ∧ tail = rest := by simpa using read
      rw [htonpid_ntohpid length, whole]
    · cases read
  · rintro rfl
    exact reliableAckReadPacketId_append pid rest

/-- Acknowledging adds at most the one id, and never drops one. -/
theorem acknowledge_ids (ack : ReliableAck) (pid : UInt32) :
    (reliableAckAcknowledgePacketId ack pid).1.packet_id = ack.packet_id ∨
      (reliableAckAcknowledgePacketId ack pid).1.packet_id = ack.packet_id ++ [pid] := by
  unfold reliableAckAcknowledgePacketId
  split
  · exact Or.inr rfl
  · exact Or.inl rfl

theorem acknowledge_mem {ack : ReliableAck} {pid id : UInt32}
    (member : id ∈ (reliableAckAcknowledgePacketId ack pid).1.packet_id) : id ∈ ack.packet_id ∨ id = pid := by
  rcases acknowledge_ids ack pid with same | pushed
  · exact Or.inl (same ▸ member)
  · rw [pushed] at member
    simpa using member

theorem acknowledge_empty (pid : UInt32) :
    (reliableAckAcknowledgePacketId .empty pid).1.packet_id = [pid] := rfl

theorem read_ids_append (ids : List UInt32) (ack : ReliableAck) (rest : Bytes)
    (fits : ack.len + ids.length ≤ RELIABLE_ACK_SIZE) :
    ∃ out, reliableAckReadIds ids.length ack (ids.flatMap htonpid ++ rest) = some (out, rest) ∧
      out.packet_id = ack.packet_id ++ ids := by
  induction ids generalizing ack with
  | nil => exact ⟨ack, rfl, by simp⟩
  | cons id ids ih =>
    have room : ack.len < RELIABLE_ACK_SIZE := by
      simp only [List.length_cons] at fits
      omega
    obtain ⟨out, read, content⟩ := ih (ack.push id room) (by
      rw [ReliableAck.len_push]
      simp only [List.length_cons] at fits
      omega)
    refine ⟨out, ?_, by simp [content, ReliableAck.push]⟩
    rw [List.flatMap_cons, List.append_assoc, List.length_cons, reliableAckReadIds,
      reliableAckReadPacketId_append]
    simp only [dif_pos room]
    exact read

/-- A record of at most eight ids is read back by the peer whose session id it carries. -/
theorem ack_read_record {ids : List UInt32} {sid : SessionId} (fits : ids.length ≤ RELIABLE_ACK_SIZE)
    (defined : sessionIdDefined sid = true) (rest : Bytes) :
    ∃ out, reliableAckRead .empty (ackRecord ids sid ++ rest) sid = some (out, rest) ∧ out.packet_id = ids := by
  have small : ids.length ≤ 8 := fits
  have count : (UInt8.ofNat ids.length).toNat = ids.length := by
    rw [UInt8.toNat_ofNat_of_lt']
    exact lt_of_le_of_lt small (by decide)
  unfold reliableAckRead ackRecord
  rw [List.cons_append, ← List.singleton_append, bufRead_append (by rfl), List.append_assoc]
  obtain ⟨out, read, content⟩ := read_ids_append ids .empty ((if ids = [] then [] else sid.id) ++ rest)
    (by simpa using fits)
  refine ⟨out, ?_, by simpa [ReliableAck.empty] using content⟩
  simp only [List.headD_cons, count, read]
  by_cases none_acked : ids = []
  · simp [none_acked]
  · have some_acked : ids.length ≠ 0 := by simpa using none_acked
    rw [if_neg none_acked, if_neg some_acked, sessionIdRead_append]
    simp [defined, sessionIdEqual]

section WellFormed

theorem ReliableAck.push_ids (ack : ReliableAck) (pid : UInt32) (room : ack.len < RELIABLE_ACK_SIZE) :
    (ack.push pid room).packet_id = ack.packet_id ++ [pid] := rfl

theorem read_ids_content {count : Nat} {ack out : ReliableAck} {buf rest : Bytes}
    (read : reliableAckReadIds count ack buf = some (out, rest)) :
    ∃ ids : List UInt32, ids.length = count ∧ out.packet_id = ack.packet_id ++ ids ∧
      buf = ids.flatMap htonpid ++ rest := by
  induction count generalizing ack buf with
  | zero =>
    obtain ⟨rfl, rfl⟩ : ack = out ∧ buf = rest := by simpa [reliableAckReadIds] using read
    exact ⟨[], rfl, by simp, rfl⟩
  | succ count ih =>
    unfold reliableAckReadIds at read
    split at read
    · cases read
    · rename_i pid tail first
      split at read
      · rename_i room
        obtain ⟨ids, length, content, rfl⟩ := ih read
        refine ⟨pid :: ids, by rw [List.length_cons, length], ?_, ?_⟩
        · rw [content, ReliableAck.push_ids, List.append_assoc, List.singleton_append]
        · rw [reliableAckReadPacketId_eq_some.mp first, List.flatMap_cons, List.append_assoc]
      · cases read

theorem ack_read_content {ack : ReliableAck} {buf rest : Bytes} {sid : SessionId}
    (read : reliableAckRead .empty buf sid = some (ack, rest)) :
    buf = ackRecord ack.packet_id sid ++ rest ∧ (ack.packet_id ≠ [] → sessionIdDefined sid = true) := by
  unfold reliableAckRead at read
  split at read
  · cases read
  · rename_i first body front
    obtain ⟨rfl, single⟩ := bufRead_eq_some.mp front
    obtain ⟨count, rfl⟩ := List.length_eq_one_iff.mp single
    dsimp only at read
    split at read
    · cases read
    · rename_i out tail ids
      obtain ⟨listed, length, content, rfl⟩ := read_ids_content ids
      have same : out.packet_id = listed := by simpa [ReliableAck.empty] using content
      have byte : UInt8.ofNat listed.length = count := by
        rw [length]
        simp
      unfold ackRecord
      by_cases zero : ([count].headD 0).toNat = 0
      · rw [if_pos zero] at read
        obtain ⟨rfl, rfl⟩ : out = ack ∧ tail = rest := by simpa using read
        have nothing : listed = [] := List.length_eq_zero_iff.mp (length.trans zero)
        subst nothing
        simp only [same]
        exact ⟨by simp [← byte], fun some_acked => absurd rfl some_acked⟩
      · rw [if_neg zero] at read
        have something : listed ≠ [] := by
          rintro rfl
          exact zero length.symm
        split at read
        · cases read
        · rename_i remote behind named
          split at read
          · rename_i accepted
            obtain ⟨rfl, rfl⟩ : out = ack ∧ behind = rest := by simpa using read
            simp only [Bool.and_eq_true, sessionIdEqual, decide_eq_true_eq] at accepted
            have sameSid : remote = sid := by
              cases remote
              cases sid
              simpa using accepted.2
            subst sameSid
            rw [same, byte, if_neg something, sessionIdRead_eq_some.mp named]
            exact ⟨by simp, fun _ => accepted.1⟩
          · cases read

theorem flatMap_htonpid_length (ids : List UInt32) : (ids.flatMap htonpid).length = 4 * ids.length := by
  induction ids with
  | nil => rfl
  | cons id ids ih =>
    rw [List.flatMap_cons, List.length_append, htonpid_length, ih, List.length_cons]
    omega

theorem ackRecord_same_sid {ids ids' : List UInt32} {sid sid' : SessionId} {rest rest' : Bytes}
    (fits : ids.length ≤ RELIABLE_ACK_SIZE) (fits' : ids'.length ≤ RELIABLE_ACK_SIZE) (some_acked : ids ≠ [])
    (same : ackRecord ids sid ++ rest = ackRecord ids' sid' ++ rest') : sid = sid' := by
  unfold RELIABLE_ACK_SIZE at fits fits'
  unfold ackRecord at same
  rw [List.cons_append, List.cons_append] at same
  obtain ⟨counts, behind⟩ := List.cons.inj same
  have lengths : ids.length = ids'.length := by
    have values := congrArg UInt8.toNat counts
    rwa [UInt8.toNat_ofNat_of_lt' (lt_of_le_of_lt fits (by decide)),
      UInt8.toNat_ofNat_of_lt' (lt_of_le_of_lt fits' (by decide))] at values
  have some_acked' : ids' ≠ [] := by
    rintro rfl
    exact some_acked (List.length_eq_zero_iff.mp lengths)
  rw [if_neg some_acked, if_neg some_acked', List.append_assoc, List.append_assoc] at behind
  obtain ⟨_, after⟩ := List.append_inj behind (by rw [flatMap_htonpid_length, flatMap_htonpid_length, lengths])
  obtain ⟨sameId, _⟩ := List.append_inj after (by rw [sid.size, sid'.size])
  cases sid
  cases sid'
  cases sameId
  rfl

/-- The reader accepts exactly the records a writer can make for its own session id. -/
theorem ack_read_iff_record (buf rest : Bytes) (sid : SessionId) (ack : ReliableAck) :
    reliableAckRead .empty buf sid = some (ack, rest) ↔
      buf = ackRecord ack.packet_id sid ++ rest ∧ (ack.packet_id ≠ [] → sessionIdDefined sid = true) := by
  constructor
  · exact ack_read_content
  · rintro ⟨rfl, defined⟩
    by_cases nothing : ack.packet_id = []
    · have empty : ack = .empty := ReliableAck.ext_ids nothing
      subst empty
      rfl
    · obtain ⟨out, read, same⟩ := ack_read_record ack.fits (defined nothing) rest
      rw [ReliableAck.ext_ids same] at read
      exact read

/-- What one end writes in front of a packet the other end reads back, and nothing pending is dropped. -/
theorem ack_write_read (ack : ReliableAck) (buf : Bytes) (sid : SessionId) (max : Nat)
    (defined : sessionIdDefined sid = true) :
    ∃ left sent out, reliableAckWrite ack buf sid max true = some (left, out) ∧
      reliableAckRead .empty out sid = some (sent, buf) ∧
      ack.packet_id = sent.packet_id ++ left.packet_id ∧ sent.len = min ack.len max ∧
      ∀ other, other ≠ sid → sent.packet_id ≠ [] → reliableAckRead .empty out other = none := by
  have fits := ack.fits
  let sent : ReliableAck := ⟨ack.packet_id.take (min ack.len max), by
    rw [List.length_take]
    omega⟩
  refine ⟨ack.shift (min ack.len max), sent, ackRecord sent.packet_id sid ++ buf, ?_, ?_, ?_, ?_, ?_⟩
  · simp [reliableAckWrite, defined, sent]
  · exact (ack_read_iff_record _ _ _ _).mpr ⟨rfl, fun _ => defined⟩
  · exact (List.take_append_drop _ _).symm
  · simp [sent, ReliableAck.len]
  · intro other apart some_acked
    by_contra accepted
    obtain ⟨⟨got, rest⟩, read⟩ := Option.ne_none_iff_exists'.mp accepted
    have content := (ack_read_content read).1
    exact apart (ackRecord_same_sid sent.fits got.fits some_acked content).symm

theorem sample_ack_write_read :
    ∃ left sent out,
      reliableAckWrite ⟨[7, 5, 6], by decide⟩ [4] ⟨[1, 2, 3, 4, 5, 6, 7, 8], rfl⟩ 2 true = some (left, out) ∧
      reliableAckRead .empty out ⟨[1, 2, 3, 4, 5, 6, 7, 8], rfl⟩ = some (sent, [4]) ∧
      [7, 5, 6] = sent.packet_id ++ left.packet_id ∧ sent.len = min 3 2 ∧
      ∀ other, other ≠ ⟨[1, 2, 3, 4, 5, 6, 7, 8], rfl⟩ → sent.packet_id ≠ [] →
        reliableAckRead .empty out other = none :=
  ack_write_read ⟨[7, 5, 6], by decide⟩ [4] ⟨[1, 2, 3, 4, 5, 6, 7, 8], rfl⟩ 2 (by decide)

end WellFormed

end OpenVpn
