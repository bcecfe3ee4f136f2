import Mathlib.Data.List.Infix
import SeguridadRedes.OpenVpn.StreamBuf

namespace OpenVpn

open C (Bytes)
open Crypto (i2osp_length os2ip_i2osp os2ip_lt i2osp_os2ip)

section Frames

def frame (packet : Bytes) : Bytes := htonps packet.length ++ packet

structure Fits (maxlen : Nat) (packet : Bytes) : Prop where
  nonempty : 1 ≤ packet.length
  short : packet.length ≤ maxlen
  counted : packet.length < 2 ^ 16

/-- A stream that begins with a length no packet has. -/
def Refused (maxlen : Nat) (stream : Bytes) : Prop :=
  ∃ b₀ b₁ rest, stream = b₀ :: b₁ :: rest ∧ (ntohps [b₀, b₁] < 1 ∨ maxlen < ntohps [b₀, b₁])

theorem htonps_length (len : Nat) : (htonps len).length = 2 := i2osp_length 2 _

theorem ntohps_lt (b₀ b₁ : UInt8) : ntohps [b₀, b₁] < 2 ^ 16 := by
  have bound : ntohps [b₀, b₁] < 256 ^ [b₀, b₁].length := os2ip_lt [b₀, b₁]
  simpa using bound

theorem ntohps_htonps {len : Nat} (counted : len < 2 ^ 16) : ntohps (htonps len) = len := by
  unfold ntohps htonps
  rw [Nat.mod_eq_of_lt counted, os2ip_i2osp (by simpa using counted)]

theorem htonps_ntohps (b₀ b₁ : UInt8) : htonps (ntohps [b₀, b₁]) = [b₀, b₁] := by
  unfold htonps
  rw [Nat.mod_eq_of_lt (ntohps_lt b₀ b₁)]
  exact i2osp_os2ip rfl

theorem htonps_eq_cons (len : Nat) : ∃ b₀ b₁, htonps len = [b₀, b₁] := List.length_eq_two.mp (htonps_length len)

theorem frame_not_refused {maxlen : Nat} {packet : Bytes} (fits : Fits maxlen packet) (rest : Bytes) :
    ¬ Refused maxlen (frame packet ++ rest) := by
  rintro ⟨b₀, b₁, later, same, bad⟩
  obtain ⟨h₀, h₁, length⟩ := htonps_eq_cons packet.length
  have value := ntohps_htonps fits.counted
  unfold frame at same
  rw [length] at same value
  obtain ⟨rfl, rfl, _⟩ := by simpa using same
  have low := fits.nonempty
  have high := fits.short
  omega

theorem Refused.append {maxlen : Nat} {stream : Bytes} (refused : Refused maxlen stream) (more : Bytes) :
    Refused maxlen (stream ++ more) := by
  obtain ⟨b₀, b₁, rest, rfl, bad⟩ := refused
  exact ⟨b₀, b₁, rest ++ more, rfl, bad⟩

def Frameless (maxlen : Nat) (stream : Bytes) : Prop := ∀ p rest, Fits maxlen p → stream ≠ frame p ++ rest

theorem Refused.frameless {maxlen : Nat} {stream : Bytes} (refused : Refused maxlen stream) :
    Frameless maxlen stream := by
  rintro p rest fits rfl
  exact frame_not_refused fits rest refused

theorem frame_injective {maxlen : Nat} {packet other rest rest' : Bytes} (fits : Fits maxlen packet)
    (fits' : Fits maxlen other) (same : frame packet ++ rest = frame other ++ rest') :
      packet = other ∧ rest = rest' := by
  unfold frame at same
  rw [List.append_assoc, List.append_assoc] at same
  have sizes : (htonps packet.length).length = (htonps other.length).length := by
    rw [htonps_length, htonps_length]
  obtain ⟨lengths, bodies⟩ := List.append_inj same sizes
  have equal : packet.length = other.length := by
    rw [← ntohps_htonps fits.counted, lengths, ntohps_htonps fits'.counted]
  exact List.append_inj bodies equal

theorem frames_prefix {maxlen : Nat} {packets sent : List Bytes} {rest : Bytes} (read : ∀ p ∈ packets, Fits maxlen p)
    (written : ∀ p ∈ sent, Fits maxlen p) (same : packets.flatMap frame ++ rest = sent.flatMap frame) :
    ∃ later, sent = packets ++ later ∧ rest = later.flatMap frame := by
  induction packets generalizing sent with
  | nil => exact ⟨sent, rfl, same⟩
  | cons p packets ih =>
    cases sent with
    | nil =>
      have lengths := congrArg List.length same
      simp [frame, htonps_length] at lengths
    | cons q sent =>
      rw [List.flatMap_cons, List.flatMap_cons, List.append_assoc] at same
      obtain ⟨rfl, others⟩ := frame_injective (read p List.mem_cons_self) (written q List.mem_cons_self) same
      obtain ⟨later, rfl, left⟩ := ih (fun r member => read r (List.mem_cons_of_mem _ member))
        (fun r member => written r (List.mem_cons_of_mem _ member)) others
      exact ⟨later, rfl, left⟩

theorem nothing_frameless (maxlen : Nat) : Frameless maxlen [] := by
  intro p rest fits same
  have lengths := congrArg List.length same
  simp only [frame, List.length_append, htonps_length, List.length_nil] at lengths
  omega

theorem frames_not_refused {maxlen : Nat} {sent : List Bytes} (written : ∀ p ∈ sent, Fits maxlen p) :
    ¬ Refused maxlen (sent.flatMap frame) := by
  cases sent with
  | nil =>
    rintro ⟨b₀, b₁, rest, impossible, _⟩
    cases impossible
  | cons p sent => exact frame_not_refused (written p List.mem_cons_self) _

/-- There is one way only to cut a stream. -/
theorem cut_unique {maxlen : Nat} {packets others : List Bytes} {rest rest' : Bytes}
    (fits : ∀ p ∈ packets, Fits maxlen p)
    (fits' : ∀ p ∈ others, Fits maxlen p) (frameless : Frameless maxlen rest) (frameless' : Frameless maxlen rest')
    (same : packets.flatMap frame ++ rest = others.flatMap frame ++ rest') : packets = others ∧ rest = rest' := by
  induction packets generalizing others with
  | nil =>
    cases others with
    | nil => exact ⟨rfl, same⟩
    | cons q others =>
      rw [List.flatMap_cons, List.append_assoc] at same
      exact absurd same (frameless q _ (fits' q List.mem_cons_self))
  | cons p packets ih =>
    rw [List.flatMap_cons, List.append_assoc] at same
    cases others with
    | nil => exact absurd same.symm (frameless' p _ (fits p List.mem_cons_self))
    | cons q others =>
      rw [List.flatMap_cons, List.append_assoc] at same
      obtain ⟨rfl, later⟩ := frame_injective (fits p List.mem_cons_self) (fits' q List.mem_cons_self) same
      obtain ⟨rfl, left⟩ := ih (fun r member => fits r (List.mem_cons_of_mem _ member))
        (fun r member => fits' r (List.mem_cons_of_mem _ member)) later
      exact ⟨rfl, left⟩

end Frames

section Buffer

/-- What has been received and belongs to no packet yet. -/
def StreamBuf.held (sb : StreamBuf) : Bytes :=
  (match sb.len with
    | none => []
    | some len => htonps len) ++ sb.buf ++ sb.residual

structure StreamBuf.Sound (sb : StreamBuf) : Prop where
  unshared : sb.port_share_state ≠ .PS_ENABLED
  wide : 2 ≤ sb.maxlen
  within : sb.buf.length ≤ sb.maxlen
  left : sb.residual.length ≤ sb.maxlen
  size : ∀ len, sb.len = some len → 1 ≤ len ∧ len ≤ sb.maxlen ∧ len < 2 ^ 16

/-- Between packets, or in the middle of one. -/
structure StreamBuf.Collecting (sb : StreamBuf) : Prop extends sb.Sound where
  unformed : sb.residual_fully_formed = false
  unsized : sb.len = none → sb.buf.length < 2
  incomplete : ∀ len, sb.len = some len → sb.buf.length < len
  idle : sb.residual ≠ [] → sb.buf = [] ∧ sb.len = none

structure StreamBuf.Complete (sb : StreamBuf) : Prop extends sb.Sound where
  whole : sb.len = some sb.buf.length

structure StreamBuf.Waiting (sb : StreamBuf) : Prop extends sb.Collecting where
  nothing_left : sb.residual = []
  room : ∃ room, sb.next = some room ∧ 0 < room ∧ sb.buf.length + room = sb.len.getD sb.maxlen

variable {sb : StreamBuf}

theorem set_next_waiting (collecting : sb.Collecting) (nothing_left : sb.residual = []) :
    ∃ sb', streamBufSetNext sb = some sb' ∧ sb'.Waiting ∧ sb'.held = sb.held ∧ sb'.maxlen = sb.maxlen ∧
      sb'.error = sb.error := by
  have open_ : sb.buf.length < sb.len.getD sb.maxlen := by
    cases len : sb.len with
    | none =>
      have short := collecting.unsized len
      have wide := collecting.wide
      simp only [Option.getD_none]
      omega
    | some n => exact collecting.incomplete n len
  have room : 0 < (sb.len.getD sb.maxlen : Int) - sb.buf.length ∧
      sb.buf.length + ((sb.len.getD sb.maxlen : Int) - sb.buf.length).toNat = sb.len.getD sb.maxlen ∧
      0 < ((sb.len.getD sb.maxlen : Int) - sb.buf.length).toNat := by omega
  unfold streamBufSetNext
  dsimp only
  rw [if_pos room.1]
  exact ⟨_, rfl, ⟨⟨⟨collecting.unshared, collecting.wide, collecting.within, collecting.left,
    collecting.size⟩, collecting.unformed, collecting.unsized, collecting.incomplete, collecting.idle⟩, nothing_left,
    _, rfl, room.2.2, room.2.1⟩, rfl, rfl, rfl⟩

/-- What `stream_buf_added` leaves, of the bytes it was given. -/
inductive Added (maxlen : Nat) (error : Bool) (bytes : Bytes) : StreamBuf → Bool → Prop where
  | complete {sb : StreamBuf} (complete : sb.Complete) (held : sb.held = bytes) (bound : sb.maxlen = maxlen)
      (same : sb.error = error) : Added maxlen error bytes sb true
  | waiting {sb : StreamBuf} (waiting : sb.Waiting) (held : sb.held = bytes) (bound : sb.maxlen = maxlen)
      (same : sb.error = error) : Added maxlen error bytes sb false
  | refused {sb : StreamBuf} (collecting : sb.Collecting) (emptied : sb.residual = []) (bound : sb.maxlen = maxlen)
      (refused : sb.error = true) (bad : Refused maxlen bytes) : Added maxlen error bytes sb false

theorem fully_read_added (sound : sb.Sound) (unformed : sb.residual_fully_formed = false)
    (nothing_left : sb.residual = []) (unsized : sb.len = none → sb.buf.length < 2) :
    ∃ sb' ok, streamBufFullyRead sb = some (sb', ok) ∧ Added sb.maxlen sb.error sb.held sb' ok := by
  have idle : sb.residual ≠ [] → sb.buf = [] ∧ sb.len = none := fun some_left => absurd nothing_left some_left
  have waits : (∀ len, sb.len = some len → sb.buf.length < len) →
      ∃ sb' ok, (streamBufSetNext sb).map (·, false) = some (sb', ok) ∧ Added sb.maxlen sb.error sb.held sb' ok := by
    intro incomplete
    obtain ⟨sb', set, waiting, held, bound, same⟩ :=
      set_next_waiting ⟨sound, unformed, unsized, incomplete, idle⟩ nothing_left
    exact ⟨sb', false, by rw [set]; rfl, .waiting waiting held bound same⟩
  obtain ⟨maxlen, residual, formed, buf, next, len, error, share⟩ := sb
  unfold streamBufFullyRead
  cases len with
  | none => exact waits fun n sized => by cases sized
  | some n =>
    obtain ⟨positive, most, counted⟩ : 1 ≤ n ∧ n ≤ maxlen ∧ n < 2 ^ 16 := sound.size n rfl
    have within : buf.length ≤ maxlen := sound.within
    dsimp only
    by_cases all : n ≤ buf.length
    · rw [if_pos ⟨positive, all⟩, if_pos (by omega)]
      have taken : (buf.take n).length = n := by
        rw [List.length_take]
        omega
      have dropped : (buf.drop n).length ≤ maxlen := by
        rw [List.length_drop]
        omega
      refine ⟨_, true, rfl, .complete ⟨⟨sound.unshared, sound.wide, taken.trans_le most, dropped,
        sound.size⟩, congrArg some taken.symm⟩ ?_ rfl rfl⟩
      have empty : residual = [] := nothing_left
      unfold StreamBuf.held
      simp only [empty]
      rw [List.append_nil, List.append_assoc, List.take_append_drop]
    · rw [if_neg fun both => all both.2]
      refine waits fun m sized => ?_
      obtain rfl := Option.some.inj sized
      exact Nat.lt_of_not_le all

theorem added_sound (collecting : sb.Collecting) (nothing_left : sb.residual = []) {added : Bytes}
    (fits : sb.buf.length + added.length ≤ sb.len.getD sb.maxlen) :
    ∃ sb' ok, streamBufAdded sb added = some (sb', ok) ∧ Added sb.maxlen sb.error (sb.held ++ added) sb' ok := by
  have held : sb.held ++ added = StreamBuf.held { sb with buf := sb.buf ++ added } := by
    unfold StreamBuf.held
    simp [nothing_left]
  have most : sb.len.getD sb.maxlen ≤ sb.maxlen := by
    cases len : sb.len with
    | none => exact Nat.le_refl _
    | some n => exact (collecting.size n len).2.1
  have longer : (sb.buf ++ added).length ≤ sb.maxlen := by
    rw [List.length_append]
    omega
  have sound : StreamBuf.Sound { sb with buf := sb.buf ++ added } :=
    ⟨collecting.unshared, collecting.wide, longer, collecting.left, collecting.size⟩
  have unformed := collecting.unformed
  rw [held]
  unfold streamBufAdded
  generalize sb.buf ++ added = bytes at sound longer
  obtain ⟨maxlen, residual, formed, buf, next, len, error, share⟩ := sb
  cases len with
  | some n => exact fully_read_added sound unformed nothing_left fun unsized => by cases unsized
  | none =>
    rcases bytes with _ | ⟨b₀, _ | ⟨b₁, rest⟩⟩
    · exact fully_read_added sound unformed nothing_left fun _ => by simp
    · exact fully_read_added sound unformed nothing_left fun _ => by simp
    · have unshared : share ≠ .PS_ENABLED := sound.unshared
      have counted := ntohps_lt b₀ b₁
      have read := htonps_ntohps b₀ b₁
      have shorter : rest.length ≤ maxlen := by
        have all : (b₀ :: b₁ :: rest).length ≤ maxlen := longer
        simp only [List.length_cons] at all
        omega
      unfold streamBufSize
      simp only [unshared, false_and, if_false]
      by_cases bad : ntohps [b₀, b₁] < 1 ∨ maxlen < ntohps [b₀, b₁]
      · rw [if_pos bad]
        have reset : StreamBuf.Collecting { streamBufReset ⟨maxlen, residual, formed, rest, next,
            some (ntohps [b₀, b₁]), error, share⟩ with error := true } :=
          ⟨⟨unshared, sound.wide, Nat.zero_le _, sound.left, fun n none_yet => by cases none_yet⟩, rfl,
            fun _ => Nat.two_pos, (fun n none_yet => by cases none_yet), fun _ => ⟨rfl, rfl⟩⟩
        refine ⟨_, false, rfl, .refused reset nothing_left rfl rfl ⟨b₀, b₁, rest ++ residual, ?_, bad⟩⟩
        simp [StreamBuf.held]
      · rw [if_neg bad]
        rw [not_or] at bad
        have sized : StreamBuf.Sound ⟨maxlen, residual, formed, rest, next, some (ntohps [b₀, b₁]), error, share⟩ := by
          refine ⟨unshared, sound.wide, shorter, sound.left, fun n same => ?_⟩
          obtain rfl := Option.some.inj same
          exact ⟨Nat.le_of_not_lt bad.1, Nat.le_of_not_lt bad.2, counted⟩
        obtain ⟨sb', ok, finished, added⟩ :=
          fully_read_added sized unformed nothing_left fun unsized => by cases unsized
        refine ⟨sb', ok, finished, ?_⟩
        have bytes : StreamBuf.held ⟨maxlen, residual, formed, rest, next, some (ntohps [b₀, b₁]), error, share⟩ =
            StreamBuf.held ⟨maxlen, residual, formed, b₀ :: b₁ :: rest, next, none, error, share⟩ := by
          simp [StreamBuf.held, read]
        rwa [bytes] at added

theorem added_append (sb : StreamBuf) (first second : Bytes) :
    streamBufAdded { sb with buf := sb.buf ++ first } second = streamBufAdded sb (first ++ second) := by
  unfold streamBufAdded
  simp only [List.append_assoc]

/-- What `stream_buf_read_setup` leaves to read. -/
inductive Ready (sb : StreamBuf) : StreamBuf → Prop where
  | waiting {sb' : StreamBuf} (waiting : sb'.Waiting) (held : sb'.held = sb.held) (bound : sb'.maxlen = sb.maxlen)
      (same : sb'.error = sb.error) : Ready sb sb'
  | formed {sb' : StreamBuf} (complete : sb'.Complete) (formed : sb'.residual_fully_formed = true)
      (held : sb'.held = sb.held) (bound : sb'.maxlen = sb.maxlen) (same : sb'.error = sb.error) : Ready sb sb'
  | refused {sb' : StreamBuf} (waiting : sb'.Waiting) (refused : sb'.error = true) (bad : Refused sb.maxlen sb.held) :
      Ready sb sb'

theorem setup_ready (collecting : sb.Collecting) : ∃ sb', streamBufReadSetup sb = some sb' ∧ Ready sb sb' := by
  by_cases nothing_left : sb.residual = []
  · obtain ⟨sb', set, waiting, held, bound, same⟩ := set_next_waiting collecting nothing_left
    refine ⟨sb', ?_, .waiting waiting held bound same⟩
    simp [streamBufReadSetup, nothing_left, collecting.unformed, set]
  · obtain ⟨empty, unsized⟩ := collecting.idle nothing_left
    have emptied : StreamBuf.Collecting { sb with residual := [] } :=
      ⟨⟨collecting.unshared, collecting.wide, collecting.within, Nat.zero_le _, collecting.size⟩, collecting.unformed,
        collecting.unsized, collecting.incomplete, fun some_left => absurd rfl some_left⟩
    have fits : sb.buf.length + sb.residual.length ≤ sb.len.getD sb.maxlen := by
      have left := collecting.left
      rw [empty, unsized]
      simpa using left
    obtain ⟨sb', ok, added, outcome⟩ := added_sound emptied rfl fits
    have held : StreamBuf.held { sb with residual := [] } ++ sb.residual = sb.held := by simp [StreamBuf.held]
    rw [held] at outcome
    have moved : streamBufAdded { sb with buf := sb.buf ++ sb.residual, residual := [] } [] = some (sb', ok) := by
      have together := added_append { sb with residual := [] } sb.residual []
      rw [List.append_nil] at together
      exact together.trans added
    rw [collecting.unformed] at moved
    have setup : streamBufReadSetup sb =
        if ok = true then some { sb' with residual_fully_formed := ok }
        else streamBufSetNext { sb' with residual_fully_formed := ok } := by
      simp [streamBufReadSetup, nothing_left, collecting.unformed, moved]
    rw [setup]
    cases outcome with
    | complete complete held bound same =>
      exact ⟨_, rfl, .formed ⟨⟨complete.unshared, complete.wide, complete.within, complete.left, complete.size⟩,
        complete.whole⟩ rfl held bound same⟩
    | waiting waiting held bound same =>
      have unchanged : { sb' with residual_fully_formed := false } = sb' := by rw [← waiting.unformed]
      rw [if_neg (by decide), unchanged]
      obtain ⟨sb'', set, waits, held', bound', same'⟩ := set_next_waiting waiting.toCollecting waiting.nothing_left
      exact ⟨sb'', set, .waiting waits (held'.trans held) (bound'.trans bound) (same'.trans same)⟩
    | refused reset emptied bound refused bad =>
      have unchanged : { sb' with residual_fully_formed := false } = sb' := by rw [← reset.unformed]
      rw [if_neg (by decide), unchanged]
      obtain ⟨sb'', set, waits, _, _, same'⟩ := set_next_waiting reset emptied
      exact ⟨sb'', set, .refused waits (same'.trans refused) bad⟩

end Buffer

end OpenVpn
