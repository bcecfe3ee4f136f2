import SeguridadRedes.OpenVpn.Framing

namespace OpenVpn

open C (Bytes Source)

section Round

variable {maxlen : Nat} {stream : Bytes} {sock : LinkSocket}

theorem StreamBuf.Waiting.frameless {sb : StreamBuf} (waiting : sb.Waiting) : Frameless maxlen sb.held := by
  rintro p rest fits same
  have sizes := congrArg List.length same
  unfold frame at same
  unfold StreamBuf.held frame at sizes
  unfold StreamBuf.held at same
  rw [waiting.nothing_left, List.append_nil] at same sizes
  have low := fits.nonempty
  cases len : sb.len with
  | none =>
    have short := waiting.unsized len
    simp [len, htonps_length] at sizes
    omega
  | some n =>
    have short := waiting.incomplete n len
    obtain ⟨_, _, counted⟩ := waiting.size n len
    simp only [len] at same
    rw [List.append_assoc] at same
    obtain ⟨lengths, bodies⟩ := List.append_inj same (by rw [htonps_length, htonps_length])
    have equal : n = p.length := by rw [← ntohps_htonps counted, lengths, ntohps_htonps fits.counted]
    have longer := congrArg List.length bodies
    rw [List.length_append] at longer
    omega

theorem StreamBuf.Complete.held_eq {sb : StreamBuf} (complete : sb.Complete) :
    sb.held = frame sb.buf ++ sb.residual := by
  unfold StreamBuf.held frame
  rw [complete.whole]

theorem StreamBuf.Complete.fits {sb : StreamBuf} (complete : sb.Complete) : Fits sb.maxlen sb.buf := by
  obtain ⟨low, high, counted⟩ := complete.size _ complete.whole
  exact ⟨low, high, counted⟩

theorem StreamBuf.Complete.reset {sb : StreamBuf} (complete : sb.Complete) :
    (streamBufReset sb).Collecting ∧ (streamBufReset sb).held = sb.residual :=
  ⟨⟨⟨complete.unshared, complete.wide, Nat.zero_le _, complete.left, fun _ none_yet => by cases none_yet⟩, rfl,
    fun _ => Nat.two_pos, (fun _ none_yet => by cases none_yet), fun _ => ⟨rfl, rfl⟩⟩, rfl⟩

/-- What one reading of the socket does to the bytes that are not read yet. -/
inductive Reading (sock : LinkSocket) : LinkSocket → Except RecvError Bytes → Prop where
  | failed (failure : RecvError) (refuses : sock.sd.plan 0 = .error failure) :
      Reading sock { sock with sd := sock.sd.advance 0 } (.error failure)
  | ended {sd : Source UInt8 RecvError} (closes : sock.sd.Prompt → sock.sd.pending = []) :
      Reading sock { sock with sd := sd, stream_reset := true } (.ok [])
  | more {sb : StreamBuf} (waiting : sb.Waiting) (data : Bytes) (some_data : data ≠ []) (count : Nat)
      (delivered : data ++ (sock.sd.advance count).pending = sock.sd.pending)
      (held : sb.held = sock.stream_buf.held ++ data) (bound : sb.maxlen = sock.stream_buf.maxlen)
      (same : sb.error = sock.stream_buf.error) :
      Reading sock { sock with stream_buf := sb, sd := sock.sd.advance count } (.ok [])
  | packet {sb : StreamBuf} (complete : sb.Complete) (data : Bytes) (some_data : data ≠ []) (count : Nat)
      (delivered : data ++ (sock.sd.advance count).pending = sock.sd.pending)
      (held : sb.held = sock.stream_buf.held ++ data) (bound : sb.maxlen = sock.stream_buf.maxlen)
      (same : sb.error = sock.stream_buf.error) :
      Reading sock { sock with stream_buf := streamBufReset sb, sd := sock.sd.advance count } (.ok sb.buf)
  | refused {sb : StreamBuf} (refused : sb.error = true) (data rest : Bytes) {sd : Source UInt8 RecvError}
      (delivered : data ++ rest = sock.sd.pending)
      (bad : Refused sock.stream_buf.maxlen (sock.stream_buf.held ++ data)) :
      Reading sock { sock with stream_buf := sb, sd := sd } (.ok [])

theorem read_tcp_waiting (unformed : sock.stream_buf.residual_fully_formed = false)
    (waiting : sock.stream_buf.Waiting) :
    ∃ sock' status, linkSocketReadTcp sock = some (sock', status) ∧ Reading sock sock' status := by
  obtain ⟨room, next, positive, fits⟩ := waiting.room
  obtain ⟨count, later⟩ := sock.sd.pull_snd room
  unfold linkSocketReadTcp
  rw [if_neg (by simp [unformed]), next]
  simp only [Option.bind_eq_bind, Option.bind_some]
  cases pulled : sock.sd.pull room with
  | mk outcome sd =>
    cases outcome with
    | error failure =>
      have refuses : sock.sd.plan 0 = .error failure ∧ sd = sock.sd.advance 0 := by
        unfold Source.pull at pulled
        split at pulled
        · rename_i planned refused
          obtain ⟨same, rfl⟩ := Prod.mk.inj pulled
          obtain rfl := Except.error.inj same
          exact ⟨refused, rfl⟩
        · cases (Prod.mk.inj pulled).1
      obtain ⟨planned, rfl⟩ := refuses
      exact ⟨_, _, rfl, .failed failure planned⟩
    | ok data =>
      have answered : (sock.sd.pull room).1 = .ok data := by rw [pulled]
      obtain ⟨delivered, most⟩ := Source.pull_ok answered
      rw [later] at delivered
      obtain rfl : sd = sock.sd.advance count := by rw [← later, pulled]
      cases data with
      | nil => exact ⟨_, _, rfl, .ended fun prompt => prompt.pull_nil positive answered⟩
      | cons b received =>
        obtain ⟨sb, ok, added, outcome⟩ :=
          @added_sound sock.stream_buf waiting.toCollecting waiting.nothing_left (b :: received) (by omega)
        dsimp only
        rw [added]
        cases outcome with
        | complete complete held bound same =>
          exact ⟨_, _, rfl, .packet complete (b :: received) (List.cons_ne_nil _ _) count delivered held bound same⟩
        | waiting waits held bound same =>
          exact ⟨_, _, rfl, .more waits (b :: received) (List.cons_ne_nil _ _) count delivered held bound same⟩
        | refused _ _ _ refused bad => exact ⟨_, _, rfl, .refused refused (b :: received) _ delivered bad⟩

/-- A connection that is still read. -/
structure Connection.Open (maxlen : Nat) (stream : Bytes) (c : Connection) : Prop where
  running : c.closed = false
  connected : c.sock.stream_reset = false
  errorless : c.sock.stream_buf.error = false
  collecting : c.sock.stream_buf.Collecting
  bound : c.sock.stream_buf.maxlen = maxlen
  fits : ∀ p ∈ c.packets, Fits maxlen p
  bytes : stream = c.packets.flatMap frame ++ (c.sock.stream_buf.held ++ c.sock.sd.pending)

structure Connection.Over (maxlen : Nat) (stream rest : Bytes) (c : Connection) : Prop where
  closed : c.closed = true
  fits : ∀ p ∈ c.packets, Fits maxlen p
  bytes : stream = c.packets.flatMap frame ++ rest
  refused : c.sock.stream_buf.error = true → Refused maxlen rest

/-- What is still to be read, and what has been read without making a packet yet. -/
def Connection.weight (c : Connection) : Nat := 2 * c.sock.sd.pending.length + c.sock.stream_buf.held.length

/-- What one round does to an open connection. -/
inductive Round (maxlen : Nat) (stream : Bytes) (c c' : Connection) : Prop where
  | goesOn (opened : c'.Open maxlen stream) (prompt : c.sock.sd.Prompt → c'.sock.sd.Prompt)
      (faultless : c.sock.sd.Faultless → c'.sock.sd.Faultless) (lighter : c'.weight < c.weight)
  | failed (opened : c'.Open maxlen stream) (failure : RecvError) (refuses : c.sock.sd.plan 0 = .error failure)
  | dropped (rest : Bytes) (closes : c'.Over maxlen stream rest) (failure : RecvError)
      (refuses : c.sock.sd.plan 0 = .error failure)
  | finished (rest : Bytes) (closes : c'.Over maxlen stream rest) (frameless : c.sock.sd.Prompt → Frameless maxlen rest)

theorem Reading.error {sock' : LinkSocket} {status : Except RecvError Bytes} (reading : Reading sock sock' status)
    (error : sock.stream_buf.error = true) : sock'.stream_buf.error = true := by
  cases reading with
  | failed => exact error
  | ended => exact error
  | more _ _ _ _ _ _ _ same => exact same.trans error
  | packet _ _ _ _ _ _ _ same => exact same.trans error
  | refused refused => exact refused

theorem take_reset {c : Connection} {sock : LinkSocket} {status : Except RecvError Bytes}
    (reset : socketConnectionReset sock status = true) :
    takeIncoming c sock status = { c with sock := sock, closed := true } := if_pos reset

theorem take_kept {c : Connection} {sock : LinkSocket} (connected : sock.stream_reset = false)
    (errorless : sock.stream_buf.error = false) (buf : Bytes) : takeIncoming c sock (.ok buf) =
      { c with sock := sock, packets := if buf = [] then c.packets else c.packets ++ [buf] } := by
  unfold takeIncoming
  rw [if_neg (by simp [socketConnectionReset, connected, errorless])]

theorem Connection.Open.take {c : Connection} (opened : c.Open maxlen stream) {sb : StreamBuf} (complete : sb.Complete)
    (bound : sb.maxlen = maxlen) (errorless : sb.error = false) {sd : Source UInt8 RecvError}
    (bytes : sb.held ++ sd.pending = c.sock.stream_buf.held ++ c.sock.sd.pending)
    (shorter : sd.pending.length ≤ c.sock.sd.pending.length) :
    (takeIncoming c ⟨streamBufReset sb, c.sock.stream_reset, sd⟩ (.ok sb.buf)).Open maxlen stream ∧
      (takeIncoming c ⟨streamBufReset sb, c.sock.stream_reset, sd⟩ (.ok sb.buf)).weight < c.weight ∧
      (takeIncoming c ⟨streamBufReset sb, c.sock.stream_reset, sd⟩ (.ok sb.buf)).sock.sd = sd := by
  obtain ⟨collecting, held⟩ := complete.reset
  have fits := complete.fits
  have some_bytes : sb.buf ≠ [] := List.ne_nil_of_length_pos fits.nonempty
  have kept := @take_kept c ⟨streamBufReset sb, c.sock.stream_reset, sd⟩ opened.connected errorless sb.buf
  rw [if_neg some_bytes] at kept
  rw [kept]
  refine ⟨⟨opened.running, opened.connected, errorless, collecting, bound, ?_, ?_⟩, ?_, rfl⟩
  · intro p member
    rcases List.mem_append.mp member with old | new
    · exact opened.fits p old
    · obtain rfl : p = sb.buf := by simpa using new
      exact bound ▸ fits
  · rw [opened.bytes, ← bytes, complete.held_eq]
    simp [held]
  · have total := congrArg List.length bytes
    have whole := congrArg List.length complete.held_eq
    have low := fits.nonempty
    unfold frame at whole
    simp only [List.length_append, htonps_length] at total whole
    unfold Connection.weight
    simp only [held]
    omega

section Reads

variable {c : Connection}

theorem round_failed (opened : c.Open maxlen stream) {failure : RecvError}
    (refuses : c.sock.sd.plan 0 = .error failure) :
    Round maxlen stream c (takeIncoming c { c.sock with sd := c.sock.sd.advance 0 } (.error failure)) := by
  by_cases reset : failure = .ECONNRESET
  · rw [take_reset (by simp [socketConnectionReset, reset])]
    refine .dropped _ ⟨rfl, opened.fits, opened.bytes, fun error => ?_⟩ failure refuses
    rw [opened.errorless] at error
    cases error
  · have kept : takeIncoming c { c.sock with sd := c.sock.sd.advance 0 } (.error failure) =
        { c with sock := { c.sock with sd := c.sock.sd.advance 0 } } := by
      simp [takeIncoming, socketConnectionReset, opened.connected, opened.errorless, reset]
    rw [kept]
    exact .failed ⟨opened.running, opened.connected, opened.errorless, opened.collecting, opened.bound, opened.fits,
      opened.bytes⟩ failure refuses

theorem round_ended (opened : c.Open maxlen stream) (waiting : c.sock.stream_buf.Waiting)
    (closes : c.sock.sd.Prompt → c.sock.sd.pending = []) (sd : Source UInt8 RecvError) :
    Round maxlen stream c (takeIncoming c { c.sock with sd := sd, stream_reset := true } (.ok [])) := by
  rw [take_reset rfl]
  refine .finished _ ⟨rfl, opened.fits, opened.bytes, fun error => ?_⟩ fun prompt => ?_
  · rw [opened.errorless] at error
    cases error
  · rw [closes prompt, List.append_nil]
    exact waiting.frameless

section Received

variable {sb : StreamBuf} {data : Bytes} {count : Nat}
  (delivered : data ++ (c.sock.sd.advance count).pending = c.sock.sd.pending)
  (held : sb.held = c.sock.stream_buf.held ++ data)

include delivered held

theorem received_bytes :
    sb.held ++ (c.sock.sd.advance count).pending = c.sock.stream_buf.held ++ c.sock.sd.pending := by
  rw [held, List.append_assoc, delivered]

theorem round_more (opened : c.Open maxlen stream) (waiting : sb.Waiting) (some_data : data ≠ [])
    (bound : sb.maxlen = c.sock.stream_buf.maxlen) (same : sb.error = c.sock.stream_buf.error) :
    Round maxlen stream c
      (takeIncoming c { c.sock with stream_buf := sb, sd := c.sock.sd.advance count } (.ok [])) := by
  have all := received_bytes delivered held
  have errorless := same.trans opened.errorless
  have kept := @take_kept c { c.sock with stream_buf := sb, sd := c.sock.sd.advance count } opened.connected
    errorless []
  rw [kept]
  refine .goesOn ⟨opened.running, opened.connected, errorless, waiting.toCollecting, bound.trans opened.bound,
    opened.fits, ?_⟩ (fun prompt => prompt.advance count) (fun faultless => faultless.advance count) ?_
  · rw [opened.bytes, ← all]
    rfl
  · have total := congrArg List.length all
    have positive := List.length_pos_of_ne_nil some_data
    have received := congrArg List.length delivered
    simp only [List.length_append] at total received
    unfold Connection.weight
    simp only
    omega

theorem round_packet (opened : c.Open maxlen stream) (complete : sb.Complete)
    (bound : sb.maxlen = c.sock.stream_buf.maxlen) (same : sb.error = c.sock.stream_buf.error) :
    Round maxlen stream c (takeIncoming c
      { c.sock with stream_buf := streamBufReset sb, sd := c.sock.sd.advance count } (.ok sb.buf)) := by
  have shorter : (c.sock.sd.advance count).pending.length ≤ c.sock.sd.pending.length := by
    have received := congrArg List.length delivered
    simp only [List.length_append] at received
    omega
  obtain ⟨next, lighter, source⟩ := opened.take complete (bound.trans opened.bound) (same.trans opened.errorless)
    (received_bytes delivered held) shorter
  refine .goesOn next (fun prompt => ?_) (fun faultless => ?_) lighter
  · rw [source]
    exact prompt.advance count
  · rw [source]
    exact faultless.advance count

end Received

theorem round_refused (opened : c.Open maxlen stream)
    (bad : Refused maxlen (c.sock.stream_buf.held ++ c.sock.sd.pending)) {sock' : LinkSocket} (refused : sock'.stream_buf.error = true) (status : Except RecvError Bytes) :
    Round maxlen stream c (takeIncoming c sock' status) := by
  rw [take_reset (by simp [socketConnectionReset, refused])]
  exact .finished _ ⟨rfl, opened.fits, opened.bytes, fun _ => bad⟩ fun _ => bad.frameless

theorem round_reading (opened : c.Open maxlen stream) (waiting : c.sock.stream_buf.Waiting) {sock' : LinkSocket}
    {status : Except RecvError Bytes} (reading : Reading c.sock sock' status) :
    Round maxlen stream c (takeIncoming c sock' status) := by
  cases reading with
  | failed failure refuses => exact round_failed opened refuses
  | ended closes => exact round_ended opened waiting closes _
  | more waits data some_data count delivered held bound same =>
    exact round_more delivered held opened waits some_data bound same
  | packet complete data some_data count delivered held bound same =>
    exact round_packet delivered held opened complete bound same
  | refused refused data rest delivered bad =>
    refine round_refused opened ?_ refused _
    have whole := bad.append rest
    rwa [List.append_assoc, delivered, opened.bound] at whole

def Connection.ready (c : Connection) (sb : StreamBuf) : Connection :=
  { c with sock := { c.sock with stream_buf := sb } }

theorem Connection.Open.ready (opened : c.Open maxlen stream) {sb : StreamBuf} (waiting : sb.Waiting)
    (held : sb.held = c.sock.stream_buf.held) (bound : sb.maxlen = c.sock.stream_buf.maxlen)
    (same : sb.error = c.sock.stream_buf.error) : (c.ready sb).Open maxlen stream := by
  refine ⟨opened.running, opened.connected, same.trans opened.errorless, waiting.toCollecting,
    bound.trans opened.bound, opened.fits, ?_⟩
  rw [opened.bytes, ← held]
  rfl

theorem Round.of_ready {sb : StreamBuf} (held : sb.held = c.sock.stream_buf.held) {c' : Connection}
    (round : Round maxlen stream (c.ready sb) c') : Round maxlen stream c c' := by
  have weight : (c.ready sb).weight = c.weight := by
    unfold Connection.weight
    rw [← held]
    rfl
  cases round with
  | goesOn opened prompt faultless lighter => exact .goesOn opened prompt faultless (weight ▸ lighter)
  | failed opened failure refuses => exact .failed opened failure refuses
  | dropped rest closes failure refuses => exact .dropped rest closes failure refuses
  | finished rest closes frameless => exact .finished rest closes frameless

end Reads

theorem round_cases {c : Connection} (opened : c.Open maxlen stream) :
    ∃ c', readIncomingLink c () = some c' ∧ Round maxlen stream c c' := by
  obtain ⟨sb, setup, ready⟩ := setup_ready opened.collecting
  unfold readIncomingLink
  rw [if_neg (by simp [opened.running]), setup]
  simp only [Option.bind_eq_bind, Option.bind_some]
  cases ready with
  | formed complete formed held bound same =>
    have read : linkSocketReadTcp { c.sock with stream_buf := sb } =
        some (⟨streamBufReset sb, c.sock.stream_reset, c.sock.sd⟩, .ok sb.buf) := if_pos formed
    obtain ⟨next, lighter, source⟩ := opened.take complete (bound.trans opened.bound) (same.trans opened.errorless)
      (by rw [held]) (Nat.le_refl _)
    rw [read]
    exact ⟨_, rfl, .goesOn next (source.symm ▸ ·) (source.symm ▸ ·) lighter⟩
  | waiting waiting held bound same =>
    obtain ⟨sock', status, read, reading⟩ :=
      @read_tcp_waiting { c.sock with stream_buf := sb } waiting.unformed waiting
    have round := @round_reading maxlen stream (c.ready sb) (opened.ready waiting held bound same) waiting sock' status
      reading
    rw [read]
    exact ⟨_, rfl, round.of_ready held⟩
  | refused waiting refused bad =>
    obtain ⟨sock', status, read, reading⟩ :=
      @read_tcp_waiting { c.sock with stream_buf := sb } waiting.unformed waiting
    rw [read]
    exact ⟨_, rfl, round_refused opened (opened.bound ▸ bad.append _) (reading.error refused) status⟩

theorem closed_round {c : Connection} (closed : c.closed = true) : readIncomingLink c () = some c := if_pos closed

theorem rounds_succ (rounds : Nat) (c : Connection) :
    readRounds (rounds + 1) c = (readIncomingLink c ()).bind (readRounds rounds) := rfl

theorem closed_rounds {c : Connection} (closed : c.closed = true) (rounds : Nat) : readRounds rounds c = some c := by
  induction rounds with
  | zero => rfl
  | succ rounds ih => rw [rounds_succ, closed_round closed, Option.bind_some, ih]

theorem rounds_open_or_over {c : Connection} (opened : c.Open maxlen stream) (rounds : Nat) :
    ∃ c', readRounds rounds c = some c' ∧ (c'.Open maxlen stream ∨ ∃ rest, c'.Over maxlen stream rest) := by
  induction rounds generalizing c with
  | zero => exact ⟨c, rfl, Or.inl opened⟩
  | succ rounds ih =>
    obtain ⟨c₁, read, round⟩ := round_cases opened
    rw [rounds_succ, read, Option.bind_some]
    cases round with
    | goesOn opened => exact ih opened
    | failed opened => exact ih opened
    | dropped rest closes => exact ⟨c₁, closed_rounds closes.closed rounds, Or.inr ⟨rest, closes⟩⟩
    | finished rest closes => exact ⟨c₁, closed_rounds closes.closed rounds, Or.inr ⟨rest, closes⟩⟩

theorem rounds_finish {c : Connection} (opened : c.Open maxlen stream) (prompt : c.sock.sd.Prompt)
    (faultless : c.sock.sd.Faultless) {rounds : Nat} (enough : c.weight < rounds) :
    ∃ c' rest, readRounds rounds c = some c' ∧ c'.Over maxlen stream rest ∧ Frameless maxlen rest := by
  induction rounds generalizing c with
  | zero => cases enough
  | succ rounds ih =>
    obtain ⟨c₁, read, round⟩ := round_cases opened
    rw [rounds_succ, read, Option.bind_some]
    cases round with
    | goesOn opened later still lighter => exact ih opened (later prompt) (still faultless) (by omega)
    | failed _ failure refuses => exact absurd refuses (faultless 0 failure)
    | dropped _ _ failure refuses => exact absurd refuses (faultless 0 failure)
    | finished rest closes frameless => exact ⟨c₁, rest, closed_rounds closes.closed rounds, closes, frameless prompt⟩

def connect (maxlen : Nat) (sd : Source UInt8 RecvError) : Connection where
  sock := ⟨streamBufInit maxlen .PS_DISABLED, false, sd⟩
  closed := false
  packets := []

theorem connect_open (wide : 2 ≤ maxlen) (sd : Source UInt8 RecvError) :
    (connect maxlen sd).Open maxlen sd.pending := by
  refine ⟨rfl, rfl, rfl, ⟨⟨PortShare.noConfusion, wide, Nat.zero_le _, Nat.zero_le _,
    fun _ unsized => by cases unsized⟩, rfl,
    fun _ => Nat.two_pos, (fun _ unsized => by cases unsized), fun _ => ⟨rfl, rfl⟩⟩, rfl,
    fun _ member => absurd member List.not_mem_nil, rfl⟩

end Round

/-- Whatever the connection does, no ASSERT fails, the packets that are read lie one behind the other at the front
of the stream, and the connection is given up for its framing only at a length no packet has. -/
theorem stream_is_cut {maxlen : Nat} (wide : 2 ≤ maxlen) (sd : Source UInt8 RecvError) (rounds : Nat) :
    ∃ c rest, readRounds rounds (connect maxlen sd) = some c ∧ (∀ p ∈ c.packets, Fits maxlen p) ∧
      sd.pending = c.packets.flatMap frame ++ rest ∧ (c.sock.stream_buf.error = true → Refused maxlen rest) := by
  obtain ⟨c, read, opened | ⟨rest, closes⟩⟩ := rounds_open_or_over (connect_open wide sd) rounds
  · refine ⟨c, _, read, opened.fits, opened.bytes, fun error => ?_⟩
    rw [opened.errorless] at error
    cases error
  · exact ⟨c, rest, read, closes.fits, closes.bytes, closes.refused⟩

/-- A packet in pieces of up to three bytes, and then a length no packet of at most four bytes has. -/
def overlong : Source UInt8 RecvError := ⟨[0, 2, 5, 6, 0, 9, 1], fun i => .ok (i % 3 + 1)⟩

theorem sample_cut : ∃ c, readRounds 15 (connect 4 overlong) = some c ∧ c.packets = [[5, 6]] ∧
    c.sock.stream_buf.error = true ∧ Refused 4 [0, 9, 1] := by
  have wide : 2 ≤ 4 := by decide
  obtain ⟨c, rest, read, fits, bytes, refused⟩ := stream_is_cut wide overlong 15
  have seen : (readRounds 15 (connect 4 overlong)).map (fun c => (c.packets, c.sock.stream_buf.error)) =
      some ([[5, 6]], true) := by decide +kernel
  rw [read, Option.map_some, Option.some.injEq, Prod.mk.injEq] at seen
  obtain ⟨packets, error⟩ := seen
  rw [packets] at bytes
  have split : [0, 2, 5, 6] ++ [0, 9, 1] = [0, 2, 5, 6] ++ rest := bytes
  have left := List.append_cancel_left split
  exact ⟨c, read, packets, error, left ▸ refused error⟩

/-- A connection that brings the whole stream, read to its end. -/
structure Lasting (sd : Source UInt8 RecvError) (stream : Bytes) (rounds : Nat) : Prop where
  whole : sd.pending = stream
  prompt : sd.Prompt
  faultless : sd.Faultless
  enough : 2 * stream.length < rounds

theorem Lasting.read_out {maxlen : Nat} (wide : 2 ≤ maxlen) {sd : Source UInt8 RecvError} {stream : Bytes}
    {rounds : Nat}
    (lasting : Lasting sd stream rounds) :
    ∃ c rest, readRounds rounds (connect maxlen sd) = some c ∧ (∀ p ∈ c.packets, Fits maxlen p) ∧
      stream = c.packets.flatMap frame ++ rest ∧ Frameless maxlen rest := by
  obtain ⟨whole, prompt, faultless, enough⟩ := lasting
  obtain rfl := whole
  obtain ⟨c, rest, read, closes, frameless⟩ := rounds_finish (connect_open wide sd) prompt faultless enough
  exact ⟨c, rest, read, closes.fits, closes.bytes, frameless⟩

section Sample

def sampleLine (longest : Nat) (stream : Bytes) : Source UInt8 RecvError := ⟨stream, fun i => .ok (i % longest + 1)⟩

theorem sampleLine_lasting (longest : Nat) (stream : Bytes) {rounds : Nat} (enough : 2 * stream.length < rounds) :
    Lasting (sampleLine longest stream) stream rounds := by
  refine ⟨rfl, fun i most allowed => ?_, (fun i failure refused => by cases refused), enough⟩
  obtain rfl := Except.ok.inj allowed
  exact Nat.succ_pos _

end Sample

/-- Into which pieces a stream comes apart on its way makes no difference to the packets that are read from it. -/
theorem pieces_do_not_matter {maxlen : Nat} (wide : 2 ≤ maxlen) {sd sd' : Source UInt8 RecvError} {stream : Bytes}
    {rounds rounds' : Nat} (lasting : Lasting sd stream rounds) (lasting' : Lasting sd' stream rounds') :
    ∃ c c', readRounds rounds (connect maxlen sd) = some c ∧ readRounds rounds' (connect maxlen sd') = some c' ∧
      c.packets = c'.packets := by
  obtain ⟨c, rest, read, fits, bytes, frameless⟩ := lasting.read_out wide
  obtain ⟨c', rest', read', fits', bytes', frameless'⟩ := lasting'.read_out wide
  exact ⟨c, c', read, read', (cut_unique fits fits' frameless frameless' (bytes.symm.trans bytes')).1⟩

theorem sample_pieces : ∃ c c', readRounds 15 (connect 4 (sampleLine 3 [0, 2, 5, 6, 0, 9, 7])) = some c ∧
    readRounds 20 (connect 4 (sampleLine 1 [0, 2, 5, 6, 0, 9, 7])) = some c' ∧ c.packets = c'.packets :=
  pieces_do_not_matter (by decide) (sampleLine_lasting 3 _ (by decide)) (sampleLine_lasting 1 _ (by decide))

section Writing

variable {maxlen : Nat}

theorem write_frame {packet bytes : Bytes} (written : linkSocketWriteTcp maxlen packet = some bytes) :
    bytes = frame packet ∧ packet.length % 2 ^ 16 ≤ maxlen := by
  unfold linkSocketWriteTcp at written
  split at written
  · rename_i short
    exact ⟨(Option.some.inj written).symm, short⟩
  · cases written

/-- What a sender gives to its socket. -/
def Sendable (packet : Bytes) : Prop := packet ≠ [] ∧ packet.length < 2 ^ 16

instance : DecidablePred Sendable := fun _ => inferInstanceAs (Decidable (_ ∧ _))

theorem written_frames {sent written : List Bytes} (sendable : ∀ p ∈ sent, Sendable p)
    (write : sent.mapM (linkSocketWriteTcp maxlen) = some written) :
    written.flatten = sent.flatMap frame ∧ ∀ p ∈ sent, Fits maxlen p := by
  induction sent generalizing written with
  | nil =>
    obtain rfl : written = [] := by simpa using write.symm
    exact ⟨rfl, fun _ member => absurd member List.not_mem_nil⟩
  | cons p sent ih =>
    rw [List.mapM_cons] at write
    obtain ⟨bytes, first, rest⟩ := Option.bind_eq_some_iff.mp write
    obtain ⟨others, later, made⟩ := Option.bind_eq_some_iff.mp rest
    obtain rfl : bytes :: others = written := by simpa using made
    obtain ⟨rfl, short⟩ := write_frame first
    obtain ⟨nonempty, counted⟩ := sendable p List.mem_cons_self
    obtain ⟨same, fits⟩ := ih (fun q member => sendable q (List.mem_cons_of_mem _ member)) later
    rw [Nat.mod_eq_of_lt counted] at short
    refine ⟨by rw [List.flatten_cons, List.flatMap_cons, same], fun q member => ?_⟩
    rcases List.mem_cons.mp member with rfl | member
    · exact ⟨List.length_pos_of_ne_nil nonempty, short, counted⟩
    · exact fits q member

variable {sent written : List Bytes} {sd : Source UInt8 RecvError}

theorem begins_written (wide : 2 ≤ maxlen) (sendable : ∀ p ∈ sent, Sendable p)
    (write : sent.mapM (linkSocketWriteTcp maxlen) = some written) (arrived : sd.pending <+: written.flatten)
    (rounds : Nat) :
    ∃ c, readRounds rounds (connect maxlen sd) = some c ∧ c.packets <+: sent ∧ c.sock.stream_buf.error = false := by
  obtain ⟨frames, fits⟩ := written_frames sendable write
  obtain ⟨c, read, state⟩ := rounds_open_or_over (connect_open wide sd) rounds
  obtain ⟨lost, whole⟩ := arrived
  rw [frames] at whole
  have begins : ∀ rest, (∀ p ∈ c.packets, Fits maxlen p) → sd.pending = c.packets.flatMap frame ++ rest →
      ∃ later, sent = c.packets ++ later ∧ rest ++ lost = later.flatMap frame := by
    intro rest read_fits bytes
    rw [bytes, List.append_assoc] at whole
    exact frames_prefix read_fits fits whole
  rcases state with opened | ⟨rest, closes⟩
  · obtain ⟨later, same, _⟩ := begins _ opened.fits opened.bytes
    exact ⟨c, read, ⟨later, same.symm⟩, opened.errorless⟩
  · obtain ⟨later, same, left⟩ := begins rest closes.fits closes.bytes
    refine ⟨c, read, ⟨later, same.symm⟩, Bool.eq_false_iff.mpr fun error => ?_⟩
    have refused := (closes.refused error).append lost
    rw [left] at refused
    exact frames_not_refused (fun p member => fits p (same ▸ List.mem_append_right _ member)) refused

theorem all_written (wide : 2 ≤ maxlen) (sendable : ∀ p ∈ sent, Sendable p)
    (write : sent.mapM (linkSocketWriteTcp maxlen) = some written) {rounds : Nat}
    (lasting : Lasting sd written.flatten rounds) {c : Connection}
    (read : readRounds rounds (connect maxlen sd) = some c) : c.packets = sent := by
  obtain ⟨frames, fits⟩ := written_frames sendable write
  obtain ⟨c', rest, read', read_fits, bytes, frameless⟩ := lasting.read_out wide
  obtain rfl : c = c' := Option.some.inj (read.symm.trans read')
  rw [frames] at bytes
  have whole : sent.flatMap frame ++ [] = c.packets.flatMap frame ++ rest := by rw [List.append_nil, bytes]
  exact (cut_unique fits read_fits (nothing_frameless maxlen) frameless whole).1.symm

end Writing

/-- Packet for packet, what is read is what was written: its beginning wherever the connection breaks off, and all of it
if the connection lasts. -/
theorem reads_what_was_written {maxlen : Nat} (wide : 2 ≤ maxlen) {sent written : List Bytes}
    (sendable : ∀ p ∈ sent, Sendable p) (write : sent.mapM (linkSocketWriteTcp maxlen) = some written)
    {sd : Source UInt8 RecvError} (arrived : sd.pending <+: written.flatten) (rounds : Nat) :
    ∃ c, readRounds rounds (connect maxlen sd) = some c ∧ c.packets <+: sent ∧ c.sock.stream_buf.error = false ∧
      (Lasting sd written.flatten rounds → c.packets = sent) := by
  obtain ⟨c, read, begins, errorless⟩ := begins_written wide sendable write arrived rounds
  exact ⟨c, read, begins, errorless, fun lasting => all_written wide sendable write lasting read⟩

theorem sample_reads : ∃ c, readRounds 15 (connect 4 (sampleLine 3 [0, 2, 5, 6, 0, 1, 7])) = some c ∧
    c.packets = [[5, 6], [7]] := by
  obtain ⟨c, read, _, _, all⟩ := reads_what_was_written (by decide : 2 ≤ 4)
    (by decide : ∀ p ∈ ([[5, 6], [7]] : List Bytes), Sendable p)
    (rfl : [[5, 6], [7]].mapM (linkSocketWriteTcp 4) = some [[0, 2, 5, 6], [0, 1, 7]])
    (List.prefix_refl _ : (sampleLine 3 [0, 2, 5, 6, 0, 1, 7]).pending <+: _) 15
  exact ⟨c, read, all (sampleLine_lasting 3 _ (by decide))⟩

end OpenVpn
