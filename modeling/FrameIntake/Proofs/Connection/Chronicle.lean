import FrameIntake.Proofs.Connection.Step
import FrameIntake.Proofs.MessageReader.Waits

/-!
Chronicles of a connection. Nothing is said of the sink and of the signals: each step of the handler may
find others. In all of them the messages that were accepted are the first frames of what was read, and
one more may be on its way (`Kept.run`).
-/

namespace FrameIntake

/-- What was sent to `after` since it was `before`. -/
def Sink.gained (before after : Sink) : List Delivery :=
  (after.sent.take (after.sent.length - before.sent.length)).reverse

theorem Sink.gained_of_append {before after : Sink} {new : List Delivery}
    (h : after.sent = new ++ before.sent) : before.gained after = new.reverse := by
  simp [gained, h]

theorem Sink.gained_of_same {before after : Sink} (h : after.sent = before.sent) :
    before.gained after = [] := by
  simp [gained, h]

/-- What the step of a handler sends comes from its connection. -/
theorem Connection.sender_of_gained {c : Connection} {signals : Signals} {sink : Sink} {left : Nat}
    {g : Handled} (h : c.step signals sink left = some g) :
    ∀ d ∈ sink.gained g.sink, d.sender = c.id := by
  obtain ⟨_, _, new, hsent, hsender, _⟩ := step_sink h
  intro d hd
  rw [Sink.gained_of_append hsent, List.mem_reverse] at hd
  exact hsender d hd

/-- A connection with what it has come through. -/
structure Chronicle where
  connection : Connection
  /-- The phase in which its last step began. -/
  before : Phase := .unstarted
  /-- All bytes that have arrived. -/
  sent : Bytes := []
  accepted : List Message := []
  log : List Notice := []

namespace Chronicle

/-- What reaches a connection, and the steps of its handler. -/
inductive Entry
  | arrive (read : Read)
  | hear
  | step (signals : Signals) (sink : Sink) (left : Nat)

def start (p : Partitioner) (stream : String) (id : Nat) (peer : String) (source : Source) : Chronicle :=
  { connection := { Connection.start id peer p stream with source } }

def handled (ch : Chronicle) (sink : Sink) (g : Handled) : Chronicle :=
  { ch with
    connection := g.connection
    before := ch.connection.phase
    accepted := ch.accepted ++ (sink.gained g.sink).map Delivery.message
    log := ch.log ++ g.notices }

def act (ch : Chronicle) : Entry → Chronicle
  | .arrive read =>
    { ch with connection := ch.connection.arrive read, sent := ch.sent ++ read.bytes }
  | .hear => { ch with connection := ch.connection.hear }
  | .step signals sink left =>
    ((ch.connection.step signals sink left).map (ch.handled sink)).getD ch

def run (ch : Chronicle) (entries : List Entry) : Chronicle := entries.foldl act ch

/-- The bytes that the handler has read. -/
def read (ch : Chronicle) : Bytes := ch.sent.take (ch.sent.length - ch.connection.unread)

/-- The message on its way to the sink, or on its way when the handler ended. -/
def inFlight (ch : Chronicle) : Option Message :=
  match ch.connection.phase, ch.before with
  | .routing m _, _ => some m
  | .ended _, .routing m _ => some m
  | _, _ => none

/-- The notice of `count` bytes, if there are any. -/
def noticeOf (count : Nat) (notice : Nat → Notice) : List Notice :=
  if count = 0 then [] else [notice count]

/-- What holds of the reader while the handler has not ended. -/
structure Going (p : Partitioner) (r : MessageReader) (bytes : Bytes) (taken : List Frame) : Prop where
  takes : p.Takes bytes taken r.decoder.buffer
  sound : r.Sound
  fine : r.errored = false
  going : r.atEnd = false
  waits : r.Waits

theorem Going.poll {p : Partitioner} {r : MessageReader} {bytes : Bytes} {taken : List Frame}
    (h : Going p r bytes taken) (held : Bool) (reads : List Read) :
    ∃ item r' rest, r.poll .waits held reads = (item, r', rest) ∧
      MessageReader.Answers .waits r reads item r' rest ∧ r'.Sound ∧ r.Akin r' ∧ r'.Leaves item := by
  obtain ⟨item, r', rest, hadv, hans, hsound, hakin⟩ :=
    MessageReader.advance_answers h.sound h.fine .waits held reads
  refine ⟨item, r', rest, ?_, hans, hsound, hakin, ?_⟩
  · simp [MessageReader.poll, h.fine, hadv]
  · exact MessageReader.advance_waits h.sound h.fine h.going h.waits hadv

def opened (ch : Chronicle) : Notice :=
  .connectionOpened ch.connection.peer ch.connection.reader.stream

/-- Where a handler is, with the bytes that it has read and the frames that it has taken of them. -/
def Stands (p : Partitioner) (ch : Chronicle) (bytes : Bytes) (taken : List Frame) : Prop :=
  match ch.connection.phase with
  | .unstarted => Going p ch.connection.reader bytes taken ∧ ch.log = []
  | .reading | .routing _ _ => Going p ch.connection.reader bytes taken ∧ ch.log = [ch.opened]
  | .ended (.outcome .peerClosed) =>
    ch.inFlight = none ∧ ∃ dropped, p.cut bytes = { frames := taken, rest := dropped } ∧
      ch.log = ch.opened :: noticeOf dropped.length (.frameIncomplete ch.connection.peer)
  | .ended ending =>
    p.Takes bytes taken ch.connection.reader.decoder.buffer ∧
      ∀ outcome, ending = .outcome outcome → outcome = .shutdown ∨ outcome = .fuseBurned →
        ch.log = ch.opened ::
          noticeOf ch.connection.reader.buffered (.bytesDiscarded ch.connection.peer · outcome)

structure Kept (p : Partitioner) (stream : String) (ch : Chronicle) (bytes : Bytes)
    (taken : List Frame) : Prop where
  stream_eq : ch.connection.reader.stream = stream
  partitioner_eq : ch.connection.reader.decoder.partitioner = p
  sent : ch.sent = bytes ++ Read.joined ch.connection.arrived
  delivered : ch.accepted ++ ch.inFlight.toList = taken.map (·.message stream)
  stands : ch.Stands p bytes taken

variable {p : Partitioner} {stream : String} {ch : Chronicle} {bytes : Bytes} {taken : List Frame}

theorem kept_start (id : Nat) (peer : String) (source : Source) :
    (start p stream id peer source).Kept p stream [] [] := by
  refine ⟨rfl, rfl, rfl, rfl, ⟨.nil p, ?_, rfl, rfl, ?_⟩, rfl⟩
  · exact MessageReader.sound_start p stream
  · exact MessageReader.waits_start p stream

theorem Kept.read_eq (h : ch.Kept p stream bytes taken) : ch.read = bytes := by
  have hu : ch.connection.unread = (Read.joined ch.connection.arrived).length :=
    (Read.length_joined _).symm
  rw [read, hu, h.sent, List.length_append, Nat.add_sub_cancel, List.take_left]

theorem joined_joinTo (reads : List Read) (read : Read) :
    Read.joined (Read.joinTo reads read) = Read.joined reads ++ read.bytes := by
  fun_induction Read.joinTo reads read with
  | case1 b bytes c more => simp [Read.bytes]
  | case2 read => simp
  | case3 read first rest _ ih => simp [ih]

theorem arrive_eq (c : Connection) (read : Read) :
    ∃ arrived, c.arrive read = { c with arrived } ∧
      Read.joined arrived = Read.joined c.arrived ++ read.bytes := by
  unfold Connection.arrive
  cases c.source with
  | events => exact ⟨_, rfl, by simp⟩
  | stream heard => exact ⟨_, rfl, joined_joinTo _ _⟩

theorem Kept.arrive (h : ch.Kept p stream bytes taken) (read : Read) :
    (ch.act (.arrive read)).Kept p stream bytes taken := by
  obtain ⟨arrived, ha, hj⟩ := arrive_eq ch.connection read
  rw [act, ha]
  refine ⟨h.stream_eq, h.partitioner_eq, ?_, h.delivered, h.stands⟩
  rw [hj, ← List.append_assoc, ← h.sent]

theorem hear_eq (c : Connection) : ∃ source, c.hear = { c with source } := by
  unfold Connection.hear
  cases c.source with
  | events => exact ⟨c.source, rfl⟩
  | stream heard => exact ⟨_, rfl⟩

theorem Kept.hear (h : ch.Kept p stream bytes taken) :
    (ch.act .hear).Kept p stream bytes taken := by
  obtain ⟨source, hc⟩ := hear_eq ch.connection
  rw [act, hc]
  exact ⟨h.stream_eq, h.partitioner_eq, h.sent, h.delivered, h.stands⟩

variable {signals : Signals} {sink : Sink} {left : Nat} {g : Handled}

/-- A step that sends nothing. -/
theorem handled_of_sent (ch : Chronicle) (hs : g.sink.sent = sink.sent) :
    (ch.handled sink g).accepted = ch.accepted := by
  rw [handled, Sink.gained_of_same hs, List.map_nil, List.append_nil]

theorem inFlight_of_reading (h : ch.connection.phase = .reading) : ch.inFlight = none := by
  rw [inFlight, h]

theorem inFlight_of_routing {m : Message} {inLine : Bool}
    (h : ch.connection.phase = .routing m inLine) : ch.inFlight = some m := by
  rw [inFlight, h]

/-- Of a handler that runs, the phase alone tells what is on its way. -/
theorem inFlight_of_same (running : ch.connection.isRunning = true)
    (h : g.connection.phase = ch.connection.phase) : (ch.handled sink g).inFlight = ch.inFlight := by
  have hc : (ch.handled sink g).connection.phase = ch.connection.phase := h
  rcases Connection.isRunning_cases running with hp | ⟨m, inLine, hp⟩
  · rw [inFlight_of_reading (hc.trans hp), inFlight_of_reading hp]
  · rw [inFlight_of_routing (hc.trans hp), inFlight_of_routing hp]

/-- Who ends while a message is on its way leaves it there. -/
theorem inFlight_of_ended {ending : Ending} (running : ch.connection.isRunning = true)
    (h : g.connection.phase = .ended ending) : (ch.handled sink g).inFlight = ch.inFlight := by
  have hb : (ch.handled sink g).before = ch.connection.phase := rfl
  have hc : (ch.handled sink g).connection.phase = .ended ending := h
  rcases Connection.isRunning_cases running with hp | ⟨m, inLine, hp⟩
  · rw [inFlight_of_reading hp, inFlight, hb, hc, hp]
  · rw [inFlight_of_routing hp, inFlight, hb, hc, hp]

theorem Stands.of_running (h : ch.Stands p bytes taken) (running : ch.connection.isRunning = true) :
    Going p ch.connection.reader bytes taken ∧ ch.log = [ch.opened] := by
  unfold Stands at h
  rcases Connection.isRunning_cases running with hp | ⟨m, inLine, hp⟩
  · rw [hp] at h
    exact h
  · rw [hp] at h
    exact h

theorem stands_of_going (going : Going p ch.connection.reader bytes taken) (log : ch.log = [ch.opened])
    (running : ch.connection.isRunning = true) : ch.Stands p bytes taken := by
  unfold Stands
  rcases Connection.isRunning_cases running with hp | ⟨m, inLine, hp⟩
  · rw [hp]
    exact ⟨going, log⟩
  · rw [hp]
    exact ⟨going, log⟩

/-- What a step reports comes behind the notice that the connection was opened. -/
theorem log_handled (log : ch.log = [ch.opened]) (peer : g.connection.peer = ch.connection.peer)
    (akin : ch.connection.reader.Akin g.connection.reader) :
    (ch.handled sink g).log = (ch.handled sink g).opened :: g.notices := by
  have ho : (ch.handled sink g).opened = ch.opened := by
    rw [opened, opened, handled, peer, akin.1]
  rw [ho, handled, log]
  rfl

/-- An ending that drops nothing and of which no count is told. -/
theorem stands_of_ended {ending : Ending} (phase : ch.connection.phase = .ended ending)
    (other : ending ∉ [.outcome .peerClosed, .outcome .shutdown, .outcome .fuseBurned])
    (takes : p.Takes bytes taken ch.connection.reader.decoder.buffer) : ch.Stands p bytes taken := by
  unfold Stands
  rw [phase]
  cases ending with
  | panicked what => exact ⟨takes, fun _ h => by cases h⟩
  | outcome o =>
    cases o with
    | peerClosed | shutdown | fuseBurned => simp at other
    | malformed | readError | sinkClosed =>
      refine ⟨takes, ?_⟩
      rintro o ho (rfl | rfl) <;> cases ho

/-- A step that does not read. -/
theorem Kept.handled (h : ch.Kept p stream bytes taken) {phase : Phase} {given : Bool}
    (frame : g.connection = { ch.connection with phase, fuseGivenUp := given })
    (delivered : (ch.handled sink g).accepted ++ (ch.handled sink g).inFlight.toList =
      ch.accepted ++ ch.inFlight.toList)
    (stands : (ch.handled sink g).Stands p bytes taken) :
    (ch.handled sink g).Kept p stream bytes taken := by
  have hr : g.connection.reader = ch.connection.reader := by rw [frame]
  have ha : g.connection.arrived = ch.connection.arrived := by rw [frame]
  refine ⟨?_, ?_, ?_, delivered.trans h.delivered, stands⟩
  · exact hr ▸ h.stream_eq
  · exact hr ▸ h.partitioner_eq
  · exact ha ▸ h.sent

/-- A step after which the handler runs on. -/
theorem Kept.stays (h : ch.Kept p stream bytes taken) {phase : Phase} {given : Bool}
    (frame : g.connection = { ch.connection with phase, fuseGivenUp := given })
    (running : ch.connection.isRunning = true) (on : g.connection.isRunning = true)
    (silent : g.notices = [])
    (delivered : (ch.handled sink g).accepted ++ (ch.handled sink g).inFlight.toList =
      ch.accepted ++ ch.inFlight.toList) :
    (ch.handled sink g).Kept p stream bytes taken := by
  obtain ⟨hg, hl⟩ := h.stands.of_running running
  have hc : (ch.handled sink g).connection = { ch.connection with phase, fuseGivenUp := given } := frame
  refine h.handled frame delivered (stands_of_going ?_ ?_ on)
  · rw [hc]
    exact hg
  · rw [opened, hc, Chronicle.handled, silent, List.append_nil]
    exact hl

theorem Kept.ends (h : ch.Kept p stream bytes taken) {ending : Ending} {given : Bool}
    (frame : g.connection = { ch.connection with phase := .ended ending, fuseGivenUp := given })
    (running : ch.connection.isRunning = true) (sent : g.sink.sent = sink.sent)
    (other : ending ∉ [.outcome .peerClosed, .outcome .shutdown, .outcome .fuseBurned]) :
    (ch.handled sink g).Kept p stream bytes taken := by
  obtain ⟨hg, _⟩ := h.stands.of_running running
  have hc : (ch.handled sink g).connection =
      { ch.connection with phase := .ended ending, fuseGivenUp := given } := frame
  refine h.handled frame ?_ (stands_of_ended (by rw [hc]) other ?_)
  · rw [handled_of_sent ch sent, inFlight_of_ended running (by rw [frame])]
  · rw [hc]
    exact hg.takes

theorem Kept.interrupt (h : ch.Kept p stream bytes taken) (running : ch.connection.isRunning = true)
    {outcome : Outcome} (stop : signals.stop? = some outcome) :
    (ch.handled sink (ch.connection.interrupt sink outcome)).Kept p stream bytes taken := by
  obtain ⟨hg, hl⟩ := h.stands.of_running running
  have hs : (ch.connection.interrupt sink outcome).sink.sent = sink.sent := rfl
  have hend : (ch.connection.interrupt sink outcome).connection.phase = .ended (.outcome outcome) := rfl
  have hlog : (ch.handled sink (ch.connection.interrupt sink outcome)).log =
      ch.opened :: noticeOf ch.connection.reader.buffered
        (.bytesDiscarded ch.connection.peer · outcome) := by
    rw [Chronicle.handled, hl]
    rfl
  refine h.handled rfl ?_ ?_
  · rw [handled_of_sent ch hs, inFlight_of_ended running hend]
  · rcases Signals.eq_of_stop? stop with ⟨_, rfl⟩ | ⟨_, _, rfl⟩
    · refine ⟨hg.takes, ?_⟩
      intro o ho _
      cases ho
      exact hlog
    · refine ⟨hg.takes, ?_⟩
      intro o ho _
      cases ho
      exact hlog

/-- The bytes that a look at the source has come to. -/
theorem Kept.reached (h : ch.Kept p stream bytes taken)
    (takes : p.Takes bytes taken ch.connection.reader.decoder.buffer) {buf : Bytes} {last : List Read}
    (reached : ch.connection.reader.Reaches (ch.connection.within left) buf last) :
    ∃ bytes', p.Takes bytes' taken buf ∧
      ch.sent = bytes' ++ (Read.joined last ++ Read.joined (ch.connection.beyond left)) := by
  obtain ⟨more, hsup, rfl⟩ := reached
  refine ⟨bytes ++ more, takes.append more, ?_⟩
  rw [h.sent, ← ch.connection.within_append_beyond left, Read.joined_append, hsup.joined]
  simp only [List.append_assoc]

theorem joined_of_next {read : Read} {last rest : List Read} (h : Afterwards.waits.next last = (read, rest))
    (hb : read.bytes = []) : Read.joined last = Read.joined rest := by
  cases last with
  | nil =>
    cases h
    rfl
  | cons first last =>
    cases h
    rw [Read.joined_cons, hb, List.nil_append]

/-- A step that reads. -/
theorem Kept.readOn (h : ch.Kept p stream bytes taken) {r : MessageReader} {phase : Phase} {given : Bool}
    {rest : List Read} {bytes' : Bytes} {taken' : List Frame} (akin : ch.connection.reader.Akin r)
    (frame : g.connection =
      { ch.connection with
        reader := r, arrived := rest ++ ch.connection.beyond left, phase, fuseGivenUp := given })
    (sent : ch.sent = bytes' ++ (Read.joined rest ++ Read.joined (ch.connection.beyond left)))
    (delivered : (ch.handled sink g).accepted ++ (ch.handled sink g).inFlight.toList =
      taken'.map (·.message stream))
    (stands : (ch.handled sink g).Stands p bytes' taken') :
    (ch.handled sink g).Kept p stream bytes' taken' := by
  refine ⟨?_, ?_, ?_, delivered, stands⟩
  · rw [Chronicle.handled, frame]
    exact akin.1.trans h.stream_eq
  · rw [Chronicle.handled, frame]
    exact akin.2.trans h.partitioner_eq
  · rw [Chronicle.handled, frame]
    simpa using sent

theorem Kept.read (h : ch.Kept p stream bytes taken) (reading : ch.connection.phase = .reading)
    (hr : ch.connection.read signals sink left = some g) :
    ∃ bytes' taken', (ch.handled sink g).Kept p stream bytes' taken' := by
  have running := Connection.isRunning_of_reading reading
  obtain ⟨hg, hl⟩ := h.stands.of_running running
  have hmessages : ch.accepted = taken.map (·.message stream) := by
    rw [← h.delivered, inFlight_of_reading reading]
    simp
  obtain ⟨item, r, rest, hpoll, hans, hsound, hakin, hleaves⟩ :=
    hg.poll (sink.holdsFrom ch.connection.id) (ch.connection.within left)
  simp only [Connection.read, hpoll] at hr
  cases hans with
  | message reached found kept going fine =>
    rename_i buf b
    obtain rfl := Option.some.inj hr
    obtain ⟨bytes', htakes, hsent⟩ := h.reached hg.takes reached
    rw [h.partitioner_eq] at found
    have hgoing : Going p r bytes' (taken ++ [b.frame buf]) :=
      ⟨kept ▸ htakes.found found, hsound, fine, going, hleaves⟩
    refine ⟨bytes', _, h.readOn hakin rfl hsent ?_ ⟨hgoing, ?_⟩⟩
    · rw [handled_of_sent ch (by rfl), inFlight_of_routing (by rfl), hmessages, h.stream_eq,
        List.map_append]
      rfl
    · exact log_handled hl rfl hakin
  | malformed reached refused kept rest_eq =>
    rename_i buf last e
    obtain rfl := Option.some.inj hr
    obtain ⟨bytes', htakes, hsent⟩ := h.reached hg.takes reached
    have hj : Read.joined last = Read.joined rest := by
      rcases rest_eq with rfl | rfl <;> rfl
    rw [hj] at hsent
    refine ⟨bytes', taken, h.readOn hakin rfl hsent ?_ ?_⟩
    · rw [handled_of_sent ch (by rfl), inFlight_of_ended running (by rfl), h.delivered]
    · apply stands_of_ended (by rfl) (by decide)
      exact kept ▸ htakes
  | pending reached quiet next kept going fine =>
    dsimp only at hr
    split at hr
    · contradiction
    · obtain rfl := Option.some.inj hr
      obtain ⟨bytes', htakes, hsent⟩ := h.reached hg.takes reached
      rw [joined_of_next next rfl] at hsent
      have hopen : r.atEnd = false := by
        cases ha : r.atEnd with
        | false => rfl
        | true => exact absurd (going ha) (by simp [hg.going])
      have hgoing : Going p r bytes' taken := ⟨kept ▸ htakes, hsound, fine, hopen, .inr hleaves⟩
      refine ⟨bytes', taken, h.readOn hakin rfl hsent ?_ (stands_of_going hgoing ?_ running)⟩
      · rw [handled_of_sent ch (by rfl), inFlight_of_same running (by rfl), h.delivered]
      · exact log_handled hl rfl hakin
  | failed reached quiet next kept =>
    obtain rfl := Option.some.inj hr
    obtain ⟨bytes', htakes, hsent⟩ := h.reached hg.takes reached
    rw [joined_of_next next rfl] at hsent
    refine ⟨bytes', taken, h.readOn hakin rfl hsent ?_ ?_⟩
    · rw [handled_of_sent ch (by rfl), inFlight_of_ended running (by rfl), h.delivered]
    · apply stands_of_ended (by rfl) (by decide)
      exact kept ▸ htakes
  | trailing reached waits some next dropped closed =>
    rename_i buf last k
    obtain rfl := Option.some.inj hr
    obtain ⟨bytes', htakes, hsent⟩ := h.reached hg.takes reached
    rw [joined_of_next next rfl] at hsent
    rw [h.partitioner_eq] at waits
    refine ⟨bytes', taken, h.readOn hakin rfl hsent ?_ ⟨?_, buf, ?_, ?_⟩⟩
    · rw [handled_of_sent ch (by rfl), inFlight_of_ended running (by rfl), h.delivered]
    · rw [inFlight_of_ended running (by rfl), inFlight_of_reading reading]
    · rw [htakes.cut_eq, Partitioner.cut_of_needMore waits]
      simp [Cut.behind]
    · have hlen : buf.length ≠ 0 := fun h => some (List.length_eq_zero_iff.mp h)
      rw [noticeOf, if_neg hlen]
      exact log_handled hl rfl hakin
  | ended reached next none kept closed fine =>
    rename_i buf last
    obtain rfl := Option.some.inj hr
    obtain ⟨bytes', htakes, hsent⟩ := h.reached hg.takes reached
    rw [joined_of_next next rfl] at hsent
    obtain rfl : buf = [] := by
      rcases none with hb | ⟨ha, _⟩
      · exact hb
      · cases hg.going.symm.trans ha
    refine ⟨bytes', taken, h.readOn hakin rfl hsent ?_ ⟨?_, [], ?_, ?_⟩⟩
    · rw [handled_of_sent ch (by rfl), inFlight_of_ended running (by rfl), h.delivered]
    · rw [inFlight_of_ended running (by rfl), inFlight_of_reading reading]
    · rw [htakes.cut_eq, Partitioner.cut_nil]
      simp [Cut.behind]
    · exact log_handled hl rfl hakin

theorem Kept.step (h : ch.Kept p stream bytes taken)
    (hs : ch.connection.step signals sink left = some g) :
    ∃ bytes' taken', (ch.handled sink g).Kept p stream bytes' taken' := by
  cases Connection.step_steps hs with
  | opened unstarted =>
    have hstands := h.stands
    unfold Stands at hstands
    rw [unstarted] at hstands
    obtain ⟨hg, hl⟩ := hstands
    refine ⟨bytes, taken, h.handled rfl ?_ ⟨hg, ?_⟩⟩
    · rw [handled_of_sent ch (by rfl), inFlight_of_reading (by rfl), inFlight, unstarted]
    · rw [Chronicle.handled, hl]
      rfl
  | interrupted running stop => exact ⟨bytes, taken, h.interrupt running stop⟩
  | gaveUp running lost new =>
    refine ⟨bytes, taken, h.stays rfl running running rfl ?_⟩
    rw [handled_of_sent ch (by rfl), inFlight_of_same running (by rfl)]
  | read reading hr => exact h.read reading hr
  | accepted routing offer =>
    rename_i m inLine sink'
    have hgained : sink.gained sink' = [⟨ch.connection.id, m⟩] :=
      Sink.gained_of_append (show sink'.sent = [_] ++ sink.sent from (Sink.offer_accepted offer).2.1)
    refine ⟨bytes, taken, h.stays rfl (Connection.isRunning_of_routing routing) rfl rfl ?_⟩
    rw [inFlight_of_routing routing, inFlight_of_reading (by rfl), Chronicle.handled, hgained]
    simp
  | linedUp routing offer =>
    refine ⟨bytes, taken, h.stays rfl (Connection.isRunning_of_routing routing) rfl rfl ?_⟩
    rw [handled_of_sent ch (Sink.offer_waits offer).2.1, inFlight_of_routing routing,
      inFlight_of_routing (by rfl)]
  | refused routing offer =>
    obtain rfl := Sink.offer_refused offer
    exact ⟨bytes, taken, h.ends rfl (Connection.isRunning_of_routing routing) rfl (by decide)⟩
  | panicked routing offer =>
    obtain rfl := Sink.offer_panicked offer
    exact ⟨bytes, taken, h.ends rfl (Connection.isRunning_of_routing routing) rfl (by simp)⟩

theorem Kept.act (h : ch.Kept p stream bytes taken) (entry : Entry) :
    ∃ bytes' taken', (ch.act entry).Kept p stream bytes' taken' := by
  cases entry with
  | arrive read => exact ⟨bytes, taken, h.arrive read⟩
  | hear => exact ⟨bytes, taken, h.hear⟩
  | step signals sink left =>
    rw [Chronicle.act]
    cases hs : ch.connection.step signals sink left with
    | none => exact ⟨bytes, taken, h⟩
    | some g => exact h.step hs

theorem Kept.run (h : ch.Kept p stream bytes taken) (entries : List Entry) :
    ∃ bytes' taken', (ch.run entries).Kept p stream bytes' taken' := by
  induction entries generalizing ch bytes taken with
  | nil => exact ⟨bytes, taken, h⟩
  | cons entry entries ih =>
    obtain ⟨bytes', taken', h'⟩ := h.act entry
    exact ih h'

end Chronicle

end FrameIntake
