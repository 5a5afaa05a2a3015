import FrameIntake.Proofs.Connection.Chronicle

/-!
What becomes of a handler if nothing else reaches it. That is settled by the bytes that wait for it, by the
signals and by the sink (`Record.fate`). No step changes it (`step_fate`), whatever its turns are and
however its reads are cut, and a handler at rest has come to it (`fate_of_rest`). What reaches it meanwhile
may as well reach it there (`fate_arrive`).
-/

namespace FrameIntake

/-- What reads bring: bytes, and behind them what ends the stream, if anything does. -/
structure News where
  bytes : Bytes := []
  last : Option Outcome := none

namespace News

def behind (bytes : Bytes) (n : News) : News := { n with bytes := bytes ++ n.bytes }

/-- What comes behind the end of a stream is not read any more. -/
def append (n more : News) : News :=
  match n.last with
  | none => more.behind n.bytes
  | some _ => n

variable {n more : News}

theorem append_of_open (h : n.last = none) (more : News) : n.append more = more.behind n.bytes := by
  rw [append, h]

theorem append_of_last {outcome : Outcome} (h : n.last = some outcome) (more : News) :
    n.append more = n := by
  rw [append, h]

theorem behind_behind (front bytes : Bytes) (n : News) :
    (n.behind bytes).behind front = n.behind (front ++ bytes) := by
  simp [behind]

theorem append_nil (n : News) : n.append {} = n := by
  cases h : n.last with
  | none =>
    rw [append_of_open h, behind, List.append_nil, ← h]
  | some outcome => exact append_of_last h _

theorem behind_append (bytes : Bytes) (n more : News) :
    (n.behind bytes).append more = (n.append more).behind bytes := by
  cases h : n.last with
  | none =>
    rw [append_of_open (show (n.behind bytes).last = none from h), append_of_open h, behind_behind]
    rfl
  | some outcome =>
    rw [append_of_last (show (n.behind bytes).last = some outcome from h), append_of_last h]

theorem append_assoc (n more rest : News) : (n.append more).append rest = n.append (more.append rest) := by
  cases h : n.last with
  | none => rw [append_of_open h, append_of_open h, behind_append]
  | some outcome => rw [append_of_last h, append_of_last h, append_of_last h]

end News

namespace Read

def news : Read → News
  | .data [] => { last := some .peerClosed }
  | .data bytes => { bytes }
  | .failed _ => { last := some .readError }
  | .pending => {}

def newsOf : List Read → News
  | [] => {}
  | read :: rest => read.news.append (newsOf rest)

theorem news_of_data {bytes : Bytes} (h : bytes ≠ []) : news (.data bytes) = { bytes } := by
  obtain ⟨b, bs, rfl⟩ := List.exists_cons_of_ne_nil h
  rfl

theorem newsOf_append (reads more : List Read) :
    newsOf (reads ++ more) = (newsOf reads).append (newsOf more) := by
  induction reads with
  | nil => rfl
  | cons read reads ih => rw [List.cons_append, newsOf, ih, newsOf, News.append_assoc]

theorem newsOf_joinTo (reads : List Read) (read : Read) :
    newsOf (joinTo reads read) = (newsOf reads).append read.news := by
  fun_induction joinTo reads read with
  | case1 b bytes c more => simp [newsOf, news, News.append, News.behind]
  | case2 read => exact News.append_nil read.news
  | case3 read first rest _ ih => rw [newsOf, ih, newsOf, News.append_assoc]

/-- Bytes that were taken are gone from the front. -/
theorem Supplies.newsOf {reads rest : List Read} {taken : Bytes} (h : Supplies reads taken rest) :
    newsOf reads = (newsOf rest).behind taken := by
  induction h with
  | stop => rfl
  | whole hb hs ih =>
    rw [Read.newsOf, news_of_data hb, ih, News.append_of_open rfl, News.behind_behind]
  | part hb hl hs ih =>
    rw [Read.newsOf, news_of_data hl, News.append_of_open rfl] at ih
    rw [Read.newsOf, news_of_data (by simp [hb]), News.append_of_open rfl, ← News.behind_behind, ih,
      News.behind_behind]

end Read

/-- What counts of a handler: how it has ended, or what is on its way, in its buffer and in its reads. -/
inductive Record
  | ended (ending : Ending)
  | going (message : Option Message) (buffer : Bytes) (news : News)

namespace Record

def arrive (news : News) : Record → Record
  | ended ending => ended ending
  | going message buffer old => going message buffer (old.append news)

def ending? : Record → Option Ending
  | ended ending => some ending
  | going .. => none

end Record

namespace Connection

def record (c : Connection) : Record :=
  match c.phase with
  | .ended ending => .ended ending
  | .routing m _ => .going (some m) c.reader.decoder.buffer (Read.newsOf c.arrived)
  | _ => .going none c.reader.decoder.buffer (Read.newsOf c.arrived)

def ending? (c : Connection) : Option Ending :=
  match c.phase with
  | .ended ending => some ending
  | _ => none

theorem record_ending (c : Connection) : c.record.ending? = c.ending? := by
  unfold record ending?
  cases c.phase <;> rfl

theorem record_ending_eq_none_iff (c : Connection) : c.record.ending? = none ↔ c.isEnded = false := by
  unfold record isEnded
  cases c.phase <;> simp [Record.ending?]

/-- Who has heard can read all that has arrived. -/
theorem hear_within (c : Connection) : c.hear.within turnLimit = c.hear.arrived := by
  unfold hear
  split
  · rename_i hs
    rw [within, hs]
  · rfl

theorem record_hear (c : Connection) : c.hear.record = c.record := by
  obtain ⟨source, hc⟩ := Chronicle.hear_eq c
  rw [hc]
  rfl

/-- One way to hand out what arrives is as good as the other. -/
theorem record_arrive (c : Connection) (read : Read) :
    (c.arrive read).record = c.record.arrive read.news := by
  have hone : Read.newsOf [read] = read.news := News.append_nil read.news
  have hnews : ∃ arrived, c.arrive read = { c with arrived } ∧
      Read.newsOf arrived = (Read.newsOf c.arrived).append read.news := by
    unfold arrive
    cases c.source with
    | events => exact ⟨_, rfl, by rw [Read.newsOf_append, hone]⟩
    | stream heard => exact ⟨_, rfl, Read.newsOf_joinTo _ _⟩
  obtain ⟨arrived, ha, hn⟩ := hnews
  rw [ha, record, record]
  dsimp only
  rw [hn]
  split <;> rfl

end Connection

/-- How a handler ends over a message that the sink does not take. -/
def Sink.refusal? (s : Sink) (m : Message) : Option Ending :=
  match s.panic? m with
  | some what => some (.panicked what)
  | none => if s.closed then some (.outcome .sinkClosed) else none

theorem Sink.offer_refusal (s : Sink) (sender : Nat) (m : Message) :
    s.refusal? m =
      match (s.offer sender m).1 with
      | .panicked what => some (.panicked what)
      | .refused => some (.outcome .sinkClosed)
      | .accepted | .waits => none := by
  have ho := s.offer_cases sender m
  revert ho
  cases s.offer sender m with
  | mk offer t =>
    cases offer <;> intro ho <;> simp [refusal?, ho]

/-- A closed sink takes nothing. -/
theorem Sink.refusal?_closed (s : Sink) (m : Message) :
    ({ s with closed := true } : Sink).refusal? m = (s.refusal? m).or (some (.outcome .sinkClosed)) := by
  have hpanic : ({ s with closed := true } : Sink).panic? m = s.panic? m := rfl
  rw [refusal?, refusal?, hpanic]
  cases s.panic? m with
  | some what => rfl
  | none => cases s.closed <;> rfl

/-- Nobody waits for a place where there are no bounds. -/
theorem Sink.offer_unbounded {s : Sink} (h : s.isBounded = false) (sender : Nat) (m : Message) :
    (s.offer sender m).1 ≠ .waits := by
  have hfree : s.free = none := by simpa [isBounded] using h
  have hgranted : sender ∈ (s.lineUp sender).granted := by
    unfold lineUp
    split <;> simp_all [granted]
  unfold offer
  cases s.panic? m with
  | some what => simp
  | none =>
    cases hc : s.closed with
    | true => simp
    | false => simp [hgranted]

/-- Messages that were sent, and what is left of the handler behind them. -/
structure Fate where
  messages : List Message
  record : Record

def Fate.behind (messages : List Message) (f : Fate) : Fate :=
  { f with messages := messages ++ f.messages }

@[simp] theorem Fate.behind_nil (f : Fate) : f.behind [] = f := rfl

theorem Fate.behind_behind (front messages : List Message) (f : Fate) :
    (f.behind messages).behind front = f.behind (front ++ messages) := by
  simp [behind]

/-- What becomes of a fate if the sink closes before it has taken any message. -/
def Fate.closed (f : Fate) : Fate :=
  if f.messages = [] then f else ⟨[], .ended (.outcome .sinkClosed)⟩

namespace Record

/-- Sends messages, up to the first one that the sink does not take. -/
def send (refusal : Message → Option Ending) (last : Record) : List Message → Fate
  | [] => ⟨[], last⟩
  | m :: ms =>
    match refusal m with
    | some ending => ⟨[], ended ending⟩
    | none => (send refusal last ms).behind [m]

/-- Where a handler stands when all frames are sent. -/
def spent (cut : Cut) (news : News) : Record :=
  match cut.fault, news.last with
  | some _, _ => ended (.outcome .malformed)
  | none, some outcome => ended (.outcome outcome)
  | none, none => going none cut.rest {}

/-- What becomes of a handler. A signal to stop comes before all else. -/
def fate (p : Partitioner) (stream : String) (stop : Option Outcome)
    (refusal : Message → Option Ending) : Record → Fate
  | ended ending => ⟨[], ended ending⟩
  | going message buffer news =>
    match stop with
    | some outcome => ⟨[], ended (.outcome outcome)⟩
    | none =>
      let cut := p.cut (buffer ++ news.bytes)
      send refusal (spent cut news) (message.toList ++ cut.frames.map (·.message stream))

variable {p : Partitioner} {stream : String} {stop : Option Outcome}
variable {refusal : Message → Option Ending} {message : Option Message} {buffer : Bytes} {news : News}

/-- To read bytes makes no difference. -/
theorem fate_behind (taken : Bytes) :
    fate p stream stop refusal (going message buffer (news.behind taken)) =
      fate p stream stop refusal (going message (buffer ++ taken) news) := by
  cases stop with
  | some outcome => rfl
  | none =>
    rw [fate, fate, List.append_assoc]
    rfl

theorem fate_of_found {b : Bounds} (found : p.extract buffer 0 = .found b) :
    fate p stream none refusal (going none buffer news) =
      fate p stream none refusal
        (going (some ((b.frame buffer).message stream)) (buffer.drop b.stop) news) := by
  rw [fate, fate, Partitioner.cut_append_of_found found]
  rfl

theorem fate_of_malformed {e : FramingError} (refused : p.extract buffer 0 = .malformed e) :
    fate p stream none refusal (going none buffer news) = ⟨[], ended (.outcome .malformed)⟩ := by
  obtain ⟨later, _, hc⟩ := Partitioner.cut_append_of_malformed refused news.bytes
  rw [fate, hc]
  rfl

/-- Nothing more is to be sent. -/
theorem fate_of_lacks (lacks : p.Lacks buffer) (silent : news.bytes = []) :
    fate p stream none refusal (going none buffer news) = ⟨[], spent { rest := buffer } news⟩ := by
  obtain ⟨k, hk⟩ := lacks
  rw [fate, silent, List.append_nil, Partitioner.cut_of_needMore hk]
  rfl

theorem fate_of_taken {m : Message} (taken : refusal m = none) :
    fate p stream none refusal (going (some m) buffer news) =
      (fate p stream none refusal (going none buffer news)).behind [m] := by
  rw [fate, fate, Option.toList_some, List.singleton_append, send, taken]
  rfl

theorem fate_of_refused {m : Message} {ending : Ending} (refused : refusal m = some ending) :
    fate p stream none refusal (going (some m) buffer news) = ⟨[], ended ending⟩ := by
  rw [fate, Option.toList_some, List.singleton_append, send, refused]

/-- Of messages behind others, those are sent that the end of the others leaves to be sent. -/
theorem send_append {last later : Record} {next : Record → Fate} {more : List Message}
    (settled : ∀ ending, next (ended ending) = ⟨[], ended ending⟩)
    (goes : next last = send refusal later more) (ms : List Message) :
    send refusal later (ms ++ more) =
      (next (send refusal last ms).record).behind (send refusal last ms).messages := by
  induction ms with
  | nil => exact goes.symm
  | cons m ms ih =>
    rw [List.cons_append, send, send]
    cases refusal m with
    | some ending => exact (settled ending).symm
    | none =>
      dsimp only
      rw [ih, Fate.behind_behind]
      rfl

/-- Whatever a handler still has to send: once the sink is closed, the next message ends it, if there is
one. -/
theorem fate_of_closed {late : Message → Option Ending}
    (closed : ∀ m, late m = (refusal m).or (some (.outcome .sinkClosed))) (r : Record) :
    r.fate p stream stop late = (r.fate p stream stop refusal).closed := by
  have hsend (last : Record) (ms : List Message) : send late last ms = (send refusal last ms).closed := by
    cases ms with
    | nil => rfl
    | cons m ms =>
      rw [send, send, closed]
      cases refusal m <;> rfl
  cases r with
  | ended ending => rfl
  | going message buffer news =>
    cases stop with
    | some outcome => rfl
    | none => exact hsend _ _

/-- What comes behind all that a handler has before it. -/
theorem spent_arrive (p : Partitioner) (stream : String) (refusal : Message → Option Ending)
    (message : Option Message) (buffer : Bytes) (news more : News) :
    let cut := p.cut (buffer ++ news.bytes)
    ∃ later messages,
      fate p stream none refusal (going message buffer (news.append more)) =
        send refusal later
          ((message.toList ++ cut.frames.map (·.message stream)) ++ messages) ∧
      ((spent cut news).arrive more).fate p stream none refusal = send refusal later messages := by
  intro cut
  cases hlast : news.last with
  | some outcome =>
    refine ⟨spent cut news, [], ?_, ?_⟩
    · rw [News.append_of_last hlast, List.append_nil]
      rfl
    · unfold spent
      rw [hlast]
      cases cut.fault <;> rfl
  | none =>
    rw [News.append_of_open hlast, fate]
    dsimp only [News.behind]
    rw [← List.append_assoc]
    cases hfault : cut.fault with
    | some e =>
      obtain ⟨e', _, hcut⟩ := Partitioner.cut_append_of_fault hfault more.bytes
      refine ⟨ended (.outcome .malformed), [], ?_, ?_⟩
      · rw [hcut, List.append_nil]
        rfl
      · rw [spent, hfault]
        rfl
    | none =>
      let rest := p.cut (cut.rest ++ more.bytes)
      refine ⟨spent rest more, rest.frames.map (·.message stream), ?_, ?_⟩
      · rw [Partitioner.cut_append, Cut.behind_frames, List.map_append, List.append_assoc]
        rfl
      · rw [spent, hfault, hlast]
        rfl

/-- What comes while a handler has things to do may as well come when they are done. -/
theorem fate_arrive (r : Record) (more : News) :
    (r.arrive more).fate p stream stop refusal =
      (((r.fate p stream stop refusal).record.arrive more).fate p stream stop refusal).behind
        (r.fate p stream stop refusal).messages := by
  cases r with
  | ended ending => rfl
  | going message buffer news =>
    cases stop with
    | some outcome => rfl
    | none =>
      obtain ⟨later, messages, hfate, hgoes⟩ :=
        spent_arrive p stream refusal message buffer news more
      let next (s : Record) : Fate := (s.arrive more).fate p stream none refusal
      have settled (ending : Ending) : next (ended ending) = ⟨[], ended ending⟩ := rfl
      rw [arrive, hfate]
      exact send_append settled hgoes _

end Record

namespace Connection

variable {c : Connection} {signals : Signals} {sink : Sink} {left : Nat}

theorem record_of_reading (h : c.phase = .reading) :
    c.record = .going none c.reader.decoder.buffer (Read.newsOf c.arrived) := by
  rw [record, h]

theorem record_of_routing {m : Message} {inLine : Bool} (h : c.phase = .routing m inLine) :
    c.record = .going (some m) c.reader.decoder.buffer (Read.newsOf c.arrived) := by
  rw [record, h]

theorem record_of_unstarted (h : c.phase = .unstarted) :
    c.record = .going none c.reader.decoder.buffer (Read.newsOf c.arrived) := by
  rw [record, h]

/-- Who runs stops at a signal. -/
theorem fate_of_running (running : c.isRunning = true) (p : Partitioner) (stream : String)
    (outcome : Outcome) (refusal : Message → Option Ending) :
    c.record.fate p stream (some outcome) refusal = ⟨[], .ended (.outcome outcome)⟩ := by
  rcases isRunning_cases running with hp | ⟨m, inLine, hp⟩
  · rw [record_of_reading hp]
    rfl
  · rw [record_of_routing hp]
    rfl

/-- Who makes a step has not ended. -/
theorem record_open_of_step {g : Handled} (hs : c.step signals sink left = some g) :
    c.record.ending? = none := by
  refine c.record_ending_eq_none_iff.mpr ?_
  cases he : c.isEnded with
  | false => rfl
  | true =>
    rw [step_of_ended he] at hs
    cases hs

/-- The first step under a signal to stop is the last one, but for that of a handler which has yet to
begin. -/
theorem step_at_signal {g : Handled} {outcome : Outcome} (stop : signals.stop? = some outcome)
    (hs : c.step signals sink left = some g) :
    g.connection.isEnded = true ∨ g.connection.record = c.record ∧ g.sink = sink := by
  rcases unstarted_or_running hs with hu | running
  · right
    simp only [step, hu, Option.some.injEq] at hs
    subst hs
    rw [record_of_unstarted hu]
    exact ⟨rfl, rfl⟩
  · obtain rfl := step_interrupts stop running hs
    exact .inl rfl

theorem watch_eq_none {move : Option Handled}
    (h : c.watch signals sink left move = none) : signals.stop? = none ∧ move = none := by
  unfold watch at h
  split at h
  · contradiction
  · rename_i hstop
    split at h
    · contradiction
    · exact ⟨hstop, h⟩

/-- The only thing that a message can wait for is a place. -/
theorem route_isSome (c : Connection) (unbounded : sink.isBounded = false) (m : Message)
    (inLine : Bool) (left : Nat) : (c.route sink m inLine left).isSome = true := by
  have hoffer := Sink.offer_unbounded unbounded c.id m
  unfold route
  rw [unbounded]
  cases ho : sink.offer c.id m with
  | mk offer sink' =>
    rw [ho] at hoffer
    cases offer with
    | accepted | refused | panicked => rfl
    | waits => exact absurd rfl hoffer

end Connection

namespace Chronicle

variable {p : Partitioner} {stream : String} {ch : Chronicle} {bytes : Bytes} {taken : List Frame}
variable {signals : Signals} {sink : Sink} {left : Nat} {g : Handled}
variable {stop : Option Outcome} {refusal : Message → Option Ending}

theorem Kept.going (h : ch.Kept p stream bytes taken) (open_ : ch.connection.isEnded = false) :
    Going p ch.connection.reader bytes taken := by
  have hstands := h.stands
  unfold Stands at hstands
  unfold Connection.isEnded at open_
  cases hp : ch.connection.phase with
  | unstarted | reading | routing =>
    rw [hp] at hstands
    exact hstands.1
  | ended ending => simp [hp] at open_

/-- What a look at the source has come to, of the news that there were. -/
theorem fate_reached {r : MessageReader} {buf : Bytes} {last : List Read} {message : Option Message}
    (reached : r.Reaches (ch.connection.within left) buf last) :
    (Record.going message r.decoder.buffer (Read.newsOf ch.connection.arrived)).fate p stream stop
        refusal =
      (Record.going message buf (Read.newsOf (last ++ ch.connection.beyond left))).fate p stream stop
        refusal := by
  obtain ⟨more, hsup, rfl⟩ := reached
  rw [← ch.connection.within_append_beyond left, Read.newsOf_append, hsup.newsOf, News.behind_append,
    ← Read.newsOf_append, Record.fate_behind]

theorem newsOf_next {read : Read} {last rest more : List Read}
    (next : Afterwards.waits.next last = (read, rest)) :
    Read.newsOf (last ++ more) = read.news.append (Read.newsOf (rest ++ more)) := by
  cases last with
  | nil =>
    cases next
    rfl
  | cons first last =>
    cases next
    rfl

theorem newsOf_last {read : Read} {last rest more : List Read} {outcome : Outcome}
    (next : Afterwards.waits.next last = (read, rest)) (hl : read.news = { last := some outcome }) :
    Read.newsOf (last ++ more) = { last := some outcome } := by
  rw [newsOf_next next, hl]
  rfl

/-- A look at the source. -/
theorem Kept.read_fate (h : ch.Kept p stream bytes taken) (reading : ch.connection.phase = .reading)
    (hr : ch.connection.read signals sink left = some g) :
    ch.connection.record.fate p stream none refusal = g.connection.record.fate p stream none refusal := by
  have hg := h.going (Connection.isEnded_of_running (Connection.isRunning_of_reading reading))
  obtain ⟨item, r, rest, hpoll, hans, _, hakin, hleaves⟩ :=
    hg.poll (sink.holdsFrom ch.connection.id) (ch.connection.within left)
  rw [Connection.record_of_reading reading]
  simp only [Connection.read, hpoll] at hr
  cases hans with
  | message reached found kept going fine =>
    obtain rfl := Option.some.inj hr
    rw [h.partitioner_eq] at found
    rw [fate_reached reached, Record.fate_of_found found, ← h.stream_eq, ← kept]
    rfl
  | malformed reached refused kept rest_eq =>
    obtain rfl := Option.some.inj hr
    rw [h.partitioner_eq] at refused
    rw [fate_reached reached, Record.fate_of_malformed refused]
    rfl
  | pending reached quiet next kept going fine =>
    dsimp only at hr
    split at hr
    · contradiction
    · obtain rfl := Option.some.inj hr
      rw [fate_reached reached, newsOf_next next, ← kept]
      refine congrArg _ (Eq.symm ?_)
      exact Connection.record_of_reading reading
  | failed reached quiet next kept =>
    obtain rfl := Option.some.inj hr
    have hlacks : r.decoder.partitioner.Lacks r.decoder.buffer := hleaves
    rw [kept, hakin.2, h.partitioner_eq] at hlacks
    rw [fate_reached reached, newsOf_last next rfl, Record.fate_of_lacks hlacks rfl]
    rfl
  | trailing reached waits some next dropped closed =>
    obtain rfl := Option.some.inj hr
    rw [h.partitioner_eq] at waits
    rw [fate_reached reached, newsOf_last next rfl, Record.fate_of_lacks ⟨_, waits⟩ rfl]
    rfl
  | ended reached next none kept closed fine =>
    obtain rfl := Option.some.inj hr
    have hnil := none.resolve_right (by simp [hg.going])
    subst hnil
    rw [fate_reached reached, newsOf_last next rfl, Record.fate_of_lacks ⟨0, p.extract_nil 0⟩ rfl]
    rfl

/-- A step takes nothing from the fate of a handler but what it sends. -/
theorem Kept.step_fate (h : ch.Kept p stream bytes taken)
    (hs : ch.connection.step signals sink left = some g) :
    ch.connection.record.fate p stream signals.stop? sink.refusal? =
      (g.connection.record.fate p stream signals.stop? sink.refusal?).behind
        ((sink.gained g.sink).map Delivery.message) := by
  have hsilent (same : g.sink.sent = sink.sent)
      (hf : ch.connection.record.fate p stream signals.stop? sink.refusal? =
        g.connection.record.fate p stream signals.stop? sink.refusal?) :
      ch.connection.record.fate p stream signals.stop? sink.refusal? =
        (g.connection.record.fate p stream signals.stop? sink.refusal?).behind
          ((sink.gained g.sink).map Delivery.message) := by
    rw [Sink.gained_of_same same, List.map_nil, Fate.behind_nil, hf]
  cases hstop : signals.stop? with
  | some outcome =>
    rw [hstop] at hsilent
    rcases Connection.unstarted_or_running hs with hu | running
    · simp only [Connection.step, hu, Option.some.injEq] at hs
      subst hs
      apply hsilent rfl
      rw [Connection.record_of_unstarted hu]
      rfl
    · obtain rfl := Connection.step_interrupts hstop running hs
      apply hsilent rfl
      rw [Connection.fate_of_running running]
      rfl
  | none =>
    rw [hstop] at hsilent
    cases Connection.step_steps hs with
    | opened unstarted =>
      apply hsilent rfl
      rw [Connection.record_of_unstarted unstarted]
      rfl
    | interrupted running stop => cases hstop.symm.trans stop
    | gaveUp running lost new =>
      apply hsilent rfl
      rfl
    | read reading hr =>
      apply hsilent
      · rw [(Connection.read_frame hr).1]
      · exact h.read_fate reading hr
    | accepted routing offer =>
      rename_i m inLine sink'
      have hrefusal := sink.offer_refusal ch.connection.id m
      rw [offer] at hrefusal
      have hsent : sink'.sent = [⟨ch.connection.id, m⟩] ++ sink.sent := (Sink.offer_accepted offer).2.1
      rw [Sink.gained_of_append hsent, Connection.record_of_routing routing,
        Record.fate_of_taken hrefusal]
      rfl
    | linedUp routing offer =>
      apply hsilent (Sink.offer_waits offer).2.1
      rw [Connection.record_of_routing routing]
      rfl
    | refused routing offer =>
      rename_i m inLine sink'
      have hrefusal := sink.offer_refusal ch.connection.id m
      rw [offer] at hrefusal
      obtain rfl := Sink.offer_refused offer
      apply hsilent rfl
      rw [Connection.record_of_routing routing, Record.fate_of_refused hrefusal]
      rfl
    | panicked routing offer =>
      rename_i m inLine sink' what
      have hrefusal := sink.offer_refusal ch.connection.id m
      rw [offer] at hrefusal
      obtain rfl := Sink.offer_panicked offer
      apply hsilent rfl
      rw [Connection.record_of_routing routing, Record.fate_of_refused hrefusal]
      rfl

/-- Who has nothing to read lacks bytes. -/
theorem Kept.lacks_of_idle (h : ch.Kept p stream bytes taken) (reading : ch.connection.phase = .reading)
    (rest : ch.connection.read signals sink left = none) :
    ch.connection.within left = [] ∧ p.Lacks ch.connection.reader.decoder.buffer := by
  have hg := h.going (Connection.isEnded_of_running (Connection.isRunning_of_reading reading))
  obtain ⟨item, r, later, hpoll, hans, _, hakin, hleaves⟩ :=
    hg.poll (sink.holdsFrom ch.connection.id) (ch.connection.within left)
  simp only [Connection.read, hpoll] at rest
  cases hans with
  | message | malformed | failed | trailing | ended => cases rest
  | pending reached quiet next kept going fine =>
    dsimp only at rest
    have hnone : ch.connection.within left = [] := by
      split at rest
      · rename_i hempty
        exact List.isEmpty_iff.mp (Bool.and_eq_true_iff.mp hempty).1
      · cases rest
    have hlacks : r.decoder.partitioner.Lacks r.decoder.buffer := hleaves
    obtain ⟨more, hsup, hbuf⟩ := reached
    have hmore : more = [] := by
      have hjoined := hsup.joined
      rw [hnone, Read.joined_nil] at hjoined
      exact (List.append_eq_nil_iff.mp hjoined.symm).1
    rw [kept, hbuf, hmore, List.append_nil, hakin.2, h.partitioner_eq] at hlacks
    exact ⟨hnone, hlacks⟩

theorem Kept.fate_of_idle (h : ch.Kept p stream bytes taken) (reading : ch.connection.phase = .reading)
    (heard : ch.connection.within left = ch.connection.arrived)
    (rest : ch.connection.read signals sink left = none) :
    ch.connection.record.fate p stream none refusal = ⟨[], ch.connection.record⟩ := by
  obtain ⟨hnone, hlacks⟩ := h.lacks_of_idle reading rest
  rw [Connection.record_of_reading reading, ← heard, hnone, Record.fate_of_lacks hlacks rfl]
  rfl

/-- A handler at rest has come to its fate: it has ended, or waits for bytes that nobody has sent. -/
theorem Kept.fate_of_rest (h : ch.Kept p stream bytes taken) (unbounded : sink.isBounded = false)
    (heard : ch.connection.within left = ch.connection.arrived)
    (rest : ch.connection.step signals sink left = none) (refusal : Message → Option Ending) :
    ch.connection.record.fate p stream signals.stop? refusal = ⟨[], ch.connection.record⟩ := by
  unfold Connection.step at rest
  cases hp : ch.connection.phase with
  | unstarted => simp [hp] at rest
  | ended ending =>
    rw [Connection.record, hp]
    rfl
  | reading =>
    rw [hp] at rest
    obtain ⟨hcalm, hnone⟩ := Connection.watch_eq_none rest
    rw [hcalm]
    exact h.fate_of_idle hp heard hnone
  | routing m inLine =>
    rw [hp] at rest
    obtain ⟨_, hnone⟩ := Connection.watch_eq_none rest
    have hmoves := ch.connection.route_isSome unbounded m inLine left
    rw [hnone] at hmoves
    cases hmoves

end Chronicle

end FrameIntake
