import FrameIntake.Proofs.Intake.Course

/-!
The view that an intake has of one connection. What happens from outside acts on it alone (`view_act`). What
tasks do takes the connection further on its course or leaves it where it is (`forth_of_apart`), whether the
task is its own handler, another one or the acceptor.
-/

namespace FrameIntake

namespace Intake

variable {id : Nat} {cs ds : List Connection}

/-- The record of the first connection numbered `id`. -/
def recordAmong (cs : List Connection) (id : Nat) : Option Record :=
  (cs.find? (·.id = id)).map Connection.record

theorem recordAmong_append (cs ds : List Connection) (id : Nat) :
    recordAmong (cs ++ ds) id = (recordAmong cs id).or (recordAmong ds id) := by
  rw [recordAmong, List.find?_append, Option.map_or]
  rfl

theorem recordAmong_cons (c : Connection) (cs : List Connection) (id : Nat) :
    recordAmong (c :: cs) id = if c.id = id then some c.record else recordAmong cs id := by
  by_cases hc : c.id = id <;> simp [recordAmong, hc]

theorem recordAmong_map {f : Connection → Connection} {update : Record → Record}
    (hid : ∀ c, (f c).id = c.id) (hrecord : ∀ c, c.id = id → (f c).record = update c.record)
    (cs : List Connection) :
    recordAmong (cs.map f) id = (recordAmong cs id).map update := by
  induction cs with
  | nil => rfl
  | cons c cs ih =>
    rw [List.map_cons, recordAmong_cons, recordAmong_cons, hid, ih]
    split
    · rename_i hc
      rw [hrecord c hc]
      rfl
    · rfl

theorem recordAmong_of_ne (h : ∀ c ∈ cs, c.id ≠ id) : recordAmong cs id = none := by
  rw [recordAmong, Option.map_eq_none_iff, List.find?_eq_none]
  intro c hc
  simpa using h c hc

/-- Of the connection numbered `id`, accepted or not. -/
def recordOf (w : Intake) (id : Nat) : Option Record := recordAmong w.peers id

variable {w : Intake}

theorem recordAmong_middle {front : List Connection} {c : Connection} (back : List Connection)
    (new : ∀ d ∈ front, d.id ≠ c.id) :
    recordAmong (front ++ c :: back) id =
      if c.id = id then some c.record else recordAmong (front ++ back) id := by
  rw [recordAmong_append, recordAmong_cons, recordAmong_append]
  split
  · rename_i hc
    rw [recordAmong_of_ne fun d hd => hc ▸ new d hd, Option.none_or]
  · rfl

theorem new_of_split (numbers : w.ids.Nodup) {front back : List Connection} {c : Connection}
    (split : w.connections = front ++ c :: back) : ∀ d ∈ front, d.id ≠ c.id := by
  intro d hd
  have hnodup := nodup_connections numbers
  rw [split, List.map_append, List.map_cons] at hnodup
  exact (List.nodup_append.mp hnodup).2.2 _ (List.mem_map_of_mem hd) _ List.mem_cons_self

theorem recordOf_of_mem (numbers : w.ids.Nodup) {c : Connection} (hc : c ∈ w.connections) :
    w.recordOf c.id = some c.record := by
  obtain ⟨front, back, hcs⟩ := List.append_of_mem hc
  have hnew := new_of_split numbers hcs
  rw [recordOf, peers, hcs, List.append_assoc, List.cons_append, recordAmong_middle _ hnew, if_pos rfl]

/-- A handler's step is one of the connection numbered `id`, or of no consequence to it. -/
theorem stepConnection_records {v : Intake} {n : Nat} (numbers : w.ids.Nodup)
    (h : w.stepConnection n = some v) (id : Nat) :
    (∃ c ∈ w.connections, ∃ g, c.id = id ∧ c.step w.signals w.sink w.left = some g ∧
      w.recordOf id = some c.record ∧ v.recordOf id = some g.connection.record ∧ v.sink = g.sink) ∨
    v.recordOf id = w.recordOf id ∧ ∀ d ∈ w.sink.gained v.sink, d.sender ≠ id := by
  obtain ⟨front, c, back, g, hcs, _, hs, rfl⟩ := stepConnection_split h
  have hid := (Connection.step_sink hs).1
  have hnew := new_of_split numbers hcs
  have hbefore : w.recordOf id = if c.id = id then some c.record else
      recordAmong (front ++ (back ++ w.backlog.filterMap Arrival.connection?)) id := by
    rw [recordOf, peers, hcs, List.append_assoc, List.cons_append, recordAmong_middle _ hnew]
  have hafter : (w.handled (g.supervised c.phase) (front ++ g.connection :: back)).recordOf id =
      if c.id = id then some g.connection.record else
      recordAmong (front ++ (back ++ w.backlog.filterMap Arrival.connection?)) id := by
    have hpeers : (w.handled (g.supervised c.phase) (front ++ g.connection :: back)).peers =
        front ++ g.connection :: (back ++ w.backlog.filterMap Arrival.connection?) := by
      simp [peers, handled, report]
    rw [recordOf, hpeers, recordAmong_middle _ (hid ▸ hnew), hid]
  rw [handled_sink, hbefore, hafter]
  by_cases hc : c.id = id
  · rw [if_pos hc, if_pos hc]
    exact .inl ⟨c, by simp [hcs], g, hc, hs, rfl, rfl, rfl⟩
  · rw [if_neg hc, if_neg hc]
    refine .inr ⟨rfl, ?_⟩
    intro d hd
    rw [Connection.sender_of_gained hs d hd]
    exact hc

/-- A connection whose number was given has a record. -/
theorem recordOf_of_ids (h : id ∈ w.ids) : ∃ r, w.recordOf id = some r := by
  obtain ⟨c, hc, rfl⟩ := List.mem_map.mp h
  have hfound : (w.peers.find? (·.id = c.id)).isSome = true := by
    rw [List.find?_isSome]
    exact ⟨c, hc, by simp⟩
  obtain ⟨d, hd⟩ := Option.isSome_iff_exists.mp hfound
  exact ⟨d.record, by rw [recordOf, recordAmong, hd, Option.map_some]⟩

theorem recordOf_connect (w : Intake) (c : Connection) (id : Nat) :
    (w.act (.occur (.connect c))).recordOf id =
      (w.recordOf id).or (if c.id = id then some c.record else none) := by
  rw [recordOf, (w.act_frame (.occur (.connect c))).2, recordAmong_append,
    recordAmong_cons]
  rfl

theorem recordOf_arrive (w : Intake) (peer : Nat) (read : Read) (id : Nat) :
    (w.act (.occur (.arrive peer read))).recordOf id =
      if peer = id then (w.recordOf id).map (Record.arrive read.news) else w.recordOf id := by
  rw [recordOf, (w.act_frame (.occur (.arrive peer read))).2]
  have hid (c : Connection) : (if c.id = peer then c.arrive read else c).id = c.id := by
    split
    · exact c.arrive_id read
    · rfl
  split
  · rename_i hpeer
    apply recordAmong_map hid
    intro c hc
    rw [if_pos (hc.trans hpeer.symm)]
    exact c.record_arrive read
  · rename_i hpeer
    have hsame : (recordAmong w.peers id).map (fun r => r) = w.recordOf id := Option.map_id'
    rw [← hsame]
    apply recordAmong_map hid
    intro c hc
    rw [if_neg fun he => hpeer (he.symm.trans hc)]

theorem recordOf_hear (w : Intake) (id : Nat) : (w.act .hear).recordOf id = w.recordOf id := by
  have hconnections : recordAmong (w.connections.map Connection.hear) id =
      (recordAmong w.connections id).map fun r => r :=
    recordAmong_map Connection.hear_id (fun c _ => c.record_hear) w.connections
  obtain ⟨hconn, hbacklog⟩ := w.act_frame .hear
  rw [recordOf, peers, hconn, hbacklog, recordAmong_append, hconnections,
    Option.map_id', recordOf, peers, recordAmong_append]

end Intake

namespace Ledger

open Intake (Deed)

variable {p : Partitioner} {stream : String} {id : Nat} {l : Ledger} {deed : Deed}

def view (id : Nat) (l : Ledger) : View :=
  { signals := l.intake.signals
    standing := { record := l.intake.recordOf id, messages := messagesOf l.accepted id }
    fault := l.intake.sink.fault
    closed := l.intake.sink.closed }

/-- What happens from outside sends no messages. -/
theorem view_of_outer (outer : deed.isInner = false) (admitted : l.intake.admits p stream deed = true) :
    (l.act p stream deed).view id =
      { signals := (l.intake.act deed).signals
        standing := { record := (l.intake.act deed).recordOf id, messages := messagesOf l.accepted id }
        fault := (l.intake.act deed).sink.fault
        closed := (l.intake.act deed).sink.closed } := by
  have hsilent : l.intake.sink.gained (l.intake.act deed).sink = [] := by
    apply gained_act l.intake
    rintro task rfl
    cases outer
  rw [act_of_admits admitted, view, hsilent, List.append_nil]

/-- A connection that comes has no record yet, unless it is refused. -/
theorem view_connect (l : Ledger) (c : Connection) :
    (l.act p stream (.occur (.connect c))).view id =
      (l.view id).after p stream id (.occur (.connect c)) := by
  cases hc : l.intake.admits p stream (.occur (.connect c)) with
  | true =>
    have hfresh : c = { Connection.start c.id c.peer p stream with source := c.source } := by
      rw [Intake.admits, Bool.and_eq_true, decide_eq_true_eq, decide_eq_true_eq] at hc
      exact hc.2
    rw [view_of_outer rfl hc, Intake.recordOf_connect, View.after]
    by_cases hid : c.id = id
    · rw [if_pos hid, if_pos ⟨hid, hfresh⟩]
      rfl
    · rw [if_neg hid, if_neg fun h => hid h.1, Option.or_none]
      rfl
  | false =>
    rw [Ledger.act, hc, if_neg Bool.false_ne_true, View.after]
    split
    · rename_i h
      obtain ⟨rfl, hfresh⟩ := h
      have hknown : c.id ∈ l.intake.ids := by
        rw [Intake.admits, decide_eq_true hfresh, Bool.and_true] at hc
        simpa using hc
      obtain ⟨r, hr⟩ := Intake.recordOf_of_ids hknown
      have hcome : (l.view c.id).standing.come (some c.record) = (l.view c.id).standing := by
        rw [Standing.come, view, hr, Option.some_or]
      rw [hcome]
    · rfl

/-- What happens from outside acts on the view alone. -/
theorem view_act (outer : deed.isInner = false) (l : Ledger) :
    (l.act p stream deed).view id = (l.view id).after p stream id deed := by
  cases deed with
  | move | hear | arrange => cases outer
  | drain =>
    rw [view_of_outer outer rfl]
    simp only [Intake.act, Intake.receiveUnbounded, Sink.receiveUnbounded]
    split <;> rfl
  | occur event =>
    cases event with
    | connect c => exact l.view_connect c
    | acceptError e =>
      have hpeers := (l.intake.act_frame (.occur (.acceptError e))).2
      rw [view_of_outer outer rfl, Intake.recordOf, hpeers]
      rfl
    | arrive peer read =>
      rw [view_of_outer outer rfl, Intake.recordOf_arrive, View.after]
      split <;> rfl
    | receive count =>
      obtain ⟨awake, hact⟩ := l.intake.act_receive count
      rw [view_of_outer outer rfl, hact]
      rfl
    | turnFuse | letGoOfFuse | cancel | closeListener | closeSink =>
      rw [view_of_outer outer rfl]
      rfl

theorem view_of_move (p : Partitioner) (stream : String) (id : Nat) {task : Task} {v : Intake}
    (hm : l.intake.move task = some v) :
    (l.act p stream (.move task)).view id =
      { signals := v.signals
        standing :=
          { record := v.recordOf id
            messages := messagesOf l.accepted id ++ messagesOf (l.intake.sink.gained v.sink) id }
        fault := v.sink.fault
        closed := v.sink.closed } := by
  have hact : l.intake.act (.move task) = v := by
    rw [Intake.act, hm]
    rfl
  rw [act_of_admits rfl, hact, ← messagesOf_append]
  rfl

/-- States that a deed takes a connection further on its course, and only if it was let in. -/
structure Forth (p : Partitioner) (stream : String) (id : Nat) (l l' : Ledger) : Prop where
  evolves : (l.view id).Evolves p stream (l'.view id)
  aside : id ∉ l'.intake.handlers → (l'.view id).standing = (l.view id).standing

theorem Forth.of_same {l' : Ledger} (signals : (l'.view id).signals = (l.view id).signals)
    (fault : (l'.view id).fault = (l.view id).fault) (closed : (l'.view id).closed = (l.view id).closed)
    (standing : (l'.view id).standing = (l.view id).standing) : l.Forth p stream id l' :=
  ⟨.of_same signals fault closed standing, fun _ => standing⟩

/-- A step of the connection's own handler. -/
theorem Kept.step_view (h : l.Kept p stream) {c : Connection} {g : Handled} {a : View}
    (hc : c ∈ l.intake.connections) (hs : c.step l.intake.signals l.intake.sink l.intake.left = some g)
    (signals : a.signals = l.intake.signals) (fault : a.fault = g.sink.fault)
    (closed : a.closed = g.sink.closed)
    (standing : a.standing =
      { record := some g.connection.record
        messages := messagesOf l.accepted c.id ++ messagesOf (l.intake.sink.gained g.sink) c.id }) :
    (l.view c.id).Evolves p stream a := by
  obtain ⟨ch, bytes, taken, hkept, rfl, _⟩ := (h.told.chronicled c (List.mem_append_left _ hc)).kept
  have hbefore : (l.view ch.connection.id).standing =
      { record := some ch.connection.record, messages := messagesOf l.accepted ch.connection.id } := by
    rw [view, Intake.recordOf_of_mem h.told.nodup hc]
  have hfault : a.fault = (l.view ch.connection.id).fault := fault.trans (Connection.step_kind hs).1
  have hclose : a.closed = (l.view ch.connection.id).closed := closed.trans (Connection.step_sink hs).2.1
  have hrefusal : a.refusal = l.intake.sink.refusal? := View.refusal_eq hfault hclose
  have hfate : a.standing.fate p stream l.intake.signals.stop? a.refusal =
      (l.view ch.connection.id).standing.fate p stream l.intake.signals.stop? l.intake.sink.refusal? := by
    rw [hrefusal, hbefore, standing, messagesOf_of_sender (Connection.sender_of_gained hs)]
    rw [Standing.fate_of_some rfl, Standing.fate_of_some rfl, hkept.step_fate hs]
    exact congrArg _ (List.append_assoc ..)
  refine ⟨signals, hfault, hclose, ?_, ?_⟩
  · rw [View.course, signals]
    exact hfate
  · intro hopen
    have hruns : (l.view ch.connection.id).standing.ending? = none := by
      rw [hbefore]
      exact Connection.record_open_of_step hs
    refine ⟨hruns, ?_⟩
    cases hstop : l.intake.signals.stop? with
    | none =>
      rw [hstop] at hfate
      exact hfate
    | some outcome =>
      -- Who does not end at a signal had yet to begin, and has sent nothing.
      rcases Connection.step_at_signal hstop hs with hended | ⟨hrecord, hsink⟩
      · rw [standing] at hopen
        cases hended.symm.trans (g.connection.record_ending_eq_none_iff.mp hopen)
      · have hsame : a.standing = (l.view ch.connection.id).standing := by
          rw [standing, hrecord, hsink, gained_self, hbefore]
          exact congrArg _ (List.append_nil _)
        rw [hsame, hrefusal]
        rfl

/-- The step of a handler takes its connection further on its course, and no other. -/
theorem stepConnection_forth (h : l.Kept p stream) {n : Nat} {v : Intake}
    (hm : l.intake.move (.connection n) = some v) (id : Nat) :
    l.Forth p stream id (l.act p stream (.move (.connection n))) := by
  have hview := view_of_move p stream id hm
  have hsignals : v.signals = l.intake.signals := (Intake.move_frame hm).1
  have hhandlers : v.handlers = l.intake.handlers := (Intake.stepConnection_apart hm).handlers
  have hact : (l.act p stream (.move (.connection n))).intake = v := by
    rw [act_of_admits rfl, Intake.act, hm]
    rfl
  rcases Intake.stepConnection_records h.told.nodup hm id with
    ⟨c, hc, g, rfl, hs, _, hafter, hsink⟩ | ⟨hrecord, hothers⟩
  · refine ⟨?_, ?_⟩
    · rw [hview]
      apply h.step_view hc hs hsignals (congrArg Sink.fault hsink) (congrArg Sink.closed hsink)
      rw [hafter, hsink]
    · intro hout
      rw [hact, hhandlers] at hout
      exact absurd (List.mem_map_of_mem hc) hout
  · obtain ⟨front, c, back, g, _, _, hs, hv⟩ := Intake.stepConnection_split hm
    have hsink : v.sink = g.sink := by rw [hv, Intake.handled_sink]
    apply Forth.of_same
    · rw [hview]
      exact hsignals
    · rw [hview, hsink]
      exact (Connection.step_kind hs).1
    · rw [hview, hsink]
      exact (Connection.step_sink hs).2.1
    · rw [hview, hrecord, messagesOf_of_ne hothers, List.append_nil]
      rfl

/-- Nothing that tasks do leads off the course. -/
theorem act_forth (h : l.Kept p stream) (inner : deed.isInner = true) (id : Nat) :
    l.Forth p stream id (l.act p stream deed) := by
  have hadmitted := l.intake.admits_of_inner p stream inner
  cases deed with
  | occur event => cases inner
  | drain => cases inner
  | hear =>
    rw [act_of_admits hadmitted]
    refine .of_same rfl rfl rfl ?_
    rw [view, gained_act l.intake (by simp), List.append_nil, Intake.recordOf_hear]
    rfl
  | arrange awake spent turns paused =>
    rw [act_of_admits hadmitted]
    refine .of_same rfl rfl rfl ?_
    rw [view, gained_act l.intake (by simp), List.append_nil]
    rfl
  | move task =>
    cases hm : l.intake.move task with
    | none =>
      have hact : l.intake.act (.move task) = l.intake := by
        rw [Intake.act, hm]
        rfl
      rw [act_of_admits hadmitted, hact]
      refine .of_same rfl rfl rfl ?_
      rw [view, gained_self, List.append_nil]
      rfl
    | some v =>
      cases task with
      | connection n => exact stepConnection_forth h hm id
      | acceptor =>
        obtain ⟨hpeers, hsink, _⟩ := Intake.stepAcceptor_frame hm
        have hview := view_of_move p stream id hm
        apply Forth.of_same
        · rw [hview]
          exact (Intake.move_frame hm).1
        · rw [hview, hsink]
          rfl
        · rw [hview, hsink]
          rfl
        · rw [hview, Intake.recordOf, hpeers, hsink, gained_self]
          exact congrArg (Standing.mk _) (List.append_nil _)

/-- What does not reach a connection leads nobody off its course. -/
theorem forth_of_apart (h : l.Kept p stream) (apart : deed.reaches (.connection id) = false) :
    l.Forth p stream id (l.act p stream deed) := by
  cases hinner : deed.isInner with
  | true => exact act_forth h hinner id
  | false =>
    have hview : (l.act p stream deed).view id = l.view id := by
      rw [view_act hinner, View.after_of_apart apart]
    exact .of_same (by rw [hview]) (by rw [hview]) (by rw [hview]) (by rw [hview])

theorem handlers_act (l : Ledger) (deed : Deed) :
    l.intake.handlers <+: (l.act p stream deed).intake.handlers := by
  rw [act]
  split
  · exact (l.intake.act_ids deed).2
  · exact List.prefix_refl _

end Ledger

end FrameIntake
