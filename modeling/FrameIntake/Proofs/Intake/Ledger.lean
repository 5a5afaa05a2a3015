import FrameIntake.Proofs.Connection.Account
import FrameIntake.Proofs.Intake.Peers

/-!
A sink that several connections share. What its receiver gets is an interleaving of what the handlers
have sent, each of which has a chronicle of its own (`run_told`).
-/

namespace FrameIntake

/-- An intake with what was sent to its connections and through its sink. -/
structure Ledger where
  intake : Intake
  /-- All bytes that have arrived at the connection of a number. -/
  sent : Nat → Bytes := fun _ => []
  accepted : List Delivery := []
  received : List Message := []

namespace Ledger

open Intake (Deed)

/-- The messages of one sender. -/
def messagesOf (deliveries : List Delivery) (sender : Nat) : List Message :=
  (deliveries.filter (·.sender = sender)).map Delivery.message

def sentAfter (sent : Nat → Bytes) : Deed → Nat → Bytes
  | .occur (.connect c), n => if n = c.id then [] else sent n
  | .occur (.arrive id read), n => if n = id then sent n ++ read.bytes else sent n
  | _, n => sent n

/-- What a deed brings to the receiver. -/
def receivedBy (w : Intake) : Deed → List Message
  | .occur (.receive count) => (w.receive count).1
  | .drain => w.receiveUnbounded.1
  | _ => []

def act (p : Partitioner) (stream : String) (l : Ledger) (deed : Deed) : Ledger :=
  if l.intake.admits p stream deed then
    { intake := l.intake.act deed
      sent := sentAfter l.sent deed
      accepted := l.accepted ++ l.intake.sink.gained (l.intake.act deed).sink
      received := l.received ++ receivedBy l.intake deed }
  else l

def run (p : Partitioner) (stream : String) (l : Ledger) (deeds : List Deed) : Ledger :=
  deeds.foldl (act p stream) l

/-- Before anything has connected. The sink may be of any kind. -/
def start (localAddress : Option String) (signals : Signals) (free : Option Nat) (fault : Option Fault)
    (closed : Bool) : Ledger :=
  { intake := { localAddress, signals, sink := { free, fault, closed } } }

variable {p : Partitioner} {stream : String} {l : Ledger} {w : Intake} {c : Connection}

theorem act_of_admits {deed : Deed} (admitted : l.intake.admits p stream deed = true) :
    l.act p stream deed =
      { intake := l.intake.act deed
        sent := sentAfter l.sent deed
        accepted := l.accepted ++ l.intake.sink.gained (l.intake.act deed).sink
        received := l.received ++ receivedBy l.intake deed } := by
  rw [act, if_pos admitted]

/-- What every deed that is admitted keeps, a run keeps. -/
theorem run_keeps {P : Ledger → Prop}
    (keeps : ∀ l deed, l.intake.admits p stream deed = true → P l → P (l.act p stream deed))
    (h : P l) (deeds : List Deed) : P (l.run p stream deeds) := by
  induction deeds generalizing l with
  | nil => exact h
  | cons deed deeds ih =>
    apply ih
    by_cases admitted : l.intake.admits p stream deed = true
    · exact keeps l deed admitted h
    · rw [act, if_neg admitted]
      exact h

/-- A connection has a chronicle that says the same as the ledger. -/
def Chronicled (p : Partitioner) (stream : String) (sent : Nat → Bytes) (accepted : List Delivery)
    (c : Connection) : Prop :=
  ∃ peer source entries,
    let ch := (Chronicle.start p stream c.id peer source).run entries
    ch.connection = c ∧ ch.sent = sent c.id ∧ ch.accepted = messagesOf accepted c.id

theorem messagesOf_append (ds es : List Delivery) (n : Nat) :
    messagesOf (ds ++ es) n = messagesOf ds n ++ messagesOf es n := by
  simp [messagesOf]

theorem messagesOf_of_sender {ds : List Delivery} {n : Nat} (h : ∀ d ∈ ds, d.sender = n) :
    messagesOf ds n = ds.map Delivery.message := by
  rw [messagesOf, List.filter_eq_self.mpr]
  intro d hd
  simpa using h d hd

theorem messagesOf_of_ne {ds : List Delivery} {n : Nat} (h : ∀ d ∈ ds, d.sender ≠ n) :
    messagesOf ds n = [] := by
  rw [messagesOf, List.filter_eq_nil_iff.mpr, List.map_nil]
  intro d hd
  simpa using h d hd

variable {sent sent' : Nat → Bytes} {accepted accepted' : List Delivery}

/-- What every chronicle keeps, a connection keeps that has one. -/
theorem Chronicled.kept (h : Chronicled p stream sent accepted c) :
    ∃ (ch : Chronicle) (bytes : Bytes) (taken : List Frame), ch.Kept p stream bytes taken ∧
      ch.connection = c ∧ ch.sent = sent c.id ∧ ch.accepted = messagesOf accepted c.id := by
  obtain ⟨peer, source, entries, htold⟩ := h
  have hstart : (Chronicle.start p stream c.id peer source).Kept p stream [] [] :=
    Chronicle.kept_start c.id peer source
  obtain ⟨bytes, taken, hkept⟩ := hstart.run entries
  exact ⟨_, bytes, taken, hkept, htold⟩

theorem Chronicled.frame (h : Chronicled p stream sent accepted c) (hs : sent' c.id = sent c.id)
    (ha : messagesOf accepted' c.id = messagesOf accepted c.id) :
    Chronicled p stream sent' accepted' c := by
  obtain ⟨peer, source, entries, hc, hsent, hacc⟩ := h
  exact ⟨peer, source, entries, hc, hsent.trans hs.symm, hacc.trans ha.symm⟩

/-- One more entry. -/
theorem Chronicled.entry (h : Chronicled p stream sent accepted c) (entry : Chronicle.Entry)
    {next : Connection} (hid : next.id = c.id)
    (hnext : ∀ ch : Chronicle, ch.connection = c → ch.sent = sent c.id →
      ch.accepted = messagesOf accepted c.id →
      (ch.act entry).connection = next ∧ (ch.act entry).sent = sent' c.id ∧
        (ch.act entry).accepted = messagesOf accepted' c.id) :
    Chronicled p stream sent' accepted' next := by
  obtain ⟨peer, source, entries, hc, hsent, hacc⟩ := h
  refine ⟨peer, source, entries ++ [entry], ?_⟩
  rw [hid, Chronicle.run, List.foldl_append]
  exact hnext _ hc hsent hacc

theorem Chronicled.arrive (h : Chronicled p stream sent accepted c) (read : Read)
    (hs : sent' c.id = sent c.id ++ read.bytes) :
    Chronicled p stream sent' accepted (c.arrive read) := by
  apply h.entry (.arrive read) (c.arrive_id read)
  rintro ch rfl hsent hacc
  exact ⟨rfl, by rw [hs, ← hsent]; rfl, hacc⟩

theorem Chronicled.hear (h : Chronicled p stream sent accepted c) :
    Chronicled p stream sent accepted c.hear := by
  apply h.entry .hear c.hear_id
  rintro ch rfl hsent hacc
  exact ⟨rfl, hsent, hacc⟩

theorem Chronicled.step {signals : Signals} {sink : Sink} {left : Nat} {g : Handled}
    (h : Chronicled p stream sent accepted c) (hs : c.step signals sink left = some g) :
    Chronicled p stream sent (accepted ++ sink.gained g.sink) g.connection := by
  apply h.entry (.step signals sink left) (Connection.step_sink hs).1
  rintro ch rfl hsent hacc
  rw [Chronicle.act, hs, messagesOf_append, messagesOf_of_sender (Connection.sender_of_gained hs), ← hacc]
  exact ⟨rfl, hsent, rfl⟩

/-- What is told of the connections. -/
structure Told (p : Partitioner) (stream : String) (w : Intake) (sent : Nat → Bytes)
    (accepted : List Delivery) : Prop where
  nodup : w.ids.Nodup
  chronicled : ∀ c ∈ w.peers, Chronicled p stream sent accepted c
  /-- Only who was accepted sends. -/
  senders : ∀ d ∈ accepted, d.sender ∈ w.connections.map Connection.id

/-- What was sent through a sink was received, is queued or was lost when the sink was closed. -/
def Through (sink : Sink) (accepted : List Delivery) (received : List Message) : Prop :=
  ∃ lost, received ++ (sink.queue ++ lost) = accepted.map Delivery.message ∧
    (sink.closed = false → lost = []) ∧ (sink.closed = true → sink.queue = [])

variable {sink sink' : Sink} {received : List Message}

theorem gained_of_length_le (h : sink'.sent.length ≤ sink.sent.length) : sink.gained sink' = [] := by
  rw [Sink.gained, Nat.sub_eq_zero_of_le h, List.take_zero, List.reverse_nil]

theorem gained_self (sink : Sink) : sink.gained sink = [] :=
  gained_of_length_le (Nat.le_refl _)

theorem Through.send (h : Through sink accepted received) {new : List Delivery}
    (closed : sink'.closed = sink.closed) (sent : sink'.sent = new ++ sink.sent)
    (silent : sink.closed = true → new = []) :
    Through sink' (accepted ++ sink.gained sink') received := by
  obtain ⟨lost, hall, hopen, hclosed⟩ := h
  have hq : sink'.queue = sink.queue ++ new.reverse.map Delivery.message := by
    simp [Sink.queue, sent]
  rw [Sink.gained_of_append sent]
  cases hc : sink.closed with
  | false =>
    obtain rfl := hopen hc
    refine ⟨[], ?_, fun _ => rfl, ?_⟩
    · rw [hq, List.map_append, ← hall]
      simp
    · intro h
      cases hc.symm.trans (closed.symm.trans h)
  | true =>
    obtain rfl := silent hc
    have hsame : sink'.queue = sink.queue := by simpa using hq
    refine ⟨lost, ?_, ?_, ?_⟩
    · rw [hsame, hall]
      simp
    · intro h
      cases hc.symm.trans (closed.symm.trans h)
    · intro _
      rw [hsame, hclosed hc]

theorem Through.receive (h : Through sink accepted received) (count : Nat) :
    Through (sink.receive count).2 accepted (received ++ (sink.receive count).1) := by
  obtain ⟨lost, hall, hopen, hclosed⟩ := h
  obtain ⟨htaken, hleft⟩ := sink.queue_receive count
  refine ⟨lost, ?_, hopen, ?_⟩
  · rw [htaken, hleft, List.append_assoc, ← List.append_assoc (sink.queue.take count),
      List.take_append_drop, hall]
  · intro hc
    rw [hleft, hclosed hc, List.drop_nil]

theorem Through.drain (h : Through sink accepted received) :
    Through sink.receiveUnbounded.2 accepted (received ++ sink.receiveUnbounded.1) := by
  obtain ⟨lost, hall, hopen, hclosed⟩ := h
  unfold Sink.receiveUnbounded
  split
  · rw [List.append_nil]
    exact ⟨lost, hall, hopen, hclosed⟩
  · refine ⟨lost, ?_, hopen, fun _ => rfl⟩
    rw [List.append_assoc]
    exact hall

theorem Through.close (h : Through sink accepted received) : Through sink.close accepted received := by
  obtain ⟨lost, hall, _, _⟩ := h
  refine ⟨sink.queue ++ lost, hall, ?_, fun _ => rfl⟩
  intro h
  contradiction

/-- Only handlers send. -/
theorem gained_act (w : Intake) {deed : Deed} (h : ∀ task, deed ≠ .move task) :
    w.sink.gained (w.act deed).sink = [] := by
  cases deed with
  | hear => exact gained_self _
  | arrange awake spent turns paused => exact gained_self _
  | drain =>
    apply gained_of_length_le
    simp only [Intake.act, Intake.receiveUnbounded, Sink.receiveUnbounded]
    split
    · exact Nat.le_refl _
    · exact Nat.zero_le _
  | move task => exact absurd rfl (h task)
  | occur event =>
    cases event with
    | receive count =>
      obtain ⟨awake, hact⟩ := w.act_receive count
      rw [hact]
      exact gained_of_length_le (List.length_take_le' _ _)
    | closeSink => exact gained_of_length_le (Nat.zero_le _)
    | connect c | acceptError e | arrive id read | turnFuse burned | letGoOfFuse | cancel
    | closeListener => exact gained_self _

theorem through_move (h : Through w.sink accepted received) {task : Task} {v : Intake}
    (hm : w.move task = some v) : Through v.sink (accepted ++ w.sink.gained v.sink) received := by
  cases task with
  | acceptor =>
    obtain ⟨_, hs, _⟩ := Intake.stepAcceptor_frame hm
    rw [hs, gained_self, List.append_nil]
    exact h
  | connection id =>
    obtain ⟨front, c, back, g, _, _, hstep, rfl⟩ := Intake.stepConnection_split hm
    obtain ⟨_, hclosed, new, hsent, _, hsilent⟩ := Connection.step_sink hstep
    rw [Intake.handled_sink]
    exact h.send hclosed hsent hsilent

theorem through_act (h : Through w.sink accepted received) (deed : Deed) :
    Through (w.act deed).sink (accepted ++ w.sink.gained (w.act deed).sink)
      (received ++ receivedBy w deed) := by
  cases deed with
  | move task =>
    have hnone : receivedBy w (.move task) = [] := rfl
    rw [hnone, List.append_nil, Intake.act]
    cases hm : w.move task with
    | none =>
      rw [Option.getD_none, gained_self, List.append_nil]
      exact h
    | some v => exact through_move h hm
  | hear | arrange awake spent turns paused =>
    rw [gained_act w (by simp), List.append_nil, receivedBy, List.append_nil]
    · exact h
    all_goals simp
  | drain =>
    rw [gained_act w (by simp), List.append_nil]
    exact h.drain
  | occur event =>
    rw [gained_act w (by simp), List.append_nil]
    cases event with
    | receive count =>
      obtain ⟨awake, hact⟩ := w.act_receive count
      rw [hact]
      exact h.receive count
    | closeSink =>
      have hnone : receivedBy w (.occur .closeSink) = [] := rfl
      rw [hnone, List.append_nil]
      exact h.close
    | connect c | acceptError e | arrive id read | turnFuse burned | letGoOfFuse | cancel
    | closeListener =>
      rw [receivedBy, List.append_nil]
      · exact h
      all_goals simp

/-- What a move sends comes from a connection that was accepted. -/
theorem gained_sender {task : Task} {v : Intake} (hm : w.move task = some v) {d : Delivery}
    (hd : d ∈ w.sink.gained v.sink) : d.sender ∈ w.connections.map Connection.id := by
  cases task with
  | acceptor =>
    obtain ⟨_, hs, _⟩ := Intake.stepAcceptor_frame hm
    rw [hs, gained_self] at hd
    cases hd
  | connection id =>
    obtain ⟨front, c, back, g, hcs, _, hs, rfl⟩ := Intake.stepConnection_split hm
    rw [Intake.handled_sink] at hd
    rw [Connection.sender_of_gained hs d hd, hcs]
    simp

/-- A step of a handler is an entry in its chronicle, and in no other. -/
theorem chronicled_step (h : Told p stream w sent accepted) {front back : List Connection} {g : Handled}
    (hcs : w.connections = front ++ c :: back) (hs : c.step w.signals w.sink w.left = some g) :
    ∀ d ∈ front ++ g.connection :: (back ++ w.backlog.filterMap Arrival.connection?),
      Chronicled p stream sent (accepted ++ w.sink.gained g.sink) d := by
  have hpeers : w.peers = front ++ c :: (back ++ w.backlog.filterMap Arrival.connection?) := by
    simp [Intake.peers, hcs]
  have hold := h.chronicled
  rw [hpeers] at hold
  intro d hd
  rcases List.mem_cons.mp (List.perm_middle.mem_iff.mp hd) with rfl | hd
  · exact (hold c (by simp)).step hs
  · have hne : c.id ≠ d.id := by
      have hn := h.nodup
      rw [Intake.ids, hpeers, List.map_append, List.map_cons, List.perm_middle.nodup_iff] at hn
      intro he
      apply (List.nodup_cons.mp hn).1
      rw [he, ← List.map_append]
      exact List.mem_map_of_mem hd
    have hnone : messagesOf (w.sink.gained g.sink) d.id = [] := by
      apply messagesOf_of_ne
      intro e he
      rw [Connection.sender_of_gained hs e he]
      exact hne
    apply (hold d (List.perm_middle.mem_iff.mpr (List.mem_cons_of_mem c hd))).frame rfl
    rw [messagesOf_append, hnone, List.append_nil]

theorem chronicled_move (h : Told p stream w sent accepted) {task : Task} {v : Intake}
    (hm : w.move task = some v) :
    ∀ d ∈ v.peers, Chronicled p stream sent (accepted ++ w.sink.gained v.sink) d := by
  cases task with
  | acceptor =>
    obtain ⟨hp, hs, _⟩ := Intake.stepAcceptor_frame hm
    rw [hs, gained_self, List.append_nil, hp]
    exact h.chronicled
  | connection id =>
    obtain ⟨front, c, back, g, hcs, _, hs, rfl⟩ := Intake.stepConnection_split hm
    have hpeers : (w.handled (g.supervised c.phase) (front ++ g.connection :: back)).peers =
        front ++ g.connection :: (back ++ w.backlog.filterMap Arrival.connection?) := by
      simp [Intake.peers, Intake.handled, Intake.report]
    rw [Intake.handled_sink, hpeers]
    exact chronicled_step h hcs hs

/-- A connection that comes has nothing to tell. -/
theorem chronicled_connect (h : Told p stream w sent accepted)
    (admitted : w.admits p stream (.occur (.connect c)) = true) :
    ∀ d ∈ w.peers ++ [c], Chronicled p stream (sentAfter sent (.occur (.connect c))) accepted d := by
  simp only [Intake.admits, Bool.and_eq_true, decide_eq_true_eq] at admitted
  obtain ⟨hnew, hstart⟩ := admitted
  intro d hd
  rcases List.mem_append.mp hd with hd | hd
  · have hne : d.id ≠ c.id := fun he => hnew (he ▸ List.mem_map_of_mem hd)
    exact (h.chronicled d hd).frame (by simp [sentAfter, hne]) rfl
  · obtain rfl := List.mem_singleton.mp hd
    refine ⟨d.peer, d.source, [], hstart.symm, by simp [sentAfter, Chronicle.run, Chronicle.start], ?_⟩
    refine (messagesOf_of_ne ?_).symm
    intro e he hid
    obtain ⟨k, hk, hkid⟩ := List.mem_map.mp (h.senders e he)
    exact hnew (hid ▸ hkid ▸ List.mem_map_of_mem (List.mem_append_left _ hk))

theorem chronicled_act (h : Told p stream w sent accepted) {deed : Deed}
    (admitted : w.admits p stream deed = true) :
    ∀ d ∈ (w.act deed).peers,
      Chronicled p stream (sentAfter sent deed) (accepted ++ w.sink.gained (w.act deed).sink) d := by
  have hframe := w.act_frame deed
  cases deed with
  | move task =>
    rw [Intake.act]
    cases hm : w.move task with
    | none =>
      rw [Option.getD_none, gained_self, List.append_nil]
      exact h.chronicled
    | some v => exact chronicled_move h hm
  | hear =>
    obtain ⟨hconn, hb⟩ := hframe
    rw [gained_act w (by simp), List.append_nil, Intake.peers, hconn, hb]
    intro c hc
    rcases List.mem_append.mp hc with hc | hc
    · obtain ⟨d, hd, rfl⟩ := List.mem_map.mp hc
      exact (h.chronicled d (List.mem_append_left _ hd)).hear
    · exact h.chronicled c (List.mem_append_right _ hc)
  | drain | arrange awake spent turns paused =>
    rw [gained_act w (by simp), List.append_nil]
    exact h.chronicled
  | occur event =>
    rw [gained_act w (by simp), List.append_nil]
    cases event with
    | connect c =>
      rw [hframe.2]
      exact chronicled_connect h admitted
    | arrive id read =>
      rw [hframe.2]
      intro c hc
      obtain ⟨d, hd, rfl⟩ := List.mem_map.mp hc
      split
      · rename_i he
        exact (h.chronicled d hd).arrive read (by simp [sentAfter, he])
      · rename_i he
        exact (h.chronicled d hd).frame (by simp [sentAfter, he]) rfl
    | receive count | acceptError e | closeSink | turnFuse burned | letGoOfFuse | cancel
    | closeListener =>
      rw [hframe.2]
      exact h.chronicled

theorem told_act (h : Told p stream w sent accepted) {deed : Deed}
    (admitted : w.admits p stream deed = true) :
    Told p stream (w.act deed) (sentAfter sent deed) (accepted ++ w.sink.gained (w.act deed).sink) := by
  refine ⟨Intake.nodup_act h.nodup admitted, chronicled_act h admitted, ?_⟩
  intro d hd
  apply (w.act_ids deed).2.subset
  rcases List.mem_append.mp hd with hd | hd
  · exact h.senders d hd
  · by_cases hmove : ∃ task, deed = .move task
    · obtain ⟨task, rfl⟩ := hmove
      rw [Intake.act] at hd
      cases hm : w.move task with
      | none => simp [hm, gained_self] at hd
      | some v =>
        rw [hm] at hd
        exact gained_sender hm hd
    · rw [gained_act w fun task he => hmove ⟨task, he⟩] at hd
      cases hd

theorem run_told (ht : Told p stream l.intake l.sent l.accepted)
    (hq : Through l.intake.sink l.accepted l.received) (deeds : List Deed) :
    Told p stream (l.run p stream deeds).intake (l.run p stream deeds).sent
        (l.run p stream deeds).accepted ∧
      Through (l.run p stream deeds).intake.sink (l.run p stream deeds).accepted
        (l.run p stream deeds).received := by
  refine run_keeps (P := fun l => Told p stream l.intake l.sent l.accepted ∧
    Through l.intake.sink l.accepted l.received) ?_ ⟨ht, hq⟩ deeds
  rintro l deed admitted ⟨ht, hq⟩
  rw [act_of_admits admitted]
  exact ⟨told_act ht admitted, through_act hq deed⟩

/-- What the tasks do in their turns is a run, in which nothing happens from outside. -/
theorem exists_settle (p : Partitioner) (stream : String) (l : Ledger) :
    ∃ deeds, (∀ deed ∈ deeds, deed.isInner = true) ∧
      (l.run p stream deeds).intake = l.intake.settle := by
  obtain ⟨deeds, hinner, hsettle⟩ := l.intake.leads_settle
  refine ⟨deeds, hinner, ?_⟩
  rw [hsettle]
  clear hsettle
  induction deeds generalizing l with
  | nil => rfl
  | cons deed deeds ih =>
    have hadmitted := l.intake.admits_of_inner p stream (hinner deed List.mem_cons_self)
    have hact : (l.act p stream deed).intake = l.intake.act deed := by rw [act_of_admits hadmitted]
    have := ih (l.act p stream deed) fun d hd => hinner d (List.mem_cons_of_mem deed hd)
    rw [hact] at this
    exact this

theorem told_start (p : Partitioner) (stream : String) (localAddress : Option String) (signals : Signals)
    (free : Option Nat) (fault : Option Fault) (closed : Bool) :
    Told p stream (start localAddress signals free fault closed).intake (fun _ => []) [] := by
  refine ⟨List.nodup_nil, ?_, ?_⟩
  · intro c hc
    cases hc
  · intro d hd
    cases hd

/-- The receiver's messages as an interleaving of those of the handlers. -/
structure Interleaved (p : Partitioner) (stream : String) (l : Ledger) : Prop where
  handlers : ∀ c ∈ l.intake.connections, ∃ peer source entries,
    let ch := (Chronicle.start p stream c.id peer source).run entries
    ch.connection = c ∧ ch.sent = l.sent c.id ∧ ch.accepted = messagesOf l.accepted c.id
  numbers : (l.intake.connections.map Connection.id).Nodup
  senders : ∀ d ∈ l.accepted, d.sender ∈ l.intake.connections.map Connection.id
  received : l.received <+: l.accepted.map Delivery.message
  /-- Closing loses what is queued, and nothing else is lost. -/
  queued : l.intake.sink.closed = false →
    l.received ++ l.intake.sink.queue = l.accepted.map Delivery.message

/-- Whatever happens and in whatever order: the accepted messages of a handler are the first frames of
what it has read, and what the receiver of a shared sink gets is an interleaving of them. -/
theorem handlers_deliver (p : Partitioner) (stream : String) :
    (∀ id peer source entries,
      ((Chronicle.start p stream id peer source).run entries).Accounted p stream) ∧
    ∀ localAddress signals free fault closed deeds,
      ((start localAddress signals free fault closed).run p stream deeds).Interleaved p stream := by
  constructor
  · intro id peer source entries
    obtain ⟨bytes, taken, h⟩ := (Chronicle.kept_start id peer source).run entries
    exact h.accounted
  · intro localAddress signals free fault closed deeds
    have htold := told_start p stream localAddress signals free fault closed
    have hthrough : Through (start localAddress signals free fault closed).intake.sink [] [] :=
      ⟨[], rfl, fun _ => rfl, fun _ => rfl⟩
    obtain ⟨ht, lost, hall, hopen, _⟩ := run_told htold hthrough deeds
    refine ⟨?_, ?_, ht.senders, ?_, ?_⟩
    · intro c hc
      exact ht.chronicled c (List.mem_append_left _ hc)
    · exact Intake.nodup_connections ht.nodup
    · exact ⟨_, hall⟩
    · intro hc
      rw [hopen hc, List.append_nil] at hall
      exact hall

end Ledger

end FrameIntake
