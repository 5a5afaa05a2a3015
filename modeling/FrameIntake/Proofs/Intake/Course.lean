import FrameIntake.Proofs.Connection.Fate
import FrameIntake.Proofs.Intake.Gate

/-!
The course of a connection. How far it has come (`Standing`), together with the signals and the state of the
sink (`View`), tells where it will end. What tasks do keeps the course (`View.Evolves`), so two views to which
the same has come stay on one course (`View.Abreast.step`, `View.Abreast.after`). A signal leads them to one
end only if it finds both equally far (`View.Level`).
-/

namespace FrameIntake

/-- How far a connection has come. -/
structure Standing where
  record : Option Record
  /-- The messages that the sink has accepted of it. -/
  messages : List Message

namespace Standing

variable {p : Partitioner} {stream : String} {stop : Option Outcome}
variable {refusal : Message → Option Ending} {s : Standing}

def arrive (news : News) (s : Standing) : Standing :=
  { s with record := s.record.map (Record.arrive news) }

/-- A record is there from now on, if there was none. -/
def come (record : Option Record) (s : Standing) : Standing := { s with record := s.record.or record }

/-- How far the connection will come, if it is let in. -/
def fate (p : Partitioner) (stream : String) (stop : Option Outcome)
    (refusal : Message → Option Ending) (s : Standing) : Standing :=
  match s.record with
  | none => s
  | some r =>
    let f := r.fate p stream stop refusal
    { record := some f.record, messages := s.messages ++ f.messages }

theorem fate_of_none (h : s.record = none) : s.fate p stream stop refusal = s := by
  rw [fate, h]

theorem fate_of_some {r : Record} (h : s.record = some r) :
    s.fate p stream stop refusal =
      { record := some (r.fate p stream stop refusal).record
        messages := s.messages ++ (r.fate p stream stop refusal).messages } := by
  rw [fate, h]

theorem fate_arrive (news : News) (s : Standing) :
    (s.arrive news).fate p stream stop refusal =
      ((s.fate p stream stop refusal).arrive news).fate p stream stop refusal := by
  cases hr : s.record with
  | none => rw [fate_of_none hr]
  | some r =>
    have harrive : (s.arrive news).record = some (r.arrive news) := by
      rw [arrive, hr]
      rfl
    rw [fate_of_some hr, fate_of_some harrive, Record.fate_arrive]
    exact congrArg _ (List.append_assoc ..).symm

theorem fate_fate (s : Standing) :
    (s.fate p stream stop refusal).fate p stream stop refusal = s.fate p stream stop refusal := by
  have harrive (t : Standing) : t.arrive {} = t := by
    have hrecord (r : Record) : r.arrive {} = r := by
      cases r with
      | ended ending => rfl
      | going message buffer news => rw [Record.arrive, News.append_nil]
    rw [arrive, funext hrecord, Option.map_id']
  have hfate : (s.arrive {}).fate p stream stop refusal =
      ((s.fate p stream stop refusal).arrive {}).fate p stream stop refusal := fate_arrive {} s
  rw [harrive, harrive] at hfate
  exact hfate.symm

theorem fate_come (record : Option Record) (s : Standing) :
    (s.come record).fate p stream stop refusal =
      ((s.fate p stream stop refusal).come record).fate p stream stop refusal := by
  cases hr : s.record with
  | none => rw [fate_of_none hr]
  | some r =>
    have hcome {t : Standing} {r : Record} (h : t.record = some r) : t.come record = t := by
      rw [come, h, Option.some_or, ← h]
    have hfate : (s.fate p stream stop refusal).record = some (r.fate p stream stop refusal).record :=
      congrArg Standing.record (fate_of_some hr)
    rw [hcome hr, hcome hfate, fate_fate]

theorem messages_prefix (s : Standing) : s.messages <+: (s.fate p stream stop refusal).messages := by
  cases hr : s.record with
  | none => exact ⟨[], by rw [fate_of_none hr, List.append_nil]⟩
  | some r =>
    rw [fate_of_some hr]
    exact List.prefix_append _ _

theorem fate_of_ended {ending : Ending} (h : s.record = some (.ended ending)) :
    s.fate p stream stop refusal = s := by
  rw [fate_of_some h]
  simp [Record.fate, ← h]

/-- How the handler has ended, if it has. -/
def ending? (s : Standing) : Option Ending := s.record.bind Record.ending?

theorem ending_arrive (news : News) (s : Standing) : (s.arrive news).ending? = s.ending? := by
  rw [ending?, arrive, ending?, Option.bind_map]
  refine congrArg s.record.bind (funext fun r => ?_)
  cases r <;> rfl

theorem ending_of_come {record : Option Record} (h : (s.come record).ending? = none) : s.ending? = none := by
  rw [ending?, come] at h
  rw [ending?]
  cases hr : s.record with
  | none => rfl
  | some r =>
    rw [hr, Option.some_or] at h
    exact h

theorem record_of_ending {ending : Ending} (h : s.ending? = some ending) :
    s.record = some (.ended ending) := by
  obtain ⟨r, hr, he⟩ := Option.bind_eq_some_iff.mp h
  cases r with
  | going => cases he
  | ended => rw [hr, Option.some.inj he]

theorem fate_of_ending {ending : Ending} (h : s.ending? = some ending) :
    s.fate p stream stop refusal = s :=
  fate_of_ended (record_of_ending h)

/-- A signal to stop ends whom it finds running, with the messages that were sent until then. -/
theorem fate_of_stop {r : Record} {outcome : Outcome} (hr : s.record = some r) (open_ : s.ending? = none) :
    s.fate p stream (some outcome) refusal =
      { record := some (.ended (.outcome outcome)), messages := s.messages } := by
  rw [ending?, hr] at open_
  cases r with
  | ended => cases open_
  | going message buffer news =>
    rw [fate_of_some hr, Record.fate, List.append_nil]

variable {t : Standing}

/-- Where there is no record there will be none. -/
theorem record_eq_none (h : s.fate p stream stop refusal = t.fate p stream stop refusal)
    (hs : s.record = none) : t.record = none := by
  cases ht : t.record with
  | none => rfl
  | some r =>
    have hrecord := congrArg Standing.record h
    rw [fate_of_none hs, hs, fate_of_some ht] at hrecord
    cases hrecord

/-- Two standings of one course with as many messages have come equally far, as far as signals go. -/
theorem alike_of_length (course : s.fate p stream none refusal = t.fate p stream none refusal)
    (length : s.messages.length = t.messages.length) (opens : s.ending? = none) (opent : t.ending? = none) :
    s.messages = t.messages ∧ ∀ stop, s.fate p stream stop refusal = t.fate p stream stop refusal := by
  -- Before one end the messages of either are first ones of those of the other.
  have hmessages : s.messages = t.messages := by
    have ht : t.messages <+: (s.fate p stream none refusal).messages := course ▸ t.messages_prefix
    rcases List.prefix_or_prefix_of_prefix s.messages_prefix ht with h | h
    · exact h.eq_of_length length
    · exact (h.eq_of_length length.symm).symm
  refine ⟨hmessages, ?_⟩
  intro stop
  cases stop with
  | none => exact course
  | some outcome =>
    -- A stop ends both where they are, whatever each has still to send.
    cases hs : s.record with
    | none =>
      have ht := record_eq_none course hs
      rw [fate_of_none hs, fate_of_none ht] at course ⊢
      exact course
    | some r =>
      cases ht : t.record with
      | none => cases hs.symm.trans (record_eq_none course.symm ht)
      | some q => rw [fate_of_stop hs opens, fate_of_stop ht opent, hmessages]

/-- Where the sink closes between the same messages, the fates stay the same. -/
theorem fate_of_closed {late : Message → Option Ending}
    (closed : ∀ m, late m = (refusal m).or (some (.outcome .sinkClosed)))
    (course : s.fate p stream stop refusal = t.fate p stream stop refusal)
    (messages : s.messages = t.messages) : s.fate p stream stop late = t.fate p stream stop late := by
  cases hs : s.record with
  | none =>
    have ht := record_eq_none course hs
    rw [fate_of_none hs, fate_of_none ht] at course ⊢
    exact course
  | some r =>
    cases ht : t.record with
    | none => cases hs.symm.trans (record_eq_none course.symm ht)
    | some q =>
      rw [fate_of_some hs, fate_of_some ht] at course ⊢
      rw [messages] at course
      have hrecord := Option.some.inj (congrArg Standing.record course)
      have hmore := List.append_cancel_left (congrArg Standing.messages course)
      have hfate : r.fate p stream stop refusal = q.fate p stream stop refusal := by
        cases hr : r.fate p stream stop refusal
        cases hq : q.fate p stream stop refusal
        rw [hr, hq] at hrecord hmore
        dsimp only at hrecord hmore
        rw [hrecord, hmore]
      rw [Record.fate_of_closed closed, Record.fate_of_closed closed, hfate, messages]

end Standing

/-- What counts for the connection numbered `id`. -/
structure View where
  signals : Signals
  standing : Standing
  fault : Option Fault
  /-- The sink is closed. -/
  closed : Bool

namespace View

open Intake (Deed)

variable {p : Partitioner} {stream : String} {id : Nat} {v a b c : View}

def signal (v : View) (signals : Signals) : View := { v with signals }

def close (v : View) : View := { v with closed := true }

/-- What happens from outside makes this of a view. -/
def after (p : Partitioner) (stream : String) (id : Nat) (v : View) : Deed → View
  | .occur (.connect c) =>
    if c.id = id ∧ c = { Connection.start c.id c.peer p stream with source := c.source } then
      { v with standing := v.standing.come (some c.record) }
    else v
  | .occur (.arrive peer read) =>
    if peer = id then { v with standing := v.standing.arrive read.news } else v
  | .occur (.turnFuse burned) => v.signal (v.signals.turn burned).1
  | .occur .letGoOfFuse => v.signal v.signals.letGo
  | .occur .cancel => v.signal { v.signals with cancelled := true }
  | .occur .closeSink => v.close
  | _ => v

theorem after_of_apart {deed : Deed} (apart : deed.reaches (.connection id) = false) (v : View) :
    v.after p stream id deed = v := by
  unfold Deed.reaches at apart
  split at apart
  · exact if_neg fun h => by simp [h.1] at apart
  · rfl
  · rfl
  · exact if_neg fun h => by simp [h] at apart
  all_goals first | rfl | simp at apart

/-- What becomes of a standing depends on nothing else in the view. -/
theorem after_standing {deed : Deed} (h : a.standing = b.standing) :
    (a.after p stream id deed).standing = (b.after p stream id deed).standing := by
  cases deed with
  | move | drain | hear | arrange => exact h
  | occur event =>
    cases event with
    | connect c =>
      rw [after, after]
      split
      · exact congrArg (Standing.come _) h
      · exact h
    | arrive peer read =>
      rw [after, after]
      split
      · exact congrArg (Standing.arrive _) h
      · exact h
    | _ => exact h

def refusal (v : View) : Message → Option Ending :=
  ({ fault := v.fault, closed := v.closed } : Sink).refusal?

/-- How far the connection will come, if it is let in. -/
def course (p : Partitioner) (stream : String) (v : View) : Standing :=
  v.standing.fate p stream v.signals.stop? v.refusal

theorem refusal_close (v : View) (m : Message) :
    v.close.refusal m = (v.refusal m).or (some (.outcome .sinkClosed)) :=
  Sink.refusal?_closed { fault := v.fault, closed := v.closed } m

theorem refusal_eq (fault : a.fault = v.fault) (closed : a.closed = v.closed) : a.refusal = v.refusal := by
  rw [refusal, refusal, fault, closed]

/-- What tasks can make of a view. -/
structure Evolves (p : Partitioner) (stream : String) (v a : View) : Prop where
  signals : a.signals = v.signals
  fault : a.fault = v.fault
  closed : a.closed = v.closed
  course : a.course p stream = v.course p stream
  /-- Who has not ended can still go on as if no signal had come. -/
  spared : a.standing.ending? = none → v.standing.ending? = none ∧
    a.standing.fate p stream none a.refusal = v.standing.fate p stream none v.refusal

theorem Evolves.of_same (signals : a.signals = v.signals) (fault : a.fault = v.fault)
    (closed : a.closed = v.closed) (standing : a.standing = v.standing) : v.Evolves p stream a := by
  refine ⟨signals, fault, closed, ?_, ?_⟩
  · rw [View.course, View.course, refusal_eq fault closed, standing, signals]
  · intro hopen
    rw [refusal_eq fault closed, ← standing]
    exact ⟨hopen, rfl⟩

/-- States that two views are on one course. -/
structure Abreast (p : Partitioner) (stream : String) (a b : View) : Prop where
  signals : a.signals = b.signals
  fault : a.fault = b.fault
  closed : a.closed = b.closed
  course : a.course p stream = b.course p stream
  /-- Handlers that a signal has not ended are on one course also without it, for the fuse may clear before
  they have a turn. -/
  spared : a.standing.ending? = none → b.standing.ending? = none →
    a.standing.fate p stream none a.refusal = b.standing.fate p stream none b.refusal

theorem Abreast.refl (v : View) : v.Abreast p stream v := ⟨rfl, rfl, rfl, rfl, fun _ _ => rfl⟩

theorem Abreast.symm (h : a.Abreast p stream b) : b.Abreast p stream a :=
  ⟨h.signals.symm, h.fault.symm, h.closed.symm, h.course.symm, fun hb ha => (h.spared ha hb).symm⟩

/-- Tasks do not leave the course. -/
theorem Abreast.step (h : a.Abreast p stream b) (ha : a.Evolves p stream c) : c.Abreast p stream b := by
  refine ⟨ha.signals.trans h.signals, ha.fault.trans h.fault, ha.closed.trans h.closed,
    ha.course.trans h.course, ?_⟩
  intro hc hb
  obtain ⟨hopen, hfate⟩ := ha.spared hc
  exact hfate.trans (h.spared hopen hb)

theorem Abreast.refusal (h : a.Abreast p stream b) : a.refusal = b.refusal := refusal_eq h.fault h.closed

/-- What reaches a connection may as well reach it at the end of its course. -/
theorem Abreast.reach (h : a.Abreast p stream b) {f : Standing → Standing}
    (late : ∀ stop refusal s,
      (f s).fate p stream stop refusal = (f (s.fate p stream stop refusal)).fate p stream stop refusal)
    (running : ∀ s, (f s).ending? = none → s.ending? = none) :
    ({ a with standing := f a.standing } : View).Abreast p stream { b with standing := f b.standing } := by
  refine ⟨h.signals, h.fault, h.closed, ?_, ?_⟩
  · have hcourse := h.course
    unfold View.course at hcourse ⊢
    change (f a.standing).fate p stream a.signals.stop? a.refusal =
      (f b.standing).fate p stream b.signals.stop? b.refusal
    rw [late, hcourse, late _ _ b.standing, h.signals, h.refusal]
  · intro ha hb
    have hspared := h.spared (running _ ha) (running _ hb)
    change (f a.standing).fate p stream none a.refusal = (f b.standing).fate p stream none b.refusal
    rw [late, hspared, late _ _ b.standing, h.refusal]

/-- States that a signal finds two views equally far: with as many messages sent, and both running or both
ended. -/
structure Level (a b : View) : Prop where
  ended : a.standing.ending?.isSome = b.standing.ending?.isSome
  messages : a.standing.messages.length = b.standing.messages.length

/-- Whatever the signals are, views that are equally far on their course go on alike. -/
theorem Abreast.alike (h : a.Abreast p stream b) (level : a.Level b) :
    a.standing.messages = b.standing.messages ∧
      ∀ stop, a.standing.fate p stream stop a.refusal = b.standing.fate p stream stop b.refusal := by
  have hended := level.ended
  cases ha : a.standing.ending? with
  | none =>
    have hb : b.standing.ending? = none := by simpa [ha] using hended.symm
    have hspared := h.spared ha hb
    rw [h.refusal] at hspared ⊢
    exact Standing.alike_of_length hspared level.messages ha hb
  | some ending =>
    obtain ⟨ending', hb⟩ : ∃ ending', b.standing.ending? = some ending' :=
      Option.isSome_iff_exists.mp (by rw [← hended, ha]; rfl)
    have hcourse := h.course
    unfold View.course at hcourse
    rw [Standing.fate_of_ending ha, Standing.fate_of_ending hb] at hcourse
    rw [hcourse, h.refusal]
    exact ⟨rfl, fun _ => rfl⟩

theorem Abreast.signal (h : a.Abreast p stream b) (level : a.Level b) (signals : Signals) :
    (a.signal signals).Abreast p stream (b.signal signals) := by
  obtain ⟨_, hfates⟩ := h.alike level
  exact ⟨rfl, h.fault, h.closed, hfates _, fun _ _ => hfates none⟩

theorem Abreast.close (h : a.Abreast p stream b) (level : a.Level b) :
    a.close.Abreast p stream b.close := by
  obtain ⟨hmessages, hfates⟩ := h.alike level
  have hrefusal : a.close.refusal = b.close.refusal := refusal_eq h.fault rfl
  have hsignals : a.close.signals = b.close.signals := h.signals
  have hclosed (stop : Option Outcome) :
      a.standing.fate p stream stop a.close.refusal = b.standing.fate p stream stop b.close.refusal := by
    have hcourse := hfates stop
    rw [h.refusal] at hcourse
    rw [hrefusal]
    exact Standing.fate_of_closed b.refusal_close hcourse hmessages
  refine ⟨hsignals, h.fault, rfl, ?_, fun _ _ => hclosed none⟩
  rw [View.course, View.course, hsignals]
  exact hclosed _

/-- What comes finds both views anywhere on their course, and a signal finds both equally far. -/
theorem Abreast.after (h : a.Abreast p stream b) {deed : Deed}
    (level : deed.isSignal = true → a.Level b) :
    (a.after p stream id deed).Abreast p stream (b.after p stream id deed) := by
  cases deed with
  | move | drain | hear | arrange => exact h
  | occur event =>
    cases event with
    | acceptError | receive | closeListener => exact h
    | turnFuse burned =>
      rw [View.after, View.after, h.signals]
      exact h.signal (level rfl) _
    | cancel =>
      rw [View.after, View.after, h.signals]
      exact h.signal (level rfl) _
    | letGoOfFuse => exact ⟨congrArg Signals.letGo h.signals, h.fault, h.closed, h.course, h.spared⟩
    | closeSink => exact h.close (level rfl)
    | arrive peer read =>
      rw [View.after, View.after]
      split
      · refine h.reach (fun _ _ => Standing.fate_arrive read.news) ?_
        intro s hopen
        rwa [s.ending_arrive] at hopen
      · exact h
    | connect c =>
      rw [View.after, View.after]
      split
      · exact h.reach (fun _ _ => Standing.fate_come _) fun _ => Standing.ending_of_come
      · exact h

end View

end FrameIntake
