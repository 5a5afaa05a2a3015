import FrameIntake.Proofs.Intake.Story
import FrameIntake.Proofs.Intake.View

/-!
Isolation. Two runs over an unbounded sink in which the same reaches the acceptor and one connection, while
other peers send whatever they send. Neither takes in connections or messages of that connection that the
other could not (`Comparable`). If moreover each signal finds the acceptor and the handler of the connection
as far in one run as in the other, all that becomes of the connection is the same (`runs_isolated`). Other
handlers may be anywhere when a signal comes.
-/

namespace FrameIntake

open Intake (Deed)

namespace Intake

variable {w : Intake}

theorem act_bounded (w : Intake) (deed : Deed) : (w.act deed).sink.isBounded = w.sink.isBounded := by
  cases deed with
  | move task =>
    rw [act]
    cases hm : w.move task with
    | none => rfl
    | some v =>
      cases task with
      | acceptor =>
        obtain ⟨_, hs, _⟩ := stepAcceptor_frame hm
        exact congrArg Sink.isBounded hs
      | connection id =>
        obtain ⟨front, c, back, g, _, _, hs, rfl⟩ := stepConnection_split hm
        rw [Option.getD_some, handled_sink]
        exact (Connection.step_kind hs).2
  | hear | arrange awake spent turns paused => rfl
  | drain =>
    simp only [act, receiveUnbounded, Sink.receiveUnbounded]
    split <;> rfl
  | occur event =>
    cases event with
    | receive count =>
      obtain ⟨awake, hact⟩ := w.act_receive count
      rw [hact]
      exact Option.isSome_map
    | connect c | acceptError e | arrive id read | turnFuse burned | letGoOfFuse | cancel
    | closeListener | closeSink => rfl

/-- The acceptor and the handler of one connection can do nothing, even in a new turn. Others may. -/
structure RestsFor (w : Intake) (id : Nat) : Prop where
  acceptor : w.refreshed.move .acceptor = none
  handler : w.refreshed.move (.connection id) = none

end Intake

namespace Ledger

variable {p : Partitioner} {stream : String} {id : Nat} {l m : Ledger} {deed : Deed} {deeds deeds' : List Deed}

theorem gate_of_apart (apart : deed.reaches .acceptor = false) (l : Ledger) :
    l.intake.gate.Leads (l.act p stream deed).intake.gate := by
  cases hinner : deed.isInner with
  | true =>
    rw [act_of_admits (l.intake.admits_of_inner p stream hinner)]
    exact l.intake.act_gate hinner
  | false =>
    rw [gate_act hinner, Gate.after_of_apart apart]
    exact .refl

/-- The acceptors of two runs to which the same has come. -/
theorem gates_run (h : l.intake.gate.Abreast m.intake.gate)
    (same : l.story p stream (noteOf .acceptor) deeds = m.story p stream (noteOf .acceptor) deeds') :
    (l.run p stream deeds).intake.gate.Abreast (m.run p stream deeds').intake.gate := by
  refine story_induction (R := fun l m => l.intake.gate.Abreast m.intake.gate) Gate.Abreast.symm ?_ ?_ h same
  · intro l m deed h hn
    exact h.step (gate_of_apart (apart_of_note hn) l)
  · intro l m deed deed' note h hl hm
    obtain ⟨rfl, hreached, hlevel⟩ := eq_of_notes hl hm
    have houter := Deed.outer_of_reaches hreached
    rw [gate_act houter, gate_act houter]
    exact h.after fun hs => Milestone.acceptor.inj (hlevel hs)

theorem endingOf_eq (l : Ledger) (id : Nat) : l.endingOf id = (l.view id).standing.ending? := by
  have hending : Connection.ending? = fun c => c.record.ending? :=
    funext fun c => c.record_ending.symm
  rw [endingOf, hending, view, Standing.ending?, Intake.recordOf, Intake.recordAmong, Option.bind_map]
  rfl

/-- What is kept of the connection numbered `id` in two runs. -/
structure Alike (p : Partitioner) (stream : String) (id : Nat) (l m : Ledger) : Prop where
  left : l.Kept p stream
  right : m.Kept p stream
  views : (l.view id).Abreast p stream (m.view id)
  /-- Nothing happens to a connection that is not let in. -/
  aside : id ∉ l.intake.handlers → id ∉ m.intake.handlers → (l.view id).standing = (m.view id).standing

theorem Alike.symm (h : Alike p stream id l m) : Alike p stream id m l :=
  ⟨h.right, h.left, h.views.symm, fun hm hl => (h.aside hl hm).symm⟩

theorem Alike.forth (h : Alike p stream id l m) (apart : deed.reaches (.connection id) = false) :
    Alike p stream id (l.act p stream deed) m := by
  have hforth := forth_of_apart h.left apart
  refine ⟨h.left.run [deed], h.right, h.views.step hforth.evolves, ?_⟩
  intro hl hm
  have hout : id ∉ l.intake.handlers := fun hin => hl ((l.handlers_act deed).subset hin)
  exact (hforth.aside hl).trans (h.aside hout hm)

theorem Alike.both (h : Alike p stream id l m) (reached : deed.reaches (.connection id) = true)
    (level : deed.isSignal = true → (l.view id).Level (m.view id)) :
    Alike p stream id (l.act p stream deed) (m.act p stream deed) := by
  have houter := Deed.outer_of_reaches reached
  refine ⟨h.left.run [deed], h.right.run [deed], ?_, ?_⟩
  · rw [view_act houter, view_act houter]
    exact h.views.after level
  · intro hl hm
    rw [view_act houter, view_act houter]
    apply View.after_standing
    exact h.aside (fun hin => hl ((l.handlers_act deed).subset hin))
      fun hin => hm ((m.handlers_act deed).subset hin)

theorem Alike.run (h : Alike p stream id l m)
    (same : l.story p stream (noteOf (.connection id)) deeds =
      m.story p stream (noteOf (.connection id)) deeds') :
    Alike p stream id (l.run p stream deeds) (m.run p stream deeds') := by
  refine story_induction Alike.symm ?_ ?_ h same
  · intro l m deed h hn
    exact h.forth (apart_of_note hn)
  · intro l m deed deed' note h hl hm
    obtain ⟨rfl, hreached, hlevel⟩ := eq_of_notes hl hm
    refine h.both hreached fun hs => ?_
    obtain ⟨hended, hmessages⟩ := Milestone.handler.inj (hlevel hs)
    rw [endingOf_eq, endingOf_eq] at hended
    exact ⟨hended, hmessages⟩

theorem run_bounded (l : Ledger) (deeds : List Deed) :
    (l.run p stream deeds).intake.sink.isBounded = l.intake.sink.isBounded := by
  apply run_keeps (P := fun m => m.intake.sink.isBounded = l.intake.sink.isBounded) ?_ rfl
  intro m deed admitted hm
  rw [act_of_admits admitted]
  exact (m.intake.act_bounded deed).trans hm

/-- A handler at rest has come to the end of its course. -/
theorem course_at_rest (h : l.Kept p stream) (unbounded : l.intake.sink.isBounded = false)
    (rest : l.intake.refreshed.move (.connection id) = none) (letIn : id ∈ l.intake.handlers) :
    (l.view id).course p stream = (l.view id).standing := by
  obtain ⟨c, hc, rfl⟩ := List.mem_map.mp letIn
  have hrecord := Intake.recordOf_of_mem h.told.nodup hc
  obtain ⟨ch, bytes, taken, hkept, rfl, _⟩ := (h.told.chronicled c (List.mem_append_left _ hc)).kept
  have hrest := Intake.handler_at_rest rest h.told.nodup hc
  have hfate : ch.connection.hear.record.fate p stream l.intake.signals.stop? l.intake.sink.refusal? =
      ⟨[], ch.connection.hear.record⟩ :=
    hkept.hear.fate_of_rest unbounded ch.connection.hear_within hrest _
  rw [ch.connection.record_hear] at hfate
  have hstanding : (l.view ch.connection.id).standing.record = some ch.connection.record := hrecord
  have hcourse : (l.view ch.connection.id).course p stream =
      (l.view ch.connection.id).standing.fate p stream l.intake.signals.stop? l.intake.sink.refusal? := rfl
  rw [hcourse, Standing.fate_of_some hstanding, hfate, List.append_nil, ← hstanding]

/-- What two runs have in common. -/
structure Same (id : Nat) (l m : Ledger) : Prop where
  handlers : l.intake.handlers = m.intake.handlers
  messages : messagesOf l.accepted id = messagesOf m.accepted id
  ending : l.endingOf id = m.endingOf id

theorem Same.of_standing (handlers : l.intake.handlers = m.intake.handlers)
    (standing : (l.view id).standing = (m.view id).standing) : Same id l m := by
  refine ⟨handlers, congrArg Standing.messages standing, ?_⟩
  rw [endingOf_eq, endingOf_eq, standing]

theorem handlers_at_rest (gates : l.intake.gate.Abreast m.intake.gate)
    (restl : l.intake.refreshed.move .acceptor = none) (restm : m.intake.refreshed.move .acceptor = none) :
    l.intake.handlers = m.intake.handlers :=
  congrArg Gate.handlers (gates.eq_of_rest (Intake.gate_at_rest restl) (Intake.gate_at_rest restm))

theorem Alike.same (h : Alike p stream id l m) (gates : l.intake.gate.Abreast m.intake.gate)
    (unboundedl : l.intake.sink.isBounded = false) (unboundedm : m.intake.sink.isBounded = false)
    (restl : l.intake.RestsFor id) (restm : m.intake.RestsFor id) : Same id l m := by
  have hhandlers := handlers_at_rest gates restl.acceptor restm.acceptor
  refine .of_standing hhandlers ?_
  by_cases hin : id ∈ l.intake.handlers
  · have hl := course_at_rest h.left unboundedl restl.handler hin
    have hm := course_at_rest h.right unboundedm restm.handler (hhandlers ▸ hin)
    rw [← hl, ← hm, h.views.course]
  · exact h.aside hin (hhandlers ▸ hin)

/-- Left to themselves, tasks come to where none of them moves. -/
theorem exists_still (p : Partitioner) (stream : String) (l : Ledger) :
    ∃ turns : List Deed, (∀ deed ∈ turns, deed.isInner = true) ∧
      (l.run p stream turns).intake.Still := by
  obtain ⟨turns, hinner, hsettle⟩ := exists_settle p stream (l.act p stream (.arrange [] 0 0 []))
  refine ⟨.arrange [] 0 0 [] :: turns, ?_, ?_⟩
  · intro deed hd
    rcases List.mem_cons.mp hd with rfl | hd
    · rfl
    · exact hinner deed hd
  · have hstill : (l.act p stream (.arrange [] 0 0 [])).intake.settle.Still :=
      Intake.still_settle fun _ => rfl
    rwa [← hsettle] at hstill

/-- What becomes of the connection numbered `id` in two runs. -/
structure Isolated (p : Partitioner) (stream : String) (id : Nat) (l m : Ledger) : Prop where
  /-- Wherever tasks are. -/
  ended : ∀ ending ending', l.endingOf id = some ending → m.endingOf id = some ending' →
    ending = ending' ∧ messagesOf l.accepted id = messagesOf m.accepted id
  /-- Wherever handlers are. -/
  letIn : l.intake.refreshed.move .acceptor = none → m.intake.refreshed.move .acceptor = none →
    l.intake.handlers = m.intake.handlers
  /-- Wherever other handlers are. -/
  rested : l.intake.RestsFor id → m.intake.RestsFor id → Same id l m
  /-- Left to themselves, both come to rest. -/
  settled : ∃ turns turns' : List Deed, (∀ deed ∈ turns ++ turns', deed.isInner = true) ∧
    (l.run p stream turns).intake.Still ∧ (m.run p stream turns').intake.Still ∧
      Same id (l.run p stream turns) (m.run p stream turns')

theorem Alike.isolated (h : Alike p stream id l m) (gates : l.intake.gate.Abreast m.intake.gate)
    (unboundedl : l.intake.sink.isBounded = false) (unboundedm : m.intake.sink.isBounded = false) :
    Isolated p stream id l m := by
  refine ⟨?_, handlers_at_rest gates, h.same gates unboundedl unboundedm, ?_⟩
  · intro ending ending' he he'
    rw [endingOf_eq] at he he'
    have hcourse := h.views.course
    unfold View.course at hcourse
    rw [Standing.fate_of_ending he, Standing.fate_of_ending he'] at hcourse
    refine ⟨?_, congrArg Standing.messages hcourse⟩
    rw [hcourse] at he
    exact Option.some.inj (he.symm.trans he')
  · obtain ⟨turns, hinner, hstill⟩ := exists_still p stream l
    obtain ⟨turns', hinner', hstill'⟩ := exists_still p stream m
    refine ⟨turns, turns', ?_, hstill, hstill', ?_⟩
    · intro deed hd
      exact (List.mem_append.mp hd).elim (hinner deed) (hinner' deed)
    · have hstory {task : Task} :
          l.story p stream (noteOf task) turns = m.story p stream (noteOf task) turns' := by
        rw [story_of_inner hinner, story_of_inner hinner']
      apply (h.run hstory).same (gates_run gates hstory)
      · exact (run_bounded l turns).trans unboundedl
      · exact (run_bounded m turns').trans unboundedm
      · exact ⟨hstill _, hstill _⟩
      · exact ⟨hstill' _, hstill' _⟩

/-- Whatever other peers send, whatever becomes of their handlers and whoever has a turn when: the connections
that are let in and the messages of one connection are the first ones of the same. A signal may come while any
handler is in the midst of its work. Unless it is a race with the acceptor or with the handler of that
connection, which messages there are and how the handler ends is the same as well. -/
theorem runs_isolated (p : Partitioner) (stream : String) (id : Nat) (localAddress : Option String)
    (signals : Signals) (fault : Option Fault) (closed : Bool) (agree : Agree id deeds deeds') :
    let before := start localAddress signals none fault closed
    let l := before.run p stream deeds
    let m := before.run p stream deeds'
    Comparable id l m ∧ (before.Level p stream id deeds deeds' → Isolated p stream id l m) := by
  intro before l m
  have hkept : before.Kept p stream := kept_start p stream localAddress signals none fault closed
  have hl : l.Kept p stream := hkept.run deeds
  have hm : m.Kept p stream := hkept.run deeds'
  refine ⟨?_, ?_⟩
  · have hfed : Fed id before before := ⟨rfl, Iff.rfl⟩
    exact comparable_of_fed hl.told hm.told (ids_run rfl agree.acceptor) (hfed.run agree.connection)
  · intro level
    have halike : Alike p stream id before before := ⟨hkept, hkept, .refl _, fun _ _ => rfl⟩
    have hgates : l.intake.gate.Abreast m.intake.gate := gates_run (.refl _) level.acceptor
    exact (halike.run level.connection).isolated hgates (run_bounded before deeds) (run_bounded before deeds')

/-- A shutdown that comes while a neighbour has a message on its way, and one that comes when the sink has
already broken down over the neighbour's message. -/
theorem neighbours_unnoticed :
    let p : Partitioner := .fixed 1 (by decide)
    let before := start none {} none (some .text) false
    let front (read : Read) (first second : Task) : List Deed :=
      [.occur (.connect (Connection.start 0 "a" p "s")), .occur (.connect (Connection.start 1 "b" p "s")),
          .occur (.arrive 0 (.data [0x61])), .occur (.arrive 1 read)] ++
        List.replicate 6 (.move .acceptor) ++ List.replicate 3 (.move first) ++
        List.replicate 2 (.move second) ++ [.move (.connection 0)]
    let deeds := front (.data [0x62]) (.connection 0) (.connection 1) ++
      [.occur .cancel, .move (.connection 1), .move (.connection 0)]
    let deeds' := front (.data [0x21]) (.connection 1) (.connection 0) ++
      [.occur .cancel, .move (.connection 0)]
    let l := before.run p "s" deeds
    let m := before.run p "s" deeds'
    ((before.run p "s" (front (.data [0x62]) (.connection 0) (.connection 1))).intake.connections.map
          Connection.phase = [.reading, .routing ⟨[0x62], "s"⟩ false] ∧
        l.endingOf 1 = some (.outcome .shutdown) ∧ m.endingOf 1 = some (.panicked "sink boom")) ∧
      Agree 0 deeds deeds' ∧ before.Level p "s" 0 deeds deeds' ∧
        Comparable 0 l m ∧ Isolated p "s" 0 l m := by
  intro p before front deeds deeds' l m
  have agree : Agree 0 deeds deeds' := ⟨rfl, rfl⟩
  have level : before.Level p "s" 0 deeds deeds' := ⟨by decide +kernel, by decide +kernel⟩
  obtain ⟨hcomparable, hisolated⟩ := runs_isolated p "s" 0 none {} (some .text) false agree
  exact ⟨by decide +kernel, agree, level, hcomparable, hisolated level⟩

end Ledger

end FrameIntake
