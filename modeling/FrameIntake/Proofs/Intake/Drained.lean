import FrameIntake.Proofs.Intake.Admission
import FrameIntake.Proofs.Intake.Tally
import Mathlib.Data.List.TakeWhile

/-!
A burned fuse drains an intake: once nothing moves, no handler is left. For as long as it stays burned,
whatever else happens, nothing is read, accepted or sent on (`Standstill`). Once it has cleared, those who
waited are accepted up to the first accept error, which ends the acceptor (`run_drained`).
-/

namespace FrameIntake

theorem Signals.stop?_of_burned {signals : Signals} (h : signals.burned = true) :
    ∃ outcome, signals.stop? = some outcome := by
  unfold stop?
  rw [if_pos h]
  split <;> exact ⟨_, rfl⟩

namespace Intake

variable {w v : Intake} {p : Partitioner} {stream : String}

/-- What a deed comes to. One that is not admitted comes to nothing. -/
def perform (p : Partitioner) (stream : String) (w : Intake) (deed : Deed) : Intake :=
  if w.admits p stream deed then w.act deed else w

/-- States that `q` holds all along, from the first state to the last. -/
def Along (p : Partitioner) (stream : String) (q : Intake → Prop) (w : Intake) : List Deed → Prop
  | [] => q w
  | deed :: deeds => q w ∧ Along p stream q (w.perform p stream deed) deeds

/-- Nobody is left, and the acceptor waits for nobody. -/
structure Parked (w : Intake) : Prop where
  ended : ∀ c ∈ w.connections, c.isEnded = true
  acceptor : w.acceptor = .holding ∨ w.acceptor = .stopped

theorem Still.parked (h : w.Still) (numbers : w.ids.Nodup) (burned : w.signals.burned = true) :
    w.Parked := by
  obtain ⟨outcome, hstop⟩ := Signals.stop?_of_burned burned
  refine ⟨fun c hc => h.isEnded numbers hstop hc, ?_⟩
  rcases acceptor_at_rest (h .acceptor) with hs | ⟨_, ⟨hh, _⟩ | ⟨_, hb, _⟩⟩
  · exact .inr hs
  · exact .inl hh
  · cases burned.symm.trans hb

/-- While the fuse is burned, nothing but the end of the acceptor can follow. -/
theorem Parked.move (h : w.Parked) (burned : w.signals.burned = true) {task : Task}
    (hm : w.move task = some v) : v = w.stopAcceptor := by
  cases task with
  | connection id =>
    obtain ⟨front, c, back, g, hcs, _, hs, _⟩ := stepConnection_split hm
    have hended := h.ended c (by simp [hcs])
    rw [Connection.step_of_ended hended] at hs
    cases hs
  | acceptor =>
    have hrunning : w.acceptor ≠ .deciding ∧ w.acceptor ≠ .accepting ∧ w.acceptor ≠ .unstarted := by
      rcases h.acceptor with ha | ha <;> simp [ha]
    cases stepAcceptor_steps hm with
    | stopped => rfl
    | started unstarted => exact absurd unstarted hrunning.2.2
    | held deciding => exact absurd deciding hrunning.1
    | began deciding => exact absurd deciding hrunning.1
    | cleared holding clear => cases burned.symm.trans clear
    | abandoned accepting => exact absurd accepting hrunning.2.1
    | accepted accepting => exact absurd accepting hrunning.2.1
    | failed accepting => exact absurd accepting hrunning.2.1

theorem act_accepts (w : Intake) {deed : Deed} (h : ∀ task, deed ≠ .move task) :
    (w.act deed).accepts = w.accepts := by
  cases deed with
  | move task => exact absurd rfl (h task)
  | hear | drain | arrange awake spent turns paused => rfl
  | occur event =>
    cases event with
    | receive count =>
      obtain ⟨awake, hact⟩ := w.act_receive count
      rw [hact]
    | connect c | acceptError e | arrive id read | turnFuse burned | letGoOfFuse | cancel
    | closeListener | closeSink => rfl

/-- Nobody but the acceptor changes where it stands. -/
theorem act_acceptor (w : Intake) {deed : Deed} (h : deed ≠ .move .acceptor) :
    (w.act deed).acceptor = w.acceptor := by
  by_cases hmove : ∃ task, deed = .move task
  · obtain ⟨task, rfl⟩ := hmove
    cases task with
    | acceptor => exact absurd rfl h
    | connection id =>
      rw [act]
      cases hm : w.move (.connection id) with
      | none => rfl
      | some v =>
        obtain ⟨front, c, back, g, _, _, _, rfl⟩ := stepConnection_split hm
        rfl
  · exact (w.act_metrics fun task he => hmove ⟨task, he⟩).2

/-- Connections can be accepted: the fuse is clear, and neither the listener nor a shutdown ends the
acceptor. -/
def IsOpen (w : Intake) : Prop :=
  w.signals.burned = false ∧ w.listenerClosed = false ∧ w.signals.cancelled = false

end Intake

namespace Docket

open Intake (Deed)

variable {p : Partitioner} {stream : String} {d : Docket}

theorem act_intake (d : Docket) (deed : Deed) :
    (d.act p stream deed).intake = d.intake.perform p stream deed := by
  unfold Docket.act Intake.perform
  split <;> rfl

/-- The acceptor has taken an error if it has stopped. -/
def Excused (d : Docket) : Prop :=
  d.intake.acceptor = .stopped → ∃ t ∈ d.taken, t.ticket.error? ≠ none

theorem Excused.act (h : d.Excused) (hopen : d.intake.IsOpen) (deed : Deed) :
    (d.act p stream deed).Excused := by
  obtain ⟨_, listening, active⟩ := hopen
  intro hstopped
  have hold (hs : d.intake.acceptor = .stopped) :
      ∃ t ∈ (d.act p stream deed).taken, t.ticket.error? ≠ none := by
    obtain ⟨t, ht, he⟩ := h hs
    exact ⟨t, (d.run_adds p stream [deed]).2.subset ht, he⟩
  unfold Docket.act at hstopped hold ⊢
  split at hstopped
  · rename_i admitted
    rw [if_pos admitted] at hold ⊢
    by_cases ha : deed = .move .acceptor
    · subst ha
      rw [Intake.act] at hstopped hold ⊢
      cases hm : d.intake.move .acceptor with
      | none =>
        rw [hm] at hstopped hold
        exact hold hstopped
      | some v =>
        rw [hm, Option.getD_some] at hstopped
        cases Intake.stepAcceptor_steps hm with
        | started | held | began | cleared | abandoned | accepted => cases hstopped
        | stopped running closed =>
          rcases closed with hc | ⟨_, hc⟩
          · cases listening.symm.trans hc
          · cases active.symm.trans hc
        | failed accepting listening next clear =>
          rename_i e rest
          obtain ⟨metrics, notices, he⟩ := Intake.failAccept_frame { d.intake with backlog := rest } e
          have hnext : d.intake.waiting =
              .failure e :: (({ d.intake with backlog := rest } : Intake).failAccept e).waiting := by
            rw [he, Intake.waiting, next]
            rfl
          refine ⟨d.intake.taking (.failure e), ?_, by simp [Intake.taking, Ticket.error?]⟩
          apply List.mem_append_right
          rw [Option.getD_some, gone_of_next hnext]
          exact List.mem_singleton_self _
    · exact hold ((d.intake.act_acceptor ha).symm.trans hstopped)
  · rename_i admitted
    rw [if_neg admitted] at hold ⊢
    exact hold hstopped

theorem Excused.run (h : d.Excused) {deeds : List Deed}
    (along : d.intake.Along p stream Intake.IsOpen deeds) : (d.run p stream deeds).Excused := by
  induction deeds generalizing d with
  | nil => exact h
  | cons deed deeds ih =>
    obtain ⟨hopen, hlater⟩ := along
    rw [← act_intake] at hlater
    exact ih (h.act hopen deed) hlater

/-- Of two lists one of which begins with the other, what was taken covers all that waited before the first
ticket without `q`, if it covers all or has come to such a ticket. -/
theorem takeWhile_covered {α : Type} {q : α → Bool} {taken waiting : List α}
    (h : taken <+: waiting ∨ waiting <+: taken) (failed : waiting <+: taken ∨ ∃ a ∈ taken, q a = false) :
    waiting.takeWhile q <+: taken := by
  have hsome (l : List α) : l.takeWhile q <+: l := List.takeWhile_prefix q
  rcases failed with hw | ⟨a, ha, hq⟩
  · exact (hsome waiting).trans hw
  · rcases h with ⟨rest, rfl⟩ | hw
    · rw [List.takeWhile_append, if_neg]
      · exact hsome taken
      · intro hlen
        have hall := List.all_takeWhile (p := q) (l := taken)
        rw [(hsome taken).eq_of_length hlen] at hall
        cases hq.symm.trans (List.all_eq_true.mp hall a ha)
    · exact (hsome waiting).trans hw

/-- After a time in which connections can be accepted, all those are that waited before the first accept
error. -/
theorem InOrder.resumes (h : d.InOrder) (running : d.intake.acceptor ≠ .stopped) {deeds : List Deed}
    (along : d.intake.Along p stream Intake.IsOpen deeds) (hopen : (d.run p stream deeds).intake.IsOpen)
    (still : (d.run p stream deeds).intake.Still) :
    d.intake.handlers ++
        (d.intake.waiting.takeWhile (·.error?.isNone)).filterMap Ticket.id? <+:
      (d.run p stream deeds).intake.handlers := by
  have hlater := h.run p stream deeds
  obtain ⟨more, hmore, hnext⟩ := h.next p stream deeds
  have hahead : d.intake.waiting.takeWhile (·.error?.isNone) <+: more.map Taking.ticket := by
    apply takeWhile_covered hnext
    by_cases hs : (d.run p stream deeds).intake.acceptor = .stopped
    · have hexcused : d.Excused := fun ha => absurd ha running
      obtain ⟨t, ht, he⟩ := hexcused.run along hs
      rw [hmore] at ht
      rcases List.mem_append.mp ht with ht | ht
      · exact absurd (h.served.resolve_left running t ht) he
      · refine .inr ⟨t.ticket, List.mem_map_of_mem ht, ?_⟩
        cases hn : t.ticket.error? with
        | none => exact absurd hn he
        | some e => rfl
    · left
      have hempty : (d.run p stream deeds).intake.waiting = [] := by
        rcases Intake.acceptor_at_rest (still .acceptor) with ha | ⟨_, ⟨_, hb⟩ | ⟨_, _, hq⟩⟩
        · exact absurd ha hs
        · cases hopen.1.symm.trans hb
        · rw [Intake.waiting, hq, List.map_nil]
      obtain ⟨⟨new, hnew⟩, _⟩ := d.run_adds p stream deeds
      have hqueue := hlater.queue
      rw [hempty, hmore, ← hnew, h.queue, List.append_nil, List.map_append, List.append_assoc] at hqueue
      exact ⟨new, List.append_cancel_left hqueue⟩
  rw [hlater.handlers, hmore, List.map_append, List.filterMap_append, h.handlers]
  exact (List.prefix_append_right_inj _).mpr (hahead.filterMap _)

end Docket

namespace Ledger

open Intake (Deed)

variable {p : Partitioner} {stream : String} {l m : Ledger} {w : Intake} {sent : Nat → Bytes} {deed : Deed}

/-- Between `l` and `m` nothing was read, accepted or sent on. -/
structure Standstill (l m : Ledger) : Prop where
  standings : m.intake.connections.map (standing m.sent) = l.intake.connections.map (standing l.sent)
  handlers : m.intake.handlers = l.intake.handlers
  accepts : m.intake.accepts = l.intake.accepts
  accepted : m.accepted = l.accepted
  messages : m.intake.metrics.messages = l.intake.metrics.messages

theorem Standstill.refl (l : Ledger) : Standstill l l := ⟨rfl, rfl, rfl, rfl, rfl⟩

theorem Standstill.trans {k : Ledger} (h : Standstill l m) (h' : Standstill m k) : Standstill l k :=
  ⟨h'.standings.trans h.standings, h'.handlers.trans h.handlers, h'.accepts.trans h.accepts,
    h'.accepted.trans h.accepted, h'.messages.trans h.messages⟩

/-- Where the handlers stand, in one list or another, tells whether they have ended. -/
theorem ended_of_standings {cs ds : List Connection} {sent sent' : Nat → Bytes}
    (h : ds.map (standing sent') = cs.map (standing sent)) (ended : ∀ c ∈ cs, c.isEnded = true) :
    ∀ d ∈ ds, d.isEnded = true := by
  intro d hd
  have hmem : standing sent' d ∈ cs.map (standing sent) := h ▸ List.mem_map_of_mem hd
  obtain ⟨c, hc, he⟩ := List.mem_map.mp hmem
  have hphase : c.phase = d.phase := (Prod.mk.inj (Prod.mk.inj he).2).1
  have := ended c hc
  rwa [Connection.isEnded, hphase] at this

theorem standstill_act (h : l.intake.Parked) (burned : l.intake.signals.burned = true)
    (admitted : l.intake.admits p stream deed = true) :
    Standstill l (l.act p stream deed) ∧ (l.act p stream deed).intake.Parked := by
  rw [act_of_admits admitted]
  by_cases hmove : ∃ task, deed = .move task
  · obtain ⟨task, rfl⟩ := hmove
    rw [Intake.act]
    cases hm : l.intake.move task with
    | none =>
      rw [Option.getD_none, gained_self, List.append_nil]
      exact ⟨⟨rfl, rfl, rfl, rfl, rfl⟩, h⟩
    | some v =>
      obtain rfl := h.move burned hm
      refine ⟨⟨rfl, rfl, rfl, ?_, rfl⟩, h.ended, .inr rfl⟩
      rw [Option.getD_some]
      exact (congrArg _ (gained_self _)).trans (List.append_nil _)
  · have hquiet : ∀ task, deed ≠ .move task := fun task he => hmove ⟨task, he⟩
    have hstand := standings_act l.intake l.sent hquiet admitted
    obtain ⟨hmetrics, hacceptor⟩ := l.intake.act_metrics hquiet
    refine ⟨⟨hstand, ?_, l.intake.act_accepts hquiet, ?_, congrArg Metrics.messages hmetrics⟩, ?_, ?_⟩
    · exact (l.intake.act_apart fun he => hquiet _ he).handlers
    · rw [gained_act l.intake hquiet, List.append_nil]
    · exact ended_of_standings hstand h.ended
    · exact hacceptor.symm ▸ h.acceptor

theorem act_intake (l : Ledger) (deed : Deed) :
    (l.act p stream deed).intake = l.intake.perform p stream deed := by
  unfold Ledger.act Intake.perform
  split <;> rfl

theorem standstill_run (h : l.intake.Parked) {deeds : List Deed}
    (burned : l.intake.Along p stream (·.signals.burned = true) deeds) :
    Standstill l (l.run p stream deeds) ∧ (l.run p stream deeds).intake.Parked := by
  induction deeds generalizing l with
  | nil => exact ⟨.refl l, h⟩
  | cons deed deeds ih =>
    obtain ⟨hb, hlater⟩ := burned
    rw [← act_intake] at hlater
    have hact : Standstill l (l.act p stream deed) ∧ (l.act p stream deed).intake.Parked := by
      by_cases admitted : l.intake.admits p stream deed = true
      · exact standstill_act h hb admitted
      · rw [Ledger.act, if_neg admitted]
        exact ⟨.refl l, h⟩
    obtain ⟨hstill, hparked⟩ := ih hact.2 hlater
    exact ⟨hact.1.trans hstill, hparked⟩

/-- Of a connection that waits, nothing was read. -/
theorem Kept.readOf_waiting (h : l.Kept p stream) {c : Connection}
    (hc : .connection c ∈ l.intake.backlog) : readOf l.sent c = [] := by
  have hpeer : c ∈ l.intake.peers := by
    apply List.mem_append_right
    exact List.mem_filterMap.mpr ⟨_, hc, rfl⟩
  obtain ⟨source, arrived, he⟩ := h.unopened c hc
  obtain ⟨ch, bytes, taken, hk, hconn, hsent, hmessages⟩ := (h.told.chronicled c hpeer).kept
  have hsilent : messagesOf l.accepted c.id = [] := by
    apply messagesOf_of_ne
    intro d hd hid
    have hsender := h.told.senders d hd
    have hnodup := h.told.nodup
    rw [Intake.ids, Intake.peers, List.map_append] at hnodup
    refine (List.nodup_append.mp hnodup).2.2 _ hsender c.id ?_ hid
    exact List.mem_map_of_mem (List.mem_filterMap.mpr ⟨_, hc, rfl⟩)
  have hphase : ch.connection.phase = .unstarted := by rw [hconn, he]; rfl
  have hflight : ch.inFlight = none := by rw [Chronicle.inFlight, hphase]
  have hbuffer := hk.accounted.buffer (by simp [hphase])
  rw [hmessages, hsilent, hflight, hconn, he] at hbuffer
  rw [readOf, ← hsent, ← hconn]
  exact hbuffer

/-- The same deeds take a docket along. -/
theorem run_docket (p : Partitioner) (stream : String) {d : Docket} (h : l.intake = d.intake)
    (deeds : List Deed) :
    (l.run p stream deeds).intake = (d.run p stream deeds).intake := by
  induction deeds generalizing l d with
  | nil => exact h
  | cons deed deeds ih =>
    apply ih
    rw [act_intake, Docket.act_intake, h]

/-- What a burned fuse does to an intake, and what its clearing does. -/
structure Drained (p : Partitioner) (stream : String) (l : Ledger) : Prop where
  empty : l.intake.signals.burned = true → l.intake.Still →
    (∀ c ∈ l.intake.connections, c.isEnded = true) ∧ l.intake.acceptor ≠ .accepting ∧
      l.intake.metrics.active = 0
  /-- As long as the fuse stays burned, whatever happens. -/
  standstill : l.intake.signals.burned = true → l.intake.Still → ∀ deeds,
    l.intake.Along p stream (·.signals.burned = true) deeds →
      Standstill l (l.run p stream deeds) ∧
      (∀ c, .connection c ∈ (l.run p stream deeds).intake.backlog →
        readOf (l.run p stream deeds).sent c = []) ∧
      (l.run p stream deeds).intake.acceptor ≠ .accepting
  /-- Accepted are those before the first accept error, which are all if there is none. -/
  resumes : l.intake.signals.burned = true → l.intake.Still → l.intake.acceptor ≠ .stopped → ∀ deeds,
    let cleared := l.act p stream (.occur (.turnFuse false))
    cleared.intake.Along p stream Intake.IsOpen deeds → (cleared.run p stream deeds).intake.Still →
      l.intake.handlers ++
          (l.intake.waiting.takeWhile (·.error?.isNone)).filterMap Ticket.id? <+:
        (cleared.run p stream deeds).intake.handlers ∧
      ((∀ t ∈ l.intake.waiting, t.error? = none) → ∀ id, .connection id ∈ l.intake.waiting →
        id ∈ (cleared.run p stream deeds).intake.handlers)

theorem along_last {q : Intake → Prop} {deeds : List Deed} (h : l.intake.Along p stream q deeds) :
    q (l.run p stream deeds).intake := by
  induction deeds generalizing l with
  | nil => exact h
  | cons deed deeds ih =>
    apply ih
    rw [act_intake]
    exact h.2

/-- The second half of `Drained.resumes`, from the first. -/
theorem mem_of_takeWhile {waiting : List Ticket} {handlers later : List Nat}
    (h : handlers ++ (waiting.takeWhile (·.error?.isNone)).filterMap Ticket.id? <+: later)
    (connections : ∀ t ∈ waiting, t.error? = none) {id : Nat} (hid : .connection id ∈ waiting) :
    id ∈ later := by
  have hall : waiting.takeWhile (·.error?.isNone) = waiting := by
    apply List.takeWhile_eq_self_iff.mpr
    intro t ht
    rw [connections t ht]
    rfl
  rw [hall] at h
  apply h.subset
  apply List.mem_append_right
  exact List.mem_filterMap.mpr ⟨_, hid, rfl⟩

/-- Whatever happens and in whatever order, a burned fuse drains the intake, and its clearing lets in those
who wait. -/
theorem run_drained (p : Partitioner) (stream : String) (localAddress : Option String)
    (signals : Signals) (free : Option Nat) (fault : Option Fault) (closed : Bool)
    (deeds : List Deed) :
    ((start localAddress signals free fault closed).run p stream deeds).Drained p stream := by
  have hkept := (kept_start p stream localAddress signals free fault closed).run deeds
  have hdocket : ∃ d : Docket, d.InOrder ∧
      ((start localAddress signals free fault closed).run p stream deeds).intake = d.intake :=
    ⟨_, (Docket.inOrder_start localAddress signals { free, fault, closed }).run p stream deeds,
      run_docket p stream rfl deeds⟩
  generalize (start localAddress signals free fault closed).run p stream deeds = l at hkept hdocket
  obtain ⟨d, horder, hsame⟩ := hdocket
  have hnumbers := hkept.told.nodup
  refine ⟨?_, ?_, ?_⟩
  · intro burned still
    have hparked := still.parked hnumbers burned
    refine ⟨hparked.ended, ?_, ?_⟩
    · rcases hparked.acceptor with ha | ha <;> simp [ha]
    · rw [hkept.tallied.active, countP_running_of_ended hparked.ended]
      rfl
  · intro burned still more along
    obtain ⟨hstill, hparked⟩ := standstill_run (still.parked hnumbers burned) along
    refine ⟨hstill, ?_, ?_⟩
    · intro c hc
      exact (hkept.run more).readOf_waiting hc
    · rcases hparked.acceptor with ha | ha <;> simp [ha]
  · intro _ _ running more cleared along still
    have hcleared : cleared.intake = (d.act p stream (.occur (.turnFuse false))).intake := by
      rw [act_intake, Docket.act_intake, hsame]
    have hact : (d.act p stream (.occur (.turnFuse false))).intake =
        d.intake.act (.occur (.turnFuse false)) := rfl
    have hapart : d.intake.Apart (d.intake.act (.occur (.turnFuse false))) [] :=
      d.intake.act_apart (by simp)
    have hwaiting := hapart.waiting.trans (List.append_nil _)
    have hacceptor : (d.intake.act (.occur (.turnFuse false))).acceptor = d.intake.acceptor :=
      d.intake.act_acceptor (by simp)
    have hrun := run_docket p stream hcleared more
    have hopen := along_last along
    rw [hrun] at hopen still ⊢
    rw [hcleared] at along
    have hrunning : (d.act p stream (.occur (.turnFuse false))).intake.acceptor ≠ .stopped := by
      rw [hact, hacceptor, ← hsame]
      exact running
    have hahead := (horder.act (.occur (.turnFuse false))).resumes hrunning along hopen still
    rw [hact, hapart.handlers, hwaiting, ← hsame] at hahead
    exact ⟨hahead, fun connections id hid => mem_of_takeWhile hahead connections hid⟩

/-- States that the clearing of the fuse lets in all who wait, once nothing moves any more. -/
def LetsIn (p : Partitioner) (stream : String) (l : Ledger) (deeds : List Deed) : Prop :=
  l.intake.signals.burned = true → l.intake.Still → l.intake.listenerClosed = false →
    l.intake.acceptor ≠ .stopped →
      let cleared := l.act p stream (.occur (.turnFuse false))
      (∀ deed ∈ deeds, deed.isInner = true) → (cleared.run p stream deeds).intake.Still →
        ∀ id, .connection id ∈ l.intake.waiting →
          id ∈ (cleared.run p stream deeds).intake.handlers

/-- Not so behind an accept error, which ends the acceptor, and not so after a shutdown, which ends it as
soon as it wakes. -/
theorem left_waiting :
    let p : Partitioner := .fixed 1 (by decide)
    let peer := Connection.start 0 "a" p "s"
    let held := (start none { fuse := { burned := true } } none none false).run p "s"
      [.move .acceptor, .move .acceptor]
    ¬ LetsIn p "s"
        (held.run p "s" [.occur (.acceptError ⟨.other, "accept exploded"⟩), .occur (.connect peer)])
        [.move .acceptor, .move .acceptor, .move .acceptor] ∧
      ¬ LetsIn p "s" (held.run p "s" [.occur (.connect peer), .occur .cancel])
        [.move .acceptor, .move .acceptor] := by
  intro p peer held
  constructor
  · intro h
    have hin := h (by decide +kernel) (Intake.still_of_movable (by decide +kernel))
      (by decide +kernel) (by decide +kernel) (by decide)
      (Intake.still_of_movable (by decide +kernel)) 0 (by decide +kernel)
    revert hin
    decide +kernel
  · intro h
    have hin := h (by decide +kernel) (Intake.still_of_movable (by decide +kernel))
      (by decide +kernel) (by decide +kernel) (by decide)
      (Intake.still_of_movable (by decide +kernel)) 0 (by decide +kernel)
    revert hin
    decide +kernel

end Ledger

end FrameIntake
