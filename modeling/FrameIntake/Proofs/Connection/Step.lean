import FrameIntake.Connection

/-!
What one step of a handler can do, and what it does to the sink. A step sends one message at most, and
to a sink that is closed it sends none (`step_sink`).
-/

namespace FrameIntake

namespace Sink

theorem offer_cases (s : Sink) (sender : Nat) (m : Message) :
    match s.offer sender m with
    | (.accepted, t) =>
      s.panic? m = none ∧ s.closed = false ∧ t.sent = ⟨sender, m⟩ :: s.sent ∧ t.closed = false
    | (.waits, t) => s.panic? m = none ∧ s.closed = false ∧ t.sent = s.sent ∧ t.closed = false
    | (.refused, t) => s.panic? m = none ∧ s.closed = true ∧ t = s.leave sender
    | (.panicked what, t) => s.panic? m = some what ∧ t = s := by
  unfold offer
  cases hp : s.panic? m with
  | some what => exact ⟨rfl, rfl⟩
  | none =>
    cases hc : s.closed with
    | true => exact ⟨rfl, rfl, rfl⟩
    | false =>
      have hl : (s.lineUp sender).sent = s.sent ∧ (s.lineUp sender).closed = false := by
        unfold lineUp
        split <;> exact ⟨rfl, hc⟩
      dsimp only
      by_cases hg : sender ∈ (s.lineUp sender).granted
      · rw [if_neg Bool.false_ne_true, if_pos hg]
        exact ⟨rfl, rfl, rfl, hl.2⟩
      · rw [if_neg Bool.false_ne_true, if_neg hg]
        exact ⟨rfl, rfl, hl⟩

variable {s t : Sink} {sender : Nat} {m : Message}

theorem offer_accepted (h : s.offer sender m = (.accepted, t)) :
    s.closed = false ∧ t.sent = ⟨sender, m⟩ :: s.sent ∧ t.closed = false := by
  have ho := s.offer_cases sender m
  rw [h] at ho
  exact ho.2

theorem offer_waits (h : s.offer sender m = (.waits, t)) :
    s.closed = false ∧ t.sent = s.sent ∧ t.closed = false := by
  have ho := s.offer_cases sender m
  rw [h] at ho
  exact ho.2

theorem offer_refused (h : s.offer sender m = (.refused, t)) : t = s.leave sender := by
  have ho := s.offer_cases sender m
  rw [h] at ho
  exact ho.2.2

theorem offer_panicked {what : String} (h : s.offer sender m = (.panicked what, t)) : t = s := by
  have ho := s.offer_cases sender m
  rw [h] at ho
  exact ho.2

/-- What sort of sink it is stays. -/
theorem offer_kind (s : Sink) (sender : Nat) (m : Message) :
    (s.offer sender m).2.fault = s.fault ∧ (s.offer sender m).2.isBounded = s.isBounded := by
  have hl : (s.lineUp sender).fault = s.fault ∧ (s.lineUp sender).isBounded = s.isBounded := by
    unfold lineUp
    split <;> exact ⟨rfl, rfl⟩
  unfold offer
  cases s.panic? m with
  | some what => exact ⟨rfl, rfl⟩
  | none =>
    dsimp only
    split
    · exact ⟨rfl, rfl⟩
    · split
      · exact ⟨hl.1, Option.isSome_map⟩
      · exact hl

end Sink

theorem Signals.eq_of_stop? {signals : Signals} {outcome : Outcome} (h : signals.stop? = some outcome) :
    signals.cancelled = true ∧ outcome = .shutdown ∨
      signals.cancelled = false ∧ signals.burned = true ∧ outcome = .fuseBurned := by
  unfold stop? at h
  split at h
  · exact .inl ⟨‹_›, (Option.some.inj h).symm⟩
  · rename_i hc
    split at h
    · exact .inr ⟨Bool.not_eq_true _ ▸ hc, ‹_›, (Option.some.inj h).symm⟩
    · contradiction

namespace Connection

variable {c : Connection} {signals : Signals} {sink : Sink} {left : Nat} {g : Handled}

@[simp] theorem arrive_id (c : Connection) (read : Read) : (c.arrive read).id = c.id := by
  unfold arrive
  split <;> rfl

@[simp] theorem hear_id (c : Connection) : c.hear.id = c.id := by
  unfold hear
  split <;> rfl

@[simp] theorem arrive_phase (c : Connection) (read : Read) : (c.arrive read).phase = c.phase := by
  unfold arrive
  split <;> rfl

@[simp] theorem hear_phase (c : Connection) : c.hear.phase = c.phase := by
  unfold hear
  split <;> rfl

theorem isRunning_of_reading (h : c.phase = .reading) : c.isRunning = true := by
  rw [isRunning, h]

theorem isRunning_of_routing {m : Message} {inLine : Bool} (h : c.phase = .routing m inLine) :
    c.isRunning = true := by
  rw [isRunning, h]

theorem isEnded_of_running (h : c.isRunning = true) : c.isEnded = false := by
  unfold isRunning at h
  unfold isEnded
  cases hp : c.phase with
  | unstarted | reading | routing => rfl
  | ended => simp [hp] at h

theorem isRunning_cases (h : c.isRunning = true) :
    c.phase = .reading ∨ ∃ m inLine, c.phase = .routing m inLine := by
  unfold isRunning at h
  cases hp : c.phase with
  | reading => exact .inl rfl
  | routing m inLine => exact .inr ⟨m, inLine, rfl⟩
  | unstarted | ended => simp [hp] at h

/-- Everything that a step can do. -/
inductive Steps (c : Connection) (signals : Signals) (sink : Sink) (left : Nat) : Handled → Prop
  | opened (unstarted : c.phase = .unstarted) :
      Steps c signals sink left
        { connection := { c with phase := .reading }, sink
          notices := [.connectionOpened c.peer c.reader.stream] }
  | interrupted {outcome} (running : c.isRunning = true) (stop : signals.stop? = some outcome) :
      Steps c signals sink left (c.interrupt sink outcome)
  | gaveUp (running : c.isRunning = true) (lost : signals.turnable = false)
      (new : c.fuseGivenUp = false) :
      Steps c signals sink left
        { connection := { c with fuseGivenUp := true }, sink, effort := 1 }
  | read {next : Handled} (reading : c.phase = .reading)
      (h : c.read signals sink left = some next) : Steps c signals sink left next
  | accepted {m inLine sink'} (routing : c.phase = .routing m inLine)
      (offer : sink.offer c.id m = (.accepted, sink')) :
      Steps c signals sink left
        { connection := { c with phase := .reading, fuseGivenUp := false }, sink := sink'
          effort := if sink'.isBounded then 1 else 0
          metrics := [.messageRouted] }
  | linedUp {m sink'} (routing : c.phase = .routing m false)
      (offer : sink.offer c.id m = (.waits, sink')) :
      Steps c signals sink left { connection := { c with phase := .routing m true }, sink := sink' }
  | refused {m inLine sink'} (routing : c.phase = .routing m inLine)
      (offer : sink.offer c.id m = (.refused, sink')) :
      Steps c signals sink left
        { connection := c.finish .sinkClosed, sink := sink'
          notices := [.sinkRefused c.peer]
          metrics := [.error .sink] }
  | panicked {m inLine sink' what} (routing : c.phase = .routing m inLine)
      (offer : sink.offer c.id m = (.panicked what, sink')) :
      Steps c signals sink left
        { connection := { c with phase := .ended (.panicked what) }, sink := sink' }

theorem watch_steps {move : Option Handled} (running : c.isRunning = true)
    (hm : ∀ g, move = some g → c.Steps signals sink left g)
    (h : c.watch signals sink left move = some g) : c.Steps signals sink left g := by
  unfold watch at h
  cases hs : signals.stop? with
  | some outcome =>
    rw [hs] at h
    obtain rfl := Option.some.inj h
    exact .interrupted running hs
  | none =>
    rw [hs] at h
    dsimp only at h
    split at h
    · rename_i hf
      simp only [Bool.and_eq_true, Bool.not_eq_true', decide_eq_true_eq] at hf
      obtain rfl := Option.some.inj h
      exact .gaveUp running hf.1.1 hf.1.2
    · exact hm g h

theorem route_steps {m : Message} {inLine : Bool} (routing : c.phase = .routing m inLine)
    (h : c.route sink m inLine left = some g) : c.Steps signals sink left g := by
  unfold route at h
  split at h
  · contradiction
  cases ho : sink.offer c.id m with
  | mk offer sink' =>
    rw [ho] at h
    cases offer with
    | accepted =>
      obtain rfl := Option.some.inj h
      exact .accepted routing ho
    | refused =>
      obtain rfl := Option.some.inj h
      exact .refused routing ho
    | panicked what =>
      obtain rfl := Option.some.inj h
      exact .panicked routing ho
    | waits =>
      cases inLine with
      | true => cases h
      | false =>
        obtain rfl := Option.some.inj h
        exact .linedUp routing ho

theorem step_steps (h : c.step signals sink left = some g) : c.Steps signals sink left g := by
  unfold step at h
  cases hp : c.phase with
  | unstarted =>
    rw [hp] at h
    obtain rfl := Option.some.inj h
    exact .opened hp
  | reading =>
    rw [hp] at h
    exact watch_steps (isRunning_of_reading hp) (fun _ => .read hp) h
  | routing m inLine =>
    rw [hp] at h
    exact watch_steps (isRunning_of_routing hp) (fun _ => route_steps hp) h
  | ended ending =>
    rw [hp] at h
    cases h

/-- Only who has not ended steps. -/
theorem unstarted_or_running (h : c.step signals sink left = some g) :
    c.phase = .unstarted ∨ c.isRunning = true := by
  cases step_steps h with
  | opened unstarted => exact .inl unstarted
  | interrupted running | gaveUp running => exact .inr running
  | read reading => exact .inr (isRunning_of_reading reading)
  | accepted routing | linedUp routing | refused routing | panicked routing =>
    exact .inr (isRunning_of_routing routing)

theorem step_of_ended (h : c.isEnded = true) : c.step signals sink left = none := by
  unfold isEnded at h
  unfold step
  split at h
  · rename_i hp
    rw [hp]
  · contradiction

/-- Everything that a look at the source can come to. -/
inductive Reads (c : Connection) (signals : Signals) (sink : Sink) (left : Nat) : Handled → Prop
  | message {m r rest effort}
      (poll : c.reader.poll .waits (sink.holdsFrom c.id) (c.within left) = (.message m, r, rest)) :
      Reads c signals sink left
        { connection :=
            { c with
              reader := r, arrived := rest ++ c.beyond left, phase := .routing m false
              fuseGivenUp := false }
          sink, effort }
  | ended {r rest}
      (poll : c.reader.poll .waits (sink.holdsFrom c.id) (c.within left) = (.ended, r, rest)) :
      Reads c signals sink left
        { connection :=
            ({ c with reader := r, arrived := rest ++ c.beyond left } : Connection).finish .peerClosed
          sink }
  | failed {e r rest}
      (poll : c.reader.poll .waits (sink.holdsFrom c.id) (c.within left) = (.error e, r, rest)) :
      Reads c signals sink left
        (({ c with reader := r, arrived := rest ++ c.beyond left } : Connection).fail signals sink e)
  | pending {r rest effort}
      (poll : c.reader.poll .waits (sink.holdsFrom c.id) (c.within left) = (.pending, r, rest)) :
      Reads c signals sink left
        { connection := { c with reader := r, arrived := rest ++ c.beyond left }, sink, effort }

theorem read_reads (h : c.read signals sink left = some g) : c.Reads signals sink left g := by
  unfold read at h
  cases hp : c.reader.poll .waits (sink.holdsFrom c.id) (c.within left) with
  | mk item answer =>
    obtain ⟨r, rest⟩ := answer
    rw [hp] at h
    cases item with
    | message m =>
      obtain rfl := Option.some.inj h
      exact .message hp
    | ended =>
      obtain rfl := Option.some.inj h
      exact .ended hp
    | error e =>
      obtain rfl := Option.some.inj h
      exact .failed hp
    | pending =>
      dsimp only at h
      split at h
      · contradiction
      · obtain rfl := Option.some.inj h
        exact .pending hp

/-- A look at the source leaves the sink as it is, and no signal ends it. -/
theorem read_frame (h : c.read signals sink left = some g) :
    g.sink = sink ∧ g.connection.id = c.id ∧
      (c.phase = .reading → g.connection.phase ≠ .ended (.outcome .shutdown)) := by
  cases read_reads h with
  | message poll => exact ⟨rfl, rfl, by simp⟩
  | ended poll => exact ⟨rfl, rfl, by simp [finish]⟩
  | failed poll =>
    rename_i e r rest
    cases e <;> exact ⟨rfl, rfl, by simp [fail, finish]⟩
  | pending poll =>
    refine ⟨rfl, rfl, ?_⟩
    intro hr
    simp [hr]

/-- What a step sends comes from this connection, and it sends nothing to a sink that is closed. -/
theorem step_sink (h : c.step signals sink left = some g) :
    g.connection.id = c.id ∧ g.sink.closed = sink.closed ∧
      ∃ new, g.sink.sent = new ++ sink.sent ∧ (∀ d ∈ new, d.sender = c.id) ∧
        (sink.closed = true → new = []) := by
  cases step_steps h with
  | opened unstarted => exact ⟨rfl, rfl, [], rfl, by simp, fun _ => rfl⟩
  | interrupted running stop => exact ⟨rfl, rfl, [], rfl, by simp, fun _ => rfl⟩
  | gaveUp running lost new => exact ⟨rfl, rfl, [], rfl, by simp, fun _ => rfl⟩
  | read reading h =>
    obtain ⟨hs, hi, _⟩ := read_frame h
    exact ⟨hi, by rw [hs], [], by rw [hs, List.nil_append], by simp, fun _ => rfl⟩
  | accepted routing offer =>
    rename_i m inLine sink'
    obtain ⟨hc, hs, hc'⟩ := Sink.offer_accepted offer
    refine ⟨rfl, hc'.trans hc.symm, [⟨c.id, m⟩], hs, by simp, ?_⟩
    intro h
    cases hc.symm.trans h
  | linedUp routing offer =>
    obtain ⟨hc, hs, hc'⟩ := Sink.offer_waits offer
    exact ⟨rfl, hc'.trans hc.symm, [], hs, by simp, fun _ => rfl⟩
  | refused routing offer =>
    obtain rfl := Sink.offer_refused offer
    exact ⟨rfl, rfl, [], rfl, by simp, fun _ => rfl⟩
  | panicked routing offer =>
    obtain rfl := Sink.offer_panicked offer
    exact ⟨rfl, rfl, [], rfl, by simp, fun _ => rfl⟩

theorem step_kind (h : c.step signals sink left = some g) :
    g.sink.fault = sink.fault ∧ g.sink.isBounded = sink.isBounded := by
  have hoffer {m : Message} {answer : Offer} {sink' : Sink} (ho : sink.offer c.id m = (answer, sink')) :
      sink'.fault = sink.fault ∧ sink'.isBounded = sink.isBounded := by
    have := sink.offer_kind c.id m
    rwa [ho] at this
  cases step_steps h with
  | opened unstarted | gaveUp running lost new | interrupted running stop => exact ⟨rfl, rfl⟩
  | read reading h =>
    rw [(read_frame h).1]
    exact ⟨rfl, rfl⟩
  | accepted routing offer | linedUp routing offer | refused routing offer | panicked routing offer =>
    exact hoffer offer

/-- Only a shutdown ends a handler as one. -/
theorem step_shutdown (h : c.step signals sink left = some g)
    (hg : g.connection.phase = .ended (.outcome .shutdown)) : signals.cancelled = true := by
  cases step_steps h with
  | opened unstarted => cases hg
  | interrupted running stop =>
    cases hg
    rcases Signals.eq_of_stop? stop with ⟨hc, _⟩ | ⟨_, _, he⟩
    · exact hc
    · cases he
  | gaveUp running lost new =>
    have hp : c.phase = .ended (.outcome .shutdown) := hg
    simp [isRunning, hp] at running
  | read reading h => exact absurd hg ((read_frame h).2.2 reading)
  | accepted routing offer => cases hg
  | linedUp routing offer => cases hg
  | refused routing offer => cases hg
  | panicked routing offer => cases hg

/-- A signal to stop moves every handler, whatever it waits for. -/
theorem step_of_stop {outcome : Outcome} (stop : signals.stop? = some outcome) (h : c.isEnded = false)
    (sink : Sink) (left : Nat) : (c.step signals sink left).isSome = true := by
  unfold step
  cases hp : c.phase with
  | unstarted => rfl
  | reading => simp [watch, stop]
  | routing m inLine => simp [watch, stop]
  | ended ending => simp [isEnded, hp] at h

theorem step_of_cancelled (cancelled : signals.cancelled = true) (h : c.isEnded = false)
    (sink : Sink) (left : Nat) : (c.step signals sink left).isSome = true :=
  step_of_stop (by rw [Signals.stop?, if_pos cancelled]) h sink left

/-- Once there is a signal to stop, a handler that runs does nothing else. -/
theorem step_interrupts {outcome : Outcome} (stop : signals.stop? = some outcome)
    (running : c.isRunning = true) (h : c.step signals sink left = some g) :
    g = c.interrupt sink outcome := by
  unfold step at h
  rcases isRunning_cases running with hp | ⟨m, inLine, hp⟩
  all_goals
    rw [hp] at h
    simp only [watch, stop, Option.some.injEq] at h
    exact h.symm

end Connection

end FrameIntake
