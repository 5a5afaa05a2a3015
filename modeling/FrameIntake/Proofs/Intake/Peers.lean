import FrameIntake.Proofs.Connection.Step
import FrameIntake.Proofs.Intake.Deeds

/-!
What becomes of the connections in one deed, and of their numbers. A connection is accepted only while
the acceptor runs (`act_connections`), and no number is given twice (`nodup_act`).
-/

namespace FrameIntake

/-- What one deed can make of a connection. -/
inductive Connection.Becomes (signals : Signals) (sink : Sink) (left : Nat) (c : Connection) :
    Connection → Prop
  | same : Becomes signals sink left c c
  | arrive (read : Read) : Becomes signals sink left c (c.arrive read)
  | hear : Becomes signals sink left c c.hear
  | step {g : Handled} (h : c.step signals sink left = some g) :
      Becomes signals sink left c g.connection

namespace Connection

variable {signals : Signals} {sink : Sink} {left : Nat} {c k : Connection}

/-- Who has ended stays so. -/
theorem Becomes.isEnded (h : c.Becomes signals sink left k) (ended : c.isEnded = true) :
    k.isEnded = true := by
  cases h with
  | same => exact ended
  | arrive read =>
    rw [Connection.isEnded, c.arrive_phase read]
    exact ended
  | hear =>
    rw [Connection.isEnded, c.hear_phase]
    exact ended
  | step hs =>
    rw [step_of_ended ended] at hs
    cases hs

/-- Only who was told to ends as by a shutdown. -/
theorem Becomes.shutdown (h : c.Becomes signals sink left k)
    (hk : k.phase = .ended (.outcome .shutdown)) :
    c.phase = .ended (.outcome .shutdown) ∨ signals.cancelled = true := by
  cases h with
  | same => exact .inl hk
  | arrive read => exact .inl (c.arrive_phase read ▸ hk)
  | hear => exact .inl (c.hear_phase ▸ hk)
  | step hs => exact .inr (step_shutdown hs hk)

end Connection

namespace Intake

variable {w v : Intake} {c k : Connection} {p : Partitioner} {stream : String}

/-- The number that a deed gives. -/
def Deed.newId? : Deed → Option Nat
  | .occur (.connect c) => some c.id
  | _ => none

theorem move_ids {task : Task} (h : w.move task = some v) :
    v.ids = w.ids ∧ w.connections.map Connection.id <+: v.connections.map Connection.id := by
  cases task with
  | acceptor =>
    obtain ⟨hp, _, hc⟩ := stepAcceptor_frame h
    exact ⟨by rw [ids, hp, ids], hc.map Connection.id⟩
  | connection id =>
    obtain ⟨front, c, back, g, hcs, _, hs, rfl⟩ := stepConnection_split h
    obtain ⟨hid, _⟩ := Connection.step_sink hs
    have hconn : (w.handled (g.supervised c.phase) (front ++ g.connection :: back)).connections =
        front ++ g.connection :: back := rfl
    have hb : (w.handled (g.supervised c.phase) (front ++ g.connection :: back)).backlog =
        w.backlog := rfl
    constructor
    · simp [ids, peers, hconn, hb, hcs, hid]
    · simp [hconn, hcs, hid]

theorem act_ids (w : Intake) (deed : Deed) :
    (w.act deed).ids = w.ids ++ deed.newId?.toList ∧
      w.connections.map Connection.id <+: (w.act deed).connections.map Connection.id := by
  have hframe := w.act_frame deed
  cases deed with
  | move task =>
    rw [act]
    cases hm : w.move task with
    | none => exact ⟨(List.append_nil _).symm, List.prefix_refl _⟩
    | some v =>
      obtain ⟨hi, hc⟩ := move_ids hm
      exact ⟨hi.trans (List.append_nil _).symm, hc⟩
  | hear =>
    have hid : Connection.id ∘ Connection.hear = Connection.id := funext Connection.hear_id
    obtain ⟨hconn, hb⟩ := hframe
    constructor
    · simp [ids, peers, hconn, hb, hid, Deed.newId?]
    · simp [hconn, hid]
  | drain | arrange awake spent turns paused =>
    exact ⟨(List.append_nil _).symm, List.prefix_refl _⟩
  | occur event =>
    cases event with
    | connect c =>
      obtain ⟨hconn, hpeers⟩ := hframe
      exact ⟨by simp [ids, hpeers, Deed.newId?], hconn ▸ List.prefix_refl _⟩
    | arrive id read =>
      obtain ⟨hconn, hpeers⟩ := hframe
      have hid : Connection.id ∘ (fun c : Connection => if c.id = id then c.arrive read else c) =
          Connection.id := by
        funext c
        simp only [Function.comp]
        split
        · exact c.arrive_id read
        · rfl
      constructor
      · simp [ids, hpeers, hid, Deed.newId?]
      · simp [hconn, hid]
    | receive count | acceptError e | closeSink | turnFuse burned | letGoOfFuse | cancel
    | closeListener =>
      obtain ⟨hconn, hpeers⟩ := hframe
      exact ⟨by simp [ids, hpeers, Deed.newId?], hconn ▸ List.prefix_refl _⟩

theorem nodup_connections (h : w.ids.Nodup) : (w.connections.map Connection.id).Nodup := by
  rw [ids, peers, List.map_append] at h
  exact (List.nodup_append.mp h).1

/-- No number is given twice. -/
theorem nodup_act {deed : Deed} (h : w.ids.Nodup) (admitted : w.admits p stream deed = true) :
    (w.act deed).ids.Nodup := by
  rw [(w.act_ids deed).1]
  cases hn : deed.newId? with
  | none => simpa using h
  | some n =>
    refine List.nodup_append.mpr ⟨h, by simp, ?_⟩
    rintro a ha b hb rfl
    rw [Option.toList_some, List.mem_singleton] at hb
    subst hb
    unfold Deed.newId? at hn
    split at hn
    · obtain rfl := Option.some.inj hn
      simp only [admits, Bool.and_eq_true, decide_eq_true_eq] at admitted
      exact admitted.1 ha
    · contradiction

theorem stepAcceptor_connections (h : w.stepAcceptor = some v) (hk : k ∈ v.connections) :
    k ∈ w.connections ∨ w.acceptor ≠ .stopped ∧ .connection k ∈ w.backlog := by
  cases stepAcceptor_steps h with
  | started | stopped | held | began | cleared | abandoned => exact .inl hk
  | accepted accepting listening next clear =>
    rename_i c rest
    rcases List.mem_append.mp hk with hk | hk
    · exact .inl hk
    · obtain rfl := List.mem_singleton.mp hk
      exact .inr ⟨by simp [accepting], by simp [next]⟩
  | failed accepting listening next clear =>
    rename_i e rest
    obtain ⟨metrics, notices, he⟩ := failAccept_frame { w with backlog := rest } e
    rw [he] at hk
    exact .inl hk

/-- Where the connections come from that there are after a deed. -/
theorem act_connections (w : Intake) (deed : Deed) (hk : k ∈ (w.act deed).connections) :
    (∃ c ∈ w.connections, c.Becomes w.signals w.sink w.left k) ∨
      w.acceptor ≠ .stopped ∧ .connection k ∈ w.backlog := by
  have hframe := w.act_frame deed
  have hsame (h : k ∈ w.connections) :
      ∃ c ∈ w.connections, c.Becomes w.signals w.sink w.left k := ⟨k, h, .same⟩
  cases deed with
  | move task =>
    rw [act] at hk
    cases hm : w.move task with
    | none => exact .inl (hsame (by simpa [hm] using hk))
    | some v =>
      rw [hm, Option.getD_some] at hk
      cases task with
      | acceptor => exact (stepAcceptor_connections hm hk).imp hsame id
      | connection id =>
        obtain ⟨front, c, back, g, hcs, _, hs, rfl⟩ := stepConnection_split hm
        have hk : k ∈ front ++ g.connection :: back := hk
        rw [hcs]
        rcases List.mem_cons.mp (List.perm_middle.mem_iff.mp hk) with rfl | hk
        · exact .inl ⟨c, by simp, .step hs⟩
        · exact .inl ⟨k, List.perm_middle.mem_iff.mpr (List.mem_cons_of_mem c hk), .same⟩
  | hear =>
    rw [hframe.1] at hk
    obtain ⟨c, hc, rfl⟩ := List.mem_map.mp hk
    exact .inl ⟨c, hc, .hear⟩
  | drain | arrange awake spent turns paused => exact .inl (hsame hk)
  | occur event =>
    cases event with
    | arrive id read =>
      rw [hframe.1] at hk
      obtain ⟨c, hc, rfl⟩ := List.mem_map.mp hk
      refine .inl ⟨c, hc, ?_⟩
      split
      · exact .arrive read
      · exact .same
    | connect c | receive count | acceptError e | closeSink | turnFuse burned | letGoOfFuse | cancel
    | closeListener => exact .inl (hsame (hframe.1 ▸ hk))

/-- What no task touches. -/
theorem move_frame {task : Task} (h : w.move task = some v) :
    v.signals = w.signals ∧ v.listenerClosed = w.listenerClosed ∧ v.backlog <:+ w.backlog ∧
      (w.acceptor = .stopped → v.acceptor = .stopped) := by
  cases task with
  | connection id =>
    obtain ⟨front, c, back, g, _, _, _, rfl⟩ := stepConnection_split h
    exact ⟨rfl, rfl, List.suffix_refl _, fun ha => ha⟩
  | acceptor =>
    have hrunning : w.acceptor ≠ .stopped := by
      intro ha
      simp [move, stepAcceptor, ha] at h
    have hacceptor (ha : w.acceptor = .stopped) : v.acceptor = .stopped := absurd ha hrunning
    cases stepAcceptor_steps h with
    | started | stopped | held | began | cleared | abandoned =>
      exact ⟨rfl, rfl, List.suffix_refl _, hacceptor⟩
    | accepted accepting listening next clear =>
      exact ⟨rfl, rfl, next ▸ List.suffix_cons _ _, hacceptor⟩
    | failed accepting listening next clear =>
      rename_i e rest
      obtain ⟨metrics, notices, he⟩ := failAccept_frame { w with backlog := rest } e
      rw [he] at hacceptor ⊢
      exact ⟨rfl, rfl, next ▸ List.suffix_cons _ _, hacceptor⟩

/-- Where the connections come from that wait to be accepted after a deed. -/
theorem act_backlog (w : Intake) (deed : Deed) (hk : .connection k ∈ (w.act deed).backlog) :
    (∃ c, .connection c ∈ w.backlog ∧ (k = c ∨ ∃ read, k = c.arrive read)) ∨
      deed = .occur (.connect k) := by
  cases deed with
  | move task =>
    rw [act] at hk
    cases hm : w.move task with
    | none => exact .inl ⟨k, by simpa [hm] using hk, .inl rfl⟩
    | some v =>
      rw [hm, Option.getD_some] at hk
      exact .inl ⟨k, (move_frame hm).2.2.1.subset hk, .inl rfl⟩
  | hear | drain | arrange awake spent turns paused => exact .inl ⟨k, hk, .inl rfl⟩
  | occur event =>
    cases event with
    | connect c =>
      rcases List.mem_append.mp hk with hk | hk
      · exact .inl ⟨k, hk, .inl rfl⟩
      · rw [List.mem_singleton] at hk
        cases hk
        exact .inr rfl
    | acceptError e =>
      rcases List.mem_append.mp hk with hk | hk
      · exact .inl ⟨k, hk, .inl rfl⟩
      · rw [List.mem_singleton] at hk
        cases hk
    | arrive id read =>
      obtain ⟨arrival, ha, hm⟩ := List.mem_map.mp hk
      cases arrival with
      | failure e => cases hm
      | connection c =>
        cases hm
        refine .inl ⟨c, ha, ?_⟩
        dsimp only
        split
        · exact .inr ⟨read, rfl⟩
        · exact .inl rfl
    | receive count =>
      obtain ⟨awake, hact⟩ := w.act_receive count
      rw [hact] at hk
      exact .inl ⟨k, hk, .inl rfl⟩
    | closeSink | turnFuse burned | letGoOfFuse | cancel | closeListener =>
      exact .inl ⟨k, hk, .inl rfl⟩

/-- A deed of which only the consumer is capable. -/
def Deed.isPrivate : Deed → Bool
  | .occur .cancel | .occur .closeListener => true
  | _ => false

theorem isPrivate_of_inner {deed : Deed} (inner : deed.isInner = true) : deed.isPrivate = false := by
  cases deed with
  | occur event => contradiction
  | move | drain | hear | arrange => rfl

theorem act_signals (w : Intake) {deed : Deed} (h : deed.isPrivate = false) :
    (w.act deed).signals.cancelled = w.signals.cancelled ∧
      (w.act deed).listenerClosed = w.listenerClosed := by
  cases deed with
  | move task =>
    rw [act]
    cases hm : w.move task with
    | none => exact ⟨rfl, rfl⟩
    | some v =>
      obtain ⟨hs, hl, _⟩ := move_frame hm
      exact ⟨congrArg Signals.cancelled hs, hl⟩
  | hear | drain | arrange awake spent turns paused => exact ⟨rfl, rfl⟩
  | occur event =>
    cases event with
    | cancel | closeListener => contradiction
    | receive count =>
      obtain ⟨awake, hact⟩ := w.act_receive count
      rw [hact]
      exact ⟨rfl, rfl⟩
    | turnFuse burned =>
      have hs : (w.act (.occur (.turnFuse burned))).signals = (w.signals.turn burned).1 := rfl
      rw [hs]
      refine ⟨?_, rfl⟩
      unfold Signals.turn
      split <;> rfl
    | connect c | acceptError e | arrive id read | closeSink | letGoOfFuse => exact ⟨rfl, rfl⟩

theorem act_stopped {deed : Deed} (h : w.acceptor = .stopped) : (w.act deed).acceptor = .stopped := by
  cases deed with
  | move task =>
    rw [act]
    cases hm : w.move task with
    | none => exact h
    | some v => exact (move_frame hm).2.2.2 h
  | hear | drain | arrange awake spent turns paused => exact h
  | occur event =>
    cases event with
    | receive count =>
      obtain ⟨awake, hact⟩ := w.act_receive count
      rw [hact]
      exact h
    | _ => exact h

theorem act_closed {deed : Deed} (h : w.listenerClosed = true) :
    (w.act deed).listenerClosed = true := by
  cases hp : deed.isPrivate with
  | false => rw [(w.act_signals hp).2, h]
  | true =>
    unfold Deed.isPrivate at hp
    split at hp
    · exact h
    · rfl
    · contradiction

theorem stepAmong_of_mem {signals : Signals} {sink : Sink} {left : Nat} {cs : List Connection}
    (hk : k ∈ cs) (numbers : (cs.map Connection.id).Nodup)
    (hs : (k.step signals sink left).isSome = true) :
    (stepAmong k.id signals sink left cs).isSome = true := by
  induction cs with
  | nil => cases hk
  | cons c cs ih =>
    rw [List.map_cons, List.nodup_cons] at numbers
    rw [stepAmong]
    rcases List.mem_cons.mp hk with rfl | hk
    · rw [if_pos rfl]
      simpa using hs
    · have hne : c.id ≠ k.id := fun he => numbers.1 (he ▸ List.mem_map_of_mem hk)
      rw [if_neg hne]
      simpa using ih hk numbers.2

/-- A shutdown moves every handler that has not ended. -/
theorem move_of_cancelled (cancelled : w.signals.cancelled = true) (numbers : w.ids.Nodup)
    (hk : k ∈ w.connections) (h : k.isEnded = false) : (w.move (.connection k.id)).isSome = true := by
  have hs := stepAmong_of_mem hk (nodup_connections numbers) (Connection.step_of_cancelled cancelled h w.sink w.left)
  simpa [move, stepConnection] using hs

end Intake

end FrameIntake
