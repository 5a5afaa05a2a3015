import FrameIntake.Proofs.Intake.Step

/-!
What can happen in an intake, one deed at a time and in any order. What its tasks do in their turns is
one of these orders (`exists_settle`). Connections have numbers, each of which is given once.
-/

namespace FrameIntake

def Arrival.connection? : Arrival → Option Connection
  | connection c => some c
  | failure _ => none

namespace Intake

/-- The connections, accepted or not, in the order in which they came. -/
def peers (w : Intake) : List Connection := w.connections ++ w.backlog.filterMap Arrival.connection?

def ids (w : Intake) : List Nat := w.peers.map Connection.id

inductive Deed
  | move (task : Task)
  | occur (event : Event)
  /-- The receiver takes everything out of an unbounded sink. -/
  | drain
  | hear
  /-- Whatever decides which task moves next. -/
  | arrange (awake : List Task) (spent turns : Nat) (paused : List Task)
  deriving DecidableEq

/-- A task that cannot move does nothing. -/
def act (w : Intake) : Deed → Intake
  | .move task => (w.move task).getD w
  | .occur event => w.occur event
  | .drain => w.receiveUnbounded.2
  | .hear => { w with connections := w.connections.map Connection.hear }
  | .arrange awake spent turns paused => { w with awake, spent, turns, paused }

/-- A connection that comes is a new one, at its start. -/
def admits (p : Partitioner) (stream : String) (w : Intake) : Deed → Bool
  | .occur (.connect c) =>
    c.id ∉ w.ids && c = { Connection.start c.id c.peer p stream with source := c.source }
  | _ => true

variable {w v : Intake}

theorem wakeAll_eq (w : Intake) (ids : List Nat) :
    ∃ awake, ids.foldl (fun (w : Intake) id => w.wake (.connection id)) w = { w with awake } := by
  induction ids generalizing w with
  | nil => exact ⟨w.awake, rfl⟩
  | cons id ids ih =>
    obtain ⟨awake, ha⟩ := ih (w.wake (.connection id))
    refine ⟨awake, ha.trans ?_⟩
    unfold wake
    split <;> rfl

theorem act_receive (w : Intake) (count : Nat) :
    ∃ awake, w.act (.occur (.receive count)) = { w with sink := (w.sink.receive count).2, awake } :=
  wakeAll_eq { w with sink := (w.sink.receive count).2 } _

/-- The acceptor hands connections on. -/
theorem stepAcceptor_frame (h : w.stepAcceptor = some v) :
    v.peers = w.peers ∧ v.sink = w.sink ∧ w.connections <+: v.connections := by
  cases stepAcceptor_steps h with
  | started | stopped | held | began | cleared | abandoned =>
    exact ⟨rfl, rfl, List.prefix_refl _⟩
  | accepted accepting listening next clear =>
    refine ⟨?_, rfl, List.prefix_append _ _⟩
    simp [peers, accept, report, next, Arrival.connection?]
  | failed accepting listening next clear =>
    rename_i e rest
    obtain ⟨metrics, notices, he⟩ := failAccept_frame { w with backlog := rest } e
    rw [he]
    refine ⟨?_, rfl, List.prefix_refl _⟩
    rw [peers, peers, next]
    rfl

theorem filterMap_connection (arrivals : List Arrival) (f : Connection → Connection) :
    (arrivals.map (Arrival.map f)).filterMap Arrival.connection? =
      (arrivals.filterMap Arrival.connection?).map f := by
  induction arrivals with
  | nil => rfl
  | cons arrival arrivals ih =>
    cases arrival with
    | connection c => exact congrArg (f c :: ·) ih
    | failure e => exact ih

/-- What becomes of the connections in a deed that is no move. -/
theorem act_frame (w : Intake) (deed : Deed) :
    match deed with
    | .move _ => True
    | .occur (.connect c) =>
      (w.act deed).connections = w.connections ∧ (w.act deed).peers = w.peers ++ [c]
    | .occur (.arrive id read) =>
      let deliver (c : Connection) := if c.id = id then c.arrive read else c
      (w.act deed).connections = w.connections.map deliver ∧
        (w.act deed).peers = w.peers.map deliver
    | .hear =>
      (w.act deed).connections = w.connections.map Connection.hear ∧
        (w.act deed).backlog = w.backlog
    | _ => (w.act deed).connections = w.connections ∧ (w.act deed).peers = w.peers := by
  cases deed with
  | move task => trivial
  | drain => exact ⟨rfl, rfl⟩
  | hear => exact ⟨rfl, rfl⟩
  | arrange awake spent turns paused => exact ⟨rfl, rfl⟩
  | occur event =>
    cases event with
    | connect c =>
      refine ⟨rfl, ?_⟩
      simp [act, occur, enqueue, rouse, lineUp, peers, Arrival.connection?]
    | acceptError e =>
      refine ⟨rfl, ?_⟩
      simp [act, occur, enqueue, rouse, lineUp, peers, Arrival.connection?]
    | arrive id read =>
      refine ⟨rfl, ?_⟩
      simp only [act, occur, arriveAt, rouse, lineUp, peers, filterMap_connection, List.map_append]
    | receive count =>
      obtain ⟨awake, hact⟩ := w.act_receive count
      rw [hact]
      exact ⟨rfl, rfl⟩
    | turnFuse burned => exact ⟨rfl, rfl⟩
    | letGoOfFuse => exact ⟨rfl, rfl⟩
    | cancel => exact ⟨rfl, rfl⟩
    | closeListener => exact ⟨rfl, rfl⟩
    | closeSink => exact ⟨rfl, rfl⟩

def Deed.isInner : Deed → Bool
  | .move _ | .hear | .arrange .. => true
  | .occur _ | .drain => false

theorem admits_of_inner (p : Partitioner) (stream : String) (w : Intake) {deed : Deed}
    (inner : deed.isInner = true) : w.admits p stream deed = true := by
  cases deed with
  | occur event => contradiction
  | move | drain | hear | arrange => rfl

/-- The intake comes from one to the other by what its tasks do. -/
def Leads (w v : Intake) : Prop :=
  ∃ deeds : List Deed, (∀ deed ∈ deeds, deed.isInner = true) ∧ v = deeds.foldl act w

theorem Leads.refl (w : Intake) : w.Leads w := ⟨[], by simp, rfl⟩

theorem Leads.act (h : w.Leads v) (deed : Deed) (inner : deed.isInner = true) :
    w.Leads (v.act deed) := by
  obtain ⟨deeds, hd, rfl⟩ := h
  refine ⟨deeds ++ [deed], ?_, ?_⟩
  · intro d hm
    rcases List.mem_append.mp hm with hm | hm
    · exact hd d hm
    · rw [List.mem_singleton.mp hm]
      exact inner
  · rw [List.foldl_append]
    rfl

theorem Leads.move {task : Task} {u : Intake} (h : w.Leads v) (hm : v.move task = some u) :
    w.Leads u := by
  have := h.act (.move task) rfl
  rwa [Intake.act, hm] at this

theorem Leads.lineUp (h : w.Leads v) (tasks : List Task) : w.Leads (v.lineUp tasks) :=
  h.act (.arrange (v.awake ++ tasks.filter (· ∉ v.awake)) v.spent v.turns v.paused) rfl

theorem Leads.hear (h : w.Leads v) : w.Leads v.hear :=
  (h.act .hear rfl).lineUp _

theorem Leads.endTurn (h : w.Leads v) : w.Leads v.endTurn := by
  unfold Intake.endTurn
  split
  · exact h
  · rename_i task rest ha
    dsimp only
    split
    · exact ((h.act (.arrange rest 0 0 []) rfl).hear).lineUp _
    · exact h.act (.arrange rest 0 (v.turns + 1) _) rfl

theorem Leads.step {u : Intake} (h : w.Leads v) (hs : v.step = some u) : w.Leads u := by
  unfold Intake.step at hs
  split at hs
  · rename_i task rest ha
    obtain rfl := Option.some.inj hs
    cases hm : v.move task with
    | none => exact h.endTurn
    | some u => exact h.move hm
  · split at hs
    · obtain rfl := Option.some.inj hs
      exact h.hear
    · obtain ⟨task, _, ht⟩ := List.exists_of_findSome?_eq_some hs
      obtain ⟨u, hm, rfl⟩ := Option.map_eq_some_iff.mp ht
      exact (h.move hm).act (.arrange (task :: u.awake) u.spent u.turns u.paused) rfl

/-- Turns and rounds are one order of deeds. -/
theorem leads_settle (w : Intake) : w.Leads w.settle :=
  restless.rest_induction (fun _ _ h hs => h.step hs) (Leads.refl w)

end Intake

end FrameIntake
