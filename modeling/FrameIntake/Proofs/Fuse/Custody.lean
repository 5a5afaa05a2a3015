import FrameIntake.Fuse.Board
import Mathlib.Data.List.Chain

/-!
A fuse in the hands of its holders, who turn it, share it and let go of it. `Custody.Comes` is everything
that a deed can come to, and what is kept about the turns of a whole run is kept by one deed (`Kept.comes`).
A name stays with its monitor until it is given to another (`lookup_after`).
-/

namespace FrameIntake.Fuse

/-- What can be done without a handle. -/
def Action.isDistant : Action → Bool
  | .attachNever _ | .copy _ _ | .observe _ | .await _ (some _) _ => true
  | .turn _ | .ask | .attach _ | .await _ none _ | .drop => false

namespace Board

def put (b : Board) (burned : Bool) : Board :=
  { b with signals := { b.signals with fuse := ⟨burned⟩ } }

def name (b : Board) (given : String) (m : Monitor) : Board :=
  { b with monitors := (given, m) :: b.monitors }

/-- A waiter takes its id from the one that had it before. -/
def start (b : Board) (w : Waiter) : Board :=
  { b with waiting := b.waiting.filter (·.id ≠ w.id) ++ [w], done := b.done.filter (· ≠ w.id) }

@[simp] theorem put_burned (b : Board) (burned : Bool) : (b.put burned).burned = burned := rfl

@[simp] theorem name_burned (b : Board) (given : String) (m : Monitor) :
    (b.name given m).burned = b.burned := rfl

@[simp] theorem start_burned (b : Board) (w : Waiter) : (b.start w).burned = b.burned := rfl

@[simp] theorem settle_burned (b : Board) : b.settle.burned = b.burned := rfl

theorem act_turn {b : Board} (h : b.signals.turnable = true) (burned : Bool) :
    b.act (.turn burned) = (b.put burned, some (b.burned != burned),
      Signals.noticesOfTurn burned (some (b.burned != burned))) := by
  simp only [act, Signals.turn, if_pos h]
  rfl

end Board

/-- A waiter through the fuse has a handle of its own, but turns nothing with it. -/
structure Custody where
  board : Board := {}
  /-- Who holds a handle to turn the fuse with, once for each. -/
  holders : List String := ["fuse"]
  deriving DecidableEq, Repr

namespace Custody

inductive Deed
  | share (holder name : String)
  /-- To drop the fuse is to let go of one handle. -/
  | act (holder : String) (action : Action)
  | settle
  deriving DecidableEq, Repr

structure Event where
  deed : Deed
  answer : Option Bool
  notices : List Notice
  deriving DecidableEq, Repr

def fresh : Custody := {}

def can (c : Custody) (holder : String) (action : Action) : Bool :=
  action.isDistant || c.holders.contains holder

/-- The fuse is let go of with the last handle. -/
def hold (c : Custody) (holders : List String) : Custody :=
  { board := if holders.isEmpty then (c.board.act .drop).1 else c.board, holders }

/-- Who has no handle can do only what takes none. -/
def does (c : Custody) : Deed → Custody × Option Bool × List Notice
  | .share holder name =>
    (if c.holders.contains holder then c.hold (name :: c.holders) else c, none, [])
  | .act holder action =>
    if action = .drop then (c.hold (c.holders.erase holder), none, [])
    else if c.can holder action then
      let (board, answer, notices) := c.board.act action
      ({ c with board }, answer, notices)
    else (c, none, [])
  | .settle => ({ c with board := c.board.settle }, none, [])

def next (c : Custody) (d : Deed) : Custody := (c.does d).1

def event (c : Custody) (d : Deed) : Event := ⟨d, (c.does d).2.1, (c.does d).2.2⟩

def after (c : Custody) (deeds : List Deed) : Custody := deeds.foldl next c

def events (c : Custody) : List Deed → List Event
  | [] => []
  | d :: deeds => c.event d :: (c.next d).events deeds

/-- The name that a deed gives to a monitor. -/
def names? (c : Custody) : Deed → Option (String × Monitor)
  | .act holder (.attach name) => if c.can holder (.attach name) then some (name, .attached) else none
  | .act _ (.attachNever name) => some (name, .never)
  | .act _ (.copy name monitor) => (c.board.monitors.lookup monitor).map (name, ·)
  | _ => none

/-- The waiter that a deed starts. -/
def starts? (c : Custody) : Deed → Option Waiter
  | .act holder (.await id monitor burned) =>
    if c.can holder (.await id monitor burned) then (c.board.monitor? monitor).map (⟨id, ·, burned⟩)
    else none
  | _ => none

/-- What the deeds give, one after the other. -/
def along (gives : Custody → Deed → Option String) (c : Custody) : List Deed → List String
  | [] => []
  | d :: deeds => (gives c d).toList ++ along gives (c.next d) deeds

/-- The names that are given to monitors. -/
def named (c : Custody) (deeds : List Deed) : List String :=
  c.along (fun c d => (c.names? d).map Prod.fst) deeds

/-- The ids of the waiters that are started. -/
def started (c : Custody) (deeds : List Deed) : List String :=
  c.along (fun c d => (c.starts? d).map Waiter.id) deeds

namespace Event

/-- The position into which the fuse was put. -/
def turn? : Event → Option Bool
  | ⟨.act _ (.turn burned), some _, _⟩ => some burned
  | _ => none

/-- The position of a turn that is said to have moved the fuse. -/
def move? (e : Event) : Option Bool := if e.answer = some true then e.turn? else none

@[simp] theorem turn?_unanswered (d : Deed) (notices : List Notice) : turn? ⟨d, none, notices⟩ = none := by
  cases d with
  | act holder action => cases action <;> rfl
  | share | settle => rfl

theorem move?_ne_none_iff {e : Event} :
    e.move? ≠ none ↔ ∃ holder burned, e.deed = .act holder (.turn burned) ∧ e.answer = some true := by
  obtain ⟨d, answer, notices⟩ := e
  by_cases h : answer = some true
  · subst h
    cases d with
    | act holder action => cases action <;> simp [move?, turn?]
    | share | settle => simp [move?, turn?]
  · simp [move?, h]

end Event

def turns (events : List Event) : List Bool := events.filterMap Event.turn?

def moves (events : List Event) : List Bool := events.filterMap Event.move?

def log (events : List Event) : List Notice := events.flatMap Event.notices

/-- The position of the last turn. -/
def position (events : List Event) : Bool := (turns events).getLast?.getD false

/-- What a monitor has to show. -/
def shown (events : List Event) : Monitor → Bool
  | .attached => position events
  | .never => false

def announced (burned : Bool) : Notice := if burned then .fuseBurned else .fuseCleared

@[simp] theorem after_cons (c : Custody) (d : Deed) (deeds : List Deed) :
    c.after (d :: deeds) = (c.next d).after deeds := rfl

theorem after_append (c : Custody) (deeds more : List Deed) :
    c.after (deeds ++ more) = (c.after deeds).after more := List.foldl_append

theorem after_concat (c : Custody) (deeds : List Deed) (d : Deed) :
    c.after (deeds ++ [d]) = (c.after deeds).next d := c.after_append deeds [d]

theorem events_append (c : Custody) (deeds more : List Deed) :
    c.events (deeds ++ more) = c.events deeds ++ (c.after deeds).events more := by
  induction deeds generalizing c with
  | nil => rfl
  | cons d deeds ih =>
    rw [List.cons_append, events, ih]
    rfl

theorem not_mem_along_cons {gives : Custody → Deed → Option String} {c : Custody} {d : Deed}
    {deeds : List Deed} {s : String} :
    s ∉ c.along gives (d :: deeds) ↔ gives c d ≠ some s ∧ s ∉ (c.next d).along gives deeds := by
  simp [along]

theorem position_concat (events : List Event) (e : Event) :
    position (events ++ [e]) = e.turn?.getD (position events) := by
  rw [position, turns, List.filterMap_append]
  cases h : e.turn? <;> simp [h, position, turns]

theorem moves_concat (events : List Event) (e : Event) :
    moves (events ++ [e]) = moves events ++ e.move?.toList := by
  rw [moves, List.filterMap_append]
  cases h : e.move? <;> simp [h, moves]

theorem log_concat (events : List Event) (e : Event) :
    log (events ++ [e]) = log events ++ e.notices := by
  simp [log]

/-- Everything that a deed can come to. -/
inductive Comes (c : Custody) : Event → Custody → Prop
  | turned {holder} (burned : Bool) (held : holder ∈ c.holders) :
      Comes c ⟨.act holder (.turn burned), some (c.board.burned != burned),
          Signals.noticesOfTurn burned (some (c.board.burned != burned))⟩
        { c with board := c.board.put burned }
  /-- An answer and nothing else, or not even that. -/
  | told {d answer} (idle : Event.turn? ⟨d, answer, []⟩ = none) : Comes c ⟨d, answer, []⟩ c
  | passed {d} (holders : List String) (lost : c.holders = [] → holders = []) :
      Comes c ⟨d, none, []⟩ (c.hold holders)
  | named {d name m} (names : c.names? d = some (name, m)) :
      Comes c ⟨d, none, []⟩ { c with board := c.board.name name m }
  | started {d w} (starts : c.starts? d = some w) :
      Comes c ⟨d, none, []⟩ { c with board := c.board.start w }
  | settled : Comes c ⟨.settle, none, []⟩ { c with board := c.board.settle }

variable {c c' : Custody} {e : Event} {events : List Event}

/-- The fuse can be turned as long as somebody holds it. -/
def Held (c : Custody) : Prop := c.board.signals.turnable = !c.holders.isEmpty

theorem held_of_can {holder : String} {action : Action} (can : c.can holder action = true)
    (near : action.isDistant = false) : holder ∈ c.holders := by
  simpa [Custody.can, near] using can

theorem does_of_can {holder : String} {action : Action} (drop : action ≠ .drop)
    (can : c.can holder action = true) :
    c.does (.act holder action) = ({ c with board := (c.board.act action).1 }, (c.board.act action).2) := by
  rw [does, if_neg drop, if_pos can]

theorem does_of_refused {holder : String} {action : Action} (drop : action ≠ .drop)
    (refused : c.can holder action = false) : c.does (.act holder action) = (c, none, []) := by
  simp [does, drop, refused]

theorem turnable_of_mem (held : c.Held) {holder : String} (h : holder ∈ c.holders) :
    c.board.signals.turnable = true := by
  rw [held]
  simpa using List.ne_nil_of_mem h

/-- What an action comes to that is carried out. -/
theorem comes_act {holder : String} {action : Action} (held : c.Held) (drop : action ≠ .drop)
    (can : c.can holder action = true) :
    c.Comes ⟨.act holder action, (c.board.act action).2.1, (c.board.act action).2.2⟩
      { c with board := (c.board.act action).1 } := by
  cases action with
  | turn burned =>
    have hmem := held_of_can can rfl
    rw [Board.act_turn (turnable_of_mem held hmem)]
    exact .turned burned hmem
  | ask => exact .told (d := .act holder .ask) rfl
  | observe monitor => exact .told (d := .act holder (.observe monitor)) rfl
  | attach name =>
    have : c.names? (.act holder (.attach name)) = some (name, .attached) := by simp [names?, can]
    exact .named this
  | attachNever name => exact .named (d := .act holder (.attachNever name)) rfl
  | copy name monitor =>
    cases h : c.board.monitors.lookup monitor with
    | none =>
      simp only [Board.act, h, Option.elim_none]
      exact .told rfl
    | some m =>
      have : c.names? (.act holder (.copy name monitor)) = some (name, m) := by simp [names?, h]
      simp only [Board.act, h, Option.elim_some]
      exact .named this
  | await id monitor burned =>
    cases h : c.board.monitor? monitor with
    | none =>
      simp only [Board.act, h]
      exact .told rfl
    | some m =>
      have : c.starts? (.act holder (.await id monitor burned)) = some ⟨id, m, burned⟩ := by
        simp [starts?, can, h]
      simp only [Board.act, h]
      exact .started this
  | drop => exact absurd rfl drop

theorem next_comes (held : c.Held) (d : Deed) : c.Comes (c.event d) (c.next d) := by
  cases d with
  | settle => exact .settled
  | share holder name =>
    by_cases h : holder ∈ c.holders
    · have : c.does (.share holder name) = (c.hold (name :: c.holders), none, []) := by simp [does, h]
      rw [event, next, this]
      exact .passed _ fun hnone => by simp [hnone] at h
    · have : c.does (.share holder name) = (c, none, []) := by simp [does, h]
      rw [event, next, this]
      exact .told rfl
  | act holder action =>
    by_cases drop : action = .drop
    · subst drop
      exact .passed _ fun hnone => by simp [hnone]
    · cases hcan : c.can holder action with
      | true =>
        rw [event, next, does_of_can drop hcan]
        exact comes_act held drop hcan
      | false =>
        rw [event, next, does_of_refused drop hcan]
        exact .told (Event.turn?_unanswered _ _)

theorem Held.hold (held : c.Held) {holders : List String} (lost : c.holders = [] → holders = []) :
    (c.hold holders).Held := by
  rw [Held] at held
  by_cases h : holders = []
  · simp [Custody.hold, Held, h, Board.act, Signals.letGo]
  · have hsome : c.holders ≠ [] := fun hnone => h (lost hnone)
    simp [Custody.hold, Held, h, held, List.isEmpty_eq_false_iff.mpr hsome]

/-- Who lets go of a handle leaves all else as it is. -/
theorem hold_eq (c : Custody) (holders : List String) : c.hold holders =
    { board := { c.board with signals := (c.hold holders).board.signals }, holders } := by
  rw [hold]
  split <;> rfl

@[simp] theorem hold_burned (c : Custody) (holders : List String) :
    (c.hold holders).board.burned = c.board.burned := by
  rw [hold]
  split <;> rfl

namespace Comes

theorem held (h : c.Comes e c') (held : c.Held) : c'.Held := by
  cases h with
  | turned | told | named | started | settled => exact held
  | passed holders lost => exact held.hold lost

theorem burned (h : c.Comes e c') : c'.board.burned = e.turn?.getD c.board.burned := by
  cases h with
  | turned => rfl
  | told idle => rw [idle, Option.getD_none]
  | passed | named | started | settled => simp

/-- What is said to have moved the fuse has moved it, and nothing else has. -/
theorem move? (h : c.Comes e c') :
    e.move? = if c'.board.burned = c.board.burned then none else some c'.board.burned := by
  cases h with
  | turned burned =>
    cases hb : c.board.burned <;> cases burned <;> simp [Event.move?, Event.turn?]
  | told idle => simp [Event.move?, idle]
  | passed | named | started | settled => simp [Event.move?]

theorem moved_iff (h : c.Comes e c') : c'.board.burned ≠ c.board.burned ↔
    ∃ holder burned, e.deed = .act holder (.turn burned) ∧ e.answer = some true := by
  rw [← Event.move?_ne_none_iff, h.move?]
  simp

theorem notices (h : c.Comes e c') : e.notices = (e.move?.map announced).toList := by
  cases h with
  | turned burned =>
    cases hb : c.board.burned <;> cases burned <;>
      simp [Event.move?, Event.turn?, Signals.noticesOfTurn, announced]
  | told idle => simp [Event.move?, idle]
  | passed | named | started | settled => simp [Event.move?]

theorem holders (h : c.Comes e c') (gone : c.holders = []) : c'.holders = [] ∧ e.turn? = none := by
  cases h with
  | turned burned held => simp [gone] at held
  | told idle => exact ⟨gone, idle⟩
  | passed holders lost => exact ⟨lost gone, by simp⟩
  | named | started | settled => exact ⟨gone, by simp⟩

end Comes

/-- What holds at any time of a fuse and of what has come of the deeds so far. -/
structure Kept (events : List Event) (c : Custody) : Prop where
  held : c.Held
  burned : c.board.burned = position events
  /-- The fuse is where the last move has put it. -/
  last : (false :: moves events).getLast? = some c.board.burned
  alternate : (false :: moves events).IsChain (· ≠ ·)
  logged : log events = (moves events).map announced
  balance : (moves events).count true = (moves events).count false + c.board.burned.toNat

theorem kept_fresh : Kept [] fresh := by
  exact ⟨rfl, rfl, rfl, List.isChain_singleton false, rfl, rfl⟩

theorem Kept.comes (h : Kept events c) (hc : c.Comes e c') : Kept (events ++ [e]) c' := by
  have hlog : log (events ++ [e]) = (moves (events ++ [e])).map announced := by
    rw [log_concat, moves_concat, h.logged, hc.notices]
    cases e.move? <;> simp
  have hburned : c'.board.burned = position (events ++ [e]) := by
    rw [hc.burned, position_concat, h.burned]
  have hmoves := moves_concat events e
  rw [hc.move?] at hmoves
  by_cases hsame : c'.board.burned = c.board.burned
  · rw [if_pos hsame, Option.toList_none, List.append_nil] at hmoves
    refine ⟨hc.held h.held, hburned, ?_, ?_, hlog, ?_⟩
    · rw [hmoves, hsame, h.last]
    · rw [hmoves]
      exact h.alternate
    · rw [hmoves, hsame, h.balance]
  · rw [if_neg hsame, Option.toList_some] at hmoves
    refine ⟨hc.held h.held, hburned, ?_, ?_, hlog, ?_⟩
    · rw [hmoves, ← List.cons_append, List.getLast?_concat]
    · rw [hmoves, ← List.cons_append]
      apply h.alternate.append (List.isChain_singleton _)
      intro x hx y hy
      rw [h.last, Option.mem_some] at hx
      rw [List.head?_cons, Option.mem_some] at hy
      rw [← hx, ← hy]
      exact Ne.symm hsame
    · have hflip : c'.board.burned = !c.board.burned := Bool.eq_not.mpr hsame
      have hbalance := h.balance
      rw [hmoves, hflip]
      cases hb : c.board.burned <;> rw [hb] at hbalance <;> simp [hbalance]

theorem kept_after (deeds : List Deed) : Kept (fresh.events deeds) (fresh.after deeds) := by
  induction deeds using List.reverseRecOn with
  | nil => exact kept_fresh
  | append_singleton deeds d ih =>
    rw [events_append, after_concat]
    exact ih.comes (next_comes ih.held d)

variable {d : Deed} {name : String} {deeds : List Deed}

theorem lookup_of_names {m : Monitor} (h : c.names? d = some (name, m)) :
    (c.next d).board.monitors.lookup name = some m := by
  cases d with
  | share | settle => cases h
  | act holder action =>
    cases action with
    | attach given =>
      rw [names?] at h
      split at h
      · rename_i hcan
        cases h
        rw [next, does_of_can (by simp) hcan]
        simp [Board.act]
      · cases h
    | attachNever given =>
      cases h
      simp [next, does, can, Action.isDistant, Board.act]
    | copy given monitor =>
      obtain ⟨m, hm, he⟩ := Option.map_eq_some_iff.mp h
      cases he
      simp [next, does, can, Action.isDistant, Board.act, hm]
    | _ => cases h

theorem Comes.lookup (h : c.Comes e c') (other : (c.names? e.deed).map Prod.fst ≠ some name) :
    c'.board.monitors.lookup name = c.board.monitors.lookup name := by
  cases h with
  | turned | told | started | settled => rfl
  | passed holders => rw [hold_eq]
  | named names =>
    rw [names, Option.map_some, ne_eq, Option.some.injEq] at other
    simp [Board.name, List.lookup_cons, beq_eq_false_iff_ne.mpr (Ne.symm other)]

theorem lookup_after (held : c.Held) (alone : name ∉ c.named deeds) :
    (c.after deeds).board.monitors.lookup name = c.board.monitors.lookup name := by
  induction deeds generalizing c with
  | nil => rfl
  | cons d deeds ih =>
    obtain ⟨hother, halone⟩ := not_mem_along_cons.mp alone
    have hcomes := next_comes held d
    rw [after_cons, ih (hcomes.held held) halone, hcomes.lookup hother]

/-- Nobody turns a fuse that nobody holds, or comes to hold it again. -/
theorem gone_after (held : c.Held) (gone : c.holders = []) (deeds : List Deed) :
    (c.after deeds).holders = [] ∧ (c.after deeds).board.burned = c.board.burned := by
  induction deeds generalizing c with
  | nil => exact ⟨gone, rfl⟩
  | cons d deeds ih =>
    have hcomes := next_comes held d
    obtain ⟨hgone, hturn⟩ := hcomes.holders gone
    obtain ⟨hgone, hburned⟩ := ih (hcomes.held held) hgone
    exact ⟨hgone, by rw [after_cons, hburned, hcomes.burned, hturn, Option.getD_none]⟩

end Custody

end FrameIntake.Fuse
