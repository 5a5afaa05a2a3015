import FrameIntake.Printer

/-!
What an outlet has of the messages that are printed to it: one after the other whole and flushed, and the
beginning of one at which it failed (`printed_in_order`). What happens is told by the acts of the outlet, so it
holds of every outlet, whatever its answers depend on.
-/

namespace FrameIntake

namespace Sink

/-- What becomes of calls to a sink, one after the other. -/
def answers (s : Sink) : List (Nat × Message) → List Offer
  | [] => []
  | (sender, m) :: rest => (s.offer sender m).1 :: (s.offer sender m).2.answers rest

theorem answers_of_closed {s : Sink} (closed : s.closed = true) (faultless : s.fault = none)
    (routes : List (Nat × Message)) : s.answers routes = routes.map fun _ => .refused := by
  induction routes generalizing s with
  | nil => rfl
  | cons route rest ih =>
    obtain ⟨sender, m⟩ := route
    have offered : s.offer sender m = (.refused, s.leave sender) := by
      simp [offer, panic?, faultless, closed]
    have left := ih (s := s.leave sender) closed faultless
    rw [answers, offered, left, List.map_cons]

theorem receive_all (s : Sink) :
    (s.receive s.sent.length).1 = s.queue ∧ (s.receive s.sent.length).2.queue = [] := by
  obtain ⟨taken, left⟩ := s.queue_receive s.sent.length
  have all : s.queue.length = s.sent.length := by simp [queue]
  rw [taken, left, ← all]
  exact ⟨List.take_length, List.drop_length⟩

end Sink

namespace Outlet

namespace Act

/-- Bytes were taken, so that fewer are left. -/
def isPiece : Act → Bool
  | took _ (_ + 1) => true
  | _ => false

/-- What ends the printing. -/
def failure? : Act → Option IoError
  | took _ 0 => some noProgress
  | refused _ e | unflushed e => some e
  | _ => none

end Act

/-- The bytes that the outlet has from all of them. -/
def bytesOf (acts : List Act) : Bytes := acts.flatMap Act.bytes

/-- The outlet answers in that way after the given past. -/
def Answers (o : Outlet) (past : List Act) : Act → Prop
  | .took offered count => o.write past offered = .ok count
  | .refused offered e => o.write past offered = .error e
  | .flushed => o.flush past = .ok ()
  | .unflushed e => o.flush past = .error e

/-- What was asked of the outlet between two pasts, with the answers that it gives. -/
inductive Goes (o : Outlet) : List Act → List Act → List Act → Prop
  | stay (past : List Act) : Goes o past [] past
  | act {past acts after : List Act} {a : Act} (answers : o.Answers past a)
      (goes : Goes o (a :: past) acts after) : Goes o past (a :: acts) after

/-- A payload was taken to its last byte, and then flushed. -/
inductive Whole (payload : Bytes) : List Act → Prop
  | mk {pieces : List Act} (taken : ∀ a ∈ pieces, a.isPiece) (all : bytesOf pieces = payload) :
      Whole payload (pieces ++ [.flushed])

/-- A payload was taken up to a failure. It is not flushed unless all of it was taken. -/
inductive Torn (payload : Bytes) (e : IoError) : List Act → Prop
  | mk {pieces : List Act} {last : Act} (taken : ∀ a ∈ pieces, a.isPiece)
      (front : bytesOf pieces <+: payload) (fails : last.failure? = some e)
      (all : last.isFlush → bytesOf pieces = payload) : Torn payload e (pieces ++ [last])

/-- Payloads were printed one after the other. -/
inductive Through : List Bytes → List Act → Prop
  | nil : Through [] []
  | cons {payload : Bytes} {rest : List Bytes} {acts more : List Act} (whole : Whole payload acts)
      (through : Through rest more) : Through (payload :: rest) (acts ++ more)

variable {o : Outlet} {past acts more mid after : List Act} {a : Act} {payload bytes : Bytes}
  {payloads rest : List Bytes} {e : IoError}

@[simp] theorem bytesOf_nil : bytesOf [] = [] := rfl

@[simp] theorem bytesOf_cons (a : Act) (acts : List Act) :
    bytesOf (a :: acts) = a.bytes ++ bytesOf acts := rfl

@[simp] theorem bytesOf_append (acts more : List Act) :
    bytesOf (acts ++ more) = bytesOf acts ++ bytesOf more := List.flatMap_append

theorem Goes.append (h : o.Goes past acts mid) (h' : o.Goes mid more after) :
    o.Goes past (acts ++ more) after := by
  induction h with
  | stay past => exact h'
  | act answers goes ih => exact .act answers (ih h')

theorem Goes.one (answers : o.Answers past a) : o.Goes past [a] (a :: past) := .act answers (.stay _)

theorem Goes.after_eq (h : o.Goes past acts after) : after = acts.reverse ++ past := by
  induction h with
  | stay past => rfl
  | act answers goes ih => rw [ih, List.reverse_cons, List.append_assoc, List.singleton_append]

theorem bytes_of_failure (h : a.failure? = some e) : a.bytes = [] := by
  cases a with
  | took offered count =>
    cases count with
    | zero => rfl
    | succ count => cases h
  | refused | unflushed => rfl
  | flushed => cases h

theorem failure_of_piece (h : a.isPiece) : a.failure? = none := by
  cases a with
  | took offered count =>
    cases count with
    | zero => cases h
    | succ count => rfl
  | refused | flushed | unflushed => cases h

/-- All bytes are taken in pieces, or some in pieces until a write fails. -/
theorem writeAll_goes (o : Outlet) (past : List Act) (bytes : Bytes) :
    match o.writeAll past bytes with
    | (.ok (), after) =>
      ∃ pieces, o.Goes past pieces after ∧ (∀ a ∈ pieces, a.isPiece) ∧ bytesOf pieces = bytes
    | (.error e, after) =>
      ∃ pieces last, o.Goes past (pieces ++ [last]) after ∧ (∀ a ∈ pieces, a.isPiece) ∧
        bytesOf pieces <+: bytes ∧ last.failure? = some e ∧ last.isFlush = false := by
  fun_induction o.writeAll past bytes with
  | case1 past bytes hempty =>
    exact ⟨[], .stay past, by simp, (List.isEmpty_iff.mp hempty).symm⟩
  | case2 past bytes hsome e hwrite =>
    exact ⟨[], .refused bytes e, .one hwrite, by simp, List.nil_prefix, rfl, rfl⟩
  | case3 past bytes hsome hwrite =>
    exact ⟨[], .took bytes 0, .one hwrite, by simp, List.nil_prefix, rfl, rfl⟩
  | case4 past bytes hsome count hwrite ih =>
    have hbytes : (Act.took bytes (count + 1)).bytes = bytes.take (count + 1) := rfl
    split at ih
    · obtain ⟨pieces, goes, taken, all⟩ := ih
      refine ⟨.took bytes (count + 1) :: pieces, .act hwrite goes, ?_, ?_⟩
      · simpa using ⟨rfl, taken⟩
      · rw [bytesOf_cons, all, hbytes, List.take_append_drop]
    · obtain ⟨pieces, last, goes, taken, front, fails, write⟩ := ih
      refine ⟨.took bytes (count + 1) :: pieces, last, .act hwrite goes, ?_, ?_, fails, write⟩
      · simpa using ⟨rfl, taken⟩
      · rw [bytesOf_cons, hbytes]
        conv => rhs; rw [← List.take_append_drop (count + 1) bytes]
        exact (List.prefix_append_right_inj _).mpr front

theorem print_goes (o : Outlet) (past : List Act) (payload : Bytes) :
    match o.print past payload with
    | (.ok (), after) => ∃ acts, o.Goes past acts after ∧ Whole payload acts
    | (.error e, after) => ∃ acts, o.Goes past acts after ∧ Torn payload e acts := by
  have h := o.writeAll_goes past payload
  unfold print
  split at h
  · rename_i mid hwrite
    obtain ⟨pieces, goes, taken, all⟩ := h
    rw [hwrite]
    dsimp only
    cases hflush : o.flush mid with
    | error e =>
      have answers : o.Answers mid (.unflushed e) := hflush
      refine ⟨pieces ++ [.unflushed e], goes.append (.one answers), ?_⟩
      exact ⟨taken, all ▸ List.prefix_rfl, rfl, fun _ => all⟩
    | ok =>
      have answers : o.Answers mid .flushed := hflush
      exact ⟨pieces ++ [.flushed], goes.append (.one answers), taken, all⟩
  · rename_i e mid hwrite
    obtain ⟨pieces, last, goes, taken, front, fails, write⟩ := h
    rw [hwrite]
    exact ⟨pieces ++ [last], goes, taken, front, fails, fun flush => by rw [write] at flush; cases flush⟩

/-- Messages are printed whole, all of them or those in front of one that is torn. -/
theorem printAll_goes (o : Outlet) (past : List Act) (payloads : List Bytes) :
    match o.printAll past payloads with
    | (.ok (), after) => ∃ acts, o.Goes past acts after ∧ Through payloads acts
    | (.error e, after) =>
      ∃ before payload behind done last, payloads = before ++ payload :: behind ∧
        o.Goes past (done ++ last) after ∧ Through before done ∧ Torn payload e last := by
  induction payloads generalizing past with
  | nil => exact ⟨[], .stay past, .nil⟩
  | cons payload rest ih =>
    have h := o.print_goes past payload
    unfold printAll
    split at h
    · rename_i mid hprint
      obtain ⟨acts, goes, whole⟩ := h
      rw [hprint]
      dsimp only
      have h := ih mid
      split at h
      · rename_i after hrest
        obtain ⟨more, goes', through⟩ := h
        exact ⟨acts ++ more, goes.append goes', .cons whole through⟩
      · rename_i e after hrest
        obtain ⟨before, torn, behind, done, last, rfl, goes', through, tears⟩ := h
        refine ⟨payload :: before, torn, behind, acts ++ done, last, rfl, ?_, .cons whole through, tears⟩
        rw [List.append_assoc]
        exact goes.append goes'
    · rename_i e mid hprint
      obtain ⟨acts, goes, torn⟩ := h
      rw [hprint]
      exact ⟨[], payload, rest, [], acts, rfl, goes, .nil, torn⟩

theorem Whole.bytesOf_eq (h : Whole payload acts) : bytesOf acts = payload := by
  cases h with
  | mk taken all =>
    rw [bytesOf_append, all]
    exact List.append_nil payload

theorem Torn.bytesOf_front (h : Torn payload e acts) : bytesOf acts <+: payload := by
  cases h with
  | mk taken front fails all =>
    rw [bytesOf_append, bytesOf_cons, bytes_of_failure fails, bytesOf_nil, List.append_nil,
      List.append_nil]
    exact front

theorem Torn.failing (h : Torn payload e acts) : ∃ a ∈ acts, a.failure? = some e := by
  cases h with
  | mk taken front fails all =>
    exact ⟨_, List.mem_append_right _ (List.mem_singleton.mpr rfl), fails⟩

theorem Through.bytesOf_eq (h : Through payloads acts) : bytesOf acts = payloads.flatten := by
  induction h with
  | nil => rfl
  | cons whole through ih => rw [bytesOf_append, whole.bytesOf_eq, ih, List.flatten_cons]

theorem Whole.sound (h : Whole payload acts) : ∀ a ∈ acts, a.failure? = none := by
  cases h with
  | mk taken all =>
    intro a ha
    rcases List.mem_append.mp ha with ha | ha
    · exact failure_of_piece (taken a ha)
    · rw [List.mem_singleton.mp ha]
      rfl

theorem Through.sound (h : Through payloads acts) : ∀ a ∈ acts, a.failure? = none := by
  induction h with
  | nil => simp
  | cons whole through ih =>
    intro a ha
    rcases List.mem_append.mp ha with ha | ha
    · exact whole.sound a ha
    · exact ih a ha

theorem flush_of_piece (h : a.isPiece) : a.isFlush = false := by
  cases a with
  | took => rfl
  | refused | flushed | unflushed => cases h

/-- Each message is flushed once. -/
theorem Through.flushes (h : Through payloads acts) : acts.countP Act.isFlush = payloads.length := by
  induction h with
  | nil => rfl
  | cons whole through ih =>
    cases whole with
    | mk taken all =>
      rename_i pieces
      have none : pieces.countP Act.isFlush = 0 :=
        List.countP_eq_zero.mpr fun a ha => by simp [flush_of_piece (taken a ha)]
      have one : [Act.flushed].countP Act.isFlush = 1 := rfl
      rw [List.countP_append, List.countP_append, none, one, ih, List.length_cons]
      omega

theorem bytesOf_front {early : List Act} (h : early <+: acts) : bytesOf early <+: bytesOf acts := by
  obtain ⟨late, rfl⟩ := h
  rw [bytesOf_append]
  exact List.prefix_append _ _

variable {s : Sink}

theorem serve_ok (h : o.printAll past (s.queue.map Message.payload) = (.ok (), after)) :
    (o.serve past s).past = after ∧ (o.serve past s).notices = [] ∧
      (o.serve past s).sink.queue = [] ∧ (o.serve past s).sink.closed = s.closed := by
  rw [← s.receive_all.1] at h
  unfold serve
  dsimp only
  rw [h]
  exact ⟨rfl, rfl, s.receive_all.2, rfl⟩

theorem serve_error (h : o.printAll past (s.queue.map Message.payload) = (.error e, after)) :
    (o.serve past s).past = after ∧ (o.serve past s).notices = [.outputClosed e] ∧
      (o.serve past s).sink.closed = true ∧ (o.serve past s).sink.fault = s.fault := by
  rw [← s.receive_all.1] at h
  unfold serve
  dsimp only
  rw [h]
  exact ⟨rfl, rfl, rfl, rfl⟩

/-- The messages of a sink are printed one after the other, whole and each with one flush behind it, and bytes
never get out in another order. If the outlet fails, the messages in front are out, of the one at which it
failed there is a beginning, and of those behind nothing. There is one warning then, and none otherwise, and
whoever sends later is refused. -/
theorem printed_in_order (o : Outlet) (past : List Act) (s : Sink) (faultless : s.fault = none) :
    let payloads := s.queue.map Message.payload
    let printed := o.serve past s
    ∃ acts, o.Goes past acts printed.past ∧ printed.past = acts.reverse ++ past ∧
      (∀ early, early <+: acts → bytesOf early <+: payloads.flatten) ∧
      (printed.notices = [] ↔ ∀ a ∈ acts, a.failure? = none) ∧
      match printed.notices with
      | [] =>
        Through payloads acts ∧ bytesOf acts = payloads.flatten ∧
          acts.countP Act.isFlush = payloads.length ∧ printed.sink.queue = [] ∧
          printed.sink.closed = s.closed
      | notices =>
        ∃ before payload behind done last e, payloads = before ++ payload :: behind ∧
          acts = done ++ last ∧ Through before done ∧ bytesOf done = before.flatten ∧
          Torn payload e last ∧ bytesOf last <+: payload ∧
          notices = [.outputClosed e] ∧ (notices.flatMap Notice.records).map Prod.fst = [.warn] ∧
          ∀ routes, printed.sink.answers routes = routes.map fun _ => .refused := by
  intro payloads printed
  have h := o.printAll_goes past payloads
  split at h
  · rename_i after hprint
    obtain ⟨hpast, hnotices, hqueue, hclosed⟩ := serve_ok hprint
    obtain ⟨acts, goes, through⟩ := h
    subst hpast
    refine ⟨acts, goes, goes.after_eq, ?_, ?_, ?_⟩
    · intro early hearly
      rw [← through.bytesOf_eq]
      exact bytesOf_front hearly
    · exact ⟨fun _ => through.sound, fun _ => hnotices⟩
    · rw [hnotices]
      exact ⟨through, through.bytesOf_eq, through.flushes, hqueue, hclosed⟩
  · rename_i e after hprint
    obtain ⟨hpast, hnotices, hclosed, hfault⟩ := serve_error hprint
    obtain ⟨before, payload, behind, done, last, hpayloads, goes, through, torn⟩ := h
    subst hpast
    refine ⟨done ++ last, goes, goes.after_eq, ?_, ?_, ?_⟩
    · intro early hearly
      apply (bytesOf_front hearly).trans
      rw [bytesOf_append, through.bytesOf_eq, hpayloads, List.flatten_append, List.flatten_cons]
      exact (List.prefix_append_right_inj _).mpr (torn.bytesOf_front.trans (List.prefix_append _ _))
    · obtain ⟨a, ha, fails⟩ := torn.failing
      constructor
      · intro hnone
        cases hnotices.symm.trans hnone
      · intro sound
        cases (sound a (List.mem_append_right done ha)).symm.trans fails
    · rw [hnotices]
      exact ⟨before, payload, behind, done, last, e, hpayloads, rfl, through, through.bytesOf_eq, torn,
        torn.bytesOf_front, rfl, rfl, Sink.answers_of_closed hclosed (hfault.trans faultless)⟩

/-- Two bytes are taken at a time, and the second flush fails: the second message is out and the third is not. -/
theorem printed_in_order_failing_flush :
    let s : Sink := { sent := [⟨1, ⟨[6], "b"⟩⟩, ⟨1, ⟨[4, 5], "b"⟩⟩, ⟨0, ⟨[1, 2, 3], "a"⟩⟩] }
    let o := ({ limit := some 2, failingFlush := some 2 } : Writer).outlet
    let printed := o.serve [] s
    s.fault = none ∧ printed.notices = [.outputClosed Writer.flushRefused] ∧
      printed.past.reverse =
        [.took [1, 2, 3] 2, .took [3] 1, .flushed, .took [4, 5] 2, .unflushed Writer.flushRefused] ∧
      (∃ acts, o.Goes [] acts printed.past ∧
        ∀ early, early <+: acts → bytesOf early <+: [1, 2, 3, 4, 5, 6]) ∧
      ∀ routes, printed.sink.answers routes = routes.map fun _ => .refused := by
  intro s o printed
  have faultless : s.fault = none := rfl
  have hnotices : printed.notices = [.outputClosed Writer.flushRefused] := by decide +kernel
  obtain ⟨acts, goes, _, front, _, failed⟩ := printed_in_order o [] s faultless
  refine ⟨faultless, hnotices, by decide +kernel, ⟨acts, goes, front⟩, ?_⟩
  rw [hnotices] at failed
  obtain ⟨_, _, _, _, _, _, _, _, _, _, _, _, _, _, refused⟩ := failed
  exact refused

end Outlet

end FrameIntake
