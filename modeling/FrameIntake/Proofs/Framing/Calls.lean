import FrameIntake.Proofs.Framing.Resumption

/-!
Calls of a decoder, in any order and for as long as one likes: in the midst of a stream, after an error and
after an end. `Decoder.Comes` is everything that one call can come to, and what holds along all calls is
proved of one of them (`after_induction`).
-/

namespace FrameIntake.Decoder

inductive Call
  | append (bytes : Bytes)
  | decode
  | decodeEnd
  deriving DecidableEq, Repr

/-- What a call has come to. -/
inductive Event
  | appended (bytes : Bytes)
  | answered (result : Decoded)
  deriving DecidableEq, Repr

/-- A decoder at the start of a stream. -/
def fresh (p : Partitioner) : Decoder := { partitioner := p }

def call (d : Decoder) : Call → Event × Decoder
  | .append bytes => (.appended bytes, d.append bytes)
  | .decode => (.answered d.decode.1, d.decode.2)
  | .decodeEnd => (.answered d.decodeEnd.1, d.decodeEnd.2)

def after (d : Decoder) (calls : List Call) : Decoder := calls.foldl (fun d c => (d.call c).2) d

def events (d : Decoder) : List Call → List Event
  | [] => []
  | c :: calls => (d.call c).1 :: (d.call c).2.events calls

/-- The bytes that were appended. -/
def arrived (events : List Event) : Bytes :=
  events.flatMap fun
    | .appended bytes => bytes
    | .answered _ => []

/-- The frames that were answered. -/
def taken (events : List Event) : List Frame :=
  events.filterMap fun
    | .answered (.frame f) => some f
    | _ => none

@[simp] theorem arrived_nil : arrived [] = [] := rfl

@[simp] theorem arrived_cons_appended (bytes : Bytes) (events : List Event) :
    arrived (.appended bytes :: events) = bytes ++ arrived events := rfl

@[simp] theorem arrived_cons_answered (result : Decoded) (events : List Event) :
    arrived (.answered result :: events) = arrived events := rfl

@[simp] theorem arrived_append (events more : List Event) :
    arrived (events ++ more) = arrived events ++ arrived more := List.flatMap_append

@[simp] theorem taken_append (events more : List Event) :
    taken (events ++ more) = taken events ++ taken more := List.filterMap_append

theorem after_append (d : Decoder) (calls more : List Call) :
    d.after (calls ++ more) = (d.after calls).after more := List.foldl_append

theorem events_append (d : Decoder) (calls more : List Call) :
    d.events (calls ++ more) = d.events calls ++ (d.after calls).events more := by
  induction calls generalizing d with
  | nil => rfl
  | cons c calls ih =>
    rw [List.cons_append, events, ih]
    rfl

theorem append_nil (d : Decoder) : d.append [] = d := by
  simp [append]

theorem append_append (d : Decoder) (bytes more : Bytes) :
    (d.append bytes).append more = d.append (bytes ++ more) := by
  simp [append]

/-- Everything that a call can come to. -/
inductive Comes (d : Decoder) : Call → Event → Decoder → Prop
  | appended (bytes : Bytes) : Comes d (.append bytes) (.appended bytes) (d.append bytes)
  | frame {c b} (found : d.partitioner.extract d.buffer d.scanFrom = .found b) :
      Comes d c (.answered (.frame (b.frame d.buffer)))
        { d with buffer := d.buffer.drop b.stop, scanFrom := 0 }
  | incomplete {c r} (waits : d.partitioner.extract d.buffer d.scanFrom = .needMore r)
      (clean : c = .decodeEnd → d.buffer = []) :
      Comes d c (.answered .incomplete) { d with scanFrom := r }
  | malformed {c e} (refused : d.partitioner.extract d.buffer d.scanFrom = .malformed e) :
      Comes d c (.answered (.malformed e)) d
  | trailing {r} (waits : d.partitioner.extract d.buffer d.scanFrom = .needMore r)
      (some : d.buffer ≠ []) :
      Comes d .decodeEnd (.answered (.trailing d.buffer.length)) (fresh d.partitioner)

theorem call_comes (d : Decoder) (c : Call) : d.Comes c (d.call c).1 (d.call c).2 := by
  cases c with
  | append bytes => exact .appended bytes
  | decode =>
    rw [call, decode]
    cases h : d.partitioner.extract d.buffer d.scanFrom with
    | found b => exact .frame h
    | needMore r => exact .incomplete h (by simp)
    | malformed e => exact .malformed h
  | decodeEnd =>
    rw [call, decodeEnd, decode]
    cases h : d.partitioner.extract d.buffer d.scanFrom with
    | found b => exact .frame h
    | malformed e => exact .malformed h
    | needMore r =>
      dsimp only
      split
      · rename_i hempty
        exact .incomplete h fun _ => List.isEmpty_iff.mp hempty
      · rename_i hsome
        exact .trailing h fun hnil => hsome (List.isEmpty_iff.mpr hnil)

variable {d d' : Decoder} {c : Call} {e : Event}

/-- What every call keeps, all calls keep. -/
theorem after_induction {P : Decoder → Prop} (keeps : ∀ d c, P d → P (d.call c).2) (h : P d)
    (calls : List Call) : P (d.after calls) := by
  induction calls generalizing d with
  | nil => exact h
  | cons c calls ih => exact ih (keeps d c h)

theorem Comes.partitioner (h : d.Comes c e d') : d'.partitioner = d.partitioner := by
  cases h <;> rfl

theorem after_partitioner (d : Decoder) (calls : List Call) :
    (d.after calls).partitioner = d.partitioner := by
  have keeps (now : Decoder) (c : Call) (h : now.partitioner = d.partitioner) :
      (now.call c).2.partitioner = d.partitioner := (now.call_comes c).partitioner.trans h
  exact after_induction keeps rfl calls

theorem Resumes.call (h : d.Resumes) (c : Call) : (d.call c).2.Resumes := by
  cases c with
  | append bytes => exact h.append bytes
  | decode => exact h.decode
  | decodeEnd => exact h.decodeEnd

theorem Resumes.after (h : d.Resumes) (calls : List Call) : (d.after calls).Resumes :=
  after_induction (fun _ c h => h.call c) h calls

theorem resumes_after (p : Partitioner) (calls : List Call) : ((fresh p).after calls).Resumes :=
  (Resumes.of_fresh rfl).after calls

end FrameIntake.Decoder
