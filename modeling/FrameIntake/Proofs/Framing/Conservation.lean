import FrameIntake.Proofs.Framing.Calls
import Mathlib.Data.List.DropRight

/-!
No byte is lost or made up, whatever is called. Since a stream last ended inside a frame, the frames that
were taken and the buffer behind them are the bytes that were appended (`bytes_conserved`).
-/

namespace FrameIntake.Decoder

def Event.isTrailing : Event → Bool
  | .answered (.trailing _) => true
  | _ => false

/-- What has happened since the stream last ended inside a frame, or all of it. -/
def sinceTrailing (events : List Event) : List Event := events.rtakeWhile (!·.isTrailing)

variable {d d' : Decoder} {c : Call} {e : Event} {events : List Event}

theorem sinceTrailing_concat (h : e.isTrailing = false) (events : List Event) :
    sinceTrailing (events ++ [e]) = sinceTrailing events ++ [e] :=
  List.rtakeWhile_concat_pos _ _ _ (by simp [h])

theorem sinceTrailing_trailing (events : List Event) (n : Nat) :
    sinceTrailing (events ++ [.answered (.trailing n)]) = [] :=
  List.rtakeWhile_concat_neg _ _ _ (by simp [Event.isTrailing])

/-- The frames of the stream and the buffer are the bytes of the stream. -/
def Conserves (events : List Event) (d : Decoder) : Prop :=
  ((taken (sinceTrailing events)).map Frame.data).flatten ++ d.buffer = arrived (sinceTrailing events)

theorem Conserves.comes (h : Conserves events d) (hc : d.Comes c e d') :
    Conserves (events ++ [e]) d' := by
  unfold Conserves at h ⊢
  cases hc with
  | appended bytes =>
    rw [sinceTrailing_concat rfl, arrived_append, taken_append, ← h, List.append_assoc]
    simp [append, taken]
  | frame found =>
    rename_i b
    have hcut : (b.frame d.buffer).data ++ d.buffer.drop b.stop = d.buffer :=
      List.take_append_drop b.stop d.buffer
    have htaken : taken [.answered (.frame (b.frame d.buffer))] = [b.frame d.buffer] := rfl
    rw [sinceTrailing_concat rfl, arrived_append, taken_append, htaken, ← h]
    simp [hcut]
  | incomplete | malformed =>
    rw [sinceTrailing_concat rfl, arrived_append, taken_append, ← h]
    simp [taken]
  | trailing =>
    rw [sinceTrailing_trailing]
    rfl

theorem conserves_after (p : Partitioner) (calls : List Call) :
    Conserves ((fresh p).events calls) ((fresh p).after calls) := by
  induction calls using List.reverseRecOn with
  | nil => rfl
  | append_singleton calls c ih =>
    rw [events_append, after_append]
    exact ih.comes (call_comes _ c)

/-- What a call tells of the decoder before it and behind it. -/
def Tells (d : Decoder) (c : Call) : Event → Decoder → Prop
  | .appended bytes, d' => d' = d.append bytes
  | .answered (.frame f), d' => f.data ++ d'.buffer = d.buffer
  | .answered .incomplete, d' => d'.buffer = d.buffer ∧ (c = .decodeEnd → d.buffer = [])
  | .answered (.malformed _), d' => d' = d
  | .answered (.trailing n), d' =>
    n = d.buffer.length ∧ n ≠ 0 ∧ d' = fresh d.partitioner

theorem Comes.tells (h : d.Comes c e d') : d.Tells c e d' := by
  cases h with
  | appended | malformed => rfl
  | frame found => exact List.take_append_drop _ _
  | incomplete waits clean => exact ⟨rfl, clean⟩
  | trailing waits some => exact ⟨rfl, fun h => some (List.length_eq_zero_iff.mp h), rfl⟩

/-- At every point of any calls, the bytes of the stream are in the frames that were answered and in the
buffer, and the next call tells what it does to the buffer. -/
theorem bytes_conserved (p : Partitioner) (calls : List Call) :
    let d := (fresh p).after calls
    let stream := sinceTrailing ((fresh p).events calls)
    ((taken stream).map Frame.data).flatten ++ d.buffer = arrived stream ∧
      d.partitioner = p ∧ ∀ c, d.Tells c (d.call c).1 (d.call c).2 :=
  ⟨conserves_after p calls, after_partitioner _ calls, fun c => (call_comes _ c).tells⟩

-- The byte that the end of the first stream drops is no part of the second.
example :
    let calls : List Call := [.append [1, 2, 3], .decode, .decodeEnd, .append [4, 5, 6], .decode]
    sinceTrailing ((fresh (.fixed 2 (by decide))).events calls) =
      [.appended [4, 5, 6], .answered (.frame ⟨[4, 5], 0, 2⟩)] := by decide

end FrameIntake.Decoder
