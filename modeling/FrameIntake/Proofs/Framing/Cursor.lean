import FrameIntake.Proofs.Framing.Calls
import FrameIntake.Proofs.Framing.Waiting

/-!
The cursor along all calls of a decoder. It stays in the buffer, a search from it is as good as one from the
front, and it moves back only when bytes leave the buffer (`cursor_resumes`).
-/

namespace FrameIntake

namespace Partitioner

variable {p : Partitioner} {buf : Bytes} {n m r k : Nat}

/-- How much of `size` bytes need not be searched again once they were searched in vain. -/
def searched (p : Partitioner) (size : Nat) : Nat :=
  match p with
  | .delimiter mark _ => size - (mark.size - 1)
  | _ => 0

theorem searched_le (p : Partitioner) (n : Nat) : p.searched n ≤ n := by
  cases p with
  | delimiter mark max => exact Nat.sub_le _ _
  | ascii | binary | fixed => exact Nat.zero_le n

theorem searched_mono (p : Partitioner) (h : n ≤ m) : p.searched n ≤ p.searched m := by
  cases p with
  | delimiter mark max => exact Nat.sub_le_sub_right h _
  | ascii | binary | fixed => exact Nat.le_refl _

theorem needMore_eq (h : p.extract buf k = .needMore r) : r = p.searched buf.length := by
  cases p with
  | delimiter mark max => exact (Delimiter.extract_needMore h).1
  | ascii offset mark max => exact (asciiExtract_needMore h).1
  | binary offset lengths max => exact (binaryExtract_needMore h).1
  | fixed size positive => exact (fixedExtract_needMore h).1

end Partitioner

namespace Decoder

variable {d d' : Decoder} {c : Call} {e : Event}

/-- The cursor is in front of what the next search has to see. -/
def Placed (d : Decoder) : Prop := d.scanFrom ≤ d.partitioner.searched d.buffer.length

theorem Comes.placed (h : d.Comes c e d') (placed : d.Placed) : d'.Placed := by
  cases h with
  | appended bytes =>
    have hl : d.buffer.length ≤ (d.append bytes).buffer.length := by simp [append]
    exact Nat.le_trans placed (d.partitioner.searched_mono hl)
  | frame | trailing => exact Nat.zero_le _
  | incomplete waits => exact Nat.le_of_eq (Partitioner.needMore_eq waits)
  | malformed => exact placed

theorem placed_after (p : Partitioner) (calls : List Call) : ((fresh p).after calls).Placed :=
  after_induction (fun d c placed => (d.call_comes c).placed placed) (Nat.zero_le _) calls

/-- Bytes have left the buffer. -/
def Event.takes : Event → Bool
  | .answered (.frame _) | .answered (.trailing _) => true
  | _ => false

theorem Comes.scanFrom_le (h : d.Comes c e d') (placed : d.Placed) (stays : e.takes = false) :
    d.scanFrom ≤ d'.scanFrom := by
  cases h with
  | appended | malformed => exact Nat.le_refl _
  | frame | trailing => cases stays
  | incomplete waits => exact Nat.le_trans placed (Nat.le_of_eq (Partitioner.needMore_eq waits).symm)

theorem scanFrom_le_after (placed : d.Placed) {calls : List Call}
    (stays : ∀ e ∈ d.events calls, e.takes = false) : d.scanFrom ≤ (d.after calls).scanFrom := by
  induction calls generalizing d with
  | nil => exact Nat.le_refl _
  | cons c calls ih =>
    have hc := d.call_comes c
    have hnow := hc.scanFrom_le placed (stays _ List.mem_cons_self)
    have hlater := ih (hc.placed placed) fun e he => stays e (List.mem_cons_of_mem _ he)
    exact Nat.le_trans hnow hlater

/-- Whatever was called, the cursor is in the buffer, and a search from there comes to what a search from
the front does, however the buffer goes on. While no bytes leave the buffer, the cursor does not move back. -/
theorem cursor_resumes (p : Partitioner) (calls : List Call) :
    let d := (fresh p).after calls
    d.scanFrom ≤ d.buffer.length ∧
      (∀ more, p.extract (d.buffer ++ more) d.scanFrom = p.extract (d.buffer ++ more) 0) ∧
      ∀ later, (∀ e ∈ d.events later, e.takes = false) → d.scanFrom ≤ (d.after later).scanFrom := by
  intro d
  have placed : d.Placed := placed_after p calls
  have hp : d.partitioner = p := after_partitioner _ calls
  have hresumes : d.Resumes := resumes_after p calls
  refine ⟨Nat.le_trans placed (d.partitioner.searched_le _), ?_, ?_⟩
  · intro more
    have := hresumes more
    rwa [hp] at this
  · intro later stays
    exact scanFrom_le_after placed stays

/-- A mark that begins with its own first byte twice, cut behind the second of them. The cursor has passed
one byte before it comes and two after that. -/
theorem cursor_resumes_split_mark :
    let p : Partitioner := .delimiter ⟨[97, 97, 98], by decide⟩ 9
    let d := (fresh p).after [.append [97, 97, 97], .decode]
    let later : List Call := [.append [97], .decode]
    (∀ e ∈ d.events later, e.takes = false) ∧
      p.extract (d.buffer ++ [98]) d.scanFrom = p.extract (d.buffer ++ [98]) 0 ∧
      d.scanFrom = 1 ∧ (d.after later).scanFrom = 2 ∧ d.scanFrom ≤ (d.after later).scanFrom := by
  intro p d later
  have stays : ∀ e ∈ d.events later, e.takes = false := by decide
  obtain ⟨_, hextract, hlater⟩ := cursor_resumes p [.append [97, 97, 97], .decode]
  exact ⟨stays, hextract [98], by decide, by decide, hlater later stays⟩

end Decoder

end FrameIntake
