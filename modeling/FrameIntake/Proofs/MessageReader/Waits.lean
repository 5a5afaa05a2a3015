import FrameIntake.Proofs.MessageReader.Answer

/-!
What a reader waits for. While the stream goes on, its buffer was not looked at yet or may still grow into a
frame (`advance_waits`). So it never waits behind bytes that are malformed.
-/

namespace FrameIntake

/-- More bytes can make it begin with a frame. -/
def Partitioner.Lacks (p : Partitioner) (buf : Bytes) : Prop := ∃ k, p.extract buf 0 = .needMore k

namespace MessageReader

variable {afterwards : Afterwards} {held : Bool} {r r' : MessageReader} {reads rest : List Read}
variable {item : Item}

def Waits (r : MessageReader) : Prop :=
  r.readable = true ∨ r.decoder.partitioner.Lacks r.decoder.buffer

/-- What an item tells of the buffer behind it. -/
def Leaves (r : MessageReader) : Item → Prop
  | .message _ => r.Waits
  | .pending | .error (.io _) => r.decoder.partitioner.Lacks r.decoder.buffer
  | _ => True

theorem waits_start (p : Partitioner) (stream : String) : (start p stream).Waits :=
  .inr ⟨0, p.extract_nil 0⟩

theorem deliver_leaves (resumes : r.decoder.Resumes) (h : r.deliver = (some item, r')) :
    r'.Leaves item := by
  cases hr : r.readable with
  | false => simp [deliver, hr] at h
  | true =>
    rw [deliver_of_readable resumes hr] at h
    split at h
    · cases h
      exact .inl hr
    · split at h
      · split at h <;> cases h <;> trivial
      · cases h
    · cases h
      trivial

theorem deliver_lacks (resumes : r.decoder.Resumes) (waits : r.Waits) (h : r.deliver = (none, r')) :
    r'.decoder.partitioner.Lacks r'.decoder.buffer := by
  cases hr : r.readable with
  | false =>
    simp only [deliver, hr, Bool.not_false, if_true, Prod.mk.injEq, true_and] at h
    subst h
    exact waits.resolve_left (by simp [hr])
  | true =>
    rw [deliver_of_readable resumes hr] at h
    split at h
    · cases h
    · rename_i k he
      split at h
      · split at h <;> cases h
      · cases h
        exact ⟨k, he⟩
    · cases h

/-- Who has taken bytes in has to look at them. -/
theorem accept_readable {read : Read} (h : r.accept read = (none, r')) : r'.readable = true := by
  unfold accept at h
  split at h
  · cases h
  · cases h
  · split at h <;> cases h
    rfl
  · cases h
    rfl

theorem end_leaves (going : r.atEnd = false) (resumes : r.decoder.Resumes)
    (h : r.accept .ended = (some item, r') ∨
      ∃ closed, r.accept .ended = (none, closed) ∧ closed.deliver = (some item, r')) :
    r'.Leaves item := by
  have hacc : r.accept .ended =
      (none, { r with atEnd := true, readable := true, reads := r.reads + 1 }) := by
    simp [accept, Read.ended, going]
  rcases h with ha | ⟨closed, ha, hd⟩
  · cases hacc.symm.trans ha
  · cases hacc.symm.trans ha
    refine deliver_leaves ?_ hd
    exact resumes

theorem advance_waits (sound : r.Sound) (fine : r.errored = false) (going : r.atEnd = false)
    (waits : r.Waits) (h : r.advance afterwards held reads = (item, r', rest)) : r'.Leaves item := by
  induction hm : total Read.size reads + reads.length using Nat.strongRecOn generalizing r reads with
  | ind n ih =>
  rcases @deliver_answers afterwards r sound fine reads with
    ⟨answer, last, hd, -⟩ | ⟨poised, hd, hp⟩
  · rw [advance_of_deliver hd reads] at h
    cases h
    exact deliver_leaves sound.resumes hd
  have hroom := hp.makeRoom held
  have hlacks := deliver_lacks sound.resumes waits hd
  cases hn : afterwards.next reads with
  | mk read later =>
  cases read with
  | pending =>
    rw [advance_of_accept hd hn rfl (.inl rfl)] at h
    cases h
    exact hlacks
  | failed e =>
    rw [advance_of_accept hd hn rfl (.inl rfl)] at h
    cases h
    exact hlacks
  | data bytes =>
    cases bytes with
    | nil =>
      obtain ⟨answer, last, ha, -⟩ := end_answers hroom hn
      rw [advance_of_accept hd hn (by simp [take, Read.cut]) ha] at h
      cases h
      exact end_leaves (hroom.atEnd.trans going) hroom.sound.resumes ha
    | cons b bs =>
      cases reads with
      | nil => cases afterwards <;> simp [Afterwards.next, Afterwards.read, Read.ended] at hn
      | cons read reads =>
        obtain ⟨rfl, rfl⟩ := Prod.mk.inj hn
        obtain ⟨next, hacc, hs, hf, hgo, -⟩ :=
          accept_data hroom (room_makeRoom held poised) b bs reads
        have hlt := take_lt (room_makeRoom held poised) (.data (b :: bs))
        rw [advance_of_data hd hacc] at h
        refine ih _ ?_ hs hf hgo (.inl (accept_readable hacc)) h rfl
        simp only [total_append, List.length_append, total_cons, List.length_cons] at hm ⊢
        omega

end MessageReader

end FrameIntake
