import FrameIntake.Proofs.Framing.Calls

/-!
A stream that was refused stays refused. Once a decoder has answered with a framing error, it takes in what
is appended and answers with that error for good (`verdicts_stand`).
-/

namespace FrameIntake.Decoder

variable {d : Decoder} {e : FramingError}

/-- The buffer is malformed at its front. -/
def Refuses (d : Decoder) (e : FramingError) : Prop :=
  d.partitioner.extract d.buffer 0 = .malformed e

theorem Refuses.decode (h : d.Refuses e) (resumes : d.Resumes) : d.decode = (.malformed e, d) := by
  rw [resumes.decode_eq, h]

theorem Refuses.decodeEnd (h : d.Refuses e) (resumes : d.Resumes) : d.decodeEnd = (.malformed e, d) := by
  rw [resumes.decodeEnd_eq, h]

theorem Refuses.append (h : d.Refuses e) (bytes : Bytes) :
    ∃ later, (d.append bytes).Refuses later ∧ d.partitioner.Persists e later :=
  Partitioner.extract_append_malformed h bytes

theorem refuses_of_answer (resumes : d.Resumes) {c : Call}
    (h : (d.call c).1 = .answered (.malformed e)) : d.Refuses e ∧ (d.call c).2 = d := by
  have hc := d.call_comes c
  rw [h] at hc
  generalize (d.call c).2 = d' at hc ⊢
  cases hc with
  | malformed refused => exact ⟨resumes.extract.symm.trans refused, rfl⟩

theorem Refuses.comes (h : d.Refuses e) (resumes : d.Resumes) {c : Call} {event : Event} {d' : Decoder}
    (hc : d.Comes c event d') : d' = d.append (arrived [event]) := by
  have hx : d.partitioner.extract d.buffer d.scanFrom = .malformed e := resumes.extract.trans h
  cases hc with
  | appended bytes => simp
  | malformed => simp [append_nil]
  | frame found => cases hx.symm.trans found
  | incomplete waits | trailing waits => cases hx.symm.trans waits

/-- Whatever is called, nothing happens to a buffer that is refused but that bytes are appended. -/
theorem Refuses.after (h : d.Refuses e) (resumes : d.Resumes) (calls : List Call) :
    d.after calls = d.append (arrived (d.events calls)) := by
  induction calls generalizing d e with
  | nil => exact d.append_nil.symm
  | cons c calls ih =>
    have hc : (d.call c).2 = d.append (arrived [(d.call c).1]) := h.comes resumes (d.call_comes c)
    obtain ⟨later, hlater, _⟩ := h.append (arrived [(d.call c).1])
    rw [← hc] at hlater
    calc d.after (c :: calls)
        = (d.call c).2.append (arrived ((d.call c).2.events calls)) := ih hlater (resumes.call c)
      _ = d.append (arrived [(d.call c).1] ++ arrived ((d.call c).2.events calls)) := by
        rw [← append_append, ← hc]
      _ = d.append (arrived (d.events (c :: calls))) := by
        rw [← arrived_append]
        rfl

/-- A frame at the front of a buffer stays there, and a buffer that is refused never begins with one,
whatever follows. So once a decoder has refused its buffer, it keeps every byte of it and refuses it at every
call. -/
theorem verdicts_stand (p : Partitioner) :
    (∀ buf b, p.extract buf 0 = .found b → ∀ more, p.extract (buf ++ more) 0 = .found b) ∧
      (∀ buf e, p.extract buf 0 = .malformed e → ∀ more,
        (∃ later, p.extract (buf ++ more) 0 = .malformed later ∧ p.Persists e later) ∧
          (p.cut (buf ++ more)).frames = []) ∧
      ∀ calls c e, let d := (fresh p).after calls
        (d.call c).1 = .answered (.malformed e) →
        (d.call c).2 = d ∧
          ∀ more, let now := d.after more
            now = d.append (arrived (d.events more)) ∧
              ∃ later, p.Persists e later ∧ now.decode = (.malformed later, now) ∧
                now.decodeEnd = (.malformed later, now) := by
  refine ⟨fun buf b h more => Partitioner.extract_append_found h more, ?_, ?_⟩
  · intro buf e h more
    refine ⟨Partitioner.extract_append_malformed h more, ?_⟩
    obtain ⟨later, _, hcut⟩ := Partitioner.cut_append_of_malformed h more
    rw [hcut]
  · intro calls c e d h
    have hp : d.partitioner = p := after_partitioner _ calls
    have hresumes : d.Resumes := resumes_after p calls
    obtain ⟨hrefuses, hsame⟩ := refuses_of_answer hresumes h
    refine ⟨hsame, ?_⟩
    intro more now
    have hnow : now = d.append (arrived (d.events more)) := hrefuses.after hresumes more
    obtain ⟨later, hlater, hpersists⟩ := hrefuses.append (arrived (d.events more))
    have hresumes' : now.Resumes := hresumes.after more
    rw [← hnow] at hlater
    rw [hp] at hpersists
    exact ⟨hnow, later, hpersists, hlater.decode hresumes', hlater.decodeEnd hresumes'⟩

/-- A mark that comes too late. The size at which its frame is refused grows by one. -/
theorem verdicts_stand_late_mark :
    let p : Partitioner := .delimiter ⟨[13, 10], by decide⟩ 2
    let d := (fresh p).after [.append [97, 13, 10, 97, 98, 99, 100], .decode]
    let now := d.after [.append [13], .decodeEnd, .append [10]]
    p.extract [97, 13, 10] 0 = .found ⟨3, 0, 1⟩ ∧
      p.extract ([97, 13, 10] ++ [98]) 0 = .found ⟨3, 0, 1⟩ ∧
      p.extract [97, 98, 99, 100] 0 = .malformed (.oversized 3 2) ∧
      (p.cut ([97, 98, 99, 100] ++ [13, 10])).frames = [] ∧
      (d.call .decode).1 = .answered (.malformed (.oversized 3 2)) ∧
      now.buffer = [97, 98, 99, 100, 13, 10] ∧
      ∃ later, p.Persists (.oversized 3 2) later ∧ now.decode = (.malformed later, now) := by
  intro p d now
  have hfound : p.extract [97, 13, 10] 0 = .found ⟨3, 0, 1⟩ := by decide
  have hrefused : p.extract [97, 98, 99, 100] 0 = .malformed (.oversized 3 2) := by decide
  have hanswer : (d.call .decode).1 = .answered (.malformed (.oversized 3 2)) := by decide
  obtain ⟨hstays, hnever, hgood⟩ := verdicts_stand p
  obtain ⟨_, hnow⟩ := hgood [.append [97, 13, 10, 97, 98, 99, 100], .decode] .decode _ hanswer
  obtain ⟨_, later, hpersists, hdecode, _⟩ := hnow [.append [13], .decodeEnd, .append [10]]
  exact ⟨hfound, hstays _ _ hfound [98], hrefused, (hnever _ _ hrefused [13, 10]).2, hanswer, by decide,
    later, hpersists, hdecode⟩

end FrameIntake.Decoder
