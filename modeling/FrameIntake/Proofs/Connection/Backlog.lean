import FrameIntake.Proofs.Connection.Fate
import FrameIntake.Proofs.Options.Accepted

/-!
What a peer can make a consumer hold. Under options that were accepted, a handler that waits for data holds
no more than the backlog of its partitioner, whatever the peer has sent (`backlog_bounded`).
-/

namespace FrameIntake.Chronicle

variable {p : Partitioner} {stream : String} {ch : Chronicle} {bytes : Bytes} {taken : List Frame}
variable {signals : Signals} {sink : Sink} {left max : Nat}

theorem Kept.backlog_le (h : ch.Kept p stream bytes taken) (ceiling : p.HasCeiling max)
    (reading : ch.connection.phase = .reading)
    (rest : ch.connection.step signals sink left = none) :
    ch.connection.reader.buffered ≤ p.backlog max := by
  unfold Connection.step at rest
  rw [reading] at rest
  obtain ⟨_, hnone⟩ := Connection.watch_eq_none rest
  obtain ⟨_, r, hwaits⟩ := h.lacks_of_idle reading hnone
  exact Partitioner.backlog_le ceiling hwaits

/-- No payload is above the ceiling that the options name, and no decoder that asks for more bytes holds
more than the backlog, whatever the stream and its chunks. So no handler does that waits for data. -/
theorem backlog_bounded {o : Options} {config : Config} (accepted : o.validate = .ok config) :
    let p := config.partitioner
    let max := o.maxMessageSize
    p.HasCeiling max ∧
      (∀ calls c, let d := (Decoder.fresh p).after calls
        (∀ f, (d.call c).1 = .answered (.frame f) → f.payload.length ≤ max) ∧
          ((d.call c).1 = .answered .incomplete → (d.call c).2.buffer.length ≤ p.backlog max)) ∧
      ∀ stream id peer source entries,
        let c := ((start p stream id peer source).run entries).connection
        ∀ signals sink left, c.phase = .reading → c.step signals sink left = none →
          c.reader.buffered ≤ p.backlog max := by
  intro p max
  have ceiling : p.HasCeiling max := Options.validate_ceiling accepted
  refine ⟨ceiling, ?_, ?_⟩
  · intro calls c d
    have hp : d.partitioner = p := Decoder.after_partitioner _ calls
    have hc := d.call_comes c
    refine ⟨?_, ?_⟩
    · intro f hf
      rw [hf] at hc
      exact hc.payload_le (hp ▸ ceiling)
    · intro hw
      rw [hw] at hc
      exact hp ▸ hc.backlog_le (hp ▸ ceiling)
  · intro stream id peer source entries c signals sink left reading rest
    have hstart : (start p stream id peer source).Kept p stream [] [] := kept_start id peer source
    obtain ⟨bytes, taken, hkept⟩ := hstart.run entries
    exact hkept.backlog_le ceiling reading rest

/-- All of a payload, and half of the mark behind it: one byte more is a frame or too much. -/
theorem backlog_bounded_half_mark :
    let o : Options := { delimiter := "\\r\\n", maxMessageSize := 4 }
    let p : Partitioner := .delimiter ⟨[13, 10], by decide⟩ 4
    let d := (Decoder.fresh p).after [.append [97, 98, 99, 100, 13]]
    let entries : List Entry := [.arrive (.data [97, 98, 99, 100, 13]), .step {} {} 1, .step {} {} 1]
    let c := ((start p "proxy" 0 "a" .events).run entries).connection
    o.validate = .ok ⟨.tcp "0.0.0.0:5880", p, "proxy"⟩ ∧
      (d.call .decode).1 = .answered .incomplete ∧
      (d.call .decode).2.buffer.length ≤ p.backlog 4 ∧
      c.phase = .reading ∧ c.step {} {} 1 = none ∧ c.reader.buffered ≤ p.backlog 4 ∧
      (d.call .decode).2.buffer.length = 5 ∧ c.reader.buffered = 5 ∧ p.backlog 4 = 5 := by
  intro o p d entries c
  have accepted : o.validate = .ok ⟨.tcp "0.0.0.0:5880", p, "proxy"⟩ := by decide +kernel
  have hanswer : (d.call .decode).1 = .answered .incomplete := by decide
  have reading : c.phase = .reading := by decide +kernel
  have rest : c.step {} {} 1 = none := Option.isNone_iff_eq_none.mp (by decide +kernel)
  obtain ⟨_, hdecoders, hhandlers⟩ := backlog_bounded accepted
  exact ⟨accepted, hanswer, (hdecoders _ .decode).2 hanswer, reading, rest,
    hhandlers _ _ _ _ entries _ _ _ reading rest, by decide, by decide +kernel, by decide⟩

end FrameIntake.Chronicle
