import FrameIntake.Proofs.Framing.Backlog
import FrameIntake.Proofs.Framing.Joined
import FrameIntake.Proofs.Framing.Prefix

/-!
Streams of payloads, each behind a header and a binary length. What was sent so is received payload by
payload, and nothing is received that was not written so (`parcels_round_trip`).
-/

namespace FrameIntake

/-- A payload to be sent, and the header in front of its length. -/
structure Parcel where
  header : Bytes
  payload : Bytes
  deriving DecidableEq, Repr

namespace Parcel

variable {x : Parcel} {parcels : List Parcel} {offset max : Nat} {lengths : LengthPrefix}

/-- What is sent, or nothing if the length does not fit. -/
def encode? (lengths : LengthPrefix) (x : Parcel) : Option Bytes :=
  (lengths.append? x.payload.length x.header).map (· ++ x.payload)

/-- The frame that is received where `piece` was sent. -/
def received (offset : Nat) (lengths : LengthPrefix) (piece : Bytes) : Frame :=
  ⟨piece, offset + lengths.width.bytes, piece.length⟩

/-- What a stream asks of a parcel. All of it is in memory, where lengths are words. -/
structure Suits (x : Parcel) (offset : Nat) (lengths : LengthPrefix) (max : Nat) : Prop where
  header : x.header.length = offset
  ceiling : x.payload.length ≤ max
  fits : x.payload.length < 2 ^ (8 * lengths.width.bytes)
  word : offset + lengths.width.bytes + x.payload.length < wordLimit

theorem Suits.encode? (h : x.Suits offset lengths max) :
    ∃ front, front.length = offset + lengths.width.bytes ∧
      lengths.read? (front.drop offset ++ x.payload) = some x.payload.length ∧
      x.encode? lengths = some (front ++ x.payload) := by
  have hbound : x.payload.length < LengthPrefix.bound lengths.width.bytes := by
    rw [LengthPrefix.bound_eq_two_pow]
    exact h.fits
  obtain ⟨written, hwritten⟩ := lengths.encode?_of_lt hbound
  refine ⟨x.header ++ written, ?_, ?_, ?_⟩
  · rw [List.length_append, h.header, LengthPrefix.length_of_encode? hwritten]
  · rw [List.drop_left' h.header, LengthPrefix.read?_append_of_encode? hwritten]
  · rw [Parcel.encode?, LengthPrefix.append?, hwritten]
    rfl

/-- A suitable parcel is sent as one frame. -/
theorem Suits.accepts (h : x.Suits offset lengths max) :
    ∃ piece, x.encode? lengths = some piece ∧ (received offset lengths piece).payload = x.payload ∧
      (Partitioner.binary offset lengths max).Accepts (received offset lengths piece) := by
  obtain ⟨front, hfront, hread, hencode⟩ := h.encode?
  have hreceived : received offset lengths (front ++ x.payload) = Frame.headed front x.payload := by
    rw [received, Frame.headed, hfront]
  refine ⟨front ++ x.payload, hencode, by rw [hreceived, Frame.headed_payload], ?_⟩
  have hword : (front ++ x.payload).length < wordLimit := by
    rw [List.length_append, hfront]
    exact h.word
  have hoffset : ¬Bytes.isShorterThan (front ++ x.payload) offset := by
    rw [Bytes.isShorterThan_iff, List.length_append]
    omega
  rw [hreceived]
  change binaryExtract offset lengths max (front ++ x.payload) = _
  rw [binaryExtract, if_neg hoffset, List.drop_append_of_le_length (by omega), hread, ← hfront]
  exact declaredExtract_headed h.ceiling hword

theorem accepts_all (suits : ∀ x ∈ parcels, x.Suits offset lengths max) :
    ∃ pieces : List Bytes, parcels.map (·.encode? lengths) = pieces.map some ∧
      (pieces.map (received offset lengths)).map Frame.payload = parcels.map Parcel.payload ∧
      ∀ f ∈ pieces.map (received offset lengths), (Partitioner.binary offset lengths max).Accepts f := by
  induction parcels with
  | nil => exact ⟨[], rfl, rfl, by simp⟩
  | cons x parcels ih =>
    obtain ⟨piece, hencode, hpayload, haccepts⟩ := (suits x List.mem_cons_self).accepts
    obtain ⟨pieces, hencodes, hpayloads, hall⟩ := ih fun y hy => suits y (List.mem_cons_of_mem x hy)
    refine ⟨piece :: pieces, ?_, ?_, ?_⟩
    · simp only [List.map_cons, hencode, hencodes]
    · simp only [List.map_cons, hpayload, hpayloads]
    · intro f hf
      rcases List.mem_cons.mp hf with rfl | hf
      · exact haccepts
      · exact hall f hf

end Parcel

section Found

variable {offset max : Nat} {lengths : LengthPrefix} {buf : Bytes} {b : Bounds}

theorem binaryExtract_found (h : binaryExtract offset lengths max buf = .found b) :
    ∃ size, lengths.read? (buf.drop offset) = some size ∧
      b = ⟨offset + lengths.width.bytes + size, offset + lengths.width.bytes,
        offset + lengths.width.bytes + size⟩ ∧ b.stop ≤ buf.length := by
  unfold binaryExtract at h
  split at h
  · contradiction
  · split at h
    · contradiction
    · rename_i size hr
      obtain ⟨hb, hl, _⟩ := declaredExtract_found h
      exact ⟨size, hr, hb, hl⟩

/-- A frame that is found is what the encoder makes of its header and its payload. -/
theorem binaryExtract_written (h : binaryExtract offset lengths max buf = .found b) :
    let f := b.frame buf
    (f.data.take offset).length = offset ∧
      ∃ front, lengths.append? f.payload.length (f.data.take offset) = some front ∧
        f.data = front ++ f.payload := by
  obtain ⟨size, hread, rfl, hl⟩ := binaryExtract_found h
  intro f
  have hdata : f.data = buf.take (offset + lengths.width.bytes + size) := rfl
  have hlength : f.data.length = offset + lengths.width.bytes + size := List.length_take_of_le hl
  have hpayload : f.payload = f.data.drop (offset + lengths.width.bytes) :=
    congrArg (List.drop _) (List.take_of_length_le (Nat.le_of_eq hlength))
  have hsize : f.payload.length = size := by
    rw [hpayload, List.length_drop]
    omega
  have hwritten : lengths.encode? size = some ((f.data.drop offset).take lengths.width.bytes) := by
    rw [LengthPrefix.encode?_of_read? hread, hdata, List.drop_take, List.take_take,
      Nat.min_eq_left (by omega)]
  refine ⟨by rw [List.length_take]; omega, f.data.take (offset + lengths.width.bytes), ?_, ?_⟩
  · rw [LengthPrefix.append?, hsize, hwritten, Option.map_some, List.take_add]
  · rw [hpayload, List.take_append_drop]

end Found

namespace Decoder

open Parcel in
/-- Parcels that are sent one behind the other are received as they were sent, each as one frame, and then the
stream ends clean. Of any bytes at all, every frame that is received is a header, the length of its payload,
and the payload. -/
theorem parcels_round_trip (offset : Nat) (lengths : LengthPrefix) (max : Nat) :
    let p : Partitioner := .binary offset lengths max
    (∀ parcels : List Parcel, (∀ x ∈ parcels, x.Suits offset lengths max) →
      ∃ pieces : List Bytes, parcels.map (·.encode? lengths) = pieces.map some ∧
        (pieces.map (received offset lengths)).map Frame.payload = parcels.map Parcel.payload ∧
        ∀ chunks, chunks.flatten = pieces.flatten →
          (fresh p).run chunks = (pieces.map (received offset lengths), .incomplete)) ∧
      ∀ calls c f, (((fresh p).after calls).call c).1 = .answered (.frame f) →
        (f.data.take offset).length = offset ∧
          ∃ front, lengths.append? f.payload.length (f.data.take offset) = some front ∧
            f.data = front ++ f.payload := by
  intro p
  constructor
  · intro parcels suits
    obtain ⟨pieces, hencode, hpayload, haccepts⟩ := accepts_all suits
    refine ⟨pieces, hencode, hpayload, ?_⟩
    intro chunks hchunks
    apply run_joined haccepts
    have hdata : (pieces.map (received offset lengths)).map Frame.data = pieces := by
      rw [List.map_map]
      exact List.map_id pieces
    rw [hchunks, hdata]
  · intro calls c f h
    have hp : ((fresh p).after calls).partitioner = p := after_partitioner _ calls
    have hc := ((fresh p).after calls).call_comes c
    rw [h] at hc
    generalize (((fresh p).after calls).call c).2 = d' at hc
    cases hc with
    | frame found =>
      rw [hp] at found
      exact binaryExtract_written found

/-- An empty payload and one of three bytes, cut inside the first header and the second length. -/
theorem parcels_round_trip_cut_length :
    let lengths : LengthPrefix := ⟨.u16, .big⟩
    let p : Partitioner := .binary 2 lengths 3
    let parcels : List Parcel := [⟨[9, 9], []⟩, ⟨[0, 1], [7, 8, 9]⟩]
    let chunks : List Bytes := [[9], [9, 0, 0], [], [0, 1, 0], [3, 7, 8, 9]]
    let first : Frame := ⟨[9, 9, 0, 0], 4, 4⟩
    let second : Frame := ⟨[0, 1, 0, 3, 7, 8, 9], 4, 7⟩
    (∀ x ∈ parcels, x.Suits 2 lengths 3) ∧
      parcels.map (·.encode? lengths) = [some first.data, some second.data] ∧
      chunks.flatten = [first.data, second.data].flatten ∧
      (fresh p).run chunks = ([first, second], .incomplete) ∧
      (((fresh p).after [.append second.data]).call .decode).1 = .answered (.frame second) ∧
      ∃ front, lengths.append? second.payload.length (second.data.take 2) = some front ∧
        second.data = front ++ second.payload := by
  intro lengths p parcels chunks first second
  have suits : ∀ x ∈ parcels, x.Suits 2 lengths 3 := by
    intro x hx
    simp only [parcels, List.mem_cons, List.not_mem_nil, or_false] at hx
    rcases hx with rfl | rfl <;> exact ⟨by decide, by decide, by decide, by decide⟩
  obtain ⟨hsent, hreceived⟩ := parcels_round_trip 2 lengths 3
  obtain ⟨pieces, hencode, _, hrun⟩ := hsent parcels suits
  have hpieces : pieces = [first.data, second.data] := by
    have hsome : pieces.map some = [first.data, second.data].map some := hencode.symm.trans (by decide)
    exact (List.map_inj_right fun _ _ => Option.some.inj).mp hsome
  rw [hpieces] at hrun
  have hchunks : chunks.flatten = [first.data, second.data].flatten := by decide
  have hanswer : (((fresh p).after [.append second.data]).call .decode).1 = .answered (.frame second) := by
    decide
  exact ⟨suits, by decide, hchunks, hrun chunks hchunks, hanswer, (hreceived _ _ _ hanswer).2⟩

end Decoder

end FrameIntake
