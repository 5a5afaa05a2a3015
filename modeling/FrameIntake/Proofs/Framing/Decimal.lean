import FrameIntake.Proofs.Framing.DecimalField
import FrameIntake.Proofs.Framing.Joined

/-!
Streams of payloads, each behind a header and a length in decimal digits that a mark ends. Headers and payloads
may be any bytes, digits and marks among them: they are received as they were sent, as long as the mark does not
begin with a digit (`decimal_parcels_arrive`).
-/

namespace FrameIntake

/-- A payload to be sent, with the header in front of its length and the digits of that length. -/
structure DecimalParcel where
  header : Bytes
  digits : Bytes
  payload : Bytes
  deriving DecidableEq, Repr

namespace DecimalParcel

variable {x : DecimalParcel} {offset max : Nat} {mark : Delimiter}

def encode (mark : Delimiter) (x : DecimalParcel) : Bytes :=
  x.header ++ x.digits ++ mark.bytes ++ x.payload

/-- The frame that is received where a parcel was sent. -/
def received (offset : Nat) (mark : Delimiter) (x : DecimalParcel) : Frame :=
  ⟨x.encode mark, offset + x.digits.length + mark.size, (x.encode mark).length⟩

/-- What a stream asks of a parcel. All of it is in memory, where lengths are words. -/
structure Suits (x : DecimalParcel) (offset : Nat) (mark : Delimiter) (max : Nat) : Prop where
  header : x.header.length = offset
  digits : ∀ b ∈ x.digits, Bytes.isDigit b = true
  count : 1 ≤ x.digits.length ∧ x.digits.length ≤ 20
  value : Bytes.decimal x.digits = x.payload.length
  ceiling : x.payload.length ≤ max
  word : (x.encode mark).length < wordLimit

theorem Suits.length_front (h : x.Suits offset mark max) :
    (x.header ++ x.digits ++ mark.bytes).length = offset + x.digits.length + mark.size := by
  rw [List.length_append, List.length_append, h.header, Delimiter.size]

theorem Suits.received_eq (h : x.Suits offset mark max) :
    received offset mark x = Frame.headed (x.header ++ x.digits ++ mark.bytes) x.payload := by
  rw [received, Frame.headed, h.length_front, encode]

theorem Suits.accepts (h : x.Suits offset mark max)
    (hmark : ∀ b ∈ mark.bytes.head?, Bytes.isDigit b = false) :
    (Partitioner.ascii offset mark max).Accepts (received offset mark x) := by
  have hlength : (x.encode mark).length = offset + x.digits.length + mark.size + x.payload.length := by
    rw [encode, List.length_append, h.length_front]
  have hdrop : (x.encode mark).drop offset = x.digits ++ (mark.bytes ++ x.payload) := by
    rw [encode, List.append_assoc, List.append_assoc, List.drop_left' h.header]
  have hbehind : ∀ b ∈ (mark.bytes ++ x.payload).head?, Bytes.isDigit b = false := by
    rwa [List.head?_append, Option.or_of_isSome (List.isSome_head?.mpr mark.nonempty)]
  have field : DecimalField offset (x.encode mark) x.digits (mark.bytes ++ x.payload) :=
    ⟨by omega, hdrop, h.digits, hbehind⟩
  have hsize : Bytes.denoted x.digits = x.payload.length := by rw [← Bytes.decimal_eq_denoted, h.value]
  have sized : SizeGrammar (offset + x.digits.length + mark.size) (Bytes.denoted x.digits) max (x.encode mark)
      (.found ⟨(x.encode mark).length, offset + x.digits.length + mark.size, (x.encode mark).length⟩) := by
    rw [hsize, hlength]
    exact .whole h.ceiling (hlength ▸ h.word) (Nat.le_of_eq hlength.symm)
  exact (DecimalGrammar.headed field h.count.1 h.count.2 (List.prefix_append _ _) sized).extract_eq

end DecimalParcel

namespace Decoder

open DecimalParcel

/-- Parcels that are sent one behind the other are received as they were sent, each as one frame, and then the
stream ends clean. -/
theorem decimal_parcels_arrive (offset : Nat) (mark : Delimiter) (max : Nat)
    (hmark : ∀ b ∈ mark.bytes.head?, Bytes.isDigit b = false) (parcels : List DecimalParcel)
    (suits : ∀ x ∈ parcels, x.Suits offset mark max) (chunks : List Bytes)
    (hwire : chunks.flatten = (parcels.map (·.encode mark)).flatten) :
    (fresh (.ascii offset mark max)).run chunks = (parcels.map (received offset mark), .incomplete) ∧
      (parcels.map (received offset mark)).map Frame.payload = parcels.map DecimalParcel.payload := by
  constructor
  · have haccepts : ∀ f ∈ parcels.map (received offset mark),
        (Partitioner.ascii offset mark max).Accepts f := by
      intro f hf
      obtain ⟨x, hx, rfl⟩ := List.mem_map.mp hf
      exact (suits x hx).accepts hmark
    apply run_joined haccepts
    rw [hwire, List.map_map]
    rfl
  · rw [List.map_map]
    apply List.map_congr_left
    intro x hx
    rw [Function.comp_apply, (suits x hx).received_eq, Frame.headed_payload]

/-- A header and a payload that read like a length and its mark, and an empty payload, cut inside the digits and
inside both marks. -/
theorem decimal_parcels_arrive_lookalikes :
    let mark : Delimiter := ⟨[58, 58], by decide⟩
    let parcels : List DecimalParcel := [⟨[49], [48, 48, 50], [49, 58]⟩, ⟨[58], [48], []⟩]
    let chunks : List Bytes := [[49, 48], [48, 50, 58], [58, 49, 58, 58, 48, 58], [58]]
    (∀ b ∈ mark.bytes.head?, Bytes.isDigit b = false) ∧ (∀ x ∈ parcels, x.Suits 1 mark 2) ∧
      chunks.flatten = (parcels.map (·.encode mark)).flatten ∧
      (fresh (.ascii 1 mark 2)).run chunks =
        ([⟨[49, 48, 48, 50, 58, 58, 49, 58], 6, 8⟩, ⟨[58, 48, 58, 58], 4, 4⟩], .incomplete) ∧
      (parcels.map (received 1 mark)).map Frame.payload = [[49, 58], []] := by
  intro mark parcels chunks
  have hmark : ∀ b ∈ mark.bytes.head?, Bytes.isDigit b = false := by
    intro b hb
    obtain rfl := Option.some.inj hb
    decide
  have suits : ∀ x ∈ parcels, x.Suits 1 mark 2 := by
    intro x hx
    simp only [parcels, List.mem_cons, List.not_mem_nil, or_false] at hx
    rcases hx with rfl | rfl <;>
      exact ⟨rfl, List.all_eq_true.mp (by decide), by decide, by decide, by decide, by decide⟩
  have hwire : chunks.flatten = (parcels.map (·.encode mark)).flatten := by decide
  obtain ⟨hrun, hpayloads⟩ := decimal_parcels_arrive 1 mark 2 hmark parcels suits chunks hwire
  exact ⟨hmark, suits, hwire, hrun, hpayloads⟩

end Decoder

end FrameIntake
