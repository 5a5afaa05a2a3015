import FrameIntake.Proofs.Framing.Calls
import FrameIntake.Proofs.Framing.Waiting
import FrameIntake.Proofs.Framing.Words

/-!
Extraction on a machine. Its sums are words and its cuts have to lie in the buffer, and yet no step of it
faults, whatever the partitioner, the buffer and the place where the search begins: what is added up has
been compared with the buffer's length before, but for the declared length, whose sum is checked. So no
call of a decoder faults, and the frames of a buffer are taken in as many calls as it has bytes, at most
(`decode_faultless`).
-/

namespace FrameIntake

open LengthPrefix (machineRead? machineRead?_eq)

def Delimiter.machineExtract (mark : Delimiter) (max : Nat) (buf : Bytes) (scanFrom : Nat) :
    Option Verdict := do
  let start := min scanFrom buf.length
  match Bytes.find? mark.bytes (← buf.slice? start buf.length) with
  | some pos =>
    let payloadStop ← Word.add? start pos
    if max < payloadStop then some (.malformed (.oversized payloadStop max))
    else some (.found ⟨← Word.add? payloadStop mark.size, 0, payloadStop⟩)
  | none =>
    -- The one difference that may be below zero, and then is zero.
    let resumeAt := buf.length - (← Word.sub? mark.size 1)
    if max < resumeAt then some (.malformed (.oversized resumeAt max))
    else some (.needMore resumeAt)

/-- The sum of header and declared length is checked: here a word too large is an answer and no fault. -/
def machineDeclared (headerSize? : Option Nat) (size max : Nat) (buf : Bytes) : Option Verdict :=
  if max < size then some (.malformed (.oversized size max))
  else do
    let payloadStart ← headerSize?
    match Word.add? payloadStart size with
    | none => some (.malformed .lengthOverflow)
    | some stop =>
      if buf.length < stop then some (.needMore 0) else some (.found ⟨stop, payloadStart, stop⟩)

def machineAscii (offset : Nat) (mark : Delimiter) (max : Nat) (buf : Bytes) : Option Verdict :=
  if buf.length < offset then some (.needMore 0)
  else do
    let field ← buf.slice? offset buf.length
    let digits := (field.takeWhile Bytes.isDigit).length
    if maxLengthDigits < digits then some (.malformed .invalidLength)
    else
      let rest ← field.slice? digits field.length
      if rest.length < mark.size then
        if rest.isPrefixOf mark.bytes then some (.needMore 0) else some (.malformed .invalidLength)
      else if digits = 0 ∨ ¬ mark.bytes.isPrefixOf rest then some (.malformed .invalidLength)
      else
        match Bytes.word? (← field.slice? 0 digits) with
        | none => some (.malformed .lengthOverflow)
        | some size =>
          machineDeclared (do Word.add? (← Word.add? offset digits) mark.size) size max buf

def machineBinary (offset : Nat) (lengths : LengthPrefix) (max : Nat) (buf : Bytes) : Option Verdict :=
  if buf.length < offset then some (.needMore 0)
  else do
    match ← lengths.machineRead? (← buf.slice? offset buf.length) with
    | none => some (.needMore 0)
    | some size => machineDeclared (Word.add? offset lengths.width.bytes) size max buf

/-- `extract` as a machine does it. -/
def Partitioner.machineExtract (p : Partitioner) (buf : Bytes) (scanFrom : Nat) : Option Verdict :=
  match p with
  | .delimiter mark max => mark.machineExtract max buf scanFrom
  | .ascii offset mark max => machineAscii offset mark max buf
  | .binary offset lengths max => machineBinary offset lengths max buf
  | .fixed size _ => some (if buf.length < size then .needMore 0 else .found ⟨size, 0, size⟩)

variable {mark : Delimiter} {lengths : LengthPrefix} {headerSize size max offset scanFrom : Nat}
variable {buf : Bytes}

theorem Delimiter.machineExtract_eq (small : buf.length < wordLimit) :
    mark.machineExtract max buf scanFrom = some (mark.extract max buf scanFrom) := by
  have positive := mark.size_pos
  have start : (buf.take scanFrom).length = min scanFrom buf.length := List.length_take
  have cut := Bytes.slice?_from buf (Nat.min_le_right scanFrom buf.length)
  unfold machineExtract extract
  simp only [cut, start, Option.bind_eq_bind, Option.bind_some, Word.sub?_of_le positive]
  cases found : Bytes.find? mark.bytes (buf.drop (min scanFrom buf.length)) with
  | none => simp only; split <;> rfl
  | some pos =>
    have inside := Bytes.find?_add_length_le found
    rw [List.length_drop] at inside
    have size : mark.size = mark.bytes.length := rfl
    have sum := Word.add?_of_lt (a := min scanFrom buf.length) (b := pos) (by omega)
    have stop := Word.add?_of_lt (a := min scanFrom buf.length + pos) (b := mark.size) (by omega)
    simp only [sum, stop, Option.bind_some]
    split <;> rfl

theorem machineDeclared_eq :
    machineDeclared (some headerSize) size max buf = some (declaredExtract headerSize size max buf) := by
  unfold machineDeclared declaredExtract
  simp only [Option.bind_eq_bind, Option.bind_some, Bytes.isShorterThan_iff]
  split
  · rfl
  · by_cases fits : headerSize + size < wordLimit
    · rw [Word.add?_of_lt fits, if_neg (Nat.not_le.mpr fits)]
      simp only
      split <;> rfl
    · rw [Word.add?_of_le (Nat.le_of_not_lt fits), if_pos (Nat.le_of_not_lt fits)]

theorem machineAscii_eq (small : buf.length < wordLimit) :
    machineAscii offset mark max buf = some (asciiExtract offset mark max buf) := by
  unfold machineAscii asciiExtract
  simp only [Bytes.isShorterThan_iff]
  by_cases short : buf.length < offset
  · rw [if_pos short, if_pos short]
  rw [if_neg short, if_neg short]
  have cut := Bytes.slice?_from buf (Nat.le_of_not_lt short)
  have inside : offset + (buf.drop offset).length = buf.length := by
    rw [List.length_drop]
    omega
  have whole := List.takeWhile_append_dropWhile (p := Bytes.isDigit) (l := buf.drop offset)
  simp only [cut, Option.bind_eq_bind, Option.bind_some]
  -- Of the field it only matters that it is the digits and what stands behind them.
  generalize (buf.drop offset).takeWhile Bytes.isDigit = digits at whole ⊢
  generalize (buf.drop offset).dropWhile Bytes.isDigit = rest at whole ⊢
  rw [← whole] at inside ⊢
  have length : (digits ++ rest).length = digits.length + rest.length := List.length_append
  have front : Bytes.slice? (digits ++ rest) 0 digits.length = some digits := by
    rw [Bytes.slice?_to _ (by omega), List.take_left]
  have behind : Bytes.slice? (digits ++ rest) digits.length (digits ++ rest).length = some rest := by
    rw [Bytes.slice?_from _ (by omega), List.drop_left]
  have header (h : ¬ rest.length < mark.size) :
      ((Word.add? offset digits.length).bind fun front => Word.add? front mark.size) =
        some (offset + digits.length + mark.size) := by
    rw [Word.add?_of_lt (by omega), Option.bind_some, Word.add?_of_lt (by omega)]
  have refused : (digits.isEmpty || !mark.bytes.isPrefixOf rest) = true ↔
      digits.length = 0 ∨ ¬ mark.bytes.isPrefixOf rest = true := by
    rw [Bool.or_eq_true, List.isEmpty_iff, List.length_eq_zero_iff, Bool.not_eq_true',
      Bool.not_eq_true]
  simp only [behind, Option.bind_some, refused]
  split
  · rfl
  split
  · split <;> rfl
  rename_i enough
  split
  · rfl
  simp only [front, Option.bind_some, Bytes.word?_eq, header enough]
  by_cases word : Bytes.decimal digits < wordLimit
  · rw [if_pos word, if_neg (Nat.not_le.mpr word)]
    exact machineDeclared_eq
  · rw [if_neg word, if_pos (Nat.le_of_not_lt word)]

theorem machineBinary_eq (small : buf.length < wordLimit) :
    machineBinary offset lengths max buf = some (binaryExtract offset lengths max buf) := by
  unfold machineBinary binaryExtract
  simp only [Bytes.isShorterThan_iff]
  by_cases short : buf.length < offset
  · rw [if_pos short, if_pos short]
  rw [if_neg short, if_neg short]
  have cut := Bytes.slice?_from buf (Nat.le_of_not_lt short)
  simp only [cut, machineRead?_eq, Option.bind_eq_bind, Option.bind_some]
  cases declared : lengths.read? (buf.drop offset) with
  | none => rfl
  | some size =>
    have whole : ¬ (buf.drop offset).length < lengths.width.bytes := fun h => by
      rw [LengthPrefix.read?_eq_none_iff.mpr h] at declared
      contradiction
    rw [List.length_drop] at whole
    simp only
    rw [Word.add?_of_lt (by omega), machineDeclared_eq]

theorem Partitioner.machineExtract_eq (p : Partitioner) (small : buf.length < wordLimit)
    (scanFrom : Nat) : p.machineExtract buf scanFrom = some (p.extract buf scanFrom) := by
  cases p with
  | delimiter mark max => exact Delimiter.machineExtract_eq small
  | ascii offset mark max => exact machineAscii_eq small
  | binary offset lengths max => exact machineBinary_eq small
  | fixed size positive =>
    simp only [machineExtract, extract, fixedExtract, Bytes.isShorterThan_iff]

/-- What a verdict on a buffer of `length` bytes names lies in the buffer. -/
def Verdict.Within (length : Nat) : Verdict → Prop
  | .found b =>
    0 < b.stop ∧ b.stop ≤ length ∧ b.payloadStart ≤ b.payloadStop ∧ b.payloadStop ≤ b.stop
  | .needMore resumeAt => resumeAt ≤ length
  | .malformed _ => True

theorem Partitioner.extract_needMore_le {p : Partitioner} {r : Nat}
    (h : p.extract buf scanFrom = .needMore r) : r ≤ buf.length := by
  cases p with
  | delimiter mark max =>
    have := (Delimiter.extract_needMore h).1
    omega
  | ascii offset mark max => exact (asciiExtract_needMore h).1 ▸ Nat.zero_le _
  | binary offset lengths max => exact (binaryExtract_needMore h).1 ▸ Nat.zero_le _
  | fixed size positive => exact (fixedExtract_needMore h).1 ▸ Nat.zero_le _

theorem Partitioner.extract_within (p : Partitioner) (buf : Bytes) (scanFrom : Nat) :
    (p.extract buf scanFrom).Within buf.length := by
  cases verdict : p.extract buf scanFrom with
  | found b => exact extract_found verdict
  | needMore r => exact extract_needMore_le verdict
  | malformed e => trivial

/-- The payload, cut out of the frame by a machine. -/
def Frame.machinePayload (f : Frame) : Option Bytes := f.data.slice? f.payloadStart f.payloadStop

namespace Decoder

/-- `decode` as a machine does it. The frame is split off the buffer, which has to be as long. -/
def machineDecode (d : Decoder) : Option (Decoded × Decoder) := do
  match ← d.partitioner.machineExtract d.buffer d.scanFrom with
  | .found b =>
    let data ← d.buffer.slice? 0 b.stop
    let rest ← d.buffer.slice? b.stop d.buffer.length
    some
      (.frame ⟨data, b.payloadStart, b.payloadStop⟩, { d with buffer := rest, scanFrom := 0 })
  | .needMore resumeAt => some (.incomplete, { d with scanFrom := resumeAt })
  | .malformed e => some (.malformed e, d)

variable {d d' : Decoder} {f : Frame}

theorem machineDecode_eq (small : d.buffer.length < wordLimit) : d.machineDecode = some d.decode := by
  have within := d.partitioner.extract_within d.buffer d.scanFrom
  unfold machineDecode decode
  rw [d.partitioner.machineExtract_eq small]
  cases verdict : d.partitioner.extract d.buffer d.scanFrom with
  | needMore r => rfl
  | malformed e => rfl
  | found b =>
    rw [verdict] at within
    have inside : b.stop ≤ d.buffer.length := within.2.1
    simp only [Option.bind_eq_bind, Option.bind_some, Bytes.slice?_to _ inside,
      Bytes.slice?_from _ inside]

theorem machinePayload_of_decode (h : d.decode = (.frame f, d')) :
    f.machinePayload = some f.payload := by
  have within := d.partitioner.extract_within d.buffer d.scanFrom
  unfold decode at h
  split at h
  · rename_i b verdict
    rw [verdict] at within
    obtain ⟨-, inside, ordered, ends⟩ := within
    simp only [Prod.mk.injEq, Decoded.frame.injEq] at h
    obtain ⟨rfl, -⟩ := h
    apply Bytes.slice?_of_le ordered
    rw [List.length_take]
    omega
  · simp at h
  · simp at h

/-- Draining takes a frame and goes on with what is left, or comes to its end. -/
theorem drain_induction {P : Decoder → Prop}
    (frame : ∀ d f d', d.decode = (.frame f, d') → P d' → P d)
    (last : ∀ d result d', d.decode = (result, d') → (∀ f, result ≠ .frame f) → P d)
    (d : Decoder) : P d := by
  induction length : d.buffer.length using Nat.strongRecOn generalizing d with
  | ind n ih =>
    cases h : d.decode with
    | mk result d' =>
      by_cases taken : ∃ f, result = .frame f
      · obtain ⟨f, rfl⟩ := taken
        exact frame d f d' h (ih _ (length ▸ decode_length_lt h) d' rfl)
      · exact last d result d' h fun f same => taken ⟨f, same⟩

/-- Each frame takes a byte. -/
theorem length_drain_le (d : Decoder) : d.drain.1.length ≤ d.buffer.length := by
  induction d using drain_induction with
  | frame d f d' h ih =>
    have := decode_length_lt h
    rw [drain_frame h, List.length_cons]
    omega
  | last d result d' h ends =>
    rw [drain_last h ends]
    exact Nat.zero_le _

theorem machinePayload_of_drain (d : Decoder) : ∀ f ∈ d.drain.1, f.machinePayload = some f.payload := by
  induction d using drain_induction with
  | frame d f d' h ih =>
    rw [drain_frame h]
    exact List.forall_mem_cons.mpr ⟨machinePayload_of_decode h, ih⟩
  | last d result d' h ends =>
    rw [drain_last h ends]
    exact List.forall_mem_nil _

theorem drain_ends (d : Decoder) :
    d.drain.2.1 = .incomplete ∨ ∃ e, d.drain.2.1 = .malformed e := by
  induction d using drain_induction with
  | frame d f d' h ih =>
    rw [drain_frame h]
    exact ih
  | last d result d' h ends =>
    rw [drain_last h ends]
    cases result with
    | frame f => exact absurd rfl (ends f)
    | incomplete => exact .inl rfl
    | malformed e => exact .inr ⟨e, rfl⟩
    | trailing bytes => exact absurd h decode_ne_trailing

/-- To drain is to call until a call brings no frame. -/
theorem events_decode (d : Decoder) :
    d.events (List.replicate (d.drain.1.length + 1) .decode) =
      d.drain.1.map (fun f => .answered (.frame f)) ++ [.answered d.drain.2.1] := by
  induction d using drain_induction with
  | frame d f d' h ih =>
    rw [drain_frame h, List.length_cons, List.replicate_succ, events, call, h, List.map_cons,
      List.cons_append, ih]
  | last d result d' h ends =>
    rw [drain_last h ends]
    simp [events, call, h]

theorem length_after_decode_le (d : Decoder) (count : Nat) :
    (d.after (List.replicate count .decode)).buffer.length ≤ d.buffer.length := by
  induction count generalizing d with
  | zero => exact Nat.le_refl _
  | succ count ih => exact Nat.le_trans (ih d.decode.2) d.decode_length_le

/-- Whatever the decoder looks for, has in its buffer and believes to have searched. -/
structure Faultless (d : Decoder) : Prop where
  verdict : d.partitioner.machineExtract d.buffer d.scanFrom =
    some (d.partitioner.extract d.buffer d.scanFrom)
  within : (d.partitioner.extract d.buffer d.scanFrom).Within d.buffer.length
  /-- Nor is there a fault later, in however many calls. -/
  calls : ∀ count, let now := d.after (List.replicate count .decode)
    now.machineDecode = some now.decode
  payloads : ∀ f ∈ d.drain.1, f.machinePayload = some f.payload
  /-- Repeated calls come to the end of the frames, of which there are no more than bytes. -/
  ends : d.drain.1.length ≤ d.buffer.length ∧
    (d.drain.2.1 = .incomplete ∨ ∃ e, d.drain.2.1 = .malformed e) ∧
    d.events (List.replicate (d.drain.1.length + 1) .decode) =
      d.drain.1.map (fun f => .answered (.frame f)) ++ [.answered d.drain.2.1]

/-- Offsets, ceilings and places of the search may be any, also such as no word holds. Only the buffer has
to be in memory. -/
theorem decode_faultless (d : Decoder) (small : d.buffer.length < wordLimit) : d.Faultless where
  verdict := d.partitioner.machineExtract_eq small d.scanFrom
  within := d.partitioner.extract_within d.buffer d.scanFrom
  calls count := machineDecode_eq (Nat.lt_of_le_of_lt (d.length_after_decode_le count) small)
  payloads := d.machinePayload_of_drain
  ends := ⟨d.length_drain_le, d.drain_ends, d.events_decode⟩

/-- The second length that is declared fits a word and is allowed, but nothing can be added to it. -/
theorem decode_faultless_longest :
    let d : Decoder :=
      { partitioner := .binary 1 ⟨.u64, .big⟩ (wordLimit - 1), scanFrom := wordLimit
        buffer := [9, 0, 0, 0, 0, 0, 0, 0, 2, 65, 66, 9, 255, 255, 255, 255, 255, 255, 255, 255] }
    d.buffer.length < wordLimit ∧
      d.events [.decode, .decode] =
        [.answered (.frame ⟨[9, 0, 0, 0, 0, 0, 0, 0, 2, 65, 66], 9, 11⟩),
          .answered (.malformed .lengthOverflow)] ∧
      d.Faultless :=
  ⟨by decide, by decide, decode_faultless _ (by decide)⟩

end Decoder

end FrameIntake
