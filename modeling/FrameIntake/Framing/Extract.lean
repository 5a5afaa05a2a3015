import FrameIntake.Framing.Partitioner
import FrameIntake.Framing.Verdict

/-!
The verdict on the front of a buffer. A frame that is found ends inside the buffer and takes at least
one byte of it (`stop_pos`, `stop_le_length`), so cutting frames off a buffer comes to an end.
-/

namespace FrameIntake

/-- A longer run of digits cannot denote a machine word without leading zeros. -/
def maxLengthDigits : Nat := 20

/-- Looks for the delimiter from `scanFrom` on. The last `mark.size - 1` bytes may hold the start of a
delimiter, so an unsuccessful search is resumed in front of them. -/
def Delimiter.extract (mark : Delimiter) (max : Nat) (buf : Bytes) (scanFrom : Nat) : Verdict :=
  let start := (buf.take scanFrom).length
  match Bytes.find? mark.bytes (buf.drop start) with
  | some pos =>
    let payloadStop := start + pos
    if max < payloadStop then .malformed (.oversized payloadStop max)
    else .found ⟨payloadStop + mark.size, 0, payloadStop⟩
  | none =>
    let resumeAt := buf.length - (mark.size - 1)
    if max < resumeAt then .malformed (.oversized resumeAt max)
    else .needMore resumeAt

/-- The verdict once a header of `headerSize` bytes has declared `size` bytes of payload. -/
def declaredExtract (headerSize size max : Nat) (buf : Bytes) : Verdict :=
  if max < size then .malformed (.oversized size max)
  else if wordLimit ≤ headerSize + size then .malformed .lengthOverflow
  else if buf.isShorterThan (headerSize + size) then .needMore 0
  else .found ⟨headerSize + size, headerSize, headerSize + size⟩

/-- Reads a decimal length behind `offset` bytes. While the delimiter is incomplete, anything but its
beginning is already malformed. -/
def asciiExtract (offset : Nat) (mark : Delimiter) (max : Nat) (buf : Bytes) : Verdict :=
  if buf.isShorterThan offset then .needMore 0
  else
    let field := buf.drop offset
    let digits := field.takeWhile Bytes.isDigit
    let rest := field.dropWhile Bytes.isDigit
    if maxLengthDigits < digits.length then .malformed .invalidLength
    else if Bytes.isShorterThan rest mark.size then
      if rest.isPrefixOf mark.bytes then .needMore 0 else .malformed .invalidLength
    else if digits.isEmpty || !mark.bytes.isPrefixOf rest then .malformed .invalidLength
    else if wordLimit ≤ Bytes.decimal digits then .malformed .lengthOverflow
    else declaredExtract (offset + digits.length + mark.size) (Bytes.decimal digits) max buf

def binaryExtract (offset : Nat) (lengths : LengthPrefix) (max : Nat) (buf : Bytes) : Verdict :=
  if buf.isShorterThan offset then .needMore 0
  else
    match lengths.read? (buf.drop offset) with
    | none => .needMore 0
    | some size => declaredExtract (offset + lengths.width.bytes) size max buf

def fixedExtract (size : Nat) (buf : Bytes) : Verdict :=
  if buf.isShorterThan size then .needMore 0 else .found ⟨size, 0, size⟩

/-- Judges the front of `buf`. `scanFrom` is what the last verdict on a beginning of `buf` resumes at,
or `0` for a fresh buffer. -/
def Partitioner.extract (p : Partitioner) (buf : Bytes) (scanFrom : Nat) : Verdict :=
  match p with
  | .delimiter mark max => mark.extract max buf scanFrom
  | .ascii offset mark max => asciiExtract offset mark max buf
  | .binary offset lengths max => binaryExtract offset lengths max buf
  | .fixed size _ => fixedExtract size buf

theorem declaredExtract_found {headerSize size max : Nat} {buf : Bytes} {b : Bounds}
    (h : declaredExtract headerSize size max buf = .found b) :
    b = ⟨headerSize + size, headerSize, headerSize + size⟩ ∧ b.stop ≤ buf.length ∧ size ≤ max := by
  unfold declaredExtract at h
  repeat' split at h
  all_goals first | contradiction | skip
  obtain rfl := Verdict.found.inj h
  rename_i hm _ hl
  rw [Bytes.isShorterThan_iff, Nat.not_lt] at hl
  exact ⟨rfl, hl, Nat.le_of_not_lt hm⟩

namespace Partitioner

/-- A frame takes at least one byte, ends in the buffer and holds its payload. -/
theorem extract_found {p : Partitioner} {buf : Bytes} {scanFrom : Nat} {b : Bounds}
    (h : p.extract buf scanFrom = .found b) :
    0 < b.stop ∧ b.stop ≤ buf.length ∧ b.payloadStart ≤ b.payloadStop ∧ b.payloadStop ≤ b.stop := by
  cases p with
  | delimiter mark max =>
    simp only [extract, Delimiter.extract] at h
    have hm := mark.size_pos
    split at h
    · rename_i pos hf
      have hl := Bytes.find?_add_length_le hf
      split at h
      · contradiction
      · obtain rfl := Verdict.found.inj h
        simp [Delimiter.size] at *
        omega
    · split at h <;> contradiction
  | ascii offset mark max =>
    simp only [extract, asciiExtract] at h
    have hm := mark.size_pos
    repeat' split at h
    all_goals first | contradiction | skip
    obtain ⟨rfl, hl, _⟩ := declaredExtract_found h
    exact ⟨by simp; omega, hl, by simp, by simp⟩
  | binary offset lengths max =>
    simp only [extract, binaryExtract] at h
    have hw := lengths.width.bytes_pos
    repeat' split at h
    all_goals first | contradiction | skip
    obtain ⟨rfl, hl, _⟩ := declaredExtract_found h
    exact ⟨by simp; omega, hl, by simp, by simp⟩
  | fixed size positive =>
    simp only [extract, fixedExtract] at h
    split at h
    · contradiction
    · obtain rfl := Verdict.found.inj h
      rename_i hl
      rw [Bytes.isShorterThan_iff, Nat.not_lt] at hl
      exact ⟨positive, hl, Nat.zero_le _, Nat.le_refl _⟩

end Partitioner

end FrameIntake
