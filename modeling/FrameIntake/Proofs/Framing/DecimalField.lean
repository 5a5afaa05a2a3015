import FrameIntake.Framing.Extract
import Mathlib.Data.List.Induction
import Mathlib.Data.List.TakeWhile
import Mathlib.Data.Nat.Digits.Defs

/-!
The grammar of a frame with a decimal length: bytes in front, digits, the mark, and as many bytes as the digits
denote. The grammar gives every buffer one verdict, and that is the partitioner's
(`extract_ascii_iff_grammar`).
-/

namespace FrameIntake

/-- The number that decimal digits denote. -/
def Bytes.denoted (digits : Bytes) : Nat :=
  Nat.ofDigits 10 (digits.reverse.map fun b => b.toNat - 48)

/-- `rest` is a beginning of the mark, but not all of it. -/
def Delimiter.Begins (mark : Delimiter) (rest : Bytes) : Prop :=
  rest <+: mark.bytes ∧ rest ≠ mark.bytes

/-- Behind the offset stand `digits`, as many as there are, and behind them `rest`. -/
structure DecimalField (offset : Nat) (buf digits rest : Bytes) : Prop where
  reached : offset ≤ buf.length
  joined : buf.drop offset = digits ++ rest
  digits : ∀ b ∈ digits, Bytes.isDigit b = true
  longest : ∀ b ∈ rest.head?, Bytes.isDigit b = false

/-- The verdict on a buffer with a header that declares a size. -/
inductive SizeGrammar (headerSize size max : Nat) (buf : Bytes) : Verdict → Prop
  | noWord (large : 2 ^ 64 ≤ size) : SizeGrammar headerSize size max buf (.malformed .lengthOverflow)
  | above (word : size < 2 ^ 64) (above : max < size) :
      SizeGrammar headerSize size max buf (.malformed (.oversized size max))
  | endless (word : size < 2 ^ 64) (within : size ≤ max) (large : 2 ^ 64 ≤ headerSize + size) :
      SizeGrammar headerSize size max buf (.malformed .lengthOverflow)
  | partly (within : size ≤ max) (word : headerSize + size < 2 ^ 64)
      (short : buf.length < headerSize + size) : SizeGrammar headerSize size max buf (.needMore 0)
  | whole (within : size ≤ max) (word : headerSize + size < 2 ^ 64)
      (held : headerSize + size ≤ buf.length) :
      SizeGrammar headerSize size max buf (.found ⟨headerSize + size, headerSize, headerSize + size⟩)

/-- The verdict on a buffer that begins with a decimal length behind `offset` bytes. Digits without a number,
and more of them than 20, are refused once it is certain. -/
inductive DecimalGrammar (offset : Nat) (mark : Delimiter) (max : Nat) (buf : Bytes) : Verdict → Prop
  | short (short : buf.length < offset) : DecimalGrammar offset mark max buf (.needMore 0)
  | begun {digits rest} (field : DecimalField offset buf digits rest) (few : digits.length ≤ 20)
      (begins : mark.Begins rest) : DecimalGrammar offset mark max buf (.needMore 0)
  | headed {digits rest verdict} (field : DecimalField offset buf digits rest)
      (present : 1 ≤ digits.length) (few : digits.length ≤ 20) (marked : mark.bytes <+: rest)
      (sized : SizeGrammar (offset + digits.length + mark.size) digits.denoted max buf verdict) :
      DecimalGrammar offset mark max buf verdict
  | many {digits rest} (field : DecimalField offset buf digits rest) (many : 20 < digits.length) :
      DecimalGrammar offset mark max buf (.malformed .invalidLength)
  | empty {rest} (field : DecimalField offset buf [] rest) (marked : mark.bytes <+: rest) :
      DecimalGrammar offset mark max buf (.malformed .invalidLength)
  | unmarked {digits rest} (field : DecimalField offset buf digits rest)
      (other : ¬ mark.Begins rest) (unmarked : ¬ mark.bytes <+: rest) :
      DecimalGrammar offset mark max buf (.malformed .invalidLength)

theorem Bytes.decimal_eq_denoted (digits : Bytes) : decimal digits = denoted digits := by
  induction digits using List.reverseRecOn with
  | nil => rfl
  | append_singleton digits b ih =>
    rw [decimal] at ih
    rw [decimal, List.foldl_append, ih]
    simp [denoted, Nat.ofDigits_cons, Nat.add_comm]

/-- Digits end where something stands that is none. -/
theorem digits_behind {digits rest : Bytes} (hdigits : ∀ b ∈ digits, Bytes.isDigit b = true)
    (hrest : ∀ b ∈ rest.head?, Bytes.isDigit b = false) :
    (digits ++ rest).takeWhile Bytes.isDigit = digits ∧
      (digits ++ rest).dropWhile Bytes.isDigit = rest := by
  rw [List.takeWhile_append_of_pos hdigits, List.dropWhile_append_of_pos hdigits]
  cases rest with
  | nil => simp
  | cons b rest =>
    have hb : Bytes.isDigit b = false := hrest b rfl
    simp [hb]

section Mark

variable {mark : Delimiter} {rest : Bytes}

theorem Delimiter.begins_iff : mark.Begins rest ↔ rest <+: mark.bytes ∧ rest.length < mark.size := by
  constructor
  · rintro ⟨hp, hne⟩
    refine ⟨hp, Nat.lt_of_le_of_ne hp.length_le fun hl => hne (hp.eq_of_length hl)⟩
  · rintro ⟨hp, hl⟩
    refine ⟨hp, ?_⟩
    rintro rfl
    exact Nat.lt_irrefl _ hl

theorem Delimiter.head_of_prefix {b : UInt8} (h : mark.bytes <+: rest) (hb : b ∈ mark.bytes.head?) :
    b ∈ rest.head? := by
  obtain ⟨more, rfl⟩ := h
  rw [List.head?_append, Option.mem_def.mp hb]
  rfl

end Mark

section Grammar

variable {offset headerSize size max : Nat} {mark : Delimiter} {buf digits rest : Bytes}
  {verdict : Verdict}

theorem exists_decimalField (h : offset ≤ buf.length) :
    ∃ digits rest, DecimalField offset buf digits rest := by
  refine ⟨(buf.drop offset).takeWhile Bytes.isDigit, (buf.drop offset).dropWhile Bytes.isDigit, h,
    List.takeWhile_append_dropWhile.symm, fun b hb => List.mem_takeWhile_imp hb, ?_⟩
  intro b hb
  have := List.head?_dropWhile_not Bytes.isDigit (buf.drop offset)
  rw [Option.mem_def.mp hb] at this
  simpa using this

theorem DecimalField.length_eq (h : DecimalField offset buf digits rest) :
    buf.length = offset + digits.length + rest.length := by
  have hreached := h.reached
  have hlength := congrArg List.length h.joined
  rw [List.length_drop, List.length_append] at hlength
  omega

/-- What the partitioner asks once it has told the digits from the rest. -/
theorem DecimalField.extract_eq (h : DecimalField offset buf digits rest) :
    asciiExtract offset mark max buf =
      if 20 < digits.length then .malformed .invalidLength
      else if rest.length < mark.size then
        if rest.isPrefixOf mark.bytes then .needMore 0 else .malformed .invalidLength
      else if digits.isEmpty || !mark.bytes.isPrefixOf rest then .malformed .invalidLength
      else if 2 ^ 64 ≤ digits.denoted then .malformed .lengthOverflow
      else declaredExtract (offset + digits.length + mark.size) digits.denoted max buf := by
  obtain ⟨htake, hdrop⟩ := digits_behind h.digits h.longest
  have hoffset : ¬ buf.isShorterThan offset := by simpa using h.reached
  rw [asciiExtract, if_neg hoffset]
  dsimp only
  rw [h.joined, htake, hdrop, Bytes.decimal_eq_denoted]
  simp only [maxLengthDigits, wordLimit, Bytes.isShorterThan_iff]
  rfl

theorem exists_sizeGrammar (headerSize size max : Nat) (buf : Bytes) :
    ∃ verdict, SizeGrammar headerSize size max buf verdict := by
  by_cases hword : size < 2 ^ 64
  · by_cases hmax : size ≤ max
    · by_cases hstop : headerSize + size < 2 ^ 64
      · by_cases hheld : headerSize + size ≤ buf.length
        · exact ⟨_, .whole hmax hstop hheld⟩
        · exact ⟨_, .partly hmax hstop (Nat.lt_of_not_le hheld)⟩
      · exact ⟨_, .endless hword hmax (Nat.le_of_not_lt hstop)⟩
    · exact ⟨_, .above hword (Nat.lt_of_not_le hmax)⟩
  · exact ⟨_, .noWord (Nat.le_of_not_lt hword)⟩

theorem SizeGrammar.extract_eq (h : SizeGrammar headerSize size max buf verdict) :
    (if 2 ^ 64 ≤ size then .malformed .lengthOverflow else declaredExtract headerSize size max buf) =
      verdict := by
  have hlimit : wordLimit = 2 ^ 64 := rfl
  unfold declaredExtract
  rw [hlimit]
  simp only [Bytes.isShorterThan_iff]
  cases h with
  | noWord large => rw [if_pos large]
  | above word above => rw [if_neg (by omega), if_pos above]
  | endless word within large => rw [if_neg (by omega), if_neg (by omega), if_pos large]
  | partly within word short =>
    rw [if_neg (by omega), if_neg (by omega), if_neg (by omega), if_pos short]
  | whole within word held =>
    rw [if_neg (by omega), if_neg (by omega), if_neg (by omega), if_neg (by omega)]

theorem DecimalGrammar.extract_eq (h : DecimalGrammar offset mark max buf verdict) :
    asciiExtract offset mark max buf = verdict := by
  cases h with
  | short short =>
    rw [asciiExtract, if_pos (by simpa using short)]
  | begun field few begins =>
    obtain ⟨hp, hl⟩ := Delimiter.begins_iff.mp begins
    rw [field.extract_eq, if_neg (by omega), if_pos hl, if_pos (List.isPrefixOf_iff_prefix.mpr hp)]
  | @headed digits rest _ field present few marked sized =>
    have hl : ¬ rest.length < mark.size := Nat.not_lt.mpr marked.length_le
    have hstands : ¬ (digits.isEmpty || !mark.bytes.isPrefixOf rest) = true := by
      have hne : digits ≠ [] := List.length_pos_iff.mp present
      simp [hne, List.isPrefixOf_iff_prefix.mpr marked]
    rw [field.extract_eq, if_neg (by omega), if_neg hl, if_neg hstands]
    exact sized.extract_eq
  | many field many => rw [field.extract_eq, if_pos many]
  | @empty rest field marked =>
    have hl : ¬ rest.length < mark.size := Nat.not_lt.mpr marked.length_le
    rw [field.extract_eq, if_neg (by simp), if_neg hl, if_pos (by simp)]
  | @unmarked digits rest field other unmarked =>
    have hunmarked : (digits.isEmpty || !mark.bytes.isPrefixOf rest) = true := by
      have : ¬ mark.bytes.isPrefixOf rest := by rwa [List.isPrefixOf_iff_prefix]
      simp [this]
    rw [field.extract_eq, if_pos hunmarked]
    split
    · rfl
    · -- What is too short to be the mark is no beginning of it, and what is long enough is not it.
      split
      · rename_i hl
        rw [if_neg]
        intro hp
        exact other (Delimiter.begins_iff.mpr ⟨List.isPrefixOf_iff_prefix.mp hp, hl⟩)
      · rfl

/-- No buffer is left without a verdict. -/
theorem exists_decimalGrammar (offset : Nat) (mark : Delimiter) (max : Nat) (buf : Bytes) :
    ∃ verdict, DecimalGrammar offset mark max buf verdict := by
  by_cases hreached : offset ≤ buf.length
  · obtain ⟨digits, rest, field⟩ := exists_decimalField hreached
    by_cases hfew : digits.length ≤ 20
    · by_cases hbegins : mark.Begins rest
      · exact ⟨_, .begun field hfew hbegins⟩
      · by_cases hmarked : mark.bytes <+: rest
        · cases digits with
          | nil => exact ⟨_, .empty field hmarked⟩
          | cons b digits =>
            obtain ⟨verdict, hsized⟩ := exists_sizeGrammar
              (offset + (b :: digits).length + mark.size) (Bytes.denoted (b :: digits)) max buf
            exact ⟨verdict, .headed field (by simp) hfew hmarked hsized⟩
        · exact ⟨_, .unmarked field hbegins hmarked⟩
    · exact ⟨_, .many field (Nat.lt_of_not_le hfew)⟩
  · exact ⟨_, .short (Nat.lt_of_not_le hreached)⟩

theorem decimalGrammar_iff :
    asciiExtract offset mark max buf = verdict ↔ DecimalGrammar offset mark max buf verdict := by
  constructor
  · rintro rfl
    obtain ⟨verdict, h⟩ := exists_decimalGrammar offset mark max buf
    rwa [h.extract_eq]
  · exact DecimalGrammar.extract_eq

/-- Nothing is found but a whole frame, and its mark does not begin with a digit. -/
theorem DecimalGrammar.mark_of_found {bounds : Bounds}
    (h : DecimalGrammar offset mark max buf (.found bounds)) :
    ∀ b ∈ mark.bytes.head?, Bytes.isDigit b = false := by
  cases h with
  | headed field present few marked sized =>
    intro b hb
    exact field.longest b (Delimiter.head_of_prefix marked hb)

end Grammar

namespace Partitioner

/-- The verdict on every buffer is the grammar's, whatever was searched before. A mark that begins with a digit
ends no length. -/
theorem extract_ascii_iff_grammar (offset : Nat) (mark : Delimiter) (max : Nat) :
    (∀ buf scanFrom verdict, (ascii offset mark max).extract buf scanFrom = verdict ↔
        DecimalGrammar offset mark max buf verdict) ∧
      ((∃ b ∈ mark.bytes.head?, Bytes.isDigit b = true) →
        ∀ buf scanFrom bounds, (ascii offset mark max).extract buf scanFrom ≠ .found bounds) := by
  constructor
  · intro buf scanFrom verdict
    exact decimalGrammar_iff
  · rintro ⟨b, hb, hdigit⟩ buf scanFrom bounds hfound
    have := (decimalGrammar_iff.mp hfound).mark_of_found b hb
    rw [hdigit] at this
    contradiction

/-- A mark that begins with a digit: the run of digits takes that one too, and what is left is not the mark. -/
theorem extract_ascii_iff_grammar_digit_mark :
    let mark : Delimiter := ⟨[49, 10], by decide⟩
    let buf : Bytes := [65, 50, 49, 10, 1, 2]
    (∃ b ∈ mark.bytes.head?, Bytes.isDigit b = true) ∧
      DecimalGrammar 1 mark 9 buf (.malformed .invalidLength) ∧
      ∀ buf scanFrom bounds, (ascii 1 mark 9).extract buf scanFrom ≠ .found bounds := by
  intro mark buf
  have hdigit : ∃ b ∈ mark.bytes.head?, Bytes.isDigit b = true := ⟨49, rfl, by decide⟩
  obtain ⟨hverdict, hnone⟩ := extract_ascii_iff_grammar 1 mark 9
  exact ⟨hdigit, (hverdict buf 0 _).mp (by decide), hnone hdigit⟩

end Partitioner

end FrameIntake
