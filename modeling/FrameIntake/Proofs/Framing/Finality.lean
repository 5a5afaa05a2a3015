import FrameIntake.Framing.Extract
import FrameIntake.Proofs.Framing.DecimalField
import FrameIntake.Proofs.Framing.Search

/-!
Verdicts are final. A frame that stands at the front of a buffer still stands there when more bytes
follow (`extract_append_found`), and a malformed buffer stays malformed (`extract_append_malformed`).
Only the size that a delimiter's search reports may grow.
-/

namespace FrameIntake

/-- A verdict that asks for no more bytes. -/
def Verdict.IsFinal (v : Verdict) : Prop := ∀ r, v ≠ .needMore r

/-- How the error of a buffer reads when more bytes follow. -/
def Partitioner.Persists (p : Partitioner) (e later : FramingError) : Prop :=
  match p with
  | .delimiter _ max =>
    ∃ size grown, e = .oversized size max ∧ later = .oversized grown max ∧
      max < size ∧ size ≤ grown
  | _ => later = e

theorem Bytes.not_isShorterThan_append {bytes : Bytes} {size : Nat} (h : ¬bytes.isShorterThan size)
    (more : Bytes) : ¬Bytes.isShorterThan (bytes ++ more) size := by
  rw [isShorterThan_iff] at h ⊢
  rw [List.length_append]
  omega

theorem LengthPrefix.read?_append_of_some {p : LengthPrefix} {bs : Bytes} {n : Nat}
    (h : p.read? bs = some n) (more : Bytes) : p.read? (bs ++ more) = some n := by
  unfold read? at h ⊢
  by_cases hs : bs.isShorterThan p.width.bytes
  · rw [if_pos hs] at h
    contradiction
  · have hl : p.width.bytes ≤ bs.length := by simpa using hs
    rw [if_neg hs] at h
    rw [if_neg (Bytes.not_isShorterThan_append hs more), List.take_append_of_le_length hl]
    exact h

section Declared

variable {headerSize size max : Nat} {buf more : Bytes}

theorem declaredExtract_append (h : (declaredExtract headerSize size max buf).IsFinal) :
    declaredExtract headerSize size max (buf ++ more) = declaredExtract headerSize size max buf := by
  unfold declaredExtract at h ⊢
  by_cases hm : max < size
  · simp [hm]
  · by_cases hw : wordLimit ≤ headerSize + size
    · simp [hm, hw]
    · simp only [hm, hw, if_false] at h ⊢
      by_cases hs : buf.isShorterThan (headerSize + size)
      · simp only [hs, if_true] at h
        exact absurd rfl (h 0)
      · simp [hs, Bytes.not_isShorterThan_append hs more]

end Declared

section Grammar

variable {offset headerSize size max : Nat} {mark : Delimiter} {buf digits rest : Bytes}
  {verdict : Verdict}

/-- More bytes may bring more digits, but not where a byte that is none stands behind the digits. -/
theorem DecimalField.grow (h : DecimalField offset buf digits rest) (more : Bytes) :
    ∃ further rest', DecimalField offset (buf ++ more) (digits ++ further) rest' ∧
      (rest ≠ [] → further = [] ∧ rest' = rest ++ more) := by
  have hreached : offset ≤ (buf ++ more).length := by
    have := h.reached
    rw [List.length_append]
    omega
  have hjoined : (buf ++ more).drop offset = digits ++ (rest ++ more) := by
    rw [List.drop_append_of_le_length h.reached, h.joined, List.append_assoc]
  cases rest with
  | nil =>
    obtain ⟨further, rest', field⟩ := exists_decimalField (Nat.zero_le more.length)
    refine ⟨further, rest', ⟨hreached, ?_, ?_, field.longest⟩, fun hne => absurd rfl hne⟩
    · rw [hjoined, List.nil_append, List.append_assoc, ← field.joined, List.drop_zero]
    · intro b hb
      exact (List.mem_append.mp hb).elim (h.digits b) (field.digits b)
  | cons b rest =>
    refine ⟨[], b :: rest ++ more, ⟨hreached, ?_, ?_, h.longest⟩, fun _ => ⟨rfl, rfl⟩⟩
    · rw [hjoined, List.append_nil]
    · rw [List.append_nil]
      exact h.digits

theorem DecimalField.append (h : DecimalField offset buf digits rest) (hne : rest ≠ []) (more : Bytes) :
    DecimalField offset (buf ++ more) digits (rest ++ more) := by
  obtain ⟨further, rest', field, hkept⟩ := h.grow more
  obtain ⟨rfl, rfl⟩ := hkept hne
  rwa [List.append_nil] at field

/-- Bytes that neither begin the mark nor begin with it do neither when more follow. -/
theorem Delimiter.unmarked_append (other : ¬ mark.Begins rest) (unmarked : ¬ mark.bytes <+: rest)
    (more : Bytes) :
    rest ≠ [] ∧ ¬ mark.Begins (rest ++ more) ∧ ¬ mark.bytes <+: rest ++ more := by
  have hno : ¬ rest <+: mark.bytes := by
    intro hp
    refine other ⟨hp, ?_⟩
    rintro rfl
    exact unmarked hp
  refine ⟨?_, ?_, ?_⟩
  · rintro rfl
    exact hno List.nil_prefix
  · intro hbegins
    exact hno ((List.prefix_append rest more).trans hbegins.1)
  · intro hmarked
    rcases List.prefix_or_prefix_of_prefix hmarked (List.prefix_append rest more) with hp | hp
    · exact unmarked hp
    · exact hno hp

theorem SizeGrammar.append (h : SizeGrammar headerSize size max buf verdict) (hfinal : verdict.IsFinal)
    (more : Bytes) : SizeGrammar headerSize size max (buf ++ more) verdict := by
  cases h with
  | noWord large => exact .noWord large
  | above word above => exact .above word above
  | endless word within large => exact .endless word within large
  | partly => exact absurd rfl (hfinal 0)
  | whole within word held =>
    refine .whole within word ?_
    rw [List.length_append]
    omega

/-- The grammar does not take back a verdict that asks for no more bytes. -/
theorem DecimalGrammar.append (h : DecimalGrammar offset mark max buf verdict) (hfinal : verdict.IsFinal)
    (more : Bytes) : DecimalGrammar offset mark max (buf ++ more) verdict := by
  have behind {rest : Bytes} (marked : mark.bytes <+: rest) : rest ≠ [] := by
    rintro rfl
    exact mark.nonempty (List.prefix_nil.mp marked)
  cases h with
  | short | begun => exact absurd rfl (hfinal 0)
  | headed field present few marked sized =>
    exact .headed (field.append (behind marked) more) present few (marked.trans (List.prefix_append _ more))
      (sized.append hfinal more)
  | many field many =>
    obtain ⟨further, rest', field', -⟩ := field.grow more
    refine .many field' ?_
    rw [List.length_append]
    omega
  | empty field marked =>
    exact .empty (field.append (behind marked) more) (marked.trans (List.prefix_append _ more))
  | unmarked field other unmarked =>
    obtain ⟨hne, hother, hunmarked⟩ := Delimiter.unmarked_append other unmarked more
    exact .unmarked (field.append hne more) hother hunmarked

theorem asciiExtract_append (h : (asciiExtract offset mark max buf).IsFinal) (more : Bytes) :
    asciiExtract offset mark max (buf ++ more) = asciiExtract offset mark max buf :=
  ((decimalGrammar_iff.mp rfl).append h more).extract_eq

end Grammar

theorem binaryExtract_append {offset max : Nat} {lengths : LengthPrefix} {buf : Bytes}
    (h : (binaryExtract offset lengths max buf).IsFinal) (more : Bytes) :
    binaryExtract offset lengths max (buf ++ more) = binaryExtract offset lengths max buf := by
  unfold binaryExtract at h ⊢
  by_cases ho : buf.isShorterThan offset
  · rw [if_pos ho] at h
    exact absurd rfl (h 0)
  have hle : offset ≤ buf.length := by simpa using ho
  rw [if_neg ho] at h ⊢
  rw [if_neg (Bytes.not_isShorterThan_append ho more), List.drop_append_of_le_length hle]
  cases hr : lengths.read? (buf.drop offset) with
  | none =>
    rw [hr] at h
    exact absurd rfl (h 0)
  | some size =>
    rw [hr] at h
    rw [lengths.read?_append_of_some hr more]
    exact declaredExtract_append h

theorem fixedExtract_append {size : Nat} {buf : Bytes} (h : (fixedExtract size buf).IsFinal)
    (more : Bytes) : fixedExtract size (buf ++ more) = fixedExtract size buf := by
  unfold fixedExtract at h ⊢
  by_cases hs : buf.isShorterThan size
  · rw [if_pos hs] at h
    exact absurd rfl (h 0)
  · rw [if_neg hs, if_neg (Bytes.not_isShorterThan_append hs more)]

namespace Delimiter

variable {mark : Delimiter} {max : Nat} {buf : Bytes}

/-- A search from the front. -/
theorem extract_zero :
    mark.extract max buf 0 =
      match Bytes.find? mark.bytes buf with
      | some pos =>
        if max < pos then .malformed (.oversized pos max) else .found ⟨pos + mark.size, 0, pos⟩
      | none =>
        if max < buf.length - (mark.size - 1) then
          .malformed (.oversized (buf.length - (mark.size - 1)) max)
        else .needMore (buf.length - (mark.size - 1)) := by
  have hs : (buf.take 0).length = 0 := rfl
  cases hf : Bytes.find? mark.bytes buf with
  | none => simp only [extract, hs, List.drop_zero, hf]
  | some pos => simp only [extract, hs, List.drop_zero, hf, Nat.zero_add]

theorem extract_zero_found_iff {b : Bounds} :
    mark.extract max buf 0 = .found b ↔
      ∃ pos, Bytes.find? mark.bytes buf = some pos ∧ pos ≤ max ∧ b = ⟨pos + mark.size, 0, pos⟩ := by
  rw [extract_zero]
  cases Bytes.find? mark.bytes buf with
  | none => by_cases hm : max < buf.length - (mark.size - 1) <;> simp [hm]
  | some pos =>
    by_cases hm : max < pos
    · simp [hm, Nat.not_le.mpr hm]
    · simp [hm, Nat.le_of_not_lt hm, eq_comm]

theorem extract_zero_needMore_iff {r : Nat} :
    mark.extract max buf 0 = .needMore r ↔
      Bytes.find? mark.bytes buf = none ∧ r ≤ max ∧ r = buf.length - (mark.size - 1) := by
  rw [extract_zero]
  cases Bytes.find? mark.bytes buf with
  | none =>
    by_cases hm : max < buf.length - (mark.size - 1)
    · simp only [hm, if_true, reduceCtorEq, true_and, false_iff]
      omega
    · simp only [hm, if_false, Verdict.needMore.injEq, true_and]
      omega
  | some pos => by_cases hm : max < pos <;> simp [hm]

/-- A buffer is refused for a payload that is too long, or that would be if it came to its end. -/
theorem extract_zero_malformed_iff {e : FramingError} :
    mark.extract max buf 0 = .malformed e ↔
      ∃ size, e = .oversized size max ∧ max < size ∧
        (Bytes.find? mark.bytes buf = some size ∨
          Bytes.find? mark.bytes buf = none ∧ size = buf.length - (mark.size - 1)) := by
  rw [extract_zero]
  cases Bytes.find? mark.bytes buf with
  | none => by_cases hm : max < buf.length - (mark.size - 1) <;> simp [hm, eq_comm]
  | some pos => by_cases hm : max < pos <;> simp [hm, eq_comm]

theorem extract_append_found {b : Bounds} (h : mark.extract max buf 0 = .found b) (more : Bytes) :
    mark.extract max (buf ++ more) 0 = .found b := by
  obtain ⟨pos, hf, hm, hb⟩ := extract_zero_found_iff.mp h
  exact extract_zero_found_iff.mpr ⟨pos, Bytes.find?_append_of_some hf more, hm, hb⟩

/-- What is too long without its delimiter is too long with it. -/
theorem extract_append_malformed {e : FramingError} (h : mark.extract max buf 0 = .malformed e)
    (more : Bytes) :
    ∃ size grown, e = .oversized size max ∧ max < size ∧ size ≤ grown ∧
      mark.extract max (buf ++ more) 0 = .malformed (.oversized grown max) := by
  have hs := mark.size_pos
  obtain ⟨size, he, hm, hf | ⟨hf, hsize⟩⟩ := extract_zero_malformed_iff.mp h
  · have hf' := Bytes.find?_append_of_some hf more
    exact ⟨size, size, he, hm, Nat.le_refl _, extract_zero_malformed_iff.mpr ⟨size, rfl, hm, .inl hf'⟩⟩
  · cases hg : Bytes.find? mark.bytes (buf ++ more) with
    | some pos =>
      have hl : buf.length < pos + mark.size := Bytes.lt_of_find?_append hf hg
      have hgrown : size ≤ pos := by omega
      exact ⟨size, pos, he, hm, hgrown,
        extract_zero_malformed_iff.mpr ⟨pos, rfl, by omega, .inl hg⟩⟩
    | none =>
      have hl : buf.length ≤ (buf ++ more).length := by simp
      exact ⟨size, (buf ++ more).length - (mark.size - 1), he, hm, by omega,
        extract_zero_malformed_iff.mpr ⟨_, rfl, by omega, .inr ⟨hg, rfl⟩⟩⟩

end Delimiter

namespace Partitioner

variable {p : Partitioner} {buf : Bytes}

/-- All verdicts but those of a delimiter's search stay as they are. -/
theorem extract_append_of_final (hp : ∀ mark max, p ≠ .delimiter mark max) {scanFrom : Nat}
    (h : (p.extract buf scanFrom).IsFinal) (more : Bytes) :
    p.extract (buf ++ more) scanFrom = p.extract buf scanFrom := by
  cases p with
  | delimiter mark max => exact absurd rfl (hp mark max)
  | ascii offset mark max => exact asciiExtract_append h more
  | binary offset lengths max => exact binaryExtract_append h more
  | fixed size positive => exact fixedExtract_append h more

theorem extract_append_found {b : Bounds} (h : p.extract buf 0 = .found b) (more : Bytes) :
    p.extract (buf ++ more) 0 = .found b := by
  cases p with
  | delimiter mark max => exact Delimiter.extract_append_found h more
  | ascii | binary | fixed =>
    rw [extract_append_of_final (by simp) (by simp [h, Verdict.IsFinal]), h]

theorem extract_append_malformed {e : FramingError} (h : p.extract buf 0 = .malformed e)
    (more : Bytes) : ∃ later, p.extract (buf ++ more) 0 = .malformed later ∧ p.Persists e later := by
  cases p with
  | delimiter mark max =>
    obtain ⟨size, grown, he, hm, hg, hx⟩ := Delimiter.extract_append_malformed h more
    exact ⟨.oversized grown max, hx, size, grown, he, rfl, hm, hg⟩
  | ascii | binary | fixed =>
    refine ⟨e, ?_, rfl⟩
    rw [extract_append_of_final (by simp) (by simp [h, Verdict.IsFinal]), h]

/-- No frame and no error stands at the front of nothing. -/
theorem extract_nil (p : Partitioner) (scanFrom : Nat) : p.extract [] scanFrom = .needMore 0 := by
  cases p with
  | delimiter mark max =>
    have hn : Bytes.find? mark.bytes [] = none := by
      rw [Bytes.find?_nil, if_neg]
      simpa using mark.nonempty
    simp [extract, Delimiter.extract, hn]
  | ascii offset mark max =>
    apply decimalGrammar_iff.mpr
    cases offset with
    | zero =>
      have field : DecimalField 0 [] [] [] := ⟨Nat.le_refl 0, rfl, by simp, by simp⟩
      exact .begun field (Nat.zero_le 20) ⟨List.nil_prefix, mark.nonempty.symm⟩
    | succ offset => exact .short (Nat.succ_pos offset)
  | binary offset lengths max =>
    have hr : lengths.read? [] = none :=
      LengthPrefix.read?_eq_none_iff.mpr lengths.width.bytes_pos
    simp [extract, binaryExtract, hr]
  | fixed size positive => simp [extract, fixedExtract, Bytes.isShorterThan, positive]

end Partitioner

end FrameIntake
