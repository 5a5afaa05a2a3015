import FrameIntake.Proofs.Framing.Backlog
import FrameIntake.Proofs.Framing.Prefix
import FrameIntake.Proofs.Framing.Words

/-!
Lengths and their bytes as a machine handles them: through a word of eight bytes, of which a prefix has as
many as it is wide. Writing and reading undo each other (`lengths_invert`).
-/

namespace FrameIntake.LengthPrefix

variable {p : LengthPrefix} {n : Nat} {bs : Bytes}

/-- Tells whether a word fits. A word that has eight bytes to itself always does, and is not shifted. -/
def machineFits? (p : LengthPrefix) (n : Nat) : Option Bool :=
  if p.width.bytes = 8 then some true
  else do
    let places ← Word.mul? p.width.bytes 8
    let above ← Word.shiftRight? n places
    some (above == 0)

/-- Writes a word behind `dst`, and tells what `dst` is then. -/
def machineWrite? (p : LengthPrefix) (n : Nat) (dst : Bytes) :
    Option (Except IoError Unit × Bytes) := do
  let word : Bytes := toLittle 8 n
  if ← p.machineFits? n then
    match p.order with
    | .little => do
      let field ← word.slice? 0 p.width.bytes
      some (.ok (), dst ++ field)
    | .big => do
      let word : Bytes := word.reverse
      let field ← word.slice? (← Word.sub? 8 p.width.bytes) 8
      some (.ok (), dst ++ field)
  else some (.error doesNotFit, dst)

/-- The bytes that weigh least are the same however many there are. -/
theorem take_toLittle (width more n : Nat) :
    (toLittle (width + more) n).take width = toLittle width n := by
  induction width generalizing n with
  | zero => rfl
  | succ width ih =>
    rw [Nat.succ_add]
    simp only [toLittle, List.take_succ_cons, ih]

theorem machineFits?_eq (p : LengthPrefix) (word : n < wordLimit) :
    p.machineFits? n = some (decide (n < bound p.width.bytes)) := by
  unfold machineFits?
  split
  · rename_i full
    have fits : n < bound p.width.bytes := by
      rw [full]
      exact word
    rw [decide_eq_true fits]
  · rename_i narrow
    have hle := p.width.bytes_le
    have places : p.width.bytes * 8 < wordLimit := by
      simp only [wordLimit]
      omega
    have shifted : (n >>> (p.width.bytes * 8) == 0) = decide (n < bound p.width.bytes) := by
      rw [bound_eq_two_pow, Nat.mul_comm 8, Nat.shiftRight_eq_div_pow, Bool.eq_iff_iff, beq_iff_eq,
        decide_eq_true_eq, Nat.div_eq_zero_iff]
      simp
    rw [Word.mul?_of_lt places, Option.bind_eq_bind, Option.bind_some,
      Word.shiftRight?_of_lt (by omega), Option.bind_some, shifted]

/-- The end of a word that a prefix takes holds the bytes of the prefix. -/
theorem machineWrite?_eq (p : LengthPrefix) (word : n < wordLimit) (dst : Bytes) :
    p.machineWrite? n dst = some (match p.append? n dst with
      | some longer => (.ok (), longer)
      | none => (.error doesNotFit, dst)) := by
  unfold machineWrite? append? encode?
  rw [machineFits?_eq p word]
  by_cases fits : n < bound p.width.bytes
  · have hle := p.width.bytes_le
    have eight : (toLittle 8 n).length = 8 := length_toLittle 8 n
    have field : (toLittle 8 n).take p.width.bytes = toLittle p.width.bytes n := by
      obtain ⟨more, hmore⟩ := Nat.exists_eq_add_of_le hle
      rw [hmore]
      exact take_toLittle p.width.bytes more n
    simp only [fits, decide_true, Option.bind_eq_bind, Option.bind_some, if_true, Option.map_some]
    cases p.order with
    | little =>
      dsimp only
      rw [Bytes.slice?_to _ (by omega), Option.bind_some, field]
    | big =>
      have reversed : (toLittle 8 n).reverse.length = 8 := by rw [List.length_reverse, eight]
      have part : ((toLittle 8 n).reverse.take 8).drop (8 - p.width.bytes) =
          (toLittle p.width.bytes n).reverse := by
        rw [List.take_of_length_le (Nat.le_of_eq reversed), List.drop_reverse, eight,
          Nat.sub_sub_self hle, field]
      dsimp only
      rw [Word.sub?_of_le hle, Option.bind_some,
        Bytes.slice?_of_le (Nat.sub_le _ _) (Nat.le_of_eq reversed.symm), Option.bind_some, part]
  · simp [fits]

theorem lt_wordLimit (w : Width) (fits : n < bound w.bytes) : n < wordLimit := by
  have : bound w.bytes ≤ wordLimit := by cases w <;> decide
  omega

theorem append?_eq_none_iff {dst : Bytes} : p.append? n dst = none ↔ bound p.width.bytes ≤ n := by
  rw [append?, Option.map_eq_none_iff, encode?]
  split <;> simp_all

/-- What was read is written in the bytes that it was read from. -/
theorem append?_of_read? (h : p.read? bs = some n) (dst : Bytes) :
    p.append? n dst = some (dst ++ bs.take p.width.bytes) := by
  rw [append?, encode?_of_read? h, Option.map_some]

/-- The byte orders read the same bytes from opposite ends. -/
theorem read?_big (width : Width) (bs : Bytes) :
    read? ⟨width, .big⟩ bs = read? ⟨width, .little⟩ (bs.take width.bytes).reverse := by
  rcases Nat.lt_or_ge bs.length width.bytes with short | enough
  · have front : (bs.take width.bytes).reverse.length < width.bytes := by
      rw [List.length_reverse, List.length_take]
      omega
    rw [read?_eq_none_iff.mpr short, read?_eq_none_iff.mpr front]
  · have front : (bs.take width.bytes).reverse.length = width.bytes := by
      rw [List.length_reverse, List.length_take_of_le enough]
    have whole : (bs.take width.bytes).reverse.take width.bytes = (bs.take width.bytes).reverse :=
      List.take_of_length_le (Nat.le_of_eq front)
    rw [read?_of_length_le enough, read?_of_length_le (Nat.le_of_eq front.symm), whole]

/-- A length is written exactly if the bytes of the width can hold it, as any word can be by eight: then they are
put behind what is there and read again, whatever follows. Otherwise all stays as it is. The other way, bytes
are read as soon as there are enough, and what is read is written as those bytes. Neither comes to a fault, and
the two byte orders mirror each other. -/
theorem lengths_invert (p : LengthPrefix) :
    (∀ n dst, n < wordLimit →
      (n < 2 ^ (8 * p.width.bytes) →
        ∃ written : Bytes, written.length = p.width.bytes ∧
          p.append? n dst = some (dst ++ written) ∧
          p.machineWrite? n dst = some (.ok (), dst ++ written) ∧
          ∀ more, p.read? (written ++ more) = some n) ∧
      (2 ^ (8 * p.width.bytes) ≤ n →
        p.append? n dst = none ∧ p.machineWrite? n dst = some (.error doesNotFit, dst)) ∧
      ((⟨.u64, p.order⟩ : LengthPrefix).append? n dst).isSome) ∧
    (∀ bs, p.machineRead? bs = some (p.read? bs) ∧
      (p.read? bs = none ↔ bs.length < p.width.bytes) ∧
      (p.width.bytes ≤ bs.length → ∃ n, p.read? bs = some n ∧ ∀ dst,
        p.append? n dst = some (dst ++ bs.take p.width.bytes) ∧
          p.machineWrite? n dst = some (.ok (), dst ++ bs.take p.width.bytes))) ∧
    ∀ bs, read? ⟨p.width, .big⟩ bs = read? ⟨p.width, .little⟩ (bs.take p.width.bytes).reverse := by
  refine ⟨?_, ?_, read?_big p.width⟩
  · intro n dst word
    rw [← bound_eq_two_pow, machineWrite?_eq p word]
    refine ⟨?_, ?_, ?_⟩
    · intro fits
      obtain ⟨written, hwritten⟩ := p.encode?_of_lt fits
      have happend : p.append? n dst = some (dst ++ written) := by
        rw [append?, hwritten, Option.map_some]
      rw [happend]
      exact ⟨written, length_of_encode? hwritten, rfl, rfl, read?_append_of_encode? hwritten⟩
    · intro large
      have happend : p.append? n dst = none := append?_eq_none_iff.mpr large
      rw [happend]
      exact ⟨rfl, rfl⟩
    · rw [Option.isSome_iff_ne_none, ne_eq, append?_eq_none_iff, Nat.not_le]
      exact word
  · intro bs
    refine ⟨machineRead?_eq p bs, read?_eq_none_iff, ?_⟩
    intro enough
    refine ⟨_, read?_of_length_le enough, ?_⟩
    intro dst
    have happend := append?_of_read? (read?_of_length_le enough) dst
    have word := lt_wordLimit p.width (read?_lt (read?_of_length_le enough))
    rw [machineWrite?_eq p word, happend]
    exact ⟨rfl, rfl⟩

/-- Two bytes hold all numbers below 65536. Read from the other end, the same bytes are another number. -/
theorem lengths_invert_two_bytes :
    let p : LengthPrefix := ⟨.u16, .big⟩
    (65535 < wordLimit ∧ 65535 < 2 ^ (8 * p.width.bytes) ∧
      p.append? 65535 [9] = some [9, 255, 255] ∧ p.read? [255, 255, 7] = some 65535) ∧
    (65536 < wordLimit ∧ 2 ^ (8 * p.width.bytes) ≤ 65536 ∧
      p.machineWrite? 65536 [9] = some (.error doesNotFit, [9])) ∧
    p.width.bytes ≤ [1, 2, 3].length ∧ p.read? [1, 2, 3] = some 258 ∧
      p.append? 258 [9] = some [9, 1, 2] ∧ read? ⟨.u16, .little⟩ [2, 1] = some 258 := by
  intro p
  obtain ⟨hwrite, hread, hmirror⟩ := lengths_invert p
  have word : 65535 < wordLimit ∧ 65536 < wordLimit := by decide
  have fits : 65535 < 2 ^ (8 * p.width.bytes) := by decide
  have large : 2 ^ (8 * p.width.bytes) ≤ 65536 := by decide
  have enough : p.width.bytes ≤ [1, 2, 3].length := by decide
  obtain ⟨written, hlength, happend, _, hagain⟩ := (hwrite 65535 [9] word.1).1 fits
  have hwritten : written = [255, 255] := by
    have hvalue : p.append? 65535 [9] = some ([9] ++ [255, 255]) := by decide
    exact List.append_cancel_left (Option.some.inj (happend.symm.trans hvalue))
  subst hwritten
  obtain ⟨n, hn, hback⟩ := (hread [1, 2, 3]).2.2 enough
  have hvalue : p.read? [1, 2, 3] = some 258 := by decide
  obtain rfl := Option.some.inj (hn.symm.trans hvalue)
  refine ⟨⟨word.1, fits, happend, hagain [7]⟩, ⟨word.2, large, ?_⟩, enough, hvalue, ?_, ?_⟩
  · exact ((hwrite 65536 [9] word.2).2.1 large).2
  · exact (hback [9]).1
  · exact (hmirror [1, 2, 3]).symm.trans hvalue

end FrameIntake.LengthPrefix
