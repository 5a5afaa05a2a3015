import FrameIntake.Options.Escape
import Mathlib.Data.Fintype.Prod

/-!
What escaped texts are made of: plain characters, escapes of one character, and bytes in two hexadecimal digits.
A text of such pieces stands for the bytes of its pieces, and any other is refused for what stands behind the
longest run of them (`unescape_reads`).
-/

namespace FrameIntake.Escape

/-- A hexadecimal digit as it is written, in either case. -/
structure HexDigit where
  value : Fin 16
  upper : Bool

def HexDigit.char (d : HexDigit) : Char :=
  if d.upper then (Nat.digitChar d.value).toUpper else Nat.digitChar d.value

/-- The characters that stand for a byte behind a backslash. -/
def names : List (Char × UInt8) :=
  [('n', 10), ('r', 13), ('t', 9), ('0', 0), ('\\', 92), ('"', 34), ('\'', 39)]

inductive Piece
  | plain (c : Char) (unescaped : c ≠ '\\')
  | named (c : Char) (byte : UInt8) (listed : (c, byte) ∈ names)
  | hex (high low : HexDigit)

namespace Piece

def text : Piece → List Char
  | plain c _ => [c]
  | named c _ _ => ['\\', c]
  | hex high low => ['\\', 'x', high.char, low.char]

def bytes : Piece → Bytes
  | plain c _ => String.utf8EncodeChar c
  | named _ byte _ => [byte]
  | hex high low => [UInt8.ofNat (16 * high.value + low.value)]

/-- Every byte can be written in two digits. -/
def ofByte (byte : UInt8) : Piece :=
  hex ⟨Fin.ofNat 16 (byte.toNat / 16), false⟩ ⟨Fin.ofNat 16 byte.toNat, false⟩

end Piece

/-- `bad` is no piece and does not begin one, with `rest` behind it. -/
inductive Bad : (bad rest : List Char) → Prop
  | lone : Bad ['\\'] []
  | unknown {c rest} (other : c ≠ 'x') (unlisted : ∀ byte, (c, byte) ∉ names) : Bad ['\\', c] rest
  | short {behind} (few : behind.length < 2) : Bad ('\\' :: 'x' :: behind) []
  | undigits {a b rest} (other : ∀ high low : HexDigit, ¬ (a = high.char ∧ b = low.char)) :
      Bad ['\\', 'x', a, b] rest

/-- Where the pieces of a text end. -/
inductive Stops : List Char → Prop
  | done : Stops []
  | bad {bad rest} (h : Bad bad rest) : Stops (bad ++ rest)

section Leaves

variable {a b c : Char} {byte : UInt8}

theorem named?_eq_some_iff : named? c = some byte ↔ (c, byte) ∈ names := by
  unfold named? names
  split <;> simp_all [eq_comm]

theorem named?_eq_none_iff : named? c = none ↔ ∀ byte, (c, byte) ∉ names := by
  simp only [← named?_eq_some_iff, Option.eq_none_iff_forall_ne_some, ne_eq]

theorem not_listed_x (byte : UInt8) : ('x', byte) ∉ names := by
  simp [names]

theorem HexDigit.reads (d : HexDigit) :
    Text.isHexadecimal d.char = true ∧ Text.digitValue d.char = d.value := by
  have h : ∀ (value : Fin 16) (upper : Bool), Text.isHexadecimal (char ⟨value, upper⟩) = true ∧
      Text.digitValue (char ⟨value, upper⟩) = value := by decide
  exact h d.value d.upper

theorem exists_hexDigit (h : Text.isHexadecimal c = true) : ∃ d : HexDigit, c = d.char := by
  have hascii : c.toNat < 128 := by
    simp only [Text.isHexadecimal, Text.isDecimal, Bool.or_eq_true, Bool.and_eq_true, decide_eq_true_eq,
      Char.le_def, UInt32.le_iff_toNat_le, Char.reduceVal, UInt32.reduceToNat, Char.toNat_val] at h
    omega
  have hall : ∀ n < 128, Text.isHexadecimal (Char.ofNat n) = true →
      ∃ (value : Fin 16) (upper : Bool), Char.ofNat n = HexDigit.char ⟨value, upper⟩ := by decide
  obtain ⟨value, upper, hd⟩ := hall c.toNat hascii (by rwa [Char.ofNat_toNat])
  exact ⟨⟨value, upper⟩, by rw [← hd, Char.ofNat_toNat]⟩

theorem hexByte?_char (high low : HexDigit) :
    hexByte? high.char low.char = some (UInt8.ofNat (16 * high.value + low.value)) := by
  simp [hexByte?, high.reads, low.reads]

theorem digits_of_hexByte? (h : hexByte? a b = some byte) :
    ∃ high low : HexDigit, a = high.char ∧ b = low.char := by
  unfold hexByte? at h
  split at h
  · rename_i hhex
    rw [Bool.and_eq_true] at hhex
    obtain ⟨high, ha⟩ := exists_hexDigit hhex.1
    obtain ⟨low, hb⟩ := exists_hexDigit hhex.2
    exact ⟨high, low, ha, hb⟩
  · contradiction

theorem hexByte?_eq_none_iff :
    hexByte? a b = none ↔ ∀ high low : HexDigit, ¬ (a = high.char ∧ b = low.char) := by
  constructor
  · rintro h high low ⟨rfl, rfl⟩
    rw [hexByte?_char] at h
    contradiction
  · intro h
    rw [Option.eq_none_iff_forall_ne_some]
    intro byte hbyte
    obtain ⟨high, low, hdigits⟩ := digits_of_hexByte? hbyte
    exact h high low hdigits

theorem Piece.bytes_ofByte (byte : UInt8) : (ofByte byte).bytes = [byte] := by
  have hlt := byte.toNat_lt
  have hvalue : 16 * (byte.toNat / 16 % 16) + byte.toNat % 16 = byte.toNat := by omega
  simp [ofByte, bytes, hvalue]

end Leaves

section Decode

variable {cs bad rest : List Char} {c : Char} {bytes : Bytes} {e : EscapeError}

theorem map_append_map (front more : Bytes) (result : Except EscapeError Bytes) :
    (result.map (more ++ ·)).map (front ++ ·) = result.map (front ++ more ++ ·) := by
  cases result with
  | error e => rfl
  | ok bytes => exact congrArg Except.ok (List.append_assoc front more bytes).symm

theorem decode_plain (h : c ≠ '\\') (rest : List Char) :
    decode (c :: rest) = (decode rest).map (String.utf8EncodeChar c ++ ·) :=
  decode.eq_7 c rest (fun hc => absurd hc h) (fun hc => absurd hc h) (fun _ hc => absurd hc h)
    (fun _ _ _ hc => absurd hc h) (fun _ _ hc => absurd hc h)

theorem decode_escape (h : c ≠ 'x') (rest : List Char) :
    decode ('\\' :: c :: rest) =
      match named? c with
      | some byte => (decode rest).map (byte :: ·)
      | none => .error ⟨String.ofList ['\\', c]⟩ :=
  decode.eq_6 c rest (fun hc => absurd hc h) (fun _ hc => absurd hc h) (fun _ _ _ hc => absurd hc h)

/-- A piece is read whatever stands behind it. -/
theorem Piece.decode_append (piece : Piece) (rest : List Char) :
    decode (piece.text ++ rest) = (decode rest).map (piece.bytes ++ ·) := by
  cases piece with
  | plain c unescaped => exact decode_plain unescaped rest
  | named c byte listed =>
    have hx : c ≠ 'x' := by
      rintro rfl
      exact not_listed_x byte listed
    change decode ('\\' :: c :: rest) = _
    rw [decode_escape hx, named?_eq_some_iff.mpr listed]
    rfl
  | hex high low =>
    change decode ('\\' :: 'x' :: high.char :: low.char :: rest) = _
    rw [decode, hexByte?_char]
    rfl

theorem decode_pieces_append (pieces : List Piece) (rest : List Char) :
    decode (pieces.flatMap Piece.text ++ rest) = (decode rest).map (pieces.flatMap Piece.bytes ++ ·) := by
  induction pieces with
  | nil => cases h : decode rest <;> simp [Except.map, h]
  | cons piece pieces ih =>
    rw [List.flatMap_cons, List.append_assoc, piece.decode_append, ih, map_append_map]
    rfl

theorem decode_pieces (pieces : List Piece) :
    decode (pieces.flatMap Piece.text) = .ok (pieces.flatMap Piece.bytes) := by
  have := decode_pieces_append pieces []
  rw [List.append_nil, decode] at this
  simpa [Except.map] using this

/-- What is bad is refused whatever stands behind it. -/
theorem Bad.decode_append (h : Bad bad rest) : decode (bad ++ rest) = .error ⟨String.ofList bad⟩ := by
  cases h with
  | lone => rfl
  | @unknown c rest other unlisted =>
    change decode ('\\' :: c :: rest) = _
    rw [decode_escape other, named?_eq_none_iff.mpr unlisted]
  | @short behind few =>
    match behind with
    | [] => rfl
    | [a] => rfl
  | @undigits a b rest other =>
    change decode ('\\' :: 'x' :: a :: b :: rest) = _
    rw [decode, hexByte?_eq_none_iff.mpr other]

/-- The text is pieces, and behind them nothing, or something bad. -/
def Reads (cs : List Char) : Prop :=
  ∃ (pieces : List Piece) (tail : List Char), cs = pieces.flatMap Piece.text ++ tail ∧ Stops tail

theorem Stops.reads (h : Stops cs) : Reads cs := ⟨[], cs, rfl, h⟩

theorem Reads.behind (h : Reads rest) (piece : Piece) : Reads (piece.text ++ rest) := by
  obtain ⟨pieces, tail, rfl, hstops⟩ := h
  exact ⟨piece :: pieces, tail, by rw [List.flatMap_cons, List.append_assoc], hstops⟩

/-- Every text can be read so. The cases are those of the decoder. -/
theorem reads (cs : List Char) : Reads cs := by
  fun_induction decode cs with
  | case1 => exact Stops.done.reads
  | case2 => exact (Stops.bad .lone).reads
  | case3 =>
    have hbad : Bad ['\\', 'x'] [] := .short Nat.zero_lt_two
    exact (Stops.bad hbad).reads
  | case4 a =>
    have hbad : Bad ['\\', 'x', a] [] := .short Nat.one_lt_two
    exact (Stops.bad hbad).reads
  | case5 a b rest byte hbyte ih =>
    obtain ⟨high, low, rfl, rfl⟩ := digits_of_hexByte? hbyte
    exact ih.behind (.hex high low)
  | case6 a b rest hnone => exact (Stops.bad (.undigits (hexByte?_eq_none_iff.mp hnone))).reads
  | case7 c rest _ _ _ byte hbyte ih => exact ih.behind (.named c byte (named?_eq_some_iff.mp hbyte))
  | case8 c rest hnil hone hmore hnone =>
    have hx : c ≠ 'x' := by
      rintro rfl
      match rest with
      | [] => exact hnil rfl rfl
      | [a] => exact hone a rfl rfl
      | a :: b :: rest => exact hmore a b rest rfl rfl
    exact (Stops.bad (.unknown hx (named?_eq_none_iff.mp hnone))).reads
  | case9 c rest hnil _ _ _ hmore ih =>
    have hplain : c ≠ '\\' := by
      rintro rfl
      cases rest with
      | nil => exact hnil rfl rfl
      | cons a rest => exact hmore a rest rfl rfl
    exact ih.behind (.plain c hplain)

theorem decode_eq_ok_iff :
    decode cs = .ok bytes ↔
      ∃ pieces : List Piece, cs = pieces.flatMap Piece.text ∧ bytes = pieces.flatMap Piece.bytes := by
  constructor
  · intro h
    obtain ⟨pieces, tail, rfl, hstops⟩ := reads cs
    rw [decode_pieces_append] at h
    cases hstops with
    | done => exact ⟨pieces, List.append_nil _, by simpa [decode, Except.map] using h.symm⟩
    | bad hbad =>
      rw [hbad.decode_append] at h
      contradiction
  · rintro ⟨pieces, rfl, rfl⟩
    exact decode_pieces pieces

/-- What was accepted is read the same in front of any text. -/
theorem decode_append (h : decode cs = .ok bytes) (rest : List Char) :
    decode (cs ++ rest) = (decode rest).map (bytes ++ ·) := by
  obtain ⟨pieces, rfl, rfl⟩ := decode_eq_ok_iff.mp h
  exact decode_pieces_append pieces rest

theorem decode_eq_error_iff :
    decode cs = .error e ↔
      ∃ good bad rest, cs = good ++ bad ++ rest ∧ (∃ bytes, decode good = .ok bytes) ∧ Bad bad rest ∧
        e = ⟨String.ofList bad⟩ := by
  constructor
  · intro h
    obtain ⟨pieces, tail, rfl, hstops⟩ := reads cs
    rw [decode_pieces_append] at h
    cases hstops with
    | done => contradiction
    | @bad bad rest hbad =>
      rw [hbad.decode_append] at h
      exact ⟨_, bad, rest, (List.append_assoc _ _ _).symm, ⟨_, decode_pieces pieces⟩, hbad,
        (Except.error.inj h).symm⟩
  · rintro ⟨good, bad, rest, rfl, ⟨bytes, hgood⟩, hbad, rfl⟩
    rw [List.append_assoc, decode_append hgood, hbad.decode_append]
    rfl

theorem decode_spelled (bytes : Bytes) : decode ((bytes.map Piece.ofByte).flatMap Piece.text) = .ok bytes := by
  rw [decode_pieces, List.flatMap_map]
  simp [Piece.bytes_ofByte]

end Decode

/-- A text stands for bytes if and only if it is a sequence of pieces, and then for theirs, in front of any other text
too. If not, what stands behind some accepted text is refused by its name. All bytes can be written. -/
theorem unescape_reads :
    (∀ text bytes, unescape text = .ok bytes ↔
        ∃ pieces : List Piece, text.toList = pieces.flatMap Piece.text ∧ bytes = pieces.flatMap Piece.bytes) ∧
      (∀ a b bytes, unescape a = .ok bytes → unescape (a ++ b) = (unescape b).map (bytes ++ ·)) ∧
      (∀ text e, unescape text = .error e ↔
        ∃ good bad rest, text = good ++ bad ++ rest ∧ (∃ bytes, unescape good = .ok bytes) ∧
          Bad bad.toList rest.toList ∧ e.sequence = bad) ∧
      ∀ bytes : Bytes, ∃ pieces : List Piece, (∀ piece ∈ pieces, ∃ high low, piece = .hex high low) ∧
        unescape (String.ofList (pieces.flatMap Piece.text)) = .ok bytes := by
  refine ⟨fun text bytes => decode_eq_ok_iff, ?_, ?_, ?_⟩
  · intro a b bytes h
    rw [unescape, String.toList_append]
    exact decode_append h b.toList
  · intro text e
    rw [unescape, decode_eq_error_iff]
    constructor
    · rintro ⟨good, bad, rest, htext, haccepted, hbad, rfl⟩
      refine ⟨String.ofList good, String.ofList bad, String.ofList rest, ?_, ?_, ?_, rfl⟩
      · rw [← String.ofList_append, ← String.ofList_append, ← htext, String.ofList_toList]
      · simpa [unescape] using haccepted
      · simpa using hbad
    · rintro ⟨good, bad, rest, rfl, haccepted, hbad, hsequence⟩
      refine ⟨good.toList, bad.toList, rest.toList, by simp, haccepted, hbad, ?_⟩
      rw [String.ofList_toList, ← hsequence]
  · intro bytes
    refine ⟨bytes.map Piece.ofByte, ?_, ?_⟩
    · intro piece hpiece
      obtain ⟨byte, _, rfl⟩ := List.mem_map.mp hpiece
      exact ⟨_, _, rfl⟩
    · rw [unescape, String.toList_ofList]
      exact decode_spelled bytes

/-- A plain character of two bytes and escapes, in front of digits with a sign, and in front of a backslash that is
left alone once the one before it has taken its own. -/
theorem unescape_reads_signed_digits :
    unescape "§\\x1E\\\\" = .ok [194, 167, 30, 92] ∧
      unescape ("§\\x1E\\\\" ++ "\\x+4n") = (unescape "\\x+4n").map ([194, 167, 30, 92] ++ ·) ∧
      unescape "\\x+4n" = .error ⟨"\\x+4"⟩ ∧
      unescape ("§\\x1E\\\\" ++ "n\\") = .error ⟨"\\"⟩ := by
  have haccepted : unescape "§\\x1E\\\\" = .ok [194, 167, 30, 92] := by decide
  have hbehind := unescape_reads.2.1 "§\\x1E\\\\"
  exact ⟨haccepted, hbehind "\\x+4n" _ haccepted, by decide, (hbehind "n\\" _ haccepted).trans (by decide)⟩

end FrameIntake.Escape
