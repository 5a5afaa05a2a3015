import FrameIntake.Options.Settings

/-!
Option files in TOML. Every option is a string or an integer under a key at the top level, so a file
that holds anything else (a table, a dotted key, a float, a date, an array) is refused as soon as it is
met: it could only name an unknown option or give one a wrong type.

Every reader leaves less text than it was given (`length_line?_lt`, `length_lineEnd?_lt`), which is what
shows that those that repeat come to an end.
-/

namespace FrameIntake.Document

/-- The rest of a text after something was read from it. -/
abbrev Reading (α : Type) := Option (α × List Char)

def isBlank (c : Char) : Bool := c = ' ' || c = '\t'

/-- Characters of a comment, and of a literal string apart from its quotes. -/
def isPlain (c : Char) : Bool := c = '\t' || (0x20 ≤ c.toNat && c.toNat ≠ 0x7f)

def skipBlanks (cs : List Char) : List Char := cs.dropWhile isBlank

/-- A line break at the front. -/
def newline? : List Char → Option (List Char)
  | '\n' :: rest => some rest
  | '\r' :: '\n' :: rest => some rest
  | _ => none

/-- Takes a comment up to its line break, or nothing if there is none. -/
def skipComment? : List Char → Option (List Char)
  | '#' :: rest =>
    let behind := rest.dropWhile isPlain
    if behind.isEmpty || (newline? behind).isSome then some behind else none
  | cs => some cs

def isBare (c : Char) : Bool := c.isAlphanum || c = '_' || c = '-'

/-- A character by its number. Surrogates are no characters. -/
def scalar? (n : Nat) : Option Char :=
  if n < 0xd800 ∨ (0xdfff < n ∧ n < 0x110000) then some (Char.ofNat n) else none

def codePoint? (digits : Nat) (cs : List Char) : Reading Char :=
  let hex := cs.take digits
  if hex.length = digits && hex.all Text.isHexadecimal then
    (scalar? (Text.value 16 hex)).map fun c => (c, cs.drop digits)
  else none

/-- What stands behind a backslash. -/
def escaped? : List Char → Reading Char
  | 'b' :: rest => some ('\x08', rest)
  | 't' :: rest => some ('\t', rest)
  | 'n' :: rest => some ('\n', rest)
  | 'f' :: rest => some ('\x0c', rest)
  | 'r' :: rest => some ('\r', rest)
  | '"' :: rest => some ('"', rest)
  | '\\' :: rest => some ('\\', rest)
  | 'u' :: rest => codePoint? 4 rest
  | 'U' :: rest => codePoint? 8 rest
  | _ => none

/-- The rest behind blanks and line breaks. -/
def skipSpace : List Char → List Char
  | '\n' :: rest => skipSpace rest
  | '\r' :: '\n' :: rest => skipSpace rest
  | c :: rest => if isBlank c then skipSpace rest else c :: rest
  | [] => []

/-- A backslash at the end of a line takes all white space up to the next character along. -/
def continuation? (cs : List Char) : Option (List Char) :=
  (newline? (skipBlanks cs)).map skipSpace

theorem length_dropWhile_le (p : Char → Bool) (cs : List Char) :
    (cs.dropWhile p).length ≤ cs.length :=
  (List.dropWhile_suffix p).length_le

theorem length_skipBlanks_le (cs : List Char) : (skipBlanks cs).length ≤ cs.length :=
  length_dropWhile_le isBlank cs

theorem length_newline?_lt {cs rest : List Char} (h : newline? cs = some rest) :
    rest.length < cs.length := by
  unfold newline? at h
  split at h
  all_goals simp only [Option.some.injEq, reduceCtorEq] at h
  all_goals
    subst h
    simp only [List.length_cons]
    omega

theorem length_codePoint?_le {digits : Nat} {cs rest : List Char} {c : Char}
    (h : codePoint? digits cs = some (c, rest)) : rest.length ≤ cs.length := by
  unfold codePoint? at h
  dsimp only at h
  split at h
  · obtain ⟨_, _, hc⟩ := Option.map_eq_some_iff.mp h
    obtain ⟨_, rfl⟩ := Prod.mk.inj hc
    simp
  · contradiction

theorem length_escaped?_lt {cs rest : List Char} {c : Char} (h : escaped? cs = some (c, rest)) :
    rest.length < cs.length := by
  unfold escaped? at h
  split at h
  case h_8 => exact Nat.lt_succ_of_le (length_codePoint?_le h)
  case h_9 => exact Nat.lt_succ_of_le (length_codePoint?_le h)
  case h_10 => contradiction
  all_goals
    obtain ⟨_, rfl⟩ := Prod.mk.inj (Option.some.inj h)
    exact Nat.lt_succ_self _

theorem length_skipSpace_le (cs : List Char) : (skipSpace cs).length ≤ cs.length := by
  fun_induction skipSpace cs with
  | case1 _ ih => exact Nat.le_succ_of_le ih
  | case2 _ ih => exact Nat.le_succ_of_le (Nat.le_succ_of_le ih)
  | case3 _ _ _ _ _ ih => exact Nat.le_succ_of_le ih
  | case4 => exact Nat.le_refl _
  | case5 => exact Nat.le_refl _

theorem length_continuation?_lt {cs rest : List Char} (h : continuation? cs = some rest) :
    rest.length < cs.length := by
  obtain ⟨behind, hn, rfl⟩ := Option.map_eq_some_iff.mp h
  exact Nat.lt_of_le_of_lt (length_skipSpace_le behind)
    (Nat.lt_of_lt_of_le (length_newline?_lt hn) (length_skipBlanks_le cs))

/-- The rest of a string on one line. `text` is what was read of it, the last character in front. -/
def singleLine? (quote : Char) (escapes : Bool) (text : List Char) :
    List Char → Reading (List Char)
  | [] => none
  | c :: rest =>
    if c = quote then some (text.reverse, rest)
    else if escapes && c = '\\' then
      match _h : escaped? rest with
      | some (d, after) => singleLine? quote escapes (d :: text) after
      | none => none
    else if isPlain c then singleLine? quote escapes (c :: text) rest
    else none
termination_by cs => cs.length
decreasing_by
  · exact Nat.lt_succ_of_lt (length_escaped?_lt _h)
  · exact Nat.lt_succ_self _

/-- The rest of a string over several lines. Up to two quotes may stand in front of the closing
three. -/
def multiLine? (quote : Char) (escapes : Bool) (text : List Char) :
    List Char → Reading (List Char)
  | [] => none
  | c :: rest =>
    if c = quote then
      let quotes := c :: rest.takeWhile (· = quote)
      let after := rest.dropWhile (· = quote)
      if quotes.length < 3 then multiLine? quote escapes (quotes ++ text) after
      else if quotes.length ≤ 5 then some ((quotes.drop 3 ++ text).reverse, after)
      else none
    else if escapes && c = '\\' then
      match _h : continuation? rest with
      | some after => multiLine? quote escapes text after
      | none =>
        match _h : escaped? rest with
        | some (d, after) => multiLine? quote escapes (d :: text) after
        | none => none
    else
      match _h : newline? (c :: rest) with
      | some after => multiLine? quote escapes ('\n' :: text) after
      | none => if isPlain c then multiLine? quote escapes (c :: text) rest else none
termination_by cs => cs.length
decreasing_by
  · exact Nat.lt_succ_of_le (length_dropWhile_le _ rest)
  · exact Nat.lt_succ_of_lt (length_continuation?_lt _h)
  · exact Nat.lt_succ_of_lt (length_escaped?_lt _h)
  · exact length_newline?_lt _h
  · exact Nat.lt_succ_self _

/-- A line break right behind the opening quotes is no part of the string. -/
def skipNewline (cs : List Char) : List Char := (newline? cs).getD cs

def string? : List Char → Reading String
  | '"' :: '"' :: '"' :: rest => finish (multiLine? '"' true [] (skipNewline rest))
  | '\'' :: '\'' :: '\'' :: rest => finish (multiLine? '\'' false [] (skipNewline rest))
  | '"' :: rest => finish (singleLine? '"' true [] rest)
  | '\'' :: rest => finish (singleLine? '\'' false [] rest)
  | _ => none
where
  finish (r : Reading (List Char)) : Reading String := r.map fun (text, rest) => (String.ofList text, rest)

/-- Digits, with underscores that each stand between two of them. -/
def isGrouped (isDigit : Char → Bool) : List Char → Bool
  | [] => false
  | [c] => isDigit c
  | c :: '_' :: rest => isDigit c && isGrouped isDigit rest
  | c :: rest => isDigit c && isGrouped isDigit rest

/-- The digits alone. -/
def ungroup? (isDigit : Char → Bool) (cs : List Char) : Option (List Char) :=
  if isGrouped isDigit cs then some (cs.filter (· ≠ '_')) else none

/-- The digits of a number whose magnitude a signed word can hold. -/
def magnitude? (base : Nat) (digits : List Char) : Option Int :=
  (Text.valueBelow? base Text.magnitudeLimit digits).map Int.ofNat

/-- Decimal digits without leading zeros. -/
def decimal? (cs : List Char) : Option Int :=
  match ungroup? Text.isDecimal cs with
  | some ['0'] => some 0
  | some ('0' :: _) => none
  | digits => digits.bind (magnitude? 10)

def based? (base : Nat) (isDigit : Char → Bool) (cs : List Char) : Option Int :=
  (ungroup? isDigit cs).bind (magnitude? base)

/-- An integer of at most 64 bits. Other bases than ten have no sign. -/
def integer? (token : List Char) : Option Int :=
  let number : Option Int := match token with
    | '0' :: 'x' :: rest => based? 16 Text.isHexadecimal rest
    | '0' :: 'o' :: rest => based? 8 (fun c => '0' ≤ c && c ≤ '7') rest
    | '0' :: 'b' :: rest => based? 2 (fun c => c = '0' || c = '1') rest
    | '+' :: rest => decimal? rest
    | '-' :: rest => (decimal? rest).map Int.neg
    | rest => decimal? rest
  number.filter Text.fitsSigned

def endsToken (c : Char) : Bool := isBlank c || c = '\n' || c = '\r' || c = '#'

def value? (cs : List Char) : Reading Setting :=
  match cs with
  | '"' :: _ | '\'' :: _ => (string? cs).map fun (text, rest) => (.text text, rest)
  | _ =>
    (integer? (cs.takeWhile (!endsToken ·))).map fun n =>
      (.integer n, cs.dropWhile (!endsToken ·))

def key? (cs : List Char) : Reading String :=
  match cs with
  | '"' :: rest => string?.finish (singleLine? '"' true [] rest)
  | '\'' :: rest => string?.finish (singleLine? '\'' false [] rest)
  | _ =>
    let name := cs.takeWhile isBare
    if name.isEmpty then none else some (String.ofList name, cs.dropWhile isBare)

/-- A key, an equals sign and a value. -/
def binding? (cs : List Char) : Reading (String × Setting) :=
  (key? cs).bind fun (name, rest) =>
    match skipBlanks rest with
    | '=' :: rest => (value? (skipBlanks rest)).map fun (value, rest) => ((name, value), rest)
    | _ => none

/-- The end of a line: blanks, perhaps a comment, and a line break or the end of the text. -/
def lineEnd? (cs : List Char) : Option (List Char) :=
  (skipComment? (skipBlanks cs)).bind fun rest =>
    if rest.isEmpty then some [] else newline? rest

/-- An entry that fills its line. -/
def line? (cs : List Char) : Reading (String × Setting) :=
  (binding? (skipBlanks cs)).bind fun (entry, rest) => (lineEnd? rest).map fun rest => (entry, rest)

theorem length_skipComment?_le {cs rest : List Char} (h : skipComment? cs = some rest) :
    rest.length ≤ cs.length := by
  unfold skipComment? at h
  dsimp only at h
  split at h
  · split at h
    · obtain rfl := Option.some.inj h
      exact Nat.le_succ_of_le (length_dropWhile_le _ _)
    · contradiction
  · obtain rfl := Option.some.inj h
    exact Nat.le_refl _

theorem length_lineEnd?_lt {cs rest : List Char} (hne : cs ≠ []) (h : lineEnd? cs = some rest) :
    rest.length < cs.length := by
  obtain ⟨behind, hc, hr⟩ := Option.bind_eq_some_iff.mp h
  have hle : behind.length ≤ cs.length :=
    Nat.le_trans (length_skipComment?_le hc) (length_skipBlanks_le cs)
  split at hr
  · obtain rfl := Option.some.inj hr
    exact List.length_pos_iff.mpr hne
  · exact Nat.lt_of_lt_of_le (length_newline?_lt hr) hle

theorem length_lineEnd?_le {cs rest : List Char} (h : lineEnd? cs = some rest) :
    rest.length ≤ cs.length := by
  cases cs with
  | nil =>
    have : lineEnd? [] = some [] := rfl
    rw [this] at h
    obtain rfl := Option.some.inj h
    exact Nat.le_refl _
  | cons c cs => exact Nat.le_of_lt (length_lineEnd?_lt (List.cons_ne_nil c cs) h)

theorem length_singleLine?_lt {quote : Char} {escapes : Bool} {text cs read rest : List Char}
    (h : singleLine? quote escapes text cs = some (read, rest)) : rest.length < cs.length := by
  fun_induction singleLine? quote escapes text cs with
  | case1 => contradiction
  | case2 =>
    obtain ⟨_, rfl⟩ := Prod.mk.inj (Option.some.inj h)
    exact Nat.lt_succ_self _
  | case3 _ _ _ _ _ _ _ he ih =>
    exact Nat.lt_trans (ih h) (Nat.lt_succ_of_lt (length_escaped?_lt he))
  | case4 => contradiction
  | case5 _ _ _ _ _ _ ih => exact Nat.lt_succ_of_lt (ih h)
  | case6 => contradiction

theorem length_multiLine?_lt {quote : Char} {escapes : Bool} {text cs read rest : List Char}
    (h : multiLine? quote escapes text cs = some (read, rest)) : rest.length < cs.length := by
  fun_induction multiLine? quote escapes text cs with
  | case1 => contradiction
  | case2 _ rest _ _ _ ih =>
    exact Nat.lt_of_lt_of_le (ih h) (Nat.le_succ_of_le (length_dropWhile_le _ rest))
  | case3 _ rest =>
    obtain ⟨_, rfl⟩ := Prod.mk.inj (Option.some.inj h)
    exact Nat.lt_succ_of_le (length_dropWhile_le _ rest)
  | case4 => contradiction
  | case5 _ _ _ _ _ _ hc ih =>
    exact Nat.lt_trans (ih h) (Nat.lt_succ_of_lt (length_continuation?_lt hc))
  | case6 _ _ _ _ _ _ _ _ he ih =>
    exact Nat.lt_trans (ih h) (Nat.lt_succ_of_lt (length_escaped?_lt he))
  | case7 => contradiction
  | case8 _ _ _ _ _ _ hn ih => exact Nat.lt_trans (ih h) (length_newline?_lt hn)
  | case9 _ _ _ _ _ _ _ ih => exact Nat.lt_succ_of_lt (ih h)
  | case10 => contradiction

theorem length_skipNewline_le (cs : List Char) : (skipNewline cs).length ≤ cs.length := by
  unfold skipNewline
  cases h : newline? cs with
  | none => exact Nat.le_refl _
  | some rest => exact Nat.le_of_lt (length_newline?_lt h)

theorem length_key?_le {cs rest : List Char} {name : String} (h : key? cs = some (name, rest)) :
    rest.length ≤ cs.length := by
  unfold key? string?.finish at h
  dsimp only at h
  split at h
  · obtain ⟨_, hs, he⟩ := Option.map_eq_some_iff.mp h
    obtain ⟨_, rfl⟩ := Prod.mk.inj he
    exact Nat.le_succ_of_le (Nat.le_of_lt (length_singleLine?_lt hs))
  · obtain ⟨_, hs, he⟩ := Option.map_eq_some_iff.mp h
    obtain ⟨_, rfl⟩ := Prod.mk.inj he
    exact Nat.le_succ_of_le (Nat.le_of_lt (length_singleLine?_lt hs))
  · split at h
    · contradiction
    · obtain ⟨_, rfl⟩ := Prod.mk.inj (Option.some.inj h)
      exact length_dropWhile_le _ cs

theorem length_string?_le {cs rest : List Char} {text : String} (h : string? cs = some (text, rest)) :
    rest.length ≤ cs.length := by
  unfold string? string?.finish at h
  split at h
  case h_5 => contradiction
  all_goals
    obtain ⟨_, hs, he⟩ := Option.map_eq_some_iff.mp h
    obtain ⟨_, rfl⟩ := Prod.mk.inj he
  case h_1 | h_2 =>
    exact Nat.le_of_lt (Nat.lt_of_lt_of_le (length_multiLine?_lt hs)
      (Nat.le_trans (length_skipNewline_le _) (Nat.le_add_right _ 3)))
  case h_3 | h_4 => exact Nat.le_succ_of_le (Nat.le_of_lt (length_singleLine?_lt hs))

theorem length_value?_le {cs rest : List Char} {value : Setting} (h : value? cs = some (value, rest)) :
    rest.length ≤ cs.length := by
  unfold value? at h
  split at h
  case h_3 =>
    obtain ⟨_, _, he⟩ := Option.map_eq_some_iff.mp h
    obtain ⟨_, rfl⟩ := Prod.mk.inj he
    exact length_dropWhile_le _ cs
  all_goals
    obtain ⟨_, hs, he⟩ := Option.map_eq_some_iff.mp h
    obtain ⟨_, rfl⟩ := Prod.mk.inj he
    exact length_string?_le hs

theorem length_binding?_lt {cs rest : List Char} {entry : String × Setting}
    (h : binding? cs = some (entry, rest)) : rest.length < cs.length := by
  obtain ⟨⟨name, behind⟩, hk, hv⟩ := Option.bind_eq_some_iff.mp h
  have hk := length_key?_le hk
  have hs := length_skipBlanks_le behind
  dsimp only at hv
  split at hv
  case h_1 _ after heq =>
    obtain ⟨⟨value, _⟩, hw, he⟩ := Option.map_eq_some_iff.mp hv
    obtain ⟨_, rfl⟩ := Prod.mk.inj he
    rw [heq, List.length_cons] at hs
    have hw := Nat.le_trans (length_value?_le hw) (length_skipBlanks_le after)
    exact Nat.lt_of_lt_of_le (Nat.lt_succ_of_le hw) (Nat.le_trans hs hk)
  case h_2 => contradiction

theorem length_line?_lt {cs rest : List Char} {entry : String × Setting}
    (h : line? cs = some (entry, rest)) : rest.length < cs.length := by
  obtain ⟨⟨_, behind⟩, hb, hl⟩ := Option.bind_eq_some_iff.mp h
  obtain ⟨_, hr, he⟩ := Option.map_eq_some_iff.mp hl
  obtain ⟨_, rfl⟩ := Prod.mk.inj he
  exact Nat.lt_of_le_of_lt (length_lineEnd?_le hr)
    (Nat.lt_of_lt_of_le (length_binding?_lt hb) (length_skipBlanks_le cs))

/-- The entries of the lines, behind those that were read before, the last of which is in front. -/
def bindings? (entries : List (String × Setting)) (cs : List Char) :
    Option (List (String × Setting)) :=
  match cs with
  | [] => some entries.reverse
  | c :: cs =>
    match _h : lineEnd? (c :: cs) with
    | some rest => bindings? entries rest
    | none =>
      match _h : line? (c :: cs) with
      | some (entry, rest) => bindings? (entry :: entries) rest
      | none => none
termination_by cs.length
decreasing_by
  · exact length_lineEnd?_lt (List.cons_ne_nil c cs) _h
  · exact length_line?_lt _h

/-- A byte order mark in front of the text is no part of it. -/
def settings? (text : String) : Option (List (String × Setting)) :=
  match text.toList with
  | '\ufeff' :: rest => bindings? [] rest
  | cs => bindings? [] cs

def options? (text : String) : Option Options := (settings? text).bind Options.ofSettings?

end FrameIntake.Document
