import FrameIntake.Text.Number

/-!
Numeric addresses of sockets: four octets, or eight groups in brackets, and a port.
-/

namespace FrameIntake

inductive SocketAddress
  | v4 (octets : List Nat) (port : Nat)
  | v6 (groups : List Nat) (scope port : Nat)
  deriving DecidableEq, Repr

namespace SocketAddress

def portLimit : Nat := 65536

def groupLimit : Nat := 65536

def scopeLimit : Nat := 4294967296

/-- What was read, and the text behind it. -/
abbrev Reading (α : Type) := Option (α × List Char)

/-- Takes the digits at the front as a number below `limit`. -/
def number? (base limit : Nat) (maxDigits : Option Nat) (leadingZeros : Bool) (cs : List Char) :
    Reading Nat :=
  let isDigit := if base = 16 then Text.isHexadecimal else Text.isDecimal
  let digits := cs.takeWhile isDigit
  if digits.isEmpty || maxDigits.any (· < digits.length) ||
      (!leadingZeros && digits.head? == some '0' && 1 < digits.length) then none
  else (Text.valueBelow? base limit digits).map fun n => (n, cs.dropWhile isDigit)

def char? (c : Char) : List Char → Option (List Char)
  | d :: rest => if d = c then some rest else none
  | [] => none

def octet? (cs : List Char) : Reading Nat := number? 10 256 (some 3) false cs

def octets? (cs : List Char) : Reading (List Nat) :=
  (octet? cs).bind fun (a, cs) => (char? '.' cs).bind fun cs =>
  (octet? cs).bind fun (b, cs) => (char? '.' cs).bind fun cs =>
  (octet? cs).bind fun (c, cs) => (char? '.' cs).bind fun cs =>
  (octet? cs).map fun (d, cs) => ([a, b, c, d], cs)

/-- A colon, apart from the first of a run of groups. -/
def separator? (first : Bool) (cs : List Char) : Option (List Char) :=
  if first then some cs else char? ':' cs

/-- Groups between colons, at most `limit`. The last two may be written as four octets, which the
second result tells. -/
def groups (first : Bool) : Nat → List Char → List Nat × Bool × List Char
  | 0, cs => ([], false, cs)
  | limit + 1, cs =>
    match if limit = 0 then none else (separator? first cs).bind octets? with
    | some ([a, b, c, d], rest) => ([256 * a + b, 256 * c + d], true, rest)
    | _ =>
      match (separator? first cs).bind (number? 16 groupLimit (some 4) true) with
      | none => ([], false, cs)
      | some (g, rest) =>
        let (more, octets, rest) := groups false limit rest
        (g :: more, octets, rest)

/-- Eight groups, of which a run of zeros may be left out between two colons. -/
def allGroups? (cs : List Char) : Reading (List Nat) :=
  let (front, octets, rest) := groups true 8 cs
  if front.length = 8 then some (front, rest)
  else if octets then none
  else
    ((char? ':' rest).bind (char? ':')).map fun rest =>
      let (back, _, rest) := groups true (7 - front.length) rest
      (front ++ List.replicate (8 - front.length - back.length) 0 ++ back, rest)

def port? (cs : List Char) : Option Nat :=
  (char? ':' cs).bind fun cs =>
    match number? 10 portLimit none true cs with
    | some (port, []) => some port
    | _ => none

def scope? : List Char → Reading Nat
  | '%' :: rest => number? 10 scopeLimit none true rest
  | cs => some (0, cs)

def parse? (text : String) : Option SocketAddress :=
  match text.toList with
  | '[' :: cs =>
    (allGroups? cs).bind fun (gs, cs) => (scope? cs).bind fun (scope, cs) =>
      ((char? ']' cs).bind port?).map fun port => v6 gs scope port
  | cs => (octets? cs).bind fun (os, cs) => (port? cs).map fun port => v4 os port

def hex (n : Nat) : String := String.ofList (Nat.toDigits 16 n)

def dotted (octets : List Nat) : String := ".".intercalate (octets.map toString)

/-- The length of the run of zeros at the front. -/
def zeros (gs : List Nat) : Nat := (gs.takeWhile (· = 0)).length

/-- The start and length of the longest run of zeros, the first of several. -/
def longestZeros (gs : List Nat) : Nat × Nat :=
  (List.range gs.length).foldl
    (fun (start, size) i =>
      let n := zeros (gs.drop i)
      if size < n then (i, n) else (start, size))
    (0, 0)

def displayGroups (gs : List Nat) : String :=
  match gs with
  | [0, 0, 0, 0, 0, 0xffff, a, b] => "::ffff:" ++ dotted [a / 256, a % 256, b / 256, b % 256]
  | _ =>
    let joined (part : List Nat) := ":".intercalate (part.map hex)
    let (start, size) := longestZeros gs
    if 1 < size then joined (gs.take start) ++ "::" ++ joined (gs.drop (start + size))
    else joined gs

def port : SocketAddress → Nat
  | v4 _ port => port
  | v6 _ _ port => port

def withPort (port : Nat) : SocketAddress → SocketAddress
  | v4 octets _ => v4 octets port
  | v6 groups scope _ => v6 groups scope port

/-- The four octets that groups may stand for, or else the address itself. -/
def unmapped : SocketAddress → SocketAddress
  | v6 [0, 0, 0, 0, 0, 0xffff, a, b] _ port => v4 [a / 256, a % 256, b / 256, b % 256] port
  | a => a

def display : SocketAddress → String
  | v4 octets port => s!"{dotted octets}:{port}"
  | v6 groups scope port =>
    let zone := if scope = 0 then "" else s!"%{scope}"
    s!"[{displayGroups groups}{zone}]:{port}"

end SocketAddress

end FrameIntake
