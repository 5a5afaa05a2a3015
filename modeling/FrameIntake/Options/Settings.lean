import FrameIntake.Options.Basic

/-!
Options read from named values. A name may be given once, has to be that of an option, and its value
has to be of the option's type. Values without names go to the options in their order.
-/

namespace FrameIntake

inductive Setting
  | text (text : String)
  | integer (value : Int)
  /-- No value at all. -/
  | empty
  /-- A value of a type that no option has. -/
  | unusable
  deriving DecidableEq, Repr

namespace Options

def signedWord? (n : Int) : Option Int := if Text.fitsSigned n then some n else none

def word? (n : Int) : Option Nat := if 0 ≤ n ∧ n < wordLimit then some n.toNat else none

def set? (o : Options) (name : String) (value : Setting) : Option Options :=
  match name, value with
  | "Address", .text t => some { o with address := t }
  | "Partitioner", .text t => some { o with partitioner := t }
  | "Delimiter", .text t => some { o with delimiter := t }
  | "Stream", .text t => some { o with stream := t }
  | "Offset", .integer n => (signedWord? n).map fun offset => { o with offset }
  | "Size", .integer n => (signedWord? n).map fun size => { o with size := some size }
  | "Size", .empty => some { o with size := none }
  | "MaxMessageSize", .integer n => (word? n).map fun maxMessageSize => { o with maxMessageSize }
  | _, _ => none

/-- The options with the given values; the others keep their defaults. -/
def ofSettings? (settings : List (String × Setting)) : Option Options :=
  (settings.foldlM (fun (o : Options) (name, value) => o.set? name value) {}).filter fun _ =>
    (settings.map Prod.fst).Nodup

/-- The names of all options, in their order. -/
def names : List String :=
  ["Address", "Partitioner", "Delimiter", "Offset", "Size", "Stream", "MaxMessageSize"]

/-- The first options have the given values. -/
def ofValues? (values : List Setting) : Option Options :=
  if values.length ≤ names.length then ofSettings? (names.zip values) else none

end Options

end FrameIntake
