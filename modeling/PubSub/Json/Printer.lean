import PubSub.Error.Class
import PubSub.Json.Basic
import PubSub.Number.Shortest
/-!
# Writing JSON

The compact form: no blanks, members in order, and of the characters in a string only the quotation mark, the
backslash and the controls below `U+0020` escaped. A document with an integer of too many digits is not written.
-/
namespace PubSub.Json

/-- The two-letter escapes. -/
def shortEscape? (c : CodePoint) : Option Text :=
  if c = 0x22 then some (lit "\\\"")
  else if c = 0x5C then some (lit "\\\\")
  else if c = 0x08 then some (lit "\\b")
  else if c = 0x0C then some (lit "\\f")
  else if c = 0x0A then some (lit "\\n")
  else if c = 0x0D then some (lit "\\r")
  else if c = 0x09 then some (lit "\\t")
  else none

def escape (c : CodePoint) : Text :=
  (shortEscape? c).getD (if c < 0x20 then lit "\\u" ++ Text.hex 4 c else [c])

def printString (t : Text) : Text := 0x22 :: (t.flatMap escape ++ [0x22])

/-- A binary64 number, with the words `Infinity` and `NaN`. -/
def printFloat : Binary64 → Text := Binary64.textWith (lit "Infinity") (lit "NaN")

mutual

/-- The compact form of a document. -/
def print : Json → Text
  | .null => lit "null"
  | .bool b => if b then lit "true" else lit "false"
  | .int i => Decimal.ofInt i
  | .float x => printFloat x
  | .str t => printString t
  | .arr items => 0x5B :: (printItems items ++ [0x5D])
  | .obj members => 0x7B :: (printMembers members ++ [0x7D])

def printItems : List Json → Text
  | [] => []
  | [j] => print j
  | j :: js => print j ++ 0x2C :: printItems js

def printMembers : List (Text × Json) → Text
  | [] => []
  | [(k, j)] => printString k ++ 0x3A :: print j
  | (k, j) :: ms => printString k ++ 0x3A :: (print j ++ 0x2C :: printMembers ms)

end

/-- An integer of more digits than are written. -/
def IsLong (i : Int) : Prop := maxDigits < (Decimal.ofNat i.natAbs).length

instance (i : Int) : Decidable (IsLong i) := inferInstanceAs (Decidable (_ < _))

mutual

/-- Some integer of the document is too long. -/
def hasLong : Json → Bool
  | .int i => IsLong i
  | .arr items => hasLongItem items
  | .obj members => hasLongMember members
  | _ => false

def hasLongItem : List Json → Bool
  | [] => false
  | j :: js => hasLong j || hasLongItem js

def hasLongMember : List (Text × Json) → Bool
  | [] => false
  | (_, j) :: ms => hasLong j || hasLongMember ms

end

inductive WriteError
  | tooLong
  deriving DecidableEq

def WriteError.message : WriteError → Text
  | .tooLong =>
    lit "Exceeds the limit (" ++ Decimal.ofNat maxDigits
      ++ lit " digits) for integer string conversion; use sys.set_int_max_str_digits() to increase the limit"

def WriteError.errorClass : WriteError → ErrorClass
  | .tooLong => .value

/-- The compact form of a document, if its integers can be written. -/
def write (j : Json) : Except WriteError Text := if j.hasLong then .error .tooLong else .ok j.print

end PubSub.Json
