import PubSub.Error.Class
import PubSub.Json.Parser
import PubSub.Text.Encoding
import PubSub.Text.Fault
import PubSub.Value.Basic
/-!
# JSON documents as texts and octets

A document comes as a text, or as octets whose encoding is found out. Errors name the place of the fault by
line, column and offset.
-/
namespace PubSub.Json

inductive ReadError
  | notText (kind : Text)
  | undecodable (fault : DecodeFault)
  | malformed (problem : Problem) (line column offset : Nat)
  | tooLong (digits : Nat)
  deriving DecidableEq

def Problem.message : Problem → Text
  | .value => lit "Expecting value"
  | .name => lit "Expecting property name enclosed in double quotes"
  | .colon => lit "Expecting ':' delimiter"
  | .comma => lit "Expecting ',' delimiter"
  | .unterminated => lit "Unterminated string starting at"
  | .control => lit "Invalid control character at"
  | .escape => lit "Invalid \\escape"
  | .unicodeEscape => lit "Invalid \\uXXXX escape"
  | .trailing => lit "Extra data"
  | .byteOrderMark => lit "Unexpected UTF-8 BOM (decode using utf-8-sig)"

def ReadError.message : ReadError → Text
  | .notText kind => lit "the JSON object must be str, bytes or bytearray, not " ++ kind
  | .undecodable fault => fault.message
  | .malformed problem line column offset =>
    problem.message ++ lit ": line " ++ Decimal.ofNat line ++ lit " column " ++ Decimal.ofNat column
      ++ lit " (char " ++ Decimal.ofNat offset ++ lit ")"
  | .tooLong digits =>
    lit "Exceeds the limit (" ++ Decimal.ofNat maxDigits
      ++ lit " digits) for integer string conversion: value has " ++ Decimal.ofNat digits
      ++ lit " digits; use sys.set_int_max_str_digits() to increase the limit"

def ReadError.errorClass : ReadError → ErrorClass
  | .notText _ => .type
  | .undecodable fault => fault.errorClass
  | .malformed .. => .jsonDecode
  | .tooLong _ => .value

/-- A fault in a text as an error: lines and columns count from one, and a line feed ends a line. -/
def locate (t : Text) : Fault → ReadError
  | .tooLong digits => .tooLong digits
  | .wrong problem left =>
    let offset := t.length - left
    let seen := t.take offset
    .malformed problem (seen.count 0x0A + 1) ((seen.reverse.takeWhile (· ≠ 0x0A)).length + 1) offset

/-- The document that a text is. A byte order mark belongs to octets, so a text has none. -/
def readText (t : Text) : Except ReadError Json := (parseUnmarked t).mapError (locate t)

/-- The document that octets are, after the mark that told their encoding. -/
def readBytes (bs : Bytes) : Except ReadError Json :=
  match Text.decodeDetected bs with
  | .ok t => (parse t).mapError (locate t)
  | .error fault => .error (.undecodable fault)

/-- The document that a value holds as a text or as octets. -/
def read : Value → Except ReadError Json
  | .text t => readText t
  | .bytes bs => readBytes bs
  | v => .error (.notText v.kind)

mutual

def toValue : Json → Value
  | .null => .none
  | .bool b => .bool b
  | .int i => .int i
  | .float x => .float x
  | .str t => .text t
  | .arr items => .list (toValues items)
  | .obj members => .mapping (toEntries members)

def toValues : List Json → List Value
  | [] => []
  | j :: js => toValue j :: toValues js

def toEntries : List (Text × Json) → List (Value × Value)
  | [] => []
  | (k, j) :: ms => (.text k, toValue j) :: toEntries ms

end

end PubSub.Json
