import PubSub.Text.Utf8
/-!
# Which encoding a document is in

A JSON document may come in UTF-8, UTF-16 or UTF-32. A byte order mark decides, and without one the
places of the zero octets among the first four do. The decoders let surrogates pass on their own.
-/
namespace PubSub

/-- The order of octets in a code unit. -/
inductive ByteOrder
  | little
  | big
  deriving DecidableEq

/-- An encoding of a document. `utf8 true` starts with a mark that is no part of the text. -/
inductive Encoding
  | utf8 (marked : Bool)
  | utf16 (order : ByteOrder) (marked : Bool)
  | utf32 (order : ByteOrder) (marked : Bool)
  deriving DecidableEq

namespace Encoding

/-- The encoding of a document without a mark, by its zero octets. -/
def ofZeros : List Nat → Encoding
  | [a, b] =>
    if a = 0 then .utf16 .big false
    else if b = 0 then .utf16 .little false
    else .utf8 false
  | a :: b :: c :: d :: _ =>
    if a = 0 then (if b = 0 then .utf32 .big false else .utf16 .big false)
    else if b = 0 then (if c = 0 ∧ d = 0 then .utf32 .little false else .utf16 .little false)
    else .utf8 false
  | _ => .utf8 false

/-- The encoding of a document. A UTF-32 mark counts before the UTF-16 mark that it may begin with. -/
def detect (octets : List Nat) : Encoding :=
  if octets.take 4 = [0x00, 0x00, 0xFE, 0xFF] then .utf32 .big true
  else if octets.take 4 = [0xFF, 0xFE, 0x00, 0x00] then .utf32 .little true
  else if octets.take 2 = [0xFE, 0xFF] then .utf16 .big true
  else if octets.take 2 = [0xFF, 0xFE] then .utf16 .little true
  else if octets.take 3 = [0xEF, 0xBB, 0xBF] then .utf8 true
  else ofZeros octets

end Encoding

namespace Text

/-- The codec's name as messages write it. -/
def codecName (bits : Text) : ByteOrder → Text
  | .little => lit "utf-" ++ bits ++ lit "-le"
  | .big => lit "utf-" ++ bits ++ lit "-be"

/-- Code units of two octets, with the octet left over. -/
def units16 (order : ByteOrder) : List Nat → List CodePoint × List Nat
  | a :: b :: rest =>
    let (units, left) := units16 order rest
    ((match order with
      | .little => b * 0x100 + a
      | .big => a * 0x100 + b) :: units, left)
  | left => ([], left)

/-- Neighbouring halves make one character; a half on its own stays. -/
def joinPairs : List CodePoint → Text
  | [] => []
  | [u] => [u]
  | u :: v :: rest =>
    if u.IsHighSurrogate ∧ v.IsLowSurrogate then CodePoint.ofPair u v :: joinPairs rest
    else u :: joinPairs (v :: rest)

/-- UTF-16, from octet `position` on. An octet left over is cut off data. -/
def decodeUtf16From (order : ByteOrder) (position : Nat) (octets : List Nat) : Except DecodeFault Text :=
  let (units, left) := units16 order octets
  match left with
  | [] => .ok (joinPairs units)
  | a :: _ =>
    let first := position + 2 * units.length
    .error ⟨codecName (lit "16") order, first, first + 1, a, lit "truncated data"⟩

/-- UTF-32, from octet `position` on. -/
def decodeUtf32From (order : ByteOrder) (position : Nat) : List Nat → Except DecodeFault Text
  | a :: b :: c :: d :: rest =>
    let unit := match order with
      | .little => ((d * 0x100 + c) * 0x100 + b) * 0x100 + a
      | .big => ((a * 0x100 + b) * 0x100 + c) * 0x100 + d
    if unit < 0x110000 then (decodeUtf32From order (position + 4) rest).map (unit :: ·)
    else
      .error ⟨codecName (lit "32") order, position, position + 4, a,
        lit "code point not in range(0x110000)"⟩
  | [] => .ok []
  | a :: left =>
    .error ⟨codecName (lit "32") order, position, position + 1 + left.length, a, lit "truncated data"⟩

/-- The text of a document in an encoding that its first octets give away. Positions of faults count from
the start of the document, or from after a UTF-8 mark. -/
def decodeDetected (bs : Bytes) : Except DecodeFault Text :=
  let octets := bs.map UInt8.toNat
  match Encoding.detect octets with
  | .utf8 marked => decodeUtf8From true 0 (if marked then octets.drop 3 else octets)
  | .utf16 order marked =>
    if marked then decodeUtf16From order 2 (octets.drop 2) else decodeUtf16From order 0 octets
  | .utf32 order marked =>
    if marked then decodeUtf32From order 4 (octets.drop 4) else decodeUtf32From order 0 octets

end Text

end PubSub
