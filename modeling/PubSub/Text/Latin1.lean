import PubSub.Text.Utf8
/-!
# Latin-1

One octet for each of the first 256 code points; all others are refused.
-/
namespace PubSub.Text

/-- The Latin-1 octets of a text. -/
def encodeLatin1 (t : Text) : Except EncodeFault Bytes :=
  let carried (c : CodePoint) : Bool := c < 0x100
  match firstRefused (lit "latin-1") (lit "ordinal not in range(256)") carried (fun c => !carried c) 0 t with
  | some fault => .error fault
  | none => .ok (t.map UInt8.ofNat)

end PubSub.Text
