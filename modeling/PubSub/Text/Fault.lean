import PubSub.Error.Class
import PubSub.Number.Decimal
import PubSub.Text.Quoted
import PubSub.Text.Utf8
/-!
# Wording of encoding faults
-/
namespace PubSub

/-- One place, or the first and last place of a run. -/
def positionRange (first stop : Nat) : Text :=
  if stop = first + 1 then lit " in position " ++ Decimal.ofNat first
  else lit "s in position " ++ Decimal.ofNat first ++ lit "-" ++ Decimal.ofNat (stop - 1)

/-- The wording of a refusal to encode: a single code point is shown, a run is not. -/
def EncodeFault.message (f : EncodeFault) : Text :=
  let head := lit "'" ++ f.codec ++ lit "' codec can't encode character"
  let shown := if f.stop = f.first + 1 then lit " '" ++ Text.numericEscape f.codePoint ++ lit "'" else []
  head ++ shown ++ positionRange f.first f.stop ++ lit ": " ++ f.reason

def EncodeFault.errorClass (_ : EncodeFault) : ErrorClass := .unicodeEncode

/-- The wording of a refusal to decode: a single octet is shown, a run is not. -/
def DecodeFault.message (f : DecodeFault) : Text :=
  let head := lit "'" ++ f.codec ++ lit "' codec can't decode byte"
  let shown := if f.stop = f.first + 1 then lit " 0x" ++ Text.hex 2 f.octet else []
  head ++ shown ++ positionRange f.first f.stop ++ lit ": " ++ f.reason

def DecodeFault.errorClass (_ : DecodeFault) : ErrorClass := .unicodeDecode

end PubSub
