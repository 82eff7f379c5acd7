import PubSub.Text.Printable
/-!
# Quoted text

How messages show a text or a run of octets: between quotes, with everything that would not print written
as an escape.
-/
namespace PubSub

namespace Text

/-- The apostrophe, unless the text has apostrophes and no quotation mark. -/
def quoteMark (t : List Nat) : CodePoint := if 0x27 ∈ t ∧ 0x22 ∉ t then 0x22 else 0x27

/-- The escape of `c` by its number, as short as its size allows. -/
def numericEscape (c : CodePoint) : Text :=
  if c ≤ 0xFF then lit "\\x" ++ hex 2 c
  else if c ≤ 0xFFFF then lit "\\u" ++ hex 4 c
  else lit "\\U" ++ hex 8 c

/-- The backslash, the mark in use, tab, line feed and carriage return have short escapes. -/
def shortEscape? (mark c : CodePoint) : Option Text :=
  if c = mark ∨ c = 0x5C then some [0x5C, c]
  else if c = 0x09 then some (lit "\\t")
  else if c = 0x0A then some (lit "\\n")
  else if c = 0x0D then some (lit "\\r")
  else none

def quoted (t : Text) : Text :=
  let mark := quoteMark t
  let shown (c : CodePoint) : Text :=
    (shortEscape? mark c).getD (if c.IsPrintable then [c] else numericEscape c)
  [mark] ++ t.flatMap shown ++ [mark]

end Text

/-- A run of octets between quotes, after the letter `b`; ASCII characters stand for themselves. -/
def Bytes.quoted (bs : Bytes) : Text :=
  let octets := bs.map UInt8.toNat
  let mark := Text.quoteMark octets
  let shown (c : Nat) : Text :=
    (Text.shortEscape? mark c).getD (if 0x20 ≤ c ∧ c < 0x7F then [c] else Text.numericEscape c)
  lit "b" ++ [mark] ++ octets.flatMap shown ++ [mark]

end PubSub
