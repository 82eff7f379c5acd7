import PubSub.Text.Basic
/-!
# Blank space

Two sets of blank characters are in use. Names and placeholders count the information separators
`U+001C`..`U+001F` as blank; numbers written as text follow Unicode's `White_Space`, which does not.
-/
namespace PubSub

namespace CodePoint

/-- Unicode's `White_Space` property. -/
def IsWhiteSpace (c : CodePoint) : Prop :=
  (0x09 ≤ c ∧ c ≤ 0x0D) ∨ c = 0x20 ∨ c = 0x85 ∨ c = 0xA0 ∨ c = 0x1680 ∨ (0x2000 ≤ c ∧ c ≤ 0x200A)
    ∨ c = 0x2028 ∨ c = 0x2029 ∨ c = 0x202F ∨ c = 0x205F ∨ c = 0x3000

instance (c : CodePoint) : Decidable c.IsWhiteSpace := inferInstanceAs (Decidable (_ ∨ _))

/-- White space or an information separator. -/
def IsBlank (c : CodePoint) : Prop := c.IsWhiteSpace ∨ (0x1C ≤ c ∧ c ≤ 0x1F)

instance (c : CodePoint) : Decidable c.IsBlank := inferInstanceAs (Decidable (_ ∨ _))

end CodePoint

namespace Text

/-- Nothing but blanks, the empty text included. -/
def Blank (t : Text) : Prop := ∀ c ∈ t, CodePoint.IsBlank c

instance (t : Text) : Decidable (Blank t) := inferInstanceAs (Decidable (∀ c ∈ t, _))

/-- The text without what satisfies `p` at either end. -/
def trimBy (p : CodePoint → Bool) (t : Text) : Text :=
  ((t.dropWhile p).reverse.dropWhile p).reverse

/-- The text without the blanks at either end. -/
def trim (t : Text) : Text := trimBy (fun c => c.IsBlank) t

/-- The text without the white space at either end. -/
def trimWhiteSpace (t : Text) : Text := trimBy (fun c => c.IsWhiteSpace) t

end Text

end PubSub
