import PubSub.Number.Numeral
import PubSub.Text.Blank
/-!
# Integers written as texts

An integer in plain form is a minus sign or none and at most `sizeLimit` digits without a leading zero. A text may be
looser than that: it may have white space around it, a plus sign, leading zeros, a fraction of zeros, and underscores,
one at a time between digits but any number of them among the leading zeros. A minus sign may also stand after leading
zeros. `tidy?` brings a text nearer to the plain form, and `parse` reads what is plain then.
-/
namespace PubSub.IntegerText

/-- The most digits that the plain form of an integer has. -/
def sizeLimit : Nat := 4300

/-- The integer that a text in plain form stands for. -/
def plain? (t : Text) : Option Int :=
  match Numeral.scan? t with
  | some (n, []) => if n.IsInteger ∧ n.whole.length ≤ sizeLimit then some n.toInt else none
  | _ => none

/-- A text that begins like the plain form of an integer, but goes on for too long. -/
def Overlong (t : Text) : Prop :=
  match Numeral.scan? t with
  | some (n, _) => sizeLimit < n.whole.length
  | none => False

instance (t : Text) : Decidable (Overlong t) := by
  unfold Overlong
  cases Numeral.scan? t <;> infer_instance

/-- What follows leading zeros and the underscores among them; `last` is the character before. Of zeros alone the
last character stays, and before a point so does the one in front of it. -/
def afterZeros? (last : CodePoint) : Text → Option Text
  | [] => some [last]
  | c :: t =>
    if c = 0x30 ∨ c = 0x5F then afterZeros? c t
    else if CodePoint.IsDigit c ∨ c = 0x2D then some (c :: t)
    else if c = 0x2E then some (last :: c :: t)
    else none

/-- A text without its leading zeros, if it can be an integer by its beginning. -/
def dropLeadingZeros? : Text → Option Text
  | [] => none
  | c :: t =>
    if c = 0x30 then afterZeros? c t
    else if CodePoint.IsDigit c ∨ c = 0x2D then some (c :: t)
    else none

/-- The part before a point that only zeros follow; a text without a point as it is. -/
def dropZeroFraction? (t : Text) : Option Text :=
  match t.dropWhile (· ≠ 0x2E) with
  | [] => some t
  | _ :: fraction =>
    if fraction ≠ [] ∧ ∀ c ∈ fraction, c = 0x30 then some (t.takeWhile (· ≠ 0x2E)) else none

/-- A text without its underscores, each of which stands alone between two other characters. -/
def dropUnderscores? : Text → Option Text
  | [] => none
  | [c] => if c = 0x5F then none else some [c]
  | c :: d :: t =>
    if c = 0x5F then none
    else (if d = 0x5F then dropUnderscores? t else dropUnderscores? (d :: t)).map (c :: ·)

/-- A text without sign, made plainer. -/
def tidyUnsigned? (t : Text) : Option Text := do
  let digits ← dropLeadingZeros? t
  let whole ← dropZeroFraction? digits
  dropUnderscores? whole

/-- A text made plainer. A sign is taken off first, and a minus sign put back on. -/
def tidy? (t : Text) : Option Text :=
  match Text.trimWhiteSpace t with
  | 0x2B :: 0x2D :: _ => none
  | 0x2B :: unsigned => tidyUnsigned? unsigned
  | 0x2D :: unsigned => (tidyUnsigned? unsigned).map (0x2D :: ·)
  | unsigned => tidyUnsigned? unsigned

inductive Fault
  | unclear
  | tooLong
  deriving DecidableEq

/-- The integer that a text stands for. Only a text that is plain as it stands is told to be too long. -/
def parse (t : Text) : Except Fault Int :=
  if Overlong t then .error .tooLong
  else
    match (tidy? t).bind plain? with
    | some i => .ok i
    | none => .error .unclear

end PubSub.IntegerText
