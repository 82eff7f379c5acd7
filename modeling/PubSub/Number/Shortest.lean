import PubSub.Number.Binary64
import PubSub.Number.Decimal
/-!
# The shortest notation of a binary64 number

A number is written with the fewest decimal digits that read back as the same number, and among those with
the digits nearest to it; where two are equally near, the last digit is even. Magnitudes from `10^-4` up to `10^16`
are written positionally, with a digit after the point; others with an exponent of at least two digits.
-/
namespace PubSub

namespace Binary64

/-- `digits · 10 ^ power` reads back as `rank`. -/
def readsBack (rank digits : Nat) (power : Int) : Bool :=
  let (num, den) := scaled 10 digits 1 power
  rankOf num den = rank

/-- Whether `n / d` rounds down to a whole number: the one below is the nearer one, or it is as near as the
one above and is even. -/
def roundsDown (n d : Nat) : Bool := 2 * (n % d) < d || (2 * (n % d) = d && n / d % 2 = 0)

/-- The point of the decimal grid of step `10 ^ power` that reads back as `rank`. If both neighbours of
`num / den` do, it is the one that `num / den` rounds to. -/
def onGrid? (rank num den : Nat) (power : Int) : Option Nat :=
  let (n, d) := scaled 10 num den (-power)
  let below := n / d
  let above := below + 1
  let nearer := if roundsDown n d then below else above
  let farther := if roundsDown n d then above else below
  if readsBack rank nearer power then some nearer
  else if readsBack rank farther power then some farther
  else none

/-- The least `p` with `num / den < 10 ^ p`. -/
def decimalOrder (num den : Nat) : Int :=
  -- `0.30103` is the decimal logarithm of two. What rounding loses is made up in at most four steps.
  let guess : Int := (Int.ofNat num.log2 - Int.ofNat den.log2) * 30103 / 100000 - 1
  let below (p : Int) : Bool :=
    let (n, d) := scaled 10 num den (-p)
    n < d
  ((List.range 4).map (guess + Int.ofNat ·)).find? below |>.getD (guess + 4)

/-- Digits and power of ten of a finite, positive rank: the coarsest grid with a point that reads back. -/
def shortestDigits (rank : Nat) : Nat × Int :=
  let (num, den) := quotient rank
  let order := decimalOrder num den
  let tries := (List.range 17).findSome? fun i =>
    let power := order - 1 - Int.ofNat i
    (onGrid? rank num den power).map (·, power)
  tries.getD (0, 0)

/-- A digit run without its trailing zeros. -/
def dropTrailingZeros (digits : Text) : Text := (digits.reverse.dropWhile (· = 0x30)).reverse

/-- The digits `ds`, of which the first has the weight `10 ^ order`, in positional notation. -/
def positional (ds : Text) (order : Int) : Text :=
  if order < 0 then lit "0." ++ List.replicate (-order - 1).toNat 0x30 ++ ds
  else
    let whole := order.toNat + 1
    let padded := ds ++ List.replicate (whole - ds.length) 0x30
    let fraction := padded.drop whole
    padded.take whole ++ lit "." ++ (if fraction = [] then lit "0" else fraction)

/-- The digits `ds`, of which the first has the weight `10 ^ order`, with an exponent. -/
def exponential (ds : Text) (order : Int) : Text :=
  let point := match ds with
    | d :: e :: rest => d :: 0x2E :: e :: rest
    | short => short
  let size := Decimal.ofNat order.natAbs
  let padded := if size.length < 2 then 0x30 :: size else size
  point ++ lit "e" ++ (if order < 0 then lit "-" else lit "+") ++ padded

def magnitudeText (rank : Nat) : Text :=
  if rank = 0 then lit "0.0"
  else
    let (digits, power) := shortestDigits rank
    let written := Decimal.ofNat digits
    let order := power + written.length - 1
    let ds := dropTrailingZeros written
    if -4 ≤ order ∧ order < 16 then positional ds order else exponential ds order

/-- The notation of a number, with the words in use for infinity and `nan`. -/
def textWith (infinityWord nanWord : Text) : Binary64 → Text
  | .nan => nanWord
  | .signed negative rank =>
    let magnitude := if rank < infiniteRank then magnitudeText rank else infinityWord
    if negative then 0x2D :: magnitude else magnitude

/-- The notation in messages. -/
def toText : Binary64 → Text := textWith (lit "inf") (lit "nan")

end Binary64

end PubSub
