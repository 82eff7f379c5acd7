/-!
# Binary64 numbers

A number of the IEEE 754 format is a sign and a *rank*: the place of its magnitude among all magnitudes,
counted from zero upward. Ranks below `2^52` are the subnormal numbers, each further block of `2^52` ranks
has one exponent, and the rank after the largest finite one is infinity. All arithmetic is exact.
-/
namespace PubSub

/-- A binary64 number; `rank` is the place of its magnitude among all magnitudes. -/
inductive Binary64
  | nan
  | signed (negative : Bool) (rank : Nat)
  deriving DecidableEq

namespace Binary64

/-- The ranks that share an exponent, `2^52`. -/
def block : Nat := 0x10000000000000

/-- A quotient multiplied by `base ^ power`. -/
def scaled (base num den : Nat) (power : Int) : Nat × Nat :=
  (num * Nat.pow base power.toNat, den * Nat.pow base (-power).toNat)

def infiniteRank : Nat := 2047 * block

def infinity : Binary64 := .signed false infiniteRank

def negInfinity : Binary64 := .signed true infiniteRank

/-- The magnitude of a finite rank is `significand · 2 ^ exponent`. -/
def significand (rank : Nat) : Nat := if rank < 2 * block then rank else rank % block + block

/-- See `significand`. -/
def exponent (rank : Nat) : Int := if rank < 2 * block then -1074 else rank / block - 1075

/-- A finite magnitude as a quotient of two naturals. -/
def quotient (rank : Nat) : Nat × Nat := scaled 2 (significand rank) 1 (exponent rank)

/-- `num / den` to the nearest natural, a half to the even neighbour. -/
def roundHalfEven (num den : Nat) : Nat :=
  let q := num / den
  let r := num % den
  if 2 * r < den then q
  else if den < 2 * r then q + 1
  else if q % 2 = 0 then q else q + 1

/-- The least exponent of a significand below `2^53` for a magnitude of `num / den`, not below `-1074`. -/
def exponentFor (num den : Nat) : Int :=
  -- Both logarithms are rounded down, so the guess is right or one too small.
  let guess : Int := Int.ofNat num.log2 - Int.ofNat den.log2 - 53
  let fits (e : Int) : Bool :=
    let (n, d) := scaled 2 num den (-e)
    n < d * (2 * block)
  let e := if fits guess then guess else guess + 1
  max e (-1074)

/-- The rank nearest to `num / den`, a half to the even neighbour. Beyond the largest finite magnitude
lies infinity. -/
def rankOf (num den : Nat) : Nat :=
  if num = 0 then 0
  else
    let e := exponentFor num den
    let (n, d) := scaled 2 num den (-e)
    -- One step of the exponent passes over one block of ranks.
    min (roundHalfEven n d + (e + 1074).toNat * block) infiniteRank

/-- The rank nearest to `digits · 10 ^ power`, where `digits` has `count` decimal digits, the first not
zero. Magnitudes far outside the format's range are not computed. -/
def rankOfDecimal (digits count : Nat) (power : Int) : Nat :=
  if digits = 0 ∨ power + count < -400 then 0
  else if 400 < power + count then infiniteRank
  else
    let (num, den) := scaled 10 digits 1 power
    rankOf num den

/-- The integer that a finite number without fraction is equal to. -/
def toInt? : Binary64 → Option Int
  | .nan => none
  | .signed negative rank =>
    if rank < infiniteRank then
      let (num, den) := quotient rank
      if num % den = 0 then some (if negative then -(num / den : Int) else (num / den : Int)) else none
    else none

def IsFinite : Binary64 → Prop
  | .nan => False
  | .signed _ rank => rank < infiniteRank

instance : (x : Binary64) → Decidable x.IsFinite
  | .nan => inferInstanceAs (Decidable False)
  | .signed _ rank => inferInstanceAs (Decidable (rank < infiniteRank))

/-- Zero of either sign. -/
def IsZero : Binary64 → Prop
  | .nan => False
  | .signed _ rank => rank = 0

instance : (x : Binary64) → Decidable x.IsZero
  | .nan => inferInstanceAs (Decidable False)
  | .signed _ rank => inferInstanceAs (Decidable (rank = 0))

/-- Equality of numbers: zeros are equal, and `nan` equals nothing. -/
def same : Binary64 → Binary64 → Bool
  | .signed s r, .signed t q => r = q && (s = t || r = 0)
  | _, _ => false

end Binary64

end PubSub
