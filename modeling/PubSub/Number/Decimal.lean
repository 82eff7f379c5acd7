import PubSub.Text.Basic
/-!
# Decimal notation of integers
-/
namespace PubSub

namespace Decimal

/-- The decimal digits of `n`, without leading zeros. -/
def ofNat (n : Nat) : Text :=
  if n < 10 then [0x30 + n] else ofNat (n / 10) ++ [0x30 + n % 10]
termination_by n
decreasing_by omega

/-- The decimal notation of an integer; a minus sign stands before a negative one. -/
def ofInt : Int → Text
  | .ofNat n => ofNat n
  | .negSucc n => 0x2D :: ofNat (n + 1)

/-- The number that a run of decimal digits stands for. -/
def value (digits : Text) : Nat := digits.foldl (fun n d => 10 * n + (d - 0x30)) 0

/-- The leading decimal digits of a text and what follows them. -/
def spanDigits (t : Text) : Text × Text :=
  (t.takeWhile (fun c => c.IsDigit), t.dropWhile (fun c => c.IsDigit))

theorem length_spanDigits_le (t : Text) : (spanDigits t).2.length ≤ t.length :=
  (List.dropWhile_sublist _).length_le

end Decimal

end PubSub
