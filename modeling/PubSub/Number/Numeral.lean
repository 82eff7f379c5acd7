import PubSub.Number.Binary64
import PubSub.Number.Decimal
/-!
# Numerals

A numeral is an integer, or with a fraction or an exponent a binary64 number: an optional minus sign, digits
without a leading zero, `.` and digits, `e` with an optional sign and digits.
-/
namespace PubSub

/-- The parts of a numeral; a numeral without fraction and exponent is an integer. -/
structure Numeral where
  negative : Bool
  whole : Text
  fraction? : Option Text
  exponent? : Option Int

namespace Numeral

/-- The digits before the point: a single zero, or digits that start with another. -/
def scanWhole? : Text → Option (Text × Text)
  | [] => none
  | c :: t =>
    if c = 0x30 then some ([c], t)
    else if CodePoint.IsDigit c then some (Decimal.spanDigits (c :: t))
    else none

/-- A point and at least one digit. -/
def scanFraction (t : Text) : Option Text × Text :=
  match t with
  | 0x2E :: u =>
    let (digits, rest) := Decimal.spanDigits u
    if digits = [] then (none, t) else (some digits, rest)
  | _ => (none, t)

/-- An optional sign; the flag tells a minus. -/
def scanSign : Text → Bool × Text
  | c :: t => if c = 0x2D then (true, t) else if c = 0x2B then (false, t) else (false, c :: t)
  | [] => (false, [])

/-- The letter `e`, an optional sign and at least one digit. -/
def scanExponent (t : Text) : Option Int × Text :=
  match t with
  | c :: u =>
    if c = 0x65 ∨ c = 0x45 then
      let (negative, v) := scanSign u
      let (digits, rest) := Decimal.spanDigits v
      if digits = [] then (none, t)
      else
        let size : Int := Decimal.value digits
        (some (if negative then -size else size), rest)
    else (none, t)
  | [] => (none, t)

/-- The longest numeral at the head of a text, and what follows it. -/
def scan? (t : Text) : Option (Numeral × Text) :=
  let (negative, u) := match t with
    | c :: u => if c = 0x2D then (true, u) else (false, t)
    | [] => (false, t)
  (scanWhole? u).map fun (whole, v) =>
    let (fraction?, w) := scanFraction v
    let (exponent?, rest) := scanExponent w
    (⟨negative, whole, fraction?, exponent?⟩, rest)

theorem length_of_scanWhole? {t digits rest : Text} (h : scanWhole? t = some (digits, rest)) :
    rest.length < t.length := by
  unfold scanWhole? at h
  split at h
  · cases h
  · next c u =>
    split at h
    · cases h
      simp
    · split at h
      · next hc =>
        have := Decimal.length_spanDigits_le u
        simp only [Decimal.spanDigits, Option.some.injEq, Prod.mk.injEq] at h this
        obtain ⟨-, rfl⟩ := h
        simp [hc]
        omega
      · cases h

theorem length_scanFraction_le (t : Text) : (scanFraction t).2.length ≤ t.length := by
  unfold scanFraction
  split
  · next u =>
    have := Decimal.length_spanDigits_le u
    by_cases hd : (Decimal.spanDigits u).1 = [] <;> simp [hd]
    omega
  · simp

theorem length_scanSign_le (t : Text) : (scanSign t).2.length ≤ t.length := by
  unfold scanSign
  split
  · split
    · simp
    · split <;> simp
  · simp

theorem length_scanExponent_le (t : Text) : (scanExponent t).2.length ≤ t.length := by
  unfold scanExponent
  split
  · next c u =>
    split
    · have hs := length_scanSign_le u
      have := Decimal.length_spanDigits_le (scanSign u).2
      by_cases hd : (Decimal.spanDigits (scanSign u).2).1 = [] <;> simp [hd]
      omega
    · simp
  · simp

theorem length_of_scan? {t rest : Text} {n : Numeral} (h : scan? t = some (n, rest)) :
    rest.length < t.length := by
  unfold scan? at h
  simp only [Option.map_eq_some_iff] at h
  obtain ⟨⟨digits, v⟩, hw, heq⟩ := h
  have h₁ := length_of_scanWhole? hw
  have h₂ := length_scanFraction_le v
  have h₃ := length_scanExponent_le (scanFraction v).2
  have h₄ : ∀ u : Text, (match u with
      | c :: u' => if c = 0x2D then (true, u') else (false, u)
      | [] => (false, u)).2.length ≤ u.length := by
    intro u
    split
    · split <;> simp
    · simp
  have h₅ := h₄ t
  simp only [Prod.mk.injEq] at heq
  obtain ⟨-, rfl⟩ := heq
  omega

/-- Written without fraction and exponent. -/
def IsInteger (n : Numeral) : Prop := n.fraction? = none ∧ n.exponent? = none

instance (n : Numeral) : Decidable n.IsInteger := inferInstanceAs (Decidable (_ ∧ _))

/-- The integer before the point. -/
def toInt (n : Numeral) : Int :=
  if n.negative then -(Decimal.value n.whole : Int) else Decimal.value n.whole

/-- The binary64 number nearest to the numeral. -/
def toBinary64 (n : Numeral) : Binary64 :=
  let fraction := n.fraction?.getD []
  let digits := (n.whole ++ fraction).dropWhile (· = 0x30)
  let power := n.exponent?.getD 0 - fraction.length
  .signed n.negative (Binary64.rankOfDecimal (Decimal.value digits) digits.length power)

end Numeral

end PubSub
