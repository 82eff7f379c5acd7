import Mathlib.Algebra.Ring.Nat
import Mathlib.Data.List.TakeWhile
import PubSub.Number.Numeral
/-!
# Integers read back from their notation

The decimal notation of an integer is scanned as one numeral, up to whatever follows it (`scan?_ofInt`), and stands
for that integer (`toInt_ofInt`).
-/
namespace PubSub

/-! ## Digits -/

namespace Decimal

theorem isDigit_ofNat {n c : Nat} (h : c ∈ ofNat n) : CodePoint.IsDigit c := by
  have hd : ∀ d : Nat, d < 10 → CodePoint.IsDigit (0x30 + d) := by
    intro d hd
    simp only [CodePoint.IsDigit, CodePoint]
    omega
  fun_induction ofNat n with
  | case1 n hn =>
    rw [List.mem_singleton.1 h]
    exact hd n hn
  | case2 n hn ih =>
    rcases List.mem_append.1 h with h | h
    · exact ih h
    · rw [List.mem_singleton.1 h]
      exact hd (n % 10) (by omega)

/-- The notation starts with a digit, and with a zero only if it is that of zero. -/
theorem ofNat_eq_cons (n : Nat) : ∃ c t, ofNat n = c :: t ∧ CodePoint.IsDigit c ∧ (0 < n → c ≠ 0x30) := by
  fun_induction ofNat n with
  | case1 n hn =>
    refine ⟨0x30 + n, [], rfl, ?_, ?_⟩
    · simp only [CodePoint.IsDigit, CodePoint]
      omega
    · simp only [CodePoint]
      omega
  | case2 n hn ih =>
    obtain ⟨c, t, he, hc, h0⟩ := ih
    exact ⟨c, t ++ [0x30 + n % 10], by rw [he]; rfl, hc, fun _ => h0 (by omega)⟩

/-- There are as many digits as powers of ten say. -/
theorem length_ofNat_le_iff {n k : Nat} (hk : 0 < k) : (ofNat n).length ≤ k ↔ n < 10 ^ k := by
  fun_induction ofNat n generalizing k with
  | case1 n hn =>
    have hp : 10 ≤ 10 ^ k := Nat.le_self_pow (by omega) 10
    exact ⟨fun _ => by omega, fun _ => hk⟩
  | case2 n hn ih =>
    obtain ⟨c, t, he, -⟩ := ofNat_eq_cons (n / 10)
    obtain ⟨k, rfl⟩ := Nat.exists_eq_succ_of_ne_zero (Nat.ne_of_gt hk)
    rw [List.length_append, List.length_singleton, Nat.succ_le_succ_iff]
    cases k with
    | zero =>
      rw [he]
      exact ⟨nofun, fun h => absurd h hn⟩
    | succ k => rw [ih k.succ_pos, Nat.div_lt_iff_lt_mul (by decide), ← Nat.pow_succ]

theorem value_append_singleton (ds : Text) (d : CodePoint) : value (ds ++ [d]) = 10 * value ds + (d - 0x30) := by
  simp [value]

theorem value_ofNat (n : Nat) : value (ofNat n) = n := by
  fun_induction ofNat n with
  | case1 n hn => simp [value]
  | case2 n hn ih =>
    rw [value_append_singleton, ih]
    simp only [CodePoint]
    omega

/-- A run of digits stands for less than the power of ten of its length. -/
theorem value_lt {ds : Text} (h : ∀ c ∈ ds, CodePoint.IsDigit c) : value ds < 10 ^ ds.length := by
  have hf : ∀ n, ds.foldl (fun n d => 10 * n + (d - 0x30)) n < (n + 1) * 10 ^ ds.length := by
    induction ds with
    | nil => simp
    | cons d ds ih =>
      intro n
      have hd := h d List.mem_cons_self
      have hn : 10 * n + (d - 0x30) + 1 ≤ (n + 1) * 10 := by
        simp only [CodePoint.IsDigit, CodePoint] at hd ⊢
        omega
      rw [List.foldl_cons, List.length_cons, Nat.pow_succ']
      calc _ < (10 * n + (d - 0x30) + 1) * 10 ^ ds.length := ih (fun c hc => h c (List.mem_cons_of_mem _ hc)) _
        _ ≤ (n + 1) * 10 * 10 ^ ds.length := Nat.mul_le_mul_right _ hn
        _ = _ := Nat.mul_assoc _ _ _
  simpa [value] using hf 0

theorem isDigit_spanDigits {t : Text} {c : CodePoint} (h : c ∈ (spanDigits t).1) : c.IsDigit := by
  simpa using List.mem_takeWhile_imp (show c ∈ t.takeWhile fun c => c.IsDigit from h)

/-- Digits are spanned up to what follows, if no digit follows. -/
theorem spanDigits_append {ds rest : Text} (hds : ∀ c ∈ ds, CodePoint.IsDigit c)
    (hrest : ∀ c ∈ rest.head?, ¬ CodePoint.IsDigit c) : spanDigits (ds ++ rest) = (ds, rest) := by
  have hp : ∀ c ∈ ds, decide (CodePoint.IsDigit c) = true := by
    intro c hc
    exact decide_eq_true (hds c hc)
  have hr : rest.takeWhile (fun c => CodePoint.IsDigit c) = [] ∧
      rest.dropWhile (fun c => CodePoint.IsDigit c) = rest := by
    cases rest with
    | nil => exact ⟨rfl, rfl⟩
    | cons c rest =>
      have hc : decide (CodePoint.IsDigit c) = false := decide_eq_false (hrest c rfl)
      exact ⟨List.takeWhile_cons_of_neg (by simp [hc]), List.dropWhile_cons_of_neg (by simp [hc])⟩
  rw [spanDigits, List.takeWhile_append_of_pos hp, List.dropWhile_append_of_pos hp, hr.1, hr.2, List.append_nil]

end Decimal

/-! ## Numerals -/

namespace Numeral

/-- No numeral goes on into the rest. -/
def StopsBefore (rest : Text) : Prop :=
  ∀ c ∈ rest.head?, ¬ CodePoint.IsDigit c ∧ c ≠ 0x2E ∧ c ≠ 0x65 ∧ c ≠ 0x45

theorem stopsBefore_nil : StopsBefore [] := by simp [StopsBefore]

theorem stopsBefore_cons {c : CodePoint} (h : ¬ CodePoint.IsDigit c ∧ c ≠ 0x2E ∧ c ≠ 0x65 ∧ c ≠ 0x45) (rest : Text) :
    StopsBefore (c :: rest) := by
  simpa [StopsBefore] using h

theorem scanWhole?_ofNat (n : Nat) {rest : Text} (h : StopsBefore rest) :
    scanWhole? (Decimal.ofNat n ++ rest) = some (Decimal.ofNat n, rest) := by
  rcases Nat.eq_zero_or_pos n with rfl | hn
  · rw [show Decimal.ofNat 0 = [0x30] by rw [Decimal.ofNat]; rfl]
    rfl
  · obtain ⟨c, t, he, hc, h0⟩ := Decimal.ofNat_eq_cons n
    have hspan := Decimal.spanDigits_append (fun _ => Decimal.isDigit_ofNat (n := n)) fun c hc => (h c hc).1
    rw [he, List.cons_append] at hspan ⊢
    rw [scanWhole?, if_neg (h0 hn), if_pos hc, hspan]

theorem scanFraction_of_stops {rest : Text} (h : StopsBefore rest) : scanFraction rest = (none, rest) := by
  unfold scanFraction
  split
  · exact absurd rfl (h 0x2E rfl).2.1
  · rfl

theorem scanExponent_of_stops {rest : Text} (h : StopsBefore rest) : scanExponent rest = (none, rest) := by
  cases rest with
  | nil => rfl
  | cons c rest =>
    obtain ⟨-, -, h1, h2⟩ := h c rfl
    rw [scanExponent, if_neg (not_or_intro h1 h2)]

/-- The notation of an integer is one numeral, however the text goes on after it. -/
theorem scan?_ofInt (i : Int) {rest : Text} (h : StopsBefore rest) :
    scan? (Decimal.ofInt i ++ rest) = some (⟨decide (i < 0), Decimal.ofNat i.natAbs, none, none⟩, rest) := by
  cases i with
  | ofNat n =>
    obtain ⟨c, t, he, hc, -⟩ := Decimal.ofNat_eq_cons n
    have hm : c ≠ 0x2D := by
      rintro rfl
      exact absurd hc (by decide)
    have hw := scanWhole?_ofNat n h
    rw [he, List.cons_append] at hw
    simp [Decimal.ofInt, scan?, he, hm, hw, scanFraction_of_stops h, scanExponent_of_stops h]
  | negSucc n =>
    simp [Decimal.ofInt, scan?, scanWhole?_ofNat (n + 1) h, scanFraction_of_stops h, scanExponent_of_stops h]

theorem toInt_ofInt (i : Int) (fraction? : Option Text) (exponent? : Option Int) :
    toInt ⟨decide (i < 0), Decimal.ofNat i.natAbs, fraction?, exponent?⟩ = i := by
  simp only [toInt, Decimal.value_ofNat, decide_eq_true_eq]
  split <;> omega

/-- A numeral has nothing but digits before its point. -/
theorem isDigit_of_scan? {t rest : Text} {n : Numeral} (h : scan? t = some (n, rest)) :
    ∀ c ∈ n.whole, CodePoint.IsDigit c := by
  simp only [scan?, Option.map_eq_some_iff] at h
  obtain ⟨⟨whole, v⟩, hw, he⟩ := h
  obtain rfl : whole = n.whole := by
    cases he
    rfl
  intro c hc
  generalize n.whole = ds at hw hc
  unfold scanWhole? at hw
  split at hw
  · cases hw
  · split at hw
    · next hz =>
      cases hw
      rw [List.mem_singleton.1 hc, hz]
      decide
    · split at hw
      · obtain ⟨rfl, -⟩ := Prod.mk.inj (Option.some.inj hw)
        exact Decimal.isDigit_spanDigits (show c ∈ (Decimal.spanDigits (_ :: _)).1 from hc)
      · cases hw

/-- An integer has no more digits than it was written with. -/
theorem natAbs_toInt_lt {t rest : Text} {n : Numeral} (h : scan? t = some (n, rest)) :
    n.toInt.natAbs < 10 ^ n.whole.length := by
  have hv := Decimal.value_lt (isDigit_of_scan? h)
  unfold toInt
  split <;> simpa using hv

end Numeral

end PubSub
