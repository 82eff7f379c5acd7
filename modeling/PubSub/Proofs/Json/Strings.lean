import PubSub.Json.Parser
import PubSub.Json.Printer
/-!
# Strings read back

A printed string is scanned as the text it was printed from, up to its own closing quotation mark and no further
(`scanString_escape`). No text is excluded: what is not escaped is read as it stands, surrogates too.
-/
namespace PubSub.Json

theorem hexValue?_hexDigit : ∀ d, d < 16 → CodePoint.hexValue? (CodePoint.hexDigit d) = some d := by decide

theorem hexQuad?_hex {c : Nat} (h : c < 0x10000) :
    hexQuad? (CodePoint.hexDigit (c / 16 / 16 / 16 % 16)) (CodePoint.hexDigit (c / 16 / 16 % 16))
      (CodePoint.hexDigit (c / 16 % 16)) (CodePoint.hexDigit (c % 16)) = some c := by
  have hc : ((c / 16 / 16 / 16 % 16 * 16 + c / 16 / 16 % 16) * 16 + c / 16 % 16) * 16 + c % 16 = c := by omega
  simp [hexQuad?, hexValue?_hexDigit _ (Nat.mod_lt _ (by decide : 0 < 16)), hc]

/-- What a two-letter escape of the printer is read as. -/
theorem unescape?_shortEscape {c : Nat} {e : Text} (h : shortEscape? c = some e) :
    ∃ d, e = [0x5C, d] ∧ d ≠ 0x75 ∧ unescape? d = some c := by
  unfold shortEscape? at h
  repeat' split at h
  case isFalse => cases h
  all_goals
    cases h
    subst_vars
    exact ⟨_, rfl, by decide, by decide⟩

theorem lt_of_no_shortEscape {c : Nat} (h : shortEscape? c = none) : c ≠ 0x22 ∧ c ≠ 0x5C := by
  constructor <;> rintro rfl <;> cases h

/-- An escaped character is read as that character. A `\u` escape is read only if more text follows it. -/
theorem scanString_escape_append (start : Nat) (c : CodePoint) {rest : Text} (hr : rest ≠ []) :
    scanString start (escape c ++ rest) = before c (scanString start rest) := by
  unfold escape
  cases hs : shortEscape? c with
  | some e =>
    obtain ⟨d, rfl, hd, hu⟩ := unescape?_shortEscape hs
    rw [Option.getD_some, scanString.eq_def]
    simp [hd, hu]
  | none =>
    obtain ⟨hq, hb⟩ := lt_of_no_shortEscape hs
    rw [Option.getD_none]
    split
    · next hc =>
      -- A control character goes as four digits, and those are no half of a pair.
      have hx : c < 0x10000 := by
        simp only [CodePoint] at hc ⊢
        omega
      have hh : ¬ CodePoint.IsHighSurrogate c := by
        simp only [CodePoint.IsHighSurrogate, CodePoint] at hc ⊢
        omega
      rw [scanString.eq_def]
      simp [lit, Text.hex, hexQuad?_hex hx, hr, hh]
    · next hc =>
      rw [scanString.eq_def]
      simp [hq, hb, hc]

/-- A printed string ends at its own closing quotation mark. -/
theorem scanString_escape (start : Nat) (t rest : Text) :
    scanString start (t.flatMap escape ++ 0x22 :: rest) = .ok (t, rest) := by
  induction t with
  | nil =>
    rw [List.flatMap_nil, List.nil_append, scanString.eq_def]
    exact if_pos rfl
  | cons c t ih =>
    rw [List.flatMap_cons, List.append_assoc, scanString_escape_append start c (by simp), ih]
    rfl

/-- An escape that is no half of a pair with the next one stands for the code point that its digits are. -/
theorem scanString_unicodeEscape (start : Nat) {h₁ h₂ h₃ h₄ u : CodePoint} {more : Text}
    (hx : hexQuad? h₁ h₂ h₃ h₄ = some u) (hm : more ≠ []) (hl : lowEscape? more = none) :
    scanString start (0x5C :: 0x75 :: h₁ :: h₂ :: h₃ :: h₄ :: more) = before u (scanString start more) := by
  rw [scanString.eq_def]
  dsimp only
  rw [if_neg (by decide), if_pos rfl, if_pos rfl, hx]
  dsimp only
  rw [if_neg hm]
  split
  · split
    · next h =>
      rw [hl] at h
      cases h
    · rfl
  · rfl

theorem lowEscape?_quote (rest : Text) : lowEscape? (0x22 :: rest) = none := by
  unfold lowEscape?
  split
  · next he =>
    obtain ⟨rfl, -⟩ := List.cons.inj he
    exact if_neg (by simp)
  · rfl

end PubSub.Json
