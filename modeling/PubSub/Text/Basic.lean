/-!
# Text

A text is a list of code points. Surrogates may stand in it on their own: such a text can be named and
quoted, but no UTF-8 carries it. `Encodable` says which texts UTF-8 carries.
-/
namespace PubSub

/-- A code point, a number below `0x110000`. -/
abbrev CodePoint := Nat

/-- A text, surrogates allowed. -/
abbrev Text := List CodePoint

/-- A run of octets. -/
abbrev Bytes := List UInt8

/-- The text that a string literal stands for. -/
def lit (s : String) : Text := s.toList.map Char.toNat

namespace CodePoint

/-- One half of a UTF-16 pair, which is no character. -/
def IsSurrogate (c : CodePoint) : Prop := 0xD800 ≤ c ∧ c < 0xE000

instance (c : CodePoint) : Decidable c.IsSurrogate := inferInstanceAs (Decidable (_ ∧ _))

def IsHighSurrogate (c : CodePoint) : Prop := 0xD800 ≤ c ∧ c < 0xDC00

instance (c : CodePoint) : Decidable c.IsHighSurrogate := inferInstanceAs (Decidable (_ ∧ _))

def IsLowSurrogate (c : CodePoint) : Prop := 0xDC00 ≤ c ∧ c < 0xE000

instance (c : CodePoint) : Decidable c.IsLowSurrogate := inferInstanceAs (Decidable (_ ∧ _))

/-- The character that a high and a low surrogate make together. -/
def ofPair (high low : CodePoint) : CodePoint :=
  0x10000 + (high - 0xD800) * 0x400 + (low - 0xDC00)

/-- A Unicode scalar value: a code point that is no surrogate. -/
def IsScalar (c : CodePoint) : Prop := c < 0x110000 ∧ ¬ c.IsSurrogate

instance (c : CodePoint) : Decidable c.IsScalar := inferInstanceAs (Decidable (_ ∧ _))

/-- An ASCII decimal digit. -/
def IsDigit (c : CodePoint) : Prop := 0x30 ≤ c ∧ c ≤ 0x39

instance (c : CodePoint) : Decidable c.IsDigit := inferInstanceAs (Decidable (_ ∧ _))

/-- ASCII capitals become small letters, all else stays. -/
def toLowerAscii (c : CodePoint) : CodePoint := if 0x41 ≤ c ∧ c ≤ 0x5A then c + 0x20 else c

/-- The digit of value `d < 16`, in small letters from ten on. -/
def hexDigit (d : Nat) : CodePoint := if d < 10 then 0x30 + d else 0x57 + d

/-- The value of a hexadecimal digit in either case. -/
def hexValue? (c : CodePoint) : Option Nat :=
  if 0x30 ≤ c ∧ c ≤ 0x39 then some (c - 0x30)
  else if 0x41 ≤ c ∧ c ≤ 0x46 then some (c - 0x37)
  else if 0x61 ≤ c ∧ c ≤ 0x66 then some (c - 0x57)
  else none

end CodePoint

namespace Text

/-- UTF-8 carries the text: every code point is a scalar value. -/
def Encodable (t : Text) : Prop := ∀ c ∈ t, CodePoint.IsScalar c

instance (t : Text) : Decidable (Encodable t) := inferInstanceAs (Decidable (∀ c ∈ t, _))

/-- The order of texts by their code points; a text comes before those that continue it. -/
def le : Text → Text → Bool
  | [], _ => true
  | _ :: _, [] => false
  | c :: s, d :: t => c < d || (c = d && le s t)

/-- Exactly `width` hexadecimal digits of `n`. -/
def hex (width n : Nat) : Text :=
  match width with
  | 0 => []
  | w + 1 => hex w (n / 16) ++ [CodePoint.hexDigit (n % 16)]

/-- What follows `word` at the head of a text. -/
def after? : (word : Text) → Text → Option Text
  | [], t => some t
  | _ :: _, [] => none
  | w :: ws, c :: t => if w = c then after? ws t else none

theorem after?_eq_some_iff {word t rest : Text} : after? word t = some rest ↔ t = word ++ rest := by
  fun_induction after? word t with
  | case1 t => simp
  | case2 w ws => simp
  | case3 w ws t ih => simp [ih]
  | case4 w ws c t h => simp [Ne.symm h]

theorem length_of_after? {word t rest : Text} (h : after? word t = some rest) :
    t.length = word.length + rest.length := by
  rw [after?_eq_some_iff.1 h, List.length_append]

/-- `word` stands somewhere in the text. -/
def Mentions (word : Text) : Text → Prop
  | [] => word = []
  | c :: t => after? word (c :: t) ≠ none ∨ Mentions word t

instance Mentions.decidable (word : Text) : (t : Text) → Decidable (Mentions word t)
  | [] => inferInstanceAs (Decidable (word = []))
  | c :: t =>
    have := Mentions.decidable word t
    inferInstanceAs (Decidable (after? word (c :: t) ≠ none ∨ Mentions word t))

/-- Texts put together with a separator between neighbours. -/
def join (separator : Text) : List Text → Text
  | [] => []
  | [t] => t
  | t :: ts => t ++ separator ++ join separator ts

/-- A code point that is no scalar value becomes three replacement characters, one for each octet that a
tolerant encoder would write for it. -/
def scrub (t : Text) : Text :=
  t.flatMap fun c => if c.IsScalar then [c] else [0xFFFD, 0xFFFD, 0xFFFD]

theorem scrub_of_encodable {t : Text} (h : Encodable t) : scrub t = t := by
  induction t with
  | nil => rfl
  | cons c t ih =>
    have hc : CodePoint.IsScalar c := h c (by simp)
    have ht : Encodable t := fun d hd => h d (by simp [hd])
    simpa [scrub, hc] using ih ht

theorem encodable_scrub (t : Text) : Encodable (scrub t) := by
  intro d hd
  obtain ⟨c, -, hd⟩ := List.mem_flatMap.1 hd
  split at hd
  · next hc => rwa [List.mem_singleton.1 hd]
  · have hr : ∀ r : CodePoint, r ∈ [0xFFFD, 0xFFFD, 0xFFFD] → r.IsScalar := by decide
    exact hr d hd

end Text

end PubSub
