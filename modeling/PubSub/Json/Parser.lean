import PubSub.Json.Basic
import PubSub.Number.Numeral
/-!
# Reading JSON

A document is read from left to right. Reading stops at the first fault, which is reported with the number of
code points that are left there. A string may hold lone surrogates; escapes of a high and a low one side by
side make one character. Of members with one name the last value counts, in the place of the first.
-/
namespace PubSub.Json

/-- What is wrong at a place of a document. -/
inductive Problem
  | value
  | name
  | colon
  | comma
  | unterminated
  | control
  | escape
  | unicodeEscape
  | trailing
  | byteOrderMark
  deriving DecidableEq

inductive Fault
  /-- A problem with `left` code points to go. -/
  | wrong (problem : Problem) (left : Nat)
  /-- An integer of more digits than are read. -/
  | tooLong (digits : Nat)
  deriving DecidableEq

def IsBlank (c : CodePoint) : Prop := c = 0x20 ∨ c = 0x09 ∨ c = 0x0A ∨ c = 0x0D

instance (c : CodePoint) : Decidable (IsBlank c) := inferInstanceAs (Decidable (_ ∨ _))

/-- A text from its first character on that is no blank. -/
def skipBlank (t : Text) : Text := t.dropWhile (fun c => IsBlank c)

theorem length_skipBlank_le (t : Text) : (skipBlank t).length ≤ t.length :=
  (List.dropWhile_sublist _).length_le

/-- The number of four hexadecimal digits. -/
def hexQuad? (a b c d : CodePoint) : Option CodePoint := do
  let a ← CodePoint.hexValue? a
  let b ← CodePoint.hexValue? b
  let c ← CodePoint.hexValue? c
  let d ← CodePoint.hexValue? d
  return ((a * 16 + b) * 16 + c) * 16 + d

/-- The character that a two-letter escape ends with stands for. -/
def unescape? (c : CodePoint) : Option CodePoint :=
  if c = 0x22 ∨ c = 0x5C ∨ c = 0x2F then some c
  else if c = 0x62 then some 0x08
  else if c = 0x66 then some 0x0C
  else if c = 0x6E then some 0x0A
  else if c = 0x72 then some 0x0D
  else if c = 0x74 then some 0x09
  else none

/-- The low surrogate that an escape at the head of a text stands for, if more text follows it. -/
def lowEscape? : Text → Option (CodePoint × Text)
  | e :: u :: a :: b :: c :: d :: rest =>
    if e = 0x5C ∧ u = 0x75 ∧ rest ≠ [] then
      match hexQuad? a b c d with
      | some low => if low.IsLowSurrogate then some (low, rest) else none
      | none => none
    else none
  | _ => none

theorem length_of_lowEscape? {t rest : Text} {c : CodePoint} (h : lowEscape? t = some (c, rest)) :
    rest.length + 6 = t.length := by
  unfold lowEscape? at h
  split at h
  · split at h
    · split at h
      · split at h
        · cases h; simp
        · cases h
      · cases h
    · cases h
  · cases h

/-- What is scanned, with `c` before it. -/
def before (c : CodePoint) : Except Fault (Text × Text) → Except Fault (Text × Text)
  | .ok (s, rest) => .ok (c :: s, rest)
  | .error fault => .error fault

theorem before_eq_ok_iff {c : CodePoint} {x : Except Fault (Text × Text)} {s rest : Text} :
    before c x = .ok (s, rest) ↔ ∃ s', x = .ok (s', rest) ∧ s = c :: s' := by
  cases x with
  | error e => simp [before]
  | ok p =>
    obtain ⟨s', r⟩ := p
    constructor
    · intro h
      cases h
      exact ⟨s', rfl, rfl⟩
    · rintro ⟨_, h, rfl⟩
      cases h
      rfl

/-- A string from after its opening quotation mark up to the closing one, and what follows. `start` is the
number of code points that were left at the opening mark. -/
def scanString (start : Nat) (t : Text) : Except Fault (Text × Text) :=
  match t with
  | [] => .error (.wrong .unterminated start)
  | c :: rest =>
    if c = 0x22 then .ok ([], rest)
    else if c = 0x5C then
      match rest with
      | [] => .error (.wrong .unterminated start)
      | e :: rest =>
        if e = 0x75 then
          match rest with
          | h₁ :: h₂ :: h₃ :: h₄ :: more =>
            match hexQuad? h₁ h₂ h₃ h₄ with
            | some u =>
              -- Digits that end the text are a broken escape, though all four are there.
              if more = [] then .error (.wrong .unicodeEscape (rest.length + 1))
              else if u.IsHighSurrogate then
                match _hl : lowEscape? more with
                | some (low, more') =>
                  before (CodePoint.ofPair u low) (scanString start more')
                -- Half a pair on its own stays as it is.
                | none => before u (scanString start more)
              else before u (scanString start more)
            | none => .error (.wrong .unicodeEscape (rest.length + 1))
          | _ => .error (.wrong .unicodeEscape (rest.length + 1))
        else
          match unescape? e with
          | some d => before d (scanString start rest)
          | none => .error (.wrong .escape (rest.length + 2))
    else if c < 0x20 then .error (.wrong .control (rest.length + 1))
    else before c (scanString start rest)
termination_by t.length
decreasing_by
  · have := length_of_lowEscape? _hl
    simp only [List.length_cons]
    omega
  all_goals
    simp only [List.length_cons]
    omega

theorem length_of_scanString {start : Nat} {t s rest : Text} (h : scanString start t = .ok (s, rest)) :
    rest.length < t.length := by
  fun_induction scanString start t generalizing s rest with
  | case2 => cases h; simp
  | case5 _ _ _ _ _ _ _ _ _ _ _ hl _ ih =>
    obtain ⟨s', hs, -⟩ := before_eq_ok_iff.1 h
    have := ih hs
    have := length_of_lowEscape? hl
    simp only [List.length_cons]
    omega
  | case6 _ _ _ _ _ _ _ _ _ _ _ ih | case7 _ _ _ _ _ _ _ _ _ _ ih | case10 _ _ _ _ _ _ ih
  | case13 _ _ _ _ _ ih =>
    obtain ⟨s', hs, -⟩ := before_eq_ok_iff.1 h
    have := ih hs
    simp only [List.length_cons]
    omega
  | _ => cases h

/-- What a reader yields: something read, and a rest shorter than what it started from. -/
structure Reading (α : Type) (t : Text) where
  value : α
  rest : Text
  shorter : rest.length < t.length

/-- The words of a document, each with what it stands for. -/
def words : List (Text × Json) :=
  [(lit "null", .null), (lit "true", .bool true), (lit "false", .bool false),
    (lit "NaN", .float .nan), (lit "Infinity", .float .infinity), (lit "-Infinity", .float .negInfinity)]

/-- A word at the head of a text. -/
def scanWord? (t : Text) : Option (Json × Text) :=
  words.findSome? fun (word, j) => (Text.after? word t).map (j, ·)

theorem length_of_scanWord? {t rest : Text} {j : Json} (h : scanWord? t = some (j, rest)) :
    rest.length < t.length := by
  obtain ⟨⟨word, j'⟩, hw, hj⟩ := List.exists_of_findSome?_eq_some h
  obtain ⟨r, hr, hp⟩ := Option.map_eq_some_iff.1 hj
  cases hp
  have hlen := Text.length_of_after? hr
  have hpos : ∀ w ∈ words, 0 < w.1.length := by simp [words, lit]
  have : 0 < word.length := hpos _ hw
  omega

def ofNumeral (n : Numeral) : Except Fault Json :=
  if n.IsInteger then
    if maxDigits < n.whole.length then .error (.tooLong n.whole.length) else .ok (.int n.toInt)
  else .ok (.float n.toBinary64)

/-- A word or a number at the head of a text. -/
def scanScalar (t : Text) : Except Fault (Json × Text) :=
  match scanWord? t with
  | some found => .ok found
  | none =>
    match Numeral.scan? t with
    | some (n, rest) => (ofNumeral n).map (·, rest)
    | none => .error (.wrong .value t.length)

theorem length_of_scanScalar {t rest : Text} {j : Json} (h : scanScalar t = .ok (j, rest)) :
    rest.length < t.length := by
  unfold scanScalar at h
  split at h
  · next found hw =>
    cases h
    exact length_of_scanWord? hw
  · split at h
    · next n r hn =>
      have := Numeral.length_of_scan? hn
      cases hj : ofNumeral n with
      | error e => rw [hj] at h; cases h
      | ok j' => rw [hj] at h; cases h; exact this
    · cases h

-- The first item starts where the list of items starts, so in the measure a list stands above a value of its length.
mutual

/-- A document at the head of a text, which starts with no blank. -/
def scanValue (t : Text) : Except Fault (Reading Json t) :=
  match t with
  | [] => .error (.wrong .value 0)
  | c :: u =>
    if c = 0x22 then
      match h : scanString (u.length + 1) u with
      | .ok (s, rest) => .ok ⟨.str s, rest, Nat.lt_succ_of_lt (length_of_scanString h)⟩
      | .error fault => .error fault
    else if c = 0x5B then
      match _h : skipBlank u with
      | [] => .error (.wrong .value 0)
      | d :: v =>
        have hu : v.length + 1 ≤ u.length := by simpa [_h] using length_skipBlank_le u
        if d = 0x5D then .ok ⟨.arr [], v, by simp only [List.length_cons]; omega⟩
        else
          match scanItems (d :: v) with
          | .ok ⟨items, rest, hr⟩ => .ok ⟨.arr items, rest, by simp only [List.length_cons] at hr ⊢; omega⟩
          | .error fault => .error fault
    else if c = 0x7B then
      match _h : skipBlank u with
      | [] => .error (.wrong .name 0)
      | d :: v =>
        have hu : v.length + 1 ≤ u.length := by simpa [_h] using length_skipBlank_le u
        if d = 0x7D then .ok ⟨.obj [], v, by simp only [List.length_cons]; omega⟩
        else
          match scanMembers (d :: v) with
          | .ok ⟨members, rest, hr⟩ =>
            .ok ⟨.obj (Assoc.ofPairs members), rest, by simp only [List.length_cons] at hr ⊢; omega⟩
          | .error fault => .error fault
    else
      match h : scanScalar (c :: u) with
      | .ok (j, rest) => .ok ⟨j, rest, length_of_scanScalar h⟩
      | .error fault => .error fault
termination_by (t.length, 0)

/-- The items of an array and its closing bracket. -/
def scanItems (t : Text) : Except Fault (Reading (List Json) t) :=
  match scanValue t with
  | .error fault => .error fault
  | .ok ⟨item, rest, hr⟩ =>
    match _h : skipBlank rest with
    | [] => .error (.wrong .comma 0)
    | c :: u =>
      have hu : u.length + 1 ≤ rest.length := by simpa [_h] using length_skipBlank_le rest
      if c = 0x5D then .ok ⟨[item], u, by omega⟩
      else if c = 0x2C then
        have hv : (skipBlank u).length ≤ u.length := length_skipBlank_le u
        match scanItems (skipBlank u) with
        | .ok ⟨items, more, hm⟩ => .ok ⟨item :: items, more, by omega⟩
        | .error fault => .error fault
      else .error (.wrong .comma (u.length + 1))
termination_by (t.length, 1)

/-- The members of an object and its closing brace. -/
def scanMembers (t : Text) : Except Fault (Reading (List (Text × Json)) t) :=
  match t with
  | [] => .error (.wrong .name 0)
  | q :: u =>
    if q ≠ 0x22 then .error (.wrong .name (u.length + 1))
    else
      match _hs : scanString (u.length + 1) u with
      | .error fault => .error fault
      | .ok (name, rest) =>
        have hr : rest.length < u.length := length_of_scanString _hs
        match _h : skipBlank rest with
        | [] => .error (.wrong .colon 0)
        | c :: v =>
          have hv : v.length + 1 ≤ rest.length := by simpa [_h] using length_skipBlank_le rest
          if c ≠ 0x3A then .error (.wrong .colon (v.length + 1))
          else
            have hw : (skipBlank v).length ≤ v.length := length_skipBlank_le v
            match scanValue (skipBlank v) with
            | .error fault => .error fault
            | .ok ⟨value, rest, hx⟩ =>
              match _h' : skipBlank rest with
              | [] => .error (.wrong .comma 0)
              | d :: w =>
                have hd : w.length + 1 ≤ rest.length := by simpa [_h'] using length_skipBlank_le rest
                if d = 0x7D then .ok ⟨[(name, value)], w, by simp only [List.length_cons]; omega⟩
                else if d = 0x2C then
                  have hy : (skipBlank w).length ≤ w.length := length_skipBlank_le w
                  match scanMembers (skipBlank w) with
                  | .ok ⟨members, more, hm⟩ =>
                    .ok ⟨(name, value) :: members, more, by simp only [List.length_cons]; omega⟩
                  | .error fault => .error fault
                else .error (.wrong .comma (w.length + 1))
termination_by (t.length, 1)

end

/-- The document that a text is, blanks around it allowed. -/
def parse (t : Text) : Except Fault Json :=
  match scanValue (skipBlank t) with
  | .error fault => .error fault
  | .ok ⟨j, rest, _⟩ =>
    match skipBlank rest with
    | [] => .ok j
    | _ :: u => .error (.wrong .trailing (u.length + 1))

/-- The document that a text is, if the text does not begin with a byte order mark. -/
def parseUnmarked (t : Text) : Except Fault Json :=
  if t.head? = some 0xFEFF then .error (.wrong .byteOrderMark t.length) else parse t

end PubSub.Json
