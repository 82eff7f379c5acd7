import PubSub.Text.Encoding
/-!
# UTF-8 reads back

A text that UTF-8 carries comes back from its octets (`decodeDetected_encodeUtf8`), provided it starts with two
characters that no mark and no other encoding starts with.
-/
namespace PubSub.Text

/-! ## One character -/

theorem isScalar_iff {c : Nat} : CodePoint.IsScalar c ↔ c < 0x110000 ∧ (c < 0xD800 ∨ 0xE000 ≤ c) := by
  simp only [CodePoint.IsScalar, CodePoint.IsSurrogate, CodePoint]
  omega

theorem isContinuation_low (n : Nat) : IsContinuation (0x80 + n % 0x40) := by
  simp only [IsContinuation]
  omega

theorem utf8Octets_lt {c b : Nat} (h : CodePoint.IsScalar c) (hb : b ∈ utf8Octets c) : b < 0x100 := by
  obtain ⟨hc, -⟩ := isScalar_iff.1 h
  simp only [utf8Octets, CodePoint] at hb
  repeat' split at hb
  all_goals
    simp only [List.mem_cons, List.not_mem_nil, or_false] at hb
    omega

/-- The octets of one character are read as that character, whatever follows. -/
theorem decodeUtf8From_octets (lone : Bool) (position : Nat) {c : Nat} (h : CodePoint.IsScalar c) (rest : List Nat) :
    ∃ next, decodeUtf8From lone position (utf8Octets c ++ rest) = (decodeUtf8From lone next rest).map (c :: ·) := by
  obtain ⟨hc, hs⟩ := isScalar_iff.1 h
  rcases Nat.lt_or_ge c 0x80 with h1 | h1
  · refine ⟨position + 1, ?_⟩
    rw [utf8Octets, if_pos h1, List.singleton_append, decodeUtf8From.eq_def]
    exact if_pos h1
  rcases Nat.lt_or_ge c 0x800 with h2 | h2
  · refine ⟨position + 2, ?_⟩
    have hd : (0xC0 + c / 0x40 - 0xC0) * 0x40 + (0x80 + c % 0x40 - 0x80) = c := by omega
    rw [utf8Octets, if_neg (Nat.not_lt.2 h1), if_pos h2, decodeUtf8From.eq_def]
    simp only [List.cons_append, List.nil_append]
    rw [if_neg (by omega), if_neg (by omega), if_pos (by omega), if_pos (isContinuation_low _), hd]
  rcases Nat.lt_or_ge c 0x10000 with h3 | h3
  · refine ⟨position + 3, ?_⟩
    have hd : (0xE0 + c / 0x1000 - 0xE0) * 0x1000 + (0x80 + c / 0x40 % 0x40 - 0x80) * 0x40
        + (0x80 + c % 0x40 - 0x80) = c := by omega
    -- The second octet keeps clear of overlong forms and, as `c` is no surrogate, of surrogates.
    have hb : ¬ (¬ IsContinuation (0x80 + c / 0x40 % 0x40) ∨
        (0xE0 + c / 0x1000 = 0xE0 ∧ 0x80 + c / 0x40 % 0x40 < 0xA0)) := by
      simp only [IsContinuation]
      omega
    rw [utf8Octets, if_neg (Nat.not_lt.2 h1), if_neg (Nat.not_lt.2 h2), if_pos h3, decodeUtf8From.eq_def]
    simp only [List.cons_append, List.nil_append]
    rw [if_neg (by omega), if_neg (by omega), if_neg (by omega), if_pos (by omega), if_neg hb, if_neg (by omega),
      if_pos (isContinuation_low _), hd]
  · refine ⟨position + 4, ?_⟩
    have hd : (0xF0 + c / 0x40000 - 0xF0) * 0x40000 + (0x80 + c / 0x1000 % 0x40 - 0x80) * 0x1000
        + (0x80 + c / 0x40 % 0x40 - 0x80) * 0x40 + (0x80 + c % 0x40 - 0x80) = c := by omega
    -- Here it keeps clear of overlong forms and of what lies beyond `U+10FFFF`.
    have hb : ¬ (¬ IsContinuation (0x80 + c / 0x1000 % 0x40) ∨
        (0xF0 + c / 0x40000 = 0xF0 ∧ 0x80 + c / 0x1000 % 0x40 < 0x90) ∨
        (0xF0 + c / 0x40000 = 0xF4 ∧ 0x90 ≤ 0x80 + c / 0x1000 % 0x40)) := by
      simp only [IsContinuation]
      omega
    rw [utf8Octets, if_neg (Nat.not_lt.2 h1), if_neg (Nat.not_lt.2 h2), if_neg (Nat.not_lt.2 h3),
      decodeUtf8From.eq_def]
    simp only [List.cons_append, List.nil_append]
    rw [if_neg (by omega), if_neg (by omega), if_neg (by omega), if_neg (by omega), if_pos (by omega), if_neg hb,
      if_neg (not_not_intro (isContinuation_low _)), if_pos (isContinuation_low _), hd]

/-! ## Whole texts -/

theorem decodeUtf8From_flatMap (lone : Bool) (position : Nat) {t : Text} (h : Encodable t) :
    decodeUtf8From lone position (t.flatMap utf8Octets) = .ok t := by
  induction t generalizing position with
  | nil => rw [List.flatMap_nil, decodeUtf8From]
  | cons c t ih =>
    obtain ⟨next, hn⟩ := decodeUtf8From_octets lone position (h c (by simp)) (t.flatMap utf8Octets)
    rw [List.flatMap_cons, hn, ih next fun d hd => h d (by simp [hd])]
    rfl

theorem firstRefused_eq_none_iff {codec reason : Text} {ok run : CodePoint → Bool} {t : Text} (position : Nat) :
    firstRefused codec reason ok run position t = none ↔ ∀ c ∈ t, ok c = true := by
  induction t generalizing position with
  | nil => simp [firstRefused]
  | cons c t ih =>
    unfold firstRefused
    split
    · rename_i hc
      simp [ih, hc]
    · rename_i hc
      simp [hc]

theorem refusedByUtf8_eq_none_iff {ok : CodePoint → Bool} {t : Text} :
    refusedByUtf8 ok t = none ↔ ∀ c ∈ t, ok c = true :=
  firstRefused_eq_none_iff 0

theorem encodeUtf8_of_encodable {t : Text} (h : Encodable t) :
    encodeUtf8 t = .ok ((t.flatMap utf8Octets).map UInt8.ofNat) := by
  rw [encodeUtf8, refusedByUtf8_eq_none_iff.2 fun c hc => decide_eq_true (h c hc)]

/-- Only a text that UTF-8 carries is encoded. -/
theorem encodeUtf8_isOk_iff {t : Text} : (∃ bs, encodeUtf8 t = .ok bs) ↔ Encodable t := by
  refine ⟨?_, fun h => ⟨_, encodeUtf8_of_encodable h⟩⟩
  rintro ⟨bs, h⟩
  unfold encodeUtf8 at h
  split at h
  · cases h
  · rename_i hn
    exact fun c hc => of_decide_eq_true (refusedByUtf8_eq_none_iff.1 hn c hc)

theorem map_toNat_octets {t : Text} (h : Encodable t) :
    ((t.flatMap utf8Octets).map UInt8.ofNat).map UInt8.toNat = t.flatMap utf8Octets := by
  rw [List.map_map]
  refine (List.map_congr_left fun b hb => ?_).trans (List.map_id _)
  obtain ⟨c, hc, hb⟩ := List.mem_flatMap.1 hb
  have hlt := utf8Octets_lt (h c hc) hb
  simp only [Function.comp_apply, UInt8.toNat_ofNat', id_eq]
  exact Nat.mod_eq_of_lt hlt

/-! ## Which encoding it is -/

theorem detect_of_ascii {a b : Nat} (ha : a ≠ 0) (ha' : a < 0x80) (hb : b ≠ 0) (rest : List Nat) :
    Encoding.detect (a :: b :: rest) = .utf8 false := by
  have h0 : Encoding.ofZeros (a :: b :: rest) = .utf8 false := by
    match rest with
    | [] => simp [Encoding.ofZeros, ha, hb]
    | [_] => rfl
    | _ :: _ :: _ => simp [Encoding.ofZeros, ha, hb]
  have h1 : a ≠ 0xFE := by omega
  have h2 : a ≠ 0xFF := by omega
  have h3 : a ≠ 0xEF := by omega
  simp [Encoding.detect, ha, h1, h2, h3, h0]

/-- Nothing in the octets of a text that starts with two ASCII characters other than `U+0000` looks like a mark or like
another encoding. -/
theorem detect_encodeUtf8 {a b : Nat} {t : Text} (h : Encodable (a :: b :: t)) (ha : a ≠ 0) (ha' : a < 0x80)
    (hb : b ≠ 0) (hb' : b < 0x80) {bs : Bytes} (hbs : encodeUtf8 (a :: b :: t) = .ok bs) :
    Encoding.detect (bs.map UInt8.toNat) = .utf8 false := by
  rw [encodeUtf8_of_encodable h, Except.ok.injEq] at hbs
  subst hbs
  -- The first two characters are their own octets, and the encoding is told by them.
  have ho : (a :: b :: t).flatMap utf8Octets = a :: b :: t.flatMap utf8Octets := by
    simp [List.flatMap_cons, utf8Octets, ha', hb']
  rw [map_toNat_octets h, ho, detect_of_ascii ha ha' hb]

/-- Octets whose encoding is told right are read as the text that was encoded. -/
theorem decodeDetected_of_detect {t : Text} (h : Encodable t) {bs : Bytes} (hbs : encodeUtf8 t = .ok bs)
    (hd : Encoding.detect (bs.map UInt8.toNat) = .utf8 false) : decodeDetected bs = .ok t := by
  rw [encodeUtf8_of_encodable h, Except.ok.injEq] at hbs
  subst hbs
  simp only [decodeDetected, hd, Bool.false_eq_true, if_false]
  rw [map_toNat_octets h]
  exact decodeUtf8From_flatMap true 0 h

/-- A document that starts with two ASCII characters other than `U+0000` is read as the text that was encoded. -/
theorem decodeDetected_encodeUtf8 {a b : Nat} {t : Text} (h : Encodable (a :: b :: t)) (ha : a ≠ 0) (ha' : a < 0x80)
    (hb : b ≠ 0) (hb' : b < 0x80) {bs : Bytes} (hbs : encodeUtf8 (a :: b :: t) = .ok bs) :
    decodeDetected bs = .ok (a :: b :: t) :=
  decodeDetected_of_detect h hbs (detect_encodeUtf8 h ha ha' hb hb' hbs)

end PubSub.Text
