import PubSub.Proofs.Json.Parts
/-!
# Heads of documents

How a text begins that a document is read from. The text of an array begins with two plain ASCII characters, blanks or
the array's own (`exists_cons_of_parse_arr`), and the text of an object has a brace in it (`brace_mem_of_parse_obj`).
-/
namespace PubSub.Json

/-- An ASCII character other than `U+0000`. UTF-8 writes it as one octet, which is not zero. -/
def IsPlainAscii (c : CodePoint) : Prop := c ≠ 0 ∧ c < 0x80

theorem IsBlank.isPlainAscii {c : CodePoint} (h : IsBlank c) : IsPlainAscii c := by
  rcases h with rfl | rfl | rfl | rfl <;> exact ⟨by decide, by decide⟩

theorem isPlainAscii_of_isDigit {c : CodePoint} (h : c.IsDigit) : IsPlainAscii c := by
  simp only [CodePoint.IsDigit, IsPlainAscii, CodePoint] at h ⊢
  omega

theorem isPlainAscii_of_scanWord? {c : CodePoint} {u rest : Text} {j : Json}
    (h : scanWord? (c :: u) = some (j, rest)) : IsPlainAscii c := by
  obtain ⟨⟨word, k⟩, hw, hk⟩ := List.exists_of_findSome?_eq_some h
  obtain ⟨v, hv, -⟩ := Option.map_eq_some_iff.1 hk
  have hwords : ∀ w ∈ words, ∃ d ds, w.1 = d :: ds ∧ IsPlainAscii d := by
    simp only [words, List.forall_mem_cons]
    refine ⟨?_, ?_, ?_, ?_, ?_, ?_, List.forall_mem_nil _⟩ <;> exact ⟨_, _, rfl, by decide, by decide⟩
  obtain ⟨d, ds, rfl, hd⟩ := hwords _ hw
  rw [Text.after?] at hv
  split at hv
  · next he => exact he ▸ hd
  · cases hv

theorem isPlainAscii_of_scan? {c : CodePoint} {u rest : Text} {n : Numeral}
    (h : Numeral.scan? (c :: u) = some (n, rest)) : IsPlainAscii c := by
  by_cases hc : c = 0x2D
  · rw [hc]
    exact ⟨by decide, by decide⟩
  · simp only [Numeral.scan?, if_neg hc, Option.map_eq_some_iff] at h
    obtain ⟨p, hp, -⟩ := h
    rw [Numeral.scanWhole?] at hp
    split at hp
    · next hz => exact isPlainAscii_of_isDigit (by rw [hz]; decide)
    · split at hp
      · next hd => exact isPlainAscii_of_isDigit hd
      · cases hp

theorem isPlainAscii_of_scanScalar {c : CodePoint} {u rest : Text} {j : Json}
    (h : scanScalar (c :: u) = .ok (j, rest)) : IsPlainAscii c := by
  unfold scanScalar at h
  split at h
  · next hw =>
    cases h
    exact isPlainAscii_of_scanWord? hw
  · split at h
    · next hn => exact isPlainAscii_of_scan? hn
    · cases h

/-- No value stands at the head of a text that does not begin with a plain character. -/
theorem exists_cons_of_scanValue {t : Text} {r : Reading Json t} (h : scanValue t = .ok r) :
    ∃ c u, t = c :: u ∧ IsPlainAscii c := by
  rcases scanValue_cases h with ⟨u, _, rfl, -⟩ | ⟨rest, hs⟩ | ⟨u, _, rfl, -⟩ | ⟨u, _, rfl, -⟩
  · exact ⟨_, u, rfl, by decide, by decide⟩
  · cases t with
    | nil => exact absurd (length_of_scanScalar hs) (Nat.not_lt_zero _)
    | cons c u => exact ⟨c, u, rfl, isPlainAscii_of_scanScalar hs⟩
  · exact ⟨_, u, rfl, by decide, by decide⟩
  · exact ⟨_, u, rfl, by decide, by decide⟩

/-- Blanks are passed over up to a character that is plain too. -/
theorem exists_cons_of_skipBlank {t u : Text} {c : CodePoint} (h : skipBlank t = c :: u) (hc : IsPlainAscii c) :
    ∃ a v, t = a :: v ∧ IsPlainAscii a := by
  cases t with
  | nil => cases h
  | cons a v =>
    by_cases ha : IsBlank a
    · exact ⟨a, v, rfl, ha.isPlainAscii⟩
    · have he := (skipBlank_cons ha v).symm.trans h
      obtain ⟨rfl, rfl⟩ := List.cons.inj he
      exact ⟨a, v, rfl, hc⟩

/-- Neither an array nor an object. -/
def IsScalar : Json → Prop
  | .arr _ | .obj _ => False
  | _ => True

theorem isScalar_of_scanScalar {t rest : Text} {j : Json} (h : scanScalar t = .ok (j, rest)) : j.IsScalar := by
  unfold scanScalar at h
  split at h
  · next hw =>
    cases h
    obtain ⟨⟨word, k⟩, hw, hk⟩ := List.exists_of_findSome?_eq_some hw
    obtain ⟨v, -, he⟩ := Option.map_eq_some_iff.1 hk
    have hwords : ∀ w ∈ words, w.2.IsScalar := by simp [words, IsScalar]
    rw [← (Prod.mk.inj he).1]
    exact hwords _ hw
  · split at h
    · obtain ⟨j, hj, he⟩ := map_eq_ok_iff.1 h
      obtain ⟨rfl, -⟩ := Prod.mk.inj he
      unfold ofNumeral at hj
      split at hj
      · split at hj
        · cases hj
        · cases hj
          trivial
      · cases hj
        trivial
    · cases h

/-- After its opening bracket an array goes on with its closing bracket, with an item, or with blanks before these. -/
theorem exists_cons_of_scanValue_arr {t : Text} {r : Reading Json t} {items : List Json} (h : scanValue t = .ok r)
    (hr : r.value = .arr items) : ∃ b u, t = 0x5B :: b :: u ∧ IsPlainAscii b := by
  rcases scanValue_cases h with ⟨_, _, -, he⟩ | ⟨rest, hs⟩ | ⟨u, _, rfl, -, hi⟩ | ⟨_, _, -, he, -⟩
  · cases hr.symm.trans he
  · rw [hr] at hs
    exact (isScalar_of_scanScalar hs).elim
  · have hd : ∃ d v, skipBlank u = d :: v ∧ IsPlainAscii d := by
      rcases hi with ⟨-, v, hv⟩ | ⟨q, hq, -⟩
      · exact ⟨0x5D, v, hv, by decide, by decide⟩
      · obtain ⟨item, -, hitem, -⟩ := scanItems_cases hq
        exact exists_cons_of_scanValue hitem
    obtain ⟨d, v, hv, hd⟩ := hd
    obtain ⟨b, w, rfl, hb⟩ := exists_cons_of_skipBlank hv hd
    exact ⟨b, w, rfl, hb⟩
  · cases hr.symm.trans he

/-- A text that is read as an array begins with two plain characters: blanks, or the opening bracket and what comes
after it. -/
theorem exists_cons_of_parse_arr {t : Text} {items : List Json} (h : parse t = .ok (.arr items)) :
    ∃ a b u, t = a :: b :: u ∧ IsPlainAscii a ∧ IsPlainAscii b := by
  obtain ⟨rest, ⟨hl, hv⟩, -⟩ := parse_eq_ok_iff.1 h
  obtain ⟨b, u, hs, hb⟩ := exists_cons_of_scanValue_arr hv rfl
  have hbracket : IsPlainAscii 0x5B := ⟨by decide, by decide⟩
  cases t with
  | nil => cases hs
  | cons a v =>
    by_cases ha : IsBlank a
    · have hv : skipBlank v = 0x5B :: b :: u := by
        rw [← hs]
        exact (List.dropWhile_cons_of_pos (by simpa using ha)).symm
      obtain ⟨c, w, rfl, hc⟩ := exists_cons_of_skipBlank hv hbracket
      exact ⟨a, c, w, rfl, ha.isPlainAscii, hc⟩
    · rw [skipBlank_cons ha] at hs
      obtain ⟨rfl, rfl⟩ := List.cons.inj hs
      exact ⟨_, b, u, rfl, hbracket, hb⟩

theorem exists_cons_of_scanValue_obj {t : Text} {r : Reading Json t} {members : List (Text × Json)}
    (h : scanValue t = .ok r) (hr : r.value = .obj members) : ∃ u, t = 0x7B :: u := by
  rcases scanValue_cases h with ⟨_, _, -, he⟩ | ⟨rest, hs⟩ | ⟨_, _, -, he, -⟩ | ⟨u, _, rfl, -⟩
  · cases hr.symm.trans he
  · rw [hr] at hs
    exact (isScalar_of_scanScalar hs).elim
  · cases hr.symm.trans he
  · exact ⟨u, rfl⟩

theorem brace_mem_of_parse_obj {t : Text} {members : List (Text × Json)} (h : parse t = .ok (.obj members)) :
    0x7B ∈ t := by
  obtain ⟨rest, ⟨hl, hv⟩, -⟩ := parse_eq_ok_iff.1 h
  obtain ⟨u, hu⟩ := exists_cons_of_scanValue_obj hv rfl
  apply (List.dropWhile_sublist _).subset
  rw [← skipBlank, hu]
  exact List.mem_cons_self

end PubSub.Json
