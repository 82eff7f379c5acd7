import PubSub.Proofs.Json.RoundTrip
import PubSub.Proofs.Outcome
/-!
# Parts of parsed documents

What a reader comes out with is made of what the readers of its parts come out with (`scanValue_cases` and its
neighbours). So what holds of every scalar that is scanned, and of every string, array and object, holds everywhere in a
document that is read (`everywhere_read`). No integer of it is too long (`short_read`).
-/
namespace PubSub.Json

/-! ## One step back -/

theorem length_lt_of_skipBlank {t u : Text} {c : CodePoint} (h : skipBlank t = c :: u) : u.length < t.length := by
  have hl := length_skipBlank_le t
  rw [h] at hl
  exact hl

/-- How a value stands at the head of a text, and what it is made of. -/
theorem scanValue_cases {t : Text} {r : Reading Json t} (h : scanValue t = .ok r) :
    (∃ u s, t = 0x22 :: u ∧ r.value = .str s) ∨ (∃ rest, scanScalar t = .ok (r.value, rest)) ∨
    (∃ u items, t = 0x5B :: u ∧ r.value = .arr items ∧
      ((items = [] ∧ ∃ v, skipBlank u = 0x5D :: v) ∨ ∃ q, scanItems (skipBlank u) = .ok q ∧ q.value = items)) ∨
    ∃ u members, t = 0x7B :: u ∧ r.value = .obj (Assoc.ofPairs members) ∧
      (members = [] ∨ ∃ q, scanMembers (skipBlank u) = .ok q ∧ q.value = members) := by
  rw [scanValue.eq_def] at h
  split at h
  · cases h
  · next c u =>
    split at h
    · next hc =>
      split at h
      · cases h
        exact .inl ⟨u, _, by rw [hc], rfl⟩
      · cases h
    split at h
    · next hc =>
      split at h
      · cases h
      · next d v hv =>
        split at h
        · next hd =>
          cases h
          exact .inr (.inr (.inl ⟨u, [], by rw [hc], rfl, .inl ⟨rfl, v, by rw [hv, hd]⟩⟩))
        · split at h
          · next hq =>
            cases h
            refine .inr (.inr (.inl ⟨u, _, by rw [hc], rfl, .inr ?_⟩))
            rw [hv]
            exact ⟨_, hq, rfl⟩
          · cases h
    split at h
    · next hc =>
      split at h
      · cases h
      · next d v hv =>
        split at h
        · cases h
          exact .inr (.inr (.inr ⟨u, [], by rw [hc], rfl, .inl rfl⟩))
        · split at h
          · next hq =>
            cases h
            refine .inr (.inr (.inr ⟨u, _, by rw [hc], rfl, .inr ?_⟩))
            rw [hv]
            exact ⟨_, hq, rfl⟩
          · cases h
    · split at h
      · next hs =>
        cases h
        exact .inr (.inl ⟨_, hs⟩)
      · cases h

/-- Items start with a value, and more of them follow or none. -/
theorem scanItems_cases {t : Text} {r : Reading (List Json) t} (h : scanItems t = .ok r) :
    ∃ q items, scanValue t = .ok q ∧ r.value = q.value :: items ∧
      (items = [] ∨ ∃ u p, u.length < t.length ∧ scanItems u = .ok p ∧ p.value = items) := by
  rw [scanItems.eq_def] at h
  split at h
  · cases h
  · next item rest hr hq =>
    split at h
    · cases h
    · next c u hu =>
      have hl : (skipBlank u).length < t.length :=
        Nat.lt_of_le_of_lt (length_skipBlank_le u) (Nat.lt_trans (length_lt_of_skipBlank hu) hr)
      split at h
      · cases h
        exact ⟨_, [], hq, rfl, .inl rfl⟩
      · split at h
        · split at h
          · next hp =>
            cases h
            exact ⟨_, _, hq, rfl, .inr ⟨_, _, hl, hp, rfl⟩⟩
          · cases h
        · cases h

/-- Members start with a name and a value, and more of them follow or none. -/
theorem scanMembers_cases {t : Text} {r : Reading (List (Text × Json)) t} (h : scanMembers t = .ok r) :
    ∃ name u q members, u.length < t.length ∧ scanValue u = .ok q ∧ r.value = (name, q.value) :: members ∧
      (members = [] ∨ ∃ v p, v.length < t.length ∧ scanMembers v = .ok p ∧ p.value = members) := by
  rw [scanMembers.eq_def] at h
  split at h
  · cases h
  · next q u =>
    split at h
    · cases h
    split at h
    · cases h
    · next name rest hs =>
      have hn := length_of_scanString hs
      split at h
      · cases h
      · next c v hv =>
        have hc : (skipBlank v).length < u.length :=
          Nat.lt_of_le_of_lt (length_skipBlank_le v) (Nat.lt_trans (length_lt_of_skipBlank hv) hn)
        split at h
        · cases h
        split at h
        · cases h
        · next value rest hx hq =>
          split at h
          · cases h
          · next d w hw =>
            have hl : (skipBlank w).length < u.length := Nat.lt_of_le_of_lt (length_skipBlank_le w)
              (Nat.lt_trans (length_lt_of_skipBlank hw) (Nat.lt_trans hx hc))
            split at h
            · cases h
              exact ⟨name, _, _, [], Nat.lt_succ_of_lt hc, hq, rfl, .inl rfl⟩
            · split at h
              · split at h
                · next hp =>
                  cases h
                  exact ⟨name, _, _, _, Nat.lt_succ_of_lt hc, hq, rfl, .inr ⟨_, _, Nat.lt_succ_of_lt hl, hp, rfl⟩⟩
                · cases h
              · cases h

/-! ## What holds of all parts -/

/-- What holds of all scalars that are scanned, and of all strings, arrays and objects. -/
structure HoldsOfParts (p : Json → Prop) : Prop where
  scalar : ∀ t j rest, scanScalar t = .ok (j, rest) → j.Everywhere p
  str : ∀ s, p (.str s)
  arr : ∀ items, p (.arr items)
  obj : ∀ members, p (.obj members)

theorem everywhere_scan {p : Json → Prop} (hp : HoldsOfParts p) (n : Nat) : ∀ t : Text, t.length = n →
    (∀ r, scanValue t = .ok r → r.value.Everywhere p) ∧ (∀ r, scanItems t = .ok r → EverywhereItems p r.value) ∧
      ∀ r, scanMembers t = .ok r → EverywhereMembers p r.value := by
  induction n using Nat.strongRecOn with
  | ind n ih =>
    rintro t rfl
    have hv : ∀ r, scanValue t = .ok r → r.value.Everywhere p := by
      intro r h
      rcases scanValue_cases h with ⟨_, s, -, he⟩ | ⟨rest, hs⟩ | ⟨u, items, rfl, he, hi⟩ | ⟨u, members, rfl, he, hm⟩
      · rw [he]
        exact hp.str s
      · exact hp.scalar t r.value rest hs
      · rw [he]
        refine ⟨hp.arr items, ?_⟩
        rcases hi with ⟨rfl, -⟩ | ⟨q, hq, rfl⟩
        · trivial
        · exact (ih _ (Nat.lt_succ_of_le (length_skipBlank_le u)) _ rfl).2.1 q hq
      · rw [he]
        refine ⟨hp.obj _, everywhereMembers_iff.2 fun m hm' => ?_⟩
        have hm' := Assoc.mem_of_mem_ofPairs hm'
        rcases hm with rfl | ⟨q, hq, rfl⟩
        · cases hm'
        · exact everywhereMembers_iff.1 ((ih _ (Nat.lt_succ_of_le (length_skipBlank_le u)) _ rfl).2.2 q hq) m hm'
    refine ⟨hv, fun r h => ?_, fun r h => ?_⟩
    · -- The first item starts where the items start, so it is known from above and not by induction.
      obtain ⟨q, items, hq, he, hi⟩ := scanItems_cases h
      rw [he]
      refine ⟨hv q hq, ?_⟩
      rcases hi with rfl | ⟨u, p, hl, hp, rfl⟩
      · trivial
      · exact (ih _ hl u rfl).2.1 p hp
    · obtain ⟨name, u, q, members, hu, hq, he, hm⟩ := scanMembers_cases h
      rw [he]
      refine ⟨(ih _ hu u rfl).1 q hq, ?_⟩
      rcases hm with rfl | ⟨v, p, hl, hp, rfl⟩
      · trivial
      · exact (ih _ hl v rfl).2.2 p hp

theorem everywhere_parse {p : Json → Prop} (hp : HoldsOfParts p) {t : Text} {j : Json} (h : parse t = .ok j) :
    j.Everywhere p := by
  obtain ⟨rest, ⟨hl, hv⟩, -⟩ := parse_eq_ok_iff.1 h
  exact (everywhere_scan hp _ _ rfl).1 _ hv

theorem parse_of_read_text {t : Text} {j : Json} (h : read (.text t) = .ok j) : parse t = .ok j := by
  have hp := mapError_eq_ok_iff.1 h
  unfold parseUnmarked at hp
  split at hp
  · cases hp
  · exact hp

theorem everywhere_read {p : Json → Prop} (hp : HoldsOfParts p) {v : Value} {j : Json} (h : read v = .ok j) :
    j.Everywhere p := by
  cases v with
  | text t => exact everywhere_parse hp (parse_of_read_text h)
  | bytes bs =>
    rw [read, readBytes] at h
    split at h
    · exact everywhere_parse hp (mapError_eq_ok_iff.1 h)
    · cases h
  | _ => cases h

/-! ## Integers -/

theorem short_scanWord? {t rest : Text} {j : Json} (h : scanWord? t = some (j, rest)) : j.Everywhere Short := by
  obtain ⟨⟨word, k⟩, hw, hk⟩ := List.exists_of_findSome?_eq_some h
  obtain ⟨u, -, he⟩ := Option.map_eq_some_iff.1 hk
  cases he
  have hs : ∀ w ∈ words, w.2.hasLong = false := by decide
  exact (hasLong_eq_false_iff _).1 (hs _ hw)

theorem short_ofNumeral {t rest : Text} {n : Numeral} {j : Json} (hn : Numeral.scan? t = some (n, rest))
    (h : ofNumeral n = .ok j) : j.Everywhere Short := by
  unfold ofNumeral at h
  split at h
  · split at h
    · cases h
    · next hl =>
      cases h
      exact not_isLong (Nat.not_lt.1 hl) (Numeral.natAbs_toInt_lt hn)
  · cases h
    trivial

theorem short_scanScalar {t rest : Text} {j : Json} (h : scanScalar t = .ok (j, rest)) : j.Everywhere Short := by
  unfold scanScalar at h
  split at h
  · next hw =>
    cases h
    exact short_scanWord? hw
  · split at h
    · next hn =>
      obtain ⟨k, hk, he⟩ := map_eq_ok_iff.1 h
      cases he
      exact short_ofNumeral hn hk
    · cases h

theorem holdsOfParts_short : HoldsOfParts Short where
  scalar _ _ _ := short_scanScalar
  str _ := trivial
  arr _ := trivial
  obj _ := trivial

/-- No integer of a document that is read is too long. -/
theorem short_read {v : Value} {j : Json} (h : read v = .ok j) : j.Everywhere Short :=
  everywhere_read holdsOfParts_short h

end PubSub.Json
