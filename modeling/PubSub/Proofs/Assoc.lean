import PubSub.Assoc
import PubSub.Proofs.Accumulation
/-!
# Keyed lists

Laws of keyed lists: what stands under a key, which keys there are after pairs were put, and when putting them one after
another is just appending them. A list with distinct keys is known by its keys and what stands under them
(`eq_of_find?_eq`). A list of slots, in which a key may have no value, stands for the keyed list of the values that are
there.
-/
namespace PubSub.Assoc

variable {κ α : Type}

theorem keys_append (s t : List (κ × α)) : keys (s ++ t) = keys s ++ keys t := List.map_append

section Find
variable [BEq κ]

theorem find?_map {β : Type} (f : α → β) (k : κ) (t : List (κ × α)) :
    find? k (t.map fun p => (p.1, f p.2)) = (find? k t).map f := by
  induction t with
  | nil => rfl
  | cons p t ih =>
    simp only [List.map_cons, find?]
    split
    · rfl
    · exact ih

theorem find?_eq_none [LawfulBEq κ] {k : κ} {t : List (κ × α)} (h : k ∉ keys t) : find? k t = none := by
  induction t with
  | nil => rfl
  | cons p t ih =>
    simp only [keys, List.map_cons, List.mem_cons, not_or] at h
    rw [find?, if_neg (by simpa using Ne.symm h.1), ih h.2]

theorem find?_eq_findSome? (k : κ) (t : List (κ × α)) :
    find? k t = t.findSome? fun p => if p.1 == k then some p.2 else none := by
  induction t with
  | nil => rfl
  | cons p t ih =>
    simp only [find?, List.findSome?_cons]
    split
    · rfl
    · exact ih

variable [LawfulBEq κ]

theorem mem_of_find? {k : κ} {v : α} {t : List (κ × α)} (h : find? k t = some v) : (k, v) ∈ t := by
  rw [find?_eq_findSome?] at h
  obtain ⟨p, hp, he⟩ := List.exists_of_findSome?_eq_some h
  split at he
  · next hk =>
    cases he
    rwa [← eq_of_beq hk]
  · cases he

theorem find?_eq_some_iff {t : List (κ × α)} (h : (keys t).Nodup) {k : κ} {v : α} :
    find? k t = some v ↔ (k, v) ∈ t := by
  constructor
  · exact mem_of_find?
  · intro hm
    induction t with
    | nil => cases hm
    | cons p t ih =>
      obtain ⟨hp, ht⟩ := List.nodup_cons.1 h
      rw [find?]
      rcases List.mem_cons.1 hm with rfl | hm
      · rw [if_pos (beq_self_eq_true k)]
      · have hne : p.1 ≠ k := by
          rintro rfl
          exact hp (List.mem_map.2 ⟨_, hm, rfl⟩)
        rw [if_neg (by simpa using hne)]
        exact ih ht hm

/-- A keyed list is known by its keys and what stands under them. -/
theorem eq_of_find?_eq {s t : List (κ × α)} (hk : keys s = keys t) (hn : (keys s).Nodup)
    (h : ∀ k, find? k s = find? k t) : s = t := by
  induction s generalizing t with
  | nil => exact (List.map_eq_nil_iff.1 hk.symm).symm
  | cons p s ih =>
    cases t with
    | nil => cases hk
    | cons q t =>
      obtain ⟨hp, hs⟩ := List.nodup_cons.1 hn
      obtain ⟨hpq, hst⟩ := List.cons.inj hk
      have hv := h p.1
      simp only [find?, hpq, beq_self_eq_true, if_true, Option.some.injEq] at hv
      have ht : s = t := by
        apply ih hst hs
        intro k
        by_cases hpk : p.1 = k
        · -- The key is in neither tail.
          have hps : k ∉ keys s := hpk ▸ hp
          have hpt : k ∉ keys t := fun hm => hps ((congrArg (k ∈ ·) hst).mpr hm)
          rw [find?_eq_none hps, find?_eq_none hpt]
        · have hf := h k
          rwa [find?, find?, ← hpq, if_neg (by simpa using hpk), if_neg (by simpa using hpk)] at hf
      rw [ht, Prod.ext hpq hv]

/-- Two orders of the same pairs, if the same stands under each key. -/
theorem perm_of_find?_eq {s t : List (κ × α)} (hs : (keys s).Nodup) (ht : (keys t).Nodup)
    (h : ∀ k, find? k s = find? k t) : s.Perm t := by
  apply (List.perm_ext_iff_of_nodup hs.of_map ht.of_map).2
  rintro ⟨k, v⟩
  rw [← find?_eq_some_iff hs, ← find?_eq_some_iff ht, h]

end Find

section Slots

/-- The pairs of the slots that have a value. -/
def present (slots : List (κ × Option α)) : List (κ × α) :=
  slots.filterMap fun (k, v?) => v?.map (k, ·)

theorem present_append (s t : List (κ × Option α)) : present (s ++ t) = present s ++ present t := List.filterMap_append

theorem mem_present {slots : List (κ × Option α)} {k : κ} {v : α} : (k, v) ∈ present slots ↔ (k, some v) ∈ slots := by
  simp only [present, List.mem_filterMap, Option.map_eq_some_iff, Prod.mk.injEq]
  constructor
  · rintro ⟨⟨_, _⟩, hs, _, rfl, rfl, rfl⟩
    exact hs
  · intro hs
    exact ⟨_, hs, v, rfl, rfl, rfl⟩

theorem map_present {β : Type} (f : α → β) (slots : List (κ × Option α)) :
    ((present slots).map fun m => (m.1, f m.2)) = present (slots.map fun s => (s.1, s.2.map f)) := by
  induction slots with
  | nil => rfl
  | cons s slots ih =>
    obtain ⟨k, _ | v⟩ := s
    · exact ih
    · exact congrArg ((k, f v) :: ·) ih

theorem filter_present (p : κ → Bool) (slots : List (κ × Option α)) :
    (present slots).filter (fun m => p m.1) = present (slots.filter fun s => p s.1) := by
  induction slots with
  | nil => rfl
  | cons s slots ih =>
    obtain ⟨k, _ | v⟩ := s
    all_goals
      simp only [present, List.filterMap_cons, Option.map_none, Option.map_some, List.filter_cons] at ih ⊢
      split <;> simp [ih]

theorem keys_present_sublist (slots : List (κ × Option α)) : (keys (present slots)).Sublist (keys slots) := by
  induction slots with
  | nil => exact .slnil
  | cons p slots ih =>
    obtain ⟨k, _ | v⟩ := p
    · exact ih.cons k
    · exact ih.cons_cons k

theorem find?_present [BEq κ] [LawfulBEq κ] {slots : List (κ × Option α)} (h : (keys slots).Nodup) (k : κ) :
    find? k (present slots) = (find? k slots).join := by
  induction slots with
  | nil => rfl
  | cons p slots ih =>
    obtain ⟨k', v?⟩ := p
    obtain ⟨hk, hs⟩ := List.nodup_cons.1 h
    cases v? with
    | some v =>
      simp only [present, List.filterMap_cons, Option.map_some, find?]
      split
      · rfl
      · exact ih hs
    | none =>
      simp only [present, List.filterMap_cons, Option.map_none, find?]
      split
      · next he =>
        -- The key is in no later slot either.
        rw [eq_of_beq he] at hk
        exact find?_eq_none fun hm => hk ((keys_present_sublist slots).subset hm)
      · exact ih hs

end Slots

section Insert
variable [BEq κ] [LawfulBEq κ]

theorem insert_of_not_mem {k : κ} {t : List (κ × α)} (h : k ∉ keys t) (v : α) : insert k v t = t ++ [(k, v)] := by
  induction t with
  | nil => rfl
  | cons p t ih =>
    simp only [keys, List.map_cons, List.mem_cons, not_or] at h
    rw [insert, if_neg (by simpa using Ne.symm h.1), ih h.2]
    rfl

theorem keys_insert (k : κ) (v : α) (t : List (κ × α)) : keys (insert k v t) = addNew (keys t) k := by
  unfold addNew
  by_cases h : k ∈ keys t
  · rw [if_pos h]
    induction t with
    | nil => cases h
    | cons p t ih =>
      rw [insert]
      split
      · rfl
      · next hp =>
        obtain rfl | h := List.mem_cons.1 h
        · exact absurd (beq_self_eq_true _) hp
        · exact congrArg (p.1 :: ·) (ih h)
  · rw [if_neg h, insert_of_not_mem h]
    exact keys_append t [(k, v)]

theorem mem_of_mem_insert {k : κ} {v : α} {t : List (κ × α)} {p : κ × α} (h : p ∈ insert k v t) :
    p = (k, v) ∨ p ∈ t := by
  induction t with
  | nil => exact .inl (List.mem_singleton.1 h)
  | cons q t ih =>
    rw [insert] at h
    split at h
    · next hq =>
      rcases List.mem_cons.1 h with rfl | h
      · exact .inl (congrArg (·, v) (eq_of_beq hq))
      · exact .inr (List.mem_cons_of_mem q h)
    · rcases List.mem_cons.1 h with rfl | h
      · exact .inr List.mem_cons_self
      · exact (ih h).imp_right (List.mem_cons_of_mem q)

theorem mem_of_mem_insertAll {pairs t : List (κ × α)} {p : κ × α} (h : p ∈ insertAll pairs t) : p ∈ pairs ∨ p ∈ t := by
  induction pairs generalizing t with
  | nil => exact .inr h
  | cons q pairs ih =>
    rcases ih h with hp | hp
    · exact .inl (List.mem_cons_of_mem q hp)
    · rcases mem_of_mem_insert hp with rfl | hp
      · exact .inl List.mem_cons_self
      · exact .inr hp

theorem mem_of_mem_ofPairs {pairs : List (κ × α)} {p : κ × α} (h : p ∈ ofPairs pairs) : p ∈ pairs :=
  (mem_of_mem_insertAll h).resolve_right List.not_mem_nil

theorem nodup_keys_insert {t : List (κ × α)} (h : (keys t).Nodup) (k : κ) (v : α) : (keys (insert k v t)).Nodup := by
  rw [keys_insert]
  exact nodup_addNew h k

theorem nodup_keys_insertAll (pairs : List (κ × α)) {t : List (κ × α)} (h : (keys t).Nodup) :
    (keys (insertAll pairs t)).Nodup := by
  induction pairs generalizing t with
  | nil => exact h
  | cons p pairs ih => exact ih (nodup_keys_insert h p.1 p.2)

theorem nodup_keys_ofPairs (pairs : List (κ × α)) : (keys (ofPairs pairs)).Nodup :=
  nodup_keys_insertAll pairs List.nodup_nil

theorem find?_insert (k k' : κ) (v : α) (t : List (κ × α)) :
    find? k (insert k' v t) = if k' == k then some v else find? k t := by
  induction t with
  | nil => rfl
  | cons p t ih =>
    rw [insert]
    by_cases hp : p.1 = k'
    · subst hp
      simp only [beq_self_eq_true, if_true, find?]
      split <;> rfl
    · rw [if_neg (by simpa using hp), find?, ih, find?]
      by_cases hk : p.1 = k
      · subst hk
        simp [Ne.symm hp]
      · simp [hk]

theorem keys_insertAll (pairs t : List (κ × α)) : keys (insertAll pairs t) = (keys pairs).foldl addNew (keys t) := by
  induction pairs generalizing t with
  | nil => rfl
  | cons p pairs ih => exact (ih _).trans (congrArg ((keys pairs).foldl addNew) (keys_insert p.1 p.2 t))

/-- The last of the pairs that has the key counts, and what was there before if there is none. -/
theorem find?_insertAll (k : κ) (pairs t : List (κ × α)) :
    find? k (insertAll pairs t) = (find? k pairs.reverse).or (find? k t) := by
  rw [find?_eq_findSome? k pairs.reverse]
  refine foldl_eq_latest? (fun t p => ?_) t pairs
  rw [find?_insert]
  split <;> rfl

/-- The same pairs once more change nothing. -/
theorem insertAll_again (pairs : List (κ × α)) {t : List (κ × α)} (h : (keys t).Nodup) :
    insertAll pairs (insertAll pairs t) = insertAll pairs t := by
  apply eq_of_find?_eq
  · rw [keys_insertAll, keys_insertAll, foldl_addNew_again]
  · exact nodup_keys_insertAll _ (nodup_keys_insertAll _ h)
  · intro k
    rw [find?_insertAll k pairs (insertAll pairs t), find?_insertAll, ← Option.or_assoc, Option.or_self]

theorem insertAll_of_nodup {pairs t : List (κ × α)} (h : (keys (t ++ pairs)).Nodup) :
    insertAll pairs t = t ++ pairs := by
  -- The keyed list grows at its end, so the induction is over every list with keys apart from those to come.
  induction pairs generalizing t with
  | nil => exact (List.append_nil t).symm
  | cons p pairs ih =>
    have hp : p.1 ∉ keys t := by
      intro hm
      rw [keys_append] at h
      exact (List.nodup_append.1 h).2.2 _ hm _ List.mem_cons_self rfl
    have hi : insertAll (p :: pairs) t = insertAll pairs (t ++ [p]) := by
      rw [← insert_of_not_mem hp]
      rfl
    rw [hi, ih (by simpa using h), List.append_assoc, List.singleton_append]

/-- Pairs of distinct keys are their own keyed list. -/
theorem ofPairs_of_nodup {pairs : List (κ × α)} (h : (keys pairs).Nodup) : ofPairs pairs = pairs :=
  insertAll_of_nodup h

end Insert

end PubSub.Assoc
