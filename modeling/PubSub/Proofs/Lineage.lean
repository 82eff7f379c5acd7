import PubSub.Lineage
import PubSub.Proofs.Outcome
/-!
# What comes of merging lines of descent

What stands in some line stands in the merged one, and nothing else does, in the order that it has in each line
(`isMerged_of_merge`). Where no line has anything twice, neither has the merged one.
-/
namespace PubSub.Lineage

variable {α : Type} [DecidableEq α] {lines : List (List α)} {l line : List α} {a b : α}

/-- The list has all that the lines have, in the order of each of them, and nothing else. -/
structure IsMerged (lines : List (List α)) (l : List α) : Prop where
  order : ∀ line ∈ lines, line.Sublist l
  mem : ∀ a ∈ l, ∃ line ∈ lines, a ∈ line

theorem mem_of_mem_advance (h : b ∈ advance a line) : b ∈ line := by
  cases line with
  | nil => cases h
  | cons c line =>
    rw [advance] at h
    split at h
    · exact .tail _ h
    · exact h

theorem sublist_of_advance (h : (advance a line).Sublist l) : line.Sublist (a :: l) := by
  cases line with
  | nil => exact List.nil_sublist _
  | cons b line =>
    rw [advance] at h
    split at h
    · next he =>
      subst he
      exact h.cons_cons b
    · exact h.cons a

/-- What is merged was at the front of some line, or else nothing is left in any. -/
theorem merge_cases (h : merge lines = .ok l) :
    (∃ a rest, next? lines = some a ∧ merge (advanceAll a lines) = .ok rest ∧ l = a :: rest) ∨
    l = [] ∧ ∀ line ∈ lines, line = [] := by
  rw [merge] at h
  split at h
  · next a ha =>
    obtain ⟨rest, hr, rfl⟩ := map_eq_ok_iff.1 h
    exact .inl ⟨a, rest, ha, hr, rfl⟩
  · split at h
    · next hheads =>
      cases h
      refine .inr ⟨rfl, fun line hl => ?_⟩
      have := List.filterMap_eq_nil_iff.1 hheads line hl
      exact List.head?_eq_none_iff.1 this
    · cases h

theorem isMerged_of_merge (h : merge lines = .ok l) : IsMerged lines l := by
  induction l generalizing lines with
  | nil =>
    rcases merge_cases h with ⟨_, _, -, -, ⟨⟩⟩ | ⟨-, hnil⟩
    exact ⟨fun line hl => by rw [hnil line hl], nofun⟩
  | cons a l ih =>
    rcases merge_cases h with ⟨_, _, ha, hr, ⟨⟩⟩ | ⟨⟨⟩, -⟩
    have hrest := ih hr
    refine ⟨fun line hl => sublist_of_advance (hrest.order _ (List.mem_map_of_mem hl)), fun b hb => ?_⟩
    rcases List.mem_cons.1 hb with rfl | hb
    · obtain ⟨line, hl⟩ := exists_line_of_next? ha
      exact ⟨_, hl, .head _⟩
    · obtain ⟨_, hm, hb⟩ := hrest.mem b hb
      obtain ⟨line, hl, rfl⟩ := List.mem_map.1 hm
      exact ⟨line, hl, mem_of_mem_advance hb⟩

theorem mem_iff_of_merge (h : merge lines = .ok l) : a ∈ l ↔ ∃ line ∈ lines, a ∈ line := by
  have hm := isMerged_of_merge h
  refine ⟨hm.mem a, ?_⟩
  rintro ⟨line, hl, ha⟩
  exact (hm.order line hl).subset ha

theorem nodup_advance (h : line.Nodup) : (advance a line).Nodup := by
  cases line with
  | nil => exact h
  | cons b line =>
    rw [advance]
    split
    · exact h.of_cons
    · exact h

/-- What is taken from the front of the lines stands in none of them afterwards. -/
theorem not_mem_advance (hn : next? lines = some a) (hl : line ∈ lines) : a ∉ advance a line := by
  have ht : a ∉ line.tail := by
    have := List.find?_some hn
    simp only [List.all_eq_true, decide_eq_true_eq] at this
    exact this line hl
  cases line with
  | nil => exact List.not_mem_nil
  | cons b line =>
    rw [advance]
    split
    · exact ht
    · next hb => simpa [Ne.symm hb] using ht

theorem nodup_of_merge (hlines : ∀ line ∈ lines, line.Nodup) (h : merge lines = .ok l) : l.Nodup := by
  induction l generalizing lines with
  | nil => exact .nil
  | cons a l ih =>
    rcases merge_cases h with ⟨_, _, ha, hr, ⟨⟩⟩ | ⟨⟨⟩, -⟩
    refine List.nodup_cons.2 ⟨fun hmem => ?_, ih (fun line hl => ?_) hr⟩
    · obtain ⟨_, hm, hmem⟩ := (isMerged_of_merge hr).mem a hmem
      obtain ⟨line, hl, rfl⟩ := List.mem_map.1 hm
      exact not_mem_advance ha hl hmem
    · obtain ⟨line', hl', rfl⟩ := List.mem_map.1 hl
      exact nodup_advance (hlines line' hl')

end PubSub.Lineage
