import Mathlib.Data.List.Nodup
import PubSub.Text.Basic
/-!
# The order of names

`Text.le` is the lexicographic order of code points, and sorting a list by distinct texts puts it in strictly ascending
order (`pairwise_before_mergeSort`).
-/
namespace PubSub.Text

/-- The text stands before another: at the first difference its code point is smaller, or it ends there. -/
abbrev Before (s t : Text) : Prop := List.Lex (fun c d : CodePoint => c < d) s t

theorem le_iff {s t : Text} : le s t = true ↔ s = t ∨ Before s t := by
  induction s generalizing t with
  | nil =>
    cases t with
    | nil => simp [le]
    | cons d t => exact ⟨fun _ => .inr .nil, fun _ => rfl⟩
  | cons c s ih =>
    cases t with
    | nil => exact ⟨nofun, by rintro (h | h) <;> cases h⟩
    | cons d t =>
      simp only [le, Bool.or_eq_true, Bool.and_eq_true, decide_eq_true_eq, ih]
      constructor
      · rintro (h | ⟨rfl, rfl | h⟩)
        · exact .inr (.rel h)
        · exact .inl rfl
        · exact .inr (.cons h)
      · rintro (h | h)
        · cases h
          exact .inr ⟨rfl, .inl rfl⟩
        · cases h with
          | rel h => exact .inl h
          | cons h => exact .inr ⟨rfl, .inr h⟩

theorem le_total (s t : Text) : (le s t || le t s) = true := by
  induction s generalizing t with
  | nil => rfl
  | cons c s ih =>
    cases t with
    | nil => rfl
    | cons d t =>
      have h := ih t
      simp only [le, Bool.or_eq_true, Bool.and_eq_true, decide_eq_true_eq] at h ⊢
      rcases Nat.lt_trichotomy c d with hc | rfl | hc
      · exact .inl (.inl hc)
      · exact h.imp (fun h => .inr ⟨rfl, h⟩) fun h => .inr ⟨rfl, h⟩
      · exact .inr (.inl hc)

theorem le_trans {s t u : Text} (h₁ : le s t = true) (h₂ : le t u = true) : le s u = true := by
  induction s generalizing t u with
  | nil => rfl
  | cons c s ih =>
    cases t with
    | nil => cases h₁
    | cons d t =>
      cases u with
      | nil => cases h₂
      | cons e u =>
        simp only [le, Bool.or_eq_true, Bool.and_eq_true, decide_eq_true_eq] at h₁ h₂ ⊢
        rcases h₁ with h₁ | ⟨rfl, h₁⟩ <;> rcases h₂ with h₂ | ⟨rfl, h₂⟩
        · exact .inl (Nat.lt_trans h₁ h₂)
        · exact .inl h₁
        · exact .inl h₂
        · exact .inr ⟨rfl, ih h₁ h₂⟩

/-- Sorted by distinct texts, a list is in strictly ascending order. -/
theorem pairwise_before_mergeSort {α : Type} {f : α → Text} {l : List α} (h : (l.map f).Nodup) :
    (l.mergeSort fun a b => le (f a) (f b)).Pairwise fun a b => Before (f a) (f b) := by
  have hs := List.pairwise_mergeSort (fun a b c => le_trans (s := f a) (t := f b) (u := f c))
    (fun a b => le_total (f a) (f b)) l
  have hn : ((l.mergeSort fun a b => le (f a) (f b)).map f).Nodup :=
    ((List.mergeSort_perm _ _).map f).nodup_iff.2 h
  -- Ascending order is strict where no two texts are equal.
  refine hs.imp₂ (fun a b hle hne => ?_) (List.pairwise_map.1 hn)
  exact (le_iff.1 hle).resolve_left hne

end PubSub.Text
