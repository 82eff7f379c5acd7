import Mathlib.Data.List.Nodup
/-!
# What accumulates

Two ways in which a run of items builds something up. An item goes to the end of a list unless it stands there already:
the list then has the distinct items, in the order in which they first came. Or an item replaces what the ones before
it said: the latest that says anything is what counts. Neither is changed by the same run once more, and where all
items agree the latest does not depend on their order.
-/
namespace PubSub

/-! ## Items at the end, once each -/

section AddNew
variable {α : Type} [BEq α] [LawfulBEq α]

/-- The list with an item at its end, unless the item stands in it. -/
def addNew (l : List α) (a : α) : List α := if a ∈ l then l else l ++ [a]

theorem addNew_of_mem {l : List α} {a : α} (h : a ∈ l) : addNew l a = l := if_pos h

theorem mem_addNew {l : List α} {a b : α} : b ∈ addNew l a ↔ b ∈ l ∨ b = a := by
  unfold addNew
  by_cases h : a ∈ l
  · rw [if_pos h]
    constructor
    · exact .inl
    · rintro (hb | rfl)
      · exact hb
      · exact h
  · rw [if_neg h]
    simp

theorem nodup_addNew {l : List α} (h : l.Nodup) (a : α) : (addNew l a).Nodup := by
  unfold addNew
  by_cases ha : a ∈ l
  · rwa [if_pos ha]
  · rw [if_neg ha]
    apply List.nodup_append.2
    refine ⟨h, List.nodup_singleton a, ?_⟩
    rintro b hb c hc rfl
    exact ha (List.mem_singleton.1 hc ▸ hb)

theorem mem_foldl_addNew {as l : List α} {b : α} : b ∈ as.foldl addNew l ↔ b ∈ l ∨ b ∈ as := by
  induction as generalizing l with
  | nil => simp
  | cons a as ih => rw [List.foldl_cons, ih, mem_addNew, List.mem_cons, or_assoc]

theorem nodup_foldl_addNew {l : List α} (h : l.Nodup) (as : List α) : (as.foldl addNew l).Nodup := by
  induction as generalizing l with
  | nil => exact h
  | cons a as ih => exact ih (nodup_addNew h a)

theorem foldl_addNew_of_subset {as l : List α} (h : ∀ a ∈ as, a ∈ l) : as.foldl addNew l = l := by
  induction as with
  | nil => rfl
  | cons a as ih =>
    obtain ⟨ha, has⟩ := List.forall_mem_cons.1 h
    rw [List.foldl_cons, addNew_of_mem ha, ih has]

/-- The same items once more add nothing. -/
theorem foldl_addNew_again (as l : List α) : as.foldl addNew (as.foldl addNew l) = as.foldl addNew l := by
  apply foldl_addNew_of_subset
  intro a ha
  exact mem_foldl_addNew.2 (.inr ha)

theorem foldl_addNew_perm {as as' l : List α} (hl : l.Nodup) (hp : as.Perm as') :
    (as.foldl addNew l).Perm (as'.foldl addNew l) := by
  apply (List.perm_ext_iff_of_nodup (nodup_foldl_addNew hl as) (nodup_foldl_addNew hl as')).2
  intro b
  rw [mem_foldl_addNew, mem_foldl_addNew, hp.mem_iff]

theorem addNew_eraseDups (l : List α) (a : α) : addNew l.eraseDups a = (l ++ [a]).eraseDups := by
  rw [List.eraseDups_append]
  unfold addNew
  by_cases h : a ∈ l
  · simp [h, List.removeAll]
  · simp [h, List.removeAll, List.eraseDups_cons]

theorem foldl_addNew_eraseDups (as l : List α) : as.foldl addNew l.eraseDups = (l ++ as).eraseDups := by
  induction as generalizing l with
  | nil => rw [List.foldl_nil, List.append_nil]
  | cons a as ih => rw [List.foldl_cons, addNew_eraseDups, ih, List.append_assoc, List.singleton_append]

/-- Items put one after another into an empty list: each once, where it first came. -/
theorem foldl_addNew_nil (as : List α) : as.foldl addNew [] = as.eraseDups :=
  foldl_addNew_eraseDups as []

end AddNew

/-! ## The latest -/

section Latest
variable {τ σ β : Type} {f : τ → Option β} {ts ts' : List τ}

/-- What the last item says that says anything. -/
def latest? (f : τ → Option β) (ts : List τ) : Option β := ts.reverse.findSome? f

theorem latest?_cons (f : τ → Option β) (t : τ) (ts : List τ) :
    latest? f (t :: ts) = (latest? f ts).or (f t) := by
  unfold latest?
  rw [List.reverse_cons, List.findSome?_append, List.findSome?_singleton]

/-- If each step replaces what is there by what its item says, a run replaces it by the latest. -/
theorem foldl_eq_latest? {g : σ → Option β} {step : σ → τ → σ}
    (h : ∀ s t, g (step s t) = (f t).or (g s)) (s : σ) (ts : List τ) :
    g (ts.foldl step s) = (latest? f ts).or (g s) := by
  induction ts generalizing s with
  | nil => rfl
  | cons t ts ih => rw [List.foldl_cons, ih, h, latest?_cons, Option.or_assoc]

theorem mem_of_latest? {b : β} (h : latest? f ts = some b) : ∃ t ∈ ts, f t = some b := by
  obtain ⟨t, ht, hb⟩ := List.exists_of_findSome?_eq_some h
  exact ⟨t, List.mem_reverse.1 ht, hb⟩

/-- Where the items agree, what one of them says is the latest. -/
theorem latest?_eq_some_iff (h : ∀ t ∈ ts, ∀ u ∈ ts, ∀ a ∈ f t, ∀ b ∈ f u, a = b) {b : β} :
    latest? f ts = some b ↔ ∃ t ∈ ts, f t = some b := by
  constructor
  · exact mem_of_latest?
  · rintro ⟨t, ht, hb⟩
    cases hl : latest? f ts with
    | none =>
      have hn := List.findSome?_eq_none_iff.1 hl t (List.mem_reverse.2 ht)
      rw [hb] at hn
      cases hn
    | some a =>
      obtain ⟨u, hu, ha⟩ := mem_of_latest? hl
      rw [h u hu t ht a ha b hb]

/-- Where the items agree, their order makes no difference to the latest. -/
theorem latest?_perm (h : ∀ t ∈ ts, ∀ u ∈ ts, ∀ a ∈ f t, ∀ b ∈ f u, a = b) (hp : ts.Perm ts') :
    latest? f ts = latest? f ts' := by
  have h' : ∀ t ∈ ts', ∀ u ∈ ts', ∀ a ∈ f t, ∀ b ∈ f u, a = b := by
    intro t ht u hu
    exact h t (hp.mem_iff.2 ht) u (hp.mem_iff.2 hu)
  ext b
  rw [latest?_eq_some_iff h, latest?_eq_some_iff h']
  simp only [hp.mem_iff]

end Latest

end PubSub
