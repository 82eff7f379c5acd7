/-!
# Merging lines of descent

A class comes before the classes that it extends, and those come in the order in which they are named. `merge` puts
several lines together into one that keeps the order of each, taking from the front the first head that stands in no
tail. Where every head stands in a tail, the lines contradict one another.
-/
namespace PubSub.Lineage

variable {α : Type} [DecidableEq α]

def waiting (lines : List (List α)) : Nat := lines.flatten.length

/-- The first head that stands in the tail of no line. -/
def next? (lines : List (List α)) : Option α :=
  (lines.filterMap List.head?).find? fun a => lines.all fun l => a ∉ l.tail

/-- The line without `a` at its head. -/
def advance (a : α) : List α → List α
  | [] => []
  | b :: l => if b = a then l else b :: l

/-- All lines without `a` at their heads. -/
def advanceAll (a : α) (lines : List (List α)) : List (List α) := lines.map (advance a)

theorem length_advance_le (a : α) (l : List α) : (advance a l).length ≤ l.length := by
  unfold advance
  split
  · simp
  · split <;> simp

theorem waiting_advance_le (a : α) (lines : List (List α)) : waiting (advanceAll a lines) ≤ waiting lines := by
  induction lines with
  | nil => simp [waiting, advanceAll]
  | cons l ls ih =>
    have := length_advance_le a l
    simp [waiting, advanceAll] at ih ⊢
    omega

theorem waiting_advance_lt {a : α} {l : List α} {lines : List (List α)} (h : a :: l ∈ lines) :
    waiting (advanceAll a lines) < waiting lines := by
  induction lines with
  | nil => cases h
  | cons m ms ih =>
    rcases List.mem_cons.1 h with rfl | h
    · have := waiting_advance_le a ms
      simp [waiting, advanceAll, advance] at this ⊢
      omega
    · have := ih h
      have := length_advance_le a m
      simp [waiting, advanceAll] at *
      omega

theorem exists_line_of_next? {a : α} {lines : List (List α)} (h : next? lines = some a) :
    ∃ l, a :: l ∈ lines := by
  obtain ⟨l, hl, ha⟩ := List.mem_filterMap.1 (List.mem_of_find?_eq_some h)
  cases l with
  | nil => cases ha
  | cons b l => cases ha; exact ⟨l, hl⟩

/-- The lines put together, or the heads that block one another. -/
def merge (lines : List (List α)) : Except (List α) (List α) :=
  match _h : next? lines with
  | some a => (merge (advanceAll a lines)).map (a :: ·)
  | none =>
    -- No line is left, or every head stands in a tail.
    match lines.filterMap List.head? with
    | [] => .ok []
    | heads => .error heads.eraseDups
termination_by waiting lines
decreasing_by exact waiting_advance_lt (exists_line_of_next? _h).choose_spec

end PubSub.Lineage
