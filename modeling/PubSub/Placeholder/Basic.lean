import PubSub.Text.Basic
/-!
# Placeholders

A placeholder is written `$`, `{`, a name, perhaps a colon and a default, and `}`. A name is not empty and has neither
colon nor closing brace in it; a default may be empty and has no closing brace. `pieces` cuts a text into its
placeholders, from left to right and each as far left as it can be, and what stands between them.
-/
namespace PubSub

/-- A name to be looked up, and what stands for it if nothing is found. -/
structure Placeholder where
  name : Text
  fallback? : Option Text
  deriving DecidableEq

namespace Placeholder

/-- The placeholder as it is written. -/
def source (p : Placeholder) : Text :=
  lit "$\x7b" ++ p.name ++ (p.fallback?.map (lit ":" ++ ·)).getD [] ++ lit "\x7d"

def inName (c : CodePoint) : Bool := c ≠ 0x7D ∧ c ≠ 0x3A

def inFallback (c : CodePoint) : Bool := c ≠ 0x7D

/-- What follows the opening of a placeholder: its name, its default if there is one, and the rest of the text. -/
def inside? (t : Text) : Option (Placeholder × Text) :=
  if t.takeWhile inName = [] then none
  else
    match t.dropWhile inName with
    | [] => none
    | c :: rest =>
      if c = 0x7D then some (⟨t.takeWhile inName, none⟩, rest)
      else
        -- The default goes up to the first closing brace, whatever stands in it.
        match rest.dropWhile inFallback with
        | [] => none
        | _ :: after => some (⟨t.takeWhile inName, some (rest.takeWhile inFallback)⟩, after)

/-- A placeholder at the head of a text, with what follows it. -/
def at? (t : Text) : Option (Placeholder × Text) := (Text.after? (lit "$\x7b") t).bind inside?

theorem length_lt_of_inside? {t rest : Text} {p : Placeholder} (h : inside? t = some (p, rest)) :
    rest.length < t.length := by
  unfold inside? at h
  split at h
  · cases h
  · split at h
    · cases h
    · rename_i c after hname
      have outer := (List.dropWhile_sublist (l := t) inName).length_le
      rw [hname, List.length_cons] at outer
      split at h
      · cases h; omega
      · split at h
        · cases h
        · rename_i d last hlast
          have inner := (List.dropWhile_sublist (l := after) inFallback).length_le
          rw [hlast, List.length_cons] at inner
          cases h
          omega

theorem length_lt_of_at? {t rest : Text} {p : Placeholder} (h : at? t = some (p, rest)) :
    rest.length < t.length := by
  obtain ⟨u, hu, h⟩ := Option.bind_eq_some_iff.1 h
  have := Text.length_of_after? hu
  have := length_lt_of_inside? h
  omega

inductive Piece
  | literal (t : Text)
  | hole (p : Placeholder)
  deriving DecidableEq

/-- The text that a piece was cut from. -/
def Piece.source : Piece → Text
  | .literal t => t
  | .hole p => p.source

/-- A character put before some pieces. -/
def Piece.push (c : CodePoint) : List Piece → List Piece
  | .literal t :: ps => .literal (c :: t) :: ps
  | ps => .literal [c] :: ps

/-- The pieces of a text. No literal is empty, and no two stand next to each other. -/
def pieces (t : Text) : List Piece :=
  match t with
  | [] => []
  | c :: t =>
    match _h : at? (c :: t) with
    | some (p, rest) => .hole p :: pieces rest
    | none => Piece.push c (pieces t)
termination_by t.length
decreasing_by
  · exact length_lt_of_at? _h
  · simp

end Placeholder

end PubSub
