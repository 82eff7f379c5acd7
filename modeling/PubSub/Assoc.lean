/-!
# Keyed lists in order of insertion

A list of pairs in which a key stands at most once. Putting a pair keeps the place of a key that is there
already and appends a new one.
-/
namespace PubSub.Assoc

variable {κ α : Type} [BEq κ]

def insert (k : κ) (v : α) : List (κ × α) → List (κ × α)
  | [] => [(k, v)]
  | (k', v') :: rest => if k' == k then (k', v) :: rest else (k', v') :: insert k v rest

def find? (k : κ) : List (κ × α) → Option α
  | [] => none
  | (k', v') :: rest => if k' == k then some v' else find? k rest

/-- The pairs put one after another onto a keyed list. -/
def insertAll (pairs : List (κ × α)) (onto : List (κ × α)) : List (κ × α) :=
  pairs.foldl (fun t p => insert p.1 p.2 t) onto

/-- The keyed list of some pairs: the first place and the last value of each key. -/
def ofPairs (pairs : List (κ × α)) : List (κ × α) := insertAll pairs []

def keys (t : List (κ × α)) : List κ := t.map Prod.fst

end PubSub.Assoc
