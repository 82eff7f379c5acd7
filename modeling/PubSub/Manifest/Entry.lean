import PubSub.Text.Basic
/-!
# Manifest entries

What a manifest says about one topic: where its events are delivered, either on one route or by a table of
rules, and the settings that go with it.
-/
namespace PubSub

/-- An integer that is not below `least`. -/
abbrev AtLeast (least : Int) := { i : Int // least ≤ i }

def AtLeast.zero : AtLeast 0 := ⟨0, Int.le_refl 0⟩

namespace Manifest

/-- Events that match `condition` go to `path`. -/
structure Rule where
  condition : Text
  path : Text
  deriving DecidableEq

/-- Rules in the order in which they are tried, and the path for events that match none. -/
structure Routes where
  rules : List Rule := []
  default? : Option Text := none
  deriving DecidableEq

/-- Delivery in batches of at least one message, after a time that is not negative. -/
structure Bulk where
  enabled : Bool := true
  maxMessages? : Option (AtLeast 1) := none
  maxAwaitMs? : Option (AtLeast 0) := none
  deriving DecidableEq

/-- One topic of a manifest. `metadata` keeps the order of its names. -/
structure Entry where
  pubsub : Text
  topic : Text
  route? : Option Text := none
  routes? : Option Routes := none
  deadLetter? : Option Text := none
  metadata : List (Text × Text) := []
  bulk? : Option Bulk := none
  deriving DecidableEq

end Manifest

end PubSub
