import PubSub.Subscription.Basic
/-!
# The registry of subscriptions

A registry holds one subscription for each topic, in the order in which the topics were first declared. A
declaration is taken over as a whole or not at all.
-/
namespace PubSub

/-- One declaration as a caller makes it: any value may stand in any place. -/
structure Declaration where
  pubsub : Value
  topic : Value
  route : Value
  /-- The condition of a content rule. Without one, the route is the topic's default. -/
  condition : Value := .text []
  priority : Value := .int 0
  deadLetter : Value := .none
  metadata : Value := .none
  bulk : Value := .none

namespace Subscription

/-- The route of a declaration: a content rule, or the default path. -/
def declareRoute (s : Subscription) (d : Declaration) : Except ConfigError Subscription :=
  if d.condition.IsGiven then do
    let r ← RoutingRule.ofValues d.route d.condition d.priority
    s.declareRule r
  else s.setDefaultPath d.route

/-- The subscription with a declaration taken into it. What is absent from the declaration stays as it is. -/
def declare (s : Subscription) (d : Declaration) : Except ConfigError Subscription := do
  let s ← s.declareRoute d
  let s ← if d.deadLetter.IsGiven then s.setDeadLetter d.deadLetter else pure s
  let s ← if d.metadata.IsGiven then s.mergeMetadata d.metadata else pure s
  match d.bulk with
  | .none => return s
  | bulk => s.setBulk bulk

end Subscription

/-- What may be looked for in a registry. -/
inductive Sought
  | key (key : TopicKey)
  /-- Anything that is no key. -/
  | other (v : Value)

/-- The subscriptions of all topics, in the order of their first declarations. -/
structure Registry where
  subscriptions : List Subscription := []

namespace Registry

def empty : Registry := {}

def keys (r : Registry) : List TopicKey := r.subscriptions.map Subscription.key

def size (r : Registry) : Nat := r.subscriptions.length

def find? (r : Registry) (key : TopicKey) : Option Subscription :=
  r.subscriptions.find? fun s => s.key = key

def Contains (r : Registry) (key : TopicKey) : Prop := key ∈ r.keys

instance (r : Registry) (key : TopicKey) : Decidable (r.Contains key) := inferInstanceAs (Decidable (_ ∈ _))

/-- Only keys are in a registry; anything else may be looked for too. -/
def Holds (r : Registry) : Sought → Prop
  | .key key => r.Contains key
  | .other _ => False

instance (r : Registry) : (sought : Sought) → Decidable (r.Holds sought)
  | .key key => inferInstanceAs (Decidable (r.Contains key))
  | .other _ => inferInstanceAs (Decidable False)

/-- Counts as given, even if nothing is declared. -/
def IsGiven (_ : Registry) : Prop := True

instance (r : Registry) : Decidable r.IsGiven := inferInstanceAs (Decidable True)

/-- A subscription in the place of the one of its topic, or after all others. -/
def putInto (s : Subscription) : List Subscription → List Subscription
  | [] => [s]
  | t :: ts => if t.key = s.key then s :: ts else t :: putInto s ts

def put (r : Registry) (s : Subscription) : Registry := ⟨putInto s r.subscriptions⟩

/-- The registry with a declaration taken into it, and the topic that it is about. -/
def register (r : Registry) (d : Declaration) : Except ConfigError (TopicKey × Registry) := do
  let key ← TopicKey.ofValues d.pubsub d.topic
  let s ← ((r.find? key).getD { key }).declare d
  return (key, r.put s)

def shown (r : Registry) : Text :=
  lit "SubscriptionRegistry(topics=" ++ Decimal.ofNat r.size ++ lit ")"

end Registry

end PubSub
