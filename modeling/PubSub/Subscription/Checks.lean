import PubSub.Subscription.Error
import PubSub.Text.Blank
/-!
# Checks of declared values

What a declaration may hold: texts that UTF-8 carries, names that are not blank, integers, and bulk settings with
bounds in range.
-/
namespace PubSub

/-- A text that UTF-8 carries. -/
def requireText (field : Text) : Value → Except ConfigError Text
  | .text t => if Text.Encodable t then .ok t else .error (.notEncodable field t)
  | v => .error (.notText field v)

/-- A text that is not blank and that UTF-8 carries. -/
def requireName (field : Text) : Value → Except ConfigError Text
  | .text t => if Text.Blank t then .error (.badName field (.text t)) else requireText field (.text t)
  | v => .error (.badName field v)

def TopicKey.ofValues (pubsub topic : Value) : Except ConfigError TopicKey := do
  let pubsub ← requireName (lit "pubsub_name") pubsub
  let topic ← requireName (lit "topic_name") topic
  return ⟨pubsub, topic⟩

/-- A rule of a path, a condition and a priority. A truth value is no priority. -/
def RoutingRule.ofValues (path condition priority : Value) : Except ConfigError RoutingRule := do
  let path ← requireText (lit "path") path
  let condition ← requireText (lit "match") condition
  match priority with
  | .int i => return ⟨path, condition, i⟩
  | v => throw (.badPriority v)

/-- Bulk settings as declared. What `enabled` holds is looked at when an entry is built. -/
structure BulkSettings where
  enabled : Value
  maxMessages? : Option (AtLeast 1)
  maxAwaitMs? : Option (AtLeast 0)

/-- A bound that is absent, or an integer that is not below `least`. -/
def requireBound (field : Text) (least : Int) : Value → Except ConfigError (Option (AtLeast least))
  | .none => .ok none
  | .int i => if h : least ≤ i then .ok (some ⟨i, h⟩) else .error (.badBound field (.int i) (.below least))
  | v => .error (.badBound field v .notInteger)

namespace BulkSettings

/-- Settings with their bounds checked: at least one message, and no negative time. -/
def ofValues (enabled maxMessages maxAwaitMs : Value) : Except ConfigError BulkSettings := do
  let maxMessages? ← requireBound (lit "max_messages_count") 1 maxMessages
  let maxAwaitMs? ← requireBound (lit "max_await_duration_ms") 0 maxAwaitMs
  return ⟨enabled, maxMessages?, maxAwaitMs?⟩

def toValue (b : BulkSettings) : Value := .settings b.enabled b.maxMessages? b.maxAwaitMs?

def ofValue? : Value → Option BulkSettings
  | .settings enabled maxMessages? maxAwaitMs? => some ⟨enabled, maxMessages?, maxAwaitMs?⟩
  | _ => none

end BulkSettings

def TopicKey.shown (k : TopicKey) : Text :=
  record (lit "TopicKey") [⟨lit "pubsub_name", k.pubsub.quoted⟩, ⟨lit "topic_name", k.topic.quoted⟩]

def RoutingRule.shown (r : RoutingRule) : Text :=
  record (lit "SubscriptionRule")
    [⟨lit "path", r.path.quoted⟩, ⟨lit "match", r.condition.quoted⟩, ⟨lit "priority", Decimal.ofInt r.priority⟩]

end PubSub
