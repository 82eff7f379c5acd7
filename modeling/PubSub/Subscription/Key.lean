import PubSub.Text.Basic
/-!
# Topic keys

A topic is known by two names: that of its pub/sub component and its own.
-/
namespace PubSub

structure TopicKey where
  pubsub : Text
  topic : Text
  deriving DecidableEq

/-- The component's name, a slash and the topic's name. -/
def TopicKey.display (k : TopicKey) : Text := k.pubsub ++ lit "/" ++ k.topic

/-- One content rule of a topic: events that match `condition` go to `path`, and rules are tried from the
lowest priority up. -/
structure RoutingRule where
  path : Text
  condition : Text
  priority : Int
  deriving DecidableEq

end PubSub
