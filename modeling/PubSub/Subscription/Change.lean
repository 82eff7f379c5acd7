import PubSub.Subscription.Basic
/-!
# Changes of a subscription

A change is one operation with the values that a caller hands over. One that is refused leaves the subscription as it
was.
-/
namespace PubSub

inductive Change
  | addRule (path condition priority : Value)
  | setDefaultPath (path : Value)
  | setDeadLetter (topic : Value)
  | mergeMetadata (metadata : Value)
  | setBulk (settings : Value)

namespace Subscription

/-- The subscription after a change, if the change is not refused. -/
def apply (s : Subscription) : Change → Except ConfigError Subscription
  | .addRule path condition priority => do
    let r ← RoutingRule.ofValues path condition priority
    s.addRule r
  | .setDefaultPath path => s.setDefaultPath path
  | .setDeadLetter topic => s.setDeadLetter topic
  | .mergeMetadata metadata => s.mergeMetadata metadata
  | .setBulk settings => s.setBulk settings

/-- What refused a change, if anything did, and the subscription afterwards. -/
def change (s : Subscription) (c : Change) : Option ConfigError × Subscription :=
  match s.apply c with
  | .ok s => (none, s)
  | .error error => (some error, s)

end Subscription

end PubSub
