import PubSub.Manifest.Reading
import PubSub.Subscription.Basic
/-!
# The entry of a subscription

Without content rules the default path is the entry's route. With rules the entry has a routing table: the rules
from the lowest priority up, and the default path for the rest. Metadata stands in the order of its names, so that
the entry does not depend on the order of the declarations. Every record of an entry is checked when it is built.
-/
namespace PubSub

/-- The key that an entry is about. -/
def Manifest.Entry.key (e : Manifest.Entry) : Except ConfigError TopicKey :=
  TopicKey.ofValues (.text e.pubsub) (.text e.topic)

/-- A rule as a routing table holds it. -/
def RoutingRule.toRule (r : RoutingRule) : Except Manifest.Invalid Manifest.Rule :=
  Manifest.validate (lit "TopicRule") Manifest.readRule <| Value.ofFields
    [(lit "match", .text r.condition), (lit "path", .text r.path)]

/-- Bulk settings as an entry holds them. Whether they are enabled is read leniently, and only here. -/
def BulkSettings.toBulk (b : BulkSettings) : Except Manifest.Invalid Manifest.Bulk :=
  Manifest.validate (lit "BulkSubscribe") Manifest.readBulk <| Value.ofFields
    [(lit "enabled", b.enabled),
      (lit "max_messages_count", .ofBound b.maxMessages?),
      (lit "max_await_duration_ms", .ofBound b.maxAwaitMs?)]

namespace Subscription

/-- The rules from the lowest priority up. -/
def orderedRules (s : Subscription) : List RoutingRule :=
  s.rules.mergeSort fun a b => a.priority ≤ b.priority

/-- The metadata in the order of its names. -/
def orderedMetadata (s : Subscription) : List (Text × Text) :=
  s.metadata.mergeSort fun a b => Text.le a.1 b.1

/-- The routing table, if there are rules. -/
def routes? (s : Subscription) : Except Manifest.Invalid (Option Manifest.Routes) :=
  if s.IsRouted then do
    let rules ← s.orderedRules.mapM RoutingRule.toRule
    let routes ← Manifest.validate (lit "TopicRoutes") Manifest.readRoutes <| Value.ofFields
      [(lit "rules", .tuple (rules.map .rule)), (lit "default", .ofOption .text s.defaultPath?)]
    return some routes
  else return none

/-- The only route, if there are no rules. -/
def route? (s : Subscription) : Option Text := if s.IsRouted then none else s.defaultPath?

def toEntry (s : Subscription) : Except Manifest.Invalid Manifest.Entry := do
  let routes? ← s.routes?
  let bulk? ← s.bulk?.mapM BulkSettings.toBulk
  Manifest.validate (lit "SubscriptionManifestEntry") Manifest.readEntry <| Value.ofFields
    [(lit "pubsub_name", .text s.key.pubsub),
      (lit "topic", .text s.key.topic),
      (lit "route", .ofOption .text s.route?),
      (lit "routes", .ofOption .routes routes?),
      (lit "dead_letter_topic", .ofOption .text s.deadLetter?),
      (lit "metadata", .mapping (s.orderedMetadata.map fun (k, v) => (.text k, .text v))),
      (lit "bulk_subscribe", .ofOption .bulk bulk?)]

end Subscription

end PubSub
