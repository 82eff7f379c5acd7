import PubSub.Json.Basic
import PubSub.Manifest.Entry
/-!
# The wire form of entries

A member stands in the wire form only if its field is set. Two forms differ in the metadata alone: `toJson` keeps
an empty one, `wire`, which is what is served, leaves it out.
-/
namespace PubSub.Manifest

/-- A member for a field that is set. -/
def memberOf {α : Type} (name : Text) (toJson : α → Json) (field? : Option α) : List (Text × Json) :=
  (field?.map fun x => (name, toJson x)).toList

def Rule.toJson (r : Rule) : Json :=
  .obj [(lit "match", .str r.condition), (lit "path", .str r.path)]

def Routes.toJson (r : Routes) : Json :=
  .obj ((lit "rules", .arr (r.rules.map Rule.toJson)) :: memberOf (lit "default") .str r.default?)

def Bulk.toJson (b : Bulk) : Json :=
  .obj ((lit "enabled", .bool b.enabled) :: memberOf (lit "maxMessagesCount") (fun i => .int i.val) b.maxMessages?
    ++ memberOf (lit "maxAwaitDurationMs") (fun i => .int i.val) b.maxAwaitMs?)

/-- Metadata as an object. A name that UTF-8 does not carry is written with replacement characters. -/
def metadataJson (metadata : List (Text × Text)) : Json :=
  .obj (Assoc.ofPairs (metadata.map fun (name, value) => (Text.scrub name, Json.str value)))

/-- The members of an entry, the metadata always among them. -/
def Entry.members (e : Entry) : List (Text × Json) :=
  [(lit "pubsubname", .str e.pubsub), (lit "topic", .str e.topic)]
    ++ memberOf (lit "route") .str e.route?
    ++ memberOf (lit "routes") Routes.toJson e.routes?
    ++ memberOf (lit "deadLetterTopic") .str e.deadLetter?
    ++ [(lit "metadata", metadataJson e.metadata)]
    ++ memberOf (lit "bulkSubscribe") Bulk.toJson e.bulk?

/-- The entry with its metadata, even an empty one. -/
def Entry.toJson (e : Entry) : Json := .obj e.members

/-- The entry as it is served: empty metadata is left out. -/
def Entry.wire (e : Entry) : Json :=
  if e.metadata = [] then .obj (e.members.filter fun m => m.1 ≠ lit "metadata") else e.toJson

end PubSub.Manifest
