import PubSub.Assoc
import PubSub.Manifest.Fields
import PubSub.Value.Mapping
/-!
# Reading entries

A record is read from a mapping, or is one already. Names of the wire form come before the plain names, and
members of other names are passed over.
-/
namespace PubSub.Manifest

/-- A rule from its members. -/
def readRule : Value → Checked Rule
  | .rule r => .ok r
  | v =>
    match v.entries? with
    | none => Checked.fail (.notRecord (lit "TopicRule"))
    | some entries =>
      let condition := readRequired [lit "match"] readText entries
      let path := readRequired [lit "path"] readText entries
      (Checked.both condition path).map fun (condition, path) => ⟨condition, path⟩

/-- The items of a sequence, each read at its place. -/
def readItems {α : Type} (read : Value → Checked α) (items : List Value) : Checked (List α) :=
  Checked.all (items.mapIdx fun i v => (read v).under (.index i))

/-- The items of a sequence. Texts, octets and mappings are none, but a record is a sequence of its fields, each a
pair of name and value. -/
def sequence? : Value → Option (List Value)
  | .text _ | .bytes _ | .mapping _ | .view _ => none
  | v => v.items?

def readRules (v : Value) : Checked (List Rule) :=
  match sequence? v with
  | none => Checked.fail .notSequence
  | some items => readItems readRule items

def readRoutes : Value → Checked Routes
  | .routes r => .ok r
  | v =>
    match v.entries? with
    | none => Checked.fail (.notRecord (lit "TopicRoutes"))
    | some entries =>
      let rules := readDefaulted [lit "rules"] [] readRules entries
      let default? := readDefaulted [lit "default"] none (readOptional readText) entries
      (Checked.both rules default?).map fun (rules, default?) => ⟨rules, default?⟩

def readBulk : Value → Checked Bulk
  | .bulk b => .ok b
  | v =>
    match v.entries? with
    | none => Checked.fail (.notRecord (lit "BulkSubscribe"))
    | some entries =>
      let enabled := readDefaulted [lit "enabled"] true readBool entries
      let maxMessages? := readDefaulted [lit "maxMessagesCount", lit "max_messages_count"] none
        (readOptional (readAtLeast 1)) entries
      let maxAwaitMs? := readDefaulted [lit "maxAwaitDurationMs", lit "max_await_duration_ms"] none
        (readOptional (readAtLeast 0)) entries
      (Checked.both enabled (Checked.both maxMessages? maxAwaitMs?)).map
        fun (enabled, maxMessages?, maxAwaitMs?) => ⟨enabled, maxMessages?, maxAwaitMs?⟩

/-- The step that leads to the entry of a key. -/
def stepOfKey (key : Value) : Step :=
  match key with
  | .text t => .name (Text.scrub t)
  | .bool b => .index (if b then 1 else 0)
  | .int i => if FitsWord i then .index i else .name key.literal
  | key => .name key.literal

/-- A name and its value; a name that does not fit is told from its value by a last step. -/
def readPair (pair : Value × Value) : Checked (Text × Text) :=
  let step := stepOfKey pair.1
  Checked.both (((readText pair.1).under (.name (lit "[key]"))).under step) ((readText pair.2).under step)

def readMetadata (v : Value) : Checked (List (Text × Text)) :=
  match v.entries? with
  | none => Checked.fail .notMapping
  | some entries => (Checked.all (entries.map readPair)).map Assoc.ofPairs

/-- An entry goes by one route or by a routing table, not by both. -/
def checkDelivery (e : Entry) : Checked Entry :=
  if e.route?.isSome ∧ e.routes?.isSome then Checked.fail .bothRoutes else .ok e

/-- An entry from its members. One that is handed over as it is goes through the last check once more. -/
def readEntry : Value → Checked Entry
  | .entry e => checkDelivery e
  | v =>
    match v.entries? with
    | none => Checked.fail (.notRecord (lit "SubscriptionManifestEntry"))
    | some entries =>
      let pubsub := readRequired [lit "pubsubname", lit "pubsub_name"] readText entries
      let topic := readRequired [lit "topic"] readText entries
      let route? := readDefaulted [lit "route"] none (readOptional readText) entries
      let routes? := readDefaulted [lit "routes"] none (readOptional readRoutes) entries
      let deadLetter? := readDefaulted [lit "deadLetterTopic", lit "dead_letter_topic"] none
        (readOptional readText) entries
      let metadata := readDefaulted [lit "metadata"] [] readMetadata entries
      let bulk? := readDefaulted [lit "bulkSubscribe", lit "bulk_subscribe"] none (readOptional readBulk) entries
      let fields := Checked.both pubsub (Checked.both topic (Checked.both route? (Checked.both routes?
        (Checked.both deadLetter? (Checked.both metadata bulk?)))))
      fields.bind fun (pubsub, topic, route?, routes?, deadLetter?, metadata, bulk?) =>
        checkDelivery ⟨pubsub, topic, route?, routes?, deadLetter?, metadata, bulk?⟩

/-- A record of the kind named `kind`, or what is wrong with it. -/
def validate {α : Type} (kind : Text) (read : Value → Checked α) (v : Value) : Except Invalid α :=
  (read v).mapError fun failures => ⟨kind, failures⟩

end PubSub.Manifest
