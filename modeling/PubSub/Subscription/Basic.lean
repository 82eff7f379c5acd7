import PubSub.Assoc
import PubSub.Subscription.Checks
/-!
# What is declared for a topic

A subscription gathers the declarations of one topic. Content rules have priorities of their own, the default path
and the dead letter topic are set once, and metadata is merged name by name. An operation that is refused leaves
the caller with the subscription it had.
-/
namespace PubSub

/-- A setting of a topic that is given once. -/
inductive Setting
  | defaultPath
  | deadLetter

namespace Setting

/-- The argument that gives the setting. -/
def argument : Setting → Text
  | .defaultPath => lit "path"
  | .deadLetter => lit "dead_letter_topic"

/-- The conflict between what the setting is and something else. -/
def conflict : Setting → Text → Text → Conflict
  | .defaultPath => .defaultRoute
  | .deadLetter => .deadLetter

end Setting

/-- The declarations of one topic: rules in the order in which they came, metadata in the order of its names. -/
structure Subscription where
  key : TopicKey
  rules : List RoutingRule := []
  defaultPath? : Option Text := none
  deadLetter? : Option Text := none
  metadata : List (Text × Text) := []
  bulk? : Option BulkSettings := none

namespace Subscription

/-- Some content rule is declared, so events go by the routing table. -/
def IsRouted (s : Subscription) : Prop := s.rules ≠ []

instance (s : Subscription) : Decidable s.IsRouted := inferInstanceAs (Decidable (_ ≠ _))

/-- The rule that has a priority. -/
def ruleAt? (s : Subscription) (priority : Int) : Option RoutingRule :=
  s.rules.find? fun r => r.priority = priority

/-- One more rule. A priority is given once. -/
def addRule (s : Subscription) (r : RoutingRule) : Except ConfigError Subscription :=
  match s.ruleAt? r.priority with
  | some existing => .error (.conflict s.key (.priority existing r))
  | none => .ok { s with rules := s.rules ++ [r] }

/-- A rule that is there after the declaration; declaring it once more changes nothing. -/
def declareRule (s : Subscription) (r : RoutingRule) : Except ConfigError Subscription :=
  if r ∈ s.rules then .ok s else s.addRule r

/-- What a setting is, if it is given. -/
def setting? (s : Subscription) : Setting → Option Text
  | .defaultPath => s.defaultPath?
  | .deadLetter => s.deadLetter?

/-- The subscription with a setting. -/
def withSetting (s : Subscription) (x : Setting) (t : Text) : Subscription :=
  match x with
  | .defaultPath => { s with defaultPath? := some t }
  | .deadLetter => { s with deadLetter? := some t }

/-- A setting is given. It may be given again as what it is. -/
def give (s : Subscription) (x : Setting) (v : Value) : Except ConfigError Subscription := do
  let t ← requireText x.argument v
  match s.setting? x with
  | none => return s.withSetting x t
  | some current => if current = t then return s else throw (.conflict s.key (x.conflict current t))

/-- The path for events that match no rule. -/
def setDefaultPath (s : Subscription) (path : Value) : Except ConfigError Subscription := s.give .defaultPath path

/-- The topic for events that cannot be delivered. -/
def setDeadLetter (s : Subscription) (topic : Value) : Except ConfigError Subscription := s.give .deadLetter topic

/-- A name and its value, both texts that UTF-8 carries. -/
def checkPair (key : TopicKey) : Value × Value → Except ConfigError (Text × Text)
  | (.text name, .text value) => do
    let name ← requireText (lit "metadata key") (.text name)
    let value ← requireText (lit "metadata value for " ++ name.quoted) (.text value)
    return (name, value)
  | (name, value) => throw (.badMetadata key name value)

/-- Metadata merged into what is there; later values win name by name. -/
def mergeMetadata (s : Subscription) (metadata : Value) : Except ConfigError Subscription := do
  match metadata.entries? with
  | none => throw (.notMetadata metadata)
  | some entries =>
    let pairs ← entries.mapM (checkPair s.key)
    return { s with metadata := Assoc.insertAll pairs s.metadata }

/-- Bulk settings in the place of those that are there. -/
def setBulk (s : Subscription) (settings : Value) : Except ConfigError Subscription :=
  match BulkSettings.ofValue? settings with
  | none => .error (.notBulkSettings settings)
  | some b => .ok { s with bulk? := some b }

/-- A subscription written out: its topic, the number of its rules and its default path. -/
def shown (s : Subscription) : Text :=
  lit "SubscriptionBuilder(" ++ s.key.display ++ lit ", rules=" ++ Decimal.ofNat s.rules.length
    ++ lit ", default_path=" ++ shownOr Text.quoted s.defaultPath? ++ lit ")"

end Subscription

end PubSub
