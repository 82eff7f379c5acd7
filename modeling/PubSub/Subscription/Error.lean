import PubSub.Error.Class
import PubSub.Subscription.Key
import PubSub.Value.Literal
/-!
# Errors of declarations

A declaration is refused because it is malformed, or because it disagrees with what is declared already for its
topic. Every error keeps what it is about.
-/
namespace PubSub

inductive BoundProblem
  | notInteger
  | below (least : Int)
  deriving DecidableEq

def BoundProblem.message : BoundProblem → Text
  | .notInteger => lit "must be an integer"
  | .below least => lit "must be >= " ++ Decimal.ofInt least

/-- Two declarations of one topic that disagree. -/
inductive Conflict
  | defaultRoute (current supplied : Text)
  | deadLetter (current supplied : Text)
  | priority (existing supplied : RoutingRule)
  deriving DecidableEq

def TopicKey.phrase (key : TopicKey) : Text :=
  lit "topic '" ++ key.topic ++ lit "' on pubsub '" ++ key.pubsub ++ lit "'"

/-- A value in running text that disagrees with another. -/
def disagreement (current supplied : Text) : Text :=
  lit " (current: '" ++ current ++ lit "', supplied: '" ++ supplied ++ lit "')"

def RoutingRule.phrase (r : RoutingRule) : Text :=
  lit "match '" ++ r.condition ++ lit "' -> '" ++ r.path ++ lit "'"

/-- The wording of a clash of two rules over a priority, which is given as a text. -/
def priorityClash (key : TopicKey) (priority : Text) (existing supplied : RoutingRule) : Text :=
  lit "A rule priority of " ++ priority ++ lit " is already used for " ++ key.phrase ++ lit " (existing: "
    ++ existing.phrase ++ lit ", supplied: " ++ supplied.phrase ++ lit ")"

def Conflict.message (key : TopicKey) : Conflict → Text
  | .defaultRoute current supplied =>
    lit "A default route is already set for " ++ key.phrase ++ disagreement current supplied
  | .deadLetter current supplied =>
    lit "A dead letter topic is already set for " ++ key.phrase ++ disagreement current supplied
  | .priority existing supplied => priorityClash key (Decimal.ofInt supplied.priority) existing supplied

def Conflict.errorClass : Conflict → ErrorClass
  | .defaultRoute .. => .defaultRouteConflict
  | .deadLetter .. => .deadLetterConflict
  | .priority .. => .duplicatePriority

/-- The wording of a refusal of a bound, for a reason that is given as a text. -/
def boundRefusal (field : Text) (value : Value) (reason : Text) : Text :=
  lit "Invalid bulk subscribe setting " ++ field ++ lit "=" ++ value.literal ++ lit ": " ++ reason

inductive ConfigError
  /-- A name that is no text or blank. -/
  | badName (field : Text) (value : Value)
  | notText (field : Text) (value : Value)
  | notEncodable (field : Text) (text : Text)
  | badPriority (value : Value)
  | badBound (field : Text) (value : Value) (problem : BoundProblem)
  | notMetadata (value : Value)
  | badMetadata (key : TopicKey) (name value : Value)
  | notBulkSettings (value : Value)
  | conflict (key : TopicKey) (conflict : Conflict)
  /-- Metadata of a handler that is no mapping of texts, nor the JSON text of one. -/
  | unreadableMetadata (handler : Text) (raw : Value) (reason : Text)
  /-- A placeholder without value and default. -/
  | unresolved (placeholder : Text)

def ConfigError.message : ConfigError → Text
  | .badName field value => field ++ lit " must be a non-empty string, got " ++ value.literal
  | .notText field value => field ++ lit " must be a string, got " ++ value.literal
  | .notEncodable field t =>
    field ++ lit " must be encodable as UTF-8, got " ++ t.quoted ++ lit ": surrogates not allowed"
  | .badPriority value => lit "priority must be an integer, got " ++ value.literal
  | .badBound field value problem => boundRefusal field value problem.message
  | .notMetadata value => lit "metadata must be a mapping, got " ++ value.literal
  | .badMetadata key name value =>
    lit "Metadata for " ++ key.phrase ++ lit " must map strings to strings, got " ++ name.literal ++ lit ": "
      ++ value.literal
  | .notBulkSettings value => lit "bulk_subscribe must be a BulkSubscribeConfig, got " ++ value.literal
  | .conflict key c => c.message key
  | .unreadableMetadata handler _ reason =>
    lit "Error while parsing metadata for handler '" ++ handler ++ lit "': " ++ reason
  | .unresolved placeholder =>
    lit "Could not resolve placeholder '" ++ placeholder
      ++ lit "'. Provide a value or use the '$\x7bname:default\x7d' form."

def ConfigError.errorClass : ConfigError → ErrorClass
  | .badName .. => .invalidKey
  | .badBound .. => .invalidBulk
  | .conflict _ c => c.errorClass
  | .unreadableMetadata .. => .metadataParse
  | .unresolved _ => .placeholder
  | .notText .. | .notEncodable .. | .badPriority _ | .notMetadata _ | .badMetadata .. | .notBulkSettings _ => .config

end PubSub
