import PubSub.Handler.Metadata
import PubSub.Handler.Owner
import PubSub.Placeholder.Resolver
import PubSub.Registry.Basic
/-!
# Discovery of handlers

Discovery goes through the attributes of an owner by name, and through the marks of each from the top down, and
declares one topic for each mark. It stops at the first error and keeps what was declared before.
-/
namespace PubSub

inductive DiscoveryError
  | refused (error : ConfigError)
  /-- A text of a mark cannot be resolved, for another reason than its placeholders. -/
  | unresolvable (error : ResolveError)
  /-- Something of the given kind in the place of a mark or of a rule, which has no such attribute. -/
  | lacks (kind name : Text)
  /-- What computing an attribute has raised. -/
  | unreadable (error : Raised)

def DiscoveryError.message : DiscoveryError → Text
  | .refused error => error.message
  | .unresolvable error => error.message
  | .lacks kind name => lit "'" ++ kind ++ lit "' object has no attribute '" ++ name ++ lit "'"
  | .unreadable error => error.message

def DiscoveryError.errorClass : DiscoveryError → ErrorClass
  | .refused error => error.errorClass
  | .unresolvable error => error.errorClass
  | .lacks .. => .attribute
  | .unreadable error => error.errorClass

/-- A failure to resolve, as it stops discovery. -/
def DiscoveryError.ofResolveError : ResolveError → DiscoveryError
  | .refused error => .refused error
  | error => .unresolvable error

/-- What discovery comes to: a mark of a handler, with the handler's name and bulk settings, or an attribute that
cannot be computed. -/
inductive Visit
  | mark (handler : Text) (m : Mark) (bulk? : Option BulkSettings)
  | failing (error : Raised)

def Owner.visitsOf (o : Owner) (name : Text) : List Visit :=
  match o.read name with
  | .error error => [.failing error]
  | .ok none => []
  | .ok (some h) => h.marks.map fun m => .mark (o.name ++ lit "." ++ name) m h.bulk?

def Owner.visits (o : Owner) : List Visit := o.names.flatMap o.visitsOf

/-- The attribute that keeps a value from passing for a rule. A rule of a routing table has a condition, but no
priority. -/
def Value.lackedOfRule : Value → Text
  | .rule _ => lit "priority"
  | _ => lit "match"

/-- The condition and the priority. Where there is no rule the condition is empty. -/
def MarkRule.parts : MarkRule → Except DiscoveryError (Value × Value)
  | .rule condition priority => .ok (condition, priority)
  | .other v => if v.IsGiven then .error (.lacks v.kind v.lackedOfRule) else .ok (.text [], .int 0)

namespace TopicMark

def declaration (t : TopicMark) (topic pubsub : Text) (deadLetter? : Option Text) (rule : Value × Value)
    (metadata : List (Text × Text)) (bulk? : Option BulkSettings) : Declaration where
  pubsub := .text pubsub
  topic := .text topic
  route := if t.route.IsGiven then t.route else .text topic
  condition := rule.1
  priority := rule.2
  deadLetter := Value.ofOption .text deadLetter?
  metadata := .mapping (metadata.map fun (name, value) => (.text name, .text value))
  bulk := Value.ofOption BulkSettings.toValue bulk?

/-- The dead letter topic, if one is given. -/
def resolveDeadLetter (t : TopicMark) (r : Resolver) : Except DiscoveryError (Option Text) :=
  if t.deadLetter.IsGiven then ((r.resolve t.deadLetter).map some).mapError .ofResolveError else .ok none

/-- The declaration of a mark whose names are known. -/
def complete (t : TopicMark) (r : Resolver) (handler : Text) (bulk? : Option BulkSettings) (topic pubsub : Text) :
    Except DiscoveryError Declaration := do
  let deadLetter? ← t.resolveDeadLetter r
  let rule ← t.rule.parts
  let metadata ← (Handler.readMetadata handler t.metadata).mapError .refused
  return t.declaration topic pubsub deadLetter? rule metadata bulk?

/-- What a mark declares; nothing, if its topic or its component resolves to the empty text. -/
def declaration? (t : TopicMark) (r : Resolver) (handler : Text) (bulk? : Option BulkSettings) :
    Except DiscoveryError (Option Declaration) := do
  let topic ← (r.resolve t.topic).mapError .ofResolveError
  let pubsub ← (r.resolve t.pubsub).mapError .ofResolveError
  if topic = [] ∨ pubsub = [] then return none
  else (t.complete r handler bulk? topic pubsub).map some

end TopicMark

namespace Registry

/-- One visit: the topic that was declared, if any. -/
def visit (r : Resolver) (registry : Registry) : Visit → Except DiscoveryError (Option TopicKey × Registry)
  | .failing error => .error (.unreadable error)
  | .mark _ (.stray kind) _ => .error (.lacks kind (lit "name"))
  | .mark handler (.topic t) bulk? => do
    match ← t.declaration? r handler bulk? with
    | none => return (none, registry)
    | some d =>
      let (key, registry) ← (registry.register d).mapError .refused
      return (some key, registry)

/-- Visits one after another, as far as they go: the topics declared, or what stopped them. -/
def visitAll (r : Resolver) (registry : Registry) :
    List Visit → Except DiscoveryError (List TopicKey) × Registry
  | [] => (.ok [], registry)
  | v :: vs =>
    match registry.visit r v with
    | .error error => (.error error, registry)
    | .ok (key?, registry) =>
      let (keys, registry) := visitAll r registry vs
      (keys.map (key?.toList ++ ·), registry)

/-- Everything that an owner's handlers declare. -/
def discover (registry : Registry) (r : Resolver) (o : Owner) :
    Except DiscoveryError (List TopicKey) × Registry :=
  registry.visitAll r o.visits

end Registry

end PubSub
