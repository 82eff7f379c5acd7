import PubSub.Number.Shortest
import PubSub.Text.Quoted
import PubSub.Value.Basic
/-!
# How messages show values

`literal` writes a value the way it would be written out in a source text; `display` does so too, but leaves a
text as it is.
-/
namespace PubSub

/-- A name with its value, as records show their fields. -/
structure ShownField where
  name : Text
  shown : Text

/-- A record: its kind, and its fields between parentheses. -/
def record (kind : Text) (fields : List ShownField) : Text :=
  kind ++ lit "(" ++ Text.join (lit ", ") (fields.map fun f => f.name ++ lit "=" ++ f.shown) ++ lit ")"

/-- Whatever may be missing. -/
def shownOr {α : Type} (show? : α → Text) (o : Option α) : Text := (o.map show?).getD (lit "None")

/-- Texts in parentheses; a single one keeps a comma. -/
def shownTuple : List Text → Text
  | [t] => lit "(" ++ t ++ lit ",)"
  | ts => lit "(" ++ Text.join (lit ", ") ts ++ lit ")"

/-- Entries between braces. -/
def shownMapping (entries : List Text) : Text := lit "\x7b" ++ Text.join (lit ", ") entries ++ lit "\x7d"

def shownBool (b : Bool) : Text := if b then lit "True" else lit "False"

namespace Manifest

def Rule.shownFields (r : Rule) : List ShownField :=
  [⟨lit "match", r.condition.quoted⟩, ⟨lit "path", r.path.quoted⟩]

def Routes.shownFields (r : Routes) : List ShownField :=
  [⟨lit "rules", shownTuple (r.rules.map fun x => record (lit "TopicRule") x.shownFields)⟩,
    ⟨lit "default", shownOr Text.quoted r.default?⟩]

def Bulk.shownFields (b : Bulk) : List ShownField :=
  [⟨lit "enabled", shownBool b.enabled⟩,
    ⟨lit "max_messages_count", shownOr (fun i => Decimal.ofInt i.val) b.maxMessages?⟩,
    ⟨lit "max_await_duration_ms", shownOr (fun i => Decimal.ofInt i.val) b.maxAwaitMs?⟩]

def Entry.shownFields (e : Entry) : List ShownField :=
  [⟨lit "pubsub_name", e.pubsub.quoted⟩,
    ⟨lit "topic", e.topic.quoted⟩,
    ⟨lit "route", shownOr Text.quoted e.route?⟩,
    ⟨lit "routes", shownOr (fun r => record (lit "TopicRoutes") r.shownFields) e.routes?⟩,
    ⟨lit "dead_letter_topic", shownOr Text.quoted e.deadLetter?⟩,
    ⟨lit "metadata", shownMapping (e.metadata.map fun (k, v) => k.quoted ++ lit ": " ++ v.quoted)⟩,
    ⟨lit "bulk_subscribe", shownOr (fun b => record (lit "BulkSubscribe") b.shownFields) e.bulk?⟩]

end Manifest

namespace Value

mutual

/-- A value written out. -/
def literal : Value → Text
  | .none => lit "None"
  | .bool b => shownBool b
  | .int i => Decimal.ofInt i
  | .float x => x.toText
  | .text t => t.quoted
  | .bytes bs => Bytes.quoted bs
  | .list items => lit "[" ++ Text.join (lit ", ") (literals items) ++ lit "]"
  | .tuple items => shownTuple (literals items)
  | .mapping entries => shownMapping (entryLiterals entries)
  | .view entries => lit "mappingproxy(" ++ shownMapping (entryLiterals entries) ++ lit ")"
  | .settings enabled maxMessages? maxAwaitMs? =>
    record (lit "BulkSubscribeConfig")
      [⟨lit "enabled", literal enabled⟩,
        ⟨lit "max_messages_count", shownOr (fun i => Decimal.ofInt i.val) maxMessages?⟩,
        ⟨lit "max_await_duration_ms", shownOr (fun i => Decimal.ofInt i.val) maxAwaitMs?⟩]
  | .rule r => record (lit "TopicRule") r.shownFields
  | .routes r => record (lit "TopicRoutes") r.shownFields
  | .bulk b => record (lit "BulkSubscribe") b.shownFields
  | .entry e => record (lit "SubscriptionManifestEntry") e.shownFields

def literals : List Value → List Text
  | [] => []
  | v :: vs => literal v :: literals vs

def entryLiterals : List (Value × Value) → List Text
  | [] => []
  | (k, v) :: es => (literal k ++ lit ": " ++ literal v) :: entryLiterals es

end

/-- The fields of a record without its kind. -/
def shownFieldRow (fields : List ShownField) : Text :=
  Text.join (lit " ") (fields.map fun f => f.name ++ lit "=" ++ f.shown)

/-- A value in running text: texts as they are, manifest records without their kind, all else written out. -/
def display : Value → Text
  | .text t => t
  | .rule r => shownFieldRow r.shownFields
  | .routes r => shownFieldRow r.shownFields
  | .bulk b => shownFieldRow b.shownFields
  | .entry e => shownFieldRow e.shownFields
  | .view entries => shownMapping (entryLiterals entries)
  | v => literal v

end Value

end PubSub
