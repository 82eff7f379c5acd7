import PubSub.Manifest.Entry
import PubSub.Number.Binary64
/-!
# Values

What a caller may hand over: any of these in the place of any argument. The program itself works on texts,
numbers and entries; values stand where they come in, and where a message shows what came in.
-/
namespace PubSub

/-- A value handed over by a caller. -/
inductive Value
  | none
  | bool (b : Bool)
  | int (i : Int)
  | float (x : Binary64)
  | text (t : Text)
  | bytes (bs : Bytes)
  | list (items : List Value)
  | tuple (items : List Value)
  /-- A mapping, entries in the order of insertion. -/
  | mapping (entries : List (Value × Value))
  /-- A mapping that can be read only. -/
  | view (entries : List (Value × Value))
  /-- Bulk settings of a declaration: bounds in range, and `enabled` kept as it came. -/
  | settings (enabled : Value) (maxMessages? : Option (AtLeast 1)) (maxAwaitMs? : Option (AtLeast 0))
  | rule (r : Manifest.Rule)
  | routes (r : Manifest.Routes)
  | bulk (b : Manifest.Bulk)
  | entry (e : Manifest.Entry)
  deriving Inhabited

namespace Value

/-- The kind of a value as messages name it. -/
def kind : Value → Text
  | .none => lit "NoneType"
  | .bool _ => lit "bool"
  | .int _ => lit "int"
  | .float _ => lit "float"
  | .text _ => lit "str"
  | .bytes _ => lit "bytes"
  | .list _ => lit "list"
  | .tuple _ => lit "tuple"
  | .mapping _ => lit "dict"
  | .view _ => lit "mappingproxy"
  | .settings .. => lit "BulkSubscribeConfig"
  | .rule _ => lit "TopicRule"
  | .routes _ => lit "TopicRoutes"
  | .bulk _ => lit "BulkSubscribe"
  | .entry _ => lit "SubscriptionManifestEntry"

/-- Counts as given: not nothing, not false, not zero, not empty. -/
def IsGiven : Value → Prop
  | .none => False
  | .bool b => b = true
  | .int i => i ≠ 0
  | .float x => ¬ x.IsZero
  | .text t => t ≠ []
  | .bytes bs => bs ≠ []
  | .list items => items ≠ []
  | .tuple items => items ≠ []
  | .mapping entries => entries ≠ []
  | .view entries => entries ≠ []
  | .settings .. => True
  | .rule _ => True
  | .routes _ => True
  | .bulk _ => True
  | .entry _ => True

instance IsGiven.decidable : (v : Value) → Decidable v.IsGiven
  | .none => inferInstanceAs (Decidable False)
  | .bool b => inferInstanceAs (Decidable (b = true))
  | .int i => inferInstanceAs (Decidable (i ≠ 0))
  | .float x => inferInstanceAs (Decidable (¬ x.IsZero))
  | .text t => inferInstanceAs (Decidable (t ≠ []))
  | .bytes bs => inferInstanceAs (Decidable (bs ≠ []))
  | .list items => match items with
    | [] => isFalse (fun h => h rfl)
    | _ :: _ => isTrue (by simp [IsGiven])
  | .tuple items => match items with
    | [] => isFalse (fun h => h rfl)
    | _ :: _ => isTrue (by simp [IsGiven])
  | .mapping entries => match entries with
    | [] => isFalse (fun h => h rfl)
    | _ :: _ => isTrue (by simp [IsGiven])
  | .view entries => match entries with
    | [] => isFalse (fun h => h rfl)
    | _ :: _ => isTrue (by simp [IsGiven])
  | .settings .. | .rule _ | .routes _ | .bulk _ | .entry _ => isTrue trivial

def entries? : Value → Option (List (Value × Value))
  | .mapping entries => some entries
  | .view entries => some entries
  | _ => Option.none

/-- The value, or nothing in its absence. -/
def ofOption {α : Type} (f : α → Value) (o : Option α) : Value := (o.map f).getD .none

/-- A bound that may be absent. -/
def ofBound {least : Int} (i? : Option (AtLeast least)) : Value := ofOption (fun i => .int i.val) i?

end Value

end PubSub
