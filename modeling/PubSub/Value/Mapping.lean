import PubSub.Assoc
import PubSub.Error.Class
import PubSub.Number.Decimal
import PubSub.Value.Basic
/-!
# Values as keys and as mappings

Numbers that are equal are the same key, whatever their kind. Containers that can change are no keys. Anything
that runs through pairs can be made a mapping.
-/
namespace PubSub

namespace Manifest

def Rule.fieldValues (r : Rule) : List (Text × Value) :=
  [(lit "match", .text r.condition), (lit "path", .text r.path)]

def Routes.fieldValues (r : Routes) : List (Text × Value) :=
  [(lit "rules", .tuple (r.rules.map Value.rule)), (lit "default", Value.ofOption Value.text r.default?)]

def Bulk.fieldValues (b : Bulk) : List (Text × Value) :=
  [(lit "enabled", .bool b.enabled),
    (lit "max_messages_count", Value.ofBound b.maxMessages?),
    (lit "max_await_duration_ms", Value.ofBound b.maxAwaitMs?)]

def Entry.fieldValues (e : Entry) : List (Text × Value) :=
  [(lit "pubsub_name", .text e.pubsub),
    (lit "topic", .text e.topic),
    (lit "route", Value.ofOption Value.text e.route?),
    (lit "routes", Value.ofOption Value.routes e.routes?),
    (lit "dead_letter_topic", Value.ofOption Value.text e.deadLetter?),
    (lit "metadata", .mapping (e.metadata.map fun (k, v) => (Value.text k, Value.text v))),
    (lit "bulk_subscribe", Value.ofOption Value.bulk e.bulk?)]

end Manifest

namespace Value

/-- Fields handed over by name. -/
def ofFields (fields : List (Text × Value)) : Value := .mapping (fields.map fun (name, v) => (.text name, v))

/-- The integer that a number is equal to. -/
def integer? : Value → Option Int
  | .bool b => some (if b then 1 else 0)
  | .int i => some i
  | .float x => x.toInt?
  | _ => Option.none

mutual

/-- The same as a key. -/
def same : Value → Value → Bool
  | .none, .none => true
  | .text s, .text t => s = t
  | .bytes a, .bytes b => a = b
  | .tuple xs, .tuple ys => sameItems xs ys
  | .settings e m w, .settings e' m' w' => same e e' && m = m' && w = w'
  | .rule r, .rule s => r = s
  | .routes r, .routes s => r = s
  | .bulk r, .bulk s => r = s
  | .entry r, .entry s => r = s
  | .float x, .float y => x.same y
  | v, w =>
    match v.integer?, w.integer? with
    | some i, some j => i = j
    | _, _ => false

def sameItems : List Value → List Value → Bool
  | [], [] => true
  | x :: xs, y :: ys => same x y && sameItems xs ys
  | _, _ => false

end

instance : BEq Value := ⟨same⟩

mutual

/-- The kind of the part that keeps a value from being a key. -/
def unkeyable? : Value → Option Text
  | .list items => some (kind (.list items))
  | .mapping entries => some (kind (.mapping entries))
  | .view entries => some (kind (.view entries))
  | .entry _ => some (kind (.mapping []))
  | .tuple items => unkeyableItem? items
  | .settings enabled _ _ => unkeyable? enabled
  | _ => Option.none

/-- The kind of the first such part among some values. -/
def unkeyableItem? : List Value → Option Text
  | [] => Option.none
  | v :: vs => (unkeyable? v).orElse fun _ => unkeyableItem? vs

end

/-- What an iteration over a value yields. -/
def items? : Value → Option (List Value)
  | .list items => some items
  | .tuple items => some items
  | .text t => some (t.map fun c => .text [c])
  | .bytes bs => some (bs.map fun b => .int b.toNat)
  | .mapping entries => some (entries.map Prod.fst)
  | .view entries => some (entries.map Prod.fst)
  | .rule r => some (r.fieldValues.map fun (k, v) => .tuple [.text k, v])
  | .routes r => some (r.fieldValues.map fun (k, v) => .tuple [.text k, v])
  | .bulk b => some (b.fieldValues.map fun (k, v) => .tuple [.text k, v])
  | .entry e => some (e.fieldValues.map fun (k, v) => .tuple [.text k, v])
  | _ => Option.none

end Value

inductive MappingFault
  | notIterable (kind : Text)
  /-- The element at a place is no sequence. -/
  | notSequence (index : Nat)
  /-- The element at a place has a length other than two. -/
  | notPair (index length : Nat)
  | unkeyable (kind : Text)

def MappingFault.message : MappingFault → Text
  | .notIterable kind => lit "'" ++ kind ++ lit "' object is not iterable"
  | .notSequence index =>
    lit "cannot convert dictionary update sequence element #" ++ Decimal.ofNat index ++ lit " to a sequence"
  | .notPair index length =>
    lit "dictionary update sequence element #" ++ Decimal.ofNat index ++ lit " has length "
      ++ Decimal.ofNat length ++ lit "; 2 is required"
  | .unkeyable kind => lit "unhashable type: '" ++ kind ++ lit "'"

def MappingFault.errorClass : MappingFault → ErrorClass
  | .notPair .. => .value
  | .notIterable _ | .notSequence _ | .unkeyable _ => .type

namespace Value

/-- The entries of a mapping with one more pair. -/
def putPair (entries : List (Value × Value)) (k v : Value) : Except MappingFault (List (Value × Value)) :=
  match unkeyable? k with
  | some kind => .error (.unkeyable kind)
  | Option.none => .ok (Assoc.insert k v entries)

/-- Elements as entries of a mapping, the first of which has the place `index`. -/
def putElements (index : Nat) (entries : List (Value × Value)) :
    List Value → Except MappingFault (List (Value × Value))
  | [] => .ok entries
  | e :: es =>
    match e.items? with
    | Option.none => .error (.notSequence index)
    | some [k, v] =>
      match putPair entries k v with
      | .error fault => .error fault
      | .ok entries => putElements (index + 1) entries es
    | some other => .error (.notPair index other.length)

/-- The entries of a value as a mapping: those it has, or the pairs that an iteration yields. -/
def toEntries (v : Value) : Except MappingFault (List (Value × Value)) :=
  match v.entries? with
  | some entries => .ok entries
  | Option.none =>
    match v.items? with
    | some elements => putElements 0 [] elements
    | Option.none => .error (.notIterable v.kind)

end Value

end PubSub
