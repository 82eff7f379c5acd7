import PubSub.Manifest.Wire
import PubSub.Number.Shortest
import PubSub.Json.Printer
import PubSub.Value.Basic
/-!
# Values as JSON documents

Tuples become arrays, mappings of both sorts objects, and manifest records their wire form. Of the keys that are
no texts, numbers, truth values and nothing are written as the document would write them.
-/
namespace PubSub

inductive NoJson
  | value (kind : Text)
  | key (kind : Text)
  | notWritten (error : Json.WriteError)
  deriving DecidableEq

def NoJson.message : NoJson → Text
  | .value kind => lit "Object of type " ++ kind ++ lit " is not JSON serializable"
  | .key kind => lit "keys must be str, int, float, bool or None, not " ++ kind
  | .notWritten error => error.message

def NoJson.errorClass : NoJson → ErrorClass
  | .value _ | .key _ => .type
  | .notWritten error => error.errorClass

namespace Value

/-- A document that can be written. -/
def writable (j : Json) : Except NoJson Json :=
  if j.hasLong then .error (.notWritten .tooLong) else .ok j

/-- The member name for a key. -/
def memberName : Value → Except NoJson Text
  | .text t => .ok t
  | .none => .ok (Json.print .null)
  | .bool b => .ok (Json.print (.bool b))
  | .int i => (Json.write (.int i)).mapError .notWritten
  | .float x => .ok (Json.print (.float x))
  | v => .error (.key v.kind)

mutual

/-- The JSON form of a value. -/
def toJson : Value → Except NoJson Json
  | .none => .ok .null
  | .bool b => .ok (.bool b)
  | .int i => writable (.int i)
  | .float x => .ok (.float x)
  | .text t => .ok (.str t)
  | .list items => (itemsToJson items).map .arr
  | .tuple items => (itemsToJson items).map .arr
  | .mapping entries => (entriesToJson entries).map .obj
  | .view entries => (entriesToJson entries).map .obj
  | .rule r => writable r.toJson
  | .routes r => writable r.toJson
  | .bulk b => writable b.toJson
  | .entry e => writable e.toJson
  | .bytes bs => .error (.value (kind (.bytes bs)))
  | .settings e m w => .error (.value (kind (.settings e m w)))

def itemsToJson : List Value → Except NoJson (List Json)
  | [] => .ok []
  | v :: vs => do
    let j ← toJson v
    let js ← itemsToJson vs
    return j :: js

def entriesToJson : List (Value × Value) → Except NoJson (List (Text × Json))
  | [] => .ok []
  | (k, v) :: es => do
    let name ← memberName k
    let j ← toJson v
    let ms ← entriesToJson es
    return (name, j) :: ms

end

def toJsonText (v : Value) : Except NoJson Text := v.toJson.map Json.print

end Value

end PubSub
