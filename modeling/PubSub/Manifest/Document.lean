import PubSub.Json.Document
import PubSub.Json.Printer
import PubSub.Manifest.Reading
import PubSub.Manifest.Wire
/-!
# Manifest documents

A manifest is written as a JSON array with one object for each topic. It is read back strictly as to its shape: the
first element that is no entry stops the reading.
-/
namespace PubSub.Manifest

def document (entries : List Entry) : Json := .arr (entries.map Entry.wire)

def toText (entries : List Entry) : Except Json.WriteError Text := (document entries).write

inductive EncodeError
  | notWritten (error : Json.WriteError)
  | notEncodable (fault : EncodeFault)
  deriving DecidableEq

def EncodeError.message : EncodeError → Text
  | .notWritten error => error.message
  | .notEncodable fault => fault.message

def EncodeError.errorClass : EncodeError → ErrorClass
  | .notWritten error => error.errorClass
  | .notEncodable fault => fault.errorClass

/-- The manifest as it is served, in UTF-8. -/
def encode (entries : List Entry) : Except EncodeError Bytes := do
  let t ← (toText entries).mapError .notWritten
  (Text.encodeUtf8 t).mapError .notEncodable

inductive DocumentError
  | notText (kind : Text)
  | notJson (error : Json.ReadError)
  | notArray (kind : Text)
  | notObject (index : Nat) (kind : Text)
  | malformed (index : Nat) (failures : List Failure)
  deriving DecidableEq

def DocumentError.message : DocumentError → Text
  | .notText kind => (Json.ReadError.notText kind).message
  | .notJson error => lit "Manifest is not valid JSON: " ++ error.message
  | .notArray kind => lit "Manifest must be a JSON array, got " ++ kind
  | .notObject index kind =>
    lit "Manifest element " ++ Decimal.ofNat index ++ lit " must be an object, got " ++ kind
  | .malformed index _ => lit "Manifest element " ++ Decimal.ofNat index ++ lit " is malformed"

def DocumentError.errorClass : DocumentError → ErrorClass
  | .notText kind => (Json.ReadError.notText kind).errorClass
  | .notJson _ | .notArray _ | .notObject .. | .malformed .. => .manifestDecode

/-- A failure to read JSON as a failure to read a manifest. -/
def DocumentError.ofReadError : Json.ReadError → DocumentError
  | .notText kind => .notText kind
  | error => .notJson error

/-- The entry at a place of the array. -/
def elementOf (index : Nat) (element : Json) : Except DocumentError Entry :=
  match element with
  | .obj _ => (readEntry element.toValue).mapError (.malformed index)
  | _ => .error (.notObject index element.toValue.kind)

/-- The entries of the array from a place on. -/
def elementsFrom (index : Nat) : List Json → Except DocumentError (List Entry)
  | [] => .ok []
  | element :: elements => do
    let e ← elementOf index element
    let es ← elementsFrom (index + 1) elements
    return e :: es

def ofJson : Json → Except DocumentError (List Entry)
  | .arr elements => elementsFrom 0 elements
  | j => .error (.notArray j.toValue.kind)

/-- The entries of a manifest that a value holds as a text or as octets. -/
def decode (v : Value) : Except DocumentError (List Entry) :=
  match Json.read v with
  | .ok j => ofJson j
  | .error error => .error (.ofReadError error)

end PubSub.Manifest
