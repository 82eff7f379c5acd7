import PubSub.Placeholder.Basic
import PubSub.Placeholder.Environment
import PubSub.Subscription.Error
import PubSub.Text.Blank
import PubSub.Text.Fault
import PubSub.Value.Mapping
/-!
# Resolving placeholders

The name of a placeholder, without the blanks around it, is looked up among the values given and then in the
environment. What is found, or else the default, takes the placeholder's place and is not looked into again. A
placeholder with neither stays as it is, unless the resolver is strict.
-/
namespace PubSub

/-- Where placeholders get their values from. -/
structure Resolver where
  values : List (Value × Value) := []
  useEnvironment : Bool := true
  strict : Bool := false
  environment : Environment := []

inductive ResolveError
  /-- A strict resolver finds nothing for a placeholder. -/
  | refused (error : ConfigError)
  | notText (kind : Text)
  | octets
  | unkeyable (kind : Text)
  /-- A name of a kind that names no variable. -/
  | notName (kind : Text)
  /-- A name that has no octets. -/
  | notEncodable (fault : EncodeFault)
  | notTextAt (index : Nat) (kind : Text)

def ResolveError.message : ResolveError → Text
  | .refused error => error.message
  | .notText kind => lit "expected string or bytes-like object, got '" ++ kind ++ lit "'"
  | .octets => lit "cannot use a string pattern on a bytes-like object"
  | .unkeyable kind => (MappingFault.unkeyable kind).message
  | .notName kind => lit "str expected, not " ++ kind
  | .notEncodable fault => fault.message
  | .notTextAt index kind =>
    lit "sequence item " ++ Decimal.ofNat index ++ lit ": expected str instance, " ++ kind ++ lit " found"

def ResolveError.errorClass : ResolveError → ErrorClass
  | .refused error => error.errorClass
  | .notEncodable fault => fault.errorClass
  | .notText _ | .octets | .unkeyable _ | .notName _ | .notTextAt .. => .type

namespace Resolver

/-- A resolver of values handed over as a mapping, or of none. -/
def ofValues (values : Value) (useEnvironment strict : Bool) (environment : Environment) :
    Except MappingFault Resolver := do
  let entries ← if values.IsGiven then values.toEntries else pure []
  return ⟨entries, useEnvironment, strict, environment⟩

/-- The value of a name in the environment, or nothing. -/
def lookupVariable (r : Resolver) : Value → Except ResolveError Value
  | .text name => do
    let value? ← (r.environment.get? name).mapError .notEncodable
    return Value.ofOption .text value?
  | name => throw (.notName name.kind)

/-- The value of a name, or nothing. A value given hides the variable, even if it is nothing. -/
def lookup (r : Resolver) (name : Value) : Except ResolveError Value :=
  match name.unkeyable? with
  | some kind => .error (.unkeyable kind)
  | none =>
    match Assoc.find? name r.values with
    | some value => .ok value
    | none => if r.useEnvironment then r.lookupVariable name else .ok .none

/-- What stands for a placeholder without value. -/
def absent (r : Resolver) (p : Placeholder) : Except ResolveError Value :=
  match p.fallback? with
  | some fallback => .ok (.text fallback)
  | none => if r.strict then .error (.refused (.unresolved p.source)) else .ok (.text p.source)

/-- What takes the place of a piece. -/
def expand (r : Resolver) : Placeholder.Piece → Except ResolveError Value
  | .literal t => .ok (.text t)
  | .hole p => do
    match ← r.lookup (.text (Text.trim p.name)) with
    | .none => r.absent p
    | value => return value

/-- Texts put together, the first of which has the place `index`. -/
def concat (index : Nat) : List Value → Except ResolveError Text
  | [] => .ok []
  | .text t :: vs => (concat (index + 1) vs).map (t ++ ·)
  | v :: _ => .error (.notTextAt index v.kind)

/-- A text with its placeholders replaced. -/
def resolveText (r : Resolver) (t : Text) : Except ResolveError Text := do
  let values ← (Placeholder.pieces t).mapM r.expand
  concat 0 values

/-- A value with its placeholders replaced; only a text has any. -/
def resolve (r : Resolver) : Value → Except ResolveError Text
  | .text t => r.resolveText t
  | .bytes _ => .error .octets
  | v => .error (.notText v.kind)

end Resolver

end PubSub
