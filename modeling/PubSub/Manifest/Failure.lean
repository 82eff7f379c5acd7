import PubSub.Text.Basic
import PubSub.Number.Decimal
import PubSub.Error.Class
/-!
# Failures of reading a record

Reading a record reports every field that does not fit, in the order of the fields, each with the way to it.
-/
namespace PubSub.Manifest

inductive Mismatch
  | missing
  | notText
  | notUtf8
  | notBool
  /-- A text or a number that stands for no truth value. -/
  | unclearBool
  | notInteger
  | unclearInteger
  | fraction
  | notFinite
  | tooLarge
  | below (least : Int)
  | notRecord (kind : Text)
  | notMapping
  | notSequence
  | bothRoutes
  deriving DecidableEq

def Mismatch.code : Mismatch → Text
  | .missing => lit "missing"
  | .notText => lit "string_type"
  | .notUtf8 => lit "string_unicode"
  | .notBool => lit "bool_type"
  | .unclearBool => lit "bool_parsing"
  | .notInteger => lit "int_type"
  | .unclearInteger => lit "int_parsing"
  | .fraction => lit "int_from_float"
  | .notFinite => lit "finite_number"
  | .tooLarge => lit "int_parsing_size"
  | .below _ => lit "greater_than_equal"
  | .notRecord _ => lit "model_type"
  | .notMapping => lit "dict_type"
  | .notSequence => lit "tuple_type"
  | .bothRoutes => lit "value_error"

def Mismatch.message : Mismatch → Text
  | .missing => lit "Field required"
  | .notText => lit "Input should be a valid string"
  | .notUtf8 => lit "Input should be a valid string, unable to parse raw data as a unicode string"
  | .notBool => lit "Input should be a valid boolean"
  | .unclearBool => lit "Input should be a valid boolean, unable to interpret input"
  | .notInteger => lit "Input should be a valid integer"
  | .unclearInteger => lit "Input should be a valid integer, unable to parse string as an integer"
  | .fraction => lit "Input should be a valid integer, got a number with a fractional part"
  | .notFinite => lit "Input should be a finite number"
  | .tooLarge => lit "Unable to parse input string as an integer, exceeded maximum size"
  | .below least => lit "Input should be greater than or equal to " ++ Decimal.ofInt least
  | .notRecord kind => lit "Input should be a valid dictionary or instance of " ++ kind
  | .notMapping => lit "Input should be a valid dictionary"
  | .notSequence => lit "Input should be a valid tuple"
  | .bothRoutes => lit "Value error, route and routes are mutually exclusive"

/-- A step on the way to a field. -/
inductive Step
  | name (t : Text)
  | index (i : Int)
  deriving DecidableEq

/-- A mismatch and the way to it. -/
structure Failure where
  path : List Step
  mismatch : Mismatch
  deriving DecidableEq

/-- Something read, or all failures of reading it. -/
abbrev Checked (α : Type) := Except (List Failure) α

namespace Checked

/-- A single mismatch at the place itself. -/
def fail {α : Type} (m : Mismatch) : Checked α := .error [⟨[], m⟩]

/-- Failures seen from one step further out. -/
def under {α : Type} (step : Step) : Checked α → Checked α
  | .ok a => .ok a
  | .error failures => .error (failures.map fun f => ⟨step :: f.path, f.mismatch⟩)

/-- Both, or the failures of both in order. -/
def both {α β : Type} : Checked α → Checked β → Checked (α × β)
  | .ok a, .ok b => .ok (a, b)
  | .ok _, .error g => .error g
  | .error f, .ok _ => .error f
  | .error f, .error g => .error (f ++ g)

/-- All of them, or the failures of all in order. -/
def all {α : Type} : List (Checked α) → Checked (List α)
  | [] => .ok []
  | c :: cs => (both c (all cs)).map fun (a, as) => a :: as

end Checked

/-- A record that did not come out, with the failures of its fields. -/
structure Invalid where
  kind : Text
  failures : List Failure
  deriving DecidableEq

/-- The number of failures and the kind of record. -/
def Invalid.message (e : Invalid) : Text :=
  Decimal.ofNat e.failures.length ++ lit " validation error"
    ++ (if e.failures.length = 1 then [] else lit "s") ++ lit " for " ++ e.kind

def Invalid.errorClass (_ : Invalid) : ErrorClass := .validation

end PubSub.Manifest
