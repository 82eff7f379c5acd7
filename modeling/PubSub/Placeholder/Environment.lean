import PubSub.Assoc
import PubSub.Text.Utf8
/-!
# The environment

The variables of a process have octets for names. A text names the variable with its UTF-8 octets; each of the
surrogates `U+DC80`..`U+DCFF` stands for one octet that is no UTF-8.
-/
namespace PubSub

/-- The variables of a process by their names in octets. -/
abbrev Environment := List (Bytes × Text)

namespace Environment

/-- A surrogate that stands for an octet. -/
def IsOctet (c : CodePoint) : Prop := 0xDC80 ≤ c ∧ c ≤ 0xDCFF

instance (c : CodePoint) : Decidable (IsOctet c) := inferInstanceAs (Decidable (_ ∧ _))

def octetsOf (name : Text) : Except EncodeFault Bytes :=
  match Text.refusedByUtf8 (fun c => c.IsScalar ∨ IsOctet c) name with
  | some fault => .error fault
  | none =>
    .ok ((name.flatMap fun c => if IsOctet c then [c - 0xDC00] else Text.utf8Octets c).map UInt8.ofNat)

/-- The environment of variables named by texts. A name without octets names none. -/
def ofTexts (settings : List (Text × Text)) : Environment :=
  settings.filterMap fun (name, value) => (octetsOf name).toOption.map fun octets => (octets, value)

/-- The value of a variable, if it is set. -/
def get? (environment : Environment) (name : Text) : Except EncodeFault (Option Text) := do
  let octets ← octetsOf name
  return Assoc.find? octets environment

end Environment

end PubSub
