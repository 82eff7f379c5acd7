import PubSub.Manifest.Document
import PubSub.Registry.Basic
import PubSub.Subscription.Entry
import PubSub.Text.Fault
/-!
# The manifest of a registry

The manifest is made anew from what is declared, one entry for each topic in the order of the registry.
-/
namespace PubSub

inductive RenderError
  /-- An entry whose settings do not fit. -/
  | invalid (error : Manifest.Invalid)
  | notEncoded (error : Manifest.EncodeError)
  deriving DecidableEq

def RenderError.message : RenderError → Text
  | .invalid error => error.message
  | .notEncoded error => error.message

def RenderError.errorClass : RenderError → ErrorClass
  | .invalid error => error.errorClass
  | .notEncoded error => error.errorClass

namespace Registry

/-- The entries of all topics. -/
def entries (r : Registry) : Except Manifest.Invalid (List Manifest.Entry) :=
  r.subscriptions.mapM Subscription.toEntry

def render (r : Registry) : Except RenderError Bytes := do
  let entries ← r.entries.mapError .invalid
  (Manifest.encode entries).mapError .notEncoded

end Registry

end PubSub
