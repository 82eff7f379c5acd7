import PubSub.Json.Document
import PubSub.Subscription.Error
import PubSub.Text.Blank
/-!
# Metadata of handlers

A handler's metadata is a mapping of texts to texts, or the JSON text of one. Nothing and a blank text stand for no
metadata.
-/
namespace PubSub.Handler

inductive MetadataProblem
  | unreadable (error : Json.ReadError)
  | notMapping (kind : Text)
  | notTexts (name value : Value)

def MetadataProblem.message : MetadataProblem → Text
  | .unreadable error => error.message
  | .notMapping kind => lit "expected a JSON object, got " ++ kind
  | .notTexts name value =>
    lit "keys and values must be strings, got " ++ name.literal ++ lit ": " ++ value.literal

/-- A name and its value, both texts. -/
def pairOf : Value × Value → Except MetadataProblem (Text × Text)
  | (.text name, .text value) => .ok (name, value)
  | (name, value) => .error (.notTexts name value)

def pairsOf (mapping : Value) : Except MetadataProblem (List (Text × Text)) :=
  match mapping.entries? with
  | none => .error (.notMapping mapping.kind)
  | some entries => entries.mapM pairOf

/-- The metadata that a value stands for. -/
def metadataOf : Value → Except MetadataProblem (List (Text × Text))
  | .none => .ok []
  | .text t =>
    if Text.Blank t then .ok []
    else do
      let j ← (Json.readText t).mapError .unreadable
      pairsOf j.toValue
  | v => pairsOf v

/-- The metadata of the handler of the given name. -/
def readMetadata (handler : Text) (raw : Value) : Except ConfigError (List (Text × Text)) :=
  (metadataOf raw).mapError fun problem => .unreadableMetadata handler raw problem.message

end PubSub.Handler
