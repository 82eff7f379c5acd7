import PubSub.Assoc
import PubSub.Endpoint.Basic
import PubSub.Endpoint.PathTemplate
import PubSub.Error.Class
import PubSub.Error.Library
import PubSub.Handler.Basic
import PubSub.Handler.Discovery
import PubSub.Handler.Metadata
import PubSub.Handler.Owner
import PubSub.Json.Basic
import PubSub.Json.Document
import PubSub.Json.Parser
import PubSub.Json.Printer
import PubSub.Lineage
import PubSub.Manifest.Document
import PubSub.Manifest.Entry
import PubSub.Manifest.Failure
import PubSub.Manifest.Fields
import PubSub.Manifest.Reading
import PubSub.Manifest.Wire
import PubSub.Number.Binary64
import PubSub.Number.Decimal
import PubSub.Number.IntegerText
import PubSub.Number.Numeral
import PubSub.Number.Shortest
import PubSub.Placeholder.Basic
import PubSub.Placeholder.Environment
import PubSub.Placeholder.Resolver
import PubSub.Proofs.Accumulation
import PubSub.Proofs.Assoc
import PubSub.Proofs.Error.Class
import PubSub.Proofs.Handler.Failure
import PubSub.Proofs.Handler.Metadata
import PubSub.Proofs.Handler.Repetition
import PubSub.Proofs.Handler.Sequence
import PubSub.Proofs.Json.Heads
import PubSub.Proofs.Json.Parts
import PubSub.Proofs.Json.RoundTrip
import PubSub.Proofs.Json.Strings
import PubSub.Proofs.Lineage
import PubSub.Proofs.Manifest.Bounds
import PubSub.Proofs.Manifest.Decoding
import PubSub.Proofs.Manifest.Encodings
import PubSub.Proofs.Manifest.Octets
import PubSub.Proofs.Manifest.Reading
import PubSub.Proofs.Manifest.Refusal
import PubSub.Proofs.Manifest.RoundTrip
import PubSub.Proofs.Manifest.Shape
import PubSub.Proofs.Number.Numeral
import PubSub.Proofs.Outcome
import PubSub.Proofs.Placeholder.Resolution
import PubSub.Proofs.Placeholder.Splitting
import PubSub.Proofs.Placeholder.Strictness
import PubSub.Proofs.Registry.Acceptance
import PubSub.Proofs.Registry.Adoption
import PubSub.Proofs.Registry.Atomicity
import PubSub.Proofs.Registry.Conflicts
import PubSub.Proofs.Registry.History
import PubSub.Proofs.Registry.InPlace
import PubSub.Proofs.Registry.Log
import PubSub.Proofs.Registry.Rearrangement
import PubSub.Proofs.Registry.Representation
import PubSub.Proofs.Registry.Separation
import PubSub.Proofs.Registry.Serving
import PubSub.Proofs.Registry.Soundness
import PubSub.Proofs.Registry.Terms
import PubSub.Proofs.Registry.Typing
import PubSub.Proofs.Registry.Wording
import PubSub.Proofs.Subscription.Entry
import PubSub.Proofs.Subscription.Growth
import PubSub.Proofs.Text.Order
import PubSub.Proofs.Text.Utf8
import PubSub.Proofs.Value.RoundTrip
import PubSub.Registry.Basic
import PubSub.Registry.Call
import PubSub.Registry.Manifest
import PubSub.Subscription.Basic
import PubSub.Subscription.Change
import PubSub.Subscription.Checks
import PubSub.Subscription.Entry
import PubSub.Subscription.Error
import PubSub.Subscription.Key
import PubSub.Text.Basic
import PubSub.Text.Blank
import PubSub.Text.Encoding
import PubSub.Text.Fault
import PubSub.Text.Latin1
import PubSub.Text.Printable
import PubSub.Text.Quoted
import PubSub.Text.Utf8
import PubSub.Value.Basic
import PubSub.Value.Json
import PubSub.Value.Literal
import PubSub.Value.Mapping
