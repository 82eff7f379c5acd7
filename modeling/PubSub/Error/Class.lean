import PubSub.Lineage
import PubSub.Text.Basic
/-!
# Classes of errors

An error has a class, by which callers tell it from others. A class extends other classes, and what is caught by its
class is caught by each class in its lineage too.
-/
namespace PubSub

inductive ErrorClass
  | object
  | baseException
  | exception
  | attribute
  | assertion
  | importing
  | type
  | value
  | unicode
  | unicodeDecode
  | unicodeEncode
  | jsonDecode
  /-- A record with fields that do not fit. -/
  | validation
  /-- All errors of the library. -/
  | library
  /-- A declaration that is refused. -/
  | config
  | conflict
  | defaultRouteConflict
  | deadLetterConflict
  | duplicatePriority
  | invalidBulk
  | invalidKey
  | metadataParse
  | placeholder
  | manifestDecode
  | endpointUnavailable
  deriving DecidableEq

namespace ErrorClass

def name : ErrorClass → Text
  | .object => lit "object"
  | .baseException => lit "BaseException"
  | .exception => lit "Exception"
  | .attribute => lit "AttributeError"
  | .assertion => lit "AssertionError"
  | .importing => lit "ImportError"
  | .type => lit "TypeError"
  | .value => lit "ValueError"
  | .unicode => lit "UnicodeError"
  | .unicodeDecode => lit "UnicodeDecodeError"
  | .unicodeEncode => lit "UnicodeEncodeError"
  | .jsonDecode => lit "JSONDecodeError"
  | .validation => lit "ValidationError"
  | .library => lit "TopicManifestError"
  | .config => lit "SubscriptionConfigError"
  | .conflict => lit "SubscriptionConflictError"
  | .defaultRouteConflict => lit "DefaultRouteConflictError"
  | .deadLetterConflict => lit "DeadLetterTopicConflictError"
  | .duplicatePriority => lit "DuplicateRulePriorityError"
  | .invalidBulk => lit "InvalidBulkSubscribeError"
  | .invalidKey => lit "InvalidTopicKeyError"
  | .metadataParse => lit "MetadataParseError"
  | .placeholder => lit "PlaceholderResolutionError"
  | .manifestDecode => lit "ManifestDecodeError"
  | .endpointUnavailable => lit "FastAPINotAvailableError"

/-- The classes that a class extends, in their order. -/
def bases : ErrorClass → List ErrorClass
  | .object => []
  | .baseException => [.object]
  | .exception => [.baseException]
  | .attribute | .assertion | .importing | .type | .value | .library => [.exception]
  | .unicode | .jsonDecode | .validation => [.value]
  | .unicodeDecode | .unicodeEncode => [.unicode]
  | .config => [.library, .value]
  | .conflict | .invalidBulk | .invalidKey | .metadataParse | .placeholder => [.config]
  | .defaultRouteConflict | .deadLetterConflict | .duplicatePriority => [.conflict]
  | .manifestDecode => [.library]
  | .endpointUnavailable => [.library, .importing]

/-- The length of the longest way up to `object`. -/
def height : ErrorClass → Nat
  | .object => 0
  | .baseException => 1
  | .exception => 2
  | .attribute | .assertion | .importing | .type | .value | .library => 3
  | .unicode | .jsonDecode | .validation | .config | .manifestDecode | .endpointUnavailable => 4
  | .unicodeDecode | .unicodeEncode | .conflict | .invalidBulk | .invalidKey | .metadataParse | .placeholder => 5
  | .defaultRouteConflict | .deadLetterConflict | .duplicatePriority => 6

theorem height_lt_of_mem_bases {b c : ErrorClass} : b ∈ c.bases → b.height < c.height := by
  cases b <;> cases c <;> decide

/-- The class and all that it descends from, nearest first. Nothing is left if the bases contradict one another. -/
def lineage (c : ErrorClass) : List ErrorClass :=
  c :: ((Lineage.merge (c.bases.attach.map (fun b => lineage b.1) ++ [c.bases])).toOption.getD [])
termination_by c.height
decreasing_by exact height_lt_of_mem_bases b.2

/-- An error of class `c` is one of class `b` too. -/
def Extends (c b : ErrorClass) : Prop := b ∈ c.lineage

instance (c b : ErrorClass) : Decidable (c.Extends b) := inferInstanceAs (Decidable (_ ∈ _))

end ErrorClass

/-- An error as it reaches a caller. -/
structure Raised where
  errorClass : ErrorClass
  message : Text
  deriving DecidableEq

end PubSub
