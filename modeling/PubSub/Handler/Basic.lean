import PubSub.Subscription.Checks
/-!
# Handlers

A handler carries marks: the topics that it was declared for, and bulk settings. Marks are put on one after another,
the lowest of a stack first; topics read from the top of the stack down, and the topmost bulk settings count.
-/
namespace PubSub

/-- What stands in the place of a rule: a rule, whose parts may be any values, or any other value. -/
inductive MarkRule
  | rule (condition : Value) (priority : Value := .int 0)
  | other (v : Value)

/-- A topic that a handler is declared for, as it was written: any value may stand in any place. -/
structure TopicMark where
  topic : Value
  pubsub : Value
  /-- Without a route, events go to the name of the topic. -/
  route : Value := .none
  rule : MarkRule := .other .none
  deadLetter : Value := .none
  metadata : Value := .none

/-- Something found in the place of a topic mark. -/
inductive Mark
  | topic (t : TopicMark)
  /-- A value of the given kind, which is no mark. -/
  | stray (kind : Text)

/-- The marks of a handler. -/
structure Handler where
  marks : List Mark := []
  bulk? : Option BulkSettings := none

inductive Annotation
  | topic (t : TopicMark)
  | bulk (maxMessages maxAwaitMs : Value)

namespace Handler

def plain : Handler := {}

/-- Some mark is on the handler. -/
def IsMarked (h : Handler) : Prop := h.marks ≠ []

instance (h : Handler) : Decidable h.IsMarked :=
  match hm : h.marks with
  | [] => isFalse (fun marked => marked hm)
  | _ :: _ => isTrue (by simp [IsMarked, hm])

/-- A handler with one more annotation on top. Bulk settings are checked when they are put on. -/
def annotate (h : Handler) : Annotation → Except ConfigError Handler
  | .topic t => .ok { h with marks := .topic t :: h.marks }
  | .bulk maxMessages maxAwaitMs => do
    let b ← BulkSettings.ofValues (.bool true) maxMessages maxAwaitMs
    return { h with bulk? := some b }

/-- A plain handler under a stack of annotations, the topmost first. -/
def ofStack : List Annotation → Except ConfigError Handler
  | [] => .ok plain
  | a :: below => do
    let h ← ofStack below
    h.annotate a

/-- A handler whose marks were put on by hand: a tuple counts, whatever is in it, and so do bulk settings. -/
def ofMarks (marks bulk : Value) : Handler :=
  let found :=
    match marks with
    | .tuple items => items.map fun v => Mark.stray v.kind
    | _ => []
  ⟨found, BulkSettings.ofValue? bulk⟩

end Handler

end PubSub
