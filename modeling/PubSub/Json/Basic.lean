import PubSub.Assoc
import PubSub.Number.Binary64
import PubSub.Text.Basic
/-!
# JSON documents

A JSON document is a tree whose objects keep the order of their members. Numbers written without fraction and
exponent are integers of any size.
-/
namespace PubSub

inductive Json
  | null
  | bool (b : Bool)
  | int (i : Int)
  | float (x : Binary64)
  | str (t : Text)
  | arr (items : List Json)
  | obj (members : List (Text × Json))
  deriving Inhabited

/-- The most digits that an integer is written or read with. -/
def Json.maxDigits : Nat := 4300

end PubSub
