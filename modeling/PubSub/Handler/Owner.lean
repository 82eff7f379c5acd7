import PubSub.Assoc
import PubSub.Handler.Basic
import PubSub.Lineage
import PubSub.Text.Fault
/-!
# Owners of handlers

Handlers are attributes of classes, and a class has those of the classes that it extends. An owner is a class or an
instance of one; it shows its attributes by name, and of several of one name the nearest.
-/
namespace PubSub

/-- An attribute of a class or of an instance. -/
inductive Attribute
  | handler (h : Handler)
  /-- A handler in a wrapper, which is taken off when the attribute is read through a class. -/
  | wrapped (h : Handler)
  /-- A handler that is computed when it is read on an instance. -/
  | computed (h : Handler)
  /-- Computed, and raising an error when it is read. -/
  | failing (error : Raised)
  /-- Anything without marks. -/
  | plain

namespace Attribute

/-- What is seen where the attribute itself stands, as on an instance that has it for its own. -/
def bare : Attribute → Option Handler
  | .handler h => some h
  | _ => none

/-- What is seen on a class that has the attribute. -/
def onClass : Attribute → Option Handler
  | .handler h => some h
  | .wrapped h => some h
  | _ => none

/-- What is seen on an instance of such a class, or the error. An attribute error says that nothing is there. -/
def onInstance : Attribute → Except Raised (Option Handler)
  | .handler h => .ok (some h)
  | .wrapped h => .ok (some h)
  | .computed h => .ok (some h)
  | .failing error => if error.errorClass.Extends .attribute then .ok none else .error error
  | .plain => .ok none

/-- The attribute is computed, so that one of an instance's own does not take its place. -/
def IsComputed : Attribute → Bool
  | .computed _ => true
  | .failing _ => true
  | .handler _ => false
  | .wrapped _ => false
  | .plain => false

end Attribute

/-- A class: its number and those of the classes that it extends, nearest first, and its own attributes. -/
structure Class where
  name : Text
  lineage : List Nat
  attributes : List (Text × Attribute)

inductive ClassError
  | notEncodable (fault : EncodeFault)
  | nullInName
  | duplicateBase (name : Text)
  /-- The orders in which some classes are extended contradict one another, in the words given. -/
  | inconsistent (wording : Text)
  /-- They do so, but their names are too long for the wording to be read. -/
  | unreadable (fault : DecodeFault)

def ClassError.message : ClassError → Text
  | .notEncodable fault => fault.message
  | .nullInName => lit "type name must not contain null characters"
  | .duplicateBase name => lit "duplicate base class " ++ name
  | .inconsistent wording => wording
  | .unreadable fault => fault.message

def ClassError.errorClass : ClassError → ErrorClass
  | .notEncodable fault => fault.errorClass
  | .nullInName => .value
  | .duplicateBase _ | .inconsistent _ => .type
  | .unreadable fault => fault.errorClass

/-- The octets that the wording of a contradiction may have. -/
def contradictionSize : Nat := 999

/-- The contradiction between the orders in which the classes of these names are extended. Its wording is cut off
after `contradictionSize` octets, and cannot be read if the cut goes through a character. -/
def ClassError.contradiction (names : List Text) : ClassError :=
  let wording :=
    lit "Cannot create a consistent method resolution\norder (MRO) for bases " ++ Text.join (lit ", ") names
  match Text.decodeUtf8 (((wording.flatMap Text.utf8Octets).take contradictionSize).map UInt8.ofNat) with
  | .ok shown => .inconsistent shown
  | .error fault => .unreadable fault

/-- Classes by number, in the order of their definitions. All extend the first. -/
structure Hierarchy where
  classes : List Class := [⟨lit "object", [0], []⟩]

namespace Hierarchy

/-- The number of the last class of a name. -/
def find? (h : Hierarchy) (name : Text) : Option Nat :=
  (List.range h.classes.length).reverse.find? fun n => h.classes[n]?.map Class.name = some name

def nameOf (h : Hierarchy) (n : Nat) : Text := (h.classes[n]?.map Class.name).getD []

def lineageOf (h : Hierarchy) (n : Nat) : List Nat := (h.classes[n]?.map Class.lineage).getD []

/-- The first element that stands twice. -/
def firstRepeated? : List Nat → Option Nat
  | [] => none
  | n :: ns => if n ∈ ns then some n else firstRepeated? ns

/-- The lineage of a class that extends some others, without itself. -/
def lineageFrom (h : Hierarchy) (bases : List Nat) : Except ClassError (List Nat) :=
  match firstRepeated? bases with
  | some n => .error (.duplicateBase (h.nameOf n))
  | none =>
    (Lineage.merge (bases.map h.lineageOf ++ [bases])).mapError fun heads => .contradiction (heads.map h.nameOf)

/-- A name that a class may have. -/
def checkName (name : Text) : Except ClassError Unit := do
  discard <| (Text.encodeUtf8 name).mapError .notEncodable
  if name.any (fun c => c = 0) then throw .nullInName

/-- The hierarchy with one more class. -/
def define (h : Hierarchy) (name : Text) (bases : List Nat) (attributes : List (Text × Attribute)) :
    Except ClassError Hierarchy := do
  checkName name
  let lineage ← h.lineageFrom (if bases = [] then [0] else bases)
  return ⟨h.classes ++ [⟨name, h.classes.length :: lineage, attributes⟩]⟩

end Hierarchy

structure Owner where
  name : Text
  isInstance : Bool
  /-- The attributes that an instance has of its own. -/
  own : List (Text × Attribute)
  /-- The attributes of the classes, nearest first. -/
  inherited : List (List (Text × Attribute))

namespace Owner

/-- The class of the given number. -/
def ofClass (h : Hierarchy) (n : Nat) : Owner :=
  ⟨h.nameOf n, false, [], (h.lineageOf n).filterMap fun m => h.classes[m]?.map Class.attributes⟩

def findInherited? (o : Owner) (name : Text) : Option Attribute := o.inherited.findSome? (Assoc.find? name)

/-- An instance of the class of the given number, with attributes of its own. -/
def ofInstance (h : Hierarchy) (n : Nat) (own : List (Text × Attribute)) : Owner :=
  { ofClass h n with isInstance := true, own }

/-- Names that begin with two underscores are not looked at. -/
def IsVisible (name : Text) : Prop := Text.after? (lit "__") name = none

instance (name : Text) : Decidable (IsVisible name) := inferInstanceAs (Decidable (_ = none))

/-- The names of the attributes, each once, in the order of their code points. -/
def names (o : Owner) : List Text :=
  ((o.own :: o.inherited).flatMap Assoc.keys).eraseDups.filter (fun name => IsVisible name)
    |>.mergeSort Text.le

/-- The handler of a name that the classes have, or the error of computing it. -/
def readInherited (o : Owner) (name : Text) : Except Raised (Option Handler) :=
  match o.findInherited? name with
  | some a => if o.isInstance then a.onInstance else .ok a.onClass
  | none => .ok none

/-- The handler of a name, or the error of computing it. What is computed comes before the owner's own attribute of the
name, and that before all else. -/
def read (o : Owner) (name : Text) : Except Raised (Option Handler) :=
  match Assoc.find? name o.own with
  | some a => if (o.findInherited? name).any Attribute.IsComputed then o.readInherited name else .ok a.bare
  | none => o.readInherited name

end Owner

end PubSub
