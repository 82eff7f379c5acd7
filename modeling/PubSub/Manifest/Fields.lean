import PubSub.Manifest.Failure
import PubSub.Number.IntegerText
import PubSub.Value.Literal
import PubSub.Text.Utf8
/-!
# Reading the fields of a record

A field is read leniently: a truth value or a number may come as a number or as a text, and a text as octets.
-/
namespace PubSub.Manifest

/-- A text, or the UTF-8 octets of one. -/
def readText : Value → Checked Text
  | .text t => .ok t
  | .bytes bs =>
    match Text.decodeUtf8 bs with
    | .ok t => .ok t
    | .error _ => Checked.fail .notUtf8
  | _ => Checked.fail .notText

/-- Nothing, or what `read` makes of it. -/
def readOptional {α : Type} (read : Value → Checked α) : Value → Checked (Option α)
  | .none => .ok none
  | v => (read v).map some

def trueWords : List Text := [lit "1", lit "t", lit "true", lit "y", lit "yes", lit "on"]

def falseWords : List Text := [lit "0", lit "f", lit "false", lit "n", lit "no", lit "off"]

/-- A word for true or false, in any case of ASCII letters. -/
def boolOfText (t : Text) : Checked Bool :=
  let word := t.map CodePoint.toLowerAscii
  if trueWords.any (fun w => w = word) then .ok true
  else if falseWords.any (fun w => w = word) then .ok false
  else Checked.fail .unclearBool

/-- The integers of a machine word of 64 bits. -/
def FitsWord (i : Int) : Prop := -0x8000000000000000 ≤ i ∧ i < 0x8000000000000000

instance (i : Int) : Decidable (FitsWord i) := inferInstanceAs (Decidable (_ ∧ _))

/-- The integer that a number without fraction is equal to. It lies strictly between the ends of a machine word. -/
def integerOfNumber (x : Binary64) : Except Mismatch Int :=
  if ¬ x.IsFinite then .error .notFinite
  else
    match x.toInt? with
    | none => .error .fraction
    | some i => if -0x8000000000000000 < i ∧ i < 0x8000000000000000 then .ok i else .error .tooLarge

/-- The number 0 or 1. -/
def boolOfInteger (i : Int) : Checked Bool :=
  if i = 0 then .ok false else if i = 1 then .ok true else Checked.fail .unclearBool

/-- A truth value, the numbers 0 and 1, or a word. -/
def readBool : Value → Checked Bool
  | .bool b => .ok b
  | .text t => if Text.Encodable t then boolOfText t else Checked.fail .notUtf8
  | .bytes bs =>
    match Text.decodeUtf8 bs with
    | .ok t => boolOfText t
    | .error _ => Checked.fail .unclearBool
  | .int i => if FitsWord i then boolOfInteger i else Checked.fail .notBool
  | .float x =>
    match integerOfNumber x with
    | .ok i => boolOfInteger i
    | .error _ => Checked.fail .notBool
  | _ => Checked.fail .notBool

/-- A fault of a text as a mismatch. -/
def mismatchOf : IntegerText.Fault → Mismatch
  | .unclear => .unclearInteger
  | .tooLong => .tooLarge

/-- An integer written as a text. -/
def integerOfText (t : Text) : Checked Int :=
  match IntegerText.parse t with
  | .ok i => .ok i
  | .error fault => Checked.fail (mismatchOf fault)

/-- An integer, a truth value as 0 or 1, a number without fraction, or a text. -/
def readInteger : Value → Checked Int
  | .int i => .ok i
  | .bool b => .ok (if b then 1 else 0)
  | .text t => if Text.Encodable t then integerOfText t else Checked.fail .notUtf8
  | .bytes bs =>
    match Text.decodeUtf8 bs with
    | .ok t => integerOfText t
    | .error _ => Checked.fail .unclearInteger
  | .float x =>
    match integerOfNumber x with
    | .ok i => .ok i
    | .error mismatch => Checked.fail mismatch
  | _ => Checked.fail .notInteger

def readAtLeast (least : Int) (v : Value) : Checked (AtLeast least) :=
  match readInteger v with
  | .error failures => .error failures
  | .ok i => if h : least ≤ i then .ok ⟨i, h⟩ else Checked.fail (.below least)

/-- The value of the first of some names that a mapping has, with that name. -/
def firstNamed? (names : List Text) (entries : List (Value × Value)) : Option (Text × Value) :=
  names.findSome? fun name =>
    entries.findSome? fun (k, v) =>
      match k with
      | .text t => if t = name then some (name, v) else none
      | _ => none

/-- A field that has to be there, under one of its names. -/
def readRequired {α : Type} (names : List Text) (read : Value → Checked α) (entries : List (Value × Value)) :
    Checked α :=
  match firstNamed? names entries with
  | some (name, v) => (read v).under (.name name)
  | none => (Checked.fail .missing).under (.name (names.headD []))

/-- A field that may be absent, under one of its names. -/
def readDefaulted {α : Type} (names : List Text) (absent : α) (read : Value → Checked α)
    (entries : List (Value × Value)) : Checked α :=
  match firstNamed? names entries with
  | some (name, v) => (read v).under (.name name)
  | none => .ok absent

end PubSub.Manifest
