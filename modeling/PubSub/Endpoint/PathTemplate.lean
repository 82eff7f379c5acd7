import PubSub.Error.Class
import PubSub.Text.Basic
/-!
# Path templates

A path may have parameters: a name between braces, perhaps with a colon and the kind of the parameter. Braces that
hold anything else stand for themselves. A template has parameters of known kinds, and no name twice.
-/
namespace PubSub

namespace CodePoint

/-- An ASCII letter or the underscore. -/
def IsNameStart (c : CodePoint) : Prop := (0x41 ≤ c ∧ c ≤ 0x5A) ∨ (0x61 ≤ c ∧ c ≤ 0x7A) ∨ c = 0x5F

instance (c : CodePoint) : Decidable c.IsNameStart := inferInstanceAs (Decidable (_ ∨ _))

/-- An ASCII letter, the underscore or a digit. -/
def IsNamePart (c : CodePoint) : Prop := c.IsNameStart ∨ c.IsDigit

instance (c : CodePoint) : Decidable c.IsNamePart := inferInstanceAs (Decidable (_ ∨ _))

end CodePoint

structure PathParameter where
  name : Text
  kind : Text := lit "str"
  deriving DecidableEq

namespace PathParameter

/-- The kinds of parameters there are. -/
def kinds : List Text := [lit "str", lit "path", lit "int", lit "float", lit "uuid"]

/-- A name at the head of a text, with what follows it. -/
def name? : Text → Option (Text × Text)
  | [] => none
  | c :: t =>
    if CodePoint.IsNameStart c then
      some (c :: t.takeWhile fun d => d.IsNamePart, t.dropWhile fun d => d.IsNamePart)
    else none

/-- A parameter at the head of a text whose opening brace is taken off. -/
def inside? (t : Text) : Option PathParameter :=
  match name? t with
  | some (name, 0x7D :: _) => some { name }
  | some (name, 0x3A :: t) =>
    match name? t with
    | some (kind, 0x7D :: _) => some ⟨name, kind⟩
    | _ => none
  | _ => none

/-- The parameters of a path. No parameter has an opening brace in it, so each brace is tried. -/
def all : Text → List PathParameter
  | [] => []
  | c :: t => if c = 0x7B then (inside? t).toList ++ all t else all t

end PathParameter

inductive TemplateError
  | unknownKind (kind : Text)
  | repeatedNames (names : List Text) (path : Text)
  deriving DecidableEq

def TemplateError.message : TemplateError → Text
  | .unknownKind kind => lit "Unknown path convertor '" ++ kind ++ lit "'"
  | .repeatedNames names path =>
    lit "Duplicated param name" ++ (if names.length = 1 then [] else lit "s") ++ lit " "
      ++ Text.join (lit ", ") names ++ lit " at path " ++ path

def TemplateError.errorClass : TemplateError → ErrorClass
  | .unknownKind _ => .assertion
  | .repeatedNames .. => .value

/-- What is wrong with a path as a template. -/
def templateFault? (path : Text) : Option TemplateError :=
  let parameters := PathParameter.all path
  match parameters.find? fun p => PathParameter.kinds.all fun k => k ≠ p.kind with
  | some p => some (.unknownKind p.kind)
  | none =>
    let names := parameters.map PathParameter.name
    match names.eraseDups.filter fun n => 1 < names.count n with
    | [] => none
    | repeated => some (.repeatedNames (repeated.mergeSort Text.le) path)

end PubSub
