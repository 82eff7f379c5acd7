import PubSub.Text.Basic
/-!
# UTF-8

Encoding refuses the first run of code points that UTF-8 does not carry. Decoding reports the first octets
that are no UTF-8, with the reason; on request it lets three-octet surrogates pass.
-/
namespace PubSub

/-- Code points, from `first` up to and without `stop`, that an encoding does not carry. -/
structure EncodeFault where
  codec : Text
  first : Nat
  stop : Nat
  codePoint : CodePoint
  reason : Text
  deriving DecidableEq

/-- Octets, from `first` up to and without `stop`, that an encoding does not read. -/
structure DecodeFault where
  codec : Text
  first : Nat
  stop : Nat
  octet : Nat
  reason : Text
  deriving DecidableEq

namespace Text

/-- The octets of a scalar value. -/
def utf8Octets (c : CodePoint) : List Nat :=
  if c < 0x80 then [c]
  else if c < 0x800 then [0xC0 + c / 0x40, 0x80 + c % 0x40]
  else if c < 0x10000 then [0xE0 + c / 0x1000, 0x80 + c / 0x40 % 0x40, 0x80 + c % 0x40]
  else [0xF0 + c / 0x40000, 0x80 + c / 0x1000 % 0x40, 0x80 + c / 0x40 % 0x40, 0x80 + c % 0x40]

/-- The first code point of a text for which `ok` fails, with the run of those after it for which `run` holds. -/
def firstRefused (codec reason : Text) (ok run : CodePoint → Bool) (position : Nat) : Text → Option EncodeFault
  | [] => none
  | c :: t =>
    if ok c then firstRefused codec reason ok run (position + 1) t
    else some ⟨codec, position, position + 1 + (t.takeWhile run).length, c, reason⟩

/-- The refusal of the first surrogates of a text, those that `ok` lets pass apart. -/
def refusedByUtf8 (ok : CodePoint → Bool) (t : Text) : Option EncodeFault :=
  firstRefused (lit "utf-8") (lit "surrogates not allowed") ok (fun c => !decide c.IsScalar) 0 t

def encodeUtf8 (t : Text) : Except EncodeFault Bytes :=
  match refusedByUtf8 (fun c => c.IsScalar) t with
  | some fault => .error fault
  | none => .ok ((t.flatMap utf8Octets).map UInt8.ofNat)

/-- An octet that continues a character. -/
def IsContinuation (b : Nat) : Prop := 0x80 ≤ b ∧ b < 0xC0

instance (b : Nat) : Decidable (IsContinuation b) := inferInstanceAs (Decidable (_ ∧ _))

inductive Utf8Problem
  | start
  | continuation
  | ending

def Utf8Problem.reason : Utf8Problem → Text
  | .start => lit "invalid start byte"
  | .continuation => lit "invalid continuation byte"
  | .ending => lit "unexpected end of data"

/-- The octets of a text, read from `position` on. With `lone`, an octet triple that spells a surrogate
passes; without it, its second octet is a wrong continuation. -/
def decodeUtf8From (lone : Bool) (position : Nat) : List Nat → Except DecodeFault Text
  | [] => .ok []
  | a :: rest =>
    let fault (problem : Utf8Problem) (width : Nat) : Except DecodeFault Text :=
      .error ⟨lit "utf-8", position, position + width, a, problem.reason⟩
    let before (c : CodePoint) (tail : Except DecodeFault Text) : Except DecodeFault Text :=
      tail.map (c :: ·)
    if a < 0x80 then before a (decodeUtf8From lone (position + 1) rest)
    else if a < 0xC2 then fault .start 1
    else if a < 0xE0 then
      match rest with
      | [] => fault .ending 1
      | b :: rest =>
        if IsContinuation b then
          before ((a - 0xC0) * 0x40 + (b - 0x80)) (decodeUtf8From lone (position + 2) rest)
        else fault .continuation 1
    else if a < 0xF0 then
      match rest with
      | [] => fault .ending 1
      | b :: rest =>
        if ¬ IsContinuation b ∨ (a = 0xE0 ∧ b < 0xA0) then fault .continuation 1
        else
          let surrogate := a = 0xED ∧ 0xA0 ≤ b
          match rest with
          | [] => if surrogate then fault .continuation 1 else fault .ending 2
          | c :: rest =>
            if surrogate ∧ ¬ (lone ∧ IsContinuation c) then fault .continuation 1
            else if IsContinuation c then
              before ((a - 0xE0) * 0x1000 + (b - 0x80) * 0x40 + (c - 0x80))
                (decodeUtf8From lone (position + 3) rest)
            else fault .continuation 2
    else if a < 0xF5 then
      match rest with
      | [] => fault .ending 1
      | b :: rest =>
        if ¬ IsContinuation b ∨ (a = 0xF0 ∧ b < 0x90) ∨ (a = 0xF4 ∧ 0x90 ≤ b) then fault .continuation 1
        else
          match rest with
          | [] => fault .ending 2
          | c :: rest =>
            if ¬ IsContinuation c then fault .continuation 2
            else
              match rest with
              | [] => fault .ending 3
              | d :: rest =>
                if IsContinuation d then
                  before ((a - 0xF0) * 0x40000 + (b - 0x80) * 0x1000 + (c - 0x80) * 0x40 + (d - 0x80))
                    (decodeUtf8From lone (position + 4) rest)
                else fault .continuation 3
    else fault .start 1

/-- The text that UTF-8 octets spell, surrogates refused. -/
def decodeUtf8 (bs : Bytes) : Except DecodeFault Text := decodeUtf8From false 0 (bs.map UInt8.toNat)

end Text

end PubSub
