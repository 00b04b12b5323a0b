import Roster.Wire.Varint

/-! Messages on the wire as lists of fields, each with a number and a payload of one of six forms. -/
namespace Roster.Wire

inductive Payload
  | varint (n : Nat)
  | fixed64 (bytes : Bytes)
  /-- Text, or a message within the message. -/
  | block (bytes : Bytes)
  /-- Fields between two marks; no message here has any, so what they hold is not kept. -/
  | group
  | fixed32 (bytes : Bytes)
  deriving DecidableEq, Repr

structure Field where
  number : Nat
  payload : Payload
  deriving DecidableEq, Repr

/-- Ends a group. -/
def groupEnd : Nat := 4

def Payload.form : Payload → Nat
  | varint _ => 0
  | fixed64 _ => 1
  | block _ => 2
  | group => 3
  | fixed32 _ => 5

def encodeKey (number form : Nat) : Bytes := encodeVarint (8 * number + form)

def Field.encode (f : Field) : Bytes :=
  encodeKey f.number f.payload.form ++
    match f.payload with
    | .varint n => encodeVarint n
    | .fixed64 bytes | .fixed32 bytes => bytes
    | .block bytes => encodeVarint bytes.length ++ bytes
    | .group => encodeKey f.number groupEnd

def encodeFields (fs : List Field) : Bytes := fs.flatMap Field.encode

/-- The number and the form of the next field. -/
def key? (bs : Bytes) : Option (Nat × Nat × Bytes) := do
  let (n, rest) ← varint? bs
  guard (n < UInt32.size ∧ 8 ≤ n)
  return (n / 8, n % 8, rest)

def take? (count : Nat) (bs : Bytes) : Option (Bytes × Bytes) :=
  if count ≤ bs.length then some (bs.take count, bs.drop count) else none

/-- A payload of a given form; `passGroup` passes over what a group holds. -/
def payload? (passGroup : Nat → Bytes → Option Bytes) (number : Nat) (bs : Bytes) :
    Nat → Option (Payload × Bytes)
  | 0 => (varint? bs).map fun r => (.varint r.1, r.2)
  | 1 => (take? 8 bs).map fun r => (.fixed64 r.1, r.2)
  | 2 => do
    let (length, rest) ← varint? bs
    let (block, rest) ← take? length rest
    return (.block block, rest)
  | 3 => (passGroup number bs).map fun rest => (.group, rest)
  | 5 => (take? 4 bs).map fun r => (.fixed32 r.1, r.2)
  | _ => none

/-- Passes over a group up to its end mark, which has the number of the group. `room` is how deep what it holds may
nest, and `fuel` is at least the number of its fields. -/
def passGroup : Nat → Nat → Nat → Bytes → Option Bytes
  | 0, _, _, _ => none
  | fuel + 1, room, number, bs => do
    let (inner, form, rest) ← key? bs
    if form = groupEnd then
      guard (inner = number)
      return rest
    guard (0 < room)
    let (_, rest) ← payload? (passGroup fuel (room - 1)) inner rest form
    passGroup fuel room number rest

def fieldsFrom (room : Nat) : Nat → Bytes → Option (List Field)
  | _, [] => some []
  | 0, _ => none
  | fuel + 1, bs => do
    let (number, form, rest) ← key? bs
    let (payload, rest) ← payload? (passGroup bs.length (room - 1)) number rest form
    return ⟨number, payload⟩ :: (← fieldsFrom room fuel rest)

/-- The fields of a message that may nest `room` deep. Every field takes at least one byte. -/
def fields? (room : Nat) (bs : Bytes) : Option (List Field) := fieldsFrom room bs.length bs

end Roster.Wire
