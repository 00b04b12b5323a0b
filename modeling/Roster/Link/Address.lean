/-! Addresses of registry nodes: URIs, or `host:port` for short. -/
namespace Roster.Address

def isUriByte (b : UInt8) : Bool :=
  let c := Char.ofNat b.toNat
  c.isAlphanum || "!#$&'()*+,-./:;=?@[]_~".toList.contains c

/-- Ends the authority of a URI. -/
def isDelimiter (b : UInt8) : Bool := b = 0x2f || b = 0x3f || b = 0x23

/-- What was seen of an authority from its start, or since its last at sign. -/
structure Authority where
  colons : Nat := 0
  opened : Bool := false
  closed : Bool := false
  percent : Bool := false
  /-- The last byte was an at sign. -/
  atEnd : Bool := false

namespace Authority

def read (a : Authority) (b : UInt8) : Option Authority :=
  let a := { a with atEnd := false }
  match Char.ofNat b.toNat with
  | ':' => if a.colons < 8 then some { a with colons := a.colons + 1 } else none
  | '[' => if a.percent || a.opened then none else some { a with opened := true }
  | ']' => if !a.opened || a.closed then none else some { a with closed := true, colons := 0, percent := false }
  | '@' => some { a with colons := 0, percent := false, atEnd := true }
  | '%' => some { a with percent := true }
  | _ => if isUriByte b then some a else none

/-- A host with one port at most, brackets closed, and escapes only in what precedes the at sign. -/
def isComplete (a : Authority) : Bool := a.opened == a.closed && a.colons ≤ 1 && !a.percent && !a.atEnd

end Authority

def isAuthority (bs : List UInt8) : Bool := (bs.foldlM Authority.read {}).any (·.isComplete)

def isPathByte (b : UInt8) : Bool :=
  b = 0x21 || (0x24 ≤ b && b ≤ 0x3b) || b = 0x3d || (0x40 ≤ b && b ≤ 0x5f) || (0x61 ≤ b && b ≤ 0x7a) ||
    b = 0x7c || b = 0x7e || b = 0x22 || b = 0x7b || b = 0x7d

def isQueryByte (b : UInt8) : Bool :=
  b = 0x21 || (0x24 ≤ b && b ≤ 0x3b) || b = 0x3d || (0x3f ≤ b && b ≤ 0x7e)

/-- A path, and after a question mark a query; what follows a number sign is not looked at. -/
def isPathAndQuery (bs : List UInt8) : Bool :=
  let bs := bs.takeWhile (· ≠ 0x23)
  (bs.takeWhile (· ≠ 0x3f)).all isPathByte && ((bs.dropWhile (· ≠ 0x3f)).drop 1).all isQueryByte

def isSchemeByte (b : UInt8) : Bool :=
  let c := Char.ofNat b.toNat
  c.isAlphanum || c = '+' || c = '-' || c = '.'

/-- The longest scheme and the longest URI. -/
def schemeLimit : Nat := 64

def uriLimit : Nat := 65534

/-- A URI with a scheme, an authority that is not empty, a path and a query. -/
def isUri (uri : String) : Bool :=
  let bs := uri.toUTF8.data.toList
  let scheme := bs.takeWhile isSchemeByte
  let rest := bs.drop scheme.length
  let authority := (rest.drop 3).takeWhile (!isDelimiter ·)
  bs.length ≤ uriLimit && scheme.length ≤ schemeLimit && rest.take 3 = "://".toUTF8.data.toList &&
    !authority.isEmpty && isAuthority authority && isPathAndQuery ((rest.drop 3).drop authority.length)

def separates : List Char → Bool
  | ':' :: '/' :: '/' :: _ => true
  | _ :: rest => separates rest
  | [] => false

/-- An address without a scheme is that of a plain HTTP server. -/
def uri (addr : String) : String := if separates addr.toList then addr else "http://" ++ addr

end Roster.Address
