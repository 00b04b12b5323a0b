import Roster.Text.Class

/-! White space: the characters of the Unicode property of that name. -/
namespace Roster.Text

def blank : Class :=
  [(0x9, 0xd), (0x20, 0x20), (0x85, 0x85), (0xa0, 0xa0), (0x1680, 0x1680), (0x2000, 0x200a),
    (0x2028, 0x2029), (0x202f, 0x202f), (0x205f, 0x205f), (0x3000, 0x3000)]

def isBlank (c : Char) : Bool := blank.contains c

/-- Nothing but white space. -/
def allBlank (s : String) : Bool := s.toList.all isBlank

end Roster.Text
