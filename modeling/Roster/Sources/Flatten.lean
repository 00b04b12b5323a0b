import Roster.Failure
import Roster.Serial
import Roster.Sources.Merge

/-! A configuration as a source: it is taken apart into key paths, which are set one by one. -/
namespace Roster

namespace Document

mutual

/-- The leaves with the paths to them; empty lists and tables have none. -/
def leaves (path : String) : Document → List (String × Document)
  | .list ds => leavesOfItems path 0 ds
  | .table es => leavesOfEntries path es
  | d => [(path, d)]

def leavesOfItems (path : String) (index : Nat) : List Document → List (String × Document)
  | [] => []
  | d :: rest => leaves (path ++ s!"[{index}]") d ++ leavesOfItems path (index + 1) rest

def leavesOfEntries (path : String) : List (String × Document) → List (String × Document)
  | [] => []
  | (key, d) :: rest =>
    leaves (if path.isEmpty then key else path ++ "." ++ key) d ++ leavesOfEntries path rest

end

end Document

namespace Sources

/-- Whole numbers are signed 64-bit words in a source. -/
def setLeaf (root : Document) (path : String) (leaf : Document) : Except ConfigFault Document := do
  if let .int n := leaf then
    if n > Int64.maxValue.toInt then throw (.tooLarge (UInt64.ofNat n.toNat))
  match Path.parse? path with
  | none => throw .badPath
  | some p => return p.set leaf root

def flatten (c : Configuration) : Except ConfigFault Document :=
  (c.toDocument.leaves "").foldlM (fun root leaf => setLeaf root leaf.1 leaf.2) (.table [])

end Sources

end Roster
