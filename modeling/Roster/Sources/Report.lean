import Roster.Sources.Load

/-! What a program reports of the configuration it would run with. -/
namespace Roster.Sources

def leafText : Document → String
  | .text s => Text.quote s
  | .bool b => toString b
  | .int n => toString n
  | .real x => x.pointText
  | .null => "none"
  | .list _ => "[]"
  | .table _ => "\x7b\x7d"

/-- One line for every setting, or the fault. -/
def report (file : Option ConfigFile) (vars : List (String × String)) : Except String (List String) := do
  let c ← (Configuration.load file vars).mapError ConfigFault.message
  c.validate.mapError SettingsFault.message
  return (c.toDocument.leaves "").map fun leaf => leaf.1 ++ " = " ++ leafText leaf.2

end Roster.Sources
