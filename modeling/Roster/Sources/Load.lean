import Roster.Sources.Environment
import Roster.Sources.Flatten
import Roster.Sources.Lenient
import Roster.Toml

/-! Configurations from their sources. Of two sources the later one wins: a configuration, a file, the environment. -/
namespace Roster

namespace Sources

inductive ConfigFile
  | missing
  | present (name content : String)

/-- What follows the last dot of a name, unless the name begins with it. -/
def extension? (name : String) : Option String :=
  let base := (name.toList.reverse.takeWhile (· ≠ '/')).reverse
  match base.reverse.span (· ≠ '.') with
  | (_, []) | (_, [_]) => none
  | (suffix, _) => if base = "..".toList then none else some (.ofList suffix.reverse)

/-- Only files of one type are known. -/
def ConfigFile.entries : ConfigFile → Except ConfigFault (List (String × Document))
  | missing => .error .noSource
  | present name content =>
    if extension? name = some "toml" then
      match Toml.parse content with
      | some entries => .ok entries
      | none => .error .notToml
    else .error .noSource

end Sources

namespace Configuration

open Sources

def merged (base : Configuration) (file : Option ConfigFile) (vars : List (String × String)) :
    Except ConfigFault Configuration := do
  let root ← flatten base
  let entries ← match file with
    | none => .ok []
    | some f => f.entries
  Configuration.read lenient (merge (merge (merge (.table []) root.entries) entries) (ofVariables vars))

/-- From the defaults, a file and the environment, not yet validated. -/
def load (file : Option ConfigFile) (vars : List (String × String)) : Except ConfigFault Configuration :=
  merged {} file vars

/-- A file takes precedence over the configuration, the environment over both. -/
def withOverride (c : Configuration) (file : ConfigFile) (vars : List (String × String)) :
    Except ConfigFault Configuration :=
  merged c (some file) vars

end Configuration

end Roster
