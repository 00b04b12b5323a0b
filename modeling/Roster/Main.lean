import Roster.Sources.Report

/-! Prints the configuration given by the file that `CONFIG_PATH` names and by the environment, if it can be used. -/
namespace Roster.Main

/-- The variables this process was started with. -/
def vars : IO (List (String × String)) := do
  let entries := (← IO.FS.readFile "/proc/self/environ").splitOn "\x00"
  return entries.filterMap fun e =>
    match e.splitOn "=" with
    | name :: rest@(_ :: _) => some (name, "=".intercalate rest)
    | _ => none

def configFile (vars : List (String × String)) : IO (Option Sources.ConfigFile) := do
  match vars.lookup "CONFIG_PATH" with
  | none => return none
  | some path =>
    try return some (.present path (← IO.FS.readFile path))
    catch _ => return some .missing

end Roster.Main

def main : IO UInt32 := do
  let vars ← Roster.Main.vars
  match Roster.Sources.report (← Roster.Main.configFile vars) vars with
  | .ok lines =>
    lines.forM IO.println
    return 0
  | .error reason =>
    IO.eprintln ("Error: " ++ reason)
    return 1
