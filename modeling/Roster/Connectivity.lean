/-! States of the connection to the registry. -/
namespace Roster

inductive Connectivity
  | connecting
  | ready
  /-- Lost; the transport goes on probing. -/
  | disconnected
  /-- Closed by the application, for good. -/
  | closed
  deriving DecidableEq, Repr

def Connectivity.name : Connectivity → String
  | connecting => "connecting"
  | ready => "ready"
  | disconnected => "disconnected"
  | closed => "closed"

end Roster
