import Roster.Failure

/-! What goes between a client and the transport it works over. -/
namespace Roster

/-- What a client asks of its transport. -/
inductive Request
  | register (m : Member)
  | unregister (id : String)
  | updateMetadata (id : String) (delta : Keyed String)
  | subscribe (known : Keyed Version)
  | heartbeat
  | close
  deriving DecidableEq

/-- One item of an update stream. -/
inductive Item
  | update (u : Update)
  | failure (f : Failure)
  deriving DecidableEq

end Roster
