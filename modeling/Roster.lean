import Roster.Link.Script
import Roster.Main
import Roster.Proofs.Filter.Building
import Roster.Proofs.Glob.Characters
import Roster.Proofs.Glob.Reads
import Roster.Proofs.Link
import Roster.Proofs.Link.Probing
import Roster.Proofs.Link.Stream
import Roster.Proofs.Registry.Ending
import Roster.Proofs.Registry.Invariant
import Roster.Proofs.Registry.Moves
import Roster.Proofs.Registry.Notification
import Roster.Proofs.Registry.Ownership
import Roster.Proofs.Registry.Receipt
import Roster.Proofs.Registry.Redelivery
import Roster.Proofs.Registry.Replica
import Roster.Proofs.Registry.Subscribers
import Roster.Proofs.Registry.Turns
import Roster.Proofs.Registry.Versions
import Roster.Proofs.Registry.View
import Roster.Proofs.Session.Closing
import Roster.Proofs.Session.Course
import Roster.Proofs.Session.Fence
import Roster.Proofs.Session.Outage
import Roster.Proofs.Session.Overtaken
import Roster.Proofs.Session.Removal
import Roster.Proofs.Session.Replica
import Roster.Proofs.Seeds
import Roster.Proofs.Session.Resumption
import Roster.Proofs.Session.Returns
import Roster.Proofs.Session.Writes
import Roster.Proofs.Sources.Spelled
import Roster.Proofs.Wire.Message
import Roster.Registry.Script
import Roster.Simulation.Script
import Roster.Proofs.Session.Accuracy
import Roster.Proofs.Session.Reports
import Roster.Proofs.Serial.Decoding
