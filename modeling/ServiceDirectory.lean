import ServiceDirectory.Entry.Reader
import ServiceDirectory.Proofs.Connection.Dialogue
import ServiceDirectory.Proofs.Connection.Output
import ServiceDirectory.Proofs.Directory.Export
import ServiceDirectory.Proofs.Network.Actions
import ServiceDirectory.Proofs.Store.Refinement
import ServiceDirectory.Server
import ServiceDirectory.WebSocket.Stream
import ServiceDirectory.Proofs.Connection.Phases
import ServiceDirectory.Proofs.Network.Confinement
import ServiceDirectory.Proofs.Network.Interleaving
import ServiceDirectory.Proofs.Network.Subscribers
import ServiceDirectory.Proofs.Connection.Replies
import ServiceDirectory.Proofs.Network.Sessions
import ServiceDirectory.Proofs.Connection.Delivery
import ServiceDirectory.Proofs.Network.Delivery
import ServiceDirectory.Proofs.Network.Idleness
import ServiceDirectory.Proofs.Directory.Separation
import ServiceDirectory.Proofs.Connection.Requests
import ServiceDirectory.Proofs.Network.Requests
import ServiceDirectory.Proofs.Network.Attendance
import ServiceDirectory.Proofs.Network.Likeness
import ServiceDirectory.Proofs.Network.Removal
import ServiceDirectory.Proofs.Network.Invisibility
import ServiceDirectory.Proofs.Directory.Audience
import ServiceDirectory.Proofs.Directory.Overlap
import ServiceDirectory.Proofs.Network.Counters
import ServiceDirectory.Proofs.Server.Admission
import ServiceDirectory.Proofs.WebSocket.Chunks
import ServiceDirectory.Proofs.Network.Buffering
import ServiceDirectory.Proofs.Upgrade.Chunks
import ServiceDirectory.Proofs.Address.Canonical
import ServiceDirectory.Proofs.Entry.Acceptance
import ServiceDirectory.Proofs.Directory.Identifiers
import ServiceDirectory.Proofs.Request.Quotes
import ServiceDirectory.Proofs.Directory.Readdressing
import ServiceDirectory.Proofs.Entry.RoundTrip
import ServiceDirectory.Proofs.WebSocket.Decoding
import ServiceDirectory.Proofs.WebSocket.Size
