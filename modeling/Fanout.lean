import Fanout.Ascii
import Fanout.Bytes
import Fanout.Change
import Fanout.Cluster
import Fanout.Decimal
import Fanout.Directory
import Fanout.Fault
import Fanout.Feeds
import Fanout.Frame
import Fanout.Frame.Reader
import Fanout.Frame.Tag
import Fanout.Frame.Wire
import Fanout.Hub
import Fanout.Hub.Server
import Fanout.Hub.Step
import Fanout.Hub.Subscribers
import Fanout.Hub.Work
import Fanout.Json.Number
import Fanout.Json.Quoted
import Fanout.Json.Record
import Fanout.Json.Token
import Fanout.Json.Value
import Fanout.Link
import Fanout.Link.Work
import Fanout.Listeners
import Fanout.Main
import Fanout.Network
import Fanout.Notice
import Fanout.Proofs.Brokers.Agreement
import Fanout.Proofs.Brokers.Boards
import Fanout.Proofs.Brokers.OnBus
import Fanout.Proofs.Brokers.OnRelay
import Fanout.Proofs.Brokers.Uses
import Fanout.Proofs.Bus.Attendance
import Fanout.Proofs.Bus.Counting
import Fanout.Proofs.Bus.Dealings
import Fanout.Proofs.Bus.Delivery
import Fanout.Proofs.Bus.Direct
import Fanout.Proofs.Bus.Ending
import Fanout.Proofs.Bus.Halves
import Fanout.Proofs.Bus.Isolation
import Fanout.Proofs.Bus.Ledger
import Fanout.Proofs.Bus.Listening
import Fanout.Proofs.Bus.Lockstep
import Fanout.Proofs.Bus.Ownership
import Fanout.Proofs.Bus.Publishing
import Fanout.Proofs.Bus.Reach
import Fanout.Proofs.Bus.Registries
import Fanout.Proofs.Bus.Streams
import Fanout.Proofs.Bus.Unsubscribing
import Fanout.Proofs.Cluster.Announcing
import Fanout.Proofs.Cluster.Audience
import Fanout.Proofs.Cluster.Bootstrap
import Fanout.Proofs.Cluster.Contents
import Fanout.Proofs.Cluster.Copies
import Fanout.Proofs.Cluster.Events
import Fanout.Proofs.Cluster.Following
import Fanout.Proofs.Cluster.Nodes
import Fanout.Proofs.Cluster.Privacy
import Fanout.Proofs.Cluster.Recipients
import Fanout.Proofs.Cluster.Revocation
import Fanout.Proofs.Cluster.Revoking
import Fanout.Proofs.Cluster.Runs
import Fanout.Proofs.Frame.Acceptance
import Fanout.Proofs.Frame.Canonical
import Fanout.Proofs.Frame.Cutting
import Fanout.Proofs.Frame.Encoding
import Fanout.Proofs.Frame.Grammar
import Fanout.Proofs.Frame.Reading
import Fanout.Proofs.Frame.Sizes
import Fanout.Proofs.Hub.Course
import Fanout.Proofs.Hub.Doings
import Fanout.Proofs.Hub.FanOut
import Fanout.Proofs.Hub.Handling
import Fanout.Proofs.Hub.Inbox
import Fanout.Proofs.Hub.Lifecycle
import Fanout.Proofs.Hub.Listing
import Fanout.Proofs.Hub.Rejecting
import Fanout.Proofs.Hub.Serving
import Fanout.Proofs.Hub.Sessions
import Fanout.Proofs.Json.Batches
import Fanout.Proofs.Json.Forms
import Fanout.Proofs.Json.Scanning
import Fanout.Proofs.Places
import Fanout.Proofs.Relay.Agreement
import Fanout.Proofs.Relay.Calls
import Fanout.Proofs.Relay.Conformance
import Fanout.Proofs.Relay.Dispatching
import Fanout.Proofs.Relay.Flow
import Fanout.Proofs.Relay.Provenance
import Fanout.Proofs.Relay.Requests
import Fanout.Proofs.Relay.Settling
import Fanout.Proofs.Relay.Steps
import Fanout.Proofs.Relay.Subscribers
import Fanout.Proofs.Relay.Wires
import Fanout.Proofs.Settings.Saving
import Fanout.Proofs.Toml.Documents
import Fanout.Proofs.Toml.Integers
import Fanout.Proofs.Toml.Lines
import Fanout.Proofs.Toml.Strings
import Fanout.Settings
import Fanout.Subscription
import Fanout.Switchboard
import Fanout.Switchboard.Work
import Fanout.Table
import Fanout.Text.Blank
import Fanout.Text.Lossy
import Fanout.Toml.Document
import Fanout.Toml.Node
import Fanout.Toml.Scalar
import Fanout.Toml.Text
import Fanout.Topic
import Fanout.Update
import Fanout.Update.Form
import Fanout.World
import Fanout.World.Step
