import StageHost.Cluster.Metadata
import StageHost.Cluster.Node
import StageHost.Cluster.Pod
import StageHost.Config
import StageHost.Decimal.Binary64
import StageHost.Decimal.Shortest
import StageHost.Digest
import StageHost.Event
import StageHost.Fetch.Basic
import StageHost.Fetch.Reply
import StageHost.Fetch.Url
import StageHost.Group
import StageHost.Guest.Basic
import StageHost.Guest.Bridge
import StageHost.Guest.CallContext
import StageHost.Guest.Handles
import StageHost.Guest.Host
import StageHost.Guest.Limiter
import StageHost.Guest.Machine
import StageHost.Guest.Memory
import StageHost.Guest.Settings
import StageHost.Guest.StageCall
import StageHost.Guest.Transcript
import StageHost.Guest.Trap
import StageHost.HostFunction
import StageHost.Json.Basic
import StageHost.Json.Decode
import StageHost.Json.Members
import StageHost.Json.Reader
import StageHost.Json.Writer
import StageHost.Linker
import StageHost.Namespace
import StageHost.PackedWord
import StageHost.Plugin.Basic
import StageHost.Plugin.Interfaces
import StageHost.Pool
import StageHost.Prepare
import StageHost.Program.Basic
import StageHost.Program.Binary
import StageHost.Program.Description
import StageHost.Program.Statement
import StageHost.Proofs.Admission
import StageHost.Proofs.Boundary
import StageHost.Proofs.Cluster.Objects
import StageHost.Proofs.Fault
import StageHost.Proofs.Group
import StageHost.Proofs.Guest.Act
import StageHost.Proofs.Guest.Asking
import StageHost.Proofs.Guest.Cache
import StageHost.Proofs.Guest.Call
import StageHost.Proofs.Guest.Code
import StageHost.Proofs.Guest.Diagnostics
import StageHost.Proofs.Guest.Handles
import StageHost.Proofs.Guest.HostCall
import StageHost.Proofs.Guest.KeyValues
import StageHost.Proofs.Guest.Life
import StageHost.Proofs.Guest.Limiter
import StageHost.Proofs.Guest.Memory
import StageHost.Proofs.Guest.Printing
import StageHost.Proofs.Guest.Results
import StageHost.Proofs.Guest.Run
import StageHost.Proofs.Guest.Serving
import StageHost.Proofs.Guest.SharedMemory
import StageHost.Proofs.Json.Numbers
import StageHost.Proofs.Json.Reading
import StageHost.Proofs.Json.Records
import StageHost.Proofs.Json.Strings
import StageHost.Proofs.Linker
import StageHost.Proofs.PackedWord
import StageHost.Proofs.Plugin.Answers
import StageHost.Proofs.Plugin.Capabilities
import StageHost.Proofs.Plugin.Coherence
import StageHost.Proofs.Plugin.Ending
import StageHost.Proofs.Plugin.Failure
import StageHost.Proofs.Plugin.Guests
import StageHost.Proofs.Plugin.Interfaces
import StageHost.Proofs.Plugin.Lives
import StageHost.Proofs.Plugin.Operations
import StageHost.Proofs.Plugin.Parking
import StageHost.Proofs.Pool.Backing
import StageHost.Proofs.Pool.Bookkeeping
import StageHost.Proofs.Pool.Bystander
import StageHost.Proofs.Pool.Conservation
import StageHost.Proofs.Pool.Custody
import StageHost.Proofs.Pool.Cycle
import StageHost.Proofs.Pool.Demand
import StageHost.Proofs.Pool.Departure
import StageHost.Proofs.Pool.Failure
import StageHost.Proofs.Pool.History
import StageHost.Proofs.Pool.Mark
import StageHost.Proofs.Pool.Operation
import StageHost.Proofs.Pool.Outline
import StageHost.Proofs.Pool.Ownership
import StageHost.Proofs.Pool.Parked
import StageHost.Proofs.Pool.Placement
import StageHost.Proofs.Pool.Queue
import StageHost.Proofs.Pool.Retention
import StageHost.Proofs.Prepare
import StageHost.Proofs.Source
import StageHost.Proofs.Text.Blank
import StageHost.Proofs.Text.Lossy
import StageHost.Proofs.Text.Utf8
import StageHost.Proofs.Wire.Events
import StageHost.Proofs.Wire.Strings
import StageHost.Restriction
import StageHost.Severity
import StageHost.Signature
import StageHost.Source
import StageHost.Stage
import StageHost.Status
import StageHost.StringMap
import StageHost.SystemInterface
import StageHost.Text.Blank
import StageHost.Text.Hex
import StageHost.Text.Printable
import StageHost.Text.Quoted
import StageHost.Text.Utf8
import StageHost.Toml.Basic
import StageHost.Toml.Lexeme
import StageHost.Toml.Reader
import StageHost.Wire.Events
import StageHost.Wire.Strings
import StageHost.Wire.Words
