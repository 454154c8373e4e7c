import StoreTrial.CommandLine
import StoreTrial.Config.Document
import StoreTrial.Config.Validate
import StoreTrial.Decimal.Reading
import StoreTrial.Latency.Measure
import StoreTrial.Load.User
import StoreTrial.Main
import StoreTrial.Network
import StoreTrial.Proofs.Command.Versions
import StoreTrial.Proofs.Command.Wire
import StoreTrial.Proofs.Config.Accepted
import StoreTrial.Proofs.Config.Guards
import StoreTrial.Proofs.Config.Members
import StoreTrial.Proofs.Config.Overrides
import StoreTrial.Proofs.Config.RoundTrip
import StoreTrial.Proofs.Dataset.Capacity
import StoreTrial.Proofs.Dataset.Ladder
import StoreTrial.Proofs.Dataset.Newcomers
import StoreTrial.Proofs.Dataset.Texts
import StoreTrial.Proofs.Decimal.Bits
import StoreTrial.Proofs.Decimal.Extent
import StoreTrial.Proofs.Decimal.Finite
import StoreTrial.Proofs.Decimal.Plain
import StoreTrial.Proofs.Decimal.Rounding
import StoreTrial.Proofs.Decimal.Scientific
import StoreTrial.Proofs.Decimal.Shortest
import StoreTrial.Proofs.Decimal.Unsigned
import StoreTrial.Proofs.Dialogue
import StoreTrial.Proofs.Json.Doubles
import StoreTrial.Proofs.Json.Grammar
import StoreTrial.Proofs.Json.Literals
import StoreTrial.Proofs.Json.Written
import StoreTrial.Proofs.Latency.Attribution
import StoreTrial.Proofs.Latency.Cleanup
import StoreTrial.Proofs.Latency.Measurement
import StoreTrial.Proofs.Load.Accounting
import StoreTrial.Proofs.Load.Collection
import StoreTrial.Proofs.Resp.Depth
import StoreTrial.Proofs.Resp.Downgrade
import StoreTrial.Proofs.Resp.Grammar
import StoreTrial.Proofs.Resp.Offsets
import StoreTrial.Proofs.Resp.Parts
import StoreTrial.Proofs.Resp.Plain
import StoreTrial.Proofs.Resp.ReadBack
import StoreTrial.Proofs.Resp.Reencoding
import StoreTrial.Proofs.Resp.RoundTrip
import StoreTrial.Proofs.Resp.Stability
import StoreTrial.Proofs.Session.Alignment
import StoreTrial.Proofs.Session.Clauses
import StoreTrial.Proofs.Session.Delivery
import StoreTrial.Proofs.Session.Expectation
import StoreTrial.Proofs.Session.Handback
import StoreTrial.Proofs.Session.Negotiation
import StoreTrial.Proofs.Session.Prospect
import StoreTrial.Proofs.Session.Reading
import StoreTrial.Proofs.Session.Stream
import StoreTrial.Proofs.Session.Writing
import StoreTrial.Proofs.Store.Channels
import StoreTrial.Proofs.Store.Entries
import StoreTrial.Proofs.Store.Exchange
import StoreTrial.Proofs.Store.Requests
import StoreTrial.Proofs.Text.Lossy
import StoreTrial.Proofs.Trial.Blocks
import StoreTrial.Proofs.Trial.Boundaries
import StoreTrial.Proofs.Trial.Compaction
import StoreTrial.Proofs.Trial.Delivery
import StoreTrial.Proofs.Trial.Diagnosis
import StoreTrial.Proofs.Trial.Draws
import StoreTrial.Proofs.Trial.Performance
import StoreTrial.Proofs.Trial.Prescription
import StoreTrial.Proofs.Trial.Reception
import StoreTrial.Proofs.Trial.Rules
import StoreTrial.Proofs.Trial.Scene
import StoreTrial.Proofs.Trial.Selection
import StoreTrial.Proofs.Trial.Settings
import StoreTrial.Proofs.Trial.Steps
import StoreTrial.Proofs.Trial.Strays
import StoreTrial.Proofs.Trial.Writes
import StoreTrial.Session.Replay
import StoreTrial.Store.Loopback
import StoreTrial.Trial.Suite
