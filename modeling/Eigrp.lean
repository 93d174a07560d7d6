import Eigrp.Types
import Eigrp.Lib.Words
import Eigrp.Lib.Bytes
import Eigrp.Metric
import Eigrp.Composite
import Eigrp.Wire
import Eigrp.Poison
import Eigrp.Topology
import Eigrp.Fsm
import Eigrp.Destination
import Eigrp.Tlv
import Eigrp.Lib.Trace
import Eigrp.Lib.Cursor
import Eigrp.Lib.Serial
import Eigrp.Instance
import Eigrp.Packetizer
import Eigrp.System
import Eigrp.Stream
import Eigrp.Decoders
import Eigrp.Walk
import Eigrp.Receive
import Eigrp.Encoders
import Eigrp.RoundTrip
import Eigrp.Mixed
import Eigrp.Delivery
import Eigrp.Rtp
import Eigrp.Progress
import Eigrp.FanOut
import Eigrp.Order
import Eigrp.Conditional
import Eigrp.Dual
import Eigrp.Calls
import Eigrp.Steps
import Eigrp.Runs
import Eigrp.Table
import Eigrp.Numbers
import Eigrp.Messages
import Eigrp.Provenance
import Eigrp.Total
import Eigrp.Ingress
import Eigrp.Quiet
import Eigrp.Completion
import Eigrp.Feasibility
import Eigrp.Freeze
import Eigrp.LastReply
import Eigrp.Decision
import Eigrp.Turns
import Eigrp.Supervision
import Eigrp.Removal
import Eigrp.Allocation
import Eigrp.Parameters
import Eigrp.Refresh
import Eigrp.Coherence
import Eigrp.Restart
import Eigrp.Answers
import Eigrp.Lib.Bits
import Eigrp.Lib.Ring
import Eigrp.Lib.Splice
import Eigrp.Peering
import Eigrp.AfInterface
import Eigrp.Auth
import Eigrp.Replay
import Eigrp.Advertise
import Eigrp.Sync
import Eigrp.Lib.Packing
import Eigrp.Splitting
import Eigrp.Clear
import Eigrp.Suspension
import Eigrp.PrefixCodec
import Eigrp.Eventlog
import Eigrp.Rtt
import Eigrp.Retry
import Eigrp.RetryLimit
import Eigrp.Lib.Bucket
import Eigrp.Pacing
import Eigrp.Lib.Links
import Eigrp.PrefixTable
import Eigrp.Marking
import Eigrp.Datagrams
import Eigrp.Lib.Residue
import Eigrp.Checksum
import Eigrp.Lib.Scaled
import Eigrp.Dampening
import Eigrp.PacketQueue
import Eigrp.IndexedList
import Eigrp.Hello
import Eigrp.Timers
import Eigrp.TimerOwners
import Eigrp.Storage
import Eigrp.Store
import Eigrp.Accounts
import Eigrp.Limits
import Eigrp.Refusals
import Eigrp.Networks
import Eigrp.Interfaces
import Eigrp.Operative
import Eigrp.Summaries
import Eigrp.Filters
