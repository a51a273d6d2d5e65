import AsyncRpc.Foundation.Transition
import AsyncRpc.Foundation.Interleaving
import AsyncRpc.Foundation.Trace
import AsyncRpc.Foundation.Service
import AsyncRpc.Foundation.Reading
import AsyncRpc.Foundation.Once
import AsyncRpc.Foundation.Linearization
import AsyncRpc.Foundation.Locks
import AsyncRpc.Rpc
import AsyncRpc.Marshall
import AsyncRpc.ReplyWindow
import AsyncRpc.ReplyHistory
import AsyncRpc.ArrivalOrder
import AsyncRpc.RpcServer
import AsyncRpc.AtMostOnce
import AsyncRpc.FailedDispatch
import AsyncRpc.AnyBuffer
import AsyncRpc.Connection
import AsyncRpc.XidWindow
import AsyncRpc.CumulativeAck
import AsyncRpc.RpcClient
import AsyncRpc.Callback
import AsyncRpc.Transport
import AsyncRpc.ServerHistory
import AsyncRpc.Delivery
import AsyncRpc.ClientHistory
import AsyncRpc.FirstReply
import AsyncRpc.Network
import AsyncRpc.Provenance
import AsyncRpc.ExactlyOnce
import AsyncRpc.Restart
import AsyncRpc.Acknowledgement
import AsyncRpc.Recording
import AsyncRpc.Overtaking
import AsyncRpc.Retry
import AsyncRpc.Listening
import AsyncRpc.Pending
import AsyncRpc.Pointers
import AsyncRpc.RememberedReply
import AsyncRpc.LiveSockets
import AsyncRpc.Readback
import AsyncRpc.Reuse
import AsyncRpc.CallLife
import AsyncRpc.Copies
import AsyncRpc.Linearizable
import AsyncRpc.Memory
import AsyncRpc.PlainClient
import AsyncRpc.Mutexes
import AsyncRpc.Medium
import AsyncRpc.AsyncSockets
import AsyncRpc.MockSockets
import AsyncRpc.Wire.Lexer
import AsyncRpc.Wire.Parser
import AsyncRpc.Wire.Serializer
import AsyncRpc.Wire.Tokens
import AsyncRpc.Wire.RoundTrip
import AsyncRpc.Wire.Accepted
import AsyncRpc.Wire.Messages
import AsyncRpc.Wire.Packets
import AsyncRpc.Wire.OverTcp
