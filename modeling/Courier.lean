import Courier.Pipe.Writer
import Courier.Pipe.Reader
import Courier.CloseReason
import Courier.Wire.Format
import Courier.Json.Reading
import Courier.Token
import Courier.Registry
import Courier.EventFeed
import Courier.Connection.Summary
import Courier.Config.Endpoint
import Courier.Config.Queues
import Courier.Transport.Core
import Courier.Router
import Courier.Link.Run
import Courier.Session.Basic
import Courier.Encoding.Hex
import Courier.Server.Run
import Courier.Client.Run
import Courier.Host.Isolated
import Courier.Proofs.Link.Delivery
import Courier.Proofs.Wire.Grammar
import Courier.Proofs.Buffer.Calls
import Courier.Proofs.Pipe.Calls
import Courier.Proofs.Pipe.Waking
import Courier.Proofs.Link.Backpressure
import Courier.Proofs.Link.SizeLimit
import Courier.Proofs.Link.Handover
import Courier.Proofs.Link.Output
import Courier.Proofs.Link.Closing
import Courier.Proofs.Host.Broadcast
import Courier.Proofs.Routing
import Courier.Proofs.Link.States
import Courier.Proofs.Host.Phases
import Courier.Proofs.Host.Guests
import Courier.Proofs.Host.Names
import Courier.Proofs.Host.Stopping
import Courier.Proofs.Memory.Circulation
import Courier.Proofs.Handshake.Consumption
import Courier.Proofs.Handshake.Exchange
import Courier.Proofs.Handshake.Attempts
import Courier.Proofs.Wire.Messages
import Courier.Proofs.Pipe.Puts
import Courier.Proofs.Wire.Writing
import Courier.Proofs.Pipe.Custody
import Courier.Proofs.Link.Ceiling
import Courier.Proofs.Link.Batches
import Courier.Proofs.Socket.Transmission
import Courier.Proofs.Link.Draining
