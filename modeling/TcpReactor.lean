import TcpReactor.Sim.ScriptedHandler
import TcpReactor.Sim.ServerRun
import TcpReactor.Sim.ClientRun
import TcpReactor.Sim.SocketRun
import TcpReactor.Sim.ParserRun
import TcpReactor.StreamBuffer.Contents
import TcpReactor.Proofs.Session.Observer
import TcpReactor.Proofs.Transport
import TcpReactor.Proofs.Session.Spares
import TcpReactor.Proofs.Session.Outbound
import TcpReactor.Proofs.Session.Record
import TcpReactor.Proofs.Session.CloseNotice
import TcpReactor.Proofs.Http.Lines
import TcpReactor.Proofs.Http.Fragments
import TcpReactor.Proofs.Http.Header
import TcpReactor.Proofs.Http.Grammar
import TcpReactor.Proofs.Session.HandlerLog
import TcpReactor.Proofs.Session.WriteInterest
import TcpReactor.Proofs.Http.Outcome
import TcpReactor.Proofs.Http.LineLimit
import TcpReactor.Proofs.Http.ContentLength
import TcpReactor.Proofs.Session.Traffic
import TcpReactor.Proofs.Session.Progress
import TcpReactor.Proofs.Service.HttpRespond
import TcpReactor.Proofs.Http.WireForm
import TcpReactor.Proofs.Service.HttpDraining
import TcpReactor.Proofs.Service.HttpAnswers
import TcpReactor.Proofs.Session.TrafficNotice
import TcpReactor.Proofs.FrameCodec
import TcpReactor.Proofs.Service.EchoLossless
import TcpReactor.Proofs.Service.FrameEchoExact
import TcpReactor.Proofs.Slots
import TcpReactor.Proofs.Session.HandlerInvariant
import TcpReactor.Proofs.Server.Run
import TcpReactor.Proofs.Server.Identity
import TcpReactor.Proofs.Session.Invariant
import TcpReactor.Proofs.Session.Attuned
import TcpReactor.Proofs.Client.Run
import TcpReactor.Proofs.Client.Standing
import TcpReactor.Proofs.Session.Brackets
import TcpReactor.Proofs.Client.Callbacks
import TcpReactor.Proofs.Server.Registry
import TcpReactor.Proofs.Server.Trace
import TcpReactor.Proofs.Service.HandsOff
import TcpReactor.Proofs.Server.Lifetime
import TcpReactor.Proofs.Server.Register
import TcpReactor.Proofs.Session.HandlerMap
import TcpReactor.Proofs.Slots.Values
import TcpReactor.Proofs.Server.Isolation
import TcpReactor.Proofs.Simulation
import TcpReactor.Proofs.RingBuffer.Checked
import TcpReactor.Proofs.RingBuffer.Fifo
import TcpReactor.Proofs.Slots.KeyMap
import TcpReactor.Proofs.Session.DrivenInvariant
import TcpReactor.Proofs.Session.KnownInterest
import TcpReactor.Proofs.Session.Errors
import TcpReactor.Proofs.Session.ReadPass
import TcpReactor.Proofs.Session.WritePass
import TcpReactor.Proofs.Server.Registration
import TcpReactor.Proofs.Client.Registration
import TcpReactor.Proofs.Registration
import TcpReactor.Proofs.StreamBuffer.Lifecycle
import TcpReactor.Proofs.Session.SendFrame
import TcpReactor.Proofs.Http.Backlog
import TcpReactor.Proofs.Http.ResponseFields
import TcpReactor.Proofs.Service.EchoFlush
import TcpReactor.Proofs.Http.ParseLoop
import TcpReactor.Proofs.Http.RequestBytes
import TcpReactor.Proofs.Session.Received
import TcpReactor.Proofs.Service.HttpRounds
