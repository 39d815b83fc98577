import TcpReactor.Http.Parser
import TcpReactor.Sim.BufferStep

namespace TcpReactor.Sim

/-! # A parser and its stream buffer

A run drives an HTTP parser together with the stream buffer that it reads from.
-/

inductive ParserStep
  | buffer (step : BufferStep)
  | parse
  | reset
  deriving DecidableEq, Repr

inductive ParserReply
  | done
  | buffer (reply : BufferReply)
  | parsed (result : Except Http.Failure (Option Http.Request))

structure ParserRun where
  parser : Http.Parser
  buffer : StreamBuffer

namespace ParserRun

/-- A fresh parser over an open buffer, which stays closed if it has no room. -/
def ofCapacity (limits : Http.Limits) (capacity : Nat) : ParserRun where
  parser := { limits }
  buffer := (BufferStep.apply (.new capacity) .openUp).2

/-- Take a step. -/
def step (run : ParserRun) : ParserStep → ParserReply × ParserRun
  | .buffer step =>
      let (reply, buffer) := step.apply run.buffer
      (.buffer reply, { run with buffer })
  | .reset => (.done, { run with parser := run.parser.reset })
  | .parse =>
      let (result, parser, buffer) := run.parser.nextRequest run.buffer
      (.parsed result, { parser, buffer })

/-- The steps that feed `data` in pieces of `size` bytes, at most `fuel` of them, and parse after
each piece. -/
def fragments (size : Nat) : (fuel : Nat) → Bytes → List ParserStep
  | 0, _ => []
  | _, [] => []
  | fuel + 1, data =>
      .buffer (.write (data.take size)) :: .parse :: fragments size fuel (data.drop size)

end ParserRun
end TcpReactor.Sim
