import TcpReactor.Address

namespace TcpReactor

/-! # Settings of the reactors

Times are in milliseconds.
-/

/-- The capacity of each buffer of a connection, unless another is chosen. -/
def defaultBufferSize : Nat := 64 * 1024

structure ServerConfig where
  address : Address := .v4 [0, 0, 0, 0] 8080
  /-- How many connections may wait to be accepted. -/
  backlog : Int := 100
  recvBufferSize : Nat := defaultBufferSize
  sendBufferSize : Nat := defaultBufferSize
  /-- A connection on which nothing moves for longer than this is closed. -/
  idleTimeout : Nat := 30000
  /-- The longest wait for events, and so the longest time between two looks for idle
  connections. -/
  tick : Nat := 1000
  deriving DecidableEq, Repr

structure ClientConfig where
  address : Address := .loopback 3000
  recvBufferSize : Nat := defaultBufferSize
  sendBufferSize : Nat := defaultBufferSize
  /-- The time from the loss of the connection to the next attempt. -/
  reconnectBackoff : Nat := 1000
  /-- The longest wait for events. -/
  tick : Nat := 100
  deriving DecidableEq, Repr

end TcpReactor
