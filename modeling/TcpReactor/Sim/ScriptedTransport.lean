import TcpReactor.Transport

namespace TcpReactor.Sim

/-! # Scripted transports

A scripted transport answers each receive and each send from a list that was written beforehand. It
need not be honest: a script may claim that bytes were sent which were not, or more than there were.
-/

/-- One answer to a receive. -/
inductive ReadItem
  | data (bytes : Bytes)
  | block
  | ended
  | fail (cause : SocketError)
  deriving DecidableEq, Repr

/-- One answer to a send. -/
inductive SendItem
  /-- Take up to so many bytes. -/
  | accept (limit : Nat)
  | block
  | fail (cause : SocketError)
  /-- Say that so many bytes were taken, and take none. -/
  | claim (amount : Nat)
  deriving DecidableEq, Repr

structure ScriptedTransport where
  reads : List ReadItem
  sends : List SendItem
  /-- Does an exhausted script of sends take everything, or block? -/
  acceptAll : Bool := true
  isOpen : Bool := true
  /-- The bytes taken so far. -/
  sent : Bytes := []
  /-- How often it was closed. -/
  closes : Nat := 0

namespace ScriptedTransport

/-- Receive the next item. What does not fit stays at the front of the script. -/
def recv (t : ScriptedTransport) (limit : Nat) :
    Except SocketError (Transfer Bytes) × ScriptedTransport :=
  match t.reads with
  | [] => (.ok .wouldBlock, t)
  | .block :: reads => (.ok .wouldBlock, { t with reads })
  | .ended :: reads => (.ok (.moved []), { t with reads })
  | .fail e :: reads => (.error e, { t with reads })
  | .data bytes :: reads =>
      let reads := if limit < bytes.length then .data (bytes.drop limit) :: reads else reads
      (.ok (.moved (bytes.take limit)), { t with reads })

/-- Answer a send with the next item. -/
def send (t : ScriptedTransport) (bytes : Bytes) :
    Except SocketError (Transfer Nat) × ScriptedTransport :=
  match t.sends with
  | [] =>
      if t.acceptAll then (.ok (.moved bytes.length), { t with sent := t.sent ++ bytes })
      else (.ok .wouldBlock, t)
  | .block :: sends => (.ok .wouldBlock, { t with sends })
  | .fail e :: sends => (.error e, { t with sends })
  | .claim n :: sends => (.ok (.moved n), { t with sends })
  | .accept n :: sends =>
      (.ok (.moved (min n bytes.length)), { t with sends, sent := t.sent ++ bytes.take n })

instance : Transport ScriptedTransport where
  send := send
  recv := recv
  isOpen := (·.isOpen)
  close t := { t with isOpen := false, closes := t.closes + 1 }

end ScriptedTransport
end TcpReactor.Sim
