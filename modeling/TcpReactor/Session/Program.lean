import TcpReactor.Session.Basic

namespace TcpReactor.Session

/-! # Programs of session calls

A callback may do with its session what it likes: look at it, take bytes out of its recv buffer,
queue replies, flush, close, open again, and decide by the answers what to do next. Such a callback
is a `Program`: a finite tree whose nodes are calls and whose branches are their answers. Running it
on a session whose handler is busy is `Program.run`; the same program carried out from outside,
where every call is followed by the notifications it causes, is `Driven.exec`.
-/

/-- A call of a session. Flushing is a writable pass. -/
inductive Call
  | openUp
  | close
  | readable
  | writable
  | queueSend (data : Bytes)
  | sendFrame (payload : Bytes)
  deriving DecidableEq, Repr

/-- A finite program of session calls that ends with an `α`. -/
inductive Program (T α : Type) : Type where
  | done (result : α)
  | look (next : Session T → Program T α)
  | call (c : Call) (next : Except SessionError Unit → Program T α)
  | editRecvBuffer (f : StreamBuffer → StreamBuffer) (next : Program T α)
  | editTransport (f : T → T) (next : Program T α)

namespace Program

variable {T α β : Type}

/-- Go on with what a program ends with. -/
def bind : Program T α → (α → Program T β) → Program T β
  | .done a, f => f a
  | .look next, f => .look fun s => (next s).bind f
  | .call c next, f => .call c fun answer => (next answer).bind f
  | .editRecvBuffer g next, f => .editRecvBuffer g (next.bind f)
  | .editTransport g next, f => .editTransport g (next.bind f)

instance : Monad (Program T) where
  pure := .done
  bind := .bind

/-- Make a call and give its answer. -/
def perform (c : Call) : Program T (Except SessionError Unit) := .call c .done

/-- The session as it is. -/
def view : Program T (Session T) := .look .done

/-- Run an operation of the recv buffer that can fail, and give its result. -/
def onRecvBuffer {ε : Type} (f : StreamBuffer → Except ε (α × StreamBuffer)) :
    Program T (Except ε α) :=
  .look fun s =>
    match f s.recvBuffer with
    | .error e => .done (.error e)
    | .ok (a, buffer) => .editRecvBuffer (fun _ => buffer) (.done (.ok a))

/-- Queue a reply. If it does not fit, close the session; the answer says whether it did. -/
def queueOrClose (reply : Bytes) : Program T Bool :=
  .call (.queueSend reply) fun
    | .ok () => .done true
    | .error _ => .call .close fun _ => .done false

end Program

variable {T : Type} [Transport T]

/-- Make a call on a session whose handler is busy. -/
def perform (s : Session T) : Call → Except SessionError Unit × Session T
  | .openUp => s.openUp
  | .close => (.ok (), s.close)
  | .readable => s.readable
  | .writable => s.writable
  | .queueSend data => s.queueSend data
  | .sendFrame payload => s.sendFrame payload

/-- Run a program on a session whose handler is busy. -/
def Program.run {α : Type} : Program T α → Session T → α × Session T
  | .done a, s => (a, s)
  | .look next, s => (next s).run s
  | .call c next, s =>
      let (answer, s) := s.perform c
      (next answer).run s
  | .editRecvBuffer f next, s => next.run { s with recvBuffer := f s.recvBuffer }
  | .editTransport f next, s => next.run { s with transport := f s.transport }

/-- A program that goes on runs one part after the other. -/
theorem Program.run_bind {α β : Type} (p : Program T α) (f : α → Program T β) (s : Session T) :
    (p.bind f).run s = (f (p.run s).1).run (p.run s).2 := by
  induction p generalizing s with
  | done a => rfl
  | look next ih => exact ih s s
  | call c next ih => exact ih _ _
  | editRecvBuffer g next ih => exact ih _
  | editTransport g next ih => exact ih _

end TcpReactor.Session
