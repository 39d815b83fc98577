import TcpReactor.Http.Parser
import TcpReactor.Http.Response
import TcpReactor.Session.Driven

namespace TcpReactor

/-! # A small HTTP service

The service answers by a fixed table: `GET /health`, `POST /echo` and `GET /echo?msg=…`; all else is
not found. A malformed request is answered once more. After that answer, and after the answer to a
request that asks for it, the connection is closed as soon as everything is sent.
-/

structure HttpService where
  parser : Http.Parser
  /-- The last answer is queued; the connection closes behind it. -/
  closing : Bool := false

namespace HttpService

open Http Session

variable {T : Type} [Transport T]

def ofLimits (limits : Limits) : HttpService := { parser := { limits } }

/-- The answer to a request. -/
def route (r : Request) : Response :=
  if r.method = "GET" ∧ r.target = "/health" then (Response.ofStatus 200).setTextBody "ok"
  else if r.method = "POST" ∧ r.target = "/echo" then
    ((Response.ofStatus 200).setHeader "Content-Type" "application/octet-stream").setBody r.body
  else
    match "/echo?msg=".toList.isPrefixOf? r.target.toList with
    | some message =>
        if r.method = "GET" then (Response.ofStatus 200).setTextBody (.ofList message)
        else notFound
    | none => notFound
where
  notFound : Response := (Response.ofStatus 404).setTextBody "not found"

/-- The answer to what is no request. -/
def badRequest : Response := (Response.ofStatus 400).setTextBody "bad request"

/-- Close the session when the last answer is sent, which may be now. -/
def flushAndClose (h : HttpService) : Program T HttpService :=
  .look fun s =>
    let h := { h with closing := true }
    if s.hasPendingSend then .done h else .call .close fun _ => .done h

/-- Answer the requests that are complete, `fuel` of them at most. When the parser overflows the
program has stopped, and the service does nothing more. -/
def serve : (fuel : Nat) → HttpService → Program T HttpService
  | 0, h => .done h
  | fuel + 1, h =>
      .look fun s =>
        let (result, parser, recvBuffer) := h.parser.nextRequest s.recvBuffer
        let h := { h with parser }
        .editRecvBuffer (fun _ => recvBuffer) <|
          match result with
          | .ok none | .error .overflow => .done h
          | .error (.refused _) =>
              (Program.queueOrClose (badRequest.toBytes false)).bind fun queued =>
                if queued then h.flushAndClose else .done h
          | .ok (some request) =>
              let keepAlive := !request.wantsClose
              (Program.queueOrClose ((route request).toBytes keepAlive)).bind fun queued =>
                -- an answer that does not fit has closed the session
                if !queued then .done h
                else if keepAlive then serve fuel h
                else h.flushAndClose

instance : Handler T HttpService where
  onRecv h :=
    if h.closing then .done h
    else .look fun s => serve (h.parser.buffered + s.recvBuffer.length + 1) h
  onSend h _ :=
    .look fun s =>
      if h.closing && !s.hasPendingSend then .call .close fun _ => .done h else .done h

end HttpService
end TcpReactor
