import TcpReactor.Bytes
import TcpReactor.Text.Blank

namespace TcpReactor.Http

/-! # Responses

A response is a status, header fields in the order in which they were first set, and a body. On the
wire the fields `Content-Length` and `Connection` always come last and are always made by
`toBytes`; fields of these names that were set by hand are left out.
-/

/-- What a status means, in words. -/
def reasonPhrase (status : UInt16) : String :=
  match status.toNat with
  | 200 => "OK"
  | 201 => "Created"
  | 204 => "No Content"
  | 400 => "Bad Request"
  | 404 => "Not Found"
  | 405 => "Method Not Allowed"
  | 413 => "Payload Too Large"
  | 500 => "Internal Server Error"
  | 503 => "Service Unavailable"
  | _ => "Unknown"

structure Response where
  status : UInt16
  reason : String
  fields : List (String × String) := []
  body : Bytes := []
  deriving DecidableEq, Repr

namespace Response

/-- An empty response with the usual reason. -/
def ofStatus (status : UInt16) : Response := { status, reason := reasonPhrase status }

/-- Give the first field of this name, in any case, a new value, or add the field at the end. -/
def setField (name value : String) : List (String × String) → List (String × String)
  | [] => [(name, value)]
  | (key, old) :: fields =>
      if Text.sameIgnoringCase key name then (key, value) :: fields
      else (key, old) :: setField name value fields

/-- Set a header field. The first spelling of its name stays. -/
def setHeader (r : Response) (name value : String) : Response :=
  { r with fields := setField name value r.fields }

def setBody (r : Response) (body : Bytes) : Response := { r with body }

/-- A body of plain text. -/
def setTextBody (r : Response) (text : String) : Response :=
  (r.setHeader "Content-Type" "text/plain; charset=utf-8").setBody (utf8 text)

/-! ## On the wire -/

/-- Is a field of this name always made from the response itself? -/
def isGenerated (name : String) : Bool :=
  Text.sameIgnoringCase name "content-length" || Text.sameIgnoringCase name "connection"

/-- One header line with its line end. -/
def fieldLine (name value : String) : String := s!"{name}: {value}\r\n"

/-- The lines before the body, up to and with the empty line. -/
def head (r : Response) (keepAlive : Bool) : String :=
  s!"HTTP/1.1 {r.status} {r.reason}\r\n" ++
  String.join ((r.fields.filter fun f => !isGenerated f.1).map fun f => fieldLine f.1 f.2) ++
  fieldLine "Content-Length" s!"{r.body.length}" ++
  fieldLine "Connection" (if keepAlive then "keep-alive" else "close") ++ "\r\n"

/-- The response as it is sent. -/
def toBytes (r : Response) (keepAlive : Bool) : Bytes := utf8 (r.head keepAlive) ++ r.body

end Response
end TcpReactor.Http
