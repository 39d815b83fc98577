import TcpReactor.Proofs.Http.Outcome
import TcpReactor.Service.HttpService

namespace TcpReactor.HttpService

open Http

/-! # What the service answers to a stream

The answers of the HTTP service are a function of what a parser gives that is fed the whole stream
at once (`respond`). The service itself sees the stream in pieces. What it does with them rests on
the laws below: from any stage, what has been scanned and what is still to come give the same
answers as both together.
-/

/-- The answers to the requests, up to the first one that ends the connection; a malformed request
is answered once, if the connection gets that far. -/
def answers : List Request → Reading → Bytes
  | [], .waiting _ => []
  | [], .failed (.refused _) => badRequest.toBytes false
  | [], .failed .overflow => []
  | request :: requests, reading =>
      (route request).toBytes (!request.wantsClose) ++
        if request.wantsClose then [] else answers requests reading

/-- The answers to what follows from a stage on. -/
def respondFrom (limits : Limits) (stage : Stage) (bytes : Bytes) : Bytes :=
  answers (outcome limits stage bytes).1 (outcome limits stage bytes).2

/-- The answers to a whole stream. -/
def respond (limits : Limits) (bytes : Bytes) : Bytes := respondFrom limits .requestLine bytes

variable {limits : Limits} {stage : Stage} {bytes : Bytes}

/-! ## One scan, and what is still to come -/

/-- A scan that waits has no answer yet. -/
theorem respondFrom_of_wait (h : (scan limits stage bytes).result = .ok none) :
    respondFrom limits stage bytes = [] := by
  rw [respondFrom, outcome_of_wait h]
  rfl

theorem respondFrom_append_of_wait (h : (scan limits stage bytes).result = .ok none)
    (more : Bytes) :
    respondFrom limits stage (bytes ++ more) =
      respondFrom limits (scan limits stage bytes).stage
        ((scan limits stage bytes).unread ++ more) := by
  rw [respondFrom, outcome_congr (scan_append_of_undecided stage bytes more (.inl h))]
  rfl

theorem respondFrom_append_of_request (hmax : limits.maxLine.toNat < UInt64.size - 1)
    {request : Request} (h : (scan limits stage bytes).result = .ok (some request))
    (more : Bytes) :
    respondFrom limits stage (bytes ++ more) =
      (route request).toBytes (!request.wantsClose) ++
        if request.wantsClose then []
        else respondFrom limits (scan limits stage bytes).stage
          ((scan limits stage bytes).unread ++ more) := by
  have hscan := scan_append_of_done hmax stage bytes more (by rw [h]; simp)
  have hresult : (scan limits stage (bytes ++ more)).result = .ok (some request) := by
    rw [hscan]
    exact h
  rw [respondFrom, outcome_of_request hresult, hscan]
  rfl

theorem respondFrom_append_of_refusal (hmax : limits.maxLine.toNat < UInt64.size - 1)
    {e : ParseError} (h : (scan limits stage bytes).result = .error (.refused e))
    (more : Bytes) :
    respondFrom limits stage (bytes ++ more) = badRequest.toBytes false := by
  have hscan := scan_append_of_done hmax stage bytes more (by rw [h]; simp)
  have hresult : (scan limits stage (bytes ++ more)).result = .error (.refused e) := by
    rw [hscan]
    exact h
  rw [respondFrom, outcome_of_fail hresult]
  rfl

/-! ## No answer is empty -/

theorem utf8_ne_nil {text : String} (h : text ≠ "") : utf8 text ≠ [] := by
  intro hnil
  have htext : utf8Decode? [] = some text := utf8Decode?_eq_some.mpr hnil
  have hempty : utf8Decode? [] = some "" := utf8Decode?_eq_some.mpr rfl
  exact h (Option.some.inj (htext.symm.trans hempty))

/-- Every head ends with an empty line. -/
theorem head_ne_empty (r : Response) (keepAlive : Bool) : r.head keepAlive ≠ "" := by
  have hend : ∃ lines, r.head keepAlive = lines ++ "\r\n" := ⟨_, rfl⟩
  rcases hend with ⟨lines, hend⟩
  intro hnil
  rw [hend] at hnil
  have hlength := congrArg String.length hnil
  simp [String.length_append] at hlength

theorem toBytes_ne_nil (r : Response) (keepAlive : Bool) : r.toBytes keepAlive ≠ [] := by
  rw [Response.toBytes]
  exact List.append_ne_nil_of_left_ne_nil (utf8_ne_nil (head_ne_empty r keepAlive)) _

end TcpReactor.HttpService
