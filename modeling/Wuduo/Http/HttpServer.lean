import Wuduo.Http.HttpContext
import Wuduo.Http.HttpResponse

/-!
# `wuduo::http::HttpServer`

The model of `on_message`, the message callback of the HTTP server.  It works on
the context of the connection and on its input buffer, and calls `send` and
`shutdown` of the connection; the model returns these calls in order.
-/

namespace Wuduo.Http

/-- The calls `on_message` makes to its connection. -/
inductive ConnectionCall where
  | send (data : Bytes)
  | shutdown
deriving DecidableEq, Repr

/-- The world outside a call of `on_message`: the files, by path, and the order of
the header map. -/
structure Host where
  files : Bytes → FileAnswer
  iteration : Iteration

namespace HttpServer

/-- The reply to a completed request, and whether the connection is to be closed
behind it. -/
def reply (host : Host) (request : HttpRequest) : Except NoReturn (Bytes × Bool) := do
  let response := (HttpResponse.new request.isCloseConnection).setStatusCode .k200Ok
  let file := host.files (openedPath request)
  let (buf, response, _) ← response.analyse host.iteration request file
  return (buf.peek, response.closeConnection)

/-- The reply to a request that cannot be parsed. -/
def badRequest (host : Host) : Except NoReturn Bytes := do
  let (buf, _) ← (HttpResponse.new true).errorMessageWith host.iteration .k400BadRequest
  return buf.peek

/-- The calls made for a request that cannot be parsed. -/
def onError (host : Host) (parsed : Bool) : Except NoReturn (List ConnectionCall) :=
  if parsed then .ok [] else do return [.send (← badRequest host), .shutdown]

/-- The calls made for a completed request, and the context behind it. -/
def onCompleted (host : Host) (context : HttpContext) :
    Except NoReturn (HttpContext × List ConnectionCall) :=
  if context.phase = .kCompleted then do
    let (data, closeConnection) ← reply host context.request
    return ({}, .send data :: if closeConnection then [.shutdown] else [])
  else .ok (context, [])

/-- `on_message` -/
def onMessage (host : Host) (context : HttpContext) (buf : Buffer) :
    Except NoReturn (HttpContext × Buffer × List ConnectionCall) := do
  let (parsed, context, buf) ← context.parseRequest buf
  let errorCalls ← onError host parsed
  let (context, calls) ← onCompleted host context
  return (context, buf, errorCalls ++ calls)

end HttpServer

end Wuduo.Http
