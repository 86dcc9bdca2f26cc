import Wuduo.Buffer
import Wuduo.Http.HttpRequest

/-!
# `wuduo::http::HttpContext`

The model of `http_context.cpp`.  `parse_request` calls itself after each line
it has consumed; its body is `parsePhase`, which says whether it returns or is to
be called again, and `parseRequest` is the recursion.  That it ends is proved from
the buffer: each call that is followed by another retrieves a line end at least.
-/

namespace Wuduo.Http

open Search

/-- `HttpContext::ParsingPhase` -/
inductive ParsingPhase where
  | kRequestLine
  | kHeaderLines
  | kEntityBody
  | kCompleted
deriving DecidableEq, Repr

structure HttpContext where
  phase : ParsingPhase := .kRequestLine
  request : HttpRequest := {}
deriving DecidableEq, Repr

namespace HttpContext

/-- `isspace` in the C locale -/
def isSpace (b : UInt8) : Bool := b = 32 || (9 ≤ b && b ≤ 13)

def isDigit (b : UInt8) : Bool := 48 ≤ b && b ≤ 57

/-- `std::stoll`: white space, a sign, and the decimal digits up to the first
other byte; `none` for an exception, that there is no digit or that the value is
out of range. -/
def stoll (s : Bytes) : Option Int :=
  let s := s.dropWhile isSpace
  let (negative, s) := match s with
    | 45 :: s => (true, s)
    | 43 :: s => (false, s)
    | s => (false, s)
  let digits := s.takeWhile isDigit
  let magnitude : Int := digits.foldl (fun n d ↦ 10 * n + (d.toNat - 48 : Int)) 0
  let value := if negative then -magnitude else magnitude
  if digits = [] then none
  else if -2 ^ 63 ≤ value ∧ value < 2 ^ 63 then some value
  else none

/-- What the body of `parse_request` does last: return, or call itself. -/
inductive Next (B : Type) where
  | return (result : Bool) (context : HttpContext) (buf : B)
  | again (context : HttpContext) (buf : B)

/-- The phase `kRequestLine`. -/
def parseRequestLine (c : HttpContext) (buf : Buffer) : Except NoReturn (Next Buffer) :=
  let messages := buf.peek
  match find crlf messages with
  | none => return .return true c buf
  | some posCrLf => do
      match ← c.request.setRequestLineFrom (messages.take posCrLf) with
      | none => return .return false c buf
      | some request =>
          if buf.readableBytes > posCrLf + 2 then
            return .again { phase := .kHeaderLines, request } (← buf.retrieve (posCrLf + 2))
          else .error (.assertion .requestLineReadable)

/-- The phase `kHeaderLines`. -/
def parseHeaderLine (c : HttpContext) (buf : Buffer) : Except NoReturn (Next Buffer) :=
  let messages := buf.peek
  match find crlf messages with
  | none => return .return true c buf
  | some posCrLf =>
      let line := messages.take posCrLf
      if line = [] then
        if posCrLf = 0 then do
          return .again { c with phase := .kEntityBody } (← buf.retrieve 2)
        else .error (.assertion .blankLine)
      else
        match c.request.addHeaderFrom line with
        | none => return .return false c buf
        | some request =>
            if buf.readableBytes ≥ posCrLf + 2 then do
              return .again { c with request } (← buf.retrieve (posCrLf + 2))
            else .error (.assertion .headerLineReadable)

/-- The phase `kEntityBody`. -/
def parseEntityBody (c : HttpContext) (buf : Buffer) : Except NoReturn (Next Buffer) :=
  if c.request.method ≠ .kPost then return .return true { c with phase := .kCompleted } buf
  else
    match c.request.getHeader (bytes "Content-length") with
    | none => return .return false c buf
    | some contentsLength =>
        let contentsLengthValue := (stoll contentsLength).getD (-1)
        if contentsLengthValue < 0 then return .return false c buf
        else if buf.readableBytes < contentsLengthValue.toNat then return .return true c buf
        else return .return true { c with phase := .kCompleted } buf.retrieveAll

/-- The body of `parse_request`. -/
def parsePhase (c : HttpContext) (buf : Buffer) : Except NoReturn (Next Buffer) :=
  match c.phase with
  | .kRequestLine => c.parseRequestLine buf
  | .kHeaderLines => c.parseHeaderLine buf
  | .kEntityBody => c.parseEntityBody buf
  | .kCompleted => return .return true c buf

/-- Retrieving bytes and calling `parse_request` again leaves fewer bytes. -/
theorem readableBytes_lt_of_retrieve {c c' : HttpContext} {buf buf' : Buffer} {n : Nat} (hn : 0 < n)
    (h : (do return Next.again c (← buf.retrieve n) : Except NoReturn (Next Buffer))
      = .ok (.again c' buf')) : buf'.readableBytes < buf.readableBytes := by
  cases hr : buf.retrieve n with
  | error e => rw [hr] at h; cases h
  | ok b =>
      rw [hr] at h
      cases h
      have := Buffer.readableBytes_of_retrieve hr
      omega

/-- Whatever `parse_request` consumes before it calls itself ends in a line end. -/
theorem readableBytes_lt_of_again {c c' : HttpContext} {buf buf' : Buffer}
    (h : c.parsePhase buf = .ok (.again c' buf')) : buf'.readableBytes < buf.readableBytes := by
  rw [parsePhase] at h
  split at h
  · rw [parseRequestLine] at h
    split at h
    · cases h
    · cases hset : c.request.setRequestLineFrom (buf.peek.take _) with
      | error e => rw [hset] at h; cases h
      | ok r =>
          rw [hset] at h
          cases r with
          | none => cases h
          | some request =>
              simp only [ok_bind] at h
              split at h
              · exact readableBytes_lt_of_retrieve (Nat.succ_pos _) h
              · cases h
  · simp only [parseHeaderLine] at h
    split at h
    · cases h
    · split at h
      · split at h
        · exact readableBytes_lt_of_retrieve (Nat.succ_pos _) h
        · cases h
      · split at h
        · cases h
        · split at h
          · exact readableBytes_lt_of_retrieve (Nat.succ_pos _) h
          · cases h
  · simp only [parseEntityBody] at h
    split at h
    · cases h
    · split at h
      · cases h
      · split at h
        · cases h
        · split at h <;> cases h
  · cases h

/-- `parse_request` -/
def parseRequest (c : HttpContext) (buf : Buffer) : Except NoReturn (Bool × HttpContext × Buffer) :=
  match _h : c.parsePhase buf with
  | .error e => .error e
  | .ok (.return result c buf) => .ok (result, c, buf)
  | .ok (.again c' buf') => parseRequest c' buf'
termination_by buf.readableBytes
decreasing_by exact readableBytes_lt_of_again (by assumption)

end HttpContext

end Wuduo.Http
