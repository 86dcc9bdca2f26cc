import Wuduo.Basic
import Wuduo.Lib.Search

/-!
# `wuduo::http::RequestLine` and `wuduo::http::HttpRequest`

The model of `http_request.cpp`: the request line, cut at its spaces, and the
header lines, cut at their colons.

A position that `std::string_view::find` returns becomes an `Option`, `none`
being `npos`.  The header map is the list of its entries in the order in which
they were added; `emplace` adds no second entry for a key.
-/

namespace Wuduo.Http

open Search

inductive Method where
  | kGet
  | kHead
  | kPost
  | kUnknown
deriving DecidableEq, Repr

inductive Version where
  | kHttp10
  | kHttp11
  | kUnknown
deriving DecidableEq, Repr

structure RequestLine where
  method : Method := .kUnknown
  url : Bytes := []
  path : Bytes := []
  query : Bytes := []
  version : Version := .kUnknown
deriving DecidableEq, Repr

namespace RequestLine

/-- The names of the methods `from` accepts. -/
def methodFrom (name : Bytes) : Option Method :=
  if name = bytes "GET" then some .kGet
  else if name = bytes "HEAD" then some .kHead
  else if name = bytes "POST" then some .kPost
  else none

/-- The names of the versions `from` accepts. -/
def versionFrom (name : Bytes) : Option Version :=
  if name = bytes "HTTP/1.0" then some .kHttp10
  else if name = bytes "HTTP/1.1" then some .kHttp11
  else none

/-- The path and the query of a target.  Without a query, the first byte of the
target is cut off: `std::string{url.data() + 1, url.size() - 1}`, whose length
underflows for the empty target. -/
def pathAndQueryFrom (url : Bytes) : Except NoReturn (Bytes × Bytes) :=
  match find (bytes "?") url with
  | some questionPos => .ok (url.take questionPos, url.drop questionPos)
  | none =>
      if url = bytes "/" then .ok (bytes "index.html", [])
      else if url = [] then .error .lengthError
      else .ok (url.drop 1, [])

/-- `from` with three arguments. -/
def fromParts (method url version : Bytes) : Except NoReturn (Option RequestLine) :=
  match methodFrom method with
  | none => .ok none
  | some method => do
      let (path, query) ← pathAndQueryFrom url
      match versionFrom version with
      | none => return none
      | some version => return some { method, url, path, query, version }

/-- `from` -/
def fromLine (line : Bytes) : Except NoReturn (Option RequestLine) :=
  let line := (find (bytes "\r") line).elim line line.take
  match find (bytes " ") line with
  | none => .ok none
  | some spacePos =>
      let method := line.take spacePos
      if spacePos + 1 < line.length then
        let line := line.drop (spacePos + 1)
        match find (bytes " ") line with
        | none => .ok none
        | some spacePos =>
            let url := line.take spacePos
            if spacePos + 1 < line.length then fromParts method url (line.drop (spacePos + 1))
            else .error (.assertion .spaceAfterUrl)
      else .error (.assertion .spaceAfterMethod)

/-- `to_string` -/
def toString (line : RequestLine) : Bytes :=
  let method := match line.method with
    | .kGet => bytes "GET"
    | .kHead => bytes "HEAD"
    | .kPost => bytes "POST"
    | .kUnknown => bytes "UNKNOWN"
  let version := match line.version with
    | .kHttp10 => bytes "HTTP/1.0"
    | .kHttp11 => bytes "HTTP/1.1"
    | .kUnknown => bytes "UNKNOWN VERSION"
  method ++ bytes " " ++ line.url ++ bytes " " ++ version

end RequestLine

structure HttpRequest where
  requestLine : RequestLine := {}
  headers : List (Bytes × Bytes) := []
deriving DecidableEq, Repr

namespace HttpRequest

def method (r : HttpRequest) : Method := r.requestLine.method

def path (r : HttpRequest) : Bytes := r.requestLine.path

def getHeader (r : HttpRequest) (key : Bytes) : Option Bytes := r.headers.lookup key

/-- `set_request_line_from`; `none` if the line is rejected. -/
def setRequestLineFrom (r : HttpRequest) (line : Bytes) : Except NoReturn (Option HttpRequest) :=
  return (← RequestLine.fromLine line).map fun requestLine ↦ { r with requestLine }

/-- The key and the value of a header line. -/
def headerFrom (line : Bytes) : Option (Bytes × Bytes) := do
  let posColon ← find (bytes ":") line
  let posValue ← findFirstNotOf 32 line (posColon + 1)
  return (line.take posColon, line.drop posValue)

/-- `add_header_from`; `none` if the line is rejected. -/
def addHeaderFrom (r : HttpRequest) (line : Bytes) : Option HttpRequest := do
  let (key, value) ← headerFrom line
  if (r.getHeader key).isSome then none
  else some { r with headers := r.headers ++ [(key, value)] }

/-- A header line is accepted if it has a key that is new and a value. -/
theorem addHeaderFrom_eq_some_iff {r r' : HttpRequest} {line : Bytes} :
    r.addHeaderFrom line = some r' ↔ ∃ key value, headerFrom line = some (key, value) ∧
      r.getHeader key = none ∧ r' = { r with headers := r.headers ++ [(key, value)] } := by
  refine Option.bind_eq_some_iff.trans ?_
  constructor
  · rintro ⟨⟨key, value⟩, hheader, hif⟩
    cases hkey : r.getHeader key with
    | none =>
        simp only [hkey, Option.isSome_none] at hif
        exact ⟨key, value, hheader, hkey, (Option.some.inj hif).symm⟩
    | some v =>
        simp only [hkey, Option.isSome_some] at hif
        cases hif
  · rintro ⟨key, value, hheader, hkey, rfl⟩
    refine ⟨(key, value), hheader, ?_⟩
    simp only [hkey, Option.isSome_none]
    rfl

def isCloseConnection (r : HttpRequest) : Bool :=
  match r.getHeader (bytes "Connection") with
  | none => true
  | some value => value ≠ bytes "keep-alive" && value ≠ bytes "Keep-Alive"

end HttpRequest

end Wuduo.Http
