import Wuduo.Http.HttpResponse
import Wuduo.Http.RequestLine

/-!
# Which files can be asked for

The server opens the path of a request relative to its working directory.  A path
that is `Confined` leads to nothing outside of it: it is relative, and read component
by component it never goes up more often than it has gone down.

Nothing in the server looks at the components of a path.  The path is the target less
its first byte, which is a slash as a rule; `confined_iff` says what that means for
the targets without a query.
-/

namespace Wuduo.Http

open RequestLine

/-- The components of a path. -/
def components (path : Bytes) : List Bytes := path.splitOn 47

/-- The component names an entry of a directory, other than the directory itself and
the one above it. -/
def IsOrdinary (component : Bytes) : Prop :=
  component ≠ [] ∧ component ≠ bytes "." ∧ component ≠ bytes ".."

instance : DecidablePred IsOrdinary := fun _ ↦ inferInstanceAs (Decidable (_ ∧ _))

/-- The path is relative, and none of its beginnings goes up more often than down. -/
structure Confined (path : Bytes) : Prop where
  relative : ¬ bytes "/" <+: path
  inside : ∀ start ∈ (components path).inits,
    start.countP (· = bytes "..") ≤ start.countP (IsOrdinary ·)

instance (path : Bytes) : Decidable (Confined path) :=
  decidable_of_iff (¬ bytes "/" <+: path ∧ ∀ start ∈ (components path).inits,
      start.countP (· = bytes "..") ≤ start.countP (IsOrdinary ·))
    ⟨fun ⟨hrelative, hinside⟩ ↦ ⟨hrelative, hinside⟩, fun h ↦ ⟨h.relative, h.inside⟩⟩

/-- The path opened for a target without a query. -/
theorem openedPath_of_fromLine {line : Bytes} {r : RequestLine}
    (h : fromLine line = .ok (some r)) (hquery : 63 ∉ r.url) (headers : List (Bytes × Bytes)) :
    openedPath ⟨r, headers⟩ =
      if r.url = bytes "/" then bytes "index.html" else cString (r.url.drop 1) := by
  obtain ⟨m, v, hm, hv, hne, hspace, ht⟩ := isRequest_of_fromLine h
  rw [fromLine_of_words ht (not_mem_of_mem_methodNames hm).1 hspace
    (not_mem_of_mem_versionNames hv).1, fromParts_of_target hm
    (pathAndQueryFrom_of_no_query hquery hne), versionFrom_eq_some_iff.mpr hv] at h
  have hpath := congrArg RequestLine.path (Option.some.inj (Except.ok.inj h))
  rw [openedPath, HttpRequest.path, ← hpath]
  change cString (if r.url = bytes "/" then bytes "index.html" else r.url.drop 1) = _
  split
  · decide +kernel
  · rfl

/-- **Which files can be asked for.**  A target without a query opens the index page,
if it is `/`, and otherwise what is behind its first byte; so the file is under the
working directory exactly if that is. -/
theorem confined_iff (line : Bytes) (r : RequestLine) (headers : List (Bytes × Bytes))
    (h : fromLine line = .ok (some r)) (hquery : 63 ∉ r.url) :
    (openedPath ⟨r, headers⟩ =
        if r.url = bytes "/" then bytes "index.html" else cString (r.url.drop 1)) ∧
      (Confined (openedPath ⟨r, headers⟩) ↔
        r.url = bytes "/" ∨ Confined (cString (r.url.drop 1))) := by
  have hopened := openedPath_of_fromLine h hquery headers
  refine ⟨hopened, ?_⟩
  rw [hopened]
  split
  · rename_i hroot
    exact iff_of_true (by decide +kernel) (.inl hroot)
  · rename_i hroot
    exact ⟨.inr, fun hor ↦ hor.resolve_left hroot⟩

/-- One of the pages the server offers. -/
theorem confined_iff_hello :
    ∃ r, fromLine (bytes "GET /./assert/../hello.html HTTP/1.1") = .ok (some r) ∧
      Confined (openedPath ⟨r, []⟩) := by
  refine ⟨⟨.kGet, bytes "/./assert/../hello.html", bytes "./assert/../hello.html", [], .kHttp11⟩,
    by decide +kernel, (confined_iff (bytes "GET /./assert/../hello.html HTTP/1.1") _ []
      (by decide +kernel) (by decide +kernel)).2.mpr (.inr (by decide +kernel))⟩

/-- A target that goes up, and one with two slashes. -/
theorem not_confined :
    (∃ r, fromLine (bytes "GET /../secret HTTP/1.1") = .ok (some r) ∧
        ¬ Confined (openedPath ⟨r, []⟩)) ∧
      ∃ r, fromLine (bytes "GET //etc/passwd HTTP/1.1") = .ok (some r) ∧
        ¬ Confined (openedPath ⟨r, []⟩) := by
  constructor
  · exact ⟨⟨.kGet, bytes "/../secret", bytes "../secret", [], .kHttp11⟩, by decide +kernel,
      by decide +kernel⟩
  · exact ⟨⟨.kGet, bytes "//etc/passwd", bytes "/etc/passwd", [], .kHttp11⟩, by decide +kernel,
      by decide +kernel⟩

end Wuduo.Http
