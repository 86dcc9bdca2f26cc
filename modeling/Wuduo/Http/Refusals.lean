import Wuduo.Http.Spelling

/-!
# What the parser refuses

A text that the parser does not accept can be one that it refuses, one that brings the
server down, or one that it waits for the rest of.  `Refused` and `Fatal` describe the
first two in terms of lines, and `verdict_iff` says that they are just these.

The parser does not look ahead: a line is dealt with as soon as its end is there, and what
follows a line that is refused does not matter.  So the description is that of a head up to
its first bad line; a POST request has a further chance to be refused, behind the empty
line, for want of a length.

## Results

* `verdict_iff`: on a fresh context, `parse_request` returns false exactly for the texts
  that are refused, and fails exactly for those that are fatal.
-/

namespace Wuduo.Http

/-- A line that cannot be added to the request: it is no header line, or its name is taken. -/
def IsBadHeader (r : HttpRequest) (line : Bytes) : Prop :=
  ¬ crlf <:+: line ∧ line ≠ [] ∧
    ¬ (IsHeaderLine line ∧ r.getHeader (headerName line) = none)

/-- A POST request that does not say how long its body is, or not in a way that
`std::stoll` reads as a length. -/
def HasNoLength (r : HttpRequest) : Prop :=
  r.method = .kPost ∧ ∀ value, r.getHeader (bytes "Content-length") = some value →
    ∀ n, HttpContext.stoll value = some n → n < 0

/-- The text behind a request line is refused: at the first bad header line, or behind the
empty line. -/
inductive RefusedBehind (r : HttpRequest) (s : Bytes) : Prop where
  | header {headers : List Bytes} {bad rest : Bytes} (hs : AreHeaders r headers)
      (hbad : IsBadHeader (withHeaders r headers) bad)
      (text : s = linesText headers ++ (bad ++ crlf ++ rest))
  | length {headers : List Bytes} {rest : Bytes} (hs : AreHeaders r headers)
      (hlength : HasNoLength (withHeaders r headers))
      (text : s = linesText headers ++ (crlf ++ rest))

/-- The text is refused: its request line is rejected, or what follows it is. -/
inductive Refused (s : Bytes) : Prop where
  | line {line rest : Bytes} (hcut : s = line ++ crlf ++ rest) (hfree : ¬ crlf <:+: line)
      (hline : RequestLine.fromLine line = .ok none)
  | behind {line rest : Bytes} {r : RequestLine} (hcut : s = line ++ crlf ++ rest)
      (hfree : ¬ crlf <:+: line) (hline : RequestLine.fromLine line = .ok (some r))
      (h : RefusedBehind ⟨r, []⟩ rest)

/-- The text brings the server down: its request line does, or it is a request line with
nothing behind it. -/
def Fatal (s : Bytes) : Prop :=
  ∃ line rest, s = line ++ crlf ++ rest ∧ ¬ crlf <:+: line ∧
    ((∃ e, RequestLine.fromLine line = .error e) ∨
      rest = [] ∧ ∃ r, RequestLine.fromLine line = .ok (some r))

/-- A header line in front of what is refused. -/
theorem RefusedBehind.cons {r : HttpRequest} {h s : Bytes} (hline : ¬ crlf <:+: h) (hne : h ≠ [])
    (hheader : IsHeaderLine h) (hnew : r.getHeader (headerName h) = none)
    (hs : RefusedBehind (withHeaders r [h]) s) : RefusedBehind r (h ++ crlf ++ s) := by
  cases hs with
  | @header headers bad rest hheaders hbad text =>
      rw [withHeaders_cons] at hbad
      have hall := areHeaders_cons.mpr ⟨hline, hne, hheader, hnew, hheaders⟩
      exact @RefusedBehind.header r _ (h :: headers) bad rest hall hbad
        (by rw [text]; simp [linesText])
  | @length headers rest hheaders hlength text =>
      rw [withHeaders_cons] at hlength
      have hall := areHeaders_cons.mpr ⟨hline, hne, hheader, hnew, hheaders⟩
      exact @RefusedBehind.length r _ (h :: headers) rest hall hlength
        (by rw [text]; simp [linesText])

theorem areHeaders_nil (r : HttpRequest) : AreHeaders r [] :=
  ⟨by simp, by simp, by simp, by simp, by simp⟩

namespace HttpContext

/-! ## Behind the request line -/

/-- Header lines are added one after the other. -/
theorem parse_headers_append {r : HttpRequest} {headers : List Bytes} (hs : AreHeaders r headers)
    (t : Bytes) : parse ⟨.kHeaderLines, r⟩ (linesText headers ++ t) =
      parse ⟨.kHeaderLines, withHeaders r headers⟩ t := by
  induction headers generalizing r with
  | nil => simp [linesText, withHeaders]
  | cons h headers ih =>
      obtain ⟨hline, hne, hheader, hnew, hs⟩ := areHeaders_cons.mp hs
      have htext : linesText (h :: headers) ++ t = h ++ crlf ++ (linesText headers ++ t) := by
        simp [linesText]
      rw [htext, parse_of_again (phaseStep_header hline hne hheader hnew _), ih hs,
        withHeaders_cons]

/-- What the parser makes of the body is to complete the request, or to wait, or to refuse. -/
theorem parse_entityBody_false_iff (r : HttpRequest) (s : Bytes) :
    (∃ c s', parse ⟨.kEntityBody, r⟩ s = .ok (false, c, s')) ↔ HasNoLength r := by
  by_cases hpost : r.method = .kPost
  · cases hget : r.getHeader (bytes "Content-length") with
    | none =>
        have hstep : phaseStep ⟨.kEntityBody, r⟩ s = .ok (.return false ⟨.kEntityBody, r⟩ s) := by
          simp only [phaseStep, hpost, hget, ne_eq, not_true_eq_false, if_false]
        refine iff_of_true ⟨_, _, parse_of_return hstep⟩ ⟨hpost, fun value h ↦ ?_⟩
        rw [hget] at h
        cases h
    | some value =>
        have hlength : HasNoLength r ↔ (stoll value).getD (-1) < 0 := by
          refine ⟨fun h ↦ ?_, fun h ↦ ⟨hpost, fun value' h' n hn ↦ ?_⟩⟩
          · cases hn : stoll value with
            | none => decide
            | some n => exact h.2 value hget n hn
          · cases hget.symm.trans h'
            rwa [hn] at h
        rw [hlength]
        by_cases hneg : (stoll value).getD (-1) < 0
        · have hstep : phaseStep ⟨.kEntityBody, r⟩ s
              = .ok (.return false ⟨.kEntityBody, r⟩ s) := by
            simp only [phaseStep, hpost, hget, ne_eq, not_true_eq_false, if_false, if_pos hneg]
          exact iff_of_true ⟨_, _, parse_of_return hstep⟩ hneg
        · refine iff_of_false ?_ hneg
          rintro ⟨c, s', hparse⟩
          have hstep : ∃ c s', phaseStep ⟨.kEntityBody, r⟩ s = .ok (.return true c s') := by
            simp only [phaseStep, hpost, hget, ne_eq, not_true_eq_false, if_false, if_neg hneg]
            split <;> exact ⟨_, _, rfl⟩
          obtain ⟨c', s'', hstep⟩ := hstep
          rw [parse_of_return hstep] at hparse
          cases hparse
  · refine iff_of_false ?_ fun h ↦ hpost h.1
    rintro ⟨c, s', hparse⟩
    rw [parse_of_entityBody rfl hpost] at hparse
    cases hparse

/-- A header line at which the parser stops is a bad one. -/
theorem phaseStep_headers_false {r : HttpRequest} {c : HttpContext} {s s' : Bytes}
    (h : phaseStep ⟨.kHeaderLines, r⟩ s = .ok (.return false c s')) :
    ∃ bad rest, s = bad ++ crlf ++ rest ∧ IsBadHeader r bad := by
  simp only [phaseStep] at h
  split at h
  · cases h
  · rename_i line rest hcut
    obtain ⟨rfl, hline⟩ := cutLine_eq_some_iff.mp hcut
    split at h
    · cases h
    · rename_i hne
      split at h
      · rename_i hnone
        exact ⟨line, rest, rfl, hline, hne, addHeaderFrom_eq_none_iff.mp hnone⟩
      · cases h

/-- Whatever is refused behind the request line is so for a reason. -/
theorem refusedBehind_of_parse {r : HttpRequest} {c : HttpContext} {s s' : Bytes}
    (h : parse ⟨.kHeaderLines, r⟩ s = .ok (false, c, s')) : RefusedBehind r s := by
  induction hlen : s.length using Nat.strong_induction_on generalizing r s with
  | _ n ih =>
      subst hlen
      rcases hstep : phaseStep ⟨.kHeaderLines, r⟩ s with e | next
      · rw [parse_of_error hstep] at h
        cases h
      cases next with
      | «return» result c' s₁ =>
          rw [parse_of_return hstep] at h
          cases h
          obtain ⟨bad, rest, rfl, hbad⟩ := phaseStep_headers_false hstep
          exact .header (areHeaders_nil r) (by simpa [withHeaders] using hbad) rfl
      | again c' s₁ =>
          rw [parse_of_again hstep] at h
          rcases phaseStep_headers_again hstep with
            ⟨rfl, rfl⟩ | ⟨line, rfl, hline, hne, hheader, hnew, rfl⟩
          · have hlength := (parse_entityBody_false_iff r s₁).mp ⟨c, s', h⟩
            exact .length (areHeaders_nil r) (by simpa [withHeaders] using hlength) rfl
          · exact .cons hline hne hheader hnew
              (ih _ (length_lt_of_phaseStep hstep) (r := withHeaders r [line]) h rfl)

theorem parse_headers_false_iff (r : HttpRequest) (s : Bytes) :
    (∃ c s', parse ⟨.kHeaderLines, r⟩ s = .ok (false, c, s')) ↔ RefusedBehind r s := by
  constructor
  · rintro ⟨c, s', h⟩
    exact refusedBehind_of_parse h
  · intro h
    cases h with
    | @header headers bad rest hs hbad text =>
        obtain ⟨hline, hne, hrefused⟩ := hbad
        have hparse := parse_of_refused hline hne (addHeaderFrom_eq_none_iff.mpr hrefused) rest
        exact ⟨_, _, by rw [text, parse_headers_append hs, hparse]⟩
    | @length headers rest hs hlength text =>
        obtain ⟨c, s', hparse⟩ := (parse_entityBody_false_iff _ rest).mpr hlength
        exact ⟨c, s', by rw [text, parse_headers_append hs, parse_of_again (phaseStep_blank _ _),
          hparse]⟩

/-! ## From the request line on -/

/-- What becomes of a text that has a first line. -/
theorem parse_of_cutLine {s line rest : Bytes} (hcut : cutLine s = some (line, rest)) :
    ((∃ c s', parse {} s = .ok (false, c, s')) ↔
        RequestLine.fromLine line = .ok none ∨
          ∃ r, RequestLine.fromLine line = .ok (some r) ∧ RefusedBehind ⟨r, []⟩ rest) ∧
      ((∃ e, parse {} s = .error e) ↔ (∃ e, RequestLine.fromLine line = .error e) ∨
        rest = [] ∧ ∃ r, RequestLine.fromLine line = .ok (some r)) := by
  rcases hline : RequestLine.fromLine line with e | _ | r
  · rw [parse_of_line_error rfl hcut hline]
    exact ⟨by simp, by simp⟩
  · rw [parse_of_rejected rfl hcut hline]
    exact ⟨by simp, by simp⟩
  · by_cases hrest : rest = []
    · subst hrest
      rw [parse_of_nothing_behind rfl hcut hline]
      refine ⟨?_, by simp⟩
      have hnothing : ¬ RefusedBehind ⟨r, []⟩ [] := by
        intro h
        cases h with
        | header _ _ text => simp [crlf] at text
        | length _ _ text => simp [crlf] at text
      simp [hnothing]
    · rw [parse_of_accepted rfl hcut hline hrest]
      obtain ⟨result, c, s', hok, -⟩ := parse_ok (c := ⟨.kHeaderLines, ⟨r, []⟩⟩) (by simp) rest
      refine ⟨?_, ?_⟩
      · rw [show ({} : HttpContext).request = ⟨{}, []⟩ from rfl, parse_headers_false_iff]
        simp
      · rw [show ({} : HttpContext).request = ⟨{}, []⟩ from rfl, hok]
        simp [hrest]

/-- **What is refused, and what is fatal.**  On a fresh context one call of `parse_request`
returns false if and only if the readable bytes are refused: their request line is rejected,
or the first header line that is not one, or whose name is taken, comes before the empty
line, or behind that the request is a POST without a length.  It fails if and only if the
request line does, or nothing follows a request line that is accepted. -/
theorem verdict_iff (buf : Buffer) :
    ((∃ c buf', parseRequest {} buf = .ok (false, c, buf')) ↔ Refused buf.peek) ∧
      ((∃ e, parseRequest {} buf = .error e) ↔ Fatal buf.peek) := by
  have hcomputes : ((∃ c buf', parseRequest {} buf = .ok (false, c, buf')) ↔
        ∃ c s', parse {} buf.peek = .ok (false, c, s')) ∧
      ((∃ e, parseRequest {} buf = .error e) ↔ ∃ e, parse {} buf.peek = .error e) := by
    rw [← parseRequest_peek {} buf]
    cases parseRequest {} buf with
    | error e => exact ⟨by simp, by simp⟩
    | ok out =>
        obtain ⟨result, c, buf'⟩ := out
        exact ⟨by simp, by simp⟩
  rw [hcomputes.1, hcomputes.2]
  cases hcut : cutLine buf.peek with
  | none =>
      have hfirst (line rest : Bytes) (htext : buf.peek = line ++ crlf ++ rest)
          (hfree : ¬ crlf <:+: line) : False := by
        rw [cutLine_eq_some_iff.mpr ⟨htext, hfree⟩] at hcut
        cases hcut
      rw [parse_of_no_line rfl hcut]
      refine ⟨iff_of_false (by simp) fun h ↦ ?_, iff_of_false (by simp) fun h ↦ ?_⟩
      · cases h with
        | line htext hfree => exact hfirst _ _ htext hfree
        | behind htext hfree => exact hfirst _ _ htext hfree
      · obtain ⟨line, rest, htext, hfree, -⟩ := h
        exact hfirst _ _ htext hfree
  | some cut =>
      obtain ⟨line, rest⟩ := cut
      obtain ⟨htext, hfree⟩ := cutLine_eq_some_iff.mp hcut
      have hfirst (line' rest' : Bytes) (htext' : buf.peek = line' ++ crlf ++ rest')
          (hfree' : ¬ crlf <:+: line') : line' = line ∧ rest' = rest := by
        rw [cutLine_eq_some_iff.mpr ⟨htext', hfree'⟩] at hcut
        cases hcut
        exact ⟨rfl, rfl⟩
      obtain ⟨hrefused, hfatal⟩ := parse_of_cutLine hcut
      rw [hrefused, hfatal]
      refine ⟨⟨?_, fun h ↦ ?_⟩, ⟨fun h ↦ ⟨line, rest, htext, hfree, h⟩, ?_⟩⟩
      · rintro (hline | ⟨r, hline, h⟩)
        · exact .line htext hfree hline
        · exact .behind htext hfree hline h
      · cases h with
        | line htext' hfree' hline =>
            obtain ⟨rfl, rfl⟩ := hfirst _ _ htext' hfree'
            exact .inl hline
        | behind htext' hfree' hline h =>
            obtain ⟨rfl, rfl⟩ := hfirst _ _ htext' hfree'
            exact .inr ⟨_, hline, h⟩
      · rintro ⟨line', rest', htext', hfree', h⟩
        obtain ⟨rfl, rfl⟩ := hfirst _ _ htext' hfree'
        exact h

end HttpContext

end Wuduo.Http
