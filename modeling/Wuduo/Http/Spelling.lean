import Wuduo.Http.Cutting
import Wuduo.Http.Grammar

/-!
# The spelling of header names

HTTP takes header names to be the same in upper and lower case.  The code does not: the
header map is keyed by the name as it is written, and each lookup has a spelling of its
own.  `not_caseInsensitive` are three pairs of requests that differ in nothing but the
case of a name and are treated differently, one for each use of a name.

`outcome_of_spelling` says that these are all the uses: the spelling does not matter
beyond which names are written alike, and which are written as they are looked up.
-/

namespace Wuduo.Http

/-! ## Spellings -/

def toLower (b : UInt8) : UInt8 := if 65 ≤ b ∧ b ≤ 90 then b + 32 else b

/-- The two header lines differ at most in the case of letters of the name. -/
def Spellings (p : Bytes × Bytes) : Prop :=
  p.1 = p.2 ∨ ∃ name name' value, 58 ∉ name ∧ 58 ∉ name' ∧ name.map toLower = name'.map toLower ∧
    p.1 = name ++ 58 :: value ∧ p.2 = name' ++ 58 :: value

/-- Header lines in two spellings. -/
structure AreSpellings (lines : List (Bytes × Bytes)) : Prop where
  spelling : ∀ p ∈ lines, Spellings p
  line : ∀ p ∈ lines, ¬ crlf <:+: p.1 ∧ ¬ crlf <:+: p.2
  nonempty : ∀ p ∈ lines, p.1 ≠ [] ∧ p.2 ≠ []

instance : DecidablePred Spellings := fun p ↦
  decidable_of_iff (p.1 = p.2 ∨ 58 ∈ p.1 ∧ 58 ∈ p.2 ∧
      (headerName p.1).map toLower = (headerName p.2).map toLower ∧
      p.1.dropWhile (· ≠ 58) = p.2.dropWhile (· ≠ 58)) (by
    refine or_congr_right ⟨?_, ?_⟩
    · rintro ⟨hmem, hmem', hlower, hdrop⟩
      obtain ⟨name, value, heq, hname⟩ := List.eq_append_cons_of_mem hmem
      obtain ⟨name', value', heq', hname'⟩ := List.eq_append_cons_of_mem hmem'
      rw [headerName, headerName, heq, heq', (takeWhile_colon hname value).1,
        (takeWhile_colon hname' value').1] at hlower
      rw [heq, heq', (takeWhile_colon hname value).2, (takeWhile_colon hname' value').2] at hdrop
      exact ⟨name, name', value, hname, hname', hlower, heq, (List.cons_eq_cons.mp hdrop).2 ▸ heq'⟩
    · rintro ⟨name, name', value, hname, hname', hlower, heq, heq'⟩
      rw [headerName, headerName, heq, heq', (takeWhile_colon hname value).1,
        (takeWhile_colon hname' value).1, (takeWhile_colon hname value).2,
        (takeWhile_colon hname' value).2]
      exact ⟨by simp, by simp, hlower, rfl⟩)

instance (lines : List (Bytes × Bytes)) : Decidable (AreSpellings lines) :=
  decidable_of_iff ((∀ p ∈ lines, Spellings p) ∧ (∀ p ∈ lines, ¬ crlf <:+: p.1 ∧ ¬ crlf <:+: p.2) ∧
    ∀ p ∈ lines, p.1 ≠ [] ∧ p.2 ≠ [])
    ⟨fun ⟨hs, hl, hne⟩ ↦ ⟨hs, hl, hne⟩, fun ⟨hs, hl, hne⟩ ↦ ⟨hs, hl, hne⟩⟩

/-- What is behind the name is the same. -/
theorem Spellings.same {p : Bytes × Bytes} (h : Spellings p) :
    headerValue p.1 = headerValue p.2 ∧ (IsHeaderLine p.1 ↔ IsHeaderLine p.2) := by
  rcases h with h | ⟨name, name', value, hname, hname', -, h₁, h₂⟩
  · rw [h]
    exact ⟨rfl, Iff.rfl⟩
  · rw [h₁, h₂, headerValue, headerValue, (takeWhile_colon hname value).2,
      (takeWhile_colon hname' value).2, isHeaderLine_iff hname, isHeaderLine_iff hname']
    exact ⟨rfl, Iff.rfl⟩

/-- A name that is written in the same lines has the same value in both spellings. -/
theorem lookup_spellings {lines : List (Bytes × Bytes)} (h : ∀ p ∈ lines, Spellings p)
    {name name' : Bytes} (hname : ∀ p ∈ lines, headerName p.1 = name ↔ headerName p.2 = name') :
    (lines.map fun p ↦ headerEntry p.1).lookup name
      = (lines.map fun p ↦ headerEntry p.2).lookup name' := by
  induction lines with
  | nil => rfl
  | cons p lines ih =>
      obtain ⟨hp, hlines⟩ := List.forall_mem_cons.mp h
      obtain ⟨hpname, hnames⟩ := List.forall_mem_cons.mp hname
      rw [List.map_cons, List.map_cons, headerEntry, headerEntry, List.lookup_cons,
        List.lookup_cons, ih hlines hnames, hp.same.1]
      by_cases heq : headerName p.1 = name
      · rw [beq_iff_eq.mpr heq.symm, beq_iff_eq.mpr (hpname.mp heq).symm]
      · rw [beq_eq_false_iff_ne.mpr (Ne.symm heq),
          beq_eq_false_iff_ne.mpr (Ne.symm (mt hpname.mpr heq))]

/-! ## Outcomes -/

/-- A request with this request line, these header lines and this body. -/
def requestText (line : Bytes) (headers : List Bytes) (body : Bytes) : Bytes :=
  line ++ crlf ++ linesText headers ++ crlf ++ body

/-- What `parse_request` returns, the phase, the unread bytes, and what
`is_close_connection()` says, when a request is delivered in one piece. -/
def outcome (text : Bytes) : Except NoReturn (Option Bool × ParsingPhase × Bytes × Bool) :=
  (HttpContext.deliver [text]).map fun out ↦
    (out.1, out.2.1.phase, out.2.2.peek, out.2.1.request.isCloseConnection)

/-- The same outcome, in which header lines that are unread have the two spellings. -/
def SameOutcome (o o' : Except NoReturn (Option Bool × ParsingPhase × Bytes × Bool)) : Prop :=
  (∃ e, o = .error e ∧ o' = .error e) ∨
    ∃ (result : Option Bool) (phase : ParsingPhase) (close : Bool) (lines : List (Bytes × Bytes))
      (rest : Bytes), (∀ p ∈ lines, Spellings p) ∧
      o = .ok (result, phase, linesText (lines.map Prod.fst) ++ rest, close) ∧
      o' = .ok (result, phase, linesText (lines.map Prod.snd) ++ rest, close)

theorem SameOutcome.refl (o : Except NoReturn (Option Bool × ParsingPhase × Bytes × Bool)) :
    SameOutcome o o := by
  cases o with
  | error e => exact .inl ⟨e, rfl, rfl⟩
  | ok out =>
      obtain ⟨result, phase, rest, close⟩ := out
      exact .inr ⟨result, phase, close, [], rest, by simp, rfl, rfl⟩

/-- Apart from the unread bytes, it is one outcome. -/
theorem SameOutcome.map_eq {o o' : Except NoReturn (Option Bool × ParsingPhase × Bytes × Bool)}
    (h : SameOutcome o o') :
    (o.map fun out ↦ (out.1, out.2.1, out.2.2.2))
      = o'.map fun out ↦ (out.1, out.2.1, out.2.2.2) := by
  rcases h with ⟨e, rfl, rfl⟩ | ⟨result, phase, close, lines, rest, -, rfl, rfl⟩
  · rfl
  · rfl

namespace HttpContext

/-- What is seen of a call of the parser. -/
def seen (o : Except NoReturn (Bool × HttpContext × Bytes)) :
    Except NoReturn (Option Bool × ParsingPhase × Bytes × Bool) :=
  o.map fun r ↦ (some r.1, r.2.1.phase, r.2.2, r.2.1.request.isCloseConnection)

/-- The outcome is a matter of the bytes. -/
theorem outcome_eq (text : Bytes) : outcome text = seen (parse {} text) := by
  obtain ⟨buf, happend, hpeek⟩ := (Buffer.ofSize kInitialSize).append_spec text
  rw [Buffer.peek_ofSize, List.nil_append] at hpeek
  rw [outcome, deliver, feed, happend, ← hpeek]
  simp only [ok_bind]
  cases hparse : parse {} buf.peek with
  | error e => rw [parseRequest_of_error hparse]; rfl
  | ok r =>
      obtain ⟨buf', hrequest, hpeek'⟩ := parseRequest_of_ok hparse
      simp only [hrequest, ok_bind, feed, pure_eq_ok, map_ok, hpeek', seen]

/-! ## Requests in two spellings -/

theorem addHeaderFrom_eq_none_iff {r : HttpRequest} {line : Bytes} :
    r.addHeaderFrom line = none ↔ ¬ (IsHeaderLine line ∧ r.getHeader (headerName line) = none) := by
  rw [Option.eq_none_iff_forall_ne_some]
  constructor
  · rintro hnone ⟨hline, hnew⟩
    exact hnone _ (addHeaderFrom_of_isHeaderLine hline hnew)
  · intro hnot r' hadd
    obtain ⟨key, value, hfrom, hnew, -⟩ := HttpRequest.addHeaderFrom_eq_some_iff.mp hadd
    obtain ⟨hline, rfl, -⟩ := headerFrom_eq_some_iff.mp hfrom
    exact hnot ⟨hline, hnew⟩

theorem parse_of_refused {r : HttpRequest} {h : Bytes} (hline : ¬ crlf <:+: h) (hne : h ≠ [])
    (hrefused : r.addHeaderFrom h = none) (rest : Bytes) :
    parse ⟨.kHeaderLines, r⟩ (h ++ crlf ++ rest)
      = .ok (false, ⟨.kHeaderLines, r⟩, h ++ crlf ++ rest) :=
  parse_of_return (by
    simp only [phaseStep, cutLine_eq_some_iff.mpr ⟨rfl, hline⟩, if_neg hne, hrefused])

theorem isCloseConnection_congr {r r' : HttpRequest}
    (h : r.getHeader (bytes "Connection") = r'.getHeader (bytes "Connection")) :
    r.isCloseConnection = r'.isCloseConnection := by
  rw [HttpRequest.isCloseConnection, HttpRequest.isCloseConnection, h]

/-- The body of a request is treated by its method and by the header for its length. -/
theorem seen_body (r r' : HttpRequest) (hmethod : r.method = r'.method)
    (hlength : r.method = .kPost →
      r.getHeader (bytes "Content-length") = r'.getHeader (bytes "Content-length"))
    (hclose : r.isCloseConnection = r'.isCloseConnection) (body : Bytes) :
    seen (parse ⟨.kEntityBody, r⟩ body) = seen (parse ⟨.kEntityBody, r'⟩ body) := by
  by_cases hpost : r.method = .kPost
  · have hsame : ∃ result phase rest,
        phaseStep ⟨.kEntityBody, r⟩ body = .ok (.return result ⟨phase, r⟩ rest) ∧
        phaseStep ⟨.kEntityBody, r'⟩ body = .ok (.return result ⟨phase, r'⟩ rest) := by
      simp only [phaseStep, ← hmethod, hpost, ← hlength hpost, ne_eq, not_true_eq_false, if_false]
      split
      · exact ⟨_, _, _, rfl, rfl⟩
      · split
        · exact ⟨_, _, _, rfl, rfl⟩
        · split <;> exact ⟨_, _, _, rfl, rfl⟩
    obtain ⟨result, phase, rest, hstep, hstep'⟩ := hsame
    rw [parse_of_return hstep, parse_of_return hstep', seen, seen, map_ok, map_ok, hclose]
  · rw [parse_of_entityBody rfl hpost, parse_of_entityBody rfl (hmethod ▸ hpost), seen, seen,
      map_ok, map_ok, hclose]

/-- The lines are used alike in both spellings: the same ones have equal names, and the
same ones the names that are looked up. -/
structure UsedAlike (r : RequestLine) (lines : List (Bytes × Bytes)) : Prop where
  equal : ∀ p ∈ lines, ∀ q ∈ lines,
    headerName p.1 = headerName q.1 ↔ headerName p.2 = headerName q.2
  connection : ∀ p ∈ lines,
    headerName p.1 = bytes "Connection" ↔ headerName p.2 = bytes "Connection"
  length : r.method = .kPost → ∀ p ∈ lines,
    headerName p.1 = bytes "Content-length" ↔ headerName p.2 = bytes "Content-length"

/-- The request in which these header lines have been parsed. -/
def withLines (r : RequestLine) (headers : List Bytes) : HttpRequest :=
  ⟨r, headers.map headerEntry⟩

theorem withHeaders_withLines (r : RequestLine) (headers : List Bytes) (h : Bytes) :
    withHeaders (withLines r headers) [h] = withLines r (headers ++ [h]) := by
  rw [withHeaders, withLines, withLines, List.map_append, List.map_cons, List.map_nil]

/-- A name that is written in the same lines is found alike. -/
theorem getHeader_withLines (r : RequestLine) {lines : List (Bytes × Bytes)}
    (h : ∀ p ∈ lines, Spellings p) {name name' : Bytes}
    (hname : ∀ p ∈ lines, headerName p.1 = name ↔ headerName p.2 = name') :
    (withLines r (lines.map Prod.fst)).getHeader name
      = (withLines r (lines.map Prod.snd)).getHeader name' := by
  have hlookup := lookup_spellings h hname
  rw [HttpRequest.getHeader, HttpRequest.getHeader, withLines, withLines, List.map_map,
    List.map_map]
  exact hlookup

/-- **Header lines are parsed alike.** -/
theorem sameOutcome_lines (r : RequestLine) (done todo : List (Bytes × Bytes))
    (h : AreSpellings (done ++ todo)) (hused : UsedAlike r (done ++ todo)) (body : Bytes) :
    SameOutcome
      (seen (parse ⟨.kHeaderLines, withLines r (done.map Prod.fst)⟩
        (linesText (todo.map Prod.fst) ++ crlf ++ body)))
      (seen (parse ⟨.kHeaderLines, withLines r (done.map Prod.snd)⟩
        (linesText (todo.map Prod.snd) ++ crlf ++ body))) := by
  induction todo generalizing done with
  | nil =>
      rw [List.append_nil] at h hused
      have hclose := isCloseConnection_congr (getHeader_withLines r h.spelling hused.connection)
      have hbody := seen_body (withLines r (done.map Prod.fst)) (withLines r (done.map Prod.snd))
        rfl (fun hpost ↦ getHeader_withLines r h.spelling (hused.length hpost)) hclose body
      have hblank (r' : HttpRequest) :
          parse ⟨.kHeaderLines, r'⟩ (linesText [] ++ crlf ++ body)
            = parse ⟨.kEntityBody, r'⟩ body :=
        parse_of_again (phaseStep_blank r' body)
      rw [List.map_nil, List.map_nil, hblank, hblank, hbody]
      exact SameOutcome.refl _
  | cons p todo ih =>
      have hp : p ∈ done ++ p :: todo := by simp
      have hdone : ∀ q ∈ done, q ∈ done ++ p :: todo := fun q hq ↦ List.mem_append_left _ hq
      obtain ⟨hline, hline'⟩ := h.line p hp
      obtain ⟨hne, hne'⟩ := h.nonempty p hp
      obtain ⟨-, hheader⟩ := (h.spelling p hp).same
      have hspelling : ∀ q ∈ done, Spellings q := fun q hq ↦ h.spelling q (hdone q hq)
      have hget := getHeader_withLines r hspelling fun q hq ↦ hused.equal q (hdone q hq) p hp
      have hclose := isCloseConnection_congr
        (getHeader_withLines r hspelling fun q hq ↦ hused.connection q (hdone q hq))
      rw [List.map_cons, List.map_cons, linesText_cons_append, linesText_cons_append]
      by_cases haccepted : IsHeaderLine p.1 ∧
          (withLines r (done.map Prod.fst)).getHeader (headerName p.1) = none
      · -- The line is stored, under the name it is written with.
        obtain ⟨hisHeader, hnew⟩ := haccepted
        rw [parse_of_again (phaseStep_header hline hne hisHeader hnew _),
          parse_of_again (phaseStep_header hline' hne' (hheader.mp hisHeader) (hget ▸ hnew) _),
          withHeaders_withLines, withHeaders_withLines]
        have hsame := ih (done ++ [p]) (by rwa [List.append_assoc]) (by rwa [List.append_assoc])
        rwa [List.map_append, List.map_append] at hsame
      · -- It is refused, and stays unread with all that follow it.
        have hrefused := addHeaderFrom_eq_none_iff.mpr haccepted
        rw [hheader, hget] at haccepted
        have hrefused' := addHeaderFrom_eq_none_iff.mpr haccepted
        rw [parse_of_refused hline hne hrefused, parse_of_refused hline' hne' hrefused',
          ← linesText_cons_append, ← linesText_cons_append]
        refine .inr ⟨some false, .kHeaderLines, (withLines r (done.map Prod.fst)).isCloseConnection,
          p :: todo, crlf ++ body, fun q hq ↦ h.spelling q (List.mem_append_right _ hq), ?_, ?_⟩
        · rw [List.map_cons, ← List.append_assoc]
          rfl
        · rw [List.map_cons, ← List.append_assoc, hclose]
          rfl

end HttpContext

open HttpContext in
/-- **The spelling of a header name matters to nothing else.**  Two requests in which the
lines have the same names, and the names that are looked up, at the same places, have the
same outcome. -/
theorem outcome_of_spelling (line body : Bytes) (lines : List (Bytes × Bytes))
    (hline : ¬ crlf <:+: line) (h : AreSpellings lines)
    (hused : ∀ r, RequestLine.fromLine line = .ok (some r) → UsedAlike r lines) :
    SameOutcome (outcome (requestText line (lines.map Prod.fst) body))
      (outcome (requestText line (lines.map Prod.snd) body)) := by
  have hcut (headers : List Bytes) : cutLine (requestText line headers body)
      = some (line, linesText headers ++ crlf ++ body) :=
    cutLine_eq_some_iff.mpr ⟨by simp [requestText], hline⟩
  rw [outcome_eq, outcome_eq]
  cases hfrom : RequestLine.fromLine line with
  | error e =>
      rw [parse_of_line_error rfl (hcut _) hfrom, parse_of_line_error rfl (hcut _) hfrom]
      exact .inl ⟨e, rfl, rfl⟩
  | ok parsed =>
      cases parsed with
      | none =>
          -- Nothing is read of a request whose first line is refused.
          rw [parse_of_rejected rfl (hcut _) hfrom, parse_of_rejected rfl (hcut _) hfrom]
          have hspelling : ∀ p ∈ (line, line) :: lines, Spellings p :=
            List.forall_mem_cons.mpr ⟨.inl rfl, h.spelling⟩
          refine .inr ⟨some false, .kRequestLine, ({} : HttpRequest).isCloseConnection,
            (line, line) :: lines, crlf ++ body, hspelling, ?_, ?_⟩ <;>
          · rw [List.map_cons, ← List.append_assoc, linesText_cons_append, requestText]
            simp only [List.append_assoc]
            rfl
      | some r =>
          have hrest (headers : List Bytes) : linesText headers ++ crlf ++ body ≠ [] := by
            simp [crlf]
          rw [parse_of_accepted rfl (hcut _) hfrom (hrest _),
            parse_of_accepted rfl (hcut _) hfrom (hrest _)]
          exact sameOutcome_lines r [] lines h (hused r hfrom) body

theorem outcome_of_spelling_accept :
    SameOutcome
      (outcome (requestText (bytes "POST / HTTP/1.1")
        [bytes "ACCEPT: */*", bytes "Content-length: 2"] (bytes "hi")))
      (outcome (requestText (bytes "POST / HTTP/1.1")
        [bytes "Accept: */*", bytes "Content-length: 2"] (bytes "hi"))) :=
  outcome_of_spelling (bytes "POST / HTTP/1.1") (bytes "hi")
    [(bytes "ACCEPT: */*", bytes "Accept: */*"),
      (bytes "Content-length: 2", bytes "Content-length: 2")]
    (by decide +kernel) (by decide +kernel)
    fun _ _ ↦ ⟨by decide +kernel, by decide +kernel, fun _ ↦ by decide +kernel⟩

/-- The two spellings of the lines make a difference. -/
def CaseMatters (line body : Bytes) (lines : List (Bytes × Bytes)) : Prop :=
  ¬ crlf <:+: line ∧ AreSpellings lines ∧
    ¬ SameOutcome (outcome (requestText line (lines.map Prod.fst) body))
      (outcome (requestText line (lines.map Prod.snd) body))

/-- Header names are not case-insensitive: not for the length of a body, not for the
connection, not for a second header of the same name. -/
theorem not_caseInsensitive :
    CaseMatters (bytes "POST / HTTP/1.1") (bytes "hi")
      [(bytes "Content-length: 2", bytes "Content-Length: 2")] ∧
    CaseMatters (bytes "GET / HTTP/1.1") []
      [(bytes "Connection: keep-alive", bytes "connection: keep-alive")] ∧
    CaseMatters (bytes "GET / HTTP/1.1") []
      [(bytes "A: 1", bytes "A: 1"), (bytes "A: 2", bytes "a: 2")] := by
  refine ⟨⟨by decide +kernel, by decide +kernel, fun h ↦ absurd h.map_eq ?_⟩,
    ⟨by decide +kernel, by decide +kernel, fun h ↦ absurd h.map_eq ?_⟩,
    ⟨by decide +kernel, by decide +kernel, fun h ↦ absurd h.map_eq ?_⟩⟩
  · decide +kernel
  · decide +kernel
  · decide +kernel

end Wuduo.Http
