import Wuduo.Http.Parsing

/-!
# The grammar of request heads

A head is a request line, header lines and an empty line, each with its line end.
`IsHead` describes the heads of GET and HEAD requests in these terms, and
`completes_iff` says that they are what `parse_request` accepts and consumes.

The header lines are dealt with one at a time: `parse_headers` by induction on
their list, `exists_headers` by induction on the calls of the parser.
-/

namespace Wuduo.Http

open Search

/-! ## Header lines -/

/-- There is a colon, and something other than spaces behind it. -/
def IsHeaderLine (line : Bytes) : Prop :=
  ∃ name value, line = name ++ 58 :: value ∧ ∃ b ∈ value, b ≠ 32

/-- The text before the first colon. -/
def headerName (line : Bytes) : Bytes := line.takeWhile (· ≠ 58)

/-- The text behind the first colon, without leading spaces. -/
def headerValue (line : Bytes) : Bytes :=
  ((line.dropWhile (· ≠ 58)).drop 1).dropWhile (· = 32)

/-- A line with a colon is cut at the first one. -/
theorem takeWhile_colon {name : Bytes} (h : 58 ∉ name) (value : Bytes) :
    (name ++ 58 :: value).takeWhile (· ≠ 58) = name ∧
      (name ++ 58 :: value).dropWhile (· ≠ 58) = 58 :: value := by
  have hall : ∀ b ∈ name, decide (b ≠ 58) = true := fun b hb ↦
    decide_eq_true fun heq ↦ h (heq ▸ hb)
  constructor
  · rw [List.takeWhile_append_of_pos hall, List.takeWhile_cons_of_neg (by decide), List.append_nil]
  · rw [List.dropWhile_append_of_pos hall, List.dropWhile_cons_of_neg (by decide)]

/-- What is behind any colon is behind the first one. -/
theorem isHeaderLine_iff {name value : Bytes} (h : 58 ∉ name) :
    IsHeaderLine (name ++ 58 :: value) ↔ ∃ b ∈ value, b ≠ 32 := by
  constructor
  · rintro ⟨name', value', heq, b, hb, hne⟩
    refine ⟨b, ?_, hne⟩
    rcases List.append_eq_append_iff.mp heq with ⟨mid, rfl, hmid⟩ | ⟨mid, rfl, hmid⟩
    · cases mid with
      | nil => exact (List.cons_eq_cons.mp hmid).2 ▸ hb
      | cons x xs =>
          rw [(List.cons_eq_cons.mp hmid).2]
          exact List.mem_append_right _ (List.mem_cons_of_mem _ hb)
    · cases mid with
      | nil => exact (List.cons_eq_cons.mp hmid).2.symm ▸ hb
      | cons x xs =>
          refine absurd ?_ h
          rw [← (List.cons_eq_cons.mp hmid).1]
          simp
  · rintro ⟨b, hb, hne⟩
    exact ⟨name, value, rfl, b, hb, hne⟩

/-- `add_header_from` on a line that is cut at its first colon. -/
theorem headerFrom_of_colon {name text : Bytes} (h : 58 ∉ name) :
    HttpRequest.headerFrom (name ++ 58 :: text) =
      if ∃ b ∈ text, b ≠ 32 then some (name, text.dropWhile (· = 32)) else none := by
  have hfind : find (bytes ":") (name ++ 58 :: text) = some name.length :=
    find_singleton_iff.mpr ⟨name, text, rfl, h, rfl⟩
  have hbehind : (name ++ 58 :: text).drop (name.length + 1) = text := by
    rw [← List.drop_drop, List.drop_left]
    rfl
  simp only [HttpRequest.headerFrom, hfind, bind, Option.bind_some, pure, List.take_left]
  cases hvalue : findFirstNotOf 32 (name ++ 58 :: text) (name.length + 1) with
  | none =>
      rw [findFirstNotOf_eq_none_iff, hbehind] at hvalue
      have hblank : ¬ ∃ b ∈ text, b ≠ 32 := by
        rintro ⟨b, hb, hne⟩
        exact hne (hvalue b hb)
      rw [if_neg hblank]
      rfl
  | some posValue =>
      rw [if_pos, ← hbehind, ← drop_findFirstNotOf hvalue]
      · rw [hbehind]
        rfl
      · by_contra hall
        have hnone := (findFirstNotOf_eq_none_iff (a := 32) (l := name ++ 58 :: text)).mpr
          (hbehind.symm ▸ fun b hb ↦ by_contra fun hne ↦ hall ⟨b, hb, hne⟩)
        rw [hnone] at hvalue
        cases hvalue

/-- `add_header_from` finds the name and the value of a header line. -/
theorem headerFrom_eq_some_iff {line key value : Bytes} :
    HttpRequest.headerFrom line = some (key, value) ↔
      IsHeaderLine line ∧ key = headerName line ∧ value = headerValue line := by
  by_cases hcolon : 58 ∈ line
  · obtain ⟨name, text, rfl, hname⟩ := List.eq_append_cons_of_mem hcolon
    obtain ⟨htake, hdrop⟩ := takeWhile_colon hname text
    rw [headerFrom_of_colon hname, isHeaderLine_iff hname, headerName, headerValue, htake, hdrop,
      Option.ite_none_right_eq_some, Option.some.injEq, Prod.mk.injEq, List.drop_one,
      List.tail_cons]
    simp only [eq_comm]
  · refine iff_of_false ?_ fun ⟨⟨name, value, heq, _⟩, _⟩ ↦ hcolon (by simp [heq])
    intro h
    obtain ⟨posColon, hfind, -⟩ := Option.bind_eq_some_iff.mp h
    obtain ⟨name, text, rfl, -⟩ := find_singleton_iff.mp hfind
    exact hcolon (List.mem_append_right _ List.mem_cons_self)

/-! ## Lists of header lines -/

/-- What a header line adds to the map. -/
def headerEntry (line : Bytes) : Bytes × Bytes := (headerName line, headerValue line)

/-- The lines, each with its line end. -/
def linesText (lines : List Bytes) : Bytes := lines.flatMap (· ++ crlf)

/-- Lines that can be added to a request one after the other. -/
structure AreHeaders (r : HttpRequest) (headers : List Bytes) : Prop where
  line : ∀ h ∈ headers, ¬ crlf <:+: h
  nonempty : ∀ h ∈ headers, h ≠ []
  header : ∀ h ∈ headers, IsHeaderLine h
  distinct : (headers.map headerName).Nodup
  new : ∀ h ∈ headers, r.getHeader (headerName h) = none

/-- The request once the lines are added. -/
def withHeaders (r : HttpRequest) (headers : List Bytes) : HttpRequest :=
  { r with headers := r.headers ++ headers.map headerEntry }

theorem addHeaderFrom_of_isHeaderLine {r : HttpRequest} {h : Bytes} (hline : IsHeaderLine h)
    (hnew : r.getHeader (headerName h) = none) : r.addHeaderFrom h = some (withHeaders r [h]) :=
  HttpRequest.addHeaderFrom_eq_some_iff.mpr
    ⟨_, _, headerFrom_eq_some_iff.mpr ⟨hline, rfl, rfl⟩, hnew, rfl⟩

theorem getHeader_withHeaders_singleton (r : HttpRequest) (h key : Bytes) :
    (withHeaders r [h]).getHeader key = none ↔ r.getHeader key = none ∧ key ≠ headerName h := by
  simp [withHeaders, HttpRequest.getHeader, headerEntry, List.lookup_append]

theorem areHeaders_cons {r : HttpRequest} {h : Bytes} {headers : List Bytes} :
    AreHeaders r (h :: headers) ↔
      ¬ crlf <:+: h ∧ h ≠ [] ∧ IsHeaderLine h ∧ r.getHeader (headerName h) = none ∧
        AreHeaders (withHeaders r [h]) headers := by
  constructor
  · intro hs
    obtain ⟨hline, hlines⟩ := List.forall_mem_cons.mp hs.line
    obtain ⟨hne, hnes⟩ := List.forall_mem_cons.mp hs.nonempty
    obtain ⟨hheader, hheaders⟩ := List.forall_mem_cons.mp hs.header
    obtain ⟨hnew, hnews⟩ := List.forall_mem_cons.mp hs.new
    obtain ⟨hnot, hdistinct⟩ := List.nodup_cons.mp hs.distinct
    refine ⟨hline, hne, hheader, hnew, hlines, hnes, hheaders, hdistinct, ?_⟩
    intro h' hh'
    refine (getHeader_withHeaders_singleton r h _).mpr ⟨hnews h' hh', fun heq ↦ hnot ?_⟩
    exact heq ▸ List.mem_map_of_mem hh'
  · rintro ⟨hline, hne, hheader, hnew, hs⟩
    have hnews := fun h' hh' ↦ (getHeader_withHeaders_singleton r h _).mp (hs.new h' hh')
    refine ⟨List.forall_mem_cons.mpr ⟨hline, hs.line⟩, List.forall_mem_cons.mpr ⟨hne, hs.nonempty⟩,
      List.forall_mem_cons.mpr ⟨hheader, hs.header⟩,
      List.nodup_cons.mpr ⟨fun hmem ↦ ?_, hs.distinct⟩,
      List.forall_mem_cons.mpr ⟨hnew, fun h' hh' ↦ (hnews h' hh').1⟩⟩
    obtain ⟨h', hh', heq⟩ := List.mem_map.mp hmem
    exact (hnews h' hh').2 heq

/-- Adding a line and then others is adding all of them. -/
theorem withHeaders_cons (r : HttpRequest) (h : Bytes) (headers : List Bytes) :
    withHeaders (withHeaders r [h]) headers = withHeaders r (h :: headers) := by
  simp [withHeaders]

namespace HttpContext

/-! ## Parsing header lines -/

theorem phaseStep_header {r : HttpRequest} {h : Bytes} (hline : ¬ crlf <:+: h) (hne : h ≠ [])
    (hheader : IsHeaderLine h) (hnew : r.getHeader (headerName h) = none) (rest : Bytes) :
    phaseStep ⟨.kHeaderLines, r⟩ (h ++ crlf ++ rest) =
      .ok (.again ⟨.kHeaderLines, withHeaders r [h]⟩ rest) := by
  simp only [phaseStep, cutLine_eq_some_iff.mpr ⟨rfl, hline⟩, if_neg hne,
    addHeaderFrom_of_isHeaderLine hheader hnew]

theorem phaseStep_blank (r : HttpRequest) (rest : Bytes) :
    phaseStep ⟨.kHeaderLines, r⟩ (crlf ++ rest) = .ok (.again ⟨.kEntityBody, r⟩ rest) := by
  have hcut : cutLine (crlf ++ rest) = some ([], rest) :=
    cutLine_eq_some_iff.mpr ⟨rfl, by decide⟩
  simp only [phaseStep, hcut, if_true]

theorem linesText_cons_append (h : Bytes) (headers : List Bytes) (rest : Bytes) :
    linesText (h :: headers) ++ crlf ++ rest
      = h ++ crlf ++ (linesText headers ++ crlf ++ rest) := by
  simp [linesText]

/-- Header lines and an empty line lead to the body. -/
theorem parse_linesText {r : HttpRequest} {headers : List Bytes} (hs : AreHeaders r headers)
    (rest : Bytes) :
    parse ⟨.kHeaderLines, r⟩ (linesText headers ++ crlf ++ rest) =
      parse ⟨.kEntityBody, withHeaders r headers⟩ rest := by
  induction headers generalizing r with
  | nil =>
      rw [linesText, List.flatMap_nil, List.nil_append, parse_of_again (phaseStep_blank r rest)]
      simp [withHeaders]
  | cons h headers ih =>
      obtain ⟨hline, hne, hheader, hnew, hs⟩ := areHeaders_cons.mp hs
      rw [linesText_cons_append, parse_of_again (phaseStep_header hline hne hheader hnew _), ih hs,
        withHeaders_cons]

/-- Header lines and an empty line complete a request that has no body. -/
theorem parse_headers {r : HttpRequest} {headers : List Bytes} (hs : AreHeaders r headers)
    (hpost : r.method ≠ .kPost) (rest : Bytes) :
    parse ⟨.kHeaderLines, r⟩ (linesText headers ++ crlf ++ rest) =
      .ok (true, ⟨.kCompleted, withHeaders r headers⟩, rest) := by
  rw [parse_linesText hs, parse_of_entityBody rfl hpost]

/-- Among the header lines the parser goes on behind an empty line, or behind a
header line it has added. -/
theorem phaseStep_headers_again {r : HttpRequest} {c : HttpContext} {s s' : Bytes}
    (h : phaseStep ⟨.kHeaderLines, r⟩ s = .ok (.again c s')) :
    s = crlf ++ s' ∧ c = ⟨.kEntityBody, r⟩ ∨
      ∃ h, s = h ++ crlf ++ s' ∧ ¬ crlf <:+: h ∧ h ≠ [] ∧ IsHeaderLine h ∧
        r.getHeader (headerName h) = none ∧ c = ⟨.kHeaderLines, withHeaders r [h]⟩ := by
  simp only [phaseStep] at h
  split at h
  · cases h
  · rename_i line rest hcut
    obtain ⟨rfl, hline⟩ := cutLine_eq_some_iff.mp hcut
    split at h
    · rename_i hempty
      cases h
      exact .inl ⟨by rw [hempty]; rfl, rfl⟩
    · rename_i hne
      split at h
      · cases h
      · rename_i hadd
        cases h
        obtain ⟨key, value, hfrom, hnew, rfl⟩ := HttpRequest.addHeaderFrom_eq_some_iff.mp hadd
        obtain ⟨hheader, rfl, rfl⟩ := headerFrom_eq_some_iff.mp hfrom
        exact .inr ⟨line, rfl, hline, hne, hheader, hnew, rfl⟩

/-- A request without a body is completed by header lines and an empty line only. -/
theorem exists_headers {r : HttpRequest} {c : HttpContext} {s rest : Bytes} {result : Bool}
    (hpost : r.method ≠ .kPost) (h : parse ⟨.kHeaderLines, r⟩ s = .ok (result, c, rest))
    (hc : c.phase = .kCompleted) :
    ∃ headers, AreHeaders r headers ∧ s = linesText headers ++ crlf ++ rest := by
  induction hlen : s.length using Nat.strong_induction_on generalizing r s with
  | _ n ih =>
      subst hlen
      rcases hstep : phaseStep ⟨.kHeaderLines, r⟩ s with e | next
      · rw [parse_of_error hstep] at h
        cases h
      cases next with
      | «return» result' c' s' =>
          rw [parse_of_return hstep] at h
          cases h
          rcases phaseStep_return hstep with ⟨rfl, -⟩ | ⟨hphase, -⟩
          · cases hc
          · cases hphase
      | again c' s' =>
          rw [parse_of_again hstep] at h
          rcases phaseStep_headers_again hstep with
            ⟨rfl, rfl⟩ | ⟨line, rfl, hline, hne, hheader, hnew, rfl⟩
          · rw [parse_of_entityBody rfl hpost] at h
            cases h
            exact ⟨[], ⟨by simp, by simp, by simp, by simp, by simp⟩, rfl⟩
          · obtain ⟨headers, hs, rfl⟩ :=
              ih _ (length_lt_of_phaseStep hstep) (r := withHeaders r [line]) hpost h rfl
            exact ⟨line :: headers, areHeaders_cons.mpr ⟨hline, hne, hheader, hnew, hs⟩,
              by simp [linesText]⟩

end HttpContext

/-! ## Heads -/

/-- The text of a head, and what follows it. -/
structure IsHead (s line : Bytes) (headers : List Bytes) (rest : Bytes) : Prop where
  text : s = line ++ crlf ++ linesText headers ++ crlf ++ rest
  /-- no line contains a line end, -/
  free : ∀ l ∈ line :: headers, ¬ crlf <:+: l
  /-- the header lines are not empty, -/
  nonempty : ∀ h ∈ headers, h ≠ []
  /-- the request line names GET or HEAD, -/
  requestLine : ∃ r, RequestLine.fromLine line = .ok (some r) ∧
    (r.method = .kGet ∨ r.method = .kHead)
  /-- the header lines have a colon and a value, -/
  header : ∀ h ∈ headers, IsHeaderLine h
  /-- and their names are different. -/
  distinct : (headers.map headerName).Nodup

theorem areHeaders_iff (r : RequestLine) (headers : List Bytes) :
    AreHeaders ⟨r, []⟩ headers ↔ (∀ h ∈ headers, ¬ crlf <:+: h) ∧ (∀ h ∈ headers, h ≠ []) ∧
      (∀ h ∈ headers, IsHeaderLine h) ∧ (headers.map headerName).Nodup :=
  ⟨fun hs ↦ ⟨hs.line, hs.nonempty, hs.header, hs.distinct⟩,
    fun ⟨hline, hne, hheader, hdistinct⟩ ↦ ⟨hline, hne, hheader, hdistinct, fun _ _ ↦ rfl⟩⟩

/-- The entries of different header lines are found under their names. -/
theorem lookup_headerEntry {headers : List Bytes} (hdistinct : (headers.map headerName).Nodup)
    {h : Bytes} (hh : h ∈ headers) :
    (headers.map headerEntry).lookup (headerName h) = some (headerValue h) := by
  induction headers with
  | nil => cases hh
  | cons h' headers ih =>
      obtain ⟨hnot, hdistinct⟩ := List.nodup_cons.mp hdistinct
      rw [List.map_cons, headerEntry]
      rcases List.mem_cons.mp hh with rfl | hh
      · exact List.lookup_cons_self
      · have hne : (headerName h == headerName h') = false :=
          beq_false_of_ne fun heq ↦ hnot (heq ▸ List.mem_map_of_mem hh)
        rw [List.lookup_cons, hne]
        exact ih hdistinct hh

theorem lookup_headerEntry_eq_none {headers : List Bytes} {name : Bytes}
    (h : name ∉ headers.map headerName) : (headers.map headerEntry).lookup name = none := by
  rw [List.lookup_eq_none_iff]
  rintro _ hmem
  obtain ⟨h', hh', rfl⟩ := List.mem_map.mp hmem
  rw [bne_iff_ne]
  exact fun heq ↦ h (heq ▸ List.mem_map_of_mem hh')

namespace HttpContext

/-- A head is parsed as what it says. -/
theorem parse_head {s line rest : Bytes} {headers : List Bytes} (h : IsHead s line headers rest) :
    ∃ r, RequestLine.fromLine line = .ok (some r) ∧ (r.method = .kGet ∨ r.method = .kHead) ∧
      parse {} s = .ok (true, ⟨.kCompleted, ⟨r, headers.map headerEntry⟩⟩, rest) := by
  obtain ⟨r, hline, hmethod⟩ := h.requestLine
  obtain ⟨hfree, hfrees⟩ := List.forall_mem_cons.mp h.free
  have hcut : cutLine s = some (line, linesText headers ++ crlf ++ rest) :=
    cutLine_eq_some_iff.mpr ⟨by simp [h.text], hfree⟩
  have hpost : r.method ≠ .kPost := by
    rcases hmethod with hm | hm <;> simp [hm]
  refine ⟨r, hline, hmethod, ?_⟩
  rw [parse_of_accepted rfl hcut hline (by simp [crlf]), parse_headers
    ((areHeaders_iff r headers).mpr ⟨hfrees, h.nonempty, h.header, h.distinct⟩) hpost]
  rfl

/-- Whatever is parsed as a complete GET or HEAD request is a head. -/
theorem exists_head {s rest : Bytes} {result : Bool} {c : HttpContext}
    (h : parse {} s = .ok (result, c, rest)) (hc : c.phase = .kCompleted)
    (hmethod : c.request.method = .kGet ∨ c.request.method = .kHead) :
    ∃ line headers, IsHead s line headers rest := by
  cases hcut : cutLine s with
  | none =>
      rw [parse_of_no_line rfl hcut] at h
      cases h
      cases hc
  | some cut =>
      obtain ⟨line, behind⟩ := cut
      rcases hline : RequestLine.fromLine line with e | _ | r
      · rw [parse_of_error (e := e)] at h
        · cases h
        · simp only [phaseStep, hcut, HttpRequest.setRequestLineFrom, hline, error_bind]
      · rw [parse_of_rejected rfl hcut hline] at h
        cases h
        cases hc
      · by_cases hbehind : behind = []
        · subst hbehind
          rw [parse_of_nothing_behind rfl hcut hline] at h
          cases h
        rw [parse_of_accepted rfl hcut hline hbehind] at h
        obtain ⟨_, _, _, hok, hreq⟩ := parse_ok (c := ⟨.kHeaderLines, ⟨r, []⟩⟩) (by simp) behind
        have hr : c.request.requestLine = r := by
          rw [h] at hok
          cases hok
          exact hreq
        rw [HttpRequest.method, hr] at hmethod
        have hpost : r.method ≠ .kPost := by
          rcases hmethod with hm | hm <;> simp [hm]
        obtain ⟨headers, hs, rfl⟩ := exists_headers (r := ⟨r, []⟩) hpost h hc
        obtain ⟨hfrees, hne, hheader, hdistinct⟩ := (areHeaders_iff r headers).mp hs
        obtain ⟨rfl, hfree⟩ := cutLine_eq_some_iff.mp hcut
        exact ⟨line, headers, by simp, List.forall_mem_cons.mpr ⟨hfree, hfrees⟩, hne,
          ⟨r, hline, hmethod⟩, hheader, hdistinct⟩

/-- **The head parser accepts exactly its grammar.**  On a fresh context one call
of `parse_request` completes a GET or HEAD request, leaving `rest` unread, if and
only if the readable bytes are a head followed by `rest`; and then the request
says what the head says. -/
theorem completes_iff (buf : Buffer) (rest : Bytes) :
    ((∃ result c buf', parseRequest {} buf = .ok (result, c, buf') ∧ c.phase = .kCompleted ∧
        (c.request.method = .kGet ∨ c.request.method = .kHead) ∧ buf'.peek = rest) ↔
      ∃ line headers, IsHead buf.peek line headers rest) ∧
    ∀ result c buf' line headers, parseRequest {} buf = .ok (result, c, buf') →
      IsHead buf.peek line headers rest →
        RequestLine.fromLine line = .ok (some c.request.requestLine) ∧
        (∀ h ∈ headers, c.request.getHeader (headerName h) = some (headerValue h)) ∧
        ∀ name ∉ headers.map headerName, c.request.getHeader name = none := by
  refine ⟨⟨?_, ?_⟩, ?_⟩
  · rintro ⟨result, c, buf', hok, hc, hmethod, rfl⟩
    have hpeek := parseRequest_peek {} buf
    rw [hok] at hpeek
    exact exists_head hpeek.symm hc hmethod
  · rintro ⟨line, headers, h⟩
    obtain ⟨r, -, hmethod, hparse⟩ := parse_head h
    obtain ⟨buf', hok, hpeek⟩ := parseRequest_of_ok hparse
    exact ⟨_, _, buf', hok, rfl, hmethod, hpeek⟩
  · intro result c buf' line headers hok h
    obtain ⟨r, hline, -, hparse⟩ := parse_head h
    obtain ⟨buf'', hok', -⟩ := parseRequest_of_ok hparse
    rw [hok] at hok'
    cases hok'
    exact ⟨hline, fun h' hh' ↦ lookup_headerEntry h.distinct hh',
      fun name hname ↦ lookup_headerEntry_eq_none hname⟩

end HttpContext

end Wuduo.Http
