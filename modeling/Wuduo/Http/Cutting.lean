import Wuduo.Http.Parsing

/-!
# Requests that arrive in pieces

The bytes of a request arrive in whatever pieces the network makes of them.  Each
piece is appended to the buffer and `parse_request` is called; the outcome should
not depend on where the cuts are.

It does not, but for one place.  Behind the request line `parse_request` asserts
that more than its line end is there, and a piece that ends with the line end
brings the process down.  `cutIndependent_iff` says that this is the only way in
which the cuts matter, for requests other than POST, which are read to the end of
the buffer.
-/

namespace Wuduo.Http.HttpContext

/-- Appends the pieces to the buffer one at a time, calling `parse_request` after
each; `last` is what it returned last. -/
def feed (c : HttpContext) (buf : Buffer) (last : Option Bool) :
    List Bytes → Except NoReturn (Option Bool × HttpContext × Buffer)
  | [] => return (last, c, buf)
  | piece :: pieces => do
      let buf ← buf.append piece
      let (result, c, buf) ← c.parseRequest buf
      feed c buf (some result) pieces

/-- The last piece is appended and parsed where the others have led. -/
theorem feed_concat {c c₁ : HttpContext} {buf buf₁ : Buffer} {last last₁ : Option Bool}
    {pieces : List Bytes} (h : feed c buf last pieces = .ok (last₁, c₁, buf₁)) (piece : Bytes) :
    feed c buf last (pieces ++ [piece]) = feed c₁ buf₁ last₁ [piece] := by
  induction pieces generalizing c buf last with
  | nil =>
      cases h
      rfl
  | cons p pieces ih =>
      obtain ⟨buf₂, happend, -⟩ := buf.append_spec p
      rw [List.cons_append, feed, happend]
      rw [feed, happend] at h
      simp only [ok_bind] at h ⊢
      cases hparse : c.parseRequest buf₂ with
      | error e => rw [hparse] at h; cases h
      | ok out =>
          rw [hparse] at h
          exact ih h

/-- The pieces are delivered to a fresh context and an empty buffer. -/
def deliver (pieces : List Bytes) : Except NoReturn (Option Bool × HttpContext × Buffer) :=
  feed {} (Buffer.ofSize kInitialSize) none pieces

/-- What was returned last, phase and request, and the bytes left unread. -/
def observe (out : Option Bool × HttpContext × Buffer) : Option Bool × HttpContext × Bytes :=
  (out.1, out.2.1, out.2.2.peek)

/-- The pieces are parsed without a failed assertion, to the same outcome as any
other pieces of the same bytes that are. -/
def CutIndependent (pieces : List Bytes) : Prop :=
  ∃ out, deliver pieces = .ok out ∧
    ∀ pieces' out', pieces'.flatten = pieces.flatten → (∀ piece ∈ pieces', piece ≠ []) →
      deliver pieces' = .ok out' → observe out' = observe out

/-- The text is a request line that is accepted, its line end, and nothing more. -/
def IsRequestLine (s : Bytes) : Prop :=
  ∃ line r, cutLine s = some (line, []) ∧ RequestLine.fromLine line = .ok (some r)

instance (s : Bytes) : Decidable (IsRequestLine s) :=
  decidable_of_iff ((cutLine s).any fun cut ↦
      cut.2 = [] && (RequestLine.fromLine cut.1).toOption.any Option.isSome) <| by
    constructor
    · intro h
      obtain ⟨⟨line, rest⟩, hcut, hline⟩ := (Option.any_eq_true _ _).mp h
      obtain ⟨hrest, hfrom⟩ := Bool.and_eq_true_iff.mp hline
      cases of_decide_eq_true hrest
      rcases hr : RequestLine.fromLine line with e | _ | r
      · rw [hr] at hfrom; cases hfrom
      · rw [hr] at hfrom; cases hfrom
      · exact ⟨line, r, hcut, hr⟩
    · rintro ⟨line, r, hcut, hr⟩
      rw [hcut, Option.any_some, hr]
      rfl

/-- `RequestLine::from` returns for the request line, if there is one, and does
not find a POST. -/
def ReturnsNoPost (s : Bytes) : Prop :=
  ∀ line rest, cutLine s = some (line, rest) →
    ∃ r, RequestLine.fromLine line = .ok r ∧ ∀ r' ∈ r, r'.method ≠ .kPost

theorem ReturnsNoPost.of_append {s x : Bytes} (h : ReturnsNoPost (s ++ x)) : ReturnsNoPost s :=
  fun line _ hcut ↦ h line _ (cutLine_append hcut x)

/-- Parsing from the beginning fails only where the request line ends. -/
theorem parse_fresh {s : Bytes} (h : ReturnsNoPost s) :
    IsRequestLine s ∧ parse {} s = .error (.assertion .requestLineReadable) ∨
      ¬ IsRequestLine s ∧ ∃ result c s', parse {} s = .ok (result, c, s') ∧
        c.request.method ≠ .kPost := by
  cases hcut : cutLine s with
  | none =>
      refine .inr ⟨?_, _, _, _, parse_of_no_line rfl hcut, by decide⟩
      rintro ⟨line, r, hcut', -⟩
      rw [hcut] at hcut'
      cases hcut'
  | some cut =>
      obtain ⟨line, rest⟩ := cut
      obtain ⟨r, hline, hpost⟩ := h line rest hcut
      cases r with
      | none =>
          refine .inr ⟨?_, _, _, _, parse_of_rejected rfl hcut hline, by decide⟩
          rintro ⟨line', r', hcut', hline'⟩
          rw [hcut] at hcut'
          cases hcut'
          rw [hline] at hline'
          cases hline'
      | some r =>
          by_cases hrest : rest = []
          · subst hrest
            exact .inl ⟨⟨line, r, hcut, hline⟩, parse_of_nothing_behind rfl hcut hline⟩
          · obtain ⟨result, c, s', hparse, hreq⟩ :=
              parse_ok (c := ⟨.kHeaderLines, ⟨r, []⟩⟩) (by simp) rest
            refine .inr ⟨?_, result, c, s', ?_, ?_⟩
            · rintro ⟨line', r', hcut', -⟩
              rw [hcut] at hcut'
              cases hcut'
              exact hrest rfl
            · exact (parse_of_accepted rfl hcut hline hrest).trans hparse
            · rw [HttpRequest.method, hreq]
              exact hpost r rfl

/-- Feeding the pieces of a text that has been parsed up to some point: either one
of them ends with the request line, or the outcome is that of parsing the whole. -/
theorem feed_cases (pieces : List Bytes) {s : Bytes} {c : HttpContext} {buf : Buffer}
    {result : Bool} (hparse : parse {} s = .ok (result, c, buf.peek))
    (hpost : c.request.method ≠ .kPost) (last : Option Bool)
    (hline : ReturnsNoPost (s ++ pieces.flatten)) :
    (∃ seen rest e, pieces = seen ++ rest ∧ IsRequestLine (s ++ seen.flatten) ∧
        feed c buf last pieces = .error e) ∨
      (∀ seen rest, pieces = seen ++ rest → seen ≠ [] → ¬ IsRequestLine (s ++ seen.flatten)) ∧
        ∃ result' c' buf', feed c buf last pieces =
            .ok (if pieces = [] then last else some result', c', buf') ∧
          parse {} (s ++ pieces.flatten) = .ok (result', c', buf'.peek) := by
  induction pieces generalizing s c buf result last with
  | nil =>
      refine .inr ⟨fun seen rest h hne ↦ absurd (List.append_eq_nil_iff.mp h.symm).1 hne,
        result, c, buf, rfl, ?_⟩
      rw [List.flatten_nil, List.append_nil]
      exact hparse
  | cons piece pieces ih =>
      obtain ⟨buf₁, happend, hpeek₁⟩ := buf.append_spec piece
      have hresume : parse {} (s ++ piece) = c.parse buf₁.peek := by
        rw [hpeek₁, parse_append hparse hpost]
      rw [List.flatten_cons, ← List.append_assoc] at hline
      rcases parse_fresh hline.of_append with ⟨hends, herror⟩ | ⟨hnot, result₁, c₁, s₁, hok, hpost₁⟩
      · refine .inl
          ⟨[piece], pieces, .assertion .requestLineReadable, rfl, by simpa using hends, ?_⟩
        rw [hresume] at herror
        rw [feed, happend]
        simp only [ok_bind, parseRequest_of_error herror, error_bind]
      · have hok' := hok
        rw [hresume] at hok'
        obtain ⟨buf₂, hparse₂, rfl⟩ := parseRequest_of_ok hok'
        have hfeed : feed c buf last (piece :: pieces) = feed c₁ buf₂ (some result₁) pieces := by
          rw [feed, happend]
          simp only [ok_bind, hparse₂]
        rcases ih hok hpost₁ (some result₁) hline with
          ⟨seen, rest, e, rfl, hends, herror⟩ | ⟨hall, result₂, c₂, buf₃, hfeed₂, hparse₃⟩
        · refine .inl ⟨piece :: seen, rest, e, rfl, ?_, hfeed.trans herror⟩
          rw [List.flatten_cons, ← List.append_assoc]
          exact hends
        · refine .inr ⟨fun seen rest hsplit hne ↦ ?_, result₂, c₂, buf₃, ?_, ?_⟩
          · cases seen with
            | nil => exact absurd rfl hne
            | cons piece' seen =>
                obtain ⟨hhead, htail⟩ := List.cons_eq_cons.mp hsplit
                rw [← hhead, List.flatten_cons, ← List.append_assoc]
                cases seen with
                | nil => simpa using hnot
                | cons p ps => exact hall _ rest htail (List.cons_ne_nil _ _)
          · rw [hfeed, hfeed₂]
            cases pieces with
            | nil =>
                rw [List.flatten_nil, List.append_nil, hok] at hparse₃
                have hresult : result₁ = result₂ := (Prod.mk.inj (Except.ok.inj hparse₃)).1
                rw [if_pos rfl, if_neg (List.cons_ne_nil _ _), hresult]
            | cons p ps => rw [if_neg (List.cons_ne_nil _ _), if_neg (List.cons_ne_nil _ _)]
          · rw [List.flatten_cons, ← List.append_assoc]
            exact hparse₃

theorem not_isRequestLine_nil : ¬ IsRequestLine [] := by
  rintro ⟨line, r, hcut, -⟩
  cases hcut

theorem deliver_cases {pieces : List Bytes} (hline : ReturnsNoPost pieces.flatten) :
    (∃ seen rest e, pieces = seen ++ rest ∧ IsRequestLine seen.flatten ∧
        deliver pieces = .error e) ∨
      (∀ seen rest, pieces = seen ++ rest → ¬ IsRequestLine seen.flatten) ∧
        ∃ result c buf, deliver pieces =
            .ok (if pieces = [] then none else some result, c, buf) ∧
          parse {} pieces.flatten = .ok (result, c, buf.peek) := by
  have hstart : parse {} [] = .ok (true, {}, (Buffer.ofSize kInitialSize).peek) := by
    rw [Buffer.peek_ofSize]
    exact parse_of_no_line rfl rfl
  have hcases := feed_cases pieces hstart (by decide) none hline
  simp only [List.nil_append] at hcases
  refine hcases.imp_right fun ⟨hall, hrest⟩ ↦ ⟨?_, hrest⟩
  intro seen rest hsplit
  cases seen with
  | nil => exact not_isRequestLine_nil
  | cons piece seen => exact hall _ rest hsplit (List.cons_ne_nil _ _)

/-- Cuttings of the same bytes have no pieces or some together. -/
theorem eq_nil_iff_of_flatten {pieces pieces' : List Bytes} (h : ∀ piece ∈ pieces, piece ≠ [])
    (h' : ∀ piece ∈ pieces', piece ≠ []) (heq : pieces'.flatten = pieces.flatten) :
    pieces' = [] ↔ pieces = [] := by
  have hnil : ∀ ps : List Bytes, (∀ p ∈ ps, p ≠ []) → (ps.flatten = [] ↔ ps = []) := by
    intro ps hps
    refine ⟨?_, fun hps ↦ by rw [hps]; rfl⟩
    intro hflat
    cases ps with
    | nil => rfl
    | cons p ps => exact absurd (List.flatten_eq_nil_iff.mp hflat p (by simp)) (hps p (by simp))
  rw [← hnil pieces h, ← hnil pieces' h', heq]

/-- **Where the cuts matter.**  Pieces of a text whose request line is no POST, on
which `RequestLine::from` returns, are parsed without a failed assertion and to
the same outcome as any other pieces of that text, if and only if no piece ends
where an accepted request line ends. -/
theorem cutIndependent_iff (pieces : List Bytes) (hpieces : ∀ piece ∈ pieces, piece ≠ [])
    (hline : ReturnsNoPost pieces.flatten) :
    CutIndependent pieces ↔
      ∀ seen, seen <+: pieces → ¬ IsRequestLine seen.flatten := by
  constructor
  · rintro ⟨out, hok, -⟩
    rcases deliver_cases hline with ⟨seen, rest, e, -, -, herror⟩ | ⟨hall, -⟩
    · rw [hok] at herror
      cases herror
    · rintro seen ⟨rest, hsplit⟩
      exact hall seen rest hsplit.symm
  · intro hall
    rcases deliver_cases hline with
      ⟨seen, rest, e, hsplit, hends, -⟩ | ⟨-, result, c, buf, hok, hparse⟩
    · exact absurd hends (hall seen ⟨rest, hsplit.symm⟩)
    refine ⟨_, hok, ?_⟩
    intro pieces' out' hflat hpieces' hok'
    rcases deliver_cases (hflat ▸ hline) with
      ⟨seen, rest, e, -, -, herror⟩ | ⟨-, result', c', buf', hok'', hparse'⟩
    · rw [hok'] at herror
      cases herror
    · rw [hok'] at hok''
      rw [hflat, hparse] at hparse'
      have hnil := eq_nil_iff_of_flatten hpieces hpieces' hflat
      obtain ⟨hresult, hcontext, hpeek⟩ : result = result' ∧ c = c' ∧ buf.peek = buf'.peek := by
        simpa using Except.ok.inj hparse'
      rw [Except.ok.inj hok'', observe, observe, ← hresult, ← hcontext, ← hpeek]
      simp only [hnil]

/-- A request cut between the two bytes of a line end. -/
theorem cutIndependent_iff_run :
    CutIndependent [bytes "GET / HTTP/1.1\r", bytes "\nConnection: close\r\n", bytes "\r\n"] := by
  refine (cutIndependent_iff _ (by decide +kernel) fun line rest hcut ↦ ?_).mpr fun seen hseen ↦ ?_
  · have hline : cutLine (bytes "GET / HTTP/1.1\r\nConnection: close\r\n\r\n")
        = some (bytes "GET / HTTP/1.1", bytes "Connection: close\r\n\r\n") := by decide +kernel
    cases hline.symm.trans hcut
    exact ⟨some ⟨.kGet, bytes "/", bytes "index.html", [], .kHttp11⟩, by decide +kernel, by simp⟩
  · revert seen
    simp only [← List.mem_inits]
    decide +kernel

/-- A request cut behind its request line: the assertion that something follows
fails, although the line is complete and the rest is on its way. -/
theorem not_cutIndependent :
    ¬ CutIndependent [bytes "GET / HTTP/1.1\r\n", bytes "\r\n"] := by
  rintro ⟨out, hok, -⟩
  have hfails : (deliver [bytes "GET / HTTP/1.1\r\n", bytes "\r\n"]).toOption = none := by
    decide +kernel
  rw [hok] at hfails
  cases hfails

end Wuduo.Http.HttpContext
