import Wuduo.Http.HttpContext

/-!
# Parsing as a function of the bytes

What `parse_request` does depends on the readable bytes of the buffer alone, and
does not depend on how they lie in it.  `parse` is that function: it cuts off one
line after the other, with no index left to be out of range but the one of the
request line, which has to be followed by something.  `parseRequest_peek` says
that the code computes it.

## Results

* `parse_append`: parsing can be interrupted, if the request is not a POST.
* `parse_ok`: behind the request line nothing can go wrong.
-/

namespace Wuduo.Http.HttpContext

open Search

/-- The first line and what follows its line end. -/
def cutLine (s : Bytes) : Option (Bytes × Bytes) :=
  (find crlf s).map fun n ↦ (s.take n, s.drop (n + 2))

/-- A line is cut off exactly where the first line end is. -/
theorem cutLine_eq_some_iff {s line rest : Bytes} :
    cutLine s = some (line, rest) ↔ s = line ++ crlf ++ rest ∧ ¬ crlf <:+: line := by
  rw [cutLine, Option.map_eq_some_iff]
  constructor
  · rintro ⟨n, hn, heq⟩
    obtain ⟨line', rest', rfl, hline, rfl⟩ := (find_pair_iff (by decide)).mp hn
    rw [List.take_left, ← List.drop_drop, List.drop_left] at heq
    cases heq
    exact ⟨by simp [crlf], hline⟩
  · rintro ⟨rfl, hline⟩
    have hs : line ++ crlf ++ rest = line ++ 13 :: 10 :: rest := by simp [crlf]
    refine ⟨line.length, (find_pair_iff (by decide)).mpr ⟨line, rest, hs, hline, rfl⟩, ?_⟩
    rw [hs, List.take_left, ← List.drop_drop, List.drop_left]
    rfl

theorem cutLine_append {s line rest : Bytes} (h : cutLine s = some (line, rest)) (x : Bytes) :
    cutLine (s ++ x) = some (line, rest ++ x) := by
  obtain ⟨rfl, hline⟩ := cutLine_eq_some_iff.mp h
  exact cutLine_eq_some_iff.mpr ⟨by rw [List.append_assoc], hline⟩

theorem length_lt_of_cutLine {s line rest : Bytes} (h : cutLine s = some (line, rest)) :
    rest.length < s.length := by
  obtain ⟨rfl, -⟩ := cutLine_eq_some_iff.mp h
  simp only [List.length_append, crlf, List.length_cons]
  omega

/-! ## One phase -/

/-- The body of `parse_request`, as a function of the readable bytes. -/
def phaseStep (c : HttpContext) (s : Bytes) : Except NoReturn (Next Bytes) :=
  match c.phase with
  | .kRequestLine =>
      match cutLine s with
      | none => .ok (.return true c s)
      | some (line, rest) =>
          match c.request.setRequestLineFrom line with
          | .error e => .error e
          | .ok none => .ok (.return false c s)
          | .ok (some request) =>
              if rest = [] then .error (.assertion .requestLineReadable)
              else .ok (.again { phase := .kHeaderLines, request } rest)
  | .kHeaderLines =>
      match cutLine s with
      | none => .ok (.return true c s)
      | some (line, rest) =>
          if line = [] then .ok (.again { c with phase := .kEntityBody } rest)
          else
            match c.request.addHeaderFrom line with
            | none => .ok (.return false c s)
            | some request => .ok (.again { c with request } rest)
  | .kEntityBody =>
      if c.request.method ≠ .kPost then .ok (.return true { c with phase := .kCompleted } s)
      else
        match c.request.getHeader (bytes "Content-length") with
        | none => .ok (.return false c s)
        | some contentsLength =>
            let contentsLengthValue := (stoll contentsLength).getD (-1)
            if contentsLengthValue < 0 then .ok (.return false c s)
            else if s.length < contentsLengthValue.toNat then .ok (.return true c s)
            else .ok (.return true { c with phase := .kCompleted } [])
  | .kCompleted => .ok (.return true c s)

theorem length_lt_of_phaseStep {c c' : HttpContext} {s s' : Bytes}
    (h : c.phaseStep s = .ok (.again c' s')) : s'.length < s.length := by
  rw [phaseStep] at h
  split at h
  · split at h
    · cases h
    · rename_i hcut
      split at h
      · cases h
      · cases h
      · split at h
        · cases h
        · cases h
          exact length_lt_of_cutLine hcut
  · split at h
    · cases h
    · rename_i hcut
      split at h
      · cases h
        exact length_lt_of_cutLine hcut
      · split at h
        · cases h
        · cases h
          exact length_lt_of_cutLine hcut
  · split at h
    · cases h
    · split at h
      · cases h
      · dsimp only at h
        split at h
        · cases h
        · split at h <;> cases h
  · cases h

/-- `parse_request`, as a function of the readable bytes: the value returned, the
context, and the bytes left unread. -/
def parse (c : HttpContext) (s : Bytes) : Except NoReturn (Bool × HttpContext × Bytes) :=
  match _h : c.phaseStep s with
  | .error e => .error e
  | .ok (.return result c s) => .ok (result, c, s)
  | .ok (.again c' s') => parse c' s'
termination_by s.length
decreasing_by exact length_lt_of_phaseStep (by assumption)

theorem parse_of_error {c : HttpContext} {s : Bytes} {e : NoReturn}
    (h : c.phaseStep s = .error e) : c.parse s = .error e := by
  rw [parse, h]

theorem parse_of_return {c c' : HttpContext} {s s' : Bytes} {result : Bool}
    (h : c.phaseStep s = .ok (.return result c' s')) : c.parse s = .ok (result, c', s') := by
  rw [parse, h]

theorem parse_of_again {c c' : HttpContext} {s s' : Bytes}
    (h : c.phaseStep s = .ok (.again c' s')) : c.parse s = c'.parse s' := by
  rw [parse, h]

/-! ## The code computes it -/

/-- A step of the parser on the readable bytes of a buffer. -/
def Next.peek : Next Buffer → Next Bytes
  | .return result c buf => .return result c buf.peek
  | .again c buf => .again c buf.peek

theorem retrieve_again (c : HttpContext) {buf : Buffer} {n : Nat} (h : n ≤ buf.peek.length) :
    (do return Next.again c (← buf.retrieve n) : Except NoReturn (Next Buffer)).map Next.peek
      = .ok (.again c (buf.peek.drop n)) := by
  rw [Buffer.length_peek] at h
  obtain ⟨b, hok, hpeek⟩ := Buffer.retrieve_spec h
  rw [hok, ← hpeek]
  rfl

/-- A position at which `"\r\n"` is found is followed by two bytes. -/
theorem find_crlf_add_le {s : Bytes} {n : Nat} (h : find crlf s = some n) : n + 2 ≤ s.length :=
  find_add_length_le h

theorem parseRequestLine_peek {c : HttpContext} (hc : c.phase = .kRequestLine) (buf : Buffer) :
    (c.parseRequestLine buf).map Next.peek = c.phaseStep buf.peek := by
  simp only [parseRequestLine, phaseStep, hc, cutLine]
  cases hfind : find crlf buf.peek with
  | none => rfl
  | some n =>
      have hle := find_crlf_add_le hfind
      have hreadable := buf.length_peek
      simp only [Option.map_some]
      rcases hset : c.request.setRequestLineFrom (buf.peek.take n) with e | _ | request
      · rfl
      · rfl
      · simp only [ok_bind, List.drop_eq_nil_iff]
        by_cases hgt : buf.readableBytes > n + 2
        · rw [if_pos hgt, if_neg (by omega)]
          exact retrieve_again _ hle
        · rw [if_neg hgt, if_pos (by omega)]
          rfl

theorem parseHeaderLine_peek {c : HttpContext} (hc : c.phase = .kHeaderLines) (buf : Buffer) :
    (c.parseHeaderLine buf).map Next.peek = c.phaseStep buf.peek := by
  simp only [parseHeaderLine, phaseStep, hc, cutLine]
  cases hfind : find crlf buf.peek with
  | none => rfl
  | some n =>
      have hle := find_crlf_add_le hfind
      have hreadable := buf.length_peek
      simp only [Option.map_some]
      by_cases hline : buf.peek.take n = []
      · -- the line is empty only at the front, the buffer being long enough
        have hn : n = 0 := by
          have := congrArg List.length hline
          rw [List.length_take, List.length_nil] at this
          omega
        subst hn
        rw [if_pos hline, if_pos rfl, if_pos hline]
        exact retrieve_again _ hle
      · rw [if_neg hline, if_neg hline]
        cases c.request.addHeaderFrom (buf.peek.take n) with
        | none => rfl
        | some request =>
            simp only
            rw [if_pos (by omega)]
            exact retrieve_again _ hle

theorem parseEntityBody_peek {c : HttpContext} (hc : c.phase = .kEntityBody) (buf : Buffer) :
    (c.parseEntityBody buf).map Next.peek = c.phaseStep buf.peek := by
  simp only [parseEntityBody, phaseStep, hc, buf.length_peek]
  split
  · rfl
  · cases c.request.getHeader (bytes "Content-length") with
    | none => rfl
    | some contentsLength =>
        simp only
        split
        · rfl
        · split
          · rfl
          · simp only [pure_eq_ok, map_ok, Next.peek, Buffer.peek_retrieveAll]

theorem parsePhase_peek (c : HttpContext) (buf : Buffer) :
    (c.parsePhase buf).map Next.peek = c.phaseStep buf.peek := by
  rw [parsePhase]
  split
  · exact parseRequestLine_peek (by assumption) buf
  · exact parseHeaderLine_peek (by assumption) buf
  · exact parseEntityBody_peek (by assumption) buf
  · rename_i hc
    rw [phaseStep, hc]
    rfl

/-- **`parse_request` computes `parse`.** -/
theorem parseRequest_peek (c : HttpContext) (buf : Buffer) :
    (c.parseRequest buf).map (fun r ↦ (r.1, r.2.1, r.2.2.peek)) = c.parse buf.peek := by
  have hpeek := c.parsePhase_peek buf
  fun_induction parseRequest c buf with
  | case1 c buf e h => exact (parse_of_error (by rw [← hpeek, h]; rfl)).symm
  | case2 c buf result c' buf' h => exact (parse_of_return (by rw [← hpeek, h]; rfl)).symm
  | case3 c buf c' buf' h ih =>
      rw [ih (c'.parsePhase_peek buf')]
      exact (parse_of_again (by rw [← hpeek, h]; rfl)).symm

theorem parseRequest_of_ok {c c' : HttpContext} {buf : Buffer} {result : Bool} {s : Bytes}
    (h : c.parse buf.peek = .ok (result, c', s)) :
    ∃ buf', c.parseRequest buf = .ok (result, c', buf') ∧ buf'.peek = s := by
  have hpeek := c.parseRequest_peek buf
  rw [h] at hpeek
  cases hparse : c.parseRequest buf with
  | error e => rw [hparse] at hpeek; cases hpeek
  | ok r =>
      rw [hparse] at hpeek
      cases hpeek
      exact ⟨_, rfl, rfl⟩

theorem parseRequest_of_error {c : HttpContext} {buf : Buffer} {e : NoReturn}
    (h : c.parse buf.peek = .error e) : c.parseRequest buf = .error e := by
  have hpeek := c.parseRequest_peek buf
  rw [h] at hpeek
  cases hparse : c.parseRequest buf with
  | error e' => rw [hparse] at hpeek; cases hpeek; rfl
  | ok r => rw [hparse] at hpeek; cases hpeek

/-! ## Interruptions -/

/-- A phase that was gone through is gone through in the same way when more text
follows. -/
theorem phaseStep_append {c c' : HttpContext} {s s' : Bytes}
    (h : c.phaseStep s = .ok (.again c' s')) (x : Bytes) :
    c.phaseStep (s ++ x) = .ok (.again c' (s' ++ x)) := by
  rw [phaseStep] at h ⊢
  split at h
  · split at h
    · cases h
    · rename_i line rest hcut
      rw [cutLine_append hcut]
      split at h
      · cases h
      · cases h
      · rename_i hset
        split at h
        · cases h
        · rename_i hrest
          cases h
          simp only [hset]
          rw [if_neg fun happ ↦ hrest (List.append_eq_nil_iff.mp happ).1]
  · split at h
    · cases h
    · rename_i line rest hcut
      rw [cutLine_append hcut]
      split at h
      · rename_i hline
        cases h
        exact if_pos hline
      · rename_i hline
        simp only [if_neg hline]
        split at h
        · cases h
        · cases h
          rfl
  · split at h
    · cases h
    · split at h
      · cases h
      · dsimp only at h
        split at h
        · cases h
        · split at h <;> cases h
  · cases h

/-- A phase that returned leaves everything as it was, or completes the request. -/
theorem phaseStep_return {c c' : HttpContext} {s s' : Bytes} {result : Bool}
    (h : c.phaseStep s = .ok (.return result c' s')) :
    c' = c ∧ s' = s ∨
      c.phase = .kEntityBody ∧ result = true ∧ c' = { c with phase := .kCompleted } ∧
        (c.request.method ≠ .kPost → s' = s) := by
  rw [phaseStep] at h
  split at h
  · split at h
    · cases h
      exact .inl ⟨rfl, rfl⟩
    · split at h
      · cases h
      · cases h
        exact .inl ⟨rfl, rfl⟩
      · split at h <;> cases h
  · split at h
    · cases h
      exact .inl ⟨rfl, rfl⟩
    · split at h
      · cases h
      · split at h
        · cases h
          exact .inl ⟨rfl, rfl⟩
        · cases h
  · rename_i hphase
    split at h
    · cases h
      exact .inr ⟨hphase, rfl, rfl, fun _ ↦ rfl⟩
    · rename_i hpost
      split at h
      · cases h
        exact .inl ⟨rfl, rfl⟩
      · dsimp only at h
        split at h
        · cases h
          exact .inl ⟨rfl, rfl⟩
        · split at h
          · cases h
            exact .inl ⟨rfl, rfl⟩
          · cases h
            exact .inr ⟨hphase, rfl, rfl, fun hne ↦ absurd hne hpost⟩
  · cases h
    exact .inl ⟨rfl, rfl⟩

theorem parse_of_completed {c : HttpContext} (hc : c.phase = .kCompleted) (s : Bytes) :
    c.parse s = .ok (true, c, s) :=
  parse_of_return (by rw [phaseStep, hc])

theorem parse_of_entityBody {c : HttpContext} (hc : c.phase = .kEntityBody)
    (hpost : c.request.method ≠ .kPost) (s : Bytes) :
    c.parse s = .ok (true, { c with phase := .kCompleted }, s) :=
  parse_of_return (by rw [phaseStep, hc]; exact if_pos hpost)

/-- **Parsing can be interrupted.**  What was parsed of a text, if it was no POST
request, can be taken up again when more text is there. -/
theorem parse_append {c c' : HttpContext} {s s' : Bytes} {result : Bool}
    (h : c.parse s = .ok (result, c', s')) (hpost : c'.request.method ≠ .kPost) (x : Bytes) :
    c.parse (s ++ x) = c'.parse (s' ++ x) := by
  fun_induction parse c s with
  | case1 c s e hstep => cases h
  | case2 c s result₁ c₁ s₁ hstep =>
      cases h
      rcases phaseStep_return hstep with ⟨rfl, rfl⟩ | ⟨hphase, -, rfl, hs⟩
      · rfl
      · have hpost : c.request.method ≠ .kPost := hpost
        rw [hs hpost, parse_of_entityBody hphase hpost, parse_of_completed rfl]
  | case3 c s c₁ s₁ hstep ih => rw [parse_of_again (phaseStep_append hstep x), ih h]

/-- A phase that is refused is refused again when more text follows. -/
theorem phaseStep_false_append {c c' : HttpContext} {s s' : Bytes}
    (h : c.phaseStep s = .ok (.return false c' s')) (x : Bytes) :
    c' = c ∧ s' = s ∧ c.phaseStep (s ++ x) = .ok (.return false c (s ++ x)) := by
  have hsame : c' = c ∧ s' = s := by
    rcases phaseStep_return h with hsame | ⟨-, hresult, -⟩
    · exact hsame
    · cases hresult
  refine ⟨hsame.1, hsame.2, ?_⟩
  rw [phaseStep] at h ⊢
  split at h
  · split at h
    · cases h
    · rename_i line rest hcut
      rw [cutLine_append hcut]
      split at h
      · cases h
      · rename_i hset
        simp only [hset]
      · split at h <;> cases h
  · split at h
    · cases h
    · rename_i line rest hcut
      rw [cutLine_append hcut]
      split at h
      · cases h
      · rename_i hline
        simp only [if_neg hline]
        split at h
        · rfl
        · cases h
  · split at h
    · cases h
    · rename_i hpost
      simp only [if_neg hpost]
      split at h
      · rfl
      · dsimp only at h ⊢
        split at h
        · rename_i hneg
          rw [if_pos hneg]
        · split at h <;> cases h
  · cases h

/-- A request that is refused is refused again when more text follows. -/
theorem parse_false_append {c c' : HttpContext} {s s' : Bytes}
    (h : c.parse s = .ok (false, c', s')) (x : Bytes) :
    c'.parse (s' ++ x) = .ok (false, c', s' ++ x) := by
  fun_induction parse c s with
  | case1 c s e hstep => cases h
  | case2 c s result₁ c₁ s₁ hstep =>
      cases h
      obtain ⟨rfl, rfl, hagain⟩ := phaseStep_false_append hstep x
      exact parse_of_return hagain
  | case3 c s c₁ s₁ hstep ih => exact ih h

/-! ## The request line, and what is behind it -/

/-- Behind the request line no phase fails, and none touches the request line. -/
theorem phaseStep_ok {c : HttpContext} (hc : c.phase ≠ .kRequestLine) (s : Bytes) :
    ∃ next, c.phaseStep s = .ok next ∧
      match next with
      | .return _ c' _ => c'.request.requestLine = c.request.requestLine
      | .again c' _ =>
          c'.phase ≠ .kRequestLine ∧ c'.request.requestLine = c.request.requestLine := by
  rw [phaseStep]
  split
  · rename_i hphase
    exact absurd hphase hc
  · rename_i hphase
    split
    · exact ⟨_, rfl, rfl⟩
    · split
      · exact ⟨_, rfl, by simp, rfl⟩
      · split
        · exact ⟨_, rfl, rfl⟩
        · rename_i hadd
          refine ⟨_, rfl, hc, ?_⟩
          obtain ⟨key, value, -, -, rfl⟩ := HttpRequest.addHeaderFrom_eq_some_iff.mp hadd
          rfl
  · split
    · exact ⟨_, rfl, rfl⟩
    · split
      · exact ⟨_, rfl, rfl⟩
      · dsimp only
        split
        · exact ⟨_, rfl, rfl⟩
        · split <;> exact ⟨_, rfl, rfl⟩
  · exact ⟨_, rfl, rfl⟩

/-- Behind the request line nothing can go wrong. -/
theorem parse_ok {c : HttpContext} (hc : c.phase ≠ .kRequestLine) (s : Bytes) :
    ∃ result c' s', c.parse s = .ok (result, c', s') ∧
      c'.request.requestLine = c.request.requestLine := by
  fun_induction parse c s with
  | case1 c s e hstep =>
      obtain ⟨next, hok, -⟩ := phaseStep_ok hc s
      rw [hok] at hstep
      cases hstep
  | case2 c s result c' s' hstep =>
      obtain ⟨next, hok, hline⟩ := phaseStep_ok hc s
      rw [hok] at hstep
      cases hstep
      exact ⟨_, _, _, rfl, hline⟩
  | case3 c s c' s' hstep ih =>
      obtain ⟨next, hok, hnext⟩ := phaseStep_ok hc s
      rw [hok] at hstep
      cases hstep
      obtain ⟨hphase, hline⟩ := hnext
      obtain ⟨result, c'', s'', hparse, hline'⟩ := ih hphase
      exact ⟨result, c'', s'', hparse, hline'.trans hline⟩

section RequestLine

variable {c : HttpContext} (hc : c.phase = .kRequestLine) {s line rest : Bytes}

include hc

/-- No line end, no step. -/
theorem parse_of_no_line (hcut : cutLine s = none) : c.parse s = .ok (true, c, s) :=
  parse_of_return (by rw [phaseStep, hc, hcut])

/-- The request line is rejected. -/
theorem parse_of_rejected (hcut : cutLine s = some (line, rest))
    (hline : RequestLine.fromLine line = .ok none) : c.parse s = .ok (false, c, s) :=
  parse_of_return (by
    simp only [phaseStep, hc, hcut, HttpRequest.setRequestLineFrom, hline, ok_bind,
      pure_eq_ok, Option.map_none])

/-- The request line has no reading at all. -/
theorem parse_of_line_error (hcut : cutLine s = some (line, rest)) {e : NoReturn}
    (hline : RequestLine.fromLine line = .error e) : c.parse s = .error e :=
  parse_of_error (by
    simp only [phaseStep, hc, hcut, HttpRequest.setRequestLineFrom, hline, error_bind])

/-- Nothing follows the request line. -/
theorem parse_of_nothing_behind (hcut : cutLine s = some (line, [])) {r : RequestLine}
    (hline : RequestLine.fromLine line = .ok (some r)) :
    c.parse s = .error (.assertion .requestLineReadable) :=
  parse_of_error (by
    simp only [phaseStep, hc, hcut, HttpRequest.setRequestLineFrom, hline, ok_bind,
      pure_eq_ok, Option.map_some, if_true])

/-- The request line is accepted. -/
theorem parse_of_accepted (hcut : cutLine s = some (line, rest)) {r : RequestLine}
    (hline : RequestLine.fromLine line = .ok (some r)) (hrest : rest ≠ []) :
    c.parse s = parse ⟨.kHeaderLines, { c.request with requestLine := r }⟩ rest :=
  parse_of_again (by
    simp only [phaseStep, hc, hcut, HttpRequest.setRequestLineFrom, hline, ok_bind,
      pure_eq_ok, Option.map_some, if_neg hrest])

end RequestLine

end Wuduo.Http.HttpContext
