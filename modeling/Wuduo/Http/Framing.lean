import Wuduo.Http.Cutting
import Wuduo.Http.Grammar
import Wuduo.Http.HttpResponse

/-!
# The bodies of POST requests

A POST request says how long its body is, and `parse_request` waits until as many
bytes are buffered.  Then it drops the whole buffer.  `framesBody_iff` says when that
is right: when the read that ends the body carries nothing behind its end.
-/

namespace Wuduo.Http

namespace HttpContext

/-! ## Numerals -/

/-- The text is a decimal numeral of the number. -/
structure IsNumeral (value : Bytes) (n : Nat) : Prop where
  nonempty : value ≠ []
  digits : ∀ b ∈ value, isDigit b = true
  value_eq : value.foldl (fun n d ↦ 10 * n + (d.toNat - 48)) 0 = n

theorem isDigit_iff {b : UInt8} : isDigit b = true ↔ 48 ≤ b.toNat ∧ b.toNat ≤ 57 := by
  rw [isDigit, Bool.and_eq_true, decide_eq_true_iff, decide_eq_true_iff, UInt8.le_iff_toNat_le,
    UInt8.le_iff_toNat_le]
  rfl

/-- The value of digits does not depend on the type it is computed in. -/
theorem foldl_digits {value : Bytes} (h : ∀ b ∈ value, isDigit b = true) (n : Nat) :
    value.foldl (fun (n : Int) d ↦ 10 * n + (d.toNat - 48 : Int)) n =
      (value.foldl (fun n d ↦ 10 * n + (d.toNat - 48)) n : Nat) := by
  induction value generalizing n with
  | nil => rfl
  | cons b value ih =>
      obtain ⟨hb, hvalue⟩ := List.forall_mem_cons.mp h
      have hdigit := (isDigit_iff.mp hb).1
      rw [List.foldl_cons, List.foldl_cons, ← ih hvalue]
      congr 1
      omega

theorem isSpace_of_isDigit {b : UInt8} (h : isDigit b = true) : isSpace b = false := by
  have hdigit := isDigit_iff.mp h
  simp only [isSpace, UInt8.le_iff_toNat_le, ← UInt8.toNat_inj, Bool.or_eq_false_iff,
    Bool.and_eq_false_iff, decide_eq_false_iff_not]
  constructor
  · intro heq
    rw [heq] at hdigit
    exact absurd hdigit.1 (by decide)
  · right
    intro hle
    exact absurd (Nat.le_trans hdigit.1 hle) (by decide)

/-- `std::stoll` reads a numeral whose number is in range. -/
theorem stoll_of_isNumeral {value : Bytes} {n : Nat} (h : IsNumeral value n) (hn : n < 2 ^ 63) :
    stoll value = some (n : Int) := by
  obtain ⟨b, rest, rfl⟩ := List.exists_cons_of_ne_nil h.nonempty
  have hb := h.digits b List.mem_cons_self
  have hdrop : (b :: rest).dropWhile isSpace = b :: rest :=
    List.dropWhile_cons_of_neg (by simp [isSpace_of_isDigit hb])
  have hdigits : (b :: rest).takeWhile isDigit = b :: rest :=
    List.takeWhile_eq_self_iff.mpr h.digits
  have hvalue := foldl_digits h.digits 0
  rw [h.value_eq, Nat.cast_zero] at hvalue
  rw [stoll, hdrop]
  split
  rename_i negative s heq
  split at heq
  · rename_i hsign
    cases hsign
    cases hb
  · rename_i hsign
    cases hsign
    cases hb
  · cases heq
    simp only [hdigits, hvalue, Bool.false_eq_true, if_false, if_neg (List.cons_ne_nil b rest)]
    rw [if_pos (by omega)]

theorem toNat_toUInt8_of_isDigit {c : Char} (h : c.isDigit = true) :
    c.toNat.toUInt8.toNat = c.toNat ∧ 48 ≤ c.toNat ∧ c.toNat ≤ 57 := by
  rw [Char.isDigit, Bool.and_eq_true, decide_eq_true_iff, decide_eq_true_iff] at h
  have hlow : 48 ≤ c.toNat := h.1
  have hhigh : c.toNat ≤ 57 := h.2
  refine ⟨?_, hlow, hhigh⟩
  rw [UInt8.toNat_ofNat', Nat.mod_eq_of_lt (by omega)]

/-- What a response writes for the size of its body is a numeral of that kind. -/
theorem isNumeral_decimal (n : Nat) : IsNumeral (decimal n) n where
  nonempty := by
    rw [decimal, ne_eq, List.map_eq_nil_iff]
    exact Nat.toDigits_ne_nil
  digits b hb := by
    obtain ⟨c, hc, rfl⟩ := List.mem_map.mp hb
    obtain ⟨heq, hc⟩ := toNat_toUInt8_of_isDigit
      (Nat.isDigit_of_mem_toDigits (by decide) (by decide) hc)
    rw [isDigit_iff, heq]
    exact hc
  value_eq := by
    rw [decimal, List.foldl_map]
    refine Eq.trans (List.foldl_ext _ _ _ fun m c hc ↦ ?_)
      (Nat.ofDigitChars_toDigits (b := 10) (n := n) (by decide) (by decide))
    rw [(toNat_toUInt8_of_isDigit (Nat.isDigit_of_mem_toDigits (by decide) (by decide) hc)).1]
    rfl

/-! ## Heads -/

/-- The head of a POST request, which says that `n` bytes follow. -/
structure IsPostHead (head line : Bytes) (headers : List Bytes) (n : Nat) : Prop where
  text : head = line ++ crlf ++ linesText headers ++ crlf
  free : ∀ l ∈ line :: headers, ¬ crlf <:+: l
  nonempty : ∀ h ∈ headers, h ≠ []
  requestLine : ∃ r, RequestLine.fromLine line = .ok (some r) ∧ r.method = .kPost
  header : ∀ h ∈ headers, IsHeaderLine h
  distinct : (headers.map headerName).Nodup
  length : ∃ h ∈ headers, headerName h = bytes "Content-length" ∧ IsNumeral (headerValue h) n
  /-- `n` is in the range of `long long` -/
  range : n < 2 ^ 63

/-- The request waits for a body of `n` bytes. -/
def Expects (request : HttpRequest) (n : Nat) : Prop :=
  request.method = .kPost ∧
    (request.getHeader (bytes "Content-length")).bind stoll = some (n : Int)

/-- Behind the head of a POST request is its body. -/
theorem parse_postHead {head line : Bytes} {headers : List Bytes} {n : Nat}
    (h : IsPostHead head line headers n) :
    ∃ request, Expects request n ∧ ∀ s, parse {} (head ++ s) = parse ⟨.kEntityBody, request⟩ s := by
  obtain ⟨r, hline, hmethod⟩ := h.requestLine
  obtain ⟨hfree, hfrees⟩ := List.forall_mem_cons.mp h.free
  have hheaders := (areHeaders_iff r headers).mpr ⟨hfrees, h.nonempty, h.header, h.distinct⟩
  refine ⟨withHeaders ⟨r, []⟩ headers, ⟨hmethod, ?_⟩, fun s ↦ ?_⟩
  · obtain ⟨l, hl, hname, hvalue⟩ := h.length
    have hlookup : (withHeaders ⟨r, []⟩ headers).getHeader (bytes "Content-length")
        = some (headerValue l) := by
      rw [← hname]
      exact lookup_headerEntry h.distinct hl
    rw [hlookup, Option.bind_some, stoll_of_isNumeral hvalue h.range]
  · have hcut : cutLine (head ++ s) = some (line, linesText headers ++ crlf ++ s) :=
      cutLine_eq_some_iff.mpr ⟨by simp [h.text], hfree⟩
    rw [parse_of_accepted rfl hcut hline (by simp [crlf])]
    exact parse_linesText hheaders s

/-- A body is waited for until it is there, and then everything is dropped. -/
theorem parse_body {request : HttpRequest} {n : Nat} (h : Expects request n) (s : Bytes) :
    parse ⟨.kEntityBody, request⟩ s =
      .ok (true, ⟨if s.length < n then .kEntityBody else .kCompleted, request⟩,
        if s.length < n then s else []) := by
  obtain ⟨hmethod, hvalue⟩ := h
  obtain ⟨value, hheader, hstoll⟩ := Option.bind_eq_some_iff.mp hvalue
  refine parse_of_return ?_
  simp only [phaseStep, hmethod, ne_eq, not_true_eq_false, if_false, hheader, hstoll,
    Option.getD_some, Int.toNat_natCast]
  rw [if_neg (by omega)]
  split <;> rfl

/-! ## Reads -/

/-- In the reads up to the one with which `n` bytes behind the head are there,
`parse_request` reports completion then and not before; and what it leaves unread is
what is behind them. -/
def FramesBody (head : Bytes) (n : Nat) (reads : List Bytes) : Prop :=
  ∀ seen read, seen ++ [read] <+: reads → seen.flatten.length < head.length + n →
    ∃ c buf, deliver (seen ++ [read]) = .ok (some true, c, buf) ∧
      (c.phase = .kCompleted ↔ head.length + n ≤ (seen ++ [read]).flatten.length) ∧
      (c.phase = .kCompleted → buf.peek = (seen ++ [read]).flatten.drop (head.length + n))

/-- A read parsed where a body of `n` bytes is waited for. -/
theorem feed_body {request : HttpRequest} {n : Nat} (h : Expects request n) (buf : Buffer)
    (last : Option Bool) (read : Bytes) :
    ∃ buf', feed ⟨.kEntityBody, request⟩ buf last [read] =
        .ok (some true, ⟨if (buf.peek ++ read).length < n then .kEntityBody else .kCompleted,
          request⟩, buf') ∧
      buf'.peek = if (buf.peek ++ read).length < n then buf.peek ++ read else [] := by
  obtain ⟨buf₁, happend, hpeek₁⟩ := buf.append_spec read
  have hparse := parse_body h buf₁.peek
  rw [hpeek₁, ← hpeek₁] at hparse
  obtain ⟨buf₂, hok, hpeek₂⟩ := parseRequest_of_ok hparse
  refine ⟨buf₂, ?_, by rw [hpeek₂, hpeek₁]⟩
  simp only [feed, happend, ok_bind, hok, pure_eq_ok, hpeek₁]

/-- What the reads have led to when the body was not there before the last one. -/
theorem deliver_postHead {head line : Bytes} {headers : List Bytes} {n : Nat}
    (h : IsPostHead head line headers n) :
    ∃ request, ∀ (first : Bytes) (later seen : List Bytes) (read : Bytes),
      seen ++ [read] <+: (head ++ first) :: later → seen.flatten.length < head.length + n →
      ∃ body buf, (seen ++ [read]).flatten = head ++ body ∧
        deliver (seen ++ [read]) =
          .ok (some true, ⟨if body.length < n then .kEntityBody else .kCompleted, request⟩, buf) ∧
        buf.peek = if body.length < n then body else [] := by
  obtain ⟨request, hexpects, hparse⟩ := parse_postHead h
  refine ⟨request, fun first later seen ↦ ?_⟩
  induction seen using List.reverseRecOn with
  | nil =>
      intro read hprefix _
      have hread : read = head ++ first := (List.cons_prefix_cons.mp hprefix).1
      subst hread
      obtain ⟨buf₁, happend, hpeek₁⟩ := (Buffer.ofSize kInitialSize).append_spec (head ++ first)
      rw [Buffer.peek_ofSize, List.nil_append] at hpeek₁
      have hfirst := (hparse first).trans (parse_body hexpects first)
      rw [← hpeek₁] at hfirst
      obtain ⟨buf₂, hok, hpeek₂⟩ := parseRequest_of_ok hfirst
      refine ⟨first, buf₂, by simp, ?_, hpeek₂⟩
      simp only [deliver, List.nil_append, feed, happend, ok_bind, hok, pure_eq_ok]
  | append_singleton seen last ih =>
      intro read hprefix hshort
      obtain ⟨body, buf, hflat, hdeliver, hpeek⟩ := ih last
        ((List.prefix_append _ _).trans hprefix) (by
          rw [List.flatten_append, List.length_append] at hshort
          omega)
      -- the body was not there yet, so its beginning is in the buffer
      have hwait : body.length < n := by
        rw [hflat, List.length_append] at hshort
        omega
      rw [if_pos hwait] at hdeliver hpeek
      obtain ⟨buf', hfeed, hpeek'⟩ := feed_body hexpects buf (some true) read
      rw [hpeek] at hfeed hpeek'
      refine ⟨body ++ read, buf', ?_, (feed_concat hdeliver read).trans hfeed, hpeek'⟩
      rw [List.flatten_append, hflat, List.append_assoc]
      simp

/-- **When a body is framed.**  Reads of which the first holds the head of a POST
request are framed by its length if and only if the read that ends the body carries
nothing behind its end. -/
theorem framesBody_iff (head line : Bytes) (headers : List Bytes) (n : Nat) (first : Bytes)
    (later : List Bytes) (h : IsPostHead head line headers n) :
    FramesBody head n ((head ++ first) :: later) ↔
      ∀ seen read, seen ++ [read] <+: (head ++ first) :: later →
        seen.flatten.length < head.length + n →
          (seen ++ [read]).flatten.length ≤ head.length + n := by
  obtain ⟨request, hdeliver⟩ := deliver_postHead h
  constructor
  · intro hframes seen read hprefix hshort
    obtain ⟨c, buf, hok, hphase, hrest⟩ := hframes seen read hprefix hshort
    obtain ⟨body, buf', hflat, hok', hpeek⟩ := hdeliver first later seen read hprefix hshort
    cases hok.symm.trans hok'
    by_contra hlong
    have hbody : ¬ body.length < n := by
      rw [hflat, List.length_append] at hlong
      omega
    have hnil := hrest (hphase.mpr (Nat.le_of_not_le hlong))
    rw [hpeek, if_neg hbody] at hnil
    exact hlong (List.drop_eq_nil_iff.mp hnil.symm)
  · intro hall seen read hprefix hshort
    have hlong := hall seen read hprefix hshort
    obtain ⟨body, buf, hflat, hok, hpeek⟩ := hdeliver first later seen read hprefix hshort
    refine ⟨_, buf, hok, ?_, fun hphase ↦ ?_⟩
    · rw [hflat, List.length_append]
      by_cases hlt : body.length < n
      · rw [if_pos hlt]
        exact iff_of_false (by simp) (by omega)
      · rw [if_neg hlt]
        exact iff_of_true rfl (by omega)
    · have hbody : ¬ body.length < n := by
        intro hlt
        rw [if_pos hlt] at hphase
        cases hphase
      rw [hpeek, if_neg hbody, List.drop_eq_nil_iff.mpr hlong]

/-- The head of a POST request with a body of two bytes. -/
def postHead : Bytes := bytes "POST / HTTP/1.1\r\nContent-length: 2\r\n\r\n"

theorem isPostHead_postHead :
    IsPostHead postHead (bytes "POST / HTTP/1.1") [bytes "Content-length: 2"] 2 := by
  have hheader : IsHeaderLine (bytes "Content-length: 2") :=
    ⟨bytes "Content-length", bytes " 2", by decide, 50, by decide, by decide⟩
  exact {
    text := by decide +kernel
    free := by decide +kernel
    nonempty := by decide +kernel
    requestLine := ⟨⟨.kPost, bytes "/", bytes "index.html", [], .kHttp11⟩, by decide +kernel, rfl⟩
    header := fun h hh ↦ List.mem_singleton.mp hh ▸ hheader
    distinct := by decide +kernel
    length := ⟨bytes "Content-length: 2", List.mem_singleton_self _, by decide +kernel,
      by decide +kernel, by decide +kernel, by decide +kernel⟩
    range := by decide }

/-- The two bytes arrive one at a time. -/
theorem framesBody_iff_run :
    FramesBody postHead 2 [postHead ++ bytes "a", bytes "b", bytes "GET"] := by
  refine (framesBody_iff _ _ _ 2 (bytes "a") [bytes "b", bytes "GET"] isPostHead_postHead).mpr ?_
  intro seen read hprefix hshort
  rcases seen with _ | ⟨s₁, _ | ⟨s₂, _ | ⟨s₃, seen⟩⟩⟩
  · obtain ⟨rfl, -⟩ := List.cons_prefix_cons.mp hprefix
    decide +kernel
  · obtain ⟨rfl, htail⟩ := List.cons_prefix_cons.mp hprefix
    obtain ⟨rfl, -⟩ := List.cons_prefix_cons.mp htail
    decide +kernel
  · -- the body is complete before the third read
    obtain ⟨rfl, htail⟩ := List.cons_prefix_cons.mp hprefix
    obtain ⟨rfl, -⟩ := List.cons_prefix_cons.mp htail
    exact absurd hshort (by decide +kernel)
  · have hle := hprefix.length_le
    simp only [List.length_append, List.length_cons, List.length_nil] at hle
    omega

/-- The next request arrives together with the body, and is lost. -/
theorem not_framesBody : ¬ FramesBody postHead 2 [postHead ++ bytes "abGET"] := by
  intro hframes
  obtain ⟨c, buf, hok, hphase, hrest⟩ := hframes [] (postHead ++ bytes "abGET")
    (List.prefix_refl _) (by decide +kernel)
  have hpeek := hrest (hphase.mpr (by decide +kernel))
  have hlost : (deliver ([] ++ [postHead ++ bytes "abGET"])).toOption.any
      (fun out ↦ out.2.2.peek = []) = true := by decide +kernel
  rw [hok] at hlost
  rw [of_decide_eq_true hlost] at hpeek
  exact absurd hpeek (by decide +kernel)

end HttpContext

end Wuduo.Http
