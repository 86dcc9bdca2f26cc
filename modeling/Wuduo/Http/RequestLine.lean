import Wuduo.Http.HttpRequest

/-!
# Request lines

`RequestLine::from` cuts a line at its first carriage return, and what is before
that at its first two spaces.  `fromLine_eq` says what it does in terms of the
words, with no position left that could be out of range.

## Results

* `returns_iff`: the lines for which `from` returns at all.
* `grammar`: the lines for which it returns a request line, what that is, and that
  `to_string` gives back the line.
* `not_queryNeutral`: a query changes the path of every target.
-/

namespace Wuduo.Http.RequestLine

open Search

/-! ## Words -/

/-- The part of a line before its first carriage return. -/
def text (line : Bytes) : Bytes := line.takeWhile (· ≠ 13)

/-- The first word of a text and what follows the space behind it. -/
def cutWord (t : Bytes) : Option (Bytes × Bytes) :=
  (find (bytes " ") t).map fun n ↦ (t.take n, t.drop (n + 1))

/-- A word is cut off exactly where the first space is. -/
theorem cutWord_eq_some_iff {t word rest : Bytes} :
    cutWord t = some (word, rest) ↔ t = word ++ 32 :: rest ∧ 32 ∉ word := by
  rw [cutWord, Option.map_eq_some_iff]
  constructor
  · rintro ⟨n, hn, heq⟩
    obtain ⟨word', rest', rfl, hword, rfl⟩ := find_singleton_iff.mp hn
    rw [List.take_left, ← List.drop_drop, List.drop_left] at heq
    cases heq
    exact ⟨rfl, hword⟩
  · rintro ⟨rfl, hword⟩
    refine ⟨word.length, find_singleton_iff.mpr ⟨word, rest, rfl, hword, rfl⟩, ?_⟩
    rw [List.take_left, ← List.drop_drop, List.drop_left]
    rfl

/-- `from`, in terms of the words of the text. -/
theorem fromLine_eq (line : Bytes) :
    fromLine line =
      match cutWord (text line) with
      | none => .ok none
      | some (method, rest) =>
          if rest = [] then .error (.assertion .spaceAfterMethod)
          else match cutWord rest with
            | none => .ok none
            | some (url, version) =>
                if version = [] then .error (.assertion .spaceAfterUrl)
                else fromParts method url version := by
  have htext : (find (bytes "\r") line).elim line line.take = text line :=
    elim_find_singleton 13 line
  simp only [fromLine, htext, cutWord]
  cases find (bytes " ") (text line) with
  | none => rfl
  | some n =>
      simp only [Option.map_some]
      by_cases hlt : n + 1 < (text line).length
      · rw [if_pos hlt, if_neg (by rw [List.drop_eq_nil_iff]; omega)]
        cases find (bytes " ") ((text line).drop (n + 1)) with
        | none => rfl
        | some m =>
            simp only [Option.map_some]
            by_cases hlt' : m + 1 < ((text line).drop (n + 1)).length
            · rw [if_pos hlt', if_neg (by rw [List.drop_eq_nil_iff]; omega)]
            · rw [if_neg hlt', if_pos (by rw [List.drop_eq_nil_iff]; omega)]
      · rw [if_neg hlt, if_pos (by rw [List.drop_eq_nil_iff]; omega)]

/-- A text of three words at least is cut at its first two spaces. -/
theorem fromLine_of_words {line m u v : Bytes} (ht : text line = m ++ 32 :: (u ++ 32 :: v))
    (hm : 32 ∉ m) (hu : 32 ∉ u) (hv : v ≠ []) : fromLine line = fromParts m u v := by
  simp only [fromLine_eq, cutWord_eq_some_iff.mpr ⟨ht, hm⟩, cutWord_eq_some_iff.mpr ⟨rfl, hu⟩,
    if_neg hv, if_neg (List.append_ne_nil_of_right_ne_nil u (List.cons_ne_nil 32 v))]

/-! ## The three parts -/

/-- The methods, by name. -/
def methodNames : List (Bytes × Method) :=
  [(bytes "GET", .kGet), (bytes "HEAD", .kHead), (bytes "POST", .kPost)]

/-- The versions, by name. -/
def versionNames : List (Bytes × Version) :=
  [(bytes "HTTP/1.0", .kHttp10), (bytes "HTTP/1.1", .kHttp11)]

theorem methodFrom_eq_some_iff {name : Bytes} {method : Method} :
    methodFrom name = some method ↔ (name, method) ∈ methodNames := by
  constructor
  · intro h
    rw [methodFrom] at h
    split at h
    · rename_i hname
      cases h
      simp [hname, methodNames]
    · split at h
      · rename_i hname
        cases h
        simp [hname, methodNames]
      · split at h
        · rename_i hname
          cases h
          simp [hname, methodNames]
        · cases h
  · intro h
    have hall : ∀ p ∈ methodNames, methodFrom p.1 = some p.2 := by decide +kernel
    exact hall _ h

theorem versionFrom_eq_some_iff {name : Bytes} {version : Version} :
    versionFrom name = some version ↔ (name, version) ∈ versionNames := by
  constructor
  · intro h
    rw [versionFrom] at h
    split at h
    · rename_i hname
      cases h
      simp [hname, versionNames]
    · split at h
      · rename_i hname
        cases h
        simp [hname, versionNames]
      · cases h
  · intro h
    have hall : ∀ p ∈ versionNames, versionFrom p.1 = some p.2 := by decide +kernel
    exact hall _ h

/-- A target has a path and a query unless it is empty. -/
theorem pathAndQueryFrom_returns_iff {url : Bytes} :
    (∃ parts, pathAndQueryFrom url = .ok parts) ↔ url ≠ [] := by
  constructor
  · rintro ⟨parts, h⟩ rfl
    cases h
  · intro hurl
    rw [pathAndQueryFrom]
    split
    · exact ⟨_, rfl⟩
    · split
      · exact ⟨_, rfl⟩
      · exact ⟨_, rfl⟩

theorem fromParts_of_unknown {m : Bytes} (h : methodFrom m = none) (u v : Bytes) :
    fromParts m u v = .ok none := by
  rw [fromParts, h]

/-- The string for the path of an empty target has a length that underflows. -/
theorem fromParts_of_no_target {m : Bytes} {method : Method} (h : (m, method) ∈ methodNames)
    (v : Bytes) : fromParts m [] v = .error .lengthError := by
  rw [fromParts, methodFrom_eq_some_iff.mpr h]
  rfl

theorem fromParts_of_target {m u path query : Bytes} {method : Method}
    (h : (m, method) ∈ methodNames) (hu : pathAndQueryFrom u = .ok (path, query)) (v : Bytes) :
    fromParts m u v =
      .ok ((versionFrom v).map fun version ↦ { method, url := u, path, query, version }) := by
  simp only [fromParts, methodFrom_eq_some_iff.mpr h, hu, ok_bind]
  cases versionFrom v <;> rfl

/-! ## Returning -/

/-- The texts on which `from` does not return. -/
inductive Fatal : Bytes → Prop where
  /-- nothing follows the first space, -/
  | method {m : Bytes} (hm : 32 ∉ m) : Fatal (m ++ [32])
  /-- or nothing follows the second, -/
  | url {m u : Bytes} (hm : 32 ∉ m) (hu : 32 ∉ u) : Fatal (m ++ 32 :: (u ++ [32]))
  /-- or nothing is between them, the method being one that is accepted -/
  | target {m v : Bytes} {method : Method} (hm : (m, method) ∈ methodNames) (hv : v ≠ []) :
      Fatal (m ++ 32 :: 32 :: v)

theorem not_mem_of_mem_methodNames {m : Bytes} {method : Method}
    (h : (m, method) ∈ methodNames) : 32 ∉ m ∧ 13 ∉ m := by
  have hall : ∀ p ∈ methodNames, 32 ∉ p.1 ∧ 13 ∉ p.1 := by decide +kernel
  exact hall _ h

theorem not_mem_of_mem_versionNames {v : Bytes} {version : Version}
    (h : (v, version) ∈ versionNames) : v ≠ [] ∧ 13 ∉ v := by
  have hall : ∀ p ∈ versionNames, p.1 ≠ [] ∧ 13 ∉ p.1 := by decide +kernel
  exact hall _ h

/-- `from` ends the process on each of these texts. -/
theorem fromLine_of_fatal {line : Bytes} (h : Fatal (text line)) :
    ∃ e, fromLine line = .error e := by
  generalize ht : text line = t at h
  cases h with
  | @method m hm =>
      refine ⟨.assertion .spaceAfterMethod, ?_⟩
      simp only [fromLine_eq, ht, cutWord_eq_some_iff.mpr ⟨rfl, hm⟩, if_true]
  | @url m u hm hu =>
      refine ⟨.assertion .spaceAfterUrl, ?_⟩
      simp only [fromLine_eq, ht, cutWord_eq_some_iff.mpr ⟨rfl, hm⟩,
        cutWord_eq_some_iff.mpr ⟨rfl, hu⟩, if_true,
        if_neg (List.append_ne_nil_of_right_ne_nil u (List.cons_ne_nil 32 []))]
  | @target m v method hm hv =>
      refine ⟨.lengthError, ?_⟩
      rw [fromLine_of_words (u := []) ht (not_mem_of_mem_methodNames hm).1 (by simp) hv]
      exact fromParts_of_no_target hm v

/-- **Which lines `from` survives.**  It returns for every line but those whose text
ends in its first or in its second space, and those in which an accepted method is
followed by two spaces and more. -/
theorem returns_iff (line : Bytes) : (∃ r, fromLine line = .ok r) ↔ ¬ Fatal (text line) := by
  constructor
  · rintro ⟨r, hr⟩ hfatal
    obtain ⟨e, he⟩ := fromLine_of_fatal hfatal
    cases hr.symm.trans he
  · intro hnot
    cases hfirst : cutWord (text line) with
    | none => exact ⟨none, by rw [fromLine_eq, hfirst]⟩
    | some cut =>
        obtain ⟨m, rest⟩ := cut
        obtain ⟨ht, hm⟩ := cutWord_eq_some_iff.mp hfirst
        rw [ht] at hnot
        have hrest : rest ≠ [] := by
          rintro rfl
          exact hnot (.method hm)
        cases hsecond : cutWord rest with
        | none => exact ⟨none, by simp only [fromLine_eq, hfirst, hsecond, if_neg hrest]⟩
        | some cut =>
            obtain ⟨u, v⟩ := cut
            obtain ⟨rfl, hu⟩ := cutWord_eq_some_iff.mp hsecond
            have hv : v ≠ [] := by
              rintro rfl
              exact hnot (.url hm hu)
            rw [fromLine_of_words ht hm hu hv]
            cases hmethod : methodFrom m with
            | none => exact ⟨none, fromParts_of_unknown hmethod u v⟩
            | some method =>
                have hname := methodFrom_eq_some_iff.mp hmethod
                have hne : u ≠ [] := by
                  rintro rfl
                  exact hnot (.target hname hv)
                obtain ⟨⟨path, query⟩, hparts⟩ := pathAndQueryFrom_returns_iff.mpr hne
                exact ⟨_, fromParts_of_target hname hparts v⟩

/-- A method and a space, and nothing else. -/
theorem not_returns : ¬ ∃ r, fromLine (bytes "GET ") = .ok r := by
  rintro ⟨r, hr⟩
  have hfails : (fromLine (bytes "GET ")).toOption = none := by decide +kernel
  rw [hr] at hfails
  cases hfails

/-! ## Targets with a query -/

theorem text_of_not_mem {line : Bytes} (h : 13 ∉ line) : text line = line :=
  List.takeWhile_eq_self_iff.mpr fun _ hb ↦ decide_eq_true fun heq ↦ h (heq ▸ hb)

/-- Behind a question mark is the query, and before it is the path. -/
theorem pathAndQueryFrom_of_query {u : Bytes} (hu : 63 ∉ u) (q : Bytes) :
    pathAndQueryFrom (u ++ 63 :: q) = .ok (u, 63 :: q) := by
  have hfind : find (bytes "?") (u ++ 63 :: q) = some u.length :=
    find_singleton_iff.mpr ⟨u, q, rfl, hu, rfl⟩
  simp only [pathAndQueryFrom, hfind, List.take_left, List.drop_left]

/-- Without a question mark the path is the target less its first byte. -/
theorem pathAndQueryFrom_of_no_query {u : Bytes} (hu : 63 ∉ u) (hne : u ≠ []) :
    pathAndQueryFrom u = .ok (if u = bytes "/" then bytes "index.html" else u.drop 1, []) := by
  have hfind : find (bytes "?") u = none := find_singleton_eq_none_iff.mpr hu
  simp only [pathAndQueryFrom, hfind]
  split
  · rfl
  · rfl

/-- A line of an accepted method, a target and an accepted version. -/
theorem fromLine_of_parts {m u v path query : Bytes} {method : Method} {version : Version}
    (hm : (m, method) ∈ methodNames) (hv : (v, version) ∈ versionNames)
    (hspace : 32 ∉ u) (hcr : 13 ∉ u) (hparts : pathAndQueryFrom u = .ok (path, query)) :
    fromLine (m ++ 32 :: (u ++ 32 :: v)) =
      .ok (some { method, url := u, path, query, version }) := by
  obtain ⟨hspace_m, hcr_m⟩ := not_mem_of_mem_methodNames hm
  obtain ⟨hne_v, hcr_v⟩ := not_mem_of_mem_versionNames hv
  have ht : text (m ++ 32 :: (u ++ 32 :: v)) = m ++ 32 :: (u ++ 32 :: v) :=
    text_of_not_mem (by simp [hcr, hcr_m, hcr_v])
  rw [fromLine_of_words ht hspace_m hspace hne_v, fromParts_of_target hm hparts,
    versionFrom_eq_some_iff.mpr hv]
  rfl

/-- With and without the query `q`, the target `u` is accepted, with the same path;
and the query is what was added. -/
def QueryNeutral (m u q v : Bytes) : Prop :=
  ∃ r r', fromLine (m ++ 32 :: ((u ++ 63 :: q) ++ 32 :: v)) = .ok (some r) ∧
    fromLine (m ++ 32 :: (u ++ 32 :: v)) = .ok (some r') ∧ r.path = r'.path ∧ r.query = 63 :: q

/-- The path of a target with a query is not that of the target alone. -/
theorem path_ne {u : Bytes} (hne : u ≠ []) :
    u ≠ if u = bytes "/" then bytes "index.html" else u.drop 1 := by
  split
  · rename_i hu
    rw [hu]
    decide +kernel
  · intro heq
    have hlen := congrArg List.length heq
    rw [List.length_drop] at hlen
    have := List.length_pos_iff.mpr hne
    omega

/-- **A query changes the path of every target.**  The branch for targets with a
query neither cuts off the first byte nor maps `/` to the index page. -/
theorem not_queryNeutral {m u q v : Bytes} {method : Method} {version : Version}
    (hm : (m, method) ∈ methodNames) (hv : (v, version) ∈ versionNames) (hne : u ≠ [])
    (hu : 32 ∉ u ∧ 13 ∉ u ∧ 63 ∉ u) (hq : 32 ∉ q ∧ 13 ∉ q) : ¬ QueryNeutral m u q v := by
  rintro ⟨r, r', hr, hr', hpath, -⟩
  obtain ⟨hspace, hcr, hquestion⟩ := hu
  rw [fromLine_of_parts hm hv (by simp [hspace, hq.1]) (by simp [hcr, hq.2])
    (pathAndQueryFrom_of_query hquestion q)] at hr
  rw [fromLine_of_parts hm hv hspace hcr (pathAndQueryFrom_of_no_query hquestion hne)] at hr'
  cases hr
  cases hr'
  exact path_ne hne hpath

/-- The page at `/hello.html`, with a query and without. -/
theorem not_queryNeutral_hello :
    ¬ QueryNeutral (bytes "GET") (bytes "/hello.html") (bytes "x") (bytes "HTTP/1.1") :=
  not_queryNeutral (by decide +kernel : (bytes "GET", Method.kGet) ∈ methodNames)
    (by decide +kernel : (bytes "HTTP/1.1", Version.kHttp11) ∈ versionNames)
    (by decide +kernel) (by decide +kernel) (by decide +kernel)

/-- The same page, by evaluation: a relative path without the query, and an absolute
one with it. -/
theorem paths_differ :
    ∃ r r', fromLine (bytes "GET /hello.html?x HTTP/1.1") = .ok (some r) ∧
      fromLine (bytes "GET /hello.html HTTP/1.1") = .ok (some r') ∧
      r.path = bytes "/hello.html" ∧ r'.path = bytes "hello.html" := by
  refine ⟨⟨.kGet, bytes "/hello.html?x", bytes "/hello.html", bytes "?x", .kHttp11⟩,
    ⟨.kGet, bytes "/hello.html", bytes "hello.html", [], .kHttp11⟩, ?_⟩
  decide +kernel

/-! ## The grammar, and the way back -/

/-- The text is a method, a target and a version, separated by single spaces. -/
def IsRequest (t : Bytes) (method : Method) (url : Bytes) (version : Version) : Prop :=
  ∃ m v, (m, method) ∈ methodNames ∧ (v, version) ∈ versionNames ∧ url ≠ [] ∧ 32 ∉ url ∧
    t = m ++ 32 :: (url ++ 32 :: v)

/-- What `from` returns a request line for has the form of one. -/
theorem isRequest_of_fromLine {line : Bytes} {r : RequestLine}
    (h : fromLine line = .ok (some r)) : IsRequest (text line) r.method r.url r.version := by
  rw [fromLine_eq] at h
  cases hfirst : cutWord (text line) with
  | none => rw [hfirst] at h; cases h
  | some cut =>
      obtain ⟨m, rest⟩ := cut
      obtain ⟨ht, -⟩ := cutWord_eq_some_iff.mp hfirst
      simp only [hfirst] at h
      split at h
      · cases h
      cases hsecond : cutWord rest with
      | none => rw [hsecond] at h; cases h
      | some cut =>
          obtain ⟨u, v⟩ := cut
          obtain ⟨rfl, hu⟩ := cutWord_eq_some_iff.mp hsecond
          simp only [hsecond] at h
          split at h
          · cases h
          cases hmethod : methodFrom m with
          | none =>
              rw [fromParts_of_unknown hmethod] at h
              cases h
          | some method =>
              have hname := methodFrom_eq_some_iff.mp hmethod
              by_cases hne : u = []
              · rw [hne, fromParts_of_no_target hname] at h
                cases h
              obtain ⟨⟨path, query⟩, hparts⟩ := pathAndQueryFrom_returns_iff.mpr hne
              rw [fromParts_of_target hname hparts] at h
              obtain ⟨version, hversion, rfl⟩ := Option.map_eq_some_iff.mp (Except.ok.inj h)
              exact ⟨m, v, hname, versionFrom_eq_some_iff.mp hversion, hne, hu, ht⟩

/-- What has the form of a request line is accepted. -/
theorem fromLine_of_isRequest {line url : Bytes} {method : Method} {version : Version}
    (h : IsRequest (text line) method url version) :
    ∃ r, fromLine line = .ok (some r) ∧ r.method = method ∧ r.url = url ∧ r.version = version := by
  obtain ⟨m, v, hm, hv, hne, hspace, ht⟩ := h
  obtain ⟨⟨path, query⟩, hparts⟩ := pathAndQueryFrom_returns_iff.mpr hne
  refine ⟨{ method, url, path, query, version }, ?_, rfl, rfl, rfl⟩
  rw [fromLine_of_words ht (not_mem_of_mem_methodNames hm).1 hspace
    (not_mem_of_mem_versionNames hv).1, fromParts_of_target hm hparts,
    versionFrom_eq_some_iff.mpr hv]
  rfl

/-- `to_string` puts the parts together again. -/
theorem toString_of_isRequest {t : Bytes} {r : RequestLine}
    (h : IsRequest t r.method r.url r.version) : toString r = t := by
  obtain ⟨m, v, hm, hv, -, -, rfl⟩ := h
  have hspace : bytes " " = [32] := by decide +kernel
  simp only [methodNames, versionNames, List.mem_cons, Prod.mk.injEq, List.not_mem_nil,
    or_false] at hm hv
  rcases hm with ⟨rfl, hm⟩ | ⟨rfl, hm⟩ | ⟨rfl, hm⟩ <;> rcases hv with ⟨rfl, hv⟩ | ⟨rfl, hv⟩ <;>
    simp only [toString, hm, hv, hspace, List.append_assoc, List.cons_append, List.nil_append]

/-- **Grammar and round trip.**  `from` returns a request line for exactly the lines
whose text, up to the first carriage return, is an accepted method, a target without
spaces and an accepted version, separated by single spaces; these are its parts,
`to_string` gives back the text, and from that `from` returns the same again. -/
theorem grammar (line : Bytes) :
    (∀ method url version, IsRequest (text line) method url version ↔
      ∃ r, fromLine line = .ok (some r) ∧ r.method = method ∧ r.url = url ∧
        r.version = version) ∧
    ∀ r, fromLine line = .ok (some r) →
      toString r = text line ∧ fromLine (toString r) = .ok (some r) := by
  refine ⟨fun method url version ↦ ⟨fromLine_of_isRequest, ?_⟩, ?_⟩
  · rintro ⟨r, hr, rfl, rfl, rfl⟩
    exact isRequest_of_fromLine hr
  · intro r hr
    have hstring := toString_of_isRequest (isRequest_of_fromLine hr)
    refine ⟨hstring, ?_⟩
    -- the text has no carriage return left, so it is cut as it was
    have htext : text (text line) = text line := List.takeWhile_idem
    rw [hstring, fromLine_eq, htext, ← fromLine_eq, hr]

end Wuduo.Http.RequestLine
