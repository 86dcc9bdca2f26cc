import Wuduo.Http.Framing

/-!
# Reading replies back

`decode` is the reader of a reply: a status line, header lines up to the first
empty one, and as many bytes of body as `Content-Length` says.  It is written from
the format alone, and shares with the server only the notion of a line.

`decode_appendTo` says that what `append_to` writes for a response is read back as
what the response was set to.  It is in two halves, which meet at a response with
header entries that can be read back: `decode_head`, that such a response is read
back, and `build_spec`, what a response is after any sequence of setters.
-/

namespace Wuduo.Http

open Search HttpContext

/-! ## The reader -/

/-- What a reply says to its reader. -/
structure Reply where
  status : Nat
  phrase : Bytes
  headers : List (Bytes × Bytes)
  /-- the value of `Content-Length` -/
  length : Nat
  body : Bytes
  /-- what is left over behind the body -/
  rest : Bytes
deriving DecidableEq, Repr

namespace Reply

/-- The value of a decimal numeral. -/
def readNumeral (text : Bytes) : Option Nat :=
  if text ≠ [] ∧ text.all isDigit then
    some (text.foldl (fun n d ↦ 10 * n + (d.toNat - 48)) 0)
  else none

/-- The status and the phrase in a status line. -/
def readStatusLine (line : Bytes) : Option (Nat × Bytes) := do
  if bytes "HTTP/1.1 " <+: line then
    let line := line.drop 9
    let posSpace ← find (bytes " ") line
    return (← readNumeral (line.take posSpace), line.drop (posSpace + 1))
  else none

/-- The name and the value in a header line. -/
def readHeader (line : Bytes) : Option (Bytes × Bytes) := do
  let posColon ← find (bytes ":") line
  if posColon ≠ 0 ∧ bytes ": " <+: line.drop posColon then
    return (line.take posColon, line.drop (posColon + 2))
  else none

/-- The headers up to the first empty line, and what follows it. -/
def readHeaders (s : Bytes) : Option (List (Bytes × Bytes) × Bytes) :=
  match _h : cutLine s with
  | none => none
  | some (line, rest) =>
      if line = [] then some ([], rest)
      else do
        let header ← readHeader line
        let (headers, rest) ← readHeaders rest
        return (header :: headers, rest)
termination_by s.length
decreasing_by exact length_lt_of_cutLine (by assumption)

/-- Reads a reply. -/
def decode (s : Bytes) : Option Reply := do
  let (line, s) ← cutLine s
  let (status, phrase) ← readStatusLine line
  let (headers, s) ← readHeaders s
  let length ← readNumeral (← headers.lookup (bytes "Content-Length"))
  if length ≤ s.length then
    return { status, phrase, headers, length, body := s.take length, rest := s.drop length }
  else none

/-! ## What can be read back -/

/-- A text without CR and LF. -/
structure IsLine (text : Bytes) : Prop where
  noCR : 13 ∉ text
  noLF : 10 ∉ text

/-- A name and a value that can be written on a header line. -/
structure IsEntry (entry : Bytes × Bytes) : Prop where
  name : IsLine entry.1
  value : IsLine entry.2
  nonempty : entry.1 ≠ []
  noColon : 58 ∉ entry.1

instance (text : Bytes) : Decidable (IsLine text) :=
  decidable_of_iff (13 ∉ text ∧ 10 ∉ text) ⟨fun h ↦ ⟨h.1, h.2⟩, fun h ↦ ⟨h.noCR, h.noLF⟩⟩

instance (entry : Bytes × Bytes) : Decidable (IsEntry entry) :=
  decidable_of_iff (IsLine entry.1 ∧ IsLine entry.2 ∧ entry.1 ≠ [] ∧ 58 ∉ entry.1)
    ⟨fun h ↦ ⟨h.1, h.2.1, h.2.2.1, h.2.2.2⟩, fun h ↦ ⟨h.name, h.value, h.nonempty, h.noColon⟩⟩

theorem IsLine.append {a b : Bytes} (ha : IsLine a) (hb : IsLine b) : IsLine (a ++ b) where
  noCR hmem := (List.mem_append.mp hmem).elim ha.noCR hb.noCR
  noLF hmem := (List.mem_append.mp hmem).elim ha.noLF hb.noLF

theorem readNumeral_of_isNumeral {text : Bytes} {n : Nat} (h : IsNumeral text n) :
    readNumeral text = some n := by
  rw [readNumeral, if_pos ⟨h.nonempty, List.all_eq_true.mpr h.digits⟩, h.value_eq]

theorem not_crlf_infix {line : Bytes} (h : 13 ∉ line) : ¬ crlf <:+: line :=
  fun hin ↦ h (hin.subset List.mem_cons_self)

/-- A line ends at its line end. -/
theorem cutLine_of_not_mem {line : Bytes} (h : 13 ∉ line) (rest : Bytes) :
    cutLine (line ++ crlf ++ rest) = some (line, rest) :=
  cutLine_eq_some_iff.mpr ⟨rfl, not_crlf_infix h⟩

theorem not_mem_of_isDigit {text : Bytes} (h : ∀ b ∈ text, isDigit b = true) {b : UInt8}
    (hb : isDigit b = false) : b ∉ text := by
  intro hmem
  rw [h b hmem] at hb
  cases hb

theorem readStatusLine_spec (code : Nat) (phrase : Bytes) :
    readStatusLine (bytes "HTTP/1.1 " ++ decimal code ++ bytes " " ++ phrase)
      = some (code, phrase) := by
  have hnumeral := isNumeral_decimal code
  have hspace : (32 : UInt8) ∉ decimal code := not_mem_of_isDigit hnumeral.digits (by decide)
  have hdrop : (bytes "HTTP/1.1 " ++ decimal code ++ bytes " " ++ phrase).drop 9
      = decimal code ++ 32 :: phrase := by
    rw [List.append_assoc, List.append_assoc, List.drop_left' (by decide)]
    rfl
  have hfind : find (bytes " ") (decimal code ++ 32 :: phrase) = some (decimal code).length :=
    find_singleton_iff.mpr ⟨_, phrase, rfl, hspace, rfl⟩
  have hrest : (decimal code ++ 32 :: phrase).drop ((decimal code).length + 1) = phrase := by
    rw [← List.drop_drop, List.drop_left]
    rfl
  rw [readStatusLine, if_pos (by rw [List.append_assoc, List.append_assoc]; exact ⟨_, rfl⟩)]
  simp only [hdrop, hfind, bind, Option.bind_some, List.take_left, hrest,
    readNumeral_of_isNumeral hnumeral, pure]

theorem readHeader_spec {entry : Bytes × Bytes} (h : IsEntry entry) :
    readHeader (entry.1 ++ bytes ": " ++ entry.2) = some entry := by
  obtain ⟨name, value⟩ := entry
  have htext : name ++ bytes ": " ++ value = name ++ 58 :: 32 :: value := by
    rw [List.append_assoc]
    rfl
  have hfind : find (bytes ":") (name ++ 58 :: 32 :: value) = some name.length :=
    find_singleton_iff.mpr ⟨name, _, rfl, h.noColon, rfl⟩
  have hvalue : (name ++ 58 :: 32 :: value).drop (name.length + 2) = value := by
    rw [← List.drop_drop, List.drop_left]
    rfl
  have hpos : name.length ≠ 0 := fun hlen ↦ h.nonempty (List.length_eq_zero_iff.mp hlen)
  simp only [readHeader, htext, hfind, bind, Option.bind_some, List.drop_left, List.take_left,
    hvalue, pure]
  rw [if_pos ⟨hpos, value, rfl⟩]

/-- The header lines are read one after the other. -/
theorem readHeaders_spec {entries : List (Bytes × Bytes)} (h : ∀ entry ∈ entries, IsEntry entry)
    (rest : Bytes) :
    readHeaders (entries.flatMap HttpResponse.headerLine ++ crlf ++ rest)
      = some (entries, rest) := by
  induction entries with
  | nil =>
      rw [readHeaders]
      split
      · rename_i hcut
        rw [List.flatMap_nil, cutLine_of_not_mem List.not_mem_nil] at hcut
        cases hcut
      · rename_i hcut
        rw [List.flatMap_nil, cutLine_of_not_mem List.not_mem_nil] at hcut
        cases hcut
        rfl
  | cons entry entries ih =>
      obtain ⟨hentry, hentries⟩ := List.forall_mem_cons.mp h
      have hline : IsLine (entry.1 ++ bytes ": " ++ entry.2) :=
        (hentry.name.append (by decide)).append hentry.value
      have hcut := cutLine_of_not_mem hline.noCR
        (entries.flatMap HttpResponse.headerLine ++ crlf ++ rest)
      have htext : (entry :: entries).flatMap HttpResponse.headerLine ++ crlf ++ rest
          = entry.1 ++ bytes ": " ++ entry.2 ++ crlf
            ++ (entries.flatMap HttpResponse.headerLine ++ crlf ++ rest) := by
        rw [List.flatMap_cons, HttpResponse.headerLine]
        simp only [List.append_assoc]
      rw [htext, readHeaders]
      split
      · rename_i hcut'
        rw [hcut] at hcut'
        cases hcut'
      · rename_i hcut'
        rw [hcut] at hcut'
        cases hcut'
        have hne : entry.1 ++ bytes ": " ++ entry.2 ≠ [] := by simp [hentry.nonempty]
        rw [if_neg hne, readHeader_spec hentry, ih hentries]
        rfl

/-- The header line that is written for the size of a body. -/
theorem isEntry_contentLength (n : Nat) : IsEntry (bytes "Content-Length", decimal n) where
  name := (⟨by decide, by decide⟩ : IsLine (bytes "Content-Length"))
  value := ⟨not_mem_of_isDigit (isNumeral_decimal n).digits (by decide),
    not_mem_of_isDigit (isNumeral_decimal n).digits (by decide)⟩
  nonempty := (by decide : bytes "Content-Length" ≠ [])
  noColon := (by decide : 58 ∉ bytes "Content-Length")

end Reply

namespace HttpResponse

open Reply

/-- A response whose phrase and header entries can be read back. -/
structure Readable (r : HttpResponse) : Prop where
  phrase : IsLine r.phrase
  entry : ∀ entry ∈ r.headers, IsEntry entry

theorem isLine_statusLine {code : StatusCode} {phrase : Bytes} (h : IsLine phrase) :
    IsLine (bytes "HTTP/1.1 " ++ decimal code.toNat ++ bytes " " ++ phrase) :=
  IsLine.append (by cases code <;> decide) h

/-- The headers as they are written, the length of the body first. -/
def entries (r : HttpResponse) (it : Iteration) : List (Bytes × Bytes) :=
  (bytes "Content-Length", decimal r.entityBody.readableBytes) :: it.order r.headers

theorem Readable.isEntry {r : HttpResponse} (h : r.Readable) (it : Iteration) :
    ∀ entry ∈ r.entries it, IsEntry entry := by
  intro entry hentry
  rcases List.mem_cons.mp hentry with rfl | hentry
  · exact isEntry_contentLength _
  · exact h.entry entry ((it.perm r.headers).mem_iff.mp hentry)

theorem head_eq (r : HttpResponse) (it : Iteration) :
    r.head it = bytes "HTTP/1.1 " ++ decimal r.statusCode.toNat ++ bytes " " ++ r.phrase ++ crlf ++
      (r.entries it).flatMap headerLine ++ crlf := by
  have hlength : headerLine (bytes "Content-Length", decimal r.entityBody.readableBytes)
      = r.lengthText := rfl
  rw [head, statusText, entries, List.flatMap_cons, hlength]
  simp only [List.append_assoc]

/-- **A response is read back.** -/
theorem decode_head {r : HttpResponse} (h : r.Readable) (it : Iteration) (rest : Bytes) :
    decode (r.head it ++ r.entityBody.peek ++ rest) = some {
      status := r.statusCode.toNat
      phrase := r.phrase
      headers := (bytes "Content-Length", decimal r.entityBody.readableBytes) :: it.order r.headers
      length := r.entityBody.readableBytes
      body := r.entityBody.peek
      rest } := by
  have htext : r.head it ++ r.entityBody.peek ++ rest =
      bytes "HTTP/1.1 " ++ decimal r.statusCode.toNat ++ bytes " " ++ r.phrase ++ crlf ++
        ((r.entries it).flatMap headerLine ++ crlf ++ (r.entityBody.peek ++ rest)) := by
    rw [head_eq]
    simp only [List.append_assoc]
  have hlen : r.entityBody.readableBytes = r.entityBody.peek.length := r.entityBody.length_peek.symm
  have hlookup : (r.entries it).lookup (bytes "Content-Length") =
      some (decimal r.entityBody.readableBytes) := List.lookup_cons_self
  simp only [decode, htext, cutLine_of_not_mem (isLine_statusLine h.phrase).noCR,
    readStatusLine_spec, readHeaders_spec (h.isEntry it), bind, Option.bind_some, hlookup,
    readNumeral_of_isNumeral (isNumeral_decimal _), pure]
  rw [if_pos (by rw [List.length_append, hlen]; exact Nat.le_add_right _ _), entries, hlen,
    List.take_left, List.drop_left]

/-! ## Header maps -/

/-- The entry with this key, if there is one, is overwritten in its place. -/
theorem keys_assign (key value : Bytes) (entries : List (Bytes × Bytes)) :
    (assign key value entries).map Prod.fst =
      if key ∈ entries.map Prod.fst then entries.map Prod.fst
      else entries.map Prod.fst ++ [key] := by
  induction entries with
  | nil => rfl
  | cons entry entries ih =>
      obtain ⟨k, v⟩ := entry
      rw [assign]
      by_cases hk : k = key
      · rw [if_pos hk, if_pos (by simp [hk])]
        rfl
      · rw [if_neg hk, List.map_cons, ih, List.map_cons]
        by_cases hmem : key ∈ entries.map Prod.fst
        · rw [if_pos hmem, if_pos (List.mem_cons_of_mem _ hmem)]
        · rw [if_neg hmem, if_neg]
          · rfl
          · rintro (_ | ⟨_, hmem'⟩)
            · exact hk rfl
            · exact hmem hmem'

theorem nodup_assign {key value : Bytes} {entries : List (Bytes × Bytes)}
    (h : (entries.map Prod.fst).Nodup) : ((assign key value entries).map Prod.fst).Nodup := by
  rw [keys_assign]
  split
  · exact h
  · rename_i hnew
    refine List.nodup_append.mpr ⟨h, by simp, ?_⟩
    intro k hk k' hk' heq
    rw [List.mem_singleton.mp hk'] at heq
    exact hnew (heq ▸ hk)

theorem mem_assign {key value : Bytes} {entries : List (Bytes × Bytes)}
    (h : (entries.map Prod.fst).Nodup) {name v : Bytes} :
    (name, v) ∈ assign key value entries ↔
      if name = key then v = value else (name, v) ∈ entries := by
  induction entries with
  | nil =>
      rw [assign, List.mem_singleton, Prod.mk.injEq]
      split
      · rename_i hname
        exact and_iff_right hname
      · rename_i hname
        exact iff_of_false (fun heq ↦ hname heq.1) List.not_mem_nil
  | cons entry entries ih =>
      obtain ⟨k, w⟩ := entry
      obtain ⟨hnew, htail⟩ := List.nodup_cons.mp h
      rw [assign]
      by_cases hk : k = key
      · subst hk
        rw [if_pos rfl, List.mem_cons, Prod.mk.injEq]
        split
        · rename_i hname
          subst hname
          refine ⟨fun hor ↦ hor.elim And.right fun hmem ↦ ?_, fun hv ↦ .inl ⟨rfl, hv⟩⟩
          exact absurd (List.mem_map_of_mem (f := Prod.fst) hmem) hnew
        · rename_i hname
          rw [List.mem_cons, Prod.mk.injEq]
          simp only [hname, false_and, false_or]
      · rw [if_neg hk, List.mem_cons, ih htail, List.mem_cons, Prod.mk.injEq]
        by_cases hname : name = key
        · subst hname
          simp only [if_true, Ne.symm hk, false_and, false_or]
        · simp only [if_neg hname]

/-- The header map that a sequence of assignments leads to. -/
def assignAll (assignments : List (Bytes × Bytes)) : List (Bytes × Bytes) :=
  assignments.foldl (fun entries entry ↦ assign entry.1 entry.2 entries) []

/-- The value that is assigned last to a name. -/
def lastValue (assignments : List (Bytes × Bytes)) (name : Bytes) : Option Bytes :=
  assignments.reverse.lookup name

theorem assignAll_concat (assignments : List (Bytes × Bytes)) (entry : Bytes × Bytes) :
    assignAll (assignments ++ [entry]) = assign entry.1 entry.2 (assignAll assignments) := by
  rw [assignAll, List.foldl_append]
  rfl

theorem nodup_assignAll (assignments : List (Bytes × Bytes)) :
    ((assignAll assignments).map Prod.fst).Nodup := by
  induction assignments using List.reverseRecOn with
  | nil => exact List.nodup_nil
  | append_singleton assignments entry ih =>
      rw [assignAll_concat]
      exact nodup_assign ih

/-- Each name has the value that was assigned to it last. -/
@[simp] theorem mem_assignAll {assignments : List (Bytes × Bytes)} {name value : Bytes} :
    (name, value) ∈ assignAll assignments ↔ lastValue assignments name = some value := by
  induction assignments using List.reverseRecOn with
  | nil => exact iff_of_false List.not_mem_nil (by simp [lastValue])
  | append_singleton assignments entry ih =>
      rw [assignAll_concat, mem_assign (nodup_assignAll assignments), ih, lastValue, lastValue,
        List.reverse_append, List.reverse_singleton, List.singleton_append, List.lookup_cons]
      by_cases hname : name = entry.1
      · rw [if_pos hname, beq_iff_eq.mpr hname, Option.some.injEq]
        exact eq_comm
      · rw [if_neg hname, beq_eq_false_iff_ne.mpr hname]

/-- An entry of the map was assigned. -/
theorem mem_of_mem_assignAll {assignments : List (Bytes × Bytes)} {entry : Bytes × Bytes}
    (h : entry ∈ assignAll assignments) : entry ∈ assignments := by
  obtain ⟨l₁, l₂, hsplit, -⟩ := List.lookup_eq_some_iff.mp (mem_assignAll.mp h)
  rw [← List.mem_reverse, hsplit]
  exact List.mem_append_right _ List.mem_cons_self

/-! ## Setters -/

/-- A call of one of the setters. -/
inductive Setter where
  | setStatusCode (code : StatusCode)
  | setCloseConnection (closeConnection : Bool)
  | setContentType (contentType : Bytes)
  | addHeader (key value : Bytes)
  | setEntityBody (body : Bytes)
deriving DecidableEq, Repr

namespace Setter

def apply (r : HttpResponse) : Setter → Except NoReturn HttpResponse
  | .setStatusCode code => .ok (r.setStatusCode code)
  | .setCloseConnection closeConnection => .ok (r.setCloseConnection closeConnection)
  | .setContentType contentType => .ok (r.setContentType contentType)
  | .addHeader key value => .ok (r.addHeader key value)
  | .setEntityBody body => r.setEntityBody body

/-- What a setter assigns in the header map. -/
def assignment : Setter → Option (Bytes × Bytes)
  | .setCloseConnection closeConnection =>
      some (bytes "Connection", if closeConnection then bytes "close" else bytes "keep-alive")
  | .setContentType contentType => some (bytes "Content-Type", contentType)
  | .addHeader key value => some (key, value)
  | _ => none

def status : Setter → Option StatusCode
  | .setStatusCode code => some code
  | _ => none

/-- What a setter adds to the body. -/
def body : Setter → Bytes
  | .setEntityBody body => body
  | _ => []

/-- What is assigned can be written on a header line, and is not the length of the body. -/
def Valid (s : Setter) : Prop :=
  ∀ entry ∈ s.assignment, IsEntry entry ∧ entry.1 ≠ bytes "Content-Length"

instance (s : Setter) : Decidable s.Valid :=
  inferInstanceAs (Decidable (∀ entry ∈ s.assignment, _))

end Setter

/-- A response to which these setters were applied. -/
def build (closeConnection : Bool) (setters : List Setter) : Except NoReturn HttpResponse :=
  setters.foldlM Setter.apply (new closeConnection)

/-- The status code that is set last. -/
def statusOf (setters : List Setter) : StatusCode :=
  (setters.filterMap Setter.status).getLast?.getD .k404NotFound

/-- All of the body. -/
def bodyOf (setters : List Setter) : Bytes := setters.flatMap Setter.body

/-- What is assigned in the header map, by the constructor first. -/
def assignmentsOf (closeConnection : Bool) (setters : List Setter) : List (Bytes × Bytes) :=
  [Setter.setCloseConnection closeConnection, .setContentType MimeType.kDefault].filterMap
    Setter.assignment ++ setters.filterMap Setter.assignment

theorem build_concat {closeConnection : Bool} {setters : List Setter} {r : HttpResponse}
    (h : build closeConnection setters = .ok r) (s : Setter) :
    build closeConnection (setters ++ [s]) = s.apply r := by
  rw [build, List.foldlM_append, show setters.foldlM Setter.apply _ = .ok r from h]
  exact bind_pure (s.apply r)

/-- **What the setters lead to.** -/
theorem build_spec (closeConnection : Bool) (setters : List Setter) :
    ∃ r, build closeConnection setters = .ok r ∧
      r.headers = assignAll (assignmentsOf closeConnection setters) ∧
      r.statusCode = statusOf setters ∧ r.phrase = (statusOf setters).phrase ∧
      r.entityBody.peek = bodyOf setters := by
  induction setters using List.reverseRecOn with
  | nil => exact ⟨new closeConnection, rfl, rfl, rfl, rfl, Buffer.peek_ofSize _⟩
  | append_singleton setters s ih =>
      obtain ⟨r, hbuild, hheaders, hcode, hphrase, hbody⟩ := ih
      have hconcat : ∀ entry, s.assignment = some entry →
          assignAll (assignmentsOf closeConnection (setters ++ [s])) =
            assign entry.1 entry.2 r.headers := by
        intro entry hentry
        rw [hheaders, ← assignAll_concat, assignmentsOf, assignmentsOf, List.filterMap_append,
          List.filterMap_cons_some hentry, List.filterMap_nil, List.append_assoc]
      have hsame : s.assignment = none →
          assignAll (assignmentsOf closeConnection (setters ++ [s])) = r.headers := by
        intro hnone
        rw [hheaders, assignmentsOf, assignmentsOf, List.filterMap_append,
          List.filterMap_cons_none hnone, List.filterMap_nil, List.append_nil]
      rw [build_concat hbuild]
      have hstatus : statusOf (setters ++ [s]) = s.status.getD (statusOf setters) := by
        rw [statusOf, List.filterMap_append]
        cases hs : s.status with
        | none =>
            rw [List.filterMap_cons_none hs, List.filterMap_nil, List.append_nil]
            rfl
        | some code =>
            rw [List.filterMap_cons_some hs, List.filterMap_nil, List.getLast?_concat]
            rfl
      have hbodies : bodyOf (setters ++ [s]) = r.entityBody.peek ++ s.body := by
        rw [bodyOf, List.flatMap_append, List.flatMap_singleton, hbody]
        rfl
      rw [hstatus, hbodies]
      cases s with
      | setStatusCode code => exact ⟨_, rfl, (hsame rfl).symm, rfl, rfl, (List.append_nil _).symm⟩
      | setCloseConnection close =>
          exact ⟨_, rfl, (hconcat _ rfl).symm, hcode, hphrase, (List.append_nil _).symm⟩
      | setContentType contentType =>
          exact ⟨_, rfl, (hconcat _ rfl).symm, hcode, hphrase, (List.append_nil _).symm⟩
      | addHeader key value =>
          exact ⟨_, rfl, (hconcat _ rfl).symm, hcode, hphrase, (List.append_nil _).symm⟩
      | setEntityBody body =>
          obtain ⟨b, hok, hpeek⟩ := r.entityBody.append_spec body
          refine ⟨{ r with entityBody := b }, ?_, (hsame rfl).symm, hcode, hphrase, hpeek⟩
          simp only [Setter.apply, setEntityBody, hok, ok_bind, pure_eq_ok]

theorem isEntry_connection (closeConnection : Bool) :
    IsEntry (bytes "Connection",
      if closeConnection then bytes "close" else bytes "keep-alive") := by
  cases closeConnection <;> exact ⟨⟨by decide, by decide⟩, ⟨by decide, by decide⟩, by decide,
    by decide⟩

theorem isEntry_kDefault : IsEntry (bytes "Content-Type", MimeType.kDefault) :=
  ⟨⟨by decide, by decide⟩, ⟨by decide, by decide⟩, by decide, by decide⟩

theorem isLine_phrase (code : StatusCode) : IsLine code.phrase := by
  cases code <;> exact ⟨by decide, by decide⟩

/-- Valid setters lead to a response that can be read back, in which no header is the
length of the body. -/
theorem isEntry_of_valid {closeConnection : Bool} {setters : List Setter}
    (h : ∀ s ∈ setters, s.Valid) {entry : Bytes × Bytes}
    (hentry : entry ∈ assignAll (assignmentsOf closeConnection setters)) :
    IsEntry entry ∧ entry.1 ≠ bytes "Content-Length" := by
  rcases List.mem_append.mp (mem_of_mem_assignAll hentry) with hmem | hmem
  · rcases List.mem_cons.mp hmem with rfl | hmem
    · exact ⟨isEntry_connection closeConnection, (by decide : bytes "Connection" ≠ _)⟩
    · rw [List.mem_singleton.mp hmem]
      exact ⟨isEntry_kDefault, (by decide : bytes "Content-Type" ≠ _)⟩
  · obtain ⟨s, hs, hassign⟩ := List.mem_filterMap.mp hmem
    exact h s hs entry hassign

/-! ## Decoding what was set -/

theorem length_decimal_le {n k : Nat} (hk : 0 < k) (h : n < 10 ^ k) : (decimal n).length ≤ k := by
  rw [decimal, List.length_map]
  exact (Nat.length_toDigits_le_iff (by decide) hk).mpr h

/-- A number of at most 13 digits leaves room for the NUL behind the text. -/
theorem scratchTexts_lt {r : HttpResponse} (h : r.entityBody.readableBytes < 10 ^ 13) :
    ∀ text ∈ r.scratchTexts, text.length < kScratch := by
  have hstatus : (decimal r.statusCode.toNat).length ≤ 3 :=
    length_decimal_le (by decide) (by cases r.statusCode <;> decide)
  have hlength : (decimal r.entityBody.readableBytes).length ≤ 13 :=
    length_decimal_le (by decide) h
  have hprefix : (bytes "HTTP/1.1 ").length = 9 := by decide
  have hspace : (bytes " ").length = 1 := by decide
  have hname : (bytes "Content-Length: ").length = 16 := by decide
  have hcrlf : crlf.length = 2 := rfl
  intro text htext
  rw [scratchTexts, List.mem_cons, List.mem_singleton] at htext
  rcases htext with rfl | rfl
  · simp only [statusText, List.length_append, kScratch]
    omega
  · simp only [lengthText, List.length_append, kScratch]
    omega

/-- **Responses decode to what was set.**  Whatever the sequence of setters and the
buffer, `append_to` adds to the buffer a text that is read back as the status code that
was set last, the length of the body, each header once with its last value, and the
body; nothing is left over, and the scratch buffer is long enough. -/
theorem decode_appendTo (closeConnection : Bool) (setters : List Setter) (it : Iteration)
    (output : Buffer) (hvalid : ∀ s ∈ setters, s.Valid)
    (hbody : (bodyOf setters).length < 10 ^ 13) :
    ∃ r b added headers, build closeConnection setters = .ok r ∧ r.appendTo it output = .ok b ∧
      b.peek = output.peek ++ added ∧
      (∀ text ∈ r.scratchTexts, text.length < kScratch) ∧
      decode added = some {
        status := (statusOf setters).toNat
        phrase := (statusOf setters).phrase
        headers := (bytes "Content-Length", decimal (bodyOf setters).length) :: headers
        length := (bodyOf setters).length
        body := bodyOf setters
        rest := [] } ∧
      (headers.map Prod.fst).Nodup ∧ bytes "Content-Length" ∉ headers.map Prod.fst ∧
      ∀ name value, (name, value) ∈ headers ↔
        lastValue (assignmentsOf closeConnection setters) name = some value := by
  obtain ⟨r, hbuild, hheaders, hcode, hphrase, hpeek⟩ := build_spec closeConnection setters
  have hsize : r.entityBody.readableBytes = (bodyOf setters).length := by
    rw [← Buffer.length_peek, hpeek]
  obtain ⟨b, hok, hadded⟩ := r.appendTo_spec it output
  have hentries : ∀ entry ∈ r.headers, IsEntry entry ∧ entry.1 ≠ bytes "Content-Length" :=
    fun entry hentry ↦ isEntry_of_valid hvalid (hheaders ▸ hentry)
  have hreadable : r.Readable :=
    ⟨hphrase ▸ isLine_phrase _, fun entry hentry ↦ (hentries entry hentry).1⟩
  have hdecode := decode_head hreadable it []
  rw [List.append_nil, hcode, hphrase, hpeek, hsize] at hdecode
  have hperm := it.perm r.headers
  refine ⟨r, b, r.head it ++ r.entityBody.peek, it.order r.headers, hbuild, hok,
    by rw [hadded, List.append_assoc], scratchTexts_lt (hsize ▸ hbody), ?_, ?_, ?_, ?_⟩
  · rw [hpeek]
    exact hdecode
  · rw [(hperm.map Prod.fst).nodup_iff, hheaders]
    exact nodup_assignAll _
  · intro hmem
    obtain ⟨entry, hentry, hname⟩ := List.mem_map.mp hmem
    exact (hentries entry (hperm.mem_iff.mp hentry)).2 hname
  · intro name value
    rw [hperm.mem_iff, hheaders, mem_assignAll]

/-- A header that is set twice, and a body that looks like the end of a head. -/
def sampleSetters : List Setter := [
  .addHeader (bytes "X") (bytes "a"),
  .setStatusCode .k200Ok,
  .addHeader (bytes "X") (bytes " b: c"),
  .setEntityBody (bytes "\r\n\r\n")]

theorem decode_appendTo_run :
    ∃ r b added headers, build true sampleSetters = .ok r ∧
      r.appendTo .listed (Buffer.ofSize 0) = .ok b ∧ b.peek = (Buffer.ofSize 0).peek ++ added ∧
      (decode added).map Reply.headers = some ((bytes "Content-Length", bytes "4") :: headers) ∧
      (bytes "X", bytes " b: c") ∈ headers := by
  obtain ⟨r, b, added, headers, hbuild, hok, hadded, -, hdecode, -, -, hheaders⟩ :=
    decode_appendTo true sampleSetters .listed (Buffer.ofSize 0) (by decide +kernel)
      (by decide +kernel)
  have hlength : decimal (bodyOf sampleSetters).length = bytes "4" := by decide +kernel
  rw [hlength] at hdecode
  exact ⟨r, b, added, headers, hbuild, hok, hadded, by rw [hdecode, Option.map_some],
    (hheaders _ _).mpr (by decide +kernel)⟩

end HttpResponse

end Wuduo.Http
