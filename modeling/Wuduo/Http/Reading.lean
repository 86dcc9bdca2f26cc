import Wuduo.Http.HttpResponse
import Mathlib.Tactic.Common

/-!
# Reading a file into a reply

`analyse` reads a file until as many bytes are buffered as `::fstat` said there are.
What becomes of it depends on the reads through the running totals of the bytes
buffered: the loop goes on while they are below the size, and the one that is not
has to be the size.

## Results

* `ends_iff`: the loop ends exactly if a read fails, or the file holds as many bytes
  as were expected.  At an early end of file it goes on for ever.
* `sizeAsserted_iff`: the assertion holds exactly if the first total that is not below
  the size is the size.  A file that has grown can step over it.
-/

namespace Wuduo.Http.HttpResponse

/-! ## Totals -/

/-- The numbers of bytes buffered after each of the reads up to the first that fails,
if there were `start` before. -/
def totals (start : Nat) : List ReadResult → List Nat
  | [] | .failed _ :: _ => []
  | .read data :: reads => (start + data.length) :: totals (start + data.length) reads

/-- The number of bytes a read delivers. -/
def count : ReadResult → Nat
  | .failed _ => 0
  | .read data => data.length

/-- The number of bytes all of the reads deliver. -/
def delivered (reads : List ReadResult) : Nat := (reads.map count).sum

theorem le_of_mem_totals {start t : Nat} {reads : List ReadResult}
    (h : t ∈ totals start reads) : t ≤ start + delivered reads := by
  induction reads generalizing start with
  | nil => cases h
  | cons answer reads ih =>
      cases answer with
      | failed errno => cases h
      | read data =>
          simp only [delivered, count, List.map_cons, List.sum_cons] at ih ⊢
          rcases List.mem_cons.mp h with rfl | h
          · omega
          · have := ih h
            omega

/-- The last total is what all the reads deliver. -/
theorem mem_totals {start : Nat} {reads : List ReadResult} (hne : reads ≠ [])
    (hreads : ∀ answer ∈ reads, ∃ data, answer = .read data) :
    start + delivered reads ∈ totals start reads := by
  induction reads generalizing start with
  | nil => exact absurd rfl hne
  | cons answer reads ih =>
      obtain ⟨data, rfl⟩ := hreads answer List.mem_cons_self
      have htotal : start + delivered (.read data :: reads)
          = start + data.length + delivered reads := by
        simp [delivered, count, Nat.add_assoc]
      rw [htotal, totals]
      cases reads with
      | nil => exact List.mem_cons_self
      | cons answer' reads =>
          exact List.mem_cons_of_mem _ (ih (List.cons_ne_nil _ _) fun a ha ↦
            hreads a (List.mem_cons_of_mem _ ha))

/-! ## The loop -/

/-- One turn of the loop: what is read is buffered, and compared with the size. -/
theorem readFile_read (body : Buffer) (size : Nat) (data : Bytes) (reads : List ReadResult) :
    ∃ body' : Buffer, body'.readableBytes = body.readableBytes + data.length ∧
      readFile body size (.read data :: reads) =
        if body'.readableBytes < size then readFile body' size reads
        else if body'.readableBytes = size then .ok (body', true)
        else .error (.assertion .bodySize) := by
  obtain ⟨body', hok, hpeek⟩ := body.readFd_read_spec data
  refine ⟨body', ?_, ?_⟩
  · rw [← Buffer.length_peek, hpeek, List.length_append, Buffer.length_peek]
  · simp only [readFile, hok, ok_bind]
    rw [if_neg (by omega)]

theorem readFile_failed (body : Buffer) (size errno : Nat) (reads : List ReadResult) :
    readFile body size (.failed errno :: reads) = .ok (body, false) := rfl

/-- The loop is still reading if nothing has failed and all totals are below the size. -/
theorem readFile_stillReading_iff {body : Buffer} {size : Nat} {reads : List ReadResult} :
    readFile body size reads = .error .stillReading ↔
      (∀ answer ∈ reads, ∃ data, answer = .read data) ∧
        ∀ t ∈ totals body.readableBytes reads, t < size := by
  induction reads generalizing body with
  | nil => exact iff_of_true rfl ⟨by simp, by simp [totals]⟩
  | cons answer reads ih =>
      cases answer with
      | failed errno =>
          refine iff_of_false (by simp [readFile_failed]) fun ⟨hreads, _⟩ ↦ ?_
          obtain ⟨data, hdata⟩ := hreads _ List.mem_cons_self
          cases hdata
      | read data =>
          obtain ⟨body', htotal, hturn⟩ := readFile_read body size data reads
          rw [hturn, totals, ← htotal]
          simp only [List.mem_cons, forall_eq_or_imp]
          split
          · rename_i hlt
            rw [ih]
            simp [hlt]
          · rename_i hge
            refine iff_of_false ?_ fun ⟨_, hlt, _⟩ ↦ hge hlt
            split <;> simp

/-- The assertion fails if the first total that is not below the size is not the size. -/
theorem readFile_bodySize_iff {body : Buffer} {size : Nat} {reads : List ReadResult} :
    readFile body size reads = .error (.assertion .bodySize) ↔
      ∃ t, (totals body.readableBytes reads).find? (size ≤ ·) = some t ∧ t ≠ size := by
  induction reads generalizing body with
  | nil => exact iff_of_false (by simp [readFile]) (by simp [totals])
  | cons answer reads ih =>
      cases answer with
      | failed errno => exact iff_of_false (by simp [readFile_failed]) (by simp [totals])
      | read data =>
          obtain ⟨body', htotal, hturn⟩ := readFile_read body size data reads
          rw [hturn, totals, ← htotal, List.find?_cons]
          by_cases hlt : body'.readableBytes < size
          · rw [if_pos hlt, decide_eq_false (Nat.not_le_of_gt hlt)]
            exact ih
          · rw [if_neg hlt, decide_eq_true (Nat.le_of_not_lt hlt)]
            simp only [Option.some.injEq, exists_eq_left']
            by_cases heq : body'.readableBytes = size
            · rw [if_pos heq]
              simp [heq]
            · rw [if_neg heq]
              simp [heq]

/-- A body that is complete has the size that was expected. -/
theorem readableBytes_of_readFile {body body' : Buffer} {size : Nat} {reads : List ReadResult}
    (h : readFile body size reads = .ok (body', true)) : body'.readableBytes = size := by
  induction reads generalizing body with
  | nil => cases h
  | cons answer reads ih =>
      cases answer with
      | failed errno => cases h
      | read data =>
          obtain ⟨b, -, hturn⟩ := readFile_read body size data reads
          rw [hturn] at h
          split at h
          · exact ih h
          · split at h
            · cases h
              assumption
            · cases h

/-- The loop is the only part of `analyse` that may fail to return. -/
theorem analyse_opened_error_iff {r : HttpResponse} {it : Iteration} {request : HttpRequest}
    {size : Nat} {reads : List ReadResult} {e : NoReturn} :
    r.analyse it request (.opened size reads) = .error e ↔
      readFile r.entityBody size reads = .error e := by
  have hbody : ((r.setCloseConnection request.isCloseConnection).setContentType
      (contentTypeOf request.path)).entityBody = r.entityBody := rfl
  simp only [analyse, hbody]
  rcases readFile r.entityBody size reads with e' | ⟨body, completed⟩
  · exact ⟨fun h ↦ by cases h; rfl, fun h ↦ by cases h; rfl⟩
  · refine iff_of_false ?_ (by simp)
    simp only [ok_bind]
    split
    · obtain ⟨output, houtput, -⟩ := appendTo_spec
        { (r.setCloseConnection request.isCloseConnection).setContentType
          (contentTypeOf request.path) with entityBody := body } it (Buffer.ofSize kInitialSize)
      simp [houtput]
    · obtain ⟨output, r', houtput⟩ := errorMessageWith_returns
        { (r.setCloseConnection request.isCloseConnection).setContentType
          (contentTypeOf request.path) with entityBody := body } it .k404NotFound
      simp [houtput]

/-! ## Coming to an end -/

/-- The first `n` answers. -/
def firstReads (answers : Nat → ReadResult) (n : Nat) : List ReadResult :=
  (List.range n).map answers

/-- After `k` reads that deliver something, one fails, or the end of the file has come
and stays. -/
structure Settles (answers : Nat → ReadResult) (k : Nat) : Prop where
  progress : ∀ i < k, ∃ data, answers i = .read data
  settled : (∃ errno, answers k = .failed errno) ∨ ∀ i, k ≤ i → answers i = .read []

theorem delivered_firstReads_succ (answers : Nat → ReadResult) (n : Nat) :
    delivered (firstReads answers (n + 1)) =
      delivered (firstReads answers n) + count (answers n) := by
  simp [delivered, firstReads, List.range_succ]

theorem delivered_firstReads_mono (answers : Nat → ReadResult) {m n : Nat} (h : m ≤ n) :
    delivered (firstReads answers m) ≤ delivered (firstReads answers n) := by
  induction h with
  | refl => exact Nat.le_refl _
  | step _ ih =>
      rw [delivered_firstReads_succ]
      omega

/-- Nothing is delivered behind the end of the file. -/
theorem delivered_firstReads_le {answers : Nat → ReadResult} {k : Nat}
    (h : ∀ i, k ≤ i → answers i = .read []) (n : Nat) :
    delivered (firstReads answers n) ≤ delivered (firstReads answers k) := by
  rcases Nat.le_total n k with hle | hle
  · exact delivered_firstReads_mono answers hle
  · induction hle with
    | refl => exact Nat.le_refl _
    | @step n hkn ih =>
        rw [delivered_firstReads_succ, h n hkn]
        exact ih

/-- A file shorter than expected is read for ever. -/
theorem analyse_stillReading {r : HttpResponse} {size k : Nat} {answers : Nat → ReadResult}
    (hprogress : ∀ i < k, ∃ data, answers i = .read data)
    (hend : ∀ i, k ≤ i → answers i = .read [])
    (hshort : r.entityBody.readableBytes + delivered (firstReads answers k) < size)
    (it : Iteration) (request : HttpRequest) (n : Nat) :
    r.analyse it request (.opened size (firstReads answers n)) = .error .stillReading := by
  rw [analyse_opened_error_iff, readFile_stillReading_iff]
  constructor
  · intro answer hanswer
    obtain ⟨i, -, rfl⟩ := List.mem_map.mp hanswer
    by_cases hi : i < k
    · exact hprogress i hi
    · exact ⟨[], hend i (Nat.le_of_not_lt hi)⟩
  · intro t ht
    have hle := le_of_mem_totals ht
    have := delivered_firstReads_le hend n
    omega

/-- **When the loop ends.**  Reads that settle after `k` of them, by failing or at the
end of the file, bring the loop of `analyse` to an end if and only if the one behind
them fails, or together they fill the body up to the size that was expected. -/
theorem ends_iff (r : HttpResponse) (it : Iteration) (request : HttpRequest) (size : Nat)
    (answers : Nat → ReadResult) (k : Nat) (h : Settles answers k) :
    (∃ n, r.analyse it request (.opened size (firstReads answers n)) ≠ .error .stillReading) ↔
      (∃ errno, answers k = .failed errno) ∨
        size ≤ r.entityBody.readableBytes + delivered (firstReads answers k) := by
  constructor
  · rintro ⟨n, hn⟩
    rcases h.settled with hfailed | hend
    · exact .inl hfailed
    · refine .inr (Nat.le_of_not_lt fun hshort ↦ hn ?_)
      exact analyse_stillReading h.progress hend hshort it request n
  · intro hends
    refine ⟨k + 1, ?_⟩
    rw [ne_eq, analyse_opened_error_iff, readFile_stillReading_iff]
    rintro ⟨hreads, htotals⟩
    have hlast : answers k ∈ firstReads answers (k + 1) :=
      List.mem_map_of_mem (List.mem_range.mpr (Nat.lt_succ_self k))
    rcases hends with ⟨errno, hfailed⟩ | hfull
    · obtain ⟨data, hdata⟩ := hreads _ hlast
      rw [hfailed] at hdata
      cases hdata
    · have hlt := htotals _ (mem_totals (List.ne_nil_of_mem hlast) hreads)
      have := delivered_firstReads_mono answers (Nat.le_add_right k 1)
      omega

/-- A file of three bytes, delivered by two reads. -/
def shortFile : Nat → ReadResult
  | 0 => .read [1, 2]
  | 1 => .read [3]
  | _ => .read []

theorem settles_shortFile : Settles shortFile 2 where
  progress i _ := by
    match i with
    | 0 => exact ⟨_, rfl⟩
    | 1 => exact ⟨_, rfl⟩
    | _ + 2 => exact ⟨_, rfl⟩
  settled := by
    refine .inr fun i hi ↦ ?_
    obtain ⟨j, rfl⟩ := Nat.exists_eq_add_of_le hi
    rw [Nat.add_comm]
    rfl

/-- It has three bytes, as expected. -/
theorem ends_iff_shortFile :
    ∃ n, (new true).analyse .listed {} (.opened 3 (firstReads shortFile n)) ≠
      .error .stillReading :=
  (ends_iff (new true) .listed {} 3 shortFile 2 settles_shortFile).mpr (.inr (by decide +kernel))

/-- It was cut off when five bytes were expected. -/
theorem not_ends : ¬ ∃ n, (new true).analyse .listed {} (.opened 5 (firstReads shortFile n)) ≠
    .error .stillReading := by
  rintro ⟨n, hn⟩
  rcases settles_shortFile.settled with ⟨errno, hfailed⟩ | hend
  · cases hfailed
  · exact hn (analyse_stillReading settles_shortFile.progress hend (by decide +kernel) _ {} n)

/-! ## The size of the body -/

/-- The assertion on the size of the body holds, and a body that is complete has that
size. -/
def SizeAsserted (r : HttpResponse) (it : Iteration) (request : HttpRequest) (size : Nat)
    (reads : List ReadResult) : Prop :=
  r.analyse it request (.opened size reads) ≠ .error (.assertion .bodySize) ∧
    ∀ body, readFile r.entityBody size reads = .ok (body, true) → body.readableBytes = size

/-- **When the assertion holds.**  The file does not make the assertion of `analyse`
fail if and only if the first of the running totals that is not below the size, if
there is one, is the size. -/
theorem sizeAsserted_iff (r : HttpResponse) (it : Iteration) (request : HttpRequest) (size : Nat)
    (reads : List ReadResult) :
    r.SizeAsserted it request size reads ↔
      ∀ t, (totals r.entityBody.readableBytes reads).find? (size ≤ ·) = some t → t = size := by
  rw [SizeAsserted, ne_eq, analyse_opened_error_iff, readFile_bodySize_iff]
  constructor
  · rintro ⟨hnot, -⟩ t ht
    by_contra hne
    exact hnot ⟨t, ht, hne⟩
  · refine fun hall ↦ ⟨?_, fun body ↦ readableBytes_of_readFile⟩
    rintro ⟨t, ht, hne⟩
    exact hne (hall t ht)

/-- A file that is reported as empty and delivers a byte all the same, and one that has
grown from three bytes to five. -/
theorem not_sizeAsserted : ¬ (new true).SizeAsserted .listed {} 0 [.read [1]] ∧
    ¬ (new true).SizeAsserted .listed {} 3 [.read [1, 2, 3, 4, 5]] := by
  constructor
  · rintro ⟨hnot, -⟩
    exact hnot (analyse_opened_error_iff.mpr (by decide +kernel))
  · rintro ⟨hnot, -⟩
    exact hnot (analyse_opened_error_iff.mpr (by decide +kernel))

end Wuduo.Http.HttpResponse
