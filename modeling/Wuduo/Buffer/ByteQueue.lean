import Wuduo.Buffer
import Wuduo.Lib.Transition

/-!
# A buffer is a queue of bytes

What a `Buffer` is for can be said without indices: it holds a byte string, to
which bytes are added at the end and from which they are taken at the front,
with two operations that go the other way (`prepend` and `unwrite`).  `Queue`
states that, and `refines_queue` shows that the class implements it: over every
sequence of calls, each made within its asserted precondition, the readable
bytes are those of the queue, what the calls return is what the queue says, and
no assertion inside the class fails.

A call acts on one buffer; a second one is carried along so that `swap` has
something to exchange it with.
-/

namespace Wuduo.Buffer

open Transition

/-- One call on a buffer, with its arguments and what the environment answers. -/
inductive Call where
  | append (data : Bytes)
  | prepend (data : Bytes)
  | retrieve (count : Nat)
  | retrieveAll
  | retrieveAllAsString
  | unwrite (count : Nat)
  | ensureWritableBytes (count : Nat)
  /-- writing `data` from `begin_write()` on, then `has_written` -/
  | write (data : Bytes)
  /-- `read_fd`, with the answer of `::readv` -/
  | readFd (answer : ReadResult)
  | shrinkToFit
  | swap
deriving DecidableEq, Repr

/-- The asserted precondition of a call.  `::readv` delivers at most what fits
into the writable bytes and `extrabuf`. -/
def Call.Pre (b : Buffer) : Call → Prop
  | .prepend data => data.length ≤ b.prependableBytes
  | .retrieve count | .unwrite count => count ≤ b.readableBytes
  | .write data => data.length ≤ b.writableBytes
  | .readFd (.read data) => data.length ≤ b.writableBytes + kExtraBuf
  | _ => True

instance (b : Buffer) (c : Call) : Decidable (c.Pre b) := by
  unfold Call.Pre
  split <;> infer_instance

/-- What a call returns. -/
inductive Result where
  | void
  | string (s : Bytes)
  /-- the number of bytes read, or -1 -/
  | count (n : Int)
deriving DecidableEq, Repr

/-- A call on the first buffer of a pair, with its result. -/
def Call.exec (c : Call) (bs : Buffer × Buffer) : Except NoReturn (Result × Buffer × Buffer) :=
  let on (r : Except NoReturn Buffer) := r.map fun b ↦ (Result.void, b, bs.2)
  match c with
  | .append data => on (bs.1.append data)
  | .prepend data => on (bs.1.prepend data)
  | .retrieve count => on (bs.1.retrieve count)
  | .retrieveAll => on (.ok bs.1.retrieveAll)
  | .retrieveAllAsString =>
      let (s, b) := bs.1.retrieveAllAsString
      .ok (.string s, b, bs.2)
  | .unwrite count => on (bs.1.unwrite count)
  | .ensureWritableBytes count => on (bs.1.ensureWritableBytes count)
  | .write data => on ((bs.1.fill data).hasWritten data.length)
  | .readFd answer => (bs.1.readFd answer).map fun (n, b) ↦ (.count n, b, bs.2)
  | .shrinkToFit => on (.ok bs.1.shrinkToFit)
  | .swap => .ok (.void, bs.2, bs.1)

/-- Two buffers, and what the calls on them have returned. -/
structure Client where
  buffers : Buffer × Buffer
  results : List Result
deriving DecidableEq, Repr

/-- A call can be made only within its precondition. -/
def Call.step (s : Client) (c : Call) : Option (Except NoReturn Client) :=
  if c.Pre s.buffers.1 then
    some ((c.exec s.buffers).map fun (result, bs) ↦ ⟨bs, s.results ++ [result]⟩)
  else none

/-! ## The queue -/

/-- What a call does to a byte string, and to the one it may be exchanged with. -/
def Queue.apply (q : Bytes × Bytes) : Call → Bytes × Bytes
  | .append data | .write data | .readFd (.read data) => (q.1 ++ data, q.2)
  | .prepend data => (data ++ q.1, q.2)
  | .retrieve count => (q.1.drop count, q.2)
  | .retrieveAll | .retrieveAllAsString => ([], q.2)
  | .unwrite count => (q.1.take (q.1.length - count), q.2)
  | .ensureWritableBytes _ | .readFd (.failed _) | .shrinkToFit => q
  | .swap => (q.2, q.1)

/-- What a call on a byte string returns. -/
def Queue.result (q : Bytes × Bytes) : Call → Result
  | .retrieveAllAsString => .string q.1
  | .readFd (.read data) => .count data.length
  | .readFd (.failed _) => .count (-1)
  | _ => .void

/-- A call on a pair of byte strings, behind those that have returned these results. -/
def Queue.call (q : (Bytes × Bytes) × List Result) (c : Call) : (Bytes × Bytes) × List Result :=
  (Queue.apply q.1 c, q.2 ++ [Queue.result q.1 c])

/-- The readable bytes of a pair of buffers. -/
def contents (bs : Buffer × Buffer) : Bytes × Bytes := (bs.1.peek, bs.2.peek)

/-- The index order of a buffer. -/
def InOrder (b : Buffer) : Prop :=
  b.readerIndex ≤ b.writerIndex ∧ b.writerIndex ≤ b.storage.length ∧
    kCheapPrepend ≤ b.storage.length

theorem inOrder (b : Buffer) : b.InOrder :=
  ⟨b.reader_le_writer, b.writer_le_size, b.cheap_le_size⟩

/-! ## One call -/

/-- A call within its precondition returns what it does on the queue, and does to the
readable bytes what it does to the queue. -/
theorem Call.exec_spec {c : Call} {bs : Buffer × Buffer} (h : c.Pre bs.1) :
    ∃ bs', c.exec bs = .ok (Queue.result (contents bs) c, bs') ∧
      contents bs' = Queue.apply (contents bs) c := by
  obtain ⟨b, other⟩ := bs
  -- most calls act on the first buffer alone, and return nothing
  have key : ∀ {r : Except NoReturn Buffer} {bytes : Bytes},
      (∃ b', r = .ok b' ∧ b'.peek = bytes) →
      ∃ bs', (r.map fun b ↦ (Result.void, b, other)) = .ok (.void, bs') ∧
        contents bs' = (bytes, other.peek) := by
    rintro r bytes ⟨b', rfl, hpeek⟩
    exact ⟨(b', other), rfl, by simp only [contents, hpeek]⟩
  cases c with
  | append data => exact key (append_spec b data)
  | prepend data => exact key (prepend_spec h)
  | retrieve count => exact key (retrieve_spec h)
  | retrieveAll => exact key ⟨_, rfl, peek_retrieveAll b⟩
  | retrieveAllAsString =>
      refine ⟨(b.retrieveAll, other), rfl, ?_⟩
      rw [contents, peek_retrieveAll]
      rfl
  | unwrite count =>
      obtain ⟨b', hok, hpeek⟩ := unwrite_spec h
      exact key ⟨b', hok, by rw [hpeek, ← length_peek]; rfl⟩
  | ensureWritableBytes count =>
      obtain ⟨b', hok, hpeek, -⟩ := ensureWritableBytes_spec b count
      exact key ⟨b', hok, hpeek⟩
  | write data =>
      obtain ⟨b', hok, hpeek, -⟩ := fill_hasWritten_spec h
      exact key ⟨b', hok, hpeek⟩
  | readFd answer =>
      cases answer with
      | failed errno => exact ⟨(b, other), rfl, rfl⟩
      | read data =>
          obtain ⟨b', hok, hpeek⟩ := readFd_read_spec b data
          refine ⟨(b', other), ?_, ?_⟩
          · rw [exec, hok]
            rfl
          · rw [contents, hpeek]
            rfl
  | shrinkToFit => exact key ⟨b, rfl, rfl⟩
  | swap => exact ⟨(other, b), rfl, rfl⟩

/-! ## Sequences of calls -/

/-- The step of the pair of buffers is simulated by the queue. -/
theorem step_simulates :
    Simulates (liftAbort Call.step) (fun q c ↦ some (Queue.call q c))
      (fun r q ↦ ∃ s, r = .ok s ∧ (contents s.buffers, s.results) = q) := by
  rintro r q c r' ⟨s, rfl, rfl⟩ hstep
  rw [liftAbort, Call.step] at hstep
  split at hstep
  · rename_i hpre
    obtain ⟨bs, hok, hcontents⟩ := Call.exec_spec hpre
    rw [hok] at hstep
    cases hstep
    refine ⟨_, rfl, _, rfl, ?_⟩
    rw [Queue.call, hcontents]
  · cases hstep

/-- Two new buffers. -/
def Client.new (size₁ size₂ : Nat) : Client := ⟨(ofSize size₁, ofSize size₂), []⟩

/-- A sequence of calls on two new buffers returns, and leaves the readable bytes
of the queue. -/
theorem run_spec {size₁ size₂ : Nat} {calls : List Call} {r : Except NoReturn Client}
    (h : run (liftAbort Call.step) (.ok (.new size₁ size₂)) calls = some r) :
    ∃ s, r = .ok s ∧ (contents s.buffers, s.results) = calls.foldl Queue.call (([], []), []) := by
  obtain ⟨q, hq, s, hok, hcontents⟩ := step_simulates.run (t := (([], []), []))
    ⟨_, rfl, by simp only [contents, Client.new, peek_ofSize]⟩ h
  rw [run_total] at hq
  exact ⟨s, hok, hcontents.trans (Option.some.inj hq).symm⟩

/-- **A buffer refines a byte queue.**  Over every sequence of calls on two new
buffers, each within its asserted precondition, no assertion inside the class
fails, the indices stay in order, the readable bytes are those of the queue, the
calls return what they do on the queue, and a call of `ensure_writable_bytes` has
made the room it was asked for. -/
theorem refines_queue (size₁ size₂ : Nat) (calls : List Call) (r : Except NoReturn Client)
    (h : run (liftAbort Call.step) (.ok (.new size₁ size₂)) calls = some r) :
    ∃ b other results, r = .ok ⟨(b, other), results⟩ ∧ b.InOrder ∧ other.InOrder ∧
      ((b.peek, other.peek), results) = calls.foldl Queue.call (([], []), []) ∧
      ∀ before count, calls = before ++ [.ensureWritableBytes count] →
        count ≤ b.writableBytes := by
  obtain ⟨⟨⟨b, other⟩, results⟩, rfl, hcontents⟩ := run_spec h
  refine ⟨b, other, results, rfl, inOrder b, inOrder other, hcontents, ?_⟩
  rintro before count rfl
  obtain ⟨r₁, hbefore, hlast⟩ := run_append_eq_some.mp h
  obtain ⟨⟨⟨b₁, other₁⟩, results₁⟩, rfl, -⟩ := run_spec hbefore
  obtain ⟨b₂, hok, -, hroom⟩ := ensureWritableBytes_spec b₁ count
  have hexec : Call.exec (.ensureWritableBytes count) (b₁, other₁) =
      .ok (.void, b₂, other₁) := by
    simp only [Call.exec, hok, map_ok]
  have heq : (⟨(b₂, other₁), results₁ ++ [.void]⟩ : Client) = ⟨(b, other), results⟩ := by
    simp only [run_cons, liftAbort, Call.step, Call.Pre, if_true, hexec, map_ok, run_nil,
      Option.bind_some] at hlast
    exact Except.ok.inj (Option.some.inj hlast)
  cases heq
  exact hroom

/-- A run with a shift, a read over both areas and an exchange. -/
theorem refines_queue_run :
    ∃ r, run (liftAbort Call.step) (.ok (.new 4 0))
        [.append [1, 2, 3], .retrieve 2, .append [4, 5, 6], .prepend [9], .swap,
          .readFd (.read [7, 8]), .swap, .retrieveAllAsString, .ensureWritableBytes 5] = some r ∧
      ∃ b other results, r = .ok ⟨(b, other), results⟩ ∧ (b.peek, other.peek) = ([], [7, 8]) ∧
        results = [.void, .void, .void, .void, .void, .count 2, .void, .string [9, 3, 4, 5, 6],
          .void] := by
  obtain ⟨r, hr⟩ : ∃ r, run (liftAbort Call.step) (.ok (.new 4 0))
      [.append [1, 2, 3], .retrieve 2, .append [4, 5, 6], .prepend [9], .swap,
        .readFd (.read [7, 8]), .swap, .retrieveAllAsString, .ensureWritableBytes 5] = some r :=
    Option.isSome_iff_exists.mp (by decide)
  obtain ⟨b, other, results, hok, -, -, hqueue, -⟩ := refines_queue 4 0 _ r hr
  obtain ⟨hpeek, hresults⟩ := Prod.mk.inj hqueue
  exact ⟨r, hr, b, other, results, hok, hpeek, hresults⟩

end Wuduo.Buffer
