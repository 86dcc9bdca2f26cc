import Wuduo.TcpConnection.Spec
import Wuduo.Lib.Transition

/-!
# The life of one connection

A `Session` is one connection together with the tasks of it that wait in the
queue of its loop.  Its runs interleave, in any order and with any answers of
the kernel,

* calls of `send`, `shutdown` and `force_close` from the loop thread, which run
  their work at once, and from other threads, which queue it;
* the events `handle_read` and `handle_write` of its channel;
* the loop taking the next task from the queue;
* whatever the message callback leaves in the input buffer.

A call of `shutdown` or `force_close` by another thread is one step: nothing comes
between its test of `state_`, its assignment and its push (`Shared` takes these
apart).  What a callback does with the connection it is given is a call from the loop
thread, made in a later step of the run: the functions of a connection do
nothing after their callbacks.  `destroyed()` is not a step here, because it
finds a connection that is closed and does nothing (`destroyed_of_ne`).

Two histories are kept beside the code: the messages accepted by `send`, in the
order of the calls, and those for which `send_in_loop` ran, each with the thread
it came from.

## Results

* `stream_integrity`: the socket's bytes followed by the pending output are the
  messages for which `send_in_loop` ran, whole and in order, and no thread's
  messages are reordered.
* `halfClosed_of_drained`: a shutdown that was accepted reaches the socket, in the
  runs in which the lambda of `shutdown()` never finds the connection writing;
  `not_halfClosed` is a run in which it does.
-/

namespace Wuduo.TcpConnection

open Transition

/-- A thread that calls into a connection: the loop's own, or another one. -/
inductive Thread where
  | loop
  | other (id : Nat)
deriving DecidableEq, Repr

/-- A connection, the tasks of it in its loop's queue, and its history. -/
structure Session where
  conn : TcpConnection
  queue : List (Thread × Task)
  /-- the messages that `send` found the connection connected for -/
  accepted : List (Thread × Bytes)
  /-- the messages for which `send_in_loop` ran -/
  ran : List (Thread × Bytes)
  /-- `shutdown()` has moved the connection to `kDisconnecting` -/
  shutdownAccepted : Bool
deriving DecidableEq, Repr

/-- One step, with the answer the kernel gives if it is asked. -/
inductive Action where
  | established
  | send (thread : Thread) (data : Bytes) (answer : WriteResult)
  | shutdown (thread : Thread)
  | forceClose (thread : Thread)
  | handleRead (answer : ReadResult)
  | handleWrite (answer : WriteResult)
  | runTask (answer : WriteResult)
  | setInBuffer (inBuffer : Buffer)
deriving DecidableEq, Repr

/-- The messages a task hands to `send_in_loop`. -/
def messagesOf : Thread × Task → List (Thread × Bytes)
  | (thread, .sendInLoop message) => [(thread, message)]
  | (_, .shutdown) | (_, .forceClose) => []

namespace Session

/-- A connection on which nothing has happened yet. -/
def new (sockfd : Nat) : Session where
  conn := TcpConnection.new sockfd
  queue := []
  accepted := []
  ran := []
  shutdownAccepted := false

/-- The loop thread runs a task. -/
def exec (s : Session) (p : Thread × Task) (answer : WriteResult) :
    Except NoReturn Session := do
  let (conn, _) ← p.2.run s.conn answer
  return { s with conn, ran := s.ran ++ messagesOf p }

/-- `run_in_loop` as called by a thread: its own loop's thread runs the task at
once, any other queues it. -/
def runInLoop (s : Session) (thread : Thread) (answer : WriteResult) :
    TcpConnection × Option Task → Except NoReturn Session
  | (conn, none) => return { s with conn }
  | (conn, some task) =>
      let s := { s with conn, accepted := s.accepted ++ messagesOf (thread, task) }
      if thread = .loop then s.exec (thread, task) answer
      else return { s with queue := s.queue ++ [(thread, task)] }

/-- The transition function. -/
def step (s : Session) : Action → Option (Except NoReturn Session)
  | .established =>
      if s.conn.state = .kConnecting then
        some (s.conn.established.map fun r ↦ { s with conn := r.1 })
      else none
  | .send thread data answer => some (s.runInLoop thread answer (s.conn, s.conn.send data))
  | .shutdown thread =>
      let accepts := s.conn.shutdown.2.isSome
      some ({ s with shutdownAccepted := s.shutdownAccepted || accepts }.runInLoop
        thread .failed s.conn.shutdown)
  | .forceClose thread => some (s.runInLoop thread .failed s.conn.forceClose)
  | .handleRead answer =>
      if s.conn.state = .kConnecting then none
      else some ((s.conn.handleRead answer).map fun r ↦ { s with conn := r.1 })
  | .handleWrite answer => some ((s.conn.handleWrite answer).map fun r ↦ { s with conn := r.1 })
  | .runTask answer =>
      match s.queue with
      | [] => none
      | p :: rest => some ({ s with queue := rest }.exec p answer)
  | .setInBuffer inBuffer => some (.ok { s with conn := { s.conn with inBuffer } })

/-- A run of the life of one connection. -/
abbrev Run (sockfd : Nat) (as : List Action) (r : Except NoReturn Session) : Prop :=
  run (liftAbort step) (.ok (new sockfd)) as = some r

/-! ## What holds between the steps -/

/-- The messages that wait in the queue. -/
def queued (s : Session) : List (Thread × Bytes) := s.queue.flatMap messagesOf

/-- The messages of one thread, in order. -/
def ofThread (thread : Thread) (ms : List (Thread × Bytes)) : List (Thread × Bytes) :=
  ms.filter fun m ↦ m.1 = thread

structure Inv (s : Session) : Prop where
  conn : s.conn.Inv
  /-- nothing is queued before the connection is established -/
  queue : s.queue ≠ [] → s.conn.state ≠ .kConnecting
  /-- the loop thread does not queue -/
  foreign : ∀ p ∈ s.queue, p.1 ≠ .loop
  stream : s.conn.state ≠ .kDisconnected → s.conn.stream = (s.ran.map Prod.snd).flatten
  order : ∀ thread, ofThread thread (s.ran ++ s.queued) = ofThread thread s.accepted

theorem inv_new (sockfd : Nat) : (new sockfd).Inv where
  conn := TcpConnection.inv_new sockfd
  queue h := absurd rfl h
  foreign _ h := by cases h
  stream _ := by simp [new, TcpConnection.new, TcpConnection.stream]
  order _ := rfl

theorem flatten_messagesOf (p : Thread × Task) :
    ((messagesOf p).map Prod.snd).flatten = p.2.message := by
  obtain ⟨thread, task⟩ := p
  cases task <;> simp [messagesOf, Task.message]

theorem thread_of_mem_messagesOf {p : Thread × Task} {m : Thread × Bytes}
    (h : m ∈ messagesOf p) : m.1 = p.1 := by
  obtain ⟨thread, task⟩ := p
  cases task with
  | sendInLoop message => rw [List.mem_singleton.mp h]
  | shutdown | forceClose => cases h

@[simp] theorem ofThread_append (thread : Thread) (ms ms' : List (Thread × Bytes)) :
    ofThread thread (ms ++ ms') = ofThread thread ms ++ ofThread thread ms' :=
  List.filter_append _ _

theorem ofThread_messagesOf_of_ne {thread : Thread} {p : Thread × Task} (h : p.1 ≠ thread) :
    ofThread thread (messagesOf p) = [] := by
  apply List.filter_eq_nil_iff.mpr
  intro m hm
  rw [decide_eq_true_iff, thread_of_mem_messagesOf hm]
  exact h

/-- None of the queued messages is the loop thread's own. -/
theorem ofThread_loop_queued {s : Session} (h : ∀ p ∈ s.queue, p.1 ≠ .loop) :
    ofThread .loop s.queued = [] := by
  apply List.filter_eq_nil_iff.mpr
  intro m hm
  obtain ⟨p, hp, hm⟩ := List.mem_flatMap.mp hm
  rw [decide_eq_true_iff, thread_of_mem_messagesOf hm]
  exact h p hp

/-! ## Steps -/

/-- A function that puts nothing in line and has no task of its own. -/
theorem Inv.of_effect {s : Session} (h : s.Inv) {c' : TcpConnection} {cbs : List Callback}
    (heff : Effect s.conn [] c' cbs) : Inv { s with conn := c' } where
  conn := heff.inv
  queue hq := heff.ne_kConnecting (h.queue hq)
  foreign := h.foreign
  stream hst := by
    have hst₀ : s.conn.state ≠ .kDisconnected := fun hd ↦
      hst (eq_kDisconnected_of_rank (hd ▸ heff.rank_le))
    rw [heff.stream_eq hst, h.stream hst₀, List.append_nil]
  order := h.order

/-- The loop thread runs a task that is next in line: the messages of its thread
that are still queued come after it. -/
theorem Inv.exec {s : Session} (hconn : s.conn.Inv) (hst : s.conn.state ≠ .kConnecting)
    (hforeign : ∀ p ∈ s.queue, p.1 ≠ .loop)
    (hstream : s.conn.state ≠ .kDisconnected → s.conn.stream = (s.ran.map Prod.snd).flatten)
    {p : Thread × Task}
    (horder : ∀ thread, ofThread thread (s.ran ++ messagesOf p ++ s.queued)
      = ofThread thread s.accepted) (answer : WriteResult) :
    ∃ s', s.exec p answer = .ok s' ∧ s'.Inv := by
  obtain ⟨c', cbs, hok, heff⟩ := p.2.run_spec hconn hst answer
  refine ⟨{ s with conn := c', ran := s.ran ++ messagesOf p }, ?_,
    heff.inv, fun _ ↦ heff.ne_kConnecting hst, hforeign, fun hst' ↦ ?_, horder⟩
  · simp only [Session.exec, hok, ok_bind, pure_eq_ok]
  · have hst₀ : s.conn.state ≠ .kDisconnected := fun hd ↦
      hst' (eq_kDisconnected_of_rank (hd ▸ heff.rank_le))
    rw [heff.stream_eq hst', hstream hst₀, List.map_append, List.flatten_append,
      flatten_messagesOf]

/-- A request of a thread keeps the invariant, run at once or queued. -/
theorem Inv.runInLoop {s : Session} (h : s.Inv) {c₁ : TcpConnection} (task : Option Task)
    (heff : Effect s.conn [] c₁ []) (htask : task ≠ none → c₁.state ≠ .kConnecting)
    (thread : Thread) (answer : WriteResult) :
    ∃ s', s.runInLoop thread answer (c₁, task) = .ok s' ∧ s'.Inv := by
  cases task with
  | none => exact ⟨_, rfl, h.of_effect heff⟩
  | some task =>
      have h₁ := h.of_effect heff
      have hst := htask (by simp)
      rw [Session.runInLoop]
      by_cases ht : thread = .loop
      · subst ht
        rw [if_pos rfl]
        let s₁ : Session :=
          { s with conn := c₁, accepted := s.accepted ++ messagesOf (.loop, task) }
        refine Inv.exec (s := s₁) h₁.conn hst h₁.foreign h₁.stream ?_ answer
        intro t
        have horder := h.order t
        change ofThread t (s.ran ++ messagesOf (.loop, task) ++ s.queued)
          = ofThread t (s.accepted ++ messagesOf (.loop, task))
        simp only [ofThread_append] at horder ⊢
        by_cases hl : t = .loop
        · subst hl
          rw [ofThread_loop_queued h.foreign, List.append_nil] at horder ⊢
          rw [horder]
        · rw [ofThread_messagesOf_of_ne (Ne.symm hl), List.append_nil, List.append_nil, horder]
      · rw [if_neg ht]
        refine ⟨_, rfl, h₁.conn, fun _ ↦ hst, fun p hp ↦ ?_, h₁.stream, fun t ↦ ?_⟩
        · rcases List.mem_append.mp hp with hp | hp
          · exact h.foreign p hp
          · rw [List.mem_singleton.mp hp]
            exact ht
        · have horder := h.order t
          simp only [queued, List.flatMap_append, List.flatMap_singleton, ofThread_append,
            ← List.append_assoc] at horder ⊢
          rw [horder]

/-- No step brings the process down, and every step keeps the invariant. -/
theorem step_inv (s : Session) (a : Action) (r : Except NoReturn Session) (h : s.Inv)
    (hstep : s.step a = some r) : ∃ s', r = .ok s' ∧ s'.Inv := by
  cases a with
  | established =>
      rw [step] at hstep
      split at hstep
      · rename_i hst
        obtain ⟨c', hok, hinv, hst', -, hstream, -⟩ := established_spec h.conn hst
        rw [hok] at hstep
        refine ⟨_, (Option.some.inj hstep).symm, hinv, fun _ ↦ ?_, h.foreign, fun _ ↦ ?_, h.order⟩
        · simp [hst']
        · rw [← h.stream (by simp [hst]), ← hstream]
      · cases hstep
  | send thread data answer =>
      obtain ⟨heff, htask⟩ := send_spec h.conn data
      obtain ⟨s', hok, hinv⟩ := h.runInLoop (s.conn.send data) heff htask thread answer
      exact ⟨s', by rw [← Option.some.inj hstep, hok], hinv⟩
  | shutdown thread =>
      have hflag : Inv { s with
          shutdownAccepted := s.shutdownAccepted || s.conn.shutdown.2.isSome } :=
        ⟨h.conn, h.queue, h.foreign, h.stream, h.order⟩
      obtain ⟨heff, htask⟩ := shutdown_spec h.conn
      obtain ⟨s', hok, hinv⟩ := hflag.runInLoop s.conn.shutdown.2 heff htask thread .failed
      exact ⟨s', by rw [← Option.some.inj hstep, ← hok], hinv⟩
  | forceClose thread =>
      obtain ⟨heff, htask⟩ := forceClose_spec h.conn
      obtain ⟨s', hok, hinv⟩ := h.runInLoop s.conn.forceClose.2 heff htask thread .failed
      exact ⟨s', by rw [← Option.some.inj hstep, ← hok], hinv⟩
  | handleRead answer =>
      rw [step] at hstep
      split at hstep
      · cases hstep
      · obtain ⟨c', cbs, hok, heff⟩ := handleRead_spec h.conn answer
        rw [hok] at hstep
        exact ⟨_, (Option.some.inj hstep).symm, h.of_effect heff⟩
  | handleWrite answer =>
      obtain ⟨c', hok, heff, -⟩ := handleWrite_spec h.conn answer
      rw [step, hok] at hstep
      exact ⟨_, (Option.some.inj hstep).symm, h.of_effect heff⟩
  | runTask answer =>
      rw [step] at hstep
      cases hq : s.queue with
      | nil => rw [hq] at hstep; cases hstep
      | cons p rest =>
          rw [hq] at hstep
          have hst := h.queue (by rw [hq]; simp)
          obtain ⟨s', hok, hinv⟩ := Inv.exec (s := { s with queue := rest }) (p := p) h.conn hst
            (fun p' hp' ↦ h.foreign p' (by rw [hq]; exact List.mem_cons_of_mem _ hp')) h.stream
            (fun t ↦ by
              have horder := h.order t
              rw [queued, hq, List.flatMap_cons, ← List.append_assoc] at horder
              exact horder) answer
          exact ⟨s', by rw [← Option.some.inj hstep, hok], hinv⟩
  | setInBuffer inBuffer =>
      refine ⟨_, (Option.some.inj hstep).symm, h.conn.setInBuffer inBuffer, h.queue, h.foreign,
        h.stream, h.order⟩

/-! ## Output stream integrity -/

/-- **Output stream integrity.**  Over every run of a connection, none of its
assertions fails; while it is not disconnected, the bytes the socket accepted
followed by the pending output are the messages for which `send_in_loop` ran,
each whole, in the order in which it ran; and for each thread, the messages that
ran and those still queued are, in order, those it passed to `send`.  A `shutdown` or
`force_close` of another thread is one step of the run. -/
theorem stream_integrity (sockfd : Nat) (as : List Action) (r : Except NoReturn Session)
    (h : Run sockfd as r) :
    ∃ s, r = .ok s ∧
      (s.conn.state ≠ .kDisconnected →
        s.conn.socket.written ++ s.conn.outputBuffer.peek = (s.ran.map Prod.snd).flatten) ∧
      ∀ thread, ofThread thread (s.ran ++ s.queued) = ofThread thread s.accepted := by
  obtain ⟨s, rfl, hinv⟩ := run_alive step_inv (inv_new sockfd) h
  exact ⟨s, rfl, hinv.stream, hinv.order⟩

/-- A loop thread and another one, each with a message of which the socket takes
only a part. -/
theorem stream_integrity_run :
    ∃ s, Run 7 [.established, .send (.other 1) [4, 5] .failed, .send .loop [1, 2, 3] (.wrote 1),
        .runTask .failed, .handleWrite (.wrote 3)] (.ok s) ∧
      s.conn.socket.written ++ s.conn.outputBuffer.peek = (s.ran.map Prod.snd).flatten ∧
      s.conn.socket.written = [1, 2, 3, 4] := by
  obtain ⟨s, hrun, hs⟩ := exists_run_ok step (.ok (new 7)) [.established,
    .send (.other 1) [4, 5] .failed, .send .loop [1, 2, 3] (.wrote 1), .runTask .failed,
    .handleWrite (.wrote 3)] (fun s ↦ decide
      (s.conn.state ≠ .kDisconnected ∧ s.conn.socket.written = [1, 2, 3, 4])) (by decide +kernel)
  obtain ⟨s', hs', hstream, -⟩ := stream_integrity 7 _ _ hrun
  cases hs'
  have ⟨hst, hwritten⟩ := of_decide_eq_true hs
  exact ⟨s, hrun, hstream hst, hwritten⟩

/-! ## Deferred half-close -/

/-- A shutdown that was accepted has reached the socket, if the connection is not
disconnected and has nothing left to do: no task of it is queued and no output is
pending. -/
def HalfClosed (s : Session) : Prop :=
  s.shutdownAccepted = true → s.conn.state ≠ .kDisconnected → s.queue = [] →
    s.conn.outputBuffer.peek = [] → s.conn.channel.isWriting = false →
      s.conn.socket.shutWr = true

/-- This step runs the lambda of `shutdown()`. -/
def runsShutdown (s : Session) : Action → Bool
  | .shutdown thread => thread = .loop ∧ s.conn.state = .kConnected
  | .runTask _ =>
      match s.queue with
      | (_, .shutdown) :: _ => true
      | _ => false
  | _ => false

/-- This step does not run the lambda of `shutdown()` on a connection that is
watching for room to write. -/
def ShutdownIdle (s : Session) (a : Action) : Prop :=
  s.runsShutdown a = true → s.conn.channel.isWriting = false

instance (s : Session) (a : Action) : Decidable (s.ShutdownIdle a) :=
  inferInstanceAs (Decidable (_ → _))

/-- A shutdown that was accepted has reached the socket or is still in line. -/
def Promised (s : Session) : Prop :=
  s.shutdownAccepted = true →
    s.conn.socket.shutWr = true ∨ ∃ thread, (thread, Task.shutdown) ∈ s.queue

theorem Promised.halfClosed {s : Session} (h : s.Promised) : s.HalfClosed := by
  intro hacc _ hqueue _ _
  rcases h hacc with hwr | ⟨thread, hmem⟩
  · exact hwr
  · rw [hqueue] at hmem
    cases hmem

theorem exec_ok {s s' : Session} {p : Thread × Task} {answer : WriteResult}
    (h : s.exec p answer = .ok s') :
    ∃ c' cbs, p.2.run s.conn answer = .ok (c', cbs) ∧
      s' = { s with conn := c', ran := s.ran ++ messagesOf p } := by
  obtain ⟨⟨c', cbs⟩, hrun, h⟩ := bind_eq_ok.mp h
  exact ⟨c', cbs, hrun, (Except.ok.inj h).symm⟩

/-- A function that does not undo a shutdown of the socket. -/
theorem Promised.of_shutWr {s s' : Session} (h : s.Promised)
    (hacc : s'.shutdownAccepted = s.shutdownAccepted)
    (hwr : s.conn.socket.shutWr = true → s'.conn.socket.shutWr = true)
    (hqueue : ∀ p ∈ s.queue, p ∈ s'.queue) : s'.Promised := by
  intro hacc'
  rcases h (hacc ▸ hacc') with h | ⟨thread, hmem⟩
  · exact .inl (hwr h)
  · exact .inr ⟨thread, hqueue _ hmem⟩

/-- Running a task does not undo a shutdown of the socket. -/
theorem exec_shutWr {s s' : Session} {p : Thread × Task} {answer : WriteResult}
    (hconn : s.conn.Inv) (hst : s.conn.state ≠ .kConnecting) (h : s.exec p answer = .ok s') :
    s'.shutdownAccepted = s.shutdownAccepted ∧ s'.queue = s.queue ∧
      (s.conn.socket.shutWr = true → s'.conn.socket.shutWr = true) := by
  obtain ⟨c', cbs, hrun, rfl⟩ := exec_ok h
  obtain ⟨c'', cbs', hrun', heff⟩ := p.2.run_spec hconn hst answer
  rw [hrun] at hrun'
  cases hrun'
  exact ⟨rfl, rfl, heff.shutWr⟩

/-- The lambda of `shutdown()` shuts the socket down, unless the connection is
writing. -/
theorem exec_shutdown {s s' : Session} {thread : Thread} {answer : WriteResult}
    (hw : s.conn.channel.isWriting = false)
    (h : s.exec (thread, .shutdown) answer = .ok s') : s'.conn.socket.shutWr = true := by
  obtain ⟨c', cbs, hrun, rfl⟩ := exec_ok h
  simp only [Task.run, hw, Bool.false_eq_true, if_false, pure_eq_ok] at hrun
  cases hrun
  rfl

/-- A request that may leave a task keeps the promise. -/
theorem Promised.runInLoop {s s' : Session} (h : s.Promised) {c₁ : TcpConnection}
    (task : Option Task) (heff : Effect s.conn [] c₁ [])
    (htask : task ≠ none → c₁.state ≠ .kConnecting) {thread : Thread} {answer : WriteResult}
    (hrun : s.runInLoop thread answer (c₁, task) = .ok s') : s'.Promised := by
  cases task with
  | none =>
      rw [← Except.ok.inj hrun]
      exact h.of_shutWr rfl heff.shutWr fun _ ↦ id
  | some task =>
      rw [Session.runInLoop] at hrun
      split at hrun
      · obtain ⟨hacc, hqueue, hwr⟩ := exec_shutWr (by exact heff.inv) (htask (by simp)) hrun
        exact h.of_shutWr hacc (fun hs ↦ hwr (heff.shutWr hs)) fun p hp ↦ by rwa [hqueue]
      · rw [← Except.ok.inj hrun]
        exact h.of_shutWr rfl heff.shutWr fun p hp ↦ List.mem_append_left _ hp

/-- `shutdown()` keeps the promise it makes: its lambda is in line, or has run
and, the connection being idle, has shut the socket down. -/
theorem Promised.shutdown {s s' : Session} (h : s.Promised) {thread : Thread}
    (hidle : s.ShutdownIdle (.shutdown thread))
    (hstep : s.step (.shutdown thread) = some (.ok s')) : s'.Promised := by
  have hrun := Option.some.inj hstep
  by_cases hst : s.conn.state = .kConnected
  · simp only [TcpConnection.shutdown, if_pos hst, Session.runInLoop] at hrun
    split at hrun
    · rename_i hloop
      subst hloop
      exact fun _ ↦ .inl (exec_shutdown (by exact hidle (by simp [runsShutdown, hst])) hrun)
    · rw [← Except.ok.inj hrun]
      exact fun _ ↦ .inr ⟨thread, List.mem_append_right _ (List.mem_singleton_self _)⟩
  · simp only [TcpConnection.shutdown, if_neg hst, Session.runInLoop, Option.isSome_none,
      Bool.or_false] at hrun
    rw [← Except.ok.inj hrun]
    exact h

/-- Every step that does not run the lambda of `shutdown()` on a connection that
is writing keeps the promise. -/
theorem step_promised {s s' : Session} {a : Action} (hinv : s.Inv) (h : s.Promised)
    (hidle : s.ShutdownIdle a) (hstep : s.step a = some (.ok s')) : s'.Promised := by
  cases a with
  | established =>
      rw [step] at hstep
      split at hstep
      · rename_i hst
        obtain ⟨c', hok, -, -, -, -, hsock⟩ := established_spec hinv.conn hst
        rw [hok] at hstep
        rw [← Except.ok.inj (Option.some.inj hstep)]
        exact h.of_shutWr rfl (fun hs ↦ by rwa [← hsock] at hs) fun _ ↦ id
      · cases hstep
  | send thread data answer =>
      obtain ⟨heff, htask⟩ := send_spec hinv.conn data
      exact h.runInLoop (s.conn.send data) heff htask (Option.some.inj hstep)
  | shutdown thread => exact h.shutdown hidle hstep
  | forceClose thread =>
      obtain ⟨heff, htask⟩ := forceClose_spec hinv.conn
      exact h.runInLoop _ heff htask (Option.some.inj hstep)
  | handleRead answer =>
      rw [step] at hstep
      split at hstep
      · cases hstep
      · obtain ⟨c', cbs, hok, heff⟩ := handleRead_spec hinv.conn answer
        rw [hok] at hstep
        rw [← Except.ok.inj (Option.some.inj hstep)]
        exact h.of_shutWr rfl heff.shutWr fun _ ↦ id
  | handleWrite answer =>
      obtain ⟨c', hok, heff, -⟩ := handleWrite_spec hinv.conn answer
      rw [step, hok] at hstep
      rw [← Except.ok.inj (Option.some.inj hstep)]
      exact h.of_shutWr rfl heff.shutWr fun _ ↦ id
  | runTask answer =>
      rw [step] at hstep
      cases hq : s.queue with
      | nil => rw [hq] at hstep; cases hstep
      | cons p rest =>
          rw [hq] at hstep
          have hexec := Option.some.inj hstep
          obtain ⟨hacc, hqueue, hwr⟩ := exec_shutWr (by exact hinv.conn)
            (by exact hinv.queue (by simp [hq])) hexec
          intro hacc'
          rcases h (hacc ▸ hacc') with hs | ⟨thread, hmem⟩
          · exact .inl (hwr hs)
          · rw [hq] at hmem
            rcases List.mem_cons.mp hmem with rfl | hmem
            · exact .inl (exec_shutdown (by exact hidle (by simp [runsShutdown, hq])) hexec)
            · exact .inr ⟨thread, by rwa [hqueue]⟩
  | setInBuffer inBuffer =>
      rw [← Except.ok.inj (Option.some.inj hstep)]
      exact h

/-- **Deferred half-close.**  In the runs in which the lambda of `shutdown()` is
never run while the connection is watching for room to write, a shutdown that was
accepted has reached the socket of every connection with nothing left to do.  A
`shutdown` or `force_close` of another thread is one step of the run. -/
theorem halfClosed_of_drained (sockfd : Nat) (as : List Action) (r : Except NoReturn Session)
    (hidle : AllSteps (liftAbort step) (WhileAlive ShutdownIdle) (.ok (new sockfd)) as)
    (h : Run sockfd as r) : ∃ s, r = .ok s ∧ s.HalfClosed := by
  obtain ⟨s, rfl, -, hpromised⟩ := run_alive_of_allSteps (I := fun s ↦ s.Inv ∧ s.Promised)
    (fun s a r hs hidle hstep ↦ by
      obtain ⟨s', rfl, hinv⟩ := step_inv s a r hs.1 hstep
      exact ⟨s', rfl, hinv, step_promised hs.1 hs.2 hidle hstep⟩)
    ⟨inv_new sockfd, fun hacc ↦ by cases hacc⟩ hidle h
  exact ⟨s, rfl, hpromised.halfClosed⟩

/-- A shutdown asked for by another thread, taken up by an idle connection. -/
theorem halfClosed_of_drained_run :
    ∃ s, Run 7 [.established, .send .loop [1, 2, 3] (.wrote 3), .shutdown (.other 1),
        .runTask .failed] (.ok s) ∧ s.HalfClosed ∧ s.conn.socket.shutWr = true := by
  obtain ⟨s, hrun, hs⟩ := exists_run_ok step (.ok (new 7)) [.established,
    .send .loop [1, 2, 3] (.wrote 3), .shutdown (.other 1), .runTask .failed]
    (fun s ↦ s.conn.socket.shutWr) (by decide +kernel)
  obtain ⟨s', hs', hhalf⟩ := halfClosed_of_drained 7 _ _ (by decide +kernel) hrun
  cases hs'
  exact ⟨s, hrun, hhalf, hs⟩

/-- Shutting down while output is pending: the lambda leaves the shutdown to
`handle_write`, which asks `shutdown()` for it again; but `shutdown()` refuses,
the state being `kDisconnecting` already. -/
theorem not_halfClosed :
    ∃ s, Run 7 [.established, .send .loop [1, 2, 3] (.wrote 1), .shutdown .loop,
        .handleWrite (.wrote 2)] (.ok s) ∧ ¬ s.HalfClosed := by
  obtain ⟨s, hrun, hs⟩ := exists_run_ok step (.ok (new 7)) [.established,
    .send .loop [1, 2, 3] (.wrote 1), .shutdown .loop, .handleWrite (.wrote 2)] (fun s ↦ decide
      (s.shutdownAccepted = true ∧ s.conn.state ≠ .kDisconnected ∧ s.queue = [] ∧
        s.conn.outputBuffer.peek = [] ∧ s.conn.channel.isWriting = false ∧
        s.conn.socket.shutWr = false)) (by decide +kernel)
  obtain ⟨hacc, hst, hqueue, hout, hwriting, hwr⟩ := of_decide_eq_true hs
  refine ⟨s, hrun, ?_⟩
  intro h
  rw [h hacc hst hqueue hout hwriting] at hwr
  cases hwr

end Session

end Wuduo.TcpConnection
