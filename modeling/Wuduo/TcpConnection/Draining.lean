import Wuduo.TcpConnection.HalfClose

/-!
# Accepted data and the half-close

A message that `send` has accepted is in one of three places: in the queue of the
loop, in the output buffer, or in the socket.  The lambda of `shutdown()` looks at
the interest in writing only, which speaks for the output buffer, as long as the
connection has not been closed.  For the queue speaks the order of its tasks, if the
lambda is one of them.

## Results

* `drained`: what was accepted before `shutdown()` was called is written before the
  half-close, in the runs in which the loop thread does not shut down over a
  message that is waiting for it, and no lambda of `shutdown()` is run on a
  connection that has been closed;
* `not_drained`: a message of another thread is still waiting when the loop thread
  shuts the connection down; `not_drained_closed`: the lambda is run on a connection
  that was closed with output pending.
-/

namespace Wuduo.TcpConnection

/-- The bytes of messages, in order. -/
def bytesOf (messages : List Message) : Bytes := messages.flatMap Message.data

@[simp] theorem bytesOf_append (ms ms' : List Message) :
    bytesOf (ms ++ ms') = bytesOf ms ++ bytesOf ms' :=
  List.flatMap_append

/-- What had been returned when the call behind a closure was made. -/
def Closure.before : Closure → List Message
  | .raw _ call => call.before
  | .established | .destroyed => []

theorem Request.started_of_accepts {r : Request} {st : State} (h : r.accepts st = true) :
    st ≠ .kConnecting := by
  rintro rfl
  cases r <;> simp [Request.accepts] at h

@[simp] theorem Request.bytesOf_messages (r : Request) (id : Nat) :
    bytesOf (r.messages id) = r.task.message := by
  cases r with
  | send data => exact List.append_nil _
  | shutdown | forceClose => rfl

theorem Request.id_of_mem_messages {r : Request} {id : Nat} {m : Message}
    (h : m ∈ r.messages id) : m.id = id := by
  cases r with
  | send data => rw [List.mem_singleton.mp h]
  | shutdown | forceClose => cases h

/-- What a call does before it hands over its task. -/
theorem Request.call_spec (request : Request) {c : TcpConnection} (h : c.Inv) :
    Effect c [] (request.call c).1 [] ∧
      ((request.call c).2 ≠ none → (request.call c).1.state ≠ .kConnecting) := by
  cases request with
  | send data => exact send_spec h data
  | shutdown => exact shutdown_spec h
  | forceClose => exact forceClose_spec h

namespace Shared

open Transition

/-- The messages that wait in the queue. -/
def queued (s : Shared) : List Message := s.io.waiting.flatMap Closure.messages

/-- Every byte of a message has been written to the socket, in its place. -/
def Written (s : Shared) (m : Message) : Prop :=
  ∃ front back, s.lined = front ++ m :: back ∧ bytesOf (front ++ [m]) <+: s.conn.socket.written

/-- A half-close finds every byte written that was accepted before it was asked
for. -/
def Drained (s : Shared) (a : Action) : Prop :=
  ∀ before ∈ s.halfCloses a, ∀ m ∈ before, m.data ≠ [] → s.Written m

/-- The loop thread does not shut down over a message that waits in the queue, and no
lambda of `shutdown()` from the queue is run on a connection that has been closed. -/
def Graceful (s : Shared) (a : Action) : Prop :=
  (s.halfCloses a).isSome = true →
    match a with
    | .loop (.runTask _) => ¬ s.conn.HasClosed
    | _ => ∀ m ∈ s.queued, m.data = []

instance (s : Shared) : ∀ a, Decidable (s.Graceful a)
  | .loop (.runTask _) => inferInstanceAs (Decidable (_ → ¬ s.conn.HasClosed))
  | .caller _ | .base _ | .loop .swap | .loop .finish | .loop (.read _) | .loop (.write _)
  | .loop (.call _ _) | .loop (.setInBuffer _) | .loop .return | .loop .closeCallback =>
      inferInstanceAs (Decidable (_ → ∀ m ∈ s.queued, m.data = []))

/-! ## Where the messages are -/

theorem started_of_shows {s : Shared} {seen : State} {request : Request}
    (hshows : s.shows seen = true) (hacc : request.accepts seen = true) :
    s.conn.state ≠ .kConnecting := by
  rcases of_decide_eq_true hshows with rfl | ⟨-, hst, -⟩
  · exact Request.started_of_accepts hacc
  · rw [hst]
    simp

/-- The messages handed to the loop by calls that have returned or are about to. -/
def handed (s : Shared) : List Message :=
  s.returned ++ s.calls.flatMap fun p ↦ p.2.messages p.1.request

theorem mem_handed {s : Shared} {m : Message} :
    m ∈ s.handed ↔ m ∈ s.returned ∨ ∃ p ∈ s.calls, m ∈ p.2.messages p.1.request := by
  rw [handed, List.mem_append, List.mem_flatMap]

/-- What a call adds by moving on. -/
theorem handed_setCall {s : Shared} {i : Nat} {call : Call} {stage : Stage} {m : Message}
    (hm : m ∈ handed { s with calls := s.calls.set i (call, stage) }) :
    m ∈ s.handed ∨ m ∈ stage.messages call.request := by
  rw [mem_handed] at hm
  rcases hm with hm | ⟨p, hp, hm⟩
  · exact .inl (mem_handed.mpr (.inl hm))
  · rcases List.mem_or_eq_of_mem_set hp with hp | rfl
    · exact .inl (mem_handed.mpr (.inr ⟨p, hp, hm⟩))
    · exact .inr hm

/-- What holds between the steps, whatever the calls of other threads do to
`state_`. -/
structure Inv (s : Shared) : Prop where
  settled : s.conn.Settled
  /-- no call gets beyond its test before `established()` -/
  callStarted : ∀ p ∈ s.calls, p.2 ≠ .called → p.2 ≠ .refused → s.conn.state ≠ .kConnecting
  taskStarted : ∀ closure ∈ s.io.waiting, closure.isRaw = true → s.conn.state ≠ .kConnecting
  /-- a connection that has not been closed has everything in line that it was given -/
  stream : ¬ s.conn.HasClosed → s.conn.Inv ∧ s.conn.stream = bytesOf s.lined
  callBefore : ∀ p ∈ s.calls, p.1.before ⊆ s.returned
  taskBefore : ∀ closure ∈ s.io.waiting, closure.before ⊆ s.returned
  numbered : ∀ m ∈ s.handed, m.id < s.made
  /-- nothing gets lost before the connection is closed -/
  placed : ¬ s.conn.HasClosed → ∀ m ∈ s.handed, m ∈ s.lined ∨ m ∈ s.queued
  /-- what was accepted before a call was made is not queued behind it -/
  order : s.io.waiting.Pairwise fun a b ↦ ∀ m ∈ b.messages, m ∉ a.before

/-! ## What a half-close finds -/

/-- On a connection that is open and not watching for room to write, everything in
line has been written. -/
theorem Inv.written_of_mem_lined {s : Shared} (h : s.Inv) (hopen : ¬ s.conn.HasClosed)
    (hw : s.conn.channel.isWriting = false) {m : Message} (hm : m ∈ s.lined) : s.Written m := by
  obtain ⟨hinv, hstream⟩ := h.stream hopen
  have hst : s.conn.state ≠ .kDisconnected := fun hst ↦ hopen (hasClosed_of_state hst)
  have hout : s.conn.outputBuffer.peek = [] := by
    by_contra hne
    rw [(hinv.watched hst).mpr hne] at hw
    cases hw
  rw [TcpConnection.stream, hout, List.append_nil] at hstream
  obtain ⟨front, back, hlined⟩ := List.append_of_mem hm
  refine ⟨front, back, hlined, ?_⟩
  have hsplit : s.lined = (front ++ [m]) ++ back := by rw [hlined, List.append_cons]
  rw [hstream, hsplit, bytesOf_append (front ++ [m])]
  exact List.prefix_append _ _

/-- A half-close by a call of the loop thread, when nothing waits in the queue. -/
theorem Inv.written_of_call {s : Shared} (h : s.Inv) (hst : s.conn.state = .kConnected)
    (hw : s.conn.channel.isWriting = false) (hidle : ∀ m ∈ s.queued, m.data = []) {m : Message}
    (hm : m ∈ s.returned) (hne : m.data ≠ []) : s.Written m := by
  have hopen : ¬ s.conn.HasClosed := by
    intro hc
    rcases h.settled hc with hd | hd <;> rw [hst] at hd <;> cases hd
  rcases h.placed hopen m (mem_handed.mpr (.inl hm)) with hlined | hqueued
  · exact h.written_of_mem_lined hopen hw hlined
  · exact absurd (hidle m hqueued) hne

/-- A half-close by a task: what was accepted before `shutdown()` was called is not
queued behind it. -/
theorem Inv.written_of_task {s : Shared} (h : s.Inv) (hopen : ¬ s.conn.HasClosed)
    (hw : s.conn.channel.isWriting = false) {id : Nat} {call : Call} {io : BatchQueue Closure}
    (hnext : s.io.next = some (.raw id call, io)) (hshut : call.request = .shutdown) {m : Message}
    (hm : m ∈ call.before) : s.Written m := by
  have hwaiting := BatchQueue.waiting_next hnext
  have hret : m ∈ s.returned :=
    h.taskBefore (.raw id call) (by rw [hwaiting]; exact List.mem_cons_self) hm
  rcases h.placed hopen m (mem_handed.mpr (.inl hret)) with hlined | hqueued
  · exact h.written_of_mem_lined hopen hw hlined
  · rw [queued, hwaiting, List.flatMap_cons, Closure.messages, hshut] at hqueued
    obtain ⟨closure, hmem, hm'⟩ := List.mem_flatMap.mp hqueued
    have horder := h.order
    rw [hwaiting, List.pairwise_cons] at horder
    exact absurd hm (horder.1 closure hmem m hm')

theorem Inv.drained_of_graceful {s : Shared} (h : s.Inv) {a : Action} (hg : s.Graceful a) :
    s.Drained a := by
  intro before hbefore m hm hne
  have hsome : (s.halfCloses a).isSome = true := by
    rw [Option.mem_def.mp hbefore]
    rfl
  have hg := hg hsome
  cases a with
  | caller a | base a => cases hbefore
  | loop a =>
      cases a with
      | call request answer =>
          cases request with
          | send data | forceClose => cases hbefore
          | shutdown =>
              obtain ⟨⟨hst, hw⟩, heq⟩ := Option.ite_none_right_eq_some.mp hbefore
              cases heq
              exact h.written_of_call hst hw hg hm hne
      | runTask answer =>
          simp only [halfCloses] at hbefore
          split at hbefore
          · rename_i id before' io hnext
            split at hbefore
            · cases hbefore
            · rename_i hw
              cases hbefore
              exact h.written_of_task hg (by simpa using hw) hnext rfl hm
          · cases hbefore
      | swap | finish | read | write | setInBuffer | «return» | closeCallback => cases hbefore

/-! ## Steps of the loops -/

/-- The loop thread has run a function, for tasks it took from the queue. -/
theorem Inv.run {s : Shared} (h : s.Inv) {closures : List Closure} {io : BatchQueue Closure}
    (hw : s.io.waiting = closures ++ io.waiting) {conn : TcpConnection}
    (hon : Onward s.conn conn) {lined : List Message} {frames : List Frame}
    (hout : ¬ conn.HasClosed → conn.Inv ∧ conn.stream = bytesOf lined ∧
      ∀ m, m ∈ s.lined ∨ m ∈ closures.flatMap Closure.messages → m ∈ lined) :
    Inv { s with conn, io, lined, frames } where
  settled := hon.settled h.settled
  callStarted p hp hc hr := hon.started (h.callStarted p hp hc hr)
  taskStarted closure hmem hraw :=
    hon.started (h.taskStarted closure (by rw [hw]; exact List.mem_append_right _ hmem) hraw)
  stream hopen := ⟨(hout hopen).1, (hout hopen).2.1⟩
  callBefore := h.callBefore
  taskBefore closure hmem :=
    h.taskBefore closure (by rw [hw]; exact List.mem_append_right _ hmem)
  numbered := h.numbered
  placed hopen m hm := by
    have hmono := (hout hopen).2.2 m
    rcases h.placed (fun hc ↦ hopen (hon.hasClosed hc)) m hm with hm | hm
    · exact .inl (hmono (.inl hm))
    · rw [queued, hw, List.flatMap_append, List.mem_append] at hm
      exact hm.imp_left fun hm ↦ hmono (.inr hm)
  order := by
    have horder := h.order
    rw [hw] at horder
    exact (List.pairwise_append.mp horder).2.1

/-- What does not concern the messages. -/
theorem Inv.frame {s : Shared} (h : s.Inv) {io : BatchQueue Closure}
    (hw : io.waiting = s.io.waiting) (registered : Bool) (base : BatchQueue Unit)
    (frames : List Frame) : Inv { s with io, registered, base, frames } where
  settled := h.settled
  callStarted := h.callStarted
  taskStarted closure hmem := h.taskStarted closure (hw ▸ hmem)
  stream := h.stream
  callBefore := h.callBefore
  taskBefore closure hmem := h.taskBefore closure (hw ▸ hmem)
  numbered := h.numbered
  placed hopen m hm := by
    rw [queued, hw]
    exact h.placed hopen m hm
  order := by
    rw [hw]
    exact h.order

/-- A function that takes nothing from the queue and puts nothing in line. -/
theorem Inv.of_effect {s : Shared} (h : s.Inv) {conn : TcpConnection} (hon : Onward s.conn conn)
    (heff : ¬ s.conn.HasClosed → s.conn.Inv → ∃ cbs, Effect s.conn [] conn cbs)
    (frames : List Frame) : Inv { s with conn, frames } := by
  refine h.run (List.nil_append s.io.waiting).symm hon ?_
  intro hopen
  have hopen₀ : ¬ s.conn.HasClosed := fun hc ↦ hopen (hon.hasClosed hc)
  obtain ⟨hinv, hstream⟩ := h.stream hopen₀
  obtain ⟨cbs, heff⟩ := heff hopen₀ hinv
  refine ⟨heff.inv, ?_, ?_⟩
  · rw [heff.stream_eq fun hst ↦ hopen (hasClosed_of_state hst), hstream, List.append_nil]
  · rintro m (hm | hm)
    · exact hm
    · cases hm

/-- A closure of the server is put in line. -/
theorem Inv.pushServer {s : Shared} (h : s.Inv) {x : Closure} (hraw : x.isRaw = false) :
    Inv { s with io := s.io.push x } := by
  have hmem : ∀ closure ∈ (s.io.push x).waiting, closure ∈ s.io.waiting ∨ closure = x := by
    intro closure hmem
    rwa [BatchQueue.waiting_push, List.mem_append, List.mem_singleton] at hmem
  have hno : x.messages = [] ∧ x.before = [] := by
    cases x with
    | established | destroyed => exact ⟨rfl, rfl⟩
    | raw => cases hraw
  refine ⟨h.settled, h.callStarted, ?_, h.stream, h.callBefore, ?_, h.numbered, ?_, ?_⟩
  · intro closure hc hraw'
    rcases hmem closure hc with hc | rfl
    · exact h.taskStarted closure hc hraw'
    · rw [hraw] at hraw'
      cases hraw'
  · intro closure hc
    rcases hmem closure hc with hc | rfl
    · exact h.taskBefore closure hc
    · rw [hno.2]
      exact List.nil_subset _
  · intro hopen m hm
    rw [queued, BatchQueue.waiting_push, List.flatMap_append, List.flatMap_singleton, hno.1,
      List.append_nil]
    exact h.placed hopen m hm
  · rw [BatchQueue.waiting_push, List.pairwise_append]
    refine ⟨h.order, List.pairwise_singleton _ _, ?_⟩
    intro a _ b hb m hm
    rw [List.mem_singleton.mp hb, hno.1] at hm
    cases hm

/-- `established()` is run, as a task or by `new_connection`. -/
theorem Inv.established {s s' : Shared} (h : s.Inv) {closures : List Closure}
    {io : BatchQueue Closure} (hw : s.io.waiting = closures ++ io.waiting)
    (hno : closures.flatMap Closure.messages = [])
    (hact : { s with io }.act s.conn.established = .ok s') : s'.Inv := by
  obtain ⟨conn, cbs, hok, rfl⟩ := act_ok hact
  have hon := (onward_established hok).1
  refine h.run hw hon ?_
  intro hopen
  obtain ⟨hinv, hstream⟩ := h.stream fun hc ↦ hopen (hon.hasClosed hc)
  have hst : s.conn.state = .kConnecting := by
    by_contra hst
    rw [TcpConnection.established, if_neg hst] at hok
    cases hok
  obtain ⟨c', hok', hinv', -, -, hstream', -⟩ := established_spec hinv hst
  cases hok.symm.trans hok'
  refine ⟨hinv', hstream'.trans hstream, ?_⟩
  rw [hno]
  rintro m (hm | hm)
  · exact hm
  · cases hm

theorem Inv.eraseConnection {s s' : Shared} (h : s.Inv) (herase : s.eraseConnection = .ok s') :
    s'.Inv := by
  obtain ⟨-, rfl⟩ := eraseConnection_ok herase
  exact (h.pushServer rfl).frame rfl false s.base s.frames

theorem Inv.removeConnection {s s' : Shared} (h : s.Inv) (hrem : s.removeConnection = .ok s') :
    s'.Inv := by
  rcases removeConnection_ok hrem with herase | rfl
  · exact h.eraseConnection herase
  · exact h.frame rfl _ _ _

/-- The task of a call from another thread is run. -/
theorem Inv.execRaw {s s' : Shared} (h : s.Inv) {id : Nat} {call : Call}
    {io : BatchQueue Closure} (hw : s.io.waiting = [.raw id call] ++ io.waiting)
    {answer : WriteResult}
    (hact : (enlist { s with io } (call.request.messages id)).act
      (call.request.task.run s.conn answer) = .ok s') : s'.Inv := by
  obtain ⟨conn, cbs, hok, rfl⟩ := act_ok hact
  have hon := (Task.onward hok).1
  refine h.run hw hon ?_
  intro hopen
  have hopen₀ : ¬ s.conn.HasClosed := fun hc ↦ hopen (hon.hasClosed hc)
  obtain ⟨hinv, hstream⟩ := h.stream hopen₀
  have hst := h.taskStarted (.raw id call) (by rw [hw]; exact List.mem_cons_self) rfl
  obtain ⟨c', cbs', hok', heff⟩ := call.request.task.run_spec hinv hst answer
  cases hok.symm.trans hok'
  -- the connection is open, so that `send_in_loop` gives nothing up
  have henlist : (enlist { s with io } (call.request.messages id)).lined
      = s.lined ++ call.request.messages id :=
    if_neg fun hd ↦ hopen₀ (hasClosed_of_state hd)
  refine ⟨heff.inv, ?_, ?_⟩
  · rw [heff.stream_eq fun hd ↦ hopen (hasClosed_of_state hd), henlist, bytesOf_append,
      Request.bytesOf_messages]
    exact congrArg (· ++ _) hstream
  · intro m hm
    rw [henlist, List.mem_append]
    simpa [Closure.messages] using hm

/-- A task is run. -/
theorem Inv.exec {s s' : Shared} (h : s.Inv) {closure : Closure} {io : BatchQueue Closure}
    (hnext : s.io.next = some (closure, io)) {answer : WriteResult}
    (hexec : { s with io }.exec answer closure = .ok s') : s'.Inv := by
  have hw : s.io.waiting = [closure] ++ io.waiting := BatchQueue.waiting_next hnext
  cases closure with
  | established => exact h.established hw rfl hexec
  | raw id call => exact h.execRaw hw hexec
  | destroyed =>
      obtain ⟨conn, cbs, hok, rfl⟩ := act_ok hexec
      obtain ⟨⟨hon, -⟩, hconn⟩ := onward_destroyed hok
      refine h.run hw hon ?_
      intro hopen
      obtain rfl : conn = s.conn := hconn.resolve_right hopen
      obtain ⟨hinv, hstream⟩ := h.stream hopen
      refine ⟨hinv, hstream, ?_⟩
      rintro m (hm | hm)
      · exact hm
      · cases hm

/-- A call in the loop thread has run its task and returned. -/
theorem Inv.runOwn {s : Shared} (h : s.Inv) {conn : TcpConnection} (hon : Onward s.conn conn)
    {messages : List Message} (hid : ∀ m ∈ messages, m.id = s.made)
    (hout : ¬ conn.HasClosed → conn.Inv ∧ conn.stream = bytesOf (s.lined ++ messages))
    (frames : List Frame) :
    Inv { s with
      conn, frames, made := s.made + 1
      returned := s.returned ++ messages, lined := s.lined ++ messages } where
  settled := hon.settled h.settled
  callStarted p hp hc hr := hon.started (h.callStarted p hp hc hr)
  taskStarted closure hmem hraw := hon.started (h.taskStarted closure hmem hraw)
  stream := hout
  callBefore p hp m hm := List.mem_append_left _ (h.callBefore p hp hm)
  taskBefore closure hmem m hm := List.mem_append_left _ (h.taskBefore closure hmem hm)
  numbered m hm := by
    rw [mem_handed, List.mem_append, or_assoc, or_left_comm, ← mem_handed] at hm
    rcases hm with hm | hm
    · rw [hid m hm]
      exact Nat.lt_succ_self _
    · exact Nat.lt_succ_of_lt (h.numbered m hm)
  placed hopen m hm := by
    rw [mem_handed, List.mem_append, or_assoc, or_left_comm, ← mem_handed] at hm
    rcases hm with hm | hm
    · exact .inl (List.mem_append_right _ hm)
    · exact (h.placed (fun hc ↦ hopen (hon.hasClosed hc)) m hm).imp_left
        (List.mem_append_left _)
  order := h.order

theorem Inv.callInLoop {s s' : Shared} (h : s.Inv) {request : Request} {answer : WriteResult}
    (hcall : s.callInLoop request answer = .ok s') : s'.Inv := by
  obtain ⟨conn, cbs, hok, rfl⟩ := act_ok hcall
  have hon : Onward s.conn conn := (request.onward_call s.conn).1.trans (onward_runInLoop hok).1
  refine h.runOwn hon ?_ ?_ _
  · intro m hm
    split at hm
    · exact Request.id_of_mem_messages hm
    · cases hm
  · intro hopen
    obtain ⟨hinv, hstream⟩ := h.stream fun hc ↦ hopen (hon.hasClosed hc)
    obtain ⟨heff, htask⟩ := request.call_spec hinv
    obtain ⟨c', cbs', hok', heff'⟩ := runInLoop_spec heff htask answer
    cases hok.symm.trans hok'
    refine ⟨heff'.inv, ?_⟩
    rw [heff'.stream_eq fun hd ↦ hopen (hasClosed_of_state hd), hstream, bytesOf_append,
      request.call_eq]
    split
    · rw [Request.bytesOf_messages]
      rfl
    · rfl

theorem Inv.stepLoop {s s' : Shared} (h : s.Inv) {a : LoopAction}
    (hstep : s.stepLoop a = some (.ok s')) : s'.Inv := by
  cases a with
  | swap =>
      obtain ⟨io, hswap, rfl⟩ := stepLoop_swap hstep
      exact h.frame (BatchQueue.waiting_swap hswap) _ _ _
  | finish =>
      obtain ⟨io, hfinish, rfl⟩ := stepLoop_finish hstep
      exact h.frame (BatchQueue.waiting_finish hfinish) _ _ _
  | runTask answer =>
      obtain ⟨closure, io, hnext, hexec⟩ := stepLoop_runTask hstep
      exact h.exec hnext hexec
  | read answer =>
      obtain ⟨conn, cbs, hok, rfl⟩ := act_ok (stepLoop_read hstep)
      refine h.of_effect (onward_handleRead hok).1 ?_ _
      intro _ hinv
      obtain ⟨c', cbs', hok', heff⟩ := handleRead_spec hinv answer
      cases hok.symm.trans hok'
      exact ⟨_, heff⟩
  | write answer =>
      obtain ⟨conn, cbs, hok, rfl⟩ := act_ok (stepLoop_write hstep)
      refine h.of_effect (onward_handleWrite hok).1 ?_ _
      intro _ hinv
      obtain ⟨c', hok', heff, -⟩ := handleWrite_spec hinv answer
      cases hok.symm.trans hok'
      exact ⟨_, heff⟩
  | call request answer => exact h.callInLoop (stepLoop_call hstep)
  | setInBuffer inBuffer =>
      rw [stepLoop_setInBuffer hstep]
      have hon : Onward s.conn { s.conn with inBuffer } := Onward.of_eq rfl rfl
      refine h.of_effect hon ?_ s.frames
      intro _ hinv
      exact ⟨_, Effect.setInBuffer hinv inBuffer⟩
  | «return» =>
      obtain ⟨frames, rfl⟩ := stepLoop_return hstep
      exact h.frame rfl _ _ _
  | closeCallback =>
      obtain ⟨frames, hrem⟩ := stepLoop_closeCallback hstep
      have h' : Inv { s with frames } := h.frame rfl _ _ _
      exact h'.removeConnection hrem

theorem Inv.stepBase {s s' : Shared} (h : s.Inv) {a : BaseAction}
    (hstep : s.stepBase a = some (.ok s')) : s'.Inv := by
  obtain ⟨base, rfl | herase⟩ := stepBase_ok hstep
  · exact h.frame rfl _ _ _
  · have h' : Inv { s with base } := h.frame rfl _ _ _
    exact h'.eraseConnection herase

/-! ## Steps of other threads -/

/-- A call moves on without handing anything over. -/
theorem Inv.setCall {s : Shared} (h : s.Inv) {i : Nat} {call : Call} {stage stage' : Stage}
    (hi : s.calls[i]? = some (call, stage)) (hno : stage'.messages call.request = [])
    (hst : stage' ≠ .refused → s.conn.state ≠ .kConnecting) :
    Inv { s with calls := s.calls.set i (call, stage') } := by
  have hhanded : ∀ m ∈ handed { s with calls := s.calls.set i (call, stage') }, m ∈ s.handed := by
    intro m hm
    apply (handed_setCall hm).resolve_right
    rw [hno]
    exact List.not_mem_nil
  refine ⟨h.settled, ?_, h.taskStarted, h.stream, ?_, h.taskBefore, ?_, ?_, h.order⟩
  · intro p hp hc hr
    rcases List.mem_or_eq_of_mem_set hp with hp | rfl
    · exact h.callStarted p hp hc hr
    · exact hst hr
  · intro p hp
    rcases List.mem_or_eq_of_mem_set hp with hp | rfl
    · exact h.callBefore p hp
    · exact h.callBefore (call, stage) (List.mem_of_getElem? hi)
  · intro m hm
    exact h.numbered m (hhanded m hm)
  · intro hopen m hm
    exact h.placed hopen m (hhanded m hm)

/-- The queue takes what a call hands over. -/
theorem Inv.push {s : Shared} (h : s.Inv) {i : Nat} {call : Call}
    (hi : s.calls[i]? = some (call, .marked)) :
    Inv { s with
      io := s.io.push (.raw s.made call)
      calls := s.calls.set i (call, .queued s.made)
      made := s.made + 1 } := by
  have hcall := List.mem_of_getElem? hi
  have hst := h.callStarted _ hcall (by simp) (by simp)
  have hqueued : ∀ m, m ∈ s.queued ∨ m ∈ call.request.messages s.made →
      m ∈ (s.io.push (.raw s.made call)).waiting.flatMap Closure.messages := by
    intro m hm
    rw [BatchQueue.waiting_push, List.flatMap_append, List.flatMap_singleton, List.mem_append]
    exact hm
  refine ⟨h.settled, fun _ _ _ _ ↦ hst, fun _ _ _ ↦ hst, h.stream, ?_, ?_, ?_, ?_, ?_⟩
  · intro p hp
    rcases List.mem_or_eq_of_mem_set hp with hp | rfl
    · exact h.callBefore p hp
    · exact h.callBefore (call, .marked) hcall
  · intro closure hmem
    rw [BatchQueue.waiting_push, List.mem_append, List.mem_singleton] at hmem
    rcases hmem with hmem | rfl
    · exact h.taskBefore closure hmem
    · exact h.callBefore (call, .marked) hcall
  · intro m hm
    rcases handed_setCall hm with hm | hm
    · exact Nat.lt_succ_of_lt (h.numbered m hm)
    · rw [Request.id_of_mem_messages hm]
      exact Nat.lt_succ_self _
  · intro hopen m hm
    rcases handed_setCall hm with hm | hm
    · exact (h.placed hopen m hm).imp_right fun hm ↦ hqueued m (.inl hm)
    · exact .inr (hqueued m (.inr hm))
  · rw [BatchQueue.waiting_push, List.pairwise_append]
    refine ⟨h.order, List.pairwise_singleton _ _, ?_⟩
    intro a ha b hb m hm hbefore
    rw [List.mem_singleton.mp hb] at hm
    -- what a task was behind of has an older number
    have hlt := h.numbered m (mem_handed.mpr (.inl (h.taskBefore a ha hbefore)))
    rw [Request.id_of_mem_messages hm] at hlt
    exact absurd hlt (Nat.lt_irrefl _)

/-- A call returns. -/
theorem Inv.return {s : Shared} (h : s.Inv) {i : Nat} {messages : List Message}
    (hm : ∀ m ∈ messages, m ∈ s.handed) :
    Inv { s with calls := s.calls.eraseIdx i, returned := s.returned ++ messages } := by
  have hhanded : ∀ m ∈ handed { s with
      calls := s.calls.eraseIdx i, returned := s.returned ++ messages }, m ∈ s.handed := by
    intro m' hm'
    rw [mem_handed, List.mem_append] at hm'
    rcases hm' with (hm' | hm') | ⟨p, hp, hm'⟩
    · exact mem_handed.mpr (.inl hm')
    · exact hm m' hm'
    · exact mem_handed.mpr (.inr ⟨p, List.mem_of_mem_eraseIdx hp, hm'⟩)
  refine ⟨h.settled, ?_, h.taskStarted, h.stream, ?_, ?_, ?_, ?_, h.order⟩
  · intro p hp
    exact h.callStarted p (List.mem_of_mem_eraseIdx hp)
  · intro p hp m hm
    exact List.mem_append_left _ (h.callBefore p (List.mem_of_mem_eraseIdx hp) hm)
  · intro closure hmem m hm
    exact List.mem_append_left _ (h.taskBefore closure hmem hm)
  · intro m hm
    exact h.numbered m (hhanded m hm)
  · intro hopen m hm
    exact h.placed hopen m (hhanded m hm)

/-- A call is made. -/
theorem Inv.call {s : Shared} (h : s.Inv) (request : Request) :
    Inv { s with calls := s.calls ++ [(⟨request, s.returned⟩, .called)] } := by
  have hhanded : ∀ m ∈ handed { s with
      calls := s.calls ++ [(⟨request, s.returned⟩, .called)] }, m ∈ s.handed := by
    intro m hm
    rw [mem_handed] at hm ⊢
    apply hm.imp_right
    rintro ⟨p, hp, hm⟩
    rcases List.mem_append.mp hp with hp | hp
    · exact ⟨p, hp, hm⟩
    · rw [List.mem_singleton.mp hp] at hm
      cases hm
  refine ⟨h.settled, ?_, h.taskStarted, h.stream, ?_, h.taskBefore, ?_, ?_, h.order⟩
  · intro p hp hc hr
    rcases List.mem_append.mp hp with hp | hp
    · exact h.callStarted p hp hc hr
    · rw [List.mem_singleton.mp hp] at hc
      exact absurd rfl hc
  · intro p hp
    rcases List.mem_append.mp hp with hp | hp
    · exact h.callBefore p hp
    · rw [List.mem_singleton.mp hp]
      exact List.Subset.refl _
  · intro m hm
    exact h.numbered m (hhanded m hm)
  · intro hopen m hm
    exact h.placed hopen m (hhanded m hm)

/-- `set_state` comes in, however late. -/
theorem Inv.mark {s : Shared} (h : s.Inv) (request : Request)
    (hst : s.conn.state ≠ .kConnecting) : Inv { s with conn := request.mark s.conn } := by
  cases request with
  | send data => exact h
  | shutdown | forceClose =>
      refine h.of_effect (onward_setState s.conn (.inl rfl)) ?_ s.frames
      intro hopen hinv
      refine ⟨[], Effect.of_setState hinv ?_⟩
      cases hs : s.conn.state with
      | kConnecting => exact absurd hs hst
      | kConnected => exact .inl rfl
      | kDisconnecting => exact .inr rfl
      | kDisconnected => exact absurd (hasClosed_of_state hs) hopen

theorem Inv.stepCaller {s s' : Shared} (h : s.Inv) {a : CallerAction}
    (hstep : s.stepCaller a = some s') : s'.Inv := by
  cases a with
  | call request =>
      rw [stepCaller_call hstep]
      exact h.call request
  | test i seen =>
      obtain ⟨call, hi, hshows, ⟨hacc, rfl⟩ | rfl⟩ := stepCaller_test hstep
      · exact h.setCall hi rfl fun _ ↦ started_of_shows hshows hacc
      · exact h.setCall hi rfl fun hr ↦ absurd rfl hr
  | mark i =>
      obtain ⟨call, hi, rfl⟩ := stepCaller_mark hstep
      have hmem := List.mem_of_getElem? hi
      have hmark := h.mark call.request (h.callStarted _ hmem (by simp) (by simp))
      exact hmark.setCall hi rfl fun _ ↦ hmark.callStarted _ hmem (by simp) (by simp)
  | push i =>
      obtain ⟨call, hi, rfl⟩ := stepCaller_push hstep
      exact h.push hi
  | «return» i =>
      obtain ⟨call, stage, hi, rfl⟩ := stepCaller_return hstep
      apply h.return
      intro m hm
      exact mem_handed.mpr (.inr ⟨_, List.mem_of_getElem? hi, hm⟩)

theorem step_inv (s : Shared) (a : Action) (s' : Shared) (h : s.Inv)
    (hstep : s.step a = some (.ok s')) : s'.Inv := by
  cases a with
  | caller a =>
      obtain ⟨t, ht, heq⟩ := Option.map_eq_some_iff.mp hstep
      cases heq
      exact h.stepCaller ht
  | loop a => exact h.stepLoop hstep
  | base a => exact h.stepBase hstep

/-! ## Graceful shutdown -/

theorem inv_inserted (sockfd : Nat) (sameLoop : Bool) : (inserted sockfd sameLoop).Inv where
  settled := settled_new sockfd
  callStarted _ hp := by cases hp
  taskStarted _ hmem := by cases hmem
  stream _ := by
    refine ⟨TcpConnection.inv_new sockfd, ?_⟩
    simp [inserted, TcpConnection.new, TcpConnection.stream, bytesOf]
  callBefore _ hp := by cases hp
  taskBefore _ hmem := by cases hmem
  numbered _ hm := by cases hm
  placed _ _ hm := by cases hm
  order := List.Pairwise.nil

theorem inv_newConnection (sockfd : Nat) (sameLoop : Bool) :
    UnlessDown Inv (newConnection sockfd sameLoop) := by
  have h := inv_inserted sockfd sameLoop
  cases hnew : newConnection sockfd sameLoop with
  | error e => trivial
  | ok s =>
      cases sameLoop with
      | true => exact h.established (List.nil_append _).symm rfl hnew
      | false =>
          cases hnew
          exact h.pushServer rfl

/-- **Graceful shutdown.**  In the runs in which the loop thread does not shut the
connection down over a message that waits in the queue, and no lambda of
`shutdown()` from the queue is run on a connection that has been closed, every
half-close finds written what was accepted by calls of `send` that had returned when
the `shutdown()` behind it was called. -/
theorem drained (sockfd : Nat) (sameLoop : Bool) (as : List Action)
    (hgraceful : AllSteps (liftAbort step) (WhileAlive Graceful)
      (newConnection sockfd sameLoop) as) :
    AllSteps (liftAbort step) (WhileAlive Drained) (newConnection sockfd sameLoop) as := by
  refine hgraceful.of_invariant_whileAlive (I := Inv) ?_ ?_ (inv_newConnection sockfd sameLoop)
  · intro s a s' hs _ hstep
    exact step_inv s a s' hs hstep
  · intro s a hs hg
    exact hs.drained_of_graceful hg

/-- Two other threads, one of which shuts the connection down when the `send` of the
other has returned: the loop takes both tasks in turn. -/
def shutdownBehindSend : List Action :=
  [.loop .swap, .loop (.runTask .failed), .loop .return, .loop .finish,
    .caller (.call (.send [1, 2, 3])), .caller (.test 0 .kConnected), .caller (.mark 0),
    .caller (.push 0), .caller (.return 0),
    .caller (.call .shutdown), .caller (.test 0 .kConnected), .caller (.mark 0),
    .caller (.push 0), .caller (.return 0),
    .loop .swap, .loop (.runTask (.wrote 3)), .loop (.runTask .failed), .loop .finish]

theorem drained_shutdownBehindSend :
    (∃ s, run (liftAbort step) (newConnection 7 false) shutdownBehindSend = some (.ok s) ∧
      s.conn.socket.shutWr = true ∧ s.conn.socket.written = [1, 2, 3]) ∧
    AllSteps (liftAbort step) (WhileAlive Drained) (newConnection 7 false)
      shutdownBehindSend := by
  refine ⟨?_, drained 7 false shutdownBehindSend (by decide +kernel)⟩
  obtain ⟨s, hrun, hs⟩ := exists_run_ok step (newConnection 7 false) shutdownBehindSend
    (fun s ↦ s.conn.socket.shutWr && s.conn.socket.written == [1, 2, 3]) (by decide +kernel)
  exact ⟨s, hrun, by simpa using hs⟩

/-- Another thread sends three bytes, and its call returns; then user code in the
loop thread shuts the connection down, before the loop has taken the task that
writes them. -/
def shutdownOverSend : List Action :=
  [.loop .swap, .loop (.runTask .failed), .loop .return, .loop .finish,
    .caller (.call (.send [1, 2, 3])), .caller (.test 0 .kConnected), .caller (.mark 0),
    .caller (.push 0), .caller (.return 0),
    .loop (.call .shutdown .failed)]

/-- What can be seen of `Drained` without looking for the place of a message: that it
was put in line, and that enough has been written. -/
def SeemsDrained (s : Shared) (a : Action) : Prop :=
  ∀ before ∈ s.halfCloses a, ∀ m ∈ before, m.data ≠ [] →
    m ∈ s.lined ∧ m.data.length ≤ s.conn.socket.written.length

instance (s : Shared) (a : Action) : Decidable (s.SeemsDrained a) :=
  inferInstanceAs (Decidable (∀ before ∈ s.halfCloses a, ∀ m ∈ before, m.data ≠ [] →
    m ∈ s.lined ∧ m.data.length ≤ s.conn.socket.written.length))

theorem Drained.seemsDrained {s : Shared} {a : Action} (h : s.Drained a) : s.SeemsDrained a := by
  intro before hbefore m hm hne
  obtain ⟨front, back, hlined, hprefix⟩ := h before hbefore m hm hne
  have hle := hprefix.length_le
  rw [bytesOf_append, List.length_append] at hle
  refine ⟨?_, ?_⟩
  · rw [hlined]
    exact List.mem_append_right _ List.mem_cons_self
  · have hone : bytesOf [m] = m.data := List.append_nil _
    rw [hone] at hle
    omega

theorem seemsDrained_of_allSteps {r : Except NoReturn Shared} {as : List Action}
    (h : AllSteps (liftAbort step) (WhileAlive Drained) r as) :
    AllSteps (liftAbort step) (WhileAlive SeemsDrained) r as := by
  refine h.of_invariant_whileAlive (I := fun _ ↦ True) (fun _ _ _ _ _ _ ↦ trivial) ?_ ?_
  · intro s a _ hd
    exact hd.seemsDrained
  · cases r <;> trivial

theorem not_drained :
    (∃ s, run (liftAbort step) (newConnection 7 false) shutdownOverSend = some (.ok s) ∧
      s.conn.socket.shutWr = true ∧ s.conn.socket.written = []) ∧
    ¬ AllSteps (liftAbort step) (WhileAlive Drained) (newConnection 7 false)
      shutdownOverSend := by
  refine ⟨?_, ?_⟩
  · obtain ⟨s, hrun, hs⟩ := exists_run_ok step (newConnection 7 false) shutdownOverSend
      (fun s ↦ s.conn.socket.shutWr && s.conn.socket.written == []) (by decide +kernel)
    exact ⟨s, hrun, by simpa using hs⟩
  · intro h
    have hseems := seemsDrained_of_allSteps h
    revert hseems
    decide +kernel

/-- The loop thread has written one of three bytes when another thread asks for a
shutdown and the peer closes: the lambda finds a channel that watches nothing any
more. -/
def shutdownOfClosed : List Action :=
  [.loop .swap, .loop (.runTask .failed), .loop (.call (.send [1, 2, 3]) (.wrote 1)),
    .loop .return, .loop .finish,
    .caller (.call .shutdown), .caller (.test 0 .kConnected), .caller (.mark 0),
    .caller (.push 0), .caller (.return 0),
    .loop (.read (.read [])), .loop .return, .loop .closeCallback,
    .loop .swap, .loop (.runTask .failed)]

/-- The other half of the condition is needed as well. -/
theorem not_drained_closed :
    (∃ s, run (liftAbort step) (newConnection 7 false) shutdownOfClosed = some (.ok s) ∧
      s.conn.socket.shutWr = true ∧ s.conn.socket.written = [1] ∧
      s.conn.outputBuffer.peek = [2, 3]) ∧
    ¬ AllSteps (liftAbort step) (WhileAlive Drained) (newConnection 7 false)
      shutdownOfClosed := by
  refine ⟨?_, ?_⟩
  · obtain ⟨s, hrun, hs⟩ := exists_run_ok step (newConnection 7 false) shutdownOfClosed
      (fun s ↦ s.conn.socket.shutWr && (s.conn.socket.written == [1] &&
        s.conn.outputBuffer.peek == [2, 3])) (by decide +kernel)
    exact ⟨s, hrun, by simpa using hs⟩
  · intro h
    have hseems := seemsDrained_of_allSteps h
    revert hseems
    decide +kernel

end Shared

end Wuduo.TcpConnection
