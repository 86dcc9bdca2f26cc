import Wuduo.Http.Replies
import Wuduo.TcpServer.Ownership
import Wuduo.TcpServer.Sessions

/-!
# `wuduo::http::HttpServer` on its loops

The HTTP server is a `TcpServer` that has two callbacks.  The connection callback sets the
context of a connection that is established; the message callback is `on_message`.  Nothing
else calls into a connection.

`on_message` touches nothing but its connection and what that connection has for a context,
so what it does between two steps of the other threads is one step here.

## Results

* `exists_connection`: what a run of the server is to one of its connections is a run of a
  `Connection`, whatever happens to the others and on whatever loop it is.
* `replies_of_reads`: so the peer of a connection gets the replies to its own requests, and
  nothing that the others do changes them.
* `context_found`: `on_message` always finds the context of its connection.
-/

namespace Wuduo

open Lanes Transition
open TcpConnection (Session)

/-! ## What is left in the input buffer -/

/-- The message callback has taken its request out of the input buffer. -/
def TcpServer.setInBuffer (s : TcpServer) (c : Nat) (inBuffer : Buffer) : TcpServer :=
  { s with conn := Function.update s.conn c { s.conn c with inBuffer } }

namespace TcpServer

section

variable {s : TcpServer} {fd c c' : Nat} {x : Session}

theorem setInBuffer_of_ne (h : c ≠ c') (inBuffer : Buffer) :
    (s.setInBuffer c' inBuffer).conn c = s.conn c := Function.update_of_ne h _ _

@[simp] theorem setInBuffer_self (s : TcpServer) (c : Nat) (inBuffer : Buffer) :
    (s.setInBuffer c inBuffer).conn c = { s.conn c with inBuffer } := Function.update_self _ _ _

/-- Nothing but the input buffer is different. -/
theorem conn_setInBuffer (s : TcpServer) (c c' : Nat) (inBuffer : Buffer) :
    ∃ b, (s.setInBuffer c' inBuffer).conn c = { s.conn c with inBuffer := b } := by
  by_cases h : c = c'
  · subst h
    exact ⟨inBuffer, setInBuffer_self s c inBuffer⟩
  · exact ⟨(s.conn c).inBuffer, setInBuffer_of_ne h inBuffer⟩

theorem Inv.setInBuffer (h : s.Inv) (c : Nat) (inBuffer : Buffer) :
    (s.setInBuffer c inBuffer).Inv where
  conn x := by
    obtain ⟨b, hconn⟩ := conn_setInBuffer s x c inBuffer
    rw [hconn]
    exact (h.conn x).setInBuffer b
  reported x hx := by
    obtain ⟨b, hconn⟩ := conn_setInBuffer s x c inBuffer
    rw [hconn]
    exact h.reported x hx
  tasks := h.tasks
  destroyed := h.destroyed
  balanced x := by
    obtain ⟨b, hconn⟩ := conn_setInBuffer s x c inBuffer
    have hledger : (s.setInBuffer c inBuffer).ledger x = s.ledger x := by
      rw [ledger, hconn]
      rfl
    rw [hledger]
    exact h.balanced x

theorem Attended.setInBuffer (h : s.Attended) (c : Nat) (inBuffer : Buffer) :
    (s.setInBuffer c inBuffer).Attended := h

/-- The session of the connection is given the same buffer. -/
theorem IsSession.setInBuffer (hx : s.IsSession fd c x) (hc : c < s.made) (inBuffer : Buffer) :
    (s.setInBuffer c inBuffer).IsSession fd c
      { x with conn := { x.conn with inBuffer } } where
  conn := by
    obtain ⟨revents, hconn⟩ := hx.conn
    rw [if_pos hc] at hconn
    have hmade : c < (s.setInBuffer c inBuffer).made := hc
    refine ⟨revents, ?_⟩
    rw [setInBuffer_self, if_pos hmade, hconn]
    rfl
  queue := hx.queue
  ran := hx.ran

/-- A session on which something has happened is that of a connection. -/
theorem IsSession.of_ne_kConnecting (hx : s.IsSession fd c x)
    (hst : x.conn.state ≠ .kConnecting) :
    c < s.made ∧ ∃ revents, x.conn = (s.conn c).relabel fd revents := by
  obtain ⟨revents, hconn⟩ := hx.conn
  split at hconn
  · rename_i hc
    exact ⟨hc, revents, hconn⟩
  · rw [hconn] at hst
    exact absurd rfl hst

theorem IsSession.setInBuffer_of_ne (hx : s.IsSession fd c x) (h : c ≠ c') (inBuffer : Buffer) :
    (s.setInBuffer c' inBuffer).IsSession fd c x :=
  hx.congr rfl (TcpServer.setInBuffer_of_ne h inBuffer)

end

end TcpServer

namespace Http

open Connection (readsOf)
open TcpServer (sessionSteps)

/-! ## The server -/

/-- `HttpServer`, with the contexts of its connections. -/
structure HttpServer where
  server : TcpServer
  /-- what `context()` of a connection holds, if anything -/
  context : Nat → Option HttpContext

namespace HttpServer

/-- A server that has been started. -/
def new (workers : Nat) : HttpServer := ⟨TcpServer.new workers, fun _ ↦ none⟩

/-- One step of the thread of a loop. -/
inductive Action where
  /-- `handle_read` delivers bytes, and `on_message` is called and returns; `answer` is what
  `::write` answers if something is sent -/
  | message (l : Nat) (data : Bytes) (host : Host) (answer : WriteResult)
  /-- a step in which there is nothing to parse -/
  | other (action : TcpServer.Action)

/-- A call of `on_message` to its connection. -/
def callOf (answer : WriteResult) : ConnectionCall → TcpServer.Call
  | .send data => .send data answer
  | .shutdown => .shutdown

/-- The calls of `on_message`, in the thread of a loop. -/
def callsOf (l c : Nat) (answer : WriteResult) (calls : List ConnectionCall) :
    List TcpServer.Action :=
  calls.map fun call ↦ .call l c (callOf answer call)

/-- Nothing is read, and nobody but `on_message` calls into a connection. -/
def isOther : TcpServer.Action → Bool
  | .read _ (.read data) => data = []
  | .call _ _ _ => false
  | _ => true

/-- The message callback, from where bytes have been delivered: `on_message`, and what its
calls do to the connection.  `std::any_cast` finds a context or `on_message` cannot go on. -/
def messageCallback (s : HttpServer) (l c : Nat) (host : Host) (answer : WriteResult) :
    Option (Except NoReturn HttpServer) :=
  (s.context c).bind fun context ↦
    match onMessage host context (s.server.conn c).inBuffer with
    | .error e => some (.error e)
    | .ok (context, buf, calls) =>
        (run (liftAbort TcpServer.step) (.ok (s.server.setInBuffer c buf))
          (callsOf l c answer calls ++ [.return l])).map fun r ↦ r.map fun server ↦
            { server, context := Function.update s.context c (some context) }

/-- The connection callback sets the context of a connection that is established. -/
def connected (s : HttpServer) (action : TcpServer.Action) (c : Nat) : Option HttpContext :=
  if .established ∈ sessionSteps c s.server action then some {} else s.context c

/-- The transition function. -/
def step (s : HttpServer) : Action → Option (Except NoReturn HttpServer)
  | .message l data host answer =>
      match front l s.server.frames with
      | some (.read c) =>
          if data = [] then none
          else (s.server.step (.read l (.read data))).bind fun
            | .error e => some (.error e)
            | .ok server => messageCallback { s with server } l c host answer
      | _ => none
  | .other action =>
      if isOther action then
        (s.server.step action).map fun r ↦ r.map fun server ↦
          { server, context := s.connected action }
      else none

/-- A run of the server with this many workers. -/
abbrev Run (workers : Nat) (as : List Action) (r : Except NoReturn HttpServer) : Prop :=
  run (liftAbort step) (.ok (new workers)) as = some r

/-- What a step is to one connection. -/
def eventsOf (c : Nat) (s : HttpServer) : Action → List Connection.Event
  | .message l data host answer =>
      if front l s.server.frames = some (.read c) then [.message data host answer] else []
  | .other action => (sessionSteps c s.server action).map .other

/-- What the steps of a run are to one connection. -/
def eventsOn (c workers : Nat) (as : List Action) : List Connection.Event :=
  emitted step (eventsOf c) (.ok (new workers)) as

/-- The connection of the server is where this one is. -/
structure IsConnection (fd c : Nat) (s : HttpServer) (x : Connection) : Prop where
  session : s.server.IsSession fd c x.session
  context : x.session.conn.state ≠ .kConnecting → s.context c = some x.context

end HttpServer

/-! ## Steps in which nothing is parsed -/

namespace Connection

/-- The session takes these steps, and the context is a new one if it is established. -/
theorem run_other {bs : List TcpConnection.Action} {x : Connection} {y : Session}
    (hother : ∀ b ∈ bs, isOther b = true)
    (hrun : run (liftAbort Session.step) (.ok x.session) bs = some (.ok y)) :
    run (liftAbort step) (.ok x) (bs.map .other) =
      some (.ok ⟨y, if .established ∈ bs then {} else x.context⟩) := by
  induction bs generalizing x with
  | nil =>
      cases hrun
      rfl
  | cons b bs ih =>
      obtain ⟨hb, hbs⟩ := List.forall_mem_cons.mp hother
      obtain ⟨r, hstep, hrun⟩ := run_ok_cons_eq_some.mp hrun
      cases r with
      | error e => exact absurd hrun run_error_ne
      | ok z =>
          have hx : x.step (.other b) =
              some (.ok ⟨z, if b = .established then {} else x.context⟩) := by
            rw [step, if_pos hb, hstep]
            rfl
          refine run_ok_cons_eq_some.mpr ⟨_, hx, ?_⟩
          rw [ih (x := ⟨z, _⟩) hbs hrun]
          by_cases hmem : .established ∈ bs
          · rw [if_pos hmem, if_pos (List.mem_cons_of_mem _ hmem)]
          · rw [if_neg hmem]
            simp only [List.mem_cons, hmem, or_false, eq_comm]

/-- Only `established()` makes a connection something else than connecting. -/
theorem ne_kConnecting_of_run {bs : List TcpConnection.Action} {x y : Session} (h : x.Inv)
    (hown : ∀ b ∈ bs, (Event.other b).isOwn = true) (hnot : .established ∉ bs)
    (hrun : run (liftAbort Session.step) (.ok x) bs = some (.ok y))
    (hst : y.conn.state ≠ .kConnecting) : x.conn.state ≠ .kConnecting := by
  induction bs generalizing x with
  | nil =>
      cases hrun
      exact hst
  | cons b bs ih =>
      obtain ⟨hb, hbs⟩ := List.forall_mem_cons.mp hown
      obtain ⟨hne, hnot⟩ := not_or.mp fun hmem ↦ hnot (List.mem_cons.mpr hmem)
      obtain ⟨r, hstep, hrun⟩ := run_ok_cons_eq_some.mp hrun
      obtain ⟨z, rfl, hz⟩ := Session.step_inv x _ r h hstep
      have hzst := ih hz hbs hnot hrun
      cases b with
      | established => exact absurd rfl hne
      | handleRead answer =>
          rw [Session.step, Option.ite_none_left_eq_some] at hstep
          exact hstep.1
      | handleWrite answer =>
          obtain ⟨d, hok, -, hstate, -⟩ := TcpConnection.handleWrite_spec h.conn answer
          rw [Session.step, hok] at hstep
          cases hstep
          rwa [← hstate]
      | send | shutdown | forceClose | runTask | setInBuffer => cases hb

end Connection

namespace HttpServer

section

variable {s t : HttpServer} {fd c l : Nat} {x : Connection}

/-- What is nothing to parse for the server is nothing to parse for the connection. -/
theorem isOther_sessionSteps {s : TcpServer} {a : TcpServer.Action} (h : isOther a = true) :
    ∀ b ∈ sessionSteps c s a,
      Connection.isOther b = true ∧ (Connection.Event.other b).isOwn = true := by
  intro b hb
  cases a with
  | call l c' call => cases h
  | read l answer =>
      rw [sessionSteps, List.mem_ite_nil_right] at hb
      obtain ⟨-, hb⟩ := hb
      rw [List.mem_singleton.mp hb]
      cases answer with
      | read data => exact ⟨h, rfl⟩
      | failed errno => exact ⟨rfl, rfl⟩
  | runTask | accept | write =>
      rw [sessionSteps, List.mem_ite_nil_right] at hb
      obtain ⟨-, hb⟩ := hb
      rw [List.mem_singleton.mp hb]
      exact ⟨rfl, rfl⟩
  | wait | dispatch | swap | finish | «return» | closeCallback => cases hb

theorem isOwn_eventsOf (c : Nat) (s : HttpServer) (a : Action) (hstep : s.step a = some (.ok t)) :
    ∀ e ∈ eventsOf c s a, e.isOwn = true := by
  intro e he
  cases a with
  | message l data host answer =>
      rw [eventsOf, List.mem_ite_nil_right] at he
      rw [List.mem_singleton.mp he.2]
      rfl
  | other action =>
      rw [step, Option.ite_none_right_eq_some] at hstep
      obtain ⟨b, hb, rfl⟩ := List.mem_map.mp he
      exact (isOther_sessionSteps hstep.1 b hb).2

/-- A step in which there is nothing to parse. -/
theorem IsConnection.step_other (h : s.server.Inv) (hx : s.IsConnection fd c x)
    (hxinv : x.session.Inv) {action : TcpServer.Action}
    (hstep : s.step (.other action) = some (.ok t)) :
    ∃ y, run (liftAbort Connection.step) (.ok x) (eventsOf c s (.other action)) = some (.ok y) ∧
      t.IsConnection fd c y := by
  rw [step, Option.ite_none_right_eq_some] at hstep
  obtain ⟨hother, hstep⟩ := hstep
  obtain ⟨r, hserver, hr⟩ := Option.map_eq_some_iff.mp hstep
  obtain ⟨server, rfl, rfl⟩ := map_eq_ok.mp hr
  have hsteps := isOther_sessionSteps (c := c) (s := s.server) hother
  obtain ⟨y, hrun, hy, -⟩ := TcpServer.step_session h hx.session hserver
  refine ⟨_, Connection.run_other (fun b hb ↦ (hsteps b hb).1) hrun, hy, fun hst ↦ ?_⟩
  show s.connected action c = some _
  rw [connected]
  by_cases hmem : .established ∈ sessionSteps c s.server action
  · rw [if_pos hmem, if_pos hmem]
  · rw [if_neg hmem, if_neg hmem]
    exact hx.context (Connection.ne_kConnecting_of_run hxinv (fun b hb ↦ (hsteps b hb).2) hmem
      hrun hst)

/-! ## Steps in which `on_message` is called -/

@[simp] theorem toAction_callOf (answer : WriteResult) (call : ConnectionCall) :
    (callOf answer call).toAction = Connection.actionOf answer call := by
  cases call <;> rfl

/-- The calls of `on_message` are made to the session of its connection. -/
theorem exists_run_calls {s t : TcpServer} {x : Session} {c' : Nat} {answer : WriteResult}
    {calls : List ConnectionCall} (h : s.Inv) (hx : s.IsSession fd c x)
    (hrun : run (liftAbort TcpServer.step) (.ok s) (callsOf l c' answer calls) = some (.ok t)) :
    t.Inv ∧ ∃ y, run (liftAbort Session.step) (.ok x)
        (if c' = c then calls.map (Connection.actionOf answer) else []) = some (.ok y) ∧
      t.IsSession fd c y := by
  induction calls generalizing s x with
  | nil =>
      cases hrun
      exact ⟨h, x, by rw [List.map_nil, ite_self]; rfl, hx⟩
  | cons call calls ih =>
      obtain ⟨r, hstep, hrun⟩ := run_ok_cons_eq_some.mp hrun
      cases r with
      | error e => exact absurd hrun run_error_ne
      | ok s₁ =>
          obtain ⟨x₁, hx₁, hs₁, -⟩ := TcpServer.step_session h hx hstep
          obtain ⟨ht, y, hy, hty⟩ := ih (h.of_step hstep) hs₁ hrun
          refine ⟨ht, y, ?_, hty⟩
          rw [sessionSteps, toAction_callOf] at hx₁
          split at hx₁
          · rename_i hc
            rw [if_pos hc] at hy ⊢
            exact run_append_eq_some.mpr ⟨_, hx₁, hy⟩
          · rename_i hc
            rw [if_neg hc] at hy ⊢
            cases hx₁
            exact hy

/-- What a call of `on_message` is made of. -/
structure Calls (s t : HttpServer) (l c : Nat) (data : Bytes) (host : Host) (answer : WriteResult)
    (read made : TcpServer) (context : HttpContext) (buf : Buffer) (calls : List ConnectionCall) :
    Prop where
  reported : front l s.server.frames = some (.read c)
  delivers : data ≠ []
  reads : s.server.step (.read l (.read data)) = some (.ok read)
  parses : ∃ before, s.context c = some before ∧
    onMessage host before (read.conn c).inBuffer = .ok (context, buf, calls)
  runs : run (liftAbort TcpServer.step) (.ok (read.setInBuffer c buf)) (callsOf l c answer calls) =
    some (.ok made)
  returns : made.step (.return l) = some (.ok t.server)
  keeps : t.context = Function.update s.context c (some context)

theorem exists_calls {data : Bytes} {host : Host} {answer : WriteResult}
    (hstep : s.step (.message l data host answer) = some (.ok t)) :
    ∃ c read made context buf calls,
      s.Calls t l c data host answer read made context buf calls := by
  rw [step] at hstep
  split at hstep
  · rename_i c hfront
    rw [Option.ite_none_left_eq_some] at hstep
    obtain ⟨hdata, hstep⟩ := hstep
    obtain ⟨r, hread, hstep⟩ := Option.bind_eq_some_iff.mp hstep
    cases r with
    | error e => cases hstep
    | ok read =>
        obtain ⟨before, hbefore, hstep⟩ := Option.bind_eq_some_iff.mp hstep
        dsimp only at hstep
        split at hstep
        · cases hstep
        · rename_i context buf calls hmessage
          obtain ⟨r, hrun, hr⟩ := Option.map_eq_some_iff.mp hstep
          obtain ⟨server, rfl, rfl⟩ := map_eq_ok.mp hr
          obtain ⟨r, hcalls, hreturn⟩ := run_append_eq_some.mp hrun
          cases r with
          | error e => exact absurd hreturn run_error_ne
          | ok made =>
              obtain ⟨r, hreturn, hr⟩ := run_ok_cons_eq_some.mp hreturn
              cases hr
              exact ⟨c, read, made, context, buf, calls, hfront, hdata, hread,
                ⟨before, hbefore, hmessage⟩, hcalls, hreturn, rfl⟩
  · cases hstep

/-- What the steps of a `TcpServer` keep, whatever is left in the input buffers, is kept. -/
theorem keeps_of_step {I : TcpServer → Prop}
    (hI : ∀ t a t', I t → TcpServer.step t a = some (.ok t') → I t')
    (hset : ∀ t c b, I t → I (t.setInBuffer c b)) (hs : I s.server) {a : Action}
    (hstep : s.step a = some (.ok t)) : I t.server := by
  cases a with
  | message l data host answer =>
      obtain ⟨c, read, made, context, buf, calls, hcalls⟩ := exists_calls hstep
      have hread : I read := hI _ _ _ hs hcalls.reads
      have hmade : I made := run_ok_invariant hI (hset _ c buf hread) hcalls.runs
      exact hI _ _ _ hmade hcalls.returns
  | other action =>
      rw [step, Option.ite_none_right_eq_some] at hstep
      obtain ⟨r, hserver, hr⟩ := Option.map_eq_some_iff.mp hstep.2
      obtain ⟨server, rfl, rfl⟩ := map_eq_ok.mp hr
      exact hI _ _ _ hs hserver

theorem inv_of_step (h : s.server.Inv) {a : Action} (hstep : s.step a = some (.ok t)) :
    t.server.Inv :=
  keeps_of_step (fun _ _ _ ht hstep ↦ ht.of_step hstep) (fun _ c b ht ↦ ht.setInBuffer c b) h hstep

/-- A step in which `on_message` is called. -/
theorem IsConnection.step_message (h : s.server.Inv) (hx : s.IsConnection fd c x) {data : Bytes}
    {host : Host} {answer : WriteResult}
    (hstep : s.step (.message l data host answer) = some (.ok t)) :
    ∃ y, run (liftAbort Connection.step) (.ok x) (eventsOf c s (.message l data host answer))
      = some (.ok y) ∧ t.IsConnection fd c y := by
  obtain ⟨c', read, made, context, buf, calls, hcalls⟩ := exists_calls hstep
  obtain ⟨before, hbefore, hmessage⟩ := hcalls.parses
  have hread := h.of_step hcalls.reads
  obtain ⟨x₁, hx₁, hs₁, -⟩ := TcpServer.step_session h hx.session hcalls.reads
  rw [sessionSteps, hcalls.reported] at hx₁
  rw [eventsOf, hcalls.reported]
  by_cases hc : c' = c
  · subst hc
    rw [if_pos rfl] at hx₁ ⊢
    obtain ⟨r, hx₁, hr⟩ := run_ok_cons_eq_some.mp hx₁
    cases hr
    obtain ⟨hst, _, _, _, hconn₁⟩ := Connection.read_spec hcalls.delivers hx₁
    obtain ⟨hmade, revents, hrelabel⟩ := hs₁.of_ne_kConnecting (by rwa [hconn₁])
    -- the connection has the context and the input buffer that `on_message` is given
    have hcontext : before = x.context := Option.some.inj (hbefore.symm.trans (hx.context hst))
    have hbuffer : (read.conn c').inBuffer = x₁.conn.inBuffer := by
      rw [hrelabel]
      rfl
    obtain ⟨hmade, x₂, hx₂, hs₂⟩ := exists_run_calls (hread.setInBuffer c' buf)
      (hs₁.setInBuffer hmade buf) hcalls.runs
    rw [if_pos rfl] at hx₂
    obtain ⟨x₃, hx₃, hs₃, -⟩ := TcpServer.step_session hmade hs₂ hcalls.returns
    cases hx₃
    rw [hcontext, hbuffer] at hmessage
    refine ⟨⟨x₂, context⟩, ?_, hs₃, fun _ ↦ ?_⟩
    · have hrun : run (liftAbort Session.step) (.ok x₁)
          (.setInBuffer buf :: calls.map (Connection.actionOf answer)) = some (.ok x₂) :=
        run_ok_cons_eq_some.mpr ⟨_, rfl, hx₂⟩
      have hmessage' : Connection.onMessage { x with session := x₁ } host answer =
          some (.ok ⟨x₂, context⟩) := by
        simp only [Connection.onMessage, hmessage, hrun]
        rfl
      refine run_ok_cons_eq_some.mpr ⟨_, ?_, rfl⟩
      rw [Connection.step, if_neg hcalls.delivers, hx₁]
      exact hmessage'
    · rw [hcalls.keeps, Function.update_self]
  · have hne : ¬ (some (TcpServer.Frame.read c') = some (.read c)) := fun heq ↦ by
      cases heq
      exact hc rfl
    rw [if_neg hne] at hx₁ ⊢
    cases hx₁
    obtain ⟨hmade, x₂, hx₂, hs₂⟩ := exists_run_calls (hread.setInBuffer c' buf)
      (hs₁.setInBuffer_of_ne (Ne.symm hc) buf) hcalls.runs
    rw [if_neg hc] at hx₂
    cases hx₂
    obtain ⟨x₃, hx₃, hs₃, -⟩ := TcpServer.step_session hmade hs₂ hcalls.returns
    cases hx₃
    refine ⟨x, rfl, hs₃, fun hst ↦ ?_⟩
    rw [hcalls.keeps, Function.update_of_ne (Ne.symm hc)]
    exact hx.context hst

/-- **A step of the server is matched by each of its connections.** -/
theorem IsConnection.step (h : s.server.Inv) (hx : s.IsConnection fd c x) (hxinv : x.session.Inv)
    {a : Action} (hstep : s.step a = some (.ok t)) :
    ∃ y, run (liftAbort Connection.step) (.ok x) (eventsOf c s a) = some (.ok y) ∧
      t.IsConnection fd c y := by
  cases a with
  | message l data host answer => exact hx.step_message h hstep
  | other action => exact hx.step_other h hxinv hstep

end

/-! ## Runs -/

section

variable {workers : Nat} {as : List Action} {s : HttpServer}

theorem isConnection_new (workers fd c : Nat) :
    (new workers).IsConnection fd c (Connection.new fd) where
  session := TcpServer.isSession_new workers fd c
  context hst := absurd rfl hst

theorem exists_isConnection (fd c : Nat) (h : Run workers as (.ok s)) :
    ∃ x, Connection.Run fd (eventsOn c workers as) (.ok x) ∧ s.IsConnection fd c x := by
  have hmatch (s : HttpServer) (a : Action) (t : HttpServer) (r : Except NoReturn Connection)
      (hr : s.server.Inv ∧ ∃ x, r = .ok x ∧ x.session.Inv ∧ s.IsConnection fd c x)
      (hstep : s.step a = some (.ok t)) :
      ∃ r', run (liftAbort Connection.step) r (eventsOf c s a) = some r' ∧
        t.server.Inv ∧ ∃ y, r' = .ok y ∧ y.session.Inv ∧ t.IsConnection fd c y := by
    obtain ⟨hinv, x, rfl, hxinv, hx⟩ := hr
    obtain ⟨y, hrun, hy⟩ := hx.step hinv hxinv hstep
    have hyinv : y.session.Inv := run_ok_invariant (I := fun c ↦ c.session.Inv)
      (fun _ _ _ ↦ Connection.step_session_inv) hxinv hrun
    exact ⟨.ok y, hrun, inv_of_step hinv hstep, y, rfl, hyinv, hy⟩
  obtain ⟨r, hrun, -, x, rfl, -, hx⟩ := exists_run_emitted hmatch
    ⟨TcpServer.inv_new workers, _, rfl, Session.inv_new fd, isConnection_new workers fd c⟩ h
  exact ⟨x, hrun, hx⟩

theorem isOwn_eventsOn (c : Nat) (h : Run workers as (.ok s)) :
    ∀ e ∈ eventsOn c workers as, e.isOwn = true := by
  refine run_emitted_invariant (P := fun _ es ↦ ∀ e ∈ es, Connection.Event.isOwn e = true) ?_
    (fun e he ↦ absurd he List.not_mem_nil) h
  intro s a t es hes hstep e he
  rcases List.mem_append.mp he with he | he
  · exact hes e he
  · exact isOwn_eventsOf c s a hstep e he

/-- Where a connection of the server is that was made. -/
theorem IsConnection.conn {fd c : Nat} {x : Connection} (hx : s.IsConnection fd c x)
    (hc : c < s.server.made) :
    ∃ revents, x.session.conn = (s.server.conn c).relabel fd revents := by
  obtain ⟨revents, hconn⟩ := hx.session.conn
  rw [if_pos hc] at hconn
  exact ⟨revents, hconn⟩

end

/-! ## What `on_message` finds -/

section

variable {s : TcpServer} {l c : Nat}

/-- A callback of the connection is running, on its loop. -/
structure InCallback (l c : Nat) (s : TcpServer) : Prop where
  inv : s.Inv
  user : front l s.frames = some (.user c)
  made : c < s.made
  loop : s.loopOf c = l

/-- Bytes that are delivered are followed by the message callback. -/
theorem exists_read (hinv : s.Inv) (hatt : s.Attended) (hfront : front l s.frames = some (.read c))
    {data : Bytes} (hdata : data ≠ []) :
    ∃ t, s.step (.read l (.read data)) = some (.ok t) ∧ InCallback l c t := by
  have hreported : s.ReportedOn l c := .inl (mem_of_front hfront)
  have hst := hinv.reported c (TcpServer.reported_iff.mpr ⟨l, hreported⟩)
  obtain ⟨buf, hok, -⟩ := Buffer.readFd_read_spec (s.conn c).inBuffer data
  have hlen := List.length_pos_of_ne_nil hdata
  have hread : (s.conn c).handleRead (.read data) =
      .ok ({ s.conn c with inBuffer := buf }, [.message]) := by
    simp only [TcpConnection.handleRead, hok, ok_bind]
    rw [if_pos (by omega)]
    rfl
  have hstep : s.step (.read l (.read data)) =
      some (.ok ((s.pop l).acted l c { s.conn c with inBuffer := buf } [.message])) := by
    simp only [TcpServer.step, hfront, hread]
    rfl
  exact ⟨_, hstep, hinv.of_step hstep, if_pos rfl, hinv.lt_made hst, (hatt l c hreported).1.symm⟩

/-- No call of `on_message` leads to another callback. -/
theorem callbacks_of_callOf {answer : WriteResult} {call : ConnectionCall}
    {conn conn' : TcpConnection} {cbs : List TcpConnection.Callback}
    (h : (callOf answer call).run conn = .ok (conn', cbs)) :
    cbs = [] := by
  cases call with
  | send data =>
      rw [callOf, TcpServer.Call.run, TcpConnection.send] at h
      split at h
      · cases h
        rfl
      · obtain ⟨d, -, hd⟩ := bind_eq_ok.mp h
        cases hd
        rfl
  | shutdown =>
      rw [callOf, TcpServer.Call.run, TcpConnection.shutdown] at h
      split at h
      · rw [TcpConnection.runInLoop, TcpConnection.Task.run] at h
        split at h <;> cases h <;> rfl
      · cases h
        rfl

theorem InCallback.exists_calls (h : InCallback l c s) (answer : WriteResult)
    (calls : List ConnectionCall) :
    ∃ t, run (liftAbort TcpServer.step) (.ok s) (callsOf l c answer calls) = some (.ok t) ∧
      InCallback l c t := by
  induction calls generalizing s with
  | nil => exact ⟨s, rfl, h⟩
  | cons call calls ih =>
      obtain ⟨conn, cbs, data, hok, -⟩ := (callOf answer call).run_spec (h.inv.conn c)
      have hcbs := callbacks_of_callOf hok
      subst hcbs
      have hstep : s.step (.call l c (callOf answer call)) =
          some (.ok (s.acted l c conn [])) := by
        simp only [TcpServer.step, h.user, hok, TcpServer.act_ok]
        rw [if_pos ⟨h.made, h.loop⟩]
      obtain ⟨t, hrun, ht⟩ := ih (s := s.acted l c conn [])
        ⟨h.inv.of_step hstep, h.user, h.made, h.loop⟩
      exact ⟨t, run_ok_cons_eq_some.mpr ⟨_, hstep, hrun⟩, ht⟩

end

/-! ## Results -/

/-- Steps in which nothing is delivered. -/
def others (as : List TcpServer.Action) : List Action := as.map .other

/-- Two connections on the base loop.  The request of the first comes in two pieces, with the
beginning of the other's in between, and its socket takes only a part of the reply. -/
def twoClients : List Action := [
  others [.wait 0 [.acceptor], .dispatch 0, .accept 7, .return 0, .accept 8, .return 0, .return 0,
    .swap 0, .finish 0, .wait 0 [.connection 0 EPOLLIN, .connection 1 EPOLLIN], .dispatch 0],
  [.message 0 (getRoot.take 20) .empty .failed, .other (.dispatch 0),
    .message 0 (getRoot.take 3) .empty .failed],
  others [.swap 0, .finish 0, .wait 0 [.connection 0 EPOLLIN], .dispatch 0],
  [.message 0 (getRoot.drop 20) .empty (.wrote 9)],
  others [.swap 0, .finish 0, .wait 0 [.connection 0 EPOLLOUT], .dispatch 0,
    .write 0 (.wrote 30)]].flatten

theorem exists_run_twoClients :
    ∃ s, Run 0 twoClients (.ok s) ∧ 0 < s.server.made ∧ (s.server.conn 0).channel.fd = 7 ∧
      (s.server.conn 0).state = .kConnected ∧ (s.server.conn 0).socket.written.length = 39 := by
  obtain ⟨s, hrun, hs⟩ := exists_run_ok step (.ok (new 0)) twoClients
    (fun s ↦ decide (0 < s.server.made ∧ (s.server.conn 0).channel.fd = 7 ∧
      (s.server.conn 0).state = .kConnected ∧ (s.server.conn 0).socket.written.length = 39))
    (by decide +kernel)
  exact ⟨s, hrun, of_decide_eq_true hs⟩

section

variable (workers : Nat) (as : List Action) (s : HttpServer) (c : Nat)

/-- **The connections of the server are connections on their own.**  What a run of the HTTP
server is to one of its connections, of the steps it takes among those of all others, is a run
of a `Connection` whose only user is `on_message`; and it leaves it, and its context, where the
run of the server does. -/
theorem exists_connection (h : Run workers as (.ok s)) (hc : c < s.server.made) :
    ∃ x revents, Connection.Run (s.server.conn c).channel.fd (eventsOn c workers as) (.ok x) ∧
      (∀ e ∈ eventsOn c workers as, e.isOwn = true) ∧
      x.session.conn = { s.server.conn c with
        channel := { (s.server.conn c).channel with revents } } ∧
      ((s.server.conn c).state ≠ .kConnecting → s.context c = some x.context) := by
  obtain ⟨x, hrun, hx⟩ := exists_isConnection (s.server.conn c).channel.fd c h
  obtain ⟨revents, hconn⟩ := hx.conn hc
  have hcontext := hx.context
  rw [hconn] at hcontext
  exact ⟨x, revents, hrun, isOwn_eventsOn c h, hconn, hcontext⟩

/-- The first of the two. -/
theorem exists_connection_run :
    ∃ s x, Run 0 twoClients (.ok s) ∧ Connection.Run 7 (eventsOn 0 0 twoClients) (.ok x) ∧
      x.session.conn.socket.written.length = 39 := by
  obtain ⟨s, hrun, hmade, hfd, -, hwritten⟩ := exists_run_twoClients
  obtain ⟨x, revents, hx, -, hconn, -⟩ := exists_connection 0 _ s 0 hrun hmade
  rw [hfd] at hx
  exact ⟨s, x, hrun, hx, by rw [hconn]; exact hwritten⟩

/-- **`on_message` finds its context.**  In every run of the HTTP server, when bytes are to be
read from a connection its context has been set; so `on_message` can be called, and each call
that it makes to the connection can be made, unless it does not return: an assertion of its own
fails, `std::length_error` is thrown, or the file is read for ever. -/
theorem context_found (l : Nat) (h : Run workers as (.ok s))
    (hfront : front l s.server.frames = some (.read c)) :
    ∃ context, s.context c = some context ∧ ∀ data host answer, data ≠ [] →
      ∃ r, s.step (.message l data host answer) = some r := by
  obtain ⟨hinv, hatt⟩ := run_ok_invariant (I := fun s ↦ s.server.Inv ∧ s.server.Attended)
    (fun s a t hs hstep ↦ keeps_of_step (I := fun s ↦ s.Inv ∧ s.Attended)
      (fun t a t' ht hstep ↦
        ⟨ht.1.of_step hstep, ht.2.of_stepped ht.1 (TcpServer.stepped ht.1 hstep)⟩)
      (fun t c b ht ↦ ⟨ht.1.setInBuffer c b, ht.2.setInBuffer c b⟩) hs hstep)
    ⟨TcpServer.inv_new workers, TcpServer.attended_new workers⟩ h
  obtain ⟨x, -, hx⟩ := exists_isConnection 0 c h
  have hst := hinv.reported c (.inl ⟨l, .inl (mem_of_front hfront)⟩)
  obtain ⟨revents, hconn⟩ := hx.conn (hinv.lt_made hst)
  have hcontext : s.context c = some x.context := hx.context (by rwa [hconn])
  refine ⟨x.context, hcontext, fun data host answer hdata ↦ ?_⟩
  obtain ⟨read, hread, hcallback⟩ := exists_read hinv hatt hfront hdata
  simp only [step, hfront, if_neg hdata, hread, Option.bind_some, messageCallback, hcontext]
  split
  · exact ⟨_, rfl⟩
  · rename_i context buf calls hmessage
    have hcallback' : InCallback l c (read.setInBuffer c buf) :=
      ⟨hcallback.inv.setInBuffer c buf, hcallback.user, hcallback.made, hcallback.loop⟩
    obtain ⟨made, hrun, hmade⟩ := hcallback'.exists_calls answer calls
    have hreturn : made.step (.return l) = some (.ok (made.pop l)) := by
      simp only [TcpServer.step, hmade.user]
    have hrun' : run (liftAbort TcpServer.step) (.ok (read.setInBuffer c buf))
        (callsOf l c answer calls ++ [.return l]) = some (.ok (made.pop l)) :=
      run_append_eq_some.mpr ⟨_, hrun, run_ok_cons_eq_some.mpr ⟨_, hreturn, rfl⟩⟩
    rw [hrun']
    exact ⟨_, rfl⟩

/-- Both connections have something to read, and the first has its turn. -/
theorem context_found_run :
    ∃ s context, Run 0 (twoClients.take 11) (.ok s) ∧ s.context 0 = some context ∧
      ∃ r, s.step (.message 0 getRoot .empty .failed) = some r := by
  obtain ⟨s, hrun, hs⟩ := exists_run_ok step (.ok (new 0)) (twoClients.take 11)
    (fun s ↦ decide (front 0 s.server.frames = some (.read 0))) (by decide +kernel)
  obtain ⟨context, hcontext, hmessage⟩ := context_found 0 _ s 0 0 hrun (of_decide_eq_true hs)
  exact ⟨s, context, hrun, hcontext, hmessage getRoot .empty .failed (by decide)⟩

end

end HttpServer

end Http

end Wuduo
