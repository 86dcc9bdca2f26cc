import Wuduo.TcpServer.Invariant

/-!
# What a step is to the connections

A step of the server is a few moves of the ledger of one connection, and none of the
others'.  `step_outcome` says so for every step, of whichever thread: the acceptor,
the base loop and the worker loops take their turns in any order.  What holds over
whole runs follows from it, in other files.
-/

namespace Wuduo.TcpServer

open Lanes Relation

/-! ## Registering a connection -/

theorem tasks_pos_of_mem {s : TcpServer} {l : Nat} {task : Task} (h : (l, task) ∈ s.queue) :
    0 < s.tasks task := List.countP_pos_iff.mpr ⟨_, h, by simp⟩

theorem records_pos_of_mem {s : TcpServer} {c : Nat} {what : Happening} {p : Happening → Bool}
    (h : (c, what) ∈ s.log) (hp : p what = true) : 0 < s.records c p :=
  List.countP_pos_iff.mpr ⟨_, h, by simp [hp]⟩

/-- Nothing in a queue or in the history is about a connection that is still to be
made. -/
theorem Inv.not_mem_of_unmade {s : TcpServer} (h : s.Inv) {c : Nat} (hc : s.made ≤ c) :
    c ∉ s.connections ∧ s.tasks (.established c) = 0 ∧ s.tasks (.destroyed c) = 0 ∧
      s.records c Happening.isDestroyed = 0 := by
  have hm : (s.ledger c).made = false := by simp [ledger, hc]
  have hbal := h.balanced c
  have hnew := hbal.establishing
  have hcloses := hbal.closes
  have hreg := hbal.registered
  rw [hbal.closes_unmade hm] at hcloses
  simp only [hm, Bool.false_eq_true, false_and, if_false, iff_false] at hnew hreg
  simp only [ledger, decide_eq_true_eq] at hnew hcloses hreg
  exact ⟨hreg, hnew, by omega, by omega⟩

theorem Inv.tidy_inserted {s : TcpServer} (h : s.Inv) (connectionFd ioLoop next : Nat) :
    (s.inserted connectionFd ioLoop next).Tidy := by
  obtain ⟨-, hestablished, hdestroyed, hrecords⟩ := h.not_mem_of_unmade (Nat.le_refl s.made)
  refine ⟨?_, ?_, ?_, ?_⟩
  · intro c
    by_cases hc : c = s.made
    · subst hc
      simpa [inserted] using TcpConnection.inv_new connectionFd
    · simpa [inserted, Function.update_of_ne hc] using h.conn c
  · intro c hc
    have hst := h.reported c hc
    have hne : c ≠ s.made := by
      rintro rfl
      exact hst ((h.balanced _).unmade (by simp)).1
    simpa [inserted, Function.update_of_ne hne] using hst
  · intro l task hmem
    have hl := h.tasks l task hmem
    have hpos := tasks_pos_of_mem (s := s) hmem
    cases task with
    | established c | destroyed c =>
        have hne : c ≠ s.made := by
          rintro rfl
          omega
        simpa [loopOfTask, inserted, Function.update_of_ne hne] using hl
    | removeConnection c => exact hl
  · intro c l older hsuf
    have hne : c ≠ s.made := by
      rintro rfl
      have hmem : (s.made, Happening.destroyed l) ∈ s.log := hsuf.subset List.mem_cons_self
      have := records_pos_of_mem (p := Happening.isDestroyed) hmem rfl
      omega
    simpa [inserted, Function.update_of_ne hne] using h.destroyed c l older hsuf

theorem ledger_inserted_self (s : TcpServer) (connectionFd ioLoop next : Nat) :
    (s.inserted connectionFd ioLoop next).ledger s.made = { (s.ledger s.made).make with
      establishing := (s.ledger s.made).establishing } := by
  simp only [ledger, Ledger.make, inserted, Function.update_self]
  ext <;> first | rfl | simp

theorem ledger_inserted_of_ne (s : TcpServer) (connectionFd ioLoop next : Nat) {x : Nat}
    (hx : x ≠ s.made) : (s.inserted connectionFd ioLoop next).ledger x = s.ledger x := by
  simp only [ledger, inserted, Function.update_of_ne hx]
  ext
  case made => exact decide_eq_decide.mpr (by omega)
  case registered => simp [hx]
  all_goals rfl

theorem Inv.newConnection {s : TcpServer} (h : s.Inv) {clean : Prop} (connectionFd : Nat) :
    ∃ t, s.newConnection connectionFd = .ok t ∧ s.Follows clean t := by
  obtain ⟨hnot, hestablished, -, -⟩ := h.not_mem_of_unmade (Nat.le_refl s.made)
  have hunmade : (s.ledger s.made).made = false := by simp
  rcases hnext : s.nextLoop with ⟨ioLoop, next⟩
  have htidy := h.tidy_inserted connectionFd ioLoop next
  have hself := ledger_inserted_self s connectionFd ioLoop next
  by_cases hio : ioLoop = 0
  · -- the base loop serves the connection, and `established()` runs at once
    have hst : ((s.inserted connectionFd ioLoop next).conn s.made).state = .kConnecting := by
      simp [inserted, TcpConnection.new]
    obtain ⟨c', hok, hinv, hst', hpast, -, -⟩ := TcpConnection.established_spec (htidy.conn _) hst
    have hmoved : ((s.inserted connectionFd ioLoop next).ledger s.made).after c' [.connection] =
        (s.ledger s.made).make.establish := by
      rw [Ledger.after_established hst' hpast, hself]
      rfl
    refine ⟨(s.inserted connectionFd ioLoop next).acted 0 s.made c' [.connection], ?_,
      (htidy.acted hinv fun h' ↦ absurd hst h').follows s.made ?_ ?_⟩
    · rw [TcpServer.newConnection, hnext]
      simp only [if_neg hnot, if_pos hio]
      rw [hok, act_ok]
    · rw [ledger_acted_self, hmoved]
      exact .tail (.single (.make hunmade)) (.establish (Nat.succ_pos _))
    · intro x hx
      rw [ledger_acted_of_ne _ _ _ _ hx, ledger_inserted_of_ne _ _ _ _ hx]
  · have hmoved : ((s.inserted connectionFd ioLoop next).ledger s.made).push s.made
        (.established s.made) = (s.ledger s.made).make := by
      rw [hself]
      simp [Ledger.push, Ledger.make]
    refine ⟨(s.inserted connectionFd ioLoop next).queueInLoop ioLoop (.established s.made), ?_,
      (htidy.queueInLoop ?_).follows s.made ?_ ?_⟩
    · rw [TcpServer.newConnection, hnext]
      simp only [if_neg hnot, if_neg hio]
    · simp [loopOfTask, inserted]
    · rw [ledger_queueInLoop, hmoved]
      exact .single (.make hunmade)
    · intro x hx
      rw [ledger_queueInLoop, Ledger.push_of_ne hx, ledger_inserted_of_ne _ _ _ _ hx]

/-! ## Removing a connection -/

/-- What a step comes to: some moves of the ledgers, or a failed assertion on a
connection that was closed twice. -/
def Outcome (s : TcpServer) (clean : Prop) (r : Except NoReturn TcpServer) : Prop :=
  (∃ t, r = .ok t ∧ s.Follows clean t) ∨
    r = .error (.assertion .numErased) ∧ ∃ c < s.made, 1 < (s.ledger c).closes

theorem Tidy.eraseConnection {s t : TcpServer} (h : s.Tidy) {c : Nat}
    (ht : s.eraseConnection c = .ok t) : t.Tidy := by
  rw [TcpServer.eraseConnection] at ht
  split at ht
  · have herased : Tidy { s with connections := s.connections.erase c } :=
      ⟨h.conn, h.reported, h.tasks, h.destroyed⟩
    rw [← Except.ok.inj ht]
    exact (herased.record c .erased fun l hl ↦ (by cases hl)).queueInLoop rfl
  · cases ht

/-- The connection to be erased is missing only if it was closed twice. -/
theorem Inv.closes_of_not_mem {s : TcpServer} (h : s.Inv) {c : Nat}
    (hpos : 0 < (s.ledger c).closing + (s.ledger c).removing) (hnot : c ∉ s.connections) :
    ∃ c < s.made, 1 < (s.ledger c).closes := by
  have hbal := h.balanced c
  have hcloses := hbal.closes
  refine ⟨c, ?_, ?_⟩
  · by_contra hm
    have := hbal.closes_unmade (by simpa using hm)
    omega
  · by_contra hone
    exact hnot (by simpa using hbal.registered_of_removing (by omega) hpos)

/-- The lambda of `remove_connection`, on a server from which it is known what is
left to be done. -/
theorem Inv.outcome_eraseConnection {s s₁ : TcpServer} {clean : Prop} (h : s.Inv)
    (htidy : s₁.Tidy) (hconns : s₁.connections = s.connections) {c : Nat}
    (hpos : 0 < (s.ledger c).closing + (s.ledger c).removing)
    (hself : ReflTransGen (Ledger.Move clean) (s.ledger c) { s₁.ledger c with
      registered := false
      erasures := (s₁.ledger c).erasures + 1
      destroying := (s₁.ledger c).destroying + 1 })
    (hother : ∀ x, x ≠ c → s₁.ledger x = s.ledger x) :
    s.Outcome clean (s₁.eraseConnection c) := by
  by_cases hmem : c ∈ s₁.connections
  · obtain ⟨t, ht⟩ : ∃ t, s₁.eraseConnection c = .ok t := ⟨_, if_pos hmem⟩
    refine .inl ⟨t, ht, (htidy.eraseConnection ht).follows c ?_ ?_⟩
    · rw [ledger_eraseConnection ht, if_pos rfl]
      exact hself
    · intro x hx
      rw [ledger_eraseConnection ht, if_neg hx, hother x hx]
  · exact .inr ⟨if_neg hmem, h.closes_of_not_mem hpos (hconns ▸ hmem)⟩

/-- `handle_close` calls `close_callback_`. -/
theorem Inv.outcome_closeCallback {s : TcpServer} {clean : Prop} (h : s.Inv) {l c : Nat}
    (hfront : front l s.frames = some (.closeCallback c)) :
    s.Outcome clean (((s.pop l).record c .closeCallback).removeConnection l c) := by
  have hpos := closing_pos_of_front hfront
  have htidy := (h.pop l).record c .closeCallback fun l hl ↦ by cases hl
  have hself : ((s.pop l).record c .closeCallback).ledger c = { s.ledger c with
      closing := (s.ledger c).closing - 1
      closeCallbacks := (s.ledger c).closeCallbacks + 1 } := by
    rw [ledger_record_closeCallback, ledger_pop hfront, if_pos rfl, if_pos rfl]
  have hother (x : Nat) (hx : x ≠ c) :
      ((s.pop l).record c .closeCallback).ledger x = s.ledger x := by
    have hframe : Frame.closeCallback c ≠ .closeCallback x := fun h ↦ hx (by cases h; rfl)
    rw [ledger_record_closeCallback, ledger_pop hfront, if_neg hframe, if_neg (Ne.symm hx)]
    rfl
  rw [TcpServer.removeConnection]
  by_cases hl : l = 0
  · rw [if_pos hl]
    refine h.outcome_eraseConnection htidy rfl (by omega) ?_ hother
    rw [hself]
    exact .tail (.single (.callClose hpos)) (.erase (Nat.succ_pos _))
  · rw [if_neg hl]
    have hmoved : (((s.pop l).record c .closeCallback).ledger c).push c (.removeConnection c) =
        (s.ledger c).callClose := by
      rw [hself]
      simp [Ledger.push, Ledger.callClose]
    have htidy' : (((s.pop l).record c .closeCallback).queueInLoop 0 (.removeConnection c)).Tidy :=
      htidy.queueInLoop rfl
    refine .inl ⟨_, rfl, htidy'.follows c ?_ ?_⟩
    · rw [ledger_queueInLoop, hmoved]
      exact .single (.callClose hpos)
    · intro x hx
      rw [ledger_queueInLoop, Ledger.push_of_ne hx, hother x hx]

/-! ## Tasks -/

theorem Inv.outcome_established {s : TcpServer} {clean : Prop} (h : s.Inv) {l c : Nat}
    (hfront : front l s.queue = some (.established c)) (n : Nat) :
    s.Outcome clean ((s.take l n).runTask l (.established c)) := by
  have hpos := tasks_pos_of_front hfront
  obtain ⟨-, hst, -⟩ := (h.balanced c).new_of_establishing hpos
  obtain ⟨c', hok, hinv, hst', hpast, -, -⟩ := TcpConnection.established_spec (h.conn c) hst
  have htake (x : Nat) := ledger_take hfront n x
  have hmoved : ((s.take l n).ledger c).after c' [.connection] = (s.ledger c).establish := by
    rw [Ledger.after_established hst' (by rw [htake]; exact hpast), htake]
    simp [Ledger.take, Ledger.establish]
  refine .inl ⟨(s.take l n).acted l c c' [.connection], ?_,
    ((h.take l n).acted hinv fun h' ↦ absurd hst h').follows c ?_ ?_⟩
  · rw [← act_ok, ← hok]
    rfl
  · rw [ledger_acted_self, hmoved]
    exact .single (.establish hpos)
  · intro x hx
    rw [ledger_acted_of_ne _ _ _ _ hx, htake, Ledger.take_of_ne hx]

/-- A task for `destroyed()` finds the connection disconnected and erased, so that
`destroyed()` has nothing to do. -/
theorem Inv.of_destroying {s : TcpServer} (h : s.Inv) {c : Nat}
    (hpos : 0 < s.tasks (.destroyed c)) :
    (s.conn c).state = .kDisconnected ∧ (c, .erased) ∈ s.log := by
  have hbal := h.balanced c
  have hcloses := hbal.closes
  have herasures := hbal.erasures
  have hpos' : 0 < (s.ledger c).destroying := hpos
  constructor
  · exact hbal.disconnected.mpr (by omega)
  · have herased : 0 < s.records c (· = .erased) := show 0 < (s.ledger c).erasures by omega
    obtain ⟨⟨x, what⟩, hmem, heq⟩ := List.countP_pos_iff.mp herased
    simp only [Bool.and_eq_true, decide_eq_true_eq] at heq
    rwa [heq.1, heq.2] at hmem

theorem Inv.outcome_destroyed {s : TcpServer} {clean : Prop} (h : s.Inv) {l c : Nat}
    (hfront : front l s.queue = some (.destroyed c)) (n : Nat) :
    s.Outcome clean ((s.take l n).runTask l (.destroyed c)) := by
  have hpos := tasks_pos_of_front hfront
  obtain ⟨hdis, herased⟩ := h.of_destroying hpos
  let s₁ := (s.take l n).record c (.destroyed l)
  have htidy : s₁.Tidy := by
    refine (h.take l n).record c (.destroyed l) ?_
    intro l' hl'
    cases hl'
    exact ⟨h.tasks l _ (mem_of_front hfront), herased⟩
  have hledger (x : Nat) : (s₁.acted l c (s₁.conn c) []).ledger x =
      { (s.ledger x).take x (.destroyed c) with
        destructions := (s.ledger x).destructions + if c = x then 1 else 0 } := by
    rw [ledger_acted_nil, ledger_record_destroyed, ledger_take hfront n x]
    rfl
  refine .inl ⟨s₁.acted l c (s₁.conn c) [], ?_,
    (htidy.acted (htidy.conn c) id).follows c ?_ ?_⟩
  · rw [runTask, ← act_ok, ← TcpConnection.destroyed_of_ne (c := s₁.conn c)]
    · rfl
    · show (s.conn c).state ≠ .kConnected
      rw [hdis]
      simp
  · have hmoved : { (s.ledger c).take c (.destroyed c) with
        destructions := (s.ledger c).destructions + 1 } = (s.ledger c).destroy := by
      simp [Ledger.take, Ledger.destroy]
    rw [hledger, if_pos rfl, hmoved]
    exact .single (.destroy hpos)
  · intro x hx
    rw [hledger, if_neg (Ne.symm hx), Ledger.take_of_ne hx]
    rfl

theorem Inv.outcome_runTask {s : TcpServer} {clean : Prop} (h : s.Inv) {l : Nat} {task : Task}
    (hfront : front l s.queue = some task) (n : Nat) :
    s.Outcome clean ((s.take l n).runTask l task) := by
  cases task with
  | established c => exact h.outcome_established hfront n
  | removeConnection c =>
      have hpos : 0 < (s.ledger c).removing := tasks_pos_of_front hfront
      have hmoved : { (s.ledger c).take c (.removeConnection c) with
          registered := false
          erasures := ((s.ledger c).take c (.removeConnection c)).erasures + 1
          destroying := ((s.ledger c).take c (.removeConnection c)).destroying + 1 } =
            (s.ledger c).erase := by
        simp [Ledger.take, Ledger.erase]
      refine h.outcome_eraseConnection (h.take l n) rfl (by omega) ?_ ?_
      · rw [ledger_take hfront n c, hmoved]
        exact .single (.erase hpos)
      · intro x hx
        rw [ledger_take hfront n x, Ledger.take_of_ne hx]
  | destroyed c => exact h.outcome_destroyed hfront n

/-! ## Waiting and dispatching -/

/-- What does not depend on the reported events is not changed by the reports. -/
theorem foldl_setRevents {P : TcpConnection → Prop}
    (hP : ∀ conn revents, P conn → P { conn with channel := { conn.channel with revents } })
    (batch : List Active) (conn : Nat → TcpConnection) {c : Nat} (h : P (conn c)) :
    P (batch.foldl setRevents conn c) := by
  induction batch generalizing conn with
  | nil => exact h
  | cons e batch ih =>
      apply ih
      cases e with
      | acceptor => exact h
      | connection c' revents =>
          rw [setRevents]
          by_cases hc : c = c'
          · subst hc
            rw [Function.update_self]
            exact hP _ _ h
          · rwa [Function.update_of_ne hc]

/-- A channel that is registered belongs to a connection that is open. -/
theorem Tidy.ne_kConnecting_of_isRegistered {s : TcpServer} (h : s.Tidy) {l c : Nat}
    {revents : BitVec 32} (hreg : s.isRegistered l (.connection c revents) = true) :
    (s.conn c).state ≠ .kConnecting := by
  intro hst
  have hlisted := (h.conn c).synced
  simp only [isRegistered, Bool.and_eq_true] at hreg
  rw [Channel.Synced, hreg.2, Channel.hasNoneEvents, (h.conn c).connecting hst] at hlisted
  cases hlisted

theorem Inv.follows_wait {s : TcpServer} {clean : Prop} (h : s.Inv) {l : Nat}
    {batch : List Active} (hreg : batch.all (s.isRegistered l) = true) :
    s.Follows clean
      ({ s with conn := batch.foldl setRevents s.conn }.goTo l (.dispatch batch)) := by
  have hsame (c : Nat) : (batch.foldl setRevents s.conn c).state = (s.conn c).state ∧
      (batch.foldl setRevents s.conn c).past = (s.conn c).past :=
    foldl_setRevents (P := fun conn ↦ conn.state = (s.conn c).state ∧ conn.past = (s.conn c).past)
      (fun _ _ h ↦ h) batch s.conn ⟨rfl, rfl⟩
  refine ⟨⟨?_, ?_, h.tasks, h.destroyed⟩, ?_⟩
  · intro c
    exact foldl_setRevents (fun conn revents hinv ↦
      ⟨hinv.synced, hinv.connecting, hinv.watched, hinv.closed⟩) batch s.conn (h.conn c)
  · intro c hc
    show (batch.foldl setRevents s.conn c).state ≠ _
    rw [(hsame c).1]
    rcases hc with hc | ⟨l', batch', revents, hplace, hmem⟩
    · exact h.reported c (.inl hc)
    · simp only [goTo, Function.update_apply] at hplace
      split at hplace
      · cases hplace
        exact h.ne_kConnecting_of_isRegistered (List.all_eq_true.mp hreg _ hmem)
      · exact h.reported c (.inr ⟨l', batch', revents, hplace, hmem⟩)
  · intro c
    have hledger : TcpServer.ledger
        ({ s with conn := batch.foldl setRevents s.conn }.goTo l (.dispatch batch)) c =
          s.ledger c := by
      simp only [ledger, goTo, (hsame c).1, (hsame c).2]
      rfl
    rw [hledger]

theorem mem_framesOf {s : TcpServer} {l : Nat} {e : Active} {x : Nat × Frame}
    (h : x ∈ s.framesOf l e) : x = (l, .acceptor) ∨
      ∃ c revents, e = .connection c revents ∧ (x = (l, .read c) ∨ x = (l, .write c)) := by
  cases e with
  | acceptor => exact .inl (List.mem_singleton.mp h)
  | connection c revents =>
      obtain ⟨cb, -, hcb⟩ := List.mem_filterMap.mp h
      refine .inr ⟨c, revents, rfl, ?_⟩
      cases cb with
      | read => exact .inl (Option.some.inj hcb).symm
      | write => exact .inr (Option.some.inj hcb).symm
      | close | error => cases hcb

theorem Inv.follows_dispatch {s : TcpServer} {clean : Prop} (h : s.Inv) {l : Nat} {e : Active}
    {batch : List Active} (hplace : s.place l = .dispatch (e :: batch)) :
    s.Follows clean
      ({ s with frames := s.framesOf l e ++ s.frames }.goTo l (.dispatch batch)) := by
  have hreported (c : Nat) (x : Nat × Frame) (hx : x ∈ s.framesOf l e)
      (hcase : x.2 = .read c ∨ x.2 = .write c) : s.Reported c := by
    rcases mem_framesOf hx with rfl | ⟨c', revents, rfl, rfl | rfl⟩
    · rcases hcase with h | h <;> cases h
    all_goals
      rcases hcase with h | h <;> cases h
      exact .inr ⟨l, _, revents, hplace, List.mem_cons_self⟩
  refine ⟨h.of_subset rfl rfl rfl (fun _ ↦ id) ?_, ?_⟩
  · intro c hc
    rcases hc with ⟨l', hmem | hmem⟩ | hc
    · rcases List.mem_append.mp hmem with hmem | hmem
      · exact hreported c _ hmem (.inl rfl)
      · exact .inl ⟨l', .inl hmem⟩
    · rcases List.mem_append.mp hmem with hmem | hmem
      · exact hreported c _ hmem (.inr rfl)
      · exact .inl ⟨l', .inr hmem⟩
    · refine Reported.of_place (t := s.goTo l (.dispatch batch)) (.inr hc) rfl rfl ?_
      intro batch' hbatch'
      cases hbatch'
      exact ⟨_, hplace, fun _ ↦ List.mem_cons_of_mem _⟩
  · intro c
    have hnone : (s.framesOf l e).countP (·.2 = .closeCallback c) = 0 := by
      apply List.countP_eq_zero.mpr
      intro x hx
      rcases mem_framesOf hx with rfl | ⟨c', revents, rfl, rfl | rfl⟩ <;> simp
    have hledger : TcpServer.ledger
        ({ s with frames := s.framesOf l e ++ s.frames }.goTo l (.dispatch batch)) c =
          s.ledger c := by
      ext
      case closing => simp [ledger, goTo, hnone]
      all_goals rfl
    rw [hledger]

/-! ## Functions of a connection -/

/-- A call does nothing to a connection that is not open. -/
theorem Call.run_of_ne {c : TcpConnection}
    (hst : ¬ (c.state = .kConnected ∨ c.state = .kDisconnecting)) (call : Call) :
    call.run c = .ok (c, []) := by
  have hne : c.state ≠ .kConnected := fun h ↦ hst (.inl h)
  cases call with
  | send data answer => simp only [Call.run, TcpConnection.send, if_pos hne]; rfl
  | shutdown => simp only [Call.run, TcpConnection.shutdown, if_neg hne]; rfl
  | forceClose => simp only [Call.run, TcpConnection.forceClose_of_ne hst]; rfl

theorem Call.run_spec {c : TcpConnection} (h : c.Inv) (call : Call) :
    ∃ c' cbs data, call.run c = .ok (c', cbs) ∧ TcpConnection.Effect c data c' cbs := by
  cases call with
  | send data answer =>
      obtain ⟨heff, htask⟩ := TcpConnection.send_spec h data
      obtain ⟨c', cbs, hok, heff'⟩ := TcpConnection.runInLoop_spec heff htask answer
      exact ⟨c', cbs, _, hok, heff'⟩
  | shutdown =>
      obtain ⟨heff, htask⟩ := TcpConnection.shutdown_spec h
      obtain ⟨c', cbs, hok, heff'⟩ := TcpConnection.runInLoop_spec heff htask .failed
      exact ⟨c', cbs, _, hok, heff'⟩
  | forceClose =>
      obtain ⟨heff, htask⟩ := TcpConnection.forceClose_spec h
      obtain ⟨c', cbs, hok, heff'⟩ := TcpConnection.runInLoop_spec heff htask .failed
      exact ⟨c', cbs, _, hok, heff'⟩

/-- The connection from which a step reads data or the end of file. -/
def readsFrom (s : TcpServer) : Action → Option Nat
  | .read l (.read _) =>
      match front l s.frames with
      | some (.read c) => some c
      | _ => none
  | _ => none

/-- Nothing is read from a connection that is closed. -/
def ReadsOpen (s : TcpServer) (a : Action) : Prop :=
  ∀ c ∈ s.readsFrom a, (s.conn c).state ≠ .kDisconnected

instance (s : TcpServer) (a : Action) : Decidable (s.ReadsOpen a) :=
  inferInstanceAs (Decidable (∀ c ∈ s.readsFrom a, (s.conn c).state ≠ .kDisconnected))

theorem Inv.outcome_call {s : TcpServer} {clean : Prop} (h : s.Inv) (l c : Nat) (call : Call) :
    s.Outcome clean (s.act l c (call.run (s.conn c))) := by
  by_cases hopen : (s.conn c).state = .kConnected ∨ (s.conn c).state = .kDisconnecting
  · obtain ⟨c', cbs, data, hok, heff⟩ := call.run_spec (h.conn c)
    refine .inl ⟨_, by rw [hok, act_ok], h.follows_acted h.toTidy (fun _ ↦ rfl) heff ?_ fun _ ↦ ?_⟩
    all_goals rcases hopen with hst | hst <;> simp [hst]
  · rw [Call.run_of_ne hopen, act_ok]
    exact .inl ⟨_, rfl, h.follows_acted_nil fun _ ↦ rfl⟩

theorem Inv.outcome_read {s : TcpServer} (h : s.Inv) {l c : Nat}
    (hfront : front l s.frames = some (.read c)) (answer : ReadResult) :
    s.Outcome (s.ReadsOpen (.read l answer))
      ((s.pop l).act l c ((s.conn c).handleRead answer)) := by
  have hledger := ledger_pop_of_ne hfront fun _ ↦ by simp
  have hst := h.reported c (.inl ⟨l, .inl (mem_of_front hfront)⟩)
  obtain ⟨c', cbs, hok, heff⟩ := TcpConnection.handleRead_spec (h.conn c) answer
  by_cases hclean : s.ReadsOpen (.read l answer) → (s.conn c).state ≠ .kDisconnected
  · rw [hok, act_ok]
    exact .inl ⟨_, rfl, h.follows_acted (h.pop l) hledger heff hst hclean⟩
  · -- only a read that fails is clean on a connection that is closed
    cases answer with
    | failed errno =>
        have hdis : (s.conn c).state = .kDisconnected := by
          by_contra hne
          exact hclean fun _ ↦ hne
        rw [TcpConnection.handleRead_failed_of_ne (by simp [hdis]), act_ok]
        exact .inl ⟨_, rfl, (h.pop l).follows_acted_nil hledger⟩
    | read data => exact absurd (fun hopen ↦ hopen c (by simp [readsFrom, hfront])) hclean

theorem Inv.outcome_write {s : TcpServer} {clean : Prop} (h : s.Inv) {l c : Nat}
    (hfront : front l s.frames = some (.write c)) (answer : WriteResult) :
    s.Outcome clean ((s.pop l).act l c ((s.conn c).handleWrite answer)) := by
  have hledger := ledger_pop_of_ne hfront fun _ ↦ by simp
  by_cases hdis : (s.conn c).state = .kDisconnected
  · rw [TcpConnection.handleWrite_of_closed (h.conn c) hdis, act_ok]
    exact .inl ⟨_, rfl, (h.pop l).follows_acted_nil hledger⟩
  · obtain ⟨c', hok, heff, -⟩ := TcpConnection.handleWrite_spec (h.conn c) answer
    rw [hok, act_ok]
    exact .inl ⟨_, rfl, h.follows_acted (h.pop l) hledger heff
      (h.reported c (.inl ⟨l, .inr (mem_of_front hfront)⟩)) fun _ ↦ hdis⟩

/-! ## Steps -/

/-- A thread goes on to a place at which nothing is dispatched. -/
theorem Inv.follows_goTo {s : TcpServer} {clean : Prop} (h : s.Inv) (l : Nat) {place : Place}
    (hplace : ∀ batch, place ≠ .dispatch batch) : s.Follows clean (s.goTo l place) where
  tidy := h.of_subset rfl rfl rfl (fun _ ↦ id) fun _ hc ↦
    hc.of_place rfl rfl fun batch hb ↦ absurd hb (hplace batch)
  moves _ := .refl

/-- **What a step is to the connections.**  It takes the ledger of each through
some moves, which are clean if the step does not read from a connection that is
closed; or it fails the assertion in `remove_connection`, some connection having
been closed twice before. -/
theorem step_outcome {s : TcpServer} {a : Action} {r : Except NoReturn TcpServer} (h : s.Inv)
    (hstep : s.step a = some r) : s.Outcome (s.ReadsOpen a) r := by
  cases a with
  | wait l batch =>
      rw [step] at hstep
      split at hstep
      · rename_i hwait
        exact .inl ⟨_, (Option.some.inj hstep).symm, h.follows_wait hwait.2.1⟩
      · cases hstep
  | dispatch l =>
      rw [step] at hstep
      split at hstep
      · rename_i e batch _ hplace
        exact .inl ⟨_, (Option.some.inj hstep).symm, h.follows_dispatch hplace⟩
      · cases hstep
  | swap l | finish l =>
      rw [step] at hstep
      split at hstep
      · exact .inl ⟨_, (Option.some.inj hstep).symm, h.follows_goTo l fun _ hb ↦ by cases hb⟩
      · cases hstep
  | runTask l =>
      rw [step] at hstep
      split at hstep
      · rename_i n task _ _ hfront
        rw [← Option.some.inj hstep]
        exact h.outcome_runTask hfront n
      · cases hstep
  | accept connectionFd =>
      rw [step] at hstep
      split at hstep
      · rw [← Option.some.inj hstep]
        exact .inl (h.newConnection connectionFd)
      · cases hstep
  | call l c call =>
      rw [step] at hstep
      split at hstep
      · split at hstep
        · rw [← Option.some.inj hstep]
          exact h.outcome_call l c call
        · cases hstep
      · cases hstep
  | «return» l =>
      rw [step] at hstep
      split at hstep
      · rename_i hfront
        exact .inl ⟨_, (Option.some.inj hstep).symm,
          (h.pop l).follows_refl (ledger_pop_of_ne hfront fun _ ↦ by simp)⟩
      · rename_i hfront
        exact .inl ⟨_, (Option.some.inj hstep).symm,
          (h.pop l).follows_refl (ledger_pop_of_ne hfront fun _ ↦ by simp)⟩
      · cases hstep
  | read l answer =>
      rw [step] at hstep
      split at hstep
      · rename_i hfront
        rw [← Option.some.inj hstep]
        exact h.outcome_read hfront answer
      · cases hstep
  | write l answer =>
      rw [step] at hstep
      split at hstep
      · rename_i hfront
        rw [← Option.some.inj hstep]
        exact h.outcome_write hfront answer
      · cases hstep
  | closeCallback l =>
      rw [step] at hstep
      split at hstep
      · rename_i hfront
        rw [← Option.some.inj hstep]
        exact h.outcome_closeCallback hfront
      · cases hstep

end Wuduo.TcpServer
