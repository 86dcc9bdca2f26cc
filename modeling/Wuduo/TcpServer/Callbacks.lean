import Wuduo.TcpServer.Cases
import Wuduo.TcpServer.Closing

/-!
# The order of the callbacks of a connection

The user's code relies on an order: `HttpServer::on_connection` gives a connection its
context when the connection is reported as connected, and `on_message` takes it for granted.
`Phase` is the life of a connection as the user sees it, with what the server does to get
rid of the connection at its end; `Phase.next` says what can happen in which phase.

## Results

* `callbacks_in_order`: as long as nothing is read from a connection that is closed, and no
  other thread calls into one, what happens to each connection of a server happens in this
  order, and no assertion fails.
-/

namespace Wuduo.TcpServer

open Lanes Transition

/-- How far the life of a connection has got. -/
inductive Phase where
  /-- nothing has happened yet -/
  | new
  /-- reported as connected -/
  | established
  /-- `handle_close` has begun -/
  | closing
  /-- reported as disconnected -/
  | reported
  /-- `close_callback_` has been called -/
  | notified
  /-- out of `connections_` -/
  | erased
  /-- `destroyed()` has run -/
  | destroyed
deriving DecidableEq, Repr

/-- What can happen to a connection, and what comes after it. -/
def Phase.next : Phase → Happening → Option Phase
  | .new, .connectionCallback .kConnected => some .established
  | .established, .messageCallback .kConnected => some .established
  | .established, .messageCallback .kDisconnecting => some .established
  | .established, .handleClose => some .closing
  | .closing, .connectionCallback .kDisconnected => some .reported
  | .reported, .closeCallback => some .notified
  | .notified, .erased => some .erased
  | .erased, .destroyed _ => some .destroyed
  | _, _ => none

/-- The phase after all that has happened, the latest first, if it happened in order. -/
def Phase.after : List Happening → Option Phase
  | [] => some .new
  | what :: older => (Phase.after older).bind (·.next what)

/-- What has happened to a connection, the latest first. -/
def happenings (s : TcpServer) (c : Nat) : List Happening :=
  (s.log.filter (·.1 = c)).map Prod.snd

/-- The phase is what the ledger says. -/
structure Phase.Agrees (p : Phase) (k : Ledger) : Prop where
  new : p = .new ↔ k.state = .kConnecting
  /-- `handle_close` is not left before its report is due -/
  closing : p ≠ .closing
  reported : k.closing = if p = .reported then 1 else 0
  notified : k.removing = if p = .notified then 1 else 0
  erased : k.destroying = if p = .erased then 1 else 0
  destroyed : k.destructions = if p = .destroyed then 1 else 0

/-- What has happened to a connection has happened in order. -/
def InOrder (s : TcpServer) (c : Nat) : Prop :=
  ∃ p, Phase.after (s.happenings c) = some p ∧ p.Agrees (s.ledger c)

theorem inOrder_new (workers c : Nat) : (new workers).InOrder c :=
  ⟨.new, rfl, by constructor <;> simp [ledger, new, tasks, records, TcpConnection.new]⟩

/-! ## Phases and ledgers -/

section

variable {p : Phase} {k : Ledger}

theorem Phase.Agrees.closes_le (h : p.Agrees k) (hbal : k.Balanced) : k.closes ≤ 1 := by
  have hcloses := hbal.closes
  rw [h.reported, h.notified, h.erased, h.destroyed] at hcloses
  cases p <;> simp at hcloses <;> omega

/-- A connection that is open is established. -/
theorem Phase.Agrees.eq_established (h : p.Agrees k) (hbal : k.Balanced)
    (hnew : k.state ≠ .kConnecting) (hopen : k.state ≠ .kDisconnected) : p = .established := by
  have hcloses := hbal.closes
  rw [hbal.closes_eq_zero hopen, h.reported, h.notified, h.erased, h.destroyed] at hcloses
  have hp := mt h.new.mp hnew
  have hc := h.closing
  cases p <;> simp at hcloses hp hc ⊢

theorem Phase.Agrees.eq_reported (h : p.Agrees k) (hpos : 0 < k.closing) : p = .reported := by
  by_contra hp
  rw [h.reported, if_neg hp] at hpos
  exact Nat.lt_irrefl _ hpos

theorem Phase.Agrees.eq_notified (h : p.Agrees k) (hpos : 0 < k.removing) : p = .notified := by
  by_contra hp
  rw [h.notified, if_neg hp] at hpos
  exact Nat.lt_irrefl _ hpos

theorem Phase.Agrees.eq_erased (h : p.Agrees k) (hpos : 0 < k.destroying) : p = .erased := by
  by_contra hp
  rw [h.erased, if_neg hp] at hpos
  exact Nat.lt_irrefl _ hpos

/-- A function of an open connection. -/
theorem Phase.Agrees.after (h : Phase.established.Agrees k) {conn : TcpConnection}
    {cbs : List TcpConnection.Callback} (hfun : k.Function conn cbs)
    (hopen : k.state ≠ .kDisconnected) :
    ∃ p, (∀ older, Phase.after older = some .established →
        Phase.after (cbs.map (happeningOf conn.state) ++ older) = some p) ∧
      p.Agrees (k.after conn cbs) := by
  have hne : k.state ≠ .kConnecting := mt h.new.mpr (by simp)
  have hne' : conn.state ≠ .kConnecting := mt hfun.connecting.mp hne
  rcases hfun.callbacks with ⟨rfl | rfl, hst⟩ | ⟨rfl, hst⟩
  · refine ⟨.established, fun older h ↦ h, ?_⟩
    constructor <;>
      simp [Ledger.after, hne', h.reported, h.notified, h.erased, h.destroyed]
  · refine ⟨.established, fun older h ↦ ?_, ?_⟩
    · have hst' : conn.state ≠ .kDisconnected := mt hst.mp hopen
      simp only [List.map_cons, List.map_nil, List.singleton_append, happeningOf, Phase.after, h,
        Option.bind_some]
      cases hc : conn.state <;> simp_all [Phase.next]
    · constructor <;>
        simp [Ledger.after, hne', h.reported, h.notified, h.erased, h.destroyed]
  · refine ⟨.reported, fun older h ↦ ?_, ?_⟩
    · simp [happeningOf, hst, Phase.after, h, Phase.next]
    · constructor <;>
        simp [Ledger.after, hne', h.reported, h.notified, h.erased, h.destroyed]

end

/-! ## Steps -/

section

variable {s s₁ t : TcpServer} {l c x : Nat}

theorem happenings_acted (s : TcpServer) (l c : Nat) (conn : TcpConnection)
    (cbs : List TcpConnection.Callback) (x : Nat) : (s.acted l c conn cbs).happenings x =
      (if c = x then cbs.map (happeningOf conn.state) else []) ++ s.happenings x := by
  rw [happenings, acted, List.filter_append, List.map_append, List.filter_map]
  split
  · rename_i hx
    simp [hx, happenings, Function.comp_def]
  · rename_i hx
    simp [hx, happenings, Function.comp_def]

@[simp] theorem happenings_record (s : TcpServer) (c : Nat) (what : Happening) (x : Nat) :
    (s.record c what).happenings x = (if c = x then [what] else []) ++ s.happenings x := by
  rw [happenings, record, List.filter_cons]
  split
  · rename_i hx
    rw [if_pos (of_decide_eq_true hx)]
    rfl
  · rename_i hx
    rw [if_neg fun h ↦ hx (decide_eq_true h)]
    rfl

theorem InOrder.congr (h : s.InOrder c) (hledger : t.ledger c = s.ledger c) (hlog : t.log = s.log) :
    t.InOrder c := by
  rw [InOrder, happenings, hlog, hledger]
  exact h

/-- A function of another connection. -/
theorem InOrder.acted_of_ne (h : s.InOrder x) (l : Nat) (hx : x ≠ c) (conn : TcpConnection)
    (cbs : List TcpConnection.Callback) : (s.acted l c conn cbs).InOrder x := by
  rw [InOrder, happenings_acted, if_neg (Ne.symm hx), ledger_acted_of_ne _ _ _ _ hx]
  exact h

/-- A function that does nothing. -/
theorem InOrder.acted_nil (h : s.InOrder x) (l c : Nat) :
    (s.acted l c (s.conn c) []).InOrder x := by
  rw [InOrder, happenings_acted, ledger_acted_nil, List.map_nil, ite_self, List.nil_append]
  exact h

/-- A function of an open connection is in order, wherever it runs. -/
theorem InOrder.acted (h : s.InOrder x) (hinv : s.Inv)
    (hledger : ∀ x, s₁.ledger x = s.ledger x) (hlog : s₁.log = s.log) {c' : TcpConnection}
    {data : Bytes}
    {cbs : List TcpConnection.Callback} (heff : TcpConnection.Effect (s.conn c) data c' cbs)
    (hne : (s.conn c).state ≠ .kConnecting) (hopen : (s.conn c).state ≠ .kDisconnected) (l : Nat) :
    (s₁.acted l c c' cbs).InOrder x := by
  have h₁ : s₁.InOrder x := h.congr (hledger x) hlog
  by_cases hx : x = c
  · subst hx
    obtain ⟨p, hp, hagrees⟩ := h₁
    rw [hledger] at hagrees
    obtain rfl := hagrees.eq_established (hinv.balanced x) hne hopen
    obtain ⟨p', hp', hagrees'⟩ := hagrees.after
      ⟨iff_of_false (heff.ne_kConnecting hne) hne, heff.callbacks, heff.forward⟩ hopen
    refine ⟨p', ?_, ?_⟩
    · rw [happenings_acted, if_pos rfl]
      exact hp' _ hp
    · rw [ledger_acted_self, hledger]
      exact hagrees'
  · exact h₁.acted_of_ne l hx c' cbs

theorem ledger_wait (s : TcpServer) (l : Nat) (batch : List Active) (x : Nat) :
    ({ s with conn := batch.foldl setRevents s.conn }.goTo l (.dispatch batch)).ledger x =
      s.ledger x := by
  have hsame : (batch.foldl setRevents s.conn x).state = (s.conn x).state ∧
      (batch.foldl setRevents s.conn x).past = (s.conn x).past :=
    foldl_setRevents (P := fun conn ↦ conn.state = (s.conn x).state ∧ conn.past = (s.conn x).past)
      (fun _ _ h ↦ h) batch s.conn ⟨rfl, rfl⟩
  simp only [ledger, goTo, hsame.1, hsame.2]
  rfl

theorem ledger_dispatch (s : TcpServer) (l : Nat) (e : Active) (batch : List Active) (x : Nat) :
    ({ s with frames := s.framesOf l e ++ s.frames }.goTo l (.dispatch batch)).ledger x =
      s.ledger x := by
  have hnone : (s.framesOf l e).countP (·.2 = .closeCallback x) = 0 := by
    apply List.countP_eq_zero.mpr
    intro y hy
    rcases mem_framesOf hy with rfl | ⟨c, revents, rfl, rfl | rfl⟩ <;> simp
  ext
  case closing => simp [ledger, goTo, hnone]
  all_goals rfl

/-- The ledger says the same about the phase. -/
theorem Phase.Agrees.congr {p : Phase} {k k' : Ledger} (h : p.Agrees k) (hst : k'.state = k.state)
    (hclosing : k'.closing = k.closing) (hremoving : k'.removing = k.removing)
    (hdestroying : k'.destroying = k.destroying)
    (hdestructions : k'.destructions = k.destructions) : p.Agrees k' where
  new := by rw [hst]; exact h.new
  closing := h.closing
  reported := hclosing.trans h.reported
  notified := hremoving.trans h.notified
  erased := hdestroying.trans h.erased
  destroyed := hdestructions.trans h.destroyed

/-- `established()` reports a new connection. -/
theorem InOrder.acted_established (h : s.InOrder x) (hst : (s.conn c).state = .kConnecting)
    {c' : TcpConnection} (hst' : c'.state = .kConnected) (l : Nat) :
    (s.acted l c c' [.connection]).InOrder x := by
  by_cases hx : x = c
  · subst hx
    obtain ⟨p, hp, hagrees⟩ := h
    obtain rfl : p = .new := hagrees.new.mpr hst
    refine ⟨.established, ?_, ?_⟩
    · rw [happenings_acted, if_pos rfl]
      simp [happeningOf, hst', Phase.after, hp, Phase.next]
    · rw [ledger_acted_self]
      constructor <;> simp [Ledger.after, hst', hagrees.reported, hagrees.notified,
        hagrees.erased, hagrees.destroyed]
  · exact h.acted_of_ne l hx c' _

theorem state_of_established {c c' : TcpConnection} {cbs : List TcpConnection.Callback}
    (hinv : c.Inv) (h : c.established = .ok (c', cbs)) : c'.state = .kConnected := by
  have hst : c.state = .kConnecting := by
    by_contra hne
    rw [TcpConnection.established, if_neg hne] at h
    cases h
  obtain ⟨d, hok, -, hst', -⟩ := TcpConnection.established_spec hinv hst
  rw [h] at hok
  cases hok
  exact hst'

theorem InOrder.take_established (h : s.InOrder x) {n : Nat}
    (hfront : front l s.queue = some (.established c)) : (s.take l n).InOrder x := by
  obtain ⟨p, hp, hagrees⟩ := h
  refine ⟨p, hp, ?_⟩
  rw [ledger_take hfront]
  exact hagrees.congr rfl rfl rfl rfl rfl

@[simp] theorem happenings_unregistered (s : TcpServer) (c x : Nat) :
    (s.unregistered c).happenings x = (if c = x then [.erased] else []) ++ s.happenings x :=
  happenings_record { s with connections := s.connections.erase c } c .erased x

theorem ledger_unregistered (hc : c ∈ s.connections) (x : Nat) :
    (s.unregistered c).ledger x = if x = c then { s.ledger c with
      registered := false
      erasures := (s.ledger c).erasures + 1
      destroying := (s.ledger c).destroying + 1 } else s.ledger x :=
  ledger_eraseConnection (if_pos hc) x

/-- The task of `remove_connection` erases a connection whose close was notified. -/
theorem InOrder.erase (h : s.InOrder x) {n : Nat} (hruns : s.Runs l n (.removeConnection c))
    (hc : c ∈ s.connections) : ((s.take l n).unregistered c).InOrder x := by
  obtain ⟨p, hp, hagrees⟩ := h
  rw [InOrder, happenings_unregistered, ledger_unregistered (by exact hc)]
  by_cases hx : x = c
  · subst hx
    have hpos : 0 < (s.ledger x).removing := tasks_pos_of_front hruns.task
    obtain rfl := hagrees.eq_notified hpos
    refine ⟨.erased, ?_, ?_⟩
    · have hp' : Phase.after ((s.take l n).happenings x) = some .notified := hp
      simp [Phase.after, hp', Phase.next]
    · rw [if_pos rfl, ledger_take hruns.task]
      have hnew := hagrees.new
      constructor <;> simp_all [Ledger.take, hagrees.reported, hagrees.notified, hagrees.erased,
        hagrees.destroyed]
  · rw [if_neg (Ne.symm hx), if_neg hx, ledger_take hruns.task, Ledger.take_of_ne hx]
    exact ⟨p, hp, hagrees⟩

theorem InOrder.destroy (h : s.InOrder x) {n : Nat} (hruns : s.Runs l n (.destroyed c)) :
    (((s.take l n).record c (.destroyed l)).acted l c (s.conn c) []).InOrder x := by
  refine InOrder.acted_nil (s := (s.take l n).record c (.destroyed l)) ?_ l c
  obtain ⟨p, hp, hagrees⟩ := h
  rw [InOrder, happenings_record, ledger_record_destroyed, ledger_take hruns.task]
  by_cases hx : x = c
  · subst hx
    have hpos : 0 < (s.ledger x).destroying := tasks_pos_of_front hruns.task
    obtain rfl := hagrees.eq_erased hpos
    refine ⟨.destroyed, ?_, ?_⟩
    · have hp' : Phase.after ((s.take l n).happenings x) = some .erased := hp
      simp [Phase.after, hp', Phase.next]
    · have hnew := hagrees.new
      constructor <;> simp_all [Ledger.take, hagrees.reported, hagrees.notified, hagrees.erased,
        hagrees.destroyed]
  · rw [if_neg (Ne.symm hx), Ledger.take_of_ne hx, if_neg (Ne.symm hx)]
    exact ⟨p, hp, hagrees⟩

theorem InOrder.inserted (h : s.InOrder x) (hinv : s.Inv) (connectionFd ioLoop next : Nat) :
    (s.inserted connectionFd ioLoop next).InOrder x := by
  obtain ⟨p, hp, hagrees⟩ := h
  refine ⟨p, hp, ?_⟩
  by_cases hx : x = s.made
  · subst hx
    have hst := ((hinv.balanced s.made).unmade (by simp)).1
    rw [ledger_inserted_self]
    exact hagrees.congr hst.symm rfl rfl rfl rfl
  · rwa [ledger_inserted_of_ne _ _ _ _ hx]

theorem InOrder.queue_established (h : s.InOrder x) (l c : Nat) :
    (s.queueInLoop l (.established c)).InOrder x := by
  obtain ⟨p, hp, hagrees⟩ := h
  refine ⟨p, hp, ?_⟩
  rw [ledger_queueInLoop]
  exact hagrees.congr rfl rfl rfl rfl rfl

/-- `handle_close` calls `close_callback_` on a worker. -/
theorem InOrder.closeWorker (h : s.InOrder x)
    (hfront : front l s.frames = some (.closeCallback c)) :
    (((s.pop l).record c .closeCallback).queueInLoop 0 (.removeConnection c)).InOrder x := by
  obtain ⟨p, hp, hagrees⟩ := h
  have hhapp : (((s.pop l).record c .closeCallback).queueInLoop 0
      (.removeConnection c)).happenings x =
        (if c = x then [.closeCallback] else []) ++ s.happenings x :=
    happenings_record (s.pop l) c .closeCallback x
  rw [InOrder, hhapp, ledger_queueInLoop, ledger_record_closeCallback, ledger_pop hfront]
  by_cases hx : x = c
  · subst hx
    obtain rfl := hagrees.eq_reported (closing_pos_of_front hfront)
    refine ⟨.notified, ?_, ?_⟩
    · simp [Phase.after, hp, Phase.next]
    · have hnew := hagrees.new
      constructor <;> simp_all [Ledger.push, hagrees.reported, hagrees.notified, hagrees.erased,
        hagrees.destroyed]
  · refine ⟨p, by rwa [if_neg (Ne.symm hx)], ?_⟩
    exact hagrees.congr rfl (by simp [Ledger.push, Ne.symm hx]) (by simp [Ledger.push, Ne.symm hx])
      rfl rfl

/-- On the base loop `close_callback_` erases the connection. -/
theorem InOrder.closeBase (h : s.InOrder x) (hfront : front 0 s.frames = some (.closeCallback c))
    (hc : c ∈ s.connections) :
    (((s.pop 0).record c .closeCallback).unregistered c).InOrder x := by
  obtain ⟨p, hp, hagrees⟩ := h
  have hhapp : ((s.pop 0).record c .closeCallback).happenings x =
      (if c = x then [.closeCallback] else []) ++ s.happenings x :=
    happenings_record (s.pop 0) c .closeCallback x
  rw [InOrder, happenings_unregistered, hhapp, ledger_unregistered (by exact hc)]
  by_cases hx : x = c
  · subst hx
    obtain rfl := hagrees.eq_reported (closing_pos_of_front hfront)
    refine ⟨.erased, ?_, ?_⟩
    · simp [Phase.after, hp, Phase.next]
    · rw [if_pos rfl, ledger_record_closeCallback, ledger_pop hfront]
      have hnew := hagrees.new
      constructor <;> simp_all [hagrees.reported, hagrees.notified, hagrees.erased,
        hagrees.destroyed]
  · rw [if_neg (Ne.symm hx), if_neg hx, if_neg (Ne.symm hx), ledger_record_closeCallback,
      ledger_pop hfront]
    refine ⟨p, hp, ?_⟩
    exact hagrees.congr rfl (by simp [Ne.symm hx]) rfl rfl rfl

theorem InOrder.call (h : s.InOrder x) (hinv : s.Inv) {call : Call} {c' : TcpConnection}
    {cbs : List TcpConnection.Callback} (hok : call.run (s.conn c) = .ok (c', cbs)) :
    (s.acted l c c' cbs).InOrder x := by
  by_cases hopen : (s.conn c).state = .kConnected ∨ (s.conn c).state = .kDisconnecting
  · obtain ⟨d, cbs', data, hok', heff⟩ := call.run_spec (hinv.conn c)
    rw [hok] at hok'
    cases hok'
    refine h.acted hinv (fun _ ↦ rfl) rfl heff ?_ ?_ l
    all_goals rcases hopen with hst | hst <;> simp [hst]
  · rw [Call.run_of_ne hopen] at hok
    cases hok
    exact h.acted_nil l c

theorem InOrder.read (h : s.InOrder x) (hinv : s.Inv) {answer : ReadResult}
    (hfront : front l s.frames = some (.read c)) (hopen : s.ReadsOpen (.read l answer))
    {c' : TcpConnection} {cbs : List TcpConnection.Callback}
    (hok : (s.conn c).handleRead answer = .ok (c', cbs)) :
    ((s.pop l).acted l c c' cbs).InOrder x := by
  have hledger := ledger_pop_of_ne hfront fun _ ↦ by simp
  have hne := hinv.reported c (.inl ⟨l, .inl (mem_of_front hfront)⟩)
  by_cases hdis : (s.conn c).state = .kDisconnected
  · cases answer with
    | failed errno =>
        rw [TcpConnection.handleRead_failed_of_ne (by simp [hdis])] at hok
        cases hok
        exact (h.congr (hledger x) rfl).acted_nil (s := s.pop l) l c
    | read data => exact absurd hdis (hopen c (by simp [readsFrom, hfront]))
  · obtain ⟨d, cbs', hok', heff⟩ := TcpConnection.handleRead_spec (hinv.conn c) answer
    rw [hok] at hok'
    cases hok'
    exact h.acted hinv hledger rfl heff hne hdis l

theorem InOrder.write (h : s.InOrder x) (hinv : s.Inv) {answer : WriteResult}
    (hfront : front l s.frames = some (.write c)) {c' : TcpConnection}
    {cbs : List TcpConnection.Callback}
    (hok : (s.conn c).handleWrite answer = .ok (c', cbs)) :
    ((s.pop l).acted l c c' cbs).InOrder x := by
  have hledger := ledger_pop_of_ne hfront fun _ ↦ by simp
  have hne := hinv.reported c (.inl ⟨l, .inr (mem_of_front hfront)⟩)
  by_cases hdis : (s.conn c).state = .kDisconnected
  · rw [TcpConnection.handleWrite_of_closed (hinv.conn c) hdis] at hok
    cases hok
    exact (h.congr (hledger x) rfl).acted_nil (s := s.pop l) l c
  · obtain ⟨d, hok', heff, -⟩ := TcpConnection.handleWrite_spec (hinv.conn c) answer
    rw [hok] at hok'
    cases hok'
    exact h.acted hinv hledger rfl heff hne hdis l

/-- A step that reads from no closed connection keeps the order of what happens to each. -/
theorem InOrder.of_stepped (h : s.InOrder x) (hinv : s.Inv) {a : Action} (hopen : s.ReadsOpen a)
    (hstep : Stepped s a t) : t.InOrder x := by
  cases hstep with
  | @wait l batch hplace hreg => exact h.congr (ledger_wait s l batch x) rfl
  | @dispatch l e batch hidle hplace => exact h.congr (ledger_dispatch s l e batch x) rfl
  | swap | finish => exact h
  | @established l n c hruns hst c' hok =>
      exact (h.take_established (n := n) hruns.task).acted_established (s := s.take l n) hst
        (state_of_established (hinv.conn c) hok) l
  | erase hruns hc => exact h.erase hruns hc
  | destroy hruns => exact h.destroy hruns
  | @acceptBase connectionFd next hfront hnext c' hok =>
      refine (h.inserted hinv connectionFd 0 next).acted_established ?_
        (state_of_established (TcpConnection.inv_new connectionFd) hok) 0
      simp [TcpServer.inserted, TcpConnection.new]
  | @acceptWorker connectionFd ioLoop next hfront hnext hio =>
      exact (h.inserted hinv connectionFd ioLoop next).queue_established ioLoop s.made
  | call hfront hc hl hok => exact h.call hinv hok
  | returns hfront hframe =>
      refine h.congr (ledger_pop_of_ne hfront (fun c ↦ ?_) x) rfl
      rcases hframe with rfl | ⟨c', rfl⟩ <;> simp
  | read hfront hok => exact h.read hinv hfront hopen hok
  | write hfront hok => exact h.write hinv hfront hok
  | closeBase hfront hc => exact h.closeBase hfront hc
  | closeWorker hfront hl => exact h.closeWorker hfront

end

/-- **What happens to a connection happens in order.**  In every run of the server in which
connections are called only from callbacks in the thread of their own loop, and nothing is read
from a connection that is closed, no assertion fails, and each connection
is reported as connected, then gives its messages, then is closed, reported as disconnected,
handed to `close_callback_`, erased and destroyed, each at most once. -/
theorem callbacks_in_order (workers : Nat) (as : List Action) (r : Except NoReturn TcpServer)
    (hopen : AllSteps (liftAbort step) (WhileAlive ReadsOpen) (.ok (new workers)) as)
    (h : run (liftAbort step) (.ok (new workers)) as = some r) :
    ∃ s, r = .ok s ∧ ∀ c, ∃ p, Phase.after (s.happenings c) = some p := by
  have hkeep (s : TcpServer) (a : Action) (r : Except NoReturn TcpServer)
      (hs : s.Inv ∧ ∀ c, s.InOrder c) (hopen : s.ReadsOpen a) (hstep : s.step a = some r) :
      ∃ t, r = .ok t ∧ t.Inv ∧ ∀ c, t.InOrder c := by
    obtain ⟨hinv, horder⟩ := hs
    rcases step_outcome hinv hstep with ⟨t, rfl, hfollows⟩ | ⟨-, c, -, hmany⟩
    · exact ⟨t, rfl, hinv.follows hfollows, fun c ↦
        (horder c).of_stepped hinv hopen (stepped hinv hstep)⟩
    · obtain ⟨p, -, hagrees⟩ := horder c
      exact absurd (hagrees.closes_le (hinv.balanced c)) (Nat.not_le_of_gt hmany)
  obtain ⟨s, rfl, -, horder⟩ := run_alive_of_allSteps hkeep
    ⟨inv_new workers, inOrder_new workers⟩ hopen h
  refine ⟨s, rfl, fun c ↦ ?_⟩
  obtain ⟨p, hp, -⟩ := horder c
  exact ⟨p, hp⟩

/-- A connection from its acceptance to its end, on a worker. -/
theorem callbacks_in_order_run :
    ∃ s, run (liftAbort step) (.ok (new 1)) [.wait 0 [.acceptor], .dispatch 0, .accept 7,
        .return 0, .wait 1 [], .swap 1, .runTask 1, .return 1, .finish 1,
        .wait 1 [.connection 0 EPOLLIN], .dispatch 1, .read 1 (.read [1]), .return 1, .swap 1,
        .finish 1, .wait 1 [.connection 0 EPOLLIN], .dispatch 1, .read 1 (.read []), .return 1,
        .closeCallback 1, .swap 0, .runTask 0, .swap 1, .runTask 1] = some (.ok s) ∧
      (∃ p, Phase.after (s.happenings 0) = some p) ∧ (s.happenings 0).length = 7 := by
  obtain ⟨s, hrun, hs⟩ := exists_run_ok step (.ok (new 1)) [.wait 0 [.acceptor], .dispatch 0,
    .accept 7, .return 0, .wait 1 [], .swap 1, .runTask 1, .return 1, .finish 1,
    .wait 1 [.connection 0 EPOLLIN], .dispatch 1, .read 1 (.read [1]), .return 1, .swap 1,
    .finish 1, .wait 1 [.connection 0 EPOLLIN], .dispatch 1, .read 1 (.read []), .return 1,
    .closeCallback 1, .swap 0, .runTask 0, .swap 1, .runTask 1]
    (fun s ↦ decide ((s.happenings 0).length = 7)) (by decide +kernel)
  obtain ⟨s', hs', horder⟩ := callbacks_in_order 1 _ _ (by decide +kernel) hrun
  cases hs'
  exact ⟨s, hrun, horder 0, of_decide_eq_true hs⟩

end Wuduo.TcpServer
