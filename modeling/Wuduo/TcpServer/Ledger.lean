import Wuduo.TcpConnection.Spec

/-!
# The life of a connection in numbers

The life of a connection crosses threads in the form of tasks and of callbacks that
are still to be made.  Its `Ledger` counts them, next to what has happened to the
connection so far, and leaves out everything else about the server.  In terms of
ledgers a connection's life is made of a few moves:

* `make`: `new_connection` registers it and hands on a task for `established()`;
* `establish`: that task runs;
* `after`: a function of the connection runs, which may be a `handle_close`;
* `callClose`: `handle_close` calls `close_callback_`, which hands on a task that
  erases the connection;
* `erase`: that task runs, and hands on a task for `destroyed()`;
* `destroy`: that task runs.

`Balanced` says how the numbers hang together, and every move keeps it.  `Sound` says
that the connection was closed at most once; that is kept by the moves in which no
function does anything to a connection that is closed.
-/

namespace Wuduo.TcpServer

/-- The tasks, frames and records of one connection, counted. -/
@[ext]
structure Ledger where
  state : TcpConnection.State
  past : List TcpConnection.State
  made : Bool
  registered : Bool
  /-- tasks for `established()` -/
  establishing : Nat
  /-- frames of `handle_close` before `close_callback_` -/
  closing : Nat
  /-- tasks that erase the connection -/
  removing : Nat
  /-- tasks for `destroyed()` -/
  destroying : Nat
  /-- runs of `handle_close` -/
  closes : Nat
  /-- calls of `close_callback_` -/
  closeCallbacks : Nat
  erasures : Nat
  /-- runs of `destroyed()` -/
  destructions : Nat
  /-- connection callbacks that report the connection as disconnected -/
  reports : Nat
  /-- message callbacks on the connection when it was disconnected -/
  lateMessages : Nat
deriving DecidableEq, Repr

namespace Ledger

/-- What the numbers have to do with each other. -/
structure Balanced (k : Ledger) : Prop where
  /-- a task for `established()` waits exactly for new connections -/
  establishing : k.establishing = if k.made = true ∧ k.state = .kConnecting then 1 else 0
  /-- a `handle_close` has got to one of four places -/
  closes : k.closes = k.closing + k.removing + k.destroying + k.destructions
  erasures : k.erasures = k.destroying + k.destructions
  closeCallbacks : k.closeCallbacks + k.closing = k.closes
  reports : k.reports = k.closes
  registered : k.registered = true ↔ k.made = true ∧ k.erasures = 0
  unmade : k.made = false → k.state = .kConnecting ∧ k.past = [] ∧ k.lateMessages = 0
  disconnected : k.state = .kDisconnected ↔ k.closes ≠ 0

/-- The connection was closed at most once, and nothing came after that. -/
structure Sound (k : Ledger) : Prop where
  /-- `state_` has never moved backwards -/
  forward : (k.state :: k.past).IsChain fun later earlier ↦ earlier.rank ≤ later.rank
  closes : k.closes ≤ 1
  /-- the close is reported -/
  reports : k.reports = k.closes
  /-- `close_callback_` is called for it, or is about to be -/
  closeCallbacks : k.closeCallbacks + k.closing = k.closes
  lateMessages : k.lateMessages = 0

/-! ## Moves -/

def make (k : Ledger) : Ledger :=
  { k with
    state := .kConnecting
    past := []
    made := true
    registered := true
    establishing := k.establishing + 1 }

def establish (k : Ledger) : Ledger :=
  { k with
    state := .kConnected
    past := k.state :: k.past
    establishing := k.establishing - 1 }

/-- A function of the connection returns it like this and makes these callbacks. -/
def after (k : Ledger) (conn : TcpConnection) (cbs : List TcpConnection.Callback) : Ledger :=
  { k with
    state := conn.state
    past := conn.past
    closing := k.closing + cbs.count .close
    closes := k.closes + cbs.count .close
    reports := k.reports + if conn.state = .kDisconnected then cbs.count .connection else 0
    lateMessages :=
      k.lateMessages + if conn.state = .kDisconnected then cbs.count .message else 0 }

def callClose (k : Ledger) : Ledger :=
  { k with
    closing := k.closing - 1
    closeCallbacks := k.closeCallbacks + 1
    removing := k.removing + 1 }

def erase (k : Ledger) : Ledger :=
  { k with
    registered := false
    removing := k.removing - 1
    erasures := k.erasures + 1
    destroying := k.destroying + 1 }

def destroy (k : Ledger) : Ledger :=
  { k with destroying := k.destroying - 1, destructions := k.destructions + 1 }

/-- What the functions of a connection have in common, as far as the ledger can
tell: `TcpConnection.Effect`. -/
structure Function (k : Ledger) (conn : TcpConnection) (cbs : List TcpConnection.Callback) :
    Prop where
  connecting : conn.state = .kConnecting ↔ k.state = .kConnecting
  callbacks : (cbs = [] ∨ cbs = [.message]) ∧
      (conn.state = .kDisconnected ↔ k.state = .kDisconnected) ∨
    cbs = [.connection, .close] ∧ conn.state = .kDisconnected
  forward : k.state ≠ .kDisconnected →
    (k.state :: k.past).IsChain (fun later earlier ↦ earlier.rank ≤ later.rank) → conn.Forward

/-- The moves.  In the clean ones no function does anything to a connection that is
closed. -/
inductive Move (clean : Prop) : Ledger → Ledger → Prop where
  | make {k : Ledger} (hm : k.made = false) : Move clean k k.make
  | establish {k : Ledger} (hpos : 0 < k.establishing) : Move clean k k.establish
  | after {k : Ledger} {conn : TcpConnection} {cbs : List TcpConnection.Callback}
      (hm : k.made = true) (hfun : k.Function conn cbs)
      (hclean : clean → k.state = .kDisconnected → k.after conn cbs = k) :
      Move clean k (k.after conn cbs)
  | callClose {k : Ledger} (hpos : 0 < k.closing) : Move clean k k.callClose
  | erase {k : Ledger} (hpos : 0 < k.removing) : Move clean k k.erase
  | destroy {k : Ledger} (hpos : 0 < k.destroying) : Move clean k k.destroy

/-! ## Balanced ledgers -/

theorem Balanced.closes_eq_zero {k : Ledger} (h : k.Balanced) (hst : k.state ≠ .kDisconnected) :
    k.closes = 0 := by
  by_contra hne
  exact hst (h.disconnected.mpr hne)

theorem Balanced.closes_unmade {k : Ledger} (h : k.Balanced) (hm : k.made = false) :
    k.closes = 0 := h.closes_eq_zero (by rw [(h.unmade hm).1]; simp)

theorem Balanced.make {k : Ledger} (h : k.Balanced) (hm : k.made = false) : k.make.Balanced where
  establishing := by simp [Ledger.make, h.establishing, hm]
  closes := h.closes
  erasures := h.erasures
  closeCallbacks := h.closeCallbacks
  reports := h.reports
  registered := by
    have := h.closes_unmade hm
    have := h.closes
    have := h.erasures
    simp only [Ledger.make, true_and, true_iff]
    omega
  unmade h' := by cases h'
  disconnected := by simp [Ledger.make, h.closes_unmade hm]

/-- A connection for which a task for `established()` waits is new. -/
theorem Balanced.new_of_establishing {k : Ledger} (h : k.Balanced) (hpos : 0 < k.establishing) :
    k.made = true ∧ k.state = .kConnecting ∧ k.establishing = 1 := by
  have := h.establishing
  split at this
  · rename_i hnew
    exact ⟨hnew.1, hnew.2, this⟩
  · omega

theorem Balanced.establish {k : Ledger} (h : k.Balanced) (hpos : 0 < k.establishing) :
    k.establish.Balanced := by
  obtain ⟨hm, hst, hone⟩ := h.new_of_establishing hpos
  have hopen : k.closes = 0 := h.closes_eq_zero (by rw [hst]; simp)
  exact {
    establishing := by simp [Ledger.establish, hone]
    closes := h.closes
    erasures := h.erasures
    closeCallbacks := h.closeCallbacks
    reports := h.reports
    registered := h.registered
    unmade := fun hm' ↦ by rw [Ledger.establish, hm] at hm'; cases hm'
    disconnected := by simp [Ledger.establish, hopen] }

/-- The callbacks of a function of the connection go with the change of state. -/
theorem Balanced.after {k : Ledger} (h : k.Balanced) {conn : TcpConnection}
    {cbs : List TcpConnection.Callback} (hm : k.made = true) (hfun : k.Function conn cbs) :
    (k.after conn cbs).Balanced := by
  have hclose : (conn.state = .kDisconnected ↔ k.closes + cbs.count .close ≠ 0) ∧
      (if conn.state = .kDisconnected then cbs.count .connection else 0) = cbs.count .close := by
    rcases hfun.callbacks with ⟨hnone, hst⟩ | ⟨rfl, hst⟩
    · have hst' := hst.trans h.disconnected
      rcases hnone with rfl | rfl <;> simp [hst']
    · simp [hst]
  exact {
    establishing := by simp only [Ledger.after, h.establishing, hfun.connecting]
    closes := by have := h.closes; simp only [Ledger.after]; omega
    erasures := h.erasures
    closeCallbacks := by have := h.closeCallbacks; simp only [Ledger.after]; omega
    reports := by simp only [Ledger.after, hclose.2, h.reports]
    registered := h.registered
    unmade := fun hm' ↦ by rw [Ledger.after, hm] at hm'; cases hm'
    disconnected := hclose.1 }

theorem Balanced.callClose {k : Ledger} (h : k.Balanced) (hpos : 0 < k.closing) :
    k.callClose.Balanced where
  establishing := h.establishing
  closes := by have := h.closes; simp only [Ledger.callClose]; omega
  erasures := h.erasures
  closeCallbacks := by have := h.closeCallbacks; simp only [Ledger.callClose]; omega
  reports := h.reports
  registered := h.registered
  unmade := h.unmade
  disconnected := h.disconnected

theorem Balanced.erase {k : Ledger} (h : k.Balanced) (hpos : 0 < k.removing) :
    k.erase.Balanced where
  establishing := h.establishing
  closes := by have := h.closes; simp only [Ledger.erase]; omega
  erasures := by have := h.erasures; simp only [Ledger.erase]; omega
  closeCallbacks := h.closeCallbacks
  reports := h.reports
  registered := by simp [Ledger.erase]
  unmade := h.unmade
  disconnected := h.disconnected

theorem Balanced.destroy {k : Ledger} (h : k.Balanced) (hpos : 0 < k.destroying) :
    k.destroy.Balanced where
  establishing := h.establishing
  closes := by have := h.closes; simp only [Ledger.destroy]; omega
  erasures := by have := h.erasures; simp only [Ledger.destroy]; omega
  closeCallbacks := h.closeCallbacks
  reports := h.reports
  registered := h.registered
  unmade := h.unmade
  disconnected := h.disconnected

/-- Every move keeps the balance. -/
theorem Balanced.move {clean : Prop} {k k' : Ledger} (h : k.Balanced) (hmove : Move clean k k') :
    k'.Balanced := by
  cases hmove with
  | make hm => exact h.make hm
  | establish hpos => exact h.establish hpos
  | after hm hfun hclean => exact h.after hm hfun
  | callClose hpos => exact h.callClose hpos
  | erase hpos => exact h.erase hpos
  | destroy hpos => exact h.destroy hpos

/-- A connection that is closed once is still registered when it is to be erased. -/
theorem Balanced.registered_of_removing {k : Ledger} (h : k.Balanced) (hone : k.closes ≤ 1)
    (hpos : 0 < k.closing + k.removing) : k.registered = true := by
  have hcloses := h.closes
  have herasures := h.erasures
  refine h.registered.mpr ⟨?_, by omega⟩
  by_contra hm
  have := h.closes_unmade (Bool.eq_false_iff.mpr hm)
  omega

/-! ## Sound ledgers -/

/-- What `Balanced` leaves to be said. -/
theorem Balanced.sound_iff {k : Ledger} (h : k.Balanced) : k.Sound ↔
    (k.state :: k.past).IsChain (fun later earlier ↦ earlier.rank ≤ later.rank) ∧
      k.closes ≤ 1 ∧ k.lateMessages = 0 := by
  constructor
  · exact fun hs ↦ ⟨hs.forward, hs.closes, hs.lateMessages⟩
  · rintro ⟨hforward, hcloses, hlate⟩
    exact ⟨hforward, hcloses, h.reports, h.closeCallbacks, hlate⟩

theorem Balanced.sound_of_unmade {k : Ledger} (h : k.Balanced) (hm : k.made = false) :
    k.Sound := by
  obtain ⟨-, hpast, hlate⟩ := h.unmade hm
  rw [h.sound_iff, hpast, h.closes_unmade hm]
  exact ⟨List.isChain_singleton _, Nat.zero_le _, hlate⟩

/-- A function of an open connection may close it. -/
theorem Sound.after {k : Ledger} (h : k.Sound) (hbal : k.Balanced) {conn : TcpConnection}
    {cbs : List TcpConnection.Callback} (hm : k.made = true) (hfun : k.Function conn cbs)
    (hst : k.state ≠ .kDisconnected) : (k.after conn cbs).Sound := by
  have hzero := hbal.closes_eq_zero hst
  have hlate := h.lateMessages
  rw [(hbal.after hm hfun).sound_iff]
  refine ⟨hfun.forward hst h.forward, ?_⟩
  rcases hfun.callbacks with ⟨hnone, hst'⟩ | ⟨rfl, hst'⟩
  · have hopen : conn.state ≠ .kDisconnected := fun hd ↦ hst (hst'.mp hd)
    rcases hnone with rfl | rfl <;> simp [Ledger.after, hopen, hzero, hlate]
  · simp [Ledger.after, hst', hzero, hlate]

/-- Every clean move keeps the ledger sound. -/
theorem Sound.move {clean : Prop} {k k' : Ledger} (h : k.Sound) (hbal : k.Balanced)
    (hcl : clean) (hmove : Move clean k k') : k'.Sound := by
  have hbal' := hbal.move hmove
  have hcloses := h.closes
  have hlate := h.lateMessages
  rw [hbal'.sound_iff]
  cases hmove with
  | make hm => exact ⟨List.isChain_singleton _, hcloses, hlate⟩
  | establish hpos =>
      refine ⟨List.isChain_cons_cons.mpr ⟨?_, h.forward⟩, hcloses, hlate⟩
      rw [(hbal.new_of_establishing hpos).2.1]
      exact Nat.zero_le _
  | after hm hfun hclean =>
      rw [← hbal'.sound_iff]
      by_cases hst : k.state = .kDisconnected
      · rwa [hclean hcl hst]
      · exact h.after hbal hm hfun hst
  | callClose hpos | erase hpos | destroy hpos => exact ⟨h.forward, hcloses, hlate⟩

end Ledger

end Wuduo.TcpServer
