import Wuduo.TcpServer.Steps
import Wuduo.Lib.Transition

/-!
# The registry of connections

A connection is registered by the base loop, established by a loop of its own,
closed there, erased by the base loop and destroyed by its own loop again; between
these it is in the hands of a task that is queued on the one or the other.

## Results

* `registry_protocol`: as long as no connection is closed twice, no assertion
  fails; every connection is destroyed at most once, on its own loop and after it
  was erased; and until then something owns it.
-/

namespace Wuduo.TcpServer

open Transition

/-- What holds a shared pointer. -/
def Frame.Holds (c : Nat) : Frame → Prop
  | .user c' | .closeCallback c' => c' = c
  | .acceptor | .read _ | .write _ => False

/-- Something owns the connection: `connections_`, a queued task or a running call. -/
def HasOwner (s : TcpServer) (c : Nat) : Prop :=
  c ∈ s.connections ∨ (∃ l task, (l, task) ∈ s.queue ∧ task.conn = c) ∨
    ∃ l frame, (l, frame) ∈ s.frames ∧ frame.Holds c

/-- The part of the protocol that is about one connection. -/
structure Protocol (s : TcpServer) (c : Nat) : Prop where
  /-- `established()` will find a new connection, on its loop -/
  established : ∀ l, (l, .established c) ∈ s.queue →
    l = s.loopOf c ∧ (s.conn c).state = .kConnecting
  /-- the erase will find the connection, on the base loop -/
  erased : ∀ l, (l, .removeConnection c) ∈ s.queue → l = 0 ∧ c ∈ s.connections
  destroyed_once : s.records c Happening.isDestroyed ≤ 1
  /-- `destroyed()` has run on the connection's loop, and after the erase -/
  destroyed_last : ∀ l older, (c, .destroyed l) :: older <:+ s.log →
    l = s.loopOf c ∧ (c, .erased) ∈ older
  owned : s.records c Happening.isDestroyed = 0 → s.HasOwner c

/-- No connection was closed twice. -/
def ClosedOnce : Except NoReturn TcpServer → Prop
  | .ok s => ∀ c < s.made, s.records c (· = .handleClose) ≤ 1
  | .error _ => True

instance : DecidablePred ClosedOnce
  | .ok s => inferInstanceAs (Decidable (∀ c < s.made, s.records c (· = .handleClose) ≤ 1))
  | .error _ => isTrue trivial

theorem Inv.hasOwner {s : TcpServer} (h : s.Inv) {c : Nat} (hc : c < s.made)
    (hnot : s.records c Happening.isDestroyed = 0) : s.HasOwner c := by
  have hbal := h.balanced c
  have herasures := hbal.erasures
  by_cases hzero : (s.ledger c).erasures = 0
  · exact .inl (by simpa using hbal.registered.mpr ⟨by simpa using hc, hzero⟩)
  · have hpos : 0 < s.tasks (.destroyed c) := by
      have hdes : (s.ledger c).destructions = 0 := hnot
      have : 0 < (s.ledger c).destroying := by omega
      exact this
    obtain ⟨⟨l, task⟩, hmem, htask⟩ := List.countP_pos_iff.mp hpos
    cases (of_decide_eq_true htask : task = .destroyed c)
    exact .inr (.inl ⟨l, _, hmem, rfl⟩)

theorem Inv.protocol {s : TcpServer} (h : s.Inv) {c : Nat} (hc : c < s.made)
    (honce : s.records c (· = .handleClose) ≤ 1) : s.Protocol c where
  established l hmem := by
    have hpos : 0 < (s.ledger c).establishing := tasks_pos_of_mem hmem
    exact ⟨h.tasks l _ hmem, ((h.balanced c).new_of_establishing hpos).2.1⟩
  erased l hmem := by
    have hpos : 0 < (s.ledger c).removing := tasks_pos_of_mem hmem
    have hreg := (h.balanced c).registered_of_removing honce (by omega)
    exact ⟨h.tasks l _ hmem, of_decide_eq_true hreg⟩
  destroyed_once := by
    have hcloses := (h.balanced c).closes
    have honce' : (s.ledger c).closes ≤ 1 := honce
    have : (s.ledger c).destructions ≤ 1 := by omega
    exact this
  destroyed_last := h.destroyed c
  owned := h.hasOwner hc

/-- **The registry protocol.**  Over every run of the acceptor, the base loop and
any number of worker loops in which no connection is closed twice, no assertion
fails: each `established()` finds its connection new, and each erase finds it
registered.  Every connection is destroyed at most once, on its own loop and after it
was erased; and until it is destroyed something owns it. -/
theorem registry_protocol (workers : Nat) (as : List Action) (r : Except NoReturn TcpServer)
    (honce : Visits (liftAbort step) ClosedOnce (.ok (new workers)) as)
    (h : run (liftAbort step) (.ok (new workers)) as = some r) :
    ∃ s, r = .ok s ∧ ∀ c < s.made, s.Protocol c := by
  obtain ⟨halive, hclosed⟩ := run_invariant_of_visits (I := Alive Inv) (s := .ok (new workers))
    (fun r a r' hr honce hra ↦ by
      cases r with
      | error e => exact hr.elim
      | ok s =>
          rcases step_outcome hr hra with ⟨t, rfl, hfollows⟩ | ⟨-, c, hc, hmany⟩
          · exact Inv.follows hr hfollows
          · exact absurd (honce c hc) (Nat.not_le_of_gt hmany)) (inv_new workers) honce h
  cases r with
  | error e => exact halive.elim
  | ok s => exact ⟨s, rfl, fun c hc ↦ Inv.protocol halive hc (hclosed c hc)⟩

/-- A connection from its insertion on the base loop to its end on a worker. -/
theorem registry_protocol_run :
    ∃ s, run (liftAbort step) (.ok (new 1)) [.wait 0 [.acceptor], .dispatch 0, .accept 7,
        .return 0, .wait 1 [], .swap 1, .runTask 1, .return 1, .finish 1,
        .wait 1 [.connection 0 EPOLLIN], .dispatch 1, .read 1 (.read []), .return 1,
        .closeCallback 1, .swap 0, .runTask 0, .swap 1, .runTask 1] = some (.ok s) ∧
      s.Protocol 0 ∧ s.log.head? = some (0, .destroyed 1) := by
  obtain ⟨s, hrun, hs⟩ := exists_run_ok step (.ok (new 1)) [.wait 0 [.acceptor], .dispatch 0,
    .accept 7, .return 0, .wait 1 [], .swap 1, .runTask 1, .return 1, .finish 1,
    .wait 1 [.connection 0 EPOLLIN], .dispatch 1, .read 1 (.read []), .return 1,
    .closeCallback 1, .swap 0, .runTask 0, .swap 1, .runTask 1]
    (fun s ↦ decide (0 < s.made ∧ s.log.head? = some (0, .destroyed 1))) (by decide +kernel)
  obtain ⟨hmade, hlog⟩ := of_decide_eq_true hs
  obtain ⟨s', hs', hprotocol⟩ := registry_protocol 1 _ _ (by decide +kernel) hrun
  cases hs'
  exact ⟨s, hrun, hprotocol 0 hmade, hlog⟩

end Wuduo.TcpServer
