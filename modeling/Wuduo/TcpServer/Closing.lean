import Wuduo.TcpServer.Steps
import Wuduo.Lib.Transition

/-!
# Closing once

`handle_read` sets the state to `kDisconnecting` when it finds the end of the
stream, whatever the state was, and delivers data whatever the state is.  That is
right as long as the connection is open.  But the batch of channels is fixed before
the first callback of the batch runs, and a callback can close a connection whose
turn is still to come.

## Results

* `visits_sound_iff`: a run closes every connection at most once, and delivers
  nothing after that, exactly when none of its steps reads from a connection that
  is closed.
* `not_sound`: two runs in which a callback closes the next connection of the batch.
-/

namespace Wuduo.TcpServer

open Lanes Transition Relation

/-- No assertion has failed, and every connection was closed at most once: its
`state_` has not moved backwards, `handle_close` has run at most once, with one
report and one call of `close_callback_`, and no message was delivered after that. -/
def Sound : Except NoReturn TcpServer → Prop
  | .ok s => ∀ c < s.made, (s.ledger c).Sound
  | .error _ => False

theorem sound_of_moves {clean : Prop} {k k' : Ledger} (h : k.Sound) (hbal : k.Balanced)
    (hcl : clean) (hmoves : ReflTransGen (Ledger.Move clean) k k') : k'.Sound := by
  induction hmoves with
  | refl => exact h
  | tail hmoves hmove ih => exact ih.move (balanced_of_moves hbal hmoves) hcl hmove

/-- A step that reads from no closed connection keeps all connections sound. -/
theorem sound_of_readsOpen {s : TcpServer} {a : Action} {r : Except NoReturn TcpServer}
    (h : s.Inv) (hsound : Sound (.ok s)) (hopen : s.ReadsOpen a) (hstep : s.step a = some r) :
    Sound r := by
  rcases step_outcome h hstep with ⟨t, rfl, hfollows⟩ | ⟨-, c, hc, hmany⟩
  · intro c hc
    refine sound_of_moves ?_ (h.balanced c) hopen (hfollows.moves c)
    by_cases hmade : c < s.made
    · exact hsound c hmade
    · exact (h.balanced c).sound_of_unmade (by simpa using hmade)
  · exact absurd (hsound c hc).closes (Nat.not_le_of_gt hmany)

theorem read_of_mem_readsFrom {s : TcpServer} {a : Action} {c : Nat} (h : c ∈ s.readsFrom a) :
    ∃ l data, a = .read l (.read data) ∧ front l s.frames = some (.read c) := by
  rw [readsFrom.eq_def] at h
  split at h
  · rename_i l data
    split at h
    · rename_i hfront
      cases h
      exact ⟨l, data, rfl, hfront⟩
    · cases h
  · cases h

/-- Reading data or the end of file from a closed connection delivers a late message
or closes it again. -/
theorem readsOpen_of_sound {s : TcpServer} {a : Action} {r : Except NoReturn TcpServer}
    (h : s.Inv) (hstep : s.step a = some r) (hsound : Sound r) : s.ReadsOpen a := by
  intro c hc hst
  obtain ⟨l, data, rfl, hfront⟩ := read_of_mem_readsFrom hc
  obtain ⟨c', cbs, hok, heff⟩ := TcpConnection.handleRead_spec (h.conn c) (.read data)
  have hr : r = .ok ((s.pop l).acted l c c' cbs) := by
    rw [step, hfront] at hstep
    rw [← Option.some.inj hstep, hok, act_ok]
  subst hr
  have hmade : c < s.made := by
    by_contra hm
    have := ((h.balanced c).unmade (by simpa using hm)).1
    rw [ledger_state, hst] at this
    cases this
  have hcloses : (s.ledger c).closes ≠ 0 := (h.balanced c).disconnected.mp hst
  have hdis : c'.state = .kDisconnected :=
    TcpConnection.eq_kDisconnected_of_rank (hst ▸ heff.rank_le)
  have hafter := hsound c hmade
  rw [ledger_acted_self, ledger_pop_of_ne hfront fun _ ↦ by simp] at hafter
  have honce := hafter.closes
  have hlate := hafter.lateMessages
  rcases TcpConnection.callbacks_of_handleRead_read (h.conn c).synced hok with rfl | rfl
  · simp [Ledger.after, hdis] at hlate
  · simp [Ledger.after] at honce
    omega

/-- **A connection closes exactly once** in a run exactly when none of the steps
of the run reads data, or the end of file, from a connection that is closed. -/
theorem visits_sound_iff (workers : Nat) (as : List Action) (r : Except NoReturn TcpServer)
    (h : run (liftAbort step) (.ok (new workers)) as = some r) :
    Visits (liftAbort step) Sound (.ok (new workers)) as ↔
      AllSteps (liftAbort step) (WhileAlive ReadsOpen) (.ok (new workers)) as := by
  refine visits_iff_allSteps (I := UnlessDown Inv) (s := .ok (new workers)) ?_ ?_ (inv_new workers)
    (fun c hc ↦ by cases hc) h
  · intro r a r' hr hra
    cases r with
    | error e => cases hra
    | ok s =>
        rcases step_outcome hr hra with ⟨t, rfl, hfollows⟩ | ⟨rfl, -⟩
        · exact Inv.follows hr hfollows
        · trivial
  · intro r a r' hr hsound hra
    cases r with
    | error e => cases hra
    | ok s => exact ⟨fun hs ↦ readsOpen_of_sound hr hra hs,
        fun hopen ↦ sound_of_readsOpen hr hsound hopen hra⟩

/-- Five connections are accepted, of which the first and the last are established on the
first of four workers, and then reported together.  The message callback of the first is
running. -/
def twoReported : List Action :=
  [.wait 0 [.acceptor], .dispatch 0, .accept 7, .accept 8, .accept 9, .accept 10, .accept 11,
    .return 0, .wait 1 [], .swap 1, .runTask 1, .return 1, .runTask 1, .return 1, .finish 1,
    .wait 1 [.connection 0 EPOLLIN, .connection 4 EPOLLIN], .dispatch 1, .read 1 (.read [1])]

/-- The callback shuts the other connection down, which is then at its end. -/
theorem visits_sound_iff_run :
    Visits (liftAbort step) Sound (.ok (new 4)) (twoReported ++ [.call 1 4 .shutdown, .return 1,
      .dispatch 1, .read 1 (.read []), .return 1, .closeCallback 1]) := by
  obtain ⟨s, hrun, -⟩ := exists_run_ok step (.ok (new 4)) (twoReported ++ [.call 1 4 .shutdown,
    .return 1, .dispatch 1, .read 1 (.read []), .return 1, .closeCallback 1]) (fun _ ↦ true)
    (by decide +kernel)
  exact (visits_sound_iff 4 _ _ hrun).mpr (by decide +kernel)

/-- The callback closes the other connection, which is then read all the same.  Data is
delivered on a connection that is disconnected; and the end of file closes it again, so that
the base loop is to erase it twice. -/
theorem not_sound :
    (∃ s, run (liftAbort step) (.ok (new 4)) (twoReported ++ [.call 1 4 .forceClose, .return 1,
        .closeCallback 1, .return 1, .dispatch 1, .read 1 (.read [2])]) = some (.ok s) ∧
      (s.ledger 4).lateMessages = 1) ∧
    run (liftAbort step) (.ok (new 4)) (twoReported ++ [.call 1 4 .forceClose, .return 1,
        .closeCallback 1, .return 1, .dispatch 1, .read 1 (.read []), .return 1,
        .closeCallback 1, .swap 0, .runTask 0, .runTask 0]) =
      some (.error (.assertion .numErased)) := by
  constructor
  · obtain ⟨s, hrun, hs⟩ := exists_run_ok step (.ok (new 4)) (twoReported ++
      [.call 1 4 .forceClose, .return 1, .closeCallback 1, .return 1, .dispatch 1,
        .read 1 (.read [2])]) (fun s ↦ decide ((s.ledger 4).lateMessages = 1))
      (by decide +kernel)
    exact ⟨s, hrun, of_decide_eq_true hs⟩
  · obtain ⟨e, hrun, he⟩ := exists_run_error step (new 4) (twoReported ++
      [.call 1 4 .forceClose, .return 1, .closeCallback 1, .return 1, .dispatch 1,
        .read 1 (.read []), .return 1, .closeCallback 1, .swap 0, .runTask 0, .runTask 0])
      (fun e ↦ decide (e = .assertion .numErased)) (by decide +kernel)
    rw [hrun, of_decide_eq_true he]

end Wuduo.TcpServer
