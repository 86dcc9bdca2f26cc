import Wuduo.TcpServer.Loops

/-!
# How long a connection waits for its server

A connection is handed from loop to loop: by `new_connection` to its own loop, to be
established; by `close_callback_` to the base loop, to be erased, and from there back to its
own, to be destroyed.  Each loop works off its tasks in rounds, so each of these takes two
rounds of one loop at most, however busy the loops are with other connections.  What threads
outside the server queue on its loops is left out.

## Results

* `established_within_rounds`: a connection that was accepted is established when its loop has
  ended two rounds;
* `destroyed_within_rounds`: a connection that was closed is erased when the base loop has
  ended two rounds, and destroyed when its own loop has then ended two rounds.
-/

namespace Wuduo.TcpServer

open Lanes Relation Transition

/-- The thread of a loop ends a round. -/
def Action.ends (l : Nat) : Action → Bool
  | .finish l' => l' == l
  | _ => false

/-- What a task is for has happened. -/
def Done (s : TcpServer) (l : Nat) : Task → Prop
  | .established c => (s.conn c).state ≠ .kConnecting
  | .removeConnection c => (c, .erased) ∈ s.log
  | .destroyed c => (c, .destroyed l) ∈ s.log

/-! ## What has happened stays so -/

theorem ne_kConnecting_of_move {clean : Prop} {k k' : Ledger} (hbal : k.Balanced)
    (hmove : Ledger.Move clean k k') (h : k.state ≠ .kConnecting) : k'.state ≠ .kConnecting := by
  cases hmove with
  | make hm => exact absurd (hbal.unmade hm).1 h
  | establish => exact fun hst ↦ (by cases hst)
  | after _ hfun => exact fun hst ↦ h (hfun.connecting.mp hst)
  | callClose | erase | destroy => exact h

theorem ne_kConnecting_of_moves {clean : Prop} {k k' : Ledger} (hbal : k.Balanced)
    (hmoves : ReflTransGen (Ledger.Move clean) k k') (h : k.state ≠ .kConnecting) :
    k'.state ≠ .kConnecting := by
  induction hmoves with
  | refl => exact h
  | tail hmoves hmove ih => exact ne_kConnecting_of_move (balanced_of_moves hbal hmoves) hmove ih

section

variable {s t : TcpServer} {a : Action}

theorem Inv.ne_kConnecting_of_step (h : s.Inv) (hstep : s.step a = some (.ok t)) {c : Nat}
    (hst : (s.conn c).state ≠ .kConnecting) : (t.conn c).state ≠ .kConnecting := by
  rcases step_outcome h hstep with ⟨t', ht', hfollows⟩ | ⟨herr, -⟩
  · cases ht'
    exact ne_kConnecting_of_moves (h.balanced c) (hfollows.moves c) hst
  · cases herr

/-- The history only grows. -/
theorem Stepped.mem_log (h : Stepped s a t) {x : Nat × Happening} (hx : x ∈ s.log) :
    x ∈ t.log := by
  cases h with
  | wait | dispatch | swap | finish | acceptWorker | returns => exact hx
  | established | acceptBase | call | read | write => exact List.mem_append_right _ hx
  | destroy => exact List.mem_append_right _ (List.mem_cons_of_mem _ hx)
  | erase | closeWorker => exact List.mem_cons_of_mem _ hx
  | closeBase => exact List.mem_cons_of_mem _ (List.mem_cons_of_mem _ hx)

theorem Inv.done_of_step (h : s.Inv) (hstep : s.step a = some (.ok t)) {l : Nat} {task : Task}
    (hdone : s.Done l task) : t.Done l task := by
  cases task with
  | established c => exact h.ne_kConnecting_of_step hstep hdone
  | removeConnection c | destroyed c => exact (stepped h hstep).mem_log hdone

theorem Runs.eq_of_mem_ranBy {l l' n : Nat} {task task' : Task} (h : s.Runs l n task)
    (hran : task' ∈ s.ranBy l' (.runTask l)) : l = l' ∧ task' = task := by
  by_cases hl : l = l'
  · subst hl
    rw [h.ranBy] at hran
    exact ⟨rfl, List.mem_singleton.mp hran⟩
  · rw [ranBy_of_ne (a := .runTask l) hl] at hran
    cases hran

/-- A task that is run does what it is for. -/
theorem Inv.done_of_ran (h : s.Inv) (hstep : s.step a = some (.ok t)) {l : Nat} {task : Task}
    (hran : task ∈ s.ranBy l a) : t.Done l task := by
  cases stepped h hstep with
  | @established l' n c hruns hst c' hok =>
      obtain ⟨rfl, rfl⟩ := hruns.eq_of_mem_ranBy hran
      obtain ⟨c'', hok', -, hst', -⟩ := TcpConnection.established_spec (h.conn c) hst
      have heq : c' = c'' := by
        rw [hok] at hok'
        cases hok'
        rfl
      have hconn : ((s.take l' n).acted l' c c' [.connection]).conn c = c' :=
        Function.update_self _ _ _
      rw [Done, hconn, heq, hst']
      exact fun hst ↦ (by cases hst)
  | erase hruns =>
      obtain ⟨rfl, rfl⟩ := hruns.eq_of_mem_ranBy hran
      exact List.mem_cons_self
  | destroy hruns =>
      obtain ⟨rfl, rfl⟩ := hruns.eq_of_mem_ranBy hran
      exact List.mem_cons_self
  | wait | dispatch | swap | finish | acceptBase | acceptWorker | call | returns | read | write
  | closeBase | closeWorker => cases hran

/-! ## Two rounds -/

theorem ends_le_finishes {l : Nat} {as : List Action}
    (h : run (liftAbort step) (.ok s) as = some (.ok t)) :
    as.countP (Action.ends l) ≤
      (emitted step (loopSteps l) (.ok s) as).countP EventLoop.Action.isFinish := by
  refine countP_le_countP_emitted (fun s a ha ↦ ?_) h
  cases a with
  | finish l' =>
      rw [loopSteps, Action.thread, if_pos (beq_iff_eq.mp ha)]
      exact Nat.succ_pos _
  | _ => cases ha

/-- What is queued on a loop is done when the loop has ended two rounds. -/
theorem done_within_rounds {l : Nat} {e : EventLoop Task} {as : List Action} (hs : Tracks l s e)
    (h : run (liftAbort step) (.ok s) as = some (.ok t)) (hrounds : 2 ≤ as.countP (Action.ends l))
    {task : Task} (hmem : (l, task) ∈ s.queue) : t.Done l task := by
  have hran : ∃ e', run EventLoop.step e (emitted step (loopSteps l) (.ok s) as) = some e' ∧
      Tracks l t e' ∧
      ∀ task ∈ e.ranIn (emitted step (loopSteps l) (.ok s) as), t.Done l task := by
    refine run_emitted_invariant (P := fun t bs ↦ ∃ e', run EventLoop.step e bs = some e' ∧
      Tracks l t e' ∧ ∀ task ∈ e.ranIn bs, t.Done l task) ?_ ⟨e, rfl, hs, fun _ h ↦ (by cases h)⟩ h
    rintro s a t bs ⟨e₁, hrun₁, hs, hdone⟩ hstep
    obtain ⟨e', hrun, ht, hran⟩ := hs.exists_loopSteps hstep
    refine ⟨e', run_append_eq_some.mpr ⟨e₁, hrun₁, hrun⟩, ht, fun task htask ↦ ?_⟩
    rw [EventLoop.ranIn, outputs_append hrun₁, List.mem_append] at htask
    rcases htask with htask | htask
    · exact hs.inv.done_of_step hstep (hdone task htask)
    · rw [EventLoop.ranIn] at hran
      exact hs.inv.done_of_ran hstep (hran ▸ htask)
  obtain ⟨e', hrun, -, hdone⟩ := hran
  have hbefore := EventLoop.waiting_prefix_ranIn hrun
    (Nat.le_trans e.rounds_le_two (Nat.le_trans hrounds (ends_le_finishes h)))
  rw [hs.mirrors.waiting] at hbefore
  exact hdone task (hbefore.subset (mem_lane.mpr hmem))

/-! ## Runs -/

theorem Inv.done_of_run {as : List Action} (hs : s.Inv)
    (h : run (liftAbort step) (.ok s) as = some (.ok t)) {l : Nat} {task : Task}
    (hdone : s.Done l task) : t.Done l task :=
  (run_ok_invariant (I := fun t ↦ t.Inv ∧ t.Done l task)
    (fun _ _ _ hu hstep ↦ ⟨hu.1.of_step hstep, hu.1.done_of_step hstep hu.2⟩) ⟨hs, hdone⟩ h).2

/-- A connection stays on its loop. -/
theorem Stepped.loopOf (h : Stepped s a t) {c : Nat} (hc : c < s.made) :
    c < t.made ∧ t.loopOf c = s.loopOf c := by
  cases h with
  | acceptBase | acceptWorker =>
      exact ⟨Nat.lt_succ_of_lt hc, Function.update_of_ne (Nat.ne_of_lt hc) _ _⟩
  | wait | dispatch | swap | finish | established | erase | destroy | call | returns | read | write
  | closeBase | closeWorker => exact ⟨hc, rfl⟩

theorem Inv.loopOf_of_run {as : List Action} (hs : s.Inv)
    (h : run (liftAbort step) (.ok s) as = some (.ok t)) {c : Nat} (hc : c < s.made) :
    t.loopOf c = s.loopOf c := by
  refine (run_ok_invariant (I := fun t ↦ t.Inv ∧ c < t.made ∧ t.loopOf c = s.loopOf c) ?_
    ⟨hs, hc, rfl⟩ h).2.2
  rintro u a v ⟨hu, hcu, hloop⟩ hstep
  obtain ⟨hcv, heq⟩ := (stepped hu hstep).loopOf hcu
  exact ⟨hu.of_step hstep, hcv, heq.trans hloop⟩

/-- A task that is counted is queued, on its loop. -/
theorem Inv.mem_queue (h : s.Inv) {task : Task} (hpos : 0 < s.tasks task) :
    (s.loopOfTask task, task) ∈ s.queue := by
  obtain ⟨⟨l, task'⟩, hmem, htask⟩ := List.countP_pos_iff.mp hpos
  have heq : task' = task := of_decide_eq_true htask
  rw [heq] at hmem
  rwa [← h.tasks l task hmem]

theorem mem_log_of_records_pos {c : Nat} {p : Happening → Bool} (hpos : 0 < s.records c p) :
    ∃ what, (c, what) ∈ s.log ∧ p what = true := by
  obtain ⟨⟨c', what⟩, hmem, hp⟩ := List.countP_pos_iff.mp hpos
  obtain ⟨hc, hwhat⟩ := Bool.and_eq_true_iff.mp hp
  cases of_decide_eq_true hc
  exact ⟨what, hmem, hwhat⟩

/-- A connection that is new is about to be established. -/
theorem Inv.established_queued (h : s.Inv) {c : Nat} (hc : c < s.made)
    (hst : (s.conn c).state = .kConnecting) : (s.loopOf c, .established c) ∈ s.queue := by
  have hone : s.tasks (.established c) = 1 :=
    (h.balanced c).establishing.trans (if_pos ⟨decide_eq_true hc, hst⟩)
  exact h.mem_queue (by rw [hone]; exact Nat.one_pos)

/-- A connection whose close was handed on is about to be erased, or is. -/
theorem Inv.erased_or_queued (h : s.Inv) {c : Nat} (hc : (c, .closeCallback) ∈ s.log) :
    (0, .removeConnection c) ∈ s.queue ∨ s.Done 0 (.removeConnection c) := by
  have hcloses := (h.balanced c).closes
  have herasures := (h.balanced c).erasures
  have hcallbacks := (h.balanced c).closeCallbacks
  have hpos : 0 < s.records c (· = .closeCallback) := records_pos_of_mem hc (decide_eq_true rfl)
  change 0 < (s.ledger c).closeCallbacks at hpos
  rcases Nat.eq_zero_or_pos (s.ledger c).removing with hzero | hremoving
  · have herased : 0 < s.records c (· = .erased) := by
      change 0 < (s.ledger c).erasures
      omega
    obtain ⟨what, hmem, hwhat⟩ := mem_log_of_records_pos herased
    cases of_decide_eq_true hwhat
    exact .inr hmem
  · exact .inl (h.mem_queue hremoving)

theorem Inv.lt_made_of_closeCallback (h : s.Inv) {c : Nat} (hc : (c, .closeCallback) ∈ s.log) :
    c < s.made := by
  have hcallbacks := (h.balanced c).closeCallbacks
  have hpos : 0 < s.records c (· = .closeCallback) := records_pos_of_mem hc (decide_eq_true rfl)
  change 0 < (s.ledger c).closeCallbacks at hpos
  have hst : (s.conn c).state = .kDisconnected := (h.balanced c).disconnected.mpr (by omega)
  exact h.lt_made (by rw [hst]; decide)

theorem Inv.notMem_connections (h : s.Inv) {c : Nat} (hc : (c, .erased) ∈ s.log) :
    c ∉ s.connections := by
  intro hmem
  have hpos : 0 < s.records c (· = .erased) := records_pos_of_mem hc (decide_eq_true rfl)
  have hregistered := (h.balanced c).registered.mp (decide_eq_true hmem)
  exact Nat.ne_of_gt hpos hregistered.2

/-- A connection that was erased is about to be destroyed, or is. -/
theorem Inv.destroyed_or_queued (h : s.Inv) {c : Nat} (hc : (c, .erased) ∈ s.log) :
    (s.loopOf c, .destroyed c) ∈ s.queue ∨ s.Done (s.loopOf c) (.destroyed c) := by
  have herasures := (h.balanced c).erasures
  have hpos : 0 < s.records c (· = .erased) := records_pos_of_mem hc (decide_eq_true rfl)
  change 0 < (s.ledger c).erasures at hpos
  rcases Nat.eq_zero_or_pos (s.ledger c).destroying with hzero | hdestroying
  · have hdestroyed : 0 < s.records c Happening.isDestroyed := by
      change 0 < (s.ledger c).destructions
      omega
    obtain ⟨what, hmem, hwhat⟩ := mem_log_of_records_pos hdestroyed
    cases what with
    | destroyed l =>
        obtain ⟨newer, older, hlog⟩ := List.append_of_mem hmem
        obtain ⟨hl, -⟩ := h.destroyed c l older ⟨newer, hlog.symm⟩
        rw [hl] at hmem
        exact .inr hmem
    | _ => cases hwhat
  · exact .inl (h.mem_queue hdestroying)

end

/-- **A connection that was accepted is established in time.**  In every run of the server,
however the threads take their turns, `established()` has run on a connection that was accepted
once its loop has ended two rounds since. -/
theorem established_within_rounds (workers : Nat) (before after : List Action) (s t : TcpServer)
    (c : Nat) (hs : run (liftAbort step) (.ok (new workers)) before = some (.ok s))
    (ht : run (liftAbort step) (.ok s) after = some (.ok t)) (hc : c < s.made)
    (hrounds : 2 ≤ after.countP (Action.ends (s.loopOf c))) :
    (t.conn c).state ≠ .kConnecting := by
  obtain ⟨e, -, htracks⟩ := exists_tracks hs (s.loopOf c)
  by_cases hst : (s.conn c).state = .kConnecting
  · exact done_within_rounds htracks ht hrounds (htracks.inv.established_queued hc hst)
  · have hdone : s.Done (s.loopOf c) (.established c) := hst
    exact htracks.inv.done_of_run ht hdone

/-- A connection is accepted while the worker is at its tasks, and so waits for the next round. -/
theorem established_within_rounds_run :
    ∃ s t, run (liftAbort step) (.ok (new 1)) [.wait 1 [], .swap 1, .wait 0 [.acceptor],
        .dispatch 0, .accept 7] = some (.ok s) ∧
      run (liftAbort step) (.ok s) [.finish 1, .wait 1 [], .swap 1, .runTask 1, .return 1,
        .finish 1] = some (.ok t) ∧
      (t.conn 0).state ≠ .kConnecting := by
  obtain ⟨t, hrun, -⟩ := exists_run_ok step (.ok (new 1)) ([.wait 1 [], .swap 1,
    .wait 0 [.acceptor], .dispatch 0, .accept 7] ++ [.finish 1, .wait 1 [], .swap 1, .runTask 1,
    .return 1, .finish 1]) (fun _ ↦ true) (by decide +kernel)
  obtain ⟨s, hs, hs'⟩ := exists_run_ok step (.ok (new 1)) [.wait 1 [], .swap 1,
    .wait 0 [.acceptor], .dispatch 0, .accept 7] (fun s ↦ decide (s.made = 1 ∧ s.loopOf 0 = 1))
    (by decide +kernel)
  obtain ⟨hmade, hloop⟩ := of_decide_eq_true hs'
  rw [run_append, hs] at hrun
  exact ⟨s, t, hs, hrun, established_within_rounds 1 _ _ s t 0 hs hrun (by omega)
    (by rw [hloop]; decide)⟩

/-- **A connection that was closed is destroyed in time.**  In every run of the server, a
connection for which `close_callback_` was called has been erased once the base loop has ended
two rounds since, and once its own loop has ended two more, `destroyed()` has run on it. -/
theorem destroyed_within_rounds (workers : Nat) (before after after' : List Action)
    (s t u : TcpServer) (c : Nat)
    (hs : run (liftAbort step) (.ok (new workers)) before = some (.ok s))
    (ht : run (liftAbort step) (.ok s) after = some (.ok t))
    (hu : run (liftAbort step) (.ok t) after' = some (.ok u)) (hc : (c, .closeCallback) ∈ s.log)
    (hbase : 2 ≤ after.countP (Action.ends 0))
    (hown : 2 ≤ after'.countP (Action.ends (s.loopOf c))) :
    c ∉ t.connections ∧ (c, .destroyed (s.loopOf c)) ∈ u.log := by
  obtain ⟨e, -, htracks⟩ := exists_tracks hs 0
  have herased : t.Done 0 (.removeConnection c) := by
    rcases htracks.inv.erased_or_queued hc with hqueued | hdone
    · exact done_within_rounds htracks ht hbase hqueued
    · exact htracks.inv.done_of_run ht hdone
  have hloop := htracks.inv.loopOf_of_run ht (htracks.inv.lt_made_of_closeCallback hc)
  obtain ⟨e', -, htracks'⟩ := exists_tracks (run_append_eq_some.mpr ⟨_, hs, ht⟩) (s.loopOf c)
  have hdestroyed : u.Done (s.loopOf c) (.destroyed c) := by
    have hnext := htracks'.inv.destroyed_or_queued herased
    rw [hloop] at hnext
    rcases hnext with hqueued | hdone
    · exact done_within_rounds htracks' hu hown hqueued
    · exact htracks'.inv.done_of_run hu hdone
  exact ⟨htracks'.inv.notMem_connections herased, hdestroyed⟩

/-- A worker serves a connection to its end, and hands it on while the base loop is at its
tasks. -/
def closedByWorker : List Action :=
  [.wait 0 [.acceptor], .dispatch 0, .accept 7, .return 0, .swap 0, .wait 1 [], .swap 1, .runTask 1,
    .return 1, .finish 1, .wait 1 [.connection 0 EPOLLIN], .dispatch 1, .read 1 (.read []),
    .return 1, .closeCallback 1]

theorem destroyed_within_rounds_run :
    ∃ s t u, run (liftAbort step) (.ok (new 1)) closedByWorker = some (.ok s) ∧
      run (liftAbort step) (.ok s) [.finish 0, .wait 0 [], .swap 0, .runTask 0, .finish 0]
        = some (.ok t) ∧
      run (liftAbort step) (.ok t) [.swap 1, .runTask 1, .finish 1, .wait 1 [], .swap 1, .finish 1]
        = some (.ok u) ∧
      0 ∉ t.connections ∧ (0, .destroyed 1) ∈ u.log := by
  obtain ⟨s, hs, hs'⟩ := exists_run_ok step (.ok (new 1)) closedByWorker
    (fun s ↦ decide (s.loopOf 0 = 1 ∧ (0, .closeCallback) ∈ s.log)) (by decide +kernel)
  obtain ⟨hloop, hlog⟩ := of_decide_eq_true hs'
  obtain ⟨t, ht, -⟩ := exists_run_ok step (.ok (new 1)) (closedByWorker ++ [.finish 0, .wait 0 [],
    .swap 0, .runTask 0, .finish 0]) (fun _ ↦ true) (by decide +kernel)
  obtain ⟨u, hu, -⟩ := exists_run_ok step (.ok (new 1)) ((closedByWorker ++ [.finish 0, .wait 0 [],
    .swap 0, .runTask 0, .finish 0]) ++ [.swap 1, .runTask 1, .finish 1, .wait 1 [], .swap 1,
    .finish 1]) (fun _ ↦ true) (by decide +kernel)
  rw [run_append, ht] at hu
  rw [run_append, hs] at ht
  have h := destroyed_within_rounds 1 _ _ _ s t u 0 hs ht hu hlog (by decide)
    (by rw [hloop]; decide)
  rw [hloop] at h
  exact ⟨s, t, u, hs, ht, hu, h⟩

end Wuduo.TcpServer
