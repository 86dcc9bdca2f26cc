import Wuduo.TcpServer.Cases
import Wuduo.EventLoop.Prompt

/-!
# The loops of a server

The model of the server says of a loop only where its thread is, how many of its tasks are
taken out, and what is queued.  That is the loop of `EventLoop` seen from a distance: each
loop of a server, with its own steps and with what is queued on it by itself and by others,
is in a run of `EventLoop` (`loops_run`).  So what is true of a loop, of the order of its
tasks and of how long they wait, is true of each loop of a server.

`loopSteps` says what a step of the server is to a loop: the steps by which its thread goes
on, if it is this one's, and then a call of `queue_in_loop` for what the step queues.  The
descriptors for wakeups are no part of the server's model, so the batches have other channels
only; nor are the calls of threads outside the server.
-/

namespace Wuduo

/-- Only the steps that run a task run one. -/
theorem EventLoop.ranIn_eq_nil {T : Type*} {e : EventLoop T} {as : List (EventLoop.Action T)}
    (h : ∀ a ∈ as, a ≠ .own .runTask) : e.ranIn as = [] := by
  induction as generalizing e with
  | nil => rfl
  | cons a as ih =>
      obtain ⟨ha, has⟩ := List.forall_mem_cons.mp h
      have hran : e.ranBy a = [] := by
        cases a with
        | own a =>
            cases a with
            | runTask => exact absurd rfl ha
            | _ => rfl
        | _ => rfl
      rw [ranIn, Transition.outputs, hran, List.nil_append]
      cases e.step a with
      | none => rfl
      | some e' => exact ih has

namespace TcpServer

open Lanes Transition

/-- The thread that takes a step. -/
def Action.thread : Action → Nat
  | .accept _ => 0
  | .wait l _ | .dispatch l | .swap l | .runTask l | .finish l | .call l _ _ | .return l
  | .read l _ | .write l _ | .closeCallback l => l

/-- What a step queues, and on which loop. -/
def queued (s : TcpServer) : Action → List (Nat × Task)
  | .accept _ => if s.nextLoop.1 = 0 then [] else [(s.nextLoop.1, .established s.made)]
  | .runTask l =>
      match front l s.queue with
      | some (.removeConnection c) => [(s.loopOf c, .destroyed c)]
      | _ => []
  | .closeCallback l =>
      match front l s.frames with
      | some (.closeCallback c) =>
          if l = 0 then [(s.loopOf c, .destroyed c)] else [(0, .removeConnection c)]
      | _ => []
  | _ => []

/-- What is left of the queues when a step has taken the task that it runs. -/
def rest (s : TcpServer) : Action → List (Nat × Task)
  | .runTask l => removeFront l s.queue
  | _ => s.queue

/-- The task that the thread of a loop runs in a step. -/
def ranBy (s : TcpServer) (l : Nat) : Action → List Task
  | .runTask l' => if l' = l then (front l s.queue).toList else []
  | _ => []

/-- The steps by which the thread of a loop goes on. -/
def Action.moves : Action → List (EventLoop.Action Task)
  | .wait _ batch => [.own (.wait (batch.map fun _ ↦ .other))]
  | .dispatch _ => [.own .handleEvents]
  | .swap _ => [.own .swap]
  | .runTask _ => [.own .runTask]
  | .finish _ => [.own .finish, .own .test]
  | _ => []

/-- `queue_in_loop`, called by the loop's own thread or by another. -/
def pushes (own : Bool) (task : Task) : List (EventLoop.Action Task) :=
  if own then [.own (.push task), .ownPushed] else [.otherPush task, .otherPushed]

/-- What a step is to a loop. -/
def loopSteps (l : Nat) (s : TcpServer) (a : Action) : List (EventLoop.Action Task) :=
  (if a.thread = l then a.moves else []) ++
    (lane l (s.queued a)).flatMap (pushes (decide (a.thread = l)))

/-! ## What a step does to the queues and the places -/

section

variable {s t : TcpServer} {a : Action}

/-- A step takes one task at most, and queues another at most. -/
theorem Stepped.queue (h : Stepped s a t) : t.queue = s.rest a ++ s.queued a := by
  cases h with
  | wait | dispatch | swap | finish | call | returns | read | write =>
      exact (List.append_nil _).symm
  | established hruns | destroy hruns =>
      rw [queued, hruns.task]
      exact (List.append_nil _).symm
  | erase hruns =>
      rw [queued, hruns.task]
      rfl
  | acceptBase _ hnext =>
      rw [queued, hnext, if_pos rfl]
      exact (List.append_nil _).symm
  | acceptWorker _ hnext hio =>
      rw [queued, hnext, if_neg hio]
      rfl
  | closeBase hfront =>
      rw [queued, hfront]
      rfl
  | closeWorker hfront hl =>
      rw [queued, hfront]
      simp only [if_neg hl]
      rfl

/-- A thread moves only itself. -/
theorem Stepped.place_of_ne (h : Stepped s a t) {l : Nat} (hl : a.thread ≠ l) :
    t.place l = s.place l := by
  cases h with
  | wait | dispatch | swap | finish | established | erase | destroy =>
      exact Function.update_of_ne (Ne.symm hl) _ _
  | acceptBase | acceptWorker | call | returns | read | write | closeBase | closeWorker => rfl

theorem lane_rest_of_ne {l : Nat} (hl : a.thread ≠ l) (s : TcpServer) :
    lane l (s.rest a) = lane l s.queue := by
  cases a with
  | runTask => exact lane_removeFront_of_ne hl _
  | _ => rfl

end

/-! ## A thread that waits -/

/-- A thread that waits has nothing to do. -/
def Awake (s : TcpServer) : Prop := ∀ l frame, (l, frame) ∈ s.frames → s.place l ≠ .waiting

theorem awake_new (workers : Nat) : (new workers).Awake := fun _ _ h ↦ (by cases h)

/-- A thread that is not waiting has been given something to do. -/
theorem Awake.update {s t : TcpServer} (h : s.Awake) {l : Nat} {place : Place}
    (hplace : t.place = Function.update s.place l place) (hne : place ≠ .waiting)
    (hframes : ∀ l' frame, (l', frame) ∈ t.frames → (l', frame) ∈ s.frames ∨ l' = l) :
    t.Awake := by
  intro l' frame hmem hwaiting
  rw [hplace, Function.update_apply] at hwaiting
  split at hwaiting
  · exact hne hwaiting
  · rename_i hl
    exact h l' frame ((hframes l' frame hmem).resolve_right hl) hwaiting

/-- A thread that has been busy goes on to do something. -/
theorem Awake.frames {s t : TcpServer} (h : s.Awake) {l : Nat} (hplace : t.place = s.place)
    (hl : s.place l ≠ .waiting)
    (hframes : ∀ l' frame, (l', frame) ∈ t.frames → (l', frame) ∈ s.frames ∨ l' = l) :
    t.Awake := h.update (by rw [hplace, Function.update_eq_self]) hl hframes

theorem mem_frames_acted {s s₁ : TcpServer} {l c : Nat} {c' : TcpConnection}
    {cbs : List TcpConnection.Callback} (hframes : ∀ e ∈ s₁.frames, e ∈ s.frames) (l' : Nat)
    (frame : Frame) (h : (l', frame) ∈ (s₁.acted l c c' cbs).frames) :
    (l', frame) ∈ s.frames ∨ l' = l := by
  rcases List.mem_append.mp h with h | h
  · obtain ⟨cb, -, heq⟩ := List.mem_map.mp h
    cases heq
    exact .inr rfl
  · exact .inl (hframes _ h)

theorem mem_frames_framesOf {s : TcpServer} {l : Nat} {e : Active} (l' : Nat) (frame : Frame)
    (h : (l', frame) ∈ s.framesOf l e ++ s.frames) : (l', frame) ∈ s.frames ∨ l' = l := by
  rcases List.mem_append.mp h with h | h
  · cases e with
    | acceptor =>
        cases List.mem_singleton.mp h
        exact .inr rfl
    | connection c revents =>
        obtain ⟨cb, -, heq⟩ := List.mem_filterMap.mp h
        cases cb <;> cases heq
        all_goals exact .inr rfl
  · exact .inl h

theorem Awake.step {s t : TcpServer} {a : Action} (h : s.Awake) (hstep : Stepped s a t) :
    t.Awake := by
  -- the thread that has something on its hands is not waiting
  have busy {l : Nat} {frame : Frame} (hfront : front l s.frames = some frame) :
      s.place l ≠ .waiting := h l frame (mem_of_front hfront)
  cases hstep with
  | wait => exact h.update rfl (by simp) fun _ _ ↦ .inl
  | dispatch => exact h.update rfl (by simp) fun _ _ hmem ↦ mem_frames_framesOf _ _ hmem
  | swap => exact h.update rfl (by simp) fun _ _ ↦ .inl
  | @finish l hidle hplace =>
      intro l' frame hmem hwaiting
      by_cases hl : l' = l
      · exact not_mem_of_front_eq_none hidle frame (hl ▸ hmem)
      · have hsame : (s.goTo l .waiting).place l' = s.place l' := Function.update_of_ne hl _ _
        exact h l' frame hmem (hsame ▸ hwaiting)
  | established => exact h.update rfl (by simp) (mem_frames_acted fun _ ↦ id)
  | erase => exact h.update rfl (by simp) fun _ _ ↦ .inl
  | destroy => exact h.update rfl (by simp) (mem_frames_acted fun _ ↦ id)
  | acceptBase hfront => exact h.frames rfl (busy hfront) (mem_frames_acted fun _ ↦ id)
  | acceptWorker hfront => exact h.frames rfl (busy hfront) fun _ _ ↦ .inl
  | call hfront => exact h.frames rfl (busy hfront) (mem_frames_acted fun _ ↦ id)
  | returns hfront => exact h.frames rfl (busy hfront) fun _ _ hm ↦ .inl (mem_of_mem_removeFront hm)
  | read hfront | write hfront =>
      exact h.frames rfl (busy hfront) (mem_frames_acted fun _ ↦ mem_of_mem_removeFront)
  | closeBase hfront | closeWorker hfront =>
      exact h.frames rfl (busy hfront) fun _ _ hm ↦ .inl (mem_of_mem_removeFront hm)

/-- Whoever queues something is not waiting. -/
theorem Awake.of_queued {s t : TcpServer} {a : Action} (h : s.Awake) (hstep : Stepped s a t)
    (hqueued : s.queued a ≠ []) : t.place a.thread ≠ .waiting := by
  have busy {l : Nat} {frame : Frame} (hfront : front l s.frames = some frame) :
      s.place l ≠ .waiting := h l frame (mem_of_front hfront)
  cases hstep with
  | wait | dispatch | swap | finish | call | returns | read | write => exact absurd rfl hqueued
  | @established l n | @erase l n | @destroy l n =>
      have hplace : (s.take l n).place l = .running n := Function.update_self _ _ _
      exact fun hwaiting ↦ by cases hplace.symm.trans hwaiting
  | acceptBase hfront | acceptWorker hfront => exact busy hfront
  | closeBase hfront | closeWorker hfront => exact busy hfront

/-! ## A loop, seen from a distance -/

/-- Where the thread of a loop is. -/
def Place.Mirrors : Place → EventLoop.Place Task → Prop
  | .waiting, .waiting => True
  | .dispatch batch, .dispatch active => active = batch.map fun _ ↦ .other
  | .running numTasks, .running tasksDump => tasksDump.length = numTasks
  | _, _ => False

/-- A loop of a server at this place, with these tasks, is this one. -/
structure Mirrors (place : Place) (tasks : List Task) (e : EventLoop Task) : Prop where
  place : place.Mirrors e.place
  /-- what is queued is what is waiting, in the same order -/
  waiting : e.tasks.waiting = tasks
  queueing : e.queueing = false
  /-- nobody tells a loop of a server to quit -/
  quit : e.quit = false

section

variable {place : Place} {tasks : List Task} {e : EventLoop Task}

theorem Mirrors.eq_waiting (h : Mirrors .waiting tasks e) : e.place = .waiting := by
  have hplace := h.place
  generalize e.place = q at hplace
  cases q with
  | waiting => rfl
  | _ => exact hplace.elim

theorem Mirrors.eq_dispatch {batch : List Active} (h : Mirrors (.dispatch batch) tasks e) :
    e.place = .dispatch (batch.map fun _ ↦ .other) := by
  have hplace := h.place
  generalize e.place = q at hplace
  cases q with
  | dispatch active => rw [show active = batch.map fun _ ↦ .other from hplace]
  | _ => exact hplace.elim

theorem Mirrors.eq_running {numTasks : Nat} (h : Mirrors (.running numTasks) tasks e) :
    e.place = .running e.tasksDump ∧ e.tasksDump.length = numTasks := by
  have hplace := h.place
  rw [EventLoop.tasksDump]
  generalize e.place = q at hplace
  cases q with
  | running tasksDump => exact ⟨rfl, hplace⟩
  | _ => exact hplace.elim

/-- Where tasks are run, callbacks or not, the thread may call its loop. -/
theorem Mirrors.isUser (h : Mirrors place tasks e) (hne : place ≠ .waiting) :
    e.place.isUser = true := by
  cases place with
  | waiting => exact absurd rfl hne
  | dispatch batch =>
      rw [h.eq_dispatch]
      rfl
  | running numTasks =>
      rw [h.eq_running.1]
      rfl

end

/-- What a call of `queue_in_loop` leaves of a loop. -/
structure Pushed (e : EventLoop Task) (task : Task) (e' : EventLoop Task) : Prop where
  place : e'.place = e.place
  pendingTasks : e'.pendingTasks = e.pendingTasks ++ [task]
  queueing : e'.queueing = false
  quit : e'.quit = e.quit

theorem exists_pushes {e : EventLoop Task} {own : Bool} (hqueueing : e.queueing = false)
    (hown : own = true → e.place.isUser = true) (task : Task) :
    ∃ e', run EventLoop.step e (pushes own task) = some e' ∧ Pushed e task e' := by
  cases own with
  | true =>
      have hpush : e.step (.own (.push task)) = some { e with
          pendingTasks := e.pendingTasks ++ [task], queueing := true } := by
        rw [EventLoop.step_own hqueueing, EventLoop.stepLoop, if_pos (hown rfl)]
      have hreturn : ∃ e', EventLoop.step { e with
          pendingTasks := e.pendingTasks ++ [task], queueing := true } .ownPushed = some e' ∧
            Pushed e task e' := by
        rw [EventLoop.step, if_pos rfl]
        split
        · exact ⟨_, rfl, rfl, rfl, rfl, rfl⟩
        · exact ⟨_, rfl, rfl, rfl, rfl, rfl⟩
      obtain ⟨e', hreturn, hpushed⟩ := hreturn
      exact ⟨e', run_cons_eq_some.mpr ⟨_, hpush, run_cons_eq_some.mpr ⟨_, hreturn, rfl⟩⟩, hpushed⟩
  | false =>
      have hreturn : ∃ e', EventLoop.step { e with
          pendingTasks := e.pendingTasks ++ [task], pushed := e.pushed + 1 } .otherPushed =
            some e' ∧ Pushed e task e' := by
        rw [EventLoop.step, if_pos (Nat.succ_pos _)]
        exact ⟨_, rfl, rfl, rfl, hqueueing, rfl⟩
      obtain ⟨e', hreturn, hpushed⟩ := hreturn
      exact ⟨e', run_cons_eq_some.mpr ⟨_, rfl, run_cons_eq_some.mpr ⟨_, hreturn, rfl⟩⟩, hpushed⟩

section

variable {place : Place} {tasks : List Task} {e : EventLoop Task}

theorem Mirrors.pushed (h : Mirrors place tasks e) {e' : EventLoop Task} {task : Task}
    (hpushed : Pushed e task e') : Mirrors place (tasks ++ [task]) e' where
  place := by rw [hpushed.place]; exact h.place
  waiting := by
    have hdump : e'.tasksDump = e.tasksDump := by
      rw [EventLoop.tasksDump, EventLoop.tasksDump, hpushed.place]
    rw [← h.waiting, EventLoop.tasks, EventLoop.tasks, BatchQueue.waiting, BatchQueue.waiting,
      hdump, hpushed.pendingTasks, List.append_assoc]
  queueing := hpushed.queueing
  quit := by rw [hpushed.quit, h.quit]

/-- What is queued on a loop is pushed to it, task by task. -/
theorem Mirrors.exists_pushes (h : Mirrors place tasks e) {own : Bool} {queued : List Task}
    (hown : own = true → queued ≠ [] → place ≠ .waiting) :
    ∃ e', run EventLoop.step e (queued.flatMap (pushes own)) = some e' ∧
      Mirrors place (tasks ++ queued) e' := by
  induction queued generalizing tasks e with
  | nil => exact ⟨e, rfl, by rwa [List.append_nil]⟩
  | cons task queued ih =>
      obtain ⟨e₁, hrun₁, hpushed⟩ := TcpServer.exists_pushes h.queueing
        (fun ho ↦ h.isUser (hown ho (List.cons_ne_nil _ _))) task
      obtain ⟨e', hrun, h'⟩ := ih (h.pushed hpushed)
        fun ho _ ↦ hown ho (List.cons_ne_nil _ _)
      rw [List.flatMap_cons]
      exact ⟨e', run_append_eq_some.mpr ⟨e₁, hrun₁, hrun⟩, by rwa [List.append_cons]⟩

end

/-! ## The steps of its thread -/

/-- The loop is led by these steps to a place, with some tasks left, and runs others on the
way. -/
def Leads (e : EventLoop Task) (as : List (EventLoop.Action Task)) (place : Place)
    (tasks ran : List Task) : Prop :=
  ∃ e', run EventLoop.step e as = some e' ∧ Mirrors place tasks e' ∧ e.ranIn as = ran

theorem Leads.of_step {e : EventLoop Task} (e' : EventLoop Task) {a : EventLoop.LoopAction Task}
    {place : Place} {tasks : List Task} (hqueueing : e.queueing = false)
    (hstep : e.stepLoop a = some e') (hmirrors : Mirrors place tasks e') :
    Leads e [.own a] place tasks (e.ranBy (.own a)) := by
  have h : e.step (.own a) = some e' := by rw [EventLoop.step_own hqueueing, hstep]
  refine ⟨e', run_cons_eq_some.mpr ⟨_, h, rfl⟩, hmirrors, ?_⟩
  rw [EventLoop.ranIn, outputs_cons h]
  exact List.append_nil _

theorem Leads.at_place {e : EventLoop Task} {as : List (EventLoop.Action Task)}
    {place place' : Place} {tasks ran : List Task} (h : Leads e as place tasks ran)
    (hplace : place' = place) : Leads e as place' tasks ran := by
  rwa [hplace]

theorem waiting_of_ne_running {e : EventLoop Task} (h : ∀ d, e.place ≠ .running d) :
    e.tasks.waiting = e.pendingTasks := by
  rw [EventLoop.tasks, BatchQueue.waiting, EventLoop.tasksDump_of_ne_running h, List.nil_append]

section

variable {tasks : List Task} {e : EventLoop Task}

theorem Mirrors.wait (h : Mirrors .waiting tasks e) (batch : List Active) :
    Leads e [.own (.wait (batch.map fun _ ↦ .other))] (.dispatch batch) tasks [] := by
  have hplace := h.eq_waiting
  refine .of_step { e with place := .dispatch (batch.map fun _ ↦ .other) } h.queueing ?_ ?_
  · rw [EventLoop.stepLoop, hplace]
    refine if_neg fun hw ↦ ?_
    obtain ⟨ev, -, hev⟩ := List.mem_map.mp hw.1
    cases hev
  · refine ⟨rfl, ?_, h.queueing, h.quit⟩
    rw [← h.waiting, waiting_of_ne_running (e := e) (by simp [hplace])]
    rfl

theorem Mirrors.handleEvents {ev : Active} {batch : List Active}
    (h : Mirrors (.dispatch (ev :: batch)) tasks e) :
    Leads e [.own .handleEvents] (.dispatch batch) tasks [] := by
  have hplace := h.eq_dispatch
  refine .of_step { e with place := .dispatch (batch.map fun _ ↦ .other) } h.queueing ?_ ?_
  · rw [EventLoop.stepLoop, hplace]
    rfl
  · refine ⟨rfl, ?_, h.queueing, h.quit⟩
    rw [← h.waiting, waiting_of_ne_running (e := e) (by simp [hplace])]
    rfl

theorem Mirrors.swap (h : Mirrors (.dispatch []) tasks e) :
    Leads e [.own .swap] (.running tasks.length) tasks [] := by
  have hplace := h.eq_dispatch
  have hpending : tasks = e.pendingTasks := by
    rw [← h.waiting, waiting_of_ne_running (by simp [hplace])]
  refine .of_step { e with
    place := .running e.pendingTasks, pendingTasks := [], doingPendingTasks := true } h.queueing
    ?_ ?_
  · rw [EventLoop.stepLoop, hplace]
    rfl
  · rw [hpending]
    exact ⟨rfl, List.append_nil _, h.queueing, h.quit⟩

theorem Mirrors.runTask {task : Task} {n : Nat} (h : Mirrors (.running (n + 1)) (task :: tasks) e) :
    Leads e [.own .runTask] (.running n) tasks [task] := by
  obtain ⟨hplace, hlength⟩ := h.eq_running
  have hwaiting := h.waiting
  rw [EventLoop.tasks, BatchQueue.waiting] at hwaiting
  cases hdump : e.tasksDump with
  | nil =>
      rw [hdump] at hlength
      cases hlength
  | cons task' tasksDump =>
      rw [hdump] at hplace hlength hwaiting
      obtain ⟨rfl, rfl⟩ := List.cons.inj hwaiting
      have hran : e.ranBy (.own .runTask) = [task'] := by
        rw [EventLoop.ranBy, hdump]
        rfl
      rw [← hran]
      refine .of_step { e with place := .running tasksDump } h.queueing ?_ ?_
      · rw [EventLoop.stepLoop, hplace]
      · exact ⟨Nat.succ.inj hlength, rfl, h.queueing, h.quit⟩

theorem Mirrors.finish (h : Mirrors (.running 0) tasks e) :
    Leads e [.own .finish, .own .test] .waiting tasks [] := by
  obtain ⟨hplace, hlength⟩ := h.eq_running
  have hdump : e.tasksDump = [] := List.length_eq_zero_iff.mp hlength
  have hwaiting := h.waiting
  rw [EventLoop.tasks, BatchQueue.waiting, hdump, List.nil_append] at hwaiting
  have hfinish : e.step (.own .finish) = some { e with
      place := .test, doingPendingTasks := false } := by
    rw [EventLoop.step_own h.queueing, EventLoop.stepLoop, hplace, hdump]
  have htest : EventLoop.step { e with place := .test, doingPendingTasks := false } (.own .test) =
      some { e with place := .waiting, doingPendingTasks := false } := by
    rw [EventLoop.step_own (l := { e with place := .test, doingPendingTasks := false }) h.queueing]
    exact if_neg (Bool.eq_false_iff.mp h.quit)
  refine ⟨_, run_cons_eq_some.mpr ⟨_, hfinish, run_cons_eq_some.mpr ⟨_, htest, rfl⟩⟩, ?_, ?_⟩
  · exact ⟨trivial, hwaiting, h.queueing, h.quit⟩
  · rw [EventLoop.ranIn, outputs_cons hfinish, outputs_cons htest]
    rfl

end

section

variable {s t : TcpServer} {a : Action} {l : Nat} {e : EventLoop Task}

theorem Runs.ranBy {n : Nat} {task : Task} (hruns : s.Runs l n task) :
    s.ranBy l (.runTask l) = [task] := by
  rw [TcpServer.ranBy, if_pos rfl, hruns.task]
  rfl

/-- The next task of a loop is run. -/
theorem Runs.leads {n : Nat} {task : Task} (hruns : s.Runs l n task)
    (h : Mirrors (s.place l) (lane l s.queue) e) :
    Leads e [.own .runTask] (.running n) (lane l (removeFront l s.queue)) [task] := by
  rw [hruns.place, lane_of_front hruns.task] at h
  exact h.runTask

/-- A step of a loop's own thread is a step, or two, of the loop. -/
theorem Stepped.leads (h : Stepped s a t)
    (hmirrors : Mirrors (s.place a.thread) (lane a.thread s.queue) e) :
    Leads e a.moves (t.place a.thread) (lane a.thread (s.rest a)) (s.ranBy a.thread a) := by
  cases h with
  | @wait l batch hplace =>
      rw [Action.thread, hplace] at hmirrors
      exact (hmirrors.wait batch).at_place (Function.update_self _ _ _)
  | @dispatch l ev batch hidle hplace =>
      rw [Action.thread, hplace] at hmirrors
      exact hmirrors.handleEvents.at_place (Function.update_self _ _ _)
  | @swap l hidle hplace =>
      rw [Action.thread, hplace] at hmirrors
      have hleads := hmirrors.swap
      rw [length_lane] at hleads
      exact hleads.at_place (Function.update_self _ _ _)
  | @finish l hidle hplace =>
      rw [Action.thread, hplace] at hmirrors
      exact hmirrors.finish.at_place (Function.update_self _ _ _)
  | @established l n c hruns | @destroy l n c hruns | @erase l n c hruns =>
      rw [Action.thread, hruns.ranBy]
      exact (hruns.leads hmirrors).at_place (Function.update_self _ _ _)
  | acceptBase | acceptWorker | call | returns | read | write | closeBase | closeWorker =>
      exact ⟨e, rfl, hmirrors, rfl⟩

/-- A step of another thread leaves the loop where it is. -/
theorem ranBy_of_ne (hl : a.thread ≠ l) : s.ranBy l a = [] := by
  cases a with
  | runTask => exact if_neg hl
  | _ => rfl

/-- Calls of `queue_in_loop` run nothing. -/
@[simp] theorem ranIn_pushes (e : EventLoop Task) (own : Bool) (queued : List Task) :
    e.ranIn (queued.flatMap (pushes own)) = [] := by
  apply EventLoop.ranIn_eq_nil
  intro b hmem
  obtain ⟨task, -, hb⟩ := List.mem_flatMap.mp hmem
  cases own with
  | true => rcases List.mem_pair.mp hb with rfl | rfl <;> exact fun h ↦ (by cases h)
  | false => rcases List.mem_pair.mp hb with rfl | rfl <;> exact fun h ↦ (by cases h)

/-- **A step of the server is a few steps of each of its loops.** -/
theorem Stepped.leads_loopSteps (h : Stepped s a t) (hawake : s.Awake) (l : Nat)
    (hmirrors : Mirrors (s.place l) (lane l s.queue) e) :
    Leads e (loopSteps l s a) (t.place l) (lane l t.queue) (s.ranBy l a) := by
  have hmoves : Leads e (if a.thread = l then a.moves else []) (t.place l) (lane l (s.rest a))
      (s.ranBy l a) := by
    by_cases hl : a.thread = l
    · subst hl
      rw [if_pos rfl]
      exact h.leads hmirrors
    · rw [if_neg hl, h.place_of_ne hl, lane_rest_of_ne hl, ranBy_of_ne hl]
      exact ⟨e, rfl, hmirrors, rfl⟩
  have hbusy : decide (a.thread = l) = true → lane l (s.queued a) ≠ [] → t.place l ≠ .waiting := by
    intro hl hlane
    cases of_decide_eq_true hl
    refine hawake.of_queued h fun hqueued ↦ hlane ?_
    rw [hqueued, lane_nil]
  obtain ⟨e₁, hrun₁, hmirrors₁, hran⟩ := hmoves
  obtain ⟨e', hrun', hmirrors'⟩ := hmirrors₁.exists_pushes hbusy
  refine ⟨e', run_append_eq_some.mpr ⟨e₁, hrun₁, hrun'⟩, ?_, ?_⟩
  · rwa [h.queue, lane_append]
  · have hpushes := ranIn_pushes e₁ (decide (a.thread = l)) (lane l (s.queued a))
    rw [EventLoop.ranIn] at hran hpushes
    rw [loopSteps, EventLoop.ranIn, outputs_append hrun₁, hran, hpushes, List.append_nil]

/-- A loop that does what a loop of the server does. -/
structure Tracks (l : Nat) (s : TcpServer) (e : EventLoop Task) : Prop where
  inv : s.Inv
  awake : s.Awake
  mirrors : Mirrors (s.place l) (lane l s.queue) e

theorem Tracks.exists_loopSteps (h : Tracks l s e) (hstep : s.step a = some (.ok t)) :
    ∃ e', run EventLoop.step e (loopSteps l s a) = some e' ∧ Tracks l t e' ∧
      e.ranIn (loopSteps l s a) = s.ranBy l a := by
  have hstepped := stepped h.inv hstep
  obtain ⟨e', hrun, hmirrors, hran⟩ := hstepped.leads_loopSteps h.awake l h.mirrors
  exact ⟨e', hrun, ⟨h.inv.of_step hstep, h.awake.step hstepped, hmirrors⟩, hran⟩

/-- A loop that has been entered and waits. -/
def entered : EventLoop Task := { EventLoop.new with place := .waiting, looping := true }

theorem tracks_entered (workers l : Nat) : Tracks l (new workers) entered :=
  ⟨inv_new workers, awake_new workers, trivial, rfl, rfl, rfl⟩

theorem exists_tracks {workers : Nat} {as : List Action}
    (h : run (liftAbort step) (.ok (new workers)) as = some (.ok t)) (l : Nat) :
    ∃ e, run EventLoop.step entered (emitted step (loopSteps l) (.ok (new workers)) as) = some e ∧
      Tracks l t e := by
  refine exists_run_emitted (R := Tracks l) (fun s a t e hs hstep ↦ ?_) (tracks_entered workers l) h
  obtain ⟨e', hrun, ht, -⟩ := hs.exists_loopSteps hstep
  exact ⟨e', hrun, ht⟩

/-- **The loops of a server are loops.**  In every run of the server each of its loops has
done what a loop of `EventLoop` does that is entered once and then takes the steps of its
thread, with the tasks that are queued by it and by the others; the tasks wait in it in the
order in which the server has them. -/
theorem loops_run (workers : Nat) (as : List Action) (t : TcpServer)
    (h : run (liftAbort step) (.ok (new workers)) as = some (.ok t)) (l : Nat) :
    ∃ e, run EventLoop.step .new (.own .loop :: .own .test ::
        emitted step (loopSteps l) (.ok (new workers)) as) = some e ∧
      Mirrors (t.place l) (lane l t.queue) e := by
  obtain ⟨e, hrun, ht⟩ := exists_tracks h l
  exact ⟨e, run_cons_eq_some.mpr ⟨_, rfl, run_cons_eq_some.mpr ⟨entered, rfl, hrun⟩⟩, ht.mirrors⟩

/-- A connection is accepted for a worker, which establishes it while the base loop is at its
tasks. -/
theorem loops_run_run :
    ∃ t, run (liftAbort step) (.ok (new 1)) [.wait 0 [.acceptor], .dispatch 0, .accept 7,
        .wait 1 [], .return 0, .swap 1, .swap 0, .runTask 1] = some (.ok t) ∧
      t.place 1 = .running 0 ∧
      ∃ e, run EventLoop.step .new (.own .loop :: .own .test ::
          emitted step (loopSteps 1) (.ok (new 1)) [.wait 0 [.acceptor], .dispatch 0, .accept 7,
            .wait 1 [], .return 0, .swap 1, .swap 0, .runTask 1]) = some e ∧
        Mirrors (t.place 1) (lane 1 t.queue) e := by
  obtain ⟨t, hrun, ht⟩ := exists_run_ok step (.ok (new 1)) [.wait 0 [.acceptor], .dispatch 0,
    .accept 7, .wait 1 [], .return 0, .swap 1, .swap 0, .runTask 1]
    (fun t ↦ decide (t.place 1 = .running 0)) (by decide +kernel)
  exact ⟨t, hrun, of_decide_eq_true ht, loops_run 1 _ t hrun 1⟩

end

end TcpServer

end Wuduo
