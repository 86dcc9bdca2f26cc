import Wuduo.TcpServer
import Wuduo.TcpServer.Ledger

/-!
# The ledgers of a server

The ledger of a connection of the server counts its tasks in the queues of all loops,
its frames in all threads, and its records in the history.  This file computes the
ledgers after each of the pieces that the steps of the server are made of.
-/

namespace Wuduo.TcpServer

open Lanes

/-- The record is of a run of `destroyed()`. -/
def Happening.isDestroyed : Happening → Bool
  | .destroyed _ => true
  | _ => false

/-- How often this task is queued. -/
def tasks (s : TcpServer) (task : Task) : Nat := s.queue.countP (·.2 = task)

/-- How often something of this kind is recorded of a connection. -/
def records (s : TcpServer) (c : Nat) (p : Happening → Bool) : Nat :=
  s.log.countP fun e ↦ e.1 = c && p e.2

def ledger (s : TcpServer) (c : Nat) : Ledger where
  state := (s.conn c).state
  past := (s.conn c).past
  made := c < s.made
  registered := c ∈ s.connections
  establishing := s.tasks (.established c)
  closing := s.frames.countP (·.2 = .closeCallback c)
  removing := s.tasks (.removeConnection c)
  destroying := s.tasks (.destroyed c)
  closes := s.records c (· = .handleClose)
  closeCallbacks := s.records c (· = .closeCallback)
  erasures := s.records c (· = .erased)
  destructions := s.records c Happening.isDestroyed
  reports := s.records c (· = .connectionCallback .kDisconnected)
  lateMessages := s.records c (· = .messageCallback .kDisconnected)

section

variable (s : TcpServer) (c : Nat)

@[simp] theorem ledger_state : (s.ledger c).state = (s.conn c).state := rfl

@[simp] theorem ledger_made : (s.ledger c).made = decide (c < s.made) := rfl

@[simp] theorem ledger_registered : (s.ledger c).registered = decide (c ∈ s.connections) := rfl

end

/-! ## Functions of a connection -/

@[simp] theorem frameOf_eq_closeCallback {c x : Nat} {cb : TcpConnection.Callback} :
    frameOf c cb = .closeCallback x ↔ c = x ∧ cb = .close := by
  cases cb <;> simp [frameOf]

section

variable {state state' : TcpConnection.State} {cb : TcpConnection.Callback}

@[simp] theorem happeningOf_eq_handleClose : happeningOf state cb = .handleClose ↔ cb = .close := by
  cases cb <;> simp [happeningOf]

@[simp] theorem happeningOf_eq_connectionCallback :
    happeningOf state cb = .connectionCallback state' ↔ state = state' ∧ cb = .connection := by
  cases cb <;> simp [happeningOf]

@[simp] theorem happeningOf_eq_messageCallback :
    happeningOf state cb = .messageCallback state' ↔ state = state' ∧ cb = .message := by
  cases cb <;> simp [happeningOf]

@[simp] theorem happeningOf_ne_closeCallback : happeningOf state cb ≠ .closeCallback := by
  cases cb <;> simp [happeningOf]

@[simp] theorem happeningOf_ne_erased : happeningOf state cb ≠ .erased := by
  cases cb <;> simp [happeningOf]

@[simp] theorem isDestroyed_happeningOf : (happeningOf state cb).isDestroyed = false := by
  cases cb <;> rfl

end

theorem records_acted (s : TcpServer) (l c : Nat) (conn : TcpConnection)
    (cbs : List TcpConnection.Callback) (x : Nat) (p : Happening → Bool) :
    (s.acted l c conn cbs).records x p =
      s.records x p + if c = x then cbs.countP (fun cb ↦ p (happeningOf conn.state cb)) else 0 := by
  simp only [records, acted, List.countP_append, List.countP_map, Function.comp_def]
  by_cases hx : c = x
  · simp [hx, Nat.add_comm]
  · simp [hx]

@[simp] theorem ledger_acted_self (s : TcpServer) (l c : Nat) (conn : TcpConnection)
    (cbs : List TcpConnection.Callback) :
    (s.acted l c conn cbs).ledger c = (s.ledger c).after conn cbs := by
  have hconn : (s.acted l c conn cbs).conn c = conn := Function.update_self _ _ _
  apply Ledger.ext
  case state | past => simp only [ledger, Ledger.after, hconn]
  case closing =>
    simp [ledger, Ledger.after, acted, List.countP_map, Function.comp_def, List.count_eq_countP,
      beq_eq_decide, Nat.add_comm]
  case closes =>
    simp [ledger, Ledger.after, records_acted, List.count_eq_countP, beq_eq_decide]
  case closeCallbacks | erasures | destructions => simp [ledger, Ledger.after, records_acted]
  case reports | lateMessages =>
    by_cases hst : conn.state = .kDisconnected <;>
      simp [ledger, Ledger.after, records_acted, hst, List.count_eq_countP, beq_eq_decide]
  all_goals rfl

/-- A function of one connection is no concern of the others. -/
theorem ledger_acted_of_ne (s : TcpServer) (l : Nat) {c x : Nat} (conn : TcpConnection)
    (cbs : List TcpConnection.Callback) (hx : x ≠ c) :
    (s.acted l c conn cbs).ledger x = s.ledger x := by
  have hconn : (s.acted l c conn cbs).conn x = s.conn x := Function.update_of_ne hx _ _
  have hrecords (p : Happening → Bool) : (s.acted l c conn cbs).records x p = s.records x p := by
    rw [records_acted, if_neg (Ne.symm hx), Nat.add_zero]
  apply Ledger.ext
  case state | past => simp only [ledger, hconn]
  case closing =>
    simp [ledger, acted, List.countP_map, Function.comp_def, Ne.symm hx]
  case closes | closeCallbacks | erasures | destructions | reports | lateMessages =>
    simp only [ledger, hrecords]
  all_goals rfl

/-- A function that leaves everything as it is. -/
theorem Ledger.after_self {k : Ledger} {conn : TcpConnection} (hst : conn.state = k.state)
    (hpast : conn.past = k.past) : k.after conn [] = k := by
  ext <;> simp [Ledger.after, hst, hpast]

@[simp] theorem ledger_acted_nil (s : TcpServer) (l c x : Nat) :
    (s.acted l c (s.conn c) []).ledger x = s.ledger x := by
  by_cases hx : x = c
  · rw [hx, ledger_acted_self, Ledger.after_self rfl rfl]
  · rw [ledger_acted_of_ne _ _ _ _ hx]

/-! ## Tasks and frames -/

/-- The connection a task is about. -/
def Task.conn : Task → Nat
  | .established c | .removeConnection c | .destroyed c => c

/-- The tasks of a connection together with one more. -/
def Ledger.push (k : Ledger) (x : Nat) (task : Task) : Ledger :=
  { k with
    establishing := k.establishing + if task = .established x then 1 else 0
    removing := k.removing + if task = .removeConnection x then 1 else 0
    destroying := k.destroying + if task = .destroyed x then 1 else 0 }

/-- The tasks of a connection without one of the queue. -/
def Ledger.take (k : Ledger) (x : Nat) (task : Task) : Ledger :=
  { k with
    establishing := k.establishing - if task = .established x then 1 else 0
    removing := k.removing - if task = .removeConnection x then 1 else 0
    destroying := k.destroying - if task = .destroyed x then 1 else 0 }

theorem Ledger.push_of_ne {k : Ledger} {x : Nat} {task : Task} (hx : x ≠ task.conn) :
    k.push x task = k := by
  cases task <;> simp [Ledger.push, Task.conn] at hx ⊢ <;> simp [Ne.symm hx]

theorem Ledger.take_of_ne {k : Ledger} {x : Nat} {task : Task} (hx : x ≠ task.conn) :
    k.take x task = k := by
  cases task <;> simp [Ledger.take, Task.conn] at hx ⊢ <;> simp [Ne.symm hx]

@[simp] theorem ledger_queueInLoop (s : TcpServer) (l : Nat) (task : Task) (x : Nat) :
    (s.queueInLoop l task).ledger x = (s.ledger x).push x task := by
  ext
  case establishing | removing | destroying =>
    simp [ledger, Ledger.push, tasks, queueInLoop, List.countP_append, List.countP_singleton]
  all_goals rfl

theorem tasks_of_front {s : TcpServer} {l : Nat} {task : Task} (h : front l s.queue = some task)
    (task' : Task) : s.tasks task' =
      (removeFront l s.queue).countP (·.2 = task') + if task = task' then 1 else 0 := by
  rw [tasks, countP_of_front h]
  simp

theorem tasks_pos_of_front {s : TcpServer} {l : Nat} {task : Task}
    (h : front l s.queue = some task) : 0 < s.tasks task := by
  rw [tasks_of_front h, if_pos rfl]
  omega

theorem ledger_take {s : TcpServer} {l : Nat} {task : Task} (h : front l s.queue = some task)
    (n x : Nat) : (s.take l n).ledger x = (s.ledger x).take x task := by
  ext
  case establishing | removing | destroying =>
    simp only [ledger, Ledger.take, tasks_of_front h, Nat.add_sub_cancel]
    rfl
  all_goals rfl

theorem ledger_pop {s : TcpServer} {l : Nat} {frame : Frame} (h : front l s.frames = some frame)
    (x : Nat) : (s.pop l).ledger x = { s.ledger x with
      closing := (s.ledger x).closing - if frame = .closeCallback x then 1 else 0 } := by
  have hcount := countP_of_front h fun e ↦ e.2 = .closeCallback x
  ext
  case closing => simp [ledger, pop, hcount]
  all_goals rfl

theorem ledger_pop_of_ne {s : TcpServer} {l : Nat} {frame : Frame}
    (h : front l s.frames = some frame) (hne : ∀ x, frame ≠ .closeCallback x) (x : Nat) :
    (s.pop l).ledger x = s.ledger x := by
  rw [ledger_pop h, if_neg (hne x)]
  rfl

theorem closing_pos_of_front {s : TcpServer} {l c : Nat}
    (h : front l s.frames = some (.closeCallback c)) : 0 < (s.ledger c).closing := by
  have hcount := countP_of_front h fun e ↦ e.2 = .closeCallback c
  simp only [ledger, hcount, decide_true, if_true]
  omega

/-! ## Records -/

theorem records_record (s : TcpServer) (c : Nat) (what : Happening) (x : Nat)
    (p : Happening → Bool) : (s.record c what).records x p =
      s.records x p + if c = x ∧ p what = true then 1 else 0 := by
  simp [records, record, List.countP_cons]

theorem ledger_record_closeCallback (s : TcpServer) (c x : Nat) :
    (s.record c .closeCallback).ledger x = { s.ledger x with
      closeCallbacks := (s.ledger x).closeCallbacks + if c = x then 1 else 0 } := by
  ext <;> first | rfl | simp [ledger, records_record, Happening.isDestroyed]

theorem ledger_record_erased (s : TcpServer) (c x : Nat) :
    (s.record c .erased).ledger x = { s.ledger x with
      erasures := (s.ledger x).erasures + if c = x then 1 else 0 } := by
  ext <;> first | rfl | simp [ledger, records_record, Happening.isDestroyed]

theorem ledger_record_destroyed (s : TcpServer) (l c x : Nat) :
    (s.record c (.destroyed l)).ledger x = { s.ledger x with
      destructions := (s.ledger x).destructions + if c = x then 1 else 0 } := by
  ext <;> first | rfl | simp [ledger, records_record, Happening.isDestroyed]

/-! ## The registry -/

theorem ledger_eraseConnection {s t : TcpServer} {c : Nat} (h : s.eraseConnection c = .ok t)
    (x : Nat) : t.ledger x = if x = c then { s.ledger c with
      registered := false
      erasures := (s.ledger c).erasures + 1
      destroying := (s.ledger c).destroying + 1 } else s.ledger x := by
  rw [eraseConnection] at h
  split at h
  · rw [← Except.ok.inj h, ledger_queueInLoop, ledger_record_erased]
    by_cases hx : x = c
    · subst hx
      have hgone : decide (x ∈ s.connections.erase x) = false :=
        decide_eq_false (Finset.notMem_erase _ _)
      simp only [Ledger.push, ledger, hgone, if_true]
      rfl
    · have hsame : decide (x ∈ s.connections.erase c) = decide (x ∈ s.connections) :=
        decide_eq_decide.mpr (by rw [Finset.mem_erase, and_iff_right hx])
      rw [Ledger.push_of_ne hx, if_neg (Ne.symm hx), if_neg hx]
      simp only [ledger, hsame]
      rfl
  · cases h

end Wuduo.TcpServer
