import Wuduo.Lib.OrderedSet
import Wuduo.Lib.Transition
import Mathlib.Data.Prod.Lex
import Mathlib.Data.Int.Order.Basic
import Mathlib.Algebra.Group.Nat.Defs
import Mathlib.Algebra.Ring.Int.Defs

/-!
# `wuduo::TimerQueue`

The model of `timer_queue.cpp`: the set of pending timers and the alarm of the
`timerfd` that is to wake the loop for them.

Points in time are the nanoseconds of `Clock`, which the code counts in 64 bits.
They are integers here; the one thing the code computes from them, the time from
one to another, is taken to 64 bits (`sub`).  Every reading of the clock is an
argument.  A timer is the pair the code sorts by: its deadline and the address of
its `Timer`.

The code reads `std::chrono::system_clock`, and the `timerfd` goes by
`CLOCK_MONOTONIC`.  They are one clock here: the system clock is assumed not to be
set while a timer is waiting.

`handle_read` runs the callbacks of the timers it takes out, and these may add
timers; so it is three kinds of step: up to the end of `get_expired`, one for
each callback, and from the last callback on.  `add_timer` is the task it hands
to the loop.
-/

namespace Wuduo

/-- A deadline and the address of its timer, in the order of `entry_comparator`. -/
abbrev TimerQueue.Entry := Int ×ₗ Nat

/-- `TimerQueue`, less the loop and the channel, and the kernel's alarm. -/
structure TimerQueue where
  timers : OrderedSet TimerQueue.Entry
  /-- when the alarm of `timerfd_` expires, or has expired without being read;
  `none` if it is disarmed -/
  alarm : Option Int
  /-- the timers `handle_read` has taken out and has still to run; `none` when it
  is not running -/
  running : Option (List TimerQueue.Entry)
  /-- the last reading of the clock: no part of the code -/
  clock : Int
deriving DecidableEq

namespace TimerQueue

def nanosecondsPerSecond : Int := 1000000000

/-- `UINTPTR_MAX` -/
def UINTPTR_MAX : Nat := 0xffffffffffffffff

/-- The constructor, with a clock that shows `clock`. -/
def new (clock : Int) : TimerQueue where
  timers := .empty
  alarm := none
  running := none
  clock := clock

/-- The times of `Timestamp`: what 64 bits hold. -/
def IsTimestamp (time : Int) : Prop := -2 ^ 63 ≤ time ∧ time < 2 ^ 63

instance (time : Int) : Decidable (IsTimestamp time) := inferInstanceAs (Decidable (_ ∧ _))

/-- `Timestamp - Timestamp`: 64 bits, which wrap around, as the machine's do, where
the nanoseconds from one to the other do not fit. -/
def sub (time now : Int) : Int := (time - now).bmod (2 ^ 64)

/-! ## The kernel -/

/-- `::timerfd_settime` of a relative one-shot alarm.  The kernel counts the time on
its own clock, which is taken to show what `Clock` does. -/
def settime (alarm : Option Int) (now sec nsec : Int) : Option Int :=
  if sec < 0 ∨ nsec < 0 then alarm  -- `EINVAL`
  else if sec = 0 ∧ nsec = 0 then none
  else some (now + (sec * nanosecondsPerSecond + nsec))

/-- `::read` of the `timerfd`: an alarm that has expired is disarmed. -/
def readTimerfd (alarm : Option Int) (now : Int) : Option Int :=
  alarm.filter (now < ·)

/-! ## The code -/

/-- `reset_alarm` -/
def resetAlarm (q : TimerQueue) (nearFuture now : Int) : TimerQueue :=
  let delta := sub nearFuture now
  let sec := delta.tdiv nanosecondsPerSecond
  let nsec := delta.tmod nanosecondsPerSecond
  { q with alarm := settime q.alarm now sec nsec }

@[simp] theorem resetAlarm_running (q : TimerQueue) (deadline now : Int) :
    (q.resetAlarm deadline now).running = q.running := rfl

@[simp] theorem resetAlarm_timers (q : TimerQueue) (deadline now : Int) :
    (q.resetAlarm deadline now).timers = q.timers := rfl

/-- The deadline of the first timer. -/
def earliest (q : TimerQueue) : Option Int := q.timers.first.map fun e ↦ (ofLex e).1

/-- `timers_.empty() || when < timers_.begin()->first` -/
def isEarlier (q : TimerQueue) (deadline : Int) : Bool :=
  q.earliest.elim true (deadline < ·)

/-- The lambda of `add_timer`. -/
def addTimer (q : TimerQueue) (deadline : Int) (addr : Nat) (now : Int) : TimerQueue :=
  let q := if q.isEarlier deadline then q.resetAlarm deadline now else q
  { q with timers := q.timers.emplace (toLex (deadline, addr)) }

@[simp] theorem addTimer_running (q : TimerQueue) (deadline : Int) (addr : Nat) (now : Int) :
    (q.addTimer deadline addr now).running = q.running := by
  rw [addTimer]
  split <;> simp

@[simp] theorem addTimer_timers (q : TimerQueue) (deadline : Int) (addr : Nat) (now : Int) :
    (q.addTimer deadline addr now).timers = q.timers.emplace (toLex (deadline, addr)) := by
  rw [addTimer]
  split <;> simp

/-- `get_expired` -/
def getExpired (q : TimerQueue) (now : Int) : List Entry × TimerQueue :=
  let firstValid := toLex (now, UINTPTR_MAX)
  (q.timers.before firstValid, { q with timers := q.timers.eraseBefore firstValid })

/-- `handle_read` up to the first callback: the alarm is read at `readAt`, and
the timers that are due at `now` are taken out. -/
def beginRead (q : TimerQueue) (readAt now : Int) : TimerQueue :=
  let q := { q with alarm := readTimerfd q.alarm readAt }
  let (expired, q) := q.getExpired now
  { q with running := some expired }

/-- `handle_read` after the last callback. -/
def endRead (q : TimerQueue) (now : Int) : TimerQueue :=
  let q := q.earliest.elim q (q.resetAlarm · now)
  { q with running := none }

@[simp] theorem endRead_timers (q : TimerQueue) (now : Int) :
    (q.endRead now).timers = q.timers := by
  rw [endRead]
  cases q.earliest <;> rfl

/-! ## Steps -/

/-- One step, with the readings of the clock it makes.  A step that makes none
gives the time at which it is taken. -/
inductive Action where
  | addTimer (deadline : Int) (addr : Nat) (now : Int)
  | beginRead (readAt now : Int)
  | runNext
  | endRead (now : Int)
deriving DecidableEq, Repr

/-- The transition function. -/
def step (q : TimerQueue) : Action → Option TimerQueue
  | .addTimer deadline addr now => some { q.addTimer deadline addr now with clock := now }
  | .beginRead readAt now =>
      if q.running = none then some { q.beginRead readAt now with clock := now } else none
  | .runNext =>
      match q.running with
      | some (_ :: rest) => some { q with running := some rest }
      | _ => none
  | .endRead now =>
      if q.running = some [] then some { q.endRead now with clock := now } else none

end TimerQueue

end Wuduo
