import Wuduo.Basic
import Wuduo.Lib.Flags

/-!
# `wuduo::Channel` and `wuduo::Epoller`

The model of `channel.cpp` and of the parts of `epoller.cpp` that keep a channel
in step with the kernel: `ctl_op_from` computes the `epoll_ctl` operation from
the channel before the call, `set_state_in_interest_list` records afterwards
whether the descriptor is listed.

Whether `::epoll_ctl` succeeds is up to the kernel and is an argument.  With a
kernel that does what it is asked, the two copies of the state agree: a channel
is marked as listed exactly when it watches some event (`Synced`), and
`updateChannel_ok` is the one lemma from which that follows for every change of
the mask.
-/

namespace Wuduo

open Flags

def EPOLLIN : BitVec 32 := 0x001
def EPOLLPRI : BitVec 32 := 0x002
def EPOLLOUT : BitVec 32 := 0x004
def EPOLLERR : BitVec 32 := 0x008
def EPOLLHUP : BitVec 32 := 0x010
def EPOLLRDHUP : BitVec 32 := 0x2000

/-- `Channel`, less the loop it belongs to and its callbacks. -/
structure Channel where
  fd : Nat
  /-- `events_`, the mask asked for -/
  events : BitVec 32
  /-- `revents_`, the mask reported by the last wait -/
  revents : BitVec 32
  /-- `in_interest_list_` -/
  inInterestList : Bool
deriving DecidableEq, Repr

/-- The operations of `::epoll_ctl`. -/
inductive EpollCtl where
  | add
  | mod
  | del
deriving DecidableEq, Repr

/-- The callbacks `Channel::handle_events` may invoke. -/
inductive ChannelCallback where
  | close
  | error
  | read
  | write
deriving DecidableEq, Repr

namespace Channel

/-- The constructor. -/
def new (fd : Nat) : Channel := ⟨fd, 0, 0, false⟩

def hasNoneEvents (ch : Channel) : Bool := ch.events == 0

def isReading (ch : Channel) : Bool := any ch.events (EPOLLIN ||| EPOLLPRI)

def isWriting (ch : Channel) : Bool := any ch.events EPOLLOUT

/-- `handle_events`: the callbacks invoked, in order. -/
def handleEvents (ch : Channel) : List ChannelCallback :=
  (if any ch.revents EPOLLHUP && !any ch.revents EPOLLIN then [.close] else []) ++
  (if any ch.revents EPOLLERR then [.error] else []) ++
  (if any ch.revents (EPOLLIN ||| EPOLLPRI ||| EPOLLRDHUP) then [.read] else []) ++
  (if any ch.revents EPOLLOUT then [.write] else [])

end Channel

namespace Epoller

/-- `ctl_op_from` -/
def ctlOpFrom (ch : Channel) : Except NoReturn EpollCtl :=
  if !ch.inInterestList then
    if !ch.hasNoneEvents then .ok .add else .error (.assertion .ctlOpFrom)
  else
    .ok (if ch.hasNoneEvents then .del else .mod)

/-- `set_state_in_interest_list` -/
def setStateInInterestList (ch : Channel) (op : EpollCtl) : Except NoReturn Channel :=
  if !ch.inInterestList then
    if op = .add then .ok { ch with inInterestList := true }
    else .error (.assertion .setStateInInterestList)
  else if ch.hasNoneEvents then
    if op = .del then .ok { ch with inInterestList := false }
    else .error (.assertion .setStateInInterestList)
  else
    if op = .mod then .ok { ch with inInterestList := true }
    else .error (.assertion .setStateInInterestList)

/-- `update_channel`; `ctl` says whether `::epoll_ctl` succeeded. -/
def updateChannel (ctl : Bool) (ch : Channel) : Except NoReturn Channel := do
  let op ← ctlOpFrom ch
  if ctl then setStateInInterestList ch op else return ch

/-- A successful update lists the channel exactly when it watches some event.
It needs a channel that is listed already, or that has something to watch. -/
theorem updateChannel_ok {ch : Channel} (h : ch.inInterestList = true ∨ ch.events ≠ 0) :
    updateChannel true ch = .ok { ch with inInterestList := !ch.hasNoneEvents } := by
  obtain ⟨fd, events, revents, listed⟩ := ch
  -- not listed and nothing to watch is the one case the hypothesis excludes
  by_cases he : events = 0#32 <;> cases listed <;>
    simp_all [updateChannel, ctlOpFrom, setStateInInterestList, Channel.hasNoneEvents]

/-- An update that returns is of such a channel. -/
theorem of_updateChannel {ctl : Bool} {ch ch' : Channel} (h : updateChannel ctl ch = .ok ch') :
    ch' = if ctl then { ch with inInterestList := !ch.hasNoneEvents } else ch := by
  obtain ⟨op, hop, hret⟩ := bind_eq_ok.mp h
  cases ctl with
  | false => exact (Except.ok.inj hret).symm
  | true =>
      have hasks : ch.inInterestList = true ∨ ch.events ≠ 0 := by
        by_contra hnot
        obtain ⟨hlisted, hevents⟩ := not_or.mp hnot
        rw [ctlOpFrom, if_pos (by simpa using hlisted), Channel.hasNoneEvents,
          beq_iff_eq.mpr (not_not.mp hevents)] at hop
        cases hop
      exact (Except.ok.inj (h.symm.trans (updateChannel_ok hasks)))

end Epoller

namespace Channel

def enableReading (ctl : Bool) (ch : Channel) : Except NoReturn Channel :=
  Epoller.updateChannel ctl { ch with events := ch.events ||| (EPOLLIN ||| EPOLLPRI) }

def enableWriting (ctl : Bool) (ch : Channel) : Except NoReturn Channel :=
  Epoller.updateChannel ctl { ch with events := ch.events ||| EPOLLOUT }

def disableReading (ctl : Bool) (ch : Channel) : Except NoReturn Channel :=
  Epoller.updateChannel ctl { ch with events := ch.events &&& ~~~(EPOLLIN ||| EPOLLPRI) }

def disableWriting (ctl : Bool) (ch : Channel) : Except NoReturn Channel :=
  Epoller.updateChannel ctl { ch with events := ch.events &&& ~~~EPOLLOUT }

def disableAll (ctl : Bool) (ch : Channel) : Except NoReturn Channel :=
  Epoller.updateChannel ctl { ch with events := 0 }

/-! ## Channels in step with the kernel -/

/-- The channel is marked as listed exactly when it watches some event. -/
def Synced (ch : Channel) : Prop := ch.inInterestList = !ch.hasNoneEvents

theorem synced_new (fd : Nat) : (new fd).Synced := rfl

theorem isWriting_of_events_eq_zero {ch : Channel} (h : ch.events = 0) : ch.isWriting = false := by
  rw [isWriting, h]
  exact any_zero

theorem Synced.listed_of_events_ne_zero {ch : Channel} (h : ch.Synced) (he : ch.events ≠ 0) :
    ch.inInterestList = true := by
  rw [h, hasNoneEvents, beq_eq_false_iff_ne.mpr he]
  rfl

/-- A channel that watches for room to write is listed. -/
theorem Synced.listed_of_isWriting {ch : Channel} (h : ch.Synced) (hw : ch.isWriting = true) :
    ch.inInterestList = true := h.listed_of_events_ne_zero (ne_zero_of_any hw)

/-- `enable_reading` returns, and does not change the interest in writing. -/
theorem enableReading_spec (ch : Channel) :
    ∃ ch', ch.enableReading true = .ok ch' ∧ ch'.Synced ∧ ch'.isWriting = ch.isWriting := by
  refine ⟨_, Epoller.updateChannel_ok (Or.inr (or_ne_zero (by decide))), rfl, ?_⟩
  exact any_set_of_disjoint (by decide)

/-- `enable_writing` returns with the interest in writing set. -/
theorem enableWriting_spec (ch : Channel) :
    ∃ ch', ch.enableWriting true = .ok ch' ∧ ch'.Synced ∧ ch'.isWriting = true :=
  ⟨_, Epoller.updateChannel_ok (Or.inr (or_ne_zero (by decide))), rfl, any_set (by decide)⟩

/-- `disable_writing` of a listed channel returns with the interest in writing
cleared. -/
theorem disableWriting_spec {ch : Channel} (h : ch.inInterestList = true) :
    ∃ ch', ch.disableWriting true = .ok ch' ∧ ch'.Synced ∧ ch'.isWriting = false :=
  ⟨_, Epoller.updateChannel_ok (Or.inl h), rfl, any_clear⟩

/-- `disable_all` of a listed channel returns with no event watched. -/
theorem disableAll_spec {ch : Channel} (h : ch.inInterestList = true) :
    ∃ ch', ch.disableAll true = .ok ch' ∧ ch'.Synced ∧ ch'.events = 0 :=
  ⟨_, Epoller.updateChannel_ok (Or.inl h), rfl, rfl⟩

end Channel

end Wuduo
