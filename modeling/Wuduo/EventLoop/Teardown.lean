import Wuduo.Channel.Interest

/-!
# Destruction

Four classes have channels: `EventLoop` one for wakeups, `TimerQueue` one for its alarm,
`Acceptor` one for connections to come, and each `TcpConnection` its own.  `Channel` asserts
in its destructor that it is not listed, and removes itself only behind that; comments in
`event_loop.cpp` and `timer_queue.cpp` rely on the removal.  Nobody else sees to it for an
object that is destroyed while its channel is listed.

`Objects` are a loop and a server with its connections, and `Objects.destructors` what runs
when they go out of scope: the server first, then the loop, the members of each in the
reverse of their order.  One interest list stands for those of all the loops, as a
descriptor is on one of them at most.

## Results

* `never_clean`: whatever happened before, the destruction does not get through.
-/

namespace Wuduo

open Transition

/-- The owners of channels. -/
inductive Owner where
  | eventLoop
  | timerQueue
  | acceptor
  | connection (id : Nat)
deriving DecidableEq, Repr

/-- A loop, and a server on it if there is one. -/
structure Objects where
  interests : Interests Owner
  /-- `connections_` of the server that was started -/
  connections : Option (List Nat)
  /-- some call of `::epoll_ctl` has failed -/
  refused : Bool

/-- What a destructor does about channels. -/
inductive Destructor where
  /-- `::close` of the descriptor of a channel -/
  | close (p : Owner)
  /-- `Channel::~Channel` -/
  | channel (p : Owner)
  /-- `EventLoopThreadPool::~EventLoopThreadPool` -/
  | threads
deriving DecidableEq, Repr

namespace Interests

/-- A descriptor that is closed leaves the list.  The threads of the pool have been started
and are not joined, since `EventLoopThread::loop_` is never set. -/
def destruct (w : Interests Owner) : Destructor → Except NoReturn (Interests Owner)
  | .close p => .ok { w with list := Function.update w.list (w.channels p).fd none }
  | .channel p =>
      if (w.channels p).inInterestList then .error (.assertion .channelDestructor)
      else if (w.channels p).hasNoneEvents then .ok w
      else (w.call true p .disableAll).map Prod.snd
  | .threads => .error .joinable

/-- The transition function of destruction. -/
def destroy (w : Interests Owner) (d : Destructor) : Option (Except NoReturn (Interests Owner)) :=
  some (w.destruct d)

/-- The channel is not listed when it is destroyed or its descriptor is closed. -/
def Unlisted (w : Interests Owner) : Destructor → Prop
  | .close p => w.list (w.channels p).fd = none
  | .channel p => (w.channels p).inInterestList = false
  | .threads => True

instance (w : Interests Owner) : ∀ d, Decidable (w.Unlisted d)
  | .close p => inferInstanceAs (Decidable (w.list (w.channels p).fd = none))
  | .channel p => inferInstanceAs (Decidable ((w.channels p).inInterestList = false))
  | .threads => isTrue trivial

end Interests

namespace Objects

/-- A channel is constructed. -/
def construct (s : Objects) (p : Owner) (fd : Nat) : Objects :=
  { s with interests := { s.interests with
      channels := Function.update s.interests.channels p (.new fd) } }

/-- An operation of a channel. -/
def call (s : Objects) (granted : Bool) (p : Owner) (o : Channel.Operation) :
    Except NoReturn Objects := do
  let (ok, interests) ← s.interests.call granted p o
  return { s with interests, refused := s.refused || !ok }

/-- `EventLoop::EventLoop`, with `TimerQueue::TimerQueue` in it. -/
def build (wakeupfd timerfd : Nat) (granted granted' : Bool) : Except NoReturn Objects := do
  let s : Objects := ⟨.new fun _ ↦ wakeupfd, none, false⟩
  let s ← (s.construct .timerQueue timerfd).call granted .timerQueue .enableReading
  s.call granted' .eventLoop .enableReading

/-- `TcpConnection::handle_close`, up to the callbacks. -/
def handleClose (s : Objects) (granted : Bool) (id : Nat) : Except NoReturn Objects :=
  if (s.interests.channels (.connection id)).hasNoneEvents then .ok s
  else s.call granted (.connection id) .disableAll

/-- `TcpConnection::~TcpConnection` -/
def destructConnection (s : Objects) (id : Nat) : Except NoReturn Objects := do
  let interests ← s.interests.destruct (.close (.connection id))
  let interests ← interests.destruct (.channel (.connection id))
  return { s with interests }

/-- What happens to the channels before the destruction. -/
inductive Action where
  /-- a server is constructed and started -/
  | start (acceptfd : Nat) (granted : Bool)
  /-- `new_connection`, and `established` -/
  | newConnection (id connectFd : Nat) (granted : Bool)
  /-- `send_in_loop` that leaves something to write -/
  | sendInLoop (id : Nat) (granted : Bool)
  /-- `handle_write` that leaves nothing to write -/
  | handleWrite (id : Nat) (granted : Bool)
  /-- `handle_close`, `remove_connection` and `~TcpConnection` -/
  | handleClose (id : Nat) (granted : Bool)
deriving DecidableEq, Repr

/-- The transition function. -/
def step (s : Objects) : Action → Option (Except NoReturn Objects)
  | .start acceptfd granted =>
      match s.connections with
      | some _ => none
      | none => some (({ s with connections := some [] }.construct .acceptor acceptfd).call granted
          .acceptor .enableReading)
  | .newConnection id connectFd granted =>
      match s.connections with
      | none => none
      | some ids =>
          if id ∈ ids then none
          else some (({ s with connections := some (id :: ids) }.construct (.connection id)
            connectFd).call granted (.connection id) .enableReading)
  | .sendInLoop id granted =>
      if id ∈ s.connections.getD [] ∧ (s.interests.channels (.connection id)).isWriting = false then
        some (s.call granted (.connection id) .enableWriting)
      else none
  | .handleWrite id granted =>
      if id ∈ s.connections.getD [] ∧ (s.interests.channels (.connection id)).isWriting = true then
        some (s.call granted (.connection id) .disableWriting)
      else none
  | .handleClose id granted =>
      if id ∈ s.connections.getD [] then some (do
        let s ← s.handleClose granted id
        ({ s with connections := s.connections.map (List.filter (· ≠ id)) }).destructConnection id)
      else none

/-- The destructors in the order of the language.  The connections that die with the server
are those in `connections_` that nobody else has, in the order of the set. -/
def destructors (s : Objects) (dying : List Nat) : List Destructor :=
  (match s.connections with
    | none => []
    | some _ => dying.flatMap (fun id ↦ [.close (.connection id), .channel (.connection id)]) ++
      [.threads, .close .acceptor, .channel .acceptor]) ++
  [.close .timerQueue, .channel .timerQueue, .channel .eventLoop]

/-- The objects are destroyed, each channel after it has left the list, and each descriptor
is closed after that. -/
structure Clean (s : Objects) (dying : List Nat) : Prop where
  unlisted : AllSteps (liftAbort Interests.destroy) (WhileAlive Interests.Unlisted)
    (.ok s.interests) (s.destructors dying)
  returns : ∃ w, run (liftAbort Interests.destroy) (.ok s.interests) (s.destructors dying)
    = some (.ok w)

/-! ## Channels that are watched -/

/-- The channel watches for reading, and is listed if the kernel has done what it was
asked. -/
structure Watched (s : Objects) (p : Owner) : Prop where
  reading : (s.interests.channels p).isReading = true
  listed : s.refused = false → (s.interests.channels p).inInterestList = true

/-- The channels of the loop's timers and of the connections are watched. -/
structure Inv (s : Objects) : Prop where
  timerQueue : s.Watched .timerQueue
  connection : ∀ id ∈ s.connections.getD [], s.Watched (.connection id)

variable {s s' : Objects} {p q : Owner} {granted : Bool} {o : Channel.Operation}

theorem Watched.hasNoneEvents (h : s.Watched p) :
    (s.interests.channels p).hasNoneEvents = false :=
  Channel.hasNoneEvents_eq_false_iff.mpr (Flags.ne_zero_of_any h.reading)

theorem Watched.construct (h : s.Watched q) (hq : q ≠ p) (fd : Nat) :
    (s.construct p fd).Watched q := by
  have hch : (s.construct p fd).interests.channels q = s.interests.channels q :=
    Function.update_of_ne hq ..
  exact ⟨by rw [hch]; exact h.reading, by rw [hch]; exact h.listed⟩

/-- Where an operation is asked for. -/
theorem call_spec (h : s.call granted p o = .ok s') :
    s'.connections = s.connections ∧
      ∃ ok, s'.refused = (s.refused || !ok) ∧
        s'.interests.channels = Function.update s.interests.channels p (if ok
          then { (s.interests.channels p).ask o with
            inInterestList := !((s.interests.channels p).ask o).hasNoneEvents }
          else (s.interests.channels p).ask o) := by
  obtain ⟨⟨ok, interests⟩, hcall, hret⟩ := bind_eq_ok.mp h
  cases hret
  exact ⟨rfl, ok, rfl, Interests.channels_of_call hcall⟩

theorem Watched.call (h : s.Watched q) (hq : q ≠ p) (hcall : s.call granted p o = .ok s') :
    s'.Watched q := by
  obtain ⟨-, ok, hrefused, hchannels⟩ := call_spec hcall
  refine ⟨?_, fun hnot ↦ ?_⟩
  · rw [hchannels, Function.update_of_ne hq]
    exact h.reading
  · rw [hrefused, Bool.or_eq_false_iff] at hnot
    rw [hchannels, Function.update_of_ne hq]
    exact h.listed hnot.1

/-- A channel that is to be read from afterwards is watched. -/
theorem watched_of_call (hask : ((s.interests.channels p).ask o).isReading = true)
    (hcall : s.call granted p o = .ok s') : s'.Watched p := by
  obtain ⟨-, ok, hrefused, hchannels⟩ := call_spec hcall
  refine ⟨?_, fun hnot ↦ ?_⟩
  · rw [hchannels, Function.update_self]
    cases ok with
    | true => exact hask
    | false => exact hask
  · rw [hrefused, Bool.or_eq_false_iff, Bool.not_eq_false'] at hnot
    rw [hchannels, Function.update_self, if_pos hnot.2, Bool.not_eq_true']
    exact Channel.hasNoneEvents_eq_false_iff.mpr (Flags.ne_zero_of_any hask)

@[simp] theorem isReading_enableReading (ch : Channel) : (ch.ask .enableReading).isReading = true :=
  Flags.any_set (by decide)

@[simp] theorem isReading_enableWriting (ch : Channel) :
    (ch.ask .enableWriting).isReading = ch.isReading := Flags.any_set_of_disjoint (by decide)

@[simp] theorem isReading_disableWriting (ch : Channel) :
    (ch.ask .disableWriting).isReading = ch.isReading := Flags.any_clear_of_disjoint (by decide)

/-- A channel bears its destructor if it watches nothing. -/
theorem of_destruct_channel {w w' : Interests Owner} (h : w.destruct (.channel p) = .ok w') :
    (w.channels p).hasNoneEvents = true ∧ w' = w := by
  rw [Interests.destruct] at h
  split at h
  · cases h
  · rename_i hlisted
    split at h
    · rename_i hnone
      cases h
      exact ⟨hnone, rfl⟩
    · rw [Interests.call_disableAll_of_unlisted (Bool.not_eq_true _ ▸ hlisted)] at h
      cases h

/-- No destructor changes a channel. -/
theorem channels_of_destruct {w w' : Interests Owner} {d : Destructor}
    (h : w.destruct d = .ok w') : w'.channels = w.channels := by
  cases d with
  | close p =>
      cases h
      rfl
  | channel p => rw [(of_destruct_channel h).2]
  | threads => cases h

/-! ## Runs -/

theorem inv_build {wakeupfd timerfd : Nat} {granted granted' : Bool}
    (h : build wakeupfd timerfd granted granted' = .ok s) : s.Inv := by
  obtain ⟨s₁, htimer, hloop⟩ := bind_eq_ok.mp h
  have hconnections : s.connections = none := (call_spec hloop).1.trans (call_spec htimer).1
  refine ⟨?_, fun id hid ↦ ?_⟩
  · exact (watched_of_call (isReading_enableReading _) htimer).call (by decide) hloop
  · rw [hconnections] at hid
    cases hid

/-- The channel of a connection changes, and is watched or gone afterwards. -/
theorem Inv.of_call {id : Nat} (h : s.Inv)
    (hask : ((s.interests.channels (.connection id)).ask o).isReading = true)
    (hcall : s.call granted (.connection id) o = .ok s') : s'.Inv := by
  refine ⟨h.timerQueue.call (by simp) hcall, fun id' hid' ↦ ?_⟩
  rw [(call_spec hcall).1] at hid'
  by_cases heq : id' = id
  · rw [heq]
    exact watched_of_call hask hcall
  · exact (h.connection id' hid').call (by simpa using heq) hcall

theorem step_inv (s : Objects) (a : Action) (s' : Objects) (h : s.Inv)
    (hstep : s.step a = some (.ok s')) : s'.Inv := by
  cases a with
  | start acceptfd granted =>
      rw [step] at hstep
      split at hstep
      · cases hstep
      · have hcall := Option.some.inj hstep
        have htimer : ({ s with connections := some [] } : Objects).Watched .timerQueue :=
          ⟨h.timerQueue.reading, h.timerQueue.listed⟩
        refine ⟨(htimer.construct (by decide) acceptfd).call (by decide) hcall, fun id hid ↦ ?_⟩
        rw [(call_spec hcall).1] at hid
        cases hid
  | newConnection id connectFd granted =>
      rw [step] at hstep
      split at hstep
      · cases hstep
      · rename_i ids hids
        split at hstep
        · cases hstep
        rename_i hnew
        have hcall := Option.some.inj hstep
        have hother (q : Owner) (hq : q ≠ .connection id) (hw : s.Watched q) : s'.Watched q := by
          have hw' : ({ s with connections := some (id :: ids) } : Objects).Watched q :=
            ⟨hw.reading, hw.listed⟩
          exact (hw'.construct hq connectFd).call hq hcall
        refine ⟨hother _ (by simp) h.timerQueue, fun id' hid' ↦ ?_⟩
        rw [(call_spec hcall).1] at hid'
        rcases List.mem_cons.mp hid' with rfl | hid'
        · exact watched_of_call (isReading_enableReading _) hcall
        · have hne : id' ≠ id := fun heq ↦ hnew (heq ▸ hid')
          exact hother _ (by simpa using hne) (h.connection id' (by rw [hids]; exact hid'))
  | sendInLoop id granted =>
      obtain ⟨⟨hid, -⟩, hcall⟩ := Option.ite_none_right_eq_some.mp hstep
      refine h.of_call ?_ (Option.some.inj hcall)
      rw [isReading_enableWriting]
      exact (h.connection id hid).reading
  | handleWrite id granted =>
      obtain ⟨⟨hid, -⟩, hcall⟩ := Option.ite_none_right_eq_some.mp hstep
      refine h.of_call ?_ (Option.some.inj hcall)
      rw [isReading_disableWriting]
      exact (h.connection id hid).reading
  | handleClose id granted =>
      obtain ⟨hid, hclose⟩ := Option.ite_none_right_eq_some.mp hstep
      obtain ⟨s₁, hdisable, hclose⟩ := bind_eq_ok.mp (Option.some.inj hclose)
      obtain ⟨w₁, hfd, hclose⟩ := bind_eq_ok.mp hclose
      obtain ⟨w₂, hch, hret⟩ := bind_eq_ok.mp hclose
      cases hret
      rw [handleClose, (h.connection id hid).hasNoneEvents, if_neg Bool.false_ne_true] at hdisable
      have hchannels : w₂.channels = s₁.interests.channels :=
        (channels_of_destruct hch).trans (channels_of_destruct hfd)
      have hother (q : Owner) (hq : q ≠ .connection id) (hw : s.Watched q) :
          Watched ⟨w₂, s₁.connections.map (List.filter (· ≠ id)), s₁.refused⟩ q := by
        obtain ⟨hreading, hlisted⟩ := hw.call hq hdisable
        rw [← hchannels] at hreading hlisted
        exact ⟨hreading, hlisted⟩
      refine ⟨hother _ (by simp) h.timerQueue, fun id' hid' ↦ ?_⟩
      rw [(call_spec hdisable).1] at hid'
      cases hids : s.connections with
      | none =>
          rw [hids] at hid'
          cases hid'
      | some ids =>
          rw [hids] at hid'
          obtain ⟨hid', hne⟩ := List.mem_filter.mp hid'
          exact hother _ (by simpa using hne) (h.connection id' (by rw [hids]; exact hid'))

/-! ## Destruction -/

/-- A channel that watches something is an obstacle. -/
theorem run_destroy_ne_ok {w : Interests Owner} (hnone : (w.channels p).hasNoneEvents = false)
    (ds ds' : List Destructor) (w' : Interests Owner) :
    run (liftAbort Interests.destroy) (.ok w) (ds ++ .channel p :: ds') ≠ some (.ok w') := by
  intro h
  obtain ⟨w₁, w₂, hrun, hstep⟩ := exists_step_of_run_ok h
  have hchannels : w₁.channels = w.channels :=
    run_ok_invariant (I := fun w' ↦ w'.channels = w.channels)
      (fun _ _ _ hw hd ↦ (channels_of_destruct (Option.some.inj hd)).trans hw) rfl hrun
  have hnone' := (of_destruct_channel (Option.some.inj hstep)).1
  rw [hchannels, hnone] at hnone'
  cases hnone'

/-- The descriptor is closed, and then comes the channel. -/
theorem not_unlisted {w : Interests Owner} (hlisted : (w.channels p).inInterestList = true)
    (ds : List Destructor) :
    ¬ AllSteps (liftAbort Interests.destroy) (WhileAlive Interests.Unlisted) (.ok w)
      (.close p :: .channel p :: ds) := by
  rintro ⟨-, h⟩
  have hchannel : (w.channels p).inInterestList = false := (h _ rfl).1
  rw [hlisted] at hchannel
  cases hchannel

/-- **The destruction never gets through.**  It ends at an assertion, or with the threads of
a server before that; and if the kernel has done all that it was asked, then for want of a
channel that has left the list, unless it was the threads. -/
theorem never_clean (wakeupfd timerfd : Nat) (granted granted' : Bool) (as : List Action)
    (s₀ s : Objects) (hbuild : build wakeupfd timerfd granted granted' = .ok s₀)
    (h : run (liftAbort step) (.ok s₀) as = some (.ok s)) (dying : List Nat)
    (hdying : ∀ id ∈ dying, id ∈ s.connections.getD []) :
    ¬ s.Clean dying ∧ (s.refused = false → s.connections = none ∨ dying ≠ [] →
      ¬ AllSteps (liftAbort Interests.destroy) (WhileAlive Interests.Unlisted) (.ok s.interests)
        (s.destructors dying)) := by
  have hinv : s.Inv := run_ok_invariant step_inv (inv_build hbuild) h
  constructor
  · rintro ⟨-, w, hw⟩
    rw [destructors, List.append_cons] at hw
    exact run_destroy_ne_ok hinv.timerQueue.hasNoneEvents _ _ w hw
  · intro hrefused hcase
    cases hconnections : s.connections with
    | none =>
        rw [destructors, hconnections]
        exact not_unlisted (hinv.timerQueue.listed hrefused) _
    | some ids =>
        cases dying with
        | nil => simp [hconnections] at hcase
        | cons id dying =>
            have hid := hinv.connection id (hdying id List.mem_cons_self)
            rw [destructors, hconnections]
            exact not_unlisted (hid.listed hrefused) _

/-- A server with two connections, of which one is closed and the other is being written
to. -/
theorem never_clean_run :
    ∃ s₀ s, build 3 4 true true = .ok s₀ ∧
      run (liftAbort step) (.ok s₀) [.start 5 true, .newConnection 0 6 true,
        .newConnection 1 7 true, .sendInLoop 1 true, .handleClose 0 true] = some (.ok s) ∧
      s.connections = some [1] ∧ ¬ s.Clean [1] ∧
      ¬ AllSteps (liftAbort Interests.destroy) (WhileAlive Interests.Unlisted) (.ok s.interests)
        (s.destructors [1]) := by
  obtain ⟨s₀, hbuild, hany⟩ := exists_ok (build 3 4 true true)
    (fun s₀ ↦ (run (liftAbort step) (.ok s₀) [.start 5 true, .newConnection 0 6 true,
      .newConnection 1 7 true, .sendInLoop 1 true, .handleClose 0 true]).any
        fun r ↦ r.toOption.any fun s ↦ s.connections = some [1] ∧ s.refused = false)
    (by decide +kernel)
  obtain ⟨s, hrun, hs⟩ := exists_run_ok step (.ok s₀) _ _ hany
  obtain ⟨hconnections, hrefused⟩ := of_decide_eq_true hs
  obtain ⟨hclean, hlisted⟩ := never_clean 3 4 true true _ s₀ s hbuild hrun [1]
    (by rw [hconnections]; exact fun id hid ↦ hid)
  exact ⟨s₀, s, hbuild, hrun, hconnections, hclean, hlisted hrefused (.inr (by decide))⟩

/-- A loop that is built and destroyed: the descriptor of its timers is closed while it is
listed, and then the channel is found listed. -/
theorem not_clean :
    ∃ s, build 3 4 true true = .ok s ∧ ¬ s.Clean [] ∧
      s.destructors [] = [.close .timerQueue, .channel .timerQueue, .channel .eventLoop] ∧
      s.interests.list 4 = some (EPOLLIN ||| EPOLLPRI, .timerQueue) ∧
      run (liftAbort Interests.destroy) (.ok s.interests) [.close .timerQueue, .channel .timerQueue]
        = some (.error (.assertion .channelDestructor)) := by
  obtain ⟨s, hbuild, hs⟩ := exists_ok (build 3 4 true true)
    (fun s ↦ s.connections = none ∧ (s.interests.channels .timerQueue).inInterestList = true ∧
      s.interests.list 4 = some (EPOLLIN ||| EPOLLPRI, .timerQueue)) (by decide +kernel)
  obtain ⟨hconnections, hlisted, hlist⟩ := of_decide_eq_true hs
  have hdestructors : s.destructors []
      = [.close .timerQueue, .channel .timerQueue, .channel .eventLoop] := by
    rw [destructors, hconnections]
    rfl
  refine ⟨s, hbuild, fun h ↦ ?_, hdestructors, hlist, ?_⟩
  · have hunlisted := h.unlisted
    rw [hdestructors] at hunlisted
    exact not_unlisted hlisted _ hunlisted
  · refine run_ok_cons_eq_some.mpr ⟨_, rfl, run_ok_cons_eq_some.mpr ⟨_, ?_, rfl⟩⟩
    exact congrArg some (if_pos hlisted)

end Objects

end Wuduo
