import Wuduo.Channel
import Wuduo.Lib.Mirror
import Wuduo.Lib.Transition

/-!
# Channels and the kernel's interest list

The interest list of an `Epoller` is kept by the kernel, which is asked to change it with
`::epoll_ctl`.  A channel keeps two things about its own entry: the mask it asked for
and whether it is listed.  The first decides with the second which operation is asked for,
and the second is set from the operation when the kernel has done it.

`Interests` are the channels of one `Epoller`, known by their addresses, and its list.  That
a channel and the list agree is one half that the channel agrees with itself
(`Channel.Synced`), and one half that the list has what the channel thinks it has
(`Mirrors`).

## Results

* `agreement`: the channels and the list always agree, no `::epoll_ctl` fails and no
  assertion does, if a channel is only asked to disable something when it is listed.
-/

namespace Wuduo

open Transition Epoller

/-- An interest list: by descriptor, the mask and `data.ptr`. -/
abbrev InterestList (P : Type) := Nat → Option (BitVec 32 × P)

variable {P : Type}

/-- `::epoll_ctl`, where it succeeds: a descriptor is added only if it is not listed, and
modified and deleted only if it is. -/
def InterestList.ctl (list : InterestList P) (op : EpollCtl) (fd : Nat) (ee : BitVec 32 × P) :
    Option (InterestList P) :=
  match op, list fd with
  | .add, none => some (Function.update list fd (some ee))
  | .mod, some _ => some (Function.update list fd (some ee))
  | .del, some _ => some (Function.update list fd none)
  | .add, some _ | .mod, none | .del, none => none

/-- `update_channel` of the channel with the address `p`.  The call of `::epoll_ctl` is one
that the kernel has the resources for, or is not; the result says whether it succeeded. -/
def Epoller.update (granted : Bool) (list : InterestList P) (p : P) (ch : Channel) :
    Except NoReturn (Bool × InterestList P × Channel) := do
  let op ← ctlOpFrom ch
  match if granted then list.ctl op ch.fd (ch.events, p) else none with
  | none => return (false, list, ch)
  | some list => return (true, list, ← setStateInInterestList ch op)

/-- The mask the kernel is to have of a channel. -/
def Channel.wanted (ch : Channel) : Option (BitVec 32) :=
  if ch.hasNoneEvents then none else some ch.events

theorem Channel.hasNoneEvents_eq_false_iff {ch : Channel} :
    ch.hasNoneEvents = false ↔ ch.events ≠ 0 := beq_eq_false_iff_ne

/-- The operation that is asked for is one the list allows, if the channel knows whether it
is listed. -/
theorem ctlOpFrom_spec {list : InterestList P} {ch : Channel}
    (hlist : (list ch.fd).isSome = ch.inInterestList)
    (h : ch.inInterestList = true ∨ ch.events ≠ 0) (p : P) :
    ∃ op, ctlOpFrom ch = .ok op ∧
      list.ctl op ch.fd (ch.events, p)
        = some (Function.update list ch.fd (ch.wanted.map fun events ↦ (events, p))) ∧
      setStateInInterestList ch op = .ok { ch with inInterestList := !ch.hasNoneEvents } := by
  rw [← Channel.hasNoneEvents_eq_false_iff] at h
  cases hlisted : ch.inInterestList with
  | false =>
      rw [hlisted, Option.isSome_eq_false_iff, Option.isNone_iff_eq_none] at hlist
      have hnone := h.resolve_left (by rw [hlisted]; exact Bool.false_ne_true)
      refine ⟨.add, ?_, ?_, ?_⟩
      · simp [ctlOpFrom, hlisted, hnone]
      · simp [InterestList.ctl, hlist, Channel.wanted, hnone]
      · simp [setStateInInterestList, hlisted, hnone]
  | true =>
      rw [hlisted] at hlist
      obtain ⟨entry, hentry⟩ := Option.isSome_iff_exists.mp hlist
      refine ⟨if ch.hasNoneEvents then .del else .mod, ?_, ?_, ?_⟩
      · simp [ctlOpFrom, hlisted]
      · cases hnone : ch.hasNoneEvents <;> simp [InterestList.ctl, hentry, Channel.wanted, hnone]
      · cases hnone : ch.hasNoneEvents <;> simp [setStateInInterestList, hlisted, hnone]

/-- Such an update is done, and the channel knows it, or nothing is. -/
theorem Epoller.update_spec {list : InterestList P} {ch : Channel}
    (hlist : (list ch.fd).isSome = ch.inInterestList)
    (h : ch.inInterestList = true ∨ ch.events ≠ 0) (granted : Bool) (p : P) :
    update granted list p ch = .ok (if granted
      then (true, Function.update list ch.fd (ch.wanted.map fun events ↦ (events, p)),
        { ch with inInterestList := !ch.hasNoneEvents })
      else (false, list, ch)) := by
  obtain ⟨op, hop, hctl, hset⟩ := ctlOpFrom_spec hlist h p
  cases granted with
  | false => exact bind_eq_ok.mpr ⟨op, hop, rfl⟩
  | true =>
      refine bind_eq_ok.mpr ⟨op, hop, ?_⟩
      rw [if_pos rfl, hctl]
      exact bind_eq_ok.mpr ⟨_, hset, rfl⟩

/-- The operations of a channel that change its mask. -/
inductive Channel.Operation where
  | enableReading
  | enableWriting
  | disableReading
  | disableWriting
  | disableAll
deriving DecidableEq, Repr

namespace Channel

/-- What the operation does to `events_`. -/
def Operation.change : Operation → BitVec 32 → BitVec 32
  | .enableReading, events => events ||| (EPOLLIN ||| EPOLLPRI)
  | .enableWriting, events => events ||| EPOLLOUT
  | .disableReading, events => events &&& ~~~(EPOLLIN ||| EPOLLPRI)
  | .disableWriting, events => events &&& ~~~EPOLLOUT
  | .disableAll, _ => 0

def Operation.isDisable : Operation → Bool
  | .enableReading | .enableWriting => false
  | .disableReading | .disableWriting | .disableAll => true

/-- The channel with its mask changed, before the kernel is asked. -/
def ask (ch : Channel) (o : Operation) : Channel := { ch with events := o.change ch.events }

/-- The operation, when the answer of the kernel is known. -/
def Operation.run (ctl : Bool) (ch : Channel) : Operation → Except NoReturn Channel
  | .enableReading => ch.enableReading ctl
  | .enableWriting => ch.enableWriting ctl
  | .disableReading => ch.disableReading ctl
  | .disableWriting => ch.disableWriting ctl
  | .disableAll => ch.disableAll ctl

theorem Operation.run_eq (ctl : Bool) (ch : Channel) (o : Operation) :
    o.run ctl ch = updateChannel ctl (ch.ask o) := by
  cases o <;> rfl

/-- Something is watched after something was enabled. -/
theorem Operation.change_ne_zero {o : Operation} (h : o.isDisable = false) (events : BitVec 32) :
    o.change events ≠ 0 := by
  cases o with
  | enableReading => exact Flags.or_ne_zero (by decide)
  | enableWriting => exact Flags.or_ne_zero (by decide)
  | disableReading | disableWriting | disableAll => cases h

/-- There is something to ask the kernel for, if only a listed channel disables something. -/
theorem asks {ch : Channel} {o : Operation} (h : o.isDisable = true → ch.inInterestList = true) :
    ch.inInterestList = true ∨ (ch.ask o).events ≠ 0 := by
  cases hdisable : o.isDisable with
  | true => exact .inl (h hdisable)
  | false => exact .inr (Operation.change_ne_zero hdisable ch.events)

end Channel

/-- Channels with their addresses, and the interest list they are on. -/
structure Interests (P : Type) where
  channels : P → Channel
  list : InterestList P

namespace Interests

variable [DecidableEq P]

/-- New channels for these descriptors. -/
def new (fd : P → Nat) : Interests P := ⟨fun p ↦ .new (fd p), fun _ ↦ none⟩

/-- An operation of a channel, and whether the call of `::epoll_ctl` succeeded. -/
def call (granted : Bool) (w : Interests P) (p : P) (o : Channel.Operation) :
    Except NoReturn (Bool × Interests P) := do
  let (ok, list, ch) ← update granted w.list p ((w.channels p).ask o)
  return (ok, ⟨Function.update w.channels p ch, list⟩)

/-- The operation is the channel's own, with the answer of the kernel. -/
theorem run_of_call {granted ok : Bool} {w w' : Interests P} {p : P} {o : Channel.Operation}
    (h : w.call granted p o = .ok (ok, w')) : o.run ok (w.channels p) = .ok (w'.channels p) := by
  obtain ⟨⟨ok', list, ch⟩, hupdate, hret⟩ := bind_eq_ok.mp h
  cases hret
  obtain ⟨op, hop, hctl⟩ := bind_eq_ok.mp hupdate
  have hch : (⟨Function.update w.channels p ch, list⟩ : Interests P).channels p = ch :=
    Function.update_self ..
  rw [Channel.Operation.run_eq, hch]
  split at hctl
  · cases hctl
    exact bind_eq_ok.mpr ⟨op, hop, rfl⟩
  · obtain ⟨ch', hset, hret⟩ := bind_eq_ok.mp hctl
    cases hret
    exact bind_eq_ok.mpr ⟨op, hop, hset⟩

/-- Nothing but this channel is changed. -/
theorem channels_of_call {granted ok : Bool} {w w' : Interests P} {p : P} {o : Channel.Operation}
    (h : w.call granted p o = .ok (ok, w')) :
    w'.channels = Function.update w.channels p (if ok
      then { (w.channels p).ask o with inInterestList := !((w.channels p).ask o).hasNoneEvents }
      else (w.channels p).ask o) := by
  have hrun := run_of_call h
  rw [Channel.Operation.run_eq] at hrun
  obtain ⟨⟨ok', list, ch⟩, -, hret⟩ := bind_eq_ok.mp h
  cases hret
  have hch : ch = _ := (Function.update_self p ch w.channels).symm.trans (of_updateChannel hrun)
  exact congrArg (Function.update w.channels p) hch

/-- `disable_all()` of a channel that is not listed does not get as far as the kernel. -/
theorem call_disableAll_of_unlisted {w : Interests P} {p : P}
    (hlisted : (w.channels p).inInterestList = false) (granted : Bool) :
    w.call granted p .disableAll = .error (.assertion .ctlOpFrom) := by
  have hop : ctlOpFrom ((w.channels p).ask .disableAll) = .error (.assertion .ctlOpFrom) := by
    rw [ctlOpFrom, Channel.ask, hlisted]
    rfl
  rw [call, update, hop]
  rfl

/-- The transition function. -/
def step (w : Interests P) (c : P × Channel.Operation) : Option (Except NoReturn (Interests P)) :=
  some ((w.call true c.1 c.2).map Prod.snd)

/-- The channel and the list agree. -/
structure Agrees (w : Interests P) (p : P) : Prop where
  listed_iff : (w.channels p).inInterestList = true ↔ (w.channels p).events ≠ 0
  list_iff : (w.channels p).events ≠ 0 ↔ (w.list (w.channels p).fd).isSome = true
  entry : ∀ events ptr, w.list (w.channels p).fd = some (events, ptr) →
    events = (w.channels p).events ∧ ptr = p

/-- Something is disabled only in a channel that is listed. -/
def DisablesListed (w : Interests P) (c : P × Channel.Operation) : Prop :=
  c.2.isDisable = true → (w.channels c.1).inInterestList = true

instance (w : Interests P) (c : P × Channel.Operation) : Decidable (w.DisablesListed c) :=
  inferInstanceAs (Decidable (_ → _))

/-- The call of `::epoll_ctl` succeeds. -/
def Succeeds (w : Interests P) (c : P × Channel.Operation) : Prop :=
  ∃ w', w.call true c.1 c.2 = .ok (true, w')

/-! ## What holds between the calls -/

/-- Every channel agrees with itself, and with the list. -/
structure Inv (fd : P → Nat) (w : Interests P) : Prop where
  fd_eq : ∀ p, (w.channels p).fd = fd p
  synced : ∀ p, (w.channels p).Synced
  mirrors : Mirrors fd (Channel.wanted ∘ w.channels) w.list

variable {fd : P → Nat} {w : Interests P}

omit [DecidableEq P] in
theorem inv_new (fd : P → Nat) : (new fd).Inv fd := ⟨fun _ ↦ rfl, fun _ ↦ rfl, Mirrors.empty⟩

omit [DecidableEq P] in
theorem Inv.list_eq (h : w.Inv fd) (p : P) :
    w.list (w.channels p).fd = (w.channels p).wanted.map fun v ↦ (v, p) := by
  rw [h.fd_eq p]
  exact h.mirrors p

omit [DecidableEq P] in
theorem Inv.agrees (h : w.Inv fd) (p : P) : w.Agrees p := by
  have hsynced : (w.channels p).inInterestList = true ↔ (w.channels p).events ≠ 0 := by
    rw [h.synced p, Bool.not_eq_true', Channel.hasNoneEvents_eq_false_iff]
  refine ⟨hsynced, ?_, ?_⟩
  · rw [h.list_eq p, Option.isSome_map, Channel.wanted, ← Channel.hasNoneEvents_eq_false_iff]
    cases (w.channels p).hasNoneEvents <;> simp
  · intro events ptr hentry
    rw [h.list_eq p, Option.map_eq_some_iff, Channel.wanted] at hentry
    obtain ⟨v, hv, heq⟩ := hentry
    split at hv
    · cases hv
    · cases hv
      cases heq
      exact ⟨rfl, rfl⟩

/-- A channel and its entry are changed alike. -/
theorem Inv.set (h : w.Inv fd) (hfd : Function.Injective fd) {p : P} {ch : Channel}
    (hch : ch.fd = fd p) (hsynced : ch.Synced) :
    Inv fd ⟨Function.update w.channels p ch,
      Function.update w.list (fd p) (ch.wanted.map fun v ↦ (v, p))⟩ where
  fd_eq := (Function.forall_update_iff _ fun q (ch : Channel) ↦ ch.fd = fd q).mpr
    ⟨hch, fun q _ ↦ h.fd_eq q⟩
  synced := (Function.forall_update_iff _ fun _ (ch : Channel) ↦ ch.Synced).mpr
    ⟨hsynced, fun q _ ↦ h.synced q⟩
  mirrors := by
    rw [Function.comp_update]
    exact h.mirrors.update hfd p ch.wanted

/-- A call on a channel that knows whether it is listed. -/
theorem Inv.call_spec (h : w.Inv fd) {p : P} {o : Channel.Operation}
    (hasks : (w.channels p).inInterestList = true ∨ ((w.channels p).ask o).events ≠ 0)
    (granted : Bool) :
    w.call granted p o = .ok (granted, if granted
      then ⟨Function.update w.channels p { (w.channels p).ask o with
          inInterestList := !((w.channels p).ask o).hasNoneEvents },
        Function.update w.list (w.channels p).fd (((w.channels p).ask o).wanted.map fun v ↦ (v, p))⟩
      else ⟨Function.update w.channels p ((w.channels p).ask o), w.list⟩) := by
  have hlist : (w.list ((w.channels p).ask o).fd).isSome
      = ((w.channels p).ask o).inInterestList := by
    show (w.list (w.channels p).fd).isSome = (w.channels p).inInterestList
    rw [h.list_eq p, Option.isSome_map, h.synced p, Channel.wanted]
    cases (w.channels p).hasNoneEvents <;> rfl
  refine bind_eq_ok.mpr ⟨_, update_spec hlist hasks granted p, ?_⟩
  cases granted <;> rfl

/-- If the kernel does what it is asked, everything agrees afterwards. -/
theorem Inv.call (h : w.Inv fd) (hfd : Function.Injective fd) {p : P} {o : Channel.Operation}
    (hasks : (w.channels p).inInterestList = true ∨ ((w.channels p).ask o).events ≠ 0) :
    ∃ w', w.call true p o = .ok (true, w') ∧ w'.Inv fd := by
  refine ⟨_, h.call_spec hasks true, ?_⟩
  rw [if_pos rfl, h.fd_eq p]
  exact h.set hfd (h.fd_eq p) rfl

/-! ## Runs -/

theorem step_inv (hfd : Function.Injective fd) (w : Interests P) (c : P × Channel.Operation)
    (r : Except NoReturn (Interests P)) (h : w.Inv fd) (hlisted : w.DisablesListed c)
    (hstep : w.step c = some r) : ∃ w', r = .ok w' ∧ w'.Inv fd := by
  obtain ⟨w', hcall, hinv⟩ := h.call hfd (Channel.asks hlisted)
  refine ⟨w', ?_, hinv⟩
  rw [step, hcall] at hstep
  exact (Option.some.inj hstep).symm

/-- **Channels and the interest list agree.**  If only channels that are listed are asked to
disable something, then every `::epoll_ctl` succeeds, no assertion fails, and afterwards each
channel is listed exactly when it watches something, and exactly when the list has its
descriptor, with its mask and its address. -/
theorem agreement (fd : P → Nat) (hfd : Function.Injective fd)
    (calls : List (P × Channel.Operation)) (r : Except NoReturn (Interests P))
    (hlisted : AllSteps (liftAbort step) (WhileAlive DisablesListed) (.ok (new fd)) calls)
    (h : run (liftAbort step) (.ok (new fd)) calls = some r) :
    AllSteps (liftAbort step) (WhileAlive Succeeds) (.ok (new fd)) calls ∧
      ∃ w, r = .ok w ∧ ∀ p, w.Agrees p := by
  have hsucceeds (w : Interests P) (c) (hw : w.Inv fd) (hc : w.DisablesListed c) :
      w.Succeeds c := by
    obtain ⟨w', hcall, -⟩ := hw.call hfd (Channel.asks hc)
    exact ⟨w', hcall⟩
  have hkeeps (w : Interests P) (c) (w') (hw : w.Inv fd) (hc : w.DisablesListed c)
      (hstep : w.step c = some (.ok w')) : w'.Inv fd := by
    obtain ⟨w'', heq, hinv⟩ := step_inv hfd w c _ hw hc hstep
    cases heq
    exact hinv
  obtain ⟨w, hr, hw⟩ := run_alive_of_allSteps (step_inv hfd) (inv_new fd) hlisted h
  exact ⟨hlisted.of_invariant_whileAlive hkeeps hsucceeds (inv_new fd), w, hr, hw.agrees⟩

/-- Two channels: the last of two interests is disabled, and one is enabled again. -/
theorem agreement_run :
    ∃ w : Interests Bool,
      run (liftAbort step) (.ok (new fun p ↦ if p then 7 else 5))
        [(true, .enableReading), (false, .enableWriting), (true, .enableWriting),
          (true, .disableReading), (true, .disableWriting), (false, .disableReading),
          (true, .enableWriting), (false, .disableAll)] = some (.ok w) ∧
      w.list 7 = some (EPOLLOUT, true) ∧ w.list 5 = none ∧ ∀ p, w.Agrees p := by
  have hfd : Function.Injective fun p : Bool ↦ if p then 7 else 5 := by
    intro p q
    cases p <;> cases q <;> decide
  obtain ⟨w, hrun, hlist⟩ := exists_run_ok step (.ok (new fun p ↦ if p then 7 else 5))
    [(true, .enableReading), (false, .enableWriting), (true, .enableWriting),
      (true, .disableReading), (true, .disableWriting), (false, .disableReading),
      (true, .enableWriting), (false, .disableAll)]
    (fun w ↦ w.list 7 = some (EPOLLOUT, true) ∧ w.list 5 = none) (by decide +kernel)
  obtain ⟨-, _, heq, hagrees⟩ := agreement _ hfd _ _ (by decide +kernel) hrun
  cases heq
  obtain ⟨hlist₇, hlist₅⟩ := of_decide_eq_true hlist
  exact ⟨w, hrun, hlist₇, hlist₅, hagrees⟩

end Interests

end Wuduo
