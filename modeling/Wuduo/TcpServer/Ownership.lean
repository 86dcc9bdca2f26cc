import Wuduo.TcpServer.Cases
import Wuduo.TcpServer.Registry

/-!
# Channels and their owners

An epoller knows channels by plain pointers, and so does the batch that `Epoller::wait`
returns.  A channel is a part of its connection, and a connection is gone when nothing
holds a shared pointer to it.  The tasks that lead to the end of a connection see to it
that no pointer to its channel is left by then: `destroyed()` is queued on the
connection's own loop, so that it runs between two batches of that loop, and the
connection is out of the interest list long before.  That rests on the connection being
called in the thread of its loop only: another thread that is late with its `set_state` can
undo it (`TcpConnection.Shared`).

## Results

* `channels_owned`: a channel that is registered, or that is in a batch, or whose events
  are being handled belongs to a connection that something owns.
* `distinct_descriptors`: connections that something owns have different descriptors, if
  the kernel gives out only descriptors that are not in use.
-/

namespace Wuduo.TcpServer

open Lanes Transition

/-- Events of the connection are still to be handled on this loop. -/
def ReportedOn (s : TcpServer) (l c : Nat) : Prop :=
  (l, .read c) ∈ s.frames ∨ (l, .write c) ∈ s.frames ∨
    ∃ batch revents, s.place l = .dispatch batch ∧ .connection c revents ∈ batch

/-- Events are handled on the loop of the connection, and before `destroyed()` runs. -/
def Attended (s : TcpServer) : Prop :=
  ∀ l c, s.ReportedOn l c → l = s.loopOf c ∧ s.records c Happening.isDestroyed = 0

theorem reported_iff {s : TcpServer} {c : Nat} : s.Reported c ↔ ∃ l, s.ReportedOn l c := by
  constructor
  · rintro (⟨l, h | h⟩ | ⟨l, batch, revents, h⟩)
    · exact ⟨l, .inl h⟩
    · exact ⟨l, .inr (.inl h)⟩
    · exact ⟨l, .inr (.inr ⟨batch, revents, h⟩)⟩
  · rintro ⟨l, h | h | ⟨batch, revents, h⟩⟩
    · exact .inl ⟨l, .inl h⟩
    · exact .inl ⟨l, .inr h⟩
    · exact .inr ⟨l, batch, revents, h⟩

section

variable {s t : TcpServer} {l c : Nat}

/-- A thread between two batches, with nothing left to do, has no events to handle. -/
theorem Runs.not_reportedOn {n : Nat} {task : Task} (h : s.Runs l n task) :
    ¬ s.ReportedOn l c := by
  rintro (hmem | hmem | ⟨batch, revents, hplace, -⟩)
  · exact not_mem_of_front_eq_none h.idle _ hmem
  · exact not_mem_of_front_eq_none h.idle _ hmem
  · rw [h.place] at hplace
    cases hplace

/-- What comes after leaves fewer events to be handled. -/
theorem ReportedOn.of_frames (h : t.ReportedOn l c) (hplace : t.place = s.place)
    (hframes : ∀ frame, frame = .read c ∨ frame = .write c → (l, frame) ∈ t.frames →
      (l, frame) ∈ s.frames) : s.ReportedOn l c := by
  rcases h with h | h | h
  · exact .inl (hframes _ (.inl rfl) h)
  · exact .inr (.inl (hframes _ (.inr rfl) h))
  · exact .inr (.inr (hplace ▸ h))

/-- The thread goes on to a place at which fewer events are still to be handled. -/
theorem ReportedOn.of_goTo {l' : Nat} {place : Place} (h : t.ReportedOn l c)
    (hframes : t.frames = s.frames) (hplace : t.place = Function.update s.place l' place)
    (hless : ∀ batch, place = .dispatch batch →
      ∃ batch', s.place l' = .dispatch batch' ∧ ∀ e ∈ batch, e ∈ batch') : s.ReportedOn l c := by
  rcases h with h | h | ⟨batch, revents, h, hmem⟩
  · exact .inl (hframes ▸ h)
  · exact .inr (.inl (hframes ▸ h))
  · rw [hplace, Function.update_apply] at h
    split at h
    · rename_i hl
      obtain ⟨batch', hbatch', hsub⟩ := hless batch h
      exact .inr (.inr ⟨batch', revents, hl ▸ hbatch', hsub _ hmem⟩)
    · exact .inr (.inr ⟨batch, revents, h, hmem⟩)

/-- Handling fewer events of connections that were not destroyed meanwhile. -/
theorem Attended.of_le (h : s.Attended) (hloop : t.loopOf = s.loopOf)
    (hrecords : ∀ c, t.records c Happening.isDestroyed = s.records c Happening.isDestroyed)
    (hless : ∀ l c, t.ReportedOn l c → s.ReportedOn l c) : t.Attended := by
  intro l c hc
  rw [hloop, hrecords]
  exact h l c (hless l c hc)

@[simp] theorem records_isDestroyed_acted (s : TcpServer) (l c : Nat) (conn : TcpConnection)
    (cbs : List TcpConnection.Callback) (x : Nat) :
    (s.acted l c conn cbs).records x Happening.isDestroyed =
      s.records x Happening.isDestroyed := by
  rw [records_acted]
  simp

/-- The callbacks of a function leave no events to be handled. -/
theorem ReportedOn.of_acted {l' c' : Nat} {conn : TcpConnection}
    {cbs : List TcpConnection.Callback} (h : (s.acted l' c' conn cbs).ReportedOn l c) :
    s.ReportedOn l c := by
  refine h.of_frames rfl ?_
  rintro frame (rfl | rfl) hmem
  · exact (List.mem_append.mp hmem).resolve_left not_mem_callbacks.1
  · exact (List.mem_append.mp hmem).resolve_left not_mem_callbacks.2

theorem Attended.acted (h : s.Attended) (l c : Nat) (conn : TcpConnection)
    (cbs : List TcpConnection.Callback) : (s.acted l c conn cbs).Attended :=
  h.of_le rfl (records_isDestroyed_acted s l c conn cbs) fun _ _ ↦ ReportedOn.of_acted

theorem Attended.pop (h : s.Attended) (l : Nat) : (s.pop l).Attended :=
  h.of_le rfl (fun _ ↦ rfl) fun _ _ hc ↦
    hc.of_frames rfl fun _ _ hmem ↦ mem_of_mem_removeFront hmem

theorem ReportedOn.of_take {l' n : Nat} (h : (s.take l' n).ReportedOn l c) : s.ReportedOn l c :=
  h.of_goTo rfl rfl fun _ hb ↦ by cases hb

theorem Attended.take (h : s.Attended) (l n : Nat) : (s.take l n).Attended :=
  h.of_le rfl (fun _ ↦ rfl) fun _ _ ↦ ReportedOn.of_take

theorem Attended.goTo (h : s.Attended) (l : Nat) {place : Place}
    (hplace : ∀ batch, place ≠ .dispatch batch) : (s.goTo l place).Attended :=
  h.of_le rfl (fun _ ↦ rfl) fun _ _ hc ↦
    hc.of_goTo rfl rfl fun batch hb ↦ absurd hb (hplace batch)

theorem Attended.queueInLoop (h : s.Attended) (l : Nat) (task : Task) :
    (s.queueInLoop l task).Attended := h

theorem Attended.record (h : s.Attended) (c : Nat) {what : Happening}
    (hwhat : what.isDestroyed = false) : (s.record c what).Attended :=
  h.of_le rfl (fun x ↦ by rw [records_record, hwhat]; simp) fun _ _ ↦ id

theorem Attended.unregistered (h : s.Attended) (c : Nat) : (s.unregistered c).Attended :=
  Attended.record (s := { s with connections := s.connections.erase c }) h c rfl

/-- A channel is in the interest list only as long as the connection is open. -/
theorem Inv.of_listed (h : s.Inv) (hlisted : (s.conn c).channel.inInterestList = true) :
    c < s.made ∧ s.records c Happening.isDestroyed = 0 := by
  have hne : (s.conn c).channel.events ≠ 0 := by
    intro hzero
    have hsync := (h.conn c).synced
    rw [Channel.Synced, hlisted, Channel.hasNoneEvents, hzero] at hsync
    cases hsync
  have hopen : (s.ledger c).closes = 0 :=
    (h.balanced c).closes_eq_zero fun hst ↦ hne ((h.conn c).closed hst)
  have hcloses := (h.balanced c).closes
  have hdestructions : (s.ledger c).destructions = 0 := by omega
  exact ⟨h.lt_made fun hst ↦ hne ((h.conn c).connecting hst), hdestructions⟩

theorem Attended.wait (h : s.Attended) (hinv : s.Inv) {batch : List Active}
    (hreg : batch.all (s.isRegistered l) = true) :
    ({ s with conn := batch.foldl setRevents s.conn }.goTo l (.dispatch batch)).Attended := by
  intro l' c hc
  rcases hc with hc | hc | ⟨batch', revents, hplace, hmem⟩
  · exact h l' c (.inl hc)
  · exact h l' c (.inr (.inl hc))
  · simp only [TcpServer.goTo, Function.update_apply] at hplace
    split at hplace
    · rename_i hl
      cases hplace
      have hc := List.all_eq_true.mp hreg _ hmem
      simp only [isRegistered, Bool.and_eq_true, decide_eq_true_eq] at hc
      exact ⟨hl.trans hc.1.2.symm, (hinv.of_listed hc.2).2⟩
    · exact h l' c (.inr (.inr ⟨batch', revents, hplace, hmem⟩))

theorem Attended.dispatch (h : s.Attended) {e : Active} {batch : List Active}
    (hplace : s.place l = .dispatch (e :: batch)) :
    ({ s with frames := s.framesOf l e ++ s.frames }.goTo l (.dispatch batch)).Attended := by
  refine h.of_le rfl (fun _ ↦ rfl) fun l' c hc ↦ ?_
  have hframes (frame : Frame) (hframe : frame = .read c ∨ frame = .write c)
      (hmem : (l', frame) ∈ s.framesOf l e ++ s.frames) :
      (l', frame) ∈ s.frames ∨ s.ReportedOn l' c := by
    rcases List.mem_append.mp hmem with hmem | hmem
    · right
      rcases mem_framesOf hmem with heq | ⟨c', revents, rfl, heq | heq⟩ <;>
        rcases hframe with rfl | rfl <;> cases heq <;>
        exact .inr (.inr ⟨_, revents, hplace, List.mem_cons_self⟩)
    · exact .inl hmem
  rcases hc with hc | hc | hc
  · exact (hframes _ (.inl rfl) hc).elim .inl id
  · exact (hframes _ (.inr rfl) hc).elim (fun h ↦ .inr (.inl h)) id
  · refine ReportedOn.of_goTo (t := s.goTo l (.dispatch batch)) (.inr (.inr hc)) rfl rfl ?_
    intro batch' hbatch'
    cases hbatch'
    exact ⟨_, hplace, fun _ ↦ List.mem_cons_of_mem _⟩

/-- `destroyed()` runs when its loop has no events left to handle. -/
theorem Attended.destroy (h : s.Attended) (hinv : s.Inv) {n : Nat}
    (hruns : s.Runs l n (.destroyed c)) :
    (((s.take l n).record c (.destroyed l)).acted l c (s.conn c) []).Attended := by
  intro l' c' hc'
  have hc : s.ReportedOn l' c' :=
    ReportedOn.of_take (ReportedOn.of_acted (s := (s.take l n).record c (.destroyed l)) hc')
  obtain ⟨hl', hzero⟩ := h l' c' hc
  have hne : c ≠ c' := by
    rintro rfl
    have hl : l = s.loopOf c := hinv.tasks l _ (mem_of_front hruns.task)
    rw [hl', ← hl] at hc
    exact hruns.not_reportedOn hc
  refine ⟨hl', ?_⟩
  rw [records_isDestroyed_acted, records_record, if_neg fun h ↦ hne h.1]
  exact hzero

theorem Attended.inserted (h : s.Attended) (hinv : s.Inv) (connectionFd ioLoop next : Nat) :
    (s.inserted connectionFd ioLoop next).Attended := by
  intro l c hc
  obtain ⟨hl, hzero⟩ := h l c hc
  refine ⟨?_, hzero⟩
  have hlt := hinv.lt_made (hinv.reported c (reported_iff.mpr ⟨l, hc⟩))
  rw [hl]
  exact (Function.update_of_ne (Nat.ne_of_lt hlt) _ _).symm

/-- Every step keeps it so that events are handled on the loop of the connection, and
before `destroyed()` runs. -/
theorem Attended.of_stepped (h : s.Attended) (hinv : s.Inv) {a : Action}
    (hstep : Stepped s a t) : t.Attended := by
  cases hstep with
  | wait hplace hreg => exact h.wait hinv hreg
  | dispatch hidle hplace => exact h.dispatch hplace
  | swap | finish => exact h.goTo _ fun _ hb ↦ by cases hb
  | established hruns hst hok => exact (h.take _ _).acted _ _ _ _
  | erase hruns hc => exact (h.take _ _).unregistered _
  | destroy hruns => exact h.destroy hinv hruns
  | acceptBase hfront hnext hok => exact (h.inserted hinv _ _ _).acted _ _ _ _
  | @acceptWorker connectionFd ioLoop next hfront hnext hio =>
      exact (h.inserted hinv connectionFd ioLoop next).queueInLoop _ _
  | call hfront hc hl hok => exact h.acted _ _ _ _
  | returns hfront hframe => exact h.pop _
  | read hfront hok | write hfront hok => exact (h.pop _).acted _ _ _ _
  | closeBase hfront hc => exact ((h.pop _).record _ rfl).unregistered _
  | closeWorker hfront hl => exact ((h.pop _).record _ rfl).queueInLoop _ _

theorem Attended.hasOwner (h : s.Attended) (hinv : s.Inv)
    (hc : (s.conn c).channel.inInterestList = true ∨ s.Reported c) : s.HasOwner c := by
  rcases hc with hc | hc
  · exact hinv.hasOwner (hinv.of_listed hc).1 (hinv.of_listed hc).2
  · obtain ⟨l, hl⟩ := reported_iff.mp hc
    exact hinv.hasOwner (hinv.lt_made (hinv.reported c hc)) (h l c hl).2

/-! ## Owners do not come back -/

/-- An owner in the later state is one in the earlier state, or it is new. -/
theorem HasOwner.of_new (h : t.HasOwner c) (hconns : c ∈ t.connections → s.HasOwner c)
    (hqueue : ∀ e ∈ t.queue, e.2.conn = c → e ∈ s.queue ∨ s.HasOwner c)
    (hframes : ∀ e ∈ t.frames, e.2.Holds c → e ∈ s.frames ∨ s.HasOwner c) : s.HasOwner c := by
  rcases h with h | ⟨l, task, hmem, hc⟩ | ⟨l, frame, hmem, hc⟩
  · exact hconns h
  · rcases hqueue _ hmem hc with h | h
    · exact .inr (.inl ⟨l, task, h, hc⟩)
    · exact h
  · rcases hframes _ hmem hc with h | h
    · exact .inr (.inr ⟨l, frame, h, hc⟩)
    · exact h

/-- The callbacks of a function hold its connection. -/
theorem holds_of_mem_callbacks {c' : Nat} {cbs : List TcpConnection.Callback} {e : Nat × Frame}
    (he : e ∈ cbs.map fun cb ↦ (l, frameOf c' cb)) (hc : e.2.Holds c) : c' = c ∧ cbs ≠ [] := by
  obtain ⟨cb, hcb, rfl⟩ := List.mem_map.mp he
  refine ⟨?_, List.ne_nil_of_mem hcb⟩
  cases cb <;> exact hc

theorem HasOwner.of_acted {c' : Nat} {conn : TcpConnection} {cbs : List TcpConnection.Callback}
    (h : (s.acted l c' conn cbs).HasOwner c) : s.HasOwner c ∨ c' = c ∧ cbs ≠ [] := by
  by_contra hnot
  obtain ⟨hno, hcb⟩ := not_or.mp hnot
  refine hno (h.of_new .inl (fun _ he _ ↦ .inl he) fun e he hc ↦ ?_)
  exact .inl ((List.mem_append.mp he).resolve_left fun he ↦ hcb (holds_of_mem_callbacks he hc))

theorem HasOwner.of_queueInLoop {task : Task} (h : (s.queueInLoop l task).HasOwner c) :
    s.HasOwner c ∨ task.conn = c := by
  by_contra hnot
  obtain ⟨hno, htask⟩ := not_or.mp hnot
  refine hno (h.of_new .inl (fun e he hc ↦ ?_) fun _ he _ ↦ .inl he)
  refine .inl ((List.mem_append.mp he).resolve_right fun he ↦ htask ?_)
  rwa [List.mem_singleton.mp he] at hc

theorem HasOwner.of_pop (h : (s.pop l).HasOwner c) : s.HasOwner c :=
  h.of_new .inl (fun _ he _ ↦ .inl he) fun _ he _ ↦ .inl (mem_of_mem_removeFront he)

theorem HasOwner.of_take {n : Nat} (h : (s.take l n).HasOwner c) : s.HasOwner c :=
  h.of_new .inl (fun _ he _ ↦ .inl (mem_of_mem_removeFront he)) fun _ he _ ↦ .inl he

theorem HasOwner.of_unregistered {c' : Nat} (h : (s.unregistered c').HasOwner c)
    (hc' : c' ∈ s.connections) : s.HasOwner c := by
  refine h.of_new (fun hc ↦ .inl (Finset.mem_of_mem_erase hc)) (fun e he hc ↦ ?_)
    fun _ he _ ↦ .inl he
  rcases List.mem_append.mp he with he | he
  · exact .inl he
  · rw [List.mem_singleton.mp he] at hc
    exact .inr (.inl (hc ▸ hc'))

theorem HasOwner.of_inserted {connectionFd ioLoop next : Nat}
    (h : (s.inserted connectionFd ioLoop next).HasOwner c) (hc : c ≠ s.made) : s.HasOwner c := by
  refine h.of_new (fun hmem ↦ ?_) (fun _ he _ ↦ .inl he) fun _ he _ ↦ .inl he
  exact .inl ((Finset.mem_insert.mp hmem).resolve_left hc)

/-- A call that makes a callback is of a connection that is open, and so has an owner. -/
theorem Inv.hasOwner_of_call (h : s.Inv) (hc : c < s.made) {call : Call} {c' : TcpConnection}
    {cbs : List TcpConnection.Callback} (hok : call.run (s.conn c) = .ok (c', cbs))
    (hne : cbs ≠ []) : s.HasOwner c := by
  refine h.hasOwner hc ?_
  have hopen : (s.ledger c).closes = 0 := by
    apply (h.balanced c).closes_eq_zero
    intro hst
    have hdis : (s.conn c).state = .kDisconnected := hst
    rw [Call.run_of_ne (by simp [hdis])] at hok
    cases hok
    exact hne rfl
  have hcloses := (h.balanced c).closes
  have hdestructions : (s.ledger c).destructions = 0 := by omega
  exact hdestructions

/-- **Owners do not come back.**  A connection that was made and has an owner after a step
had one before it. -/
theorem HasOwner.of_stepped (h : t.HasOwner c) (hinv : s.Inv) (hatt : s.Attended) {a : Action}
    (hstep : Stepped s a t) (hc : c < s.made) : s.HasOwner c := by
  cases hstep with
  | @wait l batch hplace hreg => exact h
  | @dispatch l e batch hidle hplace =>
      refine h.of_new .inl (fun _ he _ ↦ .inl he) fun x hx hholds ↦ ?_
      rcases List.mem_append.mp hx with hx | hx
      · rcases mem_framesOf hx with rfl | ⟨c', revents, rfl, rfl | rfl⟩ <;> exact hholds.elim
      · exact .inl hx
  | swap | finish => exact h
  | established hruns hst hok =>
      rcases h.of_acted with h | ⟨rfl, -⟩
      · exact h.of_take
      · exact .inr (.inl ⟨_, _, mem_of_front hruns.task, rfl⟩)
  | erase hruns hc' => exact (h.of_unregistered hc').of_take
  | @destroy l n c' hruns =>
      rcases h.of_acted with h | ⟨-, hne⟩
      · exact HasOwner.of_take (n := n) h
      · exact absurd rfl hne
  | acceptBase hfront hnext hok =>
      rcases h.of_acted with h | ⟨rfl, -⟩
      · exact h.of_inserted (Nat.ne_of_lt hc)
      · exact absurd hc (Nat.lt_irrefl _)
  | acceptWorker hfront hnext hio =>
      rcases h.of_queueInLoop with h | rfl
      · exact h.of_inserted (Nat.ne_of_lt hc)
      · exact absurd hc (Nat.lt_irrefl _)
  | call hfront hc' hl hok =>
      rcases h.of_acted with h | ⟨rfl, hne⟩
      · exact h
      · exact hinv.hasOwner_of_call hc' hok hne
  | returns hfront hframe => exact h.of_pop
  | read hfront hok =>
      rcases h.of_acted with h | ⟨rfl, -⟩
      · exact h.of_pop
      · exact hatt.hasOwner hinv (.inr (.inl ⟨_, .inl (mem_of_front hfront)⟩))
  | write hfront hok =>
      rcases h.of_acted with h | ⟨rfl, -⟩
      · exact h.of_pop
      · exact hatt.hasOwner hinv (.inr (.inl ⟨_, .inr (mem_of_front hfront)⟩))
  | closeBase hfront hc' => exact HasOwner.of_pop (h.of_unregistered (by exact hc'))
  | @closeWorker l c' hfront hl =>
      rcases h.of_queueInLoop with h | rfl
      · exact HasOwner.of_pop (l := l) h
      · exact .inr (.inr ⟨_, _, mem_of_front hfront, rfl⟩)

/-! ## Descriptors -/

theorem fd_acted (l : Nat) {c' : Nat}
    {f : TcpConnection → Except NoReturn (TcpConnection × List TcpConnection.Callback)}
    (hf : TcpConnection.Blind f) {d : TcpConnection} {cbs : List TcpConnection.Callback}
    (hok : f (s.conn c') = .ok (d, cbs)) (c : Nat) :
    ((s.acted l c' d cbs).conn c).channel.fd = (s.conn c).channel.fd := by
  by_cases hc : c = c'
  · subst hc
    have hconn : (s.acted l c d cbs).conn c = d := Function.update_self _ _ _
    rw [hconn]
    exact (hf.keeps hok).1
  · have hconn : (s.acted l c' d cbs).conn c = s.conn c := Function.update_of_ne hc _ _
    rw [hconn]

/-- A connection keeps the descriptor it was made with. -/
theorem fd_of_stepped {a : Action} (hstep : Stepped s a t) (hc : c < s.made) :
    (t.conn c).channel.fd = (s.conn c).channel.fd := by
  have hne : c ≠ s.made := Nat.ne_of_lt hc
  cases hstep with
  | @wait l batch hplace hreg =>
      exact foldl_setRevents (P := fun conn ↦ conn.channel.fd = (s.conn c).channel.fd)
        (fun _ _ h ↦ h) batch s.conn rfl
  | dispatch | swap | finish | erase | returns | closeBase | closeWorker => rfl
  | @established l n c' hruns hst d hok =>
      exact fd_acted (s := s.take l n) l TcpConnection.blind_established hok c
  | @destroy l n c' hruns =>
      exact congrArg (fun conn : TcpConnection ↦ conn.channel.fd)
        (congrFun (Function.update_eq_self c' s.conn) c)
  | @acceptBase connectionFd next hfront hnext d hok =>
      simp [TcpServer.acted, TcpServer.inserted, Function.update_of_ne hne]
  | acceptWorker hfront hnext hio =>
      simp [TcpServer.queueInLoop, TcpServer.inserted, Function.update_of_ne hne]
  | @call l c' x call hfront hc' hl d cbs hok => exact fd_acted l call.blind_run hok c
  | @read l c' answer hfront d cbs hok =>
      exact fd_acted (s := s.pop l) l (TcpConnection.blind_handleRead answer) hok c
  | @write l c' answer hfront d cbs hok =>
      exact fd_acted (s := s.pop l) l (TcpConnection.blind_handleWrite answer) hok c

/-- The kernel gives out a descriptor only if no connection that still exists has it. -/
def UnusedFd (s : TcpServer) : Action → Prop
  | .accept connectionFd => ∀ c < s.made, s.HasOwner c → (s.conn c).channel.fd ≠ connectionFd
  | _ => True

instance Frame.decidableHolds (c : Nat) : ∀ frame, Decidable (Frame.Holds c frame)
  | .user c' | .closeCallback c' => inferInstanceAs (Decidable (c' = c))
  | .acceptor | .read _ | .write _ => isFalse id

instance HasOwner.decidable (s : TcpServer) (c : Nat) : Decidable (s.HasOwner c) :=
  decidable_of_iff (c ∈ s.connections ∨ (∃ e ∈ s.queue, e.2.conn = c) ∨
    ∃ e ∈ s.frames, e.2.Holds c) (by simp only [HasOwner, Prod.exists])

instance UnusedFd.decidable (s : TcpServer) : ∀ a, Decidable (s.UnusedFd a)
  | .accept connectionFd =>
      inferInstanceAs (Decidable (∀ c < s.made, s.HasOwner c →
        (s.conn c).channel.fd ≠ connectionFd))
  | .wait _ _ | .dispatch _ | .swap _ | .runTask _ | .finish _ | .call _ _ _ | .return _
  | .read _ _ | .write _ _ | .closeCallback _ => isTrue trivial

/-- Connections that still exist have different descriptors. -/
def DistinctFds (s : TcpServer) : Prop :=
  ∀ c < s.made, ∀ c' < s.made, s.HasOwner c → s.HasOwner c' →
    (s.conn c).channel.fd = (s.conn c').channel.fd → c = c'

theorem made_of_stepped {a : Action} (hstep : Stepped s a t) :
    t.made = s.made ∨ ∃ connectionFd, a = .accept connectionFd ∧ t.made = s.made + 1 ∧
      (t.conn s.made).channel.fd = connectionFd := by
  cases hstep with
  | @acceptBase connectionFd next hfront hnext d hok =>
      refine .inr ⟨connectionFd, rfl, rfl, ?_⟩
      simp only [TcpServer.acted, Function.update_self]
      exact (TcpConnection.blind_established.keeps hok).1
  | @acceptWorker connectionFd ioLoop next hfront hnext hio =>
      refine .inr ⟨connectionFd, rfl, rfl, ?_⟩
      simp only [TcpServer.queueInLoop, TcpServer.inserted, Function.update_self]
      rfl
  | _ => exact .inl rfl

theorem DistinctFds.of_stepped (h : s.DistinctFds) (hinv : s.Inv) (hatt : s.Attended) {a : Action}
    (hunused : s.UnusedFd a) (hstep : Stepped s a t) : t.DistinctFds := by
  -- an owner of an earlier connection, and its descriptor, were there before
  have hold (c : Nat) (hc : c < s.made) (ho : t.HasOwner c) :
      s.HasOwner c ∧ (t.conn c).channel.fd = (s.conn c).channel.fd :=
    ⟨ho.of_stepped hinv hatt hstep hc, fd_of_stepped hstep hc⟩
  have holds (c : Nat) (hc : c < s.made) (c' : Nat) (hc' : c' < s.made) (ho : t.HasOwner c)
      (ho' : t.HasOwner c') (hfd : (t.conn c).channel.fd = (t.conn c').channel.fd) : c = c' := by
    obtain ⟨ho, heq⟩ := hold c hc ho
    obtain ⟨ho', heq'⟩ := hold c' hc' ho'
    exact h c hc c' hc' ho ho' (by rw [← heq, ← heq', hfd])
  rcases made_of_stepped hstep with hmade | ⟨connectionFd, rfl, hmade, hnew⟩
  · intro c hc c' hc'
    exact holds c (hmade ▸ hc) c' (hmade ▸ hc')
  · -- the new connection has a descriptor that no other has
    have hfresh (c : Nat) (hc : c < s.made) (ho : t.HasOwner c) :
        (t.conn c).channel.fd ≠ (t.conn s.made).channel.fd := by
      obtain ⟨ho, heq⟩ := hold c hc ho
      rw [heq, hnew]
      exact hunused c hc ho
    intro c hc c' hc' ho ho' hfd
    rw [hmade] at hc hc'
    rcases Nat.lt_succ_iff_lt_or_eq.mp hc with hc | rfl <;>
      rcases Nat.lt_succ_iff_lt_or_eq.mp hc' with hc' | rfl
    · exact holds c hc c' hc' ho ho' hfd
    · exact absurd hfd (hfresh c hc ho)
    · exact absurd hfd.symm (hfresh c' hc' ho')
    · rfl

end

/-! ## Runs -/

theorem attended_new (workers : Nat) : (new workers).Attended := by
  rintro l c (h | h | ⟨batch, revents, h, -⟩) <;> cases h

/-- **No channel outlives its connection.**  In every run of the server, in which connections
are called only from callbacks in the thread of their own loop, also if a connection is closed
twice, a channel that is in the interest list of an epoller,
or that is in a batch still to be dispatched, or whose events are being handled belongs to a
connection that something owns. -/
theorem channels_owned (workers : Nat) (as : List Action) (s : TcpServer)
    (h : run (liftAbort step) (.ok (new workers)) as = some (.ok s)) (c : Nat)
    (hc : (s.conn c).channel.inInterestList = true ∨ s.Reported c) : s.HasOwner c := by
  obtain ⟨hinv, hatt⟩ := run_ok_invariant (I := fun s ↦ s.Inv ∧ s.Attended)
    (fun s a t hs hstep ↦ ⟨hs.1.of_step hstep, hs.2.of_stepped hs.1 (stepped hs.1 hstep)⟩)
    ⟨inv_new workers, attended_new workers⟩ h
  exact hatt.hasOwner hinv hc

/-- A connection whose turn in the batch is still to come is closed and erased; the task
for `destroyed()` owns it. -/
theorem channels_owned_run :
    ∃ s, run (liftAbort step) (.ok (new 0)) [.wait 0 [.acceptor], .dispatch 0, .accept 7,
        .return 0, .accept 8, .return 0, .return 0, .swap 0, .finish 0,
        .wait 0 [.connection 0 EPOLLIN, .connection 1 EPOLLIN], .dispatch 0, .read 0 (.read [1]),
        .call 0 1 .forceClose, .return 0, .closeCallback 0] = some (.ok s) ∧
      1 ∉ s.connections ∧ s.HasOwner 1 := by
  obtain ⟨s, hrun, hs⟩ := exists_run_ok step (.ok (new 0)) [.wait 0 [.acceptor], .dispatch 0,
    .accept 7, .return 0, .accept 8, .return 0, .return 0, .swap 0, .finish 0,
    .wait 0 [.connection 0 EPOLLIN, .connection 1 EPOLLIN], .dispatch 0, .read 0 (.read [1]),
    .call 0 1 .forceClose, .return 0, .closeCallback 0]
    (fun s ↦ decide (1 ∉ s.connections ∧ s.place 0 = .dispatch [.connection 1 EPOLLIN]))
    (by decide +kernel)
  obtain ⟨hgone, hplace⟩ := of_decide_eq_true hs
  exact ⟨s, hrun, hgone, channels_owned 0 _ s hrun 1
    (.inr (.inr ⟨0, _, EPOLLIN, hplace, List.mem_singleton_self _⟩))⟩

/-- **Descriptors are not shared.**  In every run of the server in which `::accept4` returns
only descriptors that no connection in existence has, no two connections in existence have
the same descriptor. -/
theorem distinct_descriptors (workers : Nat) (as : List Action) (s : TcpServer)
    (hunused : AllSteps (liftAbort step) (WhileAlive UnusedFd) (.ok (new workers)) as)
    (h : run (liftAbort step) (.ok (new workers)) as = some (.ok s)) : s.DistinctFds := by
  have hkeep (s : TcpServer) (a : Action) (t : TcpServer)
      (hs : s.Inv ∧ s.Attended ∧ s.DistinctFds) (hunused : s.UnusedFd a)
      (hstep : s.step a = some (.ok t)) : t.Inv ∧ t.Attended ∧ t.DistinctFds := by
    obtain ⟨hinv, hatt, hdistinct⟩ := hs
    have hstepped := stepped hinv hstep
    exact ⟨hinv.of_step hstep, hatt.of_stepped hinv hstepped,
      hdistinct.of_stepped hinv hatt hunused hstepped⟩
  exact (run_ok_invariant_of_allSteps hkeep
    ⟨inv_new workers, attended_new workers, fun c hc ↦ by cases hc⟩ hunused h).2.2

/-- The descriptor of a connection that is gone is used again. -/
theorem distinct_descriptors_run :
    ∃ s, run (liftAbort step) (.ok (new 0)) [.wait 0 [.acceptor], .dispatch 0, .accept 7,
        .return 0, .accept 8, .return 0, .return 0, .swap 0, .finish 0,
        .wait 0 [.connection 0 EPOLLIN], .dispatch 0, .read 0 (.read []), .return 0,
        .closeCallback 0, .swap 0, .runTask 0, .finish 0, .wait 0 [.acceptor], .dispatch 0,
        .accept 7] = some (.ok s) ∧
      s.DistinctFds ∧ (s.conn 0).channel.fd = (s.conn 2).channel.fd := by
  obtain ⟨s, hrun, hs⟩ := exists_run_ok step (.ok (new 0)) [.wait 0 [.acceptor], .dispatch 0,
    .accept 7, .return 0, .accept 8, .return 0, .return 0, .swap 0, .finish 0,
    .wait 0 [.connection 0 EPOLLIN], .dispatch 0, .read 0 (.read []), .return 0,
    .closeCallback 0, .swap 0, .runTask 0, .finish 0, .wait 0 [.acceptor], .dispatch 0, .accept 7]
    (fun s ↦ decide ((s.conn 0).channel.fd = (s.conn 2).channel.fd)) (by decide +kernel)
  exact ⟨s, hrun, distinct_descriptors 0 _ s (by decide +kernel) hrun, of_decide_eq_true hs⟩

end Wuduo.TcpServer
