import Wuduo.TcpConnection
import Mathlib.Data.List.Chain

/-!
# What the functions of a connection do

One specification for each function of `TcpConnection`, in terms of an invariant
and of what the function adds to the output of the connection.

The invariant `Inv` ties the interest in writing to the pending output — while
the connection is open, one is there exactly when the other is — and says that a
connection is registered only between `established()` and `handle_close()`.
`Effect` is what all functions of the loop thread have in common; the runs of
one connection and the runs of a whole server are both argued from it.

None of the assertions of the buffer or of the epoller can fail in these
functions: each specification says that its function returns.
-/

namespace Wuduo.TcpConnection

/-! ## The invariant -/

/-- The bytes the connection has put in order for its peer: those the socket
accepted, then those still to be written. -/
def stream (c : TcpConnection) : Bytes := c.socket.written ++ c.outputBuffer.peek

/-- `state_` has never moved backwards. -/
def Forward (c : TcpConnection) : Prop :=
  (c.state :: c.past).IsChain fun later earlier ↦ earlier.rank ≤ later.rank

/-- What holds of a connection between two steps of its loop. -/
structure Inv (c : TcpConnection) : Prop where
  synced : c.channel.Synced
  /-- not registered before `established()` -/
  connecting : c.state = .kConnecting → c.channel.events = 0
  /-- pending output is being watched, and nothing else is -/
  watched : c.state ≠ .kDisconnected → (c.channel.isWriting = true ↔ c.outputBuffer.peek ≠ [])
  /-- not registered after `handle_close` -/
  closed : c.state = .kDisconnected → c.channel.events = 0

theorem inv_new (sockfd : Nat) : (new sockfd).Inv where
  synced := Channel.synced_new sockfd
  connecting _ := rfl
  watched _ := by simp [new, Channel.new, Channel.isWriting]
  closed h := by cases h

/-- `Effect c data c' cbs`: a function of the loop thread, started on `c`,
returned `c'` and invokes `cbs`, after putting `data` in line for the peer. -/
structure Effect (c : TcpConnection) (data : Bytes) (c' : TcpConnection)
    (cbs : List Callback) : Prop where
  inv : c'.Inv
  rank_le : c.state.rank ≤ c'.state.rank
  stream_eq : c'.state ≠ .kDisconnected → c'.stream = c.stream ++ data
  shutWr : c.socket.shutWr = true → c'.socket.shutWr = true
  forward : c.state ≠ .kDisconnected → c.Forward → c'.Forward
  callbacks : (cbs = [] ∨ cbs = [.message]) ∧
      (c'.state = .kDisconnected ↔ c.state = .kDisconnected) ∨
    cbs = [.connection, .close] ∧ c'.state = .kDisconnected

theorem Effect.refl {c : TcpConnection} (h : c.Inv) : Effect c [] c [] where
  inv := h
  rank_le := Nat.le_refl _
  stream_eq _ := (List.append_nil _).symm
  shutWr := id
  forward _ := id
  callbacks := .inl ⟨.inl rfl, Iff.rfl⟩

/-- No function of the loop thread makes an established connection new again. -/
theorem Effect.ne_kConnecting {c c' : TcpConnection} {data : Bytes} {cbs : List Callback}
    (h : Effect c data c' cbs) (hst : c.state ≠ .kConnecting) : c'.state ≠ .kConnecting := by
  intro hc
  have hrank := h.rank_le
  rw [hc] at hrank
  revert hrank hst
  cases c.state <;> simp [State.rank]

/-- `set_state` to a later state. -/
theorem Forward.setState {c : TcpConnection} {s : State} (h : c.Forward)
    (hs : c.state.rank ≤ s.rank) : (c.setState s).Forward :=
  List.isChain_cons_cons.mpr ⟨hs, h⟩

/-! ## Closing -/

/-- Leaving the interest list, for a channel that may have left it already. -/
theorem unregister_spec {ch : Channel} (h : ch.Synced) :
    ∃ ch', unregister ch = .ok ch' ∧ ch'.Synced ∧ ch'.events = 0 := by
  rw [unregister]
  cases he : ch.hasNoneEvents with
  | true => exact ⟨ch, rfl, h, by simpa [Channel.hasNoneEvents] using he⟩
  | false => exact Channel.disableAll_spec (by rw [h, he]; rfl)

/-- `handle_close` of an open connection leaves it disconnected and unregistered. -/
theorem handleClose_spec {c : TcpConnection} (hs : c.channel.Synced)
    (hopen : c.state = .kConnected ∨ c.state = .kDisconnecting) :
    ∃ c', c.handleClose = .ok (c', [.connection, .close]) ∧ c'.Inv ∧
      c'.state = .kDisconnected ∧ c'.past = c.state :: c.past ∧ c'.socket = c.socket := by
  obtain ⟨ch, hok, hsync, he⟩ := unregister_spec hs
  refine ⟨{ c.setState .kDisconnected with channel := ch }, ?_,
    ⟨hsync, fun h ↦ ?_, fun h ↦ absurd rfl h, fun _ ↦ he⟩, rfl, rfl, rfl⟩
  · simp only [handleClose, if_pos hopen, setState, hok, ok_bind, pure_eq_ok]
  · cases h

theorem Effect.of_handleClose {c₀ c : TcpConnection} (hs : c.channel.Synced)
    (hrank : c.state = .kConnected ∨ c.state = .kDisconnecting) (hsock : c.socket = c₀.socket)
    (hf : c₀.state ≠ .kDisconnected → c₀.Forward → c.Forward) :
    ∃ c' cbs, c.handleClose = .ok (c', cbs) ∧ Effect c₀ [] c' cbs := by
  obtain ⟨c', hok, hinv, hst, hpast, hsocket⟩ := handleClose_spec hs hrank
  refine ⟨c', _, hok, hinv, ?_, ?_, ?_, ?_, .inr ⟨rfl, hst⟩⟩
  · rw [hst]; cases c₀.state <;> decide
  · exact fun h ↦ absurd hst h
  · rw [hsocket, hsock]; exact id
  · intro hne h
    have := (hf hne h).setState (s := .kDisconnected) (by cases c.state <;> decide)
    rw [Forward, hst, hpast]
    exact this

/-! ## Sending -/

/-- `::write` accepts a prefix of what it is given. -/
theorem write_spec (s : Socket) (data : Bytes) (answer : WriteResult) :
    ((s.write data answer).1.getD 0) ≤ data.length ∧
      (s.write data answer).2 =
        { s with written := s.written ++ data.take ((s.write data answer).1.getD 0) } := by
  cases answer with
  | failed => exact ⟨Nat.zero_le _, by simp [Socket.write]⟩
  | wrote count => exact ⟨Nat.min_le_right _ _, rfl⟩

/-- Watching for room to write, on a channel that may be doing so already. -/
theorem watchWriting_spec {ch : Channel} (h : ch.Synced) :
    ∃ ch', watchWriting ch = .ok ch' ∧ ch'.Synced ∧ ch'.isWriting = true := by
  rw [watchWriting]
  cases hw : ch.isWriting with
  | true => exact ⟨ch, rfl, h, hw⟩
  | false => exact Channel.enableWriting_spec ch

/-- `send_in_loop` puts the message in line, in whatever parts the socket takes
it: directly when nothing is pending, behind what is pending otherwise. -/
theorem sendInLoop_spec {c : TcpConnection} (h : c.Inv) (hst : c.state ≠ .kConnecting)
    (data : Bytes) (answer : WriteResult) :
    ∃ c', c.sendInLoop data answer = .ok c' ∧ c'.Inv ∧ c'.state = c.state ∧ c'.past = c.past ∧
      (c.state ≠ .kDisconnected → c'.stream = c.stream ++ data) ∧
      c'.socket.shutWr = c.socket.shutWr := by
  rw [sendInLoop]
  by_cases hd : c.state = .kDisconnected
  · rw [if_pos hd]
    exact ⟨c, rfl, h, rfl, rfl, absurd hd, rfl⟩
  rw [if_neg hd]
  obtain ⟨wrote, socket, hsplit, hdirect⟩ : ∃ wrote socket,
      (if (!c.channel.isWriting && c.outputBuffer.readableBytes == 0) = true
        then c.socket.write data answer else (some 0, c.socket)) = (wrote, socket) ∧
      (socket = { c.socket with written := c.socket.written ++ data.take (wrote.getD 0) }) ∧
      (wrote.getD 0 ≤ data.length) ∧ (wrote.getD 0 ≠ 0 → c.outputBuffer.peek = []) := by
    split
    · rename_i hdir
      obtain ⟨hle, heq⟩ := write_spec c.socket data answer
      refine ⟨_, _, rfl, heq, hle, fun _ ↦ Buffer.peek_eq_nil_iff.mpr ?_⟩
      simpa using (Bool.and_eq_true_iff.mp hdir).2
    · exact ⟨_, _, rfl, by simp, Nat.zero_le _, fun h0 ↦ absurd rfl h0⟩
  obtain ⟨hsock, hle, hempty⟩ := hdirect
  -- what was written directly is in front of nothing
  have hfront : c.outputBuffer.peek ++ data =
      data.take (wrote.getD 0) ++ (c.outputBuffer.peek ++ data.drop (wrote.getD 0)) := by
    by_cases h0 : wrote.getD 0 = 0
    · rw [h0, List.take_zero, List.drop_zero, List.nil_append]
    · rw [hempty h0, List.nil_append, List.nil_append, List.take_append_drop]
  simp only [hsplit]
  by_cases hlt : wrote.getD 0 < data.length
  · obtain ⟨out, hout, hpeek⟩ := Buffer.append_spec c.outputBuffer (data.drop (wrote.getD 0))
    obtain ⟨ch, hch, hsync, hwr⟩ := watchWriting_spec h.synced
    refine ⟨{ c with socket, outputBuffer := out, channel := ch }, ?_, ⟨hsync, ?_, ?_, ?_⟩,
      rfl, rfl, fun _ ↦ ?_, by rw [hsock]⟩
    · simp only [if_pos hlt, hout, hch, ok_bind, pure_eq_ok]
    · exact fun hc ↦ absurd hc hst
    · intro _
      refine ⟨?_, fun _ ↦ hwr⟩
      intro _ hnil
      rw [hpeek] at hnil
      have := List.drop_eq_nil_iff.mp (List.append_eq_nil_iff.mp hnil).2
      omega
    · exact fun hc ↦ absurd hc hd
    · simp only [stream, hsock, hpeek, List.append_assoc, hfront]
  · refine ⟨{ c with socket }, ?_, ⟨h.synced, h.connecting, h.watched, h.closed⟩, rfl, rfl,
      fun _ ↦ ?_, by rw [hsock]⟩
    · simp only [if_neg hlt, pure_eq_ok]
    · have hall : data.drop (wrote.getD 0) = [] := List.drop_of_length_le (by omega)
      simp only [stream, hsock, List.append_assoc, hfront, hall, List.append_nil]

/-! ## Tasks -/

theorem Effect.of_sendInLoop {c : TcpConnection} (h : c.Inv) (hst : c.state ≠ .kConnecting)
    (data : Bytes) (answer : WriteResult) :
    ∃ c', c.sendInLoop data answer = .ok c' ∧ Effect c data c' [] := by
  obtain ⟨c', hok, hinv, hstate, hpast, hstream, hwr⟩ := sendInLoop_spec h hst data answer
  refine ⟨c', hok, hinv, Nat.le_of_eq (by rw [hstate]), ?_, by rw [hwr]; exact id, ?_,
    .inl ⟨.inl rfl, by rw [hstate]⟩⟩
  · rw [hstate]; exact hstream
  · intro _ hf
    rw [Forward, hstate, hpast]
    exact hf

/-- What a lambda puts in line for the peer. -/
def Task.message : Task → Bytes
  | .sendInLoop message => message
  | .shutdown | .forceClose => []

/-- Running a lambda in the loop thread. -/
theorem Task.run_spec {c : TcpConnection} (h : c.Inv) (hst : c.state ≠ .kConnecting)
    (task : Task) (answer : WriteResult) :
    ∃ c' cbs, task.run c answer = .ok (c', cbs) ∧ Effect c task.message c' cbs := by
  cases task with
  | sendInLoop message =>
      obtain ⟨c', hok, heff⟩ := Effect.of_sendInLoop h hst message answer
      refine ⟨c', [], ?_, heff⟩
      simp only [Task.run, hok, ok_bind, pure_eq_ok]
  | shutdown =>
      rw [Task.run]
      split
      · exact ⟨c, [], rfl, Effect.refl h⟩
      · exact ⟨_, [], rfl, ⟨h.synced, h.connecting, h.watched, h.closed⟩, Nat.le_refl _,
          fun _ ↦ (List.append_nil _).symm, fun _ ↦ rfl, fun _ ↦ id, .inl ⟨.inl rfl, Iff.rfl⟩⟩
  | forceClose =>
      rw [Task.run]
      split
      · rename_i hopen
        exact Effect.of_handleClose h.synced hopen rfl fun _ ↦ id
      · exact ⟨c, [], rfl, Effect.refl h⟩

/-! ## Calls from any thread -/

theorem eq_kDisconnected_of_rank {s : State} (h : State.rank .kDisconnected ≤ s.rank) :
    s = .kDisconnected := by
  cases s <;> first | rfl | exact absurd h (by decide)

/-- Two functions in a row, the first of which invokes nothing. -/
theorem Effect.trans {c c₁ c₂ : TcpConnection} {data₁ data₂ : Bytes} {cbs : List Callback}
    (h₁ : Effect c data₁ c₁ []) (h₂ : Effect c₁ data₂ c₂ cbs) :
    Effect c (data₁ ++ data₂) c₂ cbs := by
  have hopen : c₁.state = .kDisconnected ↔ c.state = .kDisconnected := by
    rcases h₁.callbacks with ⟨-, h⟩ | ⟨h, -⟩
    · exact h
    · cases h
  refine ⟨h₂.inv, Nat.le_trans h₁.rank_le h₂.rank_le, fun hst ↦ ?_,
    fun h ↦ h₂.shutWr (h₁.shutWr h), fun hst hf ↦ ?_, ?_⟩
  · have hst₁ : c₁.state ≠ .kDisconnected := fun h ↦
      hst (eq_kDisconnected_of_rank (h ▸ h₂.rank_le))
    rw [h₂.stream_eq hst, h₁.stream_eq hst₁, List.append_assoc]
  · exact h₂.forward (fun h ↦ hst (hopen.mp h)) (h₁.forward hst hf)
  · rw [← hopen]; exact h₂.callbacks

/-- Moving an open connection on to `kDisconnecting`. -/
theorem Effect.of_setState {c : TcpConnection} (h : c.Inv)
    (hopen : c.state = .kConnected ∨ c.state = .kDisconnecting) :
    Effect c [] (c.setState .kDisconnecting) [] := by
  have hne : c.state ≠ .kDisconnected := by rcases hopen with h | h <;> simp [h]
  have hrank : c.state.rank ≤ State.rank .kDisconnecting := by
    rcases hopen with h | h <;> simp [h, State.rank]
  exact {
    inv := ⟨h.synced, fun hc ↦ (by cases hc), fun _ ↦ h.watched hne, fun hc ↦ (by cases hc)⟩
    rank_le := hrank
    stream_eq := fun _ ↦ (List.append_nil _).symm
    shutWr := id
    forward := fun _ hf ↦ hf.setState hrank
    callbacks := .inl ⟨.inl rfl, fun hc ↦ (by cases hc), fun hc ↦ absurd hc hne⟩ }

/-- The part of `send` that runs in the calling thread.  A lambda is handed on only
by a connection that is connected. -/
theorem send_spec {c : TcpConnection} (h : c.Inv) (data : Bytes) :
    Effect c [] c [] ∧ (c.send data ≠ none → c.state ≠ .kConnecting) := by
  refine ⟨Effect.refl h, ?_⟩
  intro htask hst
  rw [send, if_pos (by simp [hst])] at htask
  exact htask rfl

/-- The part of `shutdown()` that runs in the calling thread. -/
theorem shutdown_spec {c : TcpConnection} (h : c.Inv) :
    Effect c [] c.shutdown.1 [] ∧ (c.shutdown.2 ≠ none → c.shutdown.1.state ≠ .kConnecting) := by
  rw [shutdown]
  split
  · rename_i hst
    exact ⟨Effect.of_setState h (.inl hst), fun _ ↦ by simp [setState]⟩
  · exact ⟨Effect.refl h, fun h ↦ absurd rfl h⟩

/-- The part of `force_close()` that runs in the calling thread. -/
theorem forceClose_spec {c : TcpConnection} (h : c.Inv) :
    Effect c [] c.forceClose.1 [] ∧
      (c.forceClose.2 ≠ none → c.forceClose.1.state ≠ .kConnecting) := by
  rw [forceClose]
  split
  · rename_i hst
    exact ⟨Effect.of_setState h hst, fun _ ↦ by simp [setState]⟩
  · exact ⟨Effect.refl h, fun h ↦ absurd rfl h⟩

/-- `force_close` does nothing to a connection that is not open. -/
theorem forceClose_of_ne {c : TcpConnection}
    (hst : ¬ (c.state = .kConnected ∨ c.state = .kDisconnecting)) : c.forceClose = (c, none) :=
  if_neg hst

/-- A lambda handed to `run_in_loop` by the loop thread itself. -/
theorem runInLoop_spec {c c₁ : TcpConnection} {task : Option Task} (h : Effect c [] c₁ [])
    (htask : task ≠ none → c₁.state ≠ .kConnecting) (answer : WriteResult) :
    ∃ c' cbs, runInLoop answer (c₁, task) = .ok (c', cbs) ∧
      Effect c (task.elim [] Task.message) c' cbs := by
  cases task with
  | none => exact ⟨c₁, [], rfl, h⟩
  | some task =>
      obtain ⟨c', cbs, hok, heff⟩ := task.run_spec h.inv (htask (by simp)) answer
      exact ⟨c', cbs, hok, h.trans heff⟩

/-! ## Events -/

theorem Inv.setInBuffer {c : TcpConnection} (h : c.Inv) (inBuffer : Buffer) :
    Inv { c with inBuffer } := ⟨h.synced, h.connecting, h.watched, h.closed⟩

/-- The input buffer is a matter of the user. -/
theorem Effect.setInBuffer {c : TcpConnection} (h : c.Inv) (inBuffer : Buffer) :
    Effect c [] { c with inBuffer } [] where
  inv := h.setInBuffer inBuffer
  rank_le := Nat.le_refl _
  stream_eq _ := (List.append_nil _).symm
  shutWr := id
  forward _ := id
  callbacks := .inl ⟨.inl rfl, Iff.rfl⟩

/-- `handle_read`, whatever the socket delivers. -/
theorem handleRead_spec {c : TcpConnection} (h : c.Inv) (answer : ReadResult) :
    ∃ c' cbs, c.handleRead answer = .ok (c', cbs) ∧ Effect c [] c' cbs := by
  cases answer with
  | failed errno =>
      simp only [handleRead, Buffer.readFd, ok_bind]
      rw [if_neg (by decide), if_neg (by decide)]
      split
      · obtain ⟨heff, htask⟩ := forceClose_spec h
        obtain ⟨c', cbs, hok, heff'⟩ := runInLoop_spec heff htask .failed
        refine ⟨c', cbs, hok, ?_⟩
        have : c.forceClose.2.elim [] Task.message = [] := by
          rw [forceClose]; split <;> rfl
        rwa [this] at heff'
      · exact ⟨c, [], rfl, Effect.refl h⟩
  | read data =>
      obtain ⟨b, hok, -⟩ := Buffer.readFd_read_spec c.inBuffer data
      simp only [handleRead, hok, ok_bind]
      by_cases hpos : 0 < data.length
      · rw [if_pos (by omega)]
        exact ⟨_, [.message], rfl, h.setInBuffer b, Nat.le_refl _,
          fun _ ↦ (List.append_nil _).symm, id, fun _ ↦ id, .inl ⟨.inr rfl, Iff.rfl⟩⟩
      · rw [if_neg (by omega), if_pos (by omega)]
        refine Effect.of_handleClose (h.setInBuffer b).synced (.inr rfl) rfl ?_
        intro hne hf
        refine Forward.setState (c := { c with inBuffer := b }) hf ?_
        revert hne
        cases c.state <;> simp [State.rank]

/-- A read that does not fail delivers a message or closes the connection. -/
theorem callbacks_of_handleRead_read {c c' : TcpConnection} (hs : c.channel.Synced) {data : Bytes}
    {cbs : List Callback} (h : c.handleRead (.read data) = .ok (c', cbs)) :
    cbs = [.message] ∨ cbs = [.connection, .close] := by
  obtain ⟨b, hok, -⟩ := Buffer.readFd_read_spec c.inBuffer data
  simp only [handleRead, hok, ok_bind] at h
  split at h
  · cases h
    exact .inl rfl
  · obtain ⟨c'', hclose, -⟩ := handleClose_spec
      (c := TcpConnection.setState { c with inBuffer := b } .kDisconnecting) hs (.inr rfl)
    rw [if_pos (by omega), hclose] at h
    cases h
    exact .inr rfl

/-- A read that fails does nothing to a connection that is not open. -/
theorem handleRead_failed_of_ne {c : TcpConnection}
    (hst : ¬ (c.state = .kConnected ∨ c.state = .kDisconnecting)) (errno : Nat) :
    c.handleRead (.failed errno) = .ok (c, []) := by
  simp only [handleRead, Buffer.readFd, ok_bind]
  rw [if_neg (by decide), if_neg (by decide), handleError, forceClose_of_ne hst]
  split <;> rfl

/-- Clearing the interest in writing once everything is written. -/
theorem unwatchWriting_spec {ch : Channel} (h : ch.Synced) (hw : ch.isWriting = true)
    (out : Buffer) :
    ∃ ch', unwatchWriting ch out = .ok ch' ∧ ch'.Synced ∧
      (ch'.isWriting = true ↔ out.peek ≠ []) := by
  rw [unwatchWriting]
  by_cases h0 : out.readableBytes = 0
  · obtain ⟨ch', hok, hsync, hw'⟩ := Channel.disableWriting_spec (h.listed_of_isWriting hw)
    exact ⟨ch', by rw [if_pos h0, hok], hsync, by simp [hw', Buffer.peek_eq_nil_iff.mpr h0]⟩
  · exact ⟨ch, by rw [if_neg h0], h, by simp [hw, h0]⟩

/-- `handle_write` moves pending bytes to the socket and touches nothing else:
the request for a shutdown it repeats at the end is refused, because the state
it tests for is no longer the one `shutdown()` asks for. -/
theorem handleWrite_spec {c : TcpConnection} (h : c.Inv) (answer : WriteResult) :
    ∃ c', c.handleWrite answer = .ok (c', []) ∧ Effect c [] c' [] ∧
      c'.state = c.state ∧ c'.past = c.past ∧ c'.socket.shutWr = c.socket.shutWr := by
  have hsame : Effect c [] c [] := Effect.refl h
  rw [handleWrite]
  cases hw : c.channel.isWriting with
  | false => exact ⟨c, rfl, hsame, rfl, rfl, rfl⟩
  | true =>
      have hst : c.state ≠ .kDisconnected := fun hd ↦ by
        rw [Channel.isWriting_of_events_eq_zero (h.closed hd)] at hw
        cases hw
      obtain ⟨hle, hsock⟩ := write_spec c.socket c.outputBuffer.peek answer
      rw [if_pos rfl]
      rcases hres : c.socket.write c.outputBuffer.peek answer with ⟨_ | n, socket⟩
      · exact ⟨c, rfl, hsame, rfl, rfl, rfl⟩
      rw [hres] at hle hsock
      simp only [Option.getD_some] at hle hsock
      simp only
      by_cases hn : n > 0
      · have hn_le : n ≤ c.outputBuffer.readableBytes := by rwa [← Buffer.length_peek]
        obtain ⟨out, hout, hpeek⟩ := Buffer.retrieve_spec hn_le
        obtain ⟨ch, hch, hsync, hwatch⟩ := unwatchWriting_spec h.synced hw out
        refine ⟨{ c with socket, outputBuffer := out, channel := ch }, ?_, ?_, rfl, rfl,
          by rw [hsock]⟩
        · simp only [if_pos hn, hout, hch, ok_bind]
          split
          · rename_i hdis
            simp only [shutdown, hdis, runInLoop]
            rfl
          · rfl
        · refine ⟨⟨hsync, fun hc ↦ ?_, fun _ ↦ hwatch, fun hc ↦ absurd hc hst⟩, Nat.le_refl _,
            fun _ ↦ ?_, by rw [hsock]; exact id, fun _ ↦ id, .inl ⟨.inl rfl, Iff.rfl⟩⟩
          · rw [Channel.isWriting_of_events_eq_zero (h.connecting hc)] at hw
            cases hw
          · simp only [stream, hsock, hpeek, List.append_assoc, List.take_append_drop,
              List.append_nil]
      · exact ⟨c, by rw [if_neg hn]; rfl, hsame, rfl, rfl, rfl⟩

/-- `handle_write` does nothing to a connection that is closed. -/
theorem handleWrite_of_closed {c : TcpConnection} (h : c.Inv) (hst : c.state = .kDisconnected)
    (answer : WriteResult) : c.handleWrite answer = .ok (c, []) := by
  rw [handleWrite, Channel.isWriting_of_events_eq_zero (h.closed hst)]
  rfl

/-! ## The beginning and the end -/

/-- `established()` connects a connection that was just made. -/
theorem established_spec {c : TcpConnection} (h : c.Inv) (hst : c.state = .kConnecting) :
    ∃ c', c.established = .ok (c', [.connection]) ∧ c'.Inv ∧ c'.state = .kConnected ∧
      c'.past = c.state :: c.past ∧ c'.stream = c.stream ∧ c'.socket = c.socket := by
  obtain ⟨ch, hok, hsync, hw⟩ := Channel.enableReading_spec c.channel
  refine ⟨{ c.setState .kConnected with channel := ch }, ?_,
    ⟨hsync, fun hc ↦ (by cases hc), fun _ ↦ ?_, fun hc ↦ (by cases hc)⟩, rfl, rfl, rfl, rfl⟩
  · simp only [established, if_pos hst, setState, hok, ok_bind, pure_eq_ok]
  · rw [hw]
    exact h.watched (by rw [hst]; simp)

/-- `destroyed()` does nothing to a connection that was closed before. -/
theorem destroyed_of_ne {c : TcpConnection} (hst : c.state ≠ .kConnected) :
    c.destroyed = .ok (c, []) := if_neg hst

/-! ## What is not undone

`set_state` of another thread can come in at any time, even behind
`handle_close`, and then the invariant no longer holds.  What follows holds
whatever the connection is like. -/

/-- The connection has been disconnected, whatever `state_` says now. -/
def HasClosed (c : TcpConnection) : Prop := .kDisconnected ∈ c.state :: c.past

instance (c : TcpConnection) : Decidable c.HasClosed := inferInstanceAs (Decidable (_ ∈ _))

theorem hasClosed_of_state {c : TcpConnection} (h : c.state = .kDisconnected) : c.HasClosed := by
  rw [HasClosed, h]
  exact List.mem_cons_self

/-- A connection that has been disconnected is not taken for a connected one. -/
def Settled (c : TcpConnection) : Prop :=
  c.HasClosed → c.state = .kDisconnecting ∨ c.state = .kDisconnected

theorem settled_new (sockfd : Nat) : (new sockfd).Settled := by
  intro h
  simp [HasClosed, new] at h

/-- What no function of a connection undoes. -/
structure Onward (c c' : TcpConnection) : Prop where
  hasClosed : c.HasClosed → c'.HasClosed
  settled : c.Settled → c'.Settled
  started : c.state ≠ .kConnecting → c'.state ≠ .kConnecting

theorem Onward.refl (c : TcpConnection) : Onward c c := ⟨id, id, id⟩

theorem Onward.trans {c₁ c₂ c₃ : TcpConnection} (h : Onward c₁ c₂) (h' : Onward c₂ c₃) :
    Onward c₁ c₃ :=
  ⟨fun hc ↦ h'.hasClosed (h.hasClosed hc), fun hs ↦ h'.settled (h.settled hs),
    fun hst ↦ h'.started (h.started hst)⟩

/-- What has the same state, now and before. -/
theorem Onward.of_eq {c c' : TcpConnection} (hst : c'.state = c.state) (hpast : c'.past = c.past) :
    Onward c c' := by
  refine ⟨?_, ?_, ?_⟩
  · rw [HasClosed, HasClosed, hst, hpast]
    exact id
  · rw [Settled, Settled, HasClosed, HasClosed, hst, hpast]
    exact id
  · rw [hst]
    exact id

/-- `set_state(kDisconnecting)` and `set_state(kDisconnected)`. -/
theorem onward_setState (c : TcpConnection) {s : State}
    (hs : s = .kDisconnecting ∨ s = .kDisconnected) : Onward c (c.setState s) := by
  refine ⟨fun h ↦ List.mem_cons_of_mem _ h, fun _ _ ↦ hs, fun _ ↦ ?_⟩
  rcases hs with rfl | rfl <;> simp [setState]

/-- A function that goes on and does not shut the socket down for writing. -/
def OnwardOpen (c c' : TcpConnection) : Prop :=
  Onward c c' ∧ c'.socket.shutWr = c.socket.shutWr

theorem OnwardOpen.refl (c : TcpConnection) : OnwardOpen c c := ⟨Onward.refl c, rfl⟩

theorem OnwardOpen.trans {c₁ c₂ c₃ : TcpConnection} (h : OnwardOpen c₁ c₂)
    (h' : OnwardOpen c₂ c₃) : OnwardOpen c₁ c₃ := ⟨h.1.trans h'.1, h'.2.trans h.2⟩

theorem OnwardOpen.of_eq {c c' : TcpConnection} (hst : c'.state = c.state)
    (hpast : c'.past = c.past) (hwr : c'.socket.shutWr = c.socket.shutWr) : OnwardOpen c c' :=
  ⟨Onward.of_eq hst hpast, hwr⟩

theorem onwardOpen_setState (c : TcpConnection) {s : State}
    (hs : s = .kDisconnecting ∨ s = .kDisconnected) : OnwardOpen c (c.setState s) :=
  ⟨onward_setState c hs, rfl⟩

@[simp] theorem shutWr_write (s : Socket) (data : Bytes) (answer : WriteResult) :
    (s.write data answer).2.shutWr = s.shutWr := by
  rw [(write_spec s data answer).2]

theorem onward_sendInLoop {c c' : TcpConnection} {data : Bytes} {answer : WriteResult}
    (h : c.sendInLoop data answer = .ok c') : OnwardOpen c c' := by
  rw [sendInLoop] at h
  split at h
  · cases h
    exact OnwardOpen.refl c
  · simp only at h
    obtain ⟨r, hr, hwr⟩ : ∃ r,
        (if (!c.channel.isWriting && c.outputBuffer.readableBytes == 0) = true
          then c.socket.write data answer else (some 0, c.socket)) = r ∧
        r.2.shutWr = c.socket.shutWr := by
      refine ⟨_, rfl, ?_⟩
      split
      · exact shutWr_write _ _ _
      · rfl
    rw [hr] at h
    split at h
    · obtain ⟨out, -, h⟩ := bind_eq_ok.mp h
      obtain ⟨ch, -, h⟩ := bind_eq_ok.mp h
      cases h
      exact OnwardOpen.of_eq rfl rfl hwr
    · cases h
      exact OnwardOpen.of_eq rfl rfl hwr

theorem onward_handleClose {c c' : TcpConnection} {cbs : List Callback}
    (h : c.handleClose = .ok (c', cbs)) : OnwardOpen c c' := by
  rw [handleClose] at h
  split at h
  · obtain ⟨ch, -, h⟩ := bind_eq_ok.mp h
    cases h
    exact (onwardOpen_setState c (.inr rfl)).trans (OnwardOpen.of_eq rfl rfl rfl)
  · cases h

theorem onward_established {c c' : TcpConnection} {cbs : List Callback}
    (h : c.established = .ok (c', cbs)) : OnwardOpen c c' := by
  rw [established] at h
  split at h
  · rename_i hst
    obtain ⟨ch, -, h⟩ := bind_eq_ok.mp h
    cases h
    refine ⟨⟨fun hc ↦ List.mem_cons_of_mem _ hc, ?_, fun _ hc ↦ (by cases hc)⟩, rfl⟩
    -- a connection that is connecting has not been disconnected
    intro hs hc
    rcases hs ((List.mem_cons.mp hc).resolve_left (by simp [setState])) with h | h
    · rw [hst] at h
      cases h
    · rw [hst] at h
      cases h
  · cases h

theorem onward_destroyed {c c' : TcpConnection} {cbs : List Callback}
    (h : c.destroyed = .ok (c', cbs)) : OnwardOpen c c' ∧ (c' = c ∨ c'.HasClosed) := by
  rw [destroyed] at h
  split at h
  · obtain ⟨ch, -, h⟩ := bind_eq_ok.mp h
    cases h
    exact ⟨(onwardOpen_setState c (.inr rfl)).trans (OnwardOpen.of_eq rfl rfl rfl),
      .inr List.mem_cons_self⟩
  · cases h
    exact ⟨OnwardOpen.refl c, .inl rfl⟩

/-- The lambda of `shutdown()` is the one that shuts the socket down, if the
connection is not watching for room to write. -/
theorem Task.onward {c c' : TcpConnection} {task : Task} {answer : WriteResult}
    {cbs : List Callback} (h : task.run c answer = .ok (c', cbs)) :
    Onward c c' ∧ ((task = .shutdown → c.channel.isWriting = true) →
      c'.socket.shutWr = c.socket.shutWr) := by
  cases task with
  | sendInLoop message =>
      obtain ⟨c₁, hsend, heq⟩ := bind_eq_ok.mp h
      cases heq
      exact (onward_sendInLoop hsend).imp_right fun hwr _ ↦ hwr
  | shutdown =>
      rw [Task.run] at h
      split at h
      · cases h
        exact ⟨Onward.refl c, fun _ ↦ rfl⟩
      · rename_i hw
        cases h
        exact ⟨Onward.of_eq rfl rfl, fun hwr ↦ absurd (hwr rfl) hw⟩
  | forceClose =>
      rw [Task.run] at h
      split at h
      · exact (onward_handleClose h).imp_right fun hwr _ ↦ hwr
      · cases h
        exact ⟨Onward.refl c, fun _ ↦ rfl⟩

theorem onward_runInLoop {c₁ c' : TcpConnection} {task : Option Task} {answer : WriteResult}
    {cbs : List Callback} (h : runInLoop answer (c₁, task) = .ok (c', cbs)) :
    Onward c₁ c' ∧ ((task = some .shutdown → c₁.channel.isWriting = true) →
      c'.socket.shutWr = c₁.socket.shutWr) := by
  cases task with
  | none =>
      cases h
      exact ⟨Onward.refl c₁, fun _ ↦ rfl⟩
  | some task =>
      obtain ⟨hon, hwr⟩ := Task.onward h
      exact ⟨hon, fun ht ↦ hwr fun heq ↦ ht (congrArg some heq)⟩

theorem onward_shutdown (c : TcpConnection) : OnwardOpen c c.shutdown.1 := by
  rw [shutdown]
  split
  · exact onwardOpen_setState c (.inl rfl)
  · exact OnwardOpen.refl c

theorem onward_forceClose (c : TcpConnection) : OnwardOpen c c.forceClose.1 := by
  rw [forceClose]
  split
  · exact onwardOpen_setState c (.inl rfl)
  · exact OnwardOpen.refl c

theorem onward_handleError {c c' : TcpConnection} {cbs : List Callback}
    (h : c.handleError = .ok (c', cbs)) : OnwardOpen c c' := by
  have hno : c.forceClose.2 ≠ some .shutdown := by
    rw [forceClose]
    split <;> simp
  obtain ⟨hon, hwr⟩ := onward_runInLoop h
  exact (onward_forceClose c).trans ⟨hon, hwr fun ht ↦ absurd ht hno⟩

theorem onward_handleRead {c c' : TcpConnection} {answer : ReadResult} {cbs : List Callback}
    (h : c.handleRead answer = .ok (c', cbs)) : OnwardOpen c c' := by
  obtain ⟨⟨numRead, inBuffer⟩, -, h⟩ := bind_eq_ok.mp h
  have hin : OnwardOpen c { c with inBuffer } := OnwardOpen.of_eq rfl rfl rfl
  simp only at h
  split at h
  · cases h
    exact hin
  · split at h
    · exact (hin.trans (onwardOpen_setState _ (.inl rfl))).trans (onward_handleClose h)
    · split at h
      · split at h
        · exact hin.trans (onward_handleError h)
        · cases h
          exact hin
      · cases h
        exact hin

theorem onward_handleWrite {c c' : TcpConnection} {answer : WriteResult} {cbs : List Callback}
    (h : c.handleWrite answer = .ok (c', cbs)) : OnwardOpen c c' := by
  rw [handleWrite] at h
  split at h
  · have hwr := shutWr_write c.socket c.outputBuffer.peek answer
    split at h
    · cases h
      exact OnwardOpen.refl c
    · rename_i numWrote socket hres
      rw [hres] at hwr
      split at h
      · obtain ⟨out, -, h⟩ := bind_eq_ok.mp h
        obtain ⟨ch, -, h⟩ := bind_eq_ok.mp h
        simp only at h
        split at h
        · -- `shutdown()` refuses, the state being `kDisconnecting`
          rename_i hst
          rw [shutdown, if_neg (by simp [hst])] at h
          cases h
          exact OnwardOpen.of_eq rfl rfl hwr
        · cases h
          exact OnwardOpen.of_eq rfl rfl hwr
      · cases h
        exact OnwardOpen.refl c
  · cases h
    exact OnwardOpen.refl c

end Wuduo.TcpConnection
