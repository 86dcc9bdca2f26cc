import Wuduo.TcpServer.Counting
import Mathlib.Logic.Relation

/-!
# The invariant of the server

What holds between any two steps of the server: the ledger of every connection is
balanced (`Inv.balanced`), and the queues, the frames and the history are in order
(`Tidy`).

A step is put together from pieces, and so is the argument that it keeps the
invariant: what each piece does to `Tidy` is said here, and a step that has kept it
has only to say which moves it takes the ledgers through (`Follows`).
-/

namespace Wuduo.TcpServer

open Lanes Relation

/-- The loop a task is queued on. -/
def loopOfTask (s : TcpServer) : Task → Nat
  | .established c | .destroyed c => s.loopOf c
  | .removeConnection _ => 0

/-- Events of the connection are still to be handled. -/
def Reported (s : TcpServer) (c : Nat) : Prop :=
  (∃ l, (l, .read c) ∈ s.frames ∨ (l, .write c) ∈ s.frames) ∨
    ∃ l batch revents, s.place l = .dispatch batch ∧ .connection c revents ∈ batch

/-- The part of the invariant that is not about ledgers. -/
structure Tidy (s : TcpServer) : Prop where
  conn : ∀ c, (s.conn c).Inv
  /-- only connections that were established are reported -/
  reported : ∀ c, s.Reported c → (s.conn c).state ≠ .kConnecting
  tasks : ∀ l task, (l, task) ∈ s.queue → l = s.loopOfTask task
  /-- `destroyed()` runs on the connection's loop and after the erase -/
  destroyed : ∀ c l older, (c, .destroyed l) :: older <:+ s.log →
    l = s.loopOf c ∧ (c, .erased) ∈ older

structure Inv (s : TcpServer) : Prop extends Tidy s where
  balanced : ∀ c, (s.ledger c).Balanced

theorem inv_new (workers : Nat) : (new workers).Inv where
  conn _ := TcpConnection.inv_new 0
  reported c h := by
    rcases h with ⟨l, h | h⟩ | ⟨l, batch, revents, h, -⟩ <;> cases h
  tasks l task h := by cases h
  destroyed c l older h := by simp [new] at h
  balanced c := by
    constructor <;> simp [ledger, new, tasks, records, TcpConnection.new]

/-- A step takes the ledger of each connection through some moves. -/
structure Follows (s : TcpServer) (clean : Prop) (t : TcpServer) : Prop where
  tidy : t.Tidy
  moves : ∀ c, ReflTransGen (Ledger.Move clean) (s.ledger c) (t.ledger c)

theorem balanced_of_moves {clean : Prop} {k k' : Ledger} (h : k.Balanced)
    (hmoves : ReflTransGen (Ledger.Move clean) k k') : k'.Balanced := by
  induction hmoves with
  | refl => exact h
  | tail _ hmove ih => exact ih.move hmove

theorem Inv.follows {s t : TcpServer} {clean : Prop} (h : s.Inv) (ht : s.Follows clean t) :
    t.Inv := ⟨ht.tidy, fun c ↦ balanced_of_moves (h.balanced c) (ht.moves c)⟩

/-! ## The pieces of a step -/

/-- The latest of these records is older than those made since. -/
theorem cons_suffix_of_append {α : Type*} {e : α} {older log new : List α}
    (h : e :: older <:+ new ++ log) (he : e ∉ new) : e :: older <:+ log := by
  induction new with
  | nil => exact h
  | cons x new ih =>
      rcases List.suffix_cons_iff.mp h with h | h
      · cases h
        exact absurd List.mem_cons_self he
      · exact ih h fun hmem ↦ he (List.mem_cons_of_mem _ hmem)

/-- What becomes less stays tidy. -/
theorem Tidy.of_subset {s t : TcpServer} (h : s.Tidy) (hconn : t.conn = s.conn)
    (hloop : t.loopOf = s.loopOf) (hlog : t.log = s.log) (hqueue : ∀ e ∈ t.queue, e ∈ s.queue)
    (hreported : ∀ c, t.Reported c → s.Reported c) : t.Tidy where
  conn := hconn ▸ h.conn
  reported c hc := by rw [hconn]; exact h.reported c (hreported c hc)
  tasks l task hmem := by
    have := h.tasks l task (hqueue _ hmem)
    cases task <;> simpa only [loopOfTask, hloop] using this
  destroyed c l older hsuf := by
    rw [hloop]
    exact h.destroyed c l older (hlog ▸ hsuf)

theorem Tidy.pop {s : TcpServer} (h : s.Tidy) (l : Nat) : (s.pop l).Tidy := by
  refine h.of_subset rfl rfl rfl (fun e ↦ id) ?_
  intro c hc
  rcases hc with ⟨l', hc | hc⟩ | hc
  · exact .inl ⟨l', .inl (mem_of_mem_removeFront hc)⟩
  · exact .inl ⟨l', .inr (mem_of_mem_removeFront hc)⟩
  · exact .inr hc

/-- A thread goes on to a place at which fewer events are still to be handled. -/
theorem Reported.of_place {s t : TcpServer} {l c : Nat} {place : Place} (hc : t.Reported c)
    (hframes : t.frames = s.frames) (hplace : t.place = Function.update s.place l place)
    (hless : ∀ batch, place = .dispatch batch →
      ∃ batch', s.place l = .dispatch batch' ∧ ∀ e ∈ batch, e ∈ batch') : s.Reported c := by
  rcases hc with hc | ⟨l', batch, revents, hc, hmem⟩
  · exact .inl (hframes ▸ hc)
  · rw [hplace, Function.update_apply] at hc
    split at hc
    · obtain ⟨batch', hbatch', hsub⟩ := hless batch hc
      exact .inr ⟨l, batch', revents, hbatch', hsub _ hmem⟩
    · exact .inr ⟨l', batch, revents, hc, hmem⟩

/-- The callbacks of a connection leave no events to be handled. -/
theorem not_mem_callbacks {l l' c x : Nat} {cbs : List TcpConnection.Callback} :
    (l', .read x) ∉ cbs.map (fun cb ↦ (l, frameOf c cb)) ∧
      (l', .write x) ∉ cbs.map (fun cb ↦ (l, frameOf c cb)) := by
  constructor
  all_goals
    intro hmem
    obtain ⟨cb, -, heq⟩ := List.mem_map.mp hmem
    cases cb <;> cases heq

theorem Tidy.acted {s : TcpServer} (h : s.Tidy) {l c : Nat} {conn : TcpConnection}
    {cbs : List TcpConnection.Callback} (hconn : conn.Inv)
    (hst : (s.conn c).state ≠ .kConnecting → conn.state ≠ .kConnecting) :
    (s.acted l c conn cbs).Tidy where
  conn x := by
    by_cases hx : x = c
    · subst hx
      simpa [TcpServer.acted] using hconn
    · simpa [TcpServer.acted, Function.update_of_ne hx] using h.conn x
  reported x hx := by
    have hx' : s.Reported x := by
      rcases hx with ⟨l', hx | hx⟩ | hx
      · exact .inl ⟨l', .inl ((List.mem_append.mp hx).resolve_left not_mem_callbacks.1)⟩
      · exact .inl ⟨l', .inr ((List.mem_append.mp hx).resolve_left not_mem_callbacks.2)⟩
      · exact .inr hx
    by_cases hxc : x = c
    · subst hxc
      simpa [TcpServer.acted] using hst (h.reported x hx')
    · simpa [TcpServer.acted, Function.update_of_ne hxc] using h.reported x hx'
  tasks := h.tasks
  destroyed x l' older hsuf := by
    apply h.destroyed x l' older
    apply cons_suffix_of_append hsuf
    intro hmem
    obtain ⟨cb, -, heq⟩ := List.mem_map.mp hmem
    cases cb <;> cases heq

theorem Tidy.take {s : TcpServer} (h : s.Tidy) (l n : Nat) : (s.take l n).Tidy :=
  h.of_subset rfl rfl rfl (fun _ ↦ mem_of_mem_removeFront)
    fun _ hc ↦ hc.of_place rfl rfl fun _ h ↦ (by cases h)

theorem Tidy.queueInLoop {s : TcpServer} (h : s.Tidy) {l : Nat} {task : Task}
    (hl : l = s.loopOfTask task) : (s.queueInLoop l task).Tidy where
  conn := h.conn
  reported := h.reported
  tasks l' task' hmem := by
    rcases List.mem_append.mp hmem with hmem | hmem
    · exact h.tasks l' task' hmem
    · cases List.mem_singleton.mp hmem
      exact hl
  destroyed := h.destroyed

theorem Tidy.record {s : TcpServer} (h : s.Tidy) (c : Nat) (what : Happening)
    (hwhat : ∀ l, what = .destroyed l → l = s.loopOf c ∧ (c, .erased) ∈ s.log) :
    (s.record c what).Tidy where
  conn := h.conn
  reported := h.reported
  tasks := h.tasks
  destroyed x l older hsuf := by
    rcases List.suffix_cons_iff.mp hsuf with hsuf | hsuf
    · cases hsuf
      exact hwhat l rfl
    · exact h.destroyed x l older hsuf

theorem Ledger.after_established {k : Ledger} {conn : TcpConnection}
    (hst : conn.state = .kConnected) (hpast : conn.past = k.state :: k.past) :
    k.after conn [.connection] = { k with state := .kConnected, past := k.state :: k.past } := by
  ext <;> simp [Ledger.after, hst, hpast]

section

variable {s s₁ : TcpServer} {clean : Prop} {l c : Nat}

/-- A step that is about one connection. -/
theorem Tidy.follows (h : s₁.Tidy) (c : Nat)
    (hself : ReflTransGen (Ledger.Move clean) (s.ledger c) (s₁.ledger c))
    (hother : ∀ x, x ≠ c → s₁.ledger x = s.ledger x) : s.Follows clean s₁ where
  tidy := h
  moves x := by
    by_cases hx : x = c
    · rw [hx]
      exact hself
    · rw [hother x hx]

/-- A function that does something to an established connection, run in a state
that differs only in what the thread still has to do. -/
theorem Inv.follows_acted (h : s.Inv) (htidy : s₁.Tidy) (hledger : ∀ x, s₁.ledger x = s.ledger x)
    {c' : TcpConnection} {data : Bytes} {cbs : List TcpConnection.Callback}
    (heff : TcpConnection.Effect (s.conn c) data c' cbs)
    (hst : (s.conn c).state ≠ .kConnecting) (hclean : clean → (s.conn c).state ≠ .kDisconnected) :
    s.Follows clean (s₁.acted l c c' cbs) := by
  have hmade : (s.ledger c).made = true := by
    by_contra hm
    exact hst ((h.balanced c).unmade (Bool.eq_false_iff.mpr hm)).1
  have hfun : (s.ledger c).Function c' cbs :=
    ⟨iff_of_false (heff.ne_kConnecting hst) hst, heff.callbacks, heff.forward⟩
  apply (htidy.acted heff.inv fun _ ↦ heff.ne_kConnecting hst).follows c
  · rw [ledger_acted_self, hledger]
    exact .single (.after hmade hfun fun hcl hd ↦ absurd hd (hclean hcl))
  · intro x hx
    rw [ledger_acted_of_ne _ _ _ _ hx, hledger]

/-- A function that does nothing to its connection. -/
theorem Tidy.follows_acted_nil (h : s₁.Tidy) (hledger : ∀ x, s₁.ledger x = s.ledger x) :
    s.Follows clean (s₁.acted l c (s₁.conn c) []) where
  tidy := h.acted (h.conn c) id
  moves x := by rw [ledger_acted_nil, hledger]

/-- A step after which no connection looks different. -/
theorem Tidy.follows_refl (h : s₁.Tidy) (hledger : ∀ x, s₁.ledger x = s.ledger x) :
    s.Follows clean s₁ where
  tidy := h
  moves x := by rw [hledger]

end

end Wuduo.TcpServer
