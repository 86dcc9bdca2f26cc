import Wuduo.Buffer.ByteQueue

/-!
# The size of a buffer

A buffer that never holds more than `R` bytes, and to which never more than `C` are
appended at a time, does not grow beyond `R + C + 7`, however many bytes pass
through it (`length_storage_le`).

`make_space` grows the storage only if the free bytes at both ends, less the
`kCheapPrepend` that stay reserved, are fewer than those asked for.  At that moment
the reader index is therefore below `count + kCheapPrepend`, and what is behind it
is what will be readable.  The bound is reached: `length_storage_le_run`.
-/

namespace Wuduo.Buffer

open Region Transition

/-- `b'` has the size of `b`, or its storage exceeds the readable bytes by less than
`count + kCheapPrepend`. -/
def SizeWithin (count : Nat) (b b' : Buffer) : Prop :=
  b'.storage.length = b.storage.length ∨
    b'.storage.length < b'.readableBytes + count + kCheapPrepend

/-! ## One operation -/

theorem readableBytes_of_peek {b b' : Buffer} {data : Bytes} (h : b'.peek = b.peek ++ data) :
    b'.readableBytes = b.readableBytes + data.length := by
  rw [← length_peek, h, List.length_append, length_peek]

theorem retrieve_length {b b' : Buffer} {count : Nat} (h : b.retrieve count = .ok b') :
    b'.storage.length = b.storage.length := by
  unfold retrieve at h
  split at h
  · split at h <;> cases h <;> rfl
  · cases h

theorem unwrite_length {b b' : Buffer} {count : Nat} (h : b.unwrite count = .ok b') :
    b'.storage.length = b.storage.length := by
  unfold unwrite at h
  split at h <;> cases h
  rfl

theorem hasWritten_length {b b' : Buffer} {count : Nat} (h : b.hasWritten count = .ok b') :
    b'.storage.length = b.storage.length := by
  unfold hasWritten at h
  split at h <;> cases h
  rfl

theorem prepend_length {b b' : Buffer} {data : Bytes} (h : b.prepend data = .ok b') :
    b'.storage.length = b.storage.length := by
  unfold prepend at h
  split at h <;> cases h
  exact length_overwrite _ _ _

/-- Room for `count` bytes is made with `count` bytes to spare: they are not readable
yet. -/
theorem ensureWritableBytes_size {b b' : Buffer} {count : Nat}
    (h : b.ensureWritableBytes count = .ok b') : SizeWithin (count + count) b b' := by
  have hr := b.reader_le_writer
  unfold ensureWritableBytes at h
  by_cases hc : b.writableBytes < count
  · simp only [dif_pos hc, if_pos (makeSpace_spec hc).2] at h
    cases h
    unfold makeSpace
    split
    · -- the reader index is below what was asked for
      rename_i hgrow
      right
      simp only [length_resize, readableBytes]
      unfold prependableBytes at hgrow
      omega
    · left
      simp only [length_copyForward]
  · simp only [dif_neg hc, if_pos (Nat.le_of_not_lt hc)] at h
    cases h
    exact .inl rfl

theorem append_size {b b' : Buffer} {data : Bytes} (h : b.append data = .ok b') :
    SizeWithin data.length b b' := by
  obtain ⟨b₁, h₁, -, hroom⟩ := ensureWritableBytes_spec b data.length
  obtain ⟨b₂, h₂, hpeek, hsize, -⟩ := fill_hasWritten_spec hroom
  rw [append, h₁] at h
  obtain rfl : b₂ = b' := Except.ok.inj (h₂.symm.trans h)
  unfold SizeWithin
  rw [readableBytes_of_peek hpeek, hsize]
  rcases ensureWritableBytes_size h₁ with hsame | hgrown
  · exact .inl hsame
  · right
    omega

/-- Only the bytes that do not fit ask for room. -/
theorem readFd_size {b b' : Buffer} {data : Bytes} {n : Int}
    (h : b.readFd (.read data) = .ok (n, b')) :
    SizeWithin (data.length - b.writableBytes) b b' := by
  simp only [readFd] at h
  split at h
  · rename_i hfits
    obtain ⟨b₁, h₁, -, hsize, -⟩ := fill_hasWritten_spec hfits
    rw [List.take_of_length_le hfits, h₁] at h
    cases h
    exact .inl hsize
  · rename_i hover
    have htake : (data.take b.writableBytes).length = b.writableBytes :=
      List.length_take_of_le (Nat.le_of_not_le hover)
    obtain ⟨b₁, h₁, -, hsize₁, -⟩ := fill_hasWritten_spec (Nat.le_of_eq htake)
    obtain ⟨b₂, h₂, -⟩ := append_spec b₁ (data.drop b.writableBytes)
    rw [htake] at h₁
    rw [h₁] at h
    simp only [ok_bind, h₂] at h
    cases h
    have hsize := append_size h₂
    unfold SizeWithin at hsize ⊢
    rwa [hsize₁, List.length_drop] at hsize

/-! ## Calls -/

/-- What a call on the first buffer of a pair leaves behind, if it returns. -/
def Call.returns (bs : Buffer × Buffer) (c : Call) : Option (Buffer × Buffer) :=
  ((c.exec bs).map Prod.snd).toOption

/-- The call appends no more than `C` bytes at a time.  A caller of
`ensure_writable_bytes` may ask for room that it never uses, and `swap` brings in
another storage: neither is among the calls by which bytes pass through a buffer. -/
def Call.Appends (C : Nat) (bs : Buffer × Buffer) : Call → Prop
  | .append data => data.length ≤ C
  | .readFd (.read data) => data.length - bs.1.writableBytes ≤ C
  | .ensureWritableBytes _ | .swap => False
  | _ => True

instance (C : Nat) (bs : Buffer × Buffer) (c : Call) : Decidable (c.Appends C bs) :=
  match c with
  | .append data => Nat.decLe data.length C
  | .readFd (.read data) => Nat.decLe (data.length - bs.1.writableBytes) C
  | .ensureWritableBytes _ | .swap => .isFalse id
  | .prepend _ | .retrieve _ | .retrieveAll | .retrieveAllAsString | .unwrite _ | .write _
  | .readFd (.failed _) | .shrinkToFit => .isTrue trivial

theorem SizeWithin.mono {b b' : Buffer} {m n : Nat} (h : SizeWithin m b b') (hmn : m ≤ n) :
    SizeWithin n b b' := by
  rcases h with hsame | hless
  · exact .inl hsame
  · exact .inr (by omega)

theorem returns_size {c : Call} {bs bs' : Buffer × Buffer} {C : Nat}
    (hC : c.Appends C bs) (h : c.returns bs = some bs') : SizeWithin C bs.1 bs'.1 := by
  obtain ⟨b, other⟩ := bs
  -- most calls act on the first buffer alone, and return nothing
  have key : ∀ {r : Except NoReturn Buffer},
      ((r.map fun b ↦ (Result.void, b, other)).map Prod.snd).toOption = some bs' →
      r = .ok bs'.1 := by
    rintro (e | b') h
    · cases h
    · cases h
      rfl
  cases c with
  | append data => exact (append_size (key h)).mono hC
  | prepend data => exact .inl (prepend_length (key h))
  | retrieve count => exact .inl (retrieve_length (key h))
  | retrieveAll => cases h; exact .inl rfl
  | retrieveAllAsString => cases h; exact .inl rfl
  | unwrite count => exact .inl (unwrite_length (key h))
  | ensureWritableBytes count => exact absurd hC id
  | write data => exact .inl ((hasWritten_length (key h)).trans (length_overwrite _ _ _))
  | readFd answer =>
      cases answer with
      | failed errno => cases h; exact .inl rfl
      | read data =>
          obtain ⟨b', hread, -⟩ := readFd_read_spec b data
          rw [Call.returns, Call.exec, hread] at h
          cases h
          exact (readFd_size hread).mono hC
  | shrinkToFit => cases h; exact .inl rfl
  | swap => exact absurd hC id

/-! ## Sequences of calls -/

/-- **The storage is bounded by what it holds.**  If a buffer of initial size `size` never
holds more than `R` bytes and never more than `C` are appended to it at a time, its
storage stays within its first size and `R + C + 7`. -/
theorem length_storage_le (size C R : Nat) (other : Buffer) (calls : List Call)
    (bs : Buffer × Buffer)
    (hC : AllSteps Call.returns (fun bs c ↦ c.Appends C bs) (ofSize size, other) calls)
    (hR : Visits Call.returns (fun bs ↦ bs.1.readableBytes ≤ R) (ofSize size, other) calls)
    (h : run Call.returns (ofSize size, other) calls = some bs) :
    bs.1.storage.length ≤ max (kCheapPrepend + size) (R + C + 7) := by
  refine run_invariant_of_allSteps
    (I := fun bs ↦ bs.1.storage.length ≤ max (kCheapPrepend + size) (R + C + 7)) ?_ ?_
    (hC.and hR.allSteps) h
  · rintro bs c bs' hle ⟨hc, -, hreadable⟩ hstep
    have hR' := hreadable bs' hstep
    rcases returns_size hc hstep with hsame | hless
    · rwa [hsame]
    · refine le_max_of_le_right ?_
      unfold kCheapPrepend at hless
      omega
  · refine le_max_of_le_left (Nat.le_of_eq ?_)
    exact List.length_replicate

/-- Four bytes at most are held, and three at most are appended. -/
theorem length_storage_le_run :
    ∃ bs, run Call.returns (ofSize 0, ofSize 0) [.append [1, 2, 3], .retrieve 2,
        .append [4, 5, 6]] = some bs ∧ bs.1.storage.length = 4 + 3 + 7 ∧
      bs.1.storage.length ≤ max (kCheapPrepend + 0) (4 + 3 + 7) :=
  ⟨_, rfl, rfl, length_storage_le 0 3 4 (ofSize 0) [.append [1, 2, 3], .retrieve 2,
    .append [4, 5, 6]] _ (by decide) (by decide) rfl⟩

end Wuduo.Buffer
