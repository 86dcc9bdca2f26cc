import Wuduo.Basic
import Wuduo.Lib.Region

/-!
# `wuduo::Buffer`

The model of `buffer.h` and `buffer.cpp`: a storage area with a reader and a
writer index, between which the readable bytes lie.

The type carries the class invariant, so a buffer whose indices are out of order
or whose storage is shorter than `kCheapPrepend` cannot be built; every
operation below discharges it.  The operations that assert something return
`Except`, the failing assertion being the error.

Indices and counts are natural numbers.  In the code they are `size_t`, and the
two agree as long as `writer_index_ + count` and `count + kCheapPrepend` do not
exceed its range, which no buffer that fits in memory does.
-/

namespace Wuduo

open Region

/-- `Buffer::kCheapPrepend`, the room kept free before the readable bytes. -/
def kCheapPrepend : Nat := 8

/-- `Buffer::kInitialSize`. -/
def kInitialSize : Nat := 1024

/-- The size of `extrabuf` in `Buffer::read_fd`. -/
def kExtraBuf : Nat := 65535

/-- `Buffer`, with its class invariant. -/
structure Buffer where
  /-- `buffer_` -/
  storage : Bytes
  /-- `reader_index_` -/
  readerIndex : Nat
  /-- `writer_index_` -/
  writerIndex : Nat
  reader_le_writer : readerIndex ≤ writerIndex
  writer_le_size : writerIndex ≤ storage.length
  cheap_le_size : kCheapPrepend ≤ storage.length
deriving DecidableEq, Repr

/-- What `::readv` answers: `-1` with an `errno`, or the bytes it delivered. -/
inductive ReadResult where
  | failed (errno : Nat)
  | read (data : Bytes)
deriving DecidableEq, Repr

namespace Buffer

/-- The constructor. -/
def ofSize (initialSize : Nat) : Buffer where
  storage := List.replicate (kCheapPrepend + initialSize) 0
  readerIndex := kCheapPrepend
  writerIndex := kCheapPrepend
  reader_le_writer := Nat.le_refl _
  writer_le_size := by rw [List.length_replicate]; omega
  cheap_le_size := by rw [List.length_replicate]; omega

def readableBytes (b : Buffer) : Nat := b.writerIndex - b.readerIndex

def writableBytes (b : Buffer) : Nat := b.storage.length - b.writerIndex

def prependableBytes (b : Buffer) : Nat := b.readerIndex

/-- The readable bytes: `readable_bytes()` bytes from `peek()` on. -/
def peek (b : Buffer) : Bytes := window b.storage b.readerIndex b.readableBytes

def retrieveAll (b : Buffer) : Buffer :=
  { b with
    readerIndex := kCheapPrepend
    writerIndex := kCheapPrepend
    reader_le_writer := Nat.le_refl _
    writer_le_size := b.cheap_le_size }

def retrieve (b : Buffer) (count : Nat) : Except NoReturn Buffer :=
  if h : count ≤ b.readableBytes then
    if count = b.readableBytes then
      .ok b.retrieveAll
    else
      .ok { b with
        readerIndex := b.readerIndex + count
        reader_le_writer := by
          have := b.reader_le_writer
          unfold readableBytes at h
          omega }
  else .error (.assertion .retrieve)

def retrieveAllAsString (b : Buffer) : Bytes × Buffer := (b.peek, b.retrieveAll)

/-- Writing `data` from `begin_write()` on, as `std::copy_n` or `::readv` do. -/
def fill (b : Buffer) (data : Bytes) : Buffer :=
  { b with
    storage := overwrite b.storage b.writerIndex data
    writer_le_size := by rw [length_overwrite]; exact b.writer_le_size
    cheap_le_size := by rw [length_overwrite]; exact b.cheap_le_size }

def hasWritten (b : Buffer) (count : Nat) : Except NoReturn Buffer :=
  if h : count ≤ b.writableBytes then
    .ok { b with
      writerIndex := b.writerIndex + count
      reader_le_writer := Nat.le_add_right_of_le b.reader_le_writer
      writer_le_size := by
        have := b.writer_le_size
        unfold writableBytes at h
        omega }
  else .error (.assertion .hasWritten)

def unwrite (b : Buffer) (count : Nat) : Except NoReturn Buffer :=
  if h : count ≤ b.readableBytes then
    .ok { b with
      writerIndex := b.writerIndex - count
      reader_le_writer := by
        have := b.reader_le_writer
        unfold readableBytes at h
        omega
      writer_le_size := Nat.sub_le_of_le_add (Nat.le_add_right_of_le b.writer_le_size) }
  else .error (.assertion .unwrite)

def prepend (b : Buffer) (data : Bytes) : Except NoReturn Buffer :=
  if data.length ≤ b.prependableBytes then
    .ok { b with
      readerIndex := b.readerIndex - data.length
      storage := overwrite b.storage (b.readerIndex - data.length) data
      reader_le_writer := Nat.sub_le_of_le_add (Nat.le_add_right_of_le b.reader_le_writer)
      writer_le_size := by rw [length_overwrite]; exact b.writer_le_size
      cheap_le_size := by rw [length_overwrite]; exact b.cheap_le_size }
  else .error (.assertion .prepend)

/-- `make_space`, which `ensure_writable_bytes` calls only when the writable
bytes do not suffice.  In the second branch the contents are shifted down in
place. -/
def makeSpace (b : Buffer) (count : Nat) (hc : b.writableBytes < count) : Buffer :=
  if h : b.writableBytes + b.prependableBytes < count + kCheapPrepend then
    { b with
      storage := resize b.storage (b.writerIndex + count) 0
      writer_le_size := by rw [length_resize]; omega
      cheap_le_size := by
        have := b.writer_le_size
        have := b.cheap_le_size
        unfold writableBytes at hc
        rw [length_resize]
        omega }
  else
    { storage := copyForward b.readableBytes b.storage b.readerIndex kCheapPrepend
      readerIndex := kCheapPrepend
      writerIndex := kCheapPrepend + b.readableBytes
      reader_le_writer := Nat.le_add_right _ _
      writer_le_size := by
        have := b.reader_le_writer
        have := b.writer_le_size
        unfold writableBytes prependableBytes at h
        rw [length_copyForward]
        unfold readableBytes
        omega
      cheap_le_size := by rw [length_copyForward]; exact b.cheap_le_size }

def ensureWritableBytes (b : Buffer) (count : Nat) : Except NoReturn Buffer :=
  let b' := if h : b.writableBytes < count then b.makeSpace count h else b
  if count ≤ b'.writableBytes then .ok b' else .error (.assertion .ensureWritableBytes)

def append (b : Buffer) (data : Bytes) : Except NoReturn Buffer := do
  let b ← b.ensureWritableBytes data.length
  (b.fill data).hasWritten data.length

/-- `shrink_to_fit` asks `std::string` to give up spare capacity, which is not
part of its value. -/
def shrinkToFit (b : Buffer) : Buffer := b

/-- `read_fd`, given the answer of `::readv`: the first `writable_bytes()` bytes
are delivered behind the writer index, the rest into `extrabuf`.  The first
component is the value returned. -/
def readFd (b : Buffer) : ReadResult → Except NoReturn (Int × Buffer)
  | .failed _ => .ok (-1, b)
  | .read data => do
      let writable := b.writableBytes
      let extrabuf := data.drop writable
      let b := b.fill (data.take writable)
      if data.length ≤ writable then
        let b ← b.hasWritten data.length
        return (data.length, b)
      else
        let b ← b.hasWritten writable
        let b ← b.append extrabuf
        return (data.length, b)

/-! ## Sizes -/

@[simp] theorem length_peek (b : Buffer) : b.peek.length = b.readableBytes :=
  length_window (by have := b.reader_le_writer; have := b.writer_le_size
                    unfold readableBytes; omega)

@[simp] theorem peek_eq_nil_iff {b : Buffer} : b.peek = [] ↔ b.readableBytes = 0 := by
  rw [← b.length_peek, List.length_eq_zero_iff]

/-! ## What each operation does to the readable bytes -/

@[simp] theorem peek_ofSize (n : Nat) : (ofSize n).peek = [] := by
  simp [peek, readableBytes, ofSize]

@[simp] theorem peek_retrieveAll (b : Buffer) : b.retrieveAll.peek = [] := by
  simp [peek, readableBytes, retrieveAll]

/-- `retrieve` drops bytes at the front. -/
theorem retrieve_spec {b : Buffer} {count : Nat} (h : count ≤ b.readableBytes) :
    ∃ b', b.retrieve count = .ok b' ∧ b'.peek = b.peek.drop count := by
  rw [retrieve, dif_pos h]
  split
  · refine ⟨_, rfl, ?_⟩
    rw [peek_retrieveAll, List.drop_of_length_le (by rw [length_peek]; omega)]
  · refine ⟨_, rfl, ?_⟩
    simp only [peek, readableBytes, drop_window, Nat.sub_sub]

/-- A `retrieve` that returns was asked for no more than there is. -/
theorem readableBytes_of_retrieve {b b' : Buffer} {count : Nat} (h : b.retrieve count = .ok b') :
    count ≤ b.readableBytes ∧ b'.readableBytes = b.readableBytes - count := by
  by_cases hle : count ≤ b.readableBytes
  · obtain ⟨b'', hok, hpeek⟩ := retrieve_spec hle
    rw [hok] at h
    cases h
    refine ⟨hle, ?_⟩
    rw [← length_peek, hpeek, List.length_drop, length_peek]
  · rw [retrieve, dif_neg hle] at h
    cases h

/-- A run of bytes written behind the writer index and then accounted for is
appended. -/
theorem fill_hasWritten_spec {b : Buffer} {data : Bytes} (h : data.length ≤ b.writableBytes) :
    ∃ b', (b.fill data).hasWritten data.length = .ok b' ∧ b'.peek = b.peek ++ data ∧
      b'.storage.length = b.storage.length ∧ b'.writerIndex = b.writerIndex + data.length := by
  have hfill : data.length ≤ (b.fill data).writableBytes := by
    simpa only [writableBytes, fill, length_overwrite] using h
  rw [hasWritten, dif_pos hfill]
  refine ⟨_, rfl, ?_, by simp only [fill, length_overwrite], rfl⟩
  have hr := b.reader_le_writer
  have hw := b.writer_le_size
  unfold writableBytes at h
  exact window_overwrite_behind hr (by omega)

/-- `unwrite` drops bytes at the end. -/
theorem unwrite_spec {b : Buffer} {count : Nat} (h : count ≤ b.readableBytes) :
    ∃ b', b.unwrite count = .ok b' ∧ b'.peek = b.peek.take (b.readableBytes - count) := by
  rw [unwrite, dif_pos h]
  refine ⟨_, rfl, ?_⟩
  simp only [peek, readableBytes, take_window _ (Nat.sub_le _ _)]
  rw [Nat.sub_right_comm]

/-- `prepend` adds bytes at the front. -/
theorem prepend_spec {b : Buffer} {data : Bytes} (h : data.length ≤ b.prependableBytes) :
    ∃ b', b.prepend data = .ok b' ∧ b'.peek = data ++ b.peek := by
  rw [prepend, if_pos h]
  exact ⟨_, rfl, window_overwrite_before h b.reader_le_writer b.writer_le_size⟩

/-- `make_space` leaves the readable bytes alone and makes the room asked for.

The shift is sound because it is taken only when the reader index is beyond
`kCheapPrepend`: the writable bytes alone are fewer than `count`, and together
with the bytes before the reader index they are at least `count` more than
`kCheapPrepend`. -/
theorem makeSpace_spec {b : Buffer} {count : Nat} (hc : b.writableBytes < count) :
    (b.makeSpace count hc).peek = b.peek ∧ count ≤ (b.makeSpace count hc).writableBytes := by
  have hr := b.reader_le_writer
  have hw := b.writer_le_size
  have hs := b.cheap_le_size
  unfold writableBytes at hc
  unfold makeSpace
  split
  · simp only [peek, readableBytes, writableBytes, length_resize]
    exact ⟨window_resize 0 (by omega) (by omega), by omega⟩
  · rename_i h
    unfold writableBytes prependableBytes at h
    have hdown : kCheapPrepend ≤ b.readerIndex := by omega
    constructor
    · simp only [peek, readableBytes, Nat.add_sub_cancel_left]
      exact window_copyForward hdown (by omega)
    · simp only [writableBytes, length_copyForward, readableBytes]
      omega

/-- `ensure_writable_bytes` never fails, changes no readable byte and makes the
room asked for. -/
theorem ensureWritableBytes_spec (b : Buffer) (count : Nat) :
    ∃ b', b.ensureWritableBytes count = .ok b' ∧ b'.peek = b.peek ∧ count ≤ b'.writableBytes := by
  rw [ensureWritableBytes]
  by_cases hc : b.writableBytes < count
  · obtain ⟨hpeek, hroom⟩ := makeSpace_spec hc
    simp only [dif_pos hc, if_pos hroom]
    exact ⟨_, rfl, hpeek, hroom⟩
  · simp only [dif_neg hc, if_pos (Nat.le_of_not_lt hc)]
    exact ⟨b, rfl, rfl, Nat.le_of_not_lt hc⟩

/-- `append` never fails and adds bytes at the end. -/
theorem append_spec (b : Buffer) (data : Bytes) :
    ∃ b', b.append data = .ok b' ∧ b'.peek = b.peek ++ data := by
  obtain ⟨b₁, h₁, hpeek, hroom⟩ := ensureWritableBytes_spec b data.length
  obtain ⟨b₂, h₂, hfill, -⟩ := fill_hasWritten_spec hroom
  refine ⟨b₂, ?_, by rw [hfill, hpeek]⟩
  rw [append, h₁]
  exact h₂

/-- A successful `read_fd` adds the bytes delivered at the end, in order,
wherever they were delivered. -/
theorem readFd_read_spec (b : Buffer) (data : Bytes) :
    ∃ b', b.readFd (.read data) = .ok (data.length, b') ∧ b'.peek = b.peek ++ data := by
  simp only [readFd]
  split
  · rename_i h
    obtain ⟨b', hok, hpeek, -⟩ := fill_hasWritten_spec h
    refine ⟨b', ?_, hpeek⟩
    rw [List.take_of_length_le h, hok]
    rfl
  · rename_i h
    have htake : (data.take b.writableBytes).length = b.writableBytes :=
      List.length_take_of_le (Nat.le_of_not_le h)
    obtain ⟨b₁, h₁, hpeek₁, -⟩ := fill_hasWritten_spec (Nat.le_of_eq htake)
    obtain ⟨b₂, h₂, hpeek₂⟩ := append_spec b₁ (data.drop b.writableBytes)
    refine ⟨b₂, ?_, by rw [hpeek₂, hpeek₁, List.append_assoc, List.take_append_drop]⟩
    rw [htake] at h₁
    rw [h₁]
    simp only [ok_bind, h₂]
    rfl

end Buffer

end Wuduo
