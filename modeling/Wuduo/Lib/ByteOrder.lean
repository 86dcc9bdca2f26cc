import Mathlib.Algebra.Group.Nat.Defs
import Mathlib.Data.List.Basic

/-!
# Byte orders

A number of `w` bytes lies in memory with its least significant byte first, or last,
as the machine has it.  A conversion to the big-endian order yields the number whose
bytes in this machine's memory are those of the given one, the most significant
first; so it is told from its bytes in memory (`memory_toBig`), and undone by the
conversion back (`ofBig_toBig`).

Bytes that are in the big-endian order already must not be converted again: on a
little-endian machine that reverses them (`memory_toBig_value`).
-/

/-- The order in which a machine stores the bytes of a number. -/
inductive ByteOrder where
  | little
  | big
deriving DecidableEq, Repr

namespace ByteOrder

/-- The `w` lowest digits to the base 256, the least significant first. -/
def digits : Nat → Nat → List UInt8
  | 0, _ => []
  | w + 1, n => n.toUInt8 :: digits w (n / 256)

/-- The number with these digits. -/
def ofDigits : List UInt8 → Nat
  | [] => 0
  | b :: bs => b.toNat + 256 * ofDigits bs

/-- From the order of the digits to that in memory, and back. -/
def arrange : ByteOrder → List UInt8 → List UInt8
  | .little, bs => bs
  | .big, bs => bs.reverse

/-- The bytes in memory of a number of `w` bytes. -/
def memory (o : ByteOrder) (w n : Nat) : List UInt8 := o.arrange (digits w n)

/-- The number that lies in memory as these bytes. -/
def value (o : ByteOrder) (bs : List UInt8) : Nat := ofDigits (o.arrange bs)

/-- The conversion of a number of `w` bytes to the big-endian order. -/
def toBig (o : ByteOrder) (w n : Nat) : Nat := o.value (big.memory w n)

/-- The conversion of a number of `w` bytes from the big-endian order. -/
def ofBig (o : ByteOrder) (w n : Nat) : Nat := big.value (o.memory w n)

@[simp] theorem length_digits (w n : Nat) : (digits w n).length = w := by
  induction w generalizing n with
  | zero => rfl
  | succ w ih => rw [digits, List.length_cons, ih]

@[simp] theorem digits_ofDigits (bs : List UInt8) : digits bs.length (ofDigits bs) = bs := by
  induction bs with
  | nil => rfl
  | cons b bs ih =>
      have hb : b.toNat < 256 := b.toNat_lt
      have hlow : (b.toNat + 256 * ofDigits bs).toUInt8 = b := by
        rw [← UInt8.toNat_inj, UInt8.toNat_ofNat', Nat.add_mul_mod_self_left,
          Nat.mod_eq_of_lt hb]
      have hhigh : (b.toNat + 256 * ofDigits bs) / 256 = ofDigits bs := by omega
      rw [List.length_cons, ofDigits, digits, hlow, hhigh, ih]

theorem ofDigits_digits {w n : Nat} (h : n < 256 ^ w) : ofDigits (digits w n) = n := by
  induction w generalizing n with
  | zero =>
      rw [Nat.pow_zero, Nat.lt_one_iff] at h
      rw [h]
      rfl
  | succ w ih =>
      have hhigh : n / 256 < 256 ^ w := Nat.div_lt_of_lt_mul (by rwa [← Nat.pow_succ'])
      rw [digits, ofDigits, ih hhigh, UInt8.toNat_ofNat']
      exact Nat.mod_add_div n 256

theorem ofDigits_lt (bs : List UInt8) : ofDigits bs < 256 ^ bs.length := by
  induction bs with
  | nil => exact Nat.one_pos
  | cons b bs ih =>
      have hb : b.toNat < 256 := b.toNat_lt
      rw [ofDigits, List.length_cons, Nat.pow_succ']
      omega

@[simp] theorem arrange_arrange (o : ByteOrder) (bs : List UInt8) :
    o.arrange (o.arrange bs) = bs := by
  cases o with
  | little => rfl
  | big => exact List.reverse_reverse bs

@[simp] theorem length_arrange (o : ByteOrder) (bs : List UInt8) :
    (o.arrange bs).length = bs.length := by
  cases o with
  | little => rfl
  | big => exact List.length_reverse

@[simp] theorem length_memory (o : ByteOrder) (w n : Nat) : (o.memory w n).length = w := by
  rw [memory, length_arrange, length_digits]

theorem value_memory (o : ByteOrder) {w n : Nat} (h : n < 256 ^ w) :
    o.value (o.memory w n) = n := by
  rw [value, memory, arrange_arrange, ofDigits_digits h]

@[simp] theorem memory_value (o : ByteOrder) (bs : List UInt8) :
    o.memory bs.length (o.value bs) = bs := by
  rw [memory, value, ← o.length_arrange bs, digits_ofDigits, arrange_arrange]

theorem value_lt (o : ByteOrder) (bs : List UInt8) : o.value bs < 256 ^ bs.length := by
  rw [value, ← o.length_arrange bs]
  exact ofDigits_lt _

theorem toBig_lt (o : ByteOrder) (w n : Nat) : o.toBig w n < 256 ^ w := by
  have h := o.value_lt (big.memory w n)
  rwa [length_memory] at h

/-- A converted number has the bytes of the given one in memory, the most significant
first. -/
@[simp] theorem memory_toBig (o : ByteOrder) (w n : Nat) :
    o.memory w (o.toBig w n) = big.memory w n := by
  have h := o.memory_value (big.memory w n)
  rwa [length_memory] at h

theorem ofBig_toBig (o : ByteOrder) {w n : Nat} (h : n < 256 ^ w) :
    o.ofBig w (o.toBig w n) = n := by
  rw [ofBig, memory_toBig, value_memory _ h]

/-- Bytes that are converted although they are in the big-endian order already. -/
theorem memory_toBig_value (o : ByteOrder) (bs : List UInt8) :
    o.memory bs.length (o.toBig bs.length (o.value bs)) =
      match o with
      | .little => bs.reverse
      | .big => bs := by
  rw [memory_toBig]
  cases o with
  | little => exact congrArg List.reverse (little.memory_value bs)
  | big => exact big.memory_value bs

end ByteOrder
