import Mathlib.Data.List.TakeWhile
import Wuduo.Basic
import Wuduo.Lib.ByteOrder

/-!
# `wuduo::InetAddress`

The model of `inet_address.cpp`, on a machine of either byte order: the constructors
from a port and from a port and a text, `port()` and `ip()`.

`inet_pton` writes the four numbers of the text to memory one after the other, and
`inet_ntop` reads them so: they are in network byte order.  The constructor converts
what `inet_pton` wrote once more, so on a little-endian machine the numbers are stored
the wrong way round, and `ip()` returns them so.  The other constructor, whose constants
are in the order of the host, converts once and is right.

The text is a `std::string_view`, of which `inet_pton` is handed the pointer only: it
reads on, behind the view, up to the first NUL.  `roundTrip_iff` says which texts come
back for both of these reasons.

The part of `sockaddr_in` that is only ever zero is left out.
-/

namespace Wuduo

/-- `sockaddr_in` -/
structure SockaddrIn where
  /-- `sin_family` -/
  sinFamily : UInt16
  /-- `sin_port` -/
  sinPort : UInt16
  /-- `sin_addr.s_addr` -/
  sAddr : UInt32
deriving DecidableEq, Repr

def AF_INET : UInt16 := 2

def INADDR_ANY : UInt32 := 0

def INADDR_LOOPBACK : UInt32 := 0x7f000001

def INET_ADDRSTRLEN : Nat := 16

/-! ## The system's conversions -/

def htobe16 (host : ByteOrder) (x : UInt16) : UInt16 := (host.toBig 2 x.toNat).toUInt16

def htobe32 (host : ByteOrder) (x : UInt32) : UInt32 := (host.toBig 4 x.toNat).toUInt32

def be16toh (host : ByteOrder) (x : UInt16) : UInt16 := (host.ofBig 2 x.toNat).toUInt16

/-- The text of an address: its numbers, with dots between them. -/
def dotted (octets : List UInt8) : Bytes := [46].intercalate (octets.map fun o ↦ decimal o.toNat)

/-- A number between dots: digits without a leading zero, up to 255. -/
def readOctet (text : Bytes) : Option UInt8 :=
  let value := text.foldl (fun n d ↦ 10 * n + (d.toNat - 48)) 0
  if text ≠ [] ∧ text.all (fun b ↦ 48 ≤ b && b ≤ 57) ∧ (text.head? = some 48 → text.length = 1) ∧
      value ≤ 255 then
    some value.toUInt8
  else none

/-- `inet_pton`: the bytes it writes, if it accepts the text. -/
def inetPton (text : Bytes) : Option (List UInt8) := do
  let octets ← (text.splitOn 46).mapM readOctet
  if octets.length = 4 then some octets else none

/-- `inet_ntop`: the text it writes, if there is room for it and the NUL behind it. -/
def inetNtop (octets : List UInt8) (size : Nat) : Option Bytes :=
  if (dotted octets).length < size then some (dotted octets) else none

/-! ## The class -/

structure InetAddress where
  /-- `address_` -/
  address : SockaddrIn
deriving DecidableEq, Repr

namespace InetAddress

/-- The constructor from a port. -/
def ofPort (host : ByteOrder) (port : UInt16) (loopback : Bool) : InetAddress where
  address := {
    sinFamily := AF_INET
    sinPort := htobe16 host port
    sAddr := htobe32 host (if loopback then INADDR_LOOPBACK else INADDR_ANY) }

/-- The constructor from a port and a text, behind which these bytes lie in memory, and
then a NUL.  A text that `inet_pton` rejects leaves `ip_address_number` as it is, which is
`indeterminate`. -/
def ofText (host : ByteOrder) (indeterminate : UInt32) (port : UInt16)
    (ipAddress behind : Bytes) : InetAddress :=
  let ipAddressNumber :=
    match inetPton (cString (ipAddress ++ behind)) with
    | some octets => (host.value octets).toUInt32
    | none => indeterminate
  { address := {
      sinFamily := AF_INET
      sinPort := htobe16 host port
      sAddr := htobe32 host ipAddressNumber } }

def port (a : InetAddress) (host : ByteOrder) : UInt16 := be16toh host a.address.sinPort

def ip (a : InetAddress) (host : ByteOrder) : Bytes :=
  (inetNtop (host.memory 4 a.address.sAddr.toNat) INET_ADDRSTRLEN).getD []

/-- The address and the port lie in memory in network byte order. -/
structure Stores (a : InetAddress) (host : ByteOrder) (port : UInt16) (octets : List UInt8) :
    Prop where
  port : host.memory 2 a.address.sinPort.toNat = ByteOrder.big.memory 2 port.toNat
  addr : host.memory 4 a.address.sAddr.toNat = octets

/-! ## Numbers and texts -/

/-- What is decided for each of the 256 numbers. -/
theorem octet_cases : ∀ n < 256, readOctet (decimal n) = some n.toUInt8 ∧ 46 ∉ decimal n ∧
    0 ∉ decimal n ∧ (decimal n).length ≤ 3 := by
  decide +kernel

theorem mapM_readOctet (octets : List UInt8) :
    (octets.map fun o ↦ decimal o.toNat).mapM readOctet = some octets := by
  induction octets with
  | nil => rfl
  | cons o octets ih =>
      have ho : readOctet (decimal o.toNat) = some o := by
        rw [(octet_cases o.toNat o.toNat_lt).1, Nat.toUInt8, UInt8.ofNat_toNat]
      rw [List.map_cons, List.mapM_cons, ho, ih]
      rfl

/-- The text of four numbers is read back as these. -/
theorem inetPton_dotted {octets : List UInt8} (h : octets.length = 4) :
    inetPton (dotted octets) = some octets := by
  have hsplit : (dotted octets).splitOn 46 = octets.map fun o ↦ decimal o.toNat := by
    refine List.splitOn_intercalate 46 ?_ ?_
    · intro text htext
      obtain ⟨o, -, rfl⟩ := List.mem_map.mp htext
      exact (octet_cases o.toNat o.toNat_lt).2.1
    · rw [ne_eq, List.map_eq_nil_iff]
      rintro rfl
      cases h
  rw [inetPton, hsplit, mapM_readOctet]
  exact if_pos h

theorem decimal_digit {b : UInt8} (h : 48 ≤ b.toNat ∧ b.toNat ≤ 57) :
    decimal (b.toNat - 48) = [b] := by
  have hall : ∀ n < 10, decimal n = [(48 + n).toUInt8] := by decide
  rw [hall (b.toNat - 48) (by omega), Nat.add_sub_cancel' h.1, Nat.toUInt8, UInt8.ofNat_toNat]

/-- The numeral of a number that is followed by digits is the numeral of what they are
read as together. -/
theorem decimal_append {n : Nat} (hn : 0 < n) {text : Bytes}
    (h : ∀ b ∈ text, 48 ≤ b.toNat ∧ b.toNat ≤ 57) :
    decimal n ++ text = decimal (text.foldl (fun n d ↦ 10 * n + (d.toNat - 48)) n) := by
  induction text generalizing n with
  | nil => exact List.append_nil _
  | cons b text ih =>
      obtain ⟨hb, htext⟩ := List.forall_mem_cons.mp h
      have hdigit : decimal (b.toNat - 48) = [b] := decimal_digit hb
      have hjoin : decimal n ++ [b] = decimal (10 * n + (b.toNat - 48)) := by
        rw [← hdigit, decimal, decimal, decimal, ← List.map_append,
          Nat.toDigits_append_toDigits (by decide) hn (by omega)]
      rw [List.foldl_cons, ← ih (by omega) htext, ← hjoin, List.append_assoc,
        List.singleton_append]

/-- A number is read from its own numeral only. -/
theorem eq_decimal_of_readOctet {text : Bytes} {o : UInt8} (h : readOctet text = some o) :
    text = decimal o.toNat := by
  simp only [readOctet, Option.ite_none_right_eq_some, Option.some.injEq] at h
  obtain ⟨⟨hne, hall, hzero, hle⟩, rfl⟩ := h
  have hdigits : ∀ b ∈ text, 48 ≤ b.toNat ∧ b.toNat ≤ 57 := by
    intro b hb
    have hrange := List.all_eq_true.mp hall b hb
    rw [Bool.and_eq_true, decide_eq_true_iff, decide_eq_true_iff] at hrange
    exact hrange
  rw [Nat.toUInt8, UInt8.toNat_ofNat', Nat.mod_eq_of_lt (by omega)]
  obtain ⟨b, rest, rfl⟩ := List.exists_cons_of_ne_nil hne
  obtain ⟨hb, hrest⟩ := List.forall_mem_cons.mp hdigits
  by_cases hlead : b = 48
  · subst hlead
    obtain rfl : rest = [] := List.eq_nil_of_length_eq_zero (Nat.succ.inj (hzero rfl))
    decide
  · have hpos : 0 < b.toNat - 48 := by
      have hne : b.toNat ≠ 48 := fun heq ↦ hlead (UInt8.toNat_inj.mp heq)
      omega
    rw [List.foldl_cons, Nat.mul_zero, Nat.zero_add, ← decimal_append hpos hrest,
      decimal_digit hb, List.singleton_append]

theorem eq_map_of_mapM {texts : List Bytes} {octets : List UInt8}
    (h : texts.mapM readOctet = some octets) : texts = octets.map fun o ↦ decimal o.toNat := by
  induction texts generalizing octets with
  | nil =>
      cases h
      rfl
  | cons text texts ih =>
      rw [List.mapM_cons] at h
      obtain ⟨o, ho, h⟩ := Option.bind_eq_some_iff.mp h
      obtain ⟨os, hos, h⟩ := Option.bind_eq_some_iff.mp h
      cases h
      rw [List.map_cons, ← ih hos, ← eq_decimal_of_readOctet ho]

/-- What `inet_pton` accepts are the texts of four numbers. -/
theorem eq_dotted_of_inetPton {text : Bytes} {octets : List UInt8}
    (h : inetPton text = some octets) : octets.length = 4 ∧ text = dotted octets := by
  obtain ⟨octets', hread, h⟩ := Option.bind_eq_some_iff.mp h
  obtain ⟨hlength, heq⟩ := Option.ite_none_right_eq_some.mp h
  cases heq
  refine ⟨hlength, ?_⟩
  have hparts : text.splitOn 46 = octets.map fun o ↦ decimal o.toNat := eq_map_of_mapM hread
  rw [dotted, ← hparts, List.intercalate_splitOn]

theorem dotted_four (a b c d : UInt8) : dotted [a, b, c, d] = decimal a.toNat ++ 46 ::
    (decimal b.toNat ++ 46 :: (decimal c.toNat ++ 46 :: decimal d.toNat)) := by
  simp only [dotted, List.map_cons, List.map_nil, List.intercalate_cons_cons,
    List.intercalate_singleton, List.append_assoc, List.cons_append, List.nil_append]

/-- Such a text is all read, as there is no NUL in it, with what is behind it. -/
theorem cString_dotted (a b c d : UInt8) (behind : Bytes) :
    cString (dotted [a, b, c, d] ++ behind) = dotted [a, b, c, d] ++ cString behind := by
  have hdecimal : ∀ o : UInt8, ∀ x ∈ decimal o.toNat, x ≠ 0 := fun o x hx h0 ↦
    (octet_cases o.toNat o.toNat_lt).2.2.1 (h0 ▸ hx)
  refine List.takeWhile_append_of_pos ?_
  intro x hx
  simp only [dotted_four, List.mem_append, List.mem_cons] at hx
  rw [decide_eq_true_iff]
  rcases hx with hx | rfl | hx | rfl | hx | rfl | hx
  · exact hdecimal a x hx
  · decide
  · exact hdecimal b x hx
  · decide
  · exact hdecimal c x hx
  · decide
  · exact hdecimal d x hx

theorem inetPton_cString {behind : Bytes} (h : cString behind = []) (a b c d : UInt8) :
    inetPton (cString (dotted [a, b, c, d] ++ behind)) = some [a, b, c, d] := by
  rw [cString_dotted, h, List.append_nil]
  exact inetPton_dotted rfl

/-- Such a text fits. -/
theorem inetNtop_four (a b c d : UInt8) :
    inetNtop [a, b, c, d] INET_ADDRSTRLEN = some (dotted [a, b, c, d]) := by
  have hlength : ∀ o : UInt8, (decimal o.toNat).length ≤ 3 := fun o ↦
    (octet_cases o.toNat o.toNat_lt).2.2.2
  have ha := hlength a
  have hb := hlength b
  have hc := hlength c
  have hd := hlength d
  refine if_pos ?_
  simp only [dotted_four, List.length_append, List.length_cons]
  unfold INET_ADDRSTRLEN
  omega

/-! ## What is stored -/

theorem toNat_htobe16 (host : ByteOrder) (x : UInt16) :
    (htobe16 host x).toNat = host.toBig 2 x.toNat := by
  rw [htobe16, UInt16.toNat_ofNat']
  exact Nat.mod_eq_of_lt (host.toBig_lt 2 x.toNat)

theorem toNat_htobe32 (host : ByteOrder) (x : UInt32) :
    (htobe32 host x).toNat = host.toBig 4 x.toNat := by
  rw [htobe32, UInt32.toNat_ofNat']
  exact Nat.mod_eq_of_lt (host.toBig_lt 4 x.toNat)

theorem be16toh_htobe16 (host : ByteOrder) (x : UInt16) : be16toh host (htobe16 host x) = x := by
  rw [be16toh, toNat_htobe16, host.ofBig_toBig x.toNat_lt, Nat.toUInt16, UInt16.ofNat_toNat]

/-- A port is stored in network byte order, by either constructor. -/
theorem memory_htobe16 (host : ByteOrder) (x : UInt16) :
    host.memory 2 (htobe16 host x).toNat = ByteOrder.big.memory 2 x.toNat := by
  rw [toNat_htobe16, host.memory_toBig]

/-- The constants, which are in the order of the host, are stored in network byte order. -/
theorem stores_ofPort (host : ByteOrder) (port : UInt16) (loopback : Bool) :
    (ofPort host port loopback).Stores host port
      (if loopback then [127, 0, 0, 1] else [0, 0, 0, 0]) where
  port := memory_htobe16 host port
  addr := by
    rw [ofPort, toNat_htobe32, host.memory_toBig]
    cases loopback <;> rfl

/-- The numbers of a text are stored in their order on a big-endian machine only. -/
theorem memory_ofText (host : ByteOrder) (indeterminate : UInt32) (port : UInt16)
    {ipAddress behind : Bytes} {a b c d : UInt8}
    (h : inetPton (cString (ipAddress ++ behind)) = some [a, b, c, d]) :
    host.memory 4 (ofText host indeterminate port ipAddress behind).address.sAddr.toNat =
      match host with
      | .little => [d, c, b, a]
      | .big => [a, b, c, d] := by
  have hlt : host.value [a, b, c, d] < 256 ^ 4 := host.value_lt [a, b, c, d]
  have hvalue : (host.value [a, b, c, d]).toUInt32.toNat = host.value [a, b, c, d] := by
    rw [UInt32.toNat_ofNat']
    exact Nat.mod_eq_of_lt hlt
  simp only [ofText, h]
  rw [toNat_htobe32, hvalue]
  cases host with
  | little => exact ByteOrder.little.memory_toBig_value [a, b, c, d]
  | big => exact ByteOrder.big.memory_toBig_value [a, b, c, d]

/-- What `inet_pton` rejects is stored as the number that was there before. -/
theorem memory_ofText_of_none (host : ByteOrder) (indeterminate : UInt32) (port : UInt16)
    {ipAddress behind : Bytes} (h : inetPton (cString (ipAddress ++ behind)) = none) :
    host.memory 4 (ofText host indeterminate port ipAddress behind).address.sAddr.toNat =
      ByteOrder.big.memory 4 indeterminate.toNat := by
  simp only [ofText, h]
  rw [toNat_htobe32, host.memory_toBig]

theorem ip_eq {address : InetAddress} {host : ByteOrder} {a b c d : UInt8}
    (h : host.memory 4 address.address.sAddr.toNat = [a, b, c, d]) :
    address.ip host = dotted [a, b, c, d] := by
  rw [ip, h, inetNtop_four]
  rfl

/-! ## Round trip -/

/-- The text and the port of an address come back, and the address is stored in network
byte order, as the other constructor stores its own; whatever was in `ip_address_number`. -/
structure RoundTrip (host : ByteOrder) (p : UInt16) (octets : List UInt8) (behind : Bytes) :
    Prop where
  ip (indeterminate : UInt32) :
    (ofText host indeterminate p (dotted octets) behind).ip host = dotted octets
  port (indeterminate : UInt32) :
    (ofText host indeterminate p (dotted octets) behind).port host = p
  stores (indeterminate : UInt32) :
    (ofText host indeterminate p (dotted octets) behind).Stores host p octets
  storesOfPort (loopback : Bool) :
    (ofPort host p loopback).Stores host p (if loopback then [127, 0, 0, 1] else [0, 0, 0, 0])

theorem dotted_inj {octets octets' : List UInt8} (hlength : octets.length = 4)
    (hlength' : octets'.length = 4) (h : dotted octets = dotted octets') : octets = octets' := by
  have hread := congrArg inetPton h
  rw [inetPton_dotted hlength, inetPton_dotted hlength'] at hread
  exact Option.some.inj hread

/-- A text that comes back was read from beginning to end, and its numbers were stored the
other way round. -/
theorem read_of_ip {p : UInt16} {a b c d : UInt8} {behind : Bytes}
    (h : ∀ indeterminate,
      (ofText .little indeterminate p (dotted [a, b, c, d]) behind).ip .little =
        dotted [a, b, c, d]) :
    dotted [a, b, c, d] ++ cString behind = dotted [d, c, b, a] := by
  have hstring := cString_dotted a b c d behind
  cases hread : inetPton (cString (dotted [a, b, c, d] ++ behind)) with
  | none =>
      -- two numbers that may have been there before
      have hzero := ip_eq (memory_ofText_of_none .little 0 p hread)
      have hone := ip_eq (memory_ofText_of_none .little 1 p hread)
      exact absurd ((hzero.symm.trans (h 0)).trans ((h 1).symm.trans hone)) (by decide)
  | some octets =>
      obtain ⟨hlength, htext⟩ := eq_dotted_of_inetPton hread
      obtain ⟨a', b', c', d', rfl⟩ : ∃ a' b' c' d', octets = [a', b', c', d'] := by
        match octets, hlength with
        | [a', b', c', d'], _ => exact ⟨a', b', c', d', rfl⟩
      have hip := ip_eq (memory_ofText .little 0 p hread)
      have hsame := dotted_inj rfl rfl (hip.symm.trans (h 0))
      rw [List.cons.injEq, List.cons.injEq, List.cons.injEq, List.cons.injEq] at hsame
      obtain ⟨rfl, rfl, rfl, rfl, -⟩ := hsame
      rw [← hstring, htext]

/-- The text is as long as the one with its numbers the other way round. -/
theorem length_dotted_swap (a b c d : UInt8) :
    (dotted [d, c, b, a]).length = (dotted [a, b, c, d]).length := by
  simp only [dotted_four, List.length_append, List.length_cons]
  omega

/-- **The round trip of an address text.**  On a little-endian machine the text of an
address comes back exactly if a NUL is right behind it and its numbers are the same in both
orders. -/
theorem roundTrip_iff (port : UInt16) (a b c d : UInt8) (behind : Bytes) :
    RoundTrip .little port [a, b, c, d] behind ↔ cString behind = [] ∧ a = d ∧ b = c := by
  constructor
  · intro h
    have hread := read_of_ip h.ip
    have hbehind : cString behind = [] := by
      have hlength := congrArg List.length hread
      rw [List.length_append, length_dotted_swap] at hlength
      exact List.eq_nil_of_length_eq_zero (by omega)
    rw [hbehind, List.append_nil] at hread
    have hsame := dotted_inj rfl rfl hread
    rw [List.cons.injEq, List.cons.injEq] at hsame
    exact ⟨hbehind, hsame.1, hsame.2.1⟩
  · rintro ⟨hbehind, rfl, rfl⟩
    have hmemory (indeterminate : UInt32) :=
      memory_ofText .little indeterminate port (inetPton_cString hbehind a b b a)
    exact {
      ip indeterminate := ip_eq (hmemory indeterminate)
      port _ := be16toh_htobe16 .little port
      stores indeterminate := ⟨memory_htobe16 .little port, hmemory indeterminate⟩
      storesOfPort := stores_ofPort .little port }

theorem roundTrip_of_big (port : UInt16) (a b c d : UInt8) {behind : Bytes}
    (h : cString behind = []) : RoundTrip .big port [a, b, c, d] behind where
  ip indeterminate := ip_eq (memory_ofText .big indeterminate port (inetPton_cString h a b c d))
  port _ := be16toh_htobe16 .big port
  stores indeterminate := ⟨memory_htobe16 .big port,
    memory_ofText .big indeterminate port (inetPton_cString h a b c d)⟩
  storesOfPort := stores_ofPort .big port

/-- The numbers of `1.2.3.4` come back the wrong way round. -/
theorem not_roundTrip :
    dotted [1, 2, 3, 4] = bytes "1.2.3.4" ∧
      (ofText .little 0 8080 (bytes "1.2.3.4") [0]).ip .little = bytes "4.3.2.1" ∧
      ¬ RoundTrip .little 8080 [1, 2, 3, 4] [0] := by
  refine ⟨by decide +kernel, by decide +kernel, fun h ↦ ?_⟩
  have hip : (ofText .little 0 8080 (dotted [1, 2, 3, 4]) [0]).ip .little ≠
      dotted [1, 2, 3, 4] := by
    decide +kernel
  exact hip (h.ip 0)

end InetAddress

end Wuduo
