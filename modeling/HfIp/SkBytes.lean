import HfIp.Frames
import HfIp.Lib.Buffer

/- The bytes of a `sk_buff` (src/skbuff.c) and the fields of its headers, which the code swaps and
   overwrites in place. Positions are counted from `skb->head`; the host is little-endian. -/
namespace HfIp

open Buffer

structure SkBytes where
  head : List UInt8
  data : Nat
  len : Nat
  deriving DecidableEq, Repr

def SkBytes.alloc (size : Nat) : SkBytes := { head := List.replicate size 0, data := 0, len := 0 }

def SkBytes.reserve (skb : SkBytes) (len : Nat) : SkBytes := { skb with data := skb.data + len }

def SkBytes.push (skb : SkBytes) (len : Nat) : SkBytes :=
  { skb with data := skb.data - len, len := skb.len + len }

/- `skb->len` bytes at `skb->data`. -/
def SkBytes.bytes (skb : SkBytes) : List UInt8 := field skb.head skb.data skb.len

/-! ### Fields -/

/- A field of four bytes, after `ntohl`. -/
def dwordAt (m : List UInt8) (i : Nat) : UInt32 :=
  (wordAt m i).toUInt32 <<< 16 ||| (wordAt m (i + 2)).toUInt32

/- Fields as the host reads them. -/
def hostWordAt (m : List UInt8) (i : Nat) : UInt16 :=
  (byteAt m (i + 1)).toUInt16 <<< 8 ||| (byteAt m i).toUInt16

def hostDwordAt (m : List UInt8) (i : Nat) : UInt32 :=
  (hostWordAt m (i + 2)).toUInt32 <<< 16 ||| (hostWordAt m i).toUInt32

def le32 (x : UInt32) : List UInt8 :=
  [x.toUInt8, (x >>> 8).toUInt8, (x >>> 16).toUInt8, (x >>> 24).toUInt8]

/- Six bytes, copied as they are. -/
abbrev HwAddr := Vector UInt8 6

def hwAddrAt (m : List UInt8) (i : Nat) : HwAddr :=
  #v[byteAt m i, byteAt m (i + 1), byteAt m (i + 2), byteAt m (i + 3), byteAt m (i + 4),
    byteAt m (i + 5)]

def hwAddrBytes (a : HwAddr) : List UInt8 := [a[0], a[1], a[2], a[3], a[4], a[5]]

def putByte (m : List UInt8) (i : Nat) (b : UInt8) : List UInt8 := put m i [b]

def putHwAddr (m : List UInt8) (i : Nat) (a : HwAddr) : List UInt8 := put m i (hwAddrBytes a)

def putWord (m : List UInt8) (i : Nat) (x : UInt16) : List UInt8 := put m i (le16 x)

def putDword (m : List UInt8) (i : Nat) (x : UInt32) : List UInt8 := put m i (le32 x)

/- `field = ntohs(field)` and its likes. -/
def ntohsAt (m : List UInt8) (i : Nat) : List UInt8 := put m i (le16 (wordAt m i))

def ntohlAt (m : List UInt8) (i : Nat) : List UInt8 := put m i (le32 (dwordAt m i))

def htonsAt (m : List UInt8) (i : Nat) : List UInt8 := put m i (be16 (hostWordAt m i))

def htonlAt (m : List UInt8) (i : Nat) : List UInt8 := put m i (be32 (hostDwordAt m i))

section

variable (m : List UInt8) {i j n : Nat}

@[simp] theorem length_putByte (b : UInt8) : (putByte m i b).length = m.length := length_put _ _ _

@[simp] theorem length_putHwAddr (a : HwAddr) : (putHwAddr m i a).length = m.length := length_put _ _ _

@[simp] theorem length_putWord (x : UInt16) : (putWord m i x).length = m.length := length_put _ _ _

@[simp] theorem length_putDword (x : UInt32) : (putDword m i x).length = m.length := length_put _ _ _

@[simp] theorem length_ntohsAt : (ntohsAt m i).length = m.length := length_put _ _ _

@[simp] theorem length_ntohlAt : (ntohlAt m i).length = m.length := length_put _ _ _

@[simp] theorem length_htonsAt : (htonsAt m i).length = m.length := length_put _ _ _

@[simp] theorem length_htonlAt : (htonlAt m i).length = m.length := length_put _ _ _

theorem field_putByte (b : UInt8) (apart : j + n ≤ i ∨ i + 1 ≤ j) :
    field (putByte m i b) j n = field m j n := field_put_other _ _ apart

theorem field_putHwAddr (a : HwAddr) (apart : j + n ≤ i ∨ i + 6 ≤ j) :
    field (putHwAddr m i a) j n = field m j n := field_put_other _ _ apart

theorem field_putWord (x : UInt16) (apart : j + n ≤ i ∨ i + 2 ≤ j) :
    field (putWord m i x) j n = field m j n := field_put_other _ _ apart

theorem field_putDword (x : UInt32) (apart : j + n ≤ i ∨ i + 4 ≤ j) :
    field (putDword m i x) j n = field m j n := field_put_other _ _ apart

theorem field_ntohsAt (apart : j + n ≤ i ∨ i + 2 ≤ j) : field (ntohsAt m i) j n = field m j n :=
  field_put_other _ _ apart

theorem field_ntohlAt (apart : j + n ≤ i ∨ i + 4 ≤ j) : field (ntohlAt m i) j n = field m j n :=
  field_put_other _ _ apart

theorem field_htonsAt (apart : j + n ≤ i ∨ i + 2 ≤ j) : field (htonsAt m i) j n = field m j n :=
  field_put_other _ _ apart

theorem field_htonlAt (apart : j + n ≤ i ∨ i + 4 ≤ j) : field (htonlAt m i) j n = field m j n :=
  field_put_other _ _ apart

end

/-! ### What a field reads -/

theorem byteAt_of_field {m bs : List UInt8} {i k n : Nat} (here : field m i n = bs) (inside : k < n) :
    byteAt m (i + k) = bs.getD k 0 := by
  subst here
  unfold byteAt field
  simp only [List.getD_eq_getElem?_getD, List.getElem?_take, List.getElem?_drop, if_pos inside]

theorem word_joined (x : UInt16) : (x >>> 8).toUInt8.toUInt16 <<< 8 ||| x.toUInt8.toUInt16 = x := by
  have bound := x.toNat_lt
  have high : ((x >>> 8).toUInt8.toUInt16 <<< 8).toNat = x.toNat / 256 * 256 := by
    simp only [UInt16.toNat_shiftLeft, UInt8.toNat_toUInt16, UInt16.toNat_toUInt8,
      UInt16.toNat_shiftRight, Nat.shiftLeft_eq, Nat.shiftRight_eq_div_pow, UInt16.reduceToNat,
      Nat.reduceMod, Nat.reducePow]
    omega
  have low : (x.toUInt8.toUInt16).toNat = x.toNat % 256 := by
    simp only [UInt8.toNat_toUInt16, UInt16.toNat_toUInt8, Nat.reducePow]
  apply UInt16.toNat_inj.mp
  rw [UInt16.toNat_or, high, low, show x.toNat / 256 * 256 = 2 ^ 8 * (x.toNat / 256) by omega,
    ← Nat.two_pow_add_eq_or_of_lt (by omega)]
  omega

theorem dword_joined (x : UInt32) :
    (x >>> 16).toUInt16.toUInt32 <<< 16 ||| x.toUInt16.toUInt32 = x := by
  have bound := x.toNat_lt
  have high : ((x >>> 16).toUInt16.toUInt32 <<< 16).toNat = x.toNat / 65536 * 65536 := by
    simp only [UInt32.toNat_shiftLeft, UInt16.toNat_toUInt32, UInt32.toNat_toUInt16,
      UInt32.toNat_shiftRight, Nat.shiftLeft_eq, Nat.shiftRight_eq_div_pow, UInt32.reduceToNat,
      Nat.reduceMod, Nat.reducePow]
    omega
  have low : (x.toUInt16.toUInt32).toNat = x.toNat % 65536 := by
    simp only [UInt16.toNat_toUInt32, UInt32.toNat_toUInt16, Nat.reducePow]
  apply UInt32.toNat_inj.mp
  rw [UInt32.toNat_or, high, low, show x.toNat / 65536 * 65536 = 2 ^ 16 * (x.toNat / 65536) by omega,
    ← Nat.two_pow_add_eq_or_of_lt (by omega)]
  omega

/- The bytes of a number of 32 bits are those of its halves. -/
theorem be32_halves (x : UInt32) : be32 x = be16 (x >>> 16).toUInt16 ++ be16 x.toUInt16 := by
  have a : (x >>> 24).toUInt8 = ((x >>> 16).toUInt16 >>> 8).toUInt8 := by
    apply UInt8.toNat_inj.mp
    simp only [UInt16.toNat_toUInt8, UInt32.toNat_toUInt8, UInt16.toNat_shiftRight,
      UInt32.toNat_shiftRight, UInt32.toNat_toUInt16, Nat.shiftRight_eq_div_pow, UInt32.reduceToNat,
      UInt16.reduceToNat, Nat.reduceMod, Nat.reducePow]
    omega
  have b : (x >>> 16).toUInt8 = (x >>> 16).toUInt16.toUInt8 := by
    apply UInt8.toNat_inj.mp
    simp only [UInt16.toNat_toUInt8, UInt32.toNat_toUInt8, UInt32.toNat_toUInt16, Nat.reducePow]
    omega
  have c : (x >>> 8).toUInt8 = (x.toUInt16 >>> 8).toUInt8 := by
    apply UInt8.toNat_inj.mp
    simp only [UInt16.toNat_toUInt8, UInt32.toNat_toUInt8, UInt16.toNat_shiftRight,
      UInt32.toNat_shiftRight, UInt32.toNat_toUInt16, Nat.shiftRight_eq_div_pow, UInt32.reduceToNat,
      UInt16.reduceToNat, Nat.reduceMod, Nat.reducePow]
    omega
  have d : x.toUInt8 = x.toUInt16.toUInt8 := by
    apply UInt8.toNat_inj.mp
    simp only [UInt16.toNat_toUInt8, UInt32.toNat_toUInt8, UInt32.toNat_toUInt16, Nat.reducePow]
    omega
  simp only [be32, be16, a, b, c, d, List.cons_append, List.nil_append]

@[simp] theorem be16_reverse (x : UInt16) : (be16 x).reverse = le16 x := rfl

@[simp] theorem le16_reverse (x : UInt16) : (le16 x).reverse = be16 x := rfl

@[simp] theorem be32_reverse (x : UInt32) : (be32 x).reverse = le32 x := rfl

@[simp] theorem le32_reverse (x : UInt32) : (le32 x).reverse = be32 x := rfl

theorem le32_halves (x : UInt32) : le32 x = le16 x.toUInt16 ++ le16 (x >>> 16).toUInt16 := by
  rw [← be32_reverse, be32_halves]
  rfl

theorem wordAt_of_field {m : List UInt8} {i : Nat} {x : UInt16} (here : field m i 2 = be16 x) :
    wordAt m i = x := by
  have first := byteAt_of_field (k := 0) here (by omega)
  have second := byteAt_of_field (k := 1) here (by omega)
  rw [Nat.add_zero] at first
  rw [wordAt, first, second]
  exact word_joined x

theorem hostWordAt_of_field {m : List UInt8} {i : Nat} {x : UInt16} (here : field m i 2 = le16 x) :
    hostWordAt m i = x := by
  have first := byteAt_of_field (k := 0) here (by omega)
  have second := byteAt_of_field (k := 1) here (by omega)
  rw [Nat.add_zero] at first
  rw [hostWordAt, first, second]
  exact word_joined x

theorem field_halves {m a b : List UInt8} {i : Nat} (here : field m i 4 = a ++ b)
    (long : a.length = 2) : field m i 2 = a ∧ field m (i + 2) 2 = b := field_split here long

theorem dwordAt_of_field {m : List UInt8} {i : Nat} {x : UInt32} (here : field m i 4 = be32 x) :
    dwordAt m i = x := by
  rw [be32_halves] at here
  obtain ⟨high, low⟩ := field_halves here rfl
  rw [dwordAt, wordAt_of_field high, wordAt_of_field low]
  exact dword_joined x

theorem hostDwordAt_of_field {m : List UInt8} {i : Nat} {x : UInt32} (here : field m i 4 = le32 x) :
    hostDwordAt m i = x := by
  rw [le32_halves] at here
  obtain ⟨low, high⟩ := field_halves here rfl
  rw [hostDwordAt, hostWordAt_of_field high, hostWordAt_of_field low]
  exact dword_joined x

theorem field_succ {m : List UInt8} {i : Nat} (n : Nat) (fits : i < m.length) :
    field m i (n + 1) = byteAt m i :: field m (i + 1) n := by
  have first : byteAt m i = m[i] := by
    rw [byteAt, List.getD_eq_getElem?_getD, List.getElem?_eq_getElem fits, Option.getD_some]
  rw [field, List.drop_eq_getElem_cons fits, List.take_succ_cons, first]
  rfl

theorem hwAddrAt_of_field {m : List UInt8} {i : Nat} {a : HwAddr}
    (here : field m i 6 = hwAddrBytes a) : hwAddrAt m i = a := by
  have read : ∀ k, k < 6 → byteAt m (i + k) = (hwAddrBytes a).getD k 0 :=
    fun k inside => byteAt_of_field here inside
  have zero := read 0 (by omega)
  rw [Nat.add_zero] at zero
  rw [hwAddrAt, zero, read 1 (by omega), read 2 (by omega), read 3 (by omega), read 4 (by omega),
    read 5 (by omega)]
  ext k inside
  match k, inside with
  | 0, _ => rfl
  | 1, _ => rfl
  | 2, _ => rfl
  | 3, _ => rfl
  | 4, _ => rfl
  | 5, _ => rfl

/-! ### Every field is a number's -/

theorem be16_joined (a b : UInt8) : be16 (a.toUInt16 <<< 8 ||| b.toUInt16) = [a, b] := by
  have high : (a.toUInt16 <<< 8).toNat = a.toNat * 256 := by
    have := a.toNat_lt
    simp only [UInt16.toNat_shiftLeft, UInt8.toNat_toUInt16, Nat.shiftLeft_eq, UInt16.reduceToNat,
      Nat.reduceMod, Nat.reducePow]
    omega
  have small := b.toNat_lt
  have whole : (a.toUInt16 <<< 8 ||| b.toUInt16).toNat = a.toNat * 256 + b.toNat := by
    rw [UInt16.toNat_or, high, UInt8.toNat_toUInt16, show a.toNat * 256 = 2 ^ 8 * a.toNat by omega,
      ← Nat.two_pow_add_eq_or_of_lt small]
  have first : ((a.toUInt16 <<< 8 ||| b.toUInt16) >>> 8).toUInt8 = a := by
    apply UInt8.toNat_inj.mp
    have := a.toNat_lt
    simp only [UInt16.toNat_toUInt8, UInt16.toNat_shiftRight, whole, Nat.shiftRight_eq_div_pow,
      UInt16.reduceToNat, Nat.reduceMod, Nat.reducePow]
    omega
  have second : (a.toUInt16 <<< 8 ||| b.toUInt16).toUInt8 = b := by
    apply UInt8.toNat_inj.mp
    simp only [UInt16.toNat_toUInt8, whole, Nat.reducePow]
    omega
  rw [be16, first, second]

theorem field_word {m : List UInt8} {i : Nat} (fits : i + 2 ≤ m.length) :
    field m i 2 = be16 (wordAt m i) := by
  rw [wordAt, be16_joined, field_succ 1 (by omega), field_succ 0 (by omega), field, List.take_zero]

theorem be32_joined (a b : UInt16) :
    be32 (a.toUInt32 <<< 16 ||| b.toUInt32) = be16 a ++ be16 b := by
  have high : (a.toUInt32 <<< 16).toNat = a.toNat * 65536 := by
    have := a.toNat_lt
    simp only [UInt32.toNat_shiftLeft, UInt16.toNat_toUInt32, Nat.shiftLeft_eq, UInt32.reduceToNat,
      Nat.reduceMod, Nat.reducePow]
    omega
  have small := b.toNat_lt
  have whole : (a.toUInt32 <<< 16 ||| b.toUInt32).toNat = a.toNat * 65536 + b.toNat := by
    rw [UInt32.toNat_or, high, UInt16.toNat_toUInt32,
      show a.toNat * 65536 = 2 ^ 16 * a.toNat by omega, ← Nat.two_pow_add_eq_or_of_lt small]
  have first : ((a.toUInt32 <<< 16 ||| b.toUInt32) >>> 16).toUInt16 = a := by
    apply UInt16.toNat_inj.mp
    have := a.toNat_lt
    simp only [UInt32.toNat_toUInt16, UInt32.toNat_shiftRight, whole, Nat.shiftRight_eq_div_pow,
      UInt32.reduceToNat, Nat.reduceMod, Nat.reducePow]
    omega
  have second : (a.toUInt32 <<< 16 ||| b.toUInt32).toUInt16 = b := by
    apply UInt16.toNat_inj.mp
    simp only [UInt32.toNat_toUInt16, whole, Nat.reducePow]
    omega
  rw [be32_halves, first, second]

theorem field_dword {m : List UInt8} {i : Nat} (fits : i + 4 ≤ m.length) :
    field m i 4 = be32 (dwordAt m i) := by
  rw [dwordAt, be32_joined, ← field_word (by omega), ← field_word (by omega), ← field_append]

theorem field_hwAddr {m : List UInt8} {i : Nat} (fits : i + 6 ≤ m.length) :
    field m i 6 = hwAddrBytes (hwAddrAt m i) := by
  rw [field_succ 5 (by omega), field_succ 4 (by omega), field_succ 3 (by omega),
    field_succ 2 (by omega), field_succ 1 (by omega), field_succ 0 (by omega), field, List.take_zero]
  rfl

theorem field_hostWord {m : List UInt8} {i : Nat} (fits : i + 2 ≤ m.length) :
    field m i 2 = le16 (hostWordAt m i) := by
  have swapped := congrArg List.reverse (be16_joined (byteAt m (i + 1)) (byteAt m i))
  rw [field_succ 1 (by omega), field_succ 0 (by omega), field, List.take_zero]
  exact swapped.symm

theorem field_hostDword {m : List UInt8} {i : Nat} (fits : i + 4 ≤ m.length) :
    field m i 4 = le32 (hostDwordAt m i) := by
  rw [← be32_reverse, hostDwordAt, be32_joined, List.reverse_append]
  have low : (be16 (hostWordAt m i)).reverse = field m i 2 := (field_hostWord (by omega)).symm
  have high : (be16 (hostWordAt m (i + 2))).reverse = field m (i + 2) 2 :=
    (field_hostWord (by omega)).symm
  rw [low, high, ← field_append]

/-! ### Writing in place -/

section

variable {m : List UInt8} {i : Nat}

theorem putByte_here (b : UInt8) (fits : i + 1 ≤ m.length) : field (putByte m i b) i 1 = [b] :=
  field_put_self m [b] fits

theorem putHwAddr_here (a : HwAddr) (fits : i + 6 ≤ m.length) :
    field (putHwAddr m i a) i 6 = hwAddrBytes a := field_put_self m (hwAddrBytes a) fits

theorem putWord_here (x : UInt16) (fits : i + 2 ≤ m.length) : field (putWord m i x) i 2 = le16 x :=
  field_put_self m (le16 x) fits

theorem putDword_here (x : UInt32) (fits : i + 4 ≤ m.length) : field (putDword m i x) i 4 = le32 x :=
  field_put_self m (le32 x) fits

theorem ntohsAt_here (fits : i + 2 ≤ m.length) :
    field (ntohsAt m i) i 2 = (field m i 2).reverse := by
  rw [field_word fits]
  exact field_put_self m (le16 (wordAt m i)) fits

theorem ntohlAt_here (fits : i + 4 ≤ m.length) :
    field (ntohlAt m i) i 4 = (field m i 4).reverse := by
  rw [field_dword fits]
  exact field_put_self m (le32 (dwordAt m i)) fits

theorem htonsAt_here (fits : i + 2 ≤ m.length) :
    field (htonsAt m i) i 2 = (field m i 2).reverse := by
  rw [field_hostWord fits]
  exact field_put_self m (be16 (hostWordAt m i)) fits

theorem htonlAt_here (fits : i + 4 ≤ m.length) :
    field (htonlAt m i) i 4 = (field m i 4).reverse := by
  rw [field_hostDword fits]
  exact field_put_self m (be32 (hostDwordAt m i)) fits

end

end HfIp
