import HfIp.Utils
import HfIp.Socket

/- The way of a segment to the wire: the checksum of src/tcp.c, the routes of src/route.c with the
   devices of src/netdev.c, and the IP header of src/ip_output.c. -/
namespace HfIp

open OnesComplement

def IPV4 : UInt8 := 4
def IP_TCP : UInt8 := 6
def ICMPV4 : UInt8 := 1
def IP_HDR_LEN : Nat := 20

/- A 16-bit number as the host stores it. -/
def le16 (x : UInt16) : List UInt8 := [x.toUInt8, (x >>> 8).toUInt8]

def Bool.bit (b : Bool) (n : Nat) : Nat := if b then 2 ^ n else 0

def tcpFlags (th : TcpHdr) : UInt8 := UInt8.ofNat
  (Bool.bit th.fin 0 + Bool.bit th.syn 1 + Bool.bit th.rst 2 + Bool.bit th.psh 3 +
    Bool.bit th.ack 4 + Bool.bit th.urg 5)

/- The option area: what is left of the `hl` words after the fixed header. -/
def tcpOptionBytes (th : TcpHdr) : List UInt8 :=
  (List.range (4 * (th.hl.val - 5))).map fun i => th.data.getD i 0

/- A segment at `skb->data`, in network order but for the checksum, which is stored as it is. -/
def tcpBytes (th : TcpHdr) (csum : UInt16) (payload : List UInt8) : List UInt8 :=
  be16 th.sport ++ be16 th.dport ++ be32 th.seq ++ be32 th.ackSeq ++
    [UInt8.ofNat (16 * th.hl.val), tcpFlags th] ++ be16 th.win ++ le16 csum ++ be16 0 ++
    tcpOptionBytes th ++ payload

/- `len` is the number of bytes at `data`, cut to 16 bits. -/
def tcpUdpChecksum (saddr daddr : UInt32) (proto : UInt8) (data : List UInt8) : UInt16 :=
  let len := UInt16.ofNat data.length
  checksum (data.take len.toNat) (saddr + daddr + (htons proto.toUInt16).toUInt32 +
    (htons len).toUInt32)

def tcpV4Checksum (data : List UInt8) (saddr daddr : UInt32) : UInt16 :=
  tcpUdpChecksum saddr daddr IP_TCP data

/- What `tcp_transmit_skb` gives to `ip_output` for a segment of the socket. -/
def tcpChecksummed (tsk : TcpSock) (seg : Segment) : List UInt8 :=
  let csum := tcpV4Checksum (tcpBytes seg.th 0 seg.payload) (htonl tsk.saddr) (htonl tsk.daddr)
  tcpBytes seg.th csum seg.payload

structure Netdev where
  addr : UInt32
  deriving DecidableEq, Repr

structure RtEntry where
  dst : UInt32
  netmask : UInt32
  dev : Netdev
  deriving DecidableEq, Repr

def loop : Netdev := ⟨parseIpv4 127 0 0 1⟩

def netdev : Netdev := ⟨parseIpv4 10 0 0 4⟩

/- `route_init`. -/
def routes : List RtEntry :=
  [⟨loop.addr, 0xff000000, loop⟩, ⟨netdev.addr, 0xffffff00, netdev⟩, ⟨0, 0, netdev⟩]

/- The last entry stands when no entry matches. -/
def routeLookupLoop (daddr : UInt32) : Option RtEntry → List RtEntry → Option RtEntry
  | rt, [] => rt
  | _, rt :: rest =>
    if daddr &&& rt.netmask = rt.dst &&& rt.netmask then some rt
    else routeLookupLoop daddr (some rt) rest

def routeLookup (daddr : UInt32) : Option RtEntry := routeLookupLoop daddr none routes

/- The header without options; `id` is the zero that `alloc_skb` leaves there. -/
def ipHeader (proto : UInt8) (len : UInt16) (saddr daddr : UInt32) (csum : UInt16) : List UInt8 :=
  [IPV4 <<< 4 ||| 5, 0] ++ be16 len ++ be16 0 ++ be16 0x4000 ++ [64, proto] ++ le16 csum ++
    be32 saddr ++ be32 daddr

/- The packet that `ip_output` hands to `dst_neigh_output`. -/
def ipOutput (proto : UInt8) (daddr : UInt32) (data : List UInt8) : Option (List UInt8) :=
  (routeLookup daddr).map fun rt =>
    let header := ipHeader proto (UInt16.ofNat (data.length + IP_HDR_LEN)) rt.dev.addr daddr
    header (checksum (header 0) 0) ++ data

def tcpPacket (tsk : TcpSock) (seg : Segment) : Option (List UInt8) :=
  ipOutput IP_TCP tsk.daddr (tcpChecksummed tsk seg)

/-! ### What the receiver checks -/

/- The addresses, the protocol and the length of the segment in a packet without IP options. -/
def pseudoHeader (packet : List UInt8) : List UInt8 :=
  (packet.drop 12).take 8 ++ [0, packet.getD 9 0] ++
    be16 (UInt16.ofNat (packet.length - IP_HDR_LEN))

/-- The one's-complement sum of the pseudo-header and the segment, checksum included, is 0xffff. -/
def ChecksumValid (packet : List UInt8) : Prop :=
  total 65535 (bigWords (pseudoHeader packet ++ packet.drop IP_HDR_LEN)) = 65535

instance (packet : List UInt8) : Decidable (ChecksumValid packet) :=
  inferInstanceAs (Decidable (_ = _))

/-! ### Sums of words -/

theorem be16_words (x : UInt16) (rest : List UInt8) :
    (littleWords (be16 x ++ rest)).sum = (htons x).toNat + (littleWords rest).sum := by
  have := x.toNat_lt
  have low := UInt16.toNat_toUInt8 x
  have high := UInt16.toNat_toUInt8 (x >>> 8)
  simp only [be16, htons, leNat, List.cons_append, List.nil_append, littleWords, List.sum_cons,
    UInt16.toNat_ofNat', low, high]
  omega

theorem le16_words (x : UInt16) (rest : List UInt8) :
    (littleWords (le16 x ++ rest)).sum = x.toNat + (littleWords rest).sum := by
  have := x.toNat_lt
  have high : (x >>> 8).toNat = x.toNat / 256 := by
    rw [UInt16.toNat_shiftRight]
    exact Nat.shiftRight_eq_div_pow _ 8
  simp only [le16, List.cons_append, List.nil_append, littleWords, List.sum_cons,
    UInt16.toNat_toUInt8, high]
  omega

/- Two words of 16 bits leave the remainder of the word of 32 bits. -/
theorem be32_words (x : UInt32) (rest : List UInt8) :
    (littleWords (be32 x ++ rest)).sum % 65535 =
      ((htonl x).toNat + (littleWords rest).sum) % 65535 := by
  have a := UInt8.toNat_lt (x >>> 24).toUInt8
  have b := UInt8.toNat_lt (x >>> 16).toUInt8
  have c := UInt8.toNat_lt (x >>> 8).toUInt8
  have d := UInt8.toNat_lt x.toUInt8
  simp only [be32, htonl, leNat, List.cons_append, List.nil_append, littleWords, List.sum_cons,
    UInt32.toNat_ofNat']
  rw [Nat.mod_eq_of_lt (b := 2 ^ 32) (by omega)]
  omega

/-! ### The packet -/

theorem tcpBytes_length (th : TcpHdr) (csum : UInt16) (payload : List UInt8) :
    (tcpBytes th csum payload).length = 20 + 4 * (th.hl.val - 5) + payload.length := by
  simp only [tcpBytes, be16, be32, le16, tcpOptionBytes, List.length_append, List.length_cons,
    List.length_nil, List.length_map, List.length_range]

/- The checksum adds itself to the sum over the segment. -/
theorem tcpBytes_words (th : TcpHdr) (csum : UInt16) (payload : List UInt8) :
    (littleWords (tcpBytes th csum payload)).sum =
      csum.toNat + (littleWords (tcpBytes th 0 payload)).sum := by
  have split : ∀ c, tcpBytes th c payload =
      (be16 th.sport ++ be16 th.dport ++ be32 th.seq ++ be32 th.ackSeq ++
        [UInt8.ofNat (16 * th.hl.val), tcpFlags th] ++ be16 th.win) ++
      (le16 c ++ (be16 0 ++ tcpOptionBytes th ++ payload)) := by
    intro c
    simp only [tcpBytes, List.append_assoc]
  have even : (be16 th.sport ++ be16 th.dport ++ be32 th.seq ++ be32 th.ackSeq ++
      [UInt8.ofNat (16 * th.hl.val), tcpFlags th] ++ be16 th.win).length % 2 = 0 := by
    simp [be16, be32]
  rw [split, split, littleWords_append _ _ even, littleWords_append _ _ even, List.sum_append,
    List.sum_append, le16_words, le16_words, UInt16.toNat_zero]
  omega

theorem ipHeader_pseudo (proto : UInt8) (len csum : UInt16) (saddr daddr : UInt32)
    (data : List UInt8) : pseudoHeader (ipHeader proto len saddr daddr csum ++ data) ++
      (ipHeader proto len saddr daddr csum ++ data).drop IP_HDR_LEN =
    be32 saddr ++ (be32 daddr ++ ([0, proto] ++ (be16 (UInt16.ofNat data.length) ++ data))) := by
  have length : (ipHeader proto len saddr daddr csum ++ data).length - IP_HDR_LEN = data.length := by
    simp only [ipHeader, be16, be32, le16, IP_HDR_LEN, List.length_append, List.length_cons,
      List.length_nil]
    omega
  unfold pseudoHeader
  rw [length]
  rfl

/- The sum is the largest word exactly when the plain sum of the words, as the host reads them, is
   a multiple of it. -/
theorem checksumValid_iff (len csum : UInt16) (saddr daddr : UInt32) (data : List UInt8) :
    ChecksumValid (ipHeader IP_TCP len saddr daddr csum ++ data) ↔
      ((htonl saddr).toNat + (htonl daddr).toNat + 0x600 +
        (htons (UInt16.ofNat data.length)).toNat + (littleWords data).sum) % 65535 = 0 := by
  unfold ChecksumValid
  rw [ipHeader_pseudo]
  have second := be32_words daddr ([0, IP_TCP] ++ (be16 (UInt16.ofNat data.length) ++ data))
  have first := be32_words saddr (be32 daddr ++
    ([0, IP_TCP] ++ (be16 (UInt16.ofNat data.length) ++ data)))
  have proto : (littleWords ([0, IP_TCP] ++ (be16 (UInt16.ofNat data.length) ++ data))).sum =
      0x600 + ((htons (UInt16.ofNat data.length)).toNat + (littleWords data).sum) := by
    rw [← be16_words]
    rfl
  have positive : 0 < (bigWords (be32 saddr ++ (be32 daddr ++ ([0, IP_TCP] ++
      (be16 (UInt16.ofNat data.length) ++ data))))).sum := by
    have six : UInt8.toNat 6 = 6 := rfl
    simp only [be32, IP_TCP, List.cons_append, List.nil_append, bigWords, List.sum_cons, six]
    omega
  rw [total_eq_largest (bigWords_le _) positive, bigWords_sum_dvd]
  omega

/- The sum that the checksum is taken of, before it is cut to 32 bits. -/
def checksumSum (tsk : TcpSock) (seg : Segment) : Nat :=
  (htonl tsk.saddr).toNat + (htonl tsk.daddr).toNat + 0x600 +
    (htons (UInt16.ofNat (tcpBytes seg.th 0 seg.payload).length)).toNat +
    (littleWords (tcpBytes seg.th 0 seg.payload)).sum

/- The checksum is the complement of what is left of that sum modulo 2^32. -/
theorem tcpV4Checksum_spec (tsk : TcpSock) (seg : Segment)
    (short : (tcpBytes seg.th 0 seg.payload).length < 2 ^ 16) :
    ∃ word, word + (tcpV4Checksum (tcpBytes seg.th 0 seg.payload) (htonl tsk.saddr)
        (htonl tsk.daddr)).toNat = 65535 ∧
      word % 65535 = checksumSum tsk seg % 2 ^ 32 % 65535 := by
  have whole : (UInt16.ofNat (tcpBytes seg.th 0 seg.payload).length).toNat =
      (tcpBytes seg.th 0 seg.payload).length := by
    rw [UInt16.toNat_ofNat']
    exact Nat.mod_eq_of_lt short
  unfold tcpV4Checksum tcpUdpChecksum
  dsimp only
  rw [whole, List.take_length]
  obtain ⟨word, complement, residue⟩ := checksum_spec (tcpBytes seg.th 0 seg.payload)
    (htonl tsk.saddr + htonl tsk.daddr + (htons IP_TCP.toUInt16).toUInt32 +
      (htons (UInt16.ofNat (tcpBytes seg.th 0 seg.payload).length)).toUInt32)
  refine ⟨word, complement, residue.trans ?_⟩
  unfold checksumSum
  have proto : ((htons IP_TCP.toUInt16).toUInt32).toNat = 0x600 := rfl
  rw [UInt32.toNat_add, UInt32.toNat_add, UInt32.toNat_add, proto, UInt16.toNat_toUInt32]
  omega

/- The loopback network goes through its own device. -/
theorem routeLookup_dev (daddr : UInt32) : ∃ rt, routeLookup daddr = some rt ∧
    rt.dev = if daddr &&& 0xff000000 = 0x7f000000 then loop else netdev := by
  have loopback : loop.addr &&& 0xff000000 = 0x7f000000 := by decide
  unfold routeLookup routes routeLookupLoop
  dsimp only
  rw [loopback]
  split
  · exact ⟨_, rfl, rfl⟩
  · unfold routeLookupLoop
    split
    · exact ⟨_, rfl, rfl⟩
    · unfold routeLookupLoop
      rw [if_pos (by simp)]
      exact ⟨_, rfl, rfl⟩

/-- The route to the peer leads out of the device whose address the connection has. -/
def RoutedFrom (tsk : TcpSock) : Prop := (routeLookup tsk.daddr).map (·.dev.addr) = some tsk.saddr

instance (tsk : TcpSock) : Decidable (RoutedFrom tsk) := inferInstanceAs (Decidable (_ = _))

/- `tcp_v4_connect` sets both addresses. -/
def Addressed (tsk : TcpSock) : Prop :=
  tsk.saddr = netdev.addr ∨ (tsk.saddr = 0 ∧ tsk.daddr = 0)

/-- The packet of a segment has a valid checksum when its source address is that of the connection
    and the sum that the checksum is taken of fits 32 bits. -/
theorem tcpPacket_checksum {tsk : TcpSock} {seg : Segment} (addressed : Addressed tsk)
    (short : (tcpBytes seg.th 0 seg.payload).length < 2 ^ 16) :
    (∃ packet, tcpPacket tsk seg = some packet ∧ ChecksumValid packet) ↔
      RoutedFrom tsk ∧ checksumSum tsk seg < 2 ^ 32 := by
  obtain ⟨rt, routed, dev⟩ := routeLookup_dev tsk.daddr
  obtain ⟨word, complement, residue⟩ := tcpV4Checksum_spec tsk seg short
  have packet : (∃ packet, tcpPacket tsk seg = some packet ∧ ChecksumValid packet) ↔
      ((htonl rt.dev.addr).toNat + (htonl tsk.daddr).toNat + 0x600 +
        (htons (UInt16.ofNat (tcpChecksummed tsk seg).length)).toNat +
        (littleWords (tcpChecksummed tsk seg)).sum) % 65535 = 0 := by
    unfold tcpPacket ipOutput
    rw [routed]
    simp only [Option.map_some, Option.some.injEq, exists_eq_left']
    exact checksumValid_iff _ _ _ _ _
  have same : (tcpChecksummed tsk seg).length = (tcpBytes seg.th 0 seg.payload).length := by
    unfold tcpChecksummed
    dsimp only
    rw [tcpBytes_length, tcpBytes_length]
  have words := tcpBytes_words seg.th (tcpV4Checksum (tcpBytes seg.th 0 seg.payload)
    (htonl tsk.saddr) (htonl tsk.daddr)) seg.payload
  rw [packet, same, tcpChecksummed, words]
  generalize (tcpV4Checksum (tcpBytes seg.th 0 seg.payload) (htonl tsk.saddr)
    (htonl tsk.daddr)).toNat = csum at complement ⊢
  unfold RoutedFrom
  rw [routed]
  simp only [Option.map_some, Option.some.injEq]
  have bytes := littleWords_sum_le (tcpBytes seg.th 0 seg.payload)
  have daddr := UInt32.toNat_lt (htonl tsk.daddr)
  have length := UInt16.toNat_lt (htons (UInt16.ofNat (tcpBytes seg.th 0 seg.payload).length))
  unfold checksumSum at residue ⊢
  have ours : (htonl netdev.addr).toNat = 0x0400000a := by decide
  have loopback : (htonl loop.addr).toNat = 0x0100007f := by decide
  have nowhere : (htonl 0).toNat = 0 := by decide
  -- the two sums differ by the source address, and by one when the sum does not fit
  split at dev
  · rename_i inside
    rcases addressed with source | ⟨-, unset⟩
    · rw [source, ours] at residue ⊢
      rw [dev, loopback]
      refine iff_of_false ?_ ?_
      · omega
      · exact fun ⟨same, _⟩ => absurd same (by decide)
    · rw [unset] at inside
      exact absurd inside (by decide)
  · rw [dev, ours]
    rcases addressed with source | ⟨source, unset⟩
    · rw [source, ours] at residue ⊢
      simp only [true_and]
      omega
    · rw [source, nowhere] at residue ⊢
      refine iff_of_false ?_ ?_
      · omega
      · exact fun ⟨same, _⟩ => absurd same (by decide)

end HfIp
