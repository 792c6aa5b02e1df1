import HfIp.Checksum
import HfIp.RoundTrip

/- The answer to an echo request (src/icmpv4.c), built in the buffer of the request, and its way out
   (src/ip_output.c, src/route.c, src/dst.c, src/netdev.c). -/
namespace HfIp

open Buffer

def ICMP_V4_REPLY : UInt8 := 0

def RT_LOOPBACK : UInt8 := 0x01
def RT_GATEWAY : UInt8 := 0x02
def RT_HOST : UInt8 := 0x04

/- A route with the rest of its fields, and the hardware address of its device. -/
structure RtHop extends RtEntry where
  gateway : UInt32
  flags : UInt8
  hwaddr : HwAddr
  deriving DecidableEq, Repr

def RtHop.ethDev (rt : RtHop) : EthDev := { rt.dev with hwaddr := rt.hwaddr }

def loopHw : HwAddr := #v[0, 0, 0, 0, 0, 0]

def netdevHw : HwAddr := #v[0x00, 0x0c, 0x29, 0x6d, 0x50, 0x25]

/- `route_init`; `tapaddr` is an argument of the program. -/
def hops (tapaddr : UInt32) : List RtHop :=
  [⟨⟨loop.addr, 0xff000000, loop⟩, 0, RT_LOOPBACK, loopHw⟩,
    ⟨⟨netdev.addr, 0xffffff00, netdev⟩, 0, RT_HOST, netdevHw⟩,
    ⟨⟨0, 0, netdev⟩, tapaddr, RT_GATEWAY, netdevHw⟩]

def hopLookupLoop (daddr : UInt32) : Option RtHop → List RtHop → Option RtHop
  | rt, [] => rt
  | _, rt :: rest =>
    if daddr &&& rt.netmask = rt.dst &&& rt.netmask then some rt else hopLookupLoop daddr (some rt) rest

/- `route_lookup` with all that the route holds. -/
def hopLookup (tapaddr daddr : UInt32) : Option RtHop := hopLookupLoop daddr none (hops tapaddr)

/- The address that `dst_neigh_output` looks up in the cache. -/
def nextHop (rt : RtHop) (daddr : UInt32) : UInt32 :=
  if rt.flags &&& RT_GATEWAY ≠ 0 then rt.gateway else daddr

/- The frames that `dst_neigh_output` writes to the device. -/
def dstNeighFrames (cache : List ArpCacheEntry) (rt : RtHop) (skb : SkBytes) : List (List UInt8) :=
  let daddr := dwordAt skb.head (ihdr + 16)
  let saddr := dwordAt skb.head (ihdr + 12)
  let daddr := nextHop rt daddr
  match arpGetHwaddr cache daddr with
  | some dmac => [netdevTransmit rt.ethDev skb dmac ETH_P_IP]
  | none => [arpRequest saddr daddr rt.ethDev]

def ipOutputFrames (tapaddr : UInt32) (cache : List ArpCacheEntry) (daddr : UInt32) (protocol : UInt16)
    (skb : SkBytes) : List (List UInt8) :=
  match hopLookup tapaddr daddr with
  | none => []
  | some rt =>
    let skb := skb.push IP_HDR_LEN
    dstNeighFrames cache rt { skb with
      head := ipHeaderSet protocol (UInt16.ofNat skb.len) rt.dev.addr daddr skb.head }

/- The ICMP message at `icmp`, with `icmp_len` bytes. -/
def echoReplied (m : List UInt8) (icmp icmpLen : Nat) : List UInt8 :=
  let m := putByte m icmp ICMP_V4_REPLY
  let m := putWord m (icmp + 2) 0
  putWord m (icmp + 2) (checksum (field m icmp icmpLen) 0)

/- After `ip_init_pkt`. -/
def icmpv4ReplyFrames (tapaddr : UInt32) (cache : List ArpCacheEntry) (skb : SkBytes) :
    List (List UInt8) :=
  let icmpLen := UInt16.ofInt ((hostWordAt skb.head (ihdr + 2)).toNat -
    ((byteAt skb.head ihdr).toNat % 16 * 4 : Nat))
  let skb := skb.reserve (ETH_HDR_LEN + IP_HDR_LEN + icmpLen.toNat)
  let skb := skb.push icmpLen.toNat
  let skb := { skb with head := echoReplied skb.head skb.data icmpLen.toNat }
  ipOutputFrames tapaddr cache (hostDwordAt skb.head (ihdr + 12)) ICMPV4.toUInt16 skb

def icmpv4IncomingFrames (tapaddr : UInt32) (cache : List ArpCacheEntry) (skb : SkBytes) :
    List (List UInt8) :=
  if byteAt skb.head ipData = ICMP_V4_ECHO then icmpv4ReplyFrames tapaddr cache skb else []

/- The frames sent for one that is dropped or handed to ICMP, as `netdev_receive` and `ip_rcv` decide;
   nothing is said of the others. `eth_hdr` has swapped the type of the frame in place. -/
def netdevRxFrames (tapaddr : UInt32) (cache : List ArpCacheEntry) (frame : List UInt8) :
    Option (List (List UInt8)) :=
  match netdevRx frame with
  | .dropped => some []
  | .icmp _ => some (icmpv4IncomingFrames tapaddr cache
      { head := ipInitPkt (ntohsAt (rxBuffer frame) 12), data := 0, len := 0 })
  | _ => none

/-! ### Routes -/

theorem hopLookupLoop_entry (daddr : UInt32) (rts : List RtHop) (rt : Option RtHop) :
    (hopLookupLoop daddr rt rts).map (·.toRtEntry) =
      routeLookupLoop daddr (rt.map (·.toRtEntry)) (rts.map (·.toRtEntry)) := by
  induction rts generalizing rt with
  | nil => rfl
  | cons first rest ih =>
    rw [hopLookupLoop, List.map_cons, routeLookupLoop]
    split
    · rfl
    · exact ih (some first)

/-- The routes are those of `route_lookup`. -/
theorem hopLookup_entry (tapaddr daddr : UInt32) :
    (hopLookup tapaddr daddr).map (·.toRtEntry) = routeLookup daddr :=
  hopLookupLoop_entry daddr (hops tapaddr) none

/- Some route is always found: the last one matches every address. -/
theorem hopLookup_some (tapaddr daddr : UInt32) : ∃ rt, hopLookup tapaddr daddr = some rt := by
  obtain ⟨entry, found, -⟩ := routeLookup_dev daddr
  rw [← hopLookup_entry tapaddr, Option.map_eq_some_iff] at found
  obtain ⟨rt, here, -⟩ := found
  exact ⟨rt, here⟩

/-! ### The message -/

section

variable {m : List UInt8}

theorem length_echoReplied (icmp n : Nat) : (echoReplied m icmp n).length = m.length := by
  rw [echoReplied, length_putWord, length_putWord, length_putByte]

/-- The message in the place of the request: type and checksum are new, and the checksum verifies. -/
theorem echoReplied_message {icmp n : Nat} (fits : icmp + n ≤ m.length) (long : 4 ≤ n)
    (short : n ≤ 65535) :
    field (echoReplied m icmp n) icmp 1 = [ICMP_V4_REPLY] ∧
      (∀ i k, (i + k ≤ icmp ∨ icmp + 1 ≤ i) → (i + k ≤ icmp + 2 ∨ icmp + 4 ≤ i) →
        field (echoReplied m icmp n) i k = field m i k) ∧
      checksum (field (echoReplied m icmp n) icmp n) 0 = 0 := by
  unfold echoReplied
  set u := putWord (putByte m icmp ICMP_V4_REPLY) (icmp + 2) 0 with hu
  have length : u.length = m.length := by rw [hu, length_putWord, length_putByte]
  have zero : field u (icmp + 2) 2 = [0, 0] :=
    putWord_here 0 (by rw [length_putByte]; omega)
  have type : field u icmp 1 = [ICMP_V4_REPLY] := by
    rw [hu, field_putWord _ _ (by omega)]
    exact putByte_here _ (by omega)
  refine ⟨?_, fun i k before behind => ?_, ?_⟩
  · rw [field_putWord _ _ (by omega), type]
  · rw [field_putWord _ _ (by omega), field_putWord _ _ (by omega), field_putByte _ _ (by omega)]
  · have cut : (field u icmp n).length = n := length_field (by omega)
    have inside : field (putWord u (icmp + 2) (checksum (field u icmp n) 0)) icmp n =
        putWord (field u icmp n) 2 (checksum (field u icmp n) 0) :=
      field_put_inside _ _ (by omega)
    rw [inside]
    refine checksum_verifies (by omega) rfl (by omega) ?_
    rw [field_field _ (by omega), zero]

/-! ### The header -/

/- What the next `ip_rcv` looks at, with the checksum still 0. -/
structure EchoFields (word : UInt16 → List UInt8) (dword : UInt32 → List UInt8) (m : List UInt8)
    (proto : UInt8) (len : UInt16) (daddr : UInt32) : Prop where
  version : field m ihdr 1 = [IPV4 <<< 4 ||| 5]
  len : field m (ihdr + 2) 2 = word len
  ttl : field m (ihdr + 8) 1 = [64]
  proto : field m (ihdr + 9) 1 = [proto]
  csum : field m (ihdr + 10) 2 = word 0
  daddr : field m (ihdr + 16) 4 = dword daddr

theorem putIpHeader_echo {protocol len : UInt16} {saddr daddr : UInt32} (long : thdr ≤ m.length) :
    EchoFields le16 le32 (putIpHeader protocol len saddr daddr m) protocol.toUInt8 len daddr := by
  have room : 34 ≤ m.length := long
  have nibbles := version_here long
  unfold putIpHeader
  simp only [thdr, ihdr, ETH_HDR_LEN, IP_HDR_LEN, Nat.reduceAdd] at *
  constructor <;>
    simp (disch := first
        | omega
        | (simp only [length_putWord, length_putDword, length_putByte, length_putLow, length_putHigh]; omega)) only
      [ihdr, ETH_HDR_LEN, Nat.reduceAdd, field_putWord, field_putDword, field_putByte, putWord_here,
        putDword_here, putByte_here, nibbles]

theorem htonIpHeader_echo {proto : UInt8} {len : UInt16} {daddr : UInt32} (long : thdr ≤ m.length)
    (holds : EchoFields le16 le32 m proto len daddr) :
    EchoFields be16 be32 (htonIpHeader m) proto len daddr := by
  have room : 34 ≤ m.length := long
  obtain ⟨version, len, ttl, proto, csum, daddr⟩ := holds
  unfold htonIpHeader
  simp only [ihdr, ETH_HDR_LEN, Nat.reduceAdd] at *
  constructor <;>
    simp (disch := first
        | omega
        | (simp only [length_htonsAt, length_htonlAt]; omega)) only
      [ihdr, ETH_HDR_LEN, Nat.reduceAdd, field_htonsAt, field_htonlAt, htonsAt_here, htonlAt_here, version,
        len, ttl, proto, csum, daddr, le16_reverse, le32_reverse]

/-- What the next `ip_rcv` looks at. -/
structure EchoHeader (m : List UInt8) (proto : UInt8) (len : UInt16) (daddr : UInt32) : Prop where
  version : field m ihdr 1 = [IPV4 <<< 4 ||| 5]
  len : field m (ihdr + 2) 2 = be16 len
  ttl : field m (ihdr + 8) 1 = [64]
  proto : field m (ihdr + 9) 1 = [proto]
  daddr : field m (ihdr + 16) 4 = be32 daddr
  verifies : checksum (field m ihdr IP_HDR_LEN) 0 = 0

/-- The header that `ip_output` writes over that of the request, whose `id` it keeps. -/
theorem ipHeaderSet_echo (protocol len : UInt16) (saddr daddr : UInt32) (long : thdr ≤ m.length) :
    EchoHeader (ipHeaderSet protocol len saddr daddr m) protocol.toUInt8 len daddr := by
  have holds : EchoFields be16 be32 (htonIpHeader (putIpHeader protocol len saddr daddr m))
      protocol.toUInt8 len daddr := htonIpHeader_echo (by simpa using long) (putIpHeader_echo long)
  have size : thdr ≤ (htonIpHeader (putIpHeader protocol len saddr daddr m)).length := by simpa using long
  unfold ipHeaderSet
  generalize htonIpHeader (putIpHeader protocol len saddr daddr m) = u at holds size
  have words : (byteAt u ihdr).toNat % 16 * 4 = IP_HDR_LEN := by
    rw [byteAt_of_one holds.version]
    rfl
  have kept (i n : Nat) (apart : i + n ≤ ihdr + 10 ∨ ihdr + 12 ≤ i) :
      field (ipSendCheck u) i n = field u i n := field_putWord _ _ apart
  refine ⟨(kept _ _ (by omega)).trans holds.version, (kept _ _ (by omega)).trans holds.len,
    (kept _ _ (by omega)).trans holds.ttl, (kept _ _ (by omega)).trans holds.proto,
    (kept _ _ (by omega)).trans holds.daddr, ?_⟩
  unfold ipSendCheck
  rw [words]
  have cut : (field u ihdr IP_HDR_LEN).length = 20 := length_field size
  have inside : field (putWord u (ihdr + 10) (checksum (field u ihdr IP_HDR_LEN) 0)) ihdr IP_HDR_LEN =
      putWord (field u ihdr IP_HDR_LEN) 10 (checksum (field u ihdr IP_HDR_LEN) 0) :=
    field_put_inside _ _ size
  rw [inside]
  refine checksum_verifies (by omega) rfl (by omega) ?_
  rw [field_field _ (by decide)]
  exact holds.csum

/-! ### The frame -/

/-- The packet at the front of the buffer goes out behind the Ethernet header. -/
theorem netdevTransmit_packet (dev : EthDev) (dst : HwAddr) {n : Nat} (fits : ETH_HDR_LEN + n ≤ m.length) :
    (netdevTransmit dev ⟨m, ETH_HDR_LEN, n⟩ dst ETH_P_IP).length = ETH_HDR_LEN + n ∧
      field (netdevTransmit dev ⟨m, ETH_HDR_LEN, n⟩ dst ETH_P_IP) 0 6 = hwAddrBytes dst ∧
      field (netdevTransmit dev ⟨m, ETH_HDR_LEN, n⟩ dst ETH_P_IP) 12 2 = be16 ETH_P_IP ∧
      ∀ i k, ETH_HDR_LEN ≤ i → i + k ≤ ETH_HDR_LEN + n →
        field (netdevTransmit dev ⟨m, ETH_HDR_LEN, n⟩ dst ETH_P_IP) i k = field m i k := by
  have cut : netdevTransmit dev ⟨m, ETH_HDR_LEN, n⟩ dst ETH_P_IP =
      field (htonsAt (putWord (putHwAddr (putHwAddr m 0 dst) 6 dev.hwaddr) 12 ETH_P_IP) 12) 0 (n + 14) :=
    rfl
  simp only [ETH_HDR_LEN] at *
  rw [cut]
  refine ⟨?_, ?_, ?_, fun i k behind inside => ?_⟩
  · rw [length_field]
    · omega
    · simp only [length_htonsAt, length_putWord, length_putHwAddr]
      omega
  all_goals
    simp (disch := first | omega | (simp only [length_putWord, length_putHwAddr]; omega)) only
      [Nat.zero_add, field_field, field_putWord, field_putHwAddr, field_htonsAt, htonsAt_here, le16_reverse,
        putWord_here, putHwAddr_here]

/-- A frame with such a header is accepted. -/
theorem EchoHeader.accepted {proto : UInt8} {len : UInt16} {daddr : UInt32}
    (holds : EchoHeader m proto len daddr) (type : field m 12 2 = be16 ETH_P_IP)
    (long : thdr ≤ m.length) :
    (ipHdr m).ihl = 5 ∧ (ipHdr m).len = len ∧ (proto = ICMPV4 →
      netdevRx m = .icmp (icmpv4Incoming (rxBuffer m))) := by
  have version := byteAt_of_one holds.version
  have ihl : (ipHdr m).ihl = 5 := by
    show (byteAt m ihdr).toNat % 16 = 5
    rw [version]
    rfl
  refine ⟨ihl, wordAt_of_field holds.len, fun icmp => ?_⟩
  have eth : wordAt (rxBuffer m) 12 = ETH_P_IP := by
    rw [wordAt, byteAt_rxBuffer, byteAt_rxBuffer]
    exact wordAt_of_field type
  have four : (ipHdr m).version = IPV4.toNat := by
    show (byteAt m ihdr).toNat / 16 = _
    rw [version]
    rfl
  have ttl : (ipHdr m).ttl = 64 := byteAt_of_one holds.ttl
  have proto_of : (ipHdr m).proto = ICMPV4 := (byteAt_of_one holds.proto).trans icmp
  have verified : checksum (((rxBuffer m).drop ETH_HDR_LEN).take 20) 0 = 0 := by
    have slice : ((rxBuffer m).drop ETH_HDR_LEN).take 20 = field m ihdr IP_HDR_LEN := rxBuffer_slice long
    rw [slice]
    exact holds.verifies
  unfold netdevRx netdevReceive ipRcv
  rw [eth, if_neg (by decide), if_pos rfl, ipHdr_rxBuffer]
  dsimp only
  rw [four, ihl, ttl, proto_of, if_neg (by decide), if_neg (by decide), if_neg (by decide), verified,
    if_neg (by decide), if_pos rfl]

/-! ### The request -/

/- What the swaps of `eth_hdr` and `ip_init_pkt` leave of a frame. -/
theorem ipInitPkt_request (long : thdr ≤ m.length) :
    (ipInitPkt (ntohsAt m 12)).length = m.length ∧
      byteAt (ipInitPkt (ntohsAt m 12)) ihdr = byteAt m ihdr ∧
      hostWordAt (ipInitPkt (ntohsAt m 12)) (ihdr + 2) = wordAt m (ihdr + 2) ∧
      hostDwordAt (ipInitPkt (ntohsAt m 12)) (ihdr + 12) = dwordAt m (ihdr + 12) ∧
      ∀ i k, thdr ≤ i → field (ipInitPkt (ntohsAt m 12)) i k = field m i k := by
  have room : 34 ≤ m.length := long
  have word := field_word (m := m) (i := 16) (by omega)
  have dword := field_dword (m := m) (i := 26) (by omega)
  unfold ipInitPkt
  simp only [thdr, ihdr, ETH_HDR_LEN, IP_HDR_LEN, Nat.reduceAdd] at *
  refine ⟨?_, byteAt_congr ?_, hostWordAt_of_field ?_, hostDwordAt_of_field ?_, fun i k behind => ?_⟩
  · simp only [length_ntohsAt, length_ntohlAt]
  all_goals
    simp (disch := first | omega | (simp only [length_ntohsAt, length_ntohlAt]; omega)) only
      [field_ntohsAt, field_ntohlAt, ntohsAt_here, ntohlAt_here, word, dword, be16_reverse, be32_reverse]

end

/- The hardware address that the cache has for the next hop to `daddr`. -/
def hopHwaddr (tapaddr : UInt32) (cache : List ArpCacheEntry) (daddr : UInt32) : Option HwAddr :=
  (hopLookup tapaddr daddr).bind fun rt => arpGetHwaddr cache (nextHop rt daddr)

/-- `ip_output` of the message behind the header of the buffer, with the next hop in the cache: one frame,
    with a new header and the message as it is. -/
theorem ipOutputFrames_sends (protocol : UInt16) {tapaddr daddr : UInt32} {cache : List ArpCacheEntry}
    {dmac : HwAddr} {m : List UInt8} {n : Nat} (known : hopHwaddr tapaddr cache daddr = some dmac)
    (fits : thdr + n ≤ m.length) :
    ∃ frame, ipOutputFrames tapaddr cache daddr protocol ⟨m, thdr, n⟩ = [frame] ∧
      frame.length = thdr + n ∧ field frame 0 6 = hwAddrBytes dmac ∧
      field frame 12 2 = be16 ETH_P_IP ∧
      EchoHeader frame protocol.toUInt8 (UInt16.ofNat (n + IP_HDR_LEN)) daddr ∧
      ∀ i k, thdr ≤ i → i + k ≤ thdr + n → field frame i k = field m i k := by
  obtain ⟨rt, routed⟩ := hopLookup_some tapaddr daddr
  rw [hopHwaddr, routed, Option.bind_some] at known
  have header := ipHeaderSet_echo (m := m) protocol (UInt16.ofNat (n + IP_HDR_LEN)) rt.dev.addr daddr
    (by omega)
  have later (i k : Nat) (behind : thdr ≤ i) :
      field (ipHeaderSet protocol (UInt16.ofNat (n + IP_HDR_LEN)) rt.dev.addr daddr m) i k = field m i k :=
    ipHeaderSet_other behind
  have long : (ipHeaderSet protocol (UInt16.ofNat (n + IP_HDR_LEN)) rt.dev.addr daddr m).length =
      m.length := length_ipHeaderSet ..
  unfold ipOutputFrames
  rw [routed]
  dsimp only [SkBytes.push]
  rw [show thdr - IP_HDR_LEN = ETH_HDR_LEN from rfl]
  generalize ipHeaderSet protocol (UInt16.ofNat (n + IP_HDR_LEN)) rt.dev.addr daddr m = u at *
  unfold dstNeighFrames
  dsimp only
  rw [dwordAt_of_field header.daddr, known]
  dsimp only
  obtain ⟨length, dst, type, same⟩ := netdevTransmit_packet (m := u) rt.ethDev dmac (n := n + IP_HDR_LEN)
    (by rw [long]; simp only [thdr] at fits; omega)
  have size : ETH_HDR_LEN + (n + IP_HDR_LEN) = thdr + n := by
    rw [thdr]
    omega
  rw [size] at length same
  refine ⟨_, rfl, length, dst, type, ?_, fun i k behind inside => ?_⟩
  · have front (i k : Nat) (behind : ETH_HDR_LEN ≤ i) (inside : i + k ≤ thdr) :=
      same i k behind (Nat.le_trans inside (Nat.le_add_right _ _))
    refine ⟨?_, ?_, ?_, ?_, ?_, ?_⟩
    · exact (front _ _ (by decide) (by decide)).trans header.version
    · exact (front _ _ (by decide) (by decide)).trans header.len
    · exact (front _ _ (by decide) (by decide)).trans header.ttl
    · exact (front _ _ (by decide) (by decide)).trans header.proto
    · exact (front _ _ (by decide) (by decide)).trans header.daddr
    · rw [front _ _ (by decide) (by decide)]
      exact header.verifies
  · exact (same i k (Nat.le_trans (by decide) behind) inside).trans (later i k behind)

/- Where `icmpv4_reply` writes: the message stays in its place, behind the header. -/
theorem icmpv4ReplyFrames_in_place (tapaddr : UInt32) (cache : List ArpCacheEntry) {u : List UInt8}
    {n : Nat} (ihl : (byteAt u ihdr).toNat % 16 = 5) (len : (hostWordAt u (ihdr + 2)).toNat = n + 20) :
    icmpv4ReplyFrames tapaddr cache ⟨u, 0, 0⟩ =
      ipOutputFrames tapaddr cache (hostDwordAt (echoReplied u thdr n) (ihdr + 12)) ICMPV4.toUInt16
        ⟨echoReplied u thdr n, thdr, n⟩ := by
  have short : n + 20 < 65536 := len ▸ (hostWordAt u (ihdr + 2)).toNat_lt
  have icmpLen : (UInt16.ofInt (((hostWordAt u (ihdr + 2)).toNat : Int) -
      ((byteAt u ihdr).toNat % 16 * 4 : Nat))).toNat = n := by
    rw [ihl, len, show ((n + 20 : Nat) : Int) - (5 * 4 : Nat) = (n : Int) by omega,
      ofInt_toNat16 (by omega) (by omega), Int.toNat_natCast]
  unfold icmpv4ReplyFrames
  dsimp only [SkBytes.reserve, SkBytes.push]
  rw [icmpLen, Nat.zero_add, Nat.zero_add, show ETH_HDR_LEN + IP_HDR_LEN + n - n = thdr from
    Nat.add_sub_cancel ..]

/-- The answer to a request in a buffer in host order. -/
theorem icmpv4IncomingFrames_echo {tapaddr : UInt32} {cache : List ArpCacheEntry} {dmac : HwAddr}
    {u : List UInt8} {n : Nat} (echo : byteAt u ipData = ICMP_V4_ECHO)
    (ihl : (byteAt u ihdr).toNat % 16 = 5) (len : (hostWordAt u (ihdr + 2)).toNat = n + 20)
    (long : 8 ≤ n) (fits : thdr + n ≤ u.length)
    (known : hopHwaddr tapaddr cache (hostDwordAt u (ihdr + 12)) = some dmac) :
    ∃ reply, icmpv4IncomingFrames tapaddr cache ⟨u, 0, 0⟩ = [reply] ∧
      reply.length = thdr + n ∧ field reply 0 6 = hwAddrBytes dmac ∧
      field reply 12 2 = be16 ETH_P_IP ∧
      EchoHeader reply ICMPV4 (hostWordAt u (ihdr + 2)) (hostDwordAt u (ihdr + 12)) ∧
      byteAt reply ipData = ICMP_V4_REPLY ∧ checksum (field reply ipData n) 0 = 0 ∧
      ∀ i k, thdr + 1 ≤ i → (i + k ≤ thdr + 2 ∨ thdr + 4 ≤ i) → i + k ≤ thdr + n →
        field reply i k = field u i k := by
  have short : n + 20 < 65536 := len ▸ (hostWordAt u (ihdr + 2)).toNat_lt
  obtain ⟨type, kept, verifies⟩ := echoReplied_message (m := u) fits (by omega) (by omega)
  have requester : hostDwordAt (echoReplied u thdr n) (ihdr + 12) = hostDwordAt u (ihdr + 12) := by
    have same : field (echoReplied u thdr n) (ihdr + 12) 4 = field u (ihdr + 12) 4 :=
      kept _ _ (.inl (by decide)) (.inl (by decide))
    exact hostDwordAt_of_field (same.trans (field_hostDword
      (Nat.le_trans (show ihdr + 12 + 4 ≤ thdr by decide) (by omega))))
  obtain ⟨reply, out, size, dst, eth, header, message⟩ := ipOutputFrames_sends ICMPV4.toUInt16 (n := n) known
    (length_echoReplied thdr n ▸ fits)
  refine ⟨reply, ?_, size, dst, eth, ?_, ?_, ?_, fun i k from_code beside inside => ?_⟩
  · unfold icmpv4IncomingFrames
    rw [if_pos echo, icmpv4ReplyFrames_in_place tapaddr cache ihl len, requester, out]
  · have same : hostWordAt u (ihdr + 2) = UInt16.ofNat (n + IP_HDR_LEN) := by
      rw [IP_HDR_LEN, ← len, UInt16.ofNat_toNat]
    rw [same]
    exact header
  · exact byteAt_of_one ((message thdr 1 (Nat.le_refl _) (by omega)).trans type)
  · exact (congrArg (checksum · 0) (message thdr n (Nat.le_refl _) (Nat.le_refl _))).trans verifies
  · rw [message i k (by omega) inside, kept i k (.inr from_code) beside]

/-- An echo request in a packet without options, with all its bytes received and the next hop to the
    requester in the cache, is answered by one frame: accepted in its turn, to the requester, with the
    length, the code, the identifier, the number and the data of the request. -/
theorem echo_reply {tapaddr : UInt32} {cache : List ArpCacheEntry} {frame : List UInt8} {r : IcmpSkb}
    {dmac : HwAddr} (accepted : netdevRx frame = .icmp (some r)) (plain : (ipHdr frame).ihl = 5)
    (long : 28 ≤ (ipHdr frame).len.toNat)
    (whole : ETH_HDR_LEN + (ipHdr frame).len.toNat ≤ frame.length)
    (known : hopHwaddr tapaddr cache (dwordAt frame (ihdr + 12)) = some dmac) :
    ∃ reply, netdevRxFrames tapaddr cache frame = some [reply] ∧
      reply.length = ETH_HDR_LEN + (ipHdr frame).len.toNat ∧ field reply 0 6 = hwAddrBytes dmac ∧
      netdevRx reply = .icmp none ∧ (ipHdr reply).ihl = 5 ∧ (ipHdr reply).len = (ipHdr frame).len ∧
      dwordAt reply (ihdr + 16) = dwordAt frame (ihdr + 12) ∧
      byteAt reply ipData = ICMP_V4_REPLY ∧
      checksum (field reply ipData ((ipHdr frame).len.toNat - 20)) 0 = 0 ∧
      byteAt reply (ipData + 1) = byteAt frame (ipData + 1) ∧
      field reply (ipData + 4) ((ipHdr frame).len.toNat - 24) =
        field frame (ipData + 4) ((ipHdr frame).len.toNat - 24) := by
  obtain ⟨-, ⟨-, given⟩ | ⟨-, tcp⟩⟩ := netdevRx_dispatched accepted trivial
  · have request : byteAt (rxBuffer frame) ipData = ICMP_V4_ECHO := by
      by_contra other
      rw [icmpv4Incoming, if_neg other] at given
      cases given
    obtain ⟨n, size⟩ : ∃ n, (ipHdr frame).len.toNat = n + 20 := ⟨_, (Nat.sub_add_cancel (by omega)).symm⟩
    have enough : thdr + n ≤ frame.length := by
      simp only [thdr, ETH_HDR_LEN, IP_HDR_LEN] at *
      omega
    have room : thdr + n ≤ (rxBuffer frame).length := by
      rw [rxBuffer, List.length_append]
      omega
    have saddr : dwordAt (rxBuffer frame) (ihdr + 12) = dwordAt frame (ihdr + 12) := by
      simp only [dwordAt, wordAt, byteAt_rxBuffer]
    obtain ⟨length, ihl, len, requester, behind⟩ := ipInitPkt_request (m := rxBuffer frame) (by omega)
    have len_same : hostWordAt (ipInitPkt (ntohsAt (rxBuffer frame) 12)) (ihdr + 2) = (ipHdr frame).len := by
      rw [len, wordAt, byteAt_rxBuffer, byteAt_rxBuffer]
      rfl
    rw [byteAt_rxBuffer] at ihl
    rw [saddr] at requester
    have next_hop : hopHwaddr tapaddr cache
        (hostDwordAt (ipInitPkt (ntohsAt (rxBuffer frame) 12)) (ihdr + 12)) = some dmac := by
      rw [requester]
      exact known
    obtain ⟨reply, out, total, dst, eth, header, type, verifies, same⟩ := icmpv4IncomingFrames_echo (n := n)
      ((byteAt_congr (behind ipData 1 (by decide))).trans request) (ihl ▸ plain) (len_same ▸ size)
      (by omega) (length ▸ room) next_hop
    rw [requester, len_same] at header
    obtain ⟨ihl', len', taken⟩ := header.accepted eth (total ▸ Nat.le_add_right _ _)
    have kept (i k : Nat) (from_code : thdr + 1 ≤ i) (beside : i + k ≤ thdr + 2 ∨ thdr + 4 ≤ i)
        (inside : i + k ≤ thdr + n) : field reply i k = field frame i k := by
      rw [same i k from_code beside inside, behind i k (by omega)]
      exact rxBuffer_slice (by omega)
    refine ⟨reply, ?_, ?_, dst, ?_, ihl', len', dwordAt_of_field header.daddr, type, ?_, ?_, ?_⟩
    · unfold netdevRxFrames
      rw [accepted]
      exact congrArg some out
    · rw [total, size, thdr, IP_HDR_LEN]
      omega
    · rw [taken rfl, icmpv4Incoming, byteAt_rxBuffer, type, if_neg (by decide)]
    · rw [size, Nat.add_sub_cancel]
      exact verifies
    · refine byteAt_congr (kept (ipData + 1) 1 (by decide) (.inl (by decide)) ?_)
      show thdr + 1 + 1 ≤ thdr + n
      omega
    · rw [show (ipHdr frame).len.toNat - 24 = n - 4 by omega]
      refine kept (ipData + 4) (n - 4) (by decide) (.inr (by decide)) ?_
      show thdr + 4 + (n - 4) ≤ thdr + n
      omega
  · cases tcp

/- A request with one byte of data from a host of the network. -/
def pingFrame : List UInt8 := ipFrame ICMPV4 29 [8, 0, 0, 0, 0, 1, 0, 2, 65]

def pingCache : List ArpCacheEntry :=
  [⟨ARP_ETHERNET, parseIpv4 10 0 0 5, #v[2, 0, 0, 0, 0, 5], ARP_RESOLVED⟩]

theorem echo_reply_ping : ∃ reply, netdevRxFrames 0 pingCache pingFrame = some [reply] ∧
    reply.length = 43 ∧ byteAt reply ipData = ICMP_V4_REPLY ∧ field reply 38 5 = [0, 1, 0, 2, 65] := by
  have accepted : netdevRx pingFrame = .icmp (some ⟨34, 9⟩) := by decide +kernel
  have known : hopHwaddr 0 pingCache (dwordAt pingFrame (ihdr + 12)) = some #v[2, 0, 0, 0, 0, 5] := by
    decide +kernel
  obtain ⟨reply, sent, size, -, -, -, -, -, type, -, -, data⟩ := echo_reply accepted (by decide +kernel)
    (by decide +kernel) (by decide +kernel) known
  exact ⟨reply, sent, size.trans (by decide +kernel), type, data.trans (by decide +kernel)⟩

end HfIp
