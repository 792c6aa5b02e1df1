import HfIp.ArpExchange
import HfIp.HeaderWords
import HfIp.IcmpEcho
import HfIp.SimultaneousOpen
import HfIp.SocketRuns

/- The whole stack, from the bytes of the frames that `netdev_rx_loop` reads to the bytes that
   `netdev_transmit` writes, and what it comes to: a table of hardware addresses, the sockets with their
   segments, and the segments on their way. -/
namespace HfIp

open Buffer Transition

/-! ### The stack -/

def tapDev : EthDev := { netdev with hwaddr := netdevHw }

/- `wire` is a history: the frames written to the device. -/
structure Stack where
  tapaddr : UInt32
  cache : List ArpCacheEntry := []
  sockets : Sockets := {}
  wire : List (List UInt8) := []
  deriving DecidableEq, Repr

inductive StackEvent where
  | frame (bytes : List UInt8)
  | call (e : SocketsEvent)
  deriving DecidableEq, Repr

/- The buffer that `tcp_transmit_skb` gives to `ip_output`. -/
def segmentSkb (tsk : TcpSock) (seg : Segment) : SkBytes :=
  let bytes := tcpChecksummed tsk seg
  { head := List.replicate thdr 0 ++ bytes, data := thdr, len := bytes.length }

def segmentFrames (tapaddr : UInt32) (cache : List ArpCacheEntry) (tsk : TcpSock) (seg : Segment) :
    List (List UInt8) :=
  ipOutputFrames tapaddr cache tsk.daddr IP_TCP.toUInt16 (segmentSkb tsk seg)

/- What the sockets have sent in a step, with the socket. -/
def sentSegments (n m : Sockets) : List (TcpSock × Segment) :=
  (List.range m.entries.length).flatMap fun i =>
    (emitted (n.conn i) (m.conn i)).map fun seg => ((m.conn i).tsk, seg)

def stackSockets (st : Stack) (e : SocketsEvent) : Option (Stack × Reply) := do
  let (m, r) ← sysExec st.sockets e
  some ({ st with
    sockets := m
    wire := st.wire ++ (sentSegments st.sockets m).flatMap fun x =>
      segmentFrames st.tapaddr st.cache x.1 x.2 }, r)

/- The text that the handler takes lies in the buffer; otherwise it reads what is behind. -/
def InBuffer : Handled → Prop
  | .tcp seg => seg.payload + seg.dlen.toNat ≤ BUFLEN
  | .icmp (some reply) => reply.icmp + reply.icmpLen.toNat ≤ BUFLEN
  | _ => True

instance : (h : Handled) → Decidable (InBuffer h)
  | .tcp _ | .icmp (some _) => inferInstanceAs (Decidable (_ ≤ _))
  | .icmp none | .arp | .dropped => inferInstanceAs (Decidable True)

/- The buffer after `eth_hdr`. -/
def rxSwapped (frame : List UInt8) : SkBytes := { rxSkb frame with head := ntohsAt (rxBuffer frame) 12 }

def stackExec (st : Stack) : StackEvent → Option (Stack × Reply)
  | .frame bytes =>
    if bytes.length ≤ BUFLEN ∧ InBuffer (netdevRx bytes) then
      match netdevRx bytes with
      | .dropped => some (st, .none)
      | .arp =>
        let r := arpRcv tapDev st.cache (rxSwapped bytes)
        some ({ st with cache := r.1, wire := st.wire ++ r.2.toList }, .none)
      | .icmp _ =>
        let skb := { rxSwapped bytes with head := ipInitPkt (rxSwapped bytes).head }
        some ({ st with wire := st.wire ++ icmpv4IncomingFrames st.tapaddr st.cache skb }, .none)
      | .tcp _ => do
        let seg ← ipRcvSegment bytes
        stackSockets st (.segment seg.th seg.payload)
    else none
  | .call (.segment _ _) => none
  | .call e => stackSockets st e

/-! ### What it comes to -/

/- A segment on its way, as the next stack reads it. -/
structure Carried where
  dmac : HwAddr
  saddr : UInt32
  daddr : UInt32
  th : TcpHdr
  payload : List UInt8
  deriving DecidableEq, Repr

/- The segment that `netdev_receive`, `ip_rcv` and `tcp_init_segment` find in a frame. -/
def readFrame (frame : List UInt8) : Option Carried :=
  match netdevRx frame with
  | .tcp _ => (ipRcvSegment frame).map fun seg =>
    { dmac := hwAddrAt frame 0, saddr := dwordAt frame (ihdr + 12), daddr := dwordAt frame (ihdr + 16)
      th := seg.th, payload := seg.payload }
  | _ => none

/- The stack without its bytes. -/
structure Network where
  tapaddr : UInt32
  known : UInt32 → Option HwAddr
  sockets : Sockets
  carried : List Carried

inductive NetworkEvent where
  | note (n : Learning.Note UInt32 HwAddr)
  | sockets (e : SocketsEvent)

/- A segment is carried to the next hop when its address is known. -/
def Network.carries (a : Network) (x : TcpSock × Segment) : Option Carried := do
  let rt ← hopLookup a.tapaddr x.1.daddr
  let dmac ← a.known (nextHop rt x.1.daddr)
  some { dmac := dmac, saddr := rt.dev.addr, daddr := x.1.daddr
         th := { x.2.th with data := tcpOptionBytes x.2.th }, payload := x.2.payload }

def networkExec (a : Network) : NetworkEvent → Option (Network × Reply)
  | .note n => some ({ a with known := Learning.learn a.known n }, .none)
  | .sockets e => do
    let (m, r) ← sysExec a.sockets e
    some ({ a with
      sockets := m
      carried := a.carried ++ (sentSegments a.sockets m).filterMap a.carries }, r)

def Stack.network (st : Stack) : Network :=
  { tapaddr := st.tapaddr, known := arpGetHwaddr st.cache, sockets := st.sockets
    carried := st.wire.filterMap readFrame }

def Stack.sees (_ : Stack) : StackEvent → Option NetworkEvent
  | .frame bytes =>
    match netdevRx bytes with
    | .arp => if EthernetIpv4 bytes then some (.note (arpNote tapDev bytes)) else none
    | .tcp _ => (ipRcvSegment bytes).map fun seg => .sockets (.segment seg.th seg.payload)
    | _ => none
  | .call e => some (.sockets e)

/- What the sockets by themselves see. -/
def Network.sees (_ : Network) : NetworkEvent → Option SocketsEvent
  | .note _ => none
  | .sockets e => some e

variable {frame : List UInt8} {cache : List ArpCacheEntry} {tapaddr : UInt32} {st st' : Stack}

/-! ### Reading a frame -/

theorem EthArp.unread {dst src : HwAddr} {h : ArpHdr} {d : ArpIpv4} (sent : EthArp dst src h d frame) :
    readFrame frame = none := by
  have inside : 12 + 2 ≤ frame.length := by rw [sent.long]; decide
  have type : wordAt (rxBuffer frame) 12 = ETH_P_ARP :=
    wordAt_of_field ((field_rxBuffer inside).trans sent.ethertype)
  unfold readFrame netdevRx netdevReceive
  rw [if_pos type]

theorem EchoHeader.unread {len : UInt16} {daddr : UInt32} (holds : EchoHeader frame ICMPV4 len daddr)
    (type : field frame 12 2 = be16 ETH_P_IP) (long : thdr ≤ frame.length) : readFrame frame = none := by
  obtain ⟨-, -, icmp⟩ := holds.accepted type long
  unfold readFrame
  rw [icmp rfl]

/-- `ip_output` of any message: one frame, or a request for the address of the next hop. -/
theorem ipOutputFrames_icmp {daddr : UInt32} {m : List UInt8} {n : Nat} (fits : thdr + n ≤ m.length) :
    (ipOutputFrames tapaddr cache daddr ICMPV4.toUInt16 ⟨m, thdr, n⟩).filterMap readFrame = [] := by
  cases known : hopHwaddr tapaddr cache daddr with
  | some dmac =>
    obtain ⟨reply, out, size, -, type, header, -⟩ := ipOutputFrames_sends ICMPV4.toUInt16 known fits
    have unread : readFrame reply = none := header.unread type (by omega)
    simp [out, unread]
  | none =>
    obtain ⟨rt, routed⟩ := hopLookup_some tapaddr daddr
    rw [hopHwaddr, routed, Option.bind_some] at known
    have header := ipHeaderSet_echo (m := m) ICMPV4.toUInt16 (UInt16.ofNat (n + IP_HDR_LEN)) rt.dev.addr
      daddr (by omega)
    unfold ipOutputFrames
    rw [routed]
    dsimp only [SkBytes.push]
    generalize ipHeaderSet ICMPV4.toUInt16 (UInt16.ofNat (n + IP_HDR_LEN)) rt.dev.addr daddr m = u at *
    unfold dstNeighFrames
    dsimp only
    rw [dwordAt_of_field header.daddr, known]
    have unread := (arpRequest_sends (dwordAt u (ihdr + 12)) (nextHop rt daddr) rt.ethDev).unread
    simp [unread]

/-! ### Frames that are sent -/

theorem icmpv4IncomingFrames_unread {m : List UInt8} (fits : ∀ reply ∈ icmpv4Incoming m,
      reply.icmp + reply.icmpLen.toNat ≤ m.length) {u : List UInt8} (long : u.length = m.length)
    (type : byteAt u ipData = byteAt m ipData) (first : byteAt u ihdr = byteAt m ihdr)
    (len : hostWordAt u (ihdr + 2) = wordAt m (ihdr + 2)) :
    (icmpv4IncomingFrames tapaddr cache ⟨u, 0, 0⟩).filterMap readFrame = [] := by
  unfold icmpv4IncomingFrames
  split
  · rename_i echo
    have asks : icmpv4Incoming m = some (icmpv4Reply m) := by
      unfold icmpv4Incoming
      rw [← type, if_pos echo]
    have within := fits _ asks
    have size : icmpv4Reply m = ⟨thdr, UInt16.ofInt (((hostWordAt u (ihdr + 2)).toNat : Int) -
        ((byteAt u ihdr).toNat % 16 * 4 : Nat))⟩ := by
      rw [len, first]
      simp only [icmpv4Reply, ipLen, ipHdr, thdr, ihdr, Nat.add_sub_cancel, Nat.cast_mul]
      rfl
    rw [size] at within
    unfold icmpv4ReplyFrames
    dsimp only [SkBytes.reserve, SkBytes.push]
    rw [Nat.zero_add, Nat.zero_add]
    generalize UInt16.ofInt (((hostWordAt u (ihdr + 2)).toNat : Int) -
      ((byteAt u ihdr).toNat % 16 * 4 : Nat)) = n at within
    rw [show ETH_HDR_LEN + IP_HDR_LEN + n.toNat - n.toNat = thdr from Nat.add_sub_cancel ..]
    exact ipOutputFrames_icmp (by rw [length_echoReplied, long]; exact within)
  · rfl

/- The header that `ip_output` puts in front of a packet. -/
def ipHeaderSummed (len : UInt16) (saddr daddr : UInt32) : List UInt8 :=
  ipHeader IP_TCP len saddr daddr (checksum (ipHeader IP_TCP len saddr daddr 0) 0)

/- A frame with the packet of a segment. -/
structure Frames (frame : List UInt8) (dmac : HwAddr) (len : UInt16) (saddr daddr : UInt32)
    (text : List UInt8) : Prop where
  dst : field frame 0 6 = hwAddrBytes dmac
  type : field frame 12 2 = be16 ETH_P_IP
  header : field frame ihdr IP_HDR_LEN = ipHeaderSummed len saddr daddr
  body : field frame thdr text.length = text
  long : frame.length = thdr + text.length

theorem Frames.parts {dmac : HwAddr} {len : UInt16} {saddr daddr : UInt32} {text : List UInt8}
    (framed : Frames frame dmac len saddr daddr text) :
    frame = field frame 0 ETH_HDR_LEN ++ (ipHeaderSummed len saddr daddr ++ text) := by
  conv_lhs => rw [← field_whole frame, framed.long, show thdr + text.length =
    ETH_HDR_LEN + (IP_HDR_LEN + text.length) by rw [thdr]; omega, field_append, field_append, Nat.zero_add]
  rw [show ETH_HDR_LEN + IP_HDR_LEN = thdr from rfl, framed.body]
  exact congrArg (fun header => field frame 0 ETH_HDR_LEN ++ (header ++ text)) framed.header

theorem Frames.numbers {dmac : HwAddr} {len : UInt16} {saddr daddr : UInt32} {text : List UInt8}
    (framed : Frames frame dmac len saddr daddr text) :
    dwordAt frame (ihdr + 12) = saddr ∧ dwordAt frame (ihdr + 16) = daddr := by
  have inner : ∀ i, i + 4 ≤ IP_HDR_LEN →
      field frame (ihdr + i) 4 = field (ipHeaderSummed len saddr daddr) i 4 := by
    intro i inside
    rw [← framed.header]
    exact (field_field frame inside).symm
  exact ⟨dwordAt_of_field (inner 12 (by decide)), dwordAt_of_field (inner 16 (by decide))⟩

/-- It is read as the segment in it. -/
theorem Frames.read {dmac : HwAddr} {len : UInt16} {saddr daddr : UInt32} {seg : Segment} {csum : UInt16}
    (framed : Frames frame dmac len saddr daddr (tcpBytes seg.th csum seg.payload)) (plain : seg.Plain)
    (total : len.toNat = IP_HDR_LEN + TCP_HDR_LEN + optionRoom seg.th + seg.payload.length) :
    readFrame frame = some { dmac := dmac, saddr := saddr, daddr := daddr
                             th := { seg.th with data := tcpOptionBytes seg.th }
                             payload := seg.payload } := by
  have eth : (field frame 0 ETH_HDR_LEN).length = ETH_HDR_LEN :=
    length_field (by rw [framed.long, thdr]; omega)
  obtain ⟨-, received⟩ := ipRcvSegment_packet (field frame 0 ETH_HDR_LEN) saddr daddr csum eth
    plain.words (plain.apart.imp id fun five => by rw [optionRoom, five]) total
  have parts := framed.parts
  unfold ipHeaderSummed at parts
  rw [← parts] at received
  have ip : wordAt (rxBuffer frame) 12 = ETH_P_IP := by
    rw [wordAt, byteAt_rxBuffer, byteAt_rxBuffer]
    exact wordAt_of_field framed.type
  have taken : ∃ skb, netdevRx frame = .tcp skb := by
    unfold netdevRx netdevReceive
    rw [ip, if_neg (by decide), if_pos rfl]
    unfold ipRcvSegment at received
    split at received
    · rename_i skb tcp
      exact ⟨skb, tcp⟩
    · cases received
  obtain ⟨skb, tcp⟩ := taken
  unfold readFrame
  rw [tcp]
  dsimp only
  rw [received, hwAddrAt_of_field framed.dst, framed.numbers.1, framed.numbers.2]
  rfl

/-- `ip_output` of a segment: with the address of the next hop it goes out in a frame, and without it the
    address is asked for. -/
theorem segmentFrames_framed (tsk : TcpSock) (seg : Segment) {rt : RtHop}
    (routed : hopLookup tapaddr tsk.daddr = some rt) :
    match arpGetHwaddr cache (nextHop rt tsk.daddr) with
    | some dmac => ∃ frame csum, segmentFrames tapaddr cache tsk seg = [frame] ∧
      Frames frame dmac (UInt16.ofNat ((tcpBytes seg.th csum seg.payload).length + IP_HDR_LEN)) rt.dev.addr
        tsk.daddr (tcpBytes seg.th csum seg.payload)
    | none => ∃ sip, segmentFrames tapaddr cache tsk seg = [arpRequest sip (nextHop rt tsk.daddr) rt.ethDev] := by
  obtain ⟨csum, bytes⟩ : ∃ csum, tcpChecksummed tsk seg = tcpBytes seg.th csum seg.payload := ⟨_, rfl⟩
  have out : segmentFrames tapaddr cache tsk seg = dstNeighFrames cache rt
      { head := ipHeaderSet IP_TCP.toUInt16
          (UInt16.ofNat ((tcpBytes seg.th csum seg.payload).length + IP_HDR_LEN)) rt.dev.addr tsk.daddr
          (List.replicate thdr 0 ++ tcpBytes seg.th csum seg.payload)
        data := ETH_HDR_LEN, len := (tcpBytes seg.th csum seg.payload).length + IP_HDR_LEN } := by
    unfold segmentFrames ipOutputFrames segmentSkb
    rw [routed, bytes]
    rfl
  generalize htext : tcpBytes seg.th csum seg.payload = text at out
  generalize hlen : UInt16.ofNat (text.length + IP_HDR_LEN) = len at out
  have room : thdr ≤ (List.replicate thdr (0 : UInt8) ++ text).length := by simp
  have zero : field (List.replicate thdr (0 : UInt8) ++ text) (ihdr + 4) 2 = be16 0 := by
    rw [field, List.drop_append_of_le_length (by decide)]
    rfl
  obtain ⟨header, -⟩ := ipHeaderSet_header IP_TCP.toUInt16 len rt.dev.addr tsk.daddr room zero
  have target := (ipHeaderSet_echo IP_TCP.toUInt16 len rt.dev.addr tsk.daddr room).daddr
  have behind : field (ipHeaderSet IP_TCP.toUInt16 len rt.dev.addr tsk.daddr
      (List.replicate thdr 0 ++ text)) thdr text.length = text := by
    rw [ipHeaderSet_other (Nat.le_refl _), field_right (by simp), List.length_replicate, Nat.sub_self]
    exact field_whole text
  have long : (ipHeaderSet IP_TCP.toUInt16 len rt.dev.addr tsk.daddr
      (List.replicate thdr 0 ++ text)).length = thdr + text.length := by simp
  generalize ipHeaderSet IP_TCP.toUInt16 len rt.dev.addr tsk.daddr (List.replicate thdr 0 ++ text) = u at *
  unfold dstNeighFrames at out
  dsimp only at out
  rw [dwordAt_of_field target] at out
  cases known : arpGetHwaddr cache (nextHop rt tsk.daddr) with
  | none =>
    rw [known] at out
    exact ⟨_, out⟩
  | some dmac =>
    rw [known] at out
    obtain ⟨size, dst, type, same⟩ := netdevTransmit_packet (m := u) rt.ethDev dmac
      (n := text.length + IP_HDR_LEN) (by rw [long, thdr]; omega)
    refine ⟨_, csum, out, ?_⟩
    rw [htext, hlen]
    refine ⟨dst, type, ?_, ?_, ?_⟩
    · rw [same ihdr IP_HDR_LEN (Nat.le_refl _) (by rw [ihdr]; omega)]
      exact header
    · rw [same thdr text.length (by decide) (by rw [thdr]; omega)]
      exact behind
    · rw [size, thdr]
      omega

/-- So a segment is read as it was sent, or is lost. -/
theorem segmentFrames_read {tsk : TcpSock} {seg : Segment} (plain : seg.Plain) {a : Network}
    (tap : a.tapaddr = tapaddr) (known : a.known = arpGetHwaddr cache) :
    (segmentFrames tapaddr cache tsk seg).filterMap readFrame = (a.carries (tsk, seg)).toList := by
  obtain ⟨rt, routed⟩ := hopLookup_some tapaddr tsk.daddr
  have framed := @segmentFrames_framed cache _ tsk seg _ routed
  have carries : a.carries (tsk, seg) = (arpGetHwaddr cache (nextHop rt tsk.daddr)).map fun dmac =>
      { dmac := dmac, saddr := rt.dev.addr, daddr := tsk.daddr
        th := { seg.th with data := tcpOptionBytes seg.th }, payload := seg.payload } := by
    unfold Network.carries
    simp only [tap, routed, known, Option.bind_eq_bind, Option.bind_some]
    cases arpGetHwaddr cache (nextHop rt tsk.daddr) <;> rfl
  rw [carries]
  split at framed
  · rename_i dmac found
    obtain ⟨frame, csum, out, framed⟩ := framed
    have few := seg.th.hl.isLt
    have short := plain.short
    have words := plain.words
    have read := framed.read plain (by
      rw [UInt16.toNat_ofNat', tcpBytes_length, IP_HDR_LEN, TCP_HDR_LEN, optionRoom]
      omega)
    rw [out, found]
    simp [read]
  · rename_i found
    obtain ⟨sip, out⟩ := framed
    have unread := (arpRequest_sends sip (nextHop rt tsk.daddr) rt.ethDev).unread
    rw [out, found]
    simp [unread]

/-! ### Steps -/

/- An ARP frame that has been swapped by `eth_hdr`. -/
theorem arpRcv_swapped (cache : List ArpCacheEntry) (frame : List UInt8) : ∃ m,
    ArpFields le16 le32 m (sentArpHdr frame) (sentArpData frame) ∧
    arpRcv tapDev cache (rxSwapped frame) =
      arpMerge tapDev cache m (sentArpHdr frame) (sentArpData frame) := by
  have wire := (arpFields_wire (rxBuffer_long frame)).ethernet
  exact ⟨_, wire.ntoh, arpRcv_holds tapDev cache wire⟩

/- What it does to the table, and what it is answered with. -/
theorem arpRcv_step (ok : CacheOk cache) (frame : List UInt8) :
    CacheOk (arpRcv tapDev cache (rxSwapped frame)).1 ∧
      (arpRcv tapDev cache (rxSwapped frame)).2.toList.filterMap readFrame = [] ∧
      arpGetHwaddr (arpRcv tapDev cache (rxSwapped frame)).1 =
        if EthernetIpv4 frame then Learning.learn (arpGetHwaddr cache) (arpNote tapDev frame)
        else arpGetHwaddr cache := by
  obtain ⟨m, holds, eq⟩ := arpRcv_swapped cache frame
  rw [eq]
  by_cases ours : EthernetIpv4 frame
  · obtain ⟨kept, learns⟩ := @arpMerge_learns _ _ (sentArpData frame) tapDev m ok ours.1 ours.2
    refine ⟨kept, ?_, by rw [if_pos ours]; exact learns⟩
    rw [arpMerge_answer tapDev cache m _ ours.1 ours.2]
    split
    · have unread := (arpReply_sends tapDev holds).unread
      simp [unread]
    · rfl
  · have passed : arpMerge tapDev cache m (sentArpHdr frame) (sentArpData frame) = (cache, none) := by
      unfold EthernetIpv4 at ours
      rw [arpMerge]
      split
      · rfl
      · rename_i ethernet
        split
        · rfl
        · rename_i ipv4
          exact absurd ⟨not_not.mp ethernet, not_not.mp ipv4⟩ ours
    rw [passed]
    exact ⟨ok, rfl, by rw [if_neg ours]⟩

theorem netdevRx_icmp {reply : Option IcmpSkb} (taken : netdevRx frame = .icmp reply) :
    reply = icmpv4Incoming (rxBuffer frame) := by
  unfold netdevRx netdevReceive at taken
  split at taken
  · cases taken
  · split at taken
    · unfold ipRcv at taken
      dsimp only at taken
      repeat' split at taken
      all_goals
        first
        | exact (Handled.icmp.inj taken).symm
        | cases taken
    · cases taken

/- What goes out for an ICMP message is no segment. -/
theorem icmp_unread {reply : Option IcmpSkb} (taken : netdevRx frame = .icmp reply)
    (within : InBuffer (.icmp reply)) : (icmpv4IncomingFrames tapaddr cache
      { rxSwapped frame with head := ipInitPkt (rxSwapped frame).head }).filterMap readFrame = [] := by
  have room := Nat.le_trans (show thdr ≤ arpData + ARP_DATA_LEN by decide) (rxBuffer_long frame)
  have size : BUFLEN ≤ (rxBuffer frame).length := by
    simp only [rxBuffer, BUFLEN, List.length_append, List.length_replicate]
    omega
  obtain ⟨length, first, len, -, behind⟩ := ipInitPkt_request (m := rxBuffer frame) room
  refine icmpv4IncomingFrames_unread (m := rxBuffer frame) ?_ length ?_ first len
  · obtain rfl := netdevRx_icmp taken
    intro r answers
    rw [Option.mem_def.mp answers] at within
    exact Nat.le_trans within size
  · exact byteAt_congr (behind ipData 1 (by decide))

/- What is known of the stack in a run. -/
structure StackInv (st : Stack) : Prop where
  cache : CacheOk st.cache
  plain : ∀ i, ∀ seg ∈ (st.sockets.conn i).out, seg.Plain

theorem stackSockets_mirrors {e : SocketsEvent} {r : Reply} (inv : StackInv st')
    (taken : stackSockets st e = some (st', r)) : networkExec st.network (.sockets e) = some (st'.network, r) := by
  simp only [stackSockets, Option.bind_eq_bind, Option.bind_eq_some_iff] at taken
  obtain ⟨⟨m, r'⟩, step, rest⟩ := taken
  obtain ⟨rfl, rfl⟩ := by simpa using rest
  have sent : ∀ x ∈ sentSegments st.sockets m, x.2.Plain := by
    intro x member
    obtain ⟨i, -, inside⟩ := List.mem_flatMap.mp member
    obtain ⟨seg, emits, rfl⟩ := List.mem_map.mp inside
    exact inv.plain i seg (List.mem_of_mem_drop emits)
  have read : ((sentSegments st.sockets m).flatMap fun x =>
      segmentFrames st.tapaddr st.cache x.1 x.2).filterMap readFrame =
        (sentSegments st.sockets m).filterMap st.network.carries := by
    generalize sentSegments st.sockets m = sending at sent
    induction sending with
    | nil => rfl
    | cons x rest ih =>
      have first : (segmentFrames st.tapaddr st.cache x.1 x.2).filterMap readFrame =
          (st.network.carries x).toList := segmentFrames_read (sent x (by simp)) rfl rfl
      rw [List.flatMap_cons, List.filterMap_append, first, ih fun y later => sent y (by simp [later]),
        List.filterMap_cons]
      cases st.network.carries x <;> rfl
  simp only [networkExec, Stack.network, step, Option.bind_eq_bind, Option.bind_some, List.filterMap_append]
  rw [read]
  rfl

/-- Each event of the stack is one of the abstract network or leaves it as it is. -/
theorem stackExec_mirrors {e : StackEvent} {r : Reply} (before : StackInv st) (after : StackInv st')
    (taken : stackExec st e = some (st', r)) :
    Mirrors networkExec Stack.network id (st.sees e) st st' r := by
  cases e with
  | call e =>
    have step : stackSockets st e = some (st', r) := by
      cases e with
      | segment th payload => cases taken
      | _ => exact taken
    exact stackSockets_mirrors after step
  | frame bytes =>
    simp only [stackExec] at taken
    split at taken
    · rename_i inside
      unfold Stack.sees
      dsimp only
      cases way : netdevRx bytes with
      | dropped =>
        simp only [way, Option.some.injEq, Prod.mk.injEq] at taken
        exact congrArg Stack.network taken.1.symm
      | arp =>
        simp only [way, Option.some.injEq, Prod.mk.injEq] at taken
        obtain ⟨rfl, rfl⟩ := taken
        obtain ⟨-, unread, learns⟩ := arpRcv_step before.cache bytes
        dsimp only
        split
        · rename_i ours
          rw [if_pos ours] at learns
          simp [Mirrors, networkExec, Stack.network, learns, unread]
        · rename_i other
          rw [if_neg other] at learns
          simp [Mirrors, Stack.network, learns, unread]
      | icmp reply =>
        simp only [way, Option.some.injEq, Prod.mk.injEq] at taken
        obtain ⟨rfl, rfl⟩ := taken
        have unread := fun tapaddr cache => @icmp_unread _ cache tapaddr _ way (way ▸ inside.2)
        simp [Mirrors, Stack.network, unread]
      | tcp skb =>
        simp only [way, Option.bind_eq_bind, Option.bind_eq_some_iff] at taken
        obtain ⟨seg, received, step⟩ := taken
        dsimp only
        rw [received]
        exact stackSockets_mirrors after step
    · cases taken

/-! ### Runs -/

/- What the sockets see of the stack. -/
def Stack.call (st : Stack) (e : StackEvent) : Option SocketsEvent :=
  (st.sees e).bind st.network.sees

theorem stackSockets_sockets {e : SocketsEvent} {r : Reply} (taken : stackSockets st e = some (st', r)) :
    sysExec st.sockets e = some (st'.sockets, r) := by
  simp only [stackSockets, Option.bind_eq_bind, Option.bind_eq_some_iff] at taken
  obtain ⟨⟨m, r'⟩, step, rest⟩ := taken
  obtain ⟨rfl, rfl⟩ := by simpa using rest
  exact step

theorem stackExec_sockets {e : StackEvent} {r : Reply} (taken : stackExec st e = some (st', r)) :
    Mirrors sysExec Stack.sockets id (st.call e) st st' r := by
  cases e with
  | call e =>
    have step : stackSockets st e = some (st', r) := by
      cases e with
      | segment th payload => cases taken
      | _ => exact taken
    exact stackSockets_sockets step
  | frame bytes =>
    simp only [stackExec] at taken
    split at taken
    · unfold Stack.call Stack.sees
      dsimp only
      cases way : netdevRx bytes with
      | tcp skb =>
        simp only [way, Option.bind_eq_bind, Option.bind_eq_some_iff] at taken
        obtain ⟨seg, received, step⟩ := taken
        dsimp only
        rw [received]
        exact stackSockets_sockets step
      | arp =>
        simp only [way, Option.some.injEq, Prod.mk.injEq] at taken
        obtain ⟨rfl, -⟩ := taken
        dsimp only
        split <;> rfl
      | _ =>
        simp only [way, Option.some.injEq, Prod.mk.injEq] at taken
        obtain ⟨rfl, -⟩ := taken
        rfl
    · cases taken

theorem stack_conn_run {trace : List (StackEvent × Reply)}
    (run : Run stackExec (fun _ _ _ => True) { tapaddr := tapaddr } trace st) (i : Nat) :
    ∃ own, Run exec (fun _ _ _ => True) {} own (st.sockets.conn i) :=
  ⟨_, conn_run (run.project Stack.sockets fun _ _ _ _ _ _ taken => stackExec_sockets taken) i⟩

theorem stackExec_cache {e : StackEvent} {r : Reply} (ok : CacheOk st.cache)
    (taken : stackExec st e = some (st', r)) : CacheOk st'.cache := by
  have kept : ∀ {e : SocketsEvent}, stackSockets st e = some (st', r) → CacheOk st'.cache := by
    intro e step
    simp only [stackSockets, Option.bind_eq_bind, Option.bind_eq_some_iff] at step
    obtain ⟨⟨m, r'⟩, -, rest⟩ := step
    obtain ⟨rfl, -⟩ := by simpa using rest
    exact ok
  cases e with
  | call e =>
    cases e with
    | segment th payload => cases taken
    | _ => exact kept taken
  | frame bytes =>
    simp only [stackExec] at taken
    split at taken
    · cases way : netdevRx bytes with
      | tcp skb =>
        simp only [way, Option.bind_eq_bind, Option.bind_eq_some_iff] at taken
        obtain ⟨seg, -, step⟩ := taken
        exact kept step
      | arp =>
        simp only [way, Option.some.injEq, Prod.mk.injEq] at taken
        obtain ⟨rfl, -⟩ := taken
        exact (arpRcv_step ok bytes).1
      | _ =>
        simp only [way, Option.some.injEq, Prod.mk.injEq] at taken
        obtain ⟨rfl, -⟩ := taken
        exact ok
    · cases taken

theorem run_stackInv {trace : List (StackEvent × Reply)}
    (run : Run stackExec (fun _ _ _ => True) { tapaddr := tapaddr } trace st) : StackInv st where
  cache := by
    induction run with
    | start => exact .nil
    | next _ _ taken ok => exact stackExec_cache ok taken
  plain i := by
    obtain ⟨own, alone⟩ := stack_conn_run run i
    exact run_plain alone

/- The peer asks for the address, and answers the SYN. -/
def tapPeer : EthDev := { addr := parseIpv4 10 0 0 5, hwaddr := #v[2, 0, 0, 0, 0, 0x50] }

def stackConnects : List StackEvent :=
  [.frame (arpRequest tapPeer.addr tapDev.addr tapPeer), .call .socket, .call (.connect 0 peerAddr 1000),
    .frame (ipFrame IP_TCP 40 (tcpBytes { peerHdr 5000 1001 with syn := true } 0 []))]

def SynAcked (st : Stack) : Prop :=
  st.network.carried.map (fun c => (c.dmac, c.th.syn, c.th.ackSeq)) =
    [(tapPeer.hwaddr, true, 0), (tapPeer.hwaddr, false, 5001)]

instance : DecidablePred SynAcked := fun _ => inferInstanceAs (Decidable (_ = _))

end HfIp
