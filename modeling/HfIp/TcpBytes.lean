import HfIp.Arp

/- The buffers that src/tcp_output.c builds and src/ip_output.c completes, byte for byte. Both write the
   headers in place, from the front of the buffer, while `data` is pushed back from its end. -/
namespace HfIp

open Buffer

/- A buffer with the fields that the send path reads. -/
structure TxSkb extends SkBytes where
  dlen : Nat
  protocol : UInt16
  deriving DecidableEq, Repr

def TxSkb.push (skb : TxSkb) (len : Nat) : TxSkb :=
  { skb with toSkBytes := skb.toSkBytes.push len }

/- `end` is the end of the allocation. -/
def skbResetHeader (skb : TxSkb) : TxSkb :=
  { skb with data := skb.head.length - skb.dlen, len := skb.dlen }

/- Where `ip_hdr`, `tcp_hdr` and `th->data` are. -/
def ihdr : Nat := ETH_HDR_LEN

def thdr : Nat := ETH_HDR_LEN + IP_HDR_LEN

def thData : Nat := thdr + TCP_HDR_LEN

/-! ### Bit fields -/

/- Of two fields of four bits in a byte, the first has the low bits. -/
def putLow (m : List UInt8) (i n : Nat) : List UInt8 :=
  putByte m i (UInt8.ofNat ((byteAt m i).toNat / 16 * 16 + n % 16))

def putHigh (m : List UInt8) (i n : Nat) : List UInt8 :=
  putByte m i (UInt8.ofNat (n % 16 * 16 + (byteAt m i).toNat % 16))

/- `hl` shares its byte with `rsvd`. -/
def putHl (m : List UInt8) (hl : Nat) : List UInt8 := putHigh m (thdr + 12) hl

/- `fin`, `syn`, `rst`, `psh` and `ack` are the bits 0 to 4 of their byte. -/
def setFlag (m : List UInt8) (n : Nat) : List UInt8 :=
  putByte m (thdr + 13) (byteAt m (thdr + 13) ||| UInt8.ofNat (2 ^ n))

/-! ### Building a buffer -/

def tcpAllocBytes (optlen size : Nat) : TxSkb :=
  let reserved := ETH_HDR_LEN + IP_HDR_LEN + TCP_HDR_LEN + optlen + size
  { (SkBytes.alloc reserved).reserve reserved with dlen := size, protocol := IP_TCP.toUInt16 }

def putSynOptions (tsk : TcpSock) (m : List UInt8) (optlen : Nat) : List UInt8 :=
  let m := putByte (putByte m thData TCP_OPT_MSS) (thData + 1) TCP_OPTLEN_MSS
  let m := put m (thData + 2) (be16 tsk.rmss)
  let m := if tsk.sackok then
      putByte (putByte (putByte (putByte m (thData + 4) TCP_OPT_NOOP) (thData + 5) TCP_OPT_NOOP)
        (thData + 6) TCP_OPT_SACK_OK) (thData + 7) TCP_OPTLEN_SACK
    else m
  putHl m (TCP_DOFFSET + optlen / 4)

/- The buffers of `tcp_send_syn`, `tcp_send_synack`, `tcp_send_ack`, `tcp_send`, `tcp_queue_fin` and
   `tcp_send_reset`, before they are transmitted. -/
def synBytes (tsk : TcpSock) : TxSkb :=
  let optlen := tcpSynOptions tsk
  let skb := tcpAllocBytes optlen 0
  { skb with head := setFlag (putSynOptions tsk skb.head optlen) 1 }

def synackBytes : TxSkb :=
  let skb := tcpAllocBytes 0 0
  { skb with head := setFlag (setFlag skb.head 1) 4 }

def ackBytes (tsk : TcpSock) : TxSkb :=
  let optlen := tcpOptionsLen tsk
  let skb := tcpAllocBytes optlen 0
  { skb with head := putHl (setFlag skb.head 4) (TCP_DOFFSET + optlen / 4) }

/- `last` when nothing of the text that is sent is left. -/
def textBytes (buf : List UInt8) (last : Bool) : TxSkb :=
  let skb := (tcpAllocBytes 0 buf.length).push buf.length
  let m := setFlag (put skb.head skb.data buf) 4
  { skb with head := if last then setFlag m 3 else m }

def finBytes : TxSkb :=
  let skb := tcpAllocBytes 0 0
  { skb with head := setFlag (setFlag skb.head 0) 4 }

def rstBytes : TxSkb :=
  let skb := tcpAllocBytes 0 0
  { skb with head := setFlag skb.head 2 }

/-! ### Transmission -/

/- The blocks from the one with index `n - 1` down, from position `i` on. -/
def putSackBlocks (tsk : TcpSock) (m : List UInt8) (i : Nat) : Nat → List UInt8
  | 0 => m
  | n + 1 =>
    let block := tsk.sacks.getD n {}
    putSackBlocks tsk (put (put m i (be32 block.left)) (i + 4) (be32 block.right)) (i + 8) n

def putOptions (tsk : TcpSock) (m : List UInt8) : List UInt8 :=
  if !tsk.sackok || (tsk.sacks.getD 0 {}).left = 0 then m
  else
    let m := putByte (putByte m thData TCP_OPT_NOOP) (thData + 1) TCP_OPT_NOOP
    let m := putByte (putByte m (thData + 2) TCP_OPT_SACK) (thData + 3)
      (UInt8.ofNat (2 + tsk.sacklen * 8))
    putSackBlocks tsk m (thData + 4) tsk.sacklen

/- The fields as the host has them. -/
def putHeader (tsk : TcpSock) (m : List UInt8) (seq : UInt32) : List UInt8 :=
  let m := putWord (putWord m thdr tsk.sport) (thdr + 2) tsk.dport
  let m := putDword (putDword m (thdr + 4) seq) (thdr + 8) tsk.tcb.rcvNxt
  let m := putLow m (thdr + 12) 0
  putWord (putWord (putWord m (thdr + 14) tsk.tcb.rcvWnd.toUInt16) (thdr + 16) 0) (thdr + 18) 0

def htonHeader (m : List UInt8) : List UInt8 :=
  let m := htonsAt (htonsAt m thdr) (thdr + 2)
  let m := htonlAt (htonlAt m (thdr + 4)) (thdr + 8)
  htonsAt (htonsAt (htonsAt m (thdr + 14)) (thdr + 16)) (thdr + 18)

def ipSendCheck (m : List UInt8) : List UInt8 :=
  putWord m (ihdr + 10) (checksum (field m ihdr ((byteAt m ihdr).toNat % 16 * 4)) 0)

def putIpHeader (protocol : UInt16) (len : UInt16) (saddr daddr : UInt32) (m : List UInt8) :
    List UInt8 :=
  let m := putLow (putHigh m ihdr IPV4.toNat) ihdr 5
  let m := putWord (putByte m (ihdr + 1) 0) (ihdr + 2) len
  let m := putWord m (ihdr + 4) (hostWordAt m (ihdr + 4))
  let m := putByte (putWord m (ihdr + 6) 0x4000) (ihdr + 8) 64
  let m := putByte m (ihdr + 9) protocol.toUInt8
  putWord (putDword (putDword m (ihdr + 12) saddr) (ihdr + 16) daddr) (ihdr + 10) 0

def htonIpHeader (m : List UInt8) : List UInt8 :=
  let m := htonlAt (htonsAt (htonsAt m (ihdr + 2)) (ihdr + 4)) (ihdr + 16)
  htonsAt (htonsAt (htonlAt m (ihdr + 12)) (ihdr + 10)) (ihdr + 6)

def ipHeaderSet (protocol len : UInt16) (saddr daddr : UInt32) (m : List UInt8) : List UInt8 :=
  ipSendCheck (htonIpHeader (putIpHeader protocol len saddr daddr m))

/- The buffer as `dst_neigh_output` gets it. -/
def ipOutputBytes (daddr : UInt32) (skb : TxSkb) : Option TxSkb :=
  (routeLookup daddr).map fun rt =>
    let skb := skb.push IP_HDR_LEN
    { skb with
      head := ipHeaderSet skb.protocol (UInt16.ofNat skb.len) rt.dev.addr daddr skb.head }

def withOffset (skb : TxSkb) : TxSkb :=
  if tcpHl skb.head thdr = 0 then { skb with head := putHl skb.head TCP_DOFFSET } else skb

/- The segment with 0 for its checksum. -/
def segmentSet (tsk : TcpSock) (hl : Nat) (seq : UInt32) (m : List UInt8) : List UInt8 :=
  let m := putHeader tsk m seq
  htonHeader (if 5 < hl then putOptions tsk m else m)

/- `tcp_transmit_skb`. -/
def transmitBytes (tsk : TcpSock) (skb : TxSkb) (seq : UInt32) : Option TxSkb :=
  let skb := withOffset skb
  let hl := tcpHl skb.head thdr
  let skb := skb.push (hl * 4)
  let m := segmentSet tsk hl seq skb.head
  let csum := tcpV4Checksum (field m skb.data skb.len) (htonl tsk.saddr) (htonl tsk.daddr)
  ipOutputBytes tsk.daddr { skb with head := putWord m (thdr + 16) csum }

/-! ### What the buffer holds -/

variable {m : List UInt8} {th : TcpHdr} {tsk : TcpSock}

theorem field_bytes {i n : Nat} (fits : i + n ≤ m.length) :
    field m i n = (List.range n).map fun k => byteAt m (i + k) := by
  induction n generalizing i with
  | zero => rfl
  | succ n ih =>
    rw [field_succ n (by omega), ih (by omega), List.range_succ_eq_map, List.map_cons, List.map_map]
    congr 1
    apply List.map_congr_left
    intro k _
    show byteAt m (i + 1 + k) = byteAt m (i + (k + 1))
    rw [Nat.add_assoc, Nat.add_comm 1]

/- The header in a buffer, with the checksum still 0. -/
structure TcpFields (word : UInt16 → List UInt8) (dword : UInt32 → List UInt8) (m : List UInt8)
    (th : TcpHdr) : Prop where
  long : thData ≤ m.length
  sport : field m thdr 2 = word th.sport
  dport : field m (thdr + 2) 2 = word th.dport
  seq : field m (thdr + 4) 4 = dword th.seq
  ackSeq : field m (thdr + 8) 4 = dword th.ackSeq
  hl : field m (thdr + 12) 1 = [UInt8.ofNat (16 * th.hl.val)]
  flags : field m (thdr + 13) 1 = [tcpFlags th]
  win : field m (thdr + 14) 2 = word th.win
  csum : field m (thdr + 16) 2 = word 0
  urp : field m (thdr + 18) 2 = word 0

@[simp] theorem length_putLow (i n : Nat) : (putLow m i n).length = m.length := length_put _ _ _

@[simp] theorem length_putHigh (i n : Nat) : (putHigh m i n).length = m.length := length_put _ _ _

@[simp] theorem length_setFlag (n : Nat) : (setFlag m n).length = m.length := length_put _ _ _

theorem field_putLow {i j n : Nat} (x : Nat) (apart : j + n ≤ i ∨ i + 1 ≤ j) :
    field (putLow m i x) j n = field m j n := field_putByte _ _ apart

theorem field_putHigh {i j n : Nat} (x : Nat) (apart : j + n ≤ i ∨ i + 1 ≤ j) :
    field (putHigh m i x) j n = field m j n := field_putByte _ _ apart

theorem field_setFlag {j n : Nat} (x : Nat) (apart : j + n ≤ thdr + 13 ∨ thdr + 13 + 1 ≤ j) :
    field (setFlag m x) j n = field m j n := field_putByte _ _ apart

theorem byteAt_of_one {i : Nat} {b : UInt8} (here : field m i 1 = [b]) : byteAt m i = b :=
  byteAt_of_field (k := 0) here (by omega)

theorem byteAt_eq (m : List UInt8) (i : Nat) : byteAt m i = (field m i 1).getD 0 0 := by
  have here := byteAt_of_field (k := 0) (rfl : field m i 1 = field m i 1) (by omega)
  exact here

theorem byteAt_congr {m m' : List UInt8} {i : Nat} (same : field m' i 1 = field m i 1) :
    byteAt m' i = byteAt m i := by rw [byteAt_eq, same, ← byteAt_eq]

theorem putHigh_here {i n : Nat} (fits : i + 1 ≤ m.length) : field (putHigh m i n) i 1 =
    [UInt8.ofNat (n % 16 * 16 + (byteAt m i).toNat % 16)] := putByte_here _ fits

theorem putLow_here {i n : Nat} (fits : i + 1 ≤ m.length) : field (putLow m i n) i 1 =
    [UInt8.ofNat ((byteAt m i).toNat / 16 * 16 + n % 16)] := putByte_here _ fits

theorem setFlag_here {n : Nat} (fits : thdr + 13 + 1 ≤ m.length) :
    field (setFlag m n) (thdr + 13) 1 = [byteAt m (thdr + 13) ||| UInt8.ofNat (2 ^ n)] :=
  putByte_here _ fits

/- The header as `tcp_transmit_skb` fills it in. -/
def sentHeader (tsk : TcpSock) (th : TcpHdr) (seq : UInt32) : TcpHdr :=
  { th with
    sport := tsk.sport
    dport := tsk.dport
    seq := seq
    ackSeq := tsk.tcb.rcvNxt
    win := tsk.tcb.rcvWnd.toUInt16 }

theorem putHeader_fields {seq : UInt32} (long : thData ≤ m.length) (hl : tcpHl m thdr = th.hl.val)
    (flags : field m (thdr + 13) 1 = [tcpFlags th]) :
    TcpFields le16 le32 (putHeader tsk m seq) (sentHeader tsk th seq) := by
  have room : 54 ≤ m.length := long
  unfold putHeader
  set u := putDword (putDword (putWord (putWord m thdr tsk.sport) (thdr + 2) tsk.dport) (thdr + 4)
    seq) (thdr + 8) tsk.tcb.rcvNxt with hu
  have kept : byteAt u (thdr + 12) = byteAt m (thdr + 12) := by
    apply byteAt_congr
    simp (disch := decide) only [hu, field_putWord, field_putDword]
  have words : [UInt8.ofNat ((byteAt u (thdr + 12)).toNat / 16 * 16 + 0 % 16)] =
      [UInt8.ofNat (16 * (sentHeader tsk th seq).hl.val)] := by
    rw [kept, show (sentHeader tsk th seq).hl = th.hl from rfl, ← hl, tcpHl, Nat.mul_comm]
    rfl
  simp only [thData, thdr, ETH_HDR_LEN, IP_HDR_LEN, TCP_HDR_LEN, Nat.reduceAdd] at *
  constructor
  case hl =>
    rw [← words, hu]
    simp (disch := first | omega | (simp only [length_putWord, length_putDword]; omega)) only
      [thdr, ETH_HDR_LEN, IP_HDR_LEN, Nat.reduceAdd, field_putWord, putLow_here]
  all_goals
    simp (disch := first
        | omega
        | (simp only [length_putWord, length_putDword, length_putLow]; omega)) only
      [thData, thdr, ETH_HDR_LEN, IP_HDR_LEN, TCP_HDR_LEN, Nat.reduceAdd, length_putWord,
        length_putDword, length_putLow, field_putWord, field_putDword, field_putLow, putWord_here,
        putDword_here, flags, room, sentHeader]
  rfl

theorem htonHeader_fields (holds : TcpFields le16 le32 m th) :
    TcpFields be16 be32 (htonHeader m) th := by
  have room : 54 ≤ m.length := holds.long
  obtain ⟨-, sport, dport, seq, ackSeq, hl, flags, win, csum, urp⟩ := holds
  unfold htonHeader
  simp only [thdr, ETH_HDR_LEN, IP_HDR_LEN, Nat.reduceAdd] at *
  constructor <;>
    simp (disch := first
        | omega
        | (simp only [length_htonsAt, length_htonlAt]; omega)) only
      [thData, thdr, ETH_HDR_LEN, IP_HDR_LEN, TCP_HDR_LEN, Nat.reduceAdd, length_htonsAt,
        length_htonlAt, field_htonsAt, field_htonlAt, htonsAt_here, htonlAt_here, sport, dport, seq,
        ackSeq, hl, flags, win, csum, urp, le16_reverse, le32_reverse, room]

/- Nothing else is touched by either; the options stand behind the header. -/
theorem putHeader_other {seq : UInt32} {i n : Nat} (apart : i + n ≤ thdr ∨ thData ≤ i) :
    field (putHeader tsk m seq) i n = field m i n := by
  unfold putHeader
  simp only [thData, thdr, ETH_HDR_LEN, IP_HDR_LEN, TCP_HDR_LEN, Nat.reduceAdd] at *
  simp (disch := omega) only [field_putWord, field_putDword, field_putLow]

theorem htonHeader_other {i n : Nat} (apart : i + n ≤ thdr ∨ thData ≤ i) :
    field (htonHeader m) i n = field m i n := by
  unfold htonHeader
  simp only [thData, thdr, ETH_HDR_LEN, IP_HDR_LEN, TCP_HDR_LEN, Nat.reduceAdd] at *
  simp (disch := omega) only [field_htonsAt, field_htonlAt]

@[simp] theorem length_putHeader (seq : UInt32) : (putHeader tsk m seq).length = m.length := by
  simp [putHeader]

@[simp] theorem length_htonHeader : (htonHeader m).length = m.length := by
  simp [htonHeader]

/-! ### Options -/

/- The bytes that `tcp_write_options` writes. -/
def optionBytes (tsk : TcpSock) : List UInt8 :=
  if !tsk.sackok || (tsk.sacks.getD 0 {}).left = 0 then []
  else [TCP_OPT_NOOP, TCP_OPT_NOOP, TCP_OPT_SACK, UInt8.ofNat (2 + tsk.sacklen * 8)] ++
    (List.range tsk.sacklen).reverse.flatMap fun i =>
      be32 (tsk.sacks.getD i {}).left ++ be32 (tsk.sacks.getD i {}).right

theorem putSackBlocks_eq (i n : Nat) : putSackBlocks tsk m i n =
    put m i ((List.range n).reverse.flatMap fun i =>
      be32 (tsk.sacks.getD i {}).left ++ be32 (tsk.sacks.getD i {}).right) := by
  induction n generalizing m i with
  | zero => rfl
  | succ n ih =>
    rw [putSackBlocks, ih, List.range_succ, List.reverse_append, List.reverse_singleton,
      List.flatMap_append, List.flatMap_singleton, put_append, put_append]
    rfl

theorem putOptions_eq (tsk : TcpSock) (m : List UInt8) :
    putOptions tsk m = put m thData (optionBytes tsk) := by
  unfold putOptions optionBytes
  split
  · rfl
  · rw [put_append, ← putSackBlocks_eq]
    rfl

theorem tcpWriteOptions_data (tsk : TcpSock) (th : TcpHdr) :
    (tcpWriteOptions tsk th).2 = { th with
      data := optionBytes tsk ++ th.data.drop (optionBytes tsk).length } := by
  unfold tcpWriteOptions optionBytes
  split <;> rfl

/- The option area of a buffer: what is written behind its end is lost. -/
def OptionsAt (m : List UInt8) (data : List UInt8) (n : Nat) : Prop :=
  ∀ k, k < n → byteAt m (thData + k) = data.getD k 0

theorem OptionsAt.put {data bytes : List UInt8} {n : Nat} (holds : OptionsAt m data n)
    (fits : thData + n ≤ m.length) :
    OptionsAt (put m thData bytes) (bytes ++ data.drop bytes.length) n := by
  intro k inside
  by_cases written : k < bytes.length
  · unfold byteAt
    rw [List.getD_eq_getElem?_getD, getElem?_put_here _ _ written (by omega),
      List.getD_eq_getElem?_getD, List.getElem?_append_left written]
  · have kept := holds k inside
    unfold byteAt at kept ⊢
    rw [List.getD_eq_getElem?_getD, getElem?_put_other _ _ (by omega), ← List.getD_eq_getElem?_getD,
      kept, List.getD_eq_getElem?_getD, List.getD_eq_getElem?_getD,
      List.getElem?_append_right (by omega), List.getElem?_drop,
      show bytes.length + (k - bytes.length) = k by omega]

/-! ### The segment -/

/- The number of option bytes of a header, which has no options while `hl` is 0. -/
def optionRoom (th : TcpHdr) : Nat := 4 * (th.hl.val - 5)

theorem optionBytes_of {n : Nat} {data : List UInt8} (options : OptionsAt m data n)
    (fits : thData + n ≤ m.length) :
    field m thData n = (List.range n).map fun k => data.getD k 0 := by
  rw [field_bytes fits]
  exact List.map_congr_left fun k inside => options k (List.mem_range.mp inside)

/- The segment with a checksum in place of the zero. -/
theorem TcpFields.segment {csum : UInt16} {payload m' : List UInt8} (holds : TcpFields be16 be32 m th)
    (same : ∀ i n, i + n ≤ thdr + 16 ∨ thdr + 18 ≤ i → field m' i n = field m i n)
    (sum : field m' (thdr + 16) 2 = le16 csum) (options : OptionsAt m' th.data (optionRoom th))
    (text : field m' (thData + optionRoom th) payload.length = payload)
    (fits : thData + optionRoom th + payload.length ≤ m'.length) :
    field m' thdr (TCP_HDR_LEN + optionRoom th + payload.length) = tcpBytes th csum payload := by
  have area := optionBytes_of options (by omega)
  have behind : thdr + (20 + optionRoom th) = thData + optionRoom th := by
    rw [← Nat.add_assoc]
    rfl
  rw [show TCP_HDR_LEN + optionRoom th + payload.length =
      2 + (2 + (4 + (4 + (1 + (1 + (2 + (2 + (2 + (optionRoom th + payload.length))))))))) by
    rw [TCP_HDR_LEN]; omega]
  rw [field_append, field_append, field_append, field_append, field_append, field_append,
    field_append, field_append, field_append, field_append]
  simp only [Nat.add_assoc, Nat.reduceAdd]
  rw [same _ _ (by omega), same _ _ (by omega), same _ _ (by omega), same _ _ (by omega),
    same _ _ (by omega), same _ _ (by omega), same _ _ (by omega), same (thdr + 18) 2 (by omega),
    holds.sport, holds.dport, holds.seq, holds.ackSeq, holds.hl, holds.flags, holds.win, sum,
    holds.urp, show thdr + 20 = thData from rfl, area, behind, text]
  unfold tcpBytes tcpOptionBytes optionRoom
  simp only [List.append_assoc, List.cons_append, List.nil_append]

/-! ### The packet -/

/- The IP header, with the checksum still 0. -/
structure IpFields (word : UInt16 → List UInt8) (dword : UInt32 → List UInt8) (m : List UInt8)
    (proto : UInt8) (len : UInt16) (saddr daddr : UInt32) : Prop where
  long : thdr ≤ m.length
  version : field m ihdr 1 = [IPV4 <<< 4 ||| 5]
  tos : field m (ihdr + 1) 1 = [0]
  len : field m (ihdr + 2) 2 = word len
  id : field m (ihdr + 4) 2 = word 0
  fragOffset : field m (ihdr + 6) 2 = word 0x4000
  ttl : field m (ihdr + 8) 1 = [64]
  proto : field m (ihdr + 9) 1 = [proto]
  csum : field m (ihdr + 10) 2 = word 0
  saddr : field m (ihdr + 12) 4 = dword saddr
  daddr : field m (ihdr + 16) 4 = dword daddr

/- The byte with version and `ihl`. -/
theorem version_here (long : thdr ≤ m.length) :
    field (putLow (putHigh m ihdr IPV4.toNat) ihdr 5) ihdr 1 = [IPV4 <<< 4 ||| 5] := by
  rw [putLow_here (by rw [length_putHigh]; exact Nat.le_trans (by decide) long),
    byteAt_of_one (putHigh_here (Nat.le_trans (by decide) long))]
  have small : (byteAt m ihdr).toNat % 16 < 16 := Nat.mod_lt _ (by decide)
  generalize (byteAt m ihdr).toNat % 16 = low at small
  have high : (UInt8.ofNat (IPV4.toNat % 16 * 16 + low)).toNat / 16 = 4 := by
    rw [UInt8.toNat_ofNat', show IPV4.toNat = 4 from rfl]
    omega
  rw [high]
  rfl

theorem putIpHeader_fields {protocol len : UInt16} {saddr daddr : UInt32} (long : thdr ≤ m.length)
    (id : field m (ihdr + 4) 2 = le16 0) :
    IpFields le16 le32 (putIpHeader protocol len saddr daddr m) protocol.toUInt8 len saddr daddr := by
  have room : 34 ≤ m.length := long
  have nibbles := version_here long
  unfold putIpHeader
  simp only [thdr, ihdr, ETH_HDR_LEN, IP_HDR_LEN, Nat.reduceAdd] at *
  set u := putWord (putByte (putLow (putHigh m 14 IPV4.toNat) 14 5) 15 0) 16 len with hu
  have kept : hostWordAt u 18 = 0 := by
    apply hostWordAt_of_field
    rw [hu]
    simp (disch := omega) only [field_putWord, field_putByte, field_putLow, field_putHigh, id]
  rw [kept, hu]
  constructor <;>
    simp (disch := first
        | omega
        | (simp only [length_putWord, length_putDword, length_putByte, length_putLow, length_putHigh]; omega)) only
      [thdr, ihdr, ETH_HDR_LEN, IP_HDR_LEN, Nat.reduceAdd, length_putWord, length_putDword,
        length_putByte, length_putLow, length_putHigh, field_putWord, field_putDword, field_putByte,
        putWord_here, putDword_here, putByte_here, nibbles, room]

theorem htonIpHeader_fields {proto : UInt8} {len : UInt16} {saddr daddr : UInt32}
    (holds : IpFields le16 le32 m proto len saddr daddr) :
    IpFields be16 be32 (htonIpHeader m) proto len saddr daddr := by
  have room : 34 ≤ m.length := holds.long
  obtain ⟨-, version, tos, len, id, fragOffset, ttl, proto, csum, saddr, daddr⟩ := holds
  unfold htonIpHeader
  simp only [ihdr, ETH_HDR_LEN, Nat.reduceAdd] at *
  constructor <;>
    simp (disch := first
        | omega
        | (simp only [length_htonsAt, length_htonlAt]; omega)) only
      [thdr, ihdr, ETH_HDR_LEN, IP_HDR_LEN, Nat.reduceAdd, length_htonsAt, length_htonlAt,
        field_htonsAt, field_htonlAt, htonsAt_here, htonlAt_here, version, tos, len, id, fragOffset,
        ttl, proto, csum, saddr, daddr, le16_reverse, le32_reverse, room]

theorem putIpHeader_other {protocol len : UInt16} {saddr daddr : UInt32} {i n : Nat}
    (behind : thdr ≤ i) :
    field (putIpHeader protocol len saddr daddr m) i n = field m i n := by
  unfold putIpHeader
  simp only [thdr, ihdr, ETH_HDR_LEN, IP_HDR_LEN, Nat.reduceAdd] at *
  simp (disch := omega) only [field_putWord, field_putDword, field_putByte, field_putLow,
    field_putHigh]

theorem htonIpHeader_other {i n : Nat} (behind : thdr ≤ i) :
    field (htonIpHeader m) i n = field m i n := by
  unfold htonIpHeader
  simp only [thdr, ihdr, ETH_HDR_LEN, IP_HDR_LEN, Nat.reduceAdd] at *
  simp (disch := omega) only [field_htonsAt, field_htonlAt]

@[simp] theorem length_putIpHeader (protocol len : UInt16) (saddr daddr : UInt32) :
    (putIpHeader protocol len saddr daddr m).length = m.length := by
  simp [putIpHeader]

@[simp] theorem length_htonIpHeader : (htonIpHeader m).length = m.length := by
  simp [htonIpHeader]

/- The header with a checksum in place of the zero. -/
theorem IpFields.header {proto : UInt8} {len csum : UInt16} {saddr daddr : UInt32} {m' : List UInt8}
    (holds : IpFields be16 be32 m proto len saddr daddr)
    (same : ∀ i n, i + n ≤ ihdr + 10 ∨ ihdr + 12 ≤ i → field m' i n = field m i n)
    (sum : field m' (ihdr + 10) 2 = le16 csum) :
    field m' ihdr IP_HDR_LEN = ipHeader proto len saddr daddr csum := by
  obtain ⟨-, version, tos, len, id, fragOffset, ttl, proto, -, saddr, daddr⟩ := holds
  rw [show IP_HDR_LEN = 1 + (1 + (2 + (2 + (2 + (1 + (1 + (2 + (4 + 4)))))))) from rfl]
  rw [field_append, field_append, field_append, field_append, field_append, field_append,
    field_append, field_append, field_append]
  simp only [ihdr, ETH_HDR_LEN, Nat.reduceAdd] at *
  simp (disch := omega) only [same, sum, version, tos, len, id, fragOffset, ttl, proto, saddr, daddr]
  rfl

/- The checksum is taken of the header with 0 in its place. -/
theorem ipSendCheck_header {proto : UInt8} {len : UInt16} {saddr daddr : UInt32}
    (holds : IpFields be16 be32 m proto len saddr daddr) : field (ipSendCheck m) ihdr IP_HDR_LEN =
      ipHeader proto len saddr daddr (checksum (ipHeader proto len saddr daddr 0) 0) := by
  have words : (byteAt m ihdr).toNat % 16 * 4 = IP_HDR_LEN := by
    rw [byteAt_of_one holds.version]
    rfl
  have cleared := holds.header (fun _ _ _ => rfl) holds.csum
  unfold ipSendCheck
  rw [words, cleared]
  refine holds.header (fun i n apart => field_putWord _ _ ?_) ?_
  · exact apart
  · exact putWord_here _ (Nat.le_trans (by decide) holds.long)

theorem ipSendCheck_other {i n : Nat} (behind : thdr ≤ i) :
    field (ipSendCheck m) i n = field m i n :=
  field_putWord _ _ (.inr (Nat.le_trans (by decide) behind))

/-! ### Transmissions -/

/-- The buffer holds a header of the model, as far as a transmission leaves it alone, and a text. -/
structure Holds (skb : TxSkb) (th : TcpHdr) (payload : List UInt8) : Prop where
  whole : skb.head.length = thData + optionRoom th + payload.length
  dlen : skb.dlen = payload.length
  protocol : skb.protocol = IP_TCP.toUInt16
  id : field skb.head (ihdr + 4) 2 = be16 0
  hl : tcpHl skb.head thdr = th.hl.val
  offset : th.hl = 0 ∨ 5 ≤ th.hl.val
  flags : field skb.head (thdr + 13) 1 = [tcpFlags th]
  options : OptionsAt skb.head th.data (optionRoom th)
  text : field skb.head (thData + optionRoom th) payload.length = payload
  plain : payload = [] ∨ optionRoom th = 0

/- Nothing has been pushed in front of the text. -/
def Unpushed (skb : TxSkb) : Prop := skb.data + skb.dlen = skb.head.length ∧ skb.len = skb.dlen

variable {skb : TxSkb} {payload : List UInt8}

theorem skbResetHeader_holds (holds : Holds skb th payload) :
    Holds (skbResetHeader skb) th payload ∧ Unpushed (skbResetHeader skb) := by
  refine ⟨{ holds with }, ?_, rfl⟩
  show skb.head.length - skb.dlen + skb.dlen = skb.head.length
  have whole := holds.whole
  rw [holds.dlen]
  omega

/- The header that a transmission starts from. -/
def offsetSet (th : TcpHdr) : TcpHdr := if th.hl = 0 then { th with hl := 5 } else th

theorem offsetSet_fields (th : TcpHdr) : optionRoom (offsetSet th) = optionRoom th ∧
    tcpFlags (offsetSet th) = tcpFlags th ∧ (offsetSet th).data = th.data := by
  unfold offsetSet
  split
  · rename_i none
    refine ⟨?_, rfl, rfl⟩
    unfold optionRoom
    rw [none]
    rfl
  · exact ⟨rfl, rfl, rfl⟩

theorem putHl_other {i n : Nat} (hl : Nat) (apart : i + n ≤ thdr + 12 ∨ thdr + 13 ≤ i) :
    field (putHl m hl) i n = field m i n := field_putHigh _ apart

theorem putHl_here {hl : Nat} (long : thData ≤ m.length) (small : hl < 16) :
    tcpHl (putHl m hl) thdr = hl := by
  have set := byteAt_of_one (putHigh_here (n := hl) (Nat.le_trans (by decide) long :
    thdr + 12 + 1 ≤ m.length))
  unfold tcpHl putHl
  rw [set, UInt8.toNat_ofNat']
  omega

theorem OptionsAt.congr {m' data : List UInt8} {n : Nat} (holds : OptionsAt m data n)
    (same : ∀ k, k < n → field m' (thData + k) 1 = field m (thData + k) 1) : OptionsAt m' data n :=
  fun k inside => (byteAt_congr (same k inside)).trans (holds k inside)

theorem withOffset_holds (holds : Holds skb th payload) (unpushed : Unpushed skb) :
    Holds (withOffset skb) (offsetSet th) payload ∧ Unpushed (withOffset skb) ∧
      5 ≤ (offsetSet th).hl.val := by
  obtain ⟨room, flags, data⟩ := offsetSet_fields th
  have long : thData ≤ skb.head.length := by
    have whole := holds.whole
    omega
  unfold withOffset
  rw [holds.hl]
  by_cases none : th.hl = 0
  · have behind : ∀ i n, thData ≤ i → field (putHl skb.head TCP_DOFFSET) i n = field skb.head i n :=
      fun i n far => putHl_other _ (.inr (Nat.le_trans (by decide) far))
    have set : offsetSet th = { th with hl := 5 } := if_pos none
    rw [if_pos (by rw [none]; rfl)]
    refine ⟨⟨?_, holds.dlen, holds.protocol, ?_, ?_, ?_, ?_, ?_, ?_, ?_⟩, ⟨?_, unpushed.2⟩, ?_⟩
    · rw [room]
      exact (length_putHigh _ _).trans holds.whole
    · exact (putHl_other _ (.inl (by decide))).trans holds.id
    · rw [set]
      exact putHl_here long (by decide)
    · exact .inr (by rw [set]; exact Nat.le_refl 5)
    · rw [flags]
      exact (putHl_other _ (.inr (Nat.le_refl _))).trans holds.flags
    · rw [data, room]
      exact holds.options.congr fun k _ => behind _ _ (Nat.le_add_right _ _)
    · rw [room]
      exact (behind _ _ (Nat.le_add_right _ _)).trans holds.text
    · rw [room]
      exact holds.plain
    · exact unpushed.1.trans (length_putHigh _ _).symm
    · rw [set]
      exact Nat.le_refl 5
  · have set : offsetSet th = th := if_neg none
    have away : ¬th.hl.val = 0 := fun zero => none (Fin.ext zero)
    rw [if_neg away, set]
    exact ⟨holds, unpushed, holds.offset.resolve_left none⟩

/- The header with the options that a transmission writes. -/
def optionsSet (tsk : TcpSock) (th : TcpHdr) : TcpHdr :=
  if th.hl > 5 then (tcpWriteOptions tsk th).2 else th

theorem optionsSet_fields (tsk : TcpSock) (th : TcpHdr) : (optionsSet tsk th).hl = th.hl ∧
    tcpFlags (optionsSet tsk th) = tcpFlags th ∧ (optionsSet tsk th).data = if 5 < th.hl.val then
      optionBytes tsk ++ th.data.drop (optionBytes tsk).length else th.data := by
  have large : th.hl > 5 ↔ 5 < th.hl.val := Fin.lt_def
  unfold optionsSet
  rw [tcpWriteOptions_data]
  by_cases more : th.hl > 5
  · rw [if_pos more, if_pos (large.mp more)]
    exact ⟨rfl, rfl, rfl⟩
  · rw [if_neg more, if_neg (fun h => more (large.mpr h))]
    exact ⟨rfl, rfl, rfl⟩

/-- The TCP part of a transmission, whose checksum is still 0. -/
theorem transmit_segment (tsk : TcpSock) (seq : UInt32) (holds : Holds skb th payload)
    (words : 5 ≤ th.hl.val) :
    let m' := segmentSet tsk th.hl.val seq skb.head
    let sent := sentHeader tsk (optionsSet tsk th) seq
    m'.length = skb.head.length ∧ TcpFields be16 be32 m' sent ∧
      OptionsAt m' sent.data (optionRoom th) ∧
      field m' (thData + optionRoom th) payload.length = payload ∧
      field m' (ihdr + 4) 2 = be16 0 := by
  obtain ⟨hl, flags, data⟩ := optionsSet_fields tsk th
  have long : thData ≤ skb.head.length := by
    have whole := holds.whole
    omega
  intro m' sent
  set m := putHeader tsk skb.head seq
  set w := if 5 < th.hl.val then putOptions tsk m else m with hw
  have filled : TcpFields le16 le32 m (sentHeader tsk th seq) :=
    putHeader_fields long holds.hl holds.flags
  have length : w.length = skb.head.length := by
    rw [hw]
    split
    · rw [putOptions_eq, length_put, length_putHeader]
    · exact length_putHeader seq
  have early : ∀ i n, i + n ≤ thData → field w i n = field m i n := by
    intro i n before
    rw [hw]
    split
    · rw [putOptions_eq]
      exact field_put_other _ _ (.inl before)
    · rfl
  have options : OptionsAt w (optionsSet tsk th).data (optionRoom th) := by
    have kept : OptionsAt m th.data (optionRoom th) :=
      holds.options.congr fun k _ => putHeader_other (.inr (Nat.le_add_right _ _))
    rw [hw, data]
    split
    · rw [putOptions_eq]
      refine kept.put ?_
      have whole := holds.whole
      rw [length_putHeader]
      omega
    · exact kept
  have text : field w (thData + optionRoom th) payload.length = payload := by
    rcases holds.plain with none | room
    · rw [none, List.length_nil, field, List.take_zero]
    · have short : ¬5 < th.hl.val := by
        unfold optionRoom at room
        omega
      rw [hw, if_neg short]
      exact (putHeader_other (.inr (Nat.le_add_right _ _))).trans holds.text
  have fields : TcpFields le16 le32 w sent := by
    refine ⟨length.symm ▸ long, ?_, ?_, ?_, ?_, ?_, ?_, ?_, ?_, ?_⟩
    · exact (early _ _ (by decide)).trans filled.sport
    · exact (early _ _ (by decide)).trans filled.dport
    · exact (early _ _ (by decide)).trans filled.seq
    · exact (early _ _ (by decide)).trans filled.ackSeq
    · rw [show sent.hl = th.hl from hl]
      exact (early _ _ (by decide)).trans filled.hl
    · rw [show tcpFlags sent = tcpFlags th from flags]
      exact (early _ _ (by decide)).trans filled.flags
    · exact (early _ _ (by decide)).trans filled.win
    · exact (early _ _ (by decide)).trans filled.csum
    · exact (early _ _ (by decide)).trans filled.urp
  refine ⟨length_htonHeader.trans length, htonHeader_fields fields, ?_, ?_, ?_⟩
  · exact options.congr fun k _ => htonHeader_other (.inr (Nat.le_add_right _ _))
  · exact (htonHeader_other (.inr (Nat.le_add_right _ _))).trans text
  · refine (htonHeader_other (.inl (by decide))).trans ((early _ _ (by decide)).trans ?_)
    exact (putHeader_other (.inl (by decide))).trans holds.id

@[simp] theorem length_ipHeaderSet (protocol len : UInt16) (saddr daddr : UInt32) :
    (ipHeaderSet protocol len saddr daddr m).length = m.length := by
  simp [ipHeaderSet, ipSendCheck]

theorem ipHeaderSet_other {protocol len : UInt16} {saddr daddr : UInt32} {i n : Nat}
    (behind : thdr ≤ i) : field (ipHeaderSet protocol len saddr daddr m) i n = field m i n :=
  (ipSendCheck_other behind).trans ((htonIpHeader_other behind).trans (putIpHeader_other behind))

theorem ipHeaderSet_header (protocol len : UInt16) (saddr daddr : UInt32) (long : thdr ≤ m.length)
    (id : field m (ihdr + 4) 2 = be16 0) :
    field (ipHeaderSet protocol len saddr daddr m) ihdr IP_HDR_LEN =
      ipHeader protocol.toUInt8 len saddr daddr
        (checksum (ipHeader protocol.toUInt8 len saddr daddr 0) 0) ∧
    field (ipHeaderSet protocol len saddr daddr m) (ihdr + 4) 2 = be16 0 := by
  have zero : be16 0 = le16 0 := by decide
  have filled : IpFields le16 le32 (putIpHeader protocol len saddr daddr m) protocol.toUInt8 len
      saddr daddr := putIpHeader_fields long (id.trans zero)
  have holds := htonIpHeader_fields filled
  have before : ihdr + 4 + 2 ≤ ihdr + 10 := by decide
  refine ⟨ipSendCheck_header holds, ?_⟩
  unfold ipHeaderSet ipSendCheck
  rw [field_putWord _ _ (.inl before)]
  exact holds.id

/-- The packet in front of what has been pushed. -/
theorem ipOutputBytes_packet (daddr : UInt32) (pushed : skb.data = thdr)
    (fits : thdr + skb.len = skb.head.length) (id : field skb.head (ihdr + 4) 2 = be16 0) :
    ∃ sent, ipOutputBytes daddr skb = some sent ∧
      ipOutput skb.protocol.toUInt8 daddr skb.bytes = some sent.bytes ∧
      sent.head.length = skb.head.length ∧ sent.data = ihdr ∧ sent.dlen = skb.dlen ∧
      sent.protocol = skb.protocol ∧ (∀ i n, thdr ≤ i → field sent.head i n = field skb.head i n) ∧
      field sent.head (ihdr + 4) 2 = be16 0 := by
  obtain ⟨rt, routed, -⟩ := routeLookup_dev daddr
  obtain ⟨header, kept⟩ := ipHeaderSet_header skb.protocol (UInt16.ofNat (skb.len + IP_HDR_LEN))
    rt.dev.addr daddr (Nat.le_trans (Nat.le_add_right _ _) (Nat.le_of_eq fits)) id
  have count : skb.bytes.length = skb.len := length_field (by rw [pushed]; exact Nat.le_of_eq fits)
  have long := length_ipHeaderSet (m := skb.head) skb.protocol
    (UInt16.ofNat (skb.len + IP_HDR_LEN)) rt.dev.addr daddr
  have rest : ∀ i n, thdr ≤ i → field (ipHeaderSet skb.protocol
      (UInt16.ofNat (skb.len + IP_HDR_LEN)) rt.dev.addr daddr skb.head) i n = field skb.head i n :=
    fun i n behind => ipHeaderSet_other behind
  unfold ipOutputBytes ipOutput
  rw [routed, count]
  simp only [Option.map_some, TxSkb.push, SkBytes.push]
  rw [← header]
  generalize ipHeaderSet skb.protocol (UInt16.ofNat (skb.len + IP_HDR_LEN)) rt.dev.addr daddr
    skb.head = m at *
  have front : skb.data - IP_HDR_LEN = ihdr := by
    rw [pushed]
    rfl
  refine ⟨_, rfl, ?_, long, front, rfl, rfl, rest, kept⟩
  have packet : field m (skb.data - IP_HDR_LEN) (skb.len + IP_HDR_LEN) =
      field m ihdr IP_HDR_LEN ++ skb.bytes := by
    rw [front, Nat.add_comm skb.len, field_append, SkBytes.bytes, pushed, ← rest _ _ (Nat.le_refl _)]
    rfl
  rw [← packet]
  rfl

/-- `tcp_transmit_skb` on the bytes of a buffer does what it does in the model: the packet is that of
    the model's segment, and the buffer holds the model's header again. -/
theorem transmitBytes_holds (tsk : TcpSock) (seq : UInt32) (holds : Holds skb th payload)
    (unpushed : Unpushed skb) : ∃ sent, transmitBytes tsk skb seq = some sent ∧ sent.data = ihdr ∧
      Holds sent (optionsSet tsk (offsetSet th)) payload ∧
      tcpPacket tsk ⟨sentHeader tsk (optionsSet tsk (offsetSet th)) seq, payload⟩ =
        some sent.bytes := by
  obtain ⟨holds, unpushed, words⟩ := withOffset_holds holds unpushed
  unfold transmitBytes
  generalize withOffset skb = u at *
  generalize offsetSet th = th' at *
  obtain ⟨length, fields, options, text, id⟩ := transmit_segment tsk seq holds words
  obtain ⟨hl, flags, data⟩ := optionsSet_fields tsk th'
  have area : optionRoom (optionsSet tsk th') = optionRoom th' := by rw [optionRoom, hl, optionRoom]
  dsimp only
  rw [holds.hl, show (u.push (th'.hl.val * 4)).head = u.head from rfl]
  generalize segmentSet tsk th'.hl.val seq u.head = m at *
  set header := sentHeader tsk (optionsSet tsk th') seq
  have room : optionRoom header = optionRoom th' := area
  have whole := holds.whole
  have size : m.length = thData + optionRoom th' + payload.length := length.trans whole
  -- the header is as long as the pushes make it, and starts where `tcp_hdr` says
  obtain ⟨start, stop⟩ : (u.push (th'.hl.val * 4)).data = thdr ∧
      (u.push (th'.hl.val * 4)).len = TCP_HDR_LEN + optionRoom th' + payload.length := by
    have before := unpushed.1
    have count := unpushed.2
    rw [holds.dlen] at before count
    simp only [TxSkb.push, SkBytes.push, optionRoom, thData, thdr, ETH_HDR_LEN, IP_HDR_LEN,
      TCP_HDR_LEN] at *
    omega
  have segment : ∀ csum m', (∀ i n, i + n ≤ thdr + 16 ∨ thdr + 18 ≤ i →
      field m' i n = field m i n) → field m' (thdr + 16) 2 = le16 csum → m'.length = m.length →
      field m' thdr (TCP_HDR_LEN + optionRoom th' + payload.length) = tcpBytes header csum payload := by
    intro csum m' same sum long
    have behind : ∀ i n, thData ≤ i → field m' i n = field m i n :=
      fun i n far => same i n (.inr (Nat.le_trans (by decide) far))
    have bytes : field m' thdr (TCP_HDR_LEN + optionRoom header + payload.length) =
        tcpBytes header csum payload := fields.segment same sum ?_ ?_ ?_
    · rw [← room]
      exact bytes
    · rw [room]
      exact options.congr fun k _ => behind _ _ (Nat.le_add_right _ _)
    · rw [room]
      exact (behind _ _ (Nat.le_add_right _ _)).trans text
    · rw [room, long, size]
  have zero : be16 0 = le16 0 := by decide
  rw [start, stop, segment 0 m (fun _ _ _ => rfl) (fields.csum.trans zero) rfl]
  generalize sum : tcpV4Checksum (tcpBytes header 0 payload) (htonl tsk.saddr) (htonl tsk.daddr) = csum
  have fits : thdr + 16 + 2 ≤ m.length := by
    rw [size, thData, TCP_HDR_LEN]
    omega
  have before : ihdr + 4 + 2 ≤ thdr + 16 := by decide
  have apart : ∀ i n, i + n ≤ thdr + 16 ∨ thdr + 18 ≤ i →
      field (putWord m (thdr + 16) csum) i n = field m i n := fun i n apart => field_putWord _ _ apart
  have bytes := segment csum (putWord m (thdr + 16) csum) apart (putWord_here csum fits)
    (length_putWord _ _)
  have long : (putWord m (thdr + 16) csum).length = m.length := length_putWord _ _
  have id' := (apart _ _ (.inl before)).trans id
  have hl' := (apart (thdr + 12) 1 (.inl (by omega))).trans fields.hl
  have flags' := (apart (thdr + 13) 1 (.inl (by omega))).trans fields.flags
  have behind : ∀ i n, thData ≤ i → field (putWord m (thdr + 16) csum) i n = field m i n :=
    fun i n far => apart i n (.inr (Nat.le_trans (by decide) far))
  have text' := (behind _ _ (Nat.le_add_right _ _)).trans text
  have options' := options.congr fun k _ => behind (thData + k) 1 (Nat.le_add_right _ _)
  generalize putWord m (thdr + 16) csum = w at *
  set full : TxSkb := ⟨⟨w, thdr, TCP_HDR_LEN + optionRoom th' + payload.length⟩, u.dlen, u.protocol⟩
    with hfull
  have filled : thdr + full.len = full.head.length := by
    show thdr + (TCP_HDR_LEN + optionRoom th' + payload.length) = w.length
    rw [long, size, thData]
    omega
  have start : full.data = thdr := rfl
  obtain ⟨sent, output, packet, count, front, dlen, protocol, same, kept⟩ :=
    ipOutputBytes_packet tsk.daddr start filled id'
  refine ⟨sent, output, front, ⟨?_, ?_, ?_, kept, ?_, ?_, ?_, ?_, ?_, ?_⟩, ?_⟩
  · rw [count, area]
    exact long.trans size
  · exact dlen.trans holds.dlen
  · exact protocol.trans holds.protocol
  · have set := byteAt_of_one ((same (thdr + 12) 1 (by omega)).trans hl')
    have small := (optionsSet tsk th').hl.isLt
    rw [tcpHl, set, UInt8.toNat_ofNat', show header.hl = (optionsSet tsk th').hl from rfl]
    omega
  · exact .inr (by rw [hl]; exact words)
  · exact (same _ _ (by decide)).trans flags'
  · rw [area]
    exact options'.congr fun k _ => same _ _ (by rw [thData]; omega)
  · rw [area]
    exact (same _ _ (by rw [thData]; omega)).trans text'
  · rw [area]
    exact holds.plain
  · have written : full.bytes = tcpBytes header csum payload := bytes
    have proto : full.protocol.toUInt8 = IP_TCP := congrArg UInt16.toUInt8 holds.protocol
    rw [written, proto] at packet
    unfold tcpPacket tcpChecksummed
    dsimp only
    rw [sum]
    exact packet

end HfIp