import HfIp.TcpBytes
import HfIp.ReceivedFrames

/- What the receiver makes of a segment: `ip_rcv` and `tcp_init_segment` undo what `tcp_transmit_skb` and
   `ip_output` have done, however often the buffer has been sent before. -/
namespace HfIp

open Buffer OnesComplement

/-! ### The buffers of the send path -/

/- A buffer as one of the functions of the send path builds it, with what it is built from. -/
inductive Outgoing where
  | syn (tsk : TcpSock)
  | synack
  | ack (tsk : TcpSock) (fits : tcpOptionsLen tsk ≤ 40)
  | text (buf : List UInt8) (last : Bool) (some : 1 ≤ buf.length) (short : buf.length ≤ 1460)
  | fin
  | rst

def Outgoing.skb : Outgoing → TxSkb
  | .syn tsk => synBytes tsk
  | .synack => synackBytes
  | .ack tsk _ => ackBytes tsk
  | .text buf last _ _ => textBytes buf last
  | .fin => finBytes
  | .rst => rstBytes

/- The same in the model of the connection. -/
def Outgoing.th : Outgoing → TcpHdr
  | .syn tsk => { tcpWriteSynOptions tsk {} (tcpSynOptions tsk) with syn := true }
  | .synack => { syn := true, ack := true }
  | .ack tsk _ =>
    { ack := true
      hl := Fin.ofNat 16 (TCP_DOFFSET + tcpOptionsLen tsk / 4)
      data := List.replicate (tcpOptionsLen tsk) 0 }
  | .text _ last _ _ => { ack := true, psh := last }
  | .fin => { fin := true, ack := true }
  | .rst => { rst := true }

def Outgoing.payload : Outgoing → List UInt8
  | .text buf _ _ _ => buf
  | _ => []

variable {m : List UInt8} {th : TcpHdr} {skb : TxSkb} {payload : List UInt8}

theorem setFlag_flags {flags : UInt8} (n : Nat) (long : thData ≤ m.length)
    (here : field m (thdr + 13) 1 = [flags]) :
    field (setFlag m n) (thdr + 13) 1 = [flags ||| UInt8.ofNat (2 ^ n)] := by
  rw [setFlag_here (Nat.le_trans (by decide) long), byteAt_of_one here]

/- The cleared memory of a new buffer. -/
structure Zeroed (m : List UInt8) : Prop where
  long : thData ≤ m.length
  zero : ∀ i, byteAt m i = 0

theorem zeroed_replicate {n : Nat} (long : thData ≤ n) : Zeroed (List.replicate n 0) := by
  refine ⟨by rw [List.length_replicate]; exact long, fun i => ?_⟩
  unfold byteAt
  rw [List.getD_eq_getElem?_getD, List.getElem?_replicate]
  split <;> rfl

theorem Zeroed.field (cleared : Zeroed m) {i n : Nat} (fits : i + n ≤ m.length) :
    field m i n = List.replicate n 0 := by
  rw [field_bytes fits, List.map_congr_left fun k _ => cleared.zero (i + k)]
  simp

/- A new buffer without options, after its flags have been set. -/
theorem holds_plain {flags : TcpHdr} {head : List UInt8} (hl : flags.hl = 0)
    (whole : skb.head.length = thData + payload.length) (dlen : skb.dlen = payload.length)
    (protocol : skb.protocol = IP_TCP.toUInt16) (cleared : Zeroed head)
    (same : ∀ i n, i + n ≤ thdr + 13 → field skb.head i n = field head i n)
    (set : field skb.head (thdr + 13) 1 = [tcpFlags flags])
    (text : field skb.head thData payload.length = payload) : Holds skb flags payload := by
  have room : optionRoom flags = 0 := by
    unfold optionRoom
    rw [hl]
    rfl
  have words : tcpHl skb.head thdr = 0 := by
    rw [tcpHl, byteAt_congr (same _ _ (Nat.le_refl _)), cleared.zero]
    rfl
  refine ⟨?_, dlen, protocol, ?_, ?_, .inl hl, set, ?_, ?_, .inr room⟩
  · rw [room]
    exact whole
  · rw [same _ _ (by decide), cleared.field (Nat.le_trans (by decide) cleared.long)]
    rfl
  · rw [words, hl]
    rfl
  · rw [room]
    exact fun k inside => absurd inside (Nat.not_lt_zero k)
  · rw [room]
    exact text

theorem tcpAllocBytes_eq (optlen size : Nat) : tcpAllocBytes optlen size =
    { head := List.replicate (thData + optlen + size) 0, data := thData + optlen + size, len := 0
      dlen := size, protocol := IP_TCP.toUInt16 } := by
  unfold tcpAllocBytes SkBytes.alloc SkBytes.reserve
  simp only [Nat.zero_add]
  rfl

/- A row of flags, set one after the other. -/
theorem setFlags (ns : List Nat) {flags : UInt8} (long : thData ≤ m.length)
    (here : field m (thdr + 13) 1 = [flags]) :
    field (ns.foldl setFlag m) (thdr + 13) 1 =
      [ns.foldl (fun f n => f ||| UInt8.ofNat (2 ^ n)) flags] ∧
    (ns.foldl setFlag m).length = m.length ∧ ∀ i k, i + k ≤ thdr + 13 ∨ thdr + 14 ≤ i →
      field (ns.foldl setFlag m) i k = field m i k := by
  induction ns generalizing m flags with
  | nil => exact ⟨here, rfl, fun _ _ _ => rfl⟩
  | cons n rest ih =>
    have size := length_setFlag (m := m) n
    obtain ⟨set, whole, other⟩ := ih (size ▸ long) (setFlag_flags n long here)
    refine ⟨set, whole.trans size, fun i k apart => (other i k apart).trans ?_⟩
    exact field_setFlag n apart

theorem flagsBytes_holds (ns : List Nat) {flags : TcpHdr} (hl : flags.hl = 0)
    (set : ns.foldl (fun f n => f ||| UInt8.ofNat (2 ^ n)) 0 = tcpFlags flags) :
    Holds { tcpAllocBytes 0 0 with head := ns.foldl setFlag (tcpAllocBytes 0 0).head } flags [] ∧
      Unpushed { tcpAllocBytes 0 0 with head := ns.foldl setFlag (tcpAllocBytes 0 0).head } := by
  have cleared : Zeroed (List.replicate thData 0) := zeroed_replicate (Nat.le_refl _)
  rw [tcpAllocBytes_eq]
  simp only [Nat.add_zero]
  have none : field (List.replicate thData (0 : UInt8)) (thdr + 13) 1 = [0] := by decide
  obtain ⟨flagged, whole, other⟩ := setFlags ns cleared.long none
  have size := whole.trans List.length_replicate
  rw [set] at flagged
  refine ⟨holds_plain hl size rfl rfl cleared ?_ flagged ?_, size.symm, rfl⟩
  · exact fun i n before => other i n (.inl before)
  · exact List.take_zero

theorem textBytes_holds (buf : List UInt8) (last : Bool) :
    Holds (textBytes buf last) { ack := true, psh := last } buf ∧ Unpushed (textBytes buf last) := by
  have cleared : Zeroed (List.replicate (thData + buf.length) 0) :=
    zeroed_replicate (Nat.le_add_right _ _)
  have start : thData + buf.length - buf.length = thData := Nat.add_sub_cancel _ _
  unfold textBytes
  rw [tcpAllocBytes_eq]
  simp only [TxSkb.push, SkBytes.push, Nat.add_zero, Nat.zero_add, start]
  generalize zeroed : List.replicate (thData + buf.length) (0 : UInt8) = z at cleared ⊢
  have size : z.length = thData + buf.length := by rw [← zeroed, List.length_replicate]
  have copied : field (put z thData buf) thData buf.length = buf :=
    field_put_self z buf (Nat.le_of_eq size.symm)
  have front : ∀ i n, i + n ≤ thData → field (put z thData buf) i n = field z i n :=
    fun i n before => field_put_other _ _ (.inl before)
  have count : (put z thData buf).length = thData + buf.length := (length_put _ _ _).trans size
  have none : field (put z thData buf) (thdr + 13) 1 = [0] := by
    rw [front _ _ (by decide), cleared.field (Nat.le_trans (by decide) cleared.long)]
    rfl
  generalize put z thData buf = m at *
  have long : thData ≤ m.length := by omega
  have acked := setFlag_flags 4 long none
  have pushed := setFlag_flags 3 (by rw [length_setFlag]; exact long) acked
  have other : ∀ n i k, i + k ≤ thdr + 13 ∨ thdr + 14 ≤ i →
      field (setFlag m n) i k = field m i k := fun n i k apart => field_setFlag n apart
  have other' : ∀ i k, i + k ≤ thdr + 13 ∨ thdr + 14 ≤ i →
      field (setFlag (setFlag m 4) 3) i k = field m i k :=
    fun i k apart => (field_setFlag 3 apart).trans (other 4 i k apart)
  cases last with
  | false =>
    refine ⟨holds_plain rfl ((length_setFlag 4).trans count) rfl rfl cleared ?_ acked ?_, ?_, rfl⟩
    · exact fun i n before => (other 4 i n (.inl before)).trans (front i n (Nat.le_trans before (by decide)))
    · exact (other 4 _ _ (.inr (by decide))).trans copied
    · exact ((length_setFlag 4).trans count).symm
  | true =>
    refine ⟨holds_plain rfl ?_ rfl rfl cleared ?_ pushed ?_, ?_, rfl⟩
    · exact ((length_setFlag 3).trans (length_setFlag 4)).trans count
    · exact fun i n before => (other' i n (.inl before)).trans (front i n (Nat.le_trans before (by decide)))
    · exact (other' _ _ (.inr (by decide))).trans copied
    · exact (((length_setFlag 3).trans (length_setFlag 4)).trans count).symm

/- A buffer for a header with options and no text, in any order of setting its fields. -/
theorem optionsBytes_holds {m : List UInt8} {flags : UInt8} {optlen : Nat} (words : 5 ≤ th.hl.val)
    (room : optionRoom th = optlen) (size : m.length = thData + optlen)
    (hl : tcpHl m thdr = th.hl.val) (id : field m (ihdr + 4) 2 = be16 0)
    (set : field m (thdr + 13) 1 = [flags]) (same : flags = tcpFlags th)
    (options : OptionsAt m th.data optlen) :
    Holds ⟨⟨m, thData + optlen, 0⟩, 0, IP_TCP.toUInt16⟩ th [] ∧
      Unpushed ⟨⟨m, thData + optlen, 0⟩, 0, IP_TCP.toUInt16⟩ := by
  refine ⟨⟨?_, rfl, rfl, id, hl, .inr words, same ▸ set, ?_, List.take_zero, .inl rfl⟩, size.symm, rfl⟩
  · rw [room]
    exact size
  · rw [room]
    exact options

theorem synBytes_holds (tsk : TcpSock) : Holds (synBytes tsk) (Outgoing.syn tsk).th [] ∧
    Unpushed (synBytes tsk) := by
  set data := (tcpWriteSynOptions tsk {} (tcpSynOptions tsk)).data with hdata
  have cleared : Zeroed (List.replicate (thData + tcpSynOptions tsk) 0) :=
    zeroed_replicate (Nat.le_add_right _ _)
  have zeroed : (List.replicate (thData + tcpSynOptions tsk) (0 : UInt8)).length =
      thData + tcpSynOptions tsk := List.length_replicate
  unfold synBytes
  dsimp only
  rw [tcpAllocBytes_eq]
  simp only [Nat.add_zero]
  generalize List.replicate (thData + tcpSynOptions tsk) (0 : UInt8) = z at *
  have bytes : putSynOptions tsk z (tcpSynOptions tsk) =
      putHl (put z thData data) (TCP_DOFFSET + tcpSynOptions tsk / 4) := by
    unfold putSynOptions
    rw [hdata, tcpWriteSynOptions]
    cases tsk.sackok <;> rfl
  rw [bytes]
  have long : thData ≤ (put z thData data).length := by
    rw [length_put]
    exact cleared.long
  have count : (put z thData data).length = thData + tcpSynOptions tsk := (length_put _ _ _).trans zeroed
  have front : ∀ i n, i + n ≤ thData → field (put z thData data) i n = field z i n :=
    fun i n before => field_put_other _ _ (.inl before)
  have options : OptionsAt (put z thData data) data (tcpSynOptions tsk) := by
    have none : OptionsAt z [] (tcpSynOptions tsk) := fun k _ => cleared.zero (thData + k)
    have written : OptionsAt (put z thData data) (data ++ [].drop data.length) (tcpSynOptions tsk) :=
      none.put (Nat.le_of_eq zeroed.symm)
    rwa [List.drop_nil, List.append_nil] at written
  have id : field (put z thData data) (ihdr + 4) 2 = be16 0 := by
    rw [front _ _ (by decide), cleared.field (Nat.le_trans (by decide) cleared.long)]
    rfl
  have none : field (put z thData data) (thdr + 13) 1 = [0] := by
    rw [front _ _ (by decide), cleared.field (Nat.le_trans (by decide) cleared.long)]
    rfl
  generalize put z thData data = m at *
  have words : (Outgoing.syn tsk).th.hl.val = TCP_DOFFSET + tcpSynOptions tsk / 4 ∧
      tcpSynOptions tsk % 4 = 0 ∧ tcpSynOptions tsk ≤ 8 := by
    show (TCP_DOFFSET + tcpSynOptions tsk / 4) % 16 = _ ∧ _
    unfold tcpSynOptions
    split <;> decide
  have length : (putHl m (TCP_DOFFSET + tcpSynOptions tsk / 4)).length = m.length :=
    length_putHigh _ _
  have flagged := setFlag_flags 1 (length.symm ▸ long) ((putHl_other _ (.inr (by decide))).trans none)
  refine optionsBytes_holds ?_ ?_ ?_ ?_ ?_ flagged ?_ ?_
  · rw [words.1]
    exact Nat.le_add_right _ _
  · rw [optionRoom, words.1, TCP_DOFFSET]
    omega
  · exact ((length_setFlag 1).trans length).trans count
  · rw [words.1, tcpHl, byteAt_congr (field_setFlag 1 (.inl (by decide)))]
    exact putHl_here long (by rw [TCP_DOFFSET]; omega)
  · rw [field_setFlag _ (.inl (by decide)), putHl_other _ (.inl (by decide))]
    exact id
  · rw [show tcpFlags (Outgoing.syn tsk).th = tcpFlags { syn := true } from rfl]
    decide
  · refine options.congr fun k _ => ?_
    have behind : thdr + 14 ≤ thData + k := Nat.le_trans (by decide) (Nat.le_add_right _ _)
    rw [field_setFlag _ (.inr behind), putHl_other _ (.inr (Nat.le_trans (Nat.le_succ _) behind))]

theorem ackBytes_holds (tsk : TcpSock) (fits : tcpOptionsLen tsk ≤ 40) :
    Holds (ackBytes tsk) (Outgoing.ack tsk fits).th [] ∧ Unpushed (ackBytes tsk) := by
  have whole : tcpOptionsLen tsk % 4 = 0 := by
    unfold tcpOptionsLen
    split
    · exact Nat.mul_mod_left _ _
    · rfl
  have cleared : Zeroed (List.replicate (thData + tcpOptionsLen tsk) 0) :=
    zeroed_replicate (Nat.le_add_right _ _)
  have zeroed : (List.replicate (thData + tcpOptionsLen tsk) (0 : UInt8)).length =
      thData + tcpOptionsLen tsk := List.length_replicate
  have words : (Outgoing.ack tsk fits).th.hl.val = TCP_DOFFSET + tcpOptionsLen tsk / 4 := by
    show (TCP_DOFFSET + tcpOptionsLen tsk / 4) % 16 = _
    rw [TCP_DOFFSET]
    omega
  unfold ackBytes
  dsimp only
  rw [tcpAllocBytes_eq]
  simp only [Nat.add_zero]
  generalize List.replicate (thData + tcpOptionsLen tsk) (0 : UInt8) = z at *
  have none : field z (thdr + 13) 1 = [0] := by
    rw [cleared.field (Nat.le_trans (by decide) cleared.long)]
    rfl
  have flagged := setFlag_flags 4 cleared.long none
  have length : (setFlag z 4).length = z.length := length_setFlag 4
  have flagged' : field (putHl (setFlag z 4) (TCP_DOFFSET + tcpOptionsLen tsk / 4)) (thdr + 13) 1 =
      [0 ||| UInt8.ofNat (2 ^ 4)] := (putHl_other _ (.inr (by decide))).trans flagged
  refine optionsBytes_holds ?_ ?_ ?_ ?_ ?_ flagged' ?_ ?_
  · rw [words]
    exact Nat.le_add_right _ _
  · rw [optionRoom, words, TCP_DOFFSET]
    omega
  · exact ((length_putHigh _ _).trans length).trans zeroed
  · rw [words]
    exact putHl_here (length.symm ▸ cleared.long) (by rw [TCP_DOFFSET]; omega)
  · rw [putHl_other _ (.inl (by decide)), field_setFlag _ (.inl (by decide)),
      cleared.field (Nat.le_trans (by decide) cleared.long)]
    rfl
  · rw [show tcpFlags (Outgoing.ack tsk fits).th = tcpFlags { ack := true } from rfl]
    decide
  · have zero : OptionsAt z (Outgoing.ack tsk fits).th.data (tcpOptionsLen tsk) := by
      intro k inside
      rw [cleared.zero]
      show 0 = (List.replicate (tcpOptionsLen tsk) (0 : UInt8)).getD k 0
      rw [List.getD_eq_getElem?_getD, List.getElem?_replicate, if_pos inside]
      rfl
    refine zero.congr fun k _ => ?_
    have behind : thdr + 14 ≤ thData + k := Nat.le_trans (by decide) (Nat.le_add_right _ _)
    rw [putHl_other _ (.inr (Nat.le_trans (Nat.le_succ _) behind)), field_setFlag _ (.inr behind)]

/-- Every buffer of the send path holds what the model of the connection has for it. -/
theorem Outgoing.holds (o : Outgoing) : Holds o.skb o.th o.payload ∧ Unpushed o.skb := by
  cases o with
  | syn tsk => exact synBytes_holds tsk
  | synack => exact flagsBytes_holds [1, 4] rfl (by decide)
  | ack tsk fits => exact ackBytes_holds tsk fits
  | text buf last _ _ => exact textBytes_holds buf last
  | fin => exact flagsBytes_holds [0, 4] rfl (by decide)
  | rst => exact flagsBytes_holds [2] rfl (by decide)

/-! ### Transmissions -/

/- A transmission: the state of the socket, the number, and what `dst_neigh_output` finds. -/
structure Transmission where
  tsk : TcpSock
  seq : UInt32
  dev : EthDev
  dmac : Option HwAddr

/- `netdev_transmit` writes the Ethernet header in front of the packet. -/
def dstNeighOutput (dev : EthDev) (dmac : Option HwAddr) (skb : TxSkb) : TxSkb :=
  match dmac with
  | none => skb
  | some dmac =>
    let skb := skb.push ETH_HDR_LEN
    let m := putHwAddr (putHwAddr skb.head skb.data dmac) (skb.data + 6) dev.hwaddr
    { skb with head := htonsAt (putWord m (skb.data + 12) ETH_P_IP) (skb.data + 12) }

/- The buffer after these transmissions, as `skb_reset_header` leaves it each time. -/
def resentBytes (skb : TxSkb) : List Transmission → Option TxSkb
  | [] => some skb
  | x :: rest => do
    let sent ← transmitBytes x.tsk skb x.seq
    resentBytes (skbResetHeader (dstNeighOutput x.dev x.dmac sent)) rest

/-! ### Reception -/

def ipInitPkt (m : List UInt8) : List UInt8 :=
  ntohsAt (ntohsAt (ntohlAt (ntohlAt m (ihdr + 12)) (ihdr + 16)) (ihdr + 2)) (ihdr + 4)

def ntohHeader (m : List UInt8) : List UInt8 :=
  let m := ntohsAt (ntohsAt m thdr) (thdr + 2)
  let m := ntohlAt (ntohlAt m (thdr + 4)) (thdr + 8)
  ntohsAt (ntohsAt (ntohsAt m (thdr + 14)) (thdr + 16)) (thdr + 18)

def flagAt (m : List UInt8) (n : Nat) : Bool := (byteAt m (thdr + 13)).toNat.testBit n

/- What `tcp_init_segment` leaves for the receiver to read: the header as the host reads it, `dlen`, and
   the `dlen` bytes at `skb->payload`. -/
structure TcpReceived where
  th : TcpHdr
  ece : Bool
  cwr : Bool
  dlen : UInt32
  payload : List UInt8
  deriving DecidableEq, Repr

def receivedHdr (m : List UInt8) : TcpHdr :=
  { sport := hostWordAt m thdr
    dport := hostWordAt m (thdr + 2)
    seq := hostDwordAt m (thdr + 4)
    ackSeq := hostDwordAt m (thdr + 8)
    hl := Fin.ofNat 16 (tcpHl m thdr)
    fin := flagAt m 0
    syn := flagAt m 1
    rst := flagAt m 2
    psh := flagAt m 3
    ack := flagAt m 4
    urg := flagAt m 5
    win := hostWordAt m (thdr + 14)
    data := field m thData (4 * (tcpHl m thdr - 5)) }

/- `ip_rcv`, and `tcp_init_segment` when it hands the packet to TCP. -/
def ipRcvSegment (frame : List UInt8) : Option TcpReceived :=
  match ipRcv (rxBuffer frame) with
  | .tcp seg =>
    let m := ntohHeader (ipInitPkt (rxBuffer frame))
    some {
      th := receivedHdr m
      ece := flagAt m 6
      cwr := flagAt m 7
      dlen := seg.dlen
      payload := field m seg.payload seg.dlen.toNat }
  | _ => none

/-! ### The IP header -/

/- A checksum over words whose sum is a positive multiple of the largest word. -/
theorem checksum_zero {data : List UInt8} (positive : 0 < (littleWords data).sum)
    (small : (littleWords data).sum < 2 ^ 32) (whole : (littleWords data).sum % 65535 = 0) :
    checksum data 0 = 0 := by
  have sum : (0 + sumEvery16bits data).toNat = (littleWords data).sum := by
    rw [UInt32.toNat_add, sumEvery16bits_toNat, UInt32.toNat_zero, Nat.zero_add, Nat.mod_mod]
    exact Nat.mod_eq_of_lt small
  obtain ⟨bound, mod, pos⟩ := foldLoop_spec (0 + sumEvery16bits data)
  rw [sum] at mod pos
  have full : (foldLoop 2 (0 + sumEvery16bits data)).toNat = 65535 := by
    have := pos positive
    omega
  unfold checksum
  apply UInt16.toNat_inj.mp
  rw [UInt16.toNat_not, UInt32.toNat_toUInt16, full]
  rfl

/- The checksum over a header that contains its own is 0. -/
theorem ipHeader_checked (proto : UInt8) (len : UInt16) (saddr daddr : UInt32) :
    checksum (ipHeader proto len saddr daddr (checksum (ipHeader proto len saddr daddr 0) 0)) 0 = 0 := by
  have split : ∀ c, ipHeader proto len saddr daddr c =
      ([IPV4 <<< 4 ||| 5, 0] ++ be16 len ++ be16 0 ++ be16 0x4000 ++ [64, proto]) ++
        (le16 c ++ (be32 saddr ++ be32 daddr)) := by
    intro c
    simp only [ipHeader, List.append_assoc]
  have even : ([IPV4 <<< 4 ||| 5, 0] ++ be16 len ++ be16 0 ++ be16 0x4000 ++
      [64, proto]).length % 2 = 0 := by
    simp [be16]
  have sum : ∀ c, (littleWords (ipHeader proto len saddr daddr c)).sum =
      c.toNat + (littleWords (ipHeader proto len saddr daddr 0)).sum := by
    intro c
    rw [split, split, littleWords_append _ _ even, littleWords_append _ _ even, List.sum_append,
      List.sum_append, le16_words, le16_words, UInt16.toNat_zero]
    omega
  have start : 0 < (littleWords (ipHeader proto len saddr daddr 0)).sum := by
    have version : (IPV4 <<< 4 ||| 5 : UInt8).toNat = 69 := rfl
    simp only [ipHeader, List.cons_append, List.nil_append, littleWords, List.sum_cons, version]
    omega
  have most := littleWords_sum_le (ipHeader proto len saddr daddr 0)
  rw [show (ipHeader proto len saddr daddr 0).length = 20 from rfl] at most
  obtain ⟨word, complement, residue⟩ := checksum_spec (ipHeader proto len saddr daddr 0) 0
  rw [UInt32.toNat_zero] at residue
  have total := sum (checksum (ipHeader proto len saddr daddr 0) 0)
  apply checksum_zero <;> rw [total] <;> omega

/-! ### The TCP header -/

theorem ipInitPkt_other {i n : Nat} (behind : thdr ≤ i) : field (ipInitPkt m) i n = field m i n := by
  unfold ipInitPkt
  simp only [thdr, ihdr, ETH_HDR_LEN, IP_HDR_LEN, Nat.reduceAdd] at *
  simp (disch := omega) only [field_ntohsAt, field_ntohlAt]

theorem ntohHeader_other {i n : Nat}
    (apart : i + n ≤ thdr ∨ thdr + 12 ≤ i ∧ i + n ≤ thdr + 14 ∨ thData ≤ i) :
    field (ntohHeader m) i n = field m i n := by
  unfold ntohHeader
  simp only [thData, thdr, ETH_HDR_LEN, IP_HDR_LEN, TCP_HDR_LEN, Nat.reduceAdd] at *
  simp (disch := omega) only [field_ntohsAt, field_ntohlAt]

theorem ntohHeader_swapped (long : thData ≤ m.length) :
    field (ntohHeader m) thdr 2 = (field m thdr 2).reverse ∧
      field (ntohHeader m) (thdr + 2) 2 = (field m (thdr + 2) 2).reverse ∧
      field (ntohHeader m) (thdr + 4) 4 = (field m (thdr + 4) 4).reverse ∧
      field (ntohHeader m) (thdr + 8) 4 = (field m (thdr + 8) 4).reverse ∧
      field (ntohHeader m) (thdr + 14) 2 = (field m (thdr + 14) 2).reverse := by
  have room : 54 ≤ m.length := long
  unfold ntohHeader
  simp only [thdr, ETH_HDR_LEN, IP_HDR_LEN, Nat.reduceAdd]
  refine ⟨?_, ?_, ?_, ?_, ?_⟩ <;>
    simp (disch := first
        | omega
        | (simp only [length_ntohsAt, length_ntohlAt]; omega)) only
      [field_ntohsAt, field_ntohlAt, ntohsAt_here, ntohlAt_here]

theorem tcpFlags_bits (th : TcpHdr) (n : Fin 8) : (tcpFlags th).toNat.testBit n =
    [th.fin, th.syn, th.rst, th.psh, th.ack, th.urg, false, false].getD n false := by
  unfold tcpFlags
  cases th.fin <;> cases th.syn <;> cases th.rst <;> cases th.psh <;> cases th.ack <;> cases th.urg <;>
    revert n <;> decide

/- The segment of a packet, where `tcp_hdr` looks for it. -/
structure SegmentAt (m : List UInt8) (th : TcpHdr) (csum : UInt16) (payload : List UInt8) : Prop where
  words : 5 ≤ th.hl.val
  fits : thData + optionRoom th + payload.length ≤ m.length
  bytes : field m thdr (TCP_HDR_LEN + optionRoom th + payload.length) = tcpBytes th csum payload

variable {csum : UInt16}

theorem SegmentAt.part (here : SegmentAt m th csum payload) {i n : Nat}
    (inside : i + n ≤ TCP_HDR_LEN + optionRoom th + payload.length) :
    field m (thdr + i) n = field (tcpBytes th csum payload) i n := by
  rw [← here.bytes, field_field m inside]

theorem SegmentAt.fixed (here : SegmentAt m th csum payload) {i n : Nat} (inside : i + n ≤ 20) :
    field m (thdr + i) n = field (tcpBytes th csum payload) i n :=
  here.part (Nat.le_trans inside (by rw [TCP_HDR_LEN]; omega))

theorem SegmentAt.congr {m' : List UInt8} (here : SegmentAt m th csum payload)
    (length : m'.length = m.length) (same : ∀ i n, thdr ≤ i → field m' i n = field m i n) :
    SegmentAt m' th csum payload :=
  ⟨here.words, length ▸ here.fits, (same _ _ (Nat.le_refl _)).trans here.bytes⟩

theorem SegmentAt.hl (here : SegmentAt m th csum payload) : tcpHl m thdr = th.hl.val := by
  have set : field m (thdr + 12) 1 = [UInt8.ofNat (16 * th.hl.val)] := here.fixed (by decide)
  have small := th.hl.isLt
  rw [tcpHl, byteAt_of_one set, UInt8.toNat_ofNat']
  omega

theorem SegmentAt.flag (here : SegmentAt m th csum payload) (n : Fin 8) : flagAt (ntohHeader m) n =
    [th.fin, th.syn, th.rst, th.psh, th.ack, th.urg, false, false].getD n false := by
  have set : field m (thdr + 13) 1 = [tcpFlags th] := here.fixed (by decide)
  rw [flagAt, byteAt_of_one ((ntohHeader_other (.inr (.inl ⟨by omega, by omega⟩))).trans set)]
  exact tcpFlags_bits th n

/-- The header that the host reads is the one that the segment was made of. -/
theorem SegmentAt.header (here : SegmentAt m th csum payload) :
    receivedHdr (ntohHeader m) = { th with data := tcpOptionBytes th } := by
  have long : thData ≤ m.length := by
    have fits := here.fits
    omega
  obtain ⟨sport, dport, seq, ackSeq, win⟩ := ntohHeader_swapped long
  have hl : tcpHl (ntohHeader m) thdr = th.hl.val := by
    rw [tcpHl, byteAt_congr (ntohHeader_other (.inr (.inl ⟨by omega, by omega⟩)))]
    exact here.hl
  have options : field (ntohHeader m) thData (4 * (th.hl.val - 5)) = tcpOptionBytes th := by
    have length : (tcpOptionBytes th).length = 4 * (th.hl.val - 5) := by simp [tcpOptionBytes]
    have behind : field m (thdr + 20) (4 * (th.hl.val - 5)) =
        field (tcpBytes th csum payload) 20 (4 * (th.hl.val - 5)) :=
      here.part (by rw [TCP_HDR_LEN, optionRoom]; omega)
    rw [ntohHeader_other (.inr (.inr (Nat.le_refl _))), show thData = thdr + 20 from rfl, behind]
    exact field_left length
  have sport' : hostWordAt (ntohHeader m) thdr = th.sport :=
    hostWordAt_of_field (sport.trans (congrArg List.reverse (here.fixed (i := 0) (by decide))))
  have dport' : hostWordAt (ntohHeader m) (thdr + 2) = th.dport :=
    hostWordAt_of_field (dport.trans (congrArg List.reverse (here.fixed (by decide))))
  have seq' : hostDwordAt (ntohHeader m) (thdr + 4) = th.seq :=
    hostDwordAt_of_field (seq.trans (congrArg List.reverse (here.fixed (by decide))))
  have ackSeq' : hostDwordAt (ntohHeader m) (thdr + 8) = th.ackSeq :=
    hostDwordAt_of_field (ackSeq.trans (congrArg List.reverse (here.fixed (by decide))))
  have win' : hostWordAt (ntohHeader m) (thdr + 14) = th.win :=
    hostWordAt_of_field (win.trans (congrArg List.reverse (here.fixed (by decide))))
  have words : Fin.ofNat 16 th.hl.val = th.hl := Fin.ext (Nat.mod_eq_of_lt th.hl.isLt)
  have fin : flagAt (ntohHeader m) 0 = th.fin := here.flag 0
  have syn : flagAt (ntohHeader m) 1 = th.syn := here.flag 1
  have rst : flagAt (ntohHeader m) 2 = th.rst := here.flag 2
  have psh : flagAt (ntohHeader m) 3 = th.psh := here.flag 3
  have ack : flagAt (ntohHeader m) 4 = th.ack := here.flag 4
  have urg : flagAt (ntohHeader m) 5 = th.urg := here.flag 5
  unfold receivedHdr
  rw [hl, options, sport', dport', seq', ackSeq', win', words, fin, syn, rst, psh, ack, urg]

theorem SegmentAt.text (here : SegmentAt m th csum payload)
    (plain : payload = [] ∨ optionRoom th = 0) :
    field (ntohHeader m) thData payload.length = payload := by
  rw [ntohHeader_other (.inr (.inr (Nat.le_refl _)))]
  rcases plain with none | room
  · rw [none]
    exact List.take_zero
  · have behind : field m (thdr + 20) payload.length = field (tcpBytes th csum payload) 20 payload.length :=
      here.part (by rw [TCP_HDR_LEN, room])
    have bare : tcpOptionBytes th = [] := by
      unfold optionRoom at room
      rw [tcpOptionBytes, room]
      rfl
    rw [show thData = thdr + 20 from rfl, behind]
    unfold tcpBytes
    rw [bare, List.append_nil]
    exact field_whole payload

/-! ### The packet -/

theorem ipHeader_length (proto : UInt8) (len : UInt16) (saddr daddr : UInt32) (csum : UInt16) :
    (ipHeader proto len saddr daddr csum).length = IP_HDR_LEN := rfl

/-- A frame with a packet of `ip_output` around the segment comes up as the segment. -/
theorem ipRcvSegment_packet (eth : List UInt8) {len : UInt16} (saddr daddr : UInt32) (csum : UInt16)
    (header : eth.length = ETH_HDR_LEN) (words : 5 ≤ th.hl.val)
    (plain : payload = [] ∨ optionRoom th = 0)
    (total : len.toNat = IP_HDR_LEN + TCP_HDR_LEN + optionRoom th + payload.length) :
    let packet := ipHeader IP_TCP len saddr daddr (checksum (ipHeader IP_TCP len saddr daddr 0) 0) ++
      tcpBytes th csum payload
    (ipHdr (eth ++ packet)).len = len ∧
      ipRcvSegment (eth ++ packet) = some {
        th := { th with data := tcpOptionBytes th }, ece := false, cwr := false
        dlen := UInt32.ofNat payload.length, payload := payload } := by
  intro packet
  set iph := ipHeader IP_TCP len saddr daddr (checksum (ipHeader IP_TCP len saddr daddr 0) 0)
    with hiph
  have segment := tcpBytes_length th csum payload
  have size : (eth ++ packet).length = thData + optionRoom th + payload.length := by
    show (eth ++ (iph ++ tcpBytes th csum payload)).length = _
    rw [List.length_append, List.length_append, header, segment, hiph, ipHeader_length, optionRoom,
      thData, thdr, TCP_HDR_LEN]
    omega
  have inner : ∀ i n, field (eth ++ packet) (ETH_HDR_LEN + i) n = field packet i n := by
    intro i n
    rw [field_right (by omega), header, Nat.add_sub_cancel_left]
  have front : field (rxBuffer (eth ++ packet)) ihdr IP_HDR_LEN = iph := by
    refine (rxBuffer_slice ?_).trans ?_
    · rw [size, thData, thdr, ihdr]
      omega
    · exact (inner 0 _).trans (field_left rfl)
  have behind : SegmentAt (rxBuffer (eth ++ packet)) th csum payload := by
    refine ⟨words, ?_, (rxBuffer_slice ?_).trans ?_⟩
    · rw [rxBuffer, List.length_append, size]
      omega
    · rw [size, thData]
      omega
    · refine (inner IP_HDR_LEN _).trans ?_
      show field (iph ++ tcpBytes th csum payload) iph.length _ = _
      rw [field_right (Nat.le_refl _), Nat.sub_self, optionRoom, TCP_HDR_LEN, ← segment]
      exact field_whole _
  have fields : ipHdr (rxBuffer (eth ++ packet)) = ⟨5, 4, len, 64, IP_TCP⟩ := by
    have first : byteAt (rxBuffer (eth ++ packet)) ihdr = IPV4 <<< 4 ||| 5 :=
      byteAt_of_field (k := 0) front (by decide)
    have ttl : byteAt (rxBuffer (eth ++ packet)) (ihdr + 8) = 64 := byteAt_of_field front (by decide)
    have proto : byteAt (rxBuffer (eth ++ packet)) (ihdr + 9) = IP_TCP :=
      byteAt_of_field front (by decide)
    have count : field (rxBuffer (eth ++ packet)) (ihdr + 2) 2 = be16 len := by
      rw [← @field_field _ _ ihdr IP_HDR_LEN 2 2 (by decide), front]
      rfl
    unfold ipHdr
    rw [show ETH_HDR_LEN = ihdr from rfl, first, ttl, proto, wordAt_of_field count]
    rfl
  have summed : checksum (((rxBuffer (eth ++ packet)).drop ETH_HDR_LEN).take (5 * 4)) 0 = 0 := by
    rw [show ((rxBuffer (eth ++ packet)).drop ETH_HDR_LEN).take (5 * 4) = iph from front]
    exact ipHeader_checked _ _ _ _
  refine ⟨by rw [← ipHdr_rxBuffer, fields], ?_⟩
  unfold ipRcvSegment
  generalize rxBuffer (eth ++ packet) = m at *
  have room : 4 * th.hl.val = TCP_HDR_LEN + optionRoom th := by
    rw [TCP_HDR_LEN, optionRoom]
    omega
  have most := len.toNat_lt
  have short : (UInt32.ofNat payload.length).toNat = payload.length := by
    rw [UInt32.toNat_ofNat']
    exact Nat.mod_eq_of_lt (by omega)
  have dlen : UInt32.ofInt (ipLen ⟨5, 4, len, 64, IP_TCP⟩ - th.hl.val * 4) =
      UInt32.ofNat payload.length := by
    have rest : ipLen ⟨5, 4, len, 64, IP_TCP⟩ - th.hl.val * 4 = (payload.length : Int) := by
      show (len.toNat : Int) - (5 : Nat) * 4 - th.hl.val * 4 = _
      rw [IP_HDR_LEN] at total
      omega
    rw [rest]
    apply UInt32.toNat_inj.mp
    rw [ofInt_toNat (by omega) (by omega), short, Int.toNat_natCast]
  have taken : ipRcv m = .tcp ⟨thdr, UInt32.ofNat payload.length, thData⟩ := by
    unfold ipRcv tcpInFrame
    rw [fields]
    dsimp only
    rw [summed, if_neg (by decide), if_neg (by decide), if_neg (by decide), if_neg (by decide),
      if_neg (by decide), if_pos rfl, show ipData = thdr from rfl, behind.hl, dlen]
    rfl
  have length : (ipInitPkt m).length = m.length := by simp [ipInitPkt]
  have swapped := behind.congr length fun _ _ => ipInitPkt_other
  have ece : flagAt (ntohHeader (ipInitPkt m)) 6 = false := swapped.flag 6
  have cwr : flagAt (ntohHeader (ipInitPkt m)) 7 = false := swapped.flag 7
  rw [taken]
  dsimp only
  rw [short, swapped.header, swapped.text plain, ece, cwr]

/-! ### The round trip -/

theorem skbResetHeader_unpushed (unpushed : Unpushed skb) : skbResetHeader skb = skb := by
  obtain ⟨⟨head, data, len⟩, dlen, protocol⟩ := skb
  obtain ⟨start, rfl⟩ : data + dlen = head.length ∧ len = dlen := unpushed
  show TxSkb.mk ⟨head, head.length - len, len⟩ len protocol = _
  rw [← start, Nat.add_sub_cancel]

/- The Ethernet header is in front of everything else. -/
theorem dstNeighOutput_other (dev : EthDev) (dmac : Option HwAddr) (start : skb.data = ihdr) :
    (dstNeighOutput dev dmac skb).head.length = skb.head.length ∧
      (dstNeighOutput dev dmac skb).dlen = skb.dlen ∧
      (dstNeighOutput dev dmac skb).protocol = skb.protocol ∧
      ∀ i n, ihdr ≤ i → field (dstNeighOutput dev dmac skb).head i n = field skb.head i n := by
  cases dmac with
  | none => exact ⟨rfl, rfl, rfl, fun _ _ _ => rfl⟩
  | some dmac =>
    have zero : skb.data - ETH_HDR_LEN = 0 := by
      rw [start]
      rfl
    unfold dstNeighOutput
    dsimp only [TxSkb.push, SkBytes.push]
    rw [zero]
    refine ⟨by simp, rfl, rfl, fun i n behind => ?_⟩
    rw [ihdr, ETH_HDR_LEN] at behind
    simp (disch := omega) only [field_htonsAt, field_putWord, field_putHwAddr]

theorem Holds.congr {u : TxSkb} (holds : Holds skb th payload)
    (length : u.head.length = skb.head.length) (dlen : u.dlen = skb.dlen)
    (protocol : u.protocol = skb.protocol)
    (same : ∀ i n, ihdr ≤ i → field u.head i n = field skb.head i n) : Holds u th payload := by
  refine ⟨length.trans holds.whole, dlen.trans holds.dlen, protocol.trans holds.protocol, ?_, ?_,
    holds.offset, ?_, ?_, ?_, holds.plain⟩
  · exact (same _ _ (Nat.le_add_right _ _)).trans holds.id
  · rw [tcpHl, byteAt_congr (same _ _ (by decide))]
    exact holds.hl
  · exact (same _ _ (by decide)).trans holds.flags
  · exact holds.options.congr fun k _ => same _ _ (Nat.le_trans (by decide) (Nat.le_add_right _ _))
  · exact (same _ _ (by rw [thData, thdr, ihdr]; omega)).trans holds.text

/- Apart from the options, a header stays as its first transmission has set it. -/
theorem offsetSet_optionsSet (tsk : TcpSock) (th : TcpHdr) : ∃ data,
    optionsSet tsk (offsetSet th) = { offsetSet th with data := data } ∧
      offsetSet (optionsSet tsk (offsetSet th)) = { offsetSet th with data := data } := by
  have offset : (offsetSet th).hl ≠ 0 := by
    unfold offsetSet
    split
    · exact Fin.ne_of_val_ne (Nat.succ_ne_zero 4)
    · assumption
  generalize offsetSet th = u at *
  have still : ∀ data, offsetSet { u with data := data } = { u with data := data } :=
    fun data => if_neg offset
  unfold optionsSet
  split
  · rw [tcpWriteOptions_data]
    exact ⟨_, rfl, still _⟩
  · exact ⟨u.data, rfl, still _⟩

theorem offsetSet_words (th : TcpHdr) (offset : th.hl = 0 ∨ 5 ≤ th.hl.val) :
    5 ≤ (offsetSet th).hl.val := by
  unfold offsetSet
  split
  · exact Nat.le_refl 5
  · exact offset.resolve_left ‹_›

/-- After any number of transmissions the buffer holds its header and its text. -/
theorem resentBytes_holds (before : List Transmission) (holds : Holds skb th payload)
    (unpushed : Unpushed skb) : ∃ u data, resentBytes skb before = some u ∧ Unpushed u ∧
      ∃ th', offsetSet th' = { offsetSet th with data := data } ∧ Holds u th' payload := by
  induction before generalizing skb th with
  | nil => exact ⟨skb, (offsetSet th).data, rfl, unpushed, th, rfl, holds⟩
  | cons x rest ih =>
    obtain ⟨sent, output, start, held, -⟩ := transmitBytes_holds x.tsk x.seq holds unpushed
    obtain ⟨length, dlen, protocol, same⟩ := dstNeighOutput_other x.dev x.dmac start
    obtain ⟨data, written, still⟩ := offsetSet_optionsSet x.tsk th
    have again := skbResetHeader_holds (held.congr length dlen protocol same)
    obtain ⟨u, data', run, fresh, th', same', kept⟩ := ih again.1 again.2
    refine ⟨u, data', ?_, fresh, th', ?_, kept⟩
    · rw [resentBytes, output]
      exact run
    · rw [same', still]

/-- Decoding undoes encoding. A buffer of the send path may have been transmitted any number of times,
    in whatever state of the socket and with or without an address for the next hop, and its headers
    reset each time (before the first time this changes nothing). The packet that its next transmission
    hands on has the total length of its headers and text, and behind any Ethernet header `ip_rcv` and
    `tcp_init_segment` recover from it the ports, the numbers, the flags and the window of that
    transmission, and the text. -/
theorem decode_undoes_encode (o : Outgoing) (before : List Transmission) (last : Transmission) :
    skbResetHeader o.skb = o.skb ∧ ∃ skb sent, resentBytes o.skb before = some skb ∧
      transmitBytes last.tsk skb last.seq = some sent ∧
      sent.bytes.length = IP_HDR_LEN + 4 * (offsetSet o.th).hl.val + o.payload.length ∧
      ∀ eth : Vector UInt8 ETH_HDR_LEN,
        (ipHdr (eth.toList ++ sent.bytes)).len.toNat = sent.bytes.length ∧
        ∃ options, ipRcvSegment (eth.toList ++ sent.bytes) = some {
          th := { offsetSet o.th with
            sport := last.tsk.sport
            dport := last.tsk.dport
            seq := last.seq
            ackSeq := last.tsk.tcb.rcvNxt
            win := last.tsk.tcb.rcvWnd.toUInt16
            data := options }
          ece := false
          cwr := false
          dlen := UInt32.ofNat o.payload.length
          payload := o.payload } := by
  obtain ⟨first, start⟩ := o.holds
  have unsent : skbResetHeader o.skb = o.skb := skbResetHeader_unpushed start
  obtain ⟨skb, data, again, unpushed, th, same, holds⟩ := resentBytes_holds before first start
  obtain ⟨sent, output, -, -, packet⟩ := transmitBytes_holds last.tsk last.seq holds unpushed
  obtain ⟨data', written, -⟩ := offsetSet_optionsSet last.tsk th
  rw [written, same] at packet
  generalize hsent : sentHeader last.tsk { offsetSet o.th with data := data' } last.seq = header
    at packet
  have hl : header.hl = (offsetSet o.th).hl := by rw [← hsent]; rfl
  have room : optionRoom header = optionRoom th := by
    have kept := (offsetSet_fields th).1
    rw [same] at kept
    rw [← kept, optionRoom, optionRoom, hl]
  have words : 5 ≤ header.hl.val := hl ▸ offsetSet_words o.th first.offset
  have short : o.payload.length ≤ 1460 := by
    cases o with
    | text buf last some short => exact short
    | _ => exact Nat.zero_le _
  unfold tcpPacket ipOutput tcpChecksummed at packet
  obtain ⟨rt, -, bytes⟩ := Option.map_eq_some_iff.mp packet
  dsimp only at bytes
  generalize tcpV4Checksum (tcpBytes header 0 o.payload) (htonl last.tsk.saddr) (htonl last.tsk.daddr) =
    csum at bytes
  have segment := tcpBytes_length header csum o.payload
  have size : sent.bytes.length = IP_HDR_LEN + 4 * header.hl.val + o.payload.length := by
    rw [← bytes, List.length_append, segment, ipHeader_length]
    omega
  have few := header.hl.isLt
  have total : (UInt16.ofNat ((tcpBytes header csum o.payload).length + IP_HDR_LEN)).toNat =
      IP_HDR_LEN + TCP_HDR_LEN + optionRoom header + o.payload.length := by
    rw [UInt16.toNat_ofNat', segment, IP_HDR_LEN, TCP_HDR_LEN, optionRoom]
    omega
  refine ⟨unsent, skb, sent, again, output, hl ▸ size, fun eth => ?_⟩
  obtain ⟨count, received⟩ := ipRcvSegment_packet eth.toList rt.dev.addr last.tsk.daddr csum
    eth.length_toList words (room.symm ▸ holds.plain) total
  rw [bytes] at count received
  refine ⟨?_, tcpOptionBytes header, ?_⟩
  · rw [count, total, size, optionRoom, TCP_HDR_LEN]
    omega
  · rw [received, ← hsent]
    rfl

end HfIp
