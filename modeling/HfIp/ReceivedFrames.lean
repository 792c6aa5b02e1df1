import HfIp.Frames
import Mathlib.Data.List.GetD

/- What the receive path takes from a frame. `iph->data` and `th->data` stand for the first byte after
   the fixed header, whatever the header lengths, and no length field is checked. -/
namespace HfIp

variable {frame : List UInt8}

theorem byteAt_rxBuffer (frame : List UInt8) (i : Nat) :
    byteAt (rxBuffer frame) i = byteAt frame i := by
  unfold byteAt rxBuffer
  by_cases inside : i < frame.length
  · rw [List.getD_append _ _ _ _ inside]
  · have rest : ∀ n m, (List.replicate n (0 : UInt8)).getD m 0 = 0 := by
      intro n m
      rw [List.getD_eq_getElem?_getD, List.getElem?_replicate]
      split <;> rfl
    rw [List.getD_append_right _ _ _ _ (by omega), rest, List.getD_eq_default _ _ (by omega)]

theorem ipHdr_rxBuffer (frame : List UInt8) : ipHdr (rxBuffer frame) = ipHdr frame := by
  simp only [ipHdr, wordAt, byteAt_rxBuffer]

theorem tcpHl_rxBuffer (frame : List UInt8) (th : Nat) :
    tcpHl (rxBuffer frame) th = tcpHl frame th := by
  simp only [tcpHl, byteAt_rxBuffer]

/- Inside the frame the buffer holds the frame. -/
theorem rxBuffer_slice {a n : Nat} (inside : a + n ≤ frame.length) :
    ((rxBuffer frame).drop a).take n = (frame.drop a).take n := by
  unfold rxBuffer
  rw [List.drop_append_of_le_length (by omega)]
  exact List.take_append_of_le_length (by rw [List.length_drop]; omega)

/- `ip_rcv` has given the packet to TCP or to ICMP. -/
def Handled.Dispatched : Handled → Prop
  | .icmp _ | .tcp _ => True
  | _ => False

instance (h : Handled) : Decidable h.Dispatched := by
  cases h <;> unfold Handled.Dispatched <;> infer_instance

/- What `ip_rcv` has checked of such a packet. -/
theorem netdevRx_dispatched {h : Handled} (taken : netdevRx frame = h) (dispatched : h.Dispatched) :
    5 ≤ (ipHdr frame).ihl ∧
      ((ipHdr frame).proto = ICMPV4 ∧ h = .icmp (icmpv4Incoming (rxBuffer frame)) ∨
        (ipHdr frame).proto = IP_TCP ∧ h = .tcp (tcpInFrame (rxBuffer frame))) := by
  subst taken
  unfold netdevRx netdevReceive ipRcv at dispatched ⊢
  rw [ipHdr_rxBuffer] at dispatched ⊢
  dsimp only at dispatched ⊢
  split at dispatched
  · cases dispatched
  · split at dispatched
    · split at dispatched
      · cases dispatched
      · split at dispatched
        · cases dispatched
        · rename_i arp ip version long
          refine ⟨by omega, ?_⟩
          rw [if_neg arp, if_pos ip, if_neg version, if_neg long]
          split at dispatched
          · cases dispatched
          · rename_i alive
            split at dispatched
            · cases dispatched
            · rename_i sound
              rw [if_neg alive, if_neg sound]
              split at dispatched
              · rename_i icmp
                exact .inl ⟨icmp, if_pos icmp⟩
              · rename_i other
                split at dispatched
                · rename_i tcp
                  exact .inr ⟨tcp, by rw [if_neg other, if_pos tcp]⟩
                · cases dispatched
    · cases dispatched

/-! ### Decoding -/

/- The TCP header comes after the IP options. -/
def tcpStart (frame : List UInt8) : Nat := ETH_HDR_LEN + 4 * (ipHdr frame).ihl

def dataOffset (frame : List UInt8) : Nat := tcpHl frame (tcpStart frame)

def textLength (frame : List UInt8) : Nat :=
  (ipHdr frame).len.toNat - 4 * (ipHdr frame).ihl - 4 * dataOffset frame

def tcpOptions (frame : List UInt8) : List UInt8 :=
  (frame.drop (tcpStart frame + TCP_HDR_LEN)).take (4 * dataOffset frame - TCP_HDR_LEN)

def tcpText (frame : List UInt8) : List UInt8 :=
  (frame.drop (tcpStart frame + 4 * dataOffset frame)).take (textLength frame)

/-- An IPv4 packet with a TCP segment whose headers and text fit the packet, and the packet the frame. -/
structure WellFormed (frame : List UInt8) : Prop where
  size : frame.length ≤ BUFLEN
  fits : ETH_HDR_LEN + (ipHdr frame).len.toNat ≤ frame.length
  offset : 5 ≤ dataOffset frame
  inside : 4 * ((ipHdr frame).ihl + dataOffset frame) ≤ (ipHdr frame).len.toNat

instance (frame : List UInt8) : Decidable (WellFormed frame) :=
  decidable_of_iff (frame.length ≤ BUFLEN ∧ ETH_HDR_LEN + (ipHdr frame).len.toNat ≤ frame.length ∧
    5 ≤ dataOffset frame ∧ 4 * ((ipHdr frame).ihl + dataOffset frame) ≤ (ipHdr frame).len.toNat)
    ⟨fun ⟨size, fits, offset, inside⟩ => ⟨size, fits, offset, inside⟩,
      fun ⟨size, fits, offset, inside⟩ => ⟨size, fits, offset, inside⟩⟩

/- The bytes that `tcp_data_dequeue` copies. -/
def TcpSkb.text (seg : TcpSkb) (skb : List UInt8) : List UInt8 :=
  (skb.drop seg.payload).take seg.dlen.toNat

/-- The header is the one after the IP options, and the text is the one after the TCP options. -/
structure Decodes (frame : List UInt8) (seg : TcpSkb) : Prop where
  header : seg.th = tcpStart frame
  length : seg.dlen.toNat = textLength frame
  text : seg.text (rxBuffer frame) = tcpText frame

instance (frame : List UInt8) (seg : TcpSkb) : Decidable (Decodes frame seg) :=
  decidable_of_iff (seg.th = tcpStart frame ∧ seg.dlen.toNat = textLength frame ∧
    seg.text (rxBuffer frame) = tcpText frame)
    ⟨fun ⟨header, length, text⟩ => ⟨header, length, text⟩,
      fun ⟨header, length, text⟩ => ⟨header, length, text⟩⟩

theorem tcpText_length (formed : WellFormed frame) : (tcpText frame).length = textLength frame := by
  have fits := formed.fits
  have inside := formed.inside
  unfold tcpText
  rw [List.length_take, List.length_drop]
  unfold tcpStart textLength
  omega

/- Options and text follow each other. -/
theorem options_text (formed : WellFormed frame) : tcpOptions frame ++ tcpText frame =
    (frame.drop (tcpStart frame + TCP_HDR_LEN)).take
      (4 * dataOffset frame - TCP_HDR_LEN + textLength frame) := by
  have offset := formed.offset
  unfold tcpOptions tcpText TCP_HDR_LEN
  rw [List.take_add, List.drop_drop]
  congr 3
  omega

theorem tcpInFrame_dlen (frame : List UInt8) : (tcpInFrame (rxBuffer frame)).dlen =
    UInt32.ofInt ((ipHdr frame).len.toNat - (ipHdr frame).ihl * 4 - tcpHl frame ipData * 4) := by
  unfold tcpInFrame ipLen
  dsimp only
  rw [ipHdr_rxBuffer, tcpHl_rxBuffer]

theorem ofInt_toNat {x : Int} (positive : 0 ≤ x) (small : x < 2 ^ 32) :
    (UInt32.ofInt x).toNat = x.toNat := by
  unfold UInt32.ofInt
  rw [UInt32.toNat_ofNat']
  omega

/- Without IP options the text is looked for right after the fixed TCP header, and its length is right. -/
theorem tcpInFrame_plain (formed : WellFormed frame) (plain : (ipHdr frame).ihl = 5) :
    (tcpInFrame (rxBuffer frame)).dlen.toNat = textLength frame ∧
      (tcpInFrame (rxBuffer frame)).text (rxBuffer frame) =
        (tcpOptions frame ++ tcpText frame).take (tcpText frame).length := by
  have offset := formed.offset
  have inside := formed.inside
  have fits := formed.fits
  have words := (ipHdr frame).len.toNat_lt
  have start : tcpStart frame = ipData := by
    unfold tcpStart ipData IP_HDR_LEN
    omega
  have length : (tcpInFrame (rxBuffer frame)).dlen.toNat = textLength frame := by
    have here : tcpHl frame ipData = dataOffset frame := by rw [dataOffset, start]
    rw [tcpInFrame_dlen, here, ofInt_toNat (by omega) (by omega)]
    unfold textLength
    omega
  refine ⟨length, ?_⟩
  unfold TcpSkb.text
  rw [length, options_text formed, tcpText_length formed, List.take_take, start]
  rw [Nat.min_eq_left (by omega)]
  refine rxBuffer_slice ?_
  show ipData + TCP_HDR_LEN + textLength frame ≤ frame.length
  unfold ETH_HDR_LEN at fits
  unfold ipData TCP_HDR_LEN textLength ETH_HDR_LEN IP_HDR_LEN
  omega

/-- A TCP packet is decoded right exactly when it has no IP options and what follows the fixed TCP header
    begins with its text, as it does without TCP options or without text. -/
theorem tcp_decoding {seg : TcpSkb} (formed : WellFormed frame) (accepted : netdevRx frame = .tcp seg) :
    Decodes frame seg ↔
      (ipHdr frame).ihl = 5 ∧ tcpText frame <+: tcpOptions frame ++ tcpText frame := by
  obtain rfl : tcpInFrame (rxBuffer frame) = seg := by
    rcases (netdevRx_dispatched accepted trivial).2 with ⟨-, icmp⟩ | ⟨-, tcp⟩
    · contradiction
    · exact (Handled.tcp.inj tcp).symm
  rw [List.prefix_iff_eq_take]
  constructor
  · rintro ⟨header, -, text⟩
    have plain : (ipHdr frame).ihl = 5 := by
      have position : ipData = tcpStart frame := header
      unfold ipData tcpStart IP_HDR_LEN at position
      omega
    exact ⟨plain, text.symm.trans (tcpInFrame_plain formed plain).2⟩
  · rintro ⟨plain, repeats⟩
    obtain ⟨length, text⟩ := tcpInFrame_plain formed plain
    refine ⟨?_, length, text.trans repeats.symm⟩
    show ipData = tcpStart frame
    unfold ipData tcpStart IP_HDR_LEN
    omega

/- An Ethernet frame with an IP packet between two addresses, without IP options. -/
def ipFrame (proto : UInt8) (len : UInt16) (body : List UInt8) : List UInt8 :=
  let header := ipHeader proto len (parseIpv4 10 0 0 5) (parseIpv4 10 0 0 4)
  List.replicate 12 0 ++ be16 ETH_P_IP ++ header (checksum (header 0) 0) ++ body

/- Three bytes of text after the timestamps option, and the same without it. -/
def timestamped : List UInt8 :=
  ipFrame IP_TCP 55 (tcpBytes { peerHdr 5001 1001 with
    hl := 8, data := [1, 1, 8, 10, 0, 0, 0, 7, 0, 0, 0, 9] } 0 [65, 66, 67])

def plainText : List UInt8 := ipFrame IP_TCP 43 (tcpBytes (peerHdr 5001 1001) 0 [65, 66, 67])

theorem tcp_decoding_plain : ∃ seg, netdevRx plainText = .tcp seg ∧ Decodes plainText seg := by
  have accepted : netdevRx plainText = .tcp (tcpInFrame (rxBuffer plainText)) := by decide +kernel
  exact ⟨_, accepted, (tcp_decoding (by decide +kernel) accepted).mpr (by decide +kernel)⟩

/- Two words of NOP options in the IP header. -/
def ipOptioned : List UInt8 :=
  let header := fun csum => [0x47, 0] ++ be16 51 ++ be16 0 ++ be16 0 ++ [64, IP_TCP] ++ le16 csum ++
    be32 (parseIpv4 10 0 0 5) ++ be32 (parseIpv4 10 0 0 4) ++ List.replicate 8 1
  List.replicate 12 0 ++ be16 ETH_P_IP ++ header (checksum (header 0) 0) ++
    tcpBytes (peerHdr 5001 1001) 0 [65, 66, 67]

/- A well-formed frame whose segment is not the one the handler takes from it. -/
def Misread (frame : List UInt8) : Prop :=
  WellFormed frame ∧ ∃ seg, netdevRx frame = .tcp seg ∧ ¬Decodes frame seg

theorem options_misread : Misread timestamped ∧ Misread ipOptioned := by
  have taken : ∀ frame ∈ [timestamped, ipOptioned],
      WellFormed frame ∧ netdevRx frame = .tcp (tcpInFrame (rxBuffer frame)) ∧
        ¬Decodes frame (tcpInFrame (rxBuffer frame)) := by decide +kernel
  have misread : ∀ frame ∈ [timestamped, ipOptioned], Misread frame := by
    intro frame member
    obtain ⟨formed, accepted, wrong⟩ := taken frame member
    exact ⟨formed, _, accepted, wrong⟩
  exact ⟨misread _ (by simp), misread _ (by simp)⟩

/-! ### Length fields -/

/-- The header fits the packet, the packet the frame, and the header and the text of the handler lie inside
    the packet and the frame, with lengths that have not wrapped. -/
def Contained (frame : List UInt8) : Handled → Prop
  | .tcp seg =>
    4 * (ipHdr frame).ihl ≤ (ipHdr frame).len.toNat ∧
    ETH_HDR_LEN + (ipHdr frame).len.toNat ≤ frame.length ∧
    TCP_HDR_LEN ≤ 4 * tcpHl frame seg.th ∧
    4 * tcpHl frame seg.th ≤ (ipHdr frame).len.toNat - 4 * (ipHdr frame).ihl ∧
    (seg.dlen.toNat : Int) = (ipHdr frame).len.toNat - 4 * (ipHdr frame).ihl - 4 * tcpHl frame seg.th ∧
    seg.payload + seg.dlen.toNat ≤ frame.length
  | .icmp reply =>
    4 * (ipHdr frame).ihl ≤ (ipHdr frame).len.toNat ∧
    ETH_HDR_LEN + (ipHdr frame).len.toNat ≤ frame.length ∧
    ∀ r ∈ reply, (r.icmpLen.toNat : Int) = (ipHdr frame).len.toNat - 4 * (ipHdr frame).ihl ∧
      r.icmp + r.icmpLen.toNat ≤ frame.length
  | _ => True

instance (frame : List UInt8) (h : Handled) : Decidable (Contained frame h) := by
  cases h <;> unfold Contained <;> infer_instance

/-- The lengths that the sender has put into the frame agree with each other and with its size. -/
def Consistent (frame : List UInt8) : Prop :=
  ETH_HDR_LEN + (ipHdr frame).len.toNat ≤ frame.length ∧
  if (ipHdr frame).proto = IP_TCP then
    5 ≤ tcpHl frame ipData ∧
      4 * ((ipHdr frame).ihl + tcpHl frame ipData) ≤ (ipHdr frame).len.toNat
  else 4 * (ipHdr frame).ihl ≤ (ipHdr frame).len.toNat

instance (frame : List UInt8) : Decidable (Consistent frame) := inferInstanceAs (Decidable (_ ∧ _))

theorem ofInt_toNat16 {x : Int} (positive : 0 ≤ x) (small : x < 2 ^ 16) :
    (UInt16.ofInt x).toNat = x.toNat := by
  unfold UInt16.ofInt
  rw [UInt16.toNat_ofNat']
  omega

/-- What TCP and ICMP take from a frame lies inside it exactly when the length fields of the frame are
    consistent: nothing on the way checks them. -/
theorem contained_iff_consistent {h : Handled} (taken : netdevRx frame = h)
    (dispatched : h.Dispatched) : Contained frame h ↔ Consistent frame := by
  obtain ⟨long, ⟨proto, rfl⟩ | ⟨proto, rfl⟩⟩ := netdevRx_dispatched taken dispatched
  · unfold Contained Consistent
    rw [proto, if_neg (by decide)]
    constructor
    · exact fun ⟨header, packet, _⟩ => ⟨packet, header⟩
    · rintro ⟨packet, header⟩
      refine ⟨header, packet, ?_⟩
      intro r member
      have words := (ipHdr frame).len.toNat_lt
      have reply : r = icmpv4Reply (rxBuffer frame) := by
        unfold icmpv4Incoming at member
        split at member
        · exact (Option.mem_some.mp member).symm
        · cases member
      have length : r.icmpLen.toNat = (ipHdr frame).len.toNat - 4 * (ipHdr frame).ihl := by
        rw [reply]
        unfold icmpv4Reply ipLen
        dsimp only
        rw [ipHdr_rxBuffer, ofInt_toNat16 (by omega) (by omega)]
        omega
      have position : r.icmp = ipData := by
        rw [reply]
        exact Nat.add_sub_cancel _ _
      rw [length, position]
      unfold ETH_HDR_LEN at packet
      unfold ipData ETH_HDR_LEN IP_HDR_LEN
      omega
  · have words := (ipHdr frame).len.toNat_lt
    have position : (tcpInFrame (rxBuffer frame)).th = ipData := rfl
    have payload : (tcpInFrame (rxBuffer frame)).payload = 54 := rfl
    unfold Contained Consistent
    dsimp only
    rw [proto, if_pos rfl, position, payload]
    unfold ETH_HDR_LEN TCP_HDR_LEN
    constructor
    · rintro ⟨header, packet, least, inside, -, -⟩
      omega
    · rintro ⟨packet, offset, inside⟩
      have length : (tcpInFrame (rxBuffer frame)).dlen.toNat =
          (ipHdr frame).len.toNat - 4 * (ipHdr frame).ihl - 4 * tcpHl frame ipData := by
        rw [tcpInFrame_dlen, ofInt_toNat (by omega) (by omega)]
        omega
      rw [length]
      omega

theorem contained_plain : Contained plainText (netdevRx plainText) :=
  (contained_iff_consistent rfl (by decide +kernel)).mpr (by decide +kernel)

/- A frame that a handler takes with a length that does not hold. -/
def Trusted (frame : List UInt8) : Prop :=
  (netdevRx frame).Dispatched ∧ ¬Contained frame (netdevRx frame)

instance (frame : List UInt8) : Decidable (Trusted frame) := inferInstanceAs (Decidable (_ ∧ _))

/- A total length of 20 with a TCP segment, one of 1000 in a frame of 54 bytes, and one of 19 with an echo
   request: the lengths are 4294967276, 960 and 65535. -/
theorem lengths_trusted : Trusted (ipFrame IP_TCP 20 (tcpBytes (peerHdr 5001 1001) 0 [])) ∧
    Trusted (ipFrame IP_TCP 1000 (tcpBytes (peerHdr 5001 1001) 0 [])) ∧
    Trusted (ipFrame ICMPV4 19 [8, 0, 0, 0]) := by
  decide +kernel

end HfIp
