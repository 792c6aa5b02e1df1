import HfIp.IpOutput

/- The way of a frame up to TCP and ICMP (src/netdev.c, src/ip_input.c, src/icmpv4.c and the first half
   of src/tcp.c): where the handlers look in the buffer, and the lengths they compute. A position is
   counted from `skb->head`. -/
namespace HfIp

def BUFLEN : Nat := 1600
def ETH_HDR_LEN : Nat := 14
def TCP_HDR_LEN : Nat := 20
def ETH_P_IP : UInt16 := 0x0800
def ETH_P_ARP : UInt16 := 0x0806
def ICMP_V4_ECHO : UInt8 := 8

/- The buffer that `tun_read` has filled: `alloc_skb` clears it, and the number of bytes read is not
   kept. -/
def rxBuffer (frame : List UInt8) : List UInt8 :=
  frame ++ List.replicate (BUFLEN - frame.length) 0

def byteAt (skb : List UInt8) (i : Nat) : UInt8 := skb.getD i 0

/- A field of two bytes, after `ntohs`. -/
def wordAt (skb : List UInt8) (i : Nat) : UInt16 :=
  (byteAt skb i).toUInt16 <<< 8 ||| (byteAt skb (i + 1)).toUInt16

structure IpHdr where
  ihl : Nat
  version : Nat
  len : UInt16
  ttl : UInt8
  proto : UInt8
  deriving DecidableEq, Repr

/- `ip_hdr`, after `ip_init_pkt`. -/
def ipHdr (skb : List UInt8) : IpHdr :=
  { ihl := (byteAt skb ETH_HDR_LEN).toNat % 16
    version := (byteAt skb ETH_HDR_LEN).toNat / 16
    len := wordAt skb (ETH_HDR_LEN + 2)
    ttl := byteAt skb (ETH_HDR_LEN + 8)
    proto := byteAt skb (ETH_HDR_LEN + 9) }

/- `iph->data`. -/
def ipData : Nat := ETH_HDR_LEN + IP_HDR_LEN

/- `ip_len`. -/
def ipLen (ih : IpHdr) : Int := ih.len.toNat - ih.ihl * 4

/- The data offset of the TCP header at position `th`, in words. -/
def tcpHl (skb : List UInt8) (th : Nat) : Nat := (byteAt skb (th + 12)).toNat / 16

/- What `tcp_init_segment` sets: the position of the header, `skb->dlen` and `skb->payload`. -/
structure TcpSkb where
  th : Nat
  dlen : UInt32
  payload : Nat
  deriving DecidableEq, Repr

/- `tcp_in`, up to `inet_lookup`. -/
def tcpInFrame (skb : List UInt8) : TcpSkb :=
  let th := ipData
  { th := th
    dlen := UInt32.ofInt (ipLen (ipHdr skb) - tcpHl skb th * 4)
    payload := th + TCP_HDR_LEN }

/- The part of the buffer that `icmpv4_reply` answers with. -/
structure IcmpSkb where
  icmp : Nat
  icmpLen : UInt16
  deriving DecidableEq, Repr

def icmpv4Reply (skb : List UInt8) : IcmpSkb :=
  let icmpLen := UInt16.ofInt (ipLen (ipHdr skb))
  { icmp := ETH_HDR_LEN + IP_HDR_LEN + icmpLen.toNat - icmpLen.toNat, icmpLen := icmpLen }

def icmpv4Incoming (skb : List UInt8) : Option IcmpSkb :=
  if byteAt skb ipData = ICMP_V4_ECHO then some (icmpv4Reply skb) else none

/- Where a frame goes. -/
inductive Handled where
  | dropped
  | arp
  | icmp (reply : Option IcmpSkb)
  | tcp (seg : TcpSkb)
  deriving DecidableEq, Repr

def ipRcv (skb : List UInt8) : Handled :=
  let ih := ipHdr skb
  if ih.version ≠ IPV4.toNat then .dropped
  else if ih.ihl < 5 then .dropped
  else if ih.ttl = 0 then .dropped
  else if checksum ((skb.drop ETH_HDR_LEN).take (ih.ihl * 4)) 0 ≠ 0 then .dropped
  else if ih.proto = ICMPV4 then .icmp (icmpv4Incoming skb)
  else if ih.proto = IP_TCP then .tcp (tcpInFrame skb)
  else .dropped

def netdevReceive (skb : List UInt8) : Handled :=
  if wordAt skb 12 = ETH_P_ARP then .arp
  else if wordAt skb 12 = ETH_P_IP then ipRcv skb
  else .dropped

/- One turn of `netdev_rx_loop`. -/
def netdevRx (frame : List UInt8) : Handled := netdevReceive (rxBuffer frame)

end HfIp
