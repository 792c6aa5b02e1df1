import HfIp.SkBytes
import HfIp.Lib.Learning

/- Address resolution (src/arp.c), with the Ethernet header of src/netdev.c. -/
namespace HfIp

open Buffer

def ARP_ETHERNET : UInt16 := 0x0001
def ARP_IPV4 : UInt16 := 0x0800
def ARP_REQUEST : UInt16 := 0x0001
def ARP_REPLY : UInt16 := 0x0002
def ARP_RESOLVED : UInt32 := 2
def ARP_HDR_LEN : Nat := 8
def ARP_DATA_LEN : Nat := 20

/- A device with its hardware address; `addr_len` is 6. -/
structure EthDev extends Netdev where
  hwaddr : HwAddr
  deriving DecidableEq, Repr

def broadcastHw : HwAddr := #v[0xff, 0xff, 0xff, 0xff, 0xff, 0xff]

structure ArpHdr where
  hwtype : UInt16
  protype : UInt16
  hwsize : UInt8
  prosize : UInt8
  opcode : UInt16
  deriving DecidableEq, Repr

structure ArpIpv4 where
  smac : HwAddr
  sip : UInt32
  dmac : HwAddr
  dip : UInt32
  deriving DecidableEq, Repr

structure ArpCacheEntry where
  hwtype : UInt16
  sip : UInt32
  smac : HwAddr
  state : UInt32
  deriving DecidableEq, Repr

/-! ### The buffer -/

/- Where `arp_hdr` and `arphdr->data` are. -/
def arpHdr : Nat := ETH_HDR_LEN

def arpData : Nat := arpHdr + ARP_HDR_LEN

/- Both structures in a frame, in the byte order of the network. -/
def arpHdrOf (m : List UInt8) : ArpHdr :=
  { hwtype := wordAt m arpHdr
    protype := wordAt m (arpHdr + 2)
    hwsize := byteAt m (arpHdr + 4)
    prosize := byteAt m (arpHdr + 5)
    opcode := wordAt m (arpHdr + 6) }

def arpDataOf (m : List UInt8) : ArpIpv4 :=
  { smac := hwAddrAt m arpData
    sip := dwordAt m (arpData + 6)
    dmac := hwAddrAt m (arpData + 10)
    dip := dwordAt m (arpData + 16) }

/- And as the host reads them. -/
def hostArpHdr (m : List UInt8) : ArpHdr :=
  { hwtype := hostWordAt m arpHdr
    protype := hostWordAt m (arpHdr + 2)
    hwsize := byteAt m (arpHdr + 4)
    prosize := byteAt m (arpHdr + 5)
    opcode := hostWordAt m (arpHdr + 6) }

def hostArpData (m : List UInt8) : ArpIpv4 :=
  { smac := hwAddrAt m arpData
    sip := hostDwordAt m (arpData + 6)
    dmac := hwAddrAt m (arpData + 10)
    dip := hostDwordAt m (arpData + 16) }

/- The frame that is written to the device. -/
def netdevTransmit (dev : EthDev) (skb : SkBytes) (dstHw : HwAddr) (ethertype : UInt16) :
    List UInt8 :=
  let skb := skb.push ETH_HDR_LEN
  let m := putHwAddr skb.head skb.data dstHw
  let m := putHwAddr m (skb.data + 6) dev.hwaddr
  let m := htonsAt (putWord m (skb.data + 12) ethertype) (skb.data + 12)
  { skb with head := m }.bytes

/-! ### The protocol -/

def arpEntryAlloc (hdr : ArpHdr) (data : ArpIpv4) : ArpCacheEntry :=
  { hwtype := hdr.hwtype, sip := data.sip, smac := data.smac, state := ARP_RESOLVED }

def insertArpTranslationTable (cache : List ArpCacheEntry) (hdr : ArpHdr) (data : ArpIpv4) :
    List ArpCacheEntry := cache ++ [arpEntryAlloc hdr data]

/- The table and whether an entry of it has been updated. -/
def updateArpTranslationTable (hdr : ArpHdr) (data : ArpIpv4) :
    List ArpCacheEntry → List ArpCacheEntry × Bool
  | [] => ([], false)
  | entry :: rest =>
    if entry.hwtype = hdr.hwtype ∧ entry.sip = data.sip then
      ({ entry with smac := data.smac } :: rest, true)
    else
      let r := updateArpTranslationTable hdr data rest
      (entry :: r.1, r.2)

def netdevGet (dev : EthDev) (sip : UInt32) : Option EthDev :=
  if dev.addr = sip then some dev else none

/- The request is overwritten with the answer. -/
def arpReply (dev : EthDev) (skb : SkBytes) : List UInt8 :=
  let skb := (skb.reserve (ETH_HDR_LEN + ARP_HDR_LEN + ARP_DATA_LEN)).push (ARP_HDR_LEN + ARP_DATA_LEN)
  let m := putHwAddr skb.head (arpData + 10) (hwAddrAt skb.head arpData)
  let m := putDword m (arpData + 16) (hostDwordAt m (arpData + 6))
  let m := putHwAddr m arpData dev.hwaddr
  let m := putDword m (arpData + 6) dev.addr
  let m := putWord m (arpHdr + 6) ARP_REPLY
  let m := htonsAt m (arpHdr + 6)
  let m := htonsAt m arpHdr
  let m := htonsAt m (arpHdr + 2)
  let m := htonlAt m (arpData + 6)
  let m := htonlAt m (arpData + 16)
  netdevTransmit dev { skb with head := m } (hwAddrAt m (arpData + 10)) ETH_P_ARP

/- The cache and the frame sent in answer. -/
def arpRcv (dev : EthDev) (cache : List ArpCacheEntry) (skb : SkBytes) :
    List ArpCacheEntry × Option (List UInt8) :=
  let m := ntohsAt (ntohsAt (ntohsAt skb.head arpHdr) (arpHdr + 2)) (arpHdr + 6)
  if (hostArpHdr m).hwtype ≠ ARP_ETHERNET then (cache, none)
  else if (hostArpHdr m).protype ≠ ARP_IPV4 then (cache, none)
  else
    let m := ntohlAt (ntohlAt m (arpData + 6)) (arpData + 16)
    let arphdr := hostArpHdr m
    let arpdata := hostArpData m
    let merge := updateArpTranslationTable arphdr arpdata cache
    match netdevGet dev arpdata.dip with
    | none => (merge.1, none)
    | some netdev =>
      let cache := if merge.2 then merge.1 else insertArpTranslationTable merge.1 arphdr arpdata
      if arphdr.opcode = ARP_REQUEST then (cache, some (arpReply netdev { skb with head := m }))
      else (cache, none)

def arpAllocSkb : SkBytes :=
  (SkBytes.alloc (ETH_HDR_LEN + ARP_HDR_LEN + ARP_DATA_LEN)).reserve
    (ETH_HDR_LEN + ARP_HDR_LEN + ARP_DATA_LEN)

def arpRequest (sip dip : UInt32) (dev : EthDev) : List UInt8 :=
  let skb := arpAllocSkb.push ARP_DATA_LEN
  let payload := skb.data
  let m := putHwAddr skb.head payload dev.hwaddr
  let m := putDword m (payload + 6) sip
  let m := putHwAddr m (payload + 10) broadcastHw
  let m := putDword m (payload + 16) dip
  let skb := skb.push ARP_HDR_LEN
  let arp := skb.data
  let m := htonsAt (putWord m (arp + 6) ARP_REQUEST) (arp + 6)
  let m := htonsAt (putWord m arp ARP_ETHERNET) arp
  let m := htonsAt (putWord m (arp + 2) ETH_P_IP) (arp + 2)
  let m := putByte (putByte m (arp + 4) 6) (arp + 5) 4
  let m := htonlAt (htonlAt m (payload + 6)) (payload + 16)
  netdevTransmit dev { skb with head := m } broadcastHw ETH_P_ARP

def arpGetHwaddr (cache : List ArpCacheEntry) (sip : UInt32) : Option HwAddr :=
  (cache.find? fun entry => entry.state = ARP_RESOLVED ∧ entry.sip = sip).map (·.smac)

/-! ### What the buffer holds -/

/-- A buffer that holds both structures, in the byte order of `word` and `dword`. -/
structure ArpFields (word : UInt16 → List UInt8) (dword : UInt32 → List UInt8) (m : List UInt8)
    (h : ArpHdr) (d : ArpIpv4) : Prop where
  long : arpData + ARP_DATA_LEN ≤ m.length
  hwtype : field m arpHdr 2 = word h.hwtype
  protype : field m (arpHdr + 2) 2 = word h.protype
  hwsize : field m (arpHdr + 4) 1 = [h.hwsize]
  prosize : field m (arpHdr + 5) 1 = [h.prosize]
  opcode : field m (arpHdr + 6) 2 = word h.opcode
  smac : field m arpData 6 = hwAddrBytes d.smac
  sip : field m (arpData + 6) 4 = dword d.sip
  dmac : field m (arpData + 10) 6 = hwAddrBytes d.dmac
  dip : field m (arpData + 16) 4 = dword d.dip

variable {m : List UInt8} {h : ArpHdr} {d : ArpIpv4}

theorem arpFields_wire (long : arpData + ARP_DATA_LEN ≤ m.length) :
    ArpFields be16 be32 m (arpHdrOf m) (arpDataOf m) := by
  have room : 42 ≤ m.length := long
  refine ⟨long, ?_, ?_, ?_, ?_, ?_, ?_, ?_, ?_, ?_⟩
  · exact field_word (show 14 + 2 ≤ _ by omega)
  · exact field_word (show 16 + 2 ≤ _ by omega)
  · exact field_succ 0 (show 18 < _ by omega)
  · exact field_succ 0 (show 19 < _ by omega)
  · exact field_word (show 20 + 2 ≤ _ by omega)
  · exact field_hwAddr (show 22 + 6 ≤ _ by omega)
  · exact field_dword (show 28 + 4 ≤ _ by omega)
  · exact field_hwAddr (show 32 + 6 ≤ _ by omega)
  · exact field_dword (show 38 + 4 ≤ _ by omega)

theorem ArpFields.sizes {word dword} (holds : ArpFields word dword m h d) :
    byteAt m (arpHdr + 4) = h.hwsize ∧ byteAt m (arpHdr + 5) = h.prosize :=
  ⟨byteAt_of_field (k := 0) holds.hwsize (by omega), byteAt_of_field (k := 0) holds.prosize (by omega)⟩

theorem ArpFields.hostHdr (holds : ArpFields le16 le32 m h d) : hostArpHdr m = h := by
  rw [hostArpHdr, hostWordAt_of_field holds.hwtype, hostWordAt_of_field holds.protype,
    hostWordAt_of_field holds.opcode, holds.sizes.1, holds.sizes.2]

theorem ArpFields.hostData (holds : ArpFields le16 le32 m h d) : hostArpData m = d := by
  rw [hostArpData, hostDwordAt_of_field holds.sip, hostDwordAt_of_field holds.dip,
    hwAddrAt_of_field holds.smac, hwAddrAt_of_field holds.dmac]

theorem ArpFields.hdr (holds : ArpFields be16 be32 m h d) : arpHdrOf m = h := by
  rw [arpHdrOf, wordAt_of_field holds.hwtype, wordAt_of_field holds.protype,
    wordAt_of_field holds.opcode, holds.sizes.1, holds.sizes.2]

theorem ArpFields.data (holds : ArpFields be16 be32 m h d) : arpDataOf m = d := by
  rw [arpDataOf, dwordAt_of_field holds.sip, dwordAt_of_field holds.dip,
    hwAddrAt_of_field holds.smac, hwAddrAt_of_field holds.dmac]

/- What `arp_rcv` does before it looks. -/
theorem ArpFields.ntoh (holds : ArpFields be16 be32 m h d) : ArpFields le16 le32
    (ntohlAt (ntohlAt (ntohsAt (ntohsAt (ntohsAt m arpHdr) (arpHdr + 2)) (arpHdr + 6))
      (arpData + 6)) (arpData + 16)) h d := by
  have room : 42 ≤ m.length := holds.long
  obtain ⟨-, hwtype, protype, hwsize, prosize, opcode, smac, sip, dmac, dip⟩ := holds
  simp only [arpHdr, arpData, ETH_HDR_LEN, ARP_HDR_LEN, Nat.reduceAdd] at *
  constructor <;>
    simp (disch := first | omega | (simp only [length_ntohsAt, length_ntohlAt]; omega)) only
      [arpHdr, arpData, ARP_DATA_LEN, ETH_HDR_LEN, ARP_HDR_LEN, Nat.reduceAdd, length_ntohsAt,
        length_ntohlAt, field_ntohsAt, field_ntohlAt, ntohsAt_here, ntohlAt_here, hwtype, protype,
        hwsize, prosize, opcode, smac, sip, dmac, dip, be16_reverse, be32_reverse, room]

/- And `arp_reply`, before it sends. -/
theorem ArpFields.hton (holds : ArpFields le16 le32 m h d) : ArpFields be16 be32
    (htonlAt (htonlAt (htonsAt (htonsAt (htonsAt m (arpHdr + 6)) arpHdr) (arpHdr + 2))
      (arpData + 6)) (arpData + 16)) h d := by
  have room : 42 ≤ m.length := holds.long
  obtain ⟨-, hwtype, protype, hwsize, prosize, opcode, smac, sip, dmac, dip⟩ := holds
  simp only [arpHdr, arpData, ETH_HDR_LEN, ARP_HDR_LEN, Nat.reduceAdd] at *
  constructor <;>
    simp (disch := first | omega | (simp only [length_htonsAt, length_htonlAt]; omega)) only
      [arpHdr, arpData, ARP_DATA_LEN, ETH_HDR_LEN, ARP_HDR_LEN, Nat.reduceAdd, length_htonsAt,
        length_htonlAt, field_htonsAt, field_htonlAt, htonsAt_here, htonlAt_here, hwtype, protype,
        hwsize, prosize, opcode, smac, sip, dmac, dip, le16_reverse, le32_reverse, room]

/- The answer that `arp_reply` writes over the request. -/
def replyHdr (h : ArpHdr) : ArpHdr := { h with opcode := ARP_REPLY }

def replyData (dev : EthDev) (d : ArpIpv4) : ArpIpv4 :=
  { smac := dev.hwaddr, sip := dev.addr, dmac := d.smac, dip := d.sip }

theorem ArpFields.reply (dev : EthDev) (holds : ArpFields le16 le32 m h d) :
    ArpFields le16 le32
      (putWord (putDword (putHwAddr (putDword (putHwAddr m (arpData + 10) d.smac) (arpData + 16) d.sip)
        arpData dev.hwaddr) (arpData + 6) dev.addr) (arpHdr + 6) ARP_REPLY)
      (replyHdr h) (replyData dev d) := by
  have room : 42 ≤ m.length := holds.long
  obtain ⟨-, hwtype, protype, hwsize, prosize, opcode, smac, sip, dmac, dip⟩ := holds
  simp only [arpHdr, arpData, ETH_HDR_LEN, ARP_HDR_LEN, Nat.reduceAdd] at *
  constructor <;>
    simp (disch := first
        | omega
        | (simp only [length_putWord, length_putDword, length_putHwAddr]; omega)) only
      [arpHdr, arpData, ARP_DATA_LEN, ETH_HDR_LEN, ARP_HDR_LEN, Nat.reduceAdd, length_putWord,
        length_putDword, length_putHwAddr, field_putWord, field_putDword, field_putHwAddr,
        putWord_here, putDword_here, putHwAddr_here, hwtype, protype, hwsize, prosize, replyHdr, replyData, room]

/-- A frame on the wire that bears both structures. -/
structure EthArp (dst src : HwAddr) (h : ArpHdr) (d : ArpIpv4) (frame : List UInt8) : Prop where
  long : frame.length = ETH_HDR_LEN + ARP_HDR_LEN + ARP_DATA_LEN
  dmac : field frame 0 6 = hwAddrBytes dst
  smac : field frame 6 6 = hwAddrBytes src
  ethertype : field frame 12 2 = be16 ETH_P_ARP
  fields : ArpFields be16 be32 frame h d

/- Fields behind the Ethernet header are not touched. -/
theorem netdevTransmit_arp (dev : EthDev) (dstHw : HwAddr) (holds : ArpFields be16 be32 m h d) :
    EthArp dstHw dev.hwaddr h d
      (netdevTransmit dev ⟨m, ETH_HDR_LEN, ARP_HDR_LEN + ARP_DATA_LEN⟩ dstHw ETH_P_ARP) := by
  have room : 42 ≤ m.length := holds.long
  have cut : netdevTransmit dev ⟨m, ETH_HDR_LEN, ARP_HDR_LEN + ARP_DATA_LEN⟩ dstHw ETH_P_ARP =
      field (htonsAt (putWord (putHwAddr (putHwAddr m 0 dstHw) 6 dev.hwaddr) 12 ETH_P_ARP) 12) 0 42 :=
    rfl
  have long := length_field (i := 0) (n := 42)
    (m := htonsAt (putWord (putHwAddr (putHwAddr m 0 dstHw) 6 dev.hwaddr) 12 ETH_P_ARP) 12)
    (by simp only [length_htonsAt, length_putWord, length_putHwAddr]; omega)
  obtain ⟨-, hwtype, protype, hwsize, prosize, opcode, smac, sip, dmac, dip⟩ := holds
  simp only [arpHdr, arpData, ETH_HDR_LEN, ARP_HDR_LEN, Nat.reduceAdd] at hwtype protype hwsize prosize opcode smac sip dmac dip
  rw [cut]
  refine ⟨long, ?_, ?_, ?_, ⟨?_, ?_, ?_, ?_, ?_, ?_, ?_, ?_, ?_, ?_⟩⟩ <;>
    simp (disch := first
        | omega
        | (simp only [length_putWord, length_putHwAddr]; omega)) only
      [arpHdr, arpData, ARP_DATA_LEN, ETH_HDR_LEN, ARP_HDR_LEN, Nat.reduceAdd, Nat.zero_add, field_field,
        field_putWord, field_putHwAddr, field_htonsAt, htonsAt_here, le16_reverse,
        putWord_here, putHwAddr_here, hwtype, protype, hwsize, prosize, opcode, smac, sip, dmac, dip, long, Nat.le_refl]

/-- The answer goes to the sender of the request, with the device's address in place of it. -/
theorem arpReply_sends (dev : EthDev) (holds : ArpFields le16 le32 m h d) :
    EthArp d.smac dev.hwaddr (replyHdr h) (replyData dev d) (arpReply dev ⟨m, 0, 0⟩) := by
  have kept : field (putHwAddr m (arpData + 10) d.smac) (arpData + 6) 4 = field m (arpData + 6) 4 :=
    field_putHwAddr _ _ (.inl (show 28 + 4 ≤ 32 by omega))
  have sip : hostDwordAt (putHwAddr m (arpData + 10) d.smac) (arpData + 6) = d.sip :=
    hostDwordAt_of_field (kept.trans holds.sip)
  have wire := (holds.reply dev).hton
  have dmac : hwAddrAt _ (arpData + 10) = d.smac := hwAddrAt_of_field wire.dmac
  have sent := netdevTransmit_arp dev d.smac wire
  unfold arpReply
  simp only [SkBytes.reserve, SkBytes.push]
  rw [hwAddrAt_of_field holds.smac, sip, dmac]
  exact sent

/- The request that `arp_request` builds. -/
def requestHdr : ArpHdr :=
  { hwtype := ARP_ETHERNET, protype := ETH_P_IP, hwsize := 6, prosize := 4, opcode := ARP_REQUEST }

def requestData (dev : EthDev) (sip dip : UInt32) : ArpIpv4 :=
  { smac := dev.hwaddr, sip := sip, dmac := broadcastHw, dip := dip }

theorem arpRequest_sends (sip dip : UInt32) (dev : EthDev) :
    EthArp broadcastHw dev.hwaddr requestHdr (requestData dev sip dip) (arpRequest sip dip dev) := by
  have room : (List.replicate 42 (0 : UInt8)).length = 42 := List.length_replicate
  unfold arpRequest
  refine netdevTransmit_arp dev broadcastHw ?_
  simp only [arpAllocSkb, SkBytes.alloc, SkBytes.reserve, SkBytes.push, ETH_HDR_LEN, ARP_HDR_LEN, ARP_DATA_LEN, Nat.reduceAdd, Nat.reduceSub]
  generalize List.replicate 42 (0 : UInt8) = z at *
  constructor <;>
    simp (disch := first
        | omega
        | (simp only [length_putByte, length_putWord, length_putDword, length_putHwAddr,
            length_htonsAt, length_htonlAt]; omega)) only
      [arpHdr, arpData, ARP_DATA_LEN, ETH_HDR_LEN, ARP_HDR_LEN, Nat.reduceAdd, length_putByte,
        length_putWord, length_putDword, length_putHwAddr, length_htonsAt, length_htonlAt,
        field_putByte, field_putWord, field_putDword, field_putHwAddr, field_htonsAt, field_htonlAt,
        putByte_here, putWord_here, putDword_here, putHwAddr_here, htonsAt_here, htonlAt_here,
        le16_reverse, le32_reverse, room, requestHdr, requestData, Nat.le_refl]

/- The buffer after all swaps of `arp_rcv`. -/
def arpSwapped (m : List UInt8) : List UInt8 :=
  ntohlAt (ntohlAt (ntohsAt (ntohsAt (ntohsAt m arpHdr) (arpHdr + 2)) (arpHdr + 6)) (arpData + 6))
    (arpData + 16)

/- What `arp_rcv` does with the numbers it has read. -/
def arpMerge (dev : EthDev) (cache : List ArpCacheEntry) (m : List UInt8) (h : ArpHdr) (d : ArpIpv4) :
    List ArpCacheEntry × Option (List UInt8) :=
  if h.hwtype ≠ ARP_ETHERNET then (cache, none)
  else if h.protype ≠ ARP_IPV4 then (cache, none)
  else
    let merge := updateArpTranslationTable h d cache
    match netdevGet dev d.dip with
    | none => (merge.1, none)
    | some netdev =>
      let cache := if merge.2 then merge.1 else insertArpTranslationTable merge.1 h d
      if h.opcode = ARP_REQUEST then (cache, some (arpReply netdev ⟨m, 0, 0⟩)) else (cache, none)

theorem arpRcv_holds (dev : EthDev) (cache : List ArpCacheEntry) (holds : ArpFields be16 be32 m h d) :
    arpRcv dev cache ⟨m, 0, 0⟩ = arpMerge dev cache (arpSwapped m) h d := by
  have swapped : ArpFields le16 le32 (arpSwapped m) h d := holds.ntoh
  -- the first two tests come before the addresses are swapped
  have early : ∀ i, i + 2 ≤ arpData + 6 → field (arpSwapped m) i 2 =
      field (ntohsAt (ntohsAt (ntohsAt m arpHdr) (arpHdr + 2)) (arpHdr + 6)) i 2 := by
    intro i before
    have later : i + 2 ≤ arpData + 16 := Nat.le_trans before (by decide)
    rw [arpSwapped, field_ntohlAt _ (.inl later), field_ntohlAt _ (.inl before)]
  have hwtype := hostWordAt_of_field ((early arpHdr (by decide)).symm.trans swapped.hwtype)
  have protype := hostWordAt_of_field ((early (arpHdr + 2) (by decide)).symm.trans swapped.protype)
  have hdr := swapped.hostHdr
  have data := swapped.hostData
  unfold arpSwapped at hdr data
  unfold arpRcv arpMerge
  dsimp only
  rw [hdr, data]
  simp only [hostArpHdr, hwtype, protype]
  rfl

/-! ### The cache as a map -/

/-- What every cache keeps to: one entry for an address, for Ethernet and resolved. -/
structure CacheOk (cache : List ArpCacheEntry) : Prop where
  ethernet : ∀ e ∈ cache, e.hwtype = ARP_ETHERNET
  resolved : ∀ e ∈ cache, e.state = ARP_RESOLVED
  once : (cache.map (·.sip)).Nodup

variable {cache : List ArpCacheEntry} {hdr : ArpHdr} {data : ArpIpv4}

theorem CacheOk.nil : CacheOk [] := ⟨by simp, by simp, by simp⟩

theorem CacheOk.tail {e : ArpCacheEntry} (ok : CacheOk (e :: cache)) : CacheOk cache :=
  ⟨fun x member => ok.ethernet x (List.mem_cons_of_mem _ member),
    fun x member => ok.resolved x (List.mem_cons_of_mem _ member), (List.nodup_cons.mp ok.once).2⟩

/- In such a cache the state need not be looked at. -/
theorem arpGetHwaddr_cons {e : ArpCacheEntry} (resolved : e.state = ARP_RESOLVED) (a : UInt32) :
    arpGetHwaddr (e :: cache) a = if e.sip = a then some e.smac else arpGetHwaddr cache a := by
  unfold arpGetHwaddr
  by_cases here : e.sip = a
  · rw [List.find?_cons_of_pos (by simp [resolved, here]), if_pos here]
    rfl
  · rw [List.find?_cons_of_neg (by simp [here]), if_neg here]

theorem arpGetHwaddr_isSome (ok : CacheOk cache) (a : UInt32) :
    (arpGetHwaddr cache a).isSome = true ↔ a ∈ cache.map (·.sip) := by
  induction cache with
  | nil => simp [arpGetHwaddr]
  | cons e rest ih =>
    rw [arpGetHwaddr_cons (ok.resolved e List.mem_cons_self), List.map_cons, List.mem_cons]
    by_cases here : e.sip = a
    · simp [here]
    · rw [if_neg here, ih ok.tail]
      simp [Ne.symm here]

/- The update keeps the addresses and finds the one it is about. -/
theorem updateArpTranslationTable_spec (data : ArpIpv4) (ok : CacheOk cache)
    (ethernet : hdr.hwtype = ARP_ETHERNET) :
    let r := updateArpTranslationTable hdr data cache
    CacheOk r.1 ∧ r.1.map (·.sip) = cache.map (·.sip) ∧
      r.2 = (arpGetHwaddr cache data.sip).isSome ∧
      ∀ a, arpGetHwaddr r.1 a =
        if r.2 = true ∧ data.sip = a then some data.smac else arpGetHwaddr cache a := by
  induction cache with
  | nil => exact ⟨.nil, rfl, rfl, fun a => by simp [updateArpTranslationTable]⟩
  | cons e rest ih =>
    have own : e.hwtype = hdr.hwtype := (ok.ethernet e List.mem_cons_self).trans ethernet.symm
    have resolved := ok.resolved e List.mem_cons_self
    rw [arpGetHwaddr_cons resolved]
    unfold updateArpTranslationTable
    by_cases here : e.sip = data.sip
    · rw [if_pos ⟨own, here⟩, if_pos here]
      refine ⟨⟨?_, ?_, ?_⟩, rfl, rfl, fun a => ?_⟩
      · intro x member
        rcases List.mem_cons.mp member with rfl | later
        · exact ok.ethernet e List.mem_cons_self
        · exact ok.ethernet x (List.mem_cons_of_mem _ later)
      · intro x member
        rcases List.mem_cons.mp member with rfl | later
        · exact resolved
        · exact ok.resolved x (List.mem_cons_of_mem _ later)
      · exact ok.once
      · rw [arpGetHwaddr_cons (e := { e with smac := data.smac }) resolved,
          arpGetHwaddr_cons resolved, ← here]
        by_cases this : e.sip = a
        · simp [this]
        · simp [this]
    · obtain ⟨kept, keys, found, values⟩ := ih ok.tail
      rw [if_neg fun h => here h.2, if_neg here]
      refine ⟨⟨?_, ?_, ?_⟩, ?_, found, fun a => ?_⟩
      · intro x member
        rcases List.mem_cons.mp member with rfl | later
        · exact ok.ethernet x List.mem_cons_self
        · exact kept.ethernet x later
      · intro x member
        rcases List.mem_cons.mp member with rfl | later
        · exact resolved
        · exact kept.resolved x later
      · have once := ok.once
        simp only [List.map_cons] at once ⊢
        rw [keys]
        exact once
      · simp only [List.map_cons, keys]
      · dsimp only
        rw [arpGetHwaddr_cons resolved, arpGetHwaddr_cons resolved, values]
        by_cases this : e.sip = a
        · subst this
          rw [if_pos rfl, if_neg fun h => here h.2.symm, if_pos rfl]
        · rw [if_neg this, if_neg this]

theorem insertArpTranslationTable_ok (ok : CacheOk cache) (ethernet : hdr.hwtype = ARP_ETHERNET)
    (new : data.sip ∉ cache.map (·.sip)) : CacheOk (insertArpTranslationTable cache hdr data) := by
  unfold insertArpTranslationTable
  refine ⟨?_, ?_, ?_⟩
  · intro x member
    rcases List.mem_append.mp member with old | last
    · exact ok.ethernet x old
    · obtain rfl := List.mem_singleton.mp last
      exact ethernet
  · intro x member
    rcases List.mem_append.mp member with old | last
    · exact ok.resolved x old
    · obtain rfl := List.mem_singleton.mp last
      rfl
  · rw [List.map_append]
    refine List.nodup_append.mpr ⟨ok.once, by simp, ?_⟩
    rintro a member b last rfl
    obtain rfl := List.mem_singleton.mp last
    exact new member

theorem arpGetHwaddr_insert (ok : CacheOk cache) (new : data.sip ∉ cache.map (·.sip)) (a : UInt32) :
    arpGetHwaddr (insertArpTranslationTable cache hdr data) a =
      if data.sip = a then some data.smac else arpGetHwaddr cache a := by
  unfold insertArpTranslationTable
  induction cache with
  | nil =>
    rw [List.nil_append, arpGetHwaddr_cons rfl]
    rfl
  | cons e rest ih =>
    rw [List.map_cons, List.mem_cons, not_or] at new
    have resolved := ok.resolved e List.mem_cons_self
    rw [List.cons_append, arpGetHwaddr_cons resolved, arpGetHwaddr_cons resolved, ih ok.tail new.2]
    by_cases this : e.sip = a
    · rw [if_pos this, if_pos this, if_neg (fun same => new.1 (same.trans this.symm))]
    · rw [if_neg this, if_neg this]

theorem update_lookup (known : UInt32 → Option HwAddr) (data : ArpIpv4) (a : UInt32) :
    Function.update known data.sip (some data.smac) a =
      if data.sip = a then some data.smac else known a := by
  by_cases this : data.sip = a
  · rw [if_pos this, ← this, Function.update_self]
  · rw [if_neg this, Function.update_of_ne (Ne.symm this)]

/- Update first and insertion after it together learn the note. -/
theorem merged_learns (data : ArpIpv4) (ok : CacheOk cache) (ethernet : hdr.hwtype = ARP_ETHERNET)
    (invited : Prop) [Decidable invited] :
    let merge := updateArpTranslationTable hdr data cache
    let cache' :=
      if invited ∧ merge.2 = false then insertArpTranslationTable merge.1 hdr data
      else merge.1
    CacheOk cache' ∧ arpGetHwaddr cache' =
      Learning.learn (arpGetHwaddr cache) ⟨data.sip, data.smac, decide invited⟩ := by
  obtain ⟨kept, keys, found, values⟩ := updateArpTranslationTable_spec data ok ethernet
  generalize updateArpTranslationTable hdr data cache = merge at kept keys found values ⊢
  unfold Learning.learn
  dsimp only
  rw [← found]
  cases merged : merge.2 with
  | true =>
    rw [if_neg (by simp), if_pos (.inl rfl)]
    refine ⟨kept, funext fun a => ?_⟩
    rw [values, update_lookup, merged]
    simp
  | false =>
    by_cases asked : invited
    · have new : data.sip ∉ merge.1.map (·.sip) := by
        rw [keys, ← arpGetHwaddr_isSome ok, ← found, merged]
        simp
      rw [if_pos ⟨asked, rfl⟩, if_pos (.inr (by simp [asked]))]
      refine ⟨insertArpTranslationTable_ok kept ethernet new, funext fun a => ?_⟩
      rw [arpGetHwaddr_insert kept new, values, update_lookup, merged]
      simp
    · rw [if_neg fun h => asked h.1, if_neg (by simp [asked])]
      refine ⟨kept, funext fun a => ?_⟩
      rw [values, merged]
      simp

/- The cache does not depend on the opcode. -/
theorem arpMerge_cache (dev : EthDev) (cache : List ArpCacheEntry) (m : List UInt8)
    (ethernet : hdr.hwtype = ARP_ETHERNET) (ipv4 : hdr.protype = ARP_IPV4) :
    (arpMerge dev cache m hdr data).1 =
      let merge := updateArpTranslationTable hdr data cache
      if dev.addr = data.dip ∧ merge.2 = false then insertArpTranslationTable merge.1 hdr data
      else merge.1 := by
  rw [arpMerge, if_neg (not_not.mpr ethernet), if_neg (not_not.mpr ipv4), netdevGet]
  dsimp only
  generalize updateArpTranslationTable hdr data cache = merge
  by_cases mine : dev.addr = data.dip
  · rw [if_pos mine]
    dsimp only
    cases merged : merge.2 with
    | true =>
      have kept : ¬(dev.addr = data.dip ∧ true = false) := by simp
      rw [if_neg kept]
      split <;> rfl
    | false =>
      have both : dev.addr = data.dip ∧ false = false := ⟨mine, rfl⟩
      have fresh : ¬(false = true) := by simp
      rw [if_pos both, if_neg fresh]
      split <;> rfl
  · have kept : ¬(dev.addr = data.dip ∧ merge.2 = false) := fun h => mine h.1
    rw [if_neg mine, if_neg kept]

/- Only a request to the device is answered. -/
theorem arpMerge_answer (dev : EthDev) (cache : List ArpCacheEntry) (m : List UInt8) (data : ArpIpv4)
    (ethernet : hdr.hwtype = ARP_ETHERNET) (ipv4 : hdr.protype = ARP_IPV4) :
    (arpMerge dev cache m hdr data).2 =
      if dev.addr = data.dip ∧ hdr.opcode = ARP_REQUEST then some (arpReply dev ⟨m, 0, 0⟩)
      else none := by
  rw [arpMerge, if_neg (not_not.mpr ethernet), if_neg (not_not.mpr ipv4), netdevGet]
  dsimp only
  by_cases mine : dev.addr = data.dip
  · rw [if_pos mine]
    dsimp only
    by_cases asks : hdr.opcode = ARP_REQUEST
    · have both : dev.addr = data.dip ∧ hdr.opcode = ARP_REQUEST := ⟨mine, asks⟩
      rw [if_pos asks, if_pos both]
    · have not : ¬(dev.addr = data.dip ∧ hdr.opcode = ARP_REQUEST) := fun h => asks h.2
      rw [if_neg asks, if_neg not]
  · have not : ¬(dev.addr = data.dip ∧ hdr.opcode = ARP_REQUEST) := fun h => mine h.1
    rw [if_neg mine, if_neg not]

theorem arpMerge_learns (dev : EthDev) (m : List UInt8) (ok : CacheOk cache)
    (ethernet : hdr.hwtype = ARP_ETHERNET) (ipv4 : hdr.protype = ARP_IPV4) :
    CacheOk (arpMerge dev cache m hdr data).1 ∧
      arpGetHwaddr (arpMerge dev cache m hdr data).1 = Learning.learn (arpGetHwaddr cache)
        ⟨data.sip, data.smac, decide (dev.addr = data.dip)⟩ := by
  rw [arpMerge_cache dev cache m ethernet ipv4]
  exact merged_learns data ok ethernet (dev.addr = data.dip)

/-! ### Frames -/

/- The buffer of a frame that has been read. -/
def rxSkb (frame : List UInt8) : SkBytes := { head := rxBuffer frame, data := 0, len := 0 }

theorem rxBuffer_long (frame : List UInt8) : arpData + ARP_DATA_LEN ≤ (rxBuffer frame).length := by
  have room : 1600 ≤ (rxBuffer frame).length := by
    simp only [rxBuffer, BUFLEN, List.length_append, List.length_replicate]
    omega
  exact Nat.le_trans (by decide) room

/-- What a frame bears, as it was sent. -/
def sentArpHdr (frame : List UInt8) : ArpHdr := arpHdrOf (rxBuffer frame)

def sentArpData (frame : List UInt8) : ArpIpv4 := arpDataOf (rxBuffer frame)

/-- The frame is an ARP frame for IPv4 over Ethernet. -/
def EthernetIpv4 (frame : List UInt8) : Prop :=
  (sentArpHdr frame).hwtype = ARP_ETHERNET ∧ (sentArpHdr frame).protype = ARP_IPV4

instance (frame : List UInt8) : Decidable (EthernetIpv4 frame) := inferInstanceAs (Decidable (_ ∧ _))

/- What such a frame says about its sender. -/
def arpNote (dev : EthDev) (frame : List UInt8) : Learning.Note UInt32 HwAddr :=
  { key := (sentArpData frame).sip, value := (sentArpData frame).smac
    invited := decide (dev.addr = (sentArpData frame).dip) }

/- `arp_rcv` in terms of what has been sent. -/
theorem arpRcv_eq (dev : EthDev) (cache : List ArpCacheEntry) (frame : List UInt8) :
    arpRcv dev cache (rxSkb frame) =
      arpMerge dev cache (arpSwapped (rxBuffer frame)) (sentArpHdr frame) (sentArpData frame) :=
  arpRcv_holds dev cache (arpFields_wire (rxBuffer_long frame))

theorem arpRcv_other (dev : EthDev) (cache : List ArpCacheEntry) {frame : List UInt8}
    (other : ¬EthernetIpv4 frame) : arpRcv dev cache (rxSkb frame) = (cache, none) := by
  unfold EthernetIpv4 at other
  rw [arpRcv_eq, arpMerge]
  split
  · rfl
  · rename_i ethernet
    split
    · rfl
    · rename_i ipv4
      exact absurd ⟨not_not.mp ethernet, not_not.mp ipv4⟩ other

/-- The lookup after a frame is the abstract table after the note it bears. -/
theorem arpRcv_learns (dev : EthDev) {frame : List UInt8} (ok : CacheOk cache)
    (ours : EthernetIpv4 frame) : CacheOk (arpRcv dev cache (rxSkb frame)).1 ∧
      arpGetHwaddr (arpRcv dev cache (rxSkb frame)).1 =
        Learning.learn (arpGetHwaddr cache) (arpNote dev frame) := by
  rw [arpRcv_eq]
  exact arpMerge_learns dev (arpSwapped (rxBuffer frame)) ok ours.1 ours.2

/-- The cache after a list of frames. -/
def arpRun (dev : EthDev) (frames : List (List UInt8)) : List ArpCacheEntry :=
  frames.foldl (fun cache frame => (arpRcv dev cache (rxSkb frame)).1) []

theorem arpRun_learned (dev : EthDev) (frames : List (List UInt8)) : CacheOk (arpRun dev frames) ∧
    arpGetHwaddr (arpRun dev frames) =
      Learning.learned ((frames.filter fun frame => EthernetIpv4 frame).map (arpNote dev)) := by
  induction frames using List.reverseRecOn with
  | nil => exact ⟨.nil, rfl⟩
  | append_singleton frames frame ih =>
    obtain ⟨ok, eq⟩ := ih
    have step : arpRun dev (frames ++ [frame]) = (arpRcv dev (arpRun dev frames) (rxSkb frame)).1 := by
      simp [arpRun]
    rw [step, List.filter_append]
    by_cases ours : EthernetIpv4 frame
    · obtain ⟨kept, learns⟩ := arpRcv_learns dev ok ours
      refine ⟨kept, ?_⟩
      rw [learns, eq, ← Learning.learned_snoc]
      simp [ours]
    · rw [arpRcv_other dev _ ours]
      refine ⟨ok, ?_⟩
      rw [eq]
      simp [ours]

/-- The frames that come from the address. -/
def framesFrom (frames : List (List UInt8)) (a : UInt32) : List (List UInt8) :=
  frames.filter fun frame => EthernetIpv4 frame ∧ (sentArpData frame).sip = a

/-- No address has two entries, and an address is known once it has sent a frame to us, by the
    hardware address in the last frame it has sent to anyone. -/
theorem arp_cache_last_sender (dev : EthDev) (frames : List (List UInt8)) (a : UInt32) :
    ((arpRun dev frames).filter fun e => e.sip = a).length ≤ 1 ∧
      arpGetHwaddr (arpRun dev frames) a =
        if ∃ frame ∈ framesFrom frames a, dev.addr = (sentArpData frame).dip then
          ((framesFrom frames a).getLast?).map fun frame => (sentArpData frame).smac
        else none := by
  obtain ⟨ok, eq⟩ := arpRun_learned dev frames
  refine ⟨?_, ?_⟩
  · have once := List.nodup_iff_count_le_one.mp ok.once a
    rw [List.count_eq_length_filter, List.filter_map, List.length_map] at once
    exact once
  · rw [eq, Learning.learned_eq]
    have notes : ((frames.filter fun frame => EthernetIpv4 frame).map (arpNote dev)).filter
        (fun n => n.key = a) = (framesFrom frames a).map (arpNote dev) := by
      unfold framesFrom
      rw [List.filter_map, List.filter_filter]
      congr 1
      refine List.filter_congr fun frame _ => ?_
      by_cases ours : EthernetIpv4 frame
      · simp only [arpNote, Function.comp_apply, ours, true_and, decide_true, Bool.and_true]
        exact decide_eq_decide.mpr Iff.rfl
      · simp [ours]
    have met : Learning.Met ((frames.filter fun frame => EthernetIpv4 frame).map (arpNote dev)) a ↔
        ∃ frame ∈ framesFrom frames a, dev.addr = (sentArpData frame).dip := by
      simp only [Learning.Met, framesFrom, List.mem_map, List.mem_filter, arpNote]
      constructor
      · rintro ⟨n, ⟨frame, ⟨member, ours⟩, rfl⟩, about, invited⟩
        exact ⟨frame, ⟨member, by simpa using ⟨by simpa using ours, about⟩⟩, by simpa using invited⟩
      · rintro ⟨frame, ⟨member, both⟩, mine⟩
        have both' : EthernetIpv4 frame ∧ (sentArpData frame).sip = a := by simpa using both
        exact ⟨_, ⟨frame, ⟨member, by simpa using both'.1⟩, rfl⟩, both'.2, by simpa using mine⟩
    simp only [met]
    unfold Learning.latest
    rw [notes, List.getLast?_map, Option.map_map]
    rfl

end HfIp
