import HfIp.Arp

/- Two stacks that resolve each other's address: the request of one, the answer of the other. -/
namespace HfIp

open Buffer

/-- A translation table as `arp_rcv` builds it. -/
structure ArpCache where
  entries : List ArpCacheEntry
  ok : CacheOk entries

/- The branch of `netdev_receive` for ARP; `eth_hdr` has swapped the type in place. -/
def netdevReceiveArp (dev : EthDev) (cache : ArpCache) (frame : List UInt8) :
    Option (List ArpCacheEntry × Option (List UInt8)) :=
  let skb := rxSkb frame
  if netdevReceive skb.head = .arp then
    some (arpRcv dev cache.entries { skb with head := ntohsAt skb.head 12 })
  else none

variable {frame : List UInt8} {dst src : HwAddr} {h : ArpHdr} {d : ArpIpv4}

theorem field_rxBuffer {i n : Nat} (inside : i + n ≤ frame.length) :
    field (rxBuffer frame) i n = field frame i n := by
  rw [rxBuffer, field, List.drop_append_of_le_length (by omega), List.take_append_of_le_length]
  · rfl
  · rw [List.length_drop]
    omega

theorem ArpFields.ethernet {word dword} {m : List UInt8} (holds : ArpFields word dword m h d) :
    ArpFields word dword (ntohsAt m 12) h d := by
  have behind : ∀ j n, arpHdr ≤ j → field (ntohsAt m 12) j n = field m j n :=
    fun j n after => field_ntohsAt m (.inr after)
  constructor
  · rw [length_ntohsAt]
    exact holds.long
  all_goals rw [behind _ _ (by decide)]
  · exact holds.hwtype
  · exact holds.protype
  · exact holds.hwsize
  · exact holds.prosize
  · exact holds.opcode
  · exact holds.smac
  · exact holds.sip
  · exact holds.dmac
  · exact holds.dip

theorem EthArp.received (sent : EthArp dst src h d frame) : ArpFields be16 be32 (rxBuffer frame) h d := by
  have long : frame.length = 42 := sent.long
  have behind : ∀ j n, j + n ≤ 42 → field (rxBuffer frame) j n = field frame j n :=
    fun j n inside => field_rxBuffer (by omega)
  constructor
  · exact rxBuffer_long frame
  all_goals rw [behind _ _ (by decide)]
  · exact sent.fields.hwtype
  · exact sent.fields.protype
  · exact sent.fields.hwsize
  · exact sent.fields.prosize
  · exact sent.fields.opcode
  · exact sent.fields.smac
  · exact sent.fields.sip
  · exact sent.fields.dmac
  · exact sent.fields.dip

/- What a stack does with such a frame. -/
theorem EthArp.handled (dev : EthDev) (cache : ArpCache) (sent : EthArp dst src h d frame) :
    ∃ m, ArpFields le16 le32 m h d ∧
      netdevReceiveArp dev cache frame = some (arpMerge dev cache.entries m h d) := by
  have inside : 12 + 2 ≤ frame.length := by rw [sent.long]; decide
  have type : wordAt (rxBuffer frame) 12 = ETH_P_ARP :=
    wordAt_of_field ((field_rxBuffer inside).trans sent.ethertype)
  have arp : netdevReceive (rxSkb frame).head = .arp := by
    rw [netdevReceive, rxSkb, if_pos type]
  refine ⟨_, sent.received.ethernet.ntoh, ?_⟩
  rw [netdevReceiveArp, if_pos arp]
  exact congrArg some (arpRcv_holds dev cache.entries sent.received.ethernet)

/- A frame to the device, and one to another address. -/
theorem arpMerge_taken (dev : EthDev) (cache : ArpCache) (m : List UInt8)
    (ethernet : h.hwtype = ARP_ETHERNET) (ipv4 : h.protype = ARP_IPV4) (mine : dev.addr = d.dip) :
    arpGetHwaddr (arpMerge dev cache.entries m h d).1 d.sip = some d.smac := by
  obtain ⟨-, learns⟩ := arpMerge_learns dev m cache.ok ethernet ipv4
  rw [learns, Learning.learn, if_pos (.inr (by simp [mine]))]
  exact Function.update_self _ _ _

theorem arpMerge_passed (dev : EthDev) (cache : ArpCache) (m : List UInt8)
    (ethernet : h.hwtype = ARP_ETHERNET) (ipv4 : h.protype = ARP_IPV4) (other : dev.addr ≠ d.dip) :
    (arpMerge dev cache.entries m h d).2 = none ∧
      (arpMerge dev cache.entries m h d).1.map (·.sip) = cache.entries.map (·.sip) := by
  obtain ⟨-, keys, -, -⟩ := updateArpTranslationTable_spec d cache.ok ethernet
  rw [arpMerge_answer dev _ m d ethernet ipv4, arpMerge_cache dev _ m ethernet ipv4,
    if_neg fun h => other h.1, if_neg fun h => other h.1]
  exact ⟨rfl, keys⟩

/-- The answer of B goes to A, after it each knows the other's hardware address, and B neither
    answers a request for another address nor takes up anything new from it. -/
theorem arp_resolves (A B : EthDev) (cacheA cacheB : ArpCache) :
    (∃ cacheB' reply cacheA',
      netdevReceiveArp B cacheB (arpRequest A.addr B.addr A) = some (cacheB', some reply) ∧
      netdevReceiveArp A cacheA reply = some (cacheA', none) ∧
      hwAddrAt reply 0 = A.hwaddr ∧
      arpGetHwaddr cacheA' B.addr = some B.hwaddr ∧
      arpGetHwaddr cacheB' A.addr = some A.hwaddr) ∧
    ∀ ip, ip ≠ B.addr → ∃ cacheB',
      netdevReceiveArp B cacheB (arpRequest A.addr ip A) = some (cacheB', none) ∧
      cacheB'.map (·.sip) = cacheB.entries.map (·.sip) := by
  constructor
  · obtain ⟨m, holds, asked⟩ := (arpRequest_sends A.addr B.addr A).handled B cacheB
    have answer := arpMerge_answer B cacheB.entries m (requestData A A.addr B.addr)
      (rfl : requestHdr.hwtype = _) rfl
    rw [if_pos ⟨rfl, rfl⟩] at answer
    have reply := arpReply_sends B holds
    obtain ⟨m', -, told⟩ := reply.handled A cacheA
    have silent := arpMerge_answer A cacheA.entries m' (replyData B (requestData A A.addr B.addr))
      (rfl : (replyHdr requestHdr).hwtype = _) rfl
    rw [if_neg fun both => absurd both.2 (by decide)] at silent
    refine ⟨_, _, _, asked.trans (congrArg some (Prod.ext rfl answer)),
      told.trans (congrArg some (Prod.ext rfl silent)), hwAddrAt_of_field reply.dmac, ?_, ?_⟩
    · exact arpMerge_taken (d := replyData B (requestData A A.addr B.addr)) A cacheA m' rfl rfl rfl
    · exact arpMerge_taken (d := requestData A A.addr B.addr) B cacheB m rfl rfl rfl
  · intro ip other
    obtain ⟨m, -, asked⟩ := (arpRequest_sends A.addr ip A).handled B cacheB
    obtain ⟨silent, same⟩ := arpMerge_passed (h := requestHdr) (d := requestData A A.addr ip) B
      cacheB m rfl rfl (Ne.symm other)
    exact ⟨_, asked.trans (congrArg some (Prod.ext rfl silent)), same⟩

end HfIp
