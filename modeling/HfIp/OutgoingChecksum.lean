import HfIp.IpOutput
import HfIp.QueueRule
import HfIp.Sockets

/- The checksum of every segment that a connection ever sends. No segment is larger than an Ethernet
   frame allows, so the length in the pseudo-header is never cut. -/
namespace HfIp

variable {s t : Conn}

/-! ### The size of what is sent -/

/- The segment size is at most 1460, and no buffer that waits and no segment that went out bears more. -/
structure Sized (s : Conn) : Prop where
  smss : s.tsk.smss ≤ 1460
  queue : ∀ k ∈ s.tsk.writeQueue, k.payload.length ≤ 1460
  out : ∀ seg ∈ s.out, seg.payload.length ≤ 1460

theorem sized_laws : QueueLaws (fun mss => 0 < mss.toNat ∧ mss ≤ 1460)
    (fun k => k.payload.length ≤ 1460) (fun seg => seg.payload.length ≤ 1460) where
  sizes _ more most := ⟨Nat.lt_trans (by decide) (UInt16.lt_iff_toNat_lt.mp more), most⟩
  text _ _ size text := Nat.le_trans text.short (UInt16.le_iff_toNat_le.mp size.2)
  fin k fin := by simp [fin.empty]
  syn k syn := by simp [syn.empty]
  sends k k' seg sent short := by
    rw [sent.payload, sent.sentPayload]
    exact ⟨short, short⟩
  bare seg empty := by simp [empty]

/-! ### Runs -/

theorem run_sized {trace : List (Event × Reply)} (run : Transition.Run exec (fun _ _ _ => True) {} trace s) :
    Sized s := by
  obtain ⟨⟨-, smss⟩, queue, out⟩ := sized_laws.run (fun _ size => size.1) ⟨by decide, by decide⟩ run
  exact ⟨smss, queue, out⟩

theorem exec_addressed {e : Event} {r : Reply} (addressed : Addressed s.tsk)
    (taken : exec s e = some (t, r)) : Addressed t.tsk := by
  have still : Kept s t → Addressed t.tsk := by
    intro kept
    have source : t.tsk.saddr = s.tsk.saddr := congrArg FourTuple.saddr kept.tuple
    have target : t.tsk.daddr = s.tsk.daddr := congrArg FourTuple.daddr kept.tuple
    unfold Addressed
    rw [source, target]
    exact addressed
  by_cases dials : ∃ addr port iss, e = .connect addr port iss
  · obtain ⟨addr, port, iss, rfl⟩ := dials
    have effect := exec_connect taken
    split at effect
    · exact .inl (congrArg FourTuple.saddr effect.2)
    · exact still effect
  · exact still (exec_kept (fun addr port iss call => dials ⟨addr, port, iss, call⟩) taken)

/-- Every segment that a step of a run sends, first transmission or not, is given a checksum that is
    valid under the addresses of its IP header exactly when the source address of that header is the
    one the connection was opened with and the sum over pseudo-header and segment, the addresses and
    the length taken in the byte order of the host, fits 32 bits. -/
theorem sent_checksum_valid {trace : List (Event × Reply)} {e : Event} {r : Reply} {seg : Segment}
    (run : Transition.Run exec (fun _ _ _ => True) {} trace s) (taken : exec s e = some (t, r))
    (sent : seg ∈ t.out.drop s.out.length) :
    (∃ packet, tcpPacket t.tsk seg = some packet ∧ ChecksumValid packet) ↔
      RoutedFrom t.tsk ∧ checksumSum t.tsk seg < 2 ^ 32 := by
  have addressed : Addressed t.tsk :=
    (run.next trivial taken).invariant_state (P := fun s => Addressed s.tsk) (.inr ⟨rfl, rfl⟩)
      fun _ _ _ _ _ addressed _ taken => exec_addressed addressed taken
  refine tcpPacket_checksum addressed ?_
  have short := (run_sized (run.next trivial taken)).out seg (List.mem_of_mem_drop sent)
  have words := seg.th.hl.isLt
  rw [tcpBytes_length]
  omega

/- A fresh socket's connect to port 80 of `addr`. -/
def connectTo (addr : UInt32) : Option (Conn × Reply) := exec {} (.connect ⟨2, 16, 80, addr⟩ 40001 1000)

theorem connectTo_sends {addr : UInt32} {P : TcpSock → Segment → Prop} [∀ tsk seg, Decidable (P tsk seg)]
    (found : (connectTo addr).any (fun p => p.1.out.any fun seg => decide (P p.1.tsk seg)) = true) :
    ∃ t r seg, connectTo addr = some (t, r) ∧ seg ∈ t.out ∧ P t.tsk seg := by
  obtain ⟨⟨t, r⟩, dialled, sends⟩ := (Option.any_eq_true _ _).mp found
  obtain ⟨seg, sent, holds⟩ := List.any_eq_true.mp sends
  exact ⟨t, r, seg, dialled, sent, of_decide_eq_true holds⟩

/- The SYN to 10.0.0.5. -/
theorem sent_checksum_valid_syn : ∃ t r seg packet, connectTo (parseIpv4 10 0 0 5) = some (t, r) ∧
    seg ∈ t.out ∧ tcpPacket t.tsk seg = some packet ∧ ChecksumValid packet := by
  obtain ⟨t, r, seg, dialled, sent, fits⟩ : ∃ t r seg, connectTo (parseIpv4 10 0 0 5) = some (t, r) ∧
      seg ∈ t.out ∧ (RoutedFrom t.tsk ∧ checksumSum t.tsk seg < 2 ^ 32) :=
    connectTo_sends (P := fun tsk seg => RoutedFrom tsk ∧ checksumSum tsk seg < 2 ^ 32)
      (by decide +kernel)
  obtain ⟨packet, routed, valid⟩ := (sent_checksum_valid .start dialled sent).mpr fits
  exact ⟨t, r, seg, packet, dialled, sent, routed, valid⟩

/- A SYN to `addr` that goes out with a checksum that is not valid. -/
def BrokenTo (addr : UInt32) : Prop := ∃ t r seg, connectTo addr = some (t, r) ∧ seg ∈ t.out ∧
  ∀ packet ∈ tcpPacket t.tsk seg, ¬ChecksumValid packet

/-- The SYN to 10.0.0.252, where the carry out of 32 bits is lost, and the one to 127.0.0.1, which goes
    out under the address of the loopback device. -/
theorem sent_checksum_broken :
    BrokenTo (parseIpv4 10 0 0 252) ∧ BrokenTo (parseIpv4 127 0 0 1) := by
  constructor
  · exact connectTo_sends (P := fun tsk seg => ∀ packet ∈ tcpPacket tsk seg, ¬ChecksumValid packet)
      (by decide +kernel)
  · exact connectTo_sends (P := fun tsk seg => ∀ packet ∈ tcpPacket tsk seg, ¬ChecksumValid packet)
      (by decide +kernel)

end HfIp
