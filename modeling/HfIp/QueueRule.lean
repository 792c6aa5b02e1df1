import HfIp.SegmentRule

/- Properties of single buffers and segments, over every event: what holds of each buffer as it is queued
   and survives its transmission holds of the write queue, and of all that is sent from it. -/
namespace HfIp

/- A buffer as a transmission leaves it, whatever its number, and the segment. -/
structure Transmits (k k' : SkBuff) (seg : Segment) : Prop where
  hl : k'.th.hl = if k.th.hl = 0 then 5 else k.th.hl
  payload : k'.payload = k.payload
  fin : k'.th.fin = k.th.fin
  syn : k'.th.syn = k.th.syn
  psh : k'.th.psh = k.th.psh
  ack : k'.th.ack = k.th.ack
  sentHl : seg.th.hl = k'.th.hl
  sentPayload : seg.payload = k.payload
  sentAck : seg.th.ack = k.th.ack

theorem Transmits.number {k k' : SkBuff} {seg : Segment} (h : Transmits k k' seg) (seq endSeq : UInt32) :
    Transmits k { k' with seq := seq, endSeq := endSeq } seg :=
  ⟨h.hl, h.payload, h.fin, h.syn, h.psh, h.ack, h.sentHl, h.sentPayload, h.sentAck⟩

section

variable (s : Conn) (k : SkBuff) (seq : UInt32)

theorem tcpTransmitSkb_transmits : ∃ seg, (tcpTransmitSkb s k seq).1.out = s.out ++ [seg] ∧
    seg.th.ackSeq = s.tsk.tcb.rcvNxt ∧ Transmits k (tcpTransmitSkb s k seq).2 seg := by
  have hl : (if k.th.hl = 0 then { k.th with hl := 5 } else k.th).hl =
      if k.th.hl = 0 then 5 else k.th.hl := by split <;> rfl
  have ack : (if k.th.hl = 0 then { k.th with hl := 5 } else k.th).ack = k.th.ack := by split <;> rfl
  unfold tcpTransmitSkb
  dsimp only
  generalize (if k.th.hl = 0 then { k.th with hl := 5 } else k.th) = th at hl ack
  obtain ⟨data, options⟩ := tcpWriteOptions_th s.tsk th
  refine ⟨_, rfl, rfl, hl, rfl, rfl, rfl, rfl, rfl, ?_, rfl, ?_⟩
  · split
    · rw [options]
    · rfl
  · split
    · rw [options]
      exact ack
    · exact ack

/- With nothing in flight the buffer goes out at once, and is queued as the transmission leaves it. -/
theorem tcpQueueTransmitSkb_transmits (idle : s.tsk.inflight = 0) : ∃ k' seg, Transmits k k' seg ∧
    (tcpQueueTransmitSkb s k).tsk.writeQueue = s.tsk.writeQueue ++ [k'] ∧
    (tcpQueueTransmitSkb s k).out = s.out ++ [seg] := by
  have armed : SendFrame s (if skbQueueEmpty s.tsk.writeQueue then tcpRearmRtoTimer s else s) ∧
      (if skbQueueEmpty s.tsk.writeQueue then tcpRearmRtoTimer s else s).out = s.out := by
    split
    · exact ⟨tcpRearmRtoTimer_send s, tcpRearmRtoTimer_out⟩
    · exact ⟨.refl s, rfl⟩
  unfold tcpQueueTransmitSkb
  dsimp only
  generalize (if skbQueueEmpty s.tsk.writeQueue then tcpRearmRtoTimer s else s) = t at armed
  obtain ⟨frame, out⟩ := armed
  rw [if_pos (frame.inflight.trans idle)]
  obtain ⟨seg, sent, -, transmits⟩ := tcpTransmitSkb_transmits t k t.tsk.tcb.sndNxt
  have same := tcpTransmitSkb_same t k t.tsk.tcb.sndNxt
  refine ⟨_, seg, transmits.number t.tsk.tcb.sndNxt (t.tsk.tcb.sndNxt + k.dlen), ?_, out ▸ sent⟩
  simp [numberSkb, skbQueueTail, same.writeQueue, same.tcb, frame.writeQueue, SkBuff.dlen]

end

/-! ### The rule -/

/- What `tcp_send`, `tcp_queue_fin` and `tcp_send_syn` queue. -/
structure SkBuff.IsText (k : SkBuff) (mss : UInt16) : Prop where
  some_text : k.payload ≠ []
  short : k.payload.length ≤ mss.toNat
  hl : k.th.hl = 0
  ack : k.th.ack = true

structure SkBuff.IsFin (k : SkBuff) : Prop where
  empty : k.payload = []
  fin : k.th.fin = true
  ack : k.th.ack = true

structure SkBuff.IsSyn (k : SkBuff) : Prop where
  empty : k.payload = []
  syn : k.th.syn = true

/- `Size` speaks of segment sizes, `Buf` of buffers of the write queue and `Seg` of segments. -/
structure QueueLaws (Size : UInt16 → Prop) (Buf : SkBuff → Prop) (Seg : Segment → Prop) : Prop where
  sizes : ∀ mss, 536 < mss → mss ≤ 1460 → Size mss
  text : ∀ k mss, Size mss → k.IsText mss → Buf k
  fin : ∀ k : SkBuff, k.IsFin → Buf k
  syn : ∀ k : SkBuff, k.IsSyn → Buf k
  sends : ∀ k k' seg, Transmits k k' seg → Buf k → Buf k' ∧ Seg seg
  bare : ∀ seg, seg.payload = [] → Seg seg

structure Carries (Size : UInt16 → Prop) (Buf : SkBuff → Prop) (Seg : Segment → Prop) (s : Conn) :
    Prop where
  smss : Size s.tsk.smss
  queue : ∀ k ∈ s.tsk.writeQueue, Buf k
  out : ∀ seg ∈ s.out, Seg seg

section

variable {Size : UInt16 → Prop} {Buf : SkBuff → Prop} {Seg : Segment → Prop} {s t : Conn}

theorem Carries.fewer (carries : Carries Size Buf Seg s) (smss : t.tsk.smss = s.tsk.smss)
    (queue : t.tsk.writeQueue.Sublist s.tsk.writeQueue) (out : t.out = s.out) :
    Carries Size Buf Seg t :=
  ⟨smss ▸ carries.smss, fun k member => carries.queue k (queue.subset member), out ▸ carries.out⟩

theorem Carries.eq (carries : Carries Size Buf Seg s) (smss : t.tsk.smss = s.tsk.smss)
    (queue : t.tsk.writeQueue = s.tsk.writeQueue) (out : t.out = s.out) : Carries Size Buf Seg t :=
  carries.fewer smss (queue ▸ List.Sublist.refl _) out

theorem Carries.clean (una : UInt32) (carries : Carries Size Buf Seg s) :
    Carries Size Buf Seg (tcpCleanRtoQueue s una) := by
  obtain ⟨_, _, _, _, _, eq⟩ := tcpCleanRtoQueue_touches s una
  rw [eq]
  exact carries.fewer rfl (List.dropWhile_sublist _) rfl

variable (laws : QueueLaws Size Buf Seg)
include laws

theorem QueueLaws.frame (carries : Carries Size Buf Seg s) (h : SendFrame s t) :
    Carries Size Buf Seg t := by
  obtain ⟨more, out, bare⟩ := h.out
  refine ⟨h.smss ▸ carries.smss, h.writeQueue ▸ carries.queue, ?_⟩
  rw [out]
  intro seg member
  rcases List.mem_append.mp member with old | new
  · exact carries.out seg old
  · exact laws.bare seg (bare seg new)

/- A buffer of the queue is sent, and stays in it. -/
theorem QueueLaws.transmit {k k' : SkBuff} {seg : Segment} (carries : Carries Size Buf Seg s)
    (buf : Buf k) (transmits : Transmits k k' seg) (smss : t.tsk.smss = s.tsk.smss)
    (queue : ∀ j ∈ t.tsk.writeQueue, j ∈ s.tsk.writeQueue ∨ j = k') (out : t.out = s.out ++ [seg]) :
    Carries Size Buf Seg t := by
  obtain ⟨buf', sent⟩ := laws.sends k k' seg transmits buf
  refine ⟨smss ▸ carries.smss, fun j member => ?_, ?_⟩
  · rcases queue j member with old | rfl
    · exact carries.queue j old
    · exact buf'
  · rw [out]
    intro seg' member
    rcases List.mem_append.mp member with old | new
    · exact carries.out seg' old
    · obtain rfl := List.mem_singleton.mp new
      exact sent

theorem QueueLaws.queueTransmit {k : SkBuff} (carries : Carries Size Buf Seg s) (buf : Buf k) :
    Carries Size Buf Seg (tcpQueueTransmitSkb s k) := by
  have smss := (tcpQueueTransmitSkb_view (s := s) k).2.2.2.2.1
  by_cases idle : s.tsk.inflight = 0
  · obtain ⟨k', seg, transmits, queue, out⟩ := tcpQueueTransmitSkb_transmits s k idle
    refine laws.transmit carries buf transmits smss (fun j member => ?_) out
    rw [queue] at member
    exact (List.mem_append.mp member).imp id List.mem_singleton.mp
  · obtain ⟨u, frame, later⟩ := tcpQueueTransmitSkb_later k idle
    have still := laws.frame carries frame
    rw [later]
    refine ⟨still.smss, fun j member => ?_, still.out⟩
    rcases List.mem_append.mp member with old | new
    · exact still.queue j old
    · obtain rfl := List.mem_singleton.mp new
      exact buf

theorem QueueLaws.sendNext (amount : Nat) {queue : List SkBuff} (carries : Carries Size Buf Seg s)
    (bufs : ∀ k ∈ queue, Buf k) : (∀ k ∈ (sendNextLoop s amount queue).2, Buf k) ∧
      ∀ seg ∈ (sendNextLoop s amount queue).1.out, Seg seg := by
  induction amount generalizing s queue with
  | zero => exact ⟨bufs, carries.out⟩
  | succ amount ih =>
    cases queue with
    | nil => exact ⟨bufs, carries.out⟩
    | cons next rest =>
      have first := bufs next (by simp)
      have same := tcpTransmitSkb_same s next s.tsk.tcb.sndNxt
      obtain ⟨seg, out, -, transmits⟩ := tcpTransmitSkb_transmits s next s.tsk.tcb.sndNxt
      have numbered : Transmits next (numberSkb (tcpTransmitSkb s next s.tsk.tcb.sndNxt).1
          (tcpTransmitSkb s next s.tsk.tcb.sndNxt).2).2 seg := transmits.number _ _
      have sent : Carries Size Buf Seg (numberSkb (tcpTransmitSkb s next s.tsk.tcb.sndNxt).1
          (tcpTransmitSkb s next s.tsk.tcb.sndNxt).2).1 :=
        laws.transmit carries first numbered same.smss
          (fun j member => .inl (same.writeQueue ▸ member)) out
      have others : ∀ k ∈ rest, Buf k := fun k member => bufs k (List.mem_cons_of_mem _ member)
      obtain ⟨queue, outs⟩ := ih sent others
      refine ⟨fun k member => ?_, outs⟩
      rcases List.mem_cons.mp member with rfl | later
      · exact (laws.sends _ _ _ numbered first).1
      · exact queue k later

theorem QueueLaws.sendFront (n : Nat) (carries : Carries Size Buf Seg s) :
    Carries Size Buf Seg (sendFront s n) := by
  obtain ⟨queue, out⟩ := laws.sendNext n carries carries.queue
  have smss := (sendNextLoop_view (s := s) n s.tsk.writeQueue).2.2.2.2.2.1
  exact ⟨show Size (sendNextLoop s n s.tsk.writeQueue).1.tsk.smss from smss ▸ carries.smss, queue, out⟩

theorem QueueLaws.retransmit {k : SkBuff} (head : s.tsk.writeQueue.head? = some k)
    (carries : Carries Size Buf Seg s) : Carries Size Buf Seg (retransmitHead s k) := by
  have same := tcpTransmitSkb_same s k s.tsk.tcb.sndUna
  obtain ⟨seg, out, -, transmits⟩ := tcpTransmitSkb_transmits s k s.tsk.tcb.sndUna
  refine laws.transmit carries (carries.queue k (List.mem_of_head? head)) transmits same.smss
    (fun j member => ?_) out
  rcases List.mem_cons.mp member with here | later
  · exact .inr here
  · rw [same.writeQueue] at later
    exact .inl (List.mem_of_mem_tail later)

theorem QueueLaws.sendLoop {mss : UInt16} (size : Size mss) (positive : 0 < mss.toNat) (fuel : Nat)
    (buf : List UInt8) (carries : Carries Size Buf Seg s) :
    Carries Size Buf Seg (tcpSendLoop mss.toNat fuel s buf) := by
  induction fuel generalizing s buf with
  | zero => exact carries
  | succ fuel ih =>
    rw [tcpSendLoop]
    split
    · exact carries
    · rename_i some_text
      refine ih _ (laws.queueTransmit (laws.frame carries (.of_minor (tcpAllocSkb_minor s 0 _)))
        (laws.text _ mss size ⟨?_, List.length_take_le _ _, rfl, rfl⟩))
      show buf.take mss.toNat ≠ []
      rw [← List.length_pos_iff, List.length_take]
      omega

theorem QueueLaws.write (buf : List UInt8) (carries : Carries Size Buf Seg s)
    (positive : 0 < s.tsk.smss.toNat) : Carries Size Buf Seg (tcpWrite s buf).1 := by
  have sent : Carries Size Buf Seg (tcpSend s buf) := by
    have taken : Carries Size Buf Seg { s with accepted := s.accepted ++ buf } := carries.eq rfl rfl rfl
    exact laws.frame (laws.sendLoop carries.smss positive buf.length buf taken) (tcpRearmUserTimeout_send _)
  unfold tcpWrite
  split
  · exact carries
  · split
    · exact sent
    · exact sent
    · exact carries

theorem QueueLaws.queueFin (carries : Carries Size Buf Seg s) : Carries Size Buf Seg (tcpQueueFin s) :=
  laws.queueTransmit (carries.eq rfl rfl rfl) (laws.fin _ ⟨rfl, rfl, rfl⟩)

theorem QueueLaws.close (carries : Carries Size Buf Seg s) : Carries Size Buf Seg (tcpClose s).1 := by
  unfold tcpClose
  split
  iterate 6 exact carries.eq rfl rfl rfl
  iterate 3 exact laws.frame carries (tcpDone_send s)
  · exact laws.queueFin (carries.eq rfl rfl rfl)
  · exact laws.queueFin carries

theorem QueueLaws.connect (addr : SockAddr) (port : UInt16) (iss : UInt32)
    (carries : Carries Size Buf Seg s) (closed : s.tsk.state = .close) :
    Carries Size Buf Seg (tcpV4Connect s addr port iss) := by
  unfold tcpV4Connect tcpConnect tcpSendSyn
  simp only [closed]
  rw [if_neg (by simp)]
  refine Carries.eq (laws.queueTransmit ?_ ?_) rfl rfl rfl
  · exact carries.eq rfl rfl rfl
  · exact laws.syn _ ⟨rfl, rfl⟩

theorem QueueLaws.takeAck (th : TcpHdr) (carries : Carries Size Buf Seg s) :
    Carries Size Buf Seg (takeAck s th) :=
  Carries.clean _ (laws.frame (carries.eq (t := { s with tsk.tcb.sndUna := th.ackSeq }) rfl rfl rfl)
    (tcpRtt_send _))

theorem QueueLaws.synsentSyn (th : TcpHdr) (carries : Carries Size Buf Seg s) :
    Carries Size Buf Seg (synsentSyn s th) := by
  have acked : Carries Size Buf Seg (synsentAck s th) := by
    unfold synsentAck
    dsimp only
    split
    · exact Carries.clean _ (carries.eq rfl rfl rfl)
    · exact carries.eq rfl rfl rfl
  unfold HfIp.synsentSyn
  dsimp only
  split
  · unfold synsentEstablish
    dsimp only
    have opened : Carries Size Buf Seg { setState (synsentAck s th) .established with
        tsk.tcb.sndUna := (setState (synsentAck s th) .established).tsk.tcb.sndNxt
        tsk.backoff := 0, tsk.rto := 1000 } := acked.eq rfl rfl rfl
    have sent := laws.frame (laws.frame opened (.of_minor (tcpSendAck_minor _))) (tcpRearmUserTimeout_send _)
    generalize tcpRearmUserTimeout (tcpSendAck _) = u at sent
    have parsed : Carries Size Buf Seg { u with tsk.smss := (tcpParseOpts u.tsk th).smss } :=
      ⟨tcpParseOpts_smss laws.sizes _ th sent.smss, sent.queue, sent.out⟩
    exact (laws.frame parsed (.of_minor (tcpParseOpts_minor u th))).eq rfl rfl rfl
  · rw [tcpSendSynack_minor _ (by simp [setState])]
    exact acked.eq rfl rfl rfl

theorem QueueLaws.reset (carries : Carries Size Buf Seg s) : Carries Size Buf Seg (tcpSendReset s) := by
  unfold tcpSendReset
  dsimp only
  refine laws.frame ?_ (.of_minor (freeSkb_minor _ _))
  refine laws.frame ?_ (.of_minor (tcpTransmitSkb_minor _ _ _ rfl rfl rfl))
  exact carries.eq rfl rfl rfl

/- What holds of buffers and segments is kept by every event. -/
theorem QueueLaws.exec {e : Event} {r : Reply} (positive : ∀ mss, Size mss → 0 < mss.toNat)
    (carries : Carries Size Buf Seg s) (taken : exec s e = some (t, r)) : Carries Size Buf Seg t := by
  refine exec_rule (P := Carries Size Buf Seg) (fun _ _ h kept => laws.frame kept h) ?free carries taken
    ?write ?close ?connect ?segment ?handler ?reset
  case free =>
    intro u kept
    obtain ⟨freed, eq⟩ := socketFree_eq u
    rw [eq]
    exact ⟨kept.smss, by simp [socketRelease, wakeSleep], kept.out⟩
  case write => exact fun buf _ _ locked => laws.write buf locked (positive _ locked.smss)
  case close => exact fun _ _ locked => laws.close locked
  case connect => exact fun addr port iss _ _ closed kept => laws.connect addr port iss kept closed
  case segment =>
    intro th payload _ _ locked
    exact tcpInputState_rule (P := Carries Size Buf Seg) (fun _ _ h kept => laws.frame kept h) locked
      (fun _ => laws.reset locked) (fun _ => laws.synsentSyn th locked)
      (fun u _ _ kept => laws.takeAck th kept) fun u n _ _ kept => laws.sendFront n kept
  case handler =>
    intro i h _ _ _
    constructor
    · intro _ ts locked
      exact tcpConnectRto_rule (P := Carries Size Buf Seg) (fun _ _ h kept => laws.frame kept h) locked
        fun u k _ _ head kept => laws.retransmit head kept
    · intro _ ts locked
      refine tcpRetransmissionTimeout_rule (P := Carries Size Buf Seg)
        (fun _ _ h kept => laws.frame kept h) locked (fun u k _ head kept => laws.retransmit head kept)
        fun u kept => ?_
      unfold tcpHandleFinState
      split
      · exact kept.eq rfl rfl rfl
      · exact kept.eq rfl rfl rfl
      · exact kept
  case reset => exact fun _ u _ kept => laws.reset kept

/-- And so of all of them in every run. -/
theorem QueueLaws.run (positive : ∀ mss, Size mss → 0 < mss.toNat) (start : Size 536)
    {allowed : List (Event × Reply) → Conn → Event → Prop} {trace : List (Event × Reply)}
    (run : Transition.Run HfIp.exec allowed {} trace s) : Carries Size Buf Seg s := by
  refine run.invariant_state (P := Carries Size Buf Seg) ⟨start, by simp, by simp⟩ ?_
  intro _ s e t r carries _ taken
  exact laws.exec positive carries taken

end

end HfIp
