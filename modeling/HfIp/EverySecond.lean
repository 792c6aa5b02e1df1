import HfIp.AckCoverage
import HfIp.Reader

/- At least every second full-sized segment is acknowledged: the counter of the delayed ACKs, and
   what the ACKs sent from one segment in order to the next acknowledge. -/
namespace HfIp

open Transition

variable {s t u : Conn}

/-! ### Where the counter stays -/

section Counter

variable (s : Conn)

@[simp] theorem tcpWriteOptions_delacks (tsk : TcpSock) (th : TcpHdr) :
    (tcpWriteOptions tsk th).1.delacks = tsk.delacks := by
  unfold tcpWriteOptions
  split <;> rfl

@[simp] theorem tcpTransmitSkb_delacks (skb : SkBuff) (seq : UInt32) :
    (tcpTransmitSkb s skb seq).1.tsk.delacks = s.tsk.delacks := by
  unfold tcpTransmitSkb
  dsimp only
  generalize (if skb.th.hl = 0 then { skb.th with hl := 5 } else skb.th) = th
  split
  · exact tcpWriteOptions_delacks s.tsk th
  · rfl

@[simp] theorem tcpSendAck_delacks : (tcpSendAck s).tsk.delacks = s.tsk.delacks := by
  unfold tcpSendAck
  split
  · rfl
  · rw [freeSkb_tsk, tcpTransmitSkb_delacks]
    rfl

@[simp] theorem tcpSendReset_delacks : (tcpSendReset s).tsk.delacks = s.tsk.delacks := by
  unfold tcpSendReset
  rw [freeSkb_tsk, tcpTransmitSkb_delacks]
  rfl

@[simp] theorem sackLoop_delacks (tsk : TcpSock) (sb : Nat) (queue : List SkBuff) :
    (sackLoop tsk sb queue).delacks = tsk.delacks := by
  induction queue generalizing tsk sb with
  | nil => rfl
  | cons next rest ih =>
    rw [sackLoop]
    split_ifs <;> simp [ih]

@[simp] theorem tcpRearmRtoTimer_delacks : (tcpRearmRtoTimer s).tsk.delacks = s.tsk.delacks := by
  obtain ⟨_, _, eq⟩ := tcpRearmRtoTimer_touches s
  rw [eq]

@[simp] theorem tcpRearmUserTimeout_delacks :
    (tcpRearmUserTimeout s).tsk.delacks = s.tsk.delacks := by
  unfold tcpRearmUserTimeout
  split <;> rfl

@[simp] theorem tcpQueueTransmitSkb_delacks (skb : SkBuff) :
    (tcpQueueTransmitSkb s skb).tsk.delacks = s.tsk.delacks := by
  have armed : (if skbQueueEmpty s.tsk.writeQueue then tcpRearmRtoTimer s else s).tsk.delacks
      = s.tsk.delacks := by
    split <;> simp
  unfold tcpQueueTransmitSkb
  dsimp only
  generalize (if skbQueueEmpty s.tsk.writeQueue then tcpRearmRtoTimer s else s) = t at armed
  split
  · exact (tcpTransmitSkb_delacks t skb _).trans armed
  · exact armed

@[simp] theorem sendNextLoop_delacks (amount : Nat) (queue : List SkBuff) :
    (sendNextLoop s amount queue).1.tsk.delacks = s.tsk.delacks := by
  induction amount generalizing s queue with
  | zero => rfl
  | succ amount ih =>
    cases queue with
    | nil => rfl
    | cons next rest => exact (ih _ rest).trans (tcpTransmitSkb_delacks s next _)

@[simp] theorem tcpSendLoop_delacks (mss fuel : Nat) (buf : List UInt8) :
    (tcpSendLoop mss fuel s buf).tsk.delacks = s.tsk.delacks := by
  induction fuel generalizing s buf with
  | zero => rfl
  | succ fuel ih =>
    rw [tcpSendLoop]
    split
    · rfl
    · exact (ih _ _).trans (tcpQueueTransmitSkb_delacks _ _)

theorem tcpWrite_delacks (buf : List UInt8) :
    (tcpWrite s buf).1.tsk.delacks = s.tsk.delacks := by
  have sends : (tcpSend s buf).tsk.delacks = s.tsk.delacks := by simp [tcpSend]
  unfold tcpWrite
  split
  · rfl
  · split
    · exact sends
    · exact sends
    · rfl

@[simp] theorem tcpDone_delacks : (tcpDone s).tsk.delacks = s.tsk.delacks := by
  obtain ⟨freed, eq⟩ := skbQueueFree_eq
    (tcpClearTimers (setState { s with ended := true } .closing)) s.tsk.ofoQueue
  unfold tcpDone socketDelete tcpFree tcpClearQueues
  rw [show (tcpClearTimers (setState { s with ended := true } .closing)).tsk.ofoQueue
    = s.tsk.ofoQueue from rfl, eq]
  split <;> rfl

theorem tcpQueueFin_delacks : (tcpQueueFin s).tsk.delacks = s.tsk.delacks :=
  tcpQueueTransmitSkb_delacks _ _

theorem tcpClose_delacks : (tcpClose s).1.tsk.delacks = s.tsk.delacks := by
  unfold tcpClose
  split
  iterate 6 rfl
  iterate 3 exact tcpDone_delacks s
  · exact tcpQueueFin_delacks (setState s .finWait1)
  · exact tcpQueueFin_delacks s

theorem tcpCleanRtoQueue_delacks (una : UInt32) :
    (tcpCleanRtoQueue s una).tsk.delacks = s.tsk.delacks := by
  obtain ⟨_, _, _, _, _, eq⟩ := tcpCleanRtoQueue_touches s una
  rw [eq]

theorem tcpRtt_delacks : (tcpRtt s).tsk.delacks = s.tsk.delacks := by
  unfold tcpRtt
  split
  · rfl
  · split
    · rfl
    · dsimp only
      split <;> rfl

theorem inputNewAck_delacks (th : TcpHdr) : (inputNewAck s th).1.tsk.delacks = s.tsk.delacks := by
  rw [inputNewAck_fst]
  split
  · exact (tcpCleanRtoQueue_delacks _ _).trans (tcpRtt_delacks _)
  · rfl

theorem inputAck_delacks (th : TcpHdr) : (inputAck s th).1.tsk.delacks = s.tsk.delacks := by
  unfold inputAck
  split
  · split
    · exact inputNewAck_delacks (setState s .established) th
    · rfl
  iterate 6 exact inputNewAck_delacks s th
  rfl

theorem inputFinAcked_delacks (th : TcpHdr) :
    (inputFinAcked s th).tsk.delacks = s.tsk.delacks := by
  unfold inputFinAcked
  split
  · split
    · rfl
    · rfl
    · split
      · exact tcpSendAck_delacks _
      · rfl
    · rfl
  · rfl

theorem tcpDataQueue_delacks (skb : SkBuff) :
    (tcpDataQueue s skb).1.tsk.delacks = s.tsk.delacks := by
  unfold tcpDataQueue
  split
  · exact congrArg TcpSock.delacks (freeSkb_tsk s skb)
  · split
    · rfl
    · dsimp only
      rw [tcpSendAck_delacks]
      split
      · exact sackLoop_delacks _ _ _
      · rfl

theorem inputText_delacks (th : TcpHdr) (skb : SkBuff) :
    (inputText s th skb).1.tsk.delacks = s.tsk.delacks := by
  unfold inputText
  split
  iterate 3
    split
    · exact tcpDataQueue_delacks s skb
    · rfl
  rfl

theorem inputFin_delacks : (inputFin s).tsk.delacks = s.tsk.delacks := by
  have acked : (recvNotify (tcpSendAck (pollReadable { s with
      tsk.tcb.rcvNxt := s.tsk.tcb.rcvNxt + 1
      tsk.flags := s.tsk.flags ||| TCP_FIN }))).tsk.delacks = s.tsk.delacks :=
    tcpSendAck_delacks _
  unfold inputFin
  dsimp only
  generalize recvNotify (tcpSendAck (pollReadable { s with
    tsk.tcb.rcvNxt := s.tsk.tcb.rcvNxt + 1, tsk.flags := s.tsk.flags ||| TCP_FIN })) = t at acked
  split
  · exact acked
  · exact acked
  · split <;> exact acked
  · exact acked
  · exact acked

theorem dequeue_delacks (userlen : Nat) :
    (tcpDataDequeue s userlen).1.tsk.delacks = s.tsk.delacks := by
  obtain ⟨freed, flags, eq⟩ := dequeueLoop_touches s userlen s.tsk.receiveQueue
  unfold tcpDataDequeue
  dsimp only
  rw [eq]
  split <;> rfl

theorem receiveReturn_delacks (rlen : Int) :
    (receiveReturn s rlen).1.tsk.delacks = s.tsk.delacks := by
  unfold receiveReturn
  dsimp only
  split
  · exact tcpRearmUserTimeout_delacks s
  · rfl

theorem receiveLoop_delacks (len rlen : Nat) :
    (receiveLoop s len rlen).1.tsk.delacks = s.tsk.delacks := by
  unfold receiveLoop
  have dequeue := dequeue_delacks s (len - rlen)
  dsimp only
  split
  · split
    · exact (receiveReturn_delacks _ _).trans dequeue
    · split
      · exact (receiveReturn_delacks _ _).trans dequeue
      · split
        · exact (receiveReturn_delacks _ _).trans dequeue
        · exact dequeue
  · exact receiveReturn_delacks s _

theorem tcpRead_delacks (len : Nat) : (tcpRead s len).1.tsk.delacks = s.tsk.delacks := by
  refine tcpRead_cases (motive := fun q => q.1.tsk.delacks = s.tsk.delacks) s len ?_ ?_ ?_ ?_
  · exact fun _ => rfl
  · exact fun _ => rfl
  · exact fun _ => rfl
  · exact fun _ _ => receiveLoop_delacks s len 0

theorem retransmitHead_delacks (skb : SkBuff) :
    (retransmitHead s skb).tsk.delacks = s.tsk.delacks := tcpTransmitSkb_delacks s skb _

theorem tcpConnectRto_delacks : (tcpConnectRto s).tsk.delacks = s.tsk.delacks := by
  unfold tcpConnectRto
  dsimp only
  split
  · split
    · exact tcpDone_delacks _
    · split
      · rfl
      · exact (tcpRearmRtoTimer_delacks _).trans (retransmitHead_delacks _ _)
  · rfl

theorem tcpRetransmissionTimeout_delacks :
    (tcpRetransmissionTimeout s).tsk.delacks = s.tsk.delacks := by
  unfold tcpRetransmissionTimeout
  dsimp only
  split
  · unfold tcpNotifyUser
    split <;> rfl
  · rename_i k _
    have again := retransmitHead_delacks (tcpReleaseRtoTimer s) k
    generalize retransmitHead (tcpReleaseRtoTimer s) k = u at again
    split
    · exact (tcpDone_delacks u).trans again
    · split
      · unfold tcpHandleFinState
        split <;> exact again
      · exact again

theorem tcpV4Connect_delacks (addr : SockAddr) (port : UInt16) (iss : UInt32) :
    (tcpV4Connect s addr port iss).tsk.delacks = s.tsk.delacks := by
  unfold tcpV4Connect tcpConnect tcpSendSyn
  dsimp only
  split
  · rfl
  · exact tcpQueueTransmitSkb_delacks _ _

theorem tcpParseOpts_delacks (tsk : TcpSock) (th : TcpHdr) :
    (tcpParseOpts tsk th).delacks = tsk.delacks := by
  unfold tcpParseOpts
  dsimp only
  split <;> rfl

theorem synsentSyn_delacks (th : TcpHdr) : (synsentSyn s th).tsk.delacks = s.tsk.delacks := by
  have acked : (synsentAck s th).tsk.delacks = s.tsk.delacks := by
    unfold synsentAck
    dsimp only
    split
    · exact tcpCleanRtoQueue_delacks _ _
    · rfl
  unfold synsentSyn
  dsimp only
  split
  · unfold synsentEstablish
    dsimp only
    refine (tcpParseOpts_delacks _ _).trans ?_
    rw [tcpRearmUserTimeout_delacks, tcpSendAck_delacks]
    exact acked
  · rw [tcpSendSynack_minor _ (by simp [setState])]
    exact acked

theorem tcpReset_delacks : (tcpReset s).tsk.delacks = s.tsk.delacks := by
  unfold tcpReset
  dsimp only
  split
  · exact tcpDone_delacks _
  · exact tcpDone_delacks _
  · rfl
  · exact tcpDone_delacks _

end Counter

/-! ### What is received -/

/-- The bytes received in order so far, those the reader has taken included. -/
def received (s : Conn) : Nat := s.delivered.length + (payloads s.tsk.receiveQueue).length

/- The text received, if any, has moved `rcv_nxt` on by its length. -/
structure Advance (s t : Conn) : Prop where
  grows : received s ≤ received t
  rcvNxt : t.tsk.tcb.rcvNxt = s.tsk.tcb.rcvNxt + UInt32.ofNat (received t - received s)

theorem Advance.of_eq (same : received t = received s)
    (rcvNxt : t.tsk.tcb.rcvNxt = s.tsk.tcb.rcvNxt) : Advance s t := by
  refine ⟨Nat.le_of_eq same.symm, ?_⟩
  rw [same, Nat.sub_self, rcvNxt]
  exact (UInt32.add_zero _).symm

theorem Advance.trans (first : Advance s t) (second : Advance t u) : Advance s u := by
  have below := first.grows
  have above := second.grows
  refine ⟨Nat.le_trans below above, ?_⟩
  rw [second.rcvNxt, first.rcvNxt, UInt32.add_assoc, ← UInt32.ofNat_add]
  congr 2
  omega

theorem received_reads (reads : Reads s t) : received t = received s := by
  unfold received
  rw [reads.delivered, reads.receiveQueue]

theorem Advance.of_reads (reads : Reads s t) : Advance s t := .of_eq (received_reads reads) reads.rcvNxt

theorem consumeLoop_number (rcvNxt : UInt32) (queue : List SkBuff) :
    (consumeLoop rcvNxt queue).1 =
      rcvNxt + UInt32.ofNat (payloads (consumeLoop rcvNxt queue).2.1).length := by
  induction queue generalizing rcvNxt with
  | nil => exact (UInt32.add_zero _).symm
  | cons k rest ih =>
    rw [consumeLoop]
    split
    · dsimp only
      rw [ih, payloads_cons, List.length_append, UInt32.ofNat_add, UInt32.add_assoc]
      rfl
    · exact (UInt32.add_zero _).symm

theorem tcpConsumeOfoQueue_advance : Advance s (tcpConsumeOfoQueue s) := by
  have count : received (tcpConsumeOfoQueue s) = received s +
      (payloads (consumeLoop s.tsk.tcb.rcvNxt s.tsk.ofoQueue).2.1).length := by
    simp only [received, tcpConsumeOfoQueue, payloads_append, List.length_append, Nat.add_assoc]
  refine ⟨by omega, ?_⟩
  rw [count, Nat.add_sub_cancel_left]
  exact consumeLoop_number s.tsk.tcb.rcvNxt s.tsk.ofoQueue

/- Text in order is received, with what it joins up with. -/
theorem tcpDataQueue_advance (skb : SkBuff) : Advance s (tcpDataQueue s skb).1 ∧
    (skb.seq = s.tsk.tcb.rcvNxt → s.tsk.tcb.rcvWnd ≠ 0 →
      received s + skb.payload.length ≤ received (tcpDataQueue s skb).1) := by
  unfold tcpDataQueue
  split
  · rename_i shut
    exact ⟨.of_reads (freeSkb_reads s skb), fun _ window => absurd shut window⟩
  · split
    · dsimp only
      set queued : Conn := { s with
        tsk.tcb.rcvNxt := s.tsk.tcb.rcvNxt + skb.dlen
        tsk.receiveQueue := skbQueueTail s.tsk.receiveQueue { skb with refcnt := skb.refcnt + 1 } }
      have count : received queued = received s + skb.payload.length := by
        simp only [queued, received, skbQueueTail, payloads_append, payloads_cons, payloads_nil,
          List.length_append, List.append_nil, Nat.add_assoc]
      have first : Advance s queued := by
        refine ⟨by omega, ?_⟩
        rw [count, Nat.add_sub_cancel_left]
        rfl
      have joined : Advance queued (tcpConsumeOfoQueue queued) := tcpConsumeOfoQueue_advance
      have more := joined.grows
      rw [count] at more
      have told : Advance (tcpConsumeOfoQueue queued)
        (recvNotify (pollReadable (tcpConsumeOfoQueue queued))) := .of_eq rfl rfl
      exact ⟨(first.trans joined).trans told, fun _ _ => more⟩
    · rename_i early
      refine ⟨?_, fun here => absurd here early⟩
      have inserted : Advance s { s with tsk.ofoQueue := (tcpDataInsertOrdered s.tsk.ofoQueue skb).1 } :=
        .of_eq rfl rfl
      refine Advance.trans ?_ (.of_reads (tcpSendAck_reads _))
      dsimp only
      split
      · exact inserted.trans (.of_reads (tcpCalculateSacks_reads { s with
          tsk.ofoQueue := (tcpDataInsertOrdered s.tsk.ofoQueue skb).1 }))
      · exact inserted

theorem inputText_advance (th : TcpHdr) (skb : SkBuff) : Advance s (inputText s th skb).1 ∧
    (skb.seq = s.tsk.tcb.rcvNxt → s.tsk.tcb.rcvWnd ≠ 0 → s.tsk.state.phase = .text → 0 < skb.dlen →
      received s + skb.payload.length ≤ received (inputText s th skb).1) := by
  have queued := tcpDataQueue_advance (s := s) skb
  unfold inputText
  split
  iterate 3
    split
    · exact ⟨queued.1, fun here window _ _ => queued.2 here window⟩
    · rename_i bare
      exact ⟨.of_eq rfl rfl, fun _ _ _ some_text => absurd (.inr some_text) bare⟩
  rename_i est fin1 fin2
  refine ⟨.of_eq rfl rfl, fun _ _ text _ => ?_⟩
  rcases TcpState.text_cases (by rw [text]; decide) (by rw [text]; decide) with state | state | state
  · exact absurd state est
  · exact absurd state fin1
  · exact absurd state fin2

/-! ### What the ACKs sent confirm -/

/-- On the way from `s` to `t` an ACK has been sent of all that `t` has received. -/
def Confirms (s t : Conn) : Prop :=
  ∃ seg ∈ t.out.drop s.out.length, seg.th.ack = true ∧ seg.th.ackSeq = t.tsk.tcb.rcvNxt

theorem AckFrame.front (h : AckFrame s t) : s.out <+: t.out := by
  obtain ⟨more, out, -⟩ := h.out
  exact ⟨more, out.symm⟩

theorem Confirms.after (h : Confirms s t) (frame : AckFrame t u) : Confirms s u := by
  obtain ⟨seg, member, ack, number⟩ := h
  obtain ⟨more, out, -⟩ := frame.out
  refine ⟨seg, ?_, ack, number.trans frame.rcvNxt.symm⟩
  rw [out, List.drop_append]
  exact List.mem_append_left _ member

theorem Confirms.before (h : Confirms t u) (frame : s.out <+: t.out) : Confirms s u := by
  obtain ⟨seg, member, ack, number⟩ := h
  exact ⟨seg, List.drop_subset_drop_left _ frame.length_le member, ack, number⟩

theorem tcpSendAck_confirms (opened : s.tsk.state ≠ .close) : Confirms s (tcpSendAck s) := by
  obtain ⟨seg, out, ack, number⟩ := tcpSendAck_out s opened
  refine ⟨seg, ?_, ack, ?_⟩
  · rw [out, List.drop_left]
    exact List.mem_singleton_self seg
  · rw [(tcpSendAck_minor s).same.rcvNxt]
    exact number

theorem sendNextLoop_confirms {amount : Nat} {queue : List SkBuff} {k : SkBuff} (positive : 0 < amount)
    (head : queue.head? = some k) (ack : k.th.ack = true) :
    Confirms s (sendNextLoop s amount queue).1 := by
  obtain ⟨rest, rfl⟩ := List.head?_eq_some_iff.mp head
  obtain ⟨amount, rfl⟩ := Nat.exists_eq_succ_of_ne_zero (Nat.pos_iff_ne_zero.mp positive)
  obtain ⟨seg, out, -, -, number, -, -, flag⟩ := tcpTransmitSkb_out s k s.tsk.tcb.sndNxt
  have first : Confirms s (tcpTransmitSkb s k s.tsk.tcb.sndNxt).1 := by
    refine ⟨seg, ?_, flag.trans ack, ?_⟩
    · rw [out, List.drop_left]
      exact List.mem_singleton_self seg
    · rw [(tcpTransmitSkb_same s k _).rcvNxt]
      exact number
  have numbered : AckFrame (tcpTransmitSkb s k s.tsk.tcb.sndNxt).1
      (numberSkb (tcpTransmitSkb s k s.tsk.tcb.sndNxt).1
        (tcpTransmitSkb s k s.tsk.tcb.sndNxt).2).1 := .of_eq rfl rfl
  exact first.after (numbered.trans (sendNextLoop_acks _ amount rest))

/- The counter after a segment in order that has not been acknowledged at once. -/
def Counted (full : Bool) (s t : Conn) : Prop :=
  (full = false → t.tsk.delacks = s.tsk.delacks) ∧
    (full = true → t.tsk.delacks = s.tsk.delacks + 1 ∧ ¬1 < t.tsk.delacks)

theorem countDelack_acks (large : Bool) : AckFrame s (countDelack s large) := by
  unfold countDelack
  split <;> exact .of_eq rfl rfl

theorem inputDelack_acks (th : TcpHdr) (skb : SkBuff) : AckFrame s (inputDelack s th skb) := by
  unfold inputDelack
  have stopped : AckFrame s (tcpStopDelackTimer s) := .of_eq rfl rfl
  generalize tcpStopDelackTimer s = t at stopped
  dsimp only
  split
  · have sent : AckFrame t { tcpSendNext t (min t.tsk.writeQueue.length 3) with
        tsk.inflight := (tcpSendNext t (min t.tsk.writeQueue.length 3)).tsk.inflight +
          min t.tsk.writeQueue.length 3 } := (tcpSendNext_acks t _).trans (.of_eq rfl rfl)
    exact (stopped.trans sent).trans (tcpRearmRtoTimer_acks _)
  · refine stopped.trans ((countDelack_acks (!th.psh && decide (1000 < skb.dlen))).trans ?_)
    generalize countDelack t (!th.psh && decide (1000 < skb.dlen)) = u
    split
    · exact (AckFrame.of_minor (tcpSendAck_minor _)).after (.of_eq rfl rfl)
    · split
      · exact .of_eq rfl rfl
      · exact .refl u

/- A segment in order is acknowledged by what waits in the queue, at once, or later. -/
theorem inputDelack_counts (th : TcpHdr) (skb : SkBuff) (base : AckBase s)
    (opened : s.tsk.state ≠ .close) : Confirms s (inputDelack s th skb) ∨
      Counted (decide (1000 < skb.dlen)) s (inputDelack s th skb) := by
  have stopped := tcpStopDelackTimer_ackBase base
  have frame : AckFrame s (tcpStopDelackTimer s) := .of_eq rfl rfl
  have count : (tcpStopDelackTimer s).tsk.delacks = s.tsk.delacks := rfl
  have opened : (tcpStopDelackTimer s).tsk.state ≠ .close := opened
  unfold inputDelack
  generalize tcpStopDelackTimer s = t at stopped frame count opened
  dsimp only
  split
  · rename_i idle
    obtain ⟨k, head⟩ : ∃ k, t.tsk.writeQueue.head? = some k := by
      cases queue : t.tsk.writeQueue with
      | nil => simp [queue] at idle
      | cons k rest => exact ⟨k, rfl⟩
    have sent : Confirms t (tcpSendNext t (min t.tsk.writeQueue.length 3)) :=
      sendNextLoop_confirms idle.2 head (stopped.head_acks idle.1 head)
    exact .inl ((sent.before frame.front).after ((tcpRearmRtoTimer_acks _).after (.of_eq rfl rfl)))
  · have counted := countDelack_acks (s := t) (!th.psh && decide (1000 < skb.dlen))
    have state := (countDelack_stays t (!th.psh && decide (1000 < skb.dlen))).state
    have number : (countDelack t (!th.psh && decide (1000 < skb.dlen))).tsk.delacks =
        if !th.psh && decide (1000 < skb.dlen) then s.tsk.delacks + 1 else s.tsk.delacks := by
      rw [← count]
      unfold countDelack
      split <;> rfl
    generalize countDelack t (!th.psh && decide (1000 < skb.dlen)) = u at counted state number
    split
    · have sent : Confirms { u with tsk.delacks := 0 } (tcpSendAck { u with tsk.delacks := 0 }) :=
        tcpSendAck_confirms (state ▸ opened)
      have reset : AckFrame u { u with tsk.delacks := 0 } := .of_eq rfl rfl
      exact .inl (sent.before ((frame.trans counted).trans reset).front)
    · rename_i later
      rw [not_or] at later
      have psh : th.psh = false := by simpa using later.1
      rw [psh, Bool.not_false, Bool.true_and] at number later
      have result : ∀ v : Conn, v.tsk.delacks = u.tsk.delacks →
          Counted (decide (1000 < skb.dlen)) s v := by
        intro v same
        rw [number] at same
        refine ⟨fun small => by rw [same, small]; rfl, fun full => ⟨by rw [same, full]; rfl, ?_⟩⟩
        rw [same, ← number]
        exact fun more => later.2 ⟨full, more⟩
      right
      split
      · exact result (addDelack u) rfl
      · exact result u rfl

/- The FIN is acknowledged at once. -/
theorem inputFin_confirms (opened : s.tsk.state ≠ .close) : Confirms s (inputFin s) ∧
    received (inputFin s) = received s ∧ (inputFin s).tsk.tcb.rcvNxt = s.tsk.tcb.rcvNxt + 1 ∧
    s.out <+: (inputFin s).out := by
  set told : Conn := pollReadable { s with
    tsk.tcb.rcvNxt := s.tsk.tcb.rcvNxt + 1, tsk.flags := s.tsk.flags ||| TCP_FIN } with told_eq
  have sent : Confirms told (tcpSendAck told) := tcpSendAck_confirms opened
  have acks : AckFrame told (recvNotify (tcpSendAck told)) :=
    .of_minor ((tcpSendAck_minor _).trans (recvNotify_minor _))
  have confirms : Confirms s (recvNotify (tcpSendAck told)) :=
    (sent.before (List.prefix_refl _)).after (.of_eq rfl rfl)
  have same : received (recvNotify (tcpSendAck told)) = received s :=
    (received_reads (tcpSendAck_reads told)).trans rfl
  have done : ∀ v, AckFrame (recvNotify (tcpSendAck told)) v →
      received v = received (recvNotify (tcpSendAck told)) →
      Confirms s v ∧ received v = received s ∧ v.tsk.tcb.rcvNxt = s.tsk.tcb.rcvNxt + 1 ∧
        s.out <+: v.out := fun v frame count =>
    ⟨confirms.after frame, count.trans same, frame.rcvNxt.trans acks.rcvNxt,
      (acks.trans frame).front⟩
  unfold inputFin
  dsimp only
  rw [← told_eq]
  generalize recvNotify (tcpSendAck told) = t at done
  have waits : AckFrame t (tcpEnterTimeWait t) := .of_eq rfl rfl
  split
  · exact done _ (.of_eq rfl rfl) rfl
  · exact done _ (.of_eq rfl rfl) rfl
  · split
    · exact done _ waits (received_reads (tcpEnterTimeWait_reads t))
    · exact done _ (.of_eq rfl rfl) rfl
  · exact done _ waits (received_reads (tcpEnterTimeWait_reads t))
  · exact done _ (.refl t) rfl

theorem inputText_out (th : TcpHdr) (skb : SkBuff) : s.out <+: (inputText s th skb).1.out := by
  have queued : s.out <+: (tcpDataQueue s skb).1.out := by
    unfold tcpDataQueue
    split
    · rw [freeSkb_out]
    · split
      · exact List.prefix_refl _
      · refine List.IsPrefix.trans ?_ (AckFrame.of_minor (tcpSendAck_minor _)).front
        dsimp only
        split <;> exact List.prefix_refl _
  unfold inputText
  split
  iterate 3
    split
    · exact queued
    · exact List.prefix_refl _
  exact List.prefix_refl _

/- A segment out of order is acknowledged at once, and not counted. -/
theorem inputTail_early (th : TcpHdr) (skb : SkBuff) (early : skb.seq ≠ s.tsk.tcb.rcvNxt) :
    Advance s (inputTail s th skb) ∧ s.out <+: (inputTail s th skb).out ∧
      (inputTail s th skb).tsk.delacks = s.tsk.delacks := by
  have kept : inputTail s th skb = freeSkb (inputText s th skb).1 (inputText s th skb).2 := by
    unfold inputTail inputExpected inputTextFin
    simp only [early, decide_false, Bool.and_false, Bool.false_eq_true, if_false]
    split <;> rfl
  rw [kept, freeSkb_out, freeSkb_tsk]
  exact ⟨(inputText_advance th skb).1.trans (.of_reads (freeSkb_reads _ _)), inputText_out th skb,
    inputText_delacks s th skb⟩

theorem Counted.before {full : Bool} (h : Counted full t u) (same : t.tsk.delacks = s.tsk.delacks) :
    Counted full s u := by
  unfold Counted at h ⊢
  rw [← same]
  exact h

theorem inputExpected_acks (th : TcpHdr) (skb : SkBuff) (expected : Bool) :
    AckFrame s (inputExpected s th skb expected) := by
  unfold inputExpected
  split
  iterate 3 (split; exact inputDelack_acks th skb; exact .refl s)
  exact .refl s

/- A segment in order while text comes in: it is acknowledged or counted. -/
theorem inputTail_here (th : TcpHdr) (skb : SkBuff) (base : AckBase s)
    (text : s.tsk.state.phase = .text) (here : skb.seq = s.tsk.tcb.rcvNxt) :
    (Confirms s (inputTail s th skb) ∨
      (th.fin = false ∧ Counted (decide (1000 < skb.dlen)) s (inputTail s th skb))) ∧
    received (inputTail s th skb) = received (inputText s th skb).1 ∧
    (inputTail s th skb).tsk.tcb.rcvNxt = s.tsk.tcb.rcvNxt +
      UInt32.ofNat (received (inputTail s th skb) - received s + th.fin.toNat) ∧
    s.out <+: (inputTail s th skb).out := by
  have queued := (inputText_advance (s := s) th skb).1
  have more := queued.grows
  have textBase := inputText_ackBase th skb base
  have front := inputText_out (s := s) th skb
  have count := inputText_delacks s th skb
  have state := (inputText_stays s th skb).state
  have opened : (inputText s th skb).1.tsk.state ≠ .close := by
    rw [state]
    rintro close
    rw [close] at text
    cases text
  unfold inputTail
  dsimp only
  rw [decide_eq_true here]
  generalize (inputText s th skb).1 = u at queued more textBase front count state opened
  generalize (inputText s th skb).2 = kept
  cases fin : th.fin with
  | true =>
    obtain ⟨confirms, same, number, sent⟩ := inputFin_confirms opened
    rw [show inputTextFin u th true = inputFin u by simp [inputTextFin, fin]]
    have acks := (inputExpected_acks (s := inputFin u) th skb true).trans
      (.of_minor (freeSkb_minor _ kept))
    have reads := (inputExpected_reads (inputFin u) th skb true).trans (freeSkb_reads _ kept)
    generalize freeSkb (inputExpected (inputFin u) th skb true) kept = v at acks reads
    have total : received v = received u := (received_reads reads).trans same
    refine ⟨.inl ((confirms.before front).after acks), total, ?_, front.trans (sent.trans acks.front)⟩
    rw [acks.rcvNxt, number, queued.rcvNxt, total, UInt32.ofNat_add, UInt32.add_assoc]
    rfl
  | false =>
    rw [show inputTextFin u th true = u by simp [inputTextFin, fin],
      show inputExpected u th skb true = inputDelack u th skb by
        unfold inputExpected
        rw [state]
        rcases TcpState.text_cases (by rw [text]; decide) (by rw [text]; decide) with h | h | h
        all_goals simp only [h, if_true]]
    have acks := inputDelack_acks (s := u) th skb
    have freed := AckFrame.of_minor (freeSkb_minor (inputDelack u th skb) kept)
    have reads := (inputDelack_reads u th skb).trans (freeSkb_reads _ kept)
    have advance := queued.trans (.of_reads reads)
    refine ⟨?_, received_reads reads, ?_, front.trans (acks.trans freed).front⟩
    · rcases inputDelack_counts th skb textBase opened with confirms | counted
      · exact .inl ((confirms.before front).after freed)
      · right
        refine ⟨rfl, Counted.before (t := u) ?_ count⟩
        unfold Counted
        rw [freeSkb_tsk]
        exact counted
    · rw [Bool.toNat_false, Nat.add_zero]
      exact advance.rcvNxt

/-! ### From one segment to the next -/

/- What a full-sized segment in order leaves behind: where it ends, how much had been received up to
   there, and how many segments had been sent before it arrived. -/
structure Mark where
  stop : UInt32
  got : Nat
  sent : Nat

def Mark.of (s : Conn) (skb : SkBuff) : Mark :=
  { stop := skb.seq + skb.dlen, got := received s + skb.payload.length, sent := s.out.length }

/-- An ACK sent since the segment arrived is at its end, or beyond by at most `more`. -/
def Acknowledged (m : Mark) (s : Conn) (more : Nat) : Prop :=
  ∃ seg ∈ s.out.drop m.sent, seg.th.ack = true ∧
    ∃ n ≤ more, seg.th.ackSeq = m.stop + UInt32.ofNat n

/- While text comes in, the segment has been acknowledged or is counted. -/
structure Remembers (m : Mark) (s : Conn) : Prop where
  got : m.got ≤ received s
  rcvNxt : s.tsk.tcb.rcvNxt = m.stop + UInt32.ofNat (received s - m.got)
  sent : m.sent ≤ s.out.length
  kept : Acknowledged m s (received s - m.got) ∨ 0 < s.tsk.delacks

variable {m : Mark}

theorem Acknowledged.later {a b : Nat} (h : Acknowledged m s a) (out : s.out <+: t.out) (le : a ≤ b) :
    Acknowledged m t b := by
  obtain ⟨seg, member, ack, n, bound, number⟩ := h
  obtain ⟨more, eq⟩ := out
  refine ⟨seg, ?_, ack, n, Nat.le_trans bound le, number⟩
  rw [← eq, List.drop_append]
  exact List.mem_append_left _ member

theorem Confirms.answers {n : Nat} (h : Confirms s t) (sent : m.sent ≤ s.out.length)
    (number : t.tsk.tcb.rcvNxt = m.stop + UInt32.ofNat n) : Acknowledged m t n := by
  obtain ⟨seg, member, ack, all⟩ := h
  exact ⟨seg, List.drop_subset_drop_left _ sent member, ack, n, Nat.le_refl n, all.trans number⟩

namespace Remembers

/- What moves `rcv_nxt` by what is received moves it as far beyond the segment. -/
theorem beyond {n : Nat} (h : Remembers m s) (grows : received s ≤ received t)
    (rcvNxt : t.tsk.tcb.rcvNxt = s.tsk.tcb.rcvNxt + UInt32.ofNat (received t - received s + n)) :
    t.tsk.tcb.rcvNxt = m.stop + UInt32.ofNat (received t - m.got + n) := by
  have got := h.got
  rw [rcvNxt, h.rcvNxt, UInt32.add_assoc, ← UInt32.ofNat_add]
  congr 2
  omega

theorem next (h : Remembers m s) (advance : Advance s t) (out : s.out <+: t.out)
    (waits : Confirms s t ∨ t.tsk.delacks = s.tsk.delacks ∨ 0 < t.tsk.delacks) : Remembers m t := by
  have got := h.got
  have grows := advance.grows
  have number := h.beyond (n := 0) grows (by rw [Nat.add_zero]; exact advance.rcvNxt)
  rw [Nat.add_zero] at number
  refine ⟨by omega, number, Nat.le_trans h.sent out.length_le, ?_⟩
  rcases waits with confirms | same | counted
  · exact .inl (confirms.answers h.sent number)
  · rw [same]
    exact h.kept.imp_left fun answered => answered.later out (by omega)
  · exact .inr counted

end Remembers

theorem Advance.marks {skb : SkBuff} (advance : Advance s t) (here : skb.seq = s.tsk.tcb.rcvNxt)
    (taken : received s + skb.payload.length ≤ received t) (out : s.out <+: t.out)
    (waits : Confirms s t ∨ 0 < t.tsk.delacks) : Remembers (Mark.of s skb) t := by
  have number : t.tsk.tcb.rcvNxt = (Mark.of s skb).stop +
      UInt32.ofNat (received t - (Mark.of s skb).got) := by
    show _ = skb.seq + UInt32.ofNat skb.payload.length +
      UInt32.ofNat (received t - (received s + skb.payload.length))
    rw [advance.rcvNxt, here, UInt32.add_assoc, ← UInt32.ofNat_add]
    congr 2
    omega
  exact ⟨taken, number, out.length_le, waits.imp_left fun confirms =>
    confirms.answers (Nat.le_refl _) number⟩

theorem Counted.first (counted : Counted true s t) (small : s.tsk.delacks ≤ 1) :
    0 < t.tsk.delacks := by
  rw [(counted.2 rfl).1, UInt8.lt_iff_toNat_lt, UInt8.toNat_add]
  have := UInt8.le_iff_toNat_le.mp small
  simp only [UInt8.reduceToNat] at this ⊢
  omega

theorem Counted.positive {full : Bool} (counted : Counted full s t) (small : s.tsk.delacks ≤ 1) :
    t.tsk.delacks = s.tsk.delacks ∨ 0 < t.tsk.delacks := by
  cases full with
  | false => exact .inl (counted.1 rfl)
  | true => exact .inr (counted.first small)

/- A second full-sized segment does not only count. -/
theorem Counted.second (counted : Counted true s t) (small : s.tsk.delacks ≤ 1)
    (first : 0 < s.tsk.delacks) : False := by
  obtain ⟨number, bound⟩ := counted.2 rfl
  rw [number] at bound
  have one : s.tsk.delacks = 1 := by
    rw [UInt8.lt_iff_toNat_lt] at first
    rw [UInt8.le_iff_toNat_le] at small
    apply UInt8.toNat_inj.mp
    simp only [UInt8.reduceToNat] at first small ⊢
    omega
  rw [one] at bound
  exact bound (by decide)

/-! ### The bound of the counter -/

theorem inputDelack_small (th : TcpHdr) (skb : SkBuff) (small : s.tsk.delacks ≤ 1) :
    (inputDelack s th skb).tsk.delacks ≤ 1 := by
  have stopped : (tcpStopDelackTimer s).tsk.delacks ≤ 1 := small
  unfold inputDelack
  generalize tcpStopDelackTimer s = t at stopped
  dsimp only
  split
  · rw [tcpRearmRtoTimer_delacks]
    exact (sendNextLoop_delacks t _ t.tsk.writeQueue).symm ▸ stopped
  · split
    · rw [tcpSendAck_delacks]
      exact show (0 : UInt8) ≤ 1 by decide
    · rename_i later
      rw [not_or] at later
      have counted : (countDelack t (!th.psh && decide (1000 < skb.dlen))).tsk.delacks ≤ 1 := by
        have bound := later.2
        generalize (!th.psh && decide (1000 < skb.dlen)) = large at bound
        cases large with
        | false => exact stopped
        | true => exact UInt8.not_lt.mp fun more => bound ⟨rfl, more⟩
      split
      · exact counted
      · exact counted

theorem inputTail_small (th : TcpHdr) (skb : SkBuff) (small : s.tsk.delacks ≤ 1) :
    (inputTail s th skb).tsk.delacks ≤ 1 := by
  rw [← inputText_delacks s th skb] at small
  unfold inputTail
  dsimp only
  rw [freeSkb_tsk]
  generalize (inputText s th skb).1 = t at small
  have finished : (inputTextFin t th (decide (skb.seq = s.tsk.tcb.rcvNxt))).tsk.delacks ≤ 1 := by
    unfold inputTextFin
    split
    · rw [inputFin_delacks]
      exact small
    · exact small
  unfold inputExpected
  split
  iterate 3
    split
    · exact inputDelack_small th skb finished
    · exact finished
  exact finished

theorem tcpInputState_small (th : TcpHdr) (skb : SkBuff) (small : s.tsk.delacks ≤ 1) :
    (tcpInputState s th skb).tsk.delacks ≤ 1 := by
  have freed : ∀ u : Conn, u.tsk.delacks = s.tsk.delacks → (freeSkb u skb).tsk.delacks ≤ 1 := by
    intro u same
    rw [freeSkb_tsk, same]
    exact small
  unfold tcpInputState
  split
  · unfold tcpClosed
    split
    · exact freed s rfl
    · exact freed _ (tcpSendReset_delacks s)
  · exact freed s rfl
  · exact tcpSynsent_cases (P := fun u => u.tsk.delacks ≤ 1) (freed s rfl)
      (fun _ _ => freed _ (tcpReset_delacks s)) (fun _ => freed _ (synsentSyn_delacks s th))
  · refine inputOtherwise_cases (motive := fun u => u.tsk.delacks ≤ 1) s th skb ?_ ?_ ?_ ?_ ?_ ?_
    · intro _
      refine freed _ ?_
      split
      · rfl
      · exact tcpSendAck_delacks s
    · exact fun _ _ => freed s rfl
    · exact fun _ _ _ => freed s rfl
    · exact fun _ _ _ _ _ => freed _ (inputAck_delacks s th)
    · intro _ _ _ _ _ _ _
      rw [tcpDone_delacks]
      exact freed _ (inputAck_delacks s th)
    · intro _ _ _ _ _ _
      refine inputTail_small th skb ?_
      rw [inputFinAcked_delacks, inputAck_delacks]
      exact small

theorem exec_small {e : Event} {r : Reply} (small : s.tsk.delacks ≤ 1)
    (taken : exec s e = some (t, r)) : t.tsk.delacks ≤ 1 := by
  have same : ∀ u v : Conn, v.tsk.delacks = u.tsk.delacks → u.tsk.delacks ≤ 1 → v.tsk.delacks ≤ 1 :=
    fun u v eq small => by rw [eq]; exact small
  refine exec_pass (P := fun u => u.tsk.delacks ≤ 1) ?_ small taken ?_ ?_ ?_ ?_ ?_ ?_ ?_ ?_ ?_ ?_
  · exact fun u v idle => same u v (congrArg (·.tsk.delacks) idle)
  · intro _ u small
    obtain ⟨_, eq⟩ := socketFree_eq u
    rw [eq]
    exact small
  · exact fun _ _ => small
  · intro i h _ _ _
    cases h.handler with
    | tcpConnectRto =>
      exact same (socketWrAcquire (started s i)) _ (tcpConnectRto_delacks _) small
    | tcpRetransmissionTimeout =>
      exact same (socketWrAcquire (started s i)) _ (tcpRetransmissionTimeout_delacks _) small
    | tcpSendDelack =>
      refine same { socketWrAcquire (started s i) with tsk.delacks := 0 } _ ?_
        (show (0 : UInt8) ≤ 1 by decide)
      exact tcpSendAck_delacks _
    | tcpLinger => exact same (socketWrAcquire (started s i)) _ (tcpDone_delacks _) small
    | tcpUserTimeout =>
      exact same (socketWrAcquire (started s i)) _
        ((tcpDone_delacks _).trans (tcpSendReset_delacks _)) small
    | socketGarbageCollect =>
      unfold runHandler socketGarbageCollect
      dsimp only
      split
      · obtain ⟨_, eq⟩ := socketFree_eq (started s i)
        rw [eq]
        exact small
      · exact small
  · exact fun buf _ _ => same _ _ (tcpWrite_delacks _ buf)
  · exact fun len _ _ => same _ _ (tcpRead_delacks _ len)
  · exact fun i b _ _ _ => same _ _ (receiveLoop_delacks _ b.len b.rlen)
  · exact fun _ _ => same _ _ (tcpClose_delacks _)
  · exact fun _ _ => same s _ ((tcpDone_delacks _).trans (tcpSendReset_delacks _)) small
  · exact fun addr port iss _ _ _ => same _ _ (tcpV4Connect_delacks _ addr port iss)
  · exact fun th payload _ _ small => tcpInputState_small th _ small

/-! ### What an event remembers -/

/- No more text comes in, or the segment is remembered. -/
def Recalls (m : Mark) (s : Conn) : Prop :=
  s.tsk.state.phase = .finished ∨ (s.tsk.state.phase = .text ∧ Remembers m s)

/-- As long as the socket is there. -/
def Keeps (m : Mark) (s : Conn) : Prop := s.sock.registered = true → Recalls m s

/- What the functions do that neither receive nor acknowledge by themselves. -/
structure Quiet (s t : Conn) : Prop where
  reads : Reads s t
  acks : AckFrame s t
  delacks : t.tsk.delacks = s.tsk.delacks

theorem Quiet.trans (first : Quiet s t) (second : Quiet t u) : Quiet s u :=
  ⟨first.reads.trans second.reads, first.acks.trans second.acks, second.delacks.trans first.delacks⟩

theorem Quiet.of_eq (view : readView t = readView s) (ofo : t.tsk.ofoQueue = s.tsk.ofoQueue)
    (poll : t.tsk.pollEvents = s.tsk.pollEvents) (state : t.tsk.state = s.tsk.state)
    (out : t.out = s.out) (delacks : t.tsk.delacks = s.tsk.delacks) : Quiet s t :=
  have reads : Reads s t := .of_eq view ofo poll state
  ⟨reads, .of_eq reads.rcvNxt out, delacks⟩

theorem freeSkb_quiet (s : Conn) (skb : SkBuff) : Quiet s (freeSkb s skb) :=
  ⟨freeSkb_reads s skb, .of_minor (freeSkb_minor s skb), congrArg TcpSock.delacks (freeSkb_tsk s skb)⟩

theorem Remembers.quiet (h : Remembers m s) (quiet : Quiet s t) : Remembers m t :=
  h.next (.of_reads quiet.reads) quiet.acks.front (.inr (.inl quiet.delacks))

/- Aside or not, a state that finishes or takes text goes on to one. -/
theorem Keeps.moves (keeps : Keeps m s) (reads : Reads s t)
    (text : s.tsk.state.phase = .text → Remembers m s → Remembers m t) : Keeps m t := by
  intro registered
  rw [reads.registered] at registered
  unfold Recalls
  rcases reads.moves.phase with same | aside
  · rw [same]
    exact (keeps registered).imp_right fun h => ⟨h.1, text h.1 h.2⟩
  · exact .inl (TcpState.aside_finished aside).1

theorem Keeps.quiet (keeps : Keeps m s) (quiet : Quiet s t) : Keeps m t :=
  keeps.moves quiet.reads fun _ h => h.quiet quiet

theorem Keeps.idle (keeps : Keeps m s) (idle : Idle s t) : Keeps m t := by
  have registered : t.sock.registered = s.sock.registered := congrArg (·.sock.registered) idle
  have state : t.tsk.state = s.tsk.state := congrArg (·.tsk.state) idle
  have out : t.out = s.out := congrArg (·.out) idle
  have same : received (inner t) = received (inner s) := congrArg received idle
  have advance : Advance s t := .of_eq same (congrArg (·.tsk.tcb.rcvNxt) idle)
  intro there
  unfold Recalls
  rw [state]
  refine (keeps (registered.symm.trans there)).imp_right fun h => ⟨h.1, h.2.next advance ?_ ?_⟩
  · rw [out]
  · exact .inr (.inl (congrArg (·.tsk.delacks) idle))

/-! Handlers and reads -/

theorem tcpConnectRto_acks (s : Conn) : AckFrame s (tcpConnectRto s) := by
  unfold tcpConnectRto
  dsimp only
  split
  · split
    · exact (tcpDone_acks _).after (.of_eq rfl rfl)
    · split
      · exact .of_eq rfl rfl
      · rename_i k _
        have again : AckFrame s (retransmitHead (tcpReleaseRtoTimer s) k) :=
          (retransmitHead_acks _ k).after (.of_eq rfl rfl)
        generalize retransmitHead (tcpReleaseRtoTimer s) k = u at again
        exact (tcpRearmRtoTimer_acks _).after (again.trans (.of_eq rfl rfl))
  · exact .of_eq rfl rfl

theorem tcpRetransmissionTimeout_acks (s : Conn) : AckFrame s (tcpRetransmissionTimeout s) := by
  unfold tcpRetransmissionTimeout
  dsimp only
  split
  · exact (AckFrame.of_minor (tcpNotifyUser_minor _)).after (.of_eq rfl rfl)
  · rename_i k _
    have again : AckFrame s (retransmitHead (tcpReleaseRtoTimer s) k) :=
      (retransmitHead_acks _ k).after (.of_eq rfl rfl)
    generalize retransmitHead (tcpReleaseRtoTimer s) k = u at again
    have backed : AckFrame s (retransmissionBackoff u) := again.trans (.of_eq rfl rfl)
    split
    · exact (again.trans (tcpDone_acks u)).trans (.of_eq rfl rfl)
    · split
      · exact backed.trans tcpHandleFinState_acks
      · exact backed

theorem tcpClose_acks (s : Conn) : AckFrame s (tcpClose s).1 := by
  unfold tcpClose
  split
  iterate 6 exact .of_eq rfl rfl
  iterate 3 exact tcpDone_acks s
  · exact (tcpQueueFin_acks _).after (.of_eq rfl rfl)
  · exact tcpQueueFin_acks s

theorem tcpAbort_quiet (s : Conn) : Quiet s (tcpAbort s) :=
  ⟨tcpAbort_reads s, (tcpSendReset_acks s).trans (tcpDone_acks _),
    (tcpDone_delacks _).trans (tcpSendReset_delacks s)⟩

/- The handler of the delayed ACK resets the counter, and acknowledges. -/
theorem tcpSendDelack_keeps (keeps : Keeps m s) : Keeps m (tcpSendDelack s) := by
  have reads := tcpSendDelack_reads s
  refine keeps.moves reads fun text h => ?_
  have opened : s.tsk.state ≠ .close := by
    rintro close
    rw [close] at text
    cases text
  have released : AckFrame s (tcpReleaseDelackTimer { s with tsk.delacks := 0 }) := .of_eq rfl rfl
  have sent : Confirms (tcpReleaseDelackTimer { s with tsk.delacks := 0 }) (tcpSendDelack s) :=
    tcpSendAck_confirms opened
  have acks : AckFrame s (tcpSendDelack s) := released.trans (.of_minor (tcpSendAck_minor _))
  exact h.next (.of_reads reads) acks.front (.inl (sent.before released.front))

theorem runHandler_keeps (h : Handler) (keeps : Keeps m s) (other : h ≠ .socketGarbageCollect) :
    Keeps m (runHandler s h) := by
  have locked : Keeps m (socketWrAcquire s) := keeps.quiet (.of_eq rfl rfl rfl rfl rfl rfl)
  have unlock : ∀ u, Keeps m u → Keeps m (socketRelease u) := fun u keeps =>
    keeps.quiet (.of_eq rfl rfl rfl rfl rfl rfl)
  have stopped : Quiet (socketWrAcquire s) (stopLinger (socketWrAcquire s)) :=
    .of_eq rfl rfl rfl rfl rfl rfl
  cases h with
  | tcpConnectRto =>
    exact unlock _ (locked.quiet ⟨tcpConnectRto_reads _, tcpConnectRto_acks _, tcpConnectRto_delacks _⟩)
  | tcpRetransmissionTimeout =>
    exact unlock _ (locked.quiet ⟨tcpRetransmissionTimeout_reads _, tcpRetransmissionTimeout_acks _,
      tcpRetransmissionTimeout_delacks _⟩)
  | tcpSendDelack => exact unlock _ (tcpSendDelack_keeps locked)
  | tcpLinger =>
    exact unlock _ ((locked.quiet stopped).quiet ⟨tcpDone_reads _, tcpDone_acks _, tcpDone_delacks _⟩)
  | tcpUserTimeout => exact unlock _ ((locked.quiet stopped).quiet (tcpAbort_quiet _))
  | socketGarbageCollect => contradiction

/- A read moves bytes from the queue to the reader. -/
theorem receiveLoop_keeps (len rlen : Nat) (keeps : Keeps m s) :
    Keeps m (receiveLoop s len rlen).1 := by
  intro registered
  rw [receiveLoop_registered] at registered
  unfold Recalls
  rw [(receiveLoop_stays s len rlen).state]
  have acks := receiveLoop_acks s len rlen
  have same : received (receiveLoop s len rlen).1 = received s := by
    by_cases room : rlen < len
    · obtain ⟨d, bytes, dequeued, -, reads⟩ := receiveLoop_spec s len rlen room
      obtain ⟨freed, rest⟩ := dequeued.rest
      refine (received_reads reads).trans ?_
      show d.delivered.length + (payloads d.tsk.receiveQueue).length = _
      unfold received
      rw [← dequeued.order, List.length_append, show d.delivered = s.delivered ++ bytes by rw [rest],
        List.length_append, Nat.add_assoc]
    · rw [receiveLoop_full s len rlen room]
      exact received_reads (receiveReturn_reads s _)
  refine (keeps registered).imp_right fun h => ⟨h.1, h.2.next (.of_eq same acks.rcvNxt) acks.front ?_⟩
  exact .inr (.inl (receiveLoop_delacks s len rlen))

/-! Segments -/

theorem inputTail_state (th : TcpHdr) (skb : SkBuff) (text : s.tsk.state.phase = .text) :
    (inputTail s th skb).tsk.state.phase = .finished ∨
      ((inputTail s th skb).tsk.state.phase = .text ∧
        (skb.seq = s.tsk.tcb.rcvNxt → th.fin = false)) := by
  rw [(inputTail_moves s th skb).1]
  split
  · exact .inl (TcpState.afterFin_finished _ (by rw [text]; decide))
  · rename_i goes_on
    refine .inr ⟨text, fun here => ?_⟩
    simpa [here] using goes_on

theorem inputTail_recalls (th : TcpHdr) (skb : SkBuff) (base : AckBase s) (small : s.tsk.delacks ≤ 1)
    (text : s.tsk.state.phase = .text) (h : Remembers m s) : Recalls m (inputTail s th skb) := by
  refine (inputTail_state th skb text).imp_right fun ⟨still, open_⟩ => ⟨still, ?_⟩
  by_cases here : skb.seq = s.tsk.tcb.rcvNxt
  · obtain ⟨answer, total, number, out⟩ := inputTail_here th skb base text here
    have grows : received s ≤ received (inputTail s th skb) :=
      total ▸ (inputText_advance th skb).1.grows
    rw [open_ here, Bool.toNat_false, Nat.add_zero] at number
    refine h.next ⟨grows, number⟩ out (answer.imp_right fun counted => ?_)
    exact counted.2.positive small
  · obtain ⟨advance, out, same⟩ := inputTail_early th skb here
    exact h.next advance out (.inr (.inl same))

/- The second full-sized segment in order is acknowledged, and with it the first. -/
theorem inputTail_acknowledges (th : TcpHdr) (skb : SkBuff) (base : AckBase s)
    (small : s.tsk.delacks ≤ 1) (text : s.tsk.state.phase = .text) (h : Remembers m s)
    (here : skb.seq = s.tsk.tcb.rcvNxt) (full : 1000 < skb.dlen) :
    Acknowledged m (inputTail s th skb)
      (received (inputTail s th skb) - m.got + th.fin.toNat) := by
  obtain ⟨answer, total, number, out⟩ := inputTail_here th skb base text here
  have grows : received s ≤ received (inputTail s th skb) :=
    total ▸ (inputText_advance th skb).1.grows
  have got := h.got
  rcases answer with confirms | ⟨-, counted⟩
  · exact confirms.answers h.sent (h.beyond grows number)
  · rw [decide_eq_true full] at counted
    rcases h.kept with earlier | first
    · exact earlier.later out (by omega)
    · exact (counted.second small first).elim

/- And the first is remembered. -/
theorem inputTail_marks (th : TcpHdr) (skb : SkBuff) (base : AckBase s) (small : s.tsk.delacks ≤ 1)
    (text : s.tsk.state.phase = .text) (here : skb.seq = s.tsk.tcb.rcvNxt) (full : 1000 < skb.dlen)
    (window : s.tsk.tcb.rcvWnd ≠ 0) : Recalls (Mark.of s skb) (inputTail s th skb) := by
  refine (inputTail_state th skb text).imp_right fun ⟨still, open_⟩ => ⟨still, ?_⟩
  obtain ⟨answer, total, number, out⟩ := inputTail_here th skb base text here
  have some_text : 0 < skb.dlen := by
    rw [UInt32.lt_iff_toNat_lt] at full ⊢
    exact Nat.lt_of_le_of_lt (Nat.zero_le _) full
  have taken := (inputText_advance (s := s) th skb).2 here window text some_text
  rw [← total] at taken
  rw [open_ here, Bool.toNat_false, Nat.add_zero] at number
  refine Advance.marks ⟨by omega, number⟩ here taken out (answer.imp_right fun counted => ?_)
  have counted := counted.2
  rw [decide_eq_true full] at counted
  exact counted.first small

theorem inputAck_quiet (th : TcpHdr) (text : s.tsk.state.phase = .text) :
    Quiet s (inputAck s th).1 ∧ (inputAck s th).1.tsk.state = s.tsk.state := by
  have takes : s.tsk.state.takesAck = true := by
    rcases TcpState.text_cases (by rw [text]; decide) (by rw [text]; decide) with h | h | h
    all_goals rw [h]; rfl
  refine ⟨⟨?_, inputAck_acks s th, inputAck_delacks s th⟩, ?_⟩
  · rw [inputAck_takes takes]
    exact inputNewAck_reads s th
  · rw [inputAck_takes takes]
    exact (inputNewAck_stays s th).state

/- The state in which the text is processed. -/
def pastAck (s : Conn) (th : TcpHdr) : Conn := inputFinAcked (inputAck s th).1 th

theorem pastAck_quiet (th : TcpHdr) (text : s.tsk.state.phase = .text) :
    Quiet s (pastAck s th) ∧ (pastAck s th).tsk.state.phase = .text := by
  obtain ⟨quiet, same⟩ := inputAck_quiet th text
  refine ⟨quiet.trans ⟨?_, inputFinAcked_acks _ th, inputFinAcked_delacks _ th⟩, ?_⟩
  · refine inputFinAcked_reads_rule (P := Reads (inputAck s th).1) (fun u v frame reads =>
      reads.trans frame) (.refl _) ?_
    intro gone _
    rw [same] at gone
    rw [gone] at text
    cases text
  · unfold pastAck
    rw [inputFinAcked_phase, same]
    exact text

theorem pastAck_ackBase (th : TcpHdr) (base : AckBase s) : AckBase (pastAck s th) :=
  inputFinAcked_ackBase th (inputAck_ackBase th base)

theorem tcpInputState_recalls (th : TcpHdr) (skb : SkBuff) (base : AckBase s)
    (small : s.tsk.delacks ≤ 1) (recalls : Recalls m s) : Recalls m (tcpInputState s th skb) := by
  rcases recalls with finished | ⟨text, h⟩
  · exact .inl (TcpState.finished_leads finished (tcpInputState_leads s true th skb).state)
  · have still : ∀ u, Quiet s u → u.tsk.state = s.tsk.state → Recalls m u := by
      intro u quiet same
      refine .inr ⟨?_, h.quiet quiet⟩
      rw [same]
      exact text
    have freed : ∀ u, Quiet s u → u.tsk.state = s.tsk.state → Recalls m (freeSkb u skb) := by
      intro u quiet same
      refine still _ (quiet.trans (freeSkb_quiet u skb)) ?_
      rw [freeSkb_tsk]
      exact same
    obtain ⟨past, past_text⟩ := pastAck_quiet th text
    have checked : s.tsk.state.synchronizes = true := by
      rcases TcpState.text_cases (by rw [text]; decide) (by rw [text]; decide) with h | h | h
      all_goals rw [h]; rfl
    rw [tcpInputState_otherwise checked]
    refine inputOtherwise_cases s th skb ?_ ?_ ?_ ?_ ?_ ?_
    · intro _
      split
      · exact freed s ⟨.refl s, .refl s, rfl⟩ rfl
      · exact freed _ ⟨tcpSendAck_reads s, .of_minor (tcpSendAck_minor s), tcpSendAck_delacks s⟩
          (tcpSendAck_minor s).same.state
    · exact fun _ _ => .inl rfl
    · exact fun _ _ _ => freed s ⟨.refl s, .refl s, rfl⟩ rfl
    · obtain ⟨quiet, same⟩ := inputAck_quiet th text
      exact fun _ _ _ _ _ => freed _ quiet same
    · intro _ _ _ _ _ _ _
      left
      rw [tcpDone_state]
      rfl
    · intro _ _ _ _ _ _
      have counted : (pastAck s th).tsk.delacks ≤ 1 := by
        rw [past.delacks]
        exact small
      exact inputTail_recalls th skb (pastAck_ackBase th base) counted past_text (h.quiet past)

/-! Runs -/

theorem exec_keeps {e : Event} {r : Reply} (base : AckBase s) (small : s.tsk.delacks ≤ 1)
    (keeps : Keeps m s) (taken : exec s e = some (t, r)) : Keeps m t := by
  have free : ∀ u, Keeps m (socketFree u) := by
    intro u registered
    rw [socketFree_registered] at registered
    cases registered
  refine exec_pass (P := Keeps m) (fun u v idle keeps => keeps.idle idle) keeps taken
    (fun _ u _ => free u) ?_ ?_ ?_ ?_ ?_ ?_ ?_ ?_ ?_
  · exact fun busy _ => keeps.quiet (.of_eq rfl rfl rfl rfl rfl rfl)
  · intro i h _ _ _
    have ready : Keeps m (started s i) := keeps.quiet (.of_eq rfl rfl rfl rfl rfl rfl)
    by_cases gc : h.handler = .socketGarbageCollect
    · rw [gc, show runHandler (started s i) .socketGarbageCollect =
        socketGarbageCollect (started s i) from rfl]
      unfold socketGarbageCollect
      split
      · exact free _
      · exact ready
    · exact runHandler_keeps h.handler ready gc
  · exact fun buf _ _ keeps => keeps.quiet ⟨tcpWrite_reads _ buf, tcpWrite_acks _ buf,
      tcpWrite_delacks _ buf⟩
  · intro len _ _ keeps
    refine tcpRead_cases (motive := fun q => Keeps m q.1) (socketWrAcquire s) len (fun _ => keeps)
      (fun _ => keeps) (fun ending => ?_) fun _ _ => receiveLoop_keeps len 0 keeps
    refine fun registered => .inl ?_
    show s.tsk.state.phase = .finished
    rw [show s.tsk.state = .closeWait from ending.1]
    rfl
  · exact fun i b _ _ _ keeps => receiveLoop_keeps b.len b.rlen keeps
  · exact fun _ _ keeps => keeps.quiet ⟨tcpClose_reads _, tcpClose_acks _, tcpClose_delacks _⟩
  · exact fun _ _ => keeps.quiet (tcpAbort_quiet s)
  · intro addr port iss _ there closed _
    rcases keeps there with finished | ⟨text, -⟩
    · rw [closed] at finished
      cases finished
    · rw [closed] at text
      cases text
  · intro th payload _ there keeps registered
    exact tcpInputState_recalls th _ (base.eq rfl rfl rfl rfl rfl rfl) small (keeps there)

/-- While text comes in, a segment of more than 1000 bytes arrives in order and its buffer goes to the
    receive queue. -/
def TakesFull (s : Conn) (th : TcpHdr) (payload : List UInt8) (t : Conn) : Prop :=
  s.tsk.state.phase = .text ∧ 1000 < (tcpInitSegment s th payload).2.dlen ∧
    th.seq = s.tsk.tcb.rcvNxt ∧ s.tsk.receiveQueue.length < t.tsk.receiveQueue.length

instance (s : Conn) (th : TcpHdr) (payload : List UInt8) (t : Conn) :
    Decidable (TakesFull s th payload t) := inferInstanceAs (Decidable (_ ∧ _))

/- With the window shut nothing goes to the receive queue. -/
theorem inputTail_shut (th : TcpHdr) (skb : SkBuff) (shut : s.tsk.tcb.rcvWnd = 0) :
    (inputTail s th skb).tsk.receiveQueue = s.tsk.receiveQueue := by
  refine inputTail_reads_rule (P := fun u => u.tsk.receiveQueue = s.tsk.receiveQueue) ?_ rfl ?_ ?_
  · exact fun u v reads same => reads.receiveQueue.trans same
  · intro _ _
    unfold tcpDataQueue
    rw [if_pos shut]
    exact (freeSkb_reads s skb).receiveQueue
  · intro u _ _ _ same
    rw [inputFin_queue]
    exact same

/- Such a segment passes all checks, and the window is open. -/
theorem TakesFull.input {th : TcpHdr} {payload : List UInt8} {r : Reply}
    (full : TakesFull s th payload t) (taken : exec s (.segment th payload) = some (t, r)) :
    s.sock.registered = true ∧ (pastAck (arriving s th payload) th).tsk.tcb.rcvWnd ≠ 0 ∧
      t = socketRelease (inputTail (pastAck (arriving s th payload) th) th
        (tcpInitSegment s th payload).2) := by
  obtain ⟨text, -, -, grew⟩ := full
  obtain ⟨registered, -, -, eq⟩ := exec_segment_taken taken
  set a := arriving s th payload
  set skb := (tcpInitSegment s th payload).2
  have a_text : a.tsk.state.phase = .text := text
  have checked : a.tsk.state.synchronizes = true := by
    rcases TcpState.text_cases (by rw [a_text]; decide) (by rw [a_text]; decide) with h | h | h
    all_goals rw [h]; rfl
  have step : t = socketRelease (inputOtherwise a th skb) := by
    rw [eq, ← tcpInputState_otherwise checked]
    rfl
  have grew : ¬(inputOtherwise a th skb).tsk.receiveQueue = a.tsk.receiveQueue := by
    intro same
    rw [step, show (socketRelease (inputOtherwise a th skb)).tsk.receiveQueue =
      (inputOtherwise a th skb).tsk.receiveQueue from rfl, same] at grew
    exact Nat.lt_irrefl _ grew
  have passes : Passes a th skb := by
    refine (?_ : (inputOtherwise a th skb).tsk.receiveQueue = a.tsk.receiveQueue ∨
      Passes a th skb).resolve_left grew
    refine inputOtherwise_reads_rule (P := fun u => u.tsk.receiveQueue = a.tsk.receiveQueue ∨
      Passes a th skb) ?_ checked (.inl rfl) (fun _ => .inl rfl) ?_ ?_ ?_ ?_
    · exact fun u v reads h => h.imp_left reads.receiveQueue.trans
    · exact fun _ _ u _ _ h => h
    · exact fun u _ h => h
    · exact fun u _ passes _ _ => .inr passes
    · exact fun u _ passes _ _ _ => .inr passes
  rw [passes.input] at step grew
  refine ⟨registered, fun shut => grew ?_, step⟩
  exact (inputTail_shut th skb shut).trans (pastAck_quiet th a_text).1.reads.receiveQueue

/-- Whatever comes between two full-sized segments taken in order, by the time the second has been
    processed an ACK at the end of the first, or beyond by no more than has been received since, has
    been sent. -/
theorem second_segment_acknowledged {before between : List (Event × Reply)} {s t u v : Conn}
    {th th' : TcpHdr} {payload payload' : List UInt8} {r r' : Reply}
    (reached : Run exec (fun _ _ _ => True) {} before s)
    (first : exec s (.segment th payload) = some (t, r)) (full : TakesFull s th payload t)
    (run : Run exec (fun _ _ _ => True) t between u)
    (second : exec u (.segment th' payload') = some (v, r')) (full' : TakesFull u th' payload' v) :
    ∃ seg ∈ v.out.drop s.out.length, seg.th.ack = true ∧
      ∃ n ≤ received v - (received s + payload.length) + th'.fin.toNat,
        seg.th.ackSeq = th.seq + (tcpInitSegment s th payload).2.dlen + UInt32.ofNat n := by
  obtain ⟨base, small⟩ : AckBase s ∧ s.tsk.delacks ≤ 1 := by
    refine reached.invariant_state (P := fun s => AckBase s ∧ s.tsk.delacks ≤ 1)
      ⟨.start, show (0 : UInt8) ≤ 1 by decide⟩ ?_
    exact fun _ _ _ _ _ inv _ taken => ⟨exec_ackBase inv.1 taken, exec_small inv.2 taken⟩
  -- the first is remembered
  obtain ⟨-, window, first_eq⟩ := full.input first
  obtain ⟨text, large, here, -⟩ := full
  obtain ⟨quiet, past_text⟩ := pastAck_quiet (s := arriving s th payload) th text
  set m := Mark.of (pastAck (arriving s th payload) th) (tcpInitSegment s th payload).2 with m_eq
  have same : received (pastAck (arriving s th payload) th) = received (arriving s th payload) :=
    received_reads quiet.reads
  have got : m.got = received s + payload.length := congrArg (· + payload.length) same
  have marked : Keeps m t := by
    have arrived : AckBase (arriving s th payload) := base.eq rfl rfl rfl rfl rfl rfl
    have recalls := inputTail_marks th (tcpInitSegment s th payload).2 (pastAck_ackBase th arrived)
      (by rw [quiet.delacks]; exact small) past_text
      (by rw [quiet.reads.rcvNxt]; exact here) large window
    rw [first_eq]
    exact Keeps.quiet (fun _ => recalls) (.of_eq rfl rfl rfl rfl rfl rfl)
  -- up to the second
  obtain ⟨base', small', keeps⟩ : AckBase u ∧ u.tsk.delacks ≤ 1 ∧ Keeps m u := by
    refine run.invariant_state (P := fun u => AckBase u ∧ u.tsk.delacks ≤ 1 ∧ Keeps m u)
      ⟨exec_ackBase base first, exec_small small first, marked⟩ ?_
    intro _ _ _ _ _ inv _ taken
    exact ⟨exec_ackBase inv.1 taken, exec_small inv.2.1 taken, exec_keeps inv.1 inv.2.1 inv.2.2 taken⟩
  -- which is answered
  obtain ⟨registered, -, second_eq⟩ := full'.input second
  obtain ⟨text', large', here', -⟩ := full'
  obtain ⟨quiet', past_text'⟩ := pastAck_quiet (s := arriving u th' payload') th' text'
  have remembers : Remembers m u := by
    rcases keeps registered with finished | h
    · rw [text'] at finished
      cases finished
    · exact h.2
  have arrived : AckBase (arriving u th' payload') := base'.eq rfl rfl rfl rfl rfl rfl
  have waits : Remembers m (arriving u th' payload') := remembers.quiet (.of_eq rfl rfl rfl rfl rfl rfl)
  obtain ⟨seg, member, ack, n, bound, number⟩ := inputTail_acknowledges th'
    (tcpInitSegment u th' payload').2 (pastAck_ackBase th' arrived)
    (by rw [quiet'.delacks]; exact small') past_text' (waits.quiet quiet')
    (by rw [quiet'.reads.rcvNxt]; exact here') large'
  have total : received v = received (inputTail (pastAck (arriving u th' payload') th') th'
      (tcpInitSegment u th' payload').2) := by
    rw [second_eq]
    rfl
  refine ⟨seg, ?_, ack, n, ?_, number⟩
  · rw [second_eq]
    exact List.drop_subset_drop_left _ quiet.acks.front.length_le member
  · rw [total, ← got]
    exact bound

/- Between the two a byte out of order, some bytes written and a tick. -/
theorem second_segment_acknowledged_between : ∃ s v : Conn, s.tsk.delacks = 0 ∧
    ∃ seg ∈ v.out.drop s.out.length, seg.th.ack = true ∧
      ∃ n ≤ received v - (received s + 1001), seg.th.ackSeq = 5001 + 1001 + UInt32.ofNat n := by
  obtain ⟨⟨before, s⟩, reached, none, ⟨t, r⟩, first, full, ⟨between, u⟩, followed, ⟨v, r'⟩, second, full'⟩ :
      ∃ p ∈ follow exec (fun _ _ _ => True) [] {} handshake, p.2.tsk.delacks = 0 ∧
        ∃ q ∈ exec p.2 (.segment (peerHdr 5001 1001) (List.replicate 1001 7)),
          TakesFull p.2 (peerHdr 5001 1001) (List.replicate 1001 7) q.1 ∧
          ∃ p' ∈ follow exec (fun _ _ _ => True) [] q.1
            [.segment (peerHdr 7100 1001) [1], .write [1, 2], .tick []],
            ∃ q' ∈ exec p'.2 (.segment (peerHdr 6002 1001) (List.replicate 1001 8)),
              TakesFull p'.2 (peerHdr 6002 1001) (List.replicate 1001 8) q'.1 := by
    decide +kernel
  obtain ⟨seg, member, ack, n, bound, number⟩ := second_segment_acknowledged
    (Run.of_follow _ .start reached) first full (Run.of_follow _ .start followed) second full'
  have dlen : (tcpInitSegment s (peerHdr 5001 1001) (List.replicate 1001 7)).2.dlen = 1001 := by
    show UInt32.ofNat (List.replicate 1001 7).length = 1001
    rw [List.length_replicate]
    rfl
  have open_ : (peerHdr 6002 1001).fin.toNat = 0 := rfl
  rw [List.length_replicate, open_, Nat.add_zero] at bound
  rw [dlen] at number
  exact ⟨s, v, none, seg, member, ack, n, bound, number⟩

end HfIp
