import HfIp.SendTimer

/- The acknowledgements on the wire: every ACK that a function sends acknowledges what has been
   received so far. -/
namespace HfIp

/-- The acknowledgement number of the last segment sent with the ACK flag. -/
def lastAck (s : Conn) : Option UInt32 :=
  (s.out.filter fun seg => seg.th.ack).getLast?.map fun seg => seg.th.ackSeq

/-- That segment acknowledged all that has been received. -/
def Acked (s : Conn) : Prop := lastAck s = some s.tsk.tcb.rcvNxt

instance (s : Conn) : Decidable (Acked s) := inferInstanceAs (Decidable (_ = _))

/- Nothing new has been received and every ACK sent acknowledges what has been. -/
structure AckFrame (s t : Conn) : Prop where
  rcvNxt : t.tsk.tcb.rcvNxt = s.tsk.tcb.rcvNxt
  out : ∃ more, t.out = s.out ++ more ∧
    ∀ seg ∈ more, seg.th.ack = true → seg.th.ackSeq = s.tsk.tcb.rcvNxt

namespace AckFrame

variable {s t u : Conn}

theorem of_eq (rcvNxt : t.tsk.tcb.rcvNxt = s.tsk.tcb.rcvNxt) (out : t.out = s.out) : AckFrame s t :=
  ⟨rcvNxt, [], by simp [out], by simp⟩

theorem refl (s : Conn) : AckFrame s s := of_eq rfl rfl

theorem trans (first : AckFrame s t) (second : AckFrame t u) : AckFrame s u := by
  obtain ⟨more, ho, ha⟩ := first.out
  obtain ⟨rest, hr, hb⟩ := second.out
  refine ⟨second.rcvNxt.trans first.rcvNxt, more ++ rest, by simp [hr, ho], ?_⟩
  intro seg member
  rcases List.mem_append.mp member with early | late
  · exact ha seg early
  · rw [← first.rcvNxt]
    exact hb seg late

theorem after (second : AckFrame t u) (first : AckFrame s t) : AckFrame s u := first.trans second

theorem of_minor (h : Minor s t) : AckFrame s t := by
  obtain ⟨more, ho, hb⟩ := h.out
  exact ⟨h.same.rcvNxt, more, ho, fun seg member => (hb seg member).2⟩

theorem transmit (s : Conn) (skb : SkBuff) (seq : UInt32) :
    AckFrame s (tcpTransmitSkb s skb seq).1 := by
  obtain ⟨seg, ho, -, -, ha, -⟩ := tcpTransmitSkb_out s skb seq
  refine ⟨(tcpTransmitSkb_same s skb seq).rcvNxt, [seg], ho, ?_⟩
  intro seg' member _
  obtain rfl := List.mem_singleton.mp member
  exact ha

/- What was acknowledged stays so, whatever has been sent since. -/
theorem acked (h : AckFrame s t) (acked : Acked s) : Acked t := by
  obtain ⟨more, ho, ha⟩ := h.out
  unfold Acked lastAck at acked ⊢
  rw [ho, h.rcvNxt, List.filter_append]
  by_cases none : more.filter (fun seg => seg.th.ack) = []
  · rw [none, List.append_nil]
    exact acked
  · rw [List.getLast?_append_of_ne_nil _ none, List.getLast?_eq_some_getLast none]
    have member := List.mem_filter.mp (List.getLast_mem none)
    exact congrArg some (ha _ member.1 member.2)

/- An ACK has been sent. -/
theorem sent (h : AckFrame s t) (front back : List Segment) {seg : Segment}
    (out : t.out = s.out ++ (front ++ seg :: back)) (ack : seg.th.ack = true) : Acked t := by
  obtain ⟨more, ho, ha⟩ := h.out
  obtain rfl : more = front ++ seg :: back := List.append_cancel_left (ho.symm.trans out)
  unfold Acked lastAck
  rw [ho, h.rcvNxt, List.filter_append]
  have some_ack : (front ++ seg :: back).filter (fun seg => seg.th.ack) ≠ [] := by
    intro none
    rw [List.filter_eq_nil_iff] at none
    exact none seg (by simp) ack
  rw [List.getLast?_append_of_ne_nil _ some_ack, List.getLast?_eq_some_getLast some_ack]
  have member := List.mem_filter.mp (List.getLast_mem some_ack)
  exact congrArg some (ha _ member.1 member.2)

end AckFrame

variable (s : Conn)

theorem tcpSendAck_acked (opened : s.tsk.state ≠ .close) : Acked (tcpSendAck s) := by
  obtain ⟨seg, out, ack, -⟩ := tcpSendAck_out s opened
  exact (AckFrame.of_minor (tcpSendAck_minor s)).sent [] [] out ack

/-! ### The send path -/

theorem tcpRearmRtoTimer_acks : AckFrame s (tcpRearmRtoTimer s) := by
  obtain ⟨_, _, eq⟩ := tcpRearmRtoTimer_touches s
  rw [eq]
  exact .of_eq rfl rfl

theorem tcpRearmUserTimeout_acks : AckFrame s (tcpRearmUserTimeout s) := by
  unfold tcpRearmUserTimeout
  split <;> exact .of_eq rfl rfl

theorem tcpQueueTransmitSkb_acks (skb : SkBuff) : AckFrame s (tcpQueueTransmitSkb s skb) := by
  have armed : AckFrame s (if skbQueueEmpty s.tsk.writeQueue then tcpRearmRtoTimer s else s) := by
    split
    · exact tcpRearmRtoTimer_acks s
    · exact .refl s
  unfold tcpQueueTransmitSkb
  dsimp only
  generalize (if skbQueueEmpty s.tsk.writeQueue then tcpRearmRtoTimer s else s) = t at armed
  split
  · exact (armed.trans (.transmit t skb t.tsk.tcb.sndNxt)).trans (.of_eq rfl rfl)
  · exact armed.trans (.of_eq rfl rfl)

theorem sendNextLoop_acks (amount : Nat) (queue : List SkBuff) :
    AckFrame s (sendNextLoop s amount queue).1 := by
  induction amount generalizing s queue with
  | zero => exact .refl s
  | succ amount ih =>
    cases queue with
    | nil => exact .refl s
    | cons next rest =>
      have first := AckFrame.transmit s next s.tsk.tcb.sndNxt
      have numbered : AckFrame s (numberSkb (tcpTransmitSkb s next s.tsk.tcb.sndNxt).1
          (tcpTransmitSkb s next s.tsk.tcb.sndNxt).2).1 := first.trans (.of_eq rfl rfl)
      exact numbered.trans (ih _ rest)

/- A queue whose head bears the ACK flag acknowledges by being sent. -/
theorem sendNextLoop_acked {amount : Nat} {queue : List SkBuff} {k : SkBuff} (positive : 0 < amount)
    (head : queue.head? = some k) (ack : k.th.ack = true) :
    Acked (sendNextLoop s amount queue).1 := by
  obtain ⟨rest, rfl⟩ := List.head?_eq_some_iff.mp head
  obtain ⟨amount, rfl⟩ := Nat.exists_eq_succ_of_ne_zero (Nat.pos_iff_ne_zero.mp positive)
  obtain ⟨seg, ho, -, -, -, -, -, hk⟩ := tcpTransmitSkb_out s k s.tsk.tcb.sndNxt
  have first := AckFrame.transmit s k s.tsk.tcb.sndNxt
  have acked : Acked (tcpTransmitSkb s k s.tsk.tcb.sndNxt).1 :=
    first.sent [] [] ho (hk.trans ack)
  have numbered : AckFrame (tcpTransmitSkb s k s.tsk.tcb.sndNxt).1
      (numberSkb (tcpTransmitSkb s k s.tsk.tcb.sndNxt).1
        (tcpTransmitSkb s k s.tsk.tcb.sndNxt).2).1 := .of_eq rfl rfl
  exact (numbered.trans (sendNextLoop_acks _ amount rest)).acked acked

theorem tcpSendNext_acks (amount : Nat) : AckFrame s (tcpSendNext s amount) :=
  (sendNextLoop_acks s amount s.tsk.writeQueue).trans (.of_eq rfl rfl)

theorem retransmitHead_acks (skb : SkBuff) : AckFrame s (retransmitHead s skb) :=
  (AckFrame.transmit s skb s.tsk.tcb.sndUna).trans (.of_eq rfl rfl)

theorem tcpSendReset_acks : AckFrame s (tcpSendReset s) := by
  unfold tcpSendReset
  dsimp only
  refine AckFrame.trans ?_ (.of_minor (freeSkb_minor _ _))
  refine AckFrame.after (.transmit _ _ _) ?_
  exact .of_eq rfl rfl

theorem tcpSendLoop_acks (mss fuel : Nat) (buf : List UInt8) :
    AckFrame s (tcpSendLoop mss fuel s buf) := by
  induction fuel generalizing s buf with
  | zero => exact .refl s
  | succ fuel ih =>
    rw [tcpSendLoop]
    split
    · exact .refl s
    · have allocated : AckFrame s (tcpAllocSkb s 0 (buf.take mss)).1 := .of_eq rfl rfl
      exact (allocated.trans (tcpQueueTransmitSkb_acks _ _)).trans (ih _ _)

theorem tcpWrite_acks (buf : List UInt8) : AckFrame s (tcpWrite s buf).1 := by
  have sends : AckFrame s (tcpSend s buf) := by
    have taken : AckFrame s { s with accepted := s.accepted ++ buf } := .of_eq rfl rfl
    exact (taken.trans (tcpSendLoop_acks _ s.tsk.smss.toNat buf.length buf)).trans
      (tcpRearmUserTimeout_acks _)
  unfold tcpWrite
  split
  · exact .refl s
  · split
    · exact sends
    · exact sends
    · exact .refl s

theorem tcpQueueFin_acks : AckFrame s (tcpQueueFin s) := by
  unfold tcpQueueFin
  exact (tcpQueueTransmitSkb_acks _ _).after (.of_eq rfl rfl)

theorem tcpDone_acks : AckFrame s (tcpDone s) := by
  obtain ⟨freed, eq⟩ := skbQueueFree_eq
    (tcpClearTimers (setState { s with ended := true } .closing)) s.tsk.ofoQueue
  unfold tcpDone socketDelete tcpFree tcpClearQueues
  rw [show (tcpClearTimers (setState { s with ended := true } .closing)).tsk.ofoQueue
    = s.tsk.ofoQueue from rfl, eq]
  split <;> exact .of_eq rfl rfl

theorem inputNewAck_acks (th : TcpHdr) : AckFrame s (inputNewAck s th).1 := by
  refine .of_eq (inputNewAck_rcvNxt s th) ?_
  rw [inputNewAck_fst]
  split
  · obtain ⟨_, _, _, _, _, eq⟩ := tcpCleanRtoQueue_touches
      (tcpRtt { s with tsk.tcb.sndUna := th.ackSeq }) th.ackSeq
    have rtt : (tcpRtt { s with tsk.tcb.sndUna := th.ackSeq }).out = s.out := by
      unfold tcpRtt
      split
      · rfl
      · split
        · rfl
        · dsimp only
          split <;> rfl
    rw [eq]
    exact rtt
  · rfl

theorem inputAck_acks (th : TcpHdr) : AckFrame s (inputAck s th).1 := by
  unfold inputAck
  split
  · split
    · exact (inputNewAck_acks (setState s .established) th).after (.of_eq rfl rfl)
    · exact .refl s
  iterate 6 exact inputNewAck_acks s th
  exact .refl s

theorem inputFinAcked_acks (th : TcpHdr) : AckFrame s (inputFinAcked s th) := by
  unfold inputFinAcked
  split
  · split
    · exact .of_eq rfl rfl
    · exact .of_eq rfl rfl
    · split
      · exact (AckFrame.of_minor (tcpSendAck_minor _)).after (.of_eq rfl rfl)
      · exact .refl s
    · exact .refl s
  · exact .refl s

/-! ### Reads -/

theorem receiveReturn_acks (rlen : Int) : AckFrame s (receiveReturn s rlen).1 := by
  unfold receiveReturn
  dsimp only
  split
  · exact tcpRearmUserTimeout_acks s
  · exact .refl s

theorem tcpDataDequeue_acks (userlen : Nat) : AckFrame s (tcpDataDequeue s userlen).1 := by
  obtain ⟨freed, flags, eq⟩ := dequeueLoop_touches s userlen s.tsk.receiveQueue
  unfold tcpDataDequeue
  dsimp only
  rw [eq]
  split <;> exact .of_eq rfl rfl

theorem receiveLoop_acks (len rlen : Nat) : AckFrame s (receiveLoop s len rlen).1 := by
  unfold receiveLoop
  have dequeue := tcpDataDequeue_acks s (len - rlen)
  dsimp only
  split
  · split
    · exact (receiveReturn_acks _ _).after (dequeue.trans (.of_eq rfl rfl))
    · split
      · exact dequeue.trans (receiveReturn_acks _ _)
      · split
        · exact dequeue.trans (receiveReturn_acks _ _)
        · exact dequeue.trans (.of_eq rfl rfl)
  · exact receiveReturn_acks s _

theorem tcpRead_acks (len : Nat) : AckFrame s (tcpRead s len).1 := by
  unfold tcpRead
  split
  · exact .refl s
  · split
    · exact .of_eq rfl rfl
    · exact receiveLoop_acks s len 0
  iterate 3 exact .refl s
  exact receiveLoop_acks s len 0

end HfIp
