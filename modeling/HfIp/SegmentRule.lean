import HfIp.SendEvents
import HfIp.StateFrame

/- What a segment and a timer do to the send side: a rule for properties that the functions of the
   send frame keep. What is left to show is how an ACK, the sending of waiting buffers, a SYN, a reset
   and a retransmission keep them. -/
namespace HfIp

variable {P : Conn → Prop} {s : Conn} {th : TcpHdr} {skb : SkBuff}

/- Taking a new ACK. -/
def takeAck (s : Conn) (th : TcpHdr) : Conn :=
  tcpCleanRtoQueue (tcpRtt { s with tsk.tcb.sndUna := th.ackSeq }) th.ackSeq

/- First transmission of the first `n` buffers of the write queue. -/
def sendFront (s : Conn) (n : Nat) : Conn :=
  { tcpSendNext s n with tsk.inflight := (tcpSendNext s n).tsk.inflight + n }

theorem inputNewAck_rule (start : P s) (ack : AckNew s th → P (takeAck s th)) :
    P (inputNewAck s th).1 := by
  rw [inputNewAck_fst]
  split
  · rename_i new
    exact ack new
  · exact start

theorem inputDelack_rule (frame : ∀ u v, SendFrame u v → P u → P v) (start : P s)
    (next : ∀ u n, SendFrame s u → u.tsk.inflight = 0 → n = min u.tsk.writeQueue.length 3 → P u →
      P (sendFront u n)) : P (inputDelack s th skb) := by
  unfold inputDelack
  have stopped := tcpStopDelackTimer_send s
  replace start := frame _ _ stopped start
  generalize tcpStopDelackTimer s = t at stopped start
  dsimp only
  split
  · rename_i idle
    exact frame _ _ (tcpRearmRtoTimer_send _) (next t _ stopped idle.1 rfl start)
  · refine frame _ _ ?_ (frame _ _ (countDelack_send (!th.psh && decide (1000 < skb.dlen))) start)
    split
    · exact (SendFrame.of_minor (tcpSendAck_minor _)).after (.of_out rfl rfl rfl rfl)
    · split
      · exact addDelack_send _
      · exact .refl _

theorem inputTail_rule (frame : ∀ u v, SendFrame u v → P u → P v) (start : P s)
    (next : ∀ u n, u.tsk.inflight = 0 → n = min u.tsk.writeQueue.length 3 → P u →
      P (sendFront u n)) : P (inputTail s th skb) := by
  unfold inputTail
  dsimp only
  refine frame _ _ (.of_minor (freeSkb_minor _ _)) ?_
  have queued := frame _ _ ((inputText_send s th skb).trans
    (inputTextFin_send th (decide (skb.seq = s.tsk.tcb.rcvNxt)))) start
  unfold inputExpected
  split
  iterate 3 (split; exact inputDelack_rule frame queued fun u n _ => next u n; exact queued)
  exact queued

/- The states other than CLOSED, LISTEN and SYN_SENT. -/
theorem inputOtherwise_rule (frame : ∀ u v, SendFrame u v → P u → P v) (start : P s)
    (ack : ∀ u, SendFrame s u → AckNew u th → P u → P (takeAck u th))
    (next : ∀ u n, u.tsk.inflight = 0 → n = min u.tsk.writeQueue.length 3 → P u →
      P (sendFront u n)) : P (inputOtherwise s th skb) := by
  have freed : ∀ u, P u → P (freeSkb u skb) := fun u => frame _ _ (.of_minor (freeSkb_minor u skb))
  have acked : P (inputAck s th).1 := by
    unfold inputAck
    split
    · rename_i at_state
      have opened := setState_send s .established (by rw [at_state]; rfl)
        (by simp [Awaiting, setState])
      split
      · exact inputNewAck_rule (frame _ _ opened start) fun new => ack _ opened new
          (frame _ _ opened start)
      · exact start
    iterate 6 exact inputNewAck_rule start fun new => ack s (.refl s) new start
    exact start
  refine inputOtherwise_cases s th skb ?_ ?_ ?_ ?_ ?_ ?_
  · intro _
    refine freed _ ?_
    split
    · exact start
    · exact frame _ _ (.of_minor (tcpSendAck_minor s)) start
  · intro _ _
    exact frame _ _ ((tcpEnterTimeWait_send _).trans (.of_minor (recvNotify_minor _)))
      (freed s start)
  · intro _ _ _
    exact freed s start
  · intro _ _ _ _ _
    exact freed _ acked
  · intro _ _ _ _ _ _ _
    exact frame _ _ (tcpDone_send _) (freed _ acked)
  · intro _ _ _ _ _ _
    exact inputTail_rule frame (frame _ _ (inputFinAcked_send _ th) acked) next

/- In SYN_SENT the SYN of a segment is looked at. -/
structure SynTaken (s : Conn) (th : TcpHdr) : Prop where
  waiting : s.tsk.state = .synSent
  window : th.ack = true → s.tsk.tcb.iss < th.ackSeq ∧ s.tsk.tcb.sndUna ≤ th.ackSeq ∧
    th.ackSeq ≤ s.tsk.tcb.sndNxt
  syn : th.syn = true

instance (s : Conn) (th : TcpHdr) : Decidable (SynTaken s th) :=
  decidable_of_iff (s.tsk.state = .synSent ∧ (th.ack = true → s.tsk.tcb.iss < th.ackSeq ∧
      s.tsk.tcb.sndUna ≤ th.ackSeq ∧ th.ackSeq ≤ s.tsk.tcb.sndNxt) ∧ th.syn = true)
    ⟨fun ⟨waiting, window, syn⟩ => ⟨waiting, window, syn⟩, fun h => ⟨h.waiting, h.window, h.syn⟩⟩

/- In SYN_SENT: dropped, reset, or its SYN is looked at. -/
theorem tcpSynsent_cases (drop : P (freeSkb s skb))
    (reset : th.rst = true → (th.ack = true → s.tsk.tcb.iss < th.ackSeq ∧
      s.tsk.tcb.sndUna ≤ th.ackSeq ∧ th.ackSeq ≤ s.tsk.tcb.sndNxt) → P (freeSkb (tcpReset s) skb))
    (syn : (s.tsk.state = .synSent → SynTaken s th) → P (freeSkb (synsentSyn s th) skb)) :
    P (tcpSynsent s skb th) := by
  unfold tcpSynsent
  dsimp only
  split
  · exact drop
  · rename_i window
    split
    · exact drop
    · rename_i window'
      have inside : th.ack = true → s.tsk.tcb.iss < th.ackSeq ∧ s.tsk.tcb.sndUna ≤ th.ackSeq ∧
          th.ackSeq ≤ s.tsk.tcb.sndNxt := by
        intro acks
        have low := fun h => window ⟨acks, .inl h⟩
        have high := fun h => window ⟨acks, .inr h⟩
        have old := fun h => window' ⟨acks, .inl h⟩
        exact ⟨UInt32.not_le.mp low, UInt32.not_lt.mp old, UInt32.not_lt.mp high⟩
      split
      · rename_i rst
        exact reset rst inside
      · split
        · exact drop
        · rename_i flag
          exact syn fun waiting => ⟨waiting, inside, by simpa using flag⟩

theorem tcpInputState_rule (frame : ∀ u v, SendFrame u v → P u → P v) (start : P s)
    (reset : s.tsk.state = .close → P (tcpSendReset s))
    (syn : SynTaken s th → P (synsentSyn s th))
    (ack : ∀ u, SendFrame s u → AckNew u th → P u → P (takeAck u th))
    (next : ∀ u n, u.tsk.inflight = 0 → n = min u.tsk.writeQueue.length 3 → P u →
      P (sendFront u n)) : P (tcpInputState s th skb) := by
  have freed : ∀ u, P u → P (freeSkb u skb) := fun u => frame _ _ (.of_minor (freeSkb_minor u skb))
  unfold tcpInputState
  split
  · rename_i closed
    unfold tcpClosed
    split
    · exact freed s start
    · exact freed _ (reset closed)
  · exact freed s start
  · rename_i waiting
    exact tcpSynsent_cases (freed s start) (fun _ _ => freed _ (frame _ _ (tcpReset_send s) start))
      fun taken => freed _ (syn (taken waiting))
  · exact inputOtherwise_rule frame start ack next

/-! ### Timers -/

theorem tcpConnectRto_rule (frame : ∀ u v, SendFrame u v → P u → P v) (start : P s)
    (again : ∀ u k, SendFrame s u → u.tsk.state = .synSent → u.tsk.writeQueue.head? = some k → P u →
      P (retransmitHead u k)) : P (tcpConnectRto s) := by
  unfold tcpConnectRto
  have released := tcpReleaseRtoTimer_send s
  replace start := frame _ _ released start
  generalize tcpReleaseRtoTimer s = t at released start
  dsimp only
  split
  · rename_i waiting
    split
    · refine frame _ _ (tcpDone_send _) (frame t _ ?_ start)
      exact .of_out rfl rfl rfl rfl
    · split
      · exact start
      · rename_i k head
        refine frame _ _ (tcpRearmRtoTimer_send _) (frame (retransmitHead t k) _ ?_
          (again t k released waiting head start))
        exact .of_out rfl rfl rfl rfl
  · exact start

theorem tcpRetransmissionTimeout_rule (frame : ∀ u v, SendFrame u v → P u → P v) (start : P s)
    (again : ∀ u k, SendFrame s u → u.tsk.writeQueue.head? = some k → P u → P (retransmitHead u k))
    (fin : ∀ u, P u → P (tcpHandleFinState u)) : P (tcpRetransmissionTimeout s) := by
  unfold tcpRetransmissionTimeout
  have released := tcpReleaseRtoTimer_send s
  replace start := frame _ _ released start
  generalize tcpReleaseRtoTimer s = t at released start
  dsimp only
  split
  · refine frame _ _ (.of_minor (tcpNotifyUser_minor _)) (frame t _ ?_ start)
    exact .of_out rfl rfl rfl rfl
  · rename_i k head
    have sent := again t k released head start
    have backed : P (retransmissionBackoff (retransmitHead t k)) := by
      refine frame (retransmitHead t k) _ ?_ sent
      exact .of_out rfl rfl rfl rfl
    split
    · refine frame (tcpDone (retransmitHead t k)) _ ?_ (frame _ _ (tcpDone_send _) sent)
      exact .of_out rfl rfl rfl rfl
    · split
      · exact fin _ backed
      · exact backed

end HfIp
