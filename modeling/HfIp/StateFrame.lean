import HfIp.RecvFrame
import HfIp.SendFrame

/- The functions that leave the state of the connection alone, and where a segment can move it. -/
namespace HfIp

structure Stays (s t : Conn) : Prop where
  state : t.tsk.state = s.tsk.state
  ended : t.ended = s.ended

namespace Stays

variable {s t u : Conn}

theorem refl (s : Conn) : Stays s s := ⟨rfl, rfl⟩

theorem trans (first : Stays s t) (second : Stays t u) : Stays s u :=
  ⟨second.state.trans first.state, second.ended.trans first.ended⟩

theorem after (second : Stays t u) (first : Stays s t) : Stays s u := first.trans second

theorem of_same (h : Same s t) : Stays s t := ⟨h.state, h.ended⟩

theorem of_minor (h : Minor s t) : Stays s t := .of_same h.same

end Stays

variable (s : Conn)

theorem tcpRtt_stays : Stays s (tcpRtt s) := by
  unfold tcpRtt
  split
  · exact .refl s
  · split
    · exact .refl s
    · dsimp only
      split <;> exact ⟨rfl, rfl⟩

theorem tcpRtt_tcb : (tcpRtt s).tsk.tcb = s.tsk.tcb := by
  unfold tcpRtt
  split
  · rfl
  · split
    · rfl
    · dsimp only
      split <;> rfl

theorem tcpCleanRtoQueue_queue (una : UInt32) :
    (tcpCleanRtoQueue s una).tsk.writeQueue = s.tsk.writeQueue.dropWhile (acked una) := by
  obtain ⟨_, _, _, _, _, eq⟩ := tcpCleanRtoQueue_touches s una
  rw [eq]

theorem tcpCleanRtoQueue_inflight (una : UInt32) : (tcpCleanRtoQueue s una).tsk.inflight
    = s.tsk.inflight - (s.tsk.writeQueue.takeWhile (acked una)).length := by
  obtain ⟨freed, cleaned⟩ := cleanLoop_conn una s s.tsk.writeQueue
  unfold tcpCleanRtoQueue
  dsimp only
  rw [cleaned]
  split <;> rfl

theorem tcpCleanRtoQueue_stays (una : UInt32) : Stays s (tcpCleanRtoQueue s una) := by
  obtain ⟨_, _, _, _, _, eq⟩ := tcpCleanRtoQueue_touches s una
  rw [eq]
  exact ⟨rfl, rfl⟩

theorem tcpRearmRtoTimer_stays : Stays s (tcpRearmRtoTimer s) := by
  obtain ⟨_, _, eq⟩ := tcpRearmRtoTimer_touches s
  rw [eq]
  exact ⟨rfl, rfl⟩

theorem tcpRearmUserTimeout_stays : Stays s (tcpRearmUserTimeout s) := by
  unfold tcpRearmUserTimeout
  split <;> exact ⟨rfl, rfl⟩

theorem tcpQueueTransmitSkb_stays (skb : SkBuff) : Stays s (tcpQueueTransmitSkb s skb) := by
  obtain ⟨_, _, _, _, _, _, same⟩ := tcpQueueTransmitSkb_touches s skb
  exact ⟨same.state, same.ended⟩

theorem tcpSendNext_stays (amount : Nat) : Stays s (tcpSendNext s amount) := by
  obtain ⟨_, _, _, same⟩ := tcpSendNext_touches s amount
  exact ⟨same.state, same.ended⟩

theorem retransmitHead_stays (skb : SkBuff) : Stays s (retransmitHead s skb) := by
  obtain ⟨_, same⟩ := retransmitHead_touches s skb
  exact ⟨same.state, same.ended⟩

/-! ### Arriving segments -/

/- The ACK field acknowledges something new. -/
def AckNew (s : Conn) (th : TcpHdr) : Prop :=
  s.tsk.tcb.sndUna < th.ackSeq ∧ th.ackSeq ≤ s.tsk.tcb.sndNxt

instance (s : Conn) (th : TcpHdr) : Decidable (AckNew s th) := inferInstanceAs (Decidable (_ ∧ _))

theorem inputNewAck_fst (th : TcpHdr) : (inputNewAck s th).1 = if AckNew s th then
    tcpCleanRtoQueue (tcpRtt { s with tsk.tcb.sndUna := th.ackSeq }) th.ackSeq else s := by
  unfold inputNewAck
  dsimp only
  rw [show (if AckNew s th then _ else s) = (if s.tsk.tcb.sndUna < th.ackSeq ∧
    th.ackSeq ≤ s.tsk.tcb.sndNxt then tcpCleanRtoQueue (tcpRtt { s with
      tsk.tcb.sndUna := th.ackSeq }) th.ackSeq else s) from rfl]
  generalize (if s.tsk.tcb.sndUna < th.ackSeq ∧ th.ackSeq ≤ s.tsk.tcb.sndNxt then
      tcpCleanRtoQueue (tcpRtt { s with tsk.tcb.sndUna := th.ackSeq }) th.ackSeq else s) = u
  split
  · rfl
  · split <;> rfl

/- A segment goes on only when its ACK field lies between the two numbers. -/
theorem inputNewAck_snd (th : TcpHdr) : (inputNewAck s th).2 = true ↔
    s.tsk.tcb.sndUna ≤ th.ackSeq ∧ th.ackSeq ≤ s.tsk.tcb.sndNxt := by
  have rtt := tcpRtt_tcb { s with tsk.tcb.sndUna := th.ackSeq }
  obtain ⟨_, _, _, _, _, eq⟩ := tcpCleanRtoQueue_touches
    (tcpRtt { s with tsk.tcb.sndUna := th.ackSeq }) th.ackSeq
  unfold inputNewAck
  dsimp only
  by_cases new : s.tsk.tcb.sndUna < th.ackSeq ∧ th.ackSeq ≤ s.tsk.tcb.sndNxt
  · rw [if_pos new, eq]
    dsimp only
    rw [rtt]
    dsimp only
    rw [if_neg (UInt32.lt_irrefl _), if_neg (UInt32.not_lt.mpr new.2)]
    exact ⟨fun _ => ⟨UInt32.le_of_lt new.1, new.2⟩, fun _ => rfl⟩
  · rw [if_neg new]
    split
    · rename_i old
      exact ⟨(fun h => by cases h), fun h => absurd old (UInt32.not_lt.mpr h.1)⟩
    · rename_i old
      split
      · rename_i early
        exact ⟨(fun h => by cases h), fun h => absurd early (UInt32.not_lt.mpr h.2)⟩
      · rename_i early
        exact ⟨fun _ => ⟨UInt32.not_lt.mp old, UInt32.not_lt.mp early⟩, fun _ => rfl⟩

theorem inputNewAck_stays (th : TcpHdr) : Stays s (inputNewAck s th).1 := by
  rw [inputNewAck_fst]
  split
  · exact ((tcpRtt_stays _).trans (tcpCleanRtoQueue_stays _ _)).after ⟨rfl, rfl⟩
  · exact .refl s

/- The states in which `tcp_input_state` takes the ACK field of a segment. -/
def TcpState.takesAck : TcpState → Bool
  | .established | .finWait1 | .finWait2 | .closeWait | .closing | .lastAck => true
  | _ => false

theorem inputAck_takes {s : Conn} {th : TcpHdr} (takes : s.tsk.state.takesAck = true) :
    inputAck s th = inputNewAck s th := by
  unfold inputAck
  cases at_state : s.tsk.state <;> simp_all [TcpState.takesAck]

/- The ACK of the SYN opens the connection; any other leaves the state alone. -/
theorem inputAck_moves (th : TcpHdr) : ((inputAck s th).1.tsk.state = s.tsk.state ∨
    (s.tsk.state = .synReceived ∧ (inputAck s th).1.tsk.state = .established)) ∧
      (inputAck s th).1.ended = s.ended := by
  by_cases takes : s.tsk.state.takesAck = true
  · rw [inputAck_takes takes]
    exact ⟨.inl (inputNewAck_stays s th).state, (inputNewAck_stays s th).ended⟩
  · unfold inputAck
    split
    · rename_i at_state
      split
      · have opened := inputNewAck_stays (setState s .established) th
        exact ⟨.inr ⟨at_state, opened.state⟩, opened.ended⟩
      · exact ⟨.inl rfl, rfl⟩
    iterate 6 (rename_i at_state; rw [at_state] at takes; exact absurd rfl takes)
    exact ⟨.inl rfl, rfl⟩

theorem inputNewAck_rcvNxt (th : TcpHdr) :
    (inputNewAck s th).1.tsk.tcb.rcvNxt = s.tsk.tcb.rcvNxt := by
  rw [inputNewAck_fst]
  split
  · obtain ⟨_, _, _, _, _, eq⟩ := tcpCleanRtoQueue_touches
      (tcpRtt { s with tsk.tcb.sndUna := th.ackSeq }) th.ackSeq
    have tcb := tcpRtt_tcb { s with tsk.tcb.sndUna := th.ackSeq }
    rw [eq]
    dsimp only
    rw [tcb]
  · rfl

theorem inputAck_rcvNxt (th : TcpHdr) : (inputAck s th).1.tsk.tcb.rcvNxt = s.tsk.tcb.rcvNxt := by
  unfold inputAck
  split
  · split
    · exact inputNewAck_rcvNxt (setState s .established) th
    · rfl
  iterate 6 exact inputNewAck_rcvNxt s th
  rfl

theorem tcpDataQueue_stays (skb : SkBuff) : Stays s (tcpDataQueue s skb).1 := by
  unfold tcpDataQueue
  split
  · exact .of_minor (freeSkb_minor s skb)
  · split
    · exact ⟨rfl, rfl⟩
    · dsimp only
      refine Stays.trans ?_ (.of_minor (tcpSendAck_minor _))
      split
      · exact (Stays.of_minor (tcpCalculateSacks_minor { s with
          tsk.ofoQueue := (tcpDataInsertOrdered s.tsk.ofoQueue skb).1 })).after ⟨rfl, rfl⟩
      · exact ⟨rfl, rfl⟩

theorem inputText_stays (th : TcpHdr) (skb : SkBuff) : Stays s (inputText s th skb).1 := by
  unfold inputText
  split
  iterate 3 (split; exact tcpDataQueue_stays s skb; exact .refl s)
  exact .refl s

theorem countDelack_stays (large : Bool) : Stays s (countDelack s large) := by
  unfold countDelack
  split <;> exact ⟨rfl, rfl⟩

theorem inputDelack_stays (th : TcpHdr) (skb : SkBuff) : Stays s (inputDelack s th skb) := by
  unfold inputDelack
  refine Stays.trans (t := tcpStopDelackTimer s) ⟨rfl, rfl⟩ ?_
  generalize tcpStopDelackTimer s = t
  dsimp only
  split
  · refine Stays.trans ?_ (tcpRearmRtoTimer_stays _)
    exact (tcpSendNext_stays t _).trans ⟨rfl, rfl⟩
  · refine (countDelack_stays t (!th.psh && decide (1000 < skb.dlen))).trans ?_
    split
    · exact (Stays.of_minor (tcpSendAck_minor _)).after ⟨rfl, rfl⟩
    · split
      · exact ⟨rfl, rfl⟩
      · exact .refl _

theorem inputExpected_stays (th : TcpHdr) (skb : SkBuff) (expected : Bool) :
    Stays s (inputExpected s th skb expected) := by
  unfold inputExpected
  split
  iterate 3 (split; exact inputDelack_stays s th skb; exact .refl s)
  exact .refl s

/- The state the peer's FIN leads to; `empty` is emptiness of the write queue. -/
def TcpState.afterFin (empty : Bool) : TcpState → TcpState
  | .synReceived | .established => .closeWait
  | .finWait1 => if empty then .timeWait else .closing
  | .finWait2 => .timeWait
  | a => a

theorem inputFin_moves : (inputFin s).tsk.state = s.tsk.state.afterFin (skbQueueEmpty s.tsk.writeQueue) ∧
    (inputFin s).ended = s.ended := by
  have acked := ((pollReadable_minor { s with
      tsk.tcb.rcvNxt := s.tsk.tcb.rcvNxt + 1, tsk.flags := s.tsk.flags ||| TCP_FIN }).trans
    (tcpSendAck_minor _)).trans (recvNotify_minor _)
  have state := acked.same.state
  have queue := acked.same.writeQueue
  have ended := acked.same.ended
  unfold inputFin
  dsimp only at state queue ended ⊢
  generalize recvNotify (tcpSendAck (pollReadable { s with
    tsk.tcb.rcvNxt := s.tsk.tcb.rcvNxt + 1, tsk.flags := s.tsk.flags ||| TCP_FIN })) = t at *
  rw [← state, ← queue]
  split <;> rename_i at_state
  · rw [at_state]
    exact ⟨rfl, ended⟩
  · rw [at_state]
    exact ⟨rfl, ended⟩
  · rw [at_state]
    simp only [TcpState.afterFin]
    split <;> exact ⟨rfl, ended⟩
  · rw [at_state]
    exact ⟨rfl, ended⟩
  · refine ⟨?_, ended⟩
    cases other : t.tsk.state <;> simp_all [TcpState.afterFin]

theorem inputTextFin_moves (th : TcpHdr) (expected : Bool) :
    (inputTextFin s th expected).tsk.state = (if th.fin && expected then
      s.tsk.state.afterFin (skbQueueEmpty s.tsk.writeQueue) else s.tsk.state) ∧
      (inputTextFin s th expected).ended = s.ended := by
  unfold inputTextFin
  split
  · exact inputFin_moves s
  · exact ⟨rfl, rfl⟩

theorem inputTail_moves (th : TcpHdr) (skb : SkBuff) :
    (inputTail s th skb).tsk.state = (if th.fin && decide (skb.seq = s.tsk.tcb.rcvNxt) then
      s.tsk.state.afterFin (skbQueueEmpty s.tsk.writeQueue) else s.tsk.state) ∧
      (inputTail s th skb).ended = s.ended := by
  have text := inputText_stays s th skb
  have queue := (inputText_send s th skb).writeQueue
  obtain ⟨state, ended⟩ :=
    inputTextFin_moves (inputText s th skb).1 th (decide (skb.seq = s.tsk.tcb.rcvNxt))
  have last := (inputExpected_stays (inputTextFin (inputText s th skb).1 th
      (decide (skb.seq = s.tsk.tcb.rcvNxt))) th skb (decide (skb.seq = s.tsk.tcb.rcvNxt))).trans
    (.of_minor (freeSkb_minor _ (inputText s th skb).2))
  rw [text.state, queue] at state
  exact ⟨last.state.trans state, last.ended.trans (ended.trans text.ended)⟩

/-! ### Calls -/

theorem dequeueLoop_stays (room : Nat) (queue : List SkBuff) :
    Stays s (dequeueLoop s room queue).1 := by
  induction queue generalizing s room with
  | nil => exact .refl s
  | cons skb rest ih =>
    rw [dequeueLoop]
    split
    · exact .refl s
    · dsimp only
      split
      · refine Stays.trans ?_ (ih _ _)
        refine Stays.trans ?_ (.of_minor (freeSkb_minor _ _))
        split
        · exact ⟨rfl, rfl⟩
        · exact .refl s
      · exact .refl s

theorem tcpDataDequeue_stays (userlen : Nat) : Stays s (tcpDataDequeue s userlen).1 := by
  unfold tcpDataDequeue
  have loop := dequeueLoop_stays s userlen s.tsk.receiveQueue
  dsimp only
  split <;> exact loop.trans ⟨rfl, rfl⟩

theorem receiveReturn_stays (rlen : Int) : Stays s (receiveReturn s rlen).1 := by
  unfold receiveReturn
  dsimp only
  split
  · exact tcpRearmUserTimeout_stays s
  · exact .refl s

theorem receiveLoop_stays (len rlen : Nat) : Stays s (receiveLoop s len rlen).1 := by
  unfold receiveLoop
  have dequeue := tcpDataDequeue_stays s (len - rlen)
  dsimp only
  split
  · split
    · exact (receiveReturn_stays _ _).after (dequeue.trans ⟨rfl, rfl⟩)
    · split
      · exact dequeue.trans (receiveReturn_stays _ _)
      · split
        · exact dequeue.trans (receiveReturn_stays _ _)
        · exact dequeue.trans ⟨rfl, rfl⟩
  · exact receiveReturn_stays s _

theorem tcpRead_stays (len : Nat) : Stays s (tcpRead s len).1 := by
  unfold tcpRead
  split
  · exact .refl s
  · split
    · exact ⟨rfl, rfl⟩
    · exact receiveLoop_stays s len 0
  iterate 3 exact .refl s
  exact receiveLoop_stays s len 0

theorem tcpSendLoop_stays (mss fuel : Nat) (buf : List UInt8) :
    Stays s (tcpSendLoop mss fuel s buf) := by
  induction fuel generalizing s buf with
  | zero => exact .refl s
  | succ fuel ih =>
    rw [tcpSendLoop]
    split
    · exact .refl s
    · refine Stays.trans ?_ (ih _ _)
      exact (tcpQueueTransmitSkb_stays _ _).after ⟨rfl, rfl⟩

theorem tcpSend_stays (buf : List UInt8) : Stays s (tcpSend s buf) := by
  unfold tcpSend
  refine Stays.trans ?_ (tcpRearmUserTimeout_stays _)
  exact (tcpSendLoop_stays _ _ _ _).after ⟨rfl, rfl⟩

theorem tcpWrite_stays (buf : List UInt8) : Stays s (tcpWrite s buf).1 := by
  unfold tcpWrite
  split
  · exact .refl s
  · split
    · exact tcpSend_stays s buf
    · exact tcpSend_stays s buf
    · exact .refl s

theorem tcpQueueFin_stays : Stays s (tcpQueueFin s) :=
  (tcpQueueTransmitSkb_stays _ _).after ⟨rfl, rfl⟩

theorem tcpSendReset_stays : Stays s (tcpSendReset s) := by
  unfold tcpSendReset
  dsimp only
  refine Stays.trans ?_ (.of_minor (freeSkb_minor _ _))
  exact (Stays.of_same (tcpTransmitSkb_same _ _ _)).after ⟨rfl, rfl⟩

end HfIp
