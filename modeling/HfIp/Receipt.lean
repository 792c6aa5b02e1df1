import HfIp.ReceiverIntegrity
import HfIp.StateFrame

/- What a segment that passes the checks does to the receive side, exactly: its text is queued or kept
   aside, and its FIN counts if the segment was in sequence. -/
namespace HfIp

/- The receive side: its queues, the next number, and what is known of the peer's FIN. -/
structure Receipt where
  rcvNxt : UInt32
  rcvWnd : UInt32
  receiveQueue : List SkBuff
  ofoQueue : List SkBuff
  finFlag : UInt8
  phase : Phase
  deriving DecidableEq

def receipt (s : Conn) : Receipt :=
  { rcvNxt := s.tsk.tcb.rcvNxt, rcvWnd := s.tsk.tcb.rcvWnd, receiveQueue := s.tsk.receiveQueue
    ofoQueue := s.tsk.ofoQueue, finFlag := s.tsk.flags &&& TCP_FIN
    phase := s.tsk.state.phase }

/- The receive side after the text of a buffer has been processed. -/
def takeText (r : Receipt) (skb : SkBuff) : Receipt :=
  if r.rcvWnd = 0 then r
  else if skb.seq = r.rcvNxt then
    let c := consumeLoop (r.rcvNxt + skb.dlen) r.ofoQueue
    { r with
      rcvNxt := c.1
      receiveQueue := r.receiveQueue ++ { skb with refcnt := skb.refcnt + 1 } :: c.2.1
      ofoQueue := c.2.2 }
  else { r with ofoQueue := (tcpDataInsertOrdered r.ofoQueue skb).1 }

/- And after a FIN in sequence. -/
def takeFin (r : Receipt) : Receipt :=
  { r with rcvNxt := r.rcvNxt + 1, finFlag := TCP_FIN, phase := .finished }

/- The receive side after a segment that the checks have let through. -/
def takeSegment (r : Receipt) (th : TcpHdr) (skb : SkBuff) : Receipt :=
  let text := if th.psh ∨ 0 < skb.dlen then takeText r skb else r
  if th.fin = true ∧ skb.seq = r.rcvNxt then takeFin text else text

variable {s t : Conn} {th : TcpHdr} {skb : SkBuff}

theorem Same.receipt (h : Same s t) : receipt t = receipt s := by
  unfold HfIp.receipt
  rw [h.tcb, h.receiveQueue, h.ofoQueue, h.flags, h.state]

@[simp] theorem freeSkb_receipt (s : Conn) (skb : SkBuff) : receipt (freeSkb s skb) = receipt s :=
  (freeSkb_minor s skb).same.receipt

theorem tcpDataQueue_receipt (s : Conn) (skb : SkBuff) :
    receipt (tcpDataQueue s skb).1 = takeText (receipt s) skb ∧
      (tcpDataQueue s skb).1.tsk.state = s.tsk.state := by
  unfold tcpDataQueue takeText
  by_cases shut : s.tsk.tcb.rcvWnd = 0
  · rw [if_pos shut, if_pos (show (receipt s).rcvWnd = 0 from shut)]
    exact ⟨freeSkb_receipt s skb, (freeSkb_minor s skb).same.state⟩
  · rw [if_neg shut, if_neg (show ¬(receipt s).rcvWnd = 0 from shut)]
    by_cases hit : skb.seq = s.tsk.tcb.rcvNxt
    · rw [if_pos hit, if_pos (show skb.seq = (receipt s).rcvNxt from hit)]
      refine ⟨?_, rfl⟩
      simp only [receipt, recvNotify, pollReadable, tcpConsumeOfoQueue, skbQueueTail, SkBuff.dlen,
        List.append_assoc, List.singleton_append]
    · rw [if_neg hit, if_neg (show ¬skb.seq = (receipt s).rcvNxt from hit)]
      have quiet : Same { s with tsk.ofoQueue := (tcpDataInsertOrdered s.tsk.ofoQueue skb).1 }
          (if s.tsk.sackok then { s with tsk := tcpCalculateSacks { s.tsk with
            ofoQueue := (tcpDataInsertOrdered s.tsk.ofoQueue skb).1 } }
          else { s with tsk.ofoQueue := (tcpDataInsertOrdered s.tsk.ofoQueue skb).1 }) := by
        split
        · exact (tcpCalculateSacks_minor { s with
            tsk.ofoQueue := (tcpDataInsertOrdered s.tsk.ofoQueue skb).1 }).same
        · exact .refl _
      have answered := quiet.trans (tcpSendAck_minor _).same
      exact ⟨answered.receipt, answered.state⟩

theorem inputText_receipt (text : s.tsk.state.phase = .text) :
    receipt (inputText s th skb).1 = (if th.psh ∨ 0 < skb.dlen then
      takeText (receipt s) skb else receipt s) ∧
      (inputText s th skb).1.tsk.state = s.tsk.state := by
  have queued : receipt (if th.psh ∨ 0 < skb.dlen then tcpDataQueue s skb else (s, skb)).1 =
      (if th.psh ∨ 0 < skb.dlen then takeText (receipt s) skb else receipt s) ∧
      (if th.psh ∨ 0 < skb.dlen then tcpDataQueue s skb else (s, skb)).1.tsk.state = s.tsk.state := by
    split
    · exact tcpDataQueue_receipt s skb
    · exact ⟨rfl, rfl⟩
  have states := TcpState.text_cases (by rw [text]; decide) (by rw [text]; decide)
  unfold inputText
  rcases states with at_state | at_state | at_state
  all_goals
    rw [at_state] at queued ⊢
    exact queued

theorem tcp_fin_set (flags : UInt8) : (flags ||| TCP_FIN) &&& TCP_FIN = TCP_FIN := by
  obtain ⟨⟨n⟩⟩ := flags
  revert n
  decide +kernel

theorem inputFin_receipt (text : s.tsk.state.phase = .text) :
    receipt (inputFin s) = takeFin (receipt s) := by
  have finish : ∀ t : Conn, recvView t = { recvView s with rcvNxt := s.tsk.tcb.rcvNxt + 1 } →
      t.tsk.flags = s.tsk.flags ||| TCP_FIN → t.tsk.state.phase = .finished →
      receipt t = takeFin (receipt s) := by
    intro t view flags phase
    have rcvNxt : t.tsk.tcb.rcvNxt = s.tsk.tcb.rcvNxt + 1 := congrArg RecvView.rcvNxt view
    have receiveQueue : t.tsk.receiveQueue = s.tsk.receiveQueue :=
      congrArg RecvView.receiveQueue view
    have ofoQueue : t.tsk.ofoQueue = s.tsk.ofoQueue := congrArg RecvView.ofoQueue view
    have rcvWnd : t.tsk.tcb.rcvWnd = s.tsk.tcb.rcvWnd := congrArg RecvView.rcvWnd view
    unfold receipt takeFin
    rw [rcvNxt, rcvWnd, receiveQueue, ofoQueue, flags, phase, tcp_fin_set]
  have acked := ((pollReadable_minor { s with
    tsk.tcb.rcvNxt := s.tsk.tcb.rcvNxt + 1, tsk.flags := s.tsk.flags ||| TCP_FIN }).trans
    (tcpSendAck_minor _)).trans (recvNotify_minor _) |>.same
  unfold inputFin
  dsimp only
  generalize recvNotify (tcpSendAck (pollReadable { s with
    tsk.tcb.rcvNxt := s.tsk.tcb.rcvNxt + 1, tsk.flags := s.tsk.flags ||| TCP_FIN })) = u at acked
  have view : recvView u = { recvView s with rcvNxt := s.tsk.tcb.rcvNxt + 1 } := recvView_same acked
  rcases TcpState.text_cases (by rw [text]; decide) (by rw [text]; decide) with at_state | at_state |
    at_state
  all_goals rw [acked.state.trans at_state]
  · exact finish _ view acked.flags rfl
  · dsimp only
    split
    · exact finish _ view acked.flags rfl
    · exact finish _ view acked.flags rfl
  · exact finish _ view acked.flags rfl

/- Sending what waits and acknowledging leave the receive side alone. -/
theorem inputDelack_receipt (s : Conn) (th : TcpHdr) (skb : SkBuff) :
    receipt (inputDelack s th skb) = receipt s := by
  have stopped : receipt (tcpStopDelackTimer s) = receipt s := rfl
  unfold inputDelack
  rw [← stopped]
  generalize tcpStopDelackTimer s = t
  dsimp only
  split
  · obtain ⟨_, _, armed⟩ := tcpRearmRtoTimer_touches { tcpSendNext t (min t.tsk.writeQueue.length 3) with
      tsk.inflight := (tcpSendNext t (min t.tsk.writeQueue.length 3)).tsk.inflight +
        min t.tsk.writeQueue.length 3 }
    obtain ⟨_, _, _, same⟩ := tcpSendNext_touches t (min t.tsk.writeQueue.length 3)
    rw [armed]
    exact same.receipt
  · have counted : ∀ large, receipt (countDelack t large) = receipt t := by
      intro large
      unfold countDelack
      split
      · rfl
      · rfl
    rw [← counted (!th.psh && decide (1000 < skb.dlen))]
    split
    · exact (tcpSendAck_minor _).same.receipt
    · split
      · rfl
      · rfl

/-- What the checks have let through is taken. -/
theorem inputTail_receipt (text : s.tsk.state.phase = .text) :
    receipt (inputTail s th skb) = takeSegment (receipt s) th skb := by
  obtain ⟨queued, state⟩ := @inputText_receipt s th skb text
  have last : ∀ u b, receipt (inputExpected u th skb b) = receipt u := by
    intro u b
    unfold inputExpected
    split
    iterate 3 (split; exact inputDelack_receipt u th skb; rfl)
    rfl
  unfold inputTail takeSegment
  dsimp only
  rw [freeSkb_receipt, last, ← queued]
  unfold inputTextFin
  by_cases fin : th.fin = true ∧ skb.seq = s.tsk.tcb.rcvNxt
  · rw [if_pos (by simp [fin]), if_pos (show th.fin = true ∧ skb.seq = (receipt s).rcvNxt from fin)]
    exact inputFin_receipt (by rw [state, text])
  · rw [if_neg (by simpa using fin),
      if_neg (show ¬(th.fin = true ∧ skb.seq = (receipt s).rcvNxt) from fin)]

/- The checks of the ACK field let the segment through to its text. -/
structure LetThrough (s : Conn) (th : TcpHdr) : Prop where
  text : s.tsk.state.phase = .text
  rst : th.rst = false
  syn : th.syn = false
  ack : th.ack = true
  low : s.tsk.tcb.sndUna ≤ th.ackSeq
  high : th.ackSeq ≤ s.tsk.tcb.sndNxt

theorem inputNewAck_receipt (s : Conn) (th : TcpHdr) :
    receipt (inputNewAck s th).1 = receipt s := by
  have timed : ∀ u : Conn, receipt (tcpRtt u) = receipt u := by
    intro u
    unfold tcpRtt
    split
    · rfl
    · split
      · rfl
      · dsimp only
        split
        · rfl
        · rfl
  rw [inputNewAck_fst]
  split
  · obtain ⟨_, _, _, _, _, eq⟩ := tcpCleanRtoQueue_touches
      (tcpRtt { s with tsk.tcb.sndUna := th.ackSeq }) th.ackSeq
    rw [eq]
    exact timed { s with tsk.tcb.sndUna := th.ackSeq }
  · rfl

theorem inputAck_open (text : s.tsk.state.phase = .text) : inputAck s th = inputNewAck s th := by
  unfold inputAck
  rcases TcpState.text_cases (by rw [text]; decide) (by rw [text]; decide) with at_state | at_state |
    at_state
  all_goals rw [at_state]

theorem inputFinAcked_receipt (text : s.tsk.state.phase = .text) :
    receipt (inputFinAcked s th) = receipt s := by
  unfold inputFinAcked
  rcases TcpState.text_cases (by rw [text]; decide) (by rw [text]; decide) with at_state | at_state |
    at_state
  all_goals
    rw [at_state]
    split
  · rfl
  · rfl
  · unfold receipt
    rw [at_state]
    rfl
  · rfl
  · rfl
  · rfl

theorem tcpInputState_open (text : s.tsk.state.phase = .text) :
    tcpInputState s th skb = inputOtherwise s th skb := by
  unfold tcpInputState
  rcases TcpState.text_cases (by rw [text]; decide) (by rw [text]; decide) with at_state | at_state |
    at_state
  all_goals rw [at_state]

theorem tcpInputState_through (through : LetThrough s th)
    (verified : tcpVerifySegment s.tsk th skb = true) :
    tcpInputState s th skb = inputTail (inputFinAcked (inputNewAck s th).1 th) th skb := by
  have same := inputNewAck_receipt s th
  have text' : (inputNewAck s th).1.tsk.state.phase = .text :=
    (congrArg Receipt.phase same).trans through.text
  have valid := (inputNewAck_snd s th).mpr ⟨through.low, through.high⟩
  have last : ¬((inputNewAck s th).1.tsk.state = .lastAck ∧
      skbQueueEmpty (inputNewAck s th).1.tsk.writeQueue = true) := by
    rintro ⟨at_state, -⟩
    rw [at_state] at text'
    cases text'
  rw [tcpInputState_open through.text]
  unfold inputOtherwise
  simp only [verified, through.rst, through.syn, through.ack, inputAck_open through.text, valid,
    Bool.not_true, Bool.false_eq_true, if_false]
  rw [if_neg last]

/-- The receive side after a segment in sequence or out of it, whatever the rest of the state. -/
theorem tcpInputState_receipt (through : LetThrough s th)
    (verified : tcpVerifySegment s.tsk th skb = true) :
    receipt (tcpInputState s th skb) = takeSegment (receipt s) th skb := by
  have same := inputNewAck_receipt s th
  have text' : (inputNewAck s th).1.tsk.state.phase = .text :=
    (congrArg Receipt.phase same).trans through.text
  have same' := @inputFinAcked_receipt _ th text'
  have text'' : (inputFinAcked (inputNewAck s th).1 th).tsk.state.phase = .text :=
    (congrArg Receipt.phase same').trans text'
  rw [tcpInputState_through through verified, inputTail_receipt text'', same', same]

/- A segment whose ACK field is out of bounds is dropped with its text. -/
theorem tcpInputState_dropped (text : s.tsk.state.phase = .text) (rst : th.rst = false)
    (invalid : ¬(s.tsk.tcb.sndUna ≤ th.ackSeq ∧ th.ackSeq ≤ s.tsk.tcb.sndNxt))
    (verified : tcpVerifySegment s.tsk th skb = true) :
    receipt (tcpInputState s th skb) = receipt s := by
  have refused : (inputNewAck s th).2 = false := by
    rw [← Bool.not_eq_true, inputNewAck_snd]
    exact invalid
  rw [tcpInputState_open text]
  unfold inputOtherwise
  simp only [verified, rst, inputAck_open text, refused, Bool.not_true, Bool.not_false,
    Bool.false_eq_true, if_false, if_true]
  split
  · exact freeSkb_receipt s skb
  · split
    · exact freeSkb_receipt s skb
    · rw [freeSkb_receipt]
      exact inputNewAck_receipt s th

end HfIp
