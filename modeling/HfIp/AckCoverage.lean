import HfIp.AckPending
import HfIp.NoStranding
import HfIp.SegmentRule

/- Every accepted byte gets acknowledged: the steps of a connection after which the last ACK sent is up
   to date or a delayed one is still to come, and a run that leaves received text unacknowledged. -/
namespace HfIp

variable {s t : Conn}

theorem tcpDone_ackBase (base : AckBase s) : AckBase (tcpDone s) :=
  base.frame tcpDone_queue (tcpDone_timers s).owned

theorem tcpDone_covers (base : AckBase s) : AckInv (tcpDone s) :=
  (tcpDone_ackBase base).outside (by rw [tcpDone_state]; decide)

theorem tcpEnterTimeWait_ackBase (base : AckBase s) : AckBase (tcpEnterTimeWait s) :=
  base.frame tcpEnterTimeWait_queue (tcpEnterTimeWait_timers s).owned

/- No move of the state alone matters, but for one to CLOSED. -/
theorem setState_ackBase (base : AckBase s) {state : TcpState} (other : state ≠ .close) :
    AckBase (setState s state) :=
  ⟨⟨base.owned.fresh, base.owned.below, base.owned.held⟩, fun close => absurd close other, base.acks,
    base.flying⟩

theorem tcpEnterTimeWait_text : (tcpEnterTimeWait s).tsk.state.phase ≠ .text := by
  rw [show (tcpEnterTimeWait s).tsk.state = .timeWait from rfl]
  decide

/-! ### The acknowledgement of a segment -/

/-- With the segment's ACK field taken, buffers are waiting and nothing is in flight. -/
def SendsQueue (s : Conn) (th : TcpHdr) : Prop :=
  if AckNew s th then EmptiesFlight s th.ackSeq else s.tsk.inflight = 0 ∧ s.tsk.writeQueue ≠ []

instance (s : Conn) (th : TcpHdr) : Decidable (SendsQueue s th) := by
  unfold SendsQueue; infer_instance

theorem inputNewAck_sends (th : TcpHdr) : SendsQueue s th ↔
    (inputNewAck s th).1.tsk.inflight = 0 ∧ (inputNewAck s th).1.tsk.writeQueue ≠ [] := by
  unfold SendsQueue
  rw [inputNewAck_fst]
  split
  · have frame := tcpRtt_queue (s := { s with tsk.tcb.sndUna := th.ackSeq })
    rw [tcpCleanRtoQueue_queue, tcpCleanRtoQueue_inflight, frame.queue, frame.inflight,
      Nat.sub_eq_zero_iff_le]
    exact And.comm
  · rfl

theorem inputNewAck_ackBase (th : TcpHdr) (base : AckBase s) : AckBase (inputNewAck s th).1 := by
  rw [inputNewAck_fst]
  split
  · have moved : AckBase { s with tsk.tcb.sndUna := th.ackSeq } := base.eq rfl rfl rfl rfl rfl rfl
    exact tcpCleanRtoQueue_ackBase _ (moved.frame tcpRtt_queue (tcpRtt_timers _).owned)
  · exact base

theorem opened_ackBase (base : AckBase s) (at_state : s.tsk.state = .synReceived) :
    AckBase (setState s .established) :=
  base.frame (opened_queue at_state) (TimerFrame.owned (.of_eq rfl rfl))

theorem inputAck_ackBase (th : TcpHdr) (base : AckBase s) : AckBase (inputAck s th).1 := by
  unfold inputAck
  split
  · rename_i at_state
    split
    · exact inputNewAck_ackBase th (opened_ackBase base at_state)
    · exact base
  iterate 6 exact inputNewAck_ackBase th base
  exact base

/- What a segment that goes on, in a state that takes text, has had its ACK field compared with. -/
theorem inputAck_text {th : TcpHdr} (valid : (inputAck s th).2 = true)
    (text : (inputAck s th).1.tsk.state.phase = .text) :
    AckReached s th ∧ (s.tsk.tcb.sndUna ≤ th.ackSeq ∧ th.ackSeq ≤ s.tsk.tcb.sndNxt) ∧
      (s.tsk.state.phase = .text ∨ s.tsk.state = .synReceived) ∧
      (SendsQueue s th ↔ (inputAck s th).1.tsk.inflight = 0 ∧
        (inputAck s th).1.tsk.writeQueue ≠ []) := by
  by_cases takes : s.tsk.state.takesAck = true
  · rw [inputAck_takes takes] at valid text ⊢
    rw [(inputNewAck_stays s th).state] at text
    exact ⟨.inl takes, (inputNewAck_snd s th).mp valid, .inl text, inputNewAck_sends th⟩
  · by_cases at_state : s.tsk.state = .synReceived
    · unfold inputAck at valid text ⊢
      simp only [at_state] at valid text ⊢
      split at valid
      · rename_i window
        rw [if_pos window]
        exact ⟨.inr ⟨at_state, window⟩, (inputNewAck_snd (setState s .established) th).mp valid,
          .inr trivial, inputNewAck_sends (s := setState s .established) th⟩
      · contradiction
    · have same := (inputAck_moves s th).1.resolve_right fun moved => at_state moved.1
      rw [same] at text
      cases other : s.tsk.state <;> simp_all [TcpState.takesAck, TcpState.phase]

/- A refused segment does not open the connection. -/
theorem inputAck_refused {th : TcpHdr} (refused : (inputAck s th).2 = false) :
    (inputAck s th).1.tsk.state = s.tsk.state := by
  rcases (inputAck_moves s th).1 with same | ⟨at_state, opened⟩
  · exact same
  · unfold inputAck at refused opened
    simp only [at_state] at refused opened
    split at refused
    · rename_i window
      have valid := (inputNewAck_snd (setState s .established) th).mpr
        ⟨window.1, UInt32.le_of_lt window.2⟩
      rw [refused] at valid
      contradiction
    · rename_i window
      rw [if_neg window] at opened
      rw [at_state] at opened
      contradiction

/-! ### Text, FIN and delayed ACKs -/

/- A head that has not been sent is no SYN, so that sending it acknowledges. -/
theorem AckBase.head_acks (base : AckBase s) (idle : s.tsk.inflight = 0) {k : SkBuff}
    (head : s.tsk.writeQueue.head? = some k) : k.th.ack = true := by
  obtain ⟨rest, queue⟩ := List.head?_eq_some_iff.mp head
  have flying := base.flying
  rw [idle, Nat.le_zero, List.countP_eq_zero] at flying
  have waits := flying k (by rw [queue]; simp)
  simp only [SkBuff.launched, Bool.or_eq_true, not_or] at waits
  exact base.acks k (by rw [queue]; simp) (by simpa using waits.2)

theorem countDelack_ackBase (base : AckBase s) (large : Bool) : AckBase (countDelack s large) := by
  unfold countDelack
  split
  · exact base.eq rfl rfl rfl rfl rfl rfl
  · exact base

theorem tcpStopDelackTimer_ackBase (base : AckBase s) : AckBase (tcpStopDelackTimer s) :=
  base.frame (.of_eq rfl rfl rfl rfl) (tcpStopDelackTimer_timers s).owned

theorem inputDelack_ackBase (th : TcpHdr) (skb : SkBuff) (base : AckBase s)
    (opened : s.tsk.state ≠ .close) : AckBase (inputDelack s th skb) := by
  have stopped := tcpStopDelackTimer_ackBase base
  have opened : (tcpStopDelackTimer s).tsk.state ≠ .close := opened
  unfold inputDelack
  generalize tcpStopDelackTimer s = t at stopped opened
  dsimp only
  split
  · rename_i idle
    have sent := tcpSendNext_ackBase (min t.tsk.writeQueue.length 3) stopped opened idle.1
    exact sent.frame tcpRearmRtoTimer_queue (tcpRearmRtoTimer_timers _).owned
  · have counted := countDelack_ackBase stopped (!th.psh && decide (1000 < skb.dlen))
    generalize countDelack t (!th.psh && decide (1000 < skb.dlen)) = u at counted
    split
    · have reset : AckBase { u with tsk.delacks := 0 } := counted.eq rfl rfl rfl rfl rfl rfl
      exact reset.minor (tcpSendAck_minor _)
    · split
      · exact counted.frame (.of_eq rfl rfl rfl rfl) (addDelack_timers u).owned
      · exact counted

theorem inputDelack_covers (th : TcpHdr) (skb : SkBuff) (base : AckBase s)
    (opened : s.tsk.state ≠ .close)
    (pending : th.psh = false → skb.dlen = 0 →
      ¬(s.tsk.inflight = 0 ∧ s.tsk.writeQueue ≠ []) → Acked s ∨ Started s .delack) :
    AckInv (inputDelack s th skb) := by
  refine { inputDelack_ackBase th skb base opened with covered := fun _ => ?_ }
  have stopped := tcpStopDelackTimer_ackBase base
  have pending : th.psh = false → skb.dlen = 0 →
      ¬((tcpStopDelackTimer s).tsk.inflight = 0 ∧ (tcpStopDelackTimer s).tsk.writeQueue ≠ []) →
      Acked (tcpStopDelackTimer s) ∨ Started (tcpStopDelackTimer s) .delack := by
    intro psh none busy
    exact (pending psh none busy).imp (AckFrame.acked (.of_eq rfl rfl))
      (tcpStopDelackTimer_timers s).started
  have opened : (tcpStopDelackTimer s).tsk.state ≠ .close := opened
  unfold inputDelack
  generalize tcpStopDelackTimer s = t at stopped pending opened
  dsimp only
  split
  · rename_i idle
    obtain ⟨k, head⟩ : ∃ k, t.tsk.writeQueue.head? = some k := by
      cases queue : t.tsk.writeQueue with
      | nil => simp [queue] at idle
      | cons k rest => exact ⟨k, rfl⟩
    have sent := sendNextLoop_acked t idle.2 head (stopped.head_acks idle.1 head)
    have acked : Acked (tcpSendNext t (min t.tsk.writeQueue.length 3)) := sent
    exact .inl ((tcpRearmRtoTimer_acks _).acked acked)
  · rename_i busy
    have busy : ¬(t.tsk.inflight = 0 ∧ t.tsk.writeQueue ≠ []) := by
      rintro ⟨idle, some_left⟩
      have := List.length_pos_iff.mpr some_left
      exact busy ⟨idle, by omega⟩
    have counted : AckFrame t (countDelack t (!th.psh && decide (1000 < skb.dlen))) ∧
        TimerFrame [] t (countDelack t (!th.psh && decide (1000 < skb.dlen))) ∧
        (countDelack t (!th.psh && decide (1000 < skb.dlen))).tsk.state = t.tsk.state := by
      unfold countDelack
      split
      · exact ⟨.of_eq rfl rfl, .of_eq rfl rfl, rfl⟩
      · exact ⟨.refl t, .refl t, rfl⟩
    obtain ⟨acks, timers, state⟩ := counted
    generalize countDelack t (!th.psh && decide (1000 < skb.dlen)) = u at acks timers state
    split
    · exact .inl (tcpSendAck_acked _ (state ▸ opened))
    · rename_i later
      split
      · refine .inr (.inl ⟨⟨u.ts.next, u.ts.tick + 200, .tcpSendDelack⟩, ?_, rfl⟩)
        show _ ∈ alarms (timerAdd u.ts 200 .tcpSendDelack).1
        rw [alarms_add]
        simp
      · rename_i nothing
        have psh : th.psh = false := by
          cases psh : th.psh
          · rfl
          · exact absurd (.inl psh) later
        have none : skb.dlen = 0 := by
          have := UInt32.not_lt.mp nothing
          exact UInt32.le_zero_iff.mp this
        rcases pending psh none busy with acked | starts
        · exact .inl (acks.acked acked)
        · exact .inr (.inr (timers.started starts))

theorem TcpState.afterFin_phase (a : TcpState) (empty : Bool) : (a.afterFin empty).phase ≠ .text := by
  cases a <;> cases empty <;> decide

theorem inputFin_ackBase (base : AckBase s) (opened : s.tsk.state ≠ .close) :
    AckBase (inputFin s) := by
  have acked := (((pollReadable_minor { s with
      tsk.tcb.rcvNxt := s.tsk.tcb.rcvNxt + 1, tsk.flags := s.tsk.flags ||| TCP_FIN }).trans
    (tcpSendAck_minor _)).trans (recvNotify_minor _))
  have base := (base.eq (t := { s with
    tsk.tcb.rcvNxt := s.tsk.tcb.rcvNxt + 1, tsk.flags := s.tsk.flags ||| TCP_FIN })
    rfl rfl rfl rfl rfl rfl).minor acked
  have opened := fun close => opened (acked.same.state.symm.trans close)
  unfold inputFin
  dsimp only at opened ⊢
  generalize recvNotify (tcpSendAck (pollReadable { s with
    tsk.tcb.rcvNxt := s.tsk.tcb.rcvNxt + 1, tsk.flags := s.tsk.flags ||| TCP_FIN })) = t at base opened
  split
  · exact setState_ackBase base (by decide)
  · exact setState_ackBase base (by decide)
  · split
    · exact tcpEnterTimeWait_ackBase base
    · exact setState_ackBase base (by decide)
  · exact tcpEnterTimeWait_ackBase base
  · exact base

/- Text in sequence moves what is to be acknowledged; out of sequence it is acknowledged at once. -/
theorem inputText_covers (th : TcpHdr) (skb : SkBuff) (text : s.tsk.state.phase = .text)
    (some_text : th.psh = true ∨ 0 < skb.dlen) (early : skb.seq ≠ s.tsk.tcb.rcvNxt)
    (window : s.tsk.tcb.rcvWnd ≠ 0) : Acked (inputText s th skb).1 := by
  have opened : s.tsk.state ≠ .close := by
    rintro close
    rw [close] at text
    contradiction
  have queued : Acked (tcpDataQueue s skb).1 := by
    unfold tcpDataQueue
    rw [if_neg window, if_neg early]
    dsimp only
    refine tcpSendAck_acked _ ?_
    split
    · rw [(tcpCalculateSacks_minor { s with
        tsk.ofoQueue := (tcpDataInsertOrdered s.tsk.ofoQueue skb).1 }).same.state]
      exact opened
    · exact opened
  unfold inputText
  rcases TcpState.text_cases (by rw [text]; decide) (by rw [text]; decide) with state | state | state
  iterate 3
    simp only [state]
    rw [if_pos some_text]
    exact queued

theorem inputText_textless {th : TcpHdr} {skb : SkBuff} (psh : th.psh = false)
    (none : skb.dlen = 0) : inputText s th skb = (s, skb) := by
  have textless : ¬(th.psh = true ∨ 0 < skb.dlen) := by simp [psh, none]
  unfold inputText
  split
  iterate 3 exact if_neg textless
  rfl

theorem inputText_ackBase (th : TcpHdr) (skb : SkBuff) (base : AckBase s) :
    AckBase (inputText s th skb).1 :=
  base.frame (inputText_queue th skb) (inputText_timers s th skb).owned

theorem inputTail_ackBase (th : TcpHdr) (skb : SkBuff) (base : AckBase s)
    (opened : s.tsk.state ≠ .close) : AckBase (inputTail s th skb) := by
  have text := inputText_ackBase th skb base
  have opened : (inputText s th skb).1.tsk.state ≠ .close := by
    rw [(inputText_stays s th skb).state]
    exact opened
  unfold inputTail
  refine AckBase.minor ?_ (freeSkb_minor _ _)
  generalize (inputText s th skb).1 = t at text opened
  have finished : AckBase (inputTextFin t th (decide (skb.seq = s.tsk.tcb.rcvNxt))) := by
    unfold inputTextFin
    split
    · exact inputFin_ackBase text opened
    · exact text
  unfold inputExpected
  split
  iterate 3
    rename_i state
    split
    · exact inputDelack_ackBase th skb finished (by rw [state]; decide)
    · exact finished
  exact finished

theorem inputExpected_covers (th : TcpHdr) (skb : SkBuff) (base : AckBase s)
    (pending : s.tsk.state.phase = .text → th.psh = false → skb.dlen = 0 →
      ¬(s.tsk.inflight = 0 ∧ s.tsk.writeQueue ≠ []) → Acked s ∨ Started s .delack) :
    AckInv (inputExpected s th skb true) := by
  unfold inputExpected
  split
  iterate 3
    rename_i state
    exact inputDelack_covers th skb base (by rw [state]; decide) (pending (by rw [state]; rfl))
  rename_i est fin1 fin2
  refine base.outside fun text => ?_
  rcases TcpState.text_cases (by rw [text]; decide) (by rw [text]; decide) with state | state | state
  · exact est state
  · exact fin1 state
  · exact fin2 state

theorem inputTail_covers (th : TcpHdr) (skb : SkBuff) (base : AckBase s)
    (opened : s.tsk.state ≠ .close) (window : s.tsk.tcb.rcvWnd = 0 → skb.seq = s.tsk.tcb.rcvNxt)
    (cancels : s.tsk.state.phase = .text → skb.seq = s.tsk.tcb.rcvNxt → th.fin = false →
      th.psh = false → skb.dlen = 0 → ¬(s.tsk.inflight = 0 ∧ s.tsk.writeQueue ≠ []) →
      Acked s ∨ Started s .delack)
    (passes : skb.seq ≠ s.tsk.tcb.rcvNxt → th.psh = false → skb.dlen = 0 → AckCovered s) :
    AckInv (inputTail s th skb) := by
  have textBase := inputText_ackBase th skb base
  have state := (inputText_stays s th skb).state
  unfold inputTail
  refine AckInv.minor ?_ (freeSkb_minor _ _)
  by_cases expected : skb.seq = s.tsk.tcb.rcvNxt
  · simp only [expected, decide_true]
    by_cases fin : th.fin = true
    · -- the FIN ends the text
      have kept : inputTextFin (inputText s th skb).1 th true = inputFin (inputText s th skb).1 := by
        simp [inputTextFin, fin]
      have out : (inputFin (inputText s th skb).1).tsk.state.phase ≠ .text := by
        rw [(inputFin_moves _).1]
        exact TcpState.afterFin_phase _ _
      rw [kept]
      refine inputExpected_covers th skb (inputFin_ackBase textBase (state ▸ opened)) ?_
      exact fun text => absurd text out
    · have kept : inputTextFin (inputText s th skb).1 th true = (inputText s th skb).1 := by
        simp [inputTextFin, fin]
      rw [kept]
      refine inputExpected_covers th skb textBase fun text psh none => ?_
      rw [state] at text
      rw [inputText_textless psh none]
      exact cancels text expected (by simpa using fin) psh none
  · have kept : inputExpected (inputTextFin (inputText s th skb).1 th false) th skb false
        = (inputText s th skb).1 := by
      unfold inputExpected inputTextFin
      simp only [Bool.and_false, Bool.false_eq_true, if_false]
      split <;> rfl
    simp only [expected, decide_false]
    rw [kept]
    refine { textBase with covered := fun text => ?_ }
    by_cases some_text : th.psh = true ∨ 0 < skb.dlen
    · exact .inl (inputText_covers th skb (state ▸ text) some_text expected (mt window expected))
    · rw [not_or] at some_text
      have psh : th.psh = false := by simpa using some_text.1
      have none : skb.dlen = 0 := UInt32.le_zero_iff.mp (UInt32.not_lt.mp some_text.2)
      rw [inputText_textless psh none] at text ⊢
      exact passes expected psh none text

/-- The segment cancels a delayed ACK, or opens the connection, without being answered. -/
def Silent (s : Conn) (th : TcpHdr) (skb : SkBuff) : Prop :=
  (tcpVerifySegment s.tsk th skb = true ∧ th.rst = false ∧ th.syn = false ∧ th.ack = true) ∧
    AckReached s th ∧ (s.tsk.tcb.sndUna ≤ th.ackSeq ∧ th.ackSeq ≤ s.tsk.tcb.sndNxt) ∧
    (th.psh = false ∧ skb.dlen = 0) ∧
    ((skb.seq = s.tsk.tcb.rcvNxt ∧ th.fin = false ∧ ¬SendsQueue s th ∧
        (s.tsk.state.phase = .text ∨ s.tsk.state = .synReceived)) ∨
      (skb.seq ≠ s.tsk.tcb.rcvNxt ∧ s.tsk.state = .synReceived))

instance (s : Conn) (th : TcpHdr) (skb : SkBuff) : Decidable (Silent s th skb) :=
  inferInstanceAs (Decidable (_ ∧ _))

/- A window of zero lets nothing but the next number pass. -/
theorem tcpVerifySegment_shut {th : TcpHdr} {skb : SkBuff}
    (verified : tcpVerifySegment s.tsk th skb = true) (shut : s.tsk.tcb.rcvWnd = 0) :
    th.seq = s.tsk.tcb.rcvNxt := by
  unfold tcpVerifySegment at verified
  split at verified
  · contradiction
  · split at verified
    · contradiction
    · rename_i inside
      rw [not_or, shut, UInt32.add_zero] at inside
      exact UInt32.le_antisymm (UInt32.not_lt.mp inside.2) (UInt32.not_lt.mp inside.1)

theorem inputNewAck_rcvWnd (th : TcpHdr) :
    (inputNewAck s th).1.tsk.tcb.rcvWnd = s.tsk.tcb.rcvWnd := by
  rw [inputNewAck_fst]
  split
  · obtain ⟨_, _, _, _, _, eq⟩ := tcpCleanRtoQueue_touches
      (tcpRtt { s with tsk.tcb.sndUna := th.ackSeq }) th.ackSeq
    have tcb := tcpRtt_tcb { s with tsk.tcb.sndUna := th.ackSeq }
    rw [eq]
    dsimp only
    rw [tcb]
  · rfl

theorem inputAck_rcvWnd (th : TcpHdr) : (inputAck s th).1.tsk.tcb.rcvWnd = s.tsk.tcb.rcvWnd := by
  unfold inputAck
  split
  · split
    · exact inputNewAck_rcvWnd (s := setState s .established) th
    · rfl
  iterate 6 exact inputNewAck_rcvWnd th
  rfl

/- Past the ACK field the queue and the window are the same, and no state becomes one that takes
   text. -/
theorem inputFinAcked_view (th : TcpHdr) : (inputFinAcked s th).tsk.tcb = s.tsk.tcb ∧
    (inputFinAcked s th).tsk.writeQueue = s.tsk.writeQueue ∧
    (inputFinAcked s th).tsk.inflight = s.tsk.inflight ∧
    ((inputFinAcked s th).tsk.state.phase = .text → s.tsk.state.phase = .text) ∧
    ((inputFinAcked s th).tsk.state = .close → s.tsk.state = .close) := by
  unfold inputFinAcked
  split
  · split <;> rename_i at_state
    · exact ⟨rfl, rfl, rfl, (fun _ => by rw [at_state]; rfl), fun close => by cases close⟩
    · exact ⟨rfl, rfl, rfl, (fun text => by cases text), fun close => by cases close⟩
    · split
      · have acked := (tcpSendAck_minor { s with tsk.flags := s.tsk.flags ||| TCP_FIN }).same
        refine ⟨acked.tcb, acked.writeQueue, acked.inflight, ?_, ?_⟩
        · rw [acked.state]; exact id
        · rw [acked.state]; exact id
      · exact ⟨rfl, rfl, rfl, id, id⟩
    · exact ⟨rfl, rfl, rfl, id, id⟩
  · exact ⟨rfl, rfl, rfl, id, id⟩

theorem inputFinAcked_ackBase (th : TcpHdr) (base : AckBase s) : AckBase (inputFinAcked s th) := by
  obtain ⟨-, queue, inflight, -, close⟩ := inputFinAcked_view (s := s) th
  refine ⟨(inputFinAcked_timers s th).owned base.owned, fun closed => ?_, ?_, ?_⟩
  · rw [queue]; exact base.closed (close closed)
  · rw [queue]; exact base.acks
  · rw [queue, inflight]; exact base.flying

/- The ACK field leads to no CLOSED state. -/
theorem inputFinAcked_open (th : TcpHdr) (opened : s.tsk.state ≠ .close) :
    (inputFinAcked (inputAck s th).1 th).tsk.state ≠ .close := by
  intro closed
  obtain ⟨-, -, -, -, close⟩ := inputFinAcked_view (s := (inputAck s th).1) th
  rcases (inputAck_moves s th).1 with same | ⟨-, now⟩
  · exact opened (same.symm.trans (close closed))
  · rw [close closed] at now
    contradiction

theorem inputOtherwise_ackBase (th : TcpHdr) (skb : SkBuff) (base : AckBase s)
    (opened : s.tsk.state ≠ .close) : AckBase (inputOtherwise s th skb) := by
  have acked := inputAck_ackBase th base
  refine inputOtherwise_cases s th skb ?_ ?_ ?_ ?_ ?_ ?_
  · intro _
    refine AckBase.minor ?_ (freeSkb_minor _ _)
    split
    · exact base
    · exact base.minor (tcpSendAck_minor s)
  · intro _ _
    exact (tcpEnterTimeWait_ackBase (base.minor (freeSkb_minor s skb))).minor (recvNotify_minor _)
  · exact fun _ _ _ => base.minor (freeSkb_minor _ _)
  · exact fun _ _ _ _ _ => acked.minor (freeSkb_minor _ _)
  · exact fun _ _ _ _ _ _ _ => tcpDone_ackBase (acked.minor (freeSkb_minor _ skb))
  · intro _ _ _ _ _ _
    exact inputTail_ackBase th skb (inputFinAcked_ackBase th acked) (inputFinAcked_open th opened)

theorem inputOtherwise_covers (th : TcpHdr) (skb : SkBuff) (seq : skb.seq = th.seq) (inv : AckInv s)
    (opened : s.tsk.state ≠ .close) (ok : Silent s th skb → Acked s ∨ Started s .delack) :
    AckInv (inputOtherwise s th skb) := by
  have base := inputAck_ackBase th inv.toAckBase
  refine inputOtherwise_cases s th skb ?unverified ?reset ?ignored ?refused ?closed ?taken
  case unverified =>
    intro _
    refine AckInv.minor ?_ (freeSkb_minor _ _)
    split
    · exact inv
    · exact inv.minor (tcpSendAck_minor s)
  case reset =>
    intro _ _
    have freed := inv.toAckBase.minor (freeSkb_minor s skb)
    exact ((tcpEnterTimeWait_ackBase freed).outside tcpEnterTimeWait_text).minor (recvNotify_minor _)
  case ignored => exact fun _ _ _ => inv.minor (freeSkb_minor _ _)
  case refused =>
    intro _ _ _ _ refused
    have same := inputAck_refused refused
    exact (inv.frame base (inputAck_acks s th) (inputAck_timers th) (by simp)
      (by rw [same]; exact id)).minor (freeSkb_minor _ _)
  case closed =>
    intro _ _ _ _ _ _ _
    have freed := base.minor (freeSkb_minor _ skb)
    exact tcpDone_covers freed
  case taken =>
    intro verified rst syn ack valid _
    have acks := (inputAck_acks s th).trans (inputFinAcked_acks _ th)
    have timers := (inputAck_timers (s := s) th).trans (inputFinAcked_timers _ th)
    obtain ⟨tcb, queue, inflight, text, -⟩ := inputFinAcked_view (s := (inputAck s th).1) th
    have rcvNxt : (inputFinAcked (inputAck s th).1 th).tsk.tcb.rcvNxt = s.tsk.tcb.rcvNxt := by
      rw [tcb, inputAck_rcvNxt]
    refine inputTail_covers th skb (inputFinAcked_ackBase th base) (inputFinAcked_open th opened)
      ?_ ?_ ?_
    · rw [tcb, inputAck_rcvWnd, inputAck_rcvNxt, seq]
      exact tcpVerifySegment_shut verified
    · rw [rcvNxt, queue, inflight]
      intro in_text expected fin psh none busy
      obtain ⟨reached, window, phase, sends⟩ := inputAck_text valid (text in_text)
      have silent : Silent s th skb := ⟨⟨verified, rst, syn, ack⟩, reached, window, ⟨psh, none⟩,
        .inl ⟨expected, fin, mt sends.mp busy, phase⟩⟩
      exact (ok silent).imp acks.acked timers.started
    · rw [rcvNxt]
      intro early psh none in_text
      obtain ⟨reached, window, phase, -⟩ := inputAck_text valid (text in_text)
      rcases phase with phase | opening
      · rcases inv.covered phase with acked | armed
        · exact .inl (acks.acked acked)
        · exact .inr (timers.armed inv.owned (by simp) armed)
      · have silent : Silent s th skb := ⟨⟨verified, rst, syn, ack⟩, reached, window, ⟨psh, none⟩,
          .inr ⟨early, opening⟩⟩
        rcases ok silent with acked | starts
        · exact .inl (acks.acked acked)
        · exact .inr (.inr (timers.started starts))

/-! ### Connecting -/

theorem synsentAck_ackBase (th : TcpHdr) (base : AckBase s) : AckBase (synsentAck s th) := by
  unfold synsentAck
  dsimp only
  split
  · exact tcpCleanRtoQueue_ackBase _ (base.eq rfl rfl rfl rfl rfl rfl)
  · exact base.eq rfl rfl rfl rfl rfl rfl

/- The answer to the SYN-ACK acknowledges it. -/
theorem synsentSyn_covers (th : TcpHdr) (base : AckBase s) (waiting : s.tsk.state = .synSent) :
    AckInv (synsentSyn s th) := by
  have ackd := synsentAck_ackBase th base
  have at_state := (synsentAck_state (s := s) th).trans waiting
  unfold synsentSyn
  generalize synsentAck s th = t at ackd at_state
  have moves : ∀ state, state ≠ .close → AckBase (setState t state) := fun _ => setState_ackBase ackd
  dsimp only
  split
  · unfold synsentEstablish
    dsimp only
    have opened : AckBase { setState t .established with
        tsk.tcb.sndUna := (setState t .established).tsk.tcb.sndNxt, tsk.backoff := 0
        tsk.rto := 1000 } := (moves .established (by decide)).eq rfl rfl rfl rfl rfl rfl
    have sent := (opened.minor (tcpSendAck_minor _)).acked (tcpSendAck_acked _ (by simp [setState]))
    generalize tcpSendAck { setState t .established with
      tsk.tcb.sndUna := (setState t .established).tsk.tcb.sndNxt, tsk.backoff := 0
      tsk.rto := 1000 } = u at sent
    have timed := sent.stay (.of_send (tcpRearmUserTimeout_send u) (tcpRearmUserTimeout_stays u))
      (tcpRearmUserTimeout_acks u) (tcpRearmUserTimeout_timers u) (by simp) (tcpRearmUserTimeout_stays u)
    generalize tcpRearmUserTimeout u = v at timed
    have parsed := (timed.eq (t := { v with tsk.smss := (tcpParseOpts v.tsk th).smss })
      rfl rfl rfl rfl rfl rfl rfl rfl).minor (tcpParseOpts_minor v th)
    exact parsed.eq rfl rfl rfl rfl rfl rfl rfl rfl
  · rw [tcpSendSynack_minor _ (by simp [setState])]
    have opened : AckBase { setState t .synReceived with
        tsk.tcb.sndUna := (setState t .synReceived).tsk.tcb.iss } :=
      (moves .synReceived (by decide)).eq rfl rfl rfl rfl rfl rfl
    exact opened.outside (by simp [setState, TcpState.phase])

theorem tcpReset_ackBase (base : AckBase s) : AckBase (tcpReset s) := by
  have marked : ∀ e, AckBase { s with
      tsk.pollEvents := POLLOUT ||| POLLWRNORM ||| POLLERR ||| POLLHUP, tsk.err := e } :=
    fun e => base.eq rfl rfl rfl rfl rfl rfl
  unfold tcpReset
  dsimp only
  split
  · exact tcpDone_ackBase (marked _)
  · exact tcpDone_ackBase (marked _)
  · exact base.eq rfl rfl rfl rfl rfl rfl
  · exact tcpDone_ackBase (marked _)

theorem tcpReset_covers (inv : AckInv s) : AckInv (tcpReset s) := by
  have marked : ∀ e, AckBase { s with
      tsk.pollEvents := POLLOUT ||| POLLWRNORM ||| POLLERR ||| POLLHUP, tsk.err := e } :=
    fun e => inv.toAckBase.eq rfl rfl rfl rfl rfl rfl
  unfold tcpReset
  dsimp only
  split
  · exact tcpDone_covers (marked _)
  · exact tcpDone_covers (marked _)
  · exact inv.eq rfl rfl rfl rfl rfl rfl rfl rfl
  · exact tcpDone_covers (marked _)

theorem tcpInputState_ackBase (th : TcpHdr) (skb : SkBuff) (base : AckBase s) :
    AckBase (tcpInputState s th skb) := by
  unfold tcpInputState
  split
  · unfold tcpClosed
    split
    · exact base.minor (freeSkb_minor _ _)
    · exact (base.frame tcpSendReset_queue (tcpSendReset_timers s).owned).minor (freeSkb_minor _ _)
  · exact base.minor (freeSkb_minor _ _)
  · rename_i waiting
    refine tcpSynsent_cases (base.minor (freeSkb_minor _ _)) ?_ ?_
    · intro _ _
      exact (tcpReset_ackBase base).minor (freeSkb_minor _ _)
    · exact fun _ => (synsentSyn_covers th base waiting).toAckBase.minor (freeSkb_minor _ _)
  · rename_i opened _ _
    exact inputOtherwise_ackBase th skb base opened

theorem tcpInputState_covers (th : TcpHdr) (skb : SkBuff) (seq : skb.seq = th.seq) (inv : AckInv s)
    (ok : Silent s th skb → Acked s ∨ Started s .delack) : AckInv (tcpInputState s th skb) := by
  unfold tcpInputState
  split
  · unfold tcpClosed
    split
    · exact inv.minor (freeSkb_minor _ _)
    · exact (inv.stay tcpSendReset_queue (tcpSendReset_acks s) (tcpSendReset_timers s) (by simp)
        (tcpSendReset_stays s)).minor (freeSkb_minor _ _)
  · exact inv.minor (freeSkb_minor _ _)
  · rename_i waiting
    unfold tcpSynsent
    dsimp only
    split
    · exact inv.minor (freeSkb_minor _ _)
    · split
      · exact inv.minor (freeSkb_minor _ _)
      · split
        · exact (tcpReset_covers inv).minor (freeSkb_minor _ _)
        · split
          · exact inv.minor (freeSkb_minor _ _)
          · exact (synsentSyn_covers th inv.toAckBase waiting).minor (freeSkb_minor _ _)
  · rename_i opened _ _
    exact inputOtherwise_covers th skb seq inv opened ok

/-! ### Calls -/

theorem tcpSendLoop_ackBase (mss fuel : Nat) (buf : List UInt8) (base : AckBase s)
    (opened : s.tsk.state ≠ .close) : AckBase (tcpSendLoop mss fuel s buf) := by
  induction fuel generalizing s buf with
  | zero => exact base
  | succ fuel ih =>
    rw [tcpSendLoop]
    split
    · exact base
    · dsimp only
      have allocated := base.minor (tcpAllocSkb_minor s 0 (buf.take mss))
      set al := tcpAllocSkb s 0 (buf.take mss)
      set k : SkBuff := { al.2 with
        th := { al.2.th with ack := true, psh := (buf.drop mss).length = 0 } }
      have stays := tcpQueueTransmitSkb_stays al.1 k
      have queued := tcpQueueTransmitSkb_ackBase k allocated opened rfl (fun _ => rfl)
        (fun syn => by cases syn)
      exact ih _ queued (by rw [stays.state]; exact opened)

theorem tcpWrite_ackBase (buf : List UInt8) (base : AckBase s) : AckBase (tcpWrite s buf).1 := by
  have writes : s.tsk.state ≠ .close → AckBase (tcpSend s buf) := by
    intro opened
    have taken : AckBase { s with accepted := s.accepted ++ buf } :=
      base.eq rfl rfl rfl rfl rfl rfl
    have sent := tcpSendLoop_ackBase s.tsk.smss.toNat buf.length buf taken opened
    exact sent.frame (.of_send (tcpRearmUserTimeout_send _) (tcpRearmUserTimeout_stays _))
      (tcpRearmUserTimeout_timers _).owned
  unfold tcpWrite
  split
  · exact base
  · split
    · rename_i at_state
      exact writes (by rw [at_state]; decide)
    · rename_i at_state
      exact writes (by rw [at_state]; decide)
    · exact base

theorem tcpWrite_covers (buf : List UInt8) (inv : AckInv s) : AckInv (tcpWrite s buf).1 :=
  inv.frame (tcpWrite_ackBase buf inv.toAckBase) (tcpWrite_acks s buf) (tcpWrite_timers s buf)
    (by simp) (by rw [(tcpWrite_stays s buf).state]; exact id)

theorem tcpQueueFin_ackBase (base : AckBase s) (opened : s.tsk.state ≠ .close) :
    AckBase (tcpQueueFin s) := by
  have counted : AckBase (tcpAllocSkb { s with fins := s.fins + 1 } 0 []).1 :=
    base.eq rfl rfl rfl rfl rfl rfl
  exact tcpQueueTransmitSkb_ackBase _ counted opened rfl (fun _ => rfl) (fun syn => by cases syn)

theorem tcpQueueFin_covers (inv : AckInv s) (opened : s.tsk.state ≠ .close) :
    AckInv (tcpQueueFin s) :=
  inv.frame (tcpQueueFin_ackBase inv.toAckBase opened) (tcpQueueFin_acks s) (tcpQueueFin_timers s)
    (by simp) (by rw [(tcpQueueFin_stays s).state]; exact id)

theorem tcpClose_ackBase (base : AckBase s) : AckBase (tcpClose s).1 := by
  unfold tcpClose
  split
  iterate 6 exact base.eq rfl rfl rfl rfl rfl rfl
  iterate 3 exact tcpDone_ackBase base
  · exact tcpQueueFin_ackBase (setState_ackBase base (by decide)) (by simp [setState])
  · rename_i at_state
    exact tcpQueueFin_ackBase base (by rw [at_state]; decide)

theorem tcpClose_covers (inv : AckInv s) : AckInv (tcpClose s).1 := by
  unfold tcpClose
  split
  iterate 6 exact inv.eq rfl rfl rfl rfl rfl rfl rfl rfl
  iterate 3 exact tcpDone_covers inv.toAckBase
  · rename_i at_state
    have base : AckBase (setState s .finWait1) := setState_ackBase inv.toAckBase (by decide)
    have moved := inv.frame base (.of_eq rfl rfl) (.of_eq rfl rfl) (by simp)
      (fun _ => by rw [at_state]; rfl)
    exact tcpQueueFin_covers moved (by simp [setState])
  · rename_i at_state
    exact tcpQueueFin_covers inv (by rw [at_state]; decide)

/- The SYN is alone in the queue. -/
theorem tcpV4Connect_covers (addr : SockAddr) (port : UInt16) (iss : UInt32) (base : AckBase s)
    (closed : s.tsk.state = .close) : AckInv (tcpV4Connect s addr port iss) := by
  have none := base.closed closed
  set r : Conn := { s with
    tsk.dport := addr.port, tsk.sport := port, tsk.daddr := addr.addr
    tsk.saddr := parseIpv4 10 0 0 4
    tsk.tcb.iss := iss, tsk.tcb.sndUna := iss, tsk.tcb.sndNxt := iss, tsk.tcb.rcvNxt := 0
    tsk.tcb.rcvWnd := tcpSelectInitialWindow } with hr
  have empty : r.tsk.writeQueue = [] := none
  have at_close : r.tsk.state = .close := closed
  set al := tcpAllocSkb r (tcpSynOptions r.tsk) []
  set k : SkBuff := { al.2 with
    th := { tcpWriteSynOptions r.tsk al.2.th (tcpSynOptions r.tsk) with syn := true } }
  have eq : tcpV4Connect s addr port iss = { tcpQueueTransmitSkb (setState al.1 .synSent) k with
      tsk.tcb.sndNxt := (tcpQueueTransmitSkb (setState al.1 .synSent) k).tsk.tcb.sndNxt + 1 } := by
    show (let u := tcpSendSyn r; { u with tsk.tcb.sndNxt := u.tsk.tcb.sndNxt + 1 }) = _
    unfold tcpSendSyn
    rw [if_neg (by rw [at_close]; decide)]
  have allocated : AckBase al.1 := base.eq rfl rfl rfl rfl rfl rfl
  have opening : AckBase (setState al.1 .synSent) := setState_ackBase allocated (by decide)
  have queued := tcpQueueTransmitSkb_ackBase k opening (by simp [setState]) rfl
    (fun syn => by cases syn) (fun _ => empty)
  have state := (tcpQueueTransmitSkb_stays (setState al.1 .synSent) k).state
  rw [eq]
  refine AckBase.outside (queued.eq rfl rfl rfl rfl rfl rfl) ?_
  show (tcpQueueTransmitSkb (setState al.1 .synSent) k).tsk.state.phase ≠ .text
  rw [state]
  simp [setState, TcpState.phase]

/-! ### Handlers -/

theorem tcpReleaseRtoTimer_covers (inv : AckInv s) : AckInv (tcpReleaseRtoTimer s) :=
  inv.stay (.of_eq rfl rfl rfl rfl) (.of_eq rfl rfl) (tcpReleaseRtoTimer_timers s) (by simp) ⟨rfl, rfl⟩

theorem retransmitHead_covers {k : SkBuff} (inv : AckInv s)
    (head : s.tsk.writeQueue.head? = some k) : AckInv (retransmitHead s k) :=
  inv.frame (retransmitHead_ackBase inv.toAckBase head) (retransmitHead_acks s k)
    (retransmitHead_timers s k) (by simp) (by rw [(retransmitHead_stays s k).state]; exact id)

theorem tcpReleaseRtoTimer_ackBase (base : AckBase s) : AckBase (tcpReleaseRtoTimer s) :=
  base.frame (.of_eq rfl rfl rfl rfl) (tcpReleaseRtoTimer_timers s).owned

theorem tcpConnectRto_ackBase (base : AckBase s) : AckBase (tcpConnectRto s) := by
  have released := tcpReleaseRtoTimer_ackBase base
  unfold tcpConnectRto
  generalize tcpReleaseRtoTimer s = t at released
  dsimp only
  split
  · split
    · exact tcpDone_ackBase (released.eq rfl rfl rfl rfl rfl rfl)
    · split
      · exact released
      · rename_i k head
        have again := retransmitHead_ackBase released head
        generalize retransmitHead t k = u at again
        have counted : AckBase { u with tsk.backoff := u.tsk.backoff + 1 } :=
          again.eq rfl rfl rfl rfl rfl rfl
        exact counted.frame tcpRearmRtoTimer_queue (tcpRearmRtoTimer_timers _).owned
  · exact released

theorem tcpConnectRto_covers (inv : AckInv s) : AckInv (tcpConnectRto s) := by
  have released := tcpReleaseRtoTimer_covers inv
  unfold tcpConnectRto
  generalize tcpReleaseRtoTimer s = t at released
  dsimp only
  split
  · split
    · have failed : AckInv (retransmissionFailed t) := released.eq rfl rfl rfl rfl rfl rfl rfl rfl
      exact tcpDone_covers failed.toAckBase
    · split
      · exact released
      · rename_i k head
        have again := retransmitHead_covers released head
        generalize retransmitHead t k = u at again
        have counted : AckInv { u with tsk.backoff := u.tsk.backoff + 1 } :=
          again.eq rfl rfl rfl rfl rfl rfl rfl rfl
        exact counted.stay tcpRearmRtoTimer_queue (tcpRearmRtoTimer_acks _)
          (tcpRearmRtoTimer_timers _) (by simp) (tcpRearmRtoTimer_stays _)
  · exact released

theorem tcpHandleFinState_text (text : (tcpHandleFinState s).tsk.state.phase = .text) :
    s.tsk.state.phase = .text := by
  unfold tcpHandleFinState at text
  split at text
  · contradiction
  · rename_i at_state
    rw [at_state]
    rfl
  · exact text

theorem tcpHandleFinState_acks : AckFrame s (tcpHandleFinState s) := by
  unfold tcpHandleFinState
  split <;> exact .of_eq rfl rfl

theorem tcpRetransmissionTimeout_covers (inv : AckInv s) :
    AckInv (tcpRetransmissionTimeout s) := by
  have released := tcpReleaseRtoTimer_covers inv
  unfold tcpRetransmissionTimeout
  generalize tcpReleaseRtoTimer s = t at released
  dsimp only
  split
  · exact (released.eq (t := { t with tsk.backoff := 0 }) rfl rfl rfl rfl rfl rfl rfl rfl).minor
      (tcpNotifyUser_minor _)
  · rename_i k head
    have again := retransmitHead_covers released head
    generalize retransmitHead t k = u at again
    have backed := again.stay (t := retransmissionBackoff u) (.of_eq rfl rfl rfl rfl) (.of_eq rfl rfl)
      (retransmissionBackoff_timers u) (by simp) ⟨rfl, rfl⟩
    split
    · exact (tcpDone_covers again.toAckBase).eq rfl rfl rfl rfl rfl rfl rfl rfl
    · split
      · exact backed.frame (backed.toAckBase.frame tcpHandleFinState_queue
          (tcpHandleFinState_timers _).owned) tcpHandleFinState_acks (tcpHandleFinState_timers _)
          (by simp) tcpHandleFinState_text
      · exact backed

theorem tcpRetransmissionTimeout_ackBase (base : AckBase s) :
    AckBase (tcpRetransmissionTimeout s) := by
  have released := tcpReleaseRtoTimer_ackBase base
  unfold tcpRetransmissionTimeout
  generalize tcpReleaseRtoTimer s = t at released
  dsimp only
  split
  · exact (released.eq (t := { t with tsk.backoff := 0 }) rfl rfl rfl rfl rfl rfl).minor
      (tcpNotifyUser_minor _)
  · rename_i k head
    have again := retransmitHead_ackBase released head
    generalize retransmitHead t k = u at again
    have backed : AckBase (retransmissionBackoff u) :=
      again.frame (.of_eq rfl rfl rfl rfl) (retransmissionBackoff_timers u).owned
    split
    · exact (tcpDone_ackBase again).eq rfl rfl rfl rfl rfl rfl
    · split
      · exact backed.frame tcpHandleFinState_queue (tcpHandleFinState_timers _).owned
      · exact backed

theorem tcpSendDelack_covers (base : AckBase s) : AckInv (tcpSendDelack s) := by
  have counted : AckBase { s with tsk.delacks := 0 } := base.eq rfl rfl rfl rfl rfl rfl
  have released : AckBase (tcpReleaseDelackTimer { s with tsk.delacks := 0 }) :=
    counted.frame (.of_eq rfl rfl rfl rfl) (tcpReleaseDelackTimer_timers _).owned
  unfold tcpSendDelack
  generalize tcpReleaseDelackTimer { s with tsk.delacks := 0 } = t at released
  have sent := released.minor (tcpSendAck_minor t)
  by_cases close : t.tsk.state = .close
  · refine sent.outside ?_
    rw [(tcpSendAck_minor t).same.state, close]
    decide
  · exact sent.acked (tcpSendAck_acked t close)

theorem tcpAbort_covers (base : AckBase s) : AckInv (tcpAbort s) :=
  tcpDone_covers (base.frame tcpSendReset_queue (tcpSendReset_timers s).owned)

theorem tcpLinger_covers (base : AckBase s) : AckInv (tcpLinger s) :=
  tcpDone_covers (base.frame (.of_eq rfl rfl rfl rfl) (stopLinger_timers _).owned)

theorem tcpUserTimeout_covers (base : AckBase s) : AckInv (tcpUserTimeout s) :=
  tcpAbort_covers (base.frame (.of_eq rfl rfl rfl rfl) (stopLinger_timers _).owned)

theorem socketFree_ackBase (base : AckBase s) : AckBase (socketFree s) := by
  obtain ⟨freed, eq⟩ := socketFree_eq s
  rw [eq]
  refine ⟨?_, fun _ => rfl, ?_, Nat.zero_le _⟩
  · exact ⟨base.owned.fresh, base.owned.below, base.owned.held⟩
  · exact fun k member => absurd member List.not_mem_nil

theorem socketFree_covers (inv : AckInv s) : AckInv (socketFree s) := by
  have base := socketFree_ackBase inv.toAckBase
  obtain ⟨freed, eq⟩ := socketFree_eq s
  rw [eq] at base ⊢
  exact inv.frame base (.of_eq rfl rfl) (.of_eq rfl rfl) (by simp) id

/-! ### Events -/

theorem Idle.slot (h : Idle s t) : t.tsk.slot = s.tsk.slot := by
  funext c
  cases c
  · exact congrArg (·.tsk.retransmit) h
  · exact congrArg (·.tsk.delack) h
  · exact congrArg (·.tsk.keepalive) h
  · exact congrArg (·.tsk.linger) h

theorem Idle.ackBase (h : Idle s t) (base : AckBase s) : AckBase t :=
  base.eq (congrArg (·.ts) h) h.slot (congrArg (·.tsk.writeQueue) h) (congrArg (·.tsk.inflight) h)
    (congrArg (·.tsk.state) h) (congrArg (·.ended) h)

theorem Idle.covers (h : Idle s t) (inv : AckInv s) : AckInv t :=
  inv.eq (congrArg (·.ts) h) h.slot (congrArg (·.tsk.writeQueue) h) (congrArg (·.tsk.inflight) h)
    (congrArg (·.tsk.state) h) (congrArg (·.ended) h) (congrArg (·.tsk.tcb.rcvNxt) h)
    (congrArg (·.out) h)

theorem AckBase.tick (base : AckBase s) (busy : List Nat) :
    AckBase { s with ts := timersStart s.ts busy } where
  owned := ⟨fun a member => base.owned.fresh a (tick_alarms _ member), base.owned.below,
    fun c a member => base.owned.held c a (tick_alarms _ member)⟩
  closed := base.closed
  acks := base.acks
  flying := base.flying

theorem AckInv.tick (inv : AckInv s) (busy : List Nat) :
    AckInv { s with ts := timersStart s.ts busy } where
  toAckBase := inv.toAckBase.tick busy
  covered text := by
    rcases inv.covered text with acked | ⟨a, member, held⟩ | ⟨h, member, handler⟩
    · exact .inl acked
    · rcases tick_keeps s.ts member busy with kept | ⟨h, started, -, handler⟩
      · exact .inr (.inl ⟨a, kept, held⟩)
      · refine .inr (.inr ⟨h, started, ?_⟩)
        rw [handler]
        exact inv.owned.held _ a member held
    · exact .inr (.inr ⟨h, tick_threads _ member busy, handler⟩)

theorem started_ackBase (base : AckBase s) (i : Nat) : AckBase (started s i) :=
  base.frame (.of_eq rfl rfl rfl rfl) fun own => ⟨own.fresh, own.below, own.held⟩

theorem started_covers {i : Nat} {h : Thread Handler} (found : s.ts.threads[i]? = some h)
    (other : h.handler.slot ≠ some .delack) (inv : AckInv s) : AckInv (started s i) :=
  { started_ackBase inv.toAckBase i with
    covered := fun text => (inv.covered text).imp id (Or.imp id (started_other found other)) }

/-- No segment cancels the delayed ACK of text, or opens the connection, without being answered,
    unless nothing is left to acknowledge or the handler of a delayed ACK has been started. -/
def NothingSilent (s : Conn) : Event → Prop
  | .segment th payload =>
    Silent s th (tcpInitSegment s th payload).2 → Acked s ∨ Started s .delack
  | _ => True

instance (s : Conn) (e : Event) : Decidable (NothingSilent s e) := by
  induction e using Event.casesOn <;> unfold NothingSilent <;> infer_instance

/- Of what sending the queue relies on, every event keeps all. -/
theorem exec_ackBase {e : Event} {r : Reply} (base : AckBase s) (taken : exec s e = some (t, r)) :
    AckBase t := by
  have unlock : ∀ u, AckBase u → AckBase (socketRelease u) :=
    fun u => AckBase.minor (h := socketRelease_minor u)
  refine exec_pass (fun _ _ h base => Idle.ackBase h base) base taken ?free ?tick ?handler ?write
    ?read ?wake ?close ?abort ?connect ?segment
  case free => exact fun _ u base => socketFree_ackBase base
  case tick => exact fun busy _ => base.tick busy
  case handler =>
    rintro i h rfl - -
    have rest := started_ackBase base i
    have locked := rest.minor (socketWrAcquire_minor _)
    cases h.handler with
    | tcpConnectRto => exact unlock _ (tcpConnectRto_ackBase locked)
    | tcpRetransmissionTimeout => exact unlock _ (tcpRetransmissionTimeout_ackBase locked)
    | tcpSendDelack => exact unlock _ (tcpSendDelack_covers locked).toAckBase
    | tcpLinger => exact unlock _ (tcpLinger_covers locked).toAckBase
    | tcpUserTimeout => exact unlock _ (tcpUserTimeout_covers locked).toAckBase
    | socketGarbageCollect =>
      unfold runHandler socketGarbageCollect
      dsimp only
      split
      · exact socketFree_ackBase rest
      · exact rest
  case write => exact fun buf _ _ base => tcpWrite_ackBase buf base
  case read =>
    exact fun len _ _ base => base.frame (.of_send (tcpRead_send _ len) (tcpRead_stays _ len))
      (tcpRead_timers _ len).owned
  case wake =>
    exact fun i b _ _ _ base => base.frame (.of_send (receiveLoop_send _ b.len b.rlen)
      (receiveLoop_stays _ b.len b.rlen)) (receiveLoop_timers _ b.len b.rlen).owned
  case close => exact fun _ _ base => tcpClose_ackBase base
  case abort => exact fun _ _ => (tcpAbort_covers base).toAckBase
  case connect =>
    exact fun addr port iss _ _ closed base =>
      (tcpV4Connect_covers addr port iss base closed).toAckBase
  case segment => exact fun th payload _ _ base => tcpInputState_ackBase th _ base

/- What one event keeps. -/
theorem exec_covers {e : Event} {r : Reply} (inv : AckInv s) (ok : NothingSilent s e)
    (taken : exec s e = some (t, r)) : AckInv t := by
  have lock : ∀ u, AckInv u → AckInv (socketWrAcquire u) :=
    fun u => AckInv.minor (h := socketWrAcquire_minor u)
  have unlock : ∀ u, AckInv u → AckInv (socketRelease u) :=
    fun u => AckInv.minor (h := socketRelease_minor u)
  refine exec_pass (fun _ _ h inv => Idle.covers h inv) inv taken ?free ?tick ?handler ?write ?read
    ?wake ?close ?abort ?connect ?segment
  case free => exact fun _ u inv => socketFree_covers inv
  case tick => exact fun busy _ => inv.tick busy
  case handler =>
    rintro i h rfl found -
    cases name : h.handler with
    | tcpConnectRto =>
      exact unlock _ (tcpConnectRto_covers (lock _ (started_covers found (by rw [name]; decide) inv)))
    | tcpRetransmissionTimeout =>
      exact unlock _ (tcpRetransmissionTimeout_covers
        (lock _ (started_covers found (by rw [name]; decide) inv)))
    | tcpSendDelack =>
      exact unlock _ (tcpSendDelack_covers
        ((started_ackBase inv.toAckBase i).minor (socketWrAcquire_minor _)))
    | tcpLinger =>
      exact unlock _ (tcpLinger_covers
        ((started_ackBase inv.toAckBase i).minor (socketWrAcquire_minor _)))
    | tcpUserTimeout =>
      exact unlock _ (tcpUserTimeout_covers
        ((started_ackBase inv.toAckBase i).minor (socketWrAcquire_minor _)))
    | socketGarbageCollect =>
      have rest := started_covers found (by rw [name]; decide) inv
      unfold runHandler socketGarbageCollect
      dsimp only
      split
      · exact socketFree_covers rest
      · exact rest
  case write => exact fun buf _ _ inv => tcpWrite_covers buf inv
  case read =>
    exact fun len _ _ inv => inv.stay (.of_send (tcpRead_send _ len) (tcpRead_stays _ len))
      (tcpRead_acks _ len) (tcpRead_timers _ len) (by simp) (tcpRead_stays _ len)
  case wake =>
    exact fun i b _ _ _ inv => inv.stay (.of_send (receiveLoop_send _ b.len b.rlen)
      (receiveLoop_stays _ b.len b.rlen)) (receiveLoop_acks _ b.len b.rlen)
      (receiveLoop_timers _ b.len b.rlen) (by simp) (receiveLoop_stays _ b.len b.rlen)
  case close => exact fun _ _ inv => tcpClose_covers inv
  case abort => exact fun _ _ => tcpAbort_covers inv.toAckBase
  case connect =>
    exact fun addr port iss _ _ closed inv => tcpV4Connect_covers addr port iss inv.toAckBase closed
  case segment =>
    rintro th payload rfl - inv
    exact tcpInputState_covers th _ rfl inv ok

theorem AckBase.start : AckBase {} where
  owned := ⟨by simp [alarms, alarmsOf], fun c i => by cases c <;> simp [TcpSock.slot],
    by simp [alarms, alarmsOf]⟩
  closed _ := rfl
  acks := by simp
  flying := Nat.le_refl _

theorem AckInv.start : AckInv {} where
  toAckBase := .start
  covered text := absurd text (by decide)

theorem received_text_acknowledged {trace : List (Event × Reply)}
    (run : Transition.Run exec (fun _ s e => NothingSilent s e) {} trace s)
    (text : s.tsk.state = .established ∨ s.tsk.state = .finWait1 ∨ s.tsk.state = .finWait2) :
    Acked s ∨ Ticking s .delack ∨ Started s .delack := by
  have inv : AckInv s := by
    refine run.invariant_state .start ?_
    exact fun _ _ _ _ _ inv ok taken => exec_covers inv ok taken
  refine inv.covered ?_
  rcases text with state | state | state
  all_goals rw [state]; rfl

theorem received_text_acknowledged_delayed : ∃ trace s,
    Transition.Run exec (fun _ s e => NothingSilent s e) {} trace s ∧ s.tsk.state = .established ∧
      ¬Acked s ∧ (Acked s ∨ Ticking s .delack ∨ Started s .delack) := by
  obtain ⟨trace, s, run, state, waits⟩ : ∃ trace s,
      Transition.Run exec (fun _ s e => NothingSilent s e) {} trace s ∧ s.tsk.state = .established ∧
        ¬Acked s :=
    Transition.Run.exists_of_follow (handshake ++ [.segment (peerHdr 5001 1001) [7]]) (by decide)
  exact ⟨trace, s, run, state, waits, received_text_acknowledged run (.inl state)⟩

/-- A byte and then a bare ACK in sequence: the delayed ACK of the byte is cancelled. -/
theorem bare_ack_cancels_delayed_ack :
    ∃ trace s, Transition.Run exec (fun _ _ _ => True) {} trace s ∧ ¬AckCovered s :=
  Transition.Run.exists_of_follow (handshake ++ [.segment (peerHdr 5001 1001) [7],
    .segment (peerHdr 5002 1001) []]) (by decide)

end HfIp
