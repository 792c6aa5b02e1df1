import HfIp.SendStream

/- The functions that clean, send or retransmit the write queue keep it in stream order, those that
   retransmit only under the number of the head. -/
namespace HfIp

variable {s : Conn}

@[simp] theorem tcpCleanRtoQueue_state (una : UInt32) :
    (tcpCleanRtoQueue s una).tsk.state = s.tsk.state := by
  obtain ⟨freed, cleaned⟩ := cleanLoop_conn una s s.tsk.writeQueue
  unfold tcpCleanRtoQueue
  dsimp only
  split <;> simp [cleaned, tcpStopRtoTimer]

theorem tcpSendReset_keeps : SendKeeps s (tcpSendReset s) := by
  unfold tcpSendReset
  dsimp only
  refine SendKeeps.trans ?_ (SendKeeps.of_minor (freeSkb_minor _ _))
  refine SendKeeps.trans ?_ (SendKeeps.of_minor (tcpTransmitSkb_minor _ _ _ rfl rfl rfl))
  exact (SendKeeps.of_minor (tcpAllocSkb_minor s 0 [])).trans (sndUna_keeps _)

theorem tcpAbort_keeps : SendKeeps s (tcpAbort s) :=
  tcpSendReset_keeps.trans (tcpDone_send _).keeps

theorem tcpUserTimeout_keeps : SendKeeps s (tcpUserTimeout s) :=
  (stopLinger_send s).keeps.trans tcpAbort_keeps

/-! ### Retransmission -/

/-- Whatever text the head of the write queue has goes out again under the head's own number. -/
def HeadUnacked (s : Conn) : Prop :=
  ∀ k ∈ s.tsk.writeQueue.head?, k.payload ≠ [] → s.tsk.tcb.sndUna = headSeq s k

instance (s : Conn) : Decidable (HeadUnacked s) :=
  inferInstanceAs (Decidable (∀ k ∈ s.tsk.writeQueue.head?, _))

theorem retransmitHead_keeps (k : SkBuff) (head : s.tsk.writeQueue.head? = some k)
    (whole : HeadUnacked s) : SendKeeps s (retransmitHead s k) :=
  setHead_keeps k s.tsk.tcb.sndUna head (whole k head)

theorem retransmissionFailed_keeps : SendKeeps s (retransmissionFailed s) := .of_out rfl rfl rfl rfl

theorem retransmissionBackoff_keeps : SendKeeps s (retransmissionBackoff s) := .of_out rfl rfl rfl rfl

theorem tcpHandleFinState_keeps : SendKeeps s (tcpHandleFinState s) := by
  unfold tcpHandleFinState
  split
  · exact ⟨fun _ inv => ⟨inv.queue, inv.room, inv.out, inv.smss⟩, by simp [setState, TcpState.sending],
      by simp [setState], rfl, rfl, rfl, id, rfl, rfl⟩
  · exact ⟨fun _ inv => ⟨inv.queue, inv.room, inv.out, inv.smss⟩, by simp [setState, TcpState.sending],
      by simp [setState], rfl, rfl, rfl, id, rfl, rfl⟩
  · exact .refl s

theorem tcpConnectRto_keeps (whole : s.tsk.state = .synSent → HeadUnacked s) :
    SendKeeps s (tcpConnectRto s) := by
  unfold tcpConnectRto
  refine (tcpReleaseRtoTimer_send s).keeps.trans ?_
  replace whole : (tcpReleaseRtoTimer s).tsk.state = .synSent → HeadUnacked (tcpReleaseRtoTimer s) :=
    whole
  generalize tcpReleaseRtoTimer s = t at whole
  dsimp only
  split
  · rename_i waiting
    split
    · exact retransmissionFailed_keeps.trans (tcpDone_send _).keeps
    · split
      · exact .refl t
      · rename_i k head
        refine SendKeeps.trans ?_ (tcpRearmRtoTimer_send _).keeps
        exact (retransmitHead_keeps k head (whole waiting)).trans (.of_out rfl rfl rfl rfl)
  · exact .refl t

theorem tcpRetransmissionTimeout_keeps (whole : HeadUnacked s) :
    SendKeeps s (tcpRetransmissionTimeout s) := by
  unfold tcpRetransmissionTimeout
  refine (tcpReleaseRtoTimer_send s).keeps.trans ?_
  replace whole : HeadUnacked (tcpReleaseRtoTimer s) := whole
  generalize tcpReleaseRtoTimer s = t at whole
  dsimp only
  split
  · refine SendKeeps.trans ?_ (.of_minor (tcpNotifyUser_minor _))
    exact .of_out rfl rfl rfl rfl
  · rename_i k head
    refine (retransmitHead_keeps k head whole).trans ?_
    split
    · exact (tcpDone_send _).keeps.trans retransmissionFailed_keeps
    · split
      · exact retransmissionBackoff_keeps.trans tcpHandleFinState_keeps
      · exact retransmissionBackoff_keeps

/-! ### Arriving segments -/

theorem inputNewAck_keeps (th : TcpHdr) : SendKeeps s (inputNewAck s th).1 := by
  unfold inputNewAck
  dsimp only
  split
  · have cleaned : SendKeeps s (tcpCleanRtoQueue (tcpRtt { s with
        tsk.tcb.sndUna := th.ackSeq }) th.ackSeq) :=
      ((sndUna_keeps _).trans (tcpRtt_send _).keeps).trans (tcpCleanRtoQueue_keeps _)
    split
    · exact cleaned
    · split <;> exact cleaned
  · split
    · exact .refl s
    · split <;> exact .refl s

theorem inputAck_keeps (th : TcpHdr) : SendKeeps s (inputAck s th).1 := by
  unfold inputAck
  split
  · rename_i at_state
    split
    · exact (setState_send s .established (by rw [at_state]; rfl)
        (by simp [Awaiting, setState])).keeps.trans (inputNewAck_keeps th)
    · exact .refl s
  iterate 6 exact inputNewAck_keeps th
  exact .refl s

theorem countDelack_send (large : Bool) : SendFrame s (countDelack s large) := by
  unfold countDelack
  split
  · exact .of_out rfl rfl rfl rfl
  · exact .refl s

theorem inputDelack_keeps (th : TcpHdr) (skb : SkBuff) : SendKeeps s (inputDelack s th skb) := by
  unfold inputDelack
  refine (tcpStopDelackTimer_send s).keeps.trans ?_
  generalize tcpStopDelackTimer s = t
  dsimp only
  split
  · rename_i idle
    exact (tcpSendNext_keeps _ idle.1 (Nat.min_le_left _ _)).trans (tcpRearmRtoTimer_send _).keeps
  · refine (countDelack_send (!th.psh && decide (1000 < skb.dlen))).keeps.trans ?_
    split
    · refine SendKeeps.trans ?_ (.of_minor (tcpSendAck_minor _))
      exact .of_out rfl rfl rfl rfl
    · split
      · exact (addDelack_send _).keeps
      · exact .refl _

theorem inputTextFin_send (th : TcpHdr) (expected : Bool) :
    SendFrame s (inputTextFin s th expected) := by
  unfold inputTextFin
  split
  · exact inputFin_send s
  · exact .refl s

theorem inputExpected_keeps (th : TcpHdr) (skb : SkBuff) (expected : Bool) :
    SendKeeps s (inputExpected s th skb expected) := by
  unfold inputExpected
  split
  iterate 3 (split; exact inputDelack_keeps th skb; exact .refl s)
  exact .refl s

theorem inputTail_keeps (th : TcpHdr) (skb : SkBuff) : SendKeeps s (inputTail s th skb) := by
  unfold inputTail
  refine SendKeeps.trans ?_ (.of_minor (freeSkb_minor _ _))
  refine SendKeeps.trans ?_ (inputExpected_keeps th skb _)
  exact (inputText_send s th skb).keeps.trans (inputTextFin_send th _).keeps

theorem inputOtherwise_keeps (th : TcpHdr) (skb : SkBuff) :
    SendKeeps s (inputOtherwise s th skb) := by
  have freed : ∀ t : Conn, SendKeeps t (freeSkb t skb) :=
    fun t => (SendKeeps.of_minor (freeSkb_minor t skb))
  unfold inputOtherwise
  split
  · refine SendKeeps.trans ?_ (freed _)
    split
    · exact .refl s
    · exact (SendKeeps.of_minor (tcpSendAck_minor s))
  · split
    · exact ((freed s).trans (tcpEnterTimeWait_send _).keeps).trans
        (SendKeeps.of_minor (recvNotify_minor _))
    · split
      · exact freed s
      · split
        · exact freed s
        · have ackd := inputAck_keeps (s := s) th
          dsimp only
          split
          · exact ackd.trans (freed _)
          · split
            · exact (ackd.trans (freed _)).trans (tcpDone_send _).keeps
            · exact (ackd.trans (inputFinAcked_send _ th).keeps).trans (inputTail_keeps th skb)

/- The segment size changes to one between 537 and 1460 only. -/
theorem parseOptsLoop_smss {Q : UInt16 → Prop} (sizes : ∀ mss, 536 < mss → mss ≤ 1460 → Q mss)
    (data : List UInt8) (fuel ptr : Nat) (optlen : UInt8) (seen : OptsSeen) (start : Q seen.smss) :
    Q (parseOptsLoop data fuel ptr optlen seen).smss := by
  induction fuel generalizing ptr optlen seen with
  | zero => exact start
  | succ fuel ih =>
    rw [parseOptsLoop]
    split
    · dsimp only
      split
      · apply ih
        split
        · rename_i bounds
          exact sizes _ bounds.1 bounds.2
        · exact start
      · split
        · exact ih _ _ _ start
        · split
          · exact ih _ _ _ start
          · split
            · exact ih _ _ _ start
            · exact ih _ _ _ start
    · exact start

theorem tcpParseOpts_smss {Q : UInt16 → Prop} (sizes : ∀ mss, 536 < mss → mss ≤ 1460 → Q mss)
    (tsk : TcpSock) (th : TcpHdr) (start : Q tsk.smss) : Q (tcpParseOpts tsk th).smss := by
  unfold tcpParseOpts
  dsimp only
  split <;> exact parseOptsLoop_smss sizes _ _ _ _ _ start

theorem tcpParseOpts_keeps (th : TcpHdr) : SendKeeps s { s with tsk := tcpParseOpts s.tsk th } := by
  refine SendKeeps.trans ?_ (SendKeeps.of_minor (tcpParseOpts_minor s th))
  refine ⟨fun stop inv => ⟨inv.queue, inv.room, inv.out, ?_⟩, id, id, rfl, rfl, rfl, id, rfl, rfl⟩
  exact tcpParseOpts_smss (Q := (0 < ·)) (fun _ more _ => UInt16.lt_trans (by decide) more) _ th
    inv.smss

theorem synsentAck_state (th : TcpHdr) : (synsentAck s th).tsk.state = s.tsk.state := by
  unfold synsentAck
  dsimp only
  split
  · exact tcpCleanRtoQueue_state _
  · rfl

theorem synsentAck_keeps (th : TcpHdr) : SendKeeps s (synsentAck s th) := by
  unfold synsentAck
  have learned : SendKeeps s { s with tsk.tcb.rcvNxt := th.seq + 1, tsk.tcb.irs := th.seq } :=
    .of_out rfl rfl rfl rfl
  dsimp only
  split
  · exact learned.trans ((sndUna_keeps _).trans (tcpCleanRtoQueue_keeps _))
  · exact learned

theorem synsentEstablish_keeps (th : TcpHdr) (waiting : s.tsk.state = .synSent) :
    SendKeeps s (synsentEstablish s th) := by
  unfold synsentEstablish
  refine SendKeeps.trans ?_ (sockConnected_send _).keeps
  refine SendKeeps.trans ?_ (tcpParseOpts_keeps th)
  refine SendKeeps.trans ?_ (tcpRearmUserTimeout_send _).keeps
  refine SendKeeps.trans ?_ (.of_minor (tcpSendAck_minor _))
  have opened := (setState_send s .established (by rw [waiting]; rfl)
    (by simp [Awaiting, setState])).keeps
  have moved := sndUna_keeps (s := setState s .established) s.tsk.tcb.sndNxt
  exact opened.trans (moved.trans (.of_out rfl rfl rfl rfl))

theorem synsentSyn_keeps (th : TcpHdr) (waiting : s.tsk.state = .synSent) :
    SendKeeps s (synsentSyn s th) := by
  unfold synsentSyn
  have state := (synsentAck_state (s := s) th).trans waiting
  refine (synsentAck_keeps th).trans ?_
  generalize synsentAck s th = t at state
  dsimp only
  split
  · exact synsentEstablish_keeps th state
  · rw [tcpSendSynack_minor _ (by simp [setState])]
    exact (setState_send t .synReceived (by rw [state]; rfl)
      (by simp [Awaiting, setState])).keeps.trans (sndUna_keeps _)

theorem tcpSynsent_keeps (skb : SkBuff) (th : TcpHdr) (waiting : s.tsk.state = .synSent) :
    SendKeeps s (tcpSynsent s skb th) := by
  have freed : ∀ t : Conn, SendKeeps t (freeSkb t skb) :=
    fun t => (SendKeeps.of_minor (freeSkb_minor t skb))
  unfold tcpSynsent
  dsimp only
  split
  · exact freed s
  · split
    · exact freed s
    · split
      · exact (tcpReset_send s).keeps.trans (freed _)
      · split
        · exact freed s
        · exact (synsentSyn_keeps th waiting).trans (freed _)

theorem tcpInputState_keeps (th : TcpHdr) (skb : SkBuff) :
    SendKeeps s (tcpInputState s th skb) := by
  have freed : ∀ t : Conn, SendKeeps t (freeSkb t skb) :=
    fun t => (SendKeeps.of_minor (freeSkb_minor t skb))
  unfold tcpInputState
  split
  · unfold tcpClosed
    split
    · exact freed s
    · exact tcpSendReset_keeps.trans (freed _)
  · exact freed s
  · rename_i waiting
    exact tcpSynsent_keeps skb th waiting
  · exact inputOtherwise_keeps th skb

theorem tcpIn_keeps (th : TcpHdr) (payload : List UInt8) : SendKeeps s (tcpIn s th payload) := by
  unfold tcpIn
  refine SendKeeps.trans ?_ (SendKeeps.of_minor (socketRelease_minor _))
  exact (tcpInputState_keeps th _).after (SendKeeps.of_out rfl rfl rfl rfl)

end HfIp
