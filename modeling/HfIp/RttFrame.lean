import HfIp.SocketEvents
import HfIp.ReadFrame
import HfIp.StateFrame

/- The functions that leave the round-trip estimator and the backoff alone, except where they end the
   connection and clear its timers. -/
namespace HfIp

/- Nothing is sent for the first time any more: in TIME_WAIT, or after `tcp_done`. -/
def Retired (s : Conn) : Prop := s.tsk.state = .timeWait ∨ (s.tsk.state = .closing ∧ s.ended = true)

/- The states in which waiting buffers are sent are entered only from such states, and SYN_SENT is not
   entered. -/
structure TextFrom (a b : TcpState) : Prop where
  established : b = .established → a = .established ∨ a.early = true
  finWait : b.active2 = true → a.active2 = true
  synSent : b = .synSent → a = .synSent

theorem TextFrom.refl (a : TcpState) : TextFrom a a := ⟨.inl, id, id⟩

theorem TextFrom.trans {a b c : TcpState} (onward : b.early = true → a.early = true)
    (first : TextFrom a b) (second : TextFrom b c) : TextFrom a c := by
  refine ⟨fun opened => ?_, first.finWait ∘ second.finWait, first.synSent ∘ second.synSent⟩
  rcases second.established opened with here | before
  · exact first.established here
  · exact .inr (onward before)

structure RttFrame (s t : Conn) : Prop where
  send : SendFrame s t
  skbs : s.nextSkb ≤ t.nextSkb
  srtt : t.tsk.srtt = s.tsk.srtt
  rttvar : t.tsk.rttvar = s.tsk.rttvar
  rto : t.tsk.rto = s.tsk.rto
  retired : Retired s → Retired t
  text : TextFrom s.tsk.state t.tsk.state
  timer : (t.tsk.backoff = s.tsk.backoff ∧
      (t.tsk.retransmit = s.tsk.retransmit ∨ t.tsk.retransmit = none)) ∨
    (Retired t ∧ t.tsk.backoff = 0 ∧ t.tsk.retransmit = none)

variable {s t u : Conn}

theorem Retired.stay (h : Retired s) (stays : Stays s t) : Retired t := by
  unfold Retired
  rw [stays.state, stays.ended]
  exact h

namespace RttFrame

theorem trans (first : RttFrame s t) (second : RttFrame t u) : RttFrame s u where
  send := first.send.trans second.send
  skbs := Nat.le_trans first.skbs second.skbs
  srtt := second.srtt.trans first.srtt
  rttvar := second.rttvar.trans first.rttvar
  rto := second.rto.trans first.rto
  retired := second.retired ∘ first.retired
  text := first.text.trans first.send.onward.early second.text
  timer := by
    rcases second.timer with ⟨backoff, retransmit⟩ | cleared
    · rcases first.timer with ⟨backoff', retransmit'⟩ | ⟨gone, zero, none⟩
      · refine .inl ⟨backoff.trans backoff', ?_⟩
        rcases retransmit with same | none
        · rw [same]
          exact retransmit'
        · exact .inr none
      · refine .inr ⟨second.retired gone, backoff.trans zero, ?_⟩
        exact retransmit.elim (fun same => same.trans none) id
    · exact .inr cleared

theorem after (second : RttFrame t u) (first : RttFrame s t) : RttFrame s u := first.trans second

/- The state stays, and so do the five fields. -/
theorem of_fields (send : SendFrame s t) (stays : Stays s t) (skbs : s.nextSkb ≤ t.nextSkb)
    (srtt : t.tsk.srtt = s.tsk.srtt) (rttvar : t.tsk.rttvar = s.tsk.rttvar)
    (rto : t.tsk.rto = s.tsk.rto) (backoff : t.tsk.backoff = s.tsk.backoff)
    (retransmit : t.tsk.retransmit = s.tsk.retransmit) : RttFrame s t :=
  ⟨send, skbs, srtt, rttvar, rto, fun h => h.stay stays,
    by rw [stays.state]; exact .refl _, .inl ⟨backoff, .inl retransmit⟩⟩

theorem of_rfl (view : sendView t = sendView s) (out : t.out = s.out) (stays : Stays s t)
    (skbs : t.nextSkb = s.nextSkb)
    (fields : (t.tsk.srtt, t.tsk.rttvar, t.tsk.rto, t.tsk.backoff, t.tsk.retransmit) =
      (s.tsk.srtt, s.tsk.rttvar, s.tsk.rto, s.tsk.backoff, s.tsk.retransmit)) : RttFrame s t := by
  simp only [Prod.mk.injEq] at fields
  obtain ⟨srtt, rttvar, rto, backoff, retransmit⟩ := fields
  exact of_fields (.of_out view out stays.state stays.ended) stays (Nat.le_of_eq skbs.symm) srtt
    rttvar rto backoff retransmit

theorem refl (s : Conn) : RttFrame s s := of_rfl rfl rfl (.refl s) rfl rfl

theorem of_minor (h : Minor s t) (skbs : s.nextSkb ≤ t.nextSkb) : RttFrame s t :=
  of_fields (.of_minor h) (.of_minor h) skbs (congrArg (·.tsk.srtt) h.same)
    (congrArg (·.tsk.rttvar) h.same) h.same.rto h.same.backoff h.same.retransmit

theorem of_still (h : Still s t) : RttFrame s t := by
  have idle : inner t = inner s := h.1.1
  have view : sendView (inner t) = sendView (inner s) := congrArg sendView idle
  refine of_fields (.of_out view (congrArg (·.out) idle) (congrArg (·.tsk.state) idle)
    (congrArg (·.ended) idle)) ⟨congrArg (·.tsk.state) idle, congrArg (·.ended) idle⟩ h.2
    (congrArg (·.tsk.srtt) idle) (congrArg (·.tsk.rttvar) idle) (congrArg (·.tsk.rto) idle)
    (congrArg (·.tsk.backoff) idle) (congrArg (·.tsk.retransmit) idle)

/- A change of the state alone. -/
theorem of_state {state : TcpState} (send : SendFrame s (setState s state))
    (retired : Retired s → Retired (setState s state)) (text : TextFrom s.tsk.state state) :
    RttFrame s (setState s state) :=
  ⟨send, Nat.le_refl _, rfl, rfl, rfl, retired, text, .inl ⟨rfl, .inl rfl⟩⟩

end RttFrame

variable (s : Conn)

/-! ### Buffers and acknowledgements -/

theorem freeSkb_nextSkb (skb : SkBuff) : (freeSkb s skb).nextSkb = s.nextSkb := by
  obtain ⟨_, eq⟩ := freeSkb_eq s skb
  rw [eq]

theorem freeSkb_rtt (skb : SkBuff) : RttFrame s (freeSkb s skb) :=
  .of_minor (freeSkb_minor s skb) (Nat.le_of_eq (freeSkb_nextSkb s skb).symm)

theorem tcpSendAck_nextSkb : s.nextSkb ≤ (tcpSendAck s).nextSkb := by
  unfold tcpSendAck
  split
  · exact Nat.le_refl _
  · dsimp only
    rw [freeSkb_nextSkb]
    exact Nat.le_succ _

theorem tcpSendAck_rtt : RttFrame s (tcpSendAck s) :=
  .of_minor (tcpSendAck_minor s) (tcpSendAck_nextSkb s)

theorem tcpRearmUserTimeout_rtt : RttFrame s (tcpRearmUserTimeout s) := by
  unfold tcpRearmUserTimeout
  split
  · exact .refl s
  · exact .of_rfl rfl rfl ⟨rfl, rfl⟩ rfl rfl

/-! ### Ends of the connection -/

theorem tcpClearTimers_cleared (retired : Retired s) : RttFrame s (tcpClearTimers s) := by
  have send := tcpClearTimers_send s
  obtain ⟨ts, eq⟩ : ∃ ts, tcpClearTimers s = { s with
      ts := ts, tsk.retransmit := none, tsk.backoff := 0, tsk.delack := none, tsk.keepalive := none
      tsk.linger := none } := ⟨_, rfl⟩
  rw [eq] at send ⊢
  exact ⟨send, Nat.le_refl _, rfl, rfl, rfl, id, .refl _, .inr ⟨retired, rfl, rfl⟩⟩

theorem timeWait_rtt : RttFrame s (setState s .timeWait) :=
  .of_state (timeWait_send s) (fun _ => .inl rfl) ⟨(fun h => by cases h), (fun h => by cases h), fun h => by cases h⟩

theorem tcpEnterTimeWait_rtt : RttFrame s (tcpEnterTimeWait s) := by
  have cleared := (timeWait_rtt s).trans (tcpClearTimers_cleared _ (.inl rfl))
  exact cleared.trans (.of_rfl rfl rfl ⟨rfl, rfl⟩ rfl rfl)

theorem tcpClearQueues_rtt : RttFrame s (tcpClearQueues s) := by
  obtain ⟨freed, eq⟩ := skbQueueFree_eq s s.tsk.ofoQueue
  unfold tcpClearQueues
  rw [eq]
  exact .of_rfl rfl rfl ⟨rfl, rfl⟩ rfl rfl

theorem socketDelete_rtt : RttFrame s (socketDelete s) := by
  unfold socketDelete
  split <;> exact .of_rfl rfl rfl ⟨rfl, rfl⟩ rfl rfl

theorem tcpDone_rtt : RttFrame s (tcpDone s) := by
  set marked : Conn := setState { s with ended := true } .closing
  have closing : RttFrame marked (tcpDone s) := by
    refine (tcpClearTimers_cleared marked (.inr ⟨rfl, rfl⟩)).trans ?_
    refine (tcpClearQueues_rtt _).trans ?_
    exact (socketDelete_rtt _).after (.of_rfl rfl rfl ⟨rfl, rfl⟩ rfl rfl)
  have entered : TextFrom s.tsk.state .closing := ⟨(fun h => by cases h), (fun h => by cases h), fun h => by cases h⟩
  exact { closing with
    send := tcpDone_send s
    retired := fun _ => closing.retired (.inr ⟨rfl, rfl⟩)
    text := entered.trans (fun h => by cases h) closing.text }

theorem tcpDone_cleared : (tcpDone s).tsk.backoff = 0 ∧ (tcpDone s).tsk.retransmit = none := by
  obtain ⟨freed, eq⟩ := skbQueueFree_eq (tcpClearTimers (setState { s with ended := true } .closing))
    s.tsk.ofoQueue
  have queues : tcpClearQueues (tcpClearTimers (setState { s with ended := true } .closing)) =
      { tcpClearTimers (setState { s with ended := true } .closing) with
        freed := freed, tsk.ofoQueue := [] } := by
    unfold tcpClearQueues
    rw [show (tcpClearTimers (setState { s with ended := true } .closing)).tsk.ofoQueue =
      s.tsk.ofoQueue from rfl, eq]
  unfold tcpDone tcpFree socketDelete
  rw [queues]
  split <;> exact ⟨rfl, rfl⟩

theorem tcpReset_rtt : RttFrame s (tcpReset s) := by
  unfold tcpReset
  dsimp only
  split
  · exact (tcpDone_rtt _).after (.of_rfl rfl rfl ⟨rfl, rfl⟩ rfl rfl)
  · exact (tcpDone_rtt _).after (.of_rfl rfl rfl ⟨rfl, rfl⟩ rfl rfl)
  · exact .of_rfl rfl rfl ⟨rfl, rfl⟩ rfl rfl
  · exact (tcpDone_rtt _).after (.of_rfl rfl rfl ⟨rfl, rfl⟩ rfl rfl)

theorem tcpLinger_rtt : RttFrame s (tcpLinger s) :=
  (tcpDone_rtt _).after (.of_rfl rfl rfl ⟨rfl, rfl⟩ rfl rfl)

theorem tcpSendDelack_rtt : RttFrame s (tcpSendDelack s) := by
  unfold tcpSendDelack
  exact (tcpSendAck_rtt _).after (.of_rfl rfl rfl ⟨rfl, rfl⟩ rfl rfl)

theorem tcpReleaseRtoTimer_rtt : RttFrame s (tcpReleaseRtoTimer s) where
  send := tcpReleaseRtoTimer_send s
  skbs := Nat.le_refl _
  srtt := rfl
  rttvar := rfl
  rto := rfl
  retired := id
  text := .refl _
  timer := .inl ⟨rfl, .inr rfl⟩

/-! ### The receive path -/

theorem tcpDataQueue_rtt (skb : SkBuff) : RttFrame s (tcpDataQueue s skb).1 := by
  unfold tcpDataQueue
  split
  · exact freeSkb_rtt s skb
  · split
    · exact .of_rfl rfl rfl ⟨rfl, rfl⟩ rfl rfl
    · dsimp only
      refine RttFrame.trans ?_ (tcpSendAck_rtt _)
      have inserted : RttFrame s { s with tsk.ofoQueue := (tcpDataInsertOrdered s.tsk.ofoQueue skb).1 } :=
        .of_rfl rfl rfl ⟨rfl, rfl⟩ rfl rfl
      split
      · exact inserted.trans (.of_minor (tcpCalculateSacks_minor _) (Nat.le_refl _))
      · exact inserted

theorem inputText_rtt (th : TcpHdr) (skb : SkBuff) : RttFrame s (inputText s th skb).1 := by
  unfold inputText
  split
  iterate 3 (split; exact tcpDataQueue_rtt s skb; exact .refl s)
  exact .refl s

theorem inputFinAcked_rtt (th : TcpHdr) : RttFrame s (inputFinAcked s th) := by
  unfold inputFinAcked
  split
  · split
    · rename_i at_state
      refine .of_state ?_ (fun h => ?_) ⟨(fun h => by cases h), (fun _ => by rw [at_state]; rfl),
        fun h => by cases h⟩
      · exact setState_send s .finWait2 (by cases s.tsk.state <;> rfl) (by simp [Awaiting, setState])
      · rcases h with h | ⟨h, -⟩
        · rw [at_state] at h
          cases h
        · rw [at_state] at h
          cases h
    · exact timeWait_rtt s
    · split
      · exact (tcpSendAck_rtt _).after (.of_rfl rfl rfl ⟨rfl, rfl⟩ rfl rfl)
      · exact .refl s
    · exact .refl s
  · exact .refl s

/- The state that the peer's FIN leads to is no state in which text is sent. -/
theorem setState_finished (state : TcpState) (send : SendFrame s (setState s state))
    (live : s.tsk.state = .synReceived ∨ s.tsk.state = .established ∨ s.tsk.state = .finWait1)
    (finished : state.phase = .finished) : RttFrame s (setState s state) := by
  refine .of_state send (fun h => ?_) ⟨?_, ?_, ?_⟩
  · unfold Retired at h
    rcases live with at_state | at_state | at_state <;> simp [at_state] at h
  · rintro rfl
    cases finished
  · intro h
    cases state <;> simp_all [TcpState.phase, TcpState.active2]
  · rintro rfl
    cases finished

theorem inputFin_rtt : RttFrame s (inputFin s) := by
  unfold inputFin
  dsimp only
  have acked : RttFrame s (recvNotify (tcpSendAck (pollReadable { s with
      tsk.tcb.rcvNxt := s.tsk.tcb.rcvNxt + 1, tsk.flags := s.tsk.flags ||| TCP_FIN }))) := by
    refine RttFrame.trans ?_ ((tcpSendAck_rtt _).trans (.of_rfl rfl rfl ⟨rfl, rfl⟩ rfl rfl))
    exact .of_rfl rfl rfl ⟨rfl, rfl⟩ rfl rfl
  refine acked.trans ?_
  generalize recvNotify (tcpSendAck (pollReadable { s with
    tsk.tcb.rcvNxt := s.tsk.tcb.rcvNxt + 1, tsk.flags := s.tsk.flags ||| TCP_FIN })) = t
  split
  · rename_i at_state
    exact setState_finished t .closeWait (setState_send _ .closeWait (by rw [at_state]; rfl)
      (by simp [Awaiting, setState])) (.inl at_state) rfl
  · rename_i at_state
    exact setState_finished t .closeWait (setState_send _ .closeWait (by rw [at_state]; rfl)
      (by simp [Awaiting, setState])) (.inr (.inl at_state)) rfl
  · rename_i at_state
    split
    · exact tcpEnterTimeWait_rtt t
    · exact setState_finished t .closing (setState_send _ .closing (by rw [at_state]; rfl)
        fun h => ⟨h.1, .inl at_state⟩) (.inr (.inr at_state)) rfl
  · exact tcpEnterTimeWait_rtt t
  · exact .refl t

theorem inputTextFin_rtt (th : TcpHdr) (expected : Bool) :
    RttFrame s (inputTextFin s th expected) := by
  unfold inputTextFin
  split
  · exact inputFin_rtt s
  · exact .refl s

/-! ### Reads -/

theorem tcpDataDequeue_rtt (userlen : Nat) : RttFrame s (tcpDataDequeue s userlen).1 := by
  obtain ⟨freed, flags, eq⟩ := dequeueLoop_touches s userlen s.tsk.receiveQueue
  unfold tcpDataDequeue
  dsimp only
  rw [eq]
  split <;> exact .of_rfl rfl rfl ⟨rfl, rfl⟩ rfl rfl

theorem receiveReturn_rtt (rlen : Int) : RttFrame s (receiveReturn s rlen).1 := by
  unfold receiveReturn
  dsimp only
  split
  · exact tcpRearmUserTimeout_rtt s
  · exact .refl s

theorem receiveLoop_rtt (len rlen : Nat) : RttFrame s (receiveLoop s len rlen).1 := by
  unfold receiveLoop
  have dequeue := tcpDataDequeue_rtt s (len - rlen)
  dsimp only
  split
  · refine dequeue.trans ?_
    split
    · exact (receiveReturn_rtt _ _).after (.of_rfl rfl rfl ⟨rfl, rfl⟩ rfl rfl)
    · split
      · exact receiveReturn_rtt _ _
      · split
        · exact receiveReturn_rtt _ _
        · exact .of_rfl rfl rfl ⟨rfl, rfl⟩ rfl rfl
  · exact receiveReturn_rtt s _

theorem tcpRead_rtt (len : Nat) : RttFrame s (tcpRead s len).1 := by
  unfold tcpRead
  split
  · exact .refl s
  · split
    · exact .of_rfl rfl rfl ⟨rfl, rfl⟩ rfl rfl
    · exact receiveLoop_rtt s len 0
  iterate 3 exact .refl s
  exact receiveLoop_rtt s len 0

end HfIp
