import HfIp.Effects

/- The functions that leave the send side alone: the write queue, its numbering and what has been
   accepted stay, the sock is not freed, and whatever they send carries no text. -/
namespace HfIp

structure SendView where
  writeQueue : List SkBuff
  inflight : Nat
  sndUna : UInt32
  sndNxt : UInt32
  iss : UInt32
  smss : UInt16
  accepted : List UInt8
  fins : Nat
  sent : List SkBuff
  registered : Bool
  skFreed : Bool

def sendView (s : Conn) : SendView :=
  { writeQueue := s.tsk.writeQueue, inflight := s.tsk.inflight, sndUna := s.tsk.tcb.sndUna
    sndNxt := s.tsk.tcb.sndNxt, iss := s.tsk.tcb.iss, smss := s.tsk.smss
    accepted := s.accepted, fins := s.fins, sent := s.sent
    registered := s.sock.registered, skFreed := s.sock.skFreed }

/- The states from which the application can still come to write. -/
def TcpState.sending : TcpState → Bool
  | .synSent | .synReceived | .established | .closeWait => true
  | _ => false

/- The states in which no FIN has been queued yet. -/
def TcpState.early : TcpState → Bool
  | .close | .listen | .synSent | .synReceived => true
  | _ => false

/- A FIN has been queued and its acknowledgement will end the connection or a part of it. -/
def Awaiting (s : Conn) : Prop :=
  s.ended = false ∧ (s.tsk.state = .finWait1 ∨ s.tsk.state = .closing ∨ s.tsk.state = .lastAck)

/- No step but the queueing of a FIN leads to an awaiting state, and none leads back to a sending
   state, to an early one or to CLOSED. -/
structure Onward (s t : Conn) : Prop where
  sending : t.tsk.state.sending = true → s.tsk.state.sending = true
  close : t.tsk.state = .close → s.tsk.state = .close
  early : t.tsk.state.early = true → s.tsk.state.early = true
  awaiting : Awaiting t → Awaiting s

theorem Onward.of_eq {s t : Conn} (state : t.tsk.state = s.tsk.state) (ended : t.ended = s.ended) :
    Onward s t := by
  constructor
  · rw [state]; exact id
  · rw [state]; exact id
  · rw [state]; exact id
  · rw [Awaiting, state, ended]; exact id

theorem Onward.trans {s t u : Conn} (first : Onward s t) (second : Onward t u) : Onward s u :=
  ⟨first.sending ∘ second.sending, first.close ∘ second.close, first.early ∘ second.early,
    first.awaiting ∘ second.awaiting⟩

structure SendFrame (s t : Conn) : Prop where
  view : sendView t = sendView s
  out : ∃ more, t.out = s.out ++ more ∧ ∀ seg ∈ more, seg.payload = []
  onward : Onward s t

namespace SendFrame

variable {s t u : Conn}

theorem of_state (view : sendView t = sendView s) (out : t.out = s.out) (onward : Onward s t) :
    SendFrame s t := ⟨view, ⟨[], by simp [out], by simp⟩, onward⟩

theorem of_out (view : sendView t = sendView s) (out : t.out = s.out)
    (state : t.tsk.state = s.tsk.state) (ended : t.ended = s.ended) : SendFrame s t :=
  of_state view out (.of_eq state ended)

theorem refl (s : Conn) : SendFrame s s := of_out rfl rfl rfl rfl

theorem trans (first : SendFrame s t) (second : SendFrame t u) : SendFrame s u := by
  obtain ⟨more, ho, hb⟩ := first.out
  obtain ⟨rest, hr, hc⟩ := second.out
  refine ⟨second.view.trans first.view, ⟨more ++ rest, by simp [hr, ho], ?_⟩,
    first.onward.trans second.onward⟩
  intro seg member
  rcases List.mem_append.mp member with early | late
  · exact hb seg early
  · exact hc seg late

theorem after (second : SendFrame t u) (first : SendFrame s t) : SendFrame s u :=
  first.trans second

theorem of_minor (h : Minor s t) : SendFrame s t := by
  obtain ⟨more, ho, hb⟩ := h.out
  refine ⟨?_, ⟨more, ho, fun seg member => (hb seg member).1.1⟩, .of_eq h.same.state h.same.ended⟩
  simp only [sendView, h.same.writeQueue, h.same.inflight, h.same.tcb, h.same.smss,
    h.same.accepted, h.same.fins, h.same.sent, h.same.registered, h.same.skFreed]

theorem writeQueue (h : SendFrame s t) : t.tsk.writeQueue = s.tsk.writeQueue :=
  congrArg SendView.writeQueue h.view
theorem inflight (h : SendFrame s t) : t.tsk.inflight = s.tsk.inflight :=
  congrArg SendView.inflight h.view
theorem sndUna (h : SendFrame s t) : t.tsk.tcb.sndUna = s.tsk.tcb.sndUna :=
  congrArg SendView.sndUna h.view
theorem sndNxt (h : SendFrame s t) : t.tsk.tcb.sndNxt = s.tsk.tcb.sndNxt :=
  congrArg SendView.sndNxt h.view
theorem iss (h : SendFrame s t) : t.tsk.tcb.iss = s.tsk.tcb.iss := congrArg SendView.iss h.view
theorem smss (h : SendFrame s t) : t.tsk.smss = s.tsk.smss := congrArg SendView.smss h.view
theorem accepted (h : SendFrame s t) : t.accepted = s.accepted :=
  congrArg SendView.accepted h.view
theorem fins (h : SendFrame s t) : t.fins = s.fins := congrArg SendView.fins h.view
theorem sent (h : SendFrame s t) : t.sent = s.sent := congrArg SendView.sent h.view
theorem registered (h : SendFrame s t) : t.sock.registered = s.sock.registered :=
  congrArg SendView.registered h.view
theorem skFreed (h : SendFrame s t) : t.sock.skFreed = s.sock.skFreed :=
  congrArg SendView.skFreed h.view

end SendFrame

variable (s : Conn)

/-! ### Timers and states -/

/- What a change of state may lead to. -/
def TcpState.mayBecome (a b : TcpState) : Bool :=
  (!b.sending || a.sending) && (b ≠ .close || a = .close) && (!b.early || a.early)

theorem setState_onward (state : TcpState) (leads : s.tsk.state.mayBecome state = true)
    (awaiting : Awaiting (setState s state) → Awaiting s) : Onward s (setState s state) := by
  simp only [TcpState.mayBecome, Bool.and_eq_true, Bool.or_eq_true, decide_eq_true_eq,
    Bool.not_eq_true'] at leads
  obtain ⟨⟨sending, close⟩, early⟩ := leads
  refine ⟨fun h => ?_, fun h => ?_, fun h => ?_, awaiting⟩
  · exact sending.resolve_left (by simpa [setState] using h)
  · exact close.resolve_left (fun ne => ne h)
  · exact early.resolve_left (by simpa [setState] using h)

theorem setState_send (state : TcpState) (leads : s.tsk.state.mayBecome state = true)
    (awaiting : Awaiting (setState s state) → Awaiting s) : SendFrame s (setState s state) :=
  .of_state rfl rfl (setState_onward s state leads awaiting)

theorem timeWait_send : SendFrame s (setState s .timeWait) :=
  setState_send s .timeWait (by cases s.tsk.state <;> rfl) (by simp [Awaiting, setState])

theorem tcpStopRtoTimer_send : SendFrame s (tcpStopRtoTimer s) := .of_out rfl rfl rfl rfl
theorem tcpReleaseRtoTimer_send : SendFrame s (tcpReleaseRtoTimer s) := .of_out rfl rfl rfl rfl
theorem tcpStopDelackTimer_send : SendFrame s (tcpStopDelackTimer s) := .of_out rfl rfl rfl rfl
theorem tcpReleaseDelackTimer_send : SendFrame s (tcpReleaseDelackTimer s) := .of_out rfl rfl rfl rfl
theorem stopKeepalive_send : SendFrame s (stopKeepalive s) := .of_out rfl rfl rfl rfl
theorem stopLinger_send : SendFrame s (stopLinger s) := .of_out rfl rfl rfl rfl

theorem tcpClearTimers_send : SendFrame s (tcpClearTimers s) :=
  (((tcpStopRtoTimer_send s).trans (tcpStopDelackTimer_send _)).trans
    (stopKeepalive_send _)).trans (stopLinger_send _)

theorem addLinger_send (expire : UInt32) (handler : Handler) :
    SendFrame s (addLinger s expire handler) := .of_out rfl rfl rfl rfl
theorem addRetransmit_send (expire : UInt32) (handler : Handler) :
    SendFrame s (addRetransmit s expire handler) := .of_out rfl rfl rfl rfl
theorem addDelack_send : SendFrame s (addDelack s) := .of_out rfl rfl rfl rfl
theorem tcpEnterTimeWait_send : SendFrame s (tcpEnterTimeWait s) :=
  ((timeWait_send s).trans (tcpClearTimers_send _)).trans
    (addLinger_send _ _ _)

theorem tcpRearmUserTimeout_send : SendFrame s (tcpRearmUserTimeout s) := by
  unfold tcpRearmUserTimeout; split <;> exact .of_out rfl rfl rfl rfl

theorem tcpRearmRtoTimer_send : SendFrame s (tcpRearmRtoTimer s) := by
  unfold tcpRearmRtoTimer; dsimp only; split <;> exact .of_out rfl rfl rfl rfl

theorem tcpRtt_send : SendFrame s (tcpRtt s) := by
  unfold tcpRtt
  split
  · exact .refl s
  · split
    · exact .refl s
    · dsimp only; split <;> exact .of_out rfl rfl rfl rfl

theorem socketDelete_send : SendFrame s (socketDelete s) := by
  unfold socketDelete; split <;> exact .of_out rfl rfl rfl rfl

theorem tcpClearQueues_send : SendFrame s (tcpClearQueues s) :=
  (SendFrame.of_minor (skbQueueFree_minor s _)).trans (.of_out rfl rfl rfl rfl)

theorem tcpFree_send : SendFrame s (tcpFree s) :=
  ((tcpClearTimers_send s).trans (tcpClearQueues_send _)).trans (.of_minor (wakeSleep_minor _))

theorem tcpDone_send : SendFrame s (tcpDone s) := by
  have marked : SendFrame s { s with ended := true } :=
    .of_state rfl rfl ⟨id, id, id, fun h => by simp [Awaiting] at h⟩
  have closing := setState_send { s with ended := true } .closing (by cases s.tsk.state <;> rfl)
    (fun h => by simp [Awaiting, setState] at h)
  exact ((marked.trans closing).trans (tcpFree_send _)).trans (socketDelete_send _)

theorem tcpReset_send : SendFrame s (tcpReset s) := by
  unfold tcpReset
  dsimp only
  split
  · exact (tcpDone_send _).after (.of_out rfl rfl rfl rfl)
  · exact (tcpDone_send _).after (.of_out rfl rfl rfl rfl)
  · exact .of_out rfl rfl rfl rfl
  · exact (tcpDone_send _).after (.of_out rfl rfl rfl rfl)

theorem sockConnected_send : SendFrame s (sockConnected s) := .of_out rfl rfl rfl rfl

theorem tcpLinger_send : SendFrame s (tcpLinger s) := (stopLinger_send s).trans (tcpDone_send _)

theorem tcpSendDelack_send : SendFrame s (tcpSendDelack s) := by
  unfold tcpSendDelack
  exact (SendFrame.of_minor (tcpSendAck_minor _)).after (.of_out rfl rfl rfl rfl)

/-! ### The receive path -/

theorem tcpConsumeOfoQueue_send : SendFrame s (tcpConsumeOfoQueue s) := .of_out rfl rfl rfl rfl

theorem dequeueLoop_send (room : Nat) (queue : List SkBuff) :
    SendFrame s (dequeueLoop s room queue).1 := by
  induction queue generalizing s room with
  | nil => exact .refl s
  | cons skb rest ih =>
    rw [dequeueLoop]
    split
    · exact .refl s
    · dsimp only
      split
      · refine SendFrame.trans ?_ (ih _ _)
        refine SendFrame.trans ?_ (.of_minor (freeSkb_minor _ _))
        split
        · exact .of_out rfl rfl rfl rfl
        · exact .refl s
      · exact .refl s

theorem tcpDataDequeue_send (userlen : Nat) : SendFrame s (tcpDataDequeue s userlen).1 := by
  unfold tcpDataDequeue
  have loop := dequeueLoop_send s userlen s.tsk.receiveQueue
  dsimp only
  split <;> exact loop.trans (.of_out rfl rfl rfl rfl)

theorem receiveReturn_send (rlen : Int) : SendFrame s (receiveReturn s rlen).1 := by
  unfold receiveReturn
  dsimp only
  split
  · exact tcpRearmUserTimeout_send s
  · exact .refl s

theorem receiveLoop_send (len rlen : Nat) : SendFrame s (receiveLoop s len rlen).1 := by
  unfold receiveLoop
  have dequeue := tcpDataDequeue_send s (len - rlen)
  dsimp only
  split
  · split
    · exact (receiveReturn_send _ _).after (dequeue.trans (.of_out rfl rfl rfl rfl))
    · split
      · exact dequeue.trans (receiveReturn_send _ _)
      · split
        · exact dequeue.trans (receiveReturn_send _ _)
        · exact dequeue.trans (.of_out rfl rfl rfl rfl)
  · exact receiveReturn_send s _

theorem tcpDataQueue_send (skb : SkBuff) : SendFrame s (tcpDataQueue s skb).1 := by
  unfold tcpDataQueue
  split
  · exact .of_minor (freeSkb_minor s skb)
  · split
    · exact .of_out rfl rfl rfl rfl
    · dsimp only
      refine SendFrame.trans ?_ (.of_minor (tcpSendAck_minor _))
      split
      · exact (SendFrame.of_minor (tcpCalculateSacks_minor { s with
          tsk.ofoQueue := (tcpDataInsertOrdered s.tsk.ofoQueue skb).1 })).after (.of_out rfl rfl rfl rfl)
      · exact .of_out rfl rfl rfl rfl

theorem inputFinAcked_send (th : TcpHdr) : SendFrame s (inputFinAcked s th) := by
  unfold inputFinAcked
  split
  · split
    · exact setState_send s .finWait2 (by cases s.tsk.state <;> rfl) (by simp [Awaiting, setState])
    · exact timeWait_send s
    · split
      · exact (SendFrame.of_minor (tcpSendAck_minor _)).after (.of_out rfl rfl rfl rfl)
      · exact .refl s
    · exact .refl s
  · exact .refl s

theorem inputText_send (th : TcpHdr) (skb : SkBuff) : SendFrame s (inputText s th skb).1 := by
  unfold inputText
  split
  iterate 3 (split; exact tcpDataQueue_send s skb; exact .refl s)
  exact .refl s

theorem inputFin_send : SendFrame s (inputFin s) := by
  unfold inputFin
  dsimp only
  have acked : SendFrame s (recvNotify (tcpSendAck (pollReadable { s with
      tsk.tcb.rcvNxt := s.tsk.tcb.rcvNxt + 1, tsk.flags := s.tsk.flags ||| TCP_FIN }))) :=
    (SendFrame.of_minor (((pollReadable_minor _).trans (tcpSendAck_minor _)).trans
      (recvNotify_minor _))).after (.of_out rfl rfl rfl rfl)
  split
  · rename_i at_state
    exact acked.trans (setState_send _ .closeWait (by rw [at_state]; rfl) (by simp [Awaiting, setState]))
  · rename_i at_state
    exact acked.trans (setState_send _ .closeWait (by rw [at_state]; rfl) (by simp [Awaiting, setState]))
  · rename_i at_state
    split
    · exact acked.trans (tcpEnterTimeWait_send _)
    · refine acked.trans (setState_send _ .closing (by rw [at_state]; rfl) fun h => ?_)
      exact ⟨h.1, .inl at_state⟩
  · exact acked.trans (tcpEnterTimeWait_send _)
  · exact acked

/-! ### Calls -/

theorem tcpRead_send (len : Nat) : SendFrame s (tcpRead s len).1 := by
  unfold tcpRead
  split
  · exact .refl s
  · split
    · exact .of_out rfl rfl rfl rfl
    · exact receiveLoop_send s len 0
  · exact .refl s
  · exact .refl s
  · exact .refl s
  · exact receiveLoop_send s len 0

theorem connectWait_send : SendFrame s (connectWait s).1 := by
  unfold connectWait
  split
  · exact .of_out rfl rfl rfl rfl
  · dsimp only; split <;> exact .of_out rfl rfl rfl rfl

theorem readReturn_send (len : Nat) (r : Conn × Received) (h : SendFrame s r.1) :
    SendFrame s (readReturn len r).1 := by
  obtain ⟨t, rc | rlen⟩ := r
  · exact h.trans (.of_minor (socketRelease_minor t))
  · exact h.trans (.of_out rfl rfl rfl rfl)

end HfIp
