import HfIp.Effects

/- The functions that leave the receive side alone, unless they end the connection: what has been
   received, and on which side of the peer's FIN the state is. -/
namespace HfIp

structure RecvView where
  rcvNxt : UInt32
  irs : UInt32
  rcvWnd : UInt32
  receiveQueue : List SkBuff
  ofoQueue : List SkBuff
  delivered : List UInt8

def recvView (s : Conn) : RecvView :=
  { rcvNxt := s.tsk.tcb.rcvNxt, irs := s.tsk.tcb.irs, rcvWnd := s.tsk.tcb.rcvWnd
    receiveQueue := s.tsk.receiveQueue, ofoQueue := s.tsk.ofoQueue, delivered := s.delivered }

/- Whether the peer can still send text, has finished, or is not synchronized. -/
inductive Phase where
  | text | finished | outside
  deriving DecidableEq, Repr

def TcpState.phase : TcpState → Phase
  | .established | .finWait1 | .finWait2 => .text
  | .closeWait | .closing | .lastAck | .timeWait => .finished
  | .close | .listen | .synSent | .synReceived => .outside

theorem TcpState.text_cases {a : TcpState} (synchronized : a.phase ≠ .outside)
    (still : a.phase ≠ .finished) : a = .established ∨ a = .finWait1 ∨ a = .finWait2 := by
  cases a <;> simp [TcpState.phase] at *

/- `tcp_done` has run. -/
def Ended (s : Conn) : Prop := s.ended = true

structure RecvFrame (s t : Conn) : Prop where
  ended : Ended s → Ended t
  kept : ¬Ended t → recvView t = recvView s ∧ t.tsk.state.phase = s.tsk.state.phase

namespace RecvFrame

variable {s t u : Conn}

theorem of_eq (view : recvView t = recvView s) (ended : t.ended = s.ended)
    (state : t.tsk.state.phase = s.tsk.state.phase) : RecvFrame s t :=
  ⟨fun h => ended.trans h, fun _ => ⟨view, state⟩⟩

theorem of_rfl (view : recvView t = recvView s) (ended : t.ended = s.ended)
    (state : t.tsk.state = s.tsk.state) : RecvFrame s t := of_eq view ended (congrArg _ state)

theorem of_ended (h : Ended t) : RecvFrame s t := ⟨fun _ => h, fun opened => absurd h opened⟩

theorem refl (s : Conn) : RecvFrame s s := of_rfl rfl rfl rfl

theorem of_same (h : Same s t) : RecvFrame s t := by
  refine of_rfl ?_ h.ended h.state
  simp only [recvView, h.tcb, h.receiveQueue, h.ofoQueue, h.delivered]

theorem trans (first : RecvFrame s t) (second : RecvFrame t u) : RecvFrame s u := by
  refine ⟨second.ended ∘ first.ended, fun opened => ?_⟩
  have before : ¬Ended t := fun h => opened (second.ended h)
  obtain ⟨view, phase⟩ := first.kept before
  obtain ⟨view', phase'⟩ := second.kept opened
  exact ⟨view'.trans view, phase'.trans phase⟩

theorem after (second : RecvFrame t u) (first : RecvFrame s t) : RecvFrame s u :=
  first.trans second

end RecvFrame

variable (s : Conn)

/-! ### Timers and the end of a connection -/

@[simp] theorem freeSkb_ended (s : Conn) (skb : SkBuff) : (freeSkb s skb).ended = s.ended :=
  (freeSkb_minor s skb).same.ended

theorem tcpDone_ended : Ended (tcpDone s) := by
  have freed := (skbQueueFree_minor (tcpClearTimers (setState { s with ended := true } .closing))
    s.tsk.ofoQueue).same.ended
  unfold tcpDone socketDelete Ended
  split <;> exact freed

theorem tcpDone_recv : RecvFrame s (tcpDone s) := .of_ended (tcpDone_ended s)

theorem tcpRearmUserTimeout_recv : RecvFrame s (tcpRearmUserTimeout s) := by
  unfold tcpRearmUserTimeout
  split
  · exact .refl s
  · exact .of_rfl rfl rfl rfl

theorem tcpRearmRtoTimer_recv : RecvFrame s (tcpRearmRtoTimer s) := by
  obtain ⟨_, _, eq⟩ := tcpRearmRtoTimer_touches s
  rw [eq]
  exact .of_rfl rfl rfl rfl

theorem tcpRtt_recv : RecvFrame s (tcpRtt s) := by
  unfold tcpRtt
  split
  · exact .refl s
  · split
    · exact .refl s
    · dsimp only
      split
      · exact .refl s
      · exact .of_rfl rfl rfl rfl

theorem tcpHandleFinState_recv : RecvFrame s (tcpHandleFinState s) := by
  unfold tcpHandleFinState
  split
  · rename_i at_state
    exact .of_eq rfl rfl (by rw [at_state]; rfl)
  · rename_i at_state
    exact .of_eq rfl rfl (by rw [at_state]; rfl)
  · exact .refl s

/-! ### The send path -/

theorem tcpQueueTransmitSkb_recv (skb : SkBuff) : RecvFrame s (tcpQueueTransmitSkb s skb) := by
  obtain ⟨_, _, _, _, _, _, same⟩ := tcpQueueTransmitSkb_touches s skb
  exact (RecvFrame.of_same same).after (.of_rfl rfl rfl rfl)

theorem tcpSendNext_recv (amount : Nat) : RecvFrame s (tcpSendNext s amount) := by
  obtain ⟨_, _, _, same⟩ := tcpSendNext_touches s amount
  exact (RecvFrame.of_same same).after (.of_rfl rfl rfl rfl)

theorem tcpCleanRtoQueue_recv (una : UInt32) : RecvFrame s (tcpCleanRtoQueue s una) := by
  obtain ⟨_, _, _, _, _, eq⟩ := tcpCleanRtoQueue_touches s una
  rw [eq]
  exact .of_rfl rfl rfl rfl

theorem retransmitHead_recv (skb : SkBuff) : RecvFrame s (retransmitHead s skb) := by
  obtain ⟨_, same⟩ := retransmitHead_touches s skb
  exact (RecvFrame.of_same same).after (.of_rfl rfl rfl rfl)

theorem tcpSendLoop_recv (mss fuel : Nat) (buf : List UInt8) :
    RecvFrame s (tcpSendLoop mss fuel s buf) := by
  induction fuel generalizing s buf with
  | zero => exact .refl s
  | succ fuel ih =>
    rw [tcpSendLoop]
    split
    · exact .refl s
    · refine RecvFrame.trans ?_ (ih _ _)
      exact (tcpQueueTransmitSkb_recv _ _).after (.of_rfl rfl rfl rfl)

theorem tcpSend_recv (buf : List UInt8) : RecvFrame s (tcpSend s buf) := by
  unfold tcpSend
  refine RecvFrame.trans ?_ (tcpRearmUserTimeout_recv _)
  exact (tcpSendLoop_recv _ _ _ _).after (.of_rfl rfl rfl rfl)

theorem tcpQueueFin_recv : RecvFrame s (tcpQueueFin s) :=
  (tcpQueueTransmitSkb_recv _ _).after (.of_rfl rfl rfl rfl)

theorem tcpSendReset_recv : RecvFrame s (tcpSendReset s) := by
  unfold tcpSendReset
  dsimp only
  refine RecvFrame.trans ?_ (.of_same (freeSkb_minor _ _).same)
  exact (RecvFrame.of_same (tcpTransmitSkb_same _ _ _)).after (.of_rfl rfl rfl rfl)

theorem tcpAbort_recv : RecvFrame s (tcpAbort s) := .of_ended (tcpDone_ended _)

theorem tcpSendDelack_recv : RecvFrame s (tcpSendDelack s) :=
  (RecvFrame.of_same (tcpSendAck_minor _).same).after (.of_rfl rfl rfl rfl)

theorem tcpConnectRto_recv : RecvFrame s (tcpConnectRto s) := by
  unfold tcpConnectRto
  have released : RecvFrame s (tcpReleaseRtoTimer s) := .of_rfl rfl rfl rfl
  refine released.trans ?_
  generalize tcpReleaseRtoTimer s = t
  dsimp only
  split
  · split
    · exact .of_ended (tcpDone_ended _)
    · split
      · exact .refl t
      · refine RecvFrame.trans ?_ (tcpRearmRtoTimer_recv _)
        exact (retransmitHead_recv t _).trans (.of_rfl rfl rfl rfl)
  · exact .refl t

theorem tcpRetransmissionTimeout_recv : RecvFrame s (tcpRetransmissionTimeout s) := by
  unfold tcpRetransmissionTimeout
  have released : RecvFrame s (tcpReleaseRtoTimer s) := .of_rfl rfl rfl rfl
  refine released.trans ?_
  generalize tcpReleaseRtoTimer s = t
  dsimp only
  split
  · refine RecvFrame.trans ?_ (.of_same (tcpNotifyUser_minor _).same)
    exact .of_rfl rfl rfl rfl
  · rename_i k _
    refine (retransmitHead_recv t k).trans ?_
    split
    · exact .of_ended (tcpDone_ended _)
    · have backed : ∀ u, RecvFrame u (retransmissionBackoff u) := fun u => .of_rfl rfl rfl rfl
      split
      · exact (backed _).trans (tcpHandleFinState_recv _)
      · exact backed _

/-! ### The arrival of a segment -/

theorem inputNewAck_recv (th : TcpHdr) : RecvFrame s (inputNewAck s th).1 := by
  unfold inputNewAck
  dsimp only
  split
  · have cleaned : RecvFrame s (tcpCleanRtoQueue (tcpRtt { s with
        tsk.tcb.sndUna := th.ackSeq }) th.ackSeq) := by
      refine RecvFrame.trans ?_ (tcpCleanRtoQueue_recv _ _)
      exact (tcpRtt_recv _).after (.of_rfl rfl rfl rfl)
    split
    · exact cleaned
    · split <;> exact cleaned
  · split
    · exact .refl s
    · split <;> exact .refl s

theorem inputAck_recv (th : TcpHdr) (synchronized : s.tsk.state.phase ≠ .outside) :
    RecvFrame s (inputAck s th).1 := by
  unfold inputAck
  split
  · rename_i at_state
    rw [at_state] at synchronized
    contradiction
  iterate 6 exact inputNewAck_recv s th
  exact .refl s

theorem inputFinAcked_recv (th : TcpHdr) : RecvFrame s (inputFinAcked s th) := by
  unfold inputFinAcked
  split
  · split
    · rename_i at_state
      exact .of_eq rfl rfl (by rw [at_state]; rfl)
    · rename_i at_state
      exact .of_eq rfl rfl (by rw [at_state]; rfl)
    · split
      · exact (RecvFrame.of_same (tcpSendAck_minor _).same).after (.of_rfl rfl rfl rfl)
      · exact .refl s
    · exact .refl s
  · exact .refl s

theorem inputDelack_recv (th : TcpHdr) (skb : SkBuff) : RecvFrame s (inputDelack s th skb) := by
  unfold inputDelack
  have stopped : RecvFrame s (tcpStopDelackTimer s) := .of_rfl rfl rfl rfl
  refine stopped.trans ?_
  generalize tcpStopDelackTimer s = t
  dsimp only
  split
  · refine RecvFrame.trans ?_ (tcpRearmRtoTimer_recv _)
    exact (tcpSendNext_recv t _).trans (.of_rfl rfl rfl rfl)
  · have counted : ∀ large, RecvFrame t (countDelack t large) := by
      intro large
      unfold countDelack
      split
      · exact .of_rfl rfl rfl rfl
      · exact .refl t
    refine (counted (!th.psh && decide (1000 < skb.dlen))).trans ?_
    split
    · exact (RecvFrame.of_same (tcpSendAck_minor _).same).after (.of_rfl rfl rfl rfl)
    · split
      · exact .of_rfl rfl rfl rfl
      · exact .refl _

theorem inputExpected_recv (th : TcpHdr) (skb : SkBuff) (expected : Bool) :
    RecvFrame s (inputExpected s th skb expected) := by
  unfold inputExpected
  split
  iterate 3 (split; exact inputDelack_recv s th skb; exact .refl s)
  exact .refl s

/-! ### Calls -/

theorem tcpWrite_recv (buf : List UInt8) : RecvFrame s (tcpWrite s buf).1 := by
  unfold tcpWrite
  split
  · exact .refl s
  · split
    · exact tcpSend_recv s buf
    · exact tcpSend_recv s buf
    · exact .refl s

theorem tcpClose_recv : RecvFrame s (tcpClose s).1 := by
  unfold tcpClose
  split
  iterate 6 exact .of_rfl rfl rfl rfl
  iterate 3 exact tcpDone_recv s
  · rename_i at_state
    refine RecvFrame.trans ?_ (tcpQueueFin_recv _)
    exact .of_eq rfl rfl (by rw [at_state]; rfl)
  · exact tcpQueueFin_recv s

end HfIp
