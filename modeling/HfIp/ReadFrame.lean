import HfIp.StateFrame

/- The functions that leave the reader's side alone: the flags and the queue it reads from, the
   threads asleep, the POLLIN bit, and what comes in between the queue and the peer. -/
namespace HfIp

/- What `inet_lookup` would have to go by. -/
structure FourTuple where
  saddr : UInt32
  sport : UInt16
  daddr : UInt32
  dport : UInt16
  deriving DecidableEq, Repr

def fourTuple (tsk : TcpSock) : FourTuple :=
  { saddr := tsk.saddr, sport := tsk.sport, daddr := tsk.daddr, dport := tsk.dport }

structure ReadView where
  flags : UInt8
  receiveQueue : List SkBuff
  recvWait : WaitLock
  readers : List BlockedRead
  sockFlags : UInt32
  rcvNxt : UInt32
  rcvWnd : UInt32
  delivered : List UInt8
  registered : Bool
  tuple : FourTuple

def readView (s : Conn) : ReadView :=
  { flags := s.tsk.flags, receiveQueue := s.tsk.receiveQueue, recvWait := s.tsk.recvWait
    readers := s.readers, sockFlags := s.sock.flags, rcvNxt := s.tsk.tcb.rcvNxt
    rcvWnd := s.tsk.tcb.rcvWnd, delivered := s.delivered, registered := s.sock.registered
    tuple := fourTuple s.tsk }

/- The states that a connection comes to without the reader having to hear of it, and those of the
   active close, from a state in which text still comes in. -/
def TcpState.aside : TcpState → Bool
  | .closing | .timeWait | .lastAck => true
  | _ => false

def TcpState.active2 : TcpState → Bool
  | .finWait1 | .finWait2 => true
  | _ => false

def StepsAside (a b : TcpState) : Prop :=
  b = a ∨ b.aside = true ∨ (a.phase = .text ∧ b.active2 = true)

theorem StepsAside.trans {a b c : TcpState} (first : StepsAside a b) (second : StepsAside b c) :
    StepsAside a c := by
  rcases second with rfl | gone | ⟨text, closes⟩
  · exact first
  · exact .inr (.inl gone)
  · rcases first with rfl | gone | ⟨text', -⟩
    · exact .inr (.inr ⟨text, closes⟩)
    · cases b <;> simp_all [TcpState.aside, TcpState.phase]
    · exact .inr (.inr ⟨text', closes⟩)

structure Reads (s t : Conn) : Prop where
  view : readView t = readView s
  ofo : ∀ k ∈ t.tsk.ofoQueue, k ∈ s.tsk.ofoQueue
  poll : t.tsk.pollEvents &&& POLLIN = s.tsk.pollEvents &&& POLLIN
  moves : StepsAside s.tsk.state t.tsk.state

namespace Reads

variable {s t u : Conn}

theorem of_eq (view : readView t = readView s) (ofo : t.tsk.ofoQueue = s.tsk.ofoQueue)
    (poll : t.tsk.pollEvents = s.tsk.pollEvents) (state : t.tsk.state = s.tsk.state) :
    Reads s t := ⟨view, fun k member => ofo ▸ member, by rw [poll], .inl state⟩

theorem refl (s : Conn) : Reads s s := of_eq rfl rfl rfl rfl

theorem trans (first : Reads s t) (second : Reads t u) : Reads s u :=
  ⟨second.view.trans first.view, fun k member => first.ofo k (second.ofo k member),
    second.poll.trans first.poll, first.moves.trans second.moves⟩

theorem after (second : Reads t u) (first : Reads s t) : Reads s u := first.trans second

/- A move of the state alone. -/
theorem of_state (view : readView t = readView s) (ofo : t.tsk.ofoQueue = s.tsk.ofoQueue)
    (poll : t.tsk.pollEvents = s.tsk.pollEvents) (moves : StepsAside s.tsk.state t.tsk.state) :
    Reads s t := ⟨view, fun k member => ofo ▸ member, by rw [poll], moves⟩

theorem flags (h : Reads s t) : t.tsk.flags = s.tsk.flags := congrArg ReadView.flags h.view
theorem receiveQueue (h : Reads s t) : t.tsk.receiveQueue = s.tsk.receiveQueue :=
  congrArg ReadView.receiveQueue h.view
theorem recvWait (h : Reads s t) : t.tsk.recvWait = s.tsk.recvWait :=
  congrArg ReadView.recvWait h.view
theorem readers (h : Reads s t) : t.readers = s.readers := congrArg ReadView.readers h.view
theorem sockFlags (h : Reads s t) : t.sock.flags = s.sock.flags :=
  congrArg ReadView.sockFlags h.view
theorem rcvNxt (h : Reads s t) : t.tsk.tcb.rcvNxt = s.tsk.tcb.rcvNxt :=
  congrArg ReadView.rcvNxt h.view
theorem rcvWnd (h : Reads s t) : t.tsk.tcb.rcvWnd = s.tsk.tcb.rcvWnd :=
  congrArg ReadView.rcvWnd h.view
theorem delivered (h : Reads s t) : t.delivered = s.delivered := congrArg ReadView.delivered h.view
theorem tuple (h : Reads s t) : fourTuple t.tsk = fourTuple s.tsk := congrArg ReadView.tuple h.view
theorem registered (h : Reads s t) : t.sock.registered = s.sock.registered :=
  congrArg ReadView.registered h.view

end Reads

variable (s : Conn)

/-! ### Buffers and transmission -/

theorem freeSkb_reads (skb : SkBuff) : Reads s (freeSkb s skb) := by
  obtain ⟨_, eq⟩ := freeSkb_eq s skb
  rw [eq]
  exact .of_eq rfl rfl rfl rfl

theorem tcpTransmitSkb_reads (skb : SkBuff) (seq : UInt32) :
    Reads s (tcpTransmitSkb s skb seq).1 := by
  unfold tcpTransmitSkb
  dsimp only
  generalize (if skb.th.hl = 0 then { skb.th with hl := 5 } else skb.th) = th
  split
  · unfold tcpWriteOptions
    split <;> exact .of_eq rfl rfl rfl rfl
  · exact .of_eq rfl rfl rfl rfl

theorem tcpSendAck_reads : Reads s (tcpSendAck s) := by
  unfold tcpSendAck
  split
  · exact .refl s
  · refine Reads.trans ?_ (freeSkb_reads _ _)
    refine Reads.trans ?_ (tcpTransmitSkb_reads _ _ _)
    exact .of_eq rfl rfl rfl rfl

theorem sackLoop_reads (queue : List SkBuff) (tsk : TcpSock) (sb : Nat)
    (h : Reads s { s with tsk := tsk }) : Reads s { s with tsk := sackLoop tsk sb queue } := by
  induction queue generalizing tsk sb with
  | nil => exact h
  | cons next rest ih =>
    rw [sackLoop]
    split_ifs
    · exact ih _ _ (h.trans (.of_eq rfl rfl rfl rfl))
    · exact h.trans (.of_eq rfl rfl rfl rfl)
    · exact ih _ _ (h.trans (.of_eq rfl rfl rfl rfl))
    · exact ih _ _ (h.trans (.of_eq rfl rfl rfl rfl))
    · exact h
    · exact ih _ _ (h.trans (.of_eq rfl rfl rfl rfl))

theorem tcpCalculateSacks_reads : Reads s { s with tsk := tcpCalculateSacks s.tsk } :=
  sackLoop_reads s _ _ _ (.of_eq rfl rfl rfl rfl)

theorem tcpParseOpts_reads (th : TcpHdr) : Reads s { s with tsk := tcpParseOpts s.tsk th } := by
  unfold tcpParseOpts
  dsimp only
  split <;> exact .of_eq rfl rfl rfl rfl

/-! ### Timers and the end of a connection -/

theorem tcpRearmUserTimeout_reads : Reads s (tcpRearmUserTimeout s) := by
  unfold tcpRearmUserTimeout
  split <;> exact .of_eq rfl rfl rfl rfl

theorem tcpRearmRtoTimer_reads : Reads s (tcpRearmRtoTimer s) := by
  unfold tcpRearmRtoTimer
  dsimp only
  split <;> exact .of_eq rfl rfl rfl rfl

theorem tcpRtt_reads : Reads s (tcpRtt s) := by
  unfold tcpRtt
  split
  · exact .refl s
  · split
    · exact .refl s
    · dsimp only
      split <;> exact .of_eq rfl rfl rfl rfl

theorem tcpClearTimers_reads : Reads s (tcpClearTimers s) := by
  have rto : Reads s (tcpStopRtoTimer s) := .of_eq rfl rfl rfl rfl
  have delack : ∀ t, Reads t (tcpStopDelackTimer t) := fun t => .of_eq rfl rfl rfl rfl
  have keepalive : ∀ t, Reads t (stopKeepalive t) := fun t => .of_eq rfl rfl rfl rfl
  have linger : ∀ t, Reads t (stopLinger t) := fun t => .of_eq rfl rfl rfl rfl
  exact ((rto.trans (delack _)).trans (keepalive _)).trans (linger _)

theorem tcpClearQueues_reads : Reads s (tcpClearQueues s) := by
  obtain ⟨_, eq⟩ := skbQueueFree_eq s s.tsk.ofoQueue
  unfold tcpClearQueues
  rw [eq]
  exact ⟨rfl, (fun k member => by cases member), rfl, .inl rfl⟩

theorem tcpFree_reads : Reads s (tcpFree s) := by
  unfold tcpFree
  exact ((tcpClearTimers_reads s).trans (tcpClearQueues_reads _)).trans (.of_eq rfl rfl rfl rfl)

theorem socketDelete_reads : Reads s (socketDelete s) := by
  unfold socketDelete
  split <;> exact .of_eq rfl rfl rfl rfl

theorem tcpDone_reads : Reads s (tcpDone s) := by
  unfold tcpDone
  have closing : Reads s (setState { s with ended := true } .closing) :=
    .of_state rfl rfl rfl (.inr (.inl rfl))
  exact (closing.trans (tcpFree_reads _)).trans (socketDelete_reads _)

theorem tcpEnterTimeWait_reads : Reads s (tcpEnterTimeWait s) := by
  unfold tcpEnterTimeWait
  have gone : Reads s (setState s .timeWait) := .of_state rfl rfl rfl (.inr (.inl rfl))
  exact (gone.trans (tcpClearTimers_reads _)).trans (.of_eq rfl rfl rfl rfl)

theorem tcpHandleFinState_reads : Reads s (tcpHandleFinState s) := by
  unfold tcpHandleFinState
  split
  · exact .of_state rfl rfl rfl (.inr (.inl rfl))
  · rename_i opened
    refine .of_state rfl rfl rfl (.inr (.inr ⟨?_, rfl⟩))
    rw [opened]
    rfl
  · exact .refl s

/-! ### The send path -/

theorem tcpQueueTransmitSkb_reads (skb : SkBuff) : Reads s (tcpQueueTransmitSkb s skb) := by
  unfold tcpQueueTransmitSkb
  dsimp only
  have armed : Reads s (if skbQueueEmpty s.tsk.writeQueue then tcpRearmRtoTimer s else s) := by
    split
    · exact tcpRearmRtoTimer_reads s
    · exact .refl s
  generalize (if skbQueueEmpty s.tsk.writeQueue then tcpRearmRtoTimer s else s) = t at armed
  split
  · refine armed.trans (Reads.trans (tcpTransmitSkb_reads t skb t.tsk.tcb.sndNxt) ?_)
    exact .of_eq rfl rfl rfl rfl
  · exact armed.trans (.of_eq rfl rfl rfl rfl)

theorem sendNextLoop_reads (amount : Nat) (queue : List SkBuff) :
    Reads s (sendNextLoop s amount queue).1 := by
  induction amount generalizing s queue with
  | zero => exact .refl s
  | succ amount ih =>
    cases queue with
    | nil => exact .refl s
    | cons next rest =>
      rw [sendNextLoop]
      refine Reads.trans ?_ (ih _ rest)
      refine Reads.trans (tcpTransmitSkb_reads s next s.tsk.tcb.sndNxt) ?_
      exact .of_eq rfl rfl rfl rfl

theorem tcpSendNext_reads (amount : Nat) : Reads s (tcpSendNext s amount) :=
  (sendNextLoop_reads s amount _).trans (.of_eq rfl rfl rfl rfl)

theorem tcpCleanRtoQueue_reads (una : UInt32) : Reads s (tcpCleanRtoQueue s una) := by
  obtain ⟨freed, cleaned⟩ := cleanLoop_conn una s s.tsk.writeQueue
  unfold tcpCleanRtoQueue
  dsimp only
  rw [cleaned]
  split <;> exact .of_eq rfl rfl rfl rfl

theorem retransmitHead_reads (skb : SkBuff) : Reads s (retransmitHead s skb) :=
  (tcpTransmitSkb_reads s skb _).trans (.of_eq rfl rfl rfl rfl)

theorem tcpSendLoop_reads (mss fuel : Nat) (buf : List UInt8) :
    Reads s (tcpSendLoop mss fuel s buf) := by
  induction fuel generalizing s buf with
  | zero => exact .refl s
  | succ fuel ih =>
    rw [tcpSendLoop]
    split
    · exact .refl s
    · refine Reads.trans ?_ (ih _ _)
      refine Reads.trans ?_ (tcpQueueTransmitSkb_reads _ _)
      exact .of_eq rfl rfl rfl rfl

theorem tcpSend_reads (buf : List UInt8) : Reads s (tcpSend s buf) := by
  unfold tcpSend
  refine Reads.trans ?_ (tcpRearmUserTimeout_reads _)
  refine Reads.trans ?_ (tcpSendLoop_reads _ _ _ _)
  exact .of_eq rfl rfl rfl rfl

theorem tcpQueueFin_reads : Reads s (tcpQueueFin s) := by
  unfold tcpQueueFin
  refine Reads.trans ?_ (tcpQueueTransmitSkb_reads _ _)
  exact .of_eq rfl rfl rfl rfl

theorem tcpSendReset_reads : Reads s (tcpSendReset s) := by
  unfold tcpSendReset
  dsimp only
  refine Reads.trans ?_ (freeSkb_reads _ _)
  refine Reads.trans ?_ (tcpTransmitSkb_reads _ _ _)
  exact .of_eq rfl rfl rfl rfl

theorem tcpAbort_reads : Reads s (tcpAbort s) :=
  (tcpSendReset_reads s).trans (tcpDone_reads _)

/-! ### Timer handlers -/

theorem tcpSendDelack_reads : Reads s (tcpSendDelack s) := by
  unfold tcpSendDelack
  refine Reads.trans ?_ (tcpSendAck_reads _)
  exact .of_eq rfl rfl rfl rfl

theorem pollError_in (events : UInt16) :
    (events ||| (POLLOUT ||| POLLERR ||| POLLHUP)) &&& POLLIN = events &&& POLLIN := by
  have none : (POLLOUT ||| POLLERR ||| POLLHUP) &&& POLLIN = 0 := by decide
  apply UInt16.toBitVec_inj.mp
  have none' := congrArg UInt16.toBitVec none
  rw [UInt16.toBitVec_and] at none' ⊢
  rw [UInt16.toBitVec_or, BitVec.and_or_distrib_right, none', UInt16.toBitVec_and]
  exact BitVec.or_zero

theorem retransmissionFailed_reads : Reads s (retransmissionFailed s) :=
  ⟨rfl, fun _ member => member, pollError_in _, .inl rfl⟩

theorem tcpNotifyUser_reads : Reads s (tcpNotifyUser s) := by
  unfold tcpNotifyUser
  split <;> exact .of_eq rfl rfl rfl rfl

theorem tcpConnectRto_reads : Reads s (tcpConnectRto s) := by
  unfold tcpConnectRto
  have released : Reads s (tcpReleaseRtoTimer s) := .of_eq rfl rfl rfl rfl
  refine released.trans ?_
  generalize tcpReleaseRtoTimer s = t
  dsimp only
  split
  · split
    · exact (retransmissionFailed_reads t).trans (tcpDone_reads _)
    · split
      · exact .refl t
      · refine Reads.trans ?_ (tcpRearmRtoTimer_reads _)
        exact (retransmitHead_reads t _).trans (.of_eq rfl rfl rfl rfl)
  · exact .refl t

theorem tcpRetransmissionTimeout_reads : Reads s (tcpRetransmissionTimeout s) := by
  unfold tcpRetransmissionTimeout
  have released : Reads s (tcpReleaseRtoTimer s) := .of_eq rfl rfl rfl rfl
  refine released.trans ?_
  generalize tcpReleaseRtoTimer s = t
  dsimp only
  split
  · refine Reads.trans ?_ (tcpNotifyUser_reads _)
    exact .of_eq rfl rfl rfl rfl
  · rename_i k _
    refine (retransmitHead_reads t k).trans ?_
    generalize retransmitHead t k = u
    have backed : Reads u (retransmissionBackoff u) := .of_eq rfl rfl rfl rfl
    split
    · exact (tcpDone_reads u).trans (retransmissionFailed_reads _)
    · split
      · exact backed.trans (tcpHandleFinState_reads _)
      · exact backed

theorem tcpLinger_reads : Reads s (tcpLinger s) := by
  unfold tcpLinger
  refine Reads.trans ?_ (tcpDone_reads _)
  exact .of_eq rfl rfl rfl rfl

theorem tcpUserTimeout_reads : Reads s (tcpUserTimeout s) := by
  unfold tcpUserTimeout
  refine Reads.trans ?_ (tcpAbort_reads _)
  exact .of_eq rfl rfl rfl rfl

/-! ### Arriving segments -/

theorem inputNewAck_reads (th : TcpHdr) : Reads s (inputNewAck s th).1 := by
  rw [inputNewAck_fst]
  split
  · refine Reads.trans ?_ (tcpCleanRtoQueue_reads _ _)
    refine Reads.trans ?_ (tcpRtt_reads _)
    exact .of_eq rfl rfl rfl rfl
  · exact .refl s

theorem countDelack_reads (large : Bool) : Reads s (countDelack s large) := by
  unfold countDelack
  split <;> exact .of_eq rfl rfl rfl rfl

theorem inputDelack_reads (th : TcpHdr) (skb : SkBuff) : Reads s (inputDelack s th skb) := by
  unfold inputDelack
  have stopped : Reads s (tcpStopDelackTimer s) := .of_eq rfl rfl rfl rfl
  refine stopped.trans ?_
  generalize tcpStopDelackTimer s = t
  dsimp only
  split
  · refine Reads.trans ?_ (tcpRearmRtoTimer_reads _)
    exact (tcpSendNext_reads t _).trans (.of_eq rfl rfl rfl rfl)
  · refine (countDelack_reads t (!th.psh && decide (1000 < skb.dlen))).trans ?_
    split
    · refine Reads.trans ?_ (tcpSendAck_reads _)
      exact .of_eq rfl rfl rfl rfl
    · split
      · exact .of_eq rfl rfl rfl rfl
      · exact .refl _

theorem inputExpected_reads (th : TcpHdr) (skb : SkBuff) (expected : Bool) :
    Reads s (inputExpected s th skb expected) := by
  unfold inputExpected
  split
  iterate 3 (split; exact inputDelack_reads s th skb; exact .refl s)
  exact .refl s

/-! ### Calls -/

theorem tcpWrite_reads (buf : List UInt8) : Reads s (tcpWrite s buf).1 := by
  unfold tcpWrite
  split
  · exact .refl s
  · split
    · exact tcpSend_reads s buf
    · exact tcpSend_reads s buf
    · exact .refl s

theorem tcpClose_reads : Reads s (tcpClose s).1 := by
  unfold tcpClose
  split
  iterate 6 exact .of_eq rfl rfl rfl rfl
  iterate 3 exact tcpDone_reads s
  · rename_i opened
    refine Reads.trans ?_ (tcpQueueFin_reads _)
    refine .of_state rfl rfl rfl (.inr (.inr ⟨?_, rfl⟩))
    rw [opened]
    rfl
  · exact tcpQueueFin_reads s

end HfIp
