import HfIp.SendTimer

/- No stranded send data: the steps of a connection that leave nothing behind in the write queue
   without a timer or a handler that will send it, and a run that does. -/
namespace HfIp

variable {s t : Conn}

theorem QueueBase.empty (base : QueueBase s) (none : s.tsk.writeQueue = []) : GuardInv s :=
  { base with guarded := fun _ some_left => absurd none some_left }

/-! ### The handlers -/

theorem tcpReleaseRtoTimer_base (base : QueueBase s) : QueueBase (tcpReleaseRtoTimer s) :=
  base.frame (.of_eq rfl rfl rfl rfl) (tcpReleaseRtoTimer_timers s).owned

theorem retransmissionBackoff_guards (base : QueueBase s) : GuardInv (retransmissionBackoff s) := by
  have timers := retransmissionBackoff_timers s
  have moved : QueueBase (retransmissionBackoff s) :=
    base.frame (.of_eq rfl rfl rfl rfl) timers.owned
  exact moved.guard (addRetransmit_ticks _ _ _)

theorem tcpHandleFinState_queue : QueueFrame s (tcpHandleFinState s) := by
  unfold tcpHandleFinState
  split
  · rename_i at_state
    exact ⟨rfl, rfl, fun active => ⟨active.1, by rw [at_state]; rfl⟩,
      (fun close => by cases close), (fun waiting => by cases waiting)⟩
  · rename_i at_state
    exact ⟨rfl, rfl, fun active => ⟨active.1, by rw [at_state]; rfl⟩,
      (fun close => by cases close), (fun waiting => by cases waiting)⟩
  · exact .refl s

theorem tcpRetransmissionTimeout_guards (base : QueueBase s) :
    GuardInv (tcpRetransmissionTimeout s) := by
  have released := tcpReleaseRtoTimer_base base
  unfold tcpRetransmissionTimeout
  generalize tcpReleaseRtoTimer s = t at released
  dsimp only
  split
  · rename_i none
    have empty : t.tsk.writeQueue = [] := List.head?_eq_none_iff.mp none
    exact ((released.empty empty).eq (t := { t with tsk.backoff := 0 }) rfl rfl rfl rfl rfl rfl).minor
      (tcpNotifyUser_minor _)
  · rename_i k head
    have again := retransmitHead_base released head
    generalize retransmitHead t k = u at again
    split
    · exact (tcpDone_guards again).eq rfl rfl rfl rfl rfl rfl
    · split
      · exact (retransmissionBackoff_guards again).frame tcpHandleFinState_queue
          (tcpHandleFinState_timers _) (by simp)
      · exact retransmissionBackoff_guards again

theorem tcpConnectRto_guards (base : QueueBase s)
    (left : Active s → s.tsk.state ≠ .synSent → s.tsk.writeQueue ≠ [] → Started s .retransmit) :
    GuardInv (tcpConnectRto s) := by
  have released := tcpReleaseRtoTimer_base base
  have left : Active (tcpReleaseRtoTimer s) → (tcpReleaseRtoTimer s).tsk.state ≠ .synSent →
      (tcpReleaseRtoTimer s).tsk.writeQueue ≠ [] → Started (tcpReleaseRtoTimer s) .retransmit :=
    fun active moved some_left =>
      (tcpReleaseRtoTimer_timers s).started (left active moved some_left)
  unfold tcpConnectRto
  generalize tcpReleaseRtoTimer s = t at released left
  dsimp only
  split
  · split
    · exact tcpDone_guards (released.frame (.of_eq rfl rfl rfl rfl)
        (retransmissionFailed_timers t).owned)
    · split
      · rename_i none
        exact released.empty (List.head?_eq_none_iff.mp none)
      · rename_i k head
        have again := retransmitHead_base released head
        refine tcpRearmRtoTimer_guards (again.frame ?_ (TimerFrame.owned (.of_eq rfl rfl)))
        exact .of_eq rfl rfl rfl rfl
  · rename_i moved
    exact { released with
      guarded := fun active some_left => .inr (left active moved some_left) }

/- Of the threads the one at position `i` has left. -/
theorem started_base (base : QueueBase s) (i : Nat) : QueueBase (started s i) :=
  base.frame (.of_eq rfl rfl rfl rfl) fun own => ⟨own.fresh, own.below, own.held⟩

theorem started_other {c : Slot} {i : Nat} {h : Thread Handler} (found : s.ts.threads[i]? = some h)
    (other : h.handler.slot ≠ some c) (starts : Started s c) : Started (started s i) c := by
  obtain ⟨th, member, handler⟩ := starts
  refine ⟨th, ?_, handler⟩
  obtain ⟨j, there⟩ := List.getElem?_of_mem member
  refine List.mem_eraseIdx_iff_getElem?.mpr ⟨j, ?_, there⟩
  rintro rfl
  rw [found] at there
  obtain rfl := Option.some.inj there
  exact other handler

theorem started_guards {i : Nat} {h : Thread Handler} (found : s.ts.threads[i]? = some h)
    (other : h.handler.slot ≠ some .retransmit) (inv : GuardInv s) : GuardInv (started s i) :=
  { started_base inv.toQueueBase i with
    guarded := fun active some_left =>
      (inv.guarded active some_left).imp id (started_other found other) }

theorem tcpSendReset_queue : QueueFrame s (tcpSendReset s) := by
  unfold tcpSendReset
  dsimp only
  refine QueueFrame.trans ?_ (.of_minor (freeSkb_minor _ _))
  refine QueueFrame.after (.of_same (tcpTransmitSkb_same _ _ _)) ?_
  exact .of_eq rfl rfl rfl rfl

theorem tcpAbort_guards (base : QueueBase s) : GuardInv (tcpAbort s) :=
  tcpDone_guards (base.frame tcpSendReset_queue (tcpSendReset_timers s).owned)

theorem socketFree_guards (base : QueueBase s) : GuardInv (socketFree s) := by
  obtain ⟨freed, eq⟩ := socketFree_eq s
  rw [eq]
  refine QueueBase.empty ⟨?_, fun _ => rfl, fun _ => Nat.zero_le _⟩ rfl
  exact ⟨base.owned.fresh, base.owned.below, base.owned.held⟩

/-! ### Calls -/

theorem tcpSendLoop_guards (mss fuel : Nat) (buf : List UInt8) (inv : GuardInv s)
    (opened : s.tsk.state ≠ .close) (connected : s.tsk.state ≠ .synSent) :
    GuardInv (tcpSendLoop mss fuel s buf) := by
  induction fuel generalizing s buf with
  | zero => exact inv
  | succ fuel ih =>
    rw [tcpSendLoop]
    split
    · exact inv
    · dsimp only
      have allocated := inv.minor (tcpAllocSkb_minor s 0 (buf.take mss))
      set al := tcpAllocSkb s 0 (buf.take mss)
      have queued := tcpQueueTransmitSkb_guards { al.2 with
        th := { al.2.th with ack := true, psh := (buf.drop mss).length = 0 } } allocated opened
        connected
      have stays := tcpQueueTransmitSkb_stays al.1 { al.2 with
        th := { al.2.th with ack := true, psh := (buf.drop mss).length = 0 } }
      exact ih _ queued (by rw [stays.state]; exact opened) (by rw [stays.state]; exact connected)

theorem tcpWrite_guards (buf : List UInt8) (inv : GuardInv s) : GuardInv (tcpWrite s buf).1 := by
  have writes : s.tsk.state ≠ .close → s.tsk.state ≠ .synSent → GuardInv (tcpSend s buf) := by
    intro opened connected
    have taken : GuardInv { s with accepted := s.accepted ++ buf } :=
      inv.eq rfl rfl rfl rfl rfl rfl
    exact tcpRearmUserTimeout_guards (tcpSendLoop_guards _ _ buf taken opened connected)
  unfold tcpWrite
  split
  · exact inv
  · split
    · rename_i at_state
      exact writes (by rw [at_state]; decide) (by rw [at_state]; decide)
    · rename_i at_state
      exact writes (by rw [at_state]; decide) (by rw [at_state]; decide)
    · exact inv

theorem tcpQueueFin_guards (inv : GuardInv s) (opened : s.tsk.state ≠ .close)
    (connected : s.tsk.state ≠ .synSent) : GuardInv (tcpQueueFin s) := by
  have counted : GuardInv (tcpAllocSkb { s with fins := s.fins + 1 } 0 []).1 :=
    inv.eq rfl rfl rfl rfl rfl rfl
  exact tcpQueueTransmitSkb_guards _ counted opened connected

theorem tcpClose_guards (inv : GuardInv s) : GuardInv (tcpClose s).1 := by
  unfold tcpClose
  split
  iterate 6 exact inv.eq rfl rfl rfl rfl rfl rfl
  iterate 3 exact tcpDone_guards inv.toQueueBase
  · rename_i at_state
    have moved : QueueFrame s (setState s .finWait1) := by
      refine ⟨rfl, rfl, fun active => ⟨active.1, by rw [at_state]; rfl⟩, fun close => ?_,
        fun waiting => ?_⟩
      · cases close
      · cases waiting
    refine tcpQueueFin_guards (inv.frame moved (.of_eq rfl rfl) (by simp)) ?_ ?_
    · simp [setState]
    · simp [setState]
  · rename_i at_state
    exact tcpQueueFin_guards inv (by rw [at_state]; decide) (by rw [at_state]; decide)

/- The SYN finds the queue empty and sets the timer. -/
theorem tcpV4Connect_guards (addr : SockAddr) (port : UInt16) (iss : UInt32) (base : QueueBase s)
    (closed : s.tsk.state = .close) : GuardInv (tcpV4Connect s addr port iss) := by
  have none := base.closed closed
  set r : Conn := { s with
    tsk.dport := addr.port, tsk.sport := port, tsk.daddr := addr.addr
    tsk.saddr := parseIpv4 10 0 0 4
    tsk.tcb.iss := iss, tsk.tcb.sndUna := iss, tsk.tcb.sndNxt := iss, tsk.tcb.rcvNxt := 0
    tsk.tcb.rcvWnd := tcpSelectInitialWindow } with hr
  have empty : r.tsk.writeQueue = [] := none
  have at_close : r.tsk.state = .close := closed
  set al := tcpAllocSkb r (tcpSynOptions r.tsk) []
  set k : SkBuff := { al.2 with
    th := { tcpWriteSynOptions r.tsk al.2.th (tcpSynOptions r.tsk) with syn := true } }
  have eq : tcpV4Connect s addr port iss = { tcpQueueTransmitSkb (setState al.1 .synSent) k with
      tsk.tcb.sndNxt := (tcpQueueTransmitSkb (setState al.1 .synSent) k).tsk.tcb.sndNxt + 1 } := by
    show (let u := tcpSendSyn r; { u with tsk.tcb.sndNxt := u.tsk.tcb.sndNxt + 1 }) = _
    unfold tcpSendSyn
    rw [if_neg (by rw [at_close]; decide)]
  have owned : Owned (setState al.1 .synSent) := ⟨base.owned.fresh, base.owned.below, base.owned.held⟩
  have state := (tcpQueueTransmitSkb_stays (setState al.1 .synSent) k).state
  have length := tcpQueueTransmitSkb_length (s := setState al.1 .synSent) k
  have queued : GuardInv (tcpQueueTransmitSkb (setState al.1 .synSent) k) :=
    { owned := (tcpQueueTransmitSkb_timers _ k).owned owned
      closed := fun close => by
        rw [state] at close
        cases close
      opening := fun _ => by
        rw [length, show (setState al.1 .synSent).tsk.writeQueue = [] from empty]
        exact Nat.pos_of_ne_zero (tcpQueueTransmitSkb_view (s := setState al.1 .synSent) k).2.2.2.2.2.2.2
      guarded := tcpQueueTransmitSkb_guarded k owned fun _ some_left => absurd empty some_left }
  rw [eq]
  exact queued.eq rfl rfl rfl rfl rfl rfl

/-! ### Arriving segments -/

/-- The cleaning of the write queue takes off all that is in flight and leaves unsent buffers. -/
def EmptiesFlight (s : Conn) (ack : UInt32) : Prop :=
  s.tsk.writeQueue.dropWhile (acked ack) ≠ [] ∧
    s.tsk.inflight ≤ (s.tsk.writeQueue.takeWhile (acked ack)).length

instance (s : Conn) (ack : UInt32) : Decidable (EmptiesFlight s ack) :=
  inferInstanceAs (Decidable (_ ∧ _))

theorem tcpRtt_queue : QueueFrame s (tcpRtt s) := .of_send (tcpRtt_send s) (tcpRtt_stays s)

theorem inputNewAck_guards (th : TcpHdr) (inv : GuardInv s) :
    QueueBase (inputNewAck s th).1 ∧ (Guarded (inputNewAck s th).1 ∨
      (AckNew s th ∧ EmptiesFlight s th.ackSeq ∧ (inputNewAck s th).1.tsk.inflight = 0)) := by
  rw [inputNewAck_fst]
  split
  · rename_i new
    have moved : GuardInv { s with tsk.tcb.sndUna := th.ackSeq } := inv.eq rfl rfl rfl rfl rfl rfl
    have frame := tcpRtt_queue (s := { s with tsk.tcb.sndUna := th.ackSeq })
    have timed := moved.frame frame (tcpRtt_timers _) (by simp)
    obtain ⟨base, guarded | ⟨left, gone, idle⟩⟩ := tcpCleanRtoQueue_guards th.ackSeq timed
    · exact ⟨base, .inl guarded⟩
    · rw [frame.queue] at left gone
      rw [frame.inflight] at gone
      exact ⟨base, .inr ⟨new, ⟨left, gone⟩, idle⟩⟩
  · exact ⟨inv.toQueueBase, .inl inv.guarded⟩

/- A new ACK is a valid one. -/
theorem inputNewAck_new {th : TcpHdr} (new : AckNew s th) : (inputNewAck s th).2 = true :=
  (inputNewAck_snd s th).mpr ⟨UInt32.le_of_lt new.1, new.2⟩

/- The segment's ACK field is compared with the two numbers. -/
def AckReached (s : Conn) (th : TcpHdr) : Prop :=
  s.tsk.state.takesAck = true ∨ (s.tsk.state = .synReceived ∧
    s.tsk.tcb.sndUna ≤ th.ackSeq ∧ th.ackSeq < s.tsk.tcb.sndNxt)

instance (s : Conn) (th : TcpHdr) : Decidable (AckReached s th) :=
  inferInstanceAs (Decidable (_ ∨ _))

theorem opened_queue (at_state : s.tsk.state = .synReceived) :
    QueueFrame s (setState s .established) := by
  refine ⟨rfl, rfl, fun active => ⟨active.1, by rw [at_state]; rfl⟩, fun close => ?_,
    fun waiting => ?_⟩
  · cases close
  · cases waiting

theorem inputAck_guards (th : TcpHdr) (inv : GuardInv s) :
    QueueBase (inputAck s th).1 ∧ (Guarded (inputAck s th).1 ∨
      (AckReached s th ∧ AckNew s th ∧ EmptiesFlight s th.ackSeq ∧
        (inputAck s th).1.tsk.inflight = 0 ∧ (inputAck s th).2 = true ∧
        (inputAck s th).1.tsk.state ≠ .synReceived)) := by
  by_cases takes : s.tsk.state.takesAck = true
  · rw [inputAck_takes takes]
    obtain ⟨base, guarded | ⟨new, empties, idle⟩⟩ := inputNewAck_guards th inv
    · exact ⟨base, .inl guarded⟩
    · refine ⟨base, .inr ⟨.inl takes, new, empties, idle, inputNewAck_new new, fun opening => ?_⟩⟩
      rw [← (inputNewAck_stays s th).state, opening] at takes
      contradiction
  · unfold inputAck
    split
    · rename_i at_state
      split
      · rename_i window
        have opened := inv.frame (opened_queue at_state) (.of_eq rfl rfl) (by simp)
        obtain ⟨base, guarded | ⟨new, empties, idle⟩⟩ := inputNewAck_guards th opened
        · exact ⟨base, .inl guarded⟩
        · refine ⟨base, .inr ⟨.inr ⟨at_state, window⟩, new, empties, idle, inputNewAck_new new,
            fun opening => ?_⟩⟩
          rw [(inputNewAck_stays (setState s .established) th).state] at opening
          cases opening
      · exact ⟨inv.toQueueBase, .inl inv.guarded⟩
    iterate 6 (rename_i at_state; rw [at_state] at takes; exact absurd rfl takes)
    exact ⟨inv.toQueueBase, .inl inv.guarded⟩

theorem countDelack_guards (large : Bool) (inv : GuardInv s) : GuardInv (countDelack s large) := by
  unfold countDelack
  split
  · exact inv.eq rfl rfl rfl rfl rfl rfl
  · exact inv

/- An idle queue that is not empty is sent here, and its timer set. -/
theorem inputDelack_guards (th : TcpHdr) (skb : SkBuff) (base : QueueBase s)
    (opened : s.tsk.state ≠ .close) (guarded : Guarded s ∨ s.tsk.inflight = 0) :
    GuardInv (inputDelack s th skb) := by
  have stopped : QueueBase (tcpStopDelackTimer s) :=
    base.frame (.of_eq rfl rfl rfl rfl) (tcpStopDelackTimer_timers s).owned
  have guarded : Guarded (tcpStopDelackTimer s) ∨ (tcpStopDelackTimer s).tsk.inflight = 0 := by
    refine guarded.imp (fun guarded active some_left => ?_) id
    exact (tcpStopDelackTimer_timers s).armed base.owned (by simp) (guarded active some_left)
  have opened : (tcpStopDelackTimer s).tsk.state ≠ .close := opened
  unfold inputDelack
  generalize tcpStopDelackTimer s = t at stopped guarded opened
  dsimp only
  split
  · exact tcpSendNext_guards _ stopped opened
  · rename_i busy
    have inv : GuardInv t := by
      rcases guarded with guarded | idle
      · exact { stopped with guarded := guarded }
      · refine stopped.empty ?_
        by_contra some_left
        have := List.length_pos_iff.mpr some_left
        exact busy ⟨idle, by omega⟩
    have counted := countDelack_guards (!th.psh && decide (1000 < skb.dlen)) inv
    generalize countDelack t (!th.psh && decide (1000 < skb.dlen)) = u at counted
    split
    · exact (counted.eq (t := { u with tsk.delacks := 0 }) rfl rfl rfl rfl rfl rfl).minor
        (tcpSendAck_minor _)
    · split
      · exact counted.frame (.of_eq rfl rfl rfl rfl) (addDelack_timers u) (by simp)
      · exact counted

theorem inputFin_guards (inv : GuardInv s) : GuardInv (inputFin s) := by
  have acked := (((pollReadable_minor { s with
      tsk.tcb.rcvNxt := s.tsk.tcb.rcvNxt + 1, tsk.flags := s.tsk.flags ||| TCP_FIN }).trans
    (tcpSendAck_minor _)).trans (recvNotify_minor _))
  have inv := (inv.eq (t := { s with
    tsk.tcb.rcvNxt := s.tsk.tcb.rcvNxt + 1, tsk.flags := s.tsk.flags ||| TCP_FIN })
    rfl rfl rfl rfl rfl rfl).minor acked
  unfold inputFin
  dsimp only
  generalize recvNotify (tcpSendAck (pollReadable { s with
    tsk.tcb.rcvNxt := s.tsk.tcb.rcvNxt + 1, tsk.flags := s.tsk.flags ||| TCP_FIN })) = t at inv
  have moves : ∀ state, t.tsk.state.active = true → state ≠ .close → state ≠ .synSent →
      GuardInv (setState t state) := by
    intro state active opened connected
    refine inv.frame ⟨rfl, rfl, fun h => ⟨h.1, active⟩, fun close => ?_, fun waiting => ?_⟩
      (.of_eq rfl rfl) (by simp)
    · exact absurd close opened
    · exact absurd waiting connected
  split
  · rename_i at_state
    exact moves .closeWait (by rw [at_state]; rfl) (by decide) (by decide)
  · rename_i at_state
    exact moves .closeWait (by rw [at_state]; rfl) (by decide) (by decide)
  · rename_i at_state
    split
    · exact tcpEnterTimeWait_guards inv.toQueueBase
    · exact moves .closing (by rw [at_state]; rfl) (by decide) (by decide)
  · exact tcpEnterTimeWait_guards inv.toQueueBase
  · exact inv

/- The queue is sent on by this segment. -/
def SendsNext (s : Conn) (th : TcpHdr) (skb : SkBuff) : Prop :=
  skb.seq = s.tsk.tcb.rcvNxt ∧ th.fin = false ∧
    (s.tsk.state = .synReceived ∨ s.tsk.state = .established ∨ s.tsk.state = .finWait1)

instance (s : Conn) (th : TcpHdr) (skb : SkBuff) : Decidable (SendsNext s th skb) :=
  inferInstanceAs (Decidable (_ ∧ _))

theorem inputText_queue (th : TcpHdr) (skb : SkBuff) : QueueFrame s (inputText s th skb).1 :=
  .of_send (inputText_send s th skb) (inputText_stays s th skb)

theorem inputTextFin_guards (th : TcpHdr) (expected : Bool) (inv : GuardInv s) :
    GuardInv (inputTextFin s th expected) := by
  unfold inputTextFin
  split
  · exact inputFin_guards inv
  · exact inv

theorem inputExpected_guards (th : TcpHdr) (skb : SkBuff) (expected : Bool) (inv : GuardInv s) :
    GuardInv (inputExpected s th skb expected) := by
  have delack : s.tsk.state ≠ .close → GuardInv (inputDelack s th skb) :=
    fun opened => inputDelack_guards th skb inv.toQueueBase opened (.inl inv.guarded)
  unfold inputExpected
  split
  iterate 3
    rename_i at_state
    split
    · exact delack (by rw [at_state]; decide)
    · exact inv
  exact inv

theorem inputTail_guards (th : TcpHdr) (skb : SkBuff) (base : QueueBase s)
    (guarded : Guarded s ∨ (SendsNext s th skb ∧ s.tsk.state ≠ .synReceived ∧ s.tsk.inflight = 0)) :
    GuardInv (inputTail s th skb) := by
  have text := inputText_queue (s := s) th skb
  have timers := inputText_timers s th skb
  unfold inputTail
  refine GuardInv.minor ?_ (freeSkb_minor _ _)
  rcases guarded with guarded | ⟨⟨expected, noFin, state⟩, opened, idle⟩
  · have inv : GuardInv s := { base with guarded := guarded }
    exact inputExpected_guards th skb _ (inputTextFin_guards th _ (inv.frame text timers (by simp)))
  · have base := base.frame text timers.owned
    have stays := (inputText_stays s th skb).state
    rw [← text.inflight] at idle
    have kept : inputTextFin (inputText s th skb).1 th (decide (skb.seq = s.tsk.tcb.rcvNxt))
        = (inputText s th skb).1 := by
      unfold inputTextFin
      simp [noFin]
    rw [kept]
    unfold inputExpected
    rw [stays]
    rcases state with at_state | at_state | at_state
    · exact absurd at_state opened
    · rw [at_state]
      simp only [expected, decide_true, if_true]
      exact inputDelack_guards th skb base (by rw [stays, at_state]; decide) (.inr idle)
    · rw [at_state]
      simp only [expected, decide_true, if_true]
      exact inputDelack_guards th skb base (by rw [stays, at_state]; decide) (.inr idle)

theorem inputFinAcked_guards (th : TcpHdr) (inv : GuardInv s) : GuardInv (inputFinAcked s th) := by
  have moves : ∀ state, state.active = false → state ≠ .close → GuardInv (setState s state) := by
    intro state inactive opened
    refine inv.frame ⟨rfl, rfl, fun active => ?_, fun close => ?_, fun waiting => ?_⟩
      (.of_eq rfl rfl) (by simp)
    · rw [Active, show (setState s state).tsk.state = state from rfl, inactive] at active
      exact absurd active.2 (by decide)
    · exact absurd close opened
    · rw [show (setState s state).tsk.state = state from rfl] at waiting
      rw [waiting] at inactive
      contradiction
  unfold inputFinAcked
  split
  · split
    · exact moves .finWait2 rfl (by decide)
    · exact moves .timeWait rfl (by decide)
    · split
      · exact (inv.eq (t := { s with tsk.flags := s.tsk.flags ||| TCP_FIN })
          rfl rfl rfl rfl rfl rfl).minor (tcpSendAck_minor _)
      · exact inv
    · exact inv
  · exact inv

theorem inputAck_timers (th : TcpHdr) : TimerFrame [.retransmit] s (inputAck s th).1 := by
  have newAck : ∀ u : Conn, TimerFrame [.retransmit] u (inputNewAck u th).1 := by
    intro u
    rw [inputNewAck_fst]
    split
    · have moved : TimerFrame [] u { u with tsk.tcb.sndUna := th.ackSeq } := .of_eq rfl rfl
      exact (moved.trans (tcpRtt_timers _)).trans (tcpCleanRtoQueue_timers _ _)
    · exact (TimerFrame.refl u).weaken (List.nil_subset _)
  unfold inputAck
  split
  · split
    · exact (newAck (setState s .established)).after (.of_eq rfl rfl)
    · exact (TimerFrame.refl s).weaken (List.nil_subset _)
  iterate 6 exact newAck s
  exact (TimerFrame.refl s).weaken (List.nil_subset _)

/-- The ACK of the segment empties the flight, and the segment does not send on what is left. -/
def Strands (s : Conn) (th : TcpHdr) (skb : SkBuff) : Prop :=
  (tcpVerifySegment s.tsk th skb = true ∧ th.rst = false ∧ th.syn = false ∧ th.ack = true) ∧
    Active s ∧ AckReached s th ∧ AckNew s th ∧ EmptiesFlight s th.ackSeq ∧ ¬SendsNext s th skb

instance (s : Conn) (th : TcpHdr) (skb : SkBuff) : Decidable (Strands s th skb) :=
  inferInstanceAs (Decidable (_ ∧ _))

theorem inputOtherwise_guards (th : TcpHdr) (skb : SkBuff) (inv : GuardInv s)
    (ok : Strands s th skb → Started s .retransmit) : GuardInv (inputOtherwise s th skb) := by
  obtain ⟨base, guarded⟩ := inputAck_guards th inv
  obtain ⟨state, ended⟩ := inputAck_moves s th
  refine inputOtherwise_cases s th skb ?unverified ?reset ?ignored ?refused ?closed ?taken
  case unverified =>
    intro _
    refine GuardInv.minor ?_ (freeSkb_minor _ _)
    split
    · exact inv
    · exact inv.minor (tcpSendAck_minor s)
  case reset =>
    intro _ _
    exact (tcpEnterTimeWait_guards (inv.minor (freeSkb_minor _ _)).toQueueBase).minor
      (recvNotify_minor _)
  case ignored => exact fun _ _ _ => inv.minor (freeSkb_minor _ _)
  case refused =>
    intro _ _ _ _ refused
    rcases guarded with guarded | ⟨_, _, _, _, valid, _⟩
    · exact GuardInv.minor { base with guarded := guarded } (freeSkb_minor _ _)
    · rw [refused] at valid
      contradiction
  case closed =>
    intro _ _ _ _ _ _ none
    exact tcpDone_guards ((base.empty none).minor (freeSkb_minor _ _)).toQueueBase
  case taken =>
    intro verified rst syn ack _ _
    by_cases safe : Guarded (inputAck s th).1
    · have inv := inputFinAcked_guards th { base with guarded := safe }
      exact inputTail_guards th skb inv.toQueueBase (.inl inv.guarded)
    · obtain ⟨reached, new, empties, idle, -, opened⟩ := guarded.resolve_left safe
      have left : (inputAck s th).1.tsk.writeQueue ≠ [] :=
        fun none => safe (base.empty none).guarded
      have active : Active (inputAck s th).1 := by
        by_contra gone
        exact safe fun active => absurd active gone
      have active : Active s := by
        refine ⟨ended.symm.trans active.1, ?_⟩
        rcases state with same | ⟨at_state, -⟩
        · rw [← same]; exact active.2
        · rw [at_state]; rfl
      have sends : SendsNext s th skb := by
        by_contra stranded
        have starts := ok ⟨⟨verified, rst, syn, ack⟩, active, reached, new, empties, stranded⟩
        exact safe fun _ _ => .inr ((inputAck_timers th).started starts)
      have unmoved : inputFinAcked (inputAck s th).1 th = (inputAck s th).1 := by
        unfold inputFinAcked
        rw [if_neg (by simpa [skbQueueEmpty] using left)]
      rw [unmoved]
      refine inputTail_guards th skb base (.inr ⟨⟨?_, sends.2.1, ?_⟩, opened, idle⟩)
      · rw [inputAck_rcvNxt]
        exact sends.1
      · rcases state with same | ⟨-, now⟩
        · rw [same]; exact sends.2.2
        · exact .inr (.inl now)

/-! ### Connecting -/

theorem synsentAck_guards (th : TcpHdr) (inv : GuardInv s) (waiting : s.tsk.state = .synSent) :
    GuardInv (synsentAck s th) := by
  unfold synsentAck
  dsimp only
  have learned : GuardInv { s with tsk.tcb.rcvNxt := th.seq + 1, tsk.tcb.irs := th.seq } :=
    inv.eq rfl rfl rfl rfl rfl rfl
  split
  · have moved : GuardInv { s with tsk.tcb.rcvNxt := th.seq + 1, tsk.tcb.irs := th.seq
                                   tsk.tcb.sndUna := th.ackSeq } := inv.eq rfl rfl rfl rfl rfl rfl
    obtain ⟨base, guarded | ⟨left, gone, -⟩⟩ := tcpCleanRtoQueue_guards th.ackSeq moved
    · exact { base with guarded := guarded }
    · -- the queue is no longer than the flight, so nothing is left
      have bound := inv.opening waiting
      have total := congrArg List.length
        (List.takeWhile_append_dropWhile (p := acked th.ackSeq) (l := s.tsk.writeQueue))
      rw [List.length_append] at total
      have some_left := List.length_pos_iff.mpr left
      dsimp only at some_left gone
      omega
  · exact learned

theorem synsentSyn_guards (th : TcpHdr) (inv : GuardInv s) (waiting : s.tsk.state = .synSent) :
    GuardInv (synsentSyn s th) := by
  have ackd := synsentAck_guards th inv waiting
  have at_state := (synsentAck_state (s := s) th).trans waiting
  unfold synsentSyn
  generalize synsentAck s th = t at ackd at_state
  have moves : ∀ state, state ≠ .close → state ≠ .synSent → GuardInv (setState t state) := by
    intro state opened connected
    refine ackd.frame ⟨rfl, rfl, fun active => ⟨active.1, by rw [at_state]; rfl⟩, fun close => ?_,
      fun waiting => ?_⟩ (.of_eq rfl rfl) (by simp)
    · exact absurd close opened
    · exact absurd waiting connected
  dsimp only
  split
  · have opened := moves .established (by decide) (by decide)
    unfold synsentEstablish
    dsimp only
    have sent : GuardInv (tcpRearmUserTimeout (tcpSendAck { setState t .established with
        tsk.tcb.sndUna := (setState t .established).tsk.tcb.sndNxt, tsk.backoff := 0
        tsk.rto := 1000 })) := by
      refine tcpRearmUserTimeout_guards (GuardInv.minor ?_ (tcpSendAck_minor _))
      exact opened.eq rfl rfl rfl rfl rfl rfl
    generalize tcpRearmUserTimeout (tcpSendAck { setState t .established with
      tsk.tcb.sndUna := (setState t .established).tsk.tcb.sndNxt, tsk.backoff := 0
      tsk.rto := 1000 }) = u at sent
    have parsed := (sent.eq (t := { u with tsk.smss := (tcpParseOpts u.tsk th).smss })
      rfl rfl rfl rfl rfl rfl).minor (tcpParseOpts_minor u th)
    exact parsed.eq rfl rfl rfl rfl rfl rfl
  · rw [tcpSendSynack_minor _ (by simp [setState])]
    exact (moves .synReceived (by decide) (by decide)).eq rfl rfl rfl rfl rfl rfl

theorem tcpReset_guards (inv : GuardInv s) : GuardInv (tcpReset s) := by
  have marked : ∀ e, QueueBase { s with
      tsk.pollEvents := POLLOUT ||| POLLWRNORM ||| POLLERR ||| POLLHUP, tsk.err := e } :=
    fun e => inv.toQueueBase.frame (.of_eq rfl rfl rfl rfl) (TimerFrame.owned (.of_eq rfl rfl))
  unfold tcpReset
  dsimp only
  split
  · exact tcpDone_guards (marked _)
  · exact tcpDone_guards (marked _)
  · exact inv.eq rfl rfl rfl rfl rfl rfl
  · exact tcpDone_guards (marked _)

theorem tcpInputState_guards (th : TcpHdr) (skb : SkBuff) (inv : GuardInv s)
    (ok : Strands s th skb → Started s .retransmit) : GuardInv (tcpInputState s th skb) := by
  unfold tcpInputState
  split
  · unfold tcpClosed
    split
    · exact inv.minor (freeSkb_minor _ _)
    · exact (inv.frame tcpSendReset_queue (tcpSendReset_timers s) (by simp)).minor
        (freeSkb_minor _ _)
  · exact inv.minor (freeSkb_minor _ _)
  · rename_i waiting
    unfold tcpSynsent
    dsimp only
    split
    · exact inv.minor (freeSkb_minor _ _)
    · split
      · exact inv.minor (freeSkb_minor _ _)
      · split
        · exact (tcpReset_guards inv).minor (freeSkb_minor _ _)
        · split
          · exact inv.minor (freeSkb_minor _ _)
          · exact (synsentSyn_guards th inv waiting).minor (freeSkb_minor _ _)
  · exact inputOtherwise_guards th skb inv ok

/-! ### Events -/

theorem Idle.guards (h : Idle s t) (inv : GuardInv s) : GuardInv t := by
  refine inv.eq (congrArg (·.ts) h) (funext fun c => ?_) (congrArg (·.tsk.writeQueue) h)
    (congrArg (·.tsk.inflight) h) (congrArg (·.tsk.state) h) (congrArg (·.ended) h)
  cases c
  · exact congrArg (·.tsk.retransmit) h
  · exact congrArg (·.tsk.delack) h
  · exact congrArg (·.tsk.keepalive) h
  · exact congrArg (·.tsk.linger) h

/-- No ACK empties the flight of a queue that the segment does not send on, and the handler of the
    SYN does not run after the state has left SYN_SENT on a queue that is not empty, unless another
    handler that sends the queue has been started. -/
def NothingStranded (s : Conn) : Event → Prop
  | .segment th payload =>
    Strands s th (tcpInitSegment s th payload).2 → Started s .retransmit
  | .handler i => ∀ h ∈ s.ts.threads[i]?, h.handler = .tcpConnectRto → Active s →
    s.tsk.state ≠ .synSent → s.tsk.writeQueue ≠ [] → Started (started s i) .retransmit
  | _ => True

instance (s : Conn) (e : Event) : Decidable (NothingStranded s e) := by
  induction e using Event.casesOn <;> unfold NothingStranded <;> infer_instance

theorem GuardInv.tick (inv : GuardInv s) (busy : List Nat) :
    GuardInv { s with ts := timersStart s.ts busy } where
  owned := ⟨fun a member => inv.owned.fresh a (tick_alarms _ member), inv.owned.below,
    fun c a member => inv.owned.held c a (tick_alarms _ member)⟩
  closed := inv.closed
  opening := inv.opening
  guarded active some_left := by
    rcases inv.guarded active some_left with ⟨a, member, held⟩ | ⟨h, member, handler⟩
    · rcases tick_keeps s.ts member busy with kept | ⟨h, started, -, handler⟩
      · exact .inl ⟨a, kept, held⟩
      · refine .inr ⟨h, started, ?_⟩
        rw [handler]
        exact inv.owned.held _ a member held
    · exact .inr ⟨h, tick_threads _ member busy, handler⟩

/- What one event keeps. -/
theorem exec_guards {e : Event} {r : Reply} (inv : GuardInv s) (ok : NothingStranded s e)
    (taken : exec s e = some (t, r)) : GuardInv t := by
  have lock : ∀ u, GuardInv u → GuardInv (socketWrAcquire u) :=
    fun u => GuardInv.minor (h := socketWrAcquire_minor u)
  have unlock : ∀ u, GuardInv u → GuardInv (socketRelease u) :=
    fun u => GuardInv.minor (h := socketRelease_minor u)
  refine exec_pass (fun _ _ h inv => Idle.guards h inv) inv taken ?free ?tick ?handler ?write ?read
    ?wake ?close ?abort ?connect ?segment
  case free => exact fun _ u inv => socketFree_guards inv.toQueueBase
  case tick => exact fun busy _ => inv.tick busy
  case handler =>
    rintro i h rfl found -
    have base : QueueBase (socketWrAcquire (started s i)) :=
      (started_base inv.toQueueBase i).frame (.of_minor (socketWrAcquire_minor _))
        (TimerFrame.of_minor (socketWrAcquire_minor _)).owned
    cases name : h.handler with
    | tcpConnectRto =>
      refine unlock _ (tcpConnectRto_guards base fun active moved some_left => ?_)
      exact ok h found name active moved some_left
    | tcpRetransmissionTimeout => exact unlock _ (tcpRetransmissionTimeout_guards base)
    | tcpSendDelack =>
      have locked := lock _ (started_guards found (by rw [name]; decide) inv)
      have released := locked.frame (t := tcpReleaseDelackTimer { socketWrAcquire (started s i) with
        tsk.delacks := 0 }) (.of_eq rfl rfl rfl rfl)
        ((tcpReleaseDelackTimer_timers { socketWrAcquire (started s i) with
          tsk.delacks := 0 }).after (.of_eq rfl rfl)) (by simp)
      exact unlock _ (released.minor (tcpSendAck_minor _))
    | tcpLinger =>
      exact unlock _ (tcpDone_guards (base.frame (.of_eq rfl rfl rfl rfl) (stopLinger_timers _).owned))
    | tcpUserTimeout =>
      exact unlock _ (tcpAbort_guards (base.frame (.of_eq rfl rfl rfl rfl) (stopLinger_timers _).owned))
    | socketGarbageCollect =>
      have rest := started_guards found (by rw [name]; decide) inv
      unfold runHandler socketGarbageCollect
      dsimp only
      split
      · exact socketFree_guards rest.toQueueBase
      · exact rest
  case write => exact fun buf _ _ inv => tcpWrite_guards buf inv
  case read =>
    exact fun len _ _ inv => inv.frame (.of_send (tcpRead_send _ len) (tcpRead_stays _ len))
      (tcpRead_timers _ len) (by simp)
  case wake =>
    exact fun i b _ _ _ inv => inv.frame (.of_send (receiveLoop_send _ b.len b.rlen)
      (receiveLoop_stays _ b.len b.rlen)) (receiveLoop_timers _ b.len b.rlen) (by simp)
  case close => exact fun _ _ inv => tcpClose_guards inv
  case abort => exact fun _ _ => tcpAbort_guards inv.toQueueBase
  case connect =>
    exact fun addr port iss _ _ closed inv => tcpV4Connect_guards addr port iss inv.toQueueBase closed
  case segment =>
    rintro th payload rfl - inv
    exact tcpInputState_guards th _ inv ok

theorem GuardInv.start : GuardInv {} where
  owned := ⟨by simp [alarms, alarmsOf], fun c i => by cases c <;> simp [TcpSock.slot],
    by simp [alarms, alarmsOf]⟩
  closed _ := rfl
  opening _ := Nat.le_refl _
  guarded active := absurd active (by decide)

theorem no_stranded_send_data {trace : List (Event × Reply)}
    (run : Transition.Run exec (fun _ s e => NothingStranded s e) {} trace s) (active : Active s)
    (some_left : s.tsk.writeQueue ≠ []) : Ticking s .retransmit ∨ Started s .retransmit := by
  have inv : GuardInv s := by
    refine run.invariant_state .start ?_
    exact fun _ _ _ _ _ inv ok taken => exec_guards inv ok taken
  exact inv.guarded active some_left

theorem no_stranded_send_data_write : ∃ trace s,
    Transition.Run exec (fun _ s e => NothingStranded s e) {} trace s ∧ Active s ∧
      s.tsk.writeQueue ≠ [] ∧ (Ticking s .retransmit ∨ Started s .retransmit) := by
  obtain ⟨trace, s, run, active, some_left⟩ : ∃ trace s,
      Transition.Run exec (fun _ s e => NothingStranded s e) {} trace s ∧ Active s ∧
        s.tsk.writeQueue ≠ [] :=
    Transition.Run.exists_of_follow (handshake ++ [.write [1], .write [2],
      .segment (peerHdr 5001 1002) []]) (by decide)
  exact ⟨trace, s, run, active, some_left, no_stranded_send_data run active some_left⟩

/-- Two one-byte writes, the first acknowledged by a segment out of sequence: the second stays behind
    with no timer. -/
theorem ack_out_of_sequence_strands :
    ∃ trace s, Transition.Run exec (fun _ _ _ => True) {} trace s ∧ ¬Guarded s :=
  Transition.Run.exists_of_follow (handshake ++ [.write [1], .write [2],
    .segment (peerHdr 5002 1002) []]) (by decide)

end HfIp
