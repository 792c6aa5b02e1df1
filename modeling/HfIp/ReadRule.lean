import HfIp.ReadFrame
import HfIp.StateMachine
import HfIp.SegmentRule

/- What a segment and an event do on the reader's side: a rule for properties that the functions of
   the read frame keep. What is left to show is how queueing text, taking a FIN, the handshake, a
   reset and a read keep them. -/
namespace HfIp

variable {P : Conn → Prop} {s t : Conn} {th : TcpHdr} {skb : SkBuff}

/-! ### Arriving segments -/

theorem inputAck_reads_rule (frame : ∀ u v, Reads u v → P u → P v) (start : P s)
    (opened : s.tsk.state = .synReceived → P (setState s .established)) : P (inputAck s th).1 := by
  unfold inputAck
  split
  · rename_i waiting
    split
    · exact frame _ _ (inputNewAck_reads _ th) (opened waiting)
    · exact start
  iterate 6 exact frame _ _ (inputNewAck_reads s th) start
  exact start

theorem inputFinAcked_reads_rule (frame : ∀ u v, Reads u v → P u → P v) (start : P s)
    (again : s.tsk.state = .timeWait → s.tsk.tcb.rcvNxt = th.seq →
      P { s with tsk.flags := s.tsk.flags ||| TCP_FIN }) : P (inputFinAcked s th) := by
  unfold inputFinAcked
  split
  · split
    · rename_i closes
      refine frame s _ (.of_state rfl rfl rfl (.inr (.inr ⟨?_, rfl⟩))) start
      rw [closes]
      rfl
    · exact frame s _ (.of_state rfl rfl rfl (.inr (.inl rfl))) start
    · rename_i gone
      split
      · rename_i here
        exact frame _ _ (tcpSendAck_reads _) (again gone here)
      · exact start
    · exact start
  · exact start

theorem inputText_reads_rule (start : P s)
    (text : s.tsk.state.phase = .text → th.psh = true ∨ 0 < skb.dlen → P (tcpDataQueue s skb).1) :
    P (inputText s th skb).1 := by
  unfold inputText
  split
  iterate 3
    rename_i open_
    split
    · rename_i worth
      exact text (by rw [open_]; rfl) worth
    · exact start
  exact start

theorem inputTail_reads_rule (frame : ∀ u v, Reads u v → P u → P v) (start : P s)
    (text : s.tsk.state.phase = .text → th.psh = true ∨ 0 < skb.dlen → P (tcpDataQueue s skb).1)
    (fin : ∀ u, u.tsk.state = s.tsk.state → th.fin = true → skb.seq = s.tsk.tcb.rcvNxt → P u →
      P (inputFin u)) : P (inputTail s th skb) := by
  unfold inputTail
  dsimp only
  refine frame _ _ ((inputExpected_reads _ th skb _).trans (freeSkb_reads _ _)) ?_
  have queued : P (inputText s th skb).1 := inputText_reads_rule start text
  unfold inputTextFin
  split
  · rename_i taken
    simp only [Bool.and_eq_true, decide_eq_true_eq] at taken
    exact fin _ (inputText_stays s th skb).state taken.1 taken.2 queued
  · exact queued

/- A segment that is not turned away in a synchronized state. -/
structure Passes (s : Conn) (th : TcpHdr) (skb : SkBuff) : Prop where
  verified : tcpVerifySegment s.tsk th skb = true
  rst : th.rst = false
  syn : th.syn = false
  ack : th.ack = true
  valid : (inputAck s th).2 = true
  queued : (inputAck s th).1.tsk.state = .lastAck → (inputAck s th).1.tsk.writeQueue ≠ []

instance (s : Conn) (th : TcpHdr) (skb : SkBuff) : Decidable (Passes s th skb) :=
  decidable_of_iff (tcpVerifySegment s.tsk th skb = true ∧ th.rst = false ∧ th.syn = false ∧
    th.ack = true ∧ (inputAck s th).2 = true ∧
    ((inputAck s th).1.tsk.state = .lastAck → (inputAck s th).1.tsk.writeQueue ≠ []))
    ⟨fun ⟨a, b, c, d, e, f⟩ => ⟨a, b, c, d, e, f⟩, fun ⟨a, b, c, d, e, f⟩ => ⟨a, b, c, d, e, f⟩⟩

/- The states in which `tcp_input_state` checks a segment against the window. -/
def TcpState.synchronizes : TcpState → Bool
  | .close | .listen | .synSent => false
  | _ => true

theorem Passes.phase (passes : Passes s th skb) (checked : s.tsk.state.synchronizes = true) :
    (inputAck s th).1.tsk.state.phase ≠ .outside := by
  have valid := passes.valid
  obtain ⟨same | ⟨-, opened⟩, -⟩ := inputAck_moves s th
  · rw [same]
    intro outside
    have waiting : s.tsk.state = .synReceived := by
      cases at_state : s.tsk.state <;> simp_all [TcpState.synchronizes, TcpState.phase]
    unfold inputAck at valid same
    simp only [waiting] at valid same
    split at valid
    · rename_i window
      rw [if_pos window, (inputNewAck_stays _ th).state] at same
      cases same
    · contradiction
  · rw [opened]
    simp [TcpState.phase]

theorem inputFinAcked_phase : (inputFinAcked s th).tsk.state.phase = s.tsk.state.phase := by
  unfold inputFinAcked
  split
  · split
    · rename_i at_state
      rw [at_state]
      rfl
    · rename_i at_state
      rw [at_state]
      rfl
    · split
      · exact congrArg _ (tcpSendAck_minor _).same.state
      · rfl
    · rfl
  · rfl

theorem inputFinAcked_rcvNxt : (inputFinAcked s th).tsk.tcb.rcvNxt = s.tsk.tcb.rcvNxt := by
  refine inputFinAcked_reads_rule (P := fun u => u.tsk.tcb.rcvNxt = s.tsk.tcb.rcvNxt) ?_ rfl ?_
  · intro u v reads
    exact reads.rcvNxt.trans
  · intro _ _
    rfl

/- The states other than CLOSED, LISTEN and SYN_SENT. -/
theorem inputOtherwise_reads_rule (frame : ∀ u v, Reads u v → P u → P v)
    (checked : s.tsk.state.synchronizes = true) (start : P s)
    (opened : s.tsk.state = .synReceived → P (setState s .established))
    (reset : tcpVerifySegment s.tsk th skb = true → th.rst = true → ∀ u, Reads s u →
      u.tsk.state = .timeWait → P u → P (recvNotify u))
    (again : ∀ u, u.tsk.state = .timeWait → P u → P { u with tsk.flags := u.tsk.flags ||| TCP_FIN })
    (text : ∀ u, u.tsk.state.phase = .text → Passes s th skb → th.psh = true ∨ 0 < skb.dlen →
      P u → P (tcpDataQueue u skb).1)
    (fin : ∀ u, u.tsk.state.phase ≠ .outside → Passes s th skb → th.fin = true →
      skb.seq = s.tsk.tcb.rcvNxt → P u → P (inputFin u)) : P (inputOtherwise s th skb) := by
  have freed : ∀ u, P u → P (freeSkb u skb) := fun u => frame _ _ (freeSkb_reads u skb)
  have acked : P (inputAck s th).1 := inputAck_reads_rule frame start opened
  refine inputOtherwise_cases s th skb ?_ ?_ ?_ ?_ ?_ ?_
  · intro _
    refine freed _ ?_
    split
    · exact start
    · exact frame _ _ (tcpSendAck_reads s) start
  · intro verified rst
    have gone := (freeSkb_reads s skb).trans (tcpEnterTimeWait_reads _)
    exact reset verified rst _ gone rfl (frame _ _ gone start)
  · intro _ _ _
    exact freed s start
  · intro _ _ _ _ _
    exact freed _ acked
  · intro _ _ _ _ _ _ _
    exact frame _ _ (tcpDone_reads _) (freed _ acked)
  · intro verified rst syn ack valid queued
    have passes : Passes s th skb := ⟨verified, rst, syn, ack, valid, queued⟩
    have finAcked : P (inputFinAcked (inputAck s th).1 th) :=
      inputFinAcked_reads_rule frame acked fun gone _ => again _ gone acked
    have phase : (inputFinAcked (inputAck s th).1 th).tsk.state.phase ≠ .outside := by
      rw [inputFinAcked_phase]
      exact passes.phase checked
    refine inputTail_reads_rule frame finAcked ?_ ?_
    · intro in_text worth
      exact text _ in_text passes worth finAcked
    · intro u same flag here
      rw [inputFinAcked_rcvNxt, inputAck_rcvNxt] at here
      exact fin u (by rw [same]; exact phase) passes flag here

theorem tcpInputState_reads_rule (frame : ∀ u v, Reads u v → P u → P v) (start : P s)
    (refused : s.tsk.state = .synSent → th.rst = true → P (tcpReset s))
    (syn : SynTaken s th → P (synsentSyn s th))
    (opened : s.tsk.state = .synReceived → P (setState s .established))
    (reset : s.tsk.state.synchronizes = true → tcpVerifySegment s.tsk th skb = true →
      th.rst = true → ∀ u, Reads s u → u.tsk.state = .timeWait → P u → P (recvNotify u))
    (again : ∀ u, u.tsk.state = .timeWait → P u → P { u with tsk.flags := u.tsk.flags ||| TCP_FIN })
    (text : ∀ u, u.tsk.state.phase = .text → Passes s th skb → th.psh = true ∨ 0 < skb.dlen →
      P u → P (tcpDataQueue u skb).1)
    (fin : ∀ u, u.tsk.state.phase ≠ .outside → s.tsk.state.synchronizes = true →
      Passes s th skb → th.fin = true → skb.seq = s.tsk.tcb.rcvNxt → P u → P (inputFin u)) :
    P (tcpInputState s th skb) := by
  have freed : ∀ u, P u → P (freeSkb u skb) := fun u => frame _ _ (freeSkb_reads u skb)
  unfold tcpInputState
  split
  · unfold tcpClosed
    split
    · exact freed s start
    · exact freed _ (frame _ _ (tcpSendReset_reads s) start)
  · exact freed s start
  · rename_i waiting
    exact tcpSynsent_cases (freed s start) (fun rst _ => freed _ (refused waiting rst))
      fun taken => freed _ (syn (taken waiting))
  · rename_i closed listen synSent
    have checked : s.tsk.state.synchronizes = true := by
      cases at_state : s.tsk.state <;> simp_all [TcpState.synchronizes]
    exact inputOtherwise_reads_rule frame checked start opened (reset checked) again text
      fun u phase => fin u phase checked

/-! ### Events -/

theorem runHandler_reads (s : Conn) (h : Handler) (other : h ≠ .socketGarbageCollect) :
    Reads s (runHandler s h) := by
  have locked : Reads s (socketWrAcquire s) := .of_eq rfl rfl rfl rfl
  have release : ∀ u, Reads u (socketRelease u) := fun u => .of_eq rfl rfl rfl rfl
  cases h with
  | tcpConnectRto => exact (locked.trans (tcpConnectRto_reads _)).trans (release _)
  | tcpRetransmissionTimeout =>
    exact (locked.trans (tcpRetransmissionTimeout_reads _)).trans (release _)
  | tcpSendDelack => exact (locked.trans (tcpSendDelack_reads _)).trans (release _)
  | tcpLinger => exact (locked.trans (tcpLinger_reads _)).trans (release _)
  | tcpUserTimeout => exact (locked.trans (tcpUserTimeout_reads _)).trans (release _)
  | socketGarbageCollect => contradiction

/- `_read` in CLOSE_WAIT with nothing left to read: the FIN flag is taken back. -/
def AtEof (s : Conn) : Prop :=
  s.tsk.state = .closeWait ∧ s.tsk.receiveQueue = [] ∧ s.tsk.flags &&& TCP_FIN ≠ 0

instance (s : Conn) : Decidable (AtEof s) := inferInstanceAs (Decidable (_ ∧ _ ∧ _))

/- The states in which `tcp_read` goes on to `tcp_receive`. -/
def TcpState.receives : TcpState → Bool
  | .close | .closing | .lastAck | .timeWait => false
  | _ => true

/-- The three ways of a read: an error or the end at once, the end in CLOSE_WAIT, `tcp_receive`. -/
@[elab_as_elim] theorem tcpRead_cases {motive : Conn × Received → Prop} (s : Conn) (len : Nat)
    (outside : s.tsk.state = .close → motive (s, .done (-EBADF)))
    (gone : s.tsk.state.aside = true → motive (s, .done s.tsk.err))
    (eof : AtEof s → motive ({ s with tsk.flags := s.tsk.flags &&& ~~~TCP_FIN }, .done 0))
    (receive : s.tsk.state.receives = true → ¬AtEof s → motive (receiveLoop s len 0)) :
    motive (tcpRead s len) := by
  unfold tcpRead
  split
  · rename_i closed
    exact outside closed
  · rename_i waiting
    split
    · rename_i eof_
      simp only [Bool.and_eq_true, decide_eq_true_eq] at eof_
      refine eof ⟨waiting, ?_, eof_.2⟩
      simpa [skbQueueEmpty] using eof_.1
    · rename_i more
      refine receive (by rw [waiting]; rfl) ?_
      rintro ⟨-, none, flag⟩
      rw [none] at more
      simp [skbQueueEmpty, flag] at more
  iterate 3
    rename_i at_state
    exact gone (by rw [at_state]; rfl)
  · refine receive ?_ ?_
    · cases at_state : s.tsk.state <;> simp_all [TcpState.receives]
    · rintro ⟨waiting, -⟩
      contradiction

/-- What holds before an event holds after it, for a property of the reader's side that the functions
    of the read frame keep. -/
theorem exec_reads_rule {e : Event} {r : Reply} (idle : ∀ u v, Idle u v → P u → P v)
    (frame : ∀ u v, Reads u v → P u → P v) (start : P s) (taken : exec s e = some (t, r))
    (free : ∀ u, P u → P (socketFree u))
    (eof : ∀ len, e = .read len → AtEof s →
      P { socketWrAcquire s with tsk.flags := s.tsk.flags &&& ~~~TCP_FIN })
    (receive : ∀ u len rlen, u.tsk.state = s.tsk.state → P u → P (receiveLoop u len rlen).1)
    (connect : ∀ u addr port iss, e = .connect addr port iss → u.tsk.state = .close → P u →
      P (tcpV4Connect u addr port iss))
    (segment : ∀ th payload, e = .segment th payload →
      P (socketWrAcquire (tcpInitSegment s th payload).1) →
      P (tcpInputState (socketWrAcquire (tcpInitSegment s th payload).1) th
        (tcpInitSegment s th payload).2)) : P t := by
  refine exec_pass idle start taken (fun _ => free) ?_ ?_ ?_ ?_ ?_ ?_ ?_ ?_ ?_
  · intro busy _
    exact frame s _ (.of_eq rfl rfl rfl rfl) start
  · intro i h _ _ _
    have ready : P (started s i) := frame s _ (.of_eq rfl rfl rfl rfl) start
    by_cases gc : h.handler = .socketGarbageCollect
    · rw [gc, show runHandler (started s i) .socketGarbageCollect =
        socketGarbageCollect (started s i) from rfl]
      unfold socketGarbageCollect
      split
      · exact free _ ready
      · exact ready
    · exact frame _ _ (runHandler_reads _ _ gc) ready
  · intro buf _ _ locked
    exact frame _ _ (tcpWrite_reads _ buf) locked
  · intro len call _ locked
    refine tcpRead_cases (motive := fun q => P q.1) (socketWrAcquire s) len (fun _ => locked)
      (fun _ => locked) (fun ending => eof len call ending) fun _ _ => receive _ _ _ rfl locked
  · intro i b _ _ _ woken
    exact receive _ _ _ rfl woken
  · intro _ _ locked
    exact frame _ _ (tcpClose_reads _) locked
  · intro _ _
    exact frame _ _ (tcpAbort_reads s) start
  · intro addr port iss call _ closed locked
    exact connect _ addr port iss call closed locked
  · intro th payload here _ locked
    exact segment th payload here locked

end HfIp
