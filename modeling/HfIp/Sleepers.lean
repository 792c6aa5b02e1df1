import HfIp.EndOfFile

/- Readers asleep in `tcp_receive`. Checking the queue and going to sleep are one step: the reader
   takes the mutex of `recv_wait` before it lets go of the socket, and a wakeup needs that mutex. -/
namespace HfIp

open Transition

variable {s t : Conn} {th : TcpHdr} {skb : SkBuff}

/-- Threads that sleep with no wakeup pending for them. -/
def Asleep (s : Conn) : Prop := 0 < s.tsk.recvWait.waiting

instance (s : Conn) : Decidable (Asleep s) := inferInstanceAs (Decidable (_ < _))

/-- The event is an in-window reset, in SYN_SENT or in a synchronized state. -/
def TakesRst (s : Conn) : Event → Prop
  | .segment th payload => th.rst = true ∧
      ((s.tsk.state.synchronizes = true ∧
          tcpVerifySegment s.tsk th (tcpInitSegment s th payload).2 = true) ∨
        (s.tsk.state = .synSent ∧ (th.ack = true → s.tsk.tcb.iss < th.ackSeq ∧
          s.tsk.tcb.sndUna ≤ th.ackSeq ∧ th.ackSeq ≤ s.tsk.tcb.sndNxt)))
  | _ => False

instance (s : Conn) (e : Event) : Decidable (TakesRst s e) := by
  induction e using Event.casesOn <;> unfold TakesRst <;> infer_instance

/-- The event is a segment whose text goes to the receive queue. -/
def QueuesText (s : Conn) : Event → Prop
  | .segment th payload => s.tsk.state.synchronizes = true ∧
      Passes (arriving s th payload) th (tcpInitSegment s th payload).2 ∧
      (inputAck (arriving s th payload) th).1.tsk.state.phase = .text ∧
      (th.psh = true ∨ 0 < (tcpInitSegment s th payload).2.dlen) ∧
      th.seq = s.tsk.tcb.rcvNxt ∧ s.tsk.tcb.rcvWnd ≠ 0
  | _ => False

instance (s : Conn) (e : Event) : Decidable (QueuesText s e) := by
  induction e using Event.casesOn <;> unfold QueuesText <;> infer_instance

/-- The wakeups that a segment in a synchronized state sends. -/
def notices (s : Conn) (e : Event) : Nat :=
  (if QueuesText s e then 1 else 0) + (if TakesFin s e then 1 else 0) +
    (if s.tsk.state.synchronizes ∧ TakesRst s e then 1 else 0)

/- The handlers that run `tcp_done`. -/
def Handler.finishes (s : Conn) : Handler → Prop
  | .tcpLinger | .tcpUserTimeout => True
  | .tcpConnectRto => s.tsk.state = .synSent ∧ TCP_CONN_RETRIES < s.tsk.backoff
  | .tcpRetransmissionTimeout => s.tsk.writeQueue ≠ [] ∧ 60000 < s.tsk.rto
  | .tcpSendDelack | .socketGarbageCollect => False

instance (s : Conn) (h : Handler) : Decidable (h.finishes s) := by
  cases h <;> unfold Handler.finishes <;> infer_instance

/-- The event ends the connection with `tcp_done`, which wakes no reader. -/
def Finishes (s : Conn) : Event → Prop
  | .abort => True
  | .close => s.tsk.state = .listen ∨ s.tsk.state = .synSent ∨ s.tsk.state = .synReceived
  | .handler i => ∃ h ∈ s.ts.threads[i]?, h.handler.finishes s
  | .segment th payload => s.tsk.state = .synSent ∧ TakesRst s (.segment th payload)
  | _ => False

instance (s : Conn) (e : Event) : Decidable (Finishes s e) := by
  induction e using Event.casesOn <;> unfold Finishes <;> infer_instance

/- A turn of `tcp_receive` that sleeps: it may block, nothing says the end, and what is queued is
   short of what is asked and not pushed. -/
def Blocks (s : Conn) (room : Nat) : Prop :=
  s.sock.flags &&& O_NONBLOCK = 0 ∧ ¬FinFlag s ∧ (payloads s.tsk.receiveQueue).length < room ∧
    s.tsk.receiveQueue.any (·.th.psh) = false

instance (s : Conn) (room : Nat) : Decidable (Blocks s room) :=
  inferInstanceAs (Decidable (_ ∧ _ ∧ _ ∧ _))

/-- The event is a reader that comes to `tcp_receive`, or comes back to it, when the peer or the
    connection has finished, and goes to sleep. -/
def SleepsLate (s : Conn) : Event → Prop
  | .read len => s.tsk.state = .closeWait ∧ Blocks s len
  | .readWakes i => s.tsk.state.phase = .finished ∧ ∃ b ∈ s.readers[i]?, Blocks s (b.len - b.rlen)
  | _ => False

instance (s : Conn) (e : Event) : Decidable (SleepsLate s e) := by
  induction e using Event.casesOn <;> unfold SleepsLate <;> infer_instance

/-- Every sleeper hears of what the event brings. -/
structure Heard (s : Conn) (e : Event) : Prop where
  woken : 0 < notices s e → s.tsk.recvWait.waiting ≤ notices s e
  finish : Finishes s e → ¬Asleep s
  awake : ¬SleepsLate s e

instance (s : Conn) (e : Event) : Decidable (Heard s e) :=
  decidable_of_iff ((0 < notices s e → s.tsk.recvWait.waiting ≤ notices s e) ∧
    (Finishes s e → ¬Asleep s) ∧ ¬SleepsLate s e)
    ⟨fun ⟨a, b, c⟩ => ⟨a, b, c⟩, fun ⟨a, b, c⟩ => ⟨a, b, c⟩⟩

/-! ### What sleepers have to miss -/

/-- Whoever sleeps has missed nothing. -/
def Waits (s : Conn) : Prop :=
  Asleep s → s.tsk.receiveQueue = [] ∧ s.tsk.state.phase ≠ .finished

theorem Waits.frame (waits : Waits s) (reads : Reads s t)
    (phase : t.tsk.state.phase = .finished → s.tsk.state.phase = .finished) : Waits t := by
  intro asleep
  unfold Asleep at asleep
  rw [reads.recvWait] at asleep
  obtain ⟨none, still⟩ := waits asleep
  exact ⟨reads.receiveQueue.trans none, fun finished => still (phase finished)⟩

theorem Waits.stays (waits : Waits s) (reads : Reads s t) (stays : Stays s t) : Waits t :=
  waits.frame reads fun finished => by rw [stays.state] at finished; exact finished

theorem Waits.of_awake (awake : ¬Asleep s) (reads : Reads s t) : Waits t := by
  intro asleep
  unfold Asleep at asleep
  rw [reads.recvWait] at asleep
  exact absurd asleep awake

theorem Waits.calm (waits : Waits s) (calm : Calm s t) : Waits t := by
  obtain ⟨idle, fewer⟩ := calm
  have state : t.tsk.state = s.tsk.state := congrArg (·.tsk.state) idle
  have queue : t.tsk.receiveQueue = s.tsk.receiveQueue := congrArg (·.tsk.receiveQueue) idle
  intro asleep
  rw [queue, state]
  exact waits (Nat.lt_of_lt_of_le asleep fewer)

/-! ### Reads -/

theorem receiveResult_asleep {flags : UInt8} {len total n : Nat}
    (sleeps : receiveResult s flags len total = .asleep n) :
    s.sock.flags &&& O_NONBLOCK = 0 ∧ flags &&& TCP_PSH = 0 ∧ flags &&& TCP_FIN = 0 ∧ total ≠ len := by
  unfold receiveResult at sleeps
  split at sleeps
  · cases sleeps
  · rename_i more
    simp only [not_or, not_not, ne_eq] at more
    split at sleeps
    · cases sleeps
    · rename_i blocking
      exact ⟨not_not.mp blocking, more⟩

/- A reader that sleeps has emptied the queue. -/
theorem receiveLoop_waits (waits : Waits s) (len rlen : Nat)
    (late : s.tsk.state.phase = .finished → ¬Blocks s (len - rlen)) :
    Waits (receiveLoop s len rlen).1 := by
  have state := (receiveLoop_stays s len rlen).state
  by_cases room : rlen < len
  · obtain ⟨d, bytes, dequeued, result, reads⟩ := receiveLoop_spec s len rlen room
    have queue : (receiveLoop s len rlen).1.tsk.receiveQueue = d.tsk.receiveQueue :=
      reads.receiveQueue
    have wait : (receiveLoop s len rlen).1.tsk.recvWait =
        leaveWait s.tsk.recvWait (receiveLoop s len rlen).2 := reads.recvWait
    intro asleep
    rw [state, queue]
    unfold Asleep at asleep
    rw [wait] at asleep
    cases left : (receiveLoop s len rlen).2 with
    | done rc =>
      rw [left] at asleep
      obtain ⟨none, still⟩ := waits asleep
      exact ⟨dequeued.empty none, still⟩
    | asleep n =>
      obtain ⟨blocking, psh, fin, more⟩ := receiveResult_asleep (result.symm.trans left)
      have count := dequeued.count
      have short : (payloads s.tsk.receiveQueue).length < len - rlen := by omega
      obtain ⟨none, flags⟩ := dequeued.all short
      refine ⟨none, fun finished => late finished ⟨blocking, ?_, short, ?_⟩⟩
      · intro flag
        rw [dequeued.fin] at fin
        exact flag fin
      · by_contra pushed
        rw [if_pos (by simpa using pushed)] at flags
        rw [flags] at psh
        exact psh_set _ psh
  · rw [receiveLoop_full s len rlen room]
    exact waits.stays (receiveReturn_reads s _) (receiveReturn_stays s _)

/-! ### Arriving segments -/

theorem tcpDataQueue_waits (s : Conn) (skb : SkBuff) :
    if skb.seq = s.tsk.tcb.rcvNxt ∧ s.tsk.tcb.rcvWnd ≠ 0 then
      (tcpDataQueue s skb).1.tsk.recvWait = waitWakeup s.tsk.recvWait
    else (tcpDataQueue s skb).1.tsk.recvWait = s.tsk.recvWait ∧
      (tcpDataQueue s skb).1.tsk.receiveQueue = s.tsk.receiveQueue := by
  unfold tcpDataQueue
  by_cases shut : s.tsk.tcb.rcvWnd = 0
  · rw [if_neg (fun h => h.2 shut), if_pos shut]
    exact ⟨(freeSkb_reads s skb).recvWait, (freeSkb_reads s skb).receiveQueue⟩
  · rw [if_neg shut]
    by_cases next : skb.seq = s.tsk.tcb.rcvNxt
    · rw [if_pos ⟨next, shut⟩, if_pos next]
      rfl
    · rw [if_neg (fun h => next h.1), if_neg next]
      dsimp only
      set u : Conn := { s with tsk.ofoQueue := (tcpDataInsertOrdered s.tsk.ofoQueue skb).1 }
      have acked : Reads u (tcpSendAck (if u.tsk.sackok then
          { u with tsk := tcpCalculateSacks u.tsk } else u)) := by
        refine Reads.trans ?_ (tcpSendAck_reads _)
        split
        · exact tcpCalculateSacks_reads u
        · exact .refl u
      exact ⟨acked.recvWait, acked.receiveQueue⟩

/- The text of a segment goes to the receive queue. -/
def TextNext (s : Conn) (th : TcpHdr) (skb : SkBuff) : Prop :=
  s.tsk.state.phase = .text ∧ (th.psh = true ∨ 0 < skb.dlen) ∧
    skb.seq = s.tsk.tcb.rcvNxt ∧ s.tsk.tcb.rcvWnd ≠ 0

instance (s : Conn) (th : TcpHdr) (skb : SkBuff) : Decidable (TextNext s th skb) :=
  inferInstanceAs (Decidable (_ ∧ _ ∧ _ ∧ _))

theorem inputText_waits (s : Conn) (th : TcpHdr) (skb : SkBuff) :
    if TextNext s th skb then
      (inputText s th skb).1.tsk.recvWait = waitWakeup s.tsk.recvWait
    else (inputText s th skb).1.tsk.recvWait = s.tsk.recvWait ∧
      (inputText s th skb).1.tsk.receiveQueue = s.tsk.receiveQueue := by
  have queues := tcpDataQueue_waits s skb
  by_cases in_text : s.tsk.state.phase = .text
  · have path : (inputText s th skb).1 =
        if th.psh = true ∨ 0 < skb.dlen then (tcpDataQueue s skb).1 else s := by
      unfold inputText
      cases at_state : s.tsk.state <;> rw [at_state] at in_text <;> first
        | (dsimp only; split <;> rfl)
        | cases in_text
    rw [path]
    by_cases worth : th.psh = true ∨ 0 < skb.dlen
    · rw [if_pos worth]
      by_cases next : skb.seq = s.tsk.tcb.rcvNxt ∧ s.tsk.tcb.rcvWnd ≠ 0
      · rw [if_pos next] at queues
        rw [if_pos ⟨in_text, worth, next⟩]
        exact queues
      · rw [if_neg next] at queues
        rw [if_neg fun h => next h.2.2]
        exact queues
    · rw [if_neg worth, if_neg fun h => worth h.2.1]
      exact ⟨rfl, rfl⟩
  · have path : (inputText s th skb).1 = s := by
      unfold inputText
      cases at_state : s.tsk.state <;> simp_all [TcpState.phase]
    rw [path, if_neg fun h => in_text h.1]
    exact ⟨rfl, rfl⟩

theorem inputFin_waits (s : Conn) :
    (inputFin s).tsk.recvWait = waitWakeup s.tsk.recvWait := by
  have acked := (tcpSendAck_reads (pollReadable { s with
    tsk.tcb.rcvNxt := s.tsk.tcb.rcvNxt + 1, tsk.flags := s.tsk.flags ||| TCP_FIN })).recvWait
  unfold inputFin
  dsimp only
  generalize tcpSendAck (pollReadable { s with
    tsk.tcb.rcvNxt := s.tsk.tcb.rcvNxt + 1, tsk.flags := s.tsk.flags ||| TCP_FIN }) = u at acked
  have told : (recvNotify u).tsk.recvWait = waitWakeup s.tsk.recvWait := congrArg waitWakeup acked
  split
  · exact told
  · exact told
  · split
    · exact told
    · exact told
  · exact told
  · exact told

/-- The wakeups of a segment that passes, and what it leaves as it was without them. -/
theorem inputTail_waits (s : Conn) (th : TcpHdr) (skb : SkBuff) :
    (inputTail s th skb).tsk.recvWait.waiting = s.tsk.recvWait.waiting -
      (if TextNext s th skb then 1 else 0) -
      (if th.fin = true ∧ skb.seq = s.tsk.tcb.rcvNxt then 1 else 0) ∧
    (¬TextNext s th skb → (inputTail s th skb).tsk.receiveQueue = s.tsk.receiveQueue) := by
  have text := inputText_waits s th skb
  unfold inputTail
  dsimp only
  have last := (inputExpected_reads (inputTextFin (inputText s th skb).1 th
      (decide (skb.seq = s.tsk.tcb.rcvNxt))) th skb (decide (skb.seq = s.tsk.tcb.rcvNxt))).trans
    (freeSkb_reads _ (inputText s th skb).2)
  rw [last.recvWait, last.receiveQueue]
  clear last
  generalize (inputText s th skb).1 = u at text
  have told := inputFin_waits u
  have kept := inputFin_queue u
  unfold inputTextFin
  by_cases ends : th.fin = true ∧ skb.seq = s.tsk.tcb.rcvNxt
  · rw [if_pos (by simpa using ends), if_pos ends, told, kept]
    split at text
    · rename_i next
      rw [text, if_pos next]
      exact ⟨rfl, fun h => absurd next h⟩
    · rename_i idle
      rw [text.1, text.2, if_neg idle]
      exact ⟨rfl, fun _ => rfl⟩
  · rw [if_neg (by simpa using ends), if_neg ends]
    split at text
    · rename_i next
      rw [text, if_pos next]
      exact ⟨rfl, fun h => absurd next h⟩
    · rename_i idle
      rw [text.1, text.2, if_neg idle]
      exact ⟨rfl, fun _ => rfl⟩

theorem inputFinAcked_waits (s : Conn) (th : TcpHdr) :
    (inputFinAcked s th).tsk.recvWait = s.tsk.recvWait ∧
      (inputFinAcked s th).tsk.receiveQueue = s.tsk.receiveQueue ∧
      (inputFinAcked s th).tsk.tcb.rcvWnd = s.tsk.tcb.rcvWnd := by
  refine inputFinAcked_reads_rule (P := fun u => u.tsk.recvWait = s.tsk.recvWait ∧
    u.tsk.receiveQueue = s.tsk.receiveQueue ∧ u.tsk.tcb.rcvWnd = s.tsk.tcb.rcvWnd) ?_
    ⟨rfl, rfl, rfl⟩ fun _ _ => ⟨rfl, rfl, rfl⟩
  rintro u v reads ⟨wait, queue, window⟩
  exact ⟨reads.recvWait.trans wait, reads.receiveQueue.trans queue, reads.rcvWnd.trans window⟩

theorem inputAck_waits (s : Conn) (th : TcpHdr) :
    (inputAck s th).1.tsk.recvWait = s.tsk.recvWait ∧
      (inputAck s th).1.tsk.receiveQueue = s.tsk.receiveQueue ∧
      (inputAck s th).1.tsk.tcb.rcvWnd = s.tsk.tcb.rcvWnd := by
  refine inputAck_reads_rule (P := fun u => u.tsk.recvWait = s.tsk.recvWait ∧
    u.tsk.receiveQueue = s.tsk.receiveQueue ∧ u.tsk.tcb.rcvWnd = s.tsk.tcb.rcvWnd) ?_
    ⟨rfl, rfl, rfl⟩ fun _ => ⟨rfl, rfl, rfl⟩
  rintro u v reads ⟨wait, queue, window⟩
  exact ⟨reads.recvWait.trans wait, reads.receiveQueue.trans queue, reads.rcvWnd.trans window⟩

theorem inputAck_finished (th : TcpHdr) (finished : (inputAck s th).1.tsk.state.phase = .finished) :
    s.tsk.state.phase = .finished := by
  rcases (inputAck_moves s th).1 with same | ⟨-, opened⟩
  · rw [← same]
    exact finished
  · rw [opened] at finished
    cases finished

/- A segment that passes, with `TextNext` and the FIN counted. -/
theorem passes_waits (waits : Waits s)
    (woken : 0 < (if TextNext (inputFinAcked (inputAck s th).1 th) th skb then 1 else 0) +
        (if th.fin = true ∧ skb.seq = s.tsk.tcb.rcvNxt then 1 else 0) →
      s.tsk.recvWait.waiting ≤
        (if TextNext (inputFinAcked (inputAck s th).1 th) th skb then 1 else 0) +
        (if th.fin = true ∧ skb.seq = s.tsk.tcb.rcvNxt then 1 else 0)) :
    Waits (inputTail (inputFinAcked (inputAck s th).1 th) th skb) := by
  obtain ⟨wait, queue, -⟩ := inputFinAcked_waits (inputAck s th).1 th
  obtain ⟨wait', queue', -⟩ := inputAck_waits s th
  have next : (inputFinAcked (inputAck s th).1 th).tsk.tcb.rcvNxt = s.tsk.tcb.rcvNxt :=
    inputFinAcked_rcvNxt.trans (inputAck_rcvNxt s th)
  have phase : (inputFinAcked (inputAck s th).1 th).tsk.state.phase = .finished →
      s.tsk.state.phase = .finished := by
    rw [inputFinAcked_phase]
    exact inputAck_finished th
  generalize inputFinAcked (inputAck s th).1 th = u at woken wait queue next phase
  obtain ⟨count, left⟩ := inputTail_waits u th skb
  have moves := (inputTail_moves u th skb).1
  rw [next, wait, wait'] at count
  rw [next] at moves
  intro asleep
  unfold Asleep at asleep
  rw [count] at asleep
  by_cases text : TextNext u th skb
  · rw [if_pos text] at woken asleep
    omega
  · rw [if_neg text] at woken asleep
    by_cases ends : th.fin = true ∧ skb.seq = s.tsk.tcb.rcvNxt
    · rw [if_pos ends] at woken asleep
      omega
    · rw [if_neg ends] at asleep
      rw [if_neg (by simpa using ends)] at moves
      obtain ⟨none, still⟩ := waits (show 0 < s.tsk.recvWait.waiting by omega)
      rw [left text, queue, queue', moves]
      exact ⟨none, fun finished => still (phase finished)⟩

theorem synsentSyn_waits (s : Conn) (th : TcpHdr) :
    (synsentSyn s th).tsk.recvWait = s.tsk.recvWait ∧
      (synsentSyn s th).tsk.receiveQueue = s.tsk.receiveQueue := by
  have acked := synsentAck_reads s th
  unfold synsentSyn
  generalize synsentAck s th = u at acked
  dsimp only
  split
  · have opened := synsentEstablish_reads u th
    exact ⟨opened.recvWait.trans acked.recvWait, opened.receiveQueue.trans acked.receiveQueue⟩
  · rw [tcpSendSynack_minor _ (by simp [setState])]
    exact ⟨acked.recvWait, acked.receiveQueue⟩

theorem segment_waits {payload : List UInt8} (waits : Waits s)
    (heard : Heard s (.segment th payload)) :
    Waits (tcpInputState (arriving s th payload) th (tcpInitSegment s th payload).2) := by
  obtain ⟨woken, finish, -⟩ := heard
  have freed : ∀ u k, Waits u → Waits (freeSkb u k) := fun u k h =>
    h.stays (freeSkb_reads u k) (.of_minor (freeSkb_minor u k))
  generalize seg : (tcpInitSegment s th payload).2 = skb
  have seq : skb.seq = th.seq := by rw [← seg]; rfl
  have start : Waits (arriving s th payload) := waits
  have window : (arriving s th payload).tsk.tcb = s.tsk.tcb := rfl
  have verify : tcpVerifySegment (arriving s th payload).tsk th skb = tcpVerifySegment s.tsk th skb := rfl
  have sleepers : (arriving s th payload).tsk.recvWait = s.tsk.recvWait := rfl
  have state : (arriving s th payload).tsk.state = s.tsk.state := rfl
  simp only [notices, QueuesText, TakesFin, TakesRst, seg] at woken
  simp only [Finishes, TakesRst, seg] at finish
  generalize arriving s th payload = u at woken start window verify sleepers state
  unfold tcpInputState
  split
  · unfold tcpClosed
    split
    · exact freed _ _ start
    · exact freed _ _ (start.stays (tcpSendReset_reads _) (tcpSendReset_stays _))
  · exact freed _ _ start
  · rename_i waiting
    refine tcpSynsent_cases (freed _ _ start) ?_ ?_
    · intro rst inside
      rw [window] at inside
      rw [state] at waiting
      have awake := finish ⟨waiting, rst, .inr ⟨waiting, inside⟩⟩
      refine freed _ _ fun asleep => absurd ?_ awake
      have same : (tcpReset u).tsk.recvWait = s.tsk.recvWait := by
        unfold tcpReset
        simp only [state, waiting]
        exact (tcpDone_reads _).recvWait.trans sleepers
      unfold Asleep at asleep ⊢
      rw [← same]
      exact asleep
    · intro _
      obtain ⟨wait, queue⟩ := synsentSyn_waits u th
      refine freed _ _ fun asleep => ?_
      unfold Asleep at asleep
      rw [wait] at asleep
      refine ⟨queue.trans (start asleep).1, ?_⟩
      rcases (synsentSyn_state u th).1 with open_ | half
      · simp [open_, TcpState.phase]
      · simp [half, TcpState.phase]
  · rename_i closed listen synSent
    have checked : s.tsk.state.synchronizes = true := by
      rw [state] at closed listen synSent
      cases at_state : s.tsk.state <;> simp_all [TcpState.synchronizes]
    simp only [checked, true_and] at woken
    refine inputOtherwise_cases u th skb ?_ ?_ ?_ ?_ ?_ ?_
    · intro _
      refine freed _ _ ?_
      split
      · exact start
      · exact start.stays (tcpSendAck_reads u) (.of_minor (tcpSendAck_minor u))
    · intro verified rst
      have none : ¬Passes u th skb := by
        intro passes
        rw [passes.rst] at rst
        cases rst
      rw [verify] at verified
      simp only [none, false_and, if_false, rst, verified, true_or, and_self, if_true] at woken
      have wait : (recvNotify (tcpEnterTimeWait (freeSkb u skb))).tsk.recvWait.waiting =
          s.tsk.recvWait.waiting - 1 := by
        have gone := ((freeSkb_reads u skb).trans (tcpEnterTimeWait_reads _)).recvWait.trans sleepers
        exact congrArg (fun w : WaitLock => w.waiting - 1) gone
      intro asleep
      unfold Asleep at asleep
      rw [wait] at asleep
      omega
    · intro _ _ _
      exact freed _ _ start
    · intro _ _ _ _ _
      refine freed _ _ fun asleep => ?_
      obtain ⟨wait, queue, -⟩ := inputAck_waits u th
      unfold Asleep at asleep
      rw [wait] at asleep
      obtain ⟨none, still⟩ := start asleep
      exact ⟨queue.trans none, fun finished => still (inputAck_finished th finished)⟩
    · intro _ _ _ _ _ last _
      have finished : u.tsk.state.phase = .finished := inputAck_finished th (by rw [last]; rfl)
      refine Waits.of_awake (fun asleep => ?_) (tcpDone_reads _)
      unfold Asleep at asleep
      rw [(freeSkb_reads _ skb).recvWait, (inputAck_waits u th).1] at asleep
      exact (start asleep).2 finished
    · intro verified rst syn ack valid queued
      have passes : Passes u th skb := ⟨verified, rst, syn, ack, valid, queued⟩
      have text : TextNext (inputFinAcked (inputAck u th).1 th) th skb ↔
          (inputAck u th).1.tsk.state.phase = .text ∧ (th.psh = true ∨ 0 < skb.dlen) ∧
            th.seq = s.tsk.tcb.rcvNxt ∧ s.tsk.tcb.rcvWnd ≠ 0 := by
        unfold TextNext
        rw [inputFinAcked_phase, inputFinAcked_rcvNxt, inputAck_rcvNxt,
          (inputFinAcked_waits _ th).2.2, (inputAck_waits u th).2.2, window, seq]
      have ends : skb.seq = u.tsk.tcb.rcvNxt ↔ th.seq = s.tsk.tcb.rcvNxt := by rw [window, seq]
      refine passes_waits start ?_
      simp only [text, ends, sleepers]
      simpa only [passes, true_and, rst, Bool.false_eq_true, false_and, if_false, Nat.add_zero]
        using woken

/-! ### Timers and calls -/

theorem tcpHandleFinState_phase (s : Conn) :
    (tcpHandleFinState s).tsk.state.phase = s.tsk.state.phase := by
  unfold tcpHandleFinState
  split
  · rename_i waiting
    rw [waiting]
    rfl
  · rename_i opened
    rw [opened]
    rfl
  · rfl

theorem tcpConnectRto_phase (keeps : ¬(s.tsk.state = .synSent ∧ TCP_CONN_RETRIES < s.tsk.backoff)) :
    (tcpConnectRto s).tsk.state = s.tsk.state := by
  unfold tcpConnectRto
  dsimp only
  have released : Stays s (tcpReleaseRtoTimer s) := ⟨rfl, rfl⟩
  have backoff : (tcpReleaseRtoTimer s).tsk.backoff = s.tsk.backoff := rfl
  generalize tcpReleaseRtoTimer s = t at released backoff
  split
  · rename_i waiting
    split
    · rename_i spent
      rw [backoff] at spent
      exact absurd ⟨released.state.symm.trans waiting, spent⟩ keeps
    · split
      · exact released.state
      · refine (tcpRearmRtoTimer_stays _).state.trans ?_
        exact (retransmitHead_stays t _).state.trans released.state
  · exact released.state

theorem tcpRetransmissionTimeout_phase (keeps : ¬(s.tsk.writeQueue ≠ [] ∧ 60000 < s.tsk.rto)) :
    (tcpRetransmissionTimeout s).tsk.state.phase = s.tsk.state.phase := by
  unfold tcpRetransmissionTimeout
  dsimp only
  have released : Stays s (tcpReleaseRtoTimer s) := ⟨rfl, rfl⟩
  have queue : (tcpReleaseRtoTimer s).tsk.writeQueue = s.tsk.writeQueue := rfl
  have rto : (tcpReleaseRtoTimer s).tsk.rto = s.tsk.rto := rfl
  generalize tcpReleaseRtoTimer s = t at released queue rto
  split
  · refine congrArg _ (Eq.trans (tcpNotifyUser_minor _).same.state ?_)
    exact released.state
  · rename_i k head
    have some : s.tsk.writeQueue ≠ [] := by
      intro none
      rw [queue, none] at head
      cases head
    have same : (retransmitHead t k).tsk.rto = s.tsk.rto := by
      obtain ⟨_, touched⟩ := retransmitHead_touches t k
      exact touched.rto.trans rto
    have state := (retransmitHead_stays t k).state.trans released.state
    rw [if_neg (by rw [same]; exact fun h => keeps ⟨some, h⟩)]
    split
    · rw [tcpHandleFinState_phase]
      exact congrArg _ state
    · exact congrArg _ state

theorem runHandler_waits (waits : Waits s) {h : Handler} (other : h ≠ .socketGarbageCollect)
    (finish : h.finishes s → ¬Asleep s) : Waits (runHandler s h) := by
  have reads := runHandler_reads s h other
  by_cases ends : h.finishes s
  · exact .of_awake (finish ends) reads
  · refine waits.frame reads ?_
    have same : (runHandler s h).tsk.state.phase = s.tsk.state.phase := by
      cases h with
      | tcpConnectRto => exact congrArg _ (tcpConnectRto_phase (s := socketWrAcquire s) ends)
      | tcpRetransmissionTimeout => exact tcpRetransmissionTimeout_phase (s := socketWrAcquire s) ends
      | tcpSendDelack => exact congrArg _ (tcpSendAck_minor _).same.state
      | tcpLinger => exact absurd trivial ends
      | tcpUserTimeout => exact absurd trivial ends
      | socketGarbageCollect => contradiction
    rw [same]
    exact id

theorem tcpClose_waits (waits : Waits s) (finish : s.tsk.state = .listen ∨ s.tsk.state = .synSent ∨
    s.tsk.state = .synReceived → ¬Asleep s) : Waits (tcpClose s).1 := by
  have reads := tcpClose_reads s
  by_cases ends : s.tsk.state = .listen ∨ s.tsk.state = .synSent ∨ s.tsk.state = .synReceived
  · exact .of_awake (finish ends) reads
  · refine waits.frame reads ?_
    have same : (tcpClose s).1.tsk.state.phase = s.tsk.state.phase := by
      unfold tcpClose
      split
      iterate 6 rfl
      · rename_i here
        exact absurd (.inl here) ends
      · rename_i here
        exact absurd (.inr (.inl here)) ends
      · rename_i here
        exact absurd (.inr (.inr here)) ends
      · rename_i here
        rw [(tcpQueueFin_stays _).state, here]
        rfl
      · rw [(tcpQueueFin_stays _).state]
    rw [same]
    exact id

theorem socketFree_waits (waits : Waits s) : Waits (socketFree s) := by
  obtain ⟨freed, eq⟩ := socketFree_eq s
  rw [eq]
  exact fun asleep => ⟨rfl, (waits asleep).2⟩

theorem tcpV4Connect_waits (waits : Waits s) (addr : SockAddr) (port : UInt16) (iss : UInt32)
    (closed : s.tsk.state = .close) : Waits (tcpV4Connect s addr port iss) := by
  have sent := tcpV4Connect_reads s addr port iss closed
  intro asleep
  unfold Asleep at asleep
  rw [sent.recvWait] at asleep
  refine ⟨sent.receiveQueue.trans (waits asleep).1, ?_⟩
  rw [(tcpV4Connect_state s addr port iss closed).1]
  simp [TcpState.phase]

/-! ### Events and runs -/

theorem TcpState.receives_finished {a : TcpState} (receives : a.receives = true)
    (finished : a.phase = .finished) : a = .closeWait := by
  cases a <;> simp_all [TcpState.receives, phase]

theorem exec_waits {e : Event} {r : Reply} (waits : Waits s) (heard : Heard s e)
    (taken : exec s e = some (t, r)) : Waits t := by
  refine exec_calm (fun u v calm h => h.calm calm) waits taken ?_ ?_ ?_ ?_ ?_ ?_ ?_ ?_ ?_ ?_
  · intro _ u h
    exact socketFree_waits h
  · intro _ _
    exact waits
  · intro i h call found _
    subst call
    have ready : Waits (started s i) := waits
    by_cases gc : h.handler = .socketGarbageCollect
    · rw [gc, show runHandler (started s i) .socketGarbageCollect =
        socketGarbageCollect (started s i) from rfl]
      unfold socketGarbageCollect
      split
      · exact socketFree_waits ready
      · exact ready
    · exact runHandler_waits ready gc fun ends => heard.finish ⟨h, found, ends⟩
  · intro buf _ _ locked
    exact locked.stays (tcpWrite_reads _ buf) (tcpWrite_stays _ buf)
  · intro len call _ locked
    subst call
    refine tcpRead_cases (motive := fun q => Waits q.1) (socketWrAcquire s) len (fun _ => locked)
      (fun _ => locked) (fun _ => locked) fun receives _ => ?_
    refine receiveLoop_waits locked len 0 fun finished blocks => heard.awake ⟨?_, blocks⟩
    exact TcpState.receives_finished receives finished
  · intro i b call found _ woken
    subst call
    exact receiveLoop_waits woken b.len b.rlen fun finished blocks =>
      heard.awake ⟨finished, b, found, blocks⟩
  · intro call _ locked
    subst call
    exact tcpClose_waits locked heard.finish
  · intro call _
    subst call
    exact .of_awake (heard.finish trivial) (tcpAbort_reads s)
  · intro addr port iss call _ closed locked
    exact tcpV4Connect_waits locked addr port iss closed
  · intro th payload call _ _
    subst call
    exact segment_waits waits heard

theorem takesRst_finishes {e : Event} {r : Reply} (rst : TakesRst s e)
    (taken : exec s e = some (t, r)) : t.tsk.state.phase = .finished := by
  cases e with
  | segment th payload =>
    obtain ⟨flag, here⟩ := rst
    simp only [exec] at taken
    split at taken
    · obtain ⟨rfl, -⟩ := by simpa using taken
      have path : (tcpIn s th payload).tsk.state =
          (tcpInputState (arriving s th payload) th (tcpInitSegment s th payload).2).tsk.state := rfl
      rw [path]
      rcases here with ⟨checked, verified⟩ | ⟨waiting, inside⟩
      · have checked' : (arriving s th payload).tsk.state.synchronizes = true := checked
        have verified' : tcpVerifySegment (arriving s th payload).tsk th
            (tcpInitSegment s th payload).2 = true := verified
        rw [tcpInputState_otherwise checked']
        unfold inputOtherwise
        simp only [verified', flag, Bool.not_true, Bool.false_eq_true, if_false, if_true]
        rfl
      · have waiting' : (arriving s th payload).tsk.state = .synSent := waiting
        have reset : tcpInputState (arriving s th payload) th (tcpInitSegment s th payload).2 =
            freeSkb (tcpReset (arriving s th payload)) (tcpInitSegment s th payload).2 := by
          have inside' : th.ack = true → (arriving s th payload).tsk.tcb.iss < th.ackSeq ∧
              (arriving s th payload).tsk.tcb.sndUna ≤ th.ackSeq ∧
              th.ackSeq ≤ (arriving s th payload).tsk.tcb.sndNxt := inside
          generalize arriving s th payload = u at waiting' inside'
          unfold tcpInputState
          simp only [waiting']
          unfold tcpSynsent
          dsimp only
          rw [if_neg, if_neg, if_pos flag]
          · rintro ⟨acks, old | beyond⟩
            · exact UInt32.not_lt.mpr (inside' acks).2.1 old
            · exact UInt32.not_lt.mpr (inside' acks).2.2 beyond
          · rintro ⟨acks, old | beyond⟩
            · exact UInt32.not_le.mpr (inside' acks).1 old
            · exact UInt32.not_lt.mpr (inside' acks).2.2 beyond
        rw [reset, freeSkb_tsk]
        unfold tcpReset
        simp only [waiting', tcpDone_state]
        rfl
    · contradiction
  | _ => cases rst

theorem rst_finished {allowed : List (Event × Reply) → Conn → Event → Prop}
    {trace : List (Event × Reply)} (run : Run exec allowed {} trace s)
    (rst : Occurs exec TakesRst {} trace) : s.tsk.state.phase = .finished :=
  occurs_finished takesRst_finishes run rst

/-- As long as every sleeper hears of what an event brings, a thread that sleeps in `tcp_receive` has
    missed nothing: the queue is empty, and no FIN, no reset and no `tcp_done` has come. -/
theorem sleeping_reader_misses_nothing {trace : List (Event × Reply)}
    (run : Run exec (fun _ s e => Heard s e) {} trace s) (asleep : Asleep s) :
    s.tsk.receiveQueue = [] ∧ ¬Occurs exec TakesFin {} trace ∧ ¬Occurs exec TakesRst {} trace ∧
      ¬Ended s := by
  have waits : Waits s := by
    refine Run.invariant_state (P := Waits) ?_ ?_ run
    · intro asleep
      cases asleep
    · intro _ u e v r h heard taken
      exact exec_waits h heard taken
  obtain ⟨none, still⟩ := waits asleep
  refine ⟨none, fun fin => still (fin_finished run fin), fun rst => still (rst_finished run rst), ?_⟩
  intro ended
  rcases ended_gone run ended with closing | timeWait
  · exact still (by rw [closing]; rfl)
  · exact still (by rw [timeWait]; rfl)

/- A connection whose reader may block. -/
def blockingReader : List Event := handshake ++ [.fcntlSetfl O_RDWR, .read 10]

theorem sleeping_reader_misses_nothing_partial : ∃ trace s,
    Run exec (fun _ s e => Heard s e) {} trace s ∧ Asleep s ∧ s.delivered = [1, 2] ∧
    s.tsk.receiveQueue = [] ∧ ¬Occurs exec TakesFin {} trace ∧ ¬Occurs exec TakesRst {} trace ∧
      ¬Ended s := by
  obtain ⟨p, reached, asleep, read⟩ : ∃ p ∈ follow exec (fun _ s e => Heard s e) [] {}
      (blockingReader ++ [.segment (peerHdr 5001 1001) [1, 2], .readWakes 0]),
      Asleep p.2 ∧ p.2.delivered = [1, 2] := by
    decide
  have run := Run.of_follow _ .start reached
  exact ⟨p.1, p.2, run, asleep, read, sleeping_reader_misses_nothing run asleep⟩

/-- A reader woken by a reset goes back to sleep, and one that sleeps when the connection is given up
    is not woken. -/
theorem reader_sleeps_on :
    (∃ p ∈ follow exec (fun _ _ _ => True) [] {} (blockingReader ++
      [.segment { peerHdr 5001 1001 with rst := true } [], .readWakes 0]),
      Asleep p.2 ∧ Occurs exec TakesRst {} p.1) ∧
    ∃ p ∈ follow exec (fun _ _ _ => True) [] {} (blockingReader ++ [.abort]),
      Asleep p.2 ∧ Ended p.2 := by
  decide

end HfIp
