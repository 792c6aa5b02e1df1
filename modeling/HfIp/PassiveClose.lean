import Mathlib.Data.List.TakeWhile
import HfIp.StateMachine
import HfIp.NoStranding

/- The passive close: what it takes for the ACK of the FIN to find the socket in LAST_ACK and to end
   the connection. -/
namespace HfIp

open Transition

/-- The segment passes every check up to the ACK field and acknowledges something new. -/
structure AcceptableAck (s : Conn) (th : TcpHdr) (payload : List UInt8) : Prop where
  verified : tcpVerifySegment s.tsk th (tcpInitSegment s th payload).2 = true
  rst : th.rst = false
  syn : th.syn = false
  ack : th.ack = true
  new : AckNew s th

instance (s : Conn) (th : TcpHdr) (payload : List UInt8) : Decidable (AcceptableAck s th payload) :=
  decidable_of_iff (tcpVerifySegment s.tsk th (tcpInitSegment s th payload).2 = true ∧
      th.rst = false ∧ th.syn = false ∧ th.ack = true ∧ AckNew s th)
    ⟨fun ⟨verified, rst, syn, ack, new⟩ => ⟨verified, rst, syn, ack, new⟩,
      fun ⟨verified, rst, syn, ack, new⟩ => ⟨verified, rst, syn, ack, new⟩⟩

/- Everything in the write queue has been sent and is acknowledged by `ack`. -/
def CoversQueue (s : Conn) (ack : UInt32) : Prop := ∀ k ∈ s.tsk.writeQueue, acked ack k = true

instance (s : Conn) (ack : UInt32) : Decidable (CoversQueue s ack) :=
  inferInstanceAs (Decidable (∀ k ∈ s.tsk.writeQueue, _))

variable {s t : Conn} {th : TcpHdr} {skb : SkBuff}

theorem inputNewAck_queue (new : AckNew s th) :
    (inputNewAck s th).1.tsk.writeQueue = s.tsk.writeQueue.dropWhile (acked th.ackSeq) := by
  rw [inputNewAck_fst, if_pos new, tcpCleanRtoQueue_queue,
    (tcpRtt_send { s with tsk.tcb.sndUna := th.ackSeq }).writeQueue]

/- In LAST_ACK an ACK ends the connection exactly when it empties the write queue. -/
theorem inputOtherwise_lastAck (last : s.tsk.state = .lastAck)
    (verified : tcpVerifySegment s.tsk th skb = true) (rst : th.rst = false) (syn : th.syn = false)
    (ack : th.ack = true) (new : AckNew s th) (opened : ¬Ended s) :
    Ended (inputOtherwise s th skb) ↔ CoversQueue s th.ackSeq := by
  have takes : inputAck s th = inputNewAck s th := inputAck_takes (by rw [last]; rfl)
  have left := inputNewAck_queue new
  have stays := inputNewAck_stays s th
  have covers : (inputNewAck s th).1.tsk.writeQueue = [] ↔ CoversQueue s th.ackSeq := by
    rw [left, List.dropWhile_eq_nil_iff]
    rfl
  refine inputOtherwise_cases s th skb ?_ ?_ ?_ ?_ ?_ ?_
  · intro wrong
    rw [verified] at wrong
    contradiction
  · intro _ wrong
    rw [rst] at wrong
    contradiction
  · rintro _ _ (wrong | wrong)
    · rw [syn] at wrong
      contradiction
    · rw [ack] at wrong
      contradiction
  · intro _ _ _ _ wrong
    rw [takes, inputNewAck_new new] at wrong
    contradiction
  · intro _ _ _ _ _ _ empty
    rw [takes] at empty
    exact iff_of_true (tcpDone_ended _) (covers.mp empty)
  · intro _ _ _ _ _ busy
    rw [takes] at busy ⊢
    have at_state : (inputNewAck s th).1.tsk.state = .lastAck := stays.state.trans last
    refine iff_of_false ?_ fun empty => busy at_state (covers.mpr empty)
    intro ended
    have same : inputFinAcked (inputNewAck s th).1 th = (inputNewAck s th).1 := by
      unfold inputFinAcked
      rw [at_state]
      split <;> rfl
    rw [same, Ended, (inputTail_moves _ th skb).2, stays.ended] at ended
    exact opened ended

/- Without that timer the passive close stays where it is or is over. -/
theorem TcpState.leadsTo_last {a b : TcpState} (passive : a = .closeWait ∨ a = .lastAck)
    (leads : a.leadsTo false b = true) : b.gone ∨ b = a := by
  rcases passive with rfl | rfl <;> simp only [leadsTo, Bool.false_and, Bool.or_false,
    Bool.or_eq_true, decide_eq_true_eq] at leads
  · rcases leads with (same | closing) | timeWait
    · exact .inr same.symm
    · exact .inl (.inl closing)
    · exact .inl (.inr timeWait)
  · rcases leads with (same | closing) | timeWait
    · exact .inr same.symm
    · exact .inl (.inl closing)
    · exact .inl (.inr timeWait)

/- Between the close and the ACK the state is where the timer of the FIN has or has not put it,
   unless the connection has been torn down. -/
theorem closing_state {trace : List (Event × Reply)} {first : Conn}
    {allowed : List (Event × Reply) → Conn → Event → Prop} (closeWait : first.tsk.state = .closeWait)
    (run : Run exec allowed first trace s) :
    s.tsk.state.gone ∨ (s.tsk.state = .closeWait ∧ ¬Occurs exec FinTimedOut first trace) ∨
      (s.tsk.state = .lastAck ∧ Occurs exec FinTimedOut first trace) := by
  induction run with
  | start => exact .inr (.inl ⟨closeWait, id⟩)
  | @next trace s t e r before ok taken ih =>
    obtain ⟨timeout, leads⟩ := exec_leads s false taken
    rw [before.occurs_snoc taken]
    by_cases timedOut : FinTimedOut s e
    · exact .inr (.inr ⟨(timeout timedOut).1, .inr timedOut⟩)
    · have moved := (leads timedOut).state
      rcases ih with gone | ⟨waiting, never⟩ | ⟨last, once⟩
      · exact .inl (TcpState.gone_leads gone moved)
      · rw [waiting] at moved
        rcases TcpState.leadsTo_last (.inl rfl) moved with gone | stays
        · exact .inl gone
        · exact .inr (.inl ⟨stays, fun h => h.elim never timedOut⟩)
      · rw [last] at moved
        rcases TcpState.leadsTo_last (.inr rfl) moved with gone | stays
        · exact .inl gone
        · exact .inr (.inr ⟨stays, .inl once⟩)

theorem tcpClose_passive {r : Reply} (closeWait : s.tsk.state = .closeWait)
    (closed : exec s .close = some (t, r)) : t.tsk.state = .closeWait := by
  simp only [exec, call] at closed
  split at closed
  · have queues : tcpClose (socketWrAcquire s) = (tcpQueueFin (socketWrAcquire s), 0) := by
      unfold tcpClose
      rw [show (socketWrAcquire s).tsk.state = .closeWait from closeWait]
    rw [queues] at closed
    obtain ⟨rfl, -⟩ := by simpa using closed
    exact (tcpQueueFin_stays _).state.trans closeWait
  · contradiction

theorem segment_lastAck {payload : List UInt8} {r : Reply} (last : s.tsk.state = .lastAck)
    (opened : ¬Ended s) (acceptable : AcceptableAck s th payload)
    (taken : exec s (.segment th payload) = some (t, r)) : Ended t ↔ CoversQueue s th.ackSeq := by
  simp only [exec] at taken
  split at taken
  · obtain ⟨rfl, -⟩ := by simpa using taken
    have input : tcpInputState (socketWrAcquire (tcpInitSegment s th payload).1) th
        (tcpInitSegment s th payload).2 =
        inputOtherwise (socketWrAcquire (tcpInitSegment s th payload).1) th
          (tcpInitSegment s th payload).2 := by
      unfold tcpInputState
      rw [show (socketWrAcquire (tcpInitSegment s th payload).1).tsk.state = .lastAck from last]
    unfold tcpIn
    dsimp only
    rw [input]
    exact inputOtherwise_lastAck last acceptable.verified acceptable.rst acceptable.syn
      acceptable.ack acceptable.new opened
  · contradiction

/-- The ACK of a passive close finds the socket in LAST_ACK and ends the connection exactly when a
    timer of the FIN has expired before it with the FIN at the head of the write queue, the
    connection has not been torn down, and nothing is queued behind what is acknowledged. -/
theorem passive_close_completes {before trace : List (Event × Reply)} {s₀ s₁ : Conn}
    {payload : List UInt8} {r : Reply}
    (run₀ : Run exec (fun _ _ _ => True) {} before s₀) (closeWait : s₀.tsk.state = .closeWait)
    (closed : exec s₀ .close = some (s₁, .ret 0)) (run : Run exec (fun _ _ _ => True) s₁ trace s)
    (acceptable : AcceptableAck s th payload) (taken : exec s (.segment th payload) = some (t, r)) :
    (s.tsk.state = .lastAck ∧ ¬Ended s ∧ Ended t) ↔
      Occurs exec FinTimedOut s₁ trace ∧ s.tsk.state ≠ .closing ∧ s.tsk.state ≠ .timeWait ∧
        CoversQueue s th.ackSeq := by
  have waiting := tcpClose_passive closeWait closed
  have gone : Ended s → s.tsk.state.gone := by
    refine run.invariant_state (P := fun s => Ended s → s.tsk.state.gone) ?_ ?_
    · exact exec_gone s₀ (ended_gone run₀) closed
    · intro _ s _ _ _ gone _ taken
      exact exec_gone s gone taken
  constructor
  · rintro ⟨last, opened, ended⟩
    refine ⟨?_, by simp [last], by simp [last], (segment_lastAck last opened acceptable taken).mp ended⟩
    rcases closing_state waiting run with torn | ⟨stayed, -⟩ | ⟨-, once⟩
    · rw [last] at torn
      rcases torn with h | h <;> cases h
    · rw [last] at stayed
      contradiction
    · exact once
  · rintro ⟨once, notClosing, notTimeWait, covers⟩
    have last : s.tsk.state = .lastAck := by
      rcases closing_state waiting run with torn | ⟨-, never⟩ | ⟨last, -⟩
      · rcases torn with h | h
        · exact absurd h notClosing
        · exact absurd h notTimeWait
      · exact absurd once never
      · exact last
    have opened : ¬Ended s := by
      intro ended
      have torn := gone ended
      rw [last] at torn
      rcases torn with h | h <;> cases h
    exact ⟨last, opened, (segment_lastAck last opened acceptable taken).mpr covers⟩

/- The peer has closed after one byte has gone out and been acknowledged, so the timeout is short. -/
def peerCloses : List Event :=
  handshake ++ [.write [7], .segment (peerHdr 5001 1002) [],
    .segment { peerHdr 5001 1002 with fin := true } []]

theorem passive_close_completes_timeout : ∃ before s₀ s₁ trace s t r,
    Run exec (fun _ _ _ => True) {} before s₀ ∧ exec s₀ .close = some (s₁, .ret 0) ∧
    Run exec (fun _ _ _ => True) s₁ trace s ∧
    exec s (.segment (peerHdr 5002 1003) []) = some (t, r) ∧ s.tsk.state = .lastAck ∧
    ((s.tsk.state = .lastAck ∧ ¬Ended s ∧ Ended t) ↔
      Occurs exec FinTimedOut s₁ trace ∧ s.tsk.state ≠ .closing ∧ s.tsk.state ≠ .timeWait ∧
        CoversQueue s 1003) := by
  obtain ⟨before, s₀, run₀, closeWait, p, closed, zero, q, reached, last, acceptable, u, taken⟩ :
      ∃ before s₀, Run exec (fun _ _ _ => True) {} before s₀ ∧ s₀.tsk.state = .closeWait ∧
        ∃ p ∈ exec s₀ .close, p.2 = .ret 0 ∧
        ∃ q ∈ follow exec (fun _ _ _ => True) [] p.1 (List.replicate 21 (.tick []) ++ [.handler 0]),
          q.2.tsk.state = .lastAck ∧ AcceptableAck q.2 (peerHdr 5002 1003) [] ∧
          ∃ u ∈ exec q.2 (.segment (peerHdr 5002 1003) []), True :=
    Run.exists_of_follow peerCloses (by decide)
  have closed : exec s₀ .close = some (p.1, .ret 0) := by rw [← zero]; exact closed
  have run : Run exec (fun _ _ _ => True) p.1 q.1 q.2 := Run.of_follow _ .start reached
  exact ⟨before, s₀, p.1, q.1, q.2, u.1, u.2, run₀, closed, run, taken.1, last,
    passive_close_completes run₀ closeWait closed run acceptable taken.1⟩

/-- Without a timeout the ACK of the FIN leaves the socket in CLOSE_WAIT. -/
theorem ack_before_timeout_stays : ∃ before s₀ s₁ trace s t r,
    Run exec (fun _ _ _ => True) {} before s₀ ∧ s₀.tsk.state = .closeWait ∧
    exec s₀ .close = some (s₁, .ret 0) ∧ Run exec (fun _ _ _ => True) s₁ trace s ∧
    AcceptableAck s (peerHdr 5002 1003) [] ∧
    (∃ k ∈ s.sent, k.th.fin = true ∧ k.seq = 1002) ∧ CoversQueue s 1003 ∧
    exec s (.segment (peerHdr 5002 1003) []) = some (t, r) ∧
    ¬(s.tsk.state = .lastAck ∧ ¬Ended s ∧ Ended t) := by
  obtain ⟨before, s₀, run₀, closeWait, p, closed, zero, acceptable, sent, covers, u, taken, stays⟩ :
      ∃ before s₀, Run exec (fun _ _ _ => True) {} before s₀ ∧ s₀.tsk.state = .closeWait ∧
        ∃ p ∈ exec s₀ .close, p.2 = .ret 0 ∧ AcceptableAck p.1 (peerHdr 5002 1003) [] ∧
          (∃ k ∈ p.1.sent, k.th.fin = true ∧ k.seq = 1002) ∧ CoversQueue p.1 1003 ∧
          ∃ u ∈ exec p.1 (.segment (peerHdr 5002 1003) []), p.1.tsk.state ≠ .lastAck :=
    Run.exists_of_follow peerCloses (by decide)
  have closed : exec s₀ .close = some (p.1, .ret 0) := by rw [← zero]; exact closed
  exact ⟨before, s₀, p.1, [], p.1, u.1, u.2, run₀, closeWait, closed, .start, acceptable, sent, covers,
    taken, fun ends => stays ends.1⟩

end HfIp
