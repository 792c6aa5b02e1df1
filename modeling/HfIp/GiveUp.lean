import HfIp.KarnsRule
import HfIp.TimeWait

/- How long the retransmission timer goes on: `rto` doubles each time it expires, nothing but a sample
   makes it smaller, and past 60000 the connection ends. -/
namespace HfIp

open Transition

variable {s t u : Conn} {lo : Nat}

/-! ### What leaves `rto` alone -/

theorem tcpQueueTransmitSkb_timeout (s : Conn) (k : SkBuff) : SameTimeout s (tcpQueueTransmitSkb s k) := by
  obtain ⟨_, _, _, _, _, _, same⟩ := tcpQueueTransmitSkb_touches s k
  have sent := SameTimeout.of_same same
  exact sent

theorem tcpSendLoop_timeout (mss fuel : Nat) (s : Conn) (buf : List UInt8) :
    SameTimeout s (tcpSendLoop mss fuel s buf) := by
  induction fuel generalizing s buf with
  | zero => exact .refl s
  | succ fuel ih =>
    rw [tcpSendLoop]
    split
    · exact .refl s
    · have queued := tcpQueueTransmitSkb_timeout (tcpAllocSkb s 0 (buf.take mss)).1
      exact SameTimeout.trans (queued _) (ih _ _)

theorem tcpWrite_timeout (s : Conn) (buf : List UInt8) : SameTimeout s (tcpWrite s buf).1 := by
  have sends : SameTimeout s (tcpSend s buf) :=
    (tcpSendLoop_timeout _ _ { s with accepted := s.accepted ++ buf } _).trans
      (.of_frame (tcpRearmUserTimeout_rtt _))
  unfold tcpWrite
  split
  · exact .refl s
  · split
    · exact sends
    · exact sends
    · exact .refl s

theorem tcpClose_timeout (s : Conn) : SameTimeout s (tcpClose s).1 := by
  have fin : ∀ state, SameTimeout s (tcpQueueFin (setState s state)) :=
    fun state => tcpQueueTransmitSkb_timeout _ _
  unfold tcpClose
  split
  iterate 6 exact ⟨⟨rfl, rfl⟩, rfl⟩
  iterate 3 exact .of_frame (tcpDone_rtt s)
  · exact fin _
  · exact fin s.tsk.state

theorem tcpSendReset_timeout (s : Conn) : SameTimeout s (tcpSendReset s) := by
  have reset := SameTimeout.of_same (tcpSendReset_minor s).same
  exact reset

theorem tcpAbort_timeout (s : Conn) : SameTimeout s (tcpAbort s) :=
  (tcpSendReset_timeout s).trans (.of_frame (tcpDone_rtt _))

theorem tcpV4Connect_timeout (s : Conn) (addr : SockAddr) (port : UInt16) (iss : UInt32) :
    SameTimeout s (tcpV4Connect s addr port iss) := by
  have numbered : ∀ u : Conn, SameTimeout u { u with tsk.tcb.sndNxt := u.tsk.tcb.sndNxt + 1 } :=
    fun _ => ⟨⟨rfl, rfl⟩, rfl⟩
  unfold tcpV4Connect tcpConnect tcpSendSyn
  dsimp only
  split
  · exact ⟨⟨rfl, rfl⟩, rfl⟩
  · refine SameTimeout.trans ?_ (numbered _)
    exact SameTimeout.trans ⟨⟨rfl, rfl⟩, rfl⟩ (tcpQueueTransmitSkb_timeout _ _)

theorem retransmitHead_timeout (s : Conn) (k : SkBuff) : SameTimeout s (retransmitHead s k) := by
  obtain ⟨_, same⟩ := retransmitHead_touches s k
  have sent := SameTimeout.of_same same
  exact sent

theorem tcpConnectRto_timeout (s : Conn) : SameTimeout s (tcpConnectRto s) := by
  unfold tcpConnectRto
  refine SameTimeout.trans (.of_frame (tcpReleaseRtoTimer_rtt s)) ?_
  generalize tcpReleaseRtoTimer s = t
  dsimp only
  split
  · split
    · exact .of_frame ((retransmissionFailed_rtt t).trans (tcpDone_rtt _))
    · split
      · exact .refl t
      · rename_i k _
        obtain ⟨ts, retransmit, eq⟩ := tcpRearmRtoTimer_touches
          { retransmitHead t k with tsk.backoff := (retransmitHead t k).tsk.backoff + 1 }
        rw [eq]
        exact retransmitHead_timeout t k
  · exact .refl t

theorem socketFree_timeout (s : Conn) : SameTimeout s (socketFree s) := by
  obtain ⟨_, eq⟩ := socketFree_eq s
  rw [eq]
  exact .refl s

/-- The timer finds a buffer to send again: `rto` doubles, or the connection ends. -/
theorem tcpRetransmissionTimeout_doubles (s : Conn) (some_left : s.tsk.writeQueue ≠ []) :
    (Ended (tcpRetransmissionTimeout s) ∧ (tcpRetransmissionTimeout s).tsk.rto = s.tsk.rto) ∨
      (s.tsk.rto.toNat ≤ 60000 ∧
        (tcpRetransmissionTimeout s).tsk.rto.toNat = 2 * s.tsk.rto.toNat) := by
  have released := tcpReleaseRtoTimer_rtt s
  have left : (tcpReleaseRtoTimer s).tsk.writeQueue ≠ [] := released.send.writeQueue ▸ some_left
  have rto : (tcpReleaseRtoTimer s).tsk.rto = s.tsk.rto := released.rto
  unfold tcpRetransmissionTimeout
  generalize tcpReleaseRtoTimer s = v at left rto
  obtain ⟨k, rest, queue⟩ := List.exists_cons_of_ne_nil left
  have head : skbPeek v.tsk.writeQueue = some k := by rw [queue]; rfl
  have again : (retransmitHead v k).tsk.rto = s.tsk.rto := (retransmitHead_timeout v k).2.trans rto
  dsimp only
  rw [head]
  dsimp only
  generalize retransmitHead v k = w at again
  split
  · have failed := (tcpDone_rtt w).trans (retransmissionFailed_rtt _)
    exact .inl ⟨tcpDone_ended w, failed.rto.trans again⟩
  · rename_i more
    rw [again] at more
    have short : s.tsk.rto.toNat ≤ 60000 := UInt32.not_lt.mp more
    have doubled : (retransmissionBackoff w).tsk.rto.toNat = 2 * s.tsk.rto.toNat := by
      show (w.tsk.rto * 2).toNat = _
      rw [again, UInt32.toNat_mul, show (2 : UInt32).toNat = 2 from rfl]
      omega
    refine .inr ⟨short, ?_⟩
    split
    · rw [← doubled]
      unfold tcpHandleFinState
      split <;> rfl
    · exact doubled

/-- And none: `rto` stays. -/
theorem tcpRetransmissionTimeout_idle (s : Conn) (none_left : s.tsk.writeQueue = []) :
    SameTimeout s (tcpRetransmissionTimeout s) := by
  unfold tcpRetransmissionTimeout
  have released := tcpReleaseRtoTimer_rtt s
  have left : (tcpReleaseRtoTimer s).tsk.writeQueue = [] := released.send.writeQueue.trans none_left
  refine SameTimeout.trans (.of_frame released) ?_
  generalize tcpReleaseRtoTimer s = v at left ⊢
  have head : skbPeek v.tsk.writeQueue = none := by rw [left]; rfl
  dsimp only
  rw [head]
  have notified := SameTimeout.of_same (tcpNotifyUser_minor { v with tsk.backoff := 0 }).same
  exact notified

/-! ### Events -/

/-- The retransmission timer expires with something to send again. -/
def TimesOut (s : Conn) : Event → Prop
  | .handler i => s.tsk.writeQueue ≠ [] ∧
      ∃ h ∈ s.ts.threads[i]?, h.handler = .tcpRetransmissionTimeout
  | _ => False

instance (s : Conn) (e : Event) : Decidable (TimesOut s e) := by
  induction e using Event.casesOn <;> unfold TimesOut <;> infer_instance

theorem runHandler_timeout (s : Conn) (h : Handler)
    (quiet : h = .tcpRetransmissionTimeout → s.tsk.writeQueue = []) : SameTimeout s (runHandler s h) := by
  cases h with
  | tcpConnectRto => exact tcpConnectRto_timeout (socketWrAcquire s)
  | tcpRetransmissionTimeout => exact tcpRetransmissionTimeout_idle (socketWrAcquire s) (quiet rfl)
  | tcpSendDelack =>
    have sent := SameTimeout.of_frame (tcpSendDelack_rtt (socketWrAcquire s))
    exact sent
  | tcpLinger =>
    have ended := SameTimeout.of_frame (tcpLinger_rtt (socketWrAcquire s))
    exact ended
  | tcpUserTimeout => exact tcpAbort_timeout (stopLinger (socketWrAcquire s))
  | socketGarbageCollect =>
    unfold runHandler socketGarbageCollect
    dsimp only
    split
    · exact socketFree_timeout s
    · exact .refl s

/-- Only a sample and the timer change `rto` once the connection is open. -/
theorem exec_timeout {e : Event} {r : Reply} (opened : s.tsk.state.early = false)
    (none : ¬TakesSample s e) (quiet : ¬TimesOut s e) (taken : exec s e = some (t, r)) :
    SameTimeout s t := by
  by_cases arrives : ∃ th payload, e = .segment th payload
  · obtain ⟨th, payload, rfl⟩ := arrives
    obtain ⟨-, -, -, rfl⟩ := exec_segment_taken taken
    exact tcpIn_timeout opened none
  · refine exec_still (P := SameTimeout s) ?_ (.refl s) taken ?_ ?_ ?_ ?_ ?_ ?_ ?_ ?_ ?_ ?_
    · exact fun u v still kept => kept.trans (.of_frame (.of_still still))
    · exact fun _ u kept => kept.trans (socketFree_timeout u)
    · exact fun _ _ => ⟨⟨rfl, rfl⟩, rfl⟩
    · rintro i h rfl found _
      refine runHandler_timeout (started s i) h.handler fun timer => ?_
      by_contra some_left
      exact quiet ⟨some_left, h, found, timer⟩
    · exact fun buf _ _ kept => kept.trans (tcpWrite_timeout _ buf)
    · exact fun len _ _ kept => kept.trans (.of_frame (tcpRead_rtt _ len))
    · exact fun i b _ _ _ kept => kept.trans (.of_frame (receiveLoop_rtt _ _ _))
    · exact fun _ _ kept => kept.trans (tcpClose_timeout _)
    · exact fun _ _ => tcpAbort_timeout s
    · exact fun addr port iss _ _ _ kept => kept.trans (tcpV4Connect_timeout _ addr port iss)
    · exact fun th payload arrived _ _ => absurd ⟨th, payload, arrived⟩ arrives

theorem exec_doubles {e : Event} {r : Reply} (expires : TimesOut s e) (taken : exec s e = some (t, r)) :
    Ended t ∨ (s.tsk.rto.toNat ≤ 60000 ∧ t.tsk.rto.toNat = 2 * s.tsk.rto.toNat) ∧ SameEstimate s t := by
  cases e with
  | handler i =>
    obtain ⟨some_left, h, found, timer⟩ := expires
    obtain ⟨h', found', -, rfl⟩ := exec_handler_taken taken
    obtain rfl : h = h' := Option.some.inj (found.symm.trans found')
    rw [timer]
    have estimate := runHandler_estimate (started s i) .tcpRetransmissionTimeout
    rcases tcpRetransmissionTimeout_doubles (socketWrAcquire (started s i)) some_left with dead | doubled
    · exact .inl dead.1
    · exact .inr ⟨doubled, estimate⟩
  | _ => exact absurd expires id

/-! ### The least `rto` -/

/- `rto` is `lo` at least, and the average that `tcp_rtt` makes it from is in range. -/
structure Paced (lo : Nat) (s : Conn) : Prop where
  rto : lo ≤ s.tsk.rto.toNat
  srtt : 0 ≤ s.tsk.srtt ∧ s.tsk.srtt < 2 ^ 31

theorem Paced.same (paced : Paced lo s) (same : SameTimeout s t) : Paced lo t where
  rto := by rw [same.2]; exact paced.rto
  srtt := by rw [same.1.1]; exact paced.srtt

theorem Paced.arriving (paced : Paced lo s) (th : TcpHdr) (payload : List UInt8) :
    Paced lo (arriving s th payload) := ⟨paced.rto, paced.srtt⟩

theorem Paced.frame (paced : Paced lo s) (frame : RttFrame s t) : Paced lo t := paced.same (.of_frame frame)

theorem tcpRtt_paced (low : lo ≤ 200) (paced : Paced lo s) : Paced lo (tcpRtt s) := by
  unfold tcpRtt
  split
  · exact paced
  · split
    · exact paced
    · dsimp only
      split
      · exact paced
      · rename_i sample
        obtain ⟨srtt, rto⟩ := tcpRttUpdate_backed s.tsk _ (Int.not_lt.mp sample) paced.srtt
        exact ⟨Nat.le_trans low rto, srtt⟩

theorem inputAck_paced (low : lo ≤ 200) (th : TcpHdr) (paced : Paced lo s) :
    Paced lo (inputAck s th).1 := by
  have new : ∀ u, Paced lo u → Paced lo (inputNewAck u th).1 := by
    intro u paced
    rw [inputNewAck_fst]
    split
    · have moved : Paced lo { u with tsk.tcb.sndUna := th.ackSeq } := ⟨paced.rto, paced.srtt⟩
      exact (tcpRtt_paced low moved).same (tcpCleanRtoQueue_timeout _ _)
    · exact paced
  unfold inputAck
  split
  · split
    · exact new _ ⟨paced.rto, paced.srtt⟩
    · exact paced
  iterate 6 exact new _ paced
  exact paced

theorem synsentAck_paced (th : TcpHdr) (paced : Paced lo s) : Paced lo (synsentAck s th) := by
  unfold synsentAck
  dsimp only
  split
  · exact Paced.same ⟨paced.rto, paced.srtt⟩ (tcpCleanRtoQueue_timeout _ _)
  · exact ⟨paced.rto, paced.srtt⟩

theorem synsentEstablish_paced (th : TcpHdr) (srtt : 0 ≤ s.tsk.srtt ∧ s.tsk.srtt < 2 ^ 31) :
    Paced 200 (synsentEstablish s th) := by
  have parsed : ∀ u : Conn, SameTimeout u (sockConnected { u with tsk := tcpParseOpts u.tsk th }) := by
    intro u
    have read := SameTimeout.of_same (tcpParseOpts_minor u th).same
    exact read
  unfold synsentEstablish
  dsimp only
  refine Paced.same ?_ (parsed _)
  refine Paced.frame ?_ (tcpRearmUserTimeout_rtt _)
  refine Paced.frame ?_ (tcpSendAck_rtt _)
  refine ⟨?_, srtt⟩
  show 200 ≤ (1000 : UInt32).toNat
  decide

theorem synsentSyn_paced {th : TcpHdr} (paced : Paced 0 s) (taken : SynTaken s th)
    (ack : th.ack = true) :
    Paced 200 (synsentSyn s th) ∧ (synsentSyn s th).tsk.state = .established := by
  obtain ⟨above, -, -⟩ := taken.window ack
  have acked := synsentAck_paced th paced
  have reached : (synsentAck s th).tsk.tcb.sndUna > (synsentAck s th).tsk.tcb.iss := by
    unfold synsentAck
    rw [if_pos ack]
    obtain ⟨_, _, _, _, _, cleaned⟩ := tcpCleanRtoQueue_touches { s with
      tsk.tcb.rcvNxt := th.seq + 1, tsk.tcb.irs := th.seq, tsk.tcb.sndUna := th.ackSeq } th.ackSeq
    rw [cleaned]
    exact above
  unfold synsentSyn
  dsimp only
  rw [if_pos reached]
  exact ⟨synsentEstablish_paced th acked.srtt, (synsentEstablish_state _ th).1⟩

theorem tcpInputState_paced (low : lo ≤ 200) (th : TcpHdr) (skb : SkBuff) (paced : Paced lo s) :
    Paced lo (tcpInputState s th skb) := by
  have freed : ∀ u, Paced lo u → Paced lo (freeSkb u skb) := fun u paced => paced.frame (freeSkb_rtt u skb)
  unfold tcpInputState
  split
  · unfold tcpClosed
    split
    · exact freed s paced
    · exact freed _ (paced.same (tcpSendReset_timeout s))
  · exact freed s paced
  · refine tcpSynsent_cases (freed s paced) (fun _ _ => freed _ (paced.frame (tcpReset_rtt s))) fun _ => ?_
    refine freed _ ?_
    have acked := synsentAck_paced th paced
    unfold synsentSyn
    generalize synsentAck s th = v at acked
    dsimp only
    split
    · have set := synsentEstablish_paced th acked.srtt
      exact ⟨Nat.le_trans low set.rto, set.srtt⟩
    · rw [tcpSendSynack_minor _ (by simp [setState])]
      exact ⟨acked.rto, acked.srtt⟩
  · refine inputOtherwise_framed (P := Paced lo) (fun u v frame paced => paced.frame frame) paced ?_ ?_
    · exact fun _ _ _ _ => inputAck_paced low th paced
    · exact fun u _ _ _ paced => paced.same (sendFront_timeout u _)

theorem exec_paced {e : Event} {r : Reply} (low : lo ≤ 200) (paced : Paced lo s)
    (taken : exec s e = some (t, r)) : Paced lo t := by
  refine exec_still (P := Paced lo) ?_ paced taken ?_ ?_ ?_ ?_ ?_ ?_ ?_ ?_ ?_ ?_
  · exact fun u v still paced => paced.frame (.of_still still)
  · exact fun _ u paced => paced.same (socketFree_timeout u)
  · exact fun _ _ => ⟨paced.rto, paced.srtt⟩
  · intro i h _ _ _
    by_cases expires : h.handler = .tcpRetransmissionTimeout ∧ s.tsk.writeQueue ≠ []
    · have estimate := runHandler_estimate (started s i) h.handler
      have doubles := tcpRetransmissionTimeout_doubles (socketWrAcquire (started s i)) expires.2
      rw [expires.1] at estimate ⊢
      refine ⟨?_, by rw [estimate.1]; exact paced.srtt⟩
      rcases doubles with ⟨-, same⟩ | ⟨-, doubled⟩
      · exact Nat.le_trans paced.rto (Nat.le_of_eq (congrArg UInt32.toNat same.symm))
      · refine Nat.le_trans paced.rto (Nat.le_trans ?_ (Nat.le_of_eq doubled.symm))
        exact Nat.le_mul_of_pos_left _ (by decide)
    · refine paced.same (runHandler_timeout (started s i) h.handler fun timer => ?_)
      by_contra some_left
      exact expires ⟨timer, some_left⟩
  · exact fun buf _ _ paced => paced.same (tcpWrite_timeout _ buf)
  · exact fun len _ _ paced => paced.frame (tcpRead_rtt _ len)
  · exact fun i b _ _ _ paced => paced.frame (receiveLoop_rtt _ _ _)
  · exact fun _ _ paced => paced.same (tcpClose_timeout _)
  · exact fun _ _ => paced.same (tcpAbort_timeout s)
  · exact fun addr port iss _ _ _ paced => paced.same (tcpV4Connect_timeout _ addr port iss)
  · exact fun th payload _ _ paced => tcpInputState_paced low th _ paced

/-! ### Runs -/

theorem TcpState.leadsTo_late {f : Bool} {a b : TcpState} (late : a.early = false)
    (leads : a.leadsTo f b = true) : b.early = false := by
  revert f a b
  decide

/-- The SYN-ACK sets `rto` to a second. -/
theorem exec_opens_paced {e : Event} {r : Reply} (opens : TakesSynAck s e) (paced : Paced 0 s)
    (taken : exec s e = some (t, r)) : Paced 200 t ∧ t.tsk.state.early = false := by
  cases e with
  | segment th payload =>
    obtain ⟨-, -, -, rfl⟩ := exec_segment_taken taken
    obtain ⟨syn, rst, ack⟩ := opens
    obtain ⟨set, state⟩ := synsentSyn_paced (paced.arriving th payload) syn ack
    have freed := freeSkb_rtt (synsentSyn (arriving s th payload) th) (tcpInitSegment s th payload).2
    have released := RttFrame.of_still (socketRelease_still (freeSkb
      (synsentSyn (arriving s th payload) th) (tcpInitSegment s th payload).2))
    have frame := freed.trans released
    have same : tcpIn s th payload = socketRelease (freeSkb (synsentSyn (arriving s th payload) th)
        (tcpInitSegment s th payload).2) := congrArg socketRelease (syn.input rst)
    rw [same]
    refine ⟨set.frame frame, Bool.eq_false_iff.mpr fun early => ?_⟩
    have before := frame.send.onward.early early
    rw [state] at before
    cases before
  | _ => exact absurd opens id

/- What a run is like once the SYN-ACK has come. -/
structure OpenPaced (s : Conn) : Prop where
  early : s.tsk.state.early = false
  paced : Paced 200 s

theorem OpenPaced.step {e : Event} {r : Reply} (opened : OpenPaced s) (taken : exec s e = some (t, r)) :
    OpenPaced t where
  early := TcpState.leadsTo_late opened.early (exec_moves s taken)
  paced := exec_paced (Nat.le_refl _) opened.paced taken

structure PacedRun (trace : List (Event × Reply)) (s : Conn) : Prop where
  paced : Paced 0 s
  opened : Occurs exec TakesSynAck {} trace → OpenPaced s

theorem run_paced {trace : List (Event × Reply)} (run : Run exec (fun _ _ _ => True) {} trace s) :
    PacedRun trace s := by
  refine run.invariant ⟨⟨Nat.zero_le _, by decide⟩, fun opened => opened.elim⟩ ?_
  intro trace u e t r before inv _ taken
  refine ⟨exec_paced (Nat.zero_le _) inv.paced taken, fun occurs => ?_⟩
  rcases (before.occurs_snoc taken).mp occurs with earlier | now
  · exact (inv.opened earlier).step taken
  · obtain ⟨set, early⟩ := exec_opens_paced now inv.paced taken
    exact ⟨early, set⟩

/-- How often the timer has sent a buffer again, along a trace from `s`. -/
def timeouts (s : Conn) (trace : List (Event × Reply)) : Nat :=
  account exec (fun n u e _ => if TimesOut u e then n + 1 else n) 0 s trace

end HfIp
