import HfIp.BackoffEvents

/- The round-trip estimate changes only where `tcp_rtt` takes a sample. -/
namespace HfIp

variable {s t u : Conn}

/- `srtt` and `rttvar`, which nothing but `tcp_rtt` writes. -/
def SameEstimate (s t : Conn) : Prop := t.tsk.srtt = s.tsk.srtt ∧ t.tsk.rttvar = s.tsk.rttvar

/- And `rto`, which the timers double. -/
def SameTimeout (s t : Conn) : Prop := SameEstimate s t ∧ t.tsk.rto = s.tsk.rto

namespace SameEstimate

theorem refl (s : Conn) : SameEstimate s s := ⟨rfl, rfl⟩

theorem trans (first : SameEstimate s t) (second : SameEstimate t u) : SameEstimate s u :=
  ⟨second.1.trans first.1, second.2.trans first.2⟩

theorem of_frame (h : RttFrame s t) : SameEstimate s t := ⟨h.srtt, h.rttvar⟩

theorem of_same (h : Same s t) : SameEstimate s t :=
  ⟨congrArg (·.tsk.srtt) h, congrArg (·.tsk.rttvar) h⟩

end SameEstimate

namespace SameTimeout

theorem refl (s : Conn) : SameTimeout s s := ⟨.refl s, rfl⟩

theorem trans (first : SameTimeout s t) (second : SameTimeout t u) : SameTimeout s u :=
  ⟨first.1.trans second.1, second.2.trans first.2⟩

theorem of_frame (h : RttFrame s t) : SameTimeout s t := ⟨.of_frame h, h.rto⟩

theorem of_same (h : Same s t) : SameTimeout s t := ⟨.of_same h, h.rto⟩

end SameTimeout

/-! ### Sending -/

theorem tcpQueueTransmitSkb_estimate (s : Conn) (k : SkBuff) :
    SameEstimate s (tcpQueueTransmitSkb s k) := by
  obtain ⟨_, _, _, _, _, _, same⟩ := tcpQueueTransmitSkb_touches s k
  have sent := SameEstimate.of_same same
  exact sent

theorem tcpSendLoop_estimate (mss fuel : Nat) (s : Conn) (buf : List UInt8) :
    SameEstimate s (tcpSendLoop mss fuel s buf) := by
  induction fuel generalizing s buf with
  | zero => exact .refl s
  | succ fuel ih =>
    rw [tcpSendLoop]
    split
    · exact .refl s
    · have queued := tcpQueueTransmitSkb_estimate (tcpAllocSkb s 0 (buf.take mss)).1
      exact SameEstimate.trans (queued _) (ih _ _)

theorem tcpWrite_estimate (s : Conn) (buf : List UInt8) : SameEstimate s (tcpWrite s buf).1 := by
  have sends : SameEstimate s (tcpSend s buf) :=
    (tcpSendLoop_estimate _ _ { s with accepted := s.accepted ++ buf } _).trans
      (.of_frame (tcpRearmUserTimeout_rtt _))
  unfold tcpWrite
  split
  · exact .refl s
  · split
    · exact sends
    · exact sends
    · exact .refl s

theorem tcpClose_estimate (s : Conn) : SameEstimate s (tcpClose s).1 := by
  have fin : ∀ state, SameEstimate s (tcpQueueFin (setState s state)) :=
    fun state => tcpQueueTransmitSkb_estimate _ _
  unfold tcpClose
  split
  iterate 6 exact ⟨rfl, rfl⟩
  iterate 3 exact .of_frame (tcpDone_rtt s)
  · exact fin _
  · exact fin s.tsk.state

theorem tcpAbort_estimate (s : Conn) : SameEstimate s (tcpAbort s) := by
  have reset := SameEstimate.of_same (tcpSendReset_minor s).same
  exact SameEstimate.trans reset (.of_frame (tcpDone_rtt _))

/-! ### Timers -/

theorem retransmitHead_estimate (s : Conn) (k : SkBuff) : SameEstimate s (retransmitHead s k) := by
  obtain ⟨_, same⟩ := retransmitHead_touches s k
  have sent := SameEstimate.of_same same
  exact sent

theorem tcpConnectRto_estimate (s : Conn) : SameEstimate s (tcpConnectRto s) := by
  unfold tcpConnectRto
  refine SameEstimate.trans (.of_frame (tcpReleaseRtoTimer_rtt s)) ?_
  generalize tcpReleaseRtoTimer s = t
  dsimp only
  split
  · split
    · exact .of_frame ((retransmissionFailed_rtt t).trans (tcpDone_rtt _))
    · split
      · exact .refl t
      · rename_i k _
        obtain ⟨ts, retransmit, eq⟩ := tcpRearmRtoTimer_touches
          { retransmitHead t k with tsk.backoff := (retransmitHead t k).tsk.backoff + 1 }
        rw [eq]
        exact retransmitHead_estimate t k
  · exact .refl t

theorem tcpRetransmissionTimeout_estimate (s : Conn) :
    SameEstimate s (tcpRetransmissionTimeout s) := by
  unfold tcpRetransmissionTimeout
  refine SameEstimate.trans (.of_frame (tcpReleaseRtoTimer_rtt s)) ?_
  generalize tcpReleaseRtoTimer s = t
  dsimp only
  split
  · have notified := SameEstimate.of_same (tcpNotifyUser_minor { t with tsk.backoff := 0 }).same
    exact notified
  · rename_i k _
    refine (retransmitHead_estimate t k).trans ?_
    split
    · exact .of_frame ((tcpDone_rtt _).trans (retransmissionFailed_rtt _))
    · have backed : SameEstimate (retransmitHead t k) (retransmissionBackoff (retransmitHead t k)) :=
        ⟨rfl, rfl⟩
      split
      · refine backed.trans ?_
        unfold tcpHandleFinState
        split <;> exact ⟨rfl, rfl⟩
      · exact backed

theorem socketFree_estimate (s : Conn) : SameEstimate s (socketFree s) := by
  obtain ⟨_, eq⟩ := socketFree_eq s
  rw [eq]
  exact ⟨rfl, rfl⟩

theorem runHandler_estimate (s : Conn) (h : Handler) : SameEstimate s (runHandler s h) := by
  cases h with
  | tcpConnectRto => exact tcpConnectRto_estimate (socketWrAcquire s)
  | tcpRetransmissionTimeout => exact tcpRetransmissionTimeout_estimate (socketWrAcquire s)
  | tcpSendDelack =>
    have sent := SameEstimate.of_frame (tcpSendDelack_rtt (socketWrAcquire s))
    exact sent
  | tcpLinger =>
    have ended := SameEstimate.of_frame (tcpLinger_rtt (socketWrAcquire s))
    exact ended
  | tcpUserTimeout => exact tcpAbort_estimate (stopLinger (socketWrAcquire s))
  | socketGarbageCollect =>
    unfold runHandler socketGarbageCollect
    dsimp only
    split
    · exact socketFree_estimate s
    · exact .refl s

/-! ### Arriving segments -/

theorem tcpCleanRtoQueue_timeout (s : Conn) (una : UInt32) :
    SameTimeout s (tcpCleanRtoQueue s una) := by
  obtain ⟨_, _, _, _, _, cleaned⟩ := tcpCleanRtoQueue_touches s una
  rw [cleaned]
  exact .refl s

theorem inputNewAck_timeout (th : TcpHdr) (none : ¬(AckNew s th ∧ Samples s)) :
    SameTimeout s (inputNewAck s th).1 := by
  rw [inputNewAck_fst]
  split
  · rename_i new
    have still : ¬Samples { s with tsk.tcb.sndUna := th.ackSeq } := fun sample => none ⟨new, sample⟩
    rw [(tcpRtt_touches _).1 still]
    exact tcpCleanRtoQueue_timeout { s with tsk.tcb.sndUna := th.ackSeq } th.ackSeq
  · exact .refl s

theorem inputAck_timeout (th : TcpHdr) (none : ¬(AckReached s th ∧ AckNew s th ∧ Samples s)) :
    SameTimeout s (inputAck s th).1 := by
  unfold inputAck
  split
  · rename_i at_state
    split
    · rename_i inside
      refine inputNewAck_timeout (s := setState s .established) th fun new => ?_
      exact none ⟨.inr ⟨at_state, inside⟩, new⟩
    · exact .refl s
  iterate 6
    rename_i at_state
    exact inputNewAck_timeout th fun new => none ⟨.inl (by rw [at_state]; rfl), new⟩
  exact .refl s

theorem sendFront_timeout (s : Conn) (n : Nat) :
    SameTimeout s (tcpRearmRtoTimer (sendFront s n)) := by
  obtain ⟨_, _, _, same⟩ := tcpSendNext_touches s n
  have sent := SameTimeout.of_same same
  obtain ⟨_, _, eq⟩ := tcpRearmRtoTimer_touches (sendFront s n)
  rw [eq]
  exact sent

/-- A segment leaves the estimate and `rto` unless `tcp_rtt` takes a sample for it. -/
theorem tcpIn_timeout {th : TcpHdr} {payload : List UInt8} (opened : s.tsk.state.early = false)
    (none : ¬TakesSample s (.segment th payload)) : SameTimeout s (tcpIn s th payload) := by
  suffices kept : SameTimeout s (inputOtherwise (arriving s th payload) th
      (tcpInitSegment s th payload).2) by
    have checked : tcpInputState (arriving s th payload) th (tcpInitSegment s th payload).2 =
        inputOtherwise (arriving s th payload) th (tcpInitSegment s th payload).2 := by
      have early : (arriving s th payload).tsk.state.early = false := opened
      unfold tcpInputState
      split
      iterate 3
        rename_i at_state
        rw [at_state] at early
        cases early
      rfl
    unfold tcpIn
    dsimp only
    rw [show socketWrAcquire (tcpInitSegment s th payload).1 = arriving s th payload from rfl, checked]
    exact kept
  refine inputOtherwise_framed (P := SameTimeout s) ?_ ?_ ?_ ?_
  · exact fun u v frame kept => kept.trans (.of_frame frame)
  · exact .refl s
  · intro verified rst syn ack
    refine inputAck_timeout (s := arriving s th payload) th fun sample => none ?_
    exact ⟨verified, rst, syn, ack, sample⟩
  · exact fun u _ _ _ kept => kept.trans (sendFront_timeout u _)

/-- No other event changes the estimate. -/
theorem exec_estimate {e : Event} {r : Reply} (opened : s.sock.registered = true → s.tsk.state.early = false)
    (none : ¬TakesSample s e) (taken : exec s e = some (t, r)) : SameEstimate s t := by
  by_cases arrives : ∃ th payload, e = .segment th payload
  · obtain ⟨th, payload, rfl⟩ := arrives
    obtain ⟨registered, -, -, rfl⟩ := exec_segment_taken taken
    exact (tcpIn_timeout (opened registered) none).1
  · refine exec_still (P := SameEstimate s) ?_ (.refl s) taken ?_ ?_ ?_ ?_ ?_ ?_ ?_ ?_ ?_ ?_
    · exact fun u v still kept => kept.trans (.of_frame (.of_still still))
    · exact fun _ u kept => kept.trans (socketFree_estimate u)
    · exact fun _ _ => ⟨rfl, rfl⟩
    · exact fun i h _ _ _ => runHandler_estimate (started s i) h.handler
    · exact fun buf _ _ kept => kept.trans (tcpWrite_estimate _ buf)
    · exact fun len _ _ kept => kept.trans (.of_frame (tcpRead_rtt _ len))
    · exact fun i b _ _ _ kept => kept.trans (.of_frame (receiveLoop_rtt _ _ _))
    · exact fun _ _ kept => kept.trans (tcpClose_estimate _)
    · exact fun _ _ => tcpAbort_estimate s
    · intro addr port iss _ live closed _
      have early := opened live
      rw [closed] at early
      cases early
    · exact fun th payload arrived _ _ => absurd ⟨th, payload, arrived⟩ arrives

end HfIp
