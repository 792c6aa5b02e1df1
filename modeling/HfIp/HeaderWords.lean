import HfIp.QueueRule
import HfIp.SackGeneration

/- The header of every segment that is sent has the five words of its fixed part, and the options that
   follow are those that `hl` announces. -/
namespace HfIp

open Transition

variable {s t : Conn} {k : SkBuff}

/- A header whose length is still to be set, or covers the fixed part. -/
def TcpHdr.Wide (th : TcpHdr) : Prop := th.hl = 0 ∨ 5 ≤ th.hl.val

structure Worded (s : Conn) : Prop where
  queue : ∀ k ∈ s.tsk.writeQueue, k.th.Wide
  out : ∀ seg ∈ s.out, 5 ≤ seg.th.hl.val

namespace Worded

theorem fewer (worded : Worded s) (queue : t.tsk.writeQueue.Sublist s.tsk.writeQueue)
    (out : t.out = s.out) : Worded t :=
  ⟨fun k member => worded.queue k (queue.subset member), out ▸ worded.out⟩

theorem eq (worded : Worded s) (queue : t.tsk.writeQueue = s.tsk.writeQueue) (out : t.out = s.out) :
    Worded t := worded.fewer (queue ▸ List.Sublist.refl _) out

/-! ### Sending -/

/- The transmission sets the length where there is none. -/
theorem transmit (worded : Worded s) (seq : UInt32) (wide : k.th.Wide) :
    Worded (tcpTransmitSkb s k seq).1 ∧ (tcpTransmitSkb s k seq).2.th.Wide := by
  obtain ⟨seg, out, -, transmits⟩ := tcpTransmitSkb_transmits s k seq
  have same := (tcpTransmitSkb_same s k seq).writeQueue
  have set : 5 ≤ (tcpTransmitSkb s k seq).2.th.hl.val := by
    rw [transmits.hl]
    split
    · exact Nat.le_refl 5
    · rename_i nonzero
      exact wide.resolve_left nonzero
  refine ⟨⟨same ▸ worded.queue, ?_⟩, .inr set⟩
  rw [out]
  intro seg' member
  rcases List.mem_append.mp member with old | new
  · exact worded.out seg' old
  · obtain rfl := List.mem_singleton.mp new
    rw [transmits.sentHl]
    exact set

theorem free (worded : Worded s) (k : SkBuff) : Worded (freeSkb s k) :=
  worded.eq (by rw [freeSkb_tsk]) (freeSkb_out s k)

theorem sendAck (worded : Worded s) (wide : 5 ≤ (Fin.ofNat 16 (TCP_DOFFSET + tcpOptionsLen s.tsk / 4)).val) :
    Worded (tcpSendAck s) := by
  have allocated : Worded (tcpAllocSkb s (tcpOptionsLen s.tsk) []).1 := worded.eq rfl rfl
  unfold tcpSendAck
  split
  · exact worded
  · exact (allocated.transmit _ (.inr wide)).1.free _

/- Without blocks the ACK has no options. -/
theorem sendPlainAck (worded : Worded s) (idle : SacksIdle s.tsk) : Worded (tcpSendAck s) := by
  refine worded.sendAck ?_
  unfold tcpOptionsLen
  rw [if_neg (by simp [idle.sacklen])]
  exact Nat.le_refl 5

theorem rearmRto (worded : Worded s) : Worded (tcpRearmRtoTimer s) := by
  obtain ⟨_, _, eq⟩ := tcpRearmRtoTimer_touches s
  rw [eq]
  exact worded.eq rfl rfl

theorem rearmUser (worded : Worded s) : Worded (tcpRearmUserTimeout s) := by
  unfold tcpRearmUserTimeout
  split
  · exact worded
  · exact worded.eq rfl rfl

theorem queueTransmit (worded : Worded s) (wide : k.th.Wide) : Worded (tcpQueueTransmitSkb s k) := by
  have armed : Worded (if skbQueueEmpty s.tsk.writeQueue then tcpRearmRtoTimer s else s) := by
    split
    · exact worded.rearmRto
    · exact worded
  have queued : ∀ {u : Conn} {k : SkBuff}, Worded u → k.th.Wide →
      Worded { u with tsk.writeQueue := skbQueueTail u.tsk.writeQueue k } := by
    intro u k worded wide
    refine ⟨fun j member => ?_, worded.out⟩
    rcases List.mem_append.mp member with old | new
    · exact worded.queue j old
    · obtain rfl := List.mem_singleton.mp new
      exact wide
  unfold tcpQueueTransmitSkb
  dsimp only
  generalize (if skbQueueEmpty s.tsk.writeQueue then tcpRearmRtoTimer s else s) = t at armed
  split
  · obtain ⟨sent, set⟩ := armed.transmit t.tsk.tcb.sndNxt wide
    have numbered : Worded (numberSkb { (tcpTransmitSkb t k t.tsk.tcb.sndNxt).1 with
        tsk.inflight := (tcpTransmitSkb t k t.tsk.tcb.sndNxt).1.tsk.inflight + 1 }
        (tcpTransmitSkb t k t.tsk.tcb.sndNxt).2).1 := sent.eq rfl rfl
    exact queued numbered set
  · exact queued armed wide

theorem sendNextLoop (worded : Worded s) (amount : Nat) {queue : List SkBuff}
    (wide : ∀ k ∈ queue, k.th.Wide) : (∀ k ∈ (HfIp.sendNextLoop s amount queue).2, k.th.Wide) ∧
      ∀ seg ∈ (HfIp.sendNextLoop s amount queue).1.out, 5 ≤ seg.th.hl.val := by
  induction amount generalizing s queue with
  | zero => exact ⟨wide, worded.out⟩
  | succ amount ih =>
    cases queue with
    | nil => exact ⟨wide, worded.out⟩
    | cons next rest =>
      obtain ⟨sent, set⟩ := worded.transmit s.tsk.tcb.sndNxt (wide next (by simp))
      have numbered : Worded (numberSkb (tcpTransmitSkb s next s.tsk.tcb.sndNxt).1
          (tcpTransmitSkb s next s.tsk.tcb.sndNxt).2).1 := sent.eq rfl rfl
      obtain ⟨queue, out⟩ := ih numbered fun k member => wide k (List.mem_cons_of_mem _ member)
      refine ⟨fun k member => ?_, out⟩
      rcases List.mem_cons.mp member with rfl | later
      · exact set
      · exact queue k later

theorem sendNext (worded : Worded s) (amount : Nat) : Worded (tcpSendNext s amount) := by
  obtain ⟨queue, out⟩ := worded.sendNextLoop amount worded.queue
  exact ⟨queue, out⟩

theorem sendLoop (mss fuel : Nat) (buf : List UInt8) (worded : Worded s) :
    Worded (tcpSendLoop mss fuel s buf) := by
  induction fuel generalizing s buf with
  | zero => exact worded
  | succ fuel ih =>
    have allocated : Worded (tcpAllocSkb s 0 (buf.take mss)).1 := worded.eq rfl rfl
    rw [tcpSendLoop]
    split
    · exact worded
    · exact ih _ (allocated.queueTransmit (.inl rfl))

theorem write (worded : Worded s) (buf : List UInt8) : Worded (tcpWrite s buf).1 := by
  have taken : Worded { s with accepted := s.accepted ++ buf } := worded.eq rfl rfl
  have sent : Worded (tcpSend s buf) := (taken.sendLoop _ _ _).rearmUser
  unfold tcpWrite
  split
  · exact worded
  · split
    · exact sent
    · exact sent
    · exact worded

theorem sendReset (worded : Worded s) : Worded (tcpSendReset s) := by
  have moved : Worded { (tcpAllocSkb s 0 []).1 with
    tsk.tcb.sndUna := (tcpAllocSkb s 0 []).1.tsk.tcb.sndNxt } := worded.eq rfl rfl
  exact (moved.transmit _ (.inl rfl)).1.free _

theorem queueFin (worded : Worded s) : Worded (tcpQueueFin s) := by
  have counted : Worded (tcpAllocSkb { s with fins := s.fins + 1 } 0 []).1 := worded.eq rfl rfl
  exact counted.queueTransmit (.inl rfl)

/- The SYN has one word of options or two. -/
theorem connect (worded : Worded s) (addr : SockAddr) (port : UInt16) (iss : UInt32) :
    Worded (tcpV4Connect s addr port iss) := by
  have wide : ∀ (tsk : TcpSock) (th : TcpHdr),
      TcpHdr.Wide { tcpWriteSynOptions tsk th (tcpSynOptions tsk) with syn := true } := by
    intro tsk th
    unfold tcpSynOptions
    split <;> exact .inr (show 5 ≤ (Fin.ofNat 16 _).val by decide)
  unfold tcpV4Connect tcpConnect tcpSendSyn
  dsimp only
  split
  · exact worded.eq rfl rfl
  · refine Worded.eq (queueTransmit ?_ ?_) rfl rfl
    · exact worded.eq rfl rfl
    · exact wide _ _

/-! ### Ends of the connection -/

theorem done (worded : Worded s) : Worded (tcpDone s) := by
  obtain ⟨_, eq⟩ := skbQueueFree_eq (tcpClearTimers (setState { s with ended := true } .closing))
    s.tsk.ofoQueue
  unfold tcpDone socketDelete tcpFree tcpClearQueues
  rw [show (tcpClearTimers (setState { s with ended := true } .closing)).tsk.ofoQueue =
    s.tsk.ofoQueue from rfl, eq]
  split
  · exact worded.eq rfl rfl
  · exact worded.eq rfl rfl

theorem reset (worded : Worded s) : Worded (tcpReset s) := by
  unfold tcpReset
  dsimp only
  split
  · exact done (worded.eq rfl rfl)
  · exact done (worded.eq rfl rfl)
  · exact worded.eq rfl rfl
  · exact done (worded.eq rfl rfl)

theorem abort (worded : Worded s) : Worded (tcpAbort s) := worded.sendReset.done

theorem close (worded : Worded s) : Worded (tcpClose s).1 := by
  unfold tcpClose
  split
  iterate 6 exact worded.eq rfl rfl
  iterate 3 exact worded.done
  · exact queueFin (worded.eq rfl rfl)
  · exact worded.queueFin

theorem socketFree (worded : Worded s) : Worded (HfIp.socketFree s) := by
  obtain ⟨_, eq⟩ := socketFree_eq s
  rw [eq]
  exact ⟨by simp [socketRelease, wakeSleep], worded.out⟩

/-! ### Timers -/

theorem retransmitHead (worded : Worded s) (head : skbPeek s.tsk.writeQueue = some k) :
    Worded (HfIp.retransmitHead s k) := by
  obtain ⟨rest, queue⟩ := List.head?_eq_some_iff.mp head
  obtain ⟨sent, set⟩ := worded.transmit s.tsk.tcb.sndUna (worded.queue k (by simp [queue]))
  refine ⟨fun j member => ?_, sent.out⟩
  rcases List.mem_cons.mp member with rfl | later
  · exact set
  · exact sent.queue j (List.mem_of_mem_tail later)

theorem connectRto (worded : Worded s) : Worded (tcpConnectRto s) := by
  have released : Worded (tcpReleaseRtoTimer s) := worded.eq rfl rfl
  unfold tcpConnectRto
  generalize tcpReleaseRtoTimer s = t at released
  dsimp only
  split
  · split
    · exact done (released.eq rfl rfl)
    · split
      · exact released
      · rename_i k head
        exact rearmRto ((released.retransmitHead head).eq rfl rfl)
  · exact released

theorem retransmission (worded : Worded s) : Worded (tcpRetransmissionTimeout s) := by
  have released : Worded (tcpReleaseRtoTimer s) := worded.eq rfl rfl
  unfold tcpRetransmissionTimeout
  generalize tcpReleaseRtoTimer s = t at released
  dsimp only
  split
  · unfold tcpNotifyUser
    split
    · exact released.eq rfl rfl
    · exact released.eq rfl rfl
  · rename_i k head
    have resent := released.retransmitHead head
    split
    · exact resent.done.eq rfl rfl
    · have backed : Worded (retransmissionBackoff (HfIp.retransmitHead t k)) := resent.eq rfl rfl
      split
      · unfold tcpHandleFinState
        split
        · exact backed.eq rfl rfl
        · exact backed.eq rfl rfl
        · exact backed
      · exact backed

theorem handler (worded : Worded s) (idle : SacksIdle s.tsk) (h : Handler) :
    Worded (runHandler s h) := by
  have locked : Worded (socketWrAcquire s) := worded.eq rfl rfl
  have release : ∀ {u : Conn}, Worded u → Worded (socketRelease u) := fun kept => kept.eq rfl rfl
  cases h with
  | tcpConnectRto => exact release locked.connectRto
  | tcpRetransmissionTimeout => exact release locked.retransmission
  | tcpSendDelack =>
    have stopped : Worded (tcpReleaseDelackTimer { socketWrAcquire s with tsk.delacks := 0 }) :=
      worded.eq rfl rfl
    exact release (stopped.sendPlainAck (idle.of_view rfl))
  | tcpLinger =>
    have stopped : Worded (stopLinger (socketWrAcquire s)) := worded.eq rfl rfl
    exact release stopped.done
  | tcpUserTimeout =>
    have stopped : Worded (stopLinger (socketWrAcquire s)) := worded.eq rfl rfl
    exact release stopped.abort
  | socketGarbageCollect =>
    unfold runHandler socketGarbageCollect
    dsimp only
    split
    · exact worded.socketFree
    · exact worded

/-! ### Reads -/

theorem receiveReturn (worded : Worded s) (rlen : Int) : Worded (HfIp.receiveReturn s rlen).1 := by
  unfold HfIp.receiveReturn
  dsimp only
  split
  · exact worded.rearmUser
  · exact worded

theorem dequeue (worded : Worded s) (userlen : Nat) : Worded (tcpDataDequeue s userlen).1 := by
  obtain ⟨freed, flags, eq⟩ := dequeueLoop_touches s userlen s.tsk.receiveQueue
  unfold tcpDataDequeue
  dsimp only
  rw [eq]
  split
  · exact worded.eq rfl rfl
  · exact worded.eq rfl rfl

theorem receiveLoop (worded : Worded s) (len rlen : Nat) : Worded (HfIp.receiveLoop s len rlen).1 := by
  have dequeued := worded.dequeue (len - rlen)
  unfold HfIp.receiveLoop
  dsimp only
  split
  · split
    · refine receiveReturn ?_ _
      exact dequeued.eq rfl rfl
    · split
      · exact dequeued.receiveReturn _
      · split
        · exact dequeued.receiveReturn _
        · exact dequeued.eq rfl rfl
  · exact worded.receiveReturn _

theorem read (worded : Worded s) (len : Nat) : Worded (tcpRead s len).1 := by
  unfold tcpRead
  split
  · exact worded
  · split
    · exact worded.eq rfl rfl
    · exact worded.receiveLoop len 0
  iterate 3 exact worded
  exact worded.receiveLoop len 0

/-! ### The receive path -/

theorem cleanRto (worded : Worded s) (una : UInt32) : Worded (tcpCleanRtoQueue s una) := by
  obtain ⟨_, _, _, _, _, eq⟩ := tcpCleanRtoQueue_touches s una
  rw [eq]
  exact worded.fewer (List.dropWhile_sublist _) rfl

theorem newAck (worded : Worded s) (th : TcpHdr) : Worded (inputNewAck s th).1 := by
  rw [inputNewAck_fst]
  split
  · refine cleanRto ?_ _
    unfold tcpRtt
    dsimp only
    split
    · exact worded.eq rfl rfl
    · split
      · exact worded.eq rfl rfl
      · split
        · exact worded.eq rfl rfl
        · exact worded.eq rfl rfl
  · exact worded

theorem ack (worded : Worded s) (th : TcpHdr) : Worded (inputAck s th).1 := by
  unfold inputAck
  split
  · split
    · exact newAck (worded.eq (t := setState s .established) rfl rfl) th
    · exact worded
  iterate 6 exact worded.newAck th
  exact worded

theorem finAcked (worded : Worded s) (idle : SacksIdle s.tsk) (th : TcpHdr) :
    Worded (inputFinAcked s th) := by
  unfold inputFinAcked
  split
  · split
    · exact worded.eq rfl rfl
    · exact worded.eq rfl rfl
    · split
      · exact sendPlainAck (worded.eq rfl rfl) (idle.of_view rfl)
      · exact worded
    · exact worded
  · exact worded

theorem syn (worded : Worded s) (idle : SacksIdle s.tsk) (th : TcpHdr) : Worded (synsentSyn s th) := by
  have acked : Worded (synsentAck s th) ∧ SacksIdle (synsentAck s th).tsk := by
    unfold synsentAck
    dsimp only
    split
    · have moved : Worded { s with
          tsk.tcb.rcvNxt := th.seq + 1, tsk.tcb.irs := th.seq, tsk.tcb.sndUna := th.ackSeq } :=
        worded.eq rfl rfl
      exact ⟨moved.cleanRto _, SacksIdle.cleanRto (s := { s with
        tsk.tcb.rcvNxt := th.seq + 1, tsk.tcb.irs := th.seq, tsk.tcb.sndUna := th.ackSeq })
          (idle.of_view rfl) _⟩
    · exact ⟨worded.eq rfl rfl, idle.of_view rfl⟩
  unfold synsentSyn
  generalize synsentAck s th = t at acked
  obtain ⟨worded, idle⟩ := acked
  dsimp only
  split
  · unfold synsentEstablish
    dsimp only
    have opened : Worded { setState t .established with
        tsk.tcb.sndUna := (setState t .established).tsk.tcb.sndNxt
        tsk.backoff := 0, tsk.rto := 1000 } := worded.eq rfl rfl
    have acked := (opened.sendPlainAck (idle.of_view rfl)).rearmUser
    generalize tcpRearmUserTimeout (tcpSendAck _) = u at acked
    exact acked.eq (tcpParseOpts_minor u th).same.writeQueue rfl
  · rw [tcpSendSynack_minor _ (by simp [setState])]
    exact worded.eq rfl rfl

theorem synsent (worded : Worded s) (idle : SacksIdle s.tsk) (skb : SkBuff) (th : TcpHdr) :
    Worded (tcpSynsent s skb th) :=
  tcpSynsent_cases (worded.free skb) (fun _ _ => worded.reset.free skb) fun _ => (worded.syn idle th).free skb

/- The one ACK with blocks. -/
theorem dataQueue (worded : Worded s) (idle : SacksIdle s.tsk)
    (lower : s.tsk.tcb.rcvNxt ≤ k.seq) : Worded (tcpDataQueue s k).1 := by
  by_cases shut : s.tsk.tcb.rcvWnd = 0
  · unfold tcpDataQueue
    rw [if_pos shut]
    exact worded.free k
  · by_cases hit : k.seq = s.tsk.tcb.rcvNxt
    · unfold tcpDataQueue
      rw [if_neg shut, if_pos hit]
      exact worded.eq rfl rfl
    · have numbered : k.seq ≠ 0 := by
        intro zero
        rw [zero, UInt32.le_zero_iff] at lower
        exact hit (zero.trans lower.symm)
      have entry := @sacksEntry_idle s k idle numbered
      rw [tcpDataQueue_entry shut hit]
      split
      · rename_i sackok
        obtain ⟨first, rest, some⟩ := List.exists_cons_of_ne_nil (@insertOrdered_ne_nil k s.tsk.ofoQueue)
        have ready := entry.ready sackok some
        have filled : Worded { s with tsk := tcpCalculateSacks (sacksEntry s k) } := by
          rw [tcpCalculateSacks_eq entry some]
          exact worded.eq rfl rfl
        refine filled.sendAck ?_
        rw [ready.headerLen]
        omega
      · have filled : Worded { s with tsk := sacksEntry s k } := worded.eq rfl rfl
        exact filled.sendPlainAck entry

theorem text (worded : Worded s) (idle : SacksIdle s.tsk) (th : TcpHdr)
    (lower : s.tsk.tcb.rcvNxt ≤ k.seq) : Worded (inputText s th k).1 := by
  unfold inputText
  split
  iterate 3
    split
    · exact worded.dataQueue idle lower
    · exact worded
  exact worded

theorem fin (worded : Worded s) (idle : SacksIdle s.tsk) : Worded (inputFin s) := by
  have marked : Worded (pollReadable { s with
      tsk.tcb.rcvNxt := s.tsk.tcb.rcvNxt + 1, tsk.flags := s.tsk.flags ||| TCP_FIN }) :=
    worded.eq rfl rfl
  have acked : Worded (recvNotify (tcpSendAck (pollReadable { s with
      tsk.tcb.rcvNxt := s.tsk.tcb.rcvNxt + 1, tsk.flags := s.tsk.flags ||| TCP_FIN }))) :=
    (marked.sendPlainAck (idle.of_view rfl)).eq rfl rfl
  unfold inputFin
  dsimp only
  generalize recvNotify (tcpSendAck (pollReadable { s with
    tsk.tcb.rcvNxt := s.tsk.tcb.rcvNxt + 1, tsk.flags := s.tsk.flags ||| TCP_FIN })) = t at acked
  split
  · exact acked.eq rfl rfl
  · exact acked.eq rfl rfl
  · split
    · exact acked.eq rfl rfl
    · exact acked.eq rfl rfl
  · exact acked.eq rfl rfl
  · exact acked

theorem delack (worded : Worded s) (idle : SacksIdle s.tsk) (th : TcpHdr) (k : SkBuff) :
    Worded (inputDelack s th k) := by
  have stopped : Worded (tcpStopDelackTimer s) := worded.eq rfl rfl
  have quiet : SacksIdle (tcpStopDelackTimer s).tsk := idle.of_view rfl
  unfold inputDelack
  generalize tcpStopDelackTimer s = t at stopped quiet
  dsimp only
  split
  · exact rearmRto ((stopped.sendNext _).eq rfl rfl)
  · have counted : Worded (countDelack t (!th.psh && decide (1000 < k.dlen))) ∧
        SacksIdle (countDelack t (!th.psh && decide (1000 < k.dlen))).tsk := by
      unfold countDelack
      split
      · exact ⟨stopped.eq rfl rfl, quiet.of_view rfl⟩
      · exact ⟨stopped, quiet⟩
    split
    · exact sendPlainAck (counted.1.eq rfl rfl) (counted.2.of_view rfl)
    · split
      · exact counted.1.eq rfl rfl
      · exact counted.1

theorem tail (worded : Worded s) (idle : SacksIdle s.tsk) (th : TcpHdr)
    (lower : s.tsk.tcb.rcvNxt ≤ k.seq) : Worded (inputTail s th k) := by
  have taken := worded.text idle th lower
  have quiet := idle.text th lower
  have finished : Worded (inputTextFin (inputText s th k).1 th (decide (k.seq = s.tsk.tcb.rcvNxt))) ∧
      SacksIdle (inputTextFin (inputText s th k).1 th (decide (k.seq = s.tsk.tcb.rcvNxt))).tsk := by
    unfold inputTextFin
    split
    · exact ⟨taken.fin quiet, quiet.fin⟩
    · exact ⟨taken, quiet⟩
  unfold inputTail inputExpected
  dsimp only
  refine free ?_ _
  split
  iterate 3
    split
    · exact finished.1.delack finished.2 th k
    · exact finished.1
  exact finished.1

theorem otherwise (worded : Worded s) (idle : SacksIdle s.tsk) (th : TcpHdr) (same : k.seq = th.seq) :
    Worded (inputOtherwise s th k) := by
  refine inputOtherwise_cases s th k ?_ ?_ ?_ ?_ ?_ ?_
  · intro _
    refine free ?_ k
    split
    · exact worded
    · exact worded.sendPlainAck idle
  · exact fun _ _ => (worded.free k).eq rfl rfl
  · exact fun _ _ _ => worded.free k
  · exact fun _ _ _ _ _ => (worded.ack th).free k
  · exact fun _ _ _ _ _ _ _ => ((worded.ack th).free k).done
  · intro verified _ _ _ _ _
    refine tail ((worded.ack th).finAcked (idle.ack th) th) ((idle.ack th).finAcked th) th ?_
    rw [inputFinAcked_rcvNxt, inputAck_rcvNxt, same]
    exact (tcpVerifySegment_lower verified).1

theorem segment (worded : Worded s) (idle : SacksIdle s.tsk) (th : TcpHdr) (same : k.seq = th.seq) :
    Worded (tcpInputState s th k) := by
  unfold tcpInputState
  split
  · unfold tcpClosed
    split
    · exact worded.free k
    · exact worded.sendReset.free k
  · exact worded.free k
  · exact worded.synsent idle k th
  · exact worded.otherwise idle th same

end Worded

/-! ### Events -/

theorem exec_worded {e : Event} {r : Reply} (worded : Worded s) (idle : SacksIdle s.tsk)
    (taken : exec s e = some (t, r)) : Worded t := by
  refine exec_pass (P := Worded) ?_ worded taken ?_ ?_ ?_ ?_ ?_ ?_ ?_ ?_ ?_ ?_
  · intro u v quiet kept
    have same : inner v = inner u := quiet
    have queue : (inner v).tsk.writeQueue = (inner u).tsk.writeQueue := by rw [same]
    have out : (inner v).out = (inner u).out := by rw [same]
    exact kept.eq queue out
  · exact fun _ u kept => kept.socketFree
  · exact fun _ _ => worded.eq rfl rfl
  · intro i h _ _ _
    have launched : Worded (started s i) := worded.eq rfl rfl
    exact launched.handler idle h.handler
  · exact fun buf _ _ kept => kept.write buf
  · exact fun len _ _ kept => kept.read len
  · exact fun i b _ _ _ kept => kept.receiveLoop _ _
  · exact fun _ _ kept => kept.close
  · exact fun _ _ => worded.abort
  · exact fun addr port iss _ _ _ kept => kept.connect addr port iss
  · intro th payload _ _ kept
    exact kept.segment (s := socketWrAcquire (tcpInitSegment s th payload).1) idle th rfl

/-! ### What goes out -/

/- A segment that the receiver reads as it was meant: options in their place, or text, and no more of it
   than a frame bears. -/
structure Segment.Plain (seg : Segment) : Prop where
  words : 5 ≤ seg.th.hl.val
  apart : seg.payload = [] ∨ seg.th.hl.val = 5
  short : seg.payload.length ≤ 1460

theorem apart_laws : QueueLaws (fun mss => 0 < mss.toNat ∧ mss ≤ 1460)
    (fun k => k.payload.length ≤ 1460 ∧ (k.payload = [] ∨ k.th.hl = 0 ∨ k.th.hl.val = 5))
    (fun seg => seg.payload.length ≤ 1460 ∧ (seg.payload = [] ∨ seg.th.hl.val = 5)) where
  sizes _ more most := ⟨Nat.lt_trans (by decide) (UInt16.lt_iff_toNat_lt.mp more), most⟩
  text _ _ size text := ⟨Nat.le_trans text.short (UInt16.le_iff_toNat_le.mp size.2), .inr (.inl text.hl)⟩
  fin k fin := by simp [fin.empty]
  syn k syn := by simp [syn.empty]
  sends k k' seg sent kept := by
    obtain ⟨short, apart⟩ := kept
    have five : k.th.hl = 0 ∨ k.th.hl.val = 5 → k'.th.hl.val = 5 := by
      rw [sent.hl]
      rintro (unset | set)
      · rw [if_pos unset]
        rfl
      · rw [if_neg fun zero => by rw [zero] at set; cases set]
        exact set
    rw [sent.payload, sent.sentPayload, sent.sentHl]
    exact ⟨⟨short, apart.imp id fun hl => .inr (five hl)⟩, short, apart.imp id five⟩
  bare seg empty := by simp [empty]

theorem run_plain {trace : List (Event × Reply)} (run : Run exec (fun _ _ _ => True) {} trace s) :
    ∀ seg ∈ s.out, seg.Plain := by
  have spoken : SacksIdle s.tsk ∧ Worded s := by
    induction run with
    | start => exact ⟨⟨rfl, rfl, rfl, by decide, by simp⟩, by simp, by simp⟩
    | next _ _ taken kept => exact ⟨exec_sacks kept.1 taken, exec_worded kept.2 kept.1 taken⟩
  have carried := apart_laws.run (fun _ size => size.1) ⟨by decide, by decide⟩ run
  intro seg member
  obtain ⟨short, apart⟩ := carried.out seg member
  exact ⟨spoken.2.out seg member, apart, short⟩

end HfIp
