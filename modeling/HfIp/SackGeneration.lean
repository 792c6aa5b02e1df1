import HfIp.Sacks
import HfIp.BackoffEvents
import HfIp.SequenceOrder

/- No block outlives the segment that it was built for, in any run. -/
namespace HfIp

open Transition

/- What the blocks are built from, and the blocks. -/
def sackView (tsk : TcpSock) : Nat × List SackBlock × Bool × Nat × List SkBuff :=
  (tsk.sacklen, tsk.sacks, tsk.sacksOob, tsk.sacksAllowed, tsk.ofoQueue)

variable {s t : Conn} {th : TcpHdr} {skb : SkBuff}

namespace SacksIdle

theorem of_view {tsk tsk' : TcpSock} (idle : SacksIdle tsk) (same : sackView tsk' = sackView tsk) :
    SacksIdle tsk' := by
  simp only [sackView, Prod.mk.injEq] at same
  obtain ⟨sacklen, sacks, inside, allowed, queue⟩ := same
  exact ⟨sacklen.trans idle.sacklen, sacks.trans idle.sacks, inside.trans idle.inside,
    allowed ▸ idle.allowed, queue ▸ idle.numbered⟩

/- The queue may lose buffers. -/
theorem fewer {tsk tsk' : TcpSock} {queue : List SkBuff} (idle : SacksIdle tsk)
    (some : ∀ k ∈ queue, k ∈ tsk.ofoQueue)
    (same : sackView tsk' = sackView { tsk with ofoQueue := queue }) : SacksIdle tsk' :=
  @of_view { tsk with ofoQueue := queue } _ ⟨idle.sacklen, idle.sacks, idle.inside, idle.allowed,
    fun k member => idle.numbered k (some k member)⟩ same

/-! ### Sending -/

/- Without a block no option is written. -/
theorem transmit (idle : SacksIdle s.tsk) (skb : SkBuff) (seq : UInt32) :
    SacksIdle (tcpTransmitSkb s skb seq).1.tsk := by
  have clear : (s.tsk.sacks.getD 0 {}).left = 0 := by
    rw [idle.sacks]
    rfl
  have none : ∀ hdr, (tcpWriteOptions s.tsk hdr).1 = s.tsk := by
    intro hdr
    unfold tcpWriteOptions
    rw [if_pos (by rw [decide_eq_true clear, Bool.or_true])]
  unfold tcpTransmitSkb
  dsimp only
  generalize (if skb.th.hl = 0 then { skb.th with hl := 5 } else skb.th) = hdr
  split
  · rw [none]
    exact idle
  · exact idle

theorem sendAck (idle : SacksIdle s.tsk) : SacksIdle (tcpSendAck s).tsk := by
  unfold tcpSendAck
  split
  · exact idle
  · dsimp only
    rw [freeSkb_tsk]
    exact transmit (s := (tcpAllocSkb s (tcpOptionsLen s.tsk) []).1) idle _ _

theorem rearmRto (idle : SacksIdle s.tsk) : SacksIdle (tcpRearmRtoTimer s).tsk := by
  obtain ⟨_, _, eq⟩ := tcpRearmRtoTimer_touches s
  rw [eq]
  exact idle.of_view rfl

theorem rearmUser (idle : SacksIdle s.tsk) : SacksIdle (tcpRearmUserTimeout s).tsk := by
  unfold tcpRearmUserTimeout
  split
  · exact idle
  · exact idle.of_view rfl

theorem queueTransmit (idle : SacksIdle s.tsk) (skb : SkBuff) :
    SacksIdle (tcpQueueTransmitSkb s skb).tsk := by
  have armed : SacksIdle (if skbQueueEmpty s.tsk.writeQueue then tcpRearmRtoTimer s else s).tsk := by
    split
    · exact idle.rearmRto
    · exact idle
  unfold tcpQueueTransmitSkb
  dsimp only
  generalize (if skbQueueEmpty s.tsk.writeQueue then tcpRearmRtoTimer s else s) = t at armed
  split
  · exact (armed.transmit skb t.tsk.tcb.sndNxt).of_view rfl
  · exact armed.of_view rfl

theorem sendNextLoop (idle : SacksIdle s.tsk) (amount : Nat) (queue : List SkBuff) :
    SacksIdle (HfIp.sendNextLoop s amount queue).1.tsk := by
  induction amount generalizing s queue with
  | zero => exact idle
  | succ amount ih =>
    cases queue with
    | nil => exact idle
    | cons next rest =>
      have sent := idle.transmit next s.tsk.tcb.sndNxt
      exact ih (s := (numberSkb (tcpTransmitSkb s next s.tsk.tcb.sndNxt).1
        (tcpTransmitSkb s next s.tsk.tcb.sndNxt).2).1) (sent.of_view rfl) rest

theorem sendNext (idle : SacksIdle s.tsk) (amount : Nat) : SacksIdle (tcpSendNext s amount).tsk :=
  (idle.sendNextLoop amount s.tsk.writeQueue).of_view rfl

theorem sendLoop (mss fuel : Nat) (buf : List UInt8) (idle : SacksIdle s.tsk) :
    SacksIdle (tcpSendLoop mss fuel s buf).tsk := by
  induction fuel generalizing s buf with
  | zero => exact idle
  | succ fuel ih =>
    rw [tcpSendLoop]
    split
    · exact idle
    · exact ih _ (queueTransmit (s := (tcpAllocSkb s 0 (buf.take mss)).1) idle _)

theorem write (idle : SacksIdle s.tsk) (buf : List UInt8) : SacksIdle (tcpWrite s buf).1.tsk := by
  have sent : SacksIdle (tcpSend s buf).tsk :=
    (sendLoop (s := { s with accepted := s.accepted ++ buf }) _ _ _ idle).rearmUser
  unfold tcpWrite
  split
  · exact idle
  · split
    · exact sent
    · exact sent
    · exact idle

theorem sendReset (idle : SacksIdle s.tsk) : SacksIdle (tcpSendReset s).tsk := by
  unfold tcpSendReset
  dsimp only
  rw [freeSkb_tsk]
  refine transmit ?_ _ _
  exact idle.of_view rfl

theorem queueFin (idle : SacksIdle s.tsk) : SacksIdle (tcpQueueFin s).tsk :=
  queueTransmit (s := (tcpAllocSkb { s with fins := s.fins + 1 } 0 []).1) idle _

theorem connect (idle : SacksIdle s.tsk) (addr : SockAddr) (port : UInt16) (iss : UInt32) :
    SacksIdle (tcpV4Connect s addr port iss).tsk := by
  unfold tcpV4Connect tcpConnect
  refine @SacksIdle.of_view (tcpSendSyn _).tsk _ ?_ rfl
  unfold tcpSendSyn
  split
  · exact idle.of_view rfl
  · refine queueTransmit ?_ _
    exact idle.of_view rfl

/-! ### Ends of the connection -/

theorem clearQueues (idle : SacksIdle s.tsk) : SacksIdle (tcpClearQueues s).tsk := by
  obtain ⟨_, eq⟩ := skbQueueFree_eq s s.tsk.ofoQueue
  unfold tcpClearQueues
  rw [eq]
  exact @SacksIdle.fewer _ _ [] idle (by simp) rfl

theorem done (idle : SacksIdle s.tsk) : SacksIdle (tcpDone s).tsk := by
  have cleared : SacksIdle (tcpFree (setState { s with ended := true } .closing)).tsk :=
    (clearQueues (s := tcpClearTimers (setState { s with ended := true } .closing))
      (idle.of_view rfl)).of_view rfl
  unfold tcpDone socketDelete
  split
  · exact cleared
  · exact cleared

theorem reset (idle : SacksIdle s.tsk) : SacksIdle (tcpReset s).tsk := by
  unfold tcpReset
  dsimp only
  split
  · exact done (idle.of_view rfl)
  · exact done (idle.of_view rfl)
  · exact idle.of_view rfl
  · exact done (idle.of_view rfl)

theorem close (idle : SacksIdle s.tsk) : SacksIdle (tcpClose s).1.tsk := by
  unfold tcpClose
  split
  iterate 6 exact idle.of_view rfl
  iterate 3 exact idle.done
  · exact queueFin (idle.of_view rfl)
  · exact idle.queueFin

theorem free (idle : SacksIdle s.tsk) : SacksIdle (socketFree s).tsk := by
  obtain ⟨_, eq⟩ := socketFree_eq s
  rw [eq]
  exact idle.of_view rfl

/-! ### Timers -/

theorem retransmitHead (idle : SacksIdle s.tsk) (skb : SkBuff) :
    SacksIdle (HfIp.retransmitHead s skb).tsk :=
  (idle.transmit skb s.tsk.tcb.sndUna).of_view rfl

theorem connectRto (idle : SacksIdle s.tsk) : SacksIdle (tcpConnectRto s).tsk := by
  have released : SacksIdle (tcpReleaseRtoTimer s).tsk := idle.of_view rfl
  unfold tcpConnectRto
  generalize tcpReleaseRtoTimer s = t at released
  dsimp only
  split
  · split
    · exact done (released.of_view rfl)
    · split
      · exact released
      · rename_i k _
        exact rearmRto ((released.retransmitHead k).of_view rfl)
  · exact released

theorem retransmission (idle : SacksIdle s.tsk) : SacksIdle (tcpRetransmissionTimeout s).tsk := by
  have released : SacksIdle (tcpReleaseRtoTimer s).tsk := idle.of_view rfl
  unfold tcpRetransmissionTimeout
  generalize tcpReleaseRtoTimer s = t at released
  dsimp only
  split
  · unfold tcpNotifyUser
    split
    · exact released.of_view rfl
    · exact released.of_view rfl
  · rename_i k _
    have resent := released.retransmitHead k
    split
    · exact resent.done.of_view rfl
    · have backed : SacksIdle (retransmissionBackoff (HfIp.retransmitHead t k)).tsk := resent.of_view rfl
      split
      · unfold tcpHandleFinState
        split
        · exact backed.of_view rfl
        · exact backed.of_view rfl
        · exact backed
      · exact backed

theorem handler (idle : SacksIdle s.tsk) (h : Handler) : SacksIdle (runHandler s h).tsk := by
  cases h with
  | tcpConnectRto => exact connectRto (s := socketWrAcquire s) idle
  | tcpRetransmissionTimeout => exact retransmission (s := socketWrAcquire s) idle
  | tcpSendDelack => exact sendAck (idle.of_view rfl)
  | tcpLinger => exact done (idle.of_view rfl)
  | tcpUserTimeout => exact done (sendReset (idle.of_view rfl))
  | socketGarbageCollect =>
    unfold runHandler socketGarbageCollect
    dsimp only
    split
    · exact idle.free
    · exact idle

/-! ### Reads -/

theorem receiveReturn (idle : SacksIdle s.tsk) (rlen : Int) :
    SacksIdle (HfIp.receiveReturn s rlen).1.tsk := by
  unfold HfIp.receiveReturn
  dsimp only
  split
  · exact idle.rearmUser
  · exact idle

theorem dequeue (idle : SacksIdle s.tsk) (userlen : Nat) :
    SacksIdle (tcpDataDequeue s userlen).1.tsk := by
  obtain ⟨freed, flags, eq⟩ := dequeueLoop_touches s userlen s.tsk.receiveQueue
  unfold tcpDataDequeue
  dsimp only
  rw [eq]
  split
  · exact idle.of_view rfl
  · exact idle.of_view rfl

theorem receiveLoop (idle : SacksIdle s.tsk) (len rlen : Nat) :
    SacksIdle (HfIp.receiveLoop s len rlen).1.tsk := by
  have dequeued := idle.dequeue (len - rlen)
  unfold HfIp.receiveLoop
  dsimp only
  split
  · split
    · refine receiveReturn ?_ _
      exact dequeued.of_view rfl
    · split
      · exact dequeued.receiveReturn _
      · split
        · exact dequeued.receiveReturn _
        · exact dequeued.of_view rfl
  · exact idle.receiveReturn _

theorem read (idle : SacksIdle s.tsk) (len : Nat) : SacksIdle (tcpRead s len).1.tsk := by
  unfold tcpRead
  split
  · exact idle
  · split
    · exact idle.of_view rfl
    · exact idle.receiveLoop len 0
  iterate 3 exact idle
  exact idle.receiveLoop len 0

/-! ### The receive path -/

theorem cleanRto (idle : SacksIdle s.tsk) (una : UInt32) : SacksIdle (tcpCleanRtoQueue s una).tsk := by
  obtain ⟨_, _, _, _, _, eq⟩ := tcpCleanRtoQueue_touches s una
  rw [eq]
  exact idle.of_view rfl

theorem rtt (idle : SacksIdle s.tsk) : SacksIdle (tcpRtt s).tsk := by
  unfold tcpRtt
  dsimp only
  split
  · exact idle
  · split
    · exact idle
    · split
      · exact idle
      · exact idle.of_view rfl

theorem newAck (idle : SacksIdle s.tsk) (th : TcpHdr) : SacksIdle (inputNewAck s th).1.tsk := by
  rw [inputNewAck_fst]
  split
  · refine cleanRto (rtt ?_) _
    exact idle.of_view rfl
  · exact idle

theorem ack (idle : SacksIdle s.tsk) (th : TcpHdr) : SacksIdle (inputAck s th).1.tsk := by
  unfold inputAck
  split
  · split
    · refine newAck ?_ th
      exact idle.of_view rfl
    · exact idle
  iterate 6 exact idle.newAck th
  exact idle

theorem finAcked (idle : SacksIdle s.tsk) (th : TcpHdr) : SacksIdle (inputFinAcked s th).tsk := by
  unfold inputFinAcked
  split
  · split
    · exact idle.of_view rfl
    · exact idle.of_view rfl
    · split
      · exact sendAck (idle.of_view rfl)
      · exact idle
    · exact idle
  · exact idle

theorem parsed (idle : SacksIdle s.tsk) (th : TcpHdr) : SacksIdle (tcpParseOpts s.tsk th) := by
  unfold tcpParseOpts
  dsimp only
  generalize parseOptsLoop th.data (UInt8.ofNat (tcpHlen th) - 20).toNat 0
    (UInt8.ofNat (tcpHlen th) - 20) { smss := s.tsk.smss } = seen
  have few : ∀ tsopt : Bool, (if tsopt = true then 3 else 4) ≤ 4 := by decide
  split
  · exact ⟨idle.sacklen, idle.sacks, idle.inside, few _, idle.numbered⟩
  · exact idle.of_view rfl

theorem establish (idle : SacksIdle s.tsk) (th : TcpHdr) : SacksIdle (synsentEstablish s th).tsk := by
  unfold synsentEstablish
  dsimp only
  have sent : SacksIdle (tcpRearmUserTimeout (tcpSendAck { setState s .established with
      tsk.tcb.sndUna := (setState s .established).tsk.tcb.sndNxt
      tsk.backoff := 0, tsk.rto := 1000 })).tsk := by
    refine rearmUser (sendAck ?_)
    exact idle.of_view rfl
  generalize tcpRearmUserTimeout (tcpSendAck _) = t at sent
  exact (sent.parsed th).of_view rfl

theorem syn (idle : SacksIdle s.tsk) (th : TcpHdr) : SacksIdle (synsentSyn s th).tsk := by
  have acked : SacksIdle (synsentAck s th).tsk := by
    unfold synsentAck
    dsimp only
    split
    · refine cleanRto ?_ _
      exact idle.of_view rfl
    · exact idle.of_view rfl
  unfold synsentSyn
  dsimp only
  split
  · exact acked.establish th
  · rw [tcpSendSynack_minor _ (by simp [setState])]
    exact acked.of_view rfl

theorem synsent (idle : SacksIdle s.tsk) (skb : SkBuff) (th : TcpHdr) :
    SacksIdle (tcpSynsent s skb th).tsk := by
  unfold tcpSynsent
  dsimp only
  split
  · rwa [freeSkb_tsk]
  · split
    · rwa [freeSkb_tsk]
    · split
      · rw [freeSkb_tsk]
        exact idle.reset
      · split
        · rwa [freeSkb_tsk]
        · rw [freeSkb_tsk]
          exact idle.syn th

/- Text out of sequence is ahead of `rcv_nxt`, so its number is not zero. -/
theorem dataQueue (idle : SacksIdle s.tsk) (opened : s.tsk.state ≠ .close)
    (lower : s.tsk.tcb.rcvNxt ≤ skb.seq) : SacksIdle (tcpDataQueue s skb).1.tsk := by
  by_cases shut : s.tsk.tcb.rcvWnd = 0
  · unfold tcpDataQueue
    rw [if_pos shut]
    dsimp only
    rwa [freeSkb_tsk]
  · by_cases hit : skb.seq = s.tsk.tcb.rcvNxt
    · unfold tcpDataQueue
      rw [if_neg shut, if_pos hit]
      have parts := consumeLoop_split (s.tsk.tcb.rcvNxt + skb.dlen) s.tsk.ofoQueue
      refine @SacksIdle.fewer _ _ (consumeLoop (s.tsk.tcb.rcvNxt + skb.dlen) s.tsk.ofoQueue).2.2 idle ?_ rfl
      intro k member
      rw [← parts]
      exact List.mem_append_right _ member
    · have numbered : skb.seq ≠ 0 := by
        intro zero
        rw [zero, UInt32.le_zero_iff] at lower
        exact hit (zero.trans lower.symm)
      have entry := @sacksEntry_idle s skb idle numbered
      cases sackok : s.tsk.sackok with
      | true =>
        rw [(tcpDataQueue_sacked idle numbered opened shut hit sackok).1]
        exact entry
      | false =>
        rw [tcpDataQueue_entry shut hit, if_neg (by rw [sackok]; exact Bool.false_ne_true)]
        exact sendAck (s := { s with tsk := sacksEntry s skb }) entry

theorem text (idle : SacksIdle s.tsk) (th : TcpHdr) (lower : s.tsk.tcb.rcvNxt ≤ skb.seq) :
    SacksIdle (inputText s th skb).1.tsk := by
  unfold inputText
  split
  iterate 3
    rename_i at_state
    split
    · exact idle.dataQueue (by rw [at_state]; exact TcpState.noConfusion) lower
    · exact idle
  exact idle

theorem fin (idle : SacksIdle s.tsk) : SacksIdle (inputFin s).tsk := by
  have acked : SacksIdle (recvNotify (tcpSendAck (pollReadable { s with
      tsk.tcb.rcvNxt := s.tsk.tcb.rcvNxt + 1, tsk.flags := s.tsk.flags ||| TCP_FIN }))).tsk :=
    (sendAck (s := pollReadable { s with tsk.tcb.rcvNxt := s.tsk.tcb.rcvNxt + 1
                                         tsk.flags := s.tsk.flags ||| TCP_FIN })
      (idle.of_view rfl)).of_view rfl
  unfold inputFin
  dsimp only
  generalize recvNotify (tcpSendAck (pollReadable { s with
    tsk.tcb.rcvNxt := s.tsk.tcb.rcvNxt + 1, tsk.flags := s.tsk.flags ||| TCP_FIN })) = t at acked
  split
  · exact acked.of_view rfl
  · exact acked.of_view rfl
  · split
    · exact acked.of_view rfl
    · exact acked.of_view rfl
  · exact acked.of_view rfl
  · exact acked

theorem delack (idle : SacksIdle s.tsk) (th : TcpHdr) (skb : SkBuff) :
    SacksIdle (inputDelack s th skb).tsk := by
  have stopped : SacksIdle (tcpStopDelackTimer s).tsk := idle.of_view rfl
  unfold inputDelack
  generalize tcpStopDelackTimer s = t at stopped
  dsimp only
  split
  · exact rearmRto ((stopped.sendNext _).of_view rfl)
  · have counted : SacksIdle (countDelack t (!th.psh && decide (1000 < skb.dlen))).tsk := by
      unfold countDelack
      split
      · exact stopped.of_view rfl
      · exact stopped
    split
    · exact sendAck (counted.of_view rfl)
    · split
      · exact counted.of_view rfl
      · exact counted

theorem tail (idle : SacksIdle s.tsk) (th : TcpHdr) (lower : s.tsk.tcb.rcvNxt ≤ skb.seq) :
    SacksIdle (inputTail s th skb).tsk := by
  have finished : SacksIdle (inputTextFin (inputText s th skb).1 th
      (decide (skb.seq = s.tsk.tcb.rcvNxt))).tsk := by
    unfold inputTextFin
    split
    · exact (idle.text th lower).fin
    · exact idle.text th lower
  unfold inputTail inputExpected
  dsimp only
  rw [freeSkb_tsk]
  split
  iterate 3
    split
    · exact finished.delack th skb
    · exact finished
  exact finished

theorem otherwise (idle : SacksIdle s.tsk) (th : TcpHdr) (same : skb.seq = th.seq) :
    SacksIdle (inputOtherwise s th skb).tsk := by
  refine inputOtherwise_cases (motive := fun u => SacksIdle u.tsk) s th skb ?_ ?_ ?_ ?_ ?_ ?_
  · intro _
    rw [freeSkb_tsk]
    split
    · exact idle
    · exact idle.sendAck
  · intro _ _
    refine @SacksIdle.of_view (freeSkb s skb).tsk _ ?_ rfl
    rwa [freeSkb_tsk]
  · intro _ _ _
    rwa [freeSkb_tsk]
  · intro _ _ _ _ _
    rw [freeSkb_tsk]
    exact idle.ack th
  · intro _ _ _ _ _ _ _
    refine done ?_
    rw [freeSkb_tsk]
    exact idle.ack th
  · intro verified _ _ _ _ _
    refine (idle.ack th).finAcked th |>.tail th ?_
    rw [inputFinAcked_rcvNxt, inputAck_rcvNxt, same]
    exact (tcpVerifySegment_lower verified).1

theorem segment (idle : SacksIdle s.tsk) (th : TcpHdr) (same : skb.seq = th.seq) :
    SacksIdle (tcpInputState s th skb).tsk := by
  unfold tcpInputState
  split
  · unfold tcpClosed
    split
    · rwa [freeSkb_tsk]
    · rw [freeSkb_tsk]
      exact idle.sendReset
  · unfold tcpListen
    rwa [freeSkb_tsk]
  · exact idle.synsent skb th
  · exact idle.otherwise th same

end SacksIdle

theorem exec_sacks {e : Event} {r : Reply} (idle : SacksIdle s.tsk) (taken : exec s e = some (t, r)) :
    SacksIdle t.tsk := by
  refine exec_pass (P := fun u => SacksIdle u.tsk) ?_ idle taken ?_ ?_ ?_ ?_ ?_ ?_ ?_ ?_ ?_ ?_
  · intro u v quiet kept
    have same : inner v = inner u := quiet
    have view : sackView (inner v).tsk = sackView (inner u).tsk := by rw [same]
    exact kept.of_view view
  · exact fun _ u kept => kept.free
  · exact fun _ _ => idle
  · exact fun i h _ _ _ => SacksIdle.handler (s := started s i) idle h.handler
  · exact fun buf _ _ kept => kept.write buf
  · exact fun len _ _ kept => kept.read len
  · exact fun i b _ _ _ kept => kept.receiveLoop _ _
  · exact fun _ _ kept => kept.close
  · exact fun _ _ => idle.sendReset.done
  · exact fun addr port iss _ _ _ kept => kept.connect addr port iss
  · exact fun th payload _ _ kept => kept.segment th rfl

/-! ### The receive window -/

/- The window is open wherever text is taken in. -/
def Windowed (s : Conn) : Prop :=
  s.tsk.tcb.rcvWnd ≠ 0 ∨ s.tsk.state = .close ∨ s.tsk.state.aside = true

theorem Windowed.reads (open_ : Windowed s) (reads : Reads s t) : Windowed t := by
  unfold Windowed at open_ ⊢
  rw [reads.rcvWnd]
  rcases open_ with wide | closed | gone
  · exact .inl wide
  · rcases reads.moves with same | aside | ⟨text, -⟩
    · exact .inr (.inl (same.trans closed))
    · exact .inr (.inr aside)
    · rw [closed] at text
      cases text
  · rcases reads.moves with same | aside | ⟨text, -⟩
    · exact .inr (.inr (by rw [same]; exact gone))
    · exact .inr (.inr aside)
    · cases at_state : s.tsk.state <;> simp_all [TcpState.aside, TcpState.phase]

theorem Windowed.wide (open_ : Windowed s) (opened : s.tsk.state ≠ .close)
    (live : s.tsk.state.aside = false) : s.tsk.tcb.rcvWnd ≠ 0 := by
  rcases open_ with wide | closed | gone
  · exact wide
  · exact absurd closed opened
  · rw [gone] at live
    cases live

theorem Windowed.of_aside (gone : s.tsk.state.aside = true) : Windowed s := .inr (.inr gone)

theorem Windowed.of_eq (open_ : Windowed s) (window : t.tsk.tcb.rcvWnd = s.tsk.tcb.rcvWnd)
    (state : t.tsk.state = s.tsk.state) : Windowed t := by
  unfold Windowed
  rw [window, state]
  exact open_

theorem synsentSyn_window (th : TcpHdr) : (synsentSyn s th).tsk.tcb.rcvWnd = s.tsk.tcb.rcvWnd := by
  have acked : (synsentAck s th).tsk.tcb.rcvWnd = s.tsk.tcb.rcvWnd := (synsentAck_reads s th).rcvWnd
  unfold synsentSyn
  generalize synsentAck s th = u at acked
  dsimp only
  split
  · exact (synsentEstablish_reads u th).rcvWnd.trans acked
  · rw [tcpSendSynack_minor _ (by simp [setState])]
    exact acked

theorem tcpDataQueue_window (s : Conn) (skb : SkBuff) :
    (tcpDataQueue s skb).1.tsk.tcb.rcvWnd = s.tsk.tcb.rcvWnd := by
  unfold tcpDataQueue
  split
  · exact (freeSkb_reads s skb).rcvWnd
  · split
    · rfl
    · dsimp only
      rw [(tcpSendAck_reads _).rcvWnd]
      split
      · exact congrArg Tcb.rcvWnd (tcpCalculateSacks_minor { s with
          tsk.ofoQueue := (tcpDataInsertOrdered s.tsk.ofoQueue skb).1 }).same.tcb
      · rfl

theorem inputFin_window (s : Conn) : (inputFin s).tsk.tcb.rcvWnd = s.tsk.tcb.rcvWnd := by
  unfold inputFin
  dsimp only
  have acked : (recvNotify (tcpSendAck (pollReadable { s with
      tsk.tcb.rcvNxt := s.tsk.tcb.rcvNxt + 1, tsk.flags := s.tsk.flags ||| TCP_FIN }))).tsk.tcb.rcvWnd =
      s.tsk.tcb.rcvWnd := (tcpSendAck_reads _).rcvWnd
  generalize recvNotify (tcpSendAck (pollReadable { s with
    tsk.tcb.rcvNxt := s.tsk.tcb.rcvNxt + 1, tsk.flags := s.tsk.flags ||| TCP_FIN })) = u at acked
  have gone := (tcpEnterTimeWait_reads u).rcvWnd.trans acked
  split
  · exact acked
  · exact acked
  · split
    · exact gone
    · exact acked
  · exact gone
  · exact acked

theorem receiveLoop_window (s : Conn) (len rlen : Nat) (open_ : Windowed s) :
    Windowed (receiveLoop s len rlen).1 := by
  by_cases room : rlen < len
  · obtain ⟨d, bytes, dequeued, -, reads⟩ := receiveLoop_spec s len rlen room
    obtain ⟨freed, rest⟩ := dequeued.rest
    refine Windowed.reads ?_ reads
    rw [rest]
    exact open_
  · rw [receiveLoop_full s len rlen room]
    exact open_.reads (receiveReturn_reads s rlen)

theorem Windowed.opens (open_ : Windowed s) (waiting : s.tsk.state = .synReceived) :
    Windowed (setState s .established) :=
  .inl (open_.wide (by rw [waiting]; exact TcpState.noConfusion) (by rw [waiting]; rfl))

theorem Windowed.inputAck (open_ : Windowed s) (th : TcpHdr) : Windowed (HfIp.inputAck s th).1 :=
  inputAck_reads_rule (fun _ _ reads held => held.reads reads) open_ open_.opens

theorem exec_windowed {e : Event} {r : Reply} (open_ : Windowed s) (taken : exec s e = some (t, r)) :
    Windowed t := by
  refine exec_reads_rule ?_ (fun u v reads held => held.reads reads) open_ taken ?_ ?_ ?_ ?_ ?_
  · intro u v idle held
    have window : v.tsk.tcb.rcvWnd = u.tsk.tcb.rcvWnd := congrArg (·.tsk.tcb.rcvWnd) idle
    exact held.of_eq window idle.stays.state
  · intro u held
    obtain ⟨freed, eq⟩ := socketFree_eq u
    rw [eq]
    exact held
  · exact fun _ _ _ => open_
  · exact fun u len rlen _ held => receiveLoop_window u len rlen held
  · intro u addr port iss _ closed _
    refine .inl ?_
    rw [(tcpV4Connect_reads u addr port iss closed).rcvWnd]
    show tcpSelectInitialWindow ≠ 0
    decide
  · intro th payload _ locked
    refine tcpInputState_reads_rule (fun u v reads held => held.reads reads) locked ?_ ?_ ?_ ?_ ?_ ?_ ?_
    · intro waiting _
      have gone (u : Conn) : Windowed (tcpDone u) := .of_aside (by rw [tcpDone_state]; rfl)
      unfold tcpReset
      dsimp only
      split
      · exact gone _
      · exact gone _
      · exact locked
      · exact gone _
    · intro taken
      refine .inl ?_
      rw [synsentSyn_window]
      exact locked.wide (by rw [taken.waiting]; exact TcpState.noConfusion) (by rw [taken.waiting]; rfl)
    · exact locked.opens
    · exact fun _ _ _ u _ _ held => held
    · exact fun u _ held => held
    · exact fun u _ _ _ held => held.of_eq (tcpDataQueue_window u _) (tcpDataQueue_stays u _).state
    · intro u phase _ _ _ _ held
      have state := (inputFin_moves u).1
      cases aside : u.tsk.state.aside with
      | false =>
        refine .inl ?_
        rw [inputFin_window]
        refine held.wide (fun closed => phase ?_) aside
        rw [closed]
        rfl
      | true =>
        refine .of_aside ?_
        rw [state]
        cases at_state : u.tsk.state <;> simp_all [TcpState.aside, TcpState.afterFin]

/-! ### The calls -/

/-- A segment gets to `tcp_calculate_sacks`: `tcp_data_queue` is called in `u`, for text that is not in
    sequence. -/
structure CalculatesSacks (s : Conn) (th : TcpHdr) (payload : List UInt8) (u : Conn) (skb : SkBuff) :
    Prop where
  registered : s.sock.registered = true
  checked : s.tsk.state.synchronizes = true
  buffer : skb = (tcpInitSegment s th payload).2
  passes : Passes (arriving s th payload) th skb
  entry : u = inputFinAcked (inputAck (arriving s th payload) th).1 th
  text : u.tsk.state.phase = .text
  worth : th.psh = true ∨ 0 < skb.dlen
  miss : skb.seq ≠ u.tsk.tcb.rcvNxt
  sackok : u.tsk.sackok = true

theorem sacks_run {trace : List (Event × Reply)} (run : Run exec (fun _ _ _ => True) {} trace s) :
    SacksIdle s.tsk ∧ Windowed s := by
  refine run.invariant_state (P := fun s => SacksIdle s.tsk ∧ Windowed s) ?_ ?_
  · exact ⟨⟨rfl, rfl, rfl, by decide, by simp⟩, .inr (.inl rfl)⟩
  · rintro _ u e t r ⟨idle, open_⟩ _ taken
    exact ⟨exec_sacks idle taken, exec_windowed open_ taken⟩

/-- In every run the blocks are inside their array whenever they are calculated, and where the queue is
    in order the ACK reports its first runs. -/
theorem sack_generation {trace : List (Event × Reply)} {payload : List UInt8} {u : Conn}
    (run : Run exec (fun _ _ _ => True) {} trace s) (call : CalculatesSacks s th payload u skb) :
    (sacksEntry u skb).sacklen ≤ 4 ∧ (sacksEntry u skb).sacksOob = false ∧
      (tcpCalculateSacks (sacksEntry u skb)).sacklen ≤ 4 ∧
      (tcpCalculateSacks (sacksEntry u skb)).sacksOob = false ∧
      (SackQueue u.tsk.tcb.rcvNxt (sacksEntry u skb).ofoQueue →
        SacksSent u (sacksEntry u skb) (tcpDataQueue u skb).1) := by
  obtain ⟨before, open_⟩ := sacks_run run
  have idle : SacksIdle (arriving s th payload).tsk := before
  have here : SacksIdle u.tsk := by
    rw [call.entry]
    exact (idle.ack th).finAcked th
  have opened : u.tsk.state ≠ .close := by
    intro closed
    have text := call.text
    rw [closed] at text
    cases text
  have rcvNxt : u.tsk.tcb.rcvNxt = (arriving s th payload).tsk.tcb.rcvNxt := by
    rw [call.entry, inputFinAcked_rcvNxt, inputAck_rcvNxt]
  have numbered : skb.seq ≠ 0 := by
    intro zero
    have lower := (tcpVerifySegment_lower call.passes.verified).1
    have same : skb.seq = th.seq := by
      rw [call.buffer]
      rfl
    rw [← rcvNxt, ← same, zero] at lower
    exact call.miss (zero.trans (UInt32.toNat_inj.mp (Nat.le_antisymm (Nat.zero_le _) lower)))
  have wide : u.tsk.tcb.rcvWnd ≠ 0 := by
    refine Windowed.wide ?_ opened ?_
    · rw [call.entry]
      have locked : Windowed (arriving s th payload) := open_
      refine inputFinAcked_reads_rule (fun u v reads held => held.reads reads) ?_ fun _ _ => ?_
      · exact locked.inputAck th
      · exact locked.inputAck th
    · have text := call.text
      cases at_state : u.tsk.state <;> simp_all [TcpState.phase, TcpState.aside]
  obtain ⟨-, seg, blocks, ready, -⟩ :=
    tcpDataQueue_sacked here numbered opened wide call.miss call.sackok
  refine ⟨?_, here.inside, ?_, ready.inside, ?_⟩
  · show u.tsk.sacklen ≤ 4
    rw [here.sacklen]
    exact Nat.zero_le _
  · rw [ready.sacklen]
    exact ready.few
  · exact tcpDataQueue_reports here numbered opened wide call.miss call.sackok

/- The peer has permitted SACK and sent [3] of its stream; [6] comes next. -/
def sackHandshake : List Event :=
  [.fcntlSetfl (O_RDWR ||| O_NONBLOCK), .connect ⟨2, 16, 80, parseIpv4 10 0 0 5⟩ 40001 1000,
    .segment { peerHdr 5000 1001 with
      syn := true, hl := 6, data := [TCP_OPT_SACK_OK, TCP_OPTLEN_SACK, TCP_OPT_NOOP, TCP_OPT_NOOP] } [],
    .segment (peerHdr 5003 1001) [3]]

def sixth : TcpHdr := peerHdr 5006 1001

def sixthEntry (s : Conn) : Conn := inputFinAcked (inputAck (arriving s sixth [6]) sixth).1 sixth

def sixthSkb (s : Conn) : SkBuff := (tcpInitSegment s sixth [6]).2

def SixthNext (s : Conn) : Prop :=
  s.sock.registered = true ∧ s.tsk.state.synchronizes = true ∧
    Passes (arriving s sixth [6]) sixth (sixthSkb s) ∧ (sixthEntry s).tsk.state.phase = .text ∧
    0 < (sixthSkb s).dlen ∧ (sixthSkb s).seq ≠ (sixthEntry s).tsk.tcb.rcvNxt ∧
    (sixthEntry s).tsk.sackok = true ∧ (sixthEntry s).tsk.tcb.rcvNxt = 5001 ∧
    (sacksEntry (sixthEntry s) (sixthSkb s)).sacksAllowed = 4 ∧
    (sacksEntry (sixthEntry s) (sixthSkb s)).ofoQueue.map (fun k => (k.seq, k.endSeq)) =
      [(5003, 5004), (5006, 5007)]

instance : DecidablePred SixthNext := fun s => by
  unfold SixthNext
  infer_instance

theorem sack_generation_two : ∃ trace s u skb, Run exec (fun _ _ _ => True) {} trace s ∧
    CalculatesSacks s sixth [6] u skb ∧
    ∃ seg blocks, (tcpDataQueue u skb).1.out = u.out ++ [seg] ∧
      readSackOption seg.th.data = some blocks ∧
      blocks.map SackBlock.bounds = [(5006, 5007), (5003, 5004)] := by
  obtain ⟨trace, s, run, next⟩ : ∃ trace s, Run exec (fun _ _ _ => True) {} trace s ∧ SixthNext s :=
    Run.exists_of_follow sackHandshake (by decide +kernel)
  obtain ⟨registered, checked, passes, text, worth, miss, sackok, rcvNxt, allowed, queue⟩ := next
  have call : CalculatesSacks s sixth [6] (sixthEntry s) (sixthSkb s) :=
    ⟨registered, checked, rfl, passes, rfl, text, .inr worth, miss, sackok⟩
  have reports := (sack_generation run call).2.2.2.2
  obtain ⟨k, rest, waits, first, more⟩ := List.map_eq_cons_iff.mp queue
  obtain ⟨m, none, behind, second, nil⟩ := List.map_eq_cons_iff.mp more
  obtain rfl := List.map_eq_nil_iff.mp nil
  obtain ⟨seq, ends⟩ := Prod.mk.inj first
  obtain ⟨seq', ends'⟩ := Prod.mk.inj second
  rw [behind] at waits
  have good : SackQueue (sixthEntry s).tsk.tcb.rcvNxt
      (sacksEntry (sixthEntry s) (sixthSkb s)).ofoQueue := by
    rw [waits, rcvNxt]
    refine ⟨⟨?_, ?_, ?_⟩, ?_⟩
    · simp [seq, seq']
    · simp only [List.pairwise_cons, List.mem_singleton, forall_eq, List.not_mem_nil, false_implies,
        implies_true, List.Pairwise.nil, and_true]
      rintro x ⟨-, before, after, -⟩
      rw [ends] at before
      rw [seq'] at after
      exact absurd (Nat.lt_of_le_of_lt after before) (by decide)
    · simp [seq, seq']
    · simp [seq, seq', ends, ends']
  obtain ⟨seg, blocks, out, -, -, -, -, -, read, spans, -⟩ := (reports good).report
  refine ⟨trace, s, _, _, run, call, seg, blocks, out, read, ?_⟩
  rw [spans, waits, allowed]
  simp only [List.map_cons, List.map_nil, SkBuff.bounds, seq, ends, seq', ends']
  decide

end HfIp
