import HfIp.AckVolley
import HfIp.StreamIntegrity

/- What a segment does to a connection attempt: every case of `tcp_synsent`. -/
namespace HfIp

variable {s t : Conn} {th : TcpHdr}

/-- The SYN has been sent with a number that is not 0, the next number does not wrap, and the SYN is all
    that waits to be acknowledged. -/
structure Dialling (s : Conn) : Prop where
  state : s.tsk.state = .synSent
  positive : 0 < s.tsk.tcb.iss
  room : s.tsk.tcb.iss < s.tsk.tcb.iss + 1
  sndUna : s.tsk.tcb.sndUna = s.tsk.tcb.iss
  sndNxt : s.tsk.tcb.sndNxt = s.tsk.tcb.iss + 1
  queue : ∃ syn, s.tsk.writeQueue = [syn] ∧ syn.seq = s.tsk.tcb.iss ∧ syn.endSeq = s.tsk.tcb.iss

/-- The ACK field acknowledges the SYN. -/
def AcksSyn (s : Conn) (th : TcpHdr) : Prop :=
  th.ack = true ∧ s.tsk.tcb.iss < th.ackSeq ∧ th.ackSeq ≤ s.tsk.tcb.sndNxt

instance (s : Conn) (th : TcpHdr) : Decidable (AcksSyn s th) := inferInstanceAs (Decidable (_ ∧ _))

/-- The application is told that the connection has been refused, and `tcp_done` has run. -/
def AttemptRefused (t : Conn) : Prop :=
  t.tsk.err = -ECONNREFUSED ∧ t.tsk.state = .closing ∧ t.ended = true

/-- The connection is open on this side: nothing waits to be acknowledged, and the SYN of the other side
    has been. -/
structure AttemptOpened (s : Conn) (th : TcpHdr) (t : Conn) : Prop where
  state : t.tsk.state = .established
  rcvNxt : t.tsk.tcb.rcvNxt = th.seq + 1
  irs : t.tsk.tcb.irs = th.seq
  sndUna : t.tsk.tcb.sndUna = t.tsk.tcb.sndNxt
  queue : t.tsk.writeQueue = []
  timer : t.tsk.retransmit = none
  acked : ∃ seg, t.out = s.out ++ [seg] ∧ seg.Bare ∧ seg.th.ack = true ∧ seg.th.ackSeq = th.seq + 1

/-- Nothing has changed but the buffers that have been freed. -/
def OnlyFreed (s t : Conn) : Prop := ∃ freed, t = { s with freed := freed }

/-- What the standard asks of a segment in SYN_SENT. -/
structure Answered (s : Conn) (th : TcpHdr) (t : Conn) : Prop where
  refused : AttemptRefused t ↔ th.rst = true ∧ AcksSyn s th
  opened : t.tsk.state = .established ↔ th.syn = true ∧ th.rst = false ∧ AcksSyn s th
  complete : t.tsk.state = .established → AttemptOpened s th t
  crossed : t.tsk.state = .synReceived ↔ th.syn = true ∧ th.ack = false ∧ th.rst = false
  otherwise : ¬(th.rst = true ∧ AcksSyn s th) → ¬(th.syn = true ∧ th.rst = false ∧ AcksSyn s th) →
    ¬(th.syn = true ∧ th.ack = false ∧ th.rst = false) → OnlyFreed s t

/-- `tcp_connect` on a closed socket leaves it so. -/
theorem tcpConnect_dialling {iss : UInt32} (closed : s.tsk.state = .close) (none : s.tsk.writeQueue = [])
    (idle : s.tsk.inflight = 0) (positive : 0 < iss) (room : iss < iss + 1) :
    Dialling (tcpConnect s iss) := by
  obtain ⟨k, seg, syn⟩ := tcpConnect_sent iss closed none idle
  have una : (tcpConnect s iss).tsk.tcb.sndUna = iss := by
    unfold tcpConnect tcpSendSyn
    simp only [closed]
    rw [if_neg (by simp)]
    obtain ⟨_, _, _, _, _, _, same⟩ := tcpQueueTransmitSkb_touches (setState _ _) _
    exact same.sndUna
  refine ⟨syn.state, ?_, ?_, ?_, ?_, k, syn.queue, ?_, ?_⟩
  · rw [syn.iss]
    exact positive
  · rw [syn.iss]
    exact room
  · rw [syn.iss]
    exact una
  · rw [syn.iss]
    exact syn.sndNxt
  · rw [syn.iss]
    exact syn.seq
  · rw [syn.iss]
    exact syn.endSeq

theorem tcpDone_err (s : Conn) : (tcpDone s).tsk.err = s.tsk.err := by
  obtain ⟨freed, eq⟩ := skbQueueFree_eq
    (tcpClearTimers (setState { s with ended := true } .closing)) s.tsk.ofoQueue
  unfold tcpDone socketDelete tcpFree tcpClearQueues
  rw [show (tcpClearTimers (setState { s with ended := true } .closing)).tsk.ofoQueue =
    s.tsk.ofoQueue from rfl, eq]
  split <;> rfl

theorem tcpReset_refused (waiting : s.tsk.state = .synSent) : AttemptRefused (tcpReset s) := by
  unfold tcpReset
  dsimp only
  rw [waiting]
  exact ⟨tcpDone_err _, tcpDone_state, tcpDone_ended _⟩

/- The SYN is all that is taken off the queue, and the timer goes with it. -/
theorem tcpCleanRtoQueue_last {k : SkBuff} {una : UInt32} (queue : s.tsk.writeQueue = [k])
    (old : k.seq > 0 ∧ k.endSeq ≤ una) : (tcpCleanRtoQueue s una).tsk.tcb = s.tsk.tcb ∧
      (tcpCleanRtoQueue s una).tsk.state = s.tsk.state ∧ (tcpCleanRtoQueue s una).tsk.writeQueue = [] ∧
      (tcpCleanRtoQueue s una).tsk.retransmit = none ∧ (tcpCleanRtoQueue s una).out = s.out := by
  obtain ⟨freed, eq⟩ := freeSkb_eq s { k with refcnt := k.refcnt - 1 }
  unfold tcpCleanRtoQueue
  rw [queue, cleanLoop, if_pos old, cleanLoop, eq]
  dsimp only
  rw [if_pos (.inl rfl)]
  exact ⟨rfl, rfl, rfl, rfl, rfl⟩

theorem synsentAck_acked (dialling : Dialling s) (acks : AcksSyn s th) :
    (synsentAck s th).tsk.tcb =
      { s.tsk.tcb with rcvNxt := th.seq + 1, irs := th.seq, sndUna := th.ackSeq } ∧
      (synsentAck s th).tsk.state = .synSent ∧ (synsentAck s th).tsk.writeQueue = [] ∧
      (synsentAck s th).tsk.retransmit = none ∧ (synsentAck s th).out = s.out := by
  obtain ⟨syn, queue, seq, ends⟩ := dialling.queue
  have old : syn.seq > 0 ∧ syn.endSeq ≤ th.ackSeq := by
    rw [seq, ends]
    exact ⟨dialling.positive, UInt32.le_of_lt acks.2.1⟩
  have taken := @tcpCleanRtoQueue_last { s with
    tsk.tcb.rcvNxt := th.seq + 1, tsk.tcb.irs := th.seq, tsk.tcb.sndUna := th.ackSeq } syn th.ackSeq
    queue old
  unfold synsentAck
  dsimp only
  rw [if_pos acks.1]
  exact ⟨taken.1, taken.2.1.trans dialling.state, taken.2.2⟩

theorem tcpRearmUserTimeout_touches (s : Conn) :
    ∃ ts linger, tcpRearmUserTimeout s = { s with ts := ts, tsk.linger := linger } := by
  unfold tcpRearmUserTimeout
  split
  · exact ⟨s.ts, s.tsk.linger, rfl⟩
  · exact ⟨_, _, rfl⟩

/- The ACK that opens the connection. -/
theorem tcpSendAck_bare (opened : s.tsk.state ≠ .close) : ∃ seg, (tcpSendAck s).out = s.out ++ [seg] ∧
    seg.Bare ∧ seg.th.ack = true ∧ seg.th.ackSeq = s.tsk.tcb.rcvNxt := by
  obtain ⟨seg, out, ack, number⟩ := tcpSendAck_out s opened
  obtain ⟨-, more, out', bare⟩ := tcpSendAck_minor s
  obtain rfl : more = [seg] := List.append_cancel_left (out'.symm.trans out)
  exact ⟨seg, out, (bare seg (List.mem_singleton_self seg)).1, ack, number⟩

theorem synsentEstablish_opened (rcvNxt : s.tsk.tcb.rcvNxt = th.seq + 1) (irs : s.tsk.tcb.irs = th.seq)
    (queue : s.tsk.writeQueue = []) (timer : s.tsk.retransmit = none) :
    AttemptOpened s th (synsentEstablish s th) := by
  set v : Conn := { setState s .established with
    tsk.tcb.sndUna := s.tsk.tcb.sndNxt, tsk.backoff := 0, tsk.rto := 1000 } with hv
  obtain ⟨seg, out, bare, acks, number⟩ := tcpSendAck_bare (s := v) TcpState.noConfusion
  have sent := (tcpSendAck_minor v).same
  obtain ⟨ts, linger, armed⟩ := tcpRearmUserTimeout_touches (tcpSendAck v)
  have unfolded : synsentEstablish s th = sockConnected { tcpRearmUserTimeout (tcpSendAck v) with
      tsk := tcpParseOpts (tcpRearmUserTimeout (tcpSendAck v)).tsk th } := rfl
  rw [unfolded, armed]
  have opts := (tcpParseOpts_minor { tcpSendAck v with ts := ts, tsk.linger := linger } th).same
  generalize tcpParseOpts _ th = tsk at opts ⊢
  have tcb : tsk.tcb = v.tsk.tcb := opts.tcb.trans sent.tcb
  refine ⟨opts.state.trans sent.state, ?_, ?_, ?_, ?_, ?_, seg, out, bare, acks, number.trans rcvNxt⟩
  · exact (congrArg Tcb.rcvNxt tcb).trans rcvNxt
  · exact (congrArg Tcb.irs tcb).trans irs
  · exact (congrArg Tcb.sndUna tcb).trans (congrArg Tcb.sndNxt tcb).symm
  · exact (opts.writeQueue.trans sent.writeQueue).trans queue
  · exact (opts.retransmit.trans sent.retransmit).trans timer

theorem synsentSyn_opened (dialling : Dialling s) (acks : AcksSyn s th) :
    AttemptOpened s th (synsentSyn s th) := by
  obtain ⟨tcb, -, queue, timer, out⟩ := synsentAck_acked dialling acks
  have further : (synsentAck s th).tsk.tcb.sndUna > (synsentAck s th).tsk.tcb.iss := by
    rw [tcb]
    exact acks.2.1
  unfold synsentSyn
  dsimp only
  rw [if_pos further]
  obtain ⟨state, rcvNxt, irs, una, empty, none, seg, sent, seg'⟩ :=
    @synsentEstablish_opened (synsentAck s th) th (congrArg Tcb.rcvNxt tcb) (congrArg Tcb.irs tcb) queue timer
  exact ⟨state, rcvNxt, irs, una, empty, none, seg, sent.trans (by rw [out]), seg'⟩

theorem synsentAck_unacked (bare : th.ack = false) :
    synsentAck s th = { s with tsk.tcb.rcvNxt := th.seq + 1, tsk.tcb.irs := th.seq } := by
  unfold synsentAck
  dsimp only
  rw [if_neg (by simp [bare])]

theorem synsentSyn_crossed (dialling : Dialling s) (bare : th.ack = false) :
    (synsentSyn s th).tsk.state = .synReceived := by
  have still : ¬s.tsk.tcb.sndUna > s.tsk.tcb.iss := by
    rw [dialling.sndUna]
    exact UInt32.lt_irrefl _
  unfold synsentSyn
  rw [synsentAck_unacked bare]
  dsimp only
  rw [if_neg still, tcpSendSynack_minor _ (by simp [setState])]
  rfl

/- An ACK that does not acknowledge the SYN is dropped. -/
theorem tcpSynsent_unacceptable {skb : SkBuff} (ack : th.ack = true) (not : ¬AcksSyn s th) :
    tcpSynsent s skb th = freeSkb s skb := by
  have outside : th.ackSeq ≤ s.tsk.tcb.iss ∨ th.ackSeq > s.tsk.tcb.sndNxt := by
    by_contra inside
    rw [not_or] at inside
    exact not ⟨ack, UInt32.not_le.mp inside.1, UInt32.not_lt.mp inside.2⟩
  unfold tcpSynsent
  dsimp only
  rw [if_pos ⟨ack, outside⟩]

theorem tcpSynsent_acceptable {skb : SkBuff} (dialling : Dialling s)
    (acceptable : th.ack = true → AcksSyn s th) : tcpSynsent s skb th =
      if th.rst then freeSkb (tcpReset s) skb
      else if !th.syn then freeSkb s skb
      else freeSkb (synsentSyn s th) skb := by
  have first : ¬(th.ack = true ∧ (th.ackSeq ≤ s.tsk.tcb.iss ∨ th.ackSeq > s.tsk.tcb.sndNxt)) := by
    rintro ⟨ack, low | high⟩
    · exact UInt32.not_lt.mpr low (acceptable ack).2.1
    · exact UInt32.not_le.mpr high (acceptable ack).2.2
  have second : ¬(th.ack = true ∧ (th.ackSeq < s.tsk.tcb.sndUna ∨ th.ackSeq > s.tsk.tcb.sndNxt)) := by
    rintro ⟨ack, low | high⟩
    · rw [dialling.sndUna] at low
      exact UInt32.lt_irrefl _ (UInt32.lt_trans low (acceptable ack).2.1)
    · exact UInt32.not_le.mpr high (acceptable ack).2.2
  unfold tcpSynsent
  dsimp only
  rw [if_neg first, if_neg second]

theorem freeSkb_onlyFreed (s : Conn) (skb : SkBuff) : OnlyFreed s (freeSkb s skb) := freeSkb_eq s skb

theorem AttemptOpened.only_freed {u : Conn} (opened : AttemptOpened s th t) (freed : OnlyFreed t u) :
    AttemptOpened s th u := by
  obtain ⟨_, rfl⟩ := freed
  exact ⟨opened.state, opened.rcvNxt, opened.irs, opened.sndUna, opened.queue, opened.timer,
    opened.acked⟩

/- One lemma for each thing the segment can do to the attempt. -/

theorem answered_dropped (dialling : Dialling s) (freed : OnlyFreed s t)
    (refusal : ¬(th.rst = true ∧ AcksSyn s th))
    (answer : ¬(th.syn = true ∧ th.rst = false ∧ AcksSyn s th))
    (crossing : ¬(th.syn = true ∧ th.ack = false ∧ th.rst = false)) : Answered s th t := by
  have still : t.tsk.state = .synSent := by
    obtain ⟨_, rfl⟩ := freed
    exact dialling.state
  refine ⟨iff_of_false ?_ refusal, iff_of_false ?_ answer, ?_, iff_of_false ?_ crossing,
    fun _ _ _ => freed⟩
  · intro refused
    exact TcpState.noConfusion (still.symm.trans refused.2.1)
  · intro opened
    exact TcpState.noConfusion (still.symm.trans opened)
  · intro opened
    exact TcpState.noConfusion (still.symm.trans opened)
  · intro crossed
    exact TcpState.noConfusion (still.symm.trans crossed)

theorem answered_refused (refused : AttemptRefused t) (rst : th.rst = true) (acks : AcksSyn s th) :
    Answered s th t := by
  refine ⟨iff_of_true refused ⟨rst, acks⟩, iff_of_false ?_ ?_, ?_, iff_of_false ?_ ?_, ?_⟩
  · intro opened
    exact TcpState.noConfusion (refused.2.1.symm.trans opened)
  · rintro ⟨-, clear, -⟩
    exact Bool.noConfusion (rst.symm.trans clear)
  · intro opened
    exact TcpState.noConfusion (refused.2.1.symm.trans opened)
  · intro crossed
    exact TcpState.noConfusion (refused.2.1.symm.trans crossed)
  · rintro ⟨-, -, clear⟩
    exact Bool.noConfusion (rst.symm.trans clear)
  · intro refusal
    exact absurd ⟨rst, acks⟩ refusal

theorem answered_opened (opened : AttemptOpened s th t) (syn : th.syn = true) (clear : th.rst = false)
    (acks : AcksSyn s th) : Answered s th t := by
  refine ⟨iff_of_false ?_ ?_, iff_of_true opened.state ⟨syn, clear, acks⟩, fun _ => opened,
    iff_of_false ?_ ?_, ?_⟩
  · intro refused
    exact TcpState.noConfusion (refused.2.1.symm.trans opened.state)
  · rintro ⟨rst, -⟩
    exact Bool.noConfusion (rst.symm.trans clear)
  · intro crossed
    exact TcpState.noConfusion (opened.state.symm.trans crossed)
  · rintro ⟨-, bare, -⟩
    exact Bool.noConfusion (acks.1.symm.trans bare)
  · intro _ answer
    exact absurd ⟨syn, clear, acks⟩ answer

theorem answered_crossed (crossed : t.tsk.state = .synReceived) (syn : th.syn = true)
    (clear : th.rst = false) (bare : th.ack = false) : Answered s th t := by
  have unacked : ¬AcksSyn s th := fun acks => Bool.noConfusion (acks.1.symm.trans bare)
  refine ⟨iff_of_false ?_ (fun both => unacked both.2), iff_of_false ?_ (fun all => unacked all.2.2), ?_,
    iff_of_true crossed ⟨syn, bare, clear⟩, ?_⟩
  · intro refused
    exact TcpState.noConfusion (refused.2.1.symm.trans crossed)
  · intro opened
    exact TcpState.noConfusion (crossed.symm.trans opened)
  · intro opened
    exact TcpState.noConfusion (crossed.symm.trans opened)
  · intro _ _ crossing
    exact absurd ⟨syn, bare, clear⟩ crossing

/-- `tcp_synsent` does what the standard asks of every segment but a RST without an ACK, which it takes
    for one that acknowledges the SYN. -/
theorem tcp_synsent_exact (dialling : Dialling s) (th : TcpHdr) (skb : SkBuff) :
    Answered s th (tcpSynsent s skb th) ↔ ¬(th.rst = true ∧ th.ack = false) := by
  by_cases acceptable : th.ack = true → AcksSyn s th
  · rw [tcpSynsent_acceptable dialling acceptable]
    cases rst : th.rst
    · refine iff_of_true ?_ (by simp)
      rw [if_neg Bool.false_ne_true]
      cases syn : th.syn
      · exact answered_dropped dialling (freeSkb_onlyFreed s skb) (by simp [rst]) (by simp [syn])
          (by simp [syn])
      · rw [if_neg (by simp)]
        cases ack : th.ack
        · exact answered_crossed (by rw [freeSkb_tsk, synsentSyn_crossed dialling ack]) syn rst ack
        · exact answered_opened ((synsentSyn_opened dialling (acceptable ack)).only_freed
            (freeSkb_onlyFreed _ skb)) syn rst (acceptable ack)
    · rw [if_pos rfl]
      have refused : AttemptRefused (freeSkb (tcpReset s) skb) := by
        obtain ⟨err, state, done⟩ := tcpReset_refused dialling.state
        rw [AttemptRefused, freeSkb_tsk, freeSkb_ended]
        exact ⟨err, state, done⟩
      cases ack : th.ack
      · refine iff_of_false ?_ (not_not.mpr ⟨rfl, rfl⟩)
        intro answered
        exact Bool.noConfusion (ack.symm.trans (answered.refused.mp refused).2.1)
      · exact iff_of_true (answered_refused refused rst (acceptable ack)) (by simp)
  · rw [Classical.not_imp] at acceptable
    obtain ⟨ack, unacked⟩ := acceptable
    rw [tcpSynsent_unacceptable ack unacked]
    refine iff_of_true ?_ (by simp [ack])
    exact answered_dropped dialling (freeSkb_onlyFreed s skb) (fun both => unacked both.2)
      (fun all => unacked all.2.2) (by simp [ack])

/- The SYN-ACK that answers a SYN with the number 1000. -/
theorem tcp_synsent_exact_answer : Dialling (tcpConnect {} 1000) ∧
    (Answered (tcpConnect {} 1000) { seq := 5000, ackSeq := 1001, syn := true, ack := true }
      (tcpSynsent (tcpConnect {} 1000) { id := 9 }
        { seq := 5000, ackSeq := 1001, syn := true, ack := true }) ↔ ¬(false = true ∧ true = false)) :=
  have dialling : Dialling (tcpConnect {} 1000) :=
    tcpConnect_dialling rfl rfl rfl (by decide) (by decide)
  ⟨dialling, tcp_synsent_exact dialling _ _⟩

/- A RST that acknowledges nothing. -/
theorem tcp_synsent_blind_reset : Dialling (tcpConnect {} 1000) ∧
    ¬AcksSyn (tcpConnect {} 1000) { seq := 7777, rst := true } ∧
    AttemptRefused (tcpSynsent (tcpConnect {} 1000) { id := 9 } { seq := 7777, rst := true }) := by
  refine ⟨tcpConnect_dialling rfl rfl rfl (by decide) (by decide), by decide +kernel, ?_⟩
  unfold AttemptRefused
  decide +kernel

end HfIp
