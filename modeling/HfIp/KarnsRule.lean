import HfIp.Estimator

/- Karn's rule over whole runs: from the opening of a connection on. -/
namespace HfIp

open Transition

variable {s t u : Conn} {all : List Nat} {calm calm' : Prop}

/- No segment of the other end has been taken yet: nothing sent, or the SYN. -/
inductive Opening (all : List Nat) (s : Conn) : Prop where
  | closed (state : s.tsk.state = .close) (queue : s.tsk.writeQueue = []) (idle : s.tsk.inflight = 0)
      (sent : s.sent = []) (none : all = []) (srtt : s.tsk.srtt = 0)
  | waiting (k : SkBuff) (state : s.tsk.state = .synSent) (queue : s.tsk.writeQueue = [k])
      (inflight : s.tsk.inflight = 1) (sent : sentIds s = [k.id]) (seq : k.seq = s.tsk.tcb.iss)
      (ends : k.endSeq = s.tsk.tcb.iss) (below : k.id < s.nextSkb) (again : ∀ i ∈ all, i = k.id)
      (srtt : s.tsk.srtt = 0)

def Away (s : Conn) : Prop := s.tsk.state ≠ .close ∧ s.tsk.state ≠ .synSent

/- No SYN-ACK has been taken. -/
inductive Unanswered (all : List Nat) (s : Conn) : Prop where
  | opening (inv : Opening all s)
  | away (inv : Away s)
  | freed (inv : Freed s)

/- Counters and timers do not matter before the SYN-ACK. -/
theorem Opening.congr (opening : Opening all s)
    (same : (t.tsk.state, t.tsk.writeQueue, t.tsk.inflight, t.sent, t.tsk.tcb.iss, t.tsk.srtt) =
      (s.tsk.state, s.tsk.writeQueue, s.tsk.inflight, s.sent, s.tsk.tcb.iss, s.tsk.srtt))
    (skbs : s.nextSkb ≤ t.nextSkb) : Opening all t := by
  simp only [Prod.mk.injEq] at same
  obtain ⟨state', queue', inflight', sent', iss', srtt'⟩ := same
  cases opening with
  | closed state queue idle sent none srtt =>
    exact .closed (state'.trans state) (queue'.trans queue) (inflight'.trans idle)
      (sent'.trans sent) none (srtt'.trans srtt)
  | waiting k state queue inflight sent seq ends below again srtt =>
    exact .waiting k (state'.trans state) (queue'.trans queue) (inflight'.trans inflight)
      ((congrArg (List.map SkBuff.id) sent').trans sent) (seq.trans iss'.symm) (ends.trans iss'.symm)
      (Nat.lt_of_lt_of_le below skbs) again (srtt'.trans srtt)

theorem Away.leads {f : Bool} (away : Away s) (leads : s.tsk.state.leadsTo f t.tsk.state = true) :
    Away t := by
  have stay : ∀ {f : Bool} {a b : TcpState}, a ≠ .close ∧ a ≠ .synSent → a.leadsTo f b = true →
      b ≠ .close ∧ b ≠ .synSent := by
    decide
  exact stay away leads

theorem Away.frame (away : Away s) (h : RttFrame s t) : Away t :=
  ⟨away.1 ∘ h.send.onward.close, away.2 ∘ h.text.synSent⟩

theorem Opening.frame (opening : Opening all s) (h : RttFrame s t) : Unanswered all t := by
  by_cases close : t.tsk.state = .close
  · cases opening with
    | closed _ queue idle sent none srtt =>
      exact .opening (.closed close (h.send.writeQueue.trans queue) (h.send.inflight.trans idle)
        (h.send.sent.trans sent) none (h.srtt.trans srtt))
    | waiting k state =>
      have before := h.send.onward.close close
      rw [state] at before
      cases before
  · by_cases waits : t.tsk.state = .synSent
    · have before := h.text.synSent waits
      cases opening with
      | closed state =>
        rw [state] at before
        cases before
      | waiting k _ queue inflight sent seq ends below again srtt =>
        have iss := h.send.iss
        refine .opening (.waiting k waits (h.send.writeQueue.trans queue)
          (h.send.inflight.trans inflight) ?_ (iss ▸ seq) (iss ▸ ends)
          (Nat.lt_of_lt_of_le below h.skbs) again (h.srtt.trans srtt))
        exact (congrArg (List.map SkBuff.id) h.send.sent).trans sent
    · exact .away ⟨close, waits⟩

theorem Unanswered.frame (inv : Unanswered all s) (h : RttFrame s t) : Unanswered all t := by
  cases inv with
  | opening inv => exact inv.frame h
  | away inv => exact .away (inv.frame h)
  | freed inv => exact .freed (inv.frame h.send)

/- The SYN is the buffer allocated for it. -/
theorem tcpConnect_ids (iss : UInt32) (closed : s.tsk.state = .close) :
    (tcpConnect s iss).tsk.writeQueue.map SkBuff.id =
      s.tsk.writeQueue.map SkBuff.id ++ [s.nextSkb] ∧
    (tcpConnect s iss).nextSkb = s.nextSkb + 1 ∧ (tcpConnect s iss).tsk.srtt = s.tsk.srtt := by
  unfold tcpConnect tcpSendSyn
  simp only [closed]
  rw [if_neg (by simp)]
  generalize opened : setState (tcpAllocSkb _ _ _).1 TcpState.synSent = u
  generalize filled : ({ (tcpAllocSkb _ _ _).2 with th := _ } : SkBuff) = k
  obtain ⟨k', appends⟩ := tcpQueueTransmitSkb_appends u k
  have id : k.id = s.nextSkb := by rw [← filled]; rfl
  refine ⟨?_, ?_, ?_⟩
  · rw [appends.queue, List.map_append, ← opened]
    simp only [List.map_cons, List.map_nil, appends.id, id]
    rfl
  · rw [appends.nextSkb, ← opened]
    rfl
  · rw [appends.srtt, ← opened]
    rfl

theorem tcpV4Connect_opening (addr : SockAddr) (port : UInt16) (iss : UInt32)
    (opening : Opening all s) (closed : s.tsk.state = .close) :
    Opening all (tcpV4Connect s addr port iss) := by
  cases opening with
  | waiting k state =>
    rw [state] at closed
    cases closed
  | closed state queue idle sent none srtt =>
    set r : Conn := { s with
      tsk.dport := addr.port, tsk.sport := port, tsk.daddr := addr.addr
      tsk.saddr := parseIpv4 10 0 0 4 } with hr
    have connected : tcpV4Connect s addr port iss = tcpConnect r iss := rfl
    obtain ⟨k, _, syn⟩ := tcpConnect_sent (s := r) iss closed queue idle
    obtain ⟨ids, skbs, rtt⟩ := tcpConnect_ids (s := r) iss closed
    have id : k.id = s.nextSkb := by
      rw [syn.queue, show r.tsk.writeQueue = [] from queue] at ids
      simpa using ids
    rw [connected]
    refine .waiting k syn.state syn.queue syn.inflight ?_ (syn.seq.trans syn.iss.symm)
      (syn.endSeq.trans syn.iss.symm) ?_ (by rw [none]; simp) (rtt.trans srtt)
    · rw [sentIds, syn.sent, show r.sent = [] from sent]
      rfl
    · rw [skbs, id]
      exact Nat.lt_succ_self _

theorem tcpWrite_unanswered (buf : List UInt8) (inv : Unanswered all s)
    (live : s.sock.registered = true) : Unanswered all (tcpWrite s buf).1 := by
  cases inv with
  | opening opening =>
    have refused : (tcpWrite s buf).1 = s := by
      unfold tcpWrite
      split
      · rfl
      · cases opening with
        | closed state => rw [state]
        | waiting k state => rw [state]
    rw [refused]
    exact .opening opening
  | away away =>
    have state := (tcpWrite_stays s buf).state
    exact .away ⟨state ▸ away.1, state ▸ away.2⟩
  | freed inv =>
    rw [inv.2] at live
    cases live

theorem tcpClose_unanswered (inv : Unanswered all s) (live : s.sock.registered = true) :
    Unanswered all (tcpClose s).1 := by
  cases inv with
  | opening opening =>
    unfold tcpClose
    cases opening with
    | closed state queue idle sent none srtt =>
      rw [state]
      exact .opening (.closed state queue idle sent none srtt)
    | waiting k state =>
      rw [state]
      exact .away ⟨by rw [tcpDone_state]; decide, by rw [tcpDone_state]; decide⟩
  | away away => exact .away (away.leads (tcpClose_leads s true).state)
  | freed inv =>
    rw [inv.2] at live
    cases live

/- The SYN is sent once more. -/
theorem Opening.resend {k : SkBuff} (opening : Opening all s)
    (head : s.tsk.writeQueue.head? = some k) : Opening (all ++ [k.id]) (retransmitHead s k) := by
  have same := tcpTransmitSkb_same s k s.tsk.tcb.sndUna
  have iss : (retransmitHead s k).tsk.tcb.iss = s.tsk.tcb.iss := same.iss
  cases opening with
  | closed state queue =>
    rw [queue] at head
    cases head
  | waiting syn state queue inflight sent seq ends below again srtt =>
    obtain rfl : syn = k := by
      rw [queue] at head
      exact Option.some.inj head
    refine .waiting (tcpTransmitSkb s syn s.tsk.tcb.sndUna).2 (same.state.trans state) ?_
      (same.inflight.trans inflight) ?_ ?_ ?_ below ?_ ((congrArg (·.tsk.srtt) same).trans srtt)
    · simp only [retransmitHead, setHead, same.writeQueue, queue, List.tail_cons]
    · exact (congrArg (List.map SkBuff.id) same.sent).trans sent
    · rw [iss]
      exact seq
    · rw [iss]
      exact ends
    · intro i member
      rcases List.mem_append.mp member with old | new
      · exact again i old
      · exact List.mem_singleton.mp new

theorem Opening.done (opening : Opening all s) : Unanswered all (tcpDone s) :=
  opening.frame (tcpDone_rtt s)

theorem tcpConnectRto_opening (opening : Opening all s) :
    (¬Resends s .tcpConnectRto → Unanswered all (tcpConnectRto s)) ∧
      (Resends s .tcpConnectRto → Unanswered
        (all ++ s.tsk.writeQueue.head?.toList.map SkBuff.id) (tcpConnectRto s)) := by
  have released : Opening all (tcpReleaseRtoTimer s) := opening.congr rfl (Nat.le_refl _)
  unfold tcpConnectRto skbPeek
  have resends : Resends s .tcpConnectRto ↔ (tcpReleaseRtoTimer s).tsk.state = .synSent ∧
      (tcpReleaseRtoTimer s).tsk.backoff ≤ TCP_CONN_RETRIES := Iff.rfl
  rw [resends, show s.tsk.writeQueue = (tcpReleaseRtoTimer s).tsk.writeQueue from rfl]
  generalize tcpReleaseRtoTimer s = t at *
  dsimp only
  split
  · rename_i waits
    split
    · rename_i given
      refine ⟨fun _ => ?_, fun again => absurd given (UInt8.not_lt.mpr again.2)⟩
      exact released.frame ((retransmissionFailed_rtt t).trans (tcpDone_rtt _))
    · rename_i few
      refine ⟨fun none => absurd ⟨waits, UInt8.not_lt.mp few⟩ none, fun _ => ?_⟩
      split
      · rename_i none
        rw [none]
        simpa using Unanswered.opening released
      · rename_i k head
        rw [head]
        obtain ⟨ts, retransmit, eq⟩ := tcpRearmRtoTimer_touches
          { retransmitHead t k with tsk.backoff := (retransmitHead t k).tsk.backoff + 1 }
        rw [eq]
        exact .opening ((released.resend head).congr rfl (Nat.le_refl _))
  · rename_i other
    exact ⟨fun _ => .opening released, fun again => absurd again.1 other⟩

theorem tcpRetransmissionTimeout_opening (opening : Opening all s) :
    Unanswered (all ++ s.tsk.writeQueue.head?.toList.map SkBuff.id) (tcpRetransmissionTimeout s) := by
  have released : Opening all (tcpReleaseRtoTimer s) := opening.congr rfl (Nat.le_refl _)
  unfold tcpRetransmissionTimeout skbPeek
  rw [show s.tsk.writeQueue = (tcpReleaseRtoTimer s).tsk.writeQueue from rfl]
  generalize tcpReleaseRtoTimer s = t at *
  dsimp only
  split
  · rename_i none
    rw [none]
    have reset : Opening all { t with tsk.backoff := 0 } := released.congr rfl (Nat.le_refl _)
    have kept := reset.frame (.of_minor (tcpNotifyUser_minor _) (by unfold tcpNotifyUser; split <;> exact Nat.le_refl _))
    simpa using kept
  · rename_i k head
    rw [head]
    have sent := released.resend head
    split
    · exact (sent.done).frame (retransmissionFailed_rtt _)
    · have backed : Opening (all ++ [k.id]) (retransmissionBackoff (retransmitHead t k)) :=
        sent.congr rfl (Nat.le_refl _)
      split
      · unfold tcpHandleFinState
        split
        · rename_i at_state
          cases backed with
          | closed state => exact absurd (state.symm.trans at_state) (by decide)
          | waiting k state => exact absurd (state.symm.trans at_state) (by decide)
        · rename_i at_state
          cases backed with
          | closed state => exact absurd (state.symm.trans at_state) (by decide)
          | waiting k state => exact absurd (state.symm.trans at_state) (by decide)
        · exact .opening backed
      · exact .opening backed

theorem Karn.smss (inv : Karn all calm s) (smss : UInt16) :
    Karn all calm { s with tsk.smss := smss } :=
  { inv with
    backed := inv.backed.of_eq rfl rfl rfl
    latest := fun flying => by
      obtain ⟨pre, k, post, last⟩ := inv.latest flying
      exact ⟨pre, k, post, { last with }⟩ }

/- The connection as the SYN-ACK opens it. -/
theorem synsentEstablish_karn (th : TcpHdr)
    (opened : KarnInv all calm { setState s .established with
      tsk.tcb.sndUna := s.tsk.tcb.sndNxt, tsk.backoff := 0, tsk.rto := 1000 }) :
    KarnInv all calm (synsentEstablish s th) ∧
      (synsentEstablish s th).tsk.tcb.sndUna = s.tsk.tcb.sndNxt ∧
      (synsentEstablish s th).tsk.writeQueue = s.tsk.writeQueue := by
  unfold synsentEstablish
  dsimp only
  set v : Conn := { setState s .established with
    tsk.tcb.sndUna := s.tsk.tcb.sndNxt, tsk.backoff := 0, tsk.rto := 1000 } with hv
  have frame := (tcpSendAck_rtt v).trans (tcpRearmUserTimeout_rtt _)
  have kept := opened.frame frame
  have una := frame.send.sndUna
  have queue := frame.send.writeQueue
  show KarnInv all calm (sockConnected { tcpRearmUserTimeout (tcpSendAck v) with
      tsk := tcpParseOpts (tcpRearmUserTimeout (tcpSendAck v)).tsk th }) ∧
    (sockConnected { tcpRearmUserTimeout (tcpSendAck v) with
      tsk := tcpParseOpts (tcpRearmUserTimeout (tcpSendAck v)).tsk th }).tsk.tcb.sndUna = _ ∧
    (sockConnected { tcpRearmUserTimeout (tcpSendAck v) with
      tsk := tcpParseOpts (tcpRearmUserTimeout (tcpSendAck v)).tsk th }).tsk.writeQueue = _
  generalize tcpRearmUserTimeout (tcpSendAck v) = w at *
  have parsed := tcpParseOpts_minor w th
  have options : KarnInv all calm { w with tsk := tcpParseOpts w.tsk th } := by
    refine KarnInv.frame (s := { w with tsk.smss := (tcpParseOpts w.tsk th).smss }) ?_
      (.of_minor parsed (Nat.le_refl _))
    cases kept with
    | live inv => exact .live (inv.smss _)
    | gone inv => exact .gone ⟨inv.retired, inv.backed.of_eq rfl rfl rfl, inv.unset⟩
    | jammed inv => exact .jammed ⟨inv.early, inv.flying, inv.caught⟩
    | freed inv => exact .freed inv
  refine ⟨options.frame (.of_rfl rfl rfl ⟨rfl, rfl⟩ rfl rfl), ?_, ?_⟩
  · exact parsed.same.sndUna.trans una
  · exact parsed.same.writeQueue.trans queue

/- With `iss` other than 0 the SYN-ACK takes the SYN off the queue; with 0 the SYN stays for good. -/
theorem synsentSyn_karn {th : TcpHdr} (opening : Opening all s) (taken : SynTaken s th)
    (ack : th.ack = true) :
    KarnInv all (AcksSent all s (synsentSyn s th)) (synsentSyn s th) := by
  obtain ⟨above, -, -⟩ := taken.window ack
  cases opening with
  | closed state =>
    have waits := taken.waiting
    rw [state] at waits
    cases waits
  | waiting k state queue inflight sent seq ends below again srtt =>
    set r : Conn := { s with
      tsk.tcb.rcvNxt := th.seq + 1, tsk.tcb.irs := th.seq, tsk.tcb.sndUna := th.ackSeq } with hr
    have cleared : synsentAck s th = tcpCleanRtoQueue r th.ackSeq := by
      unfold synsentAck
      rw [if_pos ack]
    obtain ⟨freed, cleaned⟩ := cleanLoop_conn th.ackSeq r [k]
    have unfolded : tcpCleanRtoQueue r th.ackSeq = (if [k].dropWhile (acked th.ackSeq) = [] ∨
        1 - ([k].takeWhile (acked th.ackSeq)).length = 0 then tcpStopRtoTimer { r with
          tsk.inflight := 1 - ([k].takeWhile (acked th.ackSeq)).length, freed := freed
          tsk.writeQueue := [k].dropWhile (acked th.ackSeq) }
        else { r with
          tsk.inflight := 1 - ([k].takeWhile (acked th.ackSeq)).length, freed := freed
          tsk.writeQueue := [k].dropWhile (acked th.ackSeq) }) := by
      unfold tcpCleanRtoQueue
      dsimp only
      rw [show r.tsk.writeQueue = [k] from queue, cleaned, cleanLoop_queue,
        show r.tsk.inflight = 1 from inflight]
    obtain ⟨left, una, iss, nxt, skbs, rtt, ids⟩ : ((tcpCleanRtoQueue r th.ackSeq).tsk.writeQueue = [] ∧
          (tcpCleanRtoQueue r th.ackSeq).tsk.inflight = 0 ∧
          (tcpCleanRtoQueue r th.ackSeq).tsk.retransmit = none ∨
        (tcpCleanRtoQueue r th.ackSeq).tsk.inflight ≠ 0) ∧
        (tcpCleanRtoQueue r th.ackSeq).tsk.tcb.sndUna = th.ackSeq ∧
        (tcpCleanRtoQueue r th.ackSeq).tsk.tcb.iss = s.tsk.tcb.iss ∧
        (tcpCleanRtoQueue r th.ackSeq).tsk.tcb.sndNxt = s.tsk.tcb.sndNxt ∧
        (tcpCleanRtoQueue r th.ackSeq).nextSkb = s.nextSkb ∧
        (tcpCleanRtoQueue r th.ackSeq).tsk.srtt = 0 ∧
        sentIds (tcpCleanRtoQueue r th.ackSeq) = [k.id] := by
      rw [unfolded]
      by_cases off : acked th.ackSeq k = true
      · rw [List.dropWhile_cons_of_pos off, List.takeWhile_cons_of_pos off]
        exact ⟨.inl ⟨rfl, rfl, rfl⟩, rfl, rfl, rfl, rfl, srtt, sent⟩
      · rw [List.dropWhile_cons_of_neg off, List.takeWhile_cons_of_neg off, if_neg (by simp)]
        exact ⟨.inr (by simp), rfl, rfl, rfl, rfl, srtt, sent⟩
    unfold synsentSyn
    rw [cleared]
    generalize tcpCleanRtoQueue r th.ackSeq = u at *
    dsimp only
    rw [if_pos (show u.tsk.tcb.sndUna > u.tsk.tcb.iss by rw [una, iss]; exact above)]
    rcases left with ⟨none, idle, unset⟩ | flying
    · have opened : KarnInv all True { setState u .established with
          tsk.tcb.sndUna := u.tsk.tcb.sndNxt, tsk.backoff := 0, tsk.rto := 1000 } := by
        have within : ∀ i, i ∈ sentIds u ∨ i ∈ all → i < u.nextSkb := by
          rw [ids, skbs]
          rintro i (sent | resent)
          · rw [List.mem_singleton.mp sent]
            exact below
          · rw [again i resent]
            exact below
        have queue : (setState u .established).tsk.writeQueue = [] := none
        have nothing : ∀ {j : SkBuff}, j ∉ u.tsk.writeQueue := by
          rw [none]
          exact List.not_mem_nil
        refine .live ⟨rfl, ⟨by show 200 * 2 ^ (0 : UInt8).toNat ≤ (1000 : UInt32).toNat; decide, ?_⟩,
          ?_, fun j member => absurd member nothing, ?_, within, ?_,
          fun j member => absurd member nothing, fun j member => absurd member nothing,
          fun j member => absurd (List.mem_of_mem_tail member) nothing,
          fun _ j member => absurd member nothing, fun _ _ => rfl,
          fun flying => absurd idle flying, fun _ => ?_, fun _ => ?_, fun _ => unset,
          fun _ _ => trivial⟩
        · show 0 ≤ u.tsk.srtt ∧ u.tsk.srtt < 2 ^ 31
          rw [rtt]
          decide
        · show (u.tsk.writeQueue.map SkBuff.id).Nodup
          rw [none]
          exact List.nodup_nil
        · show (sentIds u).Nodup
          rw [ids]
          exact List.nodup_singleton _
        · show u.tsk.inflight = u.tsk.writeQueue.countP _
          rw [none, idle]
          rfl
        · exact fun j member => absurd member nothing
        · exact fun j member => absurd (List.dropLast_subset _ member) nothing
      obtain ⟨kept, reached, rest⟩ := synsentEstablish_karn th opened
      refine kept.mono fun _ => ⟨reached.trans nxt, fun j member => ?_⟩
      rw [rest, none] at member
      cases member
    · have opened : KarnInv all (AcksSent all s (synsentEstablish u th)) { setState u .established with
          tsk.tcb.sndUna := u.tsk.tcb.sndNxt, tsk.backoff := 0, tsk.rto := 1000 } :=
        .jammed ⟨rfl, flying, rfl⟩
      exact (synsentEstablish_karn th opened).1

theorem tcpSendReset_nextSkb (s : Conn) : s.nextSkb ≤ (tcpSendReset s).nextSkb := by
  unfold tcpSendReset
  dsimp only
  rw [freeSkb_nextSkb]
  exact Nat.le_succ _

theorem Opening.reset (opening : Opening all s) : Unanswered all (tcpSendReset s) := by
  have moved : Opening all { s with tsk.tcb.sndUna := s.tsk.tcb.sndNxt } :=
    opening.congr rfl (Nat.le_refl _)
  exact moved.frame (.of_minor (tcpSendReset_minor s) (tcpSendReset_nextSkb s))

theorem Opening.abort (opening : Opening all s) : Unanswered all (tcpAbort s) :=
  opening.reset.frame (tcpDone_rtt _)

theorem runHandler_unanswered {k : Option SkBuff} (h : Handler) (opening : Opening all s)
    (head : k = if Resends s h then s.tsk.writeQueue.head? else none) :
    Unanswered (all ++ k.toList.map SkBuff.id) (runHandler s h) := by
  have release : ∀ {all : List Nat} {u : Conn}, Unanswered all u → Unanswered all (socketRelease u) :=
    fun kept => kept.frame (.of_still (socketRelease_still _))
  have locked : Opening all (socketWrAcquire s) := opening.congr rfl (Nat.le_refl _)
  have frame : k = none → ∀ u, RttFrame (socketWrAcquire s) u →
      Unanswered (all ++ k.toList.map SkBuff.id) u := by
    rintro rfl u frame
    simpa using locked.frame frame
  cases h with
  | tcpConnectRto =>
    refine release ?_
    obtain ⟨quiet, again⟩ := tcpConnectRto_opening locked
    by_cases resends : Resends s .tcpConnectRto
    · rw [head, if_pos resends]
      exact again resends
    · rw [head, if_neg resends]
      simpa using quiet resends
  | tcpRetransmissionTimeout =>
    obtain rfl : k = s.tsk.writeQueue.head? := head.trans (if_pos trivial)
    exact release (tcpRetransmissionTimeout_opening locked)
  | tcpSendDelack => exact release (frame (head.trans (if_neg id)) _ (tcpSendDelack_rtt _))
  | tcpLinger => exact release (frame (head.trans (if_neg id)) _ (tcpLinger_rtt _))
  | tcpUserTimeout =>
    obtain rfl : k = none := head.trans (if_neg id)
    have stopped : Opening all (stopLinger (socketWrAcquire s)) := locked.congr rfl (Nat.le_refl _)
    exact release (by simpa [tcpUserTimeout] using stopped.abort)
  | socketGarbageCollect =>
    obtain rfl : k = none := head.trans (if_neg id)
    unfold runHandler socketGarbageCollect
    dsimp only
    split
    · exact .freed (socketFree_freed _)
    · simpa using Unanswered.opening opening

/- A SYN-ACK opens the connection, and acknowledges the SYN. -/
theorem tcpIn_opens {th : TcpHdr} {payload : List UInt8} (opening : Opening all s)
    (taken : TakesSynAck s (.segment th payload)) :
    KarnInv all (AcksSent all s (tcpIn s th payload)) (tcpIn s th payload) := by
  obtain ⟨syn, rst, ack⟩ := taken
  have arrived : Opening all (arriving s th payload) := opening.congr rfl (Nat.le_succ _)
  have opened := synsentSyn_karn arrived syn ack
  have freed := freeSkb_rtt (synsentSyn (arriving s th payload) th) (tcpInitSegment s th payload).2
  have released := RttFrame.of_still (socketRelease_still (freeSkb
    (synsentSyn (arriving s th payload) th) (tcpInitSegment s th payload).2))
  have frame := freed.trans released
  have same : tcpIn s th payload = socketRelease (freeSkb (synsentSyn (arriving s th payload) th)
      (tcpInitSegment s th payload).2) := congrArg socketRelease (syn.input rst)
  rw [same]
  refine (opened.frame frame).mono fun acks => ?_
  have acked : AcksSent all s (synsentSyn (arriving s th payload) th) := acks
  exact acked.follow (.of_frame frame.send)

/- A segment leaves the connection closed or waiting, unless its SYN is taken. -/
theorem tcpIn_unanswered (th : TcpHdr) (payload : List UInt8) (opening : Opening all s) :
    Unanswered all (tcpIn s th payload) := by
  set skb := (tcpInitSegment s th payload).2 with hskb
  have arrived : Opening all (arriving s th payload) := opening.congr rfl (Nat.le_succ _)
  have freed : ∀ {u : Conn}, Unanswered all u → Unanswered all (freeSkb u skb) :=
    fun kept => kept.frame (freeSkb_rtt _ skb)
  suffices kept : Unanswered all (tcpInputState (arriving s th payload) th skb) from
    kept.frame (.of_still (socketRelease_still _))
  have waits : s.tsk.state = .close ∨ s.tsk.state = .synSent := by
    cases opening with
    | closed state => exact .inl state
    | waiting k state => exact .inr state
  rcases waits with closed | waiting
  · have closed' : (arriving s th payload).tsk.state = .close := closed
    unfold tcpInputState
    rw [closed']
    dsimp only
    unfold tcpClosed
    split
    · exact freed (.opening arrived)
    · exact freed (arrived.reset)
  · have waiting' : (arriving s th payload).tsk.state = .synSent := waiting
    unfold tcpInputState
    rw [waiting']
    dsimp only
    refine tcpSynsent_cases (P := Unanswered all) ?_ ?_ ?_
    · exact freed (.opening arrived)
    · exact fun _ _ => freed (arrived.frame (tcpReset_rtt _))
    · intro syn
      have state := (synsentSyn_state (s := arriving s th payload) th).1
      refine freed (.away ?_)
      rcases state with at_state | at_state <;> rw [Away, at_state] <;> decide

theorem exec_freed {e : Event} {r : Reply} (freed : Freed s) (taken : exec s e = some (t, r)) :
    Freed t := by
  have gone : ∀ u, Freed u → u.sock.registered = true → False := by
    intro u freed live
    rw [freed.2] at live
    cases live
  refine exec_still (P := Freed) (fun u v still kept => kept.frame (RttFrame.of_still still).send)
    freed taken ?_ ?_ ?_ ?_ ?_ ?_ ?_ ?_ ?_ ?_
  · exact fun _ u _ => socketFree_freed u
  · exact fun busy _ => freed
  · intro i h _ _ collects
    rw [collects freed.1]
    unfold runHandler socketGarbageCollect
    dsimp only
    split
    · exact socketFree_freed _
    · exact freed
  · exact fun buf _ live _ => (gone s freed live).elim
  · exact fun len _ live _ => (gone s freed live).elim
  · exact fun i b _ _ live _ => absurd (freed.1.symm.trans live) (by decide)
  · exact fun _ live _ => (gone s freed live).elim
  · exact fun _ live => (gone s freed live).elim
  · exact fun addr port iss _ live _ _ => (gone s freed live).elim
  · exact fun th payload _ live _ => (gone s freed live).elim

/-! ### Runs -/

theorem noteResent_quiet {acc : Resent} {e : Event} (none : resentHead s e = none) :
    (noteResent acc s e t).all = acc.all := by
  simp [noteResent, none]

/- An event before the SYN-ACK. -/
theorem exec_unanswered {acc : Resent} {e : Event} {r : Reply} (inv : Unanswered acc.all s)
    (taken : exec s e = some (t, r)) : Unanswered (noteResent acc s e t).all t := by
  cases inv with
  | away away => exact .away (away.leads (exec_moves s taken))
  | freed freed => exact .freed (exec_freed freed taken)
  | opening opening =>
    by_cases special : (∃ i, e = .handler i) ∨ ∃ th payload, e = .segment th payload
    · rcases special with ⟨i, rfl⟩ | ⟨th, payload, rfl⟩
      · obtain ⟨h, found, -, rfl⟩ := exec_handler_taken taken
        have head : resentHead s (.handler i) =
            if Resends (started s i) h.handler then (started s i).tsk.writeQueue.head? else none := by
          rw [resentHead, found]
          rfl
        have begun : Opening acc.all (started s i) := opening.congr rfl (Nat.le_refl _)
        exact runHandler_unanswered h.handler begun head
      · obtain ⟨-, -, -, rfl⟩ := exec_segment_taken taken
        rw [noteResent_quiet rfl]
        exact tcpIn_unanswered th payload opening
    · have other : resentHead s e = none := by
        cases e with
        | handler i => exact absurd (.inl ⟨i, rfl⟩) special
        | _ => rfl
      rw [noteResent_quiet other]
      refine exec_still (P := Unanswered acc.all) (fun u v still kept => kept.frame (.of_still still))
        (.opening opening) taken ?_ ?_ ?_ ?_ ?_ ?_ ?_ ?_ ?_ ?_
      · exact fun _ u _ => .freed (socketFree_freed u)
      · exact fun busy _ => .opening (opening.congr rfl (Nat.le_refl _))
      · exact fun i _ call _ _ => absurd (.inl ⟨i, call⟩) special
      · exact fun buf _ live locked => tcpWrite_unanswered buf locked live
      · exact fun len _ _ locked => locked.frame (tcpRead_rtt _ len)
      · exact fun i b _ _ _ woken => woken.frame (receiveLoop_rtt _ _ _)
      · exact fun _ live locked => tcpClose_unanswered locked live
      · exact fun _ _ => opening.abort
      · intro addr port iss _ _ closed _
        have begun : Opening acc.all { socketWrAcquire s with tsk.err := -EISCONN } :=
          opening.congr rfl (Nat.le_refl _)
        exact .opening (tcpV4Connect_opening addr port iss begun closed)
      · exact fun th payload call _ _ => absurd (.inr ⟨th, payload, call⟩) special

/- The SYN-ACK. -/
theorem exec_opens {acc : Resent} {e : Event} {r : Reply} (inv : Unanswered acc.all s)
    (opens : TakesSynAck s e) (taken : exec s e = some (t, r)) :
    KarnInv (noteResent acc s e t).all ((noteResent acc s e t).since = []) t := by
  cases e with
  | segment th payload =>
    obtain ⟨registered, -, -, rfl⟩ := exec_segment_taken taken
    have waits : s.tsk.state = .synSent := opens.1.waiting
    cases inv with
    | away away => exact absurd waits away.2
    | freed freed =>
      rw [freed.2] at registered
      cases registered
    | opening opening =>
      rw [noteResent_quiet rfl]
      refine (tcpIn_opens opening opens).mono fun acks => ?_
      exact if_pos acks
  | _ => exact absurd opens id

structure KarnRun (trace : List (Event × Reply)) (s : Conn) : Prop where
  before : ¬Occurs exec TakesSynAck {} trace → Unanswered (resent trace).all s
  after : Occurs exec TakesSynAck {} trace →
    KarnInv (resent trace).all ((resent trace).since = []) s

theorem run_karn {trace : List (Event × Reply)} (run : Run exec (fun _ _ _ => True) {} trace s) :
    KarnRun trace s := by
  have start : Unanswered (resent []).all {} := .opening (.closed rfl rfl rfl rfl rfl rfl)
  refine run.invariant ⟨fun _ => start, fun opened => opened.elim⟩ ?_
  intro trace s e t r earlier inv _ taken
  have noted : resent (trace ++ [(e, r)]) = noteResent (resent trace) s e t :=
    earlier.account_snoc taken
  constructor
  · rw [earlier.occurs_snoc taken, noted]
    exact fun none => exec_unanswered (inv.before fun opened => none (.inl opened)) taken
  · rw [earlier.occurs_snoc taken, noted]
    intro opened
    by_cases before : Occurs exec TakesSynAck {} trace
    · exact exec_karn (inv.after before) taken
    · exact exec_opens (inv.before before) (opened.resolve_left before) taken

/- A sample is taken only with the backoff at 0, a timer running and a new ACK. -/
theorem KarnInv.sample {e : Event} (inv : KarnInv all calm s) (live : s.sock.registered = true)
    (sample : TakesSample s e) : Karn all calm s ∧ s.tsk.backoff = 0 ∧ s.tsk.writeQueue ≠ [] := by
  cases e with
  | segment th payload =>
    obtain ⟨-, -, -, -, -, new, zero, timer, runs, -⟩ := sample
    have armed : s.tsk.retransmit ≠ none := by
      intro none
      rw [none] at runs
      cases runs
    cases inv with
    | live inv => exact ⟨inv, zero, fun none => armed (inv.unset none)⟩
    | gone inv => exact absurd (inv.unset zero) armed
    | jammed inv =>
      have ahead := UInt32.lt_of_lt_of_le new.1 new.2
      rw [inv.caught] at ahead
      exact absurd ahead (UInt32.lt_irrefl _)
    | freed inv =>
      rw [inv.2] at live
      cases live
  | _ => exact absurd sample id

/-- Karn's rule: after the SYN-ACK only `tcp_rtt` changes the estimate of the round trip, and `rto` as
    far as segments do, and it does so only when no buffer of the write queue has been sent twice and
    when all that had been sent by the last retransmission has been acknowledged. -/
theorem karns_rule {trace : List (Event × Reply)} (run : Run exec (fun _ _ _ => True) {} trace s)
    (opened : Occurs exec TakesSynAck {} trace) : ∀ e t r, exec s e = some (t, r) →
      (¬TakesSample s e → SameEstimate s t ∧
        ((∃ th payload, e = .segment th payload) → SameTimeout s t)) ∧
      (TakesSample s e →
        (∀ k ∈ s.tsk.writeQueue, timesSent trace s k ≤ 1) ∧ (resent trace).since = []) := by
  intro e t r taken
  have inv := (run_karn run).after opened
  refine ⟨fun none => ⟨exec_estimate inv.early none taken, ?_⟩, fun sample => ?_⟩
  · rintro ⟨th, payload, rfl⟩
    obtain ⟨registered, -, -, rfl⟩ := exec_segment_taken taken
    exact tcpIn_timeout (inv.early registered) none
  · have live : s.sock.registered = true := by
      cases e with
      | segment th payload => exact (exec_segment_taken taken).1
      | _ => exact absurd sample id
    obtain ⟨karn, zero, some_left⟩ := inv.sample live sample
    refine ⟨fun k member => ?_, karn.calmed (.inl zero) (.inl some_left)⟩
    have never : (resent trace).all.count k.id = 0 := List.count_eq_zero.mpr (karn.fresh zero k member)
    have once := List.nodup_iff_count_le_one.mp karn.once k.id
    unfold timesSent
    omega

/- The timer sends the first of two buffers again; a sample is taken for the second only. -/
theorem karns_rule_retransmitted : ∃ trace s, Run exec (fun _ _ _ => True) {} trace s ∧
    (resent trace).all ≠ [] ∧ TakesSample s (.segment (peerHdr 5001 1003) []) ∧
      ∀ e t r, exec s e = some (t, r) →
        (¬TakesSample s e → SameEstimate s t ∧
          ((∃ th payload, e = .segment th payload) → SameTimeout s t)) ∧
        (TakesSample s e →
          (∀ k ∈ s.tsk.writeQueue, timesSent trace s k ≤ 1) ∧ (resent trace).since = []) := by
  obtain ⟨trace, s, run, opened, again, sample⟩ : ∃ trace s,
      Run exec (fun _ _ _ => True) {} trace s ∧ Occurs exec TakesSynAck {} trace ∧
        (resent trace).all ≠ [] ∧ TakesSample s (.segment (peerHdr 5001 1003) []) :=
    Run.exists_of_trace (handshake ++ [.write [1], .write [2]] ++ List.replicate 101 (.tick []) ++
      [.handler 0, .segment (peerHdr 5001 1002) []]) (by decide +kernel)
  exact ⟨trace, s, run, again, sample, karns_rule run opened⟩

end HfIp
