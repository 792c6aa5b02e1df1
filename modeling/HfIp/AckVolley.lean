import HfIp.Numbering
import HfIp.QueueRule
import HfIp.Reader
import HfIp.SimultaneousOpen

/- Empty ACKs that are answered by empty ACKs: the states in which a connection does so, and the ends
   of a connection that go on doing so for each other. -/
namespace HfIp

variable {s t u : Conn}

/-! ### What waits in the write queue -/

/- Every buffer of the write queue takes up numbers, so no segment sent from it is bare. -/
structure Weighted (s : Conn) : Prop where
  smss : 0 < s.tsk.smss
  queue : ∀ k ∈ s.tsk.writeQueue, 0 < k.span

theorem Weighted.frame (weighted : Weighted s) (h : SendFrame s t) : Weighted t :=
  ⟨h.smss ▸ weighted.smss, h.writeQueue ▸ weighted.queue⟩

theorem Weighted.fewer (weighted : Weighted s) (smss : t.tsk.smss = s.tsk.smss)
    (queue : t.tsk.writeQueue.Sublist s.tsk.writeQueue) : Weighted t :=
  ⟨smss ▸ weighted.smss, fun k member => weighted.queue k (queue.subset member)⟩

theorem tcpCleanRtoQueue_weighted (una : UInt32) (weighted : Weighted s) :
    Weighted (tcpCleanRtoQueue s una) := by
  obtain ⟨_, _, _, _, _, eq⟩ := tcpCleanRtoQueue_touches s una
  rw [eq]
  exact weighted.fewer rfl (List.dropWhile_sublist _)

theorem weighted_laws : QueueLaws (fun mss => 0 < mss) (fun k => 0 < k.span) (fun _ => True) where
  sizes _ more _ := UInt16.lt_trans (by decide) more
  text k _ _ text := by
    have some_text := List.length_pos_iff.mpr text.some_text
    simp only [SkBuff.span]
    omega
  fin k fin := by
    simp only [SkBuff.span, fin.fin, Bool.toNat_true]
    omega
  syn k syn := by simp [SkBuff.span, syn.syn]
  sends k k' seg sent span := by
    simp only [SkBuff.span, sent.payload, sent.fin, sent.syn] at span ⊢
    exact ⟨span, trivial⟩
  bare _ _ := trivial

theorem run_weighted {trace : List (Event × Reply)}
    (run : Transition.Run exec (fun _ _ _ => True) {} trace s) : Weighted s := by
  have kept := weighted_laws.run (fun _ size => UInt16.lt_iff_toNat_lt.mp size) (by decide) run
  exact ⟨kept.smss, kept.queue⟩

/-! ### The answer to an empty ACK -/

/- The states in which both ends know the numbers of the other. -/
def TcpState.synchronized : TcpState → Bool
  | .established | .finWait1 | .finWait2 | .closeWait | .closing | .lastAck | .timeWait => true
  | _ => false

/- An ACK in sequence without text or any other flag. -/
structure PureAck (s : Conn) (th : TcpHdr) : Prop where
  inSequence : th.seq = s.tsk.tcb.rcvNxt
  ack : th.ack = true
  syn : th.syn = false
  fin : th.fin = false
  rst : th.rst = false
  psh : th.psh = false

instance (s : Conn) (th : TcpHdr) : Decidable (PureAck s th) :=
  decidable_of_iff (th.seq = s.tsk.tcb.rcvNxt ∧ th.ack = true ∧ th.syn = false ∧ th.fin = false ∧
    th.rst = false ∧ th.psh = false)
    ⟨fun ⟨a, b, c, d, e, f⟩ => ⟨a, b, c, d, e, f⟩, fun ⟨a, b, c, d, e, f⟩ => ⟨a, b, c, d, e, f⟩⟩

theorem emitted_of_append {more : List Segment} (out : t.out = s.out ++ more) : emitted s t = more := by
  rw [emitted, out, List.drop_left]

/-- The end of the receive window is past 2^32, or the ACK is taken for the other end's FIN. -/
def AnswersAck (s : Conn) : Prop :=
  s.tsk.tcb.rcvNxt + s.tsk.tcb.rcvWnd < s.tsk.tcb.rcvNxt ∨
    s.tsk.state = .timeWait ∧ s.tsk.writeQueue = []

instance (s : Conn) : Decidable (AnswersAck s) := inferInstanceAs (Decidable (_ ∨ _))

theorem sendNextLoop_emits (amount : Nat) (s : Conn) (queue : List SkBuff) :
    ∃ more, (sendNextLoop s amount queue).1.out = s.out ++ more ∧
      ∀ seg ∈ more, ∃ k ∈ queue, seg.range.len = k.span := by
  induction amount generalizing s queue with
  | zero => exact ⟨[], by simp [sendNextLoop], by simp⟩
  | succ amount ih =>
    cases queue with
    | nil => exact ⟨[], by simp [sendNextLoop], by simp⟩
    | cons next rest =>
      obtain ⟨seg, out, payload, -, -, fin, syn, -⟩ := tcpTransmitSkb_out s next s.tsk.tcb.sndNxt
      obtain ⟨more, later, borne⟩ := ih (numberSkb (tcpTransmitSkb s next s.tsk.tcb.sndNxt).1
        (tcpTransmitSkb s next s.tsk.tcb.sndNxt).2).1 rest
      refine ⟨seg :: more, ?_, ?_⟩
      · rw [sendNextLoop]
        dsimp only
        rw [later]
        simp [numberSkb, out]
      · intro seg' member
        rcases List.mem_cons.mp member with rfl | further
        · exact ⟨next, by simp, by simp only [Segment.range, SkBuff.span, payload, fin, syn]⟩
        · obtain ⟨k, found, same⟩ := borne seg' further
          exact ⟨k, by simp [found], same⟩

theorem Segment.bare_iff (seg : Segment) : seg.Bare ↔ seg.range.len = 0 := by
  obtain ⟨th, payload⟩ := seg
  cases fin : th.fin <;> cases syn : th.syn <;> simp [Segment.Bare, Segment.range, fin, syn]

variable {th : TcpHdr} {skb : SkBuff}

theorem inputNewAck_out (s : Conn) (th : TcpHdr) : (inputNewAck s th).1.out = s.out := by
  have rtt : (tcpRtt { s with tsk.tcb.sndUna := th.ackSeq }).out = s.out := by
    unfold tcpRtt
    split
    · rfl
    · split
      · rfl
      · dsimp only
        split <;> rfl
  rw [inputNewAck_fst]
  split
  · obtain ⟨_, _, _, _, _, eq⟩ := tcpCleanRtoQueue_touches
      (tcpRtt { s with tsk.tcb.sndUna := th.ackSeq }) th.ackSeq
    rw [eq]
    exact rtt
  · rfl

theorem inputAck_out (s : Conn) (th : TcpHdr) : (inputAck s th).1.out = s.out := by
  unfold inputAck
  split
  · split
    · exact inputNewAck_out _ th
    · rfl
  iterate 6 exact inputNewAck_out s th
  rfl

theorem inputAck_weighted (th : TcpHdr) (weighted : Weighted s)
    (sync : s.tsk.state.synchronized = true) : Weighted (inputAck s th).1 := by
  have taken : Weighted (inputNewAck s th).1 := by
    refine inputNewAck_rule weighted fun _ => ?_
    refine tcpCleanRtoQueue_weighted _ (Weighted.frame ?_ (tcpRtt_send _))
    exact weighted.fewer rfl (List.Sublist.refl _)
  unfold inputAck
  split
  · rename_i at_state
    rw [at_state] at sync
    contradiction
  iterate 6 exact taken
  exact weighted

/- What `inputDelack` sends for a segment without text comes from the write queue. -/
theorem inputDelack_emits (weighted : Weighted s) (psh : th.psh = false) (empty : skb.payload = []) :
    ∃ more, (inputDelack s th skb).out = s.out ++ more ∧ ∀ seg ∈ more, ¬seg.Bare := by
  have dlen : skb.dlen = 0 := by simp [SkBuff.dlen, empty]
  unfold inputDelack
  have frame := tcpStopDelackTimer_send s
  have out : (tcpStopDelackTimer s).out = s.out := rfl
  replace weighted := weighted.frame frame
  generalize tcpStopDelackTimer s = u at weighted out
  dsimp only
  split
  · obtain ⟨more, sent, borne⟩ := sendNextLoop_emits (min u.tsk.writeQueue.length 3) u
      u.tsk.writeQueue
    obtain ⟨_, _, eq⟩ := tcpRearmRtoTimer_touches { tcpSendNext u (min u.tsk.writeQueue.length 3) with
      tsk.inflight := (tcpSendNext u (min u.tsk.writeQueue.length 3)).tsk.inflight +
        min u.tsk.writeQueue.length 3 }
    refine ⟨more, ?_, ?_⟩
    · rw [eq, ← out]
      exact sent
    · intro seg member bare
      obtain ⟨k, found, len⟩ := borne seg member
      have span := weighted.queue k found
      rw [seg.bare_iff, len] at bare
      omega
  · refine ⟨[], ?_, by simp⟩
    simp [psh, dlen, countDelack, out]

theorem tcpVerifySegment_pure (pure : PureAck s th) (empty : skb.payload = []) :
    tcpVerifySegment s.tsk th skb = true ↔
      ¬s.tsk.tcb.rcvNxt + s.tsk.tcb.rcvWnd < s.tsk.tcb.rcvNxt := by
  have dlen : ¬(0 < skb.dlen ∧ s.tsk.tcb.rcvWnd = 0) := by simp [SkBuff.dlen, empty]
  unfold tcpVerifySegment
  rw [if_neg dlen, pure.inSequence]
  split
  · rename_i outside
    rcases outside with old | wraps
    · exact absurd old (UInt32.lt_irrefl _)
    · exact ⟨fun h => by contradiction, fun inside => absurd wraps inside⟩
  · rename_i inside
    exact ⟨fun _ wraps => inside (.inr wraps), fun _ => rfl⟩

theorem tcpInputState_synchronized (sync : s.tsk.state.synchronized = true) :
    tcpInputState s th skb = inputOtherwise s th skb := by
  unfold tcpInputState
  cases at_state : s.tsk.state <;> simp_all [TcpState.synchronized]

theorem inputAck_state_synchronized (th : TcpHdr) (sync : s.tsk.state.synchronized = true) :
    (inputAck s th).1.tsk.state = s.tsk.state := by
  rcases (inputAck_moves s th).1 with same | ⟨at_state, -⟩
  · exact same
  · rw [at_state] at sync
    contradiction

theorem inputFinAcked_silent (pass : ¬(s.tsk.state = .timeWait ∧ s.tsk.writeQueue = [])) :
    (inputFinAcked s th).out = s.out := by
  unfold inputFinAcked
  split
  · rename_i none
    split
    · rfl
    · rfl
    · rename_i waits
      exact absurd ⟨waits, by simpa [skbQueueEmpty] using none⟩ pass
    · rfl
  · rfl

theorem inputAck_timeWait (waits : s.tsk.state = .timeWait) : inputAck s th = (s, true) := by
  unfold inputAck
  rw [waits]

theorem tcpClearQueues_out (s : Conn) : (tcpClearQueues s).out = s.out := by
  obtain ⟨freed, eq⟩ := skbQueueFree_eq s s.tsk.ofoQueue
  unfold tcpClearQueues
  rw [eq]

theorem tcpDone_out (s : Conn) : (tcpDone s).out = s.out := by
  unfold tcpDone socketDelete tcpFree
  split <;> exact tcpClearQueues_out _

/- Outside those states an ACK in sequence is not answered by a bare segment. -/
theorem tcpInputState_silent (skb : SkBuff) (weighted : Weighted s) (sync : s.tsk.state.synchronized = true)
    (pure : PureAck s th) (empty : skb.payload = []) (pass : ¬AnswersAck s) :
    ∃ more, (tcpInputState s th skb).out = s.out ++ more ∧ ∀ seg ∈ more, ¬seg.Bare := by
  have verified := (tcpVerifySegment_pure pure empty).mpr fun wraps => pass (.inl wraps)
  have dlen : ¬0 < skb.dlen := by simp [SkBuff.dlen, empty]
  have acked := inputAck_out s th
  have state := inputAck_state_synchronized th sync
  rw [tcpInputState_synchronized sync]
  refine inputOtherwise_cases s th skb ?_ ?_ ?_ ?_ ?_ ?_
  · intro refused
    rw [verified] at refused
    contradiction
  · intro _ rst
    rw [pure.rst] at rst
    contradiction
  · intro _ _ flags
    rw [pure.syn, pure.ack] at flags
    simp at flags
  · intro _ _ _ _ _
    exact ⟨[], by rw [freeSkb_out, acked, List.append_nil], by simp⟩
  · intro _ _ _ _ _ _ _
    exact ⟨[], by rw [tcpDone_out, freeSkb_out, acked, List.append_nil], by simp⟩
  · intro _ _ _ _ _ _
    have heavy := (inputAck_weighted th weighted sync).frame (inputFinAcked_send _ th)
    have silent : (inputFinAcked (inputAck s th).1 th).out = s.out := by
      rw [inputFinAcked_silent, acked]
      rintro ⟨waits, none⟩
      refine pass (.inr ⟨state.symm.trans waits, ?_⟩)
      rw [inputAck_timeWait (state.symm.trans waits)] at none
      exact none
    generalize inputFinAcked (inputAck s th).1 th = u at heavy silent
    have text : inputText u th skb = (u, skb) := by
      unfold inputText
      split <;> simp [pure.psh, dlen]
    unfold inputTail
    rw [text, freeSkb_out, ← silent]
    have noFin : inputTextFin u th (decide (skb.seq = u.tsk.tcb.rcvNxt)) = u := by
      simp [inputTextFin, pure.fin]
    rw [noFin]
    unfold inputExpected
    split
    iterate 3 (split; exact inputDelack_emits heavy pure.psh empty; exact ⟨[], by simp, by simp⟩)
    exact ⟨[], by simp, by simp⟩

/- The answer is again an ACK without text or any other flag. -/
structure AckReply (s : Conn) (seg : Segment) : Prop where
  bare : seg.Bare
  ack : seg.th.ack = true
  rst : seg.th.rst = false
  psh : seg.th.psh = false
  seq : seg.th.seq = s.tsk.tcb.sndNxt
  sport : seg.th.sport = s.tsk.sport
  dport : seg.th.dport = s.tsk.dport

theorem AckReply.of_eq {seg : Segment} (reply : AckReply s seg) (nxt : t.tsk.tcb.sndNxt = s.tsk.tcb.sndNxt)
    (sport : t.tsk.sport = s.tsk.sport) (dport : t.tsk.dport = s.tsk.dport) : AckReply t seg :=
  ⟨reply.bare, reply.ack, reply.rst, reply.psh, nxt ▸ reply.seq, sport ▸ reply.sport,
    dport ▸ reply.dport⟩

theorem tcpTransmitSkb_reply (s : Conn) (k : SkBuff) (payload : k.payload = []) (fin : k.th.fin = false)
    (syn : k.th.syn = false) (ack : k.th.ack = true) (rst : k.th.rst = false)
    (psh : k.th.psh = false) : ∃ seg,
      (tcpTransmitSkb s k s.tsk.tcb.sndNxt).1.out = s.out ++ [seg] ∧ AckReply s seg := by
  unfold tcpTransmitSkb
  dsimp only
  have flags : ∀ th : TcpHdr, th = (if k.th.hl = 0 then { k.th with hl := 5 } else k.th) →
      th.fin = false ∧ th.syn = false ∧ th.ack = true ∧ th.rst = false ∧ th.psh = false := by
    rintro th rfl
    split <;> exact ⟨fin, syn, ack, rst, psh⟩
  generalize (if k.th.hl = 0 then { k.th with hl := 5 } else k.th) = th at flags
  obtain ⟨fin, syn, ack, rst, psh⟩ := flags th rfl
  obtain ⟨data, written⟩ := tcpWriteOptions_th s.tsk th
  refine ⟨_, rfl, ?_⟩
  split
  · rw [written]
    exact ⟨⟨payload, fin, syn⟩, ack, rst, psh, rfl, rfl, rfl⟩
  · exact ⟨⟨payload, fin, syn⟩, ack, rst, psh, rfl, rfl, rfl⟩

theorem tcpSendAck_reply (s : Conn) (opened : s.tsk.state ≠ .close) :
    ∃ seg, (tcpSendAck s).out = s.out ++ [seg] ∧ AckReply s seg := by
  unfold tcpSendAck
  rw [if_neg opened]
  dsimp only
  rw [freeSkb_out]
  obtain ⟨seg, out, reply⟩ := tcpTransmitSkb_reply (tcpAllocSkb s (tcpOptionsLen s.tsk) []).1
    { (tcpAllocSkb s (tcpOptionsLen s.tsk) []).2 with
      th := { (tcpAllocSkb s (tcpOptionsLen s.tsk) []).2.th with
        ack := true, hl := Fin.ofNat 16 (TCP_DOFFSET + tcpOptionsLen s.tsk / 4) } }
    rfl rfl rfl rfl rfl rfl
  exact ⟨seg, out, reply.of_eq rfl rfl rfl⟩

/- In those states it is answered, and the state stays one of them. -/
theorem tcpInputState_answers (skb : SkBuff) (sync : s.tsk.state.synchronized = true) (pure : PureAck s th)
    (empty : skb.payload = []) (answers : AnswersAck s) :
    ∃ flags seg, Same { s with tsk.flags := flags } (tcpInputState s th skb) ∧
      (tcpInputState s th skb).out = s.out ++ [seg] ∧ AckReply s seg := by
  have opened : s.tsk.state ≠ .close := by
    intro closed
    rw [closed] at sync
    contradiction
  have verified := tcpVerifySegment_pure pure empty
  rw [tcpInputState_synchronized sync]
  by_cases wraps : s.tsk.tcb.rcvNxt + s.tsk.tcb.rcvWnd < s.tsk.tcb.rcvNxt
  · have refused : tcpVerifySegment s.tsk th skb = false := by
      rw [Bool.eq_false_iff]
      exact fun inside => verified.mp inside wraps
    obtain ⟨seg, out, reply⟩ := tcpSendAck_reply s opened
    refine ⟨s.tsk.flags, seg, ?_, ?_, reply⟩
    · simp only [inputOtherwise, refused, pure.rst]
      exact ((tcpSendAck_minor s).trans (freeSkb_minor _ _)).same
    · simp only [inputOtherwise, refused, pure.rst]
      exact (freeSkb_out _ _).trans out
  · obtain ⟨waits, none⟩ := answers.resolve_left wraps
    have expected : inputFinAcked s th = tcpSendAck { s with tsk.flags := s.tsk.flags ||| TCP_FIN } := by
      unfold inputFinAcked
      simp [none, waits, skbQueueEmpty, pure.inSequence]
    obtain ⟨seg, out, reply⟩ := tcpSendAck_reply { s with tsk.flags := s.tsk.flags ||| TCP_FIN } opened
    have minor := tcpSendAck_minor { s with tsk.flags := s.tsk.flags ||| TCP_FIN }
    have later : (tcpSendAck { s with tsk.flags := s.tsk.flags ||| TCP_FIN }).tsk.state = .timeWait :=
      minor.same.state.trans waits
    have tail : inputOtherwise s th skb =
        freeSkb (tcpSendAck { s with tsk.flags := s.tsk.flags ||| TCP_FIN }) skb := by
      generalize tcpSendAck { s with tsk.flags := s.tsk.flags ||| TCP_FIN } = u at expected later
      have still : inputTail u th skb = freeSkb u skb := by
        unfold inputTail inputText inputExpected inputTextFin
        simp [later, pure.fin]
      unfold inputOtherwise
      simp [verified.mpr wraps, pure.rst, pure.syn, pure.ack, inputAck_timeWait waits, waits, expected,
        still]
    rw [tail]
    exact ⟨_, seg, (minor.trans (freeSkb_minor _ _)).same, (freeSkb_out _ _).trans out,
      reply.of_eq rfl rfl rfl⟩

/-! ### Two ends -/

/-- The two ends answer each other's empty ACKs in turn `n` times, `s` the one that got `th` first. -/
def Volley : Nat → Conn → Conn → TcpHdr → Prop
  | 0, _, _, _ => True
  | n + 1, s, u, th => PureAck s th ∧ ∃ t r, exec s (.segment th []) = some (t, r) ∧
      ∃ seg ∈ emitted s t, seg.Bare ∧ Volley n u t seg.th

/-- The next number that each is to send is the one that the other expects. -/
structure Facing (s u : Conn) : Prop where
  registered : s.sock.registered = true ∧ u.sock.registered = true
  ports : s.tsk.sport = u.tsk.dport ∧ s.tsk.dport = u.tsk.sport
  numbers : s.tsk.tcb.sndNxt = u.tsk.tcb.rcvNxt ∧ u.tsk.tcb.sndNxt = s.tsk.tcb.rcvNxt

theorem PureAck.arriving (pure : PureAck s th) : PureAck (arriving s th []) th :=
  ⟨pure.inSequence, pure.ack, pure.syn, pure.fin, pure.rst, pure.psh⟩

theorem pureAck_silent {r : Reply} (weighted : Weighted s) (sync : s.tsk.state.synchronized = true)
    (pure : PureAck s th) (taken : exec s (.segment th []) = some (t, r)) (pass : ¬AnswersAck s) :
    ∀ seg ∈ emitted s t, ¬seg.Bare := by
  obtain ⟨-, -, -, rfl⟩ := exec_segment_taken taken
  obtain ⟨more, out, heavy⟩ := tcpInputState_silent (s := HfIp.arriving s th [])
    (tcpInitSegment s th []).2 ⟨weighted.smss, weighted.queue⟩ sync pure.arriving rfl pass
  rw [emitted_of_append (s := s) (t := tcpIn s th []) out]
  exact heavy

theorem pureAck_answers {r : Reply} (sync : s.tsk.state.synchronized = true) (pure : PureAck s th)
    (taken : exec s (.segment th []) = some (t, r)) (answers : AnswersAck s) :
    ∃ flags seg, Same { s with tsk.flags := flags } t ∧ emitted s t = [seg] ∧ AckReply s seg := by
  obtain ⟨-, -, -, rfl⟩ := exec_segment_taken taken
  obtain ⟨flags, seg, same, out, reply⟩ := tcpInputState_answers (s := HfIp.arriving s th [])
    (tcpInitSegment s th []).2 sync pure.arriving rfl answers
  exact ⟨flags, seg, same.trans (socketRelease_minor _).same,
    emitted_of_append (s := s) (t := tcpIn s th []) out, reply.of_eq rfl rfl rfl⟩

/- The answer is an empty ACK in sequence at the other end, and the end that gave it is as before. -/
theorem Facing.answered {flags : UInt8} (facing : Facing s u)
    (same : Same { s with tsk.flags := flags } t) : Facing u t := by
  have sport : t.tsk.sport = s.tsk.sport := congrArg (·.tsk.sport) same
  have dport : t.tsk.dport = s.tsk.dport := congrArg (·.tsk.dport) same
  have tcb : t.tsk.tcb = s.tsk.tcb := same.tcb
  refine ⟨⟨facing.registered.2, same.registered.trans facing.registered.1⟩, ?_, ?_⟩
  · rw [sport, dport]
    exact ⟨facing.ports.2.symm, facing.ports.1.symm⟩
  · rw [tcb]
    exact ⟨facing.numbers.2, facing.numbers.1⟩

theorem AckReply.pure {seg : Segment} (reply : AckReply s seg)
    (next : s.tsk.tcb.sndNxt = u.tsk.tcb.rcvNxt) : PureAck u seg.th :=
  ⟨reply.seq.trans next, reply.ack, reply.bare.2.2, reply.bare.2.1, reply.rst, reply.psh⟩

theorem AnswersAck.answered {flags : UInt8} (answers : AnswersAck s)
    (same : Same { s with tsk.flags := flags } t) : AnswersAck t := by
  have tcb : t.tsk.tcb = s.tsk.tcb := same.tcb
  have state : t.tsk.state = s.tsk.state := same.state
  have queue : t.tsk.writeQueue = s.tsk.writeQueue := same.writeQueue
  unfold AnswersAck
  rw [tcb, state, queue]
  exact answers

/- Once both ends are in such a state and face each other the volley has no end. -/
theorem volley_endless (n : Nat) (sync : s.tsk.state.synchronized = true)
    (sync' : u.tsk.state.synchronized = true) (answers : AnswersAck s) (answers' : AnswersAck u)
    (facing : Facing s u) (pure : PureAck s th) (ports : th.dport = s.tsk.sport ∧ th.sport = s.tsk.dport) :
    Volley n s u th := by
  induction n generalizing s u th with
  | zero => trivial
  | succ n ih =>
    have taken : exec s (.segment th []) = some (tcpIn s th [], .none) := by
      simp [exec, facing.registered.1, ports.1, ports.2]
    obtain ⟨flags, seg, same, sent, reply⟩ := pureAck_answers sync pure taken answers
    have state : (tcpIn s th []).tsk.state = s.tsk.state := same.state
    refine ⟨pure, _, _, taken, seg, by simp [sent], reply.bare, ?_⟩
    refine ih sync' (state ▸ sync) answers' (answers.answered same) (facing.answered same)
      (reply.pure facing.numbers.1) ⟨?_, ?_⟩
    · exact reply.dport.trans facing.ports.2
    · exact reply.sport.trans facing.ports.1

/- An end of a connection that both ends close at once, up to the ACK of its FIN: the other end's port
   and initial number are `peer` and `irs`. -/
def closedTogether (port peer : UInt16) (iss irs : UInt32) : List Event :=
  let th : TcpHdr := { sport := peer, dport := port, seq := irs, ackSeq := iss + 1, hl := 5, ack := true }
  [.fcntlSetfl (O_RDWR ||| O_NONBLOCK), .connect ⟨2, 16, peer, parseIpv4 10 0 0 5⟩ port iss,
    .segment { th with syn := true } [], .close, .segment { th with seq := irs + 1, fin := true } [],
    .segment { th with seq := irs + 2, ackSeq := iss + 2 } []]

end HfIp
