import HfIp.Receive

/- The reader's side of a connection over whole runs: what the queue, the flags, the POLLIN bit and
   the state say about each other between events. -/
namespace HfIp

open Transition

/- The state in which `tcp_input_state` gets a segment. -/
def arriving (s : Conn) (th : TcpHdr) (payload : List UInt8) : Conn :=
  socketWrAcquire (tcpInitSegment s th payload).1

theorem exec_segment_taken {s t : Conn} {th : TcpHdr} {payload : List UInt8} {r : Reply}
    (taken : exec s (.segment th payload) = some (t, r)) : s.sock.registered = true ∧
      th.dport = s.tsk.sport ∧ th.sport = s.tsk.dport ∧ t = tcpIn s th payload := by
  simp only [exec] at taken
  split at taken
  · rename_i here
    simp only [Bool.and_eq_true, decide_eq_true_eq] at here
    obtain ⟨rfl, -⟩ := by simpa using taken
    exact ⟨here.1.1, here.1.2, here.2, rfl⟩
  · contradiction

/-- The event is a segment whose FIN is processed, in sequence. -/
def TakesFin (s : Conn) : Event → Prop
  | .segment th payload => s.tsk.state.synchronizes = true ∧
      Passes (arriving s th payload) th (tcpInitSegment s th payload).2 ∧ th.fin = true ∧
      th.seq = s.tsk.tcb.rcvNxt
  | _ => False

instance (s : Conn) (e : Event) : Decidable (TakesFin s e) := by
  induction e using Event.casesOn <;> unfold TakesFin <;> infer_instance

/-- The event is a read that is told the end, and takes the FIN flag back. -/
def TakesEof (s : Conn) : Event → Prop
  | .read _ => AtEof s
  | _ => False

instance (s : Conn) (e : Event) : Decidable (TakesEof s e) := by
  induction e using Event.casesOn <;> unfold TakesEof <;> infer_instance

def Readable (s : Conn) : Prop := s.tsk.pollEvents &&& POLLIN ≠ 0

instance (s : Conn) : Decidable (Readable s) := inferInstanceAs (Decidable (_ ≠ _))

def FinFlag (s : Conn) : Prop := s.tsk.flags &&& TCP_FIN ≠ 0

instance (s : Conn) : Decidable (FinFlag s) := inferInstanceAs (Decidable (_ ≠ _))

/-- `fin` says that the peer's FIN has been processed and `eof` that a read has been told of it.
    Each buffer is worth a wakeup: it has payload, or the PSH bit. -/
structure ReaderInv (fin eof : Prop) (s : Conn) : Prop where
  psh : s.tsk.flags &&& TCP_PSH = 0
  worth : ∀ k, k ∈ s.tsk.receiveQueue ∨ k ∈ s.tsk.ofoQueue → k.payload ≠ [] ∨ k.th.psh = true
  outside : s.tsk.state.phase = .outside → s.tsk.receiveQueue = [] ∧ ¬Readable s
  clear : s.tsk.state.phase ≠ .finished → ¬FinFlag s
  text : s.tsk.state.phase = .text → (Readable s ↔ s.tsk.receiveQueue ≠ [])
  known : s.tsk.state = .closeWait → fin
  flagged : s.tsk.state = .closeWait → FinFlag s → Readable s
  ending : s.tsk.state = .closeWait → ¬eof →
    (Readable s ↔ s.tsk.receiveQueue ≠ [] ∨ FinFlag s)

variable {fin eof : Prop} {s t : Conn}

theorem ReaderInv.weaken {fin' eof' : Prop} (inv : ReaderInv fin eof s) (more : fin → fin')
    (less : eof → eof') : ReaderInv fin' eof' s :=
  { inv with
    known := fun waiting => more (inv.known waiting)
    ending := fun waiting fresh => inv.ending waiting fun h => fresh (less h) }

theorem StepsAside.phase {a b : TcpState} (moves : StepsAside a b) :
    b.phase = a.phase ∨ b.aside = true := by
  rcases moves with rfl | gone | ⟨text, active⟩
  · exact .inl rfl
  · exact .inr gone
  · refine .inl ?_
    rw [text]
    cases b <;> simp_all [TcpState.active2, TcpState.phase]

theorem TcpState.aside_finished {a : TcpState} (gone : a.aside = true) :
    a.phase = .finished ∧ a ≠ .closeWait := by
  cases a <;> simp_all [aside, phase]

/- Once the state is aside, only the flags and the buffers matter. -/
theorem ReaderInv.of_aside (psh : t.tsk.flags &&& TCP_PSH = 0)
    (worth : ∀ k, k ∈ t.tsk.receiveQueue ∨ k ∈ t.tsk.ofoQueue → k.payload ≠ [] ∨ k.th.psh = true)
    (gone : t.tsk.state.aside = true) : ReaderInv fin eof t := by
  obtain ⟨phase, other⟩ := TcpState.aside_finished gone
  exact {
    psh := psh
    worth := worth
    outside := fun h => by rw [phase] at h; cases h
    clear := fun h => absurd phase h
    text := fun h => by rw [phase] at h; cases h
    known := fun h => absurd h other
    flagged := fun h => absurd h other
    ending := fun h => absurd h other }

theorem ReaderInv.congr (inv : ReaderInv fin eof s) (flags : t.tsk.flags = s.tsk.flags)
    (queue : t.tsk.receiveQueue = s.tsk.receiveQueue) (ofo : t.tsk.ofoQueue = s.tsk.ofoQueue)
    (poll : t.tsk.pollEvents &&& POLLIN = s.tsk.pollEvents &&& POLLIN)
    (state : t.tsk.state = s.tsk.state) : ReaderInv fin eof t := by
  obtain ⟨psh, worth, outside, clear, text, known, flagged, ending⟩ := inv
  simp only [Readable, FinFlag] at outside clear text flagged ending
  constructor <;> simp only [Readable, FinFlag, flags, queue, ofo, poll, state] <;> assumption

theorem ReaderInv.frame (inv : ReaderInv fin eof s) (reads : Reads s t) : ReaderInv fin eof t := by
  have worth : ∀ k, k ∈ t.tsk.receiveQueue ∨ k ∈ t.tsk.ofoQueue →
      k.payload ≠ [] ∨ k.th.psh = true := by
    intro k member
    rw [reads.receiveQueue] at member
    exact inv.worth k (member.imp_right (reads.ofo k))
  have readable : Readable t ↔ Readable s := by
    unfold Readable
    rw [reads.poll]
  have flag : FinFlag t ↔ FinFlag s := by
    unfold FinFlag
    rw [reads.flags]
  rcases reads.moves.phase with same | gone
  · have waiting : t.tsk.state = .closeWait → s.tsk.state = .closeWait := by
      intro h
      rcases reads.moves with eq | gone | ⟨-, active⟩
      · exact eq.symm.trans h
      · rw [h] at gone
        cases gone
      · rw [h] at active
        cases active
    exact {
      psh := by rw [reads.flags]; exact inv.psh
      worth := worth
      outside := by rw [same, reads.receiveQueue, readable]; exact inv.outside
      clear := by rw [same, flag]; exact inv.clear
      text := by rw [same, reads.receiveQueue, readable]; exact inv.text
      known := fun h => inv.known (waiting h)
      flagged := fun h => by rw [flag, readable]; exact inv.flagged (waiting h)
      ending := fun h => by rw [reads.receiveQueue, readable, flag]; exact inv.ending (waiting h) }
  · exact .of_aside (by rw [reads.flags]; exact inv.psh) worth gone

/- What the events of a connection keep, as long as it is registered. -/
def ReaderKept (fin eof : Prop) (s : Conn) : Prop :=
  s.sock.registered = true → ReaderInv fin eof s

theorem ReaderKept.frame (kept : ReaderKept fin eof s) (reads : Reads s t) :
    ReaderKept fin eof t := by
  intro registered
  rw [reads.registered] at registered
  exact (kept registered).frame reads

theorem ReaderKept.idle (kept : ReaderKept fin eof s) (idle : Idle s t) :
    ReaderKept fin eof t := by
  have same : t.sock.registered = s.sock.registered := congrArg (·.sock.registered) idle
  have flags : t.tsk.flags = s.tsk.flags := congrArg (·.tsk.flags) idle
  have queue : t.tsk.receiveQueue = s.tsk.receiveQueue := congrArg (·.tsk.receiveQueue) idle
  have ofo : t.tsk.ofoQueue = s.tsk.ofoQueue := congrArg (·.tsk.ofoQueue) idle
  have poll : t.tsk.pollEvents = s.tsk.pollEvents := congrArg (·.tsk.pollEvents) idle
  have state : t.tsk.state = s.tsk.state := congrArg (·.tsk.state) idle
  intro registered
  exact (kept (same ▸ registered)).congr flags queue ofo (by rw [poll]) state

/-! ### Text and FIN -/

theorem readable_set (events : UInt16) :
    (events ||| (POLLIN ||| POLLPRI ||| POLLRDNORM ||| POLLRDBAND)) &&& POLLIN ≠ 0 := by
  intro none
  have bit := congrArg (fun x : UInt16 => x.toBitVec.getLsbD 0) none
  simp [POLLIN, POLLPRI, POLLRDNORM, POLLRDBAND] at bit

theorem consumeLoop_split (rcvNxt : UInt32) (queue : List SkBuff) :
    (consumeLoop rcvNxt queue).2.1 ++ (consumeLoop rcvNxt queue).2.2 = queue := by
  induction queue generalizing rcvNxt with
  | nil => rfl
  | cons skb rest ih =>
    rw [consumeLoop]
    split
    · exact congrArg (skb :: ·) (ih _)
    · rfl

theorem inputFin_queue (s : Conn) : (inputFin s).tsk.receiveQueue = s.tsk.receiveQueue := by
  have acked := (tcpSendAck_reads (pollReadable { s with
    tsk.tcb.rcvNxt := s.tsk.tcb.rcvNxt + 1, tsk.flags := s.tsk.flags ||| TCP_FIN })).receiveQueue
  unfold inputFin
  dsimp only
  split
  · exact acked
  · exact acked
  · split
    · exact acked
    · exact acked
  · exact acked
  · exact acked

/- A state to which the FIN has not come yet, or not without text in front of it. -/
theorem ReaderInv.of_text (psh : t.tsk.flags &&& TCP_PSH = 0)
    (worth : ∀ k, k ∈ t.tsk.receiveQueue ∨ k ∈ t.tsk.ofoQueue → k.payload ≠ [] ∨ k.th.psh = true)
    (in_text : t.tsk.state.phase = .text) (flag : ¬FinFlag t)
    (readable : Readable t ↔ t.tsk.receiveQueue ≠ []) : ReaderInv fin eof t := by
  have open_ : t.tsk.state ≠ .closeWait := by
    intro h
    rw [h] at in_text
    cases in_text
  exact {
    psh := psh
    worth := worth
    outside := fun h => by rw [in_text] at h; cases h
    clear := fun _ => flag
    text := fun _ => readable
    known := fun h => absurd h open_
    flagged := fun h => absurd h open_
    ending := fun h => absurd h open_ }

theorem tcpDataInsertOrdered_worth {k skb : SkBuff} {queue : List SkBuff}
    (member : k ∈ (tcpDataInsertOrdered queue skb).1) :
    (k.payload = skb.payload ∧ k.th = skb.th) ∨ k ∈ queue := by
  unfold tcpDataInsertOrdered at member
  dsimp only at member
  split at member
  · rename_i inserted
    rcases insertOrdered_mem inserted member with rfl | old
    · exact .inl ⟨rfl, rfl⟩
    · exact .inr old
  · exact .inr member

theorem ReaderInv.queues (inv : ReaderInv fin eof s) (skb : SkBuff)
    (in_text : s.tsk.state.phase = .text) (worth : skb.payload ≠ [] ∨ skb.th.psh = true) :
    ReaderInv fin eof (tcpDataQueue s skb).1 := by
  have flag : ¬FinFlag s := inv.clear (by rw [in_text]; simp)
  unfold tcpDataQueue
  split
  · exact inv.frame (freeSkb_reads s skb)
  · split
    · have split := consumeLoop_split (s.tsk.tcb.rcvNxt + skb.dlen) s.tsk.ofoQueue
      refine .of_text inv.psh ?_ in_text flag ⟨fun _ none => ?_, fun _ => readable_set _⟩
      · intro k member
        have places : k = { skb with refcnt := skb.refcnt + 1 } ∨
            k ∈ s.tsk.receiveQueue ∨ k ∈ s.tsk.ofoQueue := by
          rw [← split]
          rcases member with queued | left
          · rcases List.mem_append.mp queued with first | moved
            · rcases List.mem_append.mp first with old | new
              · exact .inr (.inl old)
              · exact .inl (List.mem_singleton.mp new)
            · exact .inr (.inr (List.mem_append_left _ moved))
          · exact .inr (.inr (List.mem_append_right _ left))
        rcases places with rfl | old
        · exact worth
        · exact inv.worth k old
      · simp [recvNotify, pollReadable, tcpConsumeOfoQueue, skbQueueTail] at none
    · have stored : ReaderInv fin eof
          { s with tsk.ofoQueue := (tcpDataInsertOrdered s.tsk.ofoQueue skb).1 } := by
        refine .of_text inv.psh ?_ in_text flag (inv.text in_text)
        intro k member
        rcases member with old | stored
        · exact inv.worth k (.inl old)
        · rcases tcpDataInsertOrdered_worth stored with ⟨payload, th⟩ | old
          · rw [payload, th]
            exact worth
          · exact inv.worth k (.inr old)
      refine ReaderInv.frame ?_ (tcpSendAck_reads _)
      dsimp only
      split
      · exact stored.frame (tcpCalculateSacks_reads _)
      · exact stored

theorem TcpState.finished_of {a : TcpState} (synchronized : a.phase ≠ .outside)
    (opened : a ≠ .established) (closes : a ≠ .finWait1) (closed : a ≠ .finWait2) :
    a.phase = .finished := by
  cases a <;> simp_all [phase]

/- A state that the FIN has led to, with the flag still set. -/
theorem ReaderInv.of_finished (psh : t.tsk.flags &&& TCP_PSH = 0)
    (worth : ∀ k, k ∈ t.tsk.receiveQueue ∨ k ∈ t.tsk.ofoQueue → k.payload ≠ [] ∨ k.th.psh = true)
    (phase : t.tsk.state.phase = .finished) (taken : fin) (flag : FinFlag t)
    (readable : Readable t) : ReaderInv fin eof t where
  psh := psh
  worth := worth
  outside h := by rw [phase] at h; cases h
  clear h := absurd phase h
  text h := by rw [phase] at h; cases h
  known _ := taken
  flagged _ _ := readable
  ending _ _ := ⟨fun _ => .inr flag, fun _ => readable⟩

/- Both the flag and the POLLIN bit are set. -/
theorem ReaderInv.finishes (inv : ReaderInv fin eof s) (synchronized : s.tsk.state.phase ≠ .outside)
    (taken : fin) : ReaderInv fin eof (inputFin s) := by
  have acked : Reads (pollReadable { s with
      tsk.tcb.rcvNxt := s.tsk.tcb.rcvNxt + 1, tsk.flags := s.tsk.flags ||| TCP_FIN })
      (tcpSendAck (pollReadable { s with
        tsk.tcb.rcvNxt := s.tsk.tcb.rcvNxt + 1, tsk.flags := s.tsk.flags ||| TCP_FIN })) :=
    tcpSendAck_reads _
  have state := (tcpSendAck_minor (pollReadable { s with
    tsk.tcb.rcvNxt := s.tsk.tcb.rcvNxt + 1, tsk.flags := s.tsk.flags ||| TCP_FIN })).same.state
  unfold inputFin
  dsimp only
  generalize tcpSendAck (pollReadable { s with
    tsk.tcb.rcvNxt := s.tsk.tcb.rcvNxt + 1, tsk.flags := s.tsk.flags ||| TCP_FIN }) = u
    at acked state
  have psh : u.tsk.flags &&& TCP_PSH = 0 := by
    rw [acked.flags]
    exact (fin_set_psh _).trans inv.psh
  have worth : ∀ k, k ∈ u.tsk.receiveQueue ∨ k ∈ u.tsk.ofoQueue →
      k.payload ≠ [] ∨ k.th.psh = true := by
    intro k member
    rw [acked.receiveQueue] at member
    exact inv.worth k (member.imp_right (acked.ofo k))
  have flag : FinFlag u := by
    unfold FinFlag
    rw [acked.flags]
    exact fin_set _
  have readable : Readable u := by
    unfold Readable
    rw [acked.poll]
    exact readable_set _
  have finish : ∀ t, t.tsk.flags = u.tsk.flags → t.tsk.receiveQueue = u.tsk.receiveQueue →
      t.tsk.ofoQueue = u.tsk.ofoQueue → t.tsk.pollEvents = u.tsk.pollEvents →
      t.tsk.state.phase = .finished → ReaderInv fin eof t := by
    intro t flags queue ofo poll phase
    refine .of_finished ?_ ?_ phase taken ?_ ?_
    · rw [flags]
      exact psh
    · rw [queue, ofo]
      exact worth
    · unfold FinFlag
      rw [flags]
      exact flag
    · unfold Readable
      rw [poll]
      exact readable
  split
  · exact finish _ rfl rfl rfl rfl rfl
  · exact finish _ rfl rfl rfl rfl rfl
  · split
    · exact finish _ rfl rfl rfl rfl rfl
    · exact finish _ rfl rfl rfl rfl rfl
  · exact finish _ rfl rfl rfl rfl rfl
  · rename_i received opened closes closed
    rw [← show u.tsk.state = s.tsk.state from state] at synchronized
    exact finish _ rfl rfl rfl rfl (TcpState.finished_of synchronized opened closes closed)

/-! ### The handshake and resets -/

theorem ReaderInv.opens (inv : ReaderInv fin eof s) (waiting : s.tsk.state = .synReceived) :
    ReaderInv fin eof (setState s .established) := by
  have outside : s.tsk.state.phase = .outside := by rw [waiting]; rfl
  obtain ⟨none, unreadable⟩ := inv.outside outside
  refine .of_text inv.psh inv.worth rfl (inv.clear (by rw [outside]; simp)) ?_
  exact ⟨fun h => absurd h unreadable, fun h => absurd none h⟩

theorem ReaderInv.again (inv : ReaderInv fin eof s) (gone : s.tsk.state = .timeWait) :
    ReaderInv fin eof { s with tsk.flags := s.tsk.flags ||| TCP_FIN } := by
  refine .of_aside ?_ inv.worth ?_
  · exact (fin_set_psh _).trans inv.psh
  · dsimp only
    rw [gone]
    rfl

theorem ReaderInv.of_done (psh : s.tsk.flags &&& TCP_PSH = 0)
    (worth : ∀ k, k ∈ s.tsk.receiveQueue ∨ k ∈ s.tsk.ofoQueue → k.payload ≠ [] ∨ k.th.psh = true) :
    ReaderInv fin eof (tcpDone s) := by
  have done := tcpDone_reads s
  refine .of_aside ?_ ?_ ?_
  · rw [done.flags]
    exact psh
  · intro k member
    rw [done.receiveQueue] at member
    exact worth k (member.imp_right (done.ofo k))
  · rw [tcpDone_state]
    rfl

theorem ReaderInv.refused (inv : ReaderInv fin eof s) (waiting : s.tsk.state = .synSent) :
    ReaderInv fin eof (tcpReset s) := by
  unfold tcpReset
  simp only [waiting]
  exact .of_done inv.psh inv.worth

/- Nothing has been received before the handshake is over. -/
theorem ReaderInv.of_outside (inv : ReaderInv fin eof s) (before : s.tsk.state.phase = .outside)
    (flags : t.tsk.flags = s.tsk.flags) (queue : t.tsk.receiveQueue = s.tsk.receiveQueue)
    (ofo : ∀ k ∈ t.tsk.ofoQueue, k ∈ s.tsk.ofoQueue) (unreadable : ¬Readable t)
    (after : t.tsk.state.phase ≠ .finished) : ReaderInv fin eof t := by
  have none : t.tsk.receiveQueue = [] := queue.trans (inv.outside before).1
  have flag : ¬FinFlag t := by
    unfold FinFlag
    rw [flags]
    exact inv.clear (by rw [before]; simp)
  have worth : ∀ k, k ∈ t.tsk.receiveQueue ∨ k ∈ t.tsk.ofoQueue →
      k.payload ≠ [] ∨ k.th.psh = true := by
    intro k member
    rw [queue] at member
    exact inv.worth k (member.imp_right (ofo k))
  have open_ : t.tsk.state ≠ .closeWait := by
    intro h
    rw [h] at after
    exact after rfl
  exact {
    psh := by rw [flags]; exact inv.psh
    worth := worth
    outside := fun _ => ⟨none, unreadable⟩
    clear := fun _ => flag
    text := fun _ => ⟨fun h => absurd h unreadable, fun h => absurd none h⟩
    known := fun h => absurd h open_
    flagged := fun h => absurd h open_
    ending := fun h => absurd h open_ }

theorem synsentAck_reads (s : Conn) (th : TcpHdr) :
    Reads { s with tsk.tcb.rcvNxt := th.seq + 1 } (synsentAck s th) := by
  unfold synsentAck
  dsimp only
  split
  · exact (tcpCleanRtoQueue_reads _ _).after (.of_eq rfl rfl rfl rfl)
  · exact .of_eq rfl rfl rfl rfl

/- The socket is marked writable, and nothing more. -/
theorem synsentEstablish_reads (s : Conn) (th : TcpHdr) :
    Reads { s with
      tsk.pollEvents := POLLOUT ||| POLLWRNORM ||| POLLWRBAND, tsk.state := .established }
      (synsentEstablish s th) := by
  unfold synsentEstablish
  dsimp only
  have acked : Reads { setState s .established with
      tsk.tcb.sndUna := (setState s .established).tsk.tcb.sndNxt, tsk.backoff := 0
      tsk.rto := 1000 } _ := (tcpSendAck_reads _).trans (tcpRearmUserTimeout_reads _)
  have parsed := acked.trans (tcpParseOpts_reads _ th)
  exact ⟨parsed.view, parsed.ofo, rfl, parsed.moves⟩

theorem tcpV4Connect_reads (s : Conn) (addr : SockAddr) (port : UInt16) (iss : UInt32)
    (closed : s.tsk.state = .close) :
    Reads { s with
      tsk.dport := addr.port, tsk.sport := port, tsk.daddr := addr.addr
      tsk.saddr := parseIpv4 10 0 0 4
      tsk.tcb.rcvNxt := 0, tsk.tcb.rcvWnd := tcpSelectInitialWindow, tsk.state := .synSent }
      (tcpV4Connect s addr port iss) := by
  unfold tcpV4Connect tcpConnect tcpSendSyn
  simp only [closed]
  rw [if_neg (by simp)]
  refine Reads.trans (Reads.trans ?_ (tcpQueueTransmitSkb_reads _ _)) (.of_eq rfl rfl rfl rfl)
  exact .of_eq rfl rfl rfl rfl

theorem ReaderInv.syn {th : TcpHdr} (inv : ReaderInv fin eof s) (taken : SynTaken s th) :
    ReaderInv fin eof (synsentSyn s th) := by
  have before : s.tsk.state.phase = .outside := by
    rw [taken.waiting]
    rfl
  have acked := synsentAck_reads s th
  have waiting := (synsentAck_stays s th).state.trans taken.waiting
  unfold synsentSyn
  generalize synsentAck s th = u at acked waiting
  dsimp only
  split
  · have opened := synsentEstablish_reads u th
    have state := (synsentEstablish_state u th).1
    refine inv.of_outside before ?_ ?_ ?_ ?_ ?_
    · rw [opened.flags]
      exact acked.flags
    · rw [opened.receiveQueue]
      exact acked.receiveQueue
    · exact fun k member => acked.ofo k (opened.ofo k member)
    · unfold Readable
      rw [opened.poll]
      dsimp only
      decide
    · rw [state]
      simp [TcpState.phase]
  · rw [tcpSendSynack_minor _ (by simp [setState])]
    refine inv.of_outside before acked.flags acked.receiveQueue acked.ofo ?_ ?_
    · have poll := acked.poll
      unfold Readable
      exact fun h => (inv.outside before).2 (by unfold Readable; rw [← poll]; exact h)
    · simp [setState, TcpState.phase]

theorem ReaderInv.connects (inv : ReaderInv fin eof s) (addr : SockAddr) (port : UInt16)
    (iss : UInt32) (closed : s.tsk.state = .close) :
    ReaderInv fin eof (tcpV4Connect s addr port iss) := by
  have before : s.tsk.state.phase = .outside := by
    rw [closed]
    rfl
  have sent := tcpV4Connect_reads s addr port iss closed
  refine inv.of_outside before sent.flags sent.receiveQueue sent.ofo ?_ ?_
  · have poll := sent.poll
    unfold Readable
    exact fun h => (inv.outside before).2 (by unfold Readable; rw [← poll]; exact h)
  · rw [(tcpV4Connect_state s addr port iss closed).1]
    simp [TcpState.phase]

theorem ReaderInv.segment (inv : ReaderInv fin eof s) (th : TcpHdr) (skb : SkBuff)
    (here : skb.th = th) (taken : s.tsk.state.synchronizes = true → Passes s th skb →
      th.fin = true → skb.seq = s.tsk.tcb.rcvNxt → fin) :
    ReaderInv fin eof (tcpInputState s th skb) := by
  refine tcpInputState_reads_rule (P := ReaderInv fin eof) (fun u v reads kept => kept.frame reads)
    inv ?_ ?_ ?_ ?_ ?_ ?_ ?_
  · intro waiting _
    exact inv.refused waiting
  · intro syn
    exact inv.syn syn
  · intro waiting
    exact inv.opens waiting
  · intro _ _ _ u _ _ kept
    exact kept.congr rfl rfl rfl rfl rfl
  · intro u gone kept
    exact kept.again gone
  · intro u in_text _ worth kept
    refine kept.queues skb in_text ?_
    rcases worth with psh | long
    · exact .inr (by rw [here]; exact psh)
    · refine .inl fun none => ?_
      unfold SkBuff.dlen at long
      rw [none] at long
      cases long
  · intro u synchronized checked passes flag next kept
    exact kept.finishes synchronized (taken checked passes flag next)

/-! ### Reads -/

theorem ReaderInv.dequeues {n : Nat} {bytes : List UInt8} (inv : ReaderInv fin eof s)
    (d : Dequeued s t n bytes) : ReaderInv fin eof { t with tsk.flags := t.tsk.flags &&& ~~~TCP_PSH } := by
  obtain ⟨freed, rest⟩ := d.rest
  have state : t.tsk.state = s.tsk.state := by rw [rest]
  have ofo : t.tsk.ofoQueue = s.tsk.ofoQueue := by rw [rest]
  have flag : (t.tsk.flags &&& ~~~TCP_PSH) &&& TCP_FIN = s.tsk.flags &&& TCP_FIN := by
    rw [psh_clear_fin, d.fin]
  have kept : t.tsk.receiveQueue ≠ [] → s.tsk.receiveQueue ≠ [] := fun some none =>
    some (d.empty none)
  have readable : Readable t ↔ Readable s ∧ (t.tsk.receiveQueue ≠ [] ∨ FinFlag s) := by
    unfold Readable FinFlag
    rw [d.poll]
    split
    · rename_i done
      simp [done.1, done.2]
    · rename_i more
      refine ⟨fun h => ⟨h, ?_⟩, And.left⟩
      by_contra neither
      rw [not_or, not_not, not_not] at neither
      exact more neither
  generalize cleared : ({ t with tsk.flags := t.tsk.flags &&& ~~~TCP_PSH } : Conn) = u
  have state' : u.tsk.state = s.tsk.state := by rw [← cleared]; exact state
  have queue' : u.tsk.receiveQueue = t.tsk.receiveQueue := by rw [← cleared]
  have ofo' : u.tsk.ofoQueue = s.tsk.ofoQueue := by rw [← cleared]; exact ofo
  have flag' : FinFlag u ↔ FinFlag s := by
    rw [← cleared]
    unfold FinFlag
    rw [flag]
  have readable' : Readable u ↔ Readable s ∧ (t.tsk.receiveQueue ≠ [] ∨ FinFlag s) := by
    rw [← cleared]
    exact readable
  constructor
  · rw [← cleared]
    exact psh_clear _
  · rw [queue', ofo']
    intro k member
    rcases member with left | stored
    · rcases d.left k left with old | some
      · exact inv.worth k (.inl old)
      · exact .inl some
    · exact inv.worth k (.inr stored)
  · rw [state', queue', readable']
    intro phase
    obtain ⟨none, unreadable⟩ := inv.outside phase
    exact ⟨by_contra fun some => kept some none, fun h => unreadable h.1⟩
  · rw [state', flag']
    exact inv.clear
  · rw [state', queue', readable']
    intro phase
    have clear := inv.clear (by rw [phase]; simp)
    constructor
    · exact fun h => h.2.resolve_right clear
    · exact fun some => ⟨(inv.text phase).mpr (kept some), .inl some⟩
  · rw [state']
    exact inv.known
  · rw [state', flag', readable']
    intro waiting flagged
    exact ⟨inv.flagged waiting flagged, .inr flagged⟩
  · rw [state', queue', flag', readable']
    intro waiting fresh
    have ending := inv.ending waiting fresh
    constructor
    · exact fun h => h.2
    · rintro (some | flagged)
      · exact ⟨ending.mpr (.inl (kept some)), .inl some⟩
      · exact ⟨ending.mpr (.inr flagged), .inr flagged⟩

theorem ReaderInv.receives (inv : ReaderInv fin eof s) (len rlen : Nat) :
    ReaderInv fin eof (receiveLoop s len rlen).1 := by
  by_cases room : rlen < len
  · obtain ⟨d, bytes, dequeued, -, reads⟩ := receiveLoop_spec s len rlen room
    refine ReaderInv.frame ?_ reads
    exact (inv.dequeues dequeued).congr rfl rfl rfl rfl rfl
  · rw [receiveLoop_full s len rlen room]
    exact inv.frame (receiveReturn_reads s _)

theorem ReaderInv.told (inv : ReaderInv fin eof s) (ending : AtEof s) (taken : eof) :
    ReaderInv fin eof { s with tsk.flags := s.tsk.flags &&& ~~~TCP_FIN } := by
  obtain ⟨waiting, none, flag⟩ := ending
  have clear : (s.tsk.flags &&& ~~~TCP_FIN) &&& TCP_FIN = 0 := fin_clear _
  have phase : s.tsk.state.phase = .finished := by
    rw [waiting]
    rfl
  exact {
    psh := (fin_clear_psh _).trans inv.psh
    worth := inv.worth
    outside := fun h => by rw [phase] at h; cases h
    clear := fun h => absurd phase h
    text := fun h => by rw [phase] at h; cases h
    known := inv.known
    flagged := fun _ h => absurd clear h
    ending := fun _ fresh => absurd taken fresh }

theorem receiveLoop_registered (s : Conn) (len rlen : Nat) :
    (receiveLoop s len rlen).1.sock.registered = s.sock.registered := by
  by_cases room : rlen < len
  · obtain ⟨d, bytes, dequeued, -, reads⟩ := receiveLoop_spec s len rlen room
    obtain ⟨freed, rest⟩ := dequeued.rest
    refine reads.registered.trans ?_
    dsimp only
    rw [rest]
  · rw [receiveLoop_full s len rlen room]
    exact (receiveReturn_reads s _).registered

/-! ### Events and runs -/

theorem socketFree_registered (s : Conn) : (socketFree s).sock.registered = false := by
  obtain ⟨freed, eq⟩ := socketFree_eq s
  rw [eq]
  rfl

theorem exec_reader {e : Event} {r : Reply} (kept : ReaderKept fin eof s)
    (taken : exec s e = some (t, r)) :
    ReaderKept (fin ∨ TakesFin s e) (eof ∨ TakesEof s e) t := by
  have more : ReaderKept (fin ∨ TakesFin s e) (eof ∨ TakesEof s e) s :=
    fun registered => (kept registered).weaken .inl .inl
  refine exec_reads_rule (fun u v idle kept => kept.idle idle) (fun u v reads kept => kept.frame reads)
    more taken ?_ ?_ ?_ ?_ ?_
  · intro u _ registered
    rw [socketFree_registered] at registered
    cases registered
  · intro len call ending registered
    subst call
    have locked : ReaderInv (fin ∨ TakesFin s (.read len)) (eof ∨ TakesEof s (.read len))
        (socketWrAcquire s) := (more registered).congr rfl rfl rfl rfl rfl
    exact locked.told ending (.inr ending)
  · intro u len rlen _ kept registered
    rw [receiveLoop_registered] at registered
    exact (kept registered).receives len rlen
  · intro u addr port iss _ closed kept registered
    rw [(tcpV4Connect_reads u addr port iss closed).registered] at registered
    exact (kept registered).connects addr port iss closed
  · intro th payload arrives kept registered
    subst arrives
    have here : s.sock.registered = true := by
      simp only [exec, Bool.and_eq_true] at taken
      split at taken
      · rename_i there
        exact there.1.1
      · contradiction
    refine (kept here).segment th _ rfl ?_
    intro checked passes flag next
    exact .inr ⟨checked, passes, flag, next⟩

/-- The reader's invariant holds in every state of every run in which the socket is registered. -/
theorem reader_inv {allowed : List (Event × Reply) → Conn → Event → Prop}
    {trace : List (Event × Reply)} (run : Run exec allowed {} trace s) :
    ReaderKept (Occurs exec TakesFin {} trace) (Occurs exec TakesEof {} trace) s := by
  induction run with
  | start =>
    intro _
    constructor <;> simp [TcpState.phase, Readable, FinFlag]
  | next before ok taken ih =>
    rw [before.occurs_snoc taken, before.occurs_snoc taken]
    exact exec_reader ih taken

/-! ### The FIN finishes the peer's side -/

theorem TcpState.afterFin_finished (empty : Bool) {a : TcpState} (synchronized : a.phase ≠ .outside) :
    (a.afterFin empty).phase = .finished := by
  cases a <;> cases empty <;> simp_all [afterFin, phase]

theorem TcpState.finished_leads : ∀ {f : Bool} {a b : TcpState}, a.phase = .finished →
    a.leadsTo f b = true → b.phase = .finished := by
  decide

theorem Passes.input {th : TcpHdr} {skb : SkBuff} (passes : Passes s th skb) :
    inputOtherwise s th skb = inputTail (inputFinAcked (inputAck s th).1 th) th skb := by
  obtain ⟨verified, rst, syn, ack, valid, queued⟩ := passes
  have open_ : ¬((inputAck s th).1.tsk.state = .lastAck ∧
      skbQueueEmpty (inputAck s th).1.tsk.writeQueue = true) := by
    rintro ⟨last, empty⟩
    refine queued last ?_
    simpa [skbQueueEmpty] using empty
  unfold inputOtherwise
  simp only [verified, rst, syn, ack, valid, Bool.not_true, Bool.false_eq_true, if_false, if_neg open_]

theorem tcpInputState_otherwise {th : TcpHdr} {skb : SkBuff}
    (checked : s.tsk.state.synchronizes = true) :
    tcpInputState s th skb = inputOtherwise s th skb := by
  unfold tcpInputState
  cases at_state : s.tsk.state <;> simp_all [TcpState.synchronizes]

theorem takesFin_finishes {e : Event} {r : Reply} (fin : TakesFin s e)
    (taken : exec s e = some (t, r)) : t.tsk.state.phase = .finished := by
  cases e with
  | segment th payload =>
    obtain ⟨checked, passes, flag, next⟩ := fin
    simp only [exec] at taken
    split at taken
    · obtain ⟨rfl, -⟩ := by simpa using taken
      have phase : (inputFinAcked (inputAck (arriving s th payload) th).1 th).tsk.state.phase ≠
          .outside := by
        rw [inputFinAcked_phase]
        exact passes.phase checked
      have here : (tcpInitSegment s th payload).2.seq =
          (inputFinAcked (inputAck (arriving s th payload) th).1 th).tsk.tcb.rcvNxt := by
        rw [inputFinAcked_rcvNxt, inputAck_rcvNxt]
        exact next
      have path : (tcpIn s th payload).tsk.state =
          (tcpInputState (arriving s th payload) th (tcpInitSegment s th payload).2).tsk.state := rfl
      have checked' : (arriving s th payload).tsk.state.synchronizes = true := checked
      rw [path, tcpInputState_otherwise checked', passes.input, (inputTail_moves _ th _).1]
      simp only [flag, here, decide_true, Bool.and_self, if_true]
      exact TcpState.afterFin_finished _ phase
    · contradiction
  | _ => cases fin

/- What brings the state, in one step, to where no step leads away from has brought it there for
   good. -/
theorem occurs_stays {P : Conn → Event → Prop} {Q : TcpState → Prop}
    {allowed : List (Event × Reply) → Conn → Event → Prop} {trace : List (Event × Reply)}
    (stable : ∀ {a b : TcpState}, Q a → a.leadsTo true b = true → Q b)
    (brings : ∀ {s t e r}, P s e → exec s e = some (t, r) → Q t.tsk.state)
    (run : Run exec allowed {} trace s) (found : Occurs exec P {} trace) : Q s.tsk.state := by
  induction run with
  | start => cases found
  | @next trace s t e r before ok taken ih =>
    rcases (before.occurs_snoc taken).mp found with earlier | now
    · exact stable (ih earlier) (exec_moves s taken)
    · exact brings now taken

theorem occurs_finished {P : Conn → Event → Prop}
    {allowed : List (Event × Reply) → Conn → Event → Prop} {trace : List (Event × Reply)}
    (finishes : ∀ {s t e r}, P s e → exec s e = some (t, r) → t.tsk.state.phase = .finished)
    (run : Run exec allowed {} trace s) (found : Occurs exec P {} trace) :
    s.tsk.state.phase = .finished :=
  occurs_stays (Q := fun a => a.phase = .finished) TcpState.finished_leads finishes run found

theorem fin_finished {allowed : List (Event × Reply) → Conn → Event → Prop}
    {trace : List (Event × Reply)} (run : Run exec allowed {} trace s)
    (fin : Occurs exec TakesFin {} trace) : s.tsk.state.phase = .finished :=
  occurs_finished takesFin_finishes run fin

end HfIp
