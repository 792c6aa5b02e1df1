import HfIp.FinQueue

/- Sender stream integrity: which steps of a connection keep every text segment under the sequence
   number of its bytes, and a run that does not. -/
namespace HfIp

/- `tcp_write` takes the bytes. -/
def Writable (s : Conn) : Prop :=
  s.tsk.err = 0 ∧ (s.tsk.state = .established ∨ s.tsk.state = .closeWait)

instance (s : Conn) : Decidable (Writable s) := inferInstanceAs (Decidable (_ ∧ _))

/- `tcp_close` queues a FIN. -/
def Closable (s : Conn) : Prop := s.tsk.state = .established ∨ s.tsk.state = .closeWait

instance (s : Conn) : Decidable (Closable s) := inferInstanceAs (Decidable (_ ∨ _))

/- No sequence number reaches 2^32. -/
def NoWrap (s : Conn) : Event → Prop
  | .connect _ _ iss => iss.toNat + 1 < 2 ^ 32
  | .write buf => Writable s → seqEnd s + buf.length < 2 ^ 32
  | .close => Closable s → seqEnd s + 1 < 2 ^ 32
  | _ => True

/-- Nothing waits unsent in a write queue of which no buffer is in flight. -/
def InTurn (s : Conn) : Prop := s.tsk.inflight = 0 → s.tsk.writeQueue = []

instance (s : Conn) : Decidable (InTurn s) := inferInstanceAs (Decidable (_ → _))

/- The timer handlers that send the head of the write queue again. -/
def Retransmits (s : Conn) : Handler → Prop
  | .tcpConnectRto => s.tsk.state = .synSent
  | .tcpRetransmissionTimeout => True
  | _ => False

instance (s : Conn) (h : Handler) : Decidable (Retransmits s h) := by
  cases h <;> unfold Retransmits <;> infer_instance

/-- The step numbers or retransmits nothing out of the order of the stream: text and FIN join a
    queue in turn, no text follows a FIN, and a retransmission timer finds the head of the queue
    wholly unacknowledged. -/
def StreamOrder (s : Conn) : Event → Prop
  | .write buf => Writable s → buf ≠ [] → InTurn s ∧ s.fins = 0
  | .close => Closable s → InTurn s
  | .handler i => ∀ t ∈ s.ts.threads[i]?, Retransmits s t.handler → HeadUnacked s
  | _ => True

instance (s : Conn) (e : Event) : Decidable (NoWrap s e) := by
  induction e using Event.casesOn <;> unfold NoWrap <;> infer_instance

instance (s : Conn) (e : Event) : Decidable (StreamOrder s e) := by
  induction e using Event.casesOn <;> unfold StreamOrder <;> infer_instance

variable {s t : Conn} {stop : Nat}

/-! ### Queueing text and FIN -/

theorem TextAt.split {text : List UInt8} {base pos : Nat} {p q : List UInt8}
    (h : TextAt text base pos (p ++ q)) :
    TextAt text base pos p ∧ TextAt text base (pos + p.length) q := by
  constructor
  · intro nonempty
    obtain ⟨lower, here⟩ := h (by simp [nonempty])
    exact ⟨lower, (List.prefix_append p q).trans here⟩
  · intro nonempty
    obtain ⟨lower, rest, here⟩ := h (by simp [nonempty])
    refine ⟨by omega, rest, ?_⟩
    have shift : pos + p.length - base = pos - base + p.length := by omega
    rw [shift, ← List.drop_drop, ← here]
    simp

theorem tcpSendLoop_inOrder (mss fuel : Nat) (buf : List UInt8) (positive : 0 < mss)
    (enough : buf.length ≤ fuel) (inv : InOrder s stop) (turn : buf ≠ [] → InTurn s)
    (here : TextAt s.accepted (s.tsk.tcb.iss.toNat + 1) stop buf)
    (room : stop + buf.length < 2 ^ 32) :
    InOrder (tcpSendLoop mss fuel s buf) (stop + buf.length) ∧
      (tcpSendLoop mss fuel s buf).tsk.state = s.tsk.state ∧
      (tcpSendLoop mss fuel s buf).accepted = s.accepted ∧
      (tcpSendLoop mss fuel s buf).fins = s.fins ∧
      (tcpSendLoop mss fuel s buf).tsk.tcb.iss = s.tsk.tcb.iss ∧
      (tcpSendLoop mss fuel s buf).sock.registered = s.sock.registered ∧
      (tcpSendLoop mss fuel s buf).sock.skFreed = s.sock.skFreed := by
  induction fuel generalizing s stop buf with
  | zero =>
    obtain rfl : buf = [] := by simpa using enough
    exact ⟨inv, rfl, rfl, rfl, rfl, rfl, rfl⟩
  | succ fuel ih =>
    rw [tcpSendLoop]
    split
    · rename_i empty
      obtain rfl : buf = [] := by simpa using empty
      exact ⟨inv, rfl, rfl, rfl, rfl, rfl, rfl⟩
    · rename_i some_left
      dsimp only
      set al := tcpAllocSkb s 0 (buf.take mss) with hal
      set k : SkBuff := { al.2 with
        th := { al.2.th with ack := true, psh := (buf.drop mss).length = 0 } } with hk
      have pieces := TextAt.split (p := buf.take mss) (q := buf.drop mss)
        (by rw [List.take_append_drop]; exact here)
      have span : k.span = min mss buf.length := by
        show (buf.take mss).length + 0 + 0 = _
        simp
      have queued : InOrder (tcpQueueTransmitSkb al.1 k) (stop + k.span) :=
        tcpQueueTransmitSkb_inOrder k (inv.frame (.of_minor (tcpAllocSkb_minor s 0 _))) rfl rfl
          pieces.1 (by omega) (turn (by rintro rfl; simp at some_left))
      obtain ⟨accepted, fins, iss, state, -, registered, skFreed, busy⟩ :=
        tcpQueueTransmitSkb_view (s := al.1) k
      have total : stop + k.span + (buf.drop mss).length = stop + buf.length := by
        rw [List.length_drop]; omega
      obtain ⟨done, view⟩ := ih (buf.drop mss) (by rw [List.length_drop]; omega) queued
        (fun _ idle => absurd idle busy) (by
          rw [accepted, iss, span, ← List.length_take]
          exact pieces.2) (by omega)
      refine ⟨total ▸ done, ?_⟩
      rw [state, accepted, fins, iss, registered, skFreed] at view
      exact view

theorem InOrder.grow (more : List UInt8) (inv : InOrder s stop) :
    InOrder { s with accepted := s.accepted ++ more } stop :=
  ⟨inv.queue.grow more, inv.room, fun seg member => TextAt.grow more (inv.out seg member),
    inv.smss⟩

theorem tcpQueueFin_inOrder (inv : InOrder s stop) (turn : InTurn s) (room : stop + 1 < 2 ^ 32) :
    InOrder (tcpQueueFin s) (stop + 1) := by
  unfold tcpQueueFin
  have same : InOrder (tcpAllocSkb { s with fins := s.fins + 1 } 0 []).1 stop :=
    ⟨inv.queue, inv.room, inv.out, inv.smss⟩
  exact tcpQueueTransmitSkb_inOrder _ same rfl rfl (textAt_nil _ _ _) room turn

theorem tcpQueueFin_view (s : Conn) :
    (tcpQueueFin s).accepted = s.accepted ∧ (tcpQueueFin s).fins = s.fins + 1 ∧
      (tcpQueueFin s).tsk.tcb.iss = s.tsk.tcb.iss ∧ (tcpQueueFin s).tsk.state = s.tsk.state ∧
      (tcpQueueFin s).sock.registered = s.sock.registered ∧
      (tcpQueueFin s).sock.skFreed = s.sock.skFreed := by
  obtain ⟨accepted, fins, iss, state, -, registered, skFreed, -⟩ := tcpQueueTransmitSkb_view
    (s := (tcpAllocSkb { s with fins := s.fins + 1 } 0 []).1)
    { (tcpAllocSkb { s with fins := s.fins + 1 } 0 []).2 with
      th := { (tcpAllocSkb { s with fins := s.fins + 1 } 0 []).2.th with fin := true, ack := true } }
  exact ⟨accepted, fins, iss, state, registered, skFreed⟩

/-! ### Connecting -/

/- The SYN takes the place before the first byte. -/
theorem tcpConnect_inOrder (iss : UInt32) (closed : s.tsk.state = .close)
    (none : s.tsk.writeQueue = []) (idle : s.tsk.inflight = 0)
    (silent : ∀ seg ∈ s.out, seg.payload = []) (smss : 0 < s.tsk.smss)
    (room : iss.toNat + 1 < 2 ^ 32) : InOrder (tcpConnect s iss) (iss.toNat + 1) := by
  obtain ⟨k, seg, sent⟩ := tcpConnect_sent iss closed none idle
  have plus : (iss + 1).toNat = iss.toNat + 1 := by
    rw [UInt32.toNat_add, UInt32.toNat_one]; omega
  constructor
  · rw [sent.queue, sent.inflight, sent.sndNxt, sent.iss]
    refine ⟨[k], [], iss.toNat, rfl, rfl, ⟨?_, ?_, ?_, ?_⟩, plus⟩
    · rw [sent.seq]
    · rw [sent.endSeq, sent.payload]; rfl
    · rw [sent.payload]; exact textAt_nil _ _ _
    · have span : k.span = 1 := by simp [SkBuff.span, sent.payload, sent.fin, sent.syn]
      rw [span]; exact plus.symm
  · exact room
  · intro seg' member
    rw [sent.out] at member
    have empty : seg'.payload = [] := by
      rcases List.mem_append.mp member with early | late
      · exact silent seg' early
      · obtain rfl := List.mem_singleton.mp late
        exact sent.bare
    simp [Segment.InText, empty, textAt_nil]
  · rw [sent.smss]; exact smss

/-! ### The invariant -/

/-- Every segment sent so far carries the text of its number, and as long as the sock is there
    its queue is in order. In a sending state it ends where all that was accepted does. -/
structure StreamInv (s : Conn) : Prop where
  text : ∀ seg ∈ s.out, seg.InText s.accepted (s.tsk.tcb.iss.toNat + 1)
  gone : s.sock.skFreed = true → s.sock.registered = false
  order : s.sock.skFreed = false → ∃ stop, InOrder s stop ∧
    (s.tsk.state.sending = true → stop = seqEnd s) ∧
    (s.tsk.state = .close → s.tsk.writeQueue = [] ∧ s.accepted = [] ∧ s.fins = 0)

namespace StreamInv

theorem keeps (inv : StreamInv s) (live : s.sock.skFreed = false) (h : SendKeeps s t) :
    StreamInv t := by
  obtain ⟨stop, order, ends, closed⟩ := inv.order live
  have order' := h.order stop order
  refine ⟨order'.out, fun freed => ?_, fun _ => ⟨stop, order', ?_, ?_⟩⟩
  · rw [h.skFreed, live] at freed
    contradiction
  · intro sending
    rw [seqEnd, h.iss, h.accepted, h.fins]
    exact ends (h.sending sending)
  · intro close
    obtain ⟨empty, quiet, unfinished⟩ := closed (h.close close)
    exact ⟨h.empty empty, h.accepted.trans quiet, h.fins.trans unfinished⟩

theorem frame (inv : StreamInv s) (h : SendFrame s t) : StreamInv t := by
  refine ⟨?_, ?_, ?_⟩
  · obtain ⟨more, ho, empty⟩ := h.out
    intro seg member
    rw [ho] at member
    rw [h.accepted, h.iss]
    rcases List.mem_append.mp member with early | late
    · exact inv.text seg early
    · simp [Segment.InText, empty seg late, textAt_nil]
  · rw [h.skFreed, h.registered]
    exact inv.gone
  · intro live
    rw [h.skFreed] at live
    exact (inv.keeps live h.keeps).order (h.skFreed.trans live)

theorem live (inv : StreamInv s) (registered : s.sock.registered = true) :
    s.sock.skFreed = false := by
  cases freed : s.sock.skFreed with
  | false => rfl
  | true => simp [inv.gone freed] at registered

theorem free (inv : StreamInv s) : StreamInv (socketFree s) := by
  obtain ⟨freed, eq⟩ := socketFree_eq s
  rw [eq]
  exact ⟨inv.text, fun _ => rfl, fun live => by simp [socketRelease, wakeSleep] at live⟩

end StreamInv

/-! ### Events -/

theorem tcpWrite_stream (buf : List UInt8) (inv : StreamInv s) (live : s.sock.skFreed = false)
    (room : NoWrap s (.write buf)) (ok : StreamOrder s (.write buf)) :
    StreamInv (tcpWrite s buf).1 := by
  have writes : Writable s → StreamInv (tcpSend s buf) := by
    intro writable
    obtain ⟨stop, order, ends, -⟩ := inv.order live
    have sending : s.tsk.state.sending = true := by
      rcases writable.2 with at_state | at_state <;> rw [at_state] <;> rfl
    have ends := ends sending
    have fits : stop + buf.length < 2 ^ 32 := by
      have := room writable
      omega
    have here : TextAt (s.accepted ++ buf) (s.tsk.tcb.iss.toNat + 1) stop buf := by
      intro nonempty
      have noFin := (ok writable nonempty).2
      rw [seqEnd, noFin] at ends
      subst ends
      exact ⟨by omega, by simp⟩
    obtain ⟨done, state, accepted, fins, iss, registered, skFreed⟩ := tcpSendLoop_inOrder
      s.tsk.smss.toNat buf.length buf (UInt16.lt_iff_toNat_lt.mp order.smss) (Nat.le_refl _)
      (order.grow buf) (fun nonempty => (ok writable nonempty).1) here fits
    unfold tcpSend
    generalize tcpSendLoop s.tsk.smss.toNat buf.length { s with accepted := s.accepted ++ buf } buf
      = u at *
    have sent : StreamInv u := by
      refine ⟨done.out, fun freed => ?_, fun _ => ⟨_, done, ?_, ?_⟩⟩
      · rw [skFreed, live] at freed
        contradiction
      · intro _
        rw [seqEnd, iss, accepted, fins, List.length_append, ends, seqEnd]
        show _ = s.tsk.tcb.iss.toNat + 1 + _ + s.fins
        omega
      · intro close
        have at_close : s.tsk.state = .close := state ▸ close
        rw [at_close] at sending
        contradiction
    exact sent.frame (tcpRearmUserTimeout_send u)
  unfold tcpWrite
  split
  · exact inv
  · rename_i noErr
    split
    · rename_i at_state
      exact writes ⟨by simpa using noErr, .inl at_state⟩
    · rename_i at_state
      exact writes ⟨by simpa using noErr, .inr at_state⟩
    · exact inv

theorem tcpQueueFin_stream (inv : StreamInv s) (live : s.sock.skFreed = false)
    (order : InOrder s stop) (ends : stop = seqEnd s) (opened : s.tsk.state ≠ .close)
    (room : seqEnd s + 1 < 2 ^ 32) (turn : InTurn s) : StreamInv (tcpQueueFin s) := by
  have done := tcpQueueFin_inOrder order turn (by omega)
  obtain ⟨accepted, fins, iss, state, -, skFreed⟩ := tcpQueueFin_view s
  refine ⟨done.out, fun freed => ?_, fun _ => ⟨_, done, fun _ => ?_, fun close => ?_⟩⟩
  · rw [skFreed, live] at freed
    contradiction
  · rw [seqEnd, iss, accepted, fins, ends, seqEnd]
    omega
  · exact absurd (state.symm.trans close) opened

theorem tcpClose_stream (inv : StreamInv s) (live : s.sock.skFreed = false)
    (room : NoWrap s .close) (ok : StreamOrder s .close) : StreamInv (tcpClose s).1 := by
  obtain ⟨stop, order, ends, -⟩ := inv.order live
  unfold tcpClose
  split
  iterate 6 exact inv.frame (.of_out rfl rfl rfl rfl)
  iterate 3 exact inv.frame (tcpDone_send s)
  · rename_i at_state
    have ends := ends (by rw [at_state]; rfl)
    have moved : SendKeeps s (setState s .finWait1) := ⟨fun _ inv => ⟨inv.queue, inv.room, inv.out,
      inv.smss⟩, by simp [setState, TcpState.sending], by simp [setState], rfl, rfl, rfl, id, rfl, rfl⟩
    exact tcpQueueFin_stream (inv.keeps live moved) live (moved.order stop order) ends
      (by simp [setState]) (room (.inl at_state)) (ok (.inl at_state))
  · rename_i at_state
    exact tcpQueueFin_stream inv live order (ends (by rw [at_state]; rfl)) (by simp [at_state])
      (room (.inr at_state)) (ok (.inr at_state))

theorem tcpV4Connect_stream (addr : SockAddr) (port : UInt16) (iss : UInt32) (inv : StreamInv s)
    (live : s.sock.skFreed = false) (closed : s.tsk.state = .close)
    (room : iss.toNat + 1 < 2 ^ 32) : StreamInv (tcpV4Connect s addr port iss) := by
  obtain ⟨stop, order, -, fresh⟩ := inv.order live
  obtain ⟨none, quiet, unfinished⟩ := fresh closed
  have silent : ∀ seg ∈ s.out, seg.payload = [] := by
    intro seg member
    by_contra nonempty
    obtain ⟨-, here⟩ := order.out seg member nonempty
    simp [quiet, nonempty] at here
  set r : Conn := { s with
    tsk.dport := addr.port, tsk.sport := port, tsk.daddr := addr.addr
    tsk.saddr := parseIpv4 10 0 0 4 }
  have idle : r.tsk.inflight = 0 := (none ▸ order.queue).nothing.1
  have done := tcpConnect_inOrder (s := r) iss closed none idle silent order.smss room
  obtain ⟨k, seg, sent⟩ := tcpConnect_sent (s := r) iss closed none idle
  unfold tcpV4Connect
  refine ⟨done.out, fun freed => ?_, fun _ => ⟨_, done, fun _ => ?_, fun close => ?_⟩⟩
  · rw [sent.skFreed] at freed
    exact absurd (freed.symm.trans live) (by decide)
  · rw [seqEnd, sent.iss, sent.accepted, sent.fins]
    show _ = _ + s.accepted.length + s.fins
    rw [quiet, unfinished]
    rfl
  · rw [sent.state] at close
    contradiction

/- What one event keeps. -/
theorem exec_stream {e : Event} {r : Reply} (inv : StreamInv s) (room : NoWrap s e)
    (ok : StreamOrder s e) (taken : exec s e = some (t, r)) : StreamInv t := by
  refine exec_rule (fun _ _ h inv => StreamInv.frame inv h) (fun _ => StreamInv.free) inv taken
    ?write ?close ?connect ?segment ?handler ?reset
  case write =>
    rintro buf rfl registered locked
    exact tcpWrite_stream buf locked (inv.live registered) room ok
  case close =>
    rintro rfl registered locked
    exact tcpClose_stream locked (inv.live registered) room ok
  case connect =>
    rintro addr port iss rfl registered closed locked
    exact tcpV4Connect_stream addr port iss locked (inv.live registered) closed room
  case segment =>
    rintro th payload rfl registered locked
    exact locked.keeps (inv.live registered) (tcpInputState_keeps th _)
  case handler =>
    rintro i h rfl found live
    constructor
    · intro timer ts locked
      refine locked.keeps live (tcpConnectRto_keeps fun waiting => ?_)
      exact ok h found (by rw [timer]; exact waiting)
    · intro timer ts locked
      refine locked.keeps live (tcpRetransmissionTimeout_keeps ?_)
      exact ok h found (by rw [timer]; trivial)
  case reset =>
    intro live u h held
    refine held.keeps (h.skFreed.trans ?_) tcpSendReset_keeps
    exact live.elim inv.live id

/-- Every segment with text carries the bytes of the accepted stream that its number stands for. -/
def CarriesStream (s : Conn) : Prop :=
  ∀ seg ∈ s.out, seg.payload ≠ [] →
    s.tsk.tcb.iss.toNat + 1 ≤ seg.th.seq.toNat ∧
    (s.accepted.drop (seg.th.seq.toNat - s.tsk.tcb.iss.toNat - 1)).take seg.payload.length
      = seg.payload

instance (s : Conn) : Decidable (CarriesStream s) :=
  inferInstanceAs (Decidable (∀ seg ∈ s.out, _))

theorem StreamInv.start : StreamInv {} := by
  refine ⟨by simp, by simp, fun _ => ⟨0, ⟨?_, by decide, by simp, by decide⟩, ?_, by simp⟩⟩
  · exact ⟨[], [], 0, rfl, rfl, rfl, rfl⟩
  · simp [TcpState.sending]

theorem sender_stream_integrity {trace : List (Event × Reply)}
    (run : Transition.Run exec (fun _ s e => NoWrap s e ∧ StreamOrder s e) {} trace s) :
    CarriesStream s := by
  have inv : StreamInv s :=
    run.invariant_state .start fun _ _ _ _ _ inv ok taken => exec_stream inv ok.1 ok.2 taken
  intro seg member nonempty
  obtain ⟨lower, here⟩ := inv.text seg member nonempty
  refine ⟨lower, ?_⟩
  rw [Nat.sub_sub]
  exact (List.prefix_iff_eq_take.mp here).symm

/- The bytes of the last segment and the number it bears. -/
def lastSent (s : Conn) : Option (UInt32 × List UInt8) :=
  s.out.getLast?.map fun seg => (seg.th.seq, seg.payload)

theorem sender_stream_integrity_write : ∃ trace s,
    Transition.Run exec (fun _ s e => NoWrap s e ∧ StreamOrder s e) {} trace s ∧
      lastSent s = some (1001, [7, 8, 9]) ∧ CarriesStream s := by
  obtain ⟨trace, s, run, last⟩ : ∃ trace s,
      Transition.Run exec (fun _ s e => NoWrap s e ∧ StreamOrder s e) {} trace s ∧
        lastSent s = some (1001, [7, 8, 9]) :=
    Transition.Run.exists_of_follow (handshake ++ [.write [7, 8, 9]]) (by decide)
  exact ⟨trace, s, run, last, sender_stream_integrity run⟩

/-- Three one-byte writes, with an out-of-order segment that acknowledges the first before the
    last: the third byte goes out under the number of the second. -/
theorem queue_jump_breaks_stream :
    ∃ trace s, Transition.Run exec (fun _ s e => NoWrap s e) {} trace s ∧ ¬CarriesStream s :=
  Transition.Run.exists_of_follow (handshake ++ [.write [1], .write [2],
    .segment (peerHdr 5002 1002) [], .write [3]]) (by decide)

end HfIp
