import HfIp.RecvFrame
import HfIp.Lib.Run

/- Receiver stream integrity: what the reader has and what waits for it is always the stream up to
   `rcv_nxt`, whatever slices of the stream arrive in whatever order. -/
namespace HfIp

def payloads (queue : List SkBuff) : List UInt8 := queue.flatMap SkBuff.payload

@[simp] theorem payloads_append (xs ys : List SkBuff) :
    payloads (xs ++ ys) = payloads xs ++ payloads ys := by simp [payloads]

@[simp] theorem payloads_cons (k : SkBuff) (rest : List SkBuff) :
    payloads (k :: rest) = k.payload ++ payloads rest := by simp [payloads]

@[simp] theorem payloads_nil : payloads [] = [] := rfl

/- The text under number `seq` is the one the stream has there. -/
def SliceAt (stream : List UInt8) (irs seq : UInt32) (p : List UInt8) : Prop :=
  irs.toNat + 1 ≤ seq.toNat → p <+: stream.drop (seq.toNat - irs.toNat - 1)

/- The code keeps no other record of the peer's FIN than the state. -/
def FinProcessed (s : Conn) : Prop := s.tsk.state.phase = .finished

instance (s : Conn) : Decidable (FinProcessed s) := inferInstanceAs (Decidable (_ = _))

/- `n` bytes of the stream have been received; the FIN, once it is processed, follows them all. -/
structure ReceivedUpTo (stream : List UInt8) (irs : UInt32) (s : Conn) (n : Nat) : Prop where
  bytes : s.delivered ++ payloads s.tsk.receiveQueue = stream.take n
  bound : n ≤ stream.length
  next : s.tsk.tcb.rcvNxt.toNat = irs.toNat + 1 + n + (if FinProcessed s then 1 else 0)
  ofo : ∀ k ∈ s.tsk.ofoQueue, SliceAt stream irs k.seq k.payload
  whole : FinProcessed s → n = stream.length
  synchronized : s.tsk.state.phase ≠ .outside

variable {stream : List UInt8} {irs : UInt32} {s t : Conn} {n : Nat}

theorem ReceivedUpTo.of_view (inv : ReceivedUpTo stream irs s n) (view : recvView t = recvView s)
    (phase : t.tsk.state.phase = s.tsk.state.phase) : ReceivedUpTo stream irs t n := by
  have rcvNxt : t.tsk.tcb.rcvNxt = s.tsk.tcb.rcvNxt := congrArg RecvView.rcvNxt view
  have receiveQueue : t.tsk.receiveQueue = s.tsk.receiveQueue :=
    congrArg RecvView.receiveQueue view
  have ofoQueue : t.tsk.ofoQueue = s.tsk.ofoQueue := congrArg RecvView.ofoQueue view
  have delivered : t.delivered = s.delivered := congrArg RecvView.delivered view
  have fin : FinProcessed t ↔ FinProcessed s := by simp only [FinProcessed, phase]
  constructor
  · rw [delivered, receiveQueue]; exact inv.bytes
  · exact inv.bound
  · simp only [rcvNxt, fin]; exact inv.next
  · rw [ofoQueue]; exact inv.ofo
  · simp only [fin]; exact inv.whole
  · rw [phase]; exact inv.synchronized

theorem ReceivedUpTo.frame (inv : ReceivedUpTo stream irs s n) (h : RecvFrame s t)
    (opened : ¬Ended t) : ReceivedUpTo stream irs t n :=
  inv.of_view (h.kept opened).1 (h.kept opened).2

theorem recvView_same (h : Same s t) : recvView t = recvView s := by
  simp only [recvView, h.tcb, h.receiveQueue, h.ofoQueue, h.delivered]

theorem ReceivedUpTo.same (inv : ReceivedUpTo stream irs s n) (h : Same s t) :
    ReceivedUpTo stream irs t n := inv.of_view (recvView_same h) (congrArg _ h.state)

/-! ### Queueing text -/

theorem take_append_slice {p : List UInt8} (bound : n ≤ stream.length)
    (here : p <+: stream.drop n) :
    stream.take n ++ p = stream.take (n + p.length) ∧ n + p.length ≤ stream.length := by
  obtain ⟨rest, eq⟩ := here
  have split : stream = stream.take n ++ (p ++ rest) := by
    rw [eq, List.take_append_drop]
  have len : (stream.take n).length = n := by
    rw [List.length_take]; omega
  constructor
  · have : stream.take n ++ p = (stream.take n ++ (p ++ rest)).take (n + p.length) := by
      rw [← List.append_assoc, List.take_left']
      rw [List.length_append, len]
    rw [← split] at this
    exact this
  · have total := congrArg List.length split
    simp only [List.length_append, len] at total
    omega

theorem payload_small {p : List UInt8} {seq : UInt32}
    (room : irs.toNat + 1 + stream.length + 1 < 2 ^ 32) (here : SliceAt stream irs seq p)
    (lower : irs.toNat + 1 ≤ seq.toNat) : (UInt32.ofNat p.length).toNat = p.length := by
  have short := (here lower).length_le
  rw [List.length_drop] at short
  rw [UInt32.toNat_ofNat']
  omega

/- What `tcp_consume_ofo_queue` moves over continues the stream. -/
theorem consumeLoop_received {rcvNxt : UInt32} (queue : List SkBuff)
    (room : irs.toNat + 1 + stream.length + 1 < 2 ^ 32) (bound : n ≤ stream.length)
    (next : rcvNxt.toNat = irs.toNat + 1 + n)
    (slices : ∀ k ∈ queue, SliceAt stream irs k.seq k.payload) :
    ∃ m, n ≤ m ∧ m ≤ stream.length ∧
      (consumeLoop rcvNxt queue).1.toNat = irs.toNat + 1 + m ∧
      stream.take n ++ payloads (consumeLoop rcvNxt queue).2.1 = stream.take m ∧
      ∀ k ∈ (consumeLoop rcvNxt queue).2.2, SliceAt stream irs k.seq k.payload := by
  induction queue generalizing n rcvNxt with
  | nil => exact ⟨n, Nat.le_refl n, bound, next, by simp [consumeLoop], by simp [consumeLoop]⟩
  | cons k rest ih =>
    rw [consumeLoop]
    split
    · rename_i hit
      have lower : irs.toNat + 1 ≤ k.seq.toNat := by rw [← hit]; omega
      have slice := slices k (by simp)
      have small := payload_small room slice lower
      have here : k.payload <+: stream.drop n := by
        have := slice lower
        rwa [← hit, next, show irs.toNat + 1 + n - irs.toNat - 1 = n by omega] at this
      obtain ⟨joined, fits⟩ := take_append_slice bound here
      have after : (rcvNxt + k.dlen).toNat = irs.toNat + 1 + (n + k.payload.length) := by
        rw [UInt32.toNat_add, SkBuff.dlen, small, next]; omega
      obtain ⟨m, grows, within, nxt, bytes, left⟩ := ih fits after
        (fun j member => slices j (by simp [member]))
      refine ⟨m, by omega, within, nxt, ?_, left⟩
      dsimp only
      rw [payloads_cons, ← List.append_assoc, joined]
      exact bytes
    · exact ⟨n, Nat.le_refl n, bound, next, by simp, slices⟩

theorem insertOrdered_mem {k skb : SkBuff} {queue queue' : List SkBuff}
    (inserted : insertOrdered skb queue = some queue') (member : k ∈ queue') :
    k = skb ∨ k ∈ queue := by
  induction queue generalizing queue' with
  | nil =>
    obtain rfl := by simpa [insertOrdered] using inserted
    simpa using member
  | cons next rest ih =>
    have behind : (insertOrdered skb rest).map (next :: ·) = some queue' →
        k = skb ∨ k ∈ next :: rest := by
      intro mapped
      obtain ⟨queue'', found, rfl⟩ := Option.map_eq_some_iff.mp mapped
      rcases List.mem_cons.mp member with rfl | inside
      · simp
      · rcases ih found inside with same | old
        · exact .inl same
        · exact .inr (by simp [old])
    rw [insertOrdered] at inserted
    split at inserted
    · split at inserted
      · exact behind inserted
      · obtain rfl := Option.some.inj inserted
        simpa using member
    · split at inserted
      · contradiction
      · exact behind inserted

theorem tcpDataInsertOrdered_mem {k skb : SkBuff} {queue : List SkBuff}
    (member : k ∈ (tcpDataInsertOrdered queue skb).1) :
    (k.seq = skb.seq ∧ k.payload = skb.payload) ∨ k ∈ queue := by
  unfold tcpDataInsertOrdered at member
  dsimp only at member
  split at member
  · rename_i inserted
    rcases insertOrdered_mem inserted member with rfl | old
    · exact .inl ⟨rfl, rfl⟩
    · exact .inr old
  · exact .inr member

/-- Text in sequence is received with all that then follows it; other text is kept aside. -/
theorem tcpDataQueue_received (skb : SkBuff) (inv : ReceivedUpTo stream irs s n)
    (room : irs.toNat + 1 + stream.length + 1 < 2 ^ 32) (still : ¬FinProcessed s)
    (slice : SliceAt stream irs skb.seq skb.payload) (lower : irs.toNat + 1 ≤ skb.seq.toNat) :
    ∃ m, n ≤ m ∧ ReceivedUpTo stream irs (tcpDataQueue s skb).1 m ∧
      (tcpDataQueue s skb).1.tsk.state = s.tsk.state ∧
      (skb.seq = s.tsk.tcb.rcvNxt → s.tsk.tcb.rcvWnd ≠ 0 → n + skb.payload.length ≤ m) := by
  have next : s.tsk.tcb.rcvNxt.toNat = irs.toNat + 1 + n := by
    simpa [still] using inv.next
  unfold tcpDataQueue
  split
  · rename_i shut
    obtain ⟨freed, eq⟩ := freeSkb_eq s skb
    rw [eq]
    exact ⟨n, Nat.le_refl n, ⟨inv.bytes, inv.bound, inv.next, inv.ofo, inv.whole,
      inv.synchronized⟩, rfl, fun _ wide => absurd shut wide⟩
  · split
    · rename_i hit
      have small := payload_small room slice lower
      have here : skb.payload <+: stream.drop n := by
        have := slice lower
        rwa [hit, next, show irs.toNat + 1 + n - irs.toNat - 1 = n by omega] at this
      obtain ⟨joined, fits⟩ := take_append_slice inv.bound here
      have after : (s.tsk.tcb.rcvNxt + skb.dlen).toNat =
          irs.toNat + 1 + (n + skb.payload.length) := by
        rw [UInt32.toNat_add, SkBuff.dlen, small, next]; omega
      obtain ⟨m, grows, within, nxt, bytes, left⟩ :=
        consumeLoop_received s.tsk.ofoQueue room fits after inv.ofo
      refine ⟨m, by omega, ⟨?_, within, ?_, left, fun fin => absurd fin still,
        inv.synchronized⟩, rfl, fun _ _ => grows⟩
      · show s.delivered ++ payloads ((s.tsk.receiveQueue ++ [_]) ++ _) = _
        rw [payloads_append, payloads_append, ← List.append_assoc, ← List.append_assoc, inv.bytes,
          payloads_cons, payloads_nil, List.append_nil, joined]
        exact bytes
      · show _ = irs.toNat + 1 + m + (if FinProcessed s then 1 else 0)
        rw [if_neg still]
        exact nxt
    · rename_i miss
      dsimp only
      have kept : ReceivedUpTo stream irs { s with
          tsk.ofoQueue := (tcpDataInsertOrdered s.tsk.ofoQueue skb).1 } n := by
        refine ⟨inv.bytes, inv.bound, inv.next, fun k member => ?_, inv.whole, inv.synchronized⟩
        rcases tcpDataInsertOrdered_mem member with ⟨seq, payload⟩ | old
        · rw [seq, payload]; exact slice
        · exact inv.ofo k old
      have quiet : Same { s with tsk.ofoQueue := (tcpDataInsertOrdered s.tsk.ofoQueue skb).1 }
          (if s.tsk.sackok then { s with tsk := tcpCalculateSacks { s.tsk with
            ofoQueue := (tcpDataInsertOrdered s.tsk.ofoQueue skb).1 } }
          else { s with tsk.ofoQueue := (tcpDataInsertOrdered s.tsk.ofoQueue skb).1 }) := by
        split
        · exact (tcpCalculateSacks_minor { s with
            tsk.ofoQueue := (tcpDataInsertOrdered s.tsk.ofoQueue skb).1 }).same
        · exact .refl _
      have answered := quiet.trans (tcpSendAck_minor _).same
      exact ⟨n, Nat.le_refl n, kept.same answered, answered.state, fun hit => absurd hit miss⟩

/-! ### Arriving segments -/

/- A segment that a peer sending `stream` can put on the wire, at any time and any number of times:
   a slice of the stream, with a FIN only at its end. -/
structure PeerSegment (stream : List UInt8) (irs : UInt32) (th : TcpHdr) (payload : List UInt8) :
    Prop where
  noReset : th.rst = false
  slice : SliceAt stream irs th.seq payload
  fin : th.fin = true → th.seq.toNat + payload.length = irs.toNat + 1 + stream.length

theorem inputText_received (th : TcpHdr) (skb : SkBuff) (inv : ReceivedUpTo stream irs s n)
    (room : irs.toNat + 1 + stream.length + 1 < 2 ^ 32)
    (slice : SliceAt stream irs skb.seq skb.payload) (lower : irs.toNat + 1 ≤ skb.seq.toNat)
    (verified : skb.payload ≠ [] → s.tsk.tcb.rcvWnd ≠ 0) :
    ∃ m, ReceivedUpTo stream irs (inputText s th skb).1 m ∧
      (inputText s th skb).1.tsk.state = s.tsk.state ∧
      (skb.seq = s.tsk.tcb.rcvNxt → ¬FinProcessed s → n + skb.payload.length ≤ m) := by
  have empty : ∀ t : Conn, t = s → skb.payload = [] → ∃ m, ReceivedUpTo stream irs t m ∧
      t.tsk.state = s.tsk.state ∧
      (skb.seq = s.tsk.tcb.rcvNxt → ¬FinProcessed s → n + skb.payload.length ≤ m) := by
    rintro t rfl none
    exact ⟨n, inv, rfl, fun _ _ => by simp [none]⟩
  have queued : ¬FinProcessed s → ∃ m,
      ReceivedUpTo stream irs (if th.psh ∨ 0 < skb.dlen then tcpDataQueue s skb else (s, skb)).1 m ∧
      (if th.psh ∨ 0 < skb.dlen then tcpDataQueue s skb else (s, skb)).1.tsk.state = s.tsk.state ∧
      (skb.seq = s.tsk.tcb.rcvNxt → ¬FinProcessed s → n + skb.payload.length ≤ m) := by
    intro still
    split
    · obtain ⟨m, grows, done, state, reach⟩ := tcpDataQueue_received skb inv room still slice lower
      refine ⟨m, done, state, fun hit _ => ?_⟩
      by_cases none : skb.payload = []
      · simpa [none] using grows
      · exact reach hit (verified none)
    · rename_i nothing
      refine empty s rfl ?_
      by_contra some_text
      refine nothing (.inr ?_)
      rw [UInt32.lt_iff_toNat_lt, SkBuff.dlen, payload_small room slice lower]
      exact List.length_pos_iff.mpr some_text
  unfold inputText
  split
  iterate 3 (rename_i at_state; exact queued (by simp [FinProcessed, at_state, TcpState.phase]))
  · rename_i notEst notFw1 notFw2
    refine ⟨n, inv, rfl, fun _ still => ?_⟩
    rcases TcpState.text_cases inv.synchronized still with at_state | at_state | at_state
    · exact absurd at_state notEst
    · exact absurd at_state notFw1
    · exact absurd at_state notFw2

/- The peer's FIN takes the number after the last byte. -/
theorem inputFin_received (inv : ReceivedUpTo stream irs s stream.length)
    (room : irs.toNat + 1 + stream.length + 1 < 2 ^ 32) (still : ¬FinProcessed s) :
    ReceivedUpTo stream irs (inputFin s) stream.length := by
  have next : s.tsk.tcb.rcvNxt.toNat = irs.toNat + 1 + stream.length := by
    simpa [still] using inv.next
  have finish : ∀ t : Conn, recvView t = { recvView s with rcvNxt := s.tsk.tcb.rcvNxt + 1 } →
      t.tsk.state.phase = .finished → ReceivedUpTo stream irs t stream.length := by
    intro t view phase
    have rcvNxt : t.tsk.tcb.rcvNxt = s.tsk.tcb.rcvNxt + 1 := congrArg RecvView.rcvNxt view
    have receiveQueue : t.tsk.receiveQueue = s.tsk.receiveQueue :=
      congrArg RecvView.receiveQueue view
    have ofoQueue : t.tsk.ofoQueue = s.tsk.ofoQueue := congrArg RecvView.ofoQueue view
    have delivered : t.delivered = s.delivered := congrArg RecvView.delivered view
    constructor
    · rw [delivered, receiveQueue]; exact inv.bytes
    · exact inv.bound
    · rw [if_pos (show FinProcessed t from phase), rcvNxt, UInt32.toNat_add, next, UInt32.toNat_one]
      omega
    · rw [ofoQueue]; exact inv.ofo
    · exact fun _ => rfl
    · rw [phase]; decide
  unfold inputFin
  dsimp only
  have acked := ((pollReadable_minor { s with
    tsk.tcb.rcvNxt := s.tsk.tcb.rcvNxt + 1, tsk.flags := s.tsk.flags ||| TCP_FIN }).trans
    (tcpSendAck_minor _)).trans (recvNotify_minor _) |>.same
  generalize recvNotify (tcpSendAck (pollReadable { s with
    tsk.tcb.rcvNxt := s.tsk.tcb.rcvNxt + 1, tsk.flags := s.tsk.flags ||| TCP_FIN })) = u at acked
  have view : recvView u = { recvView s with rcvNxt := s.tsk.tcb.rcvNxt + 1 } := recvView_same acked
  split
  · exact finish _ view rfl
  · exact finish _ view rfl
  · split
    · exact finish _ view rfl
    · exact finish _ view rfl
  · exact finish _ view rfl
  · rename_i notRcvd notEst notFw1 notFw2
    rcases TcpState.text_cases inv.synchronized still with at_state | at_state | at_state
    · exact absurd (acked.state.trans at_state) notEst
    · exact absurd (acked.state.trans at_state) notFw1
    · exact absurd (acked.state.trans at_state) notFw2

theorem inputTail_received (th : TcpHdr) (skb : SkBuff) (inv : ReceivedUpTo stream irs s n)
    (room : irs.toNat + 1 + stream.length + 1 < 2 ^ 32) (seq : skb.seq = th.seq)
    (slice : SliceAt stream irs th.seq skb.payload) (lower : irs.toNat + 1 ≤ th.seq.toNat)
    (fin : th.fin = true → th.seq.toNat + skb.payload.length = irs.toNat + 1 + stream.length)
    (verified : skb.payload ≠ [] → s.tsk.tcb.rcvWnd ≠ 0) (opened : ¬Ended (inputTail s th skb)) :
    ∃ m, ReceivedUpTo stream irs (inputTail s th skb) m := by
  rw [← seq] at slice lower fin
  obtain ⟨m, text, state, reach⟩ := inputText_received th skb inv room slice lower verified
  have finned : ∃ m, ReceivedUpTo stream irs
      (inputTextFin (inputText s th skb).1 th (skb.seq = s.tsk.tcb.rcvNxt)) m := by
    unfold inputTextFin
    split
    · rename_i inSequence
      obtain ⟨last, hit⟩ : th.fin = true ∧ skb.seq = s.tsk.tcb.rcvNxt := by
        simpa using inSequence
      have ends := fin last
      have still : ¬FinProcessed s := by
        intro finished
        have next := inv.next
        rw [if_pos finished, inv.whole finished] at next
        rw [hit] at ends
        omega
      have next : s.tsk.tcb.rcvNxt.toNat = irs.toNat + 1 + n := by
        simpa [still] using inv.next
      have all : m = stream.length := by
        have reached := reach hit still
        have bound := text.bound
        rw [hit] at ends
        omega
      subst all
      exact ⟨_, inputFin_received text room (by simpa only [FinProcessed, state] using still)⟩
    · exact ⟨m, text⟩
  obtain ⟨k, done⟩ := finned
  refine ⟨k, ?_⟩
  have last : RecvFrame (inputTextFin (inputText s th skb).1 th (skb.seq = s.tsk.tcb.rcvNxt))
      (inputTail s th skb) :=
    (inputExpected_recv _ th skb _).trans (.of_same (freeSkb_minor _ _).same)
  exact done.frame last opened

theorem tcpVerifySegment_lower {th : TcpHdr} {skb : SkBuff}
    (verified : tcpVerifySegment s.tsk th skb = true) :
    s.tsk.tcb.rcvNxt.toNat ≤ th.seq.toNat ∧ (skb.dlen ≠ 0 → s.tsk.tcb.rcvWnd ≠ 0) := by
  unfold tcpVerifySegment at verified
  split at verified
  · contradiction
  · rename_i wide
    split at verified
    · contradiction
    · rename_i inWindow
      constructor
      · by_contra below
        exact inWindow (.inl (UInt32.lt_iff_toNat_lt.mpr (by omega)))
      · intro some_text shut
        refine wide ⟨?_, shut⟩
        rw [UInt32.lt_iff_toNat_lt]
        exact Nat.pos_of_ne_zero fun zero => some_text (UInt32.toNat_inj.mp zero)

theorem tcpEnterTimeWait_ended (s : Conn) : (tcpEnterTimeWait s).ended = s.ended := rfl

theorem inputFin_ended (s : Conn) : (inputFin s).ended = s.ended := by
  unfold inputFin
  dsimp only
  have acked := (((pollReadable_minor { s with
    tsk.tcb.rcvNxt := s.tsk.tcb.rcvNxt + 1, tsk.flags := s.tsk.flags ||| TCP_FIN }).trans
    (tcpSendAck_minor _)).trans (recvNotify_minor _)).same.ended
  generalize recvNotify (tcpSendAck (pollReadable { s with
    tsk.tcb.rcvNxt := s.tsk.tcb.rcvNxt + 1, tsk.flags := s.tsk.flags ||| TCP_FIN })) = u at acked
  split
  · exact acked
  · exact acked
  · split
    · exact (tcpEnterTimeWait_ended u).trans acked
    · exact acked
  · exact (tcpEnterTimeWait_ended u).trans acked
  · exact acked

theorem inputTail_ended (th : TcpHdr) (skb : SkBuff) (ended : Ended s) :
    Ended (inputTail s th skb) := by
  have queued : Ended (tcpDataQueue s skb).1 := by
    unfold tcpDataQueue
    split
    · exact (freeSkb_minor s skb).same.ended.trans ended
    · split
      · exact ended
      · refine (tcpSendAck_minor _).same.ended.trans ?_
        split <;> exact ended
  have text : Ended (inputText s th skb).1 := by
    unfold inputText
    split
    iterate 3 (split; exact queued; exact ended)
    exact ended
  have fin : Ended (inputTextFin (inputText s th skb).1 th (skb.seq = s.tsk.tcb.rcvNxt)) := by
    unfold inputTextFin
    split
    · exact (inputFin_ended _).trans text
    · exact text
  exact ((inputExpected_recv _ th skb _).trans (.of_same (freeSkb_minor _ _).same)).ended fin

theorem inputOtherwise_received (th : TcpHdr) (skb : SkBuff) (inv : ReceivedUpTo stream irs s n)
    (room : irs.toNat + 1 + stream.length + 1 < 2 ^ 32) (seq : skb.seq = th.seq)
    (peer : PeerSegment stream irs th skb.payload) :
    ¬Ended (inputOtherwise s th skb) → ∃ m, ReceivedUpTo stream irs (inputOtherwise s th skb) m := by
  have freed : ∀ t : Conn, RecvFrame t (freeSkb t skb) :=
    fun t => .of_same (freeSkb_minor t skb).same
  have ackd := inputAck_recv s th inv.synchronized
  refine inputOtherwise_cases s th skb ?unverified ?reset ?ignored ?refused ?closed ?taken
  case unverified =>
    intro _ opened
    refine ⟨n, inv.frame (RecvFrame.trans ?_ (freed _)) opened⟩
    split
    · exact .refl s
    · exact .of_same (tcpSendAck_minor s).same
  case reset =>
    intro _ rst
    rw [peer.noReset] at rst
    contradiction
  case ignored => exact fun _ _ _ opened => ⟨n, inv.frame (freed s) opened⟩
  case refused => exact fun _ _ _ _ _ opened => ⟨n, inv.frame (ackd.trans (freed _)) opened⟩
  case closed => exact fun _ _ _ _ _ _ _ opened => absurd (tcpDone_ended _) opened
  case taken =>
    intro verified _ _ _ _ _ opened
    obtain ⟨lower, wide⟩ := tcpVerifySegment_lower verified
    have here := ackd.trans (inputFinAcked_recv _ th)
    generalize inputFinAcked (inputAck s th).1 th = u at here opened
    have uOpened : ¬Ended u := fun ended => opened (inputTail_ended th skb ended)
    have inside : irs.toNat + 1 ≤ th.seq.toNat := by
      have := inv.next
      omega
    refine inputTail_received th skb (inv.frame here uOpened) room seq peer.slice inside peer.fin
      (fun some_text => ?_) opened
    have rcvWnd : u.tsk.tcb.rcvWnd = s.tsk.tcb.rcvWnd :=
      congrArg RecvView.rcvWnd (here.kept uOpened).1
    rw [rcvWnd]
    refine wide fun zero => some_text (List.length_eq_zero_iff.mp ?_)
    rw [← payload_small room peer.slice inside]
    exact congrArg UInt32.toNat zero

theorem tcpIn_received (th : TcpHdr) (payload : List UInt8) (inv : ReceivedUpTo stream irs s n)
    (room : irs.toNat + 1 + stream.length + 1 < 2 ^ 32) (peer : PeerSegment stream irs th payload)
    (opened : ¬Ended (tcpIn s th payload)) :
    ∃ m, ReceivedUpTo stream irs (tcpIn s th payload) m := by
  unfold tcpIn at opened ⊢
  dsimp only at opened ⊢
  have locked : ReceivedUpTo stream irs (socketWrAcquire (tcpInitSegment s th payload).1) n :=
    inv.of_view rfl rfl
  set u := socketWrAcquire (tcpInitSegment s th payload).1
  set skb := (tcpInitSegment s th payload).2
  have handled : ¬Ended (tcpInputState u th skb) := opened
  have done : ∃ m, ReceivedUpTo stream irs (tcpInputState u th skb) m := by
    unfold tcpInputState at handled ⊢
    have synchronized := locked.synchronized
    split
    · rename_i at_state
      rw [at_state] at synchronized
      contradiction
    · rename_i at_state
      rw [at_state] at synchronized
      contradiction
    · rename_i at_state
      rw [at_state] at synchronized
      contradiction
    · rename_i notClose notListen notSynSent
      refine inputOtherwise_received th skb locked room rfl peer ?_
      split at handled
      iterate 3 contradiction
      exact handled
  obtain ⟨m, done⟩ := done
  exact ⟨m, done.same (socketRelease_minor _).same⟩

/-! ### Reads -/

theorem dequeueLoop_bytes (room : Nat) (queue : List SkBuff) :
    (dequeueLoop s room queue).2.2 ++ payloads (dequeueLoop s room queue).2.1 = payloads queue := by
  induction queue generalizing s room with
  | nil => rfl
  | cons skb rest ih =>
    rw [dequeueLoop]
    split
    · rfl
    · dsimp only
      split
      · rename_i used
        have all : skb.payload.take room = skb.payload := by
          rw [List.length_eq_zero_iff, List.drop_eq_nil_iff] at used
          exact List.take_of_length_le used
        rw [List.append_assoc, ih, all]
        rfl
      · rw [payloads_cons, payloads_cons, ← List.append_assoc, List.take_append_drop]

theorem tcpDataDequeue_received (userlen : Nat) (inv : ReceivedUpTo stream irs s n) :
    ReceivedUpTo stream irs (tcpDataDequeue s userlen).1 n := by
  obtain ⟨freed, flags, eq⟩ := dequeueLoop_touches (s := s) userlen s.tsk.receiveQueue
  have bytes := dequeueLoop_bytes (s := s) userlen s.tsk.receiveQueue
  have moved : ReceivedUpTo stream irs { (dequeueLoop s userlen s.tsk.receiveQueue).1 with
      tsk.receiveQueue := (dequeueLoop s userlen s.tsk.receiveQueue).2.1
      delivered := (dequeueLoop s userlen s.tsk.receiveQueue).1.delivered ++
        (dequeueLoop s userlen s.tsk.receiveQueue).2.2 } n := by
    rw [eq]
    refine ⟨?_, inv.bound, inv.next, inv.ofo, inv.whole, inv.synchronized⟩
    show (s.delivered ++ _) ++ payloads _ = _
    rw [List.append_assoc, bytes]
    exact inv.bytes
  unfold tcpDataDequeue
  dsimp only
  split
  · exact moved.of_view rfl rfl
  · exact moved

theorem receiveReturn_received (rlen : Int) (inv : ReceivedUpTo stream irs s n) :
    ReceivedUpTo stream irs (receiveReturn s rlen).1 n := by
  unfold receiveReturn tcpRearmUserTimeout
  dsimp only
  split
  · split
    · exact inv
    · exact inv.of_view rfl rfl
  · exact inv

theorem receiveLoop_received (len rlen : Nat) (inv : ReceivedUpTo stream irs s n) :
    ReceivedUpTo stream irs (receiveLoop s len rlen).1 n := by
  have read := tcpDataDequeue_received (len - rlen) inv
  unfold receiveLoop
  dsimp only
  split
  · split
    · exact receiveReturn_received _ (read.of_view rfl rfl)
    · split
      · exact receiveReturn_received _ read
      · split
        · exact receiveReturn_received _ read
        · exact read.of_view rfl rfl
  · exact receiveReturn_received _ inv

theorem tcpRead_received (len : Nat) (inv : ReceivedUpTo stream irs s n) :
    ReceivedUpTo stream irs (tcpRead s len).1 n := by
  unfold tcpRead
  split
  · exact inv
  · split
    · exact inv.of_view rfl rfl
    · exact receiveLoop_received len 0 inv
  iterate 3 exact inv
  · exact receiveLoop_received len 0 inv

theorem readReturn_received (len : Nat) (r : Conn × Received)
    (inv : ReceivedUpTo stream irs r.1 n) : ReceivedUpTo stream irs (readReturn len r).1 n := by
  obtain ⟨u, rc | rlen⟩ := r
  · exact inv.same (socketRelease_minor u).same
  · exact inv.of_view rfl rfl

/-! ### Runs -/

/- Segments of the peer's stream, and whatever else can happen but a new connection or the freeing
   of the sock. -/
def PeerStep (stream : List UInt8) (irs : UInt32) (s : Conn) : Event → Prop
  | .segment th payload => PeerSegment stream irs th payload
  | .connect _ _ _ | .connectWakes => False
  | .handler i => ∀ t ∈ s.ts.threads[i]?, t.handler ≠ .socketGarbageCollect
  | _ => True

instance (irs seq : UInt32) (p : List UInt8) : Decidable (SliceAt stream irs seq p) :=
  inferInstanceAs (Decidable (_ → _))

instance (th : TcpHdr) (payload : List UInt8) : Decidable (PeerSegment stream irs th payload) :=
  decidable_of_iff (th.rst = false ∧ SliceAt stream irs th.seq payload ∧ (th.fin = true →
    th.seq.toNat + payload.length = irs.toNat + 1 + stream.length))
    ⟨fun h => ⟨h.1, h.2.1, h.2.2⟩, fun h => ⟨h.1, h.2, h.3⟩⟩

instance (e : Event) : Decidable (PeerStep stream irs s e) := by
  induction e using Event.casesOn <;> unfold PeerStep <;> infer_instance

instance : Decidable (Ended s) := inferInstanceAs (Decidable (_ = _))

theorem runHandler_recv (h : Handler) (not_gc : h ≠ .socketGarbageCollect) :
    RecvFrame s (runHandler s h) := by
  have locked : RecvFrame s (socketWrAcquire s) := .of_same (socketWrAcquire_minor s).same
  have release : ∀ u, RecvFrame u (socketRelease u) :=
    fun u => .of_same (socketRelease_minor u).same
  cases h with
  | tcpConnectRto => exact (locked.trans (tcpConnectRto_recv _)).trans (release _)
  | tcpRetransmissionTimeout =>
    exact (locked.trans (tcpRetransmissionTimeout_recv _)).trans (release _)
  | tcpSendDelack => exact (locked.trans (tcpSendDelack_recv _)).trans (release _)
  | tcpLinger => exact .of_ended (tcpDone_ended _)
  | tcpUserTimeout => exact .of_ended (tcpDone_ended _)
  | socketGarbageCollect => contradiction

theorem call_recv {f : Conn → Conn × Int} {r : Reply}
    (keep : RecvFrame (socketWrAcquire s) (f (socketWrAcquire s)).1)
    (taken : call s f = some (t, r)) : RecvFrame s t := by
  unfold call at taken
  split at taken
  · obtain ⟨rfl, -⟩ := by simpa using taken
    exact (keep.after (.of_same (socketWrAcquire_minor s).same)).trans
      (.of_same (socketRelease_minor _).same)
  · contradiction

theorem exec_received {e : Event} {r : Reply} (inv : ReceivedUpTo stream irs s n)
    (room : irs.toNat + 1 + stream.length + 1 < 2 ^ 32) (ok : PeerStep stream irs s e)
    (taken : exec s e = some (t, r)) (opened : ¬Ended t) :
    ∃ m, ReceivedUpTo stream irs t m := by
  have locked : ReceivedUpTo stream irs (socketWrAcquire s) n := inv.of_view rfl rfl
  have framed : RecvFrame s t → ∃ m, ReceivedUpTo stream irs t m :=
    fun h => ⟨n, inv.frame h opened⟩
  cases e with
  | connect addr port iss => exact absurd ok id
  | connectWakes => exact absurd ok id
  | write buf =>
    simp only [exec] at taken
    exact framed (call_recv (tcpWrite_recv _ buf) taken)
  | read len =>
    simp only [exec] at taken
    split at taken
    · have done := readReturn_received len _ (tcpRead_received len locked)
      rw [Option.some.inj taken] at done
      exact ⟨n, done⟩
    · contradiction
  | readWakes i =>
    simp only [exec, readWakes] at taken
    split at taken
    · contradiction
    · obtain ⟨b, -, woken⟩ := Option.map_eq_some_iff.mp taken
      have resumed : ReceivedUpTo stream irs (socketWrAcquire { s with
          readers := s.readers.eraseIdx i, tsk.recvWait := waitReturn s.tsk.recvWait }) n :=
        inv.of_view rfl rfl
      have done := readReturn_received b.len _ (receiveLoop_received b.len b.rlen resumed)
      rw [woken] at done
      exact ⟨n, done⟩
  | close =>
    simp only [exec] at taken
    exact framed (call_recv (tcpClose_recv _) taken)
  | abort =>
    simp only [exec] at taken
    split at taken
    · obtain ⟨rfl, -⟩ := by simpa using taken
      exact absurd (tcpDone_ended _) opened
    · contradiction
  | poll events =>
    simp only [exec] at taken
    exact framed (call_recv (.refl _) taken)
  | fcntlGetfl =>
    simp only [exec] at taken
    exact framed (call_recv (.refl _) taken)
  | fcntlSetfl flags =>
    simp only [exec] at taken
    exact framed (call_recv (.of_rfl rfl rfl rfl) taken)
  | getsockoptError =>
    simp only [exec] at taken
    exact framed (call_recv (.refl _) taken)
  | segment th payload =>
    simp only [exec] at taken
    split at taken
    · obtain ⟨rfl, -⟩ := by simpa using taken
      exact tcpIn_received th payload inv room ok opened
    · contradiction
  | tick busy =>
    obtain ⟨rfl, -⟩ := by simpa [exec] using taken
    exact framed (.of_rfl rfl rfl rfl)
  | handler i =>
    simp only [exec, takeThread, Option.bind_eq_bind, Option.bind_eq_some_iff,
      Option.map_eq_some_iff] at taken
    obtain ⟨p, ⟨h, found, rfl⟩, taken⟩ := taken
    dsimp only at taken
    split at taken
    · contradiction
    · obtain ⟨rfl, -⟩ := by simpa using taken
      exact framed ((runHandler_recv h.handler (ok h found)).after (.of_rfl rfl rfl rfl))

/- The receive side as the handshake leaves it. -/
structure Opened (s : Conn) : Prop where
  state : s.tsk.state = .established
  rcvNxt : s.tsk.tcb.rcvNxt = s.tsk.tcb.irs + 1
  receiveQueue : s.tsk.receiveQueue = []
  ofoQueue : s.tsk.ofoQueue = []
  delivered : s.delivered = []

/-- In every run from ESTABLISHED in which `tcp_done` has not run, the bytes read and the bytes
    waiting to be read are the first `n` of the peer's stream, and `rcv_nxt` counts exactly these
    and the FIN once it is processed. -/
theorem receiver_stream_integrity {first : Conn} {trace : List (Event × Reply)}
    (start : Opened first) (room : first.tsk.tcb.irs.toNat + 1 + stream.length + 1 < 2 ^ 32)
    (run : Transition.Run exec
      (fun _ s e => ¬Ended s ∧ PeerStep stream first.tsk.tcb.irs s e) first trace s)
    (opened : ¬Ended s) :
    ∃ n ≤ stream.length, s.delivered ++ payloads s.tsk.receiveQueue = stream.take n ∧
      s.tsk.tcb.rcvNxt.toNat =
        first.tsk.tcb.irs.toNat + 1 + n + (if FinProcessed s then 1 else 0) := by
  have base : ReceivedUpTo stream first.tsk.tcb.irs first 0 := by
    have still : ¬FinProcessed first := by simp [FinProcessed, start.state, TcpState.phase]
    refine ⟨by simp [start.delivered, start.receiveQueue], Nat.zero_le _, ?_,
      by simp [start.ofoQueue], fun fin => absurd fin still, ?_⟩
    · rw [if_neg still, start.rcvNxt, UInt32.toNat_add, UInt32.toNat_one]
      omega
    · simp [start.state, TcpState.phase]
  have inv : ¬Ended s → ∃ n, ReceivedUpTo stream first.tsk.tcb.irs s n := by
    refine run.invariant_state (P := fun s => ¬Ended s → ∃ n, ReceivedUpTo stream _ s n)
      (fun _ => ⟨0, base⟩) ?_
    intro _ u e v r held ok taken openedV
    obtain ⟨n, inv⟩ := held ok.1
    exact exec_received inv room ok.2 taken openedV
  obtain ⟨n, inv⟩ := inv opened
  exact ⟨n, inv.bound, inv.bytes, inv.next⟩

def openedAt (irs : UInt32) : Conn :=
  { sock := { state := .connected }
    tsk := { state := .established, sport := 40001, dport := 80
             tcb := { rcvNxt := irs + 1, rcvWnd := tcpSelectInitialWindow, irs := irs } } }

theorem receiver_stream_integrity_reordered : ∃ trace s,
    Transition.Run exec (fun _ s e => ¬Ended s ∧ PeerStep [1, 2, 3, 4] 5000 s e) (openedAt 5000)
      trace s ∧ s.delivered = [1, 2, 3] ∧ FinProcessed s ∧
    ∃ n ≤ 4, s.delivered ++ payloads s.tsk.receiveQueue = [1, 2, 3, 4].take n ∧
      s.tsk.tcb.rcvNxt.toNat = 5000 + 1 + n + (if FinProcessed s then 1 else 0) := by
  obtain ⟨trace, s, run, opened, read, fin⟩ : ∃ trace s,
      Transition.Run exec (fun _ s e => ¬Ended s ∧ PeerStep [1, 2, 3, 4] 5000 s e) (openedAt 5000)
        trace s ∧ ¬Ended s ∧ s.delivered = [1, 2, 3] ∧ FinProcessed s :=
    Transition.Run.exists_of_follow [.segment (peerHdr 5003 0) [3, 4],
      .segment (peerHdr 5002 0) [2, 3], .segment { peerHdr 5001 0 with psh := true } [1, 2],
      .read 3, .segment { peerHdr 5005 0 with fin := true } []] (by decide)
  have start : Opened (openedAt 5000) := ⟨rfl, rfl, rfl, rfl, rfl⟩
  exact ⟨trace, s, run, read, fin, receiver_stream_integrity start (by decide) run opened⟩

end HfIp
