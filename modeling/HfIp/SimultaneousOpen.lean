import HfIp.Lib.Exchange
import HfIp.Bookkeeping

/- Two sockets of this program that connect to each other at the same time, over a network that delivers
   every segment exactly once, in any order, while no timer runs out. `tcp_synsent` enters SYN_RECEIVED
   before it calls `tcp_send_synack`, which goes by SYN_SENT, so neither side ever answers the other's
   SYN. -/
namespace HfIp

open Exchange

variable {s t : Conn}

/-! ### The two endpoints -/

/- What a step has given to `ip_output`. -/
def emitted (s t : Conn) : List Segment := t.out.drop s.out.length

/- A segment that belongs to no connection is dropped. -/
def receive (s : Conn) (seg : Segment) : Conn × List Segment :=
  match exec s (.segment seg.th seg.payload) with
  | some (t, _) => (t, emitted s t)
  | none => (s, [])

def act (s : Conn) (e : Event) : Option (Conn × List Segment) :=
  (exec s e).map fun p => (p.1, emitted s p.1)

/-- Besides the deliveries, the thread asleep in `connect` wakes for whatever reason, and time passes. -/
def Untimed : Side × Move Event → Prop
  | (_, .deliver _) => True
  | (_, .act .connectWakes) => True
  | (_, .act (.tick _)) => True
  | _ => False

instance : DecidablePred Untimed := fun e => by
  unfold Untimed
  split <;> infer_instance

/- The two ends when both have called `connect`, what each has sent in flight to the other. -/
def opening (s a t b : Conn) : Net Conn Segment :=
  { left := a, right := b, toLeft := emitted t b, toRight := emitted s a }

/-- Each side has fallen asleep in a `connect` towards the port of the other. -/
inductive SimultaneousOpen : Net Conn Segment → Prop where
  | both {s a t b : Conn} {addr addr' : SockAddr} {port port' : UInt16} {iss iss' : UInt32}
      (left : exec s (.connect addr port iss) = some (a, .asleep))
      (right : exec t (.connect addr' port' iss') = some (b, .asleep))
      (ports : addr.port = port' ∧ addr'.port = port) : SimultaneousOpen (opening s a t b)

/-- Both are ESTABLISHED, each expects what the other sends next and has all it sent acknowledged, and
    both callers have been released with the socket connected. -/
def Agreed (n : Net Conn Segment) : Prop :=
  (n.left.tsk.state = .established ∧ n.right.tsk.state = .established) ∧
  (n.left.tsk.tcb.rcvNxt = n.right.tsk.tcb.sndNxt ∧
    n.right.tsk.tcb.rcvNxt = n.left.tsk.tcb.sndNxt) ∧
  (n.left.tsk.tcb.sndUna = n.left.tsk.tcb.sndNxt ∧
    n.right.tsk.tcb.sndUna = n.right.tsk.tcb.sndNxt) ∧
  ∀ s ∈ [n.left, n.right], s.sock.state = .connected ∧
    (s.connecting = true → 0 < s.sock.sleep.released)

instance (n : Net Conn Segment) : Decidable (Agreed n) :=
  inferInstanceAs (Decidable (_ ∧ _ ∧ _ ∧ _))

/-! ### What `connect` leaves behind -/

/- A caller asleep in `connect` that nothing has released. -/
structure Blocked (s : Conn) : Prop where
  asleep : s.connecting = true
  connecting : s.sock.state = .connecting
  pending : s.tsk.err = -EINPROGRESS

/- A SYN that acknowledges nothing. -/
structure BareSyn (seg : Segment) : Prop where
  syn : seg.th.syn = true
  ack : seg.th.ack = false
  rst : seg.th.rst = false

theorem tcpTransmitSkb_flags (s : Conn) (skb : SkBuff) (seq : UInt32) : ∃ seg : Segment,
    (tcpTransmitSkb s skb seq).1.out = s.out ++ [seg] ∧ seg.th.syn = skb.th.syn ∧
      seg.th.ack = skb.th.ack ∧ seg.th.rst = skb.th.rst := by
  unfold tcpTransmitSkb
  dsimp only
  have flags : (if skb.th.hl = 0 then { skb.th with hl := 5 } else skb.th).syn = skb.th.syn ∧
      (if skb.th.hl = 0 then { skb.th with hl := 5 } else skb.th).ack = skb.th.ack ∧
      (if skb.th.hl = 0 then { skb.th with hl := 5 } else skb.th).rst = skb.th.rst := by
    split <;> exact ⟨rfl, rfl, rfl⟩
  generalize (if skb.th.hl = 0 then { skb.th with hl := 5 } else skb.th) = th at flags
  obtain ⟨data, written⟩ := tcpWriteOptions_th s.tsk th
  refine ⟨_, rfl, ?_⟩
  split
  · simpa only [written] using flags
  · exact flags

/- A buffer goes out at once or not at all. -/
theorem tcpQueueTransmitSkb_flags (s : Conn) (k : SkBuff) : ∃ segs : List Segment,
    (tcpQueueTransmitSkb s k).out = s.out ++ segs ∧ segs.length ≤ 1 ∧
      ∀ seg ∈ segs, seg.th.syn = k.th.syn ∧ seg.th.ack = k.th.ack ∧ seg.th.rst = k.th.rst := by
  have armed : (if skbQueueEmpty s.tsk.writeQueue then tcpRearmRtoTimer s else s).out = s.out := by
    split
    · exact tcpRearmRtoTimer_out
    · rfl
  unfold tcpQueueTransmitSkb
  dsimp only
  generalize (if skbQueueEmpty s.tsk.writeQueue then tcpRearmRtoTimer s else s) = u at armed
  rw [← armed]
  split
  · obtain ⟨seg, out, flags⟩ := tcpTransmitSkb_flags u k u.tsk.tcb.sndNxt
    refine ⟨[seg], out, Nat.le_refl _, ?_⟩
    intro seg' member
    obtain rfl := List.mem_singleton.mp member
    exact flags
  · exact ⟨[], (List.append_nil _).symm, Nat.zero_le _, by simp⟩

/- The SYN, unless something else is in flight. -/
theorem tcpV4Connect_out (s : Conn) (addr : SockAddr) (port : UInt16) (iss : UInt32)
    (closed : s.tsk.state = .close) : ∃ segs : List Segment,
    (tcpV4Connect s addr port iss).out = s.out ++ segs ∧ segs.length ≤ 1 ∧
      ∀ seg ∈ segs, BareSyn seg := by
  unfold tcpV4Connect tcpConnect tcpSendSyn
  simp only [closed]
  rw [if_neg (by simp)]
  obtain ⟨segs, out, one, flags⟩ := tcpQueueTransmitSkb_flags _ _
  refine ⟨segs, out, one, fun seg member => ?_⟩
  obtain ⟨syn, ack, rst⟩ := flags seg member
  exact ⟨syn, ack, rst⟩

theorem connectReturn_asleep {q : Conn × Option Int} {a : Conn}
    (asleep : connectReturn q = (a, .asleep)) : q = (a, none) := by
  obtain ⟨u, _ | rc⟩ := q
  · cases asleep
    rfl
  · unfold connectReturn at asleep
    dsimp only at asleep
    split at asleep <;> cases asleep

/- The wait loop sleeps with the answer pending, and only then. -/
theorem connectWait_asleep {u a : Conn} (asleep : connectWait u = (a, none)) :
    u.sock.state = .connecting ∧ u.tsk.err = -EINPROGRESS ∧
      a = socketRelease { u with sock.sleep := waitSleep u.sock.sleep, connecting := true } := by
  unfold connectWait at asleep
  split at asleep
  · rename_i pending
    exact ⟨pending.1, pending.2, (Prod.mk.inj asleep).1.symm⟩
  · dsimp only at asleep
    split at asleep <;> cases asleep

theorem inetStreamConnect_asleep {u a : Conn} {addr : SockAddr} {port : UInt16} {iss : UInt32}
    (asleep : inetStreamConnect u addr port iss = (a, none)) : u.tsk.state = .close ∧
      connectWait { tcpV4Connect { u with tsk.err := -EISCONN } addr port iss with
        sock.state := .connecting, tsk.err := -EINPROGRESS } = (a, none) := by
  unfold inetStreamConnect at asleep
  split at asleep
  · cases asleep
  · split at asleep
    · cases asleep
    · split at asleep
      · cases asleep
      · cases asleep
      · split at asleep
        · cases asleep
        · rename_i closed
          refine ⟨not_not.mp closed, ?_⟩
          dsimp only at asleep
          split at asleep
          · cases asleep
          · exact asleep
      · cases asleep

/- A `connect` that falls asleep has sent the SYN. -/
theorem connect_asleep {a : Conn} {addr : SockAddr} {port : UInt16} {iss : UInt32}
    (taken : exec s (.connect addr port iss) = some (a, .asleep)) :
    Blocked a ∧ a.tsk.state = .synSent ∧ a.tsk.tcb.sndUna = a.tsk.tcb.iss ∧
      (emitted s a).length ≤ 1 ∧ ∀ seg ∈ emitted s a, BareSyn seg := by
  simp only [exec] at taken
  split at taken
  · obtain ⟨closed, waits⟩ :=
      inetStreamConnect_asleep (connectReturn_asleep (Option.some.inj taken))
    have state := (tcpV4Connect_state { socketWrAcquire s with tsk.err := -EISCONN } addr port iss
      closed).1
    have number := tcpV4Connect_iss { socketWrAcquire s with tsk.err := -EISCONN } addr port iss closed
    have una : (tcpV4Connect { socketWrAcquire s with tsk.err := -EISCONN } addr port
      iss).tsk.tcb.sndUna = iss := tcpConnect_una _ iss closed
    obtain ⟨segs, out, sent⟩ := tcpV4Connect_out { socketWrAcquire s with tsk.err := -EISCONN } addr
      port iss closed
    generalize tcpV4Connect { socketWrAcquire s with tsk.err := -EISCONN } addr port iss = u at *
    obtain ⟨-, -, rfl⟩ := connectWait_asleep waits
    have emits : emitted s (socketRelease { u with
        sock.state := .connecting, tsk.err := -EINPROGRESS
        sock.sleep := waitSleep u.sock.sleep, connecting := true }) = segs := by
      unfold emitted
      exact (congrArg (List.drop s.out.length) out).trans (List.drop_left' rfl)
    rw [emits]
    exact ⟨⟨rfl, rfl, rfl⟩, state, una.trans number.symm, sent⟩
  · contradiction

/-! ### What each side does with what it hears -/

/- Asleep with the SYN of the other side in flight, or in SYN_RECEIVED with nothing in flight. -/
structure HalfOpen (s : Conn) (incoming : List Segment) : Prop where
  blocked : Blocked s
  stage : (s.tsk.state = .synSent ∧ s.tsk.tcb.sndUna = s.tsk.tcb.iss ∧ incoming.length ≤ 1 ∧
      ∀ seg ∈ incoming, BareSyn seg) ∨
    (s.tsk.state = .synReceived ∧ incoming = [])

/- The other side's SYN, which acknowledges nothing, is taken and not answered. -/
theorem synsentSyn_unanswered {th : TcpHdr} (bare : th.ack = false)
    (unacked : s.tsk.tcb.sndUna = s.tsk.tcb.iss) : synsentSyn s th = { s with
      tsk.tcb.rcvNxt := th.seq + 1, tsk.tcb.irs := th.seq, tsk.tcb.sndUna := s.tsk.tcb.iss
      tsk.state := .synReceived } := by
  unfold synsentSyn synsentAck
  simp only [bare, Bool.false_eq_true, if_false, unacked]
  rw [if_neg (by simp), tcpSendSynack_minor _ (by simp [setState])]
  rfl

/- In SYN_SENT a bare SYN leads to SYN_RECEIVED, and nothing goes out. -/
theorem exec_bareSyn {seg : Segment} {r : Reply} (blocked : Blocked s)
    (waiting : s.tsk.state = .synSent) (unacked : s.tsk.tcb.sndUna = s.tsk.tcb.iss)
    (bare : BareSyn seg) (taken : exec s (.segment seg.th seg.payload) = some (t, r)) :
    Blocked t ∧ t.tsk.state = .synReceived ∧ t.out = s.out := by
  simp only [exec] at taken
  split at taken
  · obtain ⟨rfl, -⟩ := by simpa using taken
    have syn : SynTaken (arriving s seg.th seg.payload) seg.th :=
      ⟨waiting, fun ack => absurd (bare.ack.symm.trans ack) (by simp), bare.syn⟩
    have path : tcpIn s seg.th seg.payload = socketRelease (freeSkb
        (synsentSyn (arriving s seg.th seg.payload) seg.th)
        (tcpInitSegment s seg.th seg.payload).2) :=
      congrArg socketRelease (syn.input bare.rst)
    have silent := synsentSyn_unanswered (s := arriving s seg.th seg.payload) bare.ack unacked
    rw [silent] at path
    obtain ⟨freed, eq⟩ := freeSkb_eq _ (tcpInitSegment s seg.th seg.payload).2
    rw [path, eq]
    exact ⟨⟨blocked.asleep, blocked.connecting, blocked.pending⟩, rfl, rfl⟩
  · contradiction

/- A segment in flight to a side leaves it half open, and brings no answer. -/
theorem HalfOpen.hears {incoming : List Segment} {i : Nat} {seg : Segment}
    (half : HalfOpen s incoming) (here : incoming[i]? = some seg) :
    HalfOpen (receive s seg).1 (incoming.eraseIdx i) ∧ (receive s seg).2 = [] := by
  obtain ⟨blocked, ⟨waiting, unacked, one, bare⟩ | ⟨-, rfl⟩⟩ := half
  · obtain ⟨first, rfl⟩ : ∃ first, incoming = [first] := by
      match incoming, here, one with
      | [first], _, _ => exact ⟨first, rfl⟩
    obtain ⟨rfl, rfl⟩ : i = 0 ∧ first = seg := by
      cases i with
      | zero => exact ⟨rfl, Option.some.inj here⟩
      | succ i => simp at here
    have syn := bare first (by simp)
    unfold receive
    cases taken : exec s (.segment first.th first.payload) with
    | none => exact ⟨⟨blocked, .inl ⟨waiting, unacked, Nat.zero_le _, by simp⟩⟩, rfl⟩
    | some p =>
      obtain ⟨t, r⟩ := p
      obtain ⟨still, received, silent⟩ := exec_bareSyn blocked waiting unacked syn taken
      refine ⟨⟨still, .inr ⟨received, rfl⟩⟩, ?_⟩
      simp [emitted, silent]
  · simp at here

/- So does waking up, and time. -/
theorem HalfOpen.acts {incoming : List Segment} {side : Side} {e : Event} {sent : List Segment}
    (half : HalfOpen s incoming) (untimed : Untimed (side, .act e)) (done : act s e = some (t, sent)) :
    HalfOpen t incoming ∧ sent = [] := by
  obtain ⟨⟨u, r⟩, taken, same⟩ := Option.map_eq_some_iff.mp done
  obtain ⟨rfl, rfl⟩ := by simpa using same
  obtain ⟨blocked, stage⟩ := half
  cases e with
  | tick busy =>
    obtain ⟨rfl, -⟩ := by simpa [exec] using taken
    exact ⟨⟨⟨blocked.asleep, blocked.connecting, blocked.pending⟩, stage⟩, by simp [emitted]⟩
  | connectWakes =>
    simp only [exec] at taken
    split at taken
    · contradiction
    · unfold connectWakes at taken
      rw [if_pos blocked.asleep] at taken
      unfold connectWait at taken
      rw [if_pos ⟨blocked.connecting, blocked.pending⟩] at taken
      obtain ⟨rfl, -⟩ := by simpa [connectReturn] using taken
      exact ⟨⟨⟨rfl, blocked.connecting, blocked.pending⟩, stage⟩, by
        simp [emitted, socketRelease, socketWrAcquire]⟩
  | _ => cases untimed

/-! ### Runs -/

/-- A run of the two endpoints in which no timer runs out. -/
abbrev OpenRun (first : Net Conn Segment) :=
  Transition.Run (step receive act) (fun _ _ e => Untimed e) first

theorem SimultaneousOpen.halves {n : Net Conn Segment} (opened : SimultaneousOpen n) :
    Both HalfOpen n := by
  obtain ⟨left, right, -⟩ := opened
  obtain ⟨blocked, state, unacked, sent⟩ := connect_asleep left
  obtain ⟨blocked', state', unacked', sent'⟩ := connect_asleep right
  exact ⟨⟨blocked, .inl ⟨state, unacked, sent'⟩⟩, ⟨blocked', .inl ⟨state', unacked', sent⟩⟩⟩

theorem open_halves {n m : Net Conn Segment} {trace : List ((Side × Move Event) × Unit)}
    (opened : SimultaneousOpen n) (run : OpenRun n trace m) : Both HalfOpen m := by
  refine run_both opened.halves ?_ ?_ run
  · intro s ms t ns i seg half other here
    obtain ⟨still, silent⟩ := half.hears here
    rw [silent, List.append_nil]
    exact ⟨still, other⟩
  · intro _ _ side e s ms t ns s' sent untimed half other done
    obtain ⟨still, rfl⟩ := half.acts untimed done
    rw [List.append_nil]
    exact ⟨still, other⟩

/-- A simultaneous open never comes to an agreement: both callers are asleep for good, in whatever order
    the SYNs are delivered, and the network does run empty. -/
theorem simultaneous_open_stuck {n : Net Conn Segment} (opened : SimultaneousOpen n) :
    (∃ trace m, OpenRun n trace m ∧ m.Quiet) ∧
      ∀ trace m, OpenRun n trace m → Blocked m.left ∧ Blocked m.right ∧ ¬Agreed m := by
  constructor
  · refine run_drains (P := HalfOpen) ?_ ?_ (fun _ _ _ _ => trivial) .start opened.halves
    · intro s ms seg half member
      obtain ⟨i, here⟩ := List.mem_iff_getElem?.mp member
      exact (half.hears here).2
    · exact fun s ms i seg half here => (half.hears here).1
  · intro trace m run
    have halves := open_halves opened run
    refine ⟨halves.1.blocked, halves.2.blocked, fun agreed => ?_⟩
    have established := agreed.1.1
    rcases halves.1.stage with ⟨waiting, -⟩ | ⟨received, -⟩
    · exact absurd (waiting.symm.trans established) (by simp)
    · exact absurd (received.symm.trans established) (by simp)


/- Two fresh sockets, port 40001 with `iss` 1000 and port 40002 with `iss` 7000. -/
def dialled (port peer : UInt16) (iss : UInt32) : Conn :=
  match exec {} (.connect ⟨2, 16, peer, parseIpv4 10 0 0 4⟩ port iss) with
  | some (a, _) => a
  | none => {}

def bothDialled : Net Conn Segment :=
  opening {} (dialled 40001 40002 1000) {} (dialled 40002 40001 7000)

theorem bothDialled_opened : SimultaneousOpen bothDialled := by
  have left : exec {} (.connect ⟨2, 16, 40002, parseIpv4 10 0 0 4⟩ 40001 1000) =
      some (dialled 40001 40002 1000, .asleep) := by decide +kernel
  have right : exec {} (.connect ⟨2, 16, 40001, parseIpv4 10 0 0 4⟩ 40002 7000) =
      some (dialled 40002 40001 7000, .asleep) := by decide +kernel
  exact .both left right ⟨rfl, rfl⟩

theorem simultaneous_open_stuck_fresh : ∃ trace m, OpenRun bothDialled trace m ∧ m.Quiet ∧
    Blocked m.left ∧ Blocked m.right ∧ ¬Agreed m := by
  obtain ⟨⟨trace, m, run, quiet⟩, stuck⟩ := simultaneous_open_stuck bothDialled_opened
  exact ⟨trace, m, run, quiet, stuck trace m run⟩

/-- Each SYN is delivered: both sides are in SYN_RECEIVED with nothing in flight. -/
theorem simultaneous_open_synReceived : ∃ trace m, OpenRun bothDialled trace m ∧
    (m.Quiet ∧ m.left.tsk.state = .synReceived ∧ m.right.tsk.state = .synReceived ∧ ¬Agreed m) := by
  exact Transition.Run.exists_of_follow [(.left, .deliver 0), (.right, .deliver 0)]
    (by decide +kernel)

end HfIp
