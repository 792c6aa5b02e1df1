import HfIp.Socket

/- What the functions of the connection leave alone. `core` forgets the bookkeeping that no
   ordering of segments depends on: statistics, poll bits, SACK blocks, allocation, locks. -/
namespace HfIp

def core (s : Conn) : Conn :=
  { s with
    out := [], freed := [], nextSkb := 0
    sock := { s.sock with refcnt := 0, locked := false, relocked := false, sleep := {} }
    tsk := { s.tsk with
      pollEvents := 0, recvWait := {}, sacks := [], sacklen := 0, sacksOob := false
      sacksAllowed := 0, sackok := false, tsopt := false, delacks := 0 } }

def Same (s t : Conn) : Prop := core t = core s

namespace Same

variable {s t u : Conn}

theorem refl (s : Conn) : Same s s := rfl

theorem trans (first : Same s t) (second : Same t u) : Same s u := Eq.trans second first

theorem state (h : Same s t) : t.tsk.state = s.tsk.state := congrArg (·.tsk.state) h
theorem err (h : Same s t) : t.tsk.err = s.tsk.err := congrArg (·.tsk.err) h
theorem flags (h : Same s t) : t.tsk.flags = s.tsk.flags := congrArg (·.tsk.flags) h
theorem tcb (h : Same s t) : t.tsk.tcb = s.tsk.tcb := congrArg (·.tsk.tcb) h
theorem iss (h : Same s t) : t.tsk.tcb.iss = s.tsk.tcb.iss := congrArg (·.tsk.tcb.iss) h
theorem irs (h : Same s t) : t.tsk.tcb.irs = s.tsk.tcb.irs := congrArg (·.tsk.tcb.irs) h
theorem sndUna (h : Same s t) : t.tsk.tcb.sndUna = s.tsk.tcb.sndUna :=
  congrArg (·.tsk.tcb.sndUna) h
theorem sndNxt (h : Same s t) : t.tsk.tcb.sndNxt = s.tsk.tcb.sndNxt :=
  congrArg (·.tsk.tcb.sndNxt) h
theorem rcvNxt (h : Same s t) : t.tsk.tcb.rcvNxt = s.tsk.tcb.rcvNxt :=
  congrArg (·.tsk.tcb.rcvNxt) h
theorem writeQueue (h : Same s t) : t.tsk.writeQueue = s.tsk.writeQueue :=
  congrArg (·.tsk.writeQueue) h
theorem receiveQueue (h : Same s t) : t.tsk.receiveQueue = s.tsk.receiveQueue :=
  congrArg (·.tsk.receiveQueue) h
theorem ofoQueue (h : Same s t) : t.tsk.ofoQueue = s.tsk.ofoQueue := congrArg (·.tsk.ofoQueue) h
theorem inflight (h : Same s t) : t.tsk.inflight = s.tsk.inflight := congrArg (·.tsk.inflight) h
theorem backoff (h : Same s t) : t.tsk.backoff = s.tsk.backoff := congrArg (·.tsk.backoff) h
theorem rto (h : Same s t) : t.tsk.rto = s.tsk.rto := congrArg (·.tsk.rto) h
theorem retransmit (h : Same s t) : t.tsk.retransmit = s.tsk.retransmit :=
  congrArg (·.tsk.retransmit) h
theorem delack (h : Same s t) : t.tsk.delack = s.tsk.delack := congrArg (·.tsk.delack) h
theorem keepalive (h : Same s t) : t.tsk.keepalive = s.tsk.keepalive :=
  congrArg (·.tsk.keepalive) h
theorem linger (h : Same s t) : t.tsk.linger = s.tsk.linger := congrArg (·.tsk.linger) h
theorem ts (h : Same s t) : t.ts = s.ts := congrArg (·.ts) h
theorem smss (h : Same s t) : t.tsk.smss = s.tsk.smss := congrArg (·.tsk.smss) h
theorem accepted (h : Same s t) : t.accepted = s.accepted := congrArg (·.accepted) h
theorem fins (h : Same s t) : t.fins = s.fins := congrArg (·.fins) h
theorem sent (h : Same s t) : t.sent = s.sent := congrArg (·.sent) h
theorem delivered (h : Same s t) : t.delivered = s.delivered := congrArg (·.delivered) h
theorem readers (h : Same s t) : t.readers = s.readers := congrArg (·.readers) h
theorem sockState (h : Same s t) : t.sock.state = s.sock.state := congrArg (·.sock.state) h
theorem skFreed (h : Same s t) : t.sock.skFreed = s.sock.skFreed := congrArg (·.sock.skFreed) h
theorem registered (h : Same s t) : t.sock.registered = s.sock.registered :=
  congrArg (·.sock.registered) h
theorem ended (h : Same s t) : t.ended = s.ended := congrArg (·.ended) h
theorem connecting (h : Same s t) : t.connecting = s.connecting := congrArg (·.connecting) h

end Same

/- Segments that take no part of the sequence space. -/
def Segment.Bare (seg : Segment) : Prop :=
  seg.payload = [] ∧ seg.th.fin = false ∧ seg.th.syn = false

/- The core is the same and only bare segments have been sent, whose ACK is that of the core. -/
structure Minor (s t : Conn) : Prop where
  same : Same s t
  out : ∃ more, t.out = s.out ++ more ∧
    ∀ seg ∈ more, seg.Bare ∧ (seg.th.ack = true → seg.th.ackSeq = s.tsk.tcb.rcvNxt)

namespace Minor

variable {s t u : Conn}

theorem of_out (same : Same s t) (out : t.out = s.out) : Minor s t :=
  ⟨same, [], by simp [out], by simp⟩

theorem refl (s : Conn) : Minor s s := of_out rfl rfl

theorem trans (first : Minor s t) (second : Minor t u) : Minor s u := by
  obtain ⟨more, ho, hb⟩ := first.out
  obtain ⟨rest, hr, hc⟩ := second.out
  refine ⟨first.same.trans second.same, more ++ rest, by simp [hr, ho], ?_⟩
  intro seg member
  rcases List.mem_append.mp member with early | late
  · exact hb seg early
  · simpa [first.same.tcb] using hc seg late

end Minor

/-! ### Buffers, wakeups, locks -/

@[simp] theorem freeSkb_sock (s : Conn) (skb : SkBuff) : (freeSkb s skb).sock = s.sock := by
  unfold freeSkb; split <;> rfl
@[simp] theorem freeSkb_tsk (s : Conn) (skb : SkBuff) : (freeSkb s skb).tsk = s.tsk := by
  unfold freeSkb; split <;> rfl
@[simp] theorem freeSkb_ts (s : Conn) (skb : SkBuff) : (freeSkb s skb).ts = s.ts := by
  unfold freeSkb; split <;> rfl
@[simp] theorem freeSkb_out (s : Conn) (skb : SkBuff) : (freeSkb s skb).out = s.out := by
  unfold freeSkb; split <;> rfl
@[simp] theorem freeSkb_sent (s : Conn) (skb : SkBuff) : (freeSkb s skb).sent = s.sent := by
  unfold freeSkb; split <;> rfl
@[simp] theorem freeSkb_delivered (s : Conn) (skb : SkBuff) :
    (freeSkb s skb).delivered = s.delivered := by
  unfold freeSkb; split <;> rfl

theorem freeSkb_minor (s : Conn) (skb : SkBuff) : Minor s (freeSkb s skb) := by
  refine .of_out ?_ (freeSkb_out s skb)
  unfold freeSkb; split <;> rfl

theorem freeSkb_eq (s : Conn) (skb : SkBuff) :
    ∃ freed, freeSkb s skb = { s with freed := freed } := by
  unfold freeSkb; split
  · exact ⟨_, rfl⟩
  · exact ⟨s.freed, rfl⟩

theorem skbQueueFree_eq (s : Conn) (queue : List SkBuff) :
    ∃ freed, skbQueueFree s queue = { s with freed := freed } := by
  unfold skbQueueFree
  induction queue generalizing s with
  | nil => exact ⟨s.freed, rfl⟩
  | cons skb rest ih =>
    obtain ⟨one, hone⟩ := freeSkb_eq s { skb with refcnt := skb.refcnt - 1 }
    obtain ⟨freed, hrest⟩ := ih { s with freed := one }
    exact ⟨freed, by rw [List.foldl_cons, hone, hrest]⟩

theorem skbQueueFree_minor (s : Conn) (queue : List SkBuff) : Minor s (skbQueueFree s queue) := by
  obtain ⟨freed, eq⟩ := skbQueueFree_eq s queue
  rw [eq]
  exact .of_out rfl rfl

theorem recvNotify_minor (s : Conn) : Minor s (recvNotify s) := .of_out rfl rfl
theorem wakeSleep_minor (s : Conn) : Minor s (wakeSleep s) := .of_out rfl rfl
theorem pollReadable_minor (s : Conn) : Minor s (pollReadable s) := .of_out rfl rfl
theorem socketWrAcquire_minor (s : Conn) : Minor s (socketWrAcquire s) := .of_out rfl rfl
theorem socketRelease_minor (s : Conn) : Minor s (socketRelease s) := .of_out rfl rfl
theorem tcpAllocSkb_minor (s : Conn) (optlen : Nat) (payload : List UInt8) :
    Minor s (tcpAllocSkb s optlen payload).1 := .of_out rfl rfl

theorem tcpNotifyUser_minor (s : Conn) : Minor s (tcpNotifyUser s) := by
  unfold tcpNotifyUser; split
  · exact wakeSleep_minor s
  · exact .refl s

/-! ### Transmission -/

section Transmit

variable (s : Conn) (skb : SkBuff) (seq : UInt32)

@[simp] theorem tcpTransmitSkb_id : (tcpTransmitSkb s skb seq).2.id = skb.id := rfl
@[simp] theorem tcpTransmitSkb_refcnt : (tcpTransmitSkb s skb seq).2.refcnt = skb.refcnt := rfl
@[simp] theorem tcpTransmitSkb_seq : (tcpTransmitSkb s skb seq).2.seq = skb.seq := rfl
@[simp] theorem tcpTransmitSkb_endSeq : (tcpTransmitSkb s skb seq).2.endSeq = skb.endSeq := rfl
@[simp] theorem tcpTransmitSkb_payload : (tcpTransmitSkb s skb seq).2.payload = skb.payload := rfl
@[simp] theorem tcpTransmitSkb_dlen : (tcpTransmitSkb s skb seq).2.dlen = skb.dlen := rfl
@[simp] theorem tcpTransmitSkb_fin : (tcpTransmitSkb s skb seq).2.th.fin = skb.th.fin := rfl
@[simp] theorem tcpTransmitSkb_syn : (tcpTransmitSkb s skb seq).2.th.syn = skb.th.syn := rfl
@[simp] theorem tcpTransmitSkb_ack : (tcpTransmitSkb s skb seq).2.th.ack = skb.th.ack := rfl

theorem tcpWriteOptions_core (tsk : TcpSock) (th : TcpHdr) :
    core { s with tsk := (tcpWriteOptions tsk th).1 } = core { s with tsk := tsk } := by
  unfold tcpWriteOptions; split <;> rfl

theorem tcpWriteOptions_th (tsk : TcpSock) (th : TcpHdr) :
    ∃ data, (tcpWriteOptions tsk th).2 = { th with data := data } := by
  unfold tcpWriteOptions
  split
  · exact ⟨th.data, rfl⟩
  · exact ⟨_, rfl⟩

theorem tcpTransmitSkb_same : Same s (tcpTransmitSkb s skb seq).1 := by
  unfold tcpTransmitSkb Same
  dsimp only
  generalize (if skb.th.hl = 0 then { skb.th with hl := 5 } else skb.th) = th
  split
  · exact tcpWriteOptions_core s s.tsk th
  · rfl

/- The one segment that goes out: the flags and payload of the buffer under the given number. -/
theorem tcpTransmitSkb_out : ∃ seg, (tcpTransmitSkb s skb seq).1.out = s.out ++ [seg] ∧
    seg.payload = skb.payload ∧ seg.th.seq = seq ∧ seg.th.ackSeq = s.tsk.tcb.rcvNxt ∧
    seg.th.fin = skb.th.fin ∧ seg.th.syn = skb.th.syn ∧ seg.th.ack = skb.th.ack := by
  unfold tcpTransmitSkb
  dsimp only
  have flags : (if skb.th.hl = 0 then { skb.th with hl := 5 } else skb.th).fin = skb.th.fin ∧
      (if skb.th.hl = 0 then { skb.th with hl := 5 } else skb.th).syn = skb.th.syn ∧
      (if skb.th.hl = 0 then { skb.th with hl := 5 } else skb.th).ack = skb.th.ack := by
    split <;> exact ⟨rfl, rfl, rfl⟩
  generalize (if skb.th.hl = 0 then { skb.th with hl := 5 } else skb.th) = th at flags
  obtain ⟨data, written⟩ := tcpWriteOptions_th s.tsk th
  refine ⟨_, rfl, rfl, rfl, rfl, ?_⟩
  split
  · simpa only [written] using flags
  · exact flags

end Transmit

theorem tcpTransmitSkb_minor (s : Conn) (skb : SkBuff) (seq : UInt32) (empty : skb.payload = [])
    (noFin : skb.th.fin = false) (noSyn : skb.th.syn = false) :
    Minor s (tcpTransmitSkb s skb seq).1 := by
  obtain ⟨seg, ho, hp, hs, ha, hf, hy, hk⟩ := tcpTransmitSkb_out s skb seq
  refine ⟨tcpTransmitSkb_same s skb seq, [seg], ho, ?_⟩
  intro seg' member
  obtain rfl := List.mem_singleton.mp member
  exact ⟨⟨hp.trans empty, hf.trans noFin, hy.trans noSyn⟩, fun _ => ha⟩

theorem tcpSendAck_minor (s : Conn) : Minor s (tcpSendAck s) := by
  unfold tcpSendAck
  split
  · exact .refl s
  · exact ((tcpAllocSkb_minor s _ _).trans
      (tcpTransmitSkb_minor _ _ _ rfl rfl rfl)).trans (freeSkb_minor _ _)

/- Outside CLOSED an ACK does go out, and it is the last segment sent. -/
theorem tcpSendAck_out (s : Conn) (opened : s.tsk.state ≠ .close) :
    ∃ seg, (tcpSendAck s).out = s.out ++ [seg] ∧ seg.th.ack = true ∧
      seg.th.ackSeq = s.tsk.tcb.rcvNxt := by
  unfold tcpSendAck
  rw [if_neg opened]
  obtain ⟨seg, ho, _, _, ha, _, _, hk⟩ := tcpTransmitSkb_out
    (tcpAllocSkb s (tcpOptionsLen s.tsk) []).1
    { (tcpAllocSkb s (tcpOptionsLen s.tsk) []).2 with
      th := { (tcpAllocSkb s (tcpOptionsLen s.tsk) []).2.th with
        ack := true, hl := Fin.ofNat 16 (TCP_DOFFSET + tcpOptionsLen s.tsk / 4) } }
    s.tsk.tcb.sndNxt
  exact ⟨seg, (freeSkb_out _ _).trans ho, hk, ha⟩

/- A reset also takes all that has been sent for acknowledged. -/
theorem tcpSendReset_minor (s : Conn) :
    Minor { s with tsk.tcb.sndUna := s.tsk.tcb.sndNxt } (tcpSendReset s) := by
  unfold tcpSendReset
  dsimp only
  refine Minor.trans ?_ (freeSkb_minor _ _)
  refine Minor.trans ?_ (tcpTransmitSkb_minor _ _ _ rfl rfl rfl)
  exact .of_out rfl rfl

theorem tcpSendSynack_minor (s : Conn) (moved : s.tsk.state ≠ .synSent) :
    tcpSendSynack s = s := by
  unfold tcpSendSynack; rw [if_pos moved]

theorem sackLoop_core (s : Conn) (queue : List SkBuff) (tsk : TcpSock) (sb : Nat) :
    core { s with tsk := sackLoop tsk sb queue } = core { s with tsk := tsk } := by
  induction queue generalizing tsk sb with
  | nil => rfl
  | cons next rest ih =>
    rw [sackLoop]
    split_ifs <;> first
      | rfl
      | (rw [ih]; rfl)

theorem tcpCalculateSacks_minor (s : Conn) :
    Minor s { s with tsk := tcpCalculateSacks s.tsk } :=
  .of_out (sackLoop_core s _ _ _) rfl

theorem tcpParseOpts_minor (s : Conn) (th : TcpHdr) :
    Minor { s with tsk.smss := (tcpParseOpts s.tsk th).smss }
      { s with tsk := tcpParseOpts s.tsk th } := by
  refine .of_out ?_ rfl
  unfold tcpParseOpts Same
  dsimp only
  split <;> rfl

theorem socketFree_eq (s : Conn) : ∃ freed, socketFree s =
    socketRelease (wakeSleep { socketWrAcquire s with
      sock.registered := false, sock.skFreed := true
      tsk.receiveQueue := [], tsk.writeQueue := [], freed := freed }) := by
  choose list queued using skbQueueFree_eq
  unfold socketFree
  simp only [queued]
  exact ⟨_, rfl⟩

/-! ### The retransmission queue -/

/- What the loop of `tcp_clean_rto_queue` takes for acknowledged. -/
def acked (una : UInt32) (skb : SkBuff) : Bool := skb.seq > 0 && skb.endSeq ≤ una

theorem cleanLoop_queue (una : UInt32) (s : Conn) (queue : List SkBuff) :
    (cleanLoop una s queue).2 = queue.dropWhile (acked una) := by
  induction queue generalizing s with
  | nil => rfl
  | cons skb rest ih =>
    rw [cleanLoop]
    by_cases old : skb.seq > 0 ∧ skb.endSeq ≤ una
    · rw [if_pos old, List.dropWhile_cons_of_pos (by simpa [acked] using old)]
      exact ih _
    · rw [if_neg old, List.dropWhile_cons_of_neg (by simpa [acked] using old)]

theorem cleanLoop_conn (una : UInt32) (s : Conn) (queue : List SkBuff) :
    ∃ freed, (cleanLoop una s queue).1 = { s with
      tsk.inflight := s.tsk.inflight - (queue.takeWhile (acked una)).length, freed := freed } := by
  induction queue generalizing s with
  | nil => exact ⟨s.freed, rfl⟩
  | cons skb rest ih =>
    rw [cleanLoop]
    by_cases old : skb.seq > 0 ∧ skb.endSeq ≤ una
    · rw [if_pos old, List.takeWhile_cons_of_pos (by simpa [acked] using old)]
      obtain ⟨one, hone⟩ := freeSkb_eq s { skb with refcnt := skb.refcnt - 1 }
      obtain ⟨freed, hrest⟩ := ih { s with tsk.inflight := s.tsk.inflight - 1, freed := one }
      refine ⟨freed, ?_⟩
      dsimp only
      rw [hone]
      rw [hrest]
      simp only [List.length_cons, Nat.sub_sub, Nat.add_comm]
    · rw [if_neg old, List.takeWhile_cons_of_neg (by simpa [acked] using old)]
      exact ⟨s.freed, rfl⟩

/-! ### What sending and cleaning can touch -/

theorem tcpRearmRtoTimer_touches (s : Conn) : ∃ ts retransmit,
    tcpRearmRtoTimer s = { s with ts := ts, tsk.retransmit := retransmit } := by
  unfold tcpRearmRtoTimer
  dsimp only
  split
  · exact ⟨_, _, rfl⟩
  · exact ⟨_, _, rfl⟩

theorem sendNextLoop_touches (s : Conn) (amount : Nat) (queue : List SkBuff) : ∃ nxt sent,
    Same { s with tsk.tcb.sndNxt := nxt, sent := sent } (sendNextLoop s amount queue).1 := by
  induction amount generalizing s queue with
  | zero => exact ⟨_, _, rfl⟩
  | succ amount ih =>
    cases queue with
    | nil => exact ⟨_, _, rfl⟩
    | cons next rest =>
      have one := tcpTransmitSkb_same s next s.tsk.tcb.sndNxt
      set tx := tcpTransmitSkb s next s.tsk.tcb.sndNxt
      set nm := numberSkb tx.1 tx.2
      obtain ⟨nxt, sent, tail⟩ := ih nm.1 rest
      refine ⟨nxt, sent, Same.trans ?_ tail⟩
      exact congrArg (fun c : Conn => { c with tsk.tcb.sndNxt := nxt, sent := sent }) one

theorem tcpSendNext_touches (s : Conn) (amount : Nat) : ∃ nxt sent queue,
    Same { s with tsk.tcb.sndNxt := nxt, sent := sent, tsk.writeQueue := queue }
      (tcpSendNext s amount) := by
  obtain ⟨nxt, sent, same⟩ := sendNextLoop_touches s amount s.tsk.writeQueue
  refine ⟨nxt, sent, (sendNextLoop s amount s.tsk.writeQueue).2, ?_⟩
  exact congrArg
    (fun c : Conn => { c with tsk.writeQueue := (sendNextLoop s amount s.tsk.writeQueue).2 }) same

theorem tcpQueueTransmitSkb_touches (s : Conn) (skb : SkBuff) :
    ∃ ts retransmit inflight nxt sent queue, Same { s with
      ts := ts, tsk.retransmit := retransmit, tsk.inflight := inflight, tsk.tcb.sndNxt := nxt
      sent := sent, tsk.writeQueue := queue } (tcpQueueTransmitSkb s skb) := by
  have armed : ∃ ts retransmit,
      (if skbQueueEmpty s.tsk.writeQueue then tcpRearmRtoTimer s else s) =
        { s with ts := ts, tsk.retransmit := retransmit } := by
    split
    · exact tcpRearmRtoTimer_touches s
    · exact ⟨_, _, rfl⟩
  obtain ⟨ts, retransmit, eq⟩ := armed
  unfold tcpQueueTransmitSkb
  dsimp only
  rw [eq]
  split
  · set r : Conn := { s with ts := ts, tsk.retransmit := retransmit }
    have same := tcpTransmitSkb_same r skb s.tsk.tcb.sndNxt
    set tx := tcpTransmitSkb r skb s.tsk.tcb.sndNxt
    set nm := numberSkb { tx.1 with tsk.inflight := tx.1.tsk.inflight + 1 } tx.2
    refine ⟨ts, retransmit, nm.1.tsk.inflight, nm.1.tsk.tcb.sndNxt, nm.1.sent,
      nm.1.tsk.writeQueue ++ [nm.2], ?_⟩
    exact congrArg (fun c : Conn => { c with
      tsk.inflight := nm.1.tsk.inflight, tsk.tcb.sndNxt := nm.1.tsk.tcb.sndNxt, sent := nm.1.sent
      tsk.writeQueue := nm.1.tsk.writeQueue ++ [nm.2] }) same
  · exact ⟨ts, retransmit, _, _, _, s.tsk.writeQueue ++ [skb], rfl⟩

theorem tcpCleanRtoQueue_touches (s : Conn) (una : UInt32) :
    ∃ inflight freed ts retransmit backoff, tcpCleanRtoQueue s una = { s with
      tsk.inflight := inflight, freed := freed, ts := ts, tsk.retransmit := retransmit
      tsk.backoff := backoff, tsk.writeQueue := s.tsk.writeQueue.dropWhile (acked una) } := by
  obtain ⟨freed, cleaned⟩ := cleanLoop_conn una s s.tsk.writeQueue
  unfold tcpCleanRtoQueue
  dsimp only
  rw [cleaned, cleanLoop_queue]
  split
  · exact ⟨_, _, _, _, _, rfl⟩
  · exact ⟨_, _, _, _, _, rfl⟩

theorem retransmitHead_touches (s : Conn) (skb : SkBuff) : ∃ queue,
    Same { s with tsk.writeQueue := queue } (retransmitHead s skb) := by
  have same := tcpTransmitSkb_same s skb s.tsk.tcb.sndUna
  refine ⟨(retransmitHead s skb).tsk.writeQueue, ?_⟩
  exact congrArg
    (fun c : Conn => { c with tsk.writeQueue := (retransmitHead s skb).tsk.writeQueue }) same

/-! ### Reads -/

theorem dequeueLoop_touches (s : Conn) (room : Nat) (queue : List SkBuff) : ∃ freed flags,
    (dequeueLoop s room queue).1 = { s with freed := freed, tsk.flags := flags } := by
  induction queue generalizing s room with
  | nil => exact ⟨s.freed, s.tsk.flags, rfl⟩
  | cons skb rest ih =>
    rw [dequeueLoop]
    split
    · exact ⟨s.freed, s.tsk.flags, rfl⟩
    · dsimp only
      split
      · choose list one using freeSkb_eq
        obtain ⟨freed, flags, eq⟩ := ih (s := freeSkb (if skb.th.psh then
          { s with tsk.flags := s.tsk.flags ||| TCP_PSH } else s) { skb with
            payload := skb.payload.drop room, refcnt := skb.refcnt - 1 })
          (room - (skb.payload.take room).length)
        refine ⟨freed, flags, eq.trans ?_⟩
        rw [one]
        split <;> rfl
      · exact ⟨s.freed, s.tsk.flags, rfl⟩

end HfIp
