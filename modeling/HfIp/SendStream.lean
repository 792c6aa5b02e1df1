import HfIp.SendQueue
import HfIp.Lib.Run

/- The send stream on the wire: in a run that never numbers a buffer out of queue order and never
   retransmits a partly acknowledged head, every segment carries the text of its number. -/
namespace HfIp

def Segment.InText (text : List UInt8) (base : Nat) (seg : Segment) : Prop :=
  TextAt text base seg.th.seq.toNat seg.payload

/- The send side in order up to place `stop`. -/
structure InOrder (s : Conn) (stop : Nat) : Prop where
  queue : InStream s.accepted (s.tsk.tcb.iss.toNat + 1) s.tsk.writeQueue s.tsk.inflight
    s.tsk.tcb.sndNxt stop
  room : stop < 2 ^ 32
  out : ∀ seg ∈ s.out, seg.InText s.accepted (s.tsk.tcb.iss.toNat + 1)
  smss : 0 < s.tsk.smss

theorem InOrder.frame {s t : Conn} {stop : Nat} (h : SendFrame s t) (inv : InOrder s stop) :
    InOrder t stop := by
  constructor
  · rw [h.accepted, h.iss, h.writeQueue, h.inflight, h.sndNxt]
    exact inv.queue
  · exact inv.room
  · obtain ⟨more, ho, empty⟩ := h.out
    intro seg member
    rw [h.accepted, h.iss]
    rw [ho] at member
    rcases List.mem_append.mp member with early | late
    · exact inv.out seg early
    · simp [Segment.InText, empty seg late, textAt_nil]
  · rw [h.smss]; exact inv.smss

/-! ### Numbering -/

theorem dlen_toNat (k : SkBuff) (small : k.payload.length < 2 ^ 32) :
    k.dlen.toNat = k.payload.length := by
  simp only [SkBuff.dlen, UInt32.toNat_ofNat']
  omega

theorem numberSkb_nxt (s : Conn) (k : SkBuff) (noSyn : k.th.syn = false)
    (small : s.tsk.tcb.sndNxt.toNat + k.span < 2 ^ 32) :
    (numberSkb s k).1.tsk.tcb.sndNxt.toNat = s.tsk.tcb.sndNxt.toNat + k.span := by
  simp only [SkBuff.span, noSyn, Bool.toNat_false] at small ⊢
  have dlen : (UInt32.ofNat k.payload.length).toNat = k.payload.length :=
    dlen_toNat k (by omega)
  cases fin : k.th.fin
  · simp only [fin, Bool.toNat_false] at small ⊢
    simp only [numberSkb, SkBuff.dlen, fin, Bool.false_eq_true, ↓reduceIte, UInt32.toNat_add, dlen]
    omega
  · simp only [fin, Bool.toNat_true] at small ⊢
    simp only [numberSkb, SkBuff.dlen, fin, ↓reduceIte, UInt32.toNat_add, dlen, UInt32.toNat_one]
    omega

theorem numberSkb_endSeq (s : Conn) (k : SkBuff)
    (small : s.tsk.tcb.sndNxt.toNat + k.span < 2 ^ 32) :
    (numberSkb s k).2.endSeq.toNat = s.tsk.tcb.sndNxt.toNat + k.payload.length := by
  simp only [SkBuff.span] at small
  have dlen : (UInt32.ofNat k.payload.length).toNat = k.payload.length :=
    dlen_toNat k (by omega)
  simp only [numberSkb, SkBuff.dlen, UInt32.toNat_add, dlen]
  omega

/- The buffer as it stands in the queue after its first transmission. -/
structure SentAs (nxt : UInt32) (k k' : SkBuff) : Prop where
  id : k'.id = k.id
  seq : k'.seq = nxt
  endSeq : k'.endSeq = nxt + k.dlen
  payload : k'.payload = k.payload
  fin : k'.th.fin = k.th.fin
  syn : k'.th.syn = k.th.syn
  ack : k'.th.ack = k.th.ack

/- `after` is `before` as its first transmissions from number `nxt` on leave it; `stop` is the
   number that follows. -/
def SentRun : UInt32 → List SkBuff → List SkBuff → UInt32 → Prop
  | nxt, [], [], stop => nxt = stop
  | nxt, k :: before, k' :: after, stop =>
    SentAs nxt k k' ∧ SentRun (k'.endSeq + if k.th.fin then 1 else 0) before after stop
  | _, _, _, _ => False

theorem SentRun.length {nxt stop : UInt32} {before after : List SkBuff}
    (run : SentRun nxt before after stop) : after.length = before.length := by
  induction before generalizing nxt after with
  | nil =>
    cases after with
    | nil => rfl
    | cons => exact absurd run id
  | cons k rest ih =>
    cases after with
    | nil => exact absurd run id
    | cons k' after => simp [ih run.2]

/- Every buffer of the run is one that waited, after its first transmission. -/
theorem SentRun.each {nxt stop : UInt32} {before after : List SkBuff}
    (run : SentRun nxt before after stop) : ∀ k' ∈ after, ∃ k ∈ before, ∃ n, SentAs n k k' := by
  induction before generalizing nxt after with
  | nil =>
    cases after with
    | nil => simp
    | cons => exact absurd run id
  | cons k rest ih =>
    cases after with
    | nil => exact absurd run id
    | cons k' after =>
      obtain ⟨sent, run⟩ := run
      intro j member
      rcases List.mem_cons.mp member with rfl | later
      · exact ⟨k, by simp, nxt, sent⟩
      · obtain ⟨i, member, found⟩ := ih run j later
        exact ⟨i, by simp [member], found⟩

section Functions

variable {s : Conn} {stop : Nat}

/- Sending the buffers at the head of a queue of which none has been sent. -/
theorem sendNextLoop_inOrder {text : List UInt8} {base : Nat} (amount : Nat)
    (queue : List SkBuff) (hw : Waiting text base s.tsk.tcb.sndNxt.toNat queue stop)
    (room : stop < 2 ^ 32) (enough : amount ≤ queue.length)
    (out : ∀ seg ∈ s.out, seg.InText text base) :
    ∃ numbered waiting, (sendNextLoop s amount queue).2 = numbered ++ waiting ∧
      numbered.length = amount ∧
      Numbered text base s.tsk.tcb.sndNxt.toNat numbered
        (sendNextLoop s amount queue).1.tsk.tcb.sndNxt.toNat ∧
      Waiting text base (sendNextLoop s amount queue).1.tsk.tcb.sndNxt.toNat waiting stop ∧
      (∀ seg ∈ (sendNextLoop s amount queue).1.out, seg.InText text base) := by
  induction amount generalizing s queue with
  | zero => exact ⟨[], queue, by simp [sendNextLoop], rfl, rfl, hw, out⟩
  | succ amount ih =>
    cases queue with
    | nil => simp at enough
    | cons next rest =>
      obtain ⟨unset, noSyn, here, tail⟩ := hw
      have fits : s.tsk.tcb.sndNxt.toNat + next.span < 2 ^ 32 := by
        have := tail.stop_eq; omega
      set tx := tcpTransmitSkb s next s.tsk.tcb.sndNxt with htx
      set nm := numberSkb tx.1 tx.2 with hnm
      have tcb : tx.1.tsk.tcb = s.tsk.tcb := (tcpTransmitSkb_same s next _).tcb
      have span : tx.2.span = next.span := rfl
      have nxt : nm.1.tsk.tcb.sndNxt.toNat = s.tsk.tcb.sndNxt.toNat + next.span := by
        have := numberSkb_nxt tx.1 tx.2 noSyn (by rw [tcb, span]; exact fits)
        rwa [tcb, span] at this
      have outNow : ∀ seg ∈ nm.1.out, seg.InText text base := by
        obtain ⟨seg, ho, hp, hs, _⟩ := tcpTransmitSkb_out s next s.tsk.tcb.sndNxt
        intro seg' member
        have member' : seg' ∈ s.out ++ [seg] := ho ▸ member
        rcases List.mem_append.mp member' with early | late
        · exact out seg' early
        · obtain rfl := List.mem_singleton.mp late
          simpa only [Segment.InText, hs, hp] using here
      obtain ⟨numbered, waiting, hq, hl, hn, hw', ho⟩ :=
        ih rest (by rw [nxt]; exact tail) (by simpa using enough) outNow
      refine ⟨nm.2 :: numbered, waiting, ?_, by simp [hl], ⟨?_, ?_, here, ?_⟩, hw', ho⟩
      · show nm.2 :: (sendNextLoop nm.1 amount rest).2 = _
        rw [hq]; rfl
      · show tx.1.tsk.tcb.sndNxt.toNat = _
        rw [tcb]
      · have := numberSkb_endSeq tx.1 tx.2 (by rw [tcb, span]; exact fits)
        rwa [tcb] at this
      · rw [nxt] at hn
        exact hn

theorem sendNextLoop_sent (amount : Nat) (queue : List SkBuff) : ∃ after,
    SentRun s.tsk.tcb.sndNxt (queue.take amount) after
      (sendNextLoop s amount queue).1.tsk.tcb.sndNxt ∧
    (sendNextLoop s amount queue).2 = after ++ queue.drop amount ∧
    (sendNextLoop s amount queue).1.sent = s.sent ++ after := by
  induction amount generalizing s queue with
  | zero => exact ⟨[], by simp [sendNextLoop, SentRun]⟩
  | succ amount ih =>
    cases queue with
    | nil => exact ⟨[], by simp [sendNextLoop, SentRun]⟩
    | cons next rest =>
      have same := tcpTransmitSkb_same s next s.tsk.tcb.sndNxt
      set tx := tcpTransmitSkb s next s.tsk.tcb.sndNxt
      set nm := numberSkb tx.1 tx.2 with hnm
      have nxt : tx.1.tsk.tcb.sndNxt = s.tsk.tcb.sndNxt := congrArg Tcb.sndNxt same.tcb
      have as_sent : SentAs s.tsk.tcb.sndNxt next nm.2 :=
        ⟨rfl, nxt, by simp only [hnm, numberSkb, nxt]; rfl, rfl, rfl, rfl, rfl⟩
      have moved : nm.1.tsk.tcb.sndNxt = nm.2.endSeq + if next.th.fin then 1 else 0 := by
        have flag : tx.2.th.fin = next.th.fin := rfl
        cases fin : next.th.fin <;> simp [hnm, numberSkb, flag, fin, SkBuff.dlen]
      obtain ⟨after, run, left, sent⟩ := ih (s := nm.1) rest
      refine ⟨nm.2 :: after, ⟨as_sent, ?_⟩, ?_, ?_⟩
      · rw [← moved]
        exact run
      · show nm.2 :: (sendNextLoop nm.1 amount rest).2 = _
        rw [left]
        rfl
      · show (sendNextLoop nm.1 amount rest).1.sent = _
        rw [sent, show nm.1.sent = tx.1.sent ++ [nm.2] from rfl, same.sent]
        simp

theorem sendNextLoop_view (amount : Nat) (queue : List SkBuff) :
    (sendNextLoop s amount queue).1.accepted = s.accepted ∧
    (sendNextLoop s amount queue).1.fins = s.fins ∧
    (sendNextLoop s amount queue).1.tsk.tcb.iss = s.tsk.tcb.iss ∧
    (sendNextLoop s amount queue).1.tsk.state = s.tsk.state ∧
    (sendNextLoop s amount queue).1.tsk.inflight = s.tsk.inflight ∧
    (sendNextLoop s amount queue).1.tsk.smss = s.tsk.smss ∧
    (sendNextLoop s amount queue).1.sock.registered = s.sock.registered ∧
    (sendNextLoop s amount queue).1.sock.skFreed = s.sock.skFreed := by
  induction amount generalizing s queue with
  | zero => simp [sendNextLoop]
  | succ amount ih =>
    cases queue with
    | nil => simp [sendNextLoop]
    | cons next rest =>
      have same := tcpTransmitSkb_same s next s.tsk.tcb.sndNxt
      have tail := ih (s := (numberSkb (tcpTransmitSkb s next s.tsk.tcb.sndNxt).1
        (tcpTransmitSkb s next s.tsk.tcb.sndNxt).2).1) rest
      simpa only [sendNextLoop, numberSkb, same.accepted, same.fins, same.tcb, same.state,
        same.inflight, same.smss, same.registered, same.skFreed] using tail

/- A step that keeps the send side in order and takes on no new text. -/
structure SendKeeps (s t : Conn) : Prop where
  order : ∀ stop, InOrder s stop → InOrder t stop
  sending : t.tsk.state.sending = true → s.tsk.state.sending = true
  close : t.tsk.state = .close → s.tsk.state = .close
  accepted : t.accepted = s.accepted
  fins : t.fins = s.fins
  iss : t.tsk.tcb.iss = s.tsk.tcb.iss
  empty : s.tsk.writeQueue = [] → t.tsk.writeQueue = []
  registered : t.sock.registered = s.sock.registered
  skFreed : t.sock.skFreed = s.sock.skFreed

theorem SendFrame.keeps {t : Conn} (h : SendFrame s t) : SendKeeps s t :=
  ⟨fun _ => .frame h, h.onward.sending, h.onward.close, h.accepted, h.fins, h.iss, fun none => h.writeQueue.trans none,
    h.registered, h.skFreed⟩

theorem SendKeeps.of_out {t : Conn} (view : sendView t = sendView s) (out : t.out = s.out)
    (state : t.tsk.state = s.tsk.state) (ended : t.ended = s.ended) : SendKeeps s t :=
  (SendFrame.of_out view out state ended).keeps

theorem SendKeeps.of_minor {t : Conn} (h : Minor s t) : SendKeeps s t := (SendFrame.of_minor h).keeps

theorem SendKeeps.refl (s : Conn) : SendKeeps s s := (SendFrame.refl s).keeps

theorem SendKeeps.trans {t u : Conn} (first : SendKeeps s t) (second : SendKeeps t u) :
    SendKeeps s u where
  order stop inv := second.order stop (first.order stop inv)
  sending := first.sending ∘ second.sending
  close := first.close ∘ second.close
  accepted := second.accepted.trans first.accepted
  fins := second.fins.trans first.fins
  iss := second.iss.trans first.iss
  empty none := second.empty (first.empty none)
  registered := second.registered.trans first.registered
  skFreed := second.skFreed.trans first.skFreed

theorem SendKeeps.after {t u : Conn} (second : SendKeeps t u) (first : SendKeeps s t) :
    SendKeeps s u := first.trans second

theorem sndUna_keeps (una : UInt32) : SendKeeps s { s with tsk.tcb.sndUna := una } :=
  ⟨fun _ inv => ⟨inv.queue, inv.room, inv.out, inv.smss⟩, id, id, rfl, rfl, rfl, id, rfl, rfl⟩

theorem tcpCleanRtoQueue_keeps (una : UInt32) : SendKeeps s (tcpCleanRtoQueue s una) := by
  obtain ⟨freed, cleaned⟩ := cleanLoop_conn una s s.tsk.writeQueue
  have popped : SendKeeps s { (cleanLoop una s s.tsk.writeQueue).1 with
      tsk.writeQueue := (cleanLoop una s s.tsk.writeQueue).2 } := by
    rw [cleaned, cleanLoop_queue]
    refine ⟨fun stop inv => ⟨?_, inv.room, inv.out, inv.smss⟩, id, id, rfl, rfl, rfl, ?_, rfl, rfl⟩
    · refine inv.queue.drop_sent (acked una) ?_
      intro k unset
      simp [acked, unset]
    · intro none
      simp [none]
  unfold tcpCleanRtoQueue
  dsimp only
  split
  · exact popped.trans (tcpStopRtoTimer_send _).keeps
  · exact popped

theorem tcpSendNext_keeps (amount : Nat) (idle : s.tsk.inflight = 0)
    (enough : amount ≤ s.tsk.writeQueue.length) :
    SendKeeps s { tcpSendNext s amount with
      tsk.inflight := (tcpSendNext s amount).tsk.inflight + amount } := by
  obtain ⟨accepted, fins, iss, state, inflight, smss, registered, skFreed⟩ :=
    sendNextLoop_view (s := s) amount s.tsk.writeQueue
  constructor
  · intro stop inv
    have hw := (idle ▸ inv.queue).none_sent
    obtain ⟨numbered, waiting, hq, hl, hn, hw', ho⟩ :=
      sendNextLoop_inOrder amount s.tsk.writeQueue hw inv.room enough inv.out
    constructor
    · simp only [tcpSendNext, accepted, iss, inflight, idle, Nat.zero_add]
      exact ⟨numbered, waiting, _, hq, hl, hn, hw'⟩
    · exact inv.room
    · simpa only [tcpSendNext, accepted, iss] using ho
    · simpa only [tcpSendNext, smss] using inv.smss
  · simp only [tcpSendNext, state, imp_self]
  · simp only [tcpSendNext, state, imp_self]
  · exact accepted
  · exact fins
  · exact iss
  · intro none
    have : amount = 0 := by simpa [none] using enough
    subst this
    simpa [tcpSendNext, sendNextLoop] using none
  · exact registered
  · exact skFreed

/- Another transmission of the head of the queue, under a number the head has text for. -/
theorem setHead_keeps (k : SkBuff) (seq : UInt32) (head : s.tsk.writeQueue.head? = some k)
    (here : k.payload ≠ [] → seq = headSeq s k) :
    SendKeeps s (setHead (tcpTransmitSkb s k seq).1 (tcpTransmitSkb s k seq).2) := by
  have same := tcpTransmitSkb_same s k seq
  obtain ⟨rest, hq⟩ : ∃ rest, s.tsk.writeQueue = k :: rest := by
    cases queue : s.tsk.writeQueue with
    | nil => simp [queue] at head
    | cons first rest =>
      obtain rfl : first = k := by simpa [queue] using head
      exact ⟨rest, rfl⟩
  constructor
  · intro stop inv
    have text := inv.queue.head_text head
    constructor
    · simp only [setHead, same.accepted, same.tcb, same.inflight, same.writeQueue, hq,
        List.tail_cons]
      have old := inv.queue
      rw [hq] at old
      refine InStream.touch_head ?_ ?_ ?_ ?_ ?_ old <;> rfl
    · exact inv.room
    · intro seg member
      obtain ⟨new, ho, hp, hs, _⟩ := tcpTransmitSkb_out s k seq
      have member' : seg ∈ s.out ++ [new] := ho ▸ member
      show TextAt (tcpTransmitSkb s k seq).1.accepted
        ((tcpTransmitSkb s k seq).1.tsk.tcb.iss.toNat + 1) _ _
      rw [same.accepted, same.tcb]
      rcases List.mem_append.mp member' with early | late
      · exact inv.out seg early
      · obtain rfl := List.mem_singleton.mp late
        rw [hp, hs]
        intro nonempty
        rw [here nonempty]
        exact text nonempty
    · show 0 < (tcpTransmitSkb s k seq).1.tsk.smss
      rw [same.smss]
      exact inv.smss
  · simp only [setHead, same.state, imp_self]
  · simp only [setHead, same.state, imp_self]
  · exact same.accepted
  · exact same.fins
  · exact congrArg Tcb.iss same.tcb
  · intro none
    simp [none] at hq
  · exact same.registered
  · exact same.skFreed

theorem tcpRearmRtoTimer_state : (tcpRearmRtoTimer s).tsk.state = s.tsk.state := by
  unfold tcpRearmRtoTimer; dsimp only; split <;> rfl

theorem tcpRearmRtoTimer_out : (tcpRearmRtoTimer s).out = s.out := by
  unfold tcpRearmRtoTimer; dsimp only; split <;> rfl

theorem tcpQueueTransmitSkb_view (k : SkBuff) :
    (tcpQueueTransmitSkb s k).accepted = s.accepted ∧
    (tcpQueueTransmitSkb s k).fins = s.fins ∧
    (tcpQueueTransmitSkb s k).tsk.tcb.iss = s.tsk.tcb.iss ∧
    (tcpQueueTransmitSkb s k).tsk.state = s.tsk.state ∧
    (tcpQueueTransmitSkb s k).tsk.smss = s.tsk.smss ∧
    (tcpQueueTransmitSkb s k).sock.registered = s.sock.registered ∧
    (tcpQueueTransmitSkb s k).sock.skFreed = s.sock.skFreed ∧
    (tcpQueueTransmitSkb s k).tsk.inflight ≠ 0 := by
  have armed : SendFrame s
      (if skbQueueEmpty s.tsk.writeQueue then tcpRearmRtoTimer s else s) ∧
      (if skbQueueEmpty s.tsk.writeQueue then tcpRearmRtoTimer s else s).tsk.state = s.tsk.state := by
    split
    · exact ⟨tcpRearmRtoTimer_send s, tcpRearmRtoTimer_state⟩
    · exact ⟨.refl s, rfl⟩
  unfold tcpQueueTransmitSkb
  dsimp only
  generalize (if skbQueueEmpty s.tsk.writeQueue then tcpRearmRtoTimer s else s) = t at armed
  obtain ⟨frame, state⟩ := armed
  split
  · have same := tcpTransmitSkb_same t k t.tsk.tcb.sndNxt
    refine ⟨same.accepted.trans frame.accepted, same.fins.trans frame.fins,
      (congrArg Tcb.iss same.tcb).trans frame.iss, same.state.trans state,
      same.smss.trans frame.smss, same.registered.trans frame.registered,
      same.skFreed.trans frame.skFreed, by simp [numberSkb]⟩
  · rename_i busy
    exact ⟨frame.accepted, frame.fins, frame.iss, state, frame.smss, frame.registered,
      frame.skFreed, busy⟩

/- With nothing in flight the buffer goes out at once, whatever waits ahead of it. -/
theorem tcpQueueTransmitSkb_now (k : SkBuff) (idle : s.tsk.inflight = 0) :
    ∃ k' seg, SentAs s.tsk.tcb.sndNxt k k' ∧
      (tcpQueueTransmitSkb s k).tsk.writeQueue = s.tsk.writeQueue ++ [k'] ∧
      (tcpQueueTransmitSkb s k).tsk.inflight = 1 ∧
      (tcpQueueTransmitSkb s k).sent = s.sent ++ [k'] ∧
      (tcpQueueTransmitSkb s k).out = s.out ++ [seg] ∧
      (tcpQueueTransmitSkb s k).tsk.tcb.sndNxt = k'.endSeq + (if k.th.fin then 1 else 0) ∧
      seg.th.seq = s.tsk.tcb.sndNxt ∧ seg.payload = k.payload := by
  have armed : SendFrame s (if skbQueueEmpty s.tsk.writeQueue then tcpRearmRtoTimer s else s) ∧
      (if skbQueueEmpty s.tsk.writeQueue then tcpRearmRtoTimer s else s).out = s.out := by
    split
    · exact ⟨tcpRearmRtoTimer_send s, tcpRearmRtoTimer_out⟩
    · exact ⟨.refl s, rfl⟩
  unfold tcpQueueTransmitSkb
  dsimp only
  generalize (if skbQueueEmpty s.tsk.writeQueue then tcpRearmRtoTimer s else s) = t at armed
  obtain ⟨frame, out⟩ := armed
  rw [if_pos (frame.inflight.trans idle)]
  have same := tcpTransmitSkb_same t k t.tsk.tcb.sndNxt
  obtain ⟨seg, ho, hp, hs, _⟩ := tcpTransmitSkb_out t k t.tsk.tcb.sndNxt
  rw [← frame.sndNxt, ← frame.writeQueue, ← frame.sent, ← out]
  refine ⟨{ (tcpTransmitSkb t k t.tsk.tcb.sndNxt).2 with
    seq := t.tsk.tcb.sndNxt, endSeq := t.tsk.tcb.sndNxt + k.dlen }, seg,
    ⟨rfl, rfl, rfl, rfl, rfl, rfl, rfl⟩, ?_, ?_, ?_, ho, ?_, hs, hp⟩
  · simp [numberSkb, skbQueueTail, same.writeQueue, same.tcb, SkBuff.dlen]
  · simp [numberSkb, same.inflight, frame.inflight, idle]
  · simp [numberSkb, same.sent, same.tcb, SkBuff.dlen]
  · cases fin : k.th.fin <;> simp [numberSkb, same.tcb, fin, SkBuff.dlen]

theorem SentAs.span {nxt : UInt32} {k k' : SkBuff} (h : SentAs nxt k k') : k'.span = k.span := by
  simp only [SkBuff.span, h.payload, h.fin, h.syn]

theorem SentAs.ends {nxt : UInt32} {k k' : SkBuff} (h : SentAs nxt k k')
    (small : nxt.toNat + k.payload.length < 2 ^ 32) :
    k'.endSeq.toNat = nxt.toNat + k.payload.length := by
  rw [h.endSeq, UInt32.toNat_add, dlen_toNat k (by omega)]
  omega

/- With something in flight it waits. -/
theorem tcpQueueTransmitSkb_later (k : SkBuff) (busy : s.tsk.inflight ≠ 0) :
    ∃ u, SendFrame s u ∧ tcpQueueTransmitSkb s k =
      { u with tsk.writeQueue := u.tsk.writeQueue ++ [k] } := by
  have armed : SendFrame s
      (if skbQueueEmpty s.tsk.writeQueue then tcpRearmRtoTimer s else s) := by
    split
    · exact tcpRearmRtoTimer_send s
    · exact .refl s
  refine ⟨_, armed, ?_⟩
  unfold tcpQueueTransmitSkb
  dsimp only
  rw [if_neg (by rw [armed.inflight]; exact busy)]
  rfl

/- A new buffer at the end of the stream, when none is waiting ahead of it unsent. -/
theorem tcpQueueTransmitSkb_inOrder (k : SkBuff) (inv : InOrder s stop) (unset : k.seq = 0)
    (noSyn : k.th.syn = false)
    (here : TextAt s.accepted (s.tsk.tcb.iss.toNat + 1) stop k.payload)
    (room : stop + k.span < 2 ^ 32)
    (inTurn : s.tsk.inflight = 0 → s.tsk.writeQueue = []) :
    InOrder (tcpQueueTransmitSkb s k) (stop + k.span) := by
  obtain ⟨accepted, -, iss, -, smss, -⟩ := tcpQueueTransmitSkb_view (s := s) k
  by_cases idle : s.tsk.inflight = 0
  · have none := inTurn idle
    have stop_eq : s.tsk.tcb.sndNxt.toNat = stop := (none ▸ inv.queue).nothing.2.symm
    obtain ⟨k', seg, sent, hq, hl, -, ho, nxt, hs, hp⟩ := tcpQueueTransmitSkb_now k idle
    have short : stop + k.payload.length ≤ stop + k.span := by simp only [SkBuff.span]; omega
    have ends := sent.ends (by omega)
    have next : (tcpQueueTransmitSkb s k).tsk.tcb.sndNxt.toNat = stop + k.span := by
      simp only [SkBuff.span, noSyn, Bool.toNat_false] at room ⊢
      rw [nxt, UInt32.toNat_add, ends, stop_eq]
      cases fin : k.th.fin <;> simp only [fin, Bool.toNat_false, Bool.toNat_true, if_true,
        Bool.false_eq_true, if_false, UInt32.toNat_zero, UInt32.toNat_one] at room ⊢ <;> omega
    constructor
    · rw [accepted, iss, hq, hl, none]
      refine ⟨[k'], [], stop, rfl, rfl, ⟨?_, ?_, ?_, ?_⟩, next⟩
      · rw [sent.seq, stop_eq]
      · rw [ends, stop_eq, sent.payload]
      · rw [sent.payload]; exact here
      · rw [sent.span]; exact next.symm
    · exact room
    · intro seg' member
      rw [accepted, iss]
      rw [ho] at member
      rcases List.mem_append.mp member with early | late
      · exact inv.out seg' early
      · obtain rfl := List.mem_singleton.mp late
        simpa only [Segment.InText, hs, hp, stop_eq] using here
    · rw [smss]; exact inv.smss
  · obtain ⟨u, frame, eq⟩ := tcpQueueTransmitSkb_later k idle
    have invU := inv.frame frame
    rw [← frame.accepted, ← frame.iss] at here
    rw [eq]
    exact ⟨invU.queue.push k unset noSyn here, room, invU.out, invU.smss⟩

/- The state after `tcp_connect`, with the SYN it has sent as `k` and in `seg`. -/
structure SynSent (s t : Conn) (iss : UInt32) (k : SkBuff) (seg : Segment) : Prop where
  seq : k.seq = iss
  endSeq : k.endSeq = iss
  payload : k.payload = []
  fin : k.th.fin = false
  syn : k.th.syn = true
  bare : seg.payload = []
  queue : t.tsk.writeQueue = [k]
  inflight : t.tsk.inflight = 1
  sent : t.sent = s.sent ++ [k]
  out : t.out = s.out ++ [seg]
  sndNxt : t.tsk.tcb.sndNxt = iss + 1
  iss : t.tsk.tcb.iss = iss
  state : t.tsk.state = .synSent
  accepted : t.accepted = s.accepted
  fins : t.fins = s.fins
  smss : t.tsk.smss = s.tsk.smss
  registered : t.sock.registered = s.sock.registered
  skFreed : t.sock.skFreed = s.sock.skFreed

theorem tcpConnect_sent (iss : UInt32) (closed : s.tsk.state = .close)
    (none : s.tsk.writeQueue = []) (idle : s.tsk.inflight = 0) :
    ∃ k seg, SynSent s (tcpConnect s iss) iss k seg := by
  set r : Conn := { s with
    tsk.tcb.iss := iss, tsk.tcb.sndUna := iss, tsk.tcb.sndNxt := iss, tsk.tcb.rcvNxt := 0
    tsk.tcb.rcvWnd := tcpSelectInitialWindow } with hr
  set al := tcpAllocSkb r (tcpSynOptions r.tsk) [] with hal
  set k : SkBuff := { al.2 with
    th := { tcpWriteSynOptions r.tsk al.2.th (tcpSynOptions r.tsk) with syn := true } } with hk
  set q := setState al.1 .synSent with hq
  have queued : tcpSendSyn r = tcpQueueTransmitSkb q k := by
    unfold tcpSendSyn
    rw [if_neg (by simp [hr, closed])]
  have unfolded : tcpConnect s iss = { tcpQueueTransmitSkb q k with
      tsk.tcb.sndNxt := (tcpQueueTransmitSkb q k).tsk.tcb.sndNxt + 1 } := by
    unfold tcpConnect
    dsimp only
    rw [queued]
  obtain ⟨accepted, fins, hiss, state, smss, registered, skFreed, -⟩ :=
    tcpQueueTransmitSkb_view (s := q) k
  obtain ⟨k', seg, sent, queue, inflight, history, out, nxt, -, bare⟩ :=
    tcpQueueTransmitSkb_now (s := q) k idle
  have ends : k'.endSeq = iss := by
    rw [sent.endSeq]
    show iss + 0 = iss
    simp
  have next : (tcpQueueTransmitSkb q k).tsk.tcb.sndNxt = iss := by
    rw [nxt, show k.th.fin = false from rfl, ends]
    simp
  rw [unfolded]
  refine ⟨k', seg, sent.seq, ends, sent.payload, sent.fin, sent.syn, bare, ?_, inflight, history,
    out, ?_, hiss, state, accepted, fins, smss, registered, skFreed⟩
  · show (tcpQueueTransmitSkb q k).tsk.writeQueue = _
    rw [queue, show q.tsk.writeQueue = [] from none]
    rfl
  · show (tcpQueueTransmitSkb q k).tsk.tcb.sndNxt + 1 = _
    rw [next]

end Functions

end HfIp
