import HfIp.SegmentRule
import HfIp.FinAcked
import HfIp.Lib.Tiling

/- The numbers of what has been sent: first transmissions take them up one after the other from `iss`
   on, and the numbers the sock keeps stay in order, as long as none reaches 2^32. -/
namespace HfIp

open Tiling

def SkBuff.range (k : SkBuff) : Range := ⟨k.seq.toNat, k.span⟩

def Segment.range (seg : Segment) : Range :=
  ⟨seg.th.seq.toNat, seg.payload.length + seg.th.fin.toNat + seg.th.syn.toNat⟩

/-- The number after all that has been sent, before it is cut to 32 bits. -/
def seqSent (s : Conn) : Nat := s.tsk.tcb.iss.toNat + spans s.sent

variable {s t : Conn}

/-! ### The segments that bear the numbers -/

/- More may have been sent, and whatever has been numbered went out under its numbers. -/
structure Logs (s t : Conn) : Prop where
  sent : s.sent <+: t.sent
  out : s.out <+: t.out
  carried : ∀ k ∈ t.sent, k ∈ s.sent ∨ ∃ seg ∈ t.out, seg.range = k.range

namespace Logs

theorem of_sent (sent : t.sent = s.sent) (out : s.out <+: t.out) : Logs s t :=
  ⟨sent ▸ List.prefix_refl _, out, fun k member => .inl (sent ▸ member)⟩

theorem refl (s : Conn) : Logs s s := of_sent rfl (List.prefix_refl _)

theorem trans {u : Conn} (first : Logs s t) (second : Logs t u) : Logs s u := by
  refine ⟨first.sent.trans second.sent, first.out.trans second.out, fun k member => ?_⟩
  rcases second.carried k member with earlier | now
  · rcases first.carried k earlier with before | ⟨seg, out, bears⟩
    · exact .inl before
    · exact .inr ⟨seg, second.out.subset out, bears⟩
  · exact .inr now

theorem of_frame (h : SendFrame s t) : Logs s t := by
  obtain ⟨more, out, -⟩ := h.out
  exact of_sent h.sent (out ▸ List.prefix_append _ _)

/- One buffer sent for the first time. -/
theorem of_first {k : SkBuff} {seg : Segment} (sent : t.sent = s.sent ++ [k])
    (out : t.out = s.out ++ [seg]) (bears : seg.range = k.range) : Logs s t := by
  refine ⟨sent ▸ List.prefix_append _ _, out ▸ List.prefix_append _ _, fun j member => ?_⟩
  rw [sent] at member
  rcases List.mem_append.mp member with old | new
  · exact .inl old
  · obtain rfl := List.mem_singleton.mp new
    exact .inr ⟨seg, by rw [out]; simp, bears⟩

end Logs

theorem numberSkb_logs (s : Conn) (k : SkBuff) :
    Logs s (numberSkb (tcpTransmitSkb s k s.tsk.tcb.sndNxt).1
      (tcpTransmitSkb s k s.tsk.tcb.sndNxt).2).1 := by
  have same := tcpTransmitSkb_same s k s.tsk.tcb.sndNxt
  obtain ⟨seg, out, payload, seq, -, fin, syn, -⟩ := tcpTransmitSkb_out s k s.tsk.tcb.sndNxt
  refine Logs.of_first (congrArg (· ++ _) same.sent) out ?_
  simp only [Segment.range, SkBuff.range, SkBuff.span, payload, seq, fin, syn, same.sndNxt,
    tcpTransmitSkb_payload, tcpTransmitSkb_fin, tcpTransmitSkb_syn]

theorem tcpQueueTransmitSkb_logs (s : Conn) (k : SkBuff) : Logs s (tcpQueueTransmitSkb s k) := by
  have armed : Logs s (if skbQueueEmpty s.tsk.writeQueue then tcpRearmRtoTimer s else s) := by
    split
    · exact .of_frame (tcpRearmRtoTimer_send s)
    · exact .refl s
  unfold tcpQueueTransmitSkb
  dsimp only
  generalize (if skbQueueEmpty s.tsk.writeQueue then tcpRearmRtoTimer s else s) = t at armed
  split
  · refine (armed.trans (numberSkb_logs t k)).trans ?_
    exact .of_sent rfl (List.prefix_refl _)
  · exact armed.trans (.of_sent rfl (List.prefix_refl _))

theorem sendNextLoop_logs (amount : Nat) (s : Conn) (queue : List SkBuff) :
    Logs s (sendNextLoop s amount queue).1 := by
  induction amount generalizing s queue with
  | zero => exact .refl s
  | succ amount ih =>
    cases queue with
    | nil => exact .refl s
    | cons next rest => exact (numberSkb_logs s next).trans (ih _ rest)

theorem sendFront_logs (s : Conn) (n : Nat) : Logs s (sendFront s n) :=
  (sendNextLoop_logs n s s.tsk.writeQueue).trans (.of_sent rfl (List.prefix_refl _))

theorem retransmitHead_logs (s : Conn) (k : SkBuff) : Logs s (retransmitHead s k) := by
  obtain ⟨seg, out, -⟩ := tcpTransmitSkb_out s k s.tsk.tcb.sndUna
  refine .of_sent (tcpTransmitSkb_same s k s.tsk.tcb.sndUna).sent ?_
  rw [show (retransmitHead s k).out = s.out ++ [seg] from out]
  exact List.prefix_append _ _

theorem tcpSendReset_logs (s : Conn) : Logs s (tcpSendReset s) := by
  unfold tcpSendReset
  dsimp only
  refine Logs.trans ?_ (.of_frame (.of_minor (freeSkb_minor _ _)))
  refine Logs.trans ?_ (.of_frame (.of_minor (tcpTransmitSkb_minor _ _ _ rfl rfl rfl)))
  exact .of_sent rfl (List.prefix_refl _)

theorem tcpCleanRtoQueue_logs (s : Conn) (una : UInt32) : Logs s (tcpCleanRtoQueue s una) := by
  obtain ⟨_, _, _, _, _, eq⟩ := tcpCleanRtoQueue_touches s una
  rw [eq]
  exact .of_sent rfl (List.prefix_refl _)

theorem tcpSendLoop_logs (mss fuel : Nat) (s : Conn) (buf : List UInt8) :
    Logs s (tcpSendLoop mss fuel s buf) := by
  induction fuel generalizing s buf with
  | zero => exact .refl s
  | succ fuel ih =>
    rw [tcpSendLoop]
    split
    · exact .refl s
    · refine Logs.trans ?_ (ih _ _)
      refine Logs.trans ?_ (tcpQueueTransmitSkb_logs _ _)
      exact .of_frame (.of_minor (tcpAllocSkb_minor s 0 _))

theorem tcpQueueFin_logs (s : Conn) : Logs s (tcpQueueFin s) := by
  unfold tcpQueueFin
  refine Logs.trans ?_ (tcpQueueTransmitSkb_logs _ _)
  exact .of_sent rfl (List.prefix_refl _)

theorem tcpV4Connect_logs (s : Conn) (addr : SockAddr) (port : UInt16) (iss : UInt32)
    (closed : s.tsk.state = .close) : Logs s (tcpV4Connect s addr port iss) := by
  unfold tcpV4Connect tcpConnect tcpSendSyn
  simp only [closed]
  rw [if_neg (by simp)]
  refine Logs.trans (Logs.trans ?_ (tcpQueueTransmitSkb_logs _ _))
    (.of_sent rfl (List.prefix_refl _))
  exact .of_sent rfl (List.prefix_refl _)

/-! ### The numbers the sock keeps -/

theorem SentRun.spans_eq {nxt stop : UInt32} {before after : List SkBuff}
    (run : SentRun nxt before after stop) : spans after = spans before := by
  induction before generalizing nxt after with
  | nil =>
    cases after with
    | nil => rfl
    | cons => exact absurd run id
  | cons k rest ih =>
    cases after with
    | nil => exact absurd run id
    | cons k' after =>
      obtain ⟨sent, run⟩ := run
      have later := ih run
      have first := sent.span
      simp only [spans, List.map_cons, List.sum_cons] at later ⊢
      omega

structure QueueNumbers (s : Conn) : Prop where
  counted : s.tsk.inflight = s.tsk.writeQueue.countP SkBuff.numbered
  few : s.tsk.inflight ≤ 3
  plain : ∀ k ∈ s.tsk.writeQueue, k.th.fin = true → k.payload = []
  syn : ∀ k ∈ s.tsk.writeQueue, k.th.syn = true → k.seq = s.tsk.tcb.iss
  positive : s.tsk.state.sending = true ∨ s.tsk.writeQueue ≠ [] → 0 < s.tsk.tcb.sndNxt.toNat
  closed : s.tsk.state = .close → s.tsk.writeQueue = [] ∧ s.sent = [] ∧ s.tsk.tcb.sndNxt = 0

/-- All that has been sent tiles the numbers from `iss` up to `snd_nxt`, between which `snd_una`
    lies; and the sock, as long as it is there, knows which of its buffers those are. -/
structure SendNumbers (s : Conn) : Prop where
  gone : s.sock.skFreed = true → s.sock.registered = false
  low : s.tsk.tcb.iss ≤ s.tsk.tcb.sndUna
  high : s.tsk.tcb.sndUna ≤ s.tsk.tcb.sndNxt
  next : s.tsk.tcb.sndNxt.toNat = seqSent s
  tiles : Tiles s.tsk.tcb.iss.toNat (s.sent.map SkBuff.range) (seqSent s)
  queue : s.sock.skFreed = false → QueueNumbers s

theorem SendFrame.seqSent (h : SendFrame s t) : seqSent t = seqSent s := by
  rw [HfIp.seqSent, HfIp.seqSent, h.iss, h.sent]

theorem QueueNumbers.frame (inv : QueueNumbers s) (h : SendFrame s t) : QueueNumbers t := by
  constructor
  · rw [h.inflight, h.writeQueue]
    exact inv.counted
  · rw [h.inflight]
    exact inv.few
  · rw [h.writeQueue]
    exact inv.plain
  · rw [h.writeQueue, h.iss]
    exact inv.syn
  · rw [h.writeQueue, h.sndNxt]
    exact fun live => inv.positive (live.imp h.onward.sending id)
  · rw [h.writeQueue, h.sent, h.sndNxt]
    exact inv.closed ∘ h.onward.close

theorem SendNumbers.frame (inv : SendNumbers s) (h : SendFrame s t) : SendNumbers t := by
  constructor
  · rw [h.skFreed, h.registered]
    exact inv.gone
  · rw [h.iss, h.sndUna]
    exact inv.low
  · rw [h.sndUna, h.sndNxt]
    exact inv.high
  · rw [h.sndNxt, h.seqSent]
    exact inv.next
  · rw [h.iss, h.sent, h.seqSent]
    exact inv.tiles
  · rw [h.skFreed]
    exact fun live => (inv.queue live).frame h

theorem SendNumbers.live (inv : SendNumbers s) (registered : s.sock.registered = true) :
    s.sock.skFreed = false := by
  cases freed : s.sock.skFreed with
  | false => rfl
  | true => simp [inv.gone freed] at registered

theorem SendNumbers.una (inv : SendNumbers s) (una : UInt32) (low : s.tsk.tcb.iss ≤ una)
    (high : una ≤ s.tsk.tcb.sndNxt) : SendNumbers { s with tsk.tcb.sndUna := una } :=
  { inv with low := low, high := high, queue := fun live => { inv.queue live with } }

/- What a run of first transmissions has sent. -/
theorem SentRun.tiles {nxt stop : UInt32} {before after : List SkBuff}
    (run : SentRun nxt before after stop) (unsent : ∀ k ∈ before, k.numbered = false)
    (plain : ∀ k ∈ before, k.th.fin = true → k.payload = []) (positive : before ≠ [] → 0 < nxt.toNat)
    (room : nxt.toNat + spans before < 2 ^ 32) :
    Tiles nxt.toNat (after.map SkBuff.range) stop.toNat ∧ ∀ k ∈ after, k.th.syn = false := by
  induction before generalizing nxt after with
  | nil =>
    cases after with
    | nil =>
      obtain rfl : nxt = stop := run
      exact ⟨rfl, by simp⟩
    | cons => exact absurd run id
  | cons k rest ih =>
    cases after with
    | nil => exact absurd run id
    | cons k' after =>
      obtain ⟨sent, run⟩ := run
      have width : spans (k :: rest) = k.span + spans rest := by simp [spans]
      have one : spans [k] = k.span := by simp [spans]
      have first : SentRun nxt [k] [k'] (k'.endSeq + if k.th.fin then 1 else 0) := ⟨sent, rfl⟩
      have next := (first.numbers (by simpa using unsent k (by simp))
        (by simpa using plain k (by simp)) (fun _ => positive (by simp)) (by omega)).next
      rw [one] at next
      have fresh := unsent k (by simp)
      simp only [SkBuff.numbered, Bool.or_eq_false_iff] at fresh
      have positive := positive (by simp)
      obtain ⟨tiles, noSyn⟩ := ih run (fun j member => unsent j (by simp [member]))
        (fun j member => plain j (by simp [member])) (fun _ => by omega) (by omega)
      have start : k'.range.start = nxt.toNat := congrArg UInt32.toNat sent.seq
      have len : k'.range.len = k.span := sent.span
      refine ⟨⟨start, ?_⟩, ?_⟩
      · rw [len, ← next]
        exact tiles
      · intro j member
        rcases List.mem_cons.mp member with rfl | later
        · exact sent.syn.trans fresh.2
        · exact noSyn j later

theorem SkBuff.unsent {k : SkBuff} (unsent : k.numbered = false) : k.seq = 0 ∧ k.th.syn = false := by
  simpa [SkBuff.numbered] using unsent

/- A buffer that waits behind the others. -/
theorem SendNumbers.push {k : SkBuff} (inv : SendNumbers s) (opened : s.tsk.state ≠ .close)
    (unsent : k.numbered = false) (plain : k.th.fin = true → k.payload = [])
    (positive : 0 < s.tsk.tcb.sndNxt.toNat) :
    SendNumbers { s with tsk.writeQueue := s.tsk.writeQueue ++ [k] } := by
  refine { inv with queue := fun live => ?_ }
  have old := inv.queue live
  constructor
  · simp only [List.countP_append, List.countP_singleton, unsent, Bool.false_eq_true, if_false]
    exact old.counted
  · exact old.few
  · intro j member fin
    rcases List.mem_append.mp member with queued | new
    · exact old.plain j queued fin
    · obtain rfl := List.mem_singleton.mp new
      exact plain fin
  · intro j member syn
    rcases List.mem_append.mp member with queued | new
    · exact old.syn j queued syn
    · obtain rfl := List.mem_singleton.mp new
      rw [(SkBuff.unsent unsent).2] at syn
      contradiction
  · exact fun _ => positive
  · exact fun close => absurd close opened

/- First transmission of buffers out of a queue of which none has been sent. -/
theorem SendNumbers.send (xs before ys : List SkBuff) {after : List SkBuff} {stop : UInt32}
    (inv : SendNumbers s) (live : s.sock.skFreed = false)
    (queue : s.tsk.writeQueue = xs ++ before ++ ys) (idle : s.tsk.inflight = 0)
    (few : before.length ≤ 3) (run : SentRun s.tsk.tcb.sndNxt before after stop)
    (else_ : SameElse s t) (skFreed : t.sock.skFreed = s.sock.skFreed)
    (queue' : t.tsk.writeQueue = xs ++ after ++ ys) (inflight : t.tsk.inflight = before.length)
    (sent : t.sent = s.sent ++ after) (nxt : t.tsk.tcb.sndNxt = stop)
    (room : seqSent s + spans before < 2 ^ 32) : SendNumbers t ∧
      seqSent t = seqSent s + spans before := by
  have old := inv.queue live
  have next := inv.next
  have unsent : ∀ k ∈ s.tsk.writeQueue, k.numbered = false := by
    have none := old.counted.symm.trans idle
    rw [List.countP_eq_zero] at none
    simpa using none
  have some_queue : before ≠ [] → s.tsk.writeQueue ≠ [] := by
    rintro some_before none
    rw [none] at queue
    simp_all
  have fresh : ∀ k ∈ before, k.numbered = false := fun k member =>
    unsent k (by rw [queue]; simp [member])
  have plain : ∀ k ∈ before, k.th.fin = true → k.payload = [] := fun k member =>
    old.plain k (by rw [queue]; simp [member])
  have positive : before ≠ [] → 0 < s.tsk.tcb.sndNxt.toNat := fun some_before =>
    old.positive (.inr (some_queue some_before))
  have numbers := run.numbers fresh plain positive (by omega)
  obtain ⟨tiles, noSyn⟩ := run.tiles fresh plain positive (by omega)
  have stop_eq := numbers.next
  have total : seqSent t = seqSent s + spans before := by
    rw [seqSent, seqSent, else_.iss, sent, spans_append, run.spans_eq, Nat.add_assoc]
  have around : ∀ k, k ∈ xs ++ after ++ ys → k ∈ s.tsk.writeQueue ∨ k ∈ after := by
    intro k member
    rw [queue]
    simp only [List.mem_append] at member ⊢
    tauto
  have none_counted : ∀ zs : List SkBuff, (∀ k ∈ zs, k ∈ s.tsk.writeQueue) →
      zs.countP SkBuff.numbered = 0 := by
    intro zs within
    rw [List.countP_eq_zero]
    intro k member numbered
    rw [unsent k (within k member)] at numbered
    contradiction
  refine ⟨⟨?_, ?_, ?_, ?_, ?_, fun _ => ⟨?_, ?_, ?_, ?_, ?_, ?_⟩⟩, total⟩
  · intro freed
    rw [skFreed, live] at freed
    contradiction
  · rw [else_.iss, else_.sndUna]
    exact inv.low
  · have high := UInt32.le_iff_toNat_le.mp inv.high
    rw [else_.sndUna, nxt, UInt32.le_iff_toNat_le]
    omega
  · rw [nxt, total, stop_eq, next]
  · rw [else_.iss, sent, List.map_append, total]
    rw [next] at tiles stop_eq
    exact inv.tiles.append (stop_eq ▸ tiles)
  · rw [queue', inflight, List.countP_append, List.countP_append,
      none_counted xs fun k member => by rw [queue]; simp [member],
      none_counted ys fun k member => by rw [queue]; simp [member],
      List.countP_eq_length.mpr numbers.numbered, numbers.length]
    omega
  · rw [inflight]
    exact few
  · intro k member fin
    rw [queue'] at member
    rcases around k member with queued | new
    · exact old.plain k queued fin
    · exact (numbers.fin k new fin).1
  · intro k member syn
    rw [queue'] at member
    rcases around k member with queued | new
    · rw [else_.iss]
      exact old.syn k queued syn
    · rw [noSyn k new] at syn
      contradiction
  · intro busy
    have waiting : s.tsk.state.sending = true ∨ s.tsk.writeQueue ≠ [] := by
      refine busy.imp (fun h => else_.state ▸ h) fun some_left none => some_left ?_
      rw [none] at queue
      have empty : xs = [] ∧ before = [] ∧ ys = [] := by simpa [and_assoc] using queue.symm
      have none_after : after = [] := by
        have length := numbers.length
        rw [empty.2.1] at length
        exact List.length_eq_zero_iff.mp length
      rw [queue', empty.1, none_after, empty.2.2]
      rfl
    have := old.positive waiting
    rw [nxt]
    omega
  · rw [else_.state]
    intro close
    obtain ⟨none, quiet, zero⟩ := old.closed close
    have length := numbers.length
    rw [none] at queue
    have empty : xs = [] ∧ before = [] ∧ ys = [] := by simpa [and_assoc] using queue.symm
    rw [empty.2.1] at length run
    have none_after : after = [] := List.length_eq_zero_iff.mp length
    rw [none_after] at run
    have still : s.tsk.tcb.sndNxt = stop := run
    rw [queue', sent, nxt, ← still, empty.1, none_after, empty.2.2]
    exact ⟨rfl, (List.append_nil _).trans quiet, zero⟩

/- Acknowledged buffers leave the queue. -/
theorem SendNumbers.clean (inv : SendNumbers s) (una : UInt32) :
    SendNumbers (tcpCleanRtoQueue s una) := by
  obtain ⟨freed, cleaned⟩ := cleanLoop_conn una s s.tsk.writeQueue
  have split : s.tsk.writeQueue.takeWhile (acked una) ++ s.tsk.writeQueue.dropWhile (acked una)
      = s.tsk.writeQueue := List.takeWhile_append_dropWhile
  set gone := s.tsk.writeQueue.takeWhile (acked una) with hgone
  set left := s.tsk.writeQueue.dropWhile (acked una) with hleft
  have numbered : ∀ k ∈ gone, k.numbered = true := by
    intro k member
    have old := List.mem_takeWhile_imp member
    simp only [acked, Bool.and_eq_true, decide_eq_true_eq] at old
    simp only [SkBuff.numbered, Bool.or_eq_true, decide_eq_true_eq]
    refine .inl fun zero => ?_
    rw [zero] at old
    exact absurd old.1 (by decide)
  have popped : SendNumbers { s with
      tsk.inflight := s.tsk.inflight - gone.length, freed := freed, tsk.writeQueue := left } := by
    have sub : ∀ k ∈ left, k ∈ s.tsk.writeQueue := by
      intro k member
      rw [← split]
      exact List.mem_append_right _ member
    refine { inv with queue := fun live => ?_ }
    have old := inv.queue live
    constructor
    · have counted := old.counted
      rw [← split, List.countP_append, List.countP_eq_length.mpr numbered] at counted
      show s.tsk.inflight - gone.length = left.countP SkBuff.numbered
      omega
    · exact Nat.le_trans (Nat.sub_le _ _) old.few
    · exact fun k member => old.plain k (sub k member)
    · exact fun k member => old.syn k (sub k member)
    · intro busy
      refine old.positive (busy.imp id fun some_left none => some_left ?_)
      show left = []
      rw [hleft, none]
      rfl
    · intro close
      obtain ⟨none, quiet⟩ := old.closed close
      refine ⟨?_, quiet⟩
      show left = []
      rw [hleft, none]
      rfl
  unfold tcpCleanRtoQueue
  dsimp only
  rw [cleaned, cleanLoop_queue]
  split
  · exact popped.frame (tcpStopRtoTimer_send _)
  · exact popped

/-! ### The functions that send -/

/- No number goes back, and they stay in order when none reaches 2^32. -/
structure Advances (s t : Conn) : Prop where
  logs : Logs s t
  iss : t.tsk.tcb.iss = s.tsk.tcb.iss
  skFreed : t.sock.skFreed = s.sock.skFreed
  keeps : s.sock.skFreed = false → SendNumbers s → seqSent t < 2 ^ 32 →
    SendNumbers t ∧ s.tsk.tcb.sndUna ≤ t.tsk.tcb.sndUna

theorem spans_prefix {xs ys : List SkBuff} (h : xs <+: ys) : spans xs ≤ spans ys := by
  obtain ⟨more, rfl⟩ := h
  rw [spans_append]
  exact Nat.le_add_right _ _

namespace Advances

theorem grows (h : Advances s t) : seqSent s ≤ seqSent t := by
  have more := spans_prefix h.logs.sent
  rw [seqSent, seqSent, h.iss]
  omega

theorem of_frame (h : SendFrame s t) : Advances s t := by
  refine ⟨.of_frame h, h.iss, h.skFreed, fun _ inv _ => ⟨inv.frame h, ?_⟩⟩
  rw [h.sndUna]
  exact UInt32.le_refl _

theorem of_minor (h : Minor s t) : Advances s t := .of_frame (.of_minor h)

theorem refl (s : Conn) : Advances s s := .of_frame (.refl s)

theorem trans {u : Conn} (first : Advances s t) (second : Advances t u) : Advances s u := by
  refine ⟨first.logs.trans second.logs, second.iss.trans first.iss,
    second.skFreed.trans first.skFreed, fun live inv room => ?_⟩
  obtain ⟨midway, una⟩ := first.keeps live inv (Nat.lt_of_le_of_lt second.grows room)
  obtain ⟨done, una'⟩ := second.keeps (first.skFreed.trans live) midway room
  exact ⟨done, UInt32.le_trans una una'⟩

end Advances

theorem tcpQueueTransmitSkb_advances (k : SkBuff) (opened : s.tsk.state ≠ .close)
    (unsent : k.numbered = false) (plain : k.th.fin = true → k.payload = [])
    (positive : s.sock.skFreed = false → SendNumbers s → 0 < s.tsk.tcb.sndNxt.toNat) :
    Advances s (tcpQueueTransmitSkb s k) := by
  obtain ⟨-, -, iss, -, -, -, skFreed, -⟩ := tcpQueueTransmitSkb_view (s := s) k
  refine ⟨tcpQueueTransmitSkb_logs s k, iss, skFreed, fun live inv room => ?_⟩
  have else_ := tcpQueueTransmitSkb_else s k
  refine ⟨?_, by rw [else_.sndUna]; exact UInt32.le_refl _⟩
  by_cases idle : s.tsk.inflight = 0
  · obtain ⟨k', seg, sent, queue, inflight, history, -, nxt, -⟩ := tcpQueueTransmitSkb_now k idle
    have waiting := inv.push opened unsent plain (positive live inv)
    have run : SentRun s.tsk.tcb.sndNxt [k] [k'] (k'.endSeq + if k.th.fin then 1 else 0) :=
      ⟨sent, rfl⟩
    have total : seqSent (tcpQueueTransmitSkb s k) = seqSent s + spans [k] := by
      have width : spans [k'] = spans [k] := by simp [spans, sent.span]
      rw [seqSent, seqSent, iss, history, spans_append, width, Nat.add_assoc]
    exact (waiting.send s.tsk.writeQueue [k] [] live (by simp) idle (by simp) run
      ⟨else_.accepted, else_.fins, else_.iss, else_.sndUna, else_.state, else_.ended⟩ skFreed
      (by simpa using queue) inflight history nxt (total ▸ room)).1
  · obtain ⟨u, frame, eq⟩ := tcpQueueTransmitSkb_later k idle
    rw [eq]
    refine (inv.frame frame).push (fun close => opened (frame.onward.close close)) unsent plain ?_
    rw [frame.sndNxt]
    exact positive live inv

theorem sendFront_advances (s : Conn) (n : Nat) (idle : s.tsk.inflight = 0)
    (front : n = min s.tsk.writeQueue.length 3) : Advances s (sendFront s n) := by
  obtain ⟨after, run, left, history⟩ := sendNextLoop_sent (s := s) n s.tsk.writeQueue
  obtain ⟨_, _, _, same⟩ := tcpSendNext_touches s n
  have skFreed : (sendFront s n).sock.skFreed = s.sock.skFreed := same.skFreed
  have else_ : SameElse s (sendFront s n) :=
    ⟨same.accepted, same.fins, same.iss, same.sndUna, same.state, same.ended⟩
  have length : (s.tsk.writeQueue.take n).length = n := by
    rw [List.length_take]
    omega
  have inflight : (sendFront s n).tsk.inflight = (s.tsk.writeQueue.take n).length := by
    have kept : (tcpSendNext s n).tsk.inflight = s.tsk.inflight := same.inflight
    show (tcpSendNext s n).tsk.inflight + n = _
    rw [kept, idle, length]
    omega
  refine ⟨sendFront_logs s n, else_.iss, skFreed, fun live inv room => ?_⟩
  have total : seqSent (sendFront s n) = seqSent s + spans after := by
    rw [seqSent, seqSent, else_.iss, show (sendFront s n).sent = s.sent ++ after from history,
      spans_append, Nat.add_assoc]
  refine ⟨?_, by rw [else_.sndUna]; exact UInt32.le_refl _⟩
  refine (inv.send [] (s.tsk.writeQueue.take n) (s.tsk.writeQueue.drop n) live (by simp) idle
    (by omega) run else_ skFreed left inflight history rfl ?_).1
  rw [← run.spans_eq]
  exact total ▸ room

theorem retransmitHead_advances {k : SkBuff} (head : s.tsk.writeQueue.head? = some k) :
    Advances s (retransmitHead s k) := by
  have same := tcpTransmitSkb_same s k s.tsk.tcb.sndUna
  obtain ⟨rest, queue⟩ := List.head?_eq_some_iff.mp head
  set k' := (tcpTransmitSkb s k s.tsk.tcb.sndUna).2 with hk'
  have numbered : k'.numbered = k.numbered := rfl
  have queue' : (retransmitHead s k).tsk.writeQueue = k' :: rest := by
    simp only [retransmitHead, setHead, same.writeQueue, queue, List.tail_cons, hk']
  have tcb : (retransmitHead s k).tsk.tcb = s.tsk.tcb := same.tcb
  have sent : (retransmitHead s k).sent = s.sent := same.sent
  have inflight : (retransmitHead s k).tsk.inflight = s.tsk.inflight := same.inflight
  have state : (retransmitHead s k).tsk.state = s.tsk.state := same.state
  have skFreed : (retransmitHead s k).sock.skFreed = s.sock.skFreed := same.skFreed
  have registered : (retransmitHead s k).sock.registered = s.sock.registered := same.registered
  have total : seqSent (retransmitHead s k) = seqSent s := by rw [seqSent, seqSent, tcb, sent]
  have replaced : ∀ {p : SkBuff → Prop}, (p k → p k') → (∀ j ∈ s.tsk.writeQueue, p j) →
      ∀ j ∈ k' :: rest, p j := by
    intro p carry all j member
    rw [queue] at all
    rcases List.mem_cons.mp member with rfl | later
    · exact carry (all k (by simp))
    · exact all j (by simp [later])
  refine ⟨retransmitHead_logs s k, by rw [tcb], skFreed, fun live inv _ => ⟨?_, ?_⟩⟩
  · have old := inv.queue live
    refine ⟨?_, ?_, ?_, ?_, ?_, fun _ => ⟨?_, ?_, ?_, ?_, ?_, ?_⟩⟩
    · rw [skFreed, registered]
      exact inv.gone
    · rw [tcb]
      exact inv.low
    · rw [tcb]
      exact inv.high
    · rw [tcb, total]
      exact inv.next
    · rw [tcb, sent, total]
      exact inv.tiles
    · rw [queue', inflight, old.counted, queue, List.countP_cons, List.countP_cons, numbered]
    · rw [inflight]
      exact old.few
    · rw [queue']
      exact replaced id old.plain
    · rw [queue', tcb]
      exact replaced id old.syn
    · intro _
      rw [tcb]
      exact old.positive (.inr (by simp [queue]))
    · rw [state]
      intro close
      have none := (old.closed close).1
      rw [queue] at none
      contradiction
  · rw [tcb]
    exact UInt32.le_refl _

/- The oldest number unacknowledged moves on. -/
theorem sndUna_advances (una : UInt32) (forward : SendNumbers s → s.tsk.tcb.sndUna ≤ una)
    (high : SendNumbers s → una ≤ s.tsk.tcb.sndNxt) :
    Advances s { s with tsk.tcb.sndUna := una } :=
  ⟨.of_sent rfl (List.prefix_refl _), rfl, rfl, fun _ inv _ =>
    ⟨inv.una una (UInt32.le_trans inv.low (forward inv)) (high inv), forward inv⟩⟩

theorem tcpSendReset_advances : Advances s (tcpSendReset s) := by
  unfold tcpSendReset
  dsimp only
  refine Advances.trans ?_ (.of_minor (freeSkb_minor _ _))
  refine Advances.trans ?_ (.of_minor (tcpTransmitSkb_minor _ _ _ rfl rfl rfl))
  refine (Advances.of_minor (tcpAllocSkb_minor s 0 [])).trans ?_
  exact sndUna_advances _ (fun inv => inv.high) fun _ => UInt32.le_refl _

theorem tcpSendReset_sent (s : Conn) : (tcpSendReset s).sent = s.sent := by
  unfold tcpSendReset
  dsimp only
  exact (freeSkb_minor _ _).same.sent.trans (tcpTransmitSkb_same _ _ _).sent

theorem tcpCleanRtoQueue_advances (una : UInt32) : Advances s (tcpCleanRtoQueue s una) := by
  have logs := tcpCleanRtoQueue_logs s una
  have clean : SendNumbers s → SendNumbers (tcpCleanRtoQueue s una) := fun inv => inv.clean una
  obtain ⟨_, _, _, _, _, eq⟩ := tcpCleanRtoQueue_touches s una
  rw [eq] at logs clean ⊢
  exact ⟨logs, rfl, rfl, fun _ inv _ => ⟨clean inv, UInt32.le_refl _⟩⟩

theorem tcpHandleFinState_advances : Advances s (tcpHandleFinState s) := by
  obtain ⟨state, eq⟩ := tcpHandleFinState_eq s
  have keeps := (tcpHandleFinState_keeps (s := s))
  rw [eq] at keeps ⊢
  refine ⟨.of_sent rfl (List.prefix_refl _), rfl, rfl, fun live inv _ => ⟨?_, UInt32.le_refl _⟩⟩
  refine { inv with queue := fun live => { inv.queue live with positive := ?_, closed := ?_ } }
  · exact fun busy => (inv.queue live).positive (busy.imp keeps.sending id)
  · exact fun close => (inv.queue live).closed (keeps.close close)

/- A change of what the numbers do not depend on. -/
theorem Advances.of_eq (view : sendView t = { sendView s with
      accepted := t.accepted, fins := t.fins, smss := t.tsk.smss })
    (out : t.out = s.out) (state : t.tsk.state = s.tsk.state) : Advances s t := by
  have sent : t.sent = s.sent := congrArg SendView.sent view
  have nxt : t.tsk.tcb.sndNxt = s.tsk.tcb.sndNxt := congrArg SendView.sndNxt view
  have una : t.tsk.tcb.sndUna = s.tsk.tcb.sndUna := congrArg SendView.sndUna view
  have iss : t.tsk.tcb.iss = s.tsk.tcb.iss := congrArg SendView.iss view
  have queue : t.tsk.writeQueue = s.tsk.writeQueue := congrArg SendView.writeQueue view
  have inflight : t.tsk.inflight = s.tsk.inflight := congrArg SendView.inflight view
  have registered : t.sock.registered = s.sock.registered := congrArg SendView.registered view
  have skFreed : t.sock.skFreed = s.sock.skFreed := congrArg SendView.skFreed view
  have total : seqSent t = seqSent s := by rw [seqSent, seqSent, iss, sent]
  refine ⟨.of_sent sent (out ▸ List.prefix_refl _), iss, skFreed, fun live inv _ => ⟨?_, ?_⟩⟩
  · have old := inv.queue live
    constructor
    · rw [skFreed, registered]
      exact inv.gone
    · rw [iss, una]
      exact inv.low
    · rw [una, nxt]
      exact inv.high
    · rw [nxt, total]
      exact inv.next
    · rw [iss, sent, total]
      exact inv.tiles
    · intro _
      constructor
      · rw [inflight, queue]
        exact old.counted
      · rw [inflight]
        exact old.few
      · rw [queue]
        exact old.plain
      · rw [queue, iss]
        exact old.syn
      · rw [state, queue, nxt]
        exact old.positive
      · rw [state, queue, sent, nxt]
        exact old.closed
  · rw [una]
    exact UInt32.le_refl _

/-! ### Calls -/

theorem tcpSendLoop_advances (mss fuel : Nat) (buf : List UInt8)
    (sending : s.tsk.state.sending = true) (opened : s.tsk.state ≠ .close) :
    Advances s (tcpSendLoop mss fuel s buf) := by
  induction fuel generalizing s buf with
  | zero => exact .refl s
  | succ fuel ih =>
    rw [tcpSendLoop]
    split
    · exact .refl s
    · dsimp only
      set al := tcpAllocSkb s 0 (buf.take mss) with hal
      set k : SkBuff := { al.2 with
        th := { al.2.th with ack := true, psh := (buf.drop mss).length = 0 } } with hk
      have queued : Advances al.1 (tcpQueueTransmitSkb al.1 k) :=
        tcpQueueTransmitSkb_advances k opened rfl (fun fin => by cases fin)
          fun live inv => (inv.queue live).positive (.inl sending)
      have state := (tcpQueueTransmitSkb_else al.1 k).state
      have later := ih (s := tcpQueueTransmitSkb al.1 k) (buf.drop mss) (state ▸ sending)
        (state ▸ opened)
      exact ((Advances.of_minor (tcpAllocSkb_minor s 0 _)).trans queued).trans later

theorem tcpWrite_advances (buf : List UInt8) : Advances s (tcpWrite s buf).1 := by
  have sends : s.tsk.state.sending = true → s.tsk.state ≠ .close → Advances s (tcpSend s buf) := by
    intro sending opened
    have grown : Advances s { s with accepted := s.accepted ++ buf } := .of_eq rfl rfl rfl
    unfold tcpSend
    exact (grown.trans (tcpSendLoop_advances _ _ _ sending opened)).trans
      (.of_frame (tcpRearmUserTimeout_send _))
  unfold tcpWrite
  split
  · exact .refl s
  · split
    · rename_i at_state
      exact sends (by rw [at_state]; rfl) (by rw [at_state]; decide)
    · rename_i at_state
      exact sends (by rw [at_state]; rfl) (by rw [at_state]; decide)
    · exact .refl s

/- The FIN of `tcp_close`, with the state it has moved to. -/
theorem tcpQueueFin_advances (state : TcpState) (sending : s.tsk.state.sending = true)
    (opened : state ≠ .close) (later : state.sending = true → s.tsk.state.sending = true) :
    Advances s (tcpQueueFin (setState s state)) := by
  have moved : SendNumbers s → SendNumbers (setState s state) := fun inv =>
    { inv with queue := fun live => { inv.queue live with
        positive := fun busy => (inv.queue live).positive (busy.imp later id)
        closed := fun close => absurd close opened } }
  have more : Advances (setState s state)
      { setState s state with fins := (setState s state).fins + 1 } := .of_eq rfl rfl rfl
  have counted := more.trans (.of_minor (tcpAllocSkb_minor _ 0 []))
  have quiet : Logs s (setState s state) := .of_sent rfl (List.prefix_refl _)
  refine ⟨quiet.trans (tcpQueueFin_logs _), ?_, ?_, ?_⟩
  · exact (tcpQueueFin_view (setState s state)).2.2.1
  · exact (tcpQueueFin_view (setState s state)).2.2.2.2.2
  · intro live inv room
    have positive := (inv.queue live).positive (.inl sending)
    exact (counted.trans (tcpQueueTransmitSkb_advances _ opened rfl (fun _ => rfl)
      fun _ _ => positive)).keeps live (moved inv) room

theorem tcpClose_advances : Advances s (tcpClose s).1 := by
  unfold tcpClose
  split
  iterate 6 exact .of_frame (.of_out rfl rfl rfl rfl)
  iterate 3 exact .of_frame (tcpDone_send s)
  · rename_i at_state
    exact tcpQueueFin_advances .finWait1 (by rw [at_state]; rfl) (by decide) (fun h => by cases h)
  · rename_i at_state
    have queued := tcpQueueFin_advances (s := s) .closeWait (by rw [at_state]; rfl) (by decide)
      (fun _ => by rw [at_state]; rfl)
    rw [show setState s .closeWait = s by rw [← at_state]; rfl] at queued
    exact queued

/-! ### Arriving segments -/

theorem takeAck_advances {th : TcpHdr} (new : AckNew s th) : Advances s (takeAck s th) := by
  unfold takeAck
  refine Advances.trans ?_ (tcpCleanRtoQueue_advances _)
  refine Advances.trans ?_ (.of_frame (tcpRtt_send _))
  exact sndUna_advances th.ackSeq (fun _ => UInt32.le_of_lt new.1) fun _ => new.2

theorem takeAck_sent (s : Conn) (th : TcpHdr) : (takeAck s th).sent = s.sent := by
  unfold takeAck
  obtain ⟨_, _, _, _, _, eq⟩ := tcpCleanRtoQueue_touches
    (tcpRtt { s with tsk.tcb.sndUna := th.ackSeq }) th.ackSeq
  rw [eq]
  exact (tcpRtt_send _).sent

theorem synsentAck_advances {th : TcpHdr} (taken : SynTaken s th) : Advances s (synsentAck s th) := by
  have learned : Advances s { s with tsk.tcb.rcvNxt := th.seq + 1, tsk.tcb.irs := th.seq } :=
    .of_frame (.of_out rfl rfl rfl rfl)
  unfold synsentAck
  dsimp only
  split
  · rename_i ack
    obtain ⟨-, forward, high⟩ := taken.window ack
    refine (learned.trans ?_).trans (tcpCleanRtoQueue_advances _)
    exact sndUna_advances _ (fun _ => forward) fun _ => high
  · exact learned

theorem synsentEstablish_advances (th : TcpHdr) (waiting : s.tsk.state = .synSent) :
    Advances s (synsentEstablish s th) := by
  unfold synsentEstablish
  dsimp only
  have opened : Advances s (setState s .established) := .of_frame (setState_send s .established
    (by rw [waiting]; rfl) (by simp [Awaiting, setState]))
  have caught := opened.trans (sndUna_advances (s := setState s .established)
    (setState s .established).tsk.tcb.sndNxt (fun inv => inv.high) fun _ => UInt32.le_refl _)
  have reset : Advances s { setState s .established with
      tsk.tcb.sndUna := (setState s .established).tsk.tcb.sndNxt, tsk.backoff := 0
      tsk.rto := 1000 } := caught.trans (.of_frame (.of_out rfl rfl rfl rfl))
  generalize ({ setState s .established with
      tsk.tcb.sndUna := (setState s .established).tsk.tcb.sndNxt, tsk.backoff := 0
      tsk.rto := 1000 } : Conn) = u at reset
  have acked := (reset.trans (.of_minor (tcpSendAck_minor _))).trans
    (.of_frame (tcpRearmUserTimeout_send _))
  generalize tcpRearmUserTimeout (tcpSendAck u) = v at acked
  have sized : Advances v { v with tsk.smss := (tcpParseOpts v.tsk th).smss } := .of_eq rfl rfl rfl
  exact ((acked.trans sized).trans (.of_minor (tcpParseOpts_minor v th))).trans
    (.of_frame (sockConnected_send _))

theorem synsentSyn_advances {th : TcpHdr} (taken : SynTaken s th) : Advances s (synsentSyn s th) := by
  have acked := synsentAck_advances taken
  have state := (synsentAck_state (s := s) th).trans taken.waiting
  unfold synsentSyn
  generalize synsentAck s th = u at acked state
  dsimp only
  split
  · exact acked.trans (synsentEstablish_advances th state)
  · rename_i unacked
    rw [tcpSendSynack_minor _ (by simp [setState])]
    have moved := acked.trans (.of_frame (setState_send u .synReceived (by rw [state]; rfl)
      (by simp [Awaiting, setState])))
    refine moved.trans (sndUna_advances _ (fun _ => UInt32.not_lt.mp unacked) fun inv => ?_)
    exact UInt32.le_trans inv.low inv.high

theorem synsentAck_sent (s : Conn) (th : TcpHdr) : (synsentAck s th).sent = s.sent := by
  unfold synsentAck
  dsimp only
  split
  · obtain ⟨_, _, _, _, _, eq⟩ := tcpCleanRtoQueue_touches { s with
      tsk.tcb.rcvNxt := th.seq + 1, tsk.tcb.irs := th.seq, tsk.tcb.sndUna := th.ackSeq } th.ackSeq
    rw [eq]
  · rfl

theorem synsentEstablish_sent (s : Conn) (th : TcpHdr) : (synsentEstablish s th).sent = s.sent := by
  unfold synsentEstablish
  dsimp only
  exact (tcpRearmUserTimeout_send _).sent.trans (tcpSendAck_minor _).same.sent

theorem synsentSyn_sent (s : Conn) (th : TcpHdr) : (synsentSyn s th).sent = s.sent := by
  have acked := synsentAck_sent s th
  unfold synsentSyn
  dsimp only
  split
  · exact (synsentEstablish_sent _ th).trans acked
  · rw [tcpSendSynack_minor _ (by simp [setState])]
    exact acked

/-! ### Connecting -/

theorem tcpConnect_una (s : Conn) (iss : UInt32) (closed : s.tsk.state = .close) :
    (tcpConnect s iss).tsk.tcb.sndUna = iss := by
  unfold tcpConnect tcpSendSyn
  simp only [closed]
  rw [if_neg (by simp)]
  exact (tcpQueueTransmitSkb_else _ _).sndUna

/- The SYN is the first to be sent, and takes one number. -/
theorem SendNumbers.connects (addr : SockAddr) (port : UInt16) (iss : UInt32) (inv : SendNumbers s)
    (live : s.sock.skFreed = false) (closed : s.tsk.state = .close)
    (room : seqSent (tcpV4Connect s addr port iss) < 2 ^ 32) :
    SendNumbers (tcpV4Connect s addr port iss) := by
  have old := inv.queue live
  obtain ⟨none, quiet, -⟩ := old.closed closed
  have una := tcpConnect_una { s with
    tsk.dport := addr.port, tsk.sport := port, tsk.daddr := addr.addr
    tsk.saddr := parseIpv4 10 0 0 4 } iss closed
  obtain ⟨k, seg, sent⟩ := tcpConnect_sent (s := { s with
    tsk.dport := addr.port, tsk.sport := port, tsk.daddr := addr.addr
    tsk.saddr := parseIpv4 10 0 0 4 }) iss closed none (old.counted.trans (by rw [none]; rfl))
  unfold tcpV4Connect at room ⊢
  generalize tcpConnect { s with
    tsk.dport := addr.port, tsk.sport := port, tsk.daddr := addr.addr
    tsk.saddr := parseIpv4 10 0 0 4 } iss = t at sent una room
  have history : t.sent = [k] := by
    rw [sent.sent]
    show s.sent ++ [k] = [k]
    rw [quiet]
    rfl
  have one : k.span = 1 := by simp [SkBuff.span, sent.payload, sent.fin, sent.syn]
  have total : seqSent t = iss.toNat + 1 := by
    rw [seqSent, sent.iss, history]
    simp [spans, one]
  have plus : (iss + 1).toNat = iss.toNat + 1 := by
    rw [UInt32.toNat_add, UInt32.toNat_one]
    omega
  have numbered : k.numbered = true := by simp [SkBuff.numbered, sent.syn]
  refine ⟨?_, ?_, ?_, ?_, ?_, fun _ => ⟨?_, ?_, ?_, ?_, ?_, ?_⟩⟩
  · intro freed
    rw [sent.skFreed] at freed
    exact absurd (freed.symm.trans live) (by decide)
  · rw [sent.iss, una]
    exact UInt32.le_refl _
  · rw [una, sent.sndNxt, UInt32.le_iff_toNat_le, plus]
    exact Nat.le_succ _
  · rw [sent.sndNxt, plus, total]
  · rw [sent.iss, history, total]
    refine ⟨congrArg UInt32.toNat sent.seq, ?_⟩
    show iss.toNat + k.span = iss.toNat + 1
    rw [one]
  · rw [sent.queue, sent.inflight, List.countP_singleton, numbered]
    rfl
  · rw [sent.inflight]
    decide
  · intro j member _
    rw [sent.queue] at member
    obtain rfl := List.mem_singleton.mp member
    exact sent.payload
  · intro j member _
    rw [sent.queue] at member
    obtain rfl := List.mem_singleton.mp member
    rw [sent.iss, sent.seq]
  · intro _
    rw [sent.sndNxt, plus]
    exact Nat.succ_pos _
  · intro close
    rw [sent.state] at close
    contradiction

/-! ### Events -/

/- What an event may make of the numbers. -/
structure Reached (s t : Conn) : Prop where
  logs : Logs s t
  order : seqSent t < 2 ^ 32 → SendNumbers t ∧ s.tsk.tcb.sndUna ≤ t.tsk.tcb.sndUna ∧
    s.tsk.tcb.sndNxt ≤ t.tsk.tcb.sndNxt

theorem Reached.start (inv : SendNumbers s) : Reached s s :=
  ⟨.refl s, fun _ => ⟨inv, UInt32.le_refl _, UInt32.le_refl _⟩⟩

theorem Reached.frame {u : Conn} (reached : Reached s t) (h : SendFrame t u) : Reached s u := by
  refine ⟨reached.logs.trans (.of_frame h), fun room => ?_⟩
  rw [h.seqSent] at room
  obtain ⟨inv, una, nxt⟩ := reached.order room
  refine ⟨inv.frame h, ?_, ?_⟩
  · rw [h.sndUna]
    exact una
  · rw [h.sndNxt]
    exact nxt

theorem Reached.step {u : Conn} (reached : Reached s t) (advances : Advances t u)
    (live : t.sock.registered = true ∨ t.sock.skFreed = false) : Reached s u := by
  refine ⟨reached.logs.trans advances.logs, fun room => ?_⟩
  obtain ⟨inv, una, nxt⟩ := reached.order (Nat.lt_of_le_of_lt advances.grows room)
  obtain ⟨inv', una'⟩ := advances.keeps (live.elim inv.live id) inv room
  refine ⟨inv', UInt32.le_trans una una', UInt32.le_trans nxt ?_⟩
  rw [UInt32.le_iff_toNat_le, inv.next, inv'.next]
  exact advances.grows

theorem Reached.free (reached : Reached s t) : Reached s (socketFree t) := by
  obtain ⟨freed, eq⟩ := socketFree_eq t
  rw [eq]
  refine ⟨reached.logs.trans (.of_sent rfl (List.prefix_refl _)), fun room => ?_⟩
  obtain ⟨inv, una, nxt⟩ := reached.order room
  exact ⟨⟨fun _ => rfl, inv.low, inv.high, inv.next, inv.tiles, fun live => by
    simp [socketRelease, wakeSleep] at live⟩, una, nxt⟩

/- A segment moves `snd_una` no further than the numbers that had been sent when it came. -/
theorem tcpInputState_reached (th : TcpHdr) (skb : SkBuff) (inv : SendNumbers s)
    (live : s.sock.skFreed = false) : Reached s (tcpInputState s th skb) ∧
      (seqSent (tcpInputState s th skb) < 2 ^ 32 →
        (tcpInputState s th skb).tsk.tcb.sndUna ≤ s.tsk.tcb.sndNxt) := by
  have within : ∀ {u v : Conn}, Advances u v → v.sent = u.sent → seqSent u = seqSent s →
      Reached s v → seqSent v < 2 ^ 32 → v.tsk.tcb.sndUna ≤ s.tsk.tcb.sndNxt := by
    intro u v advances same total reached room
    obtain ⟨inv', -, -⟩ := reached.order room
    have high := UInt32.le_iff_toNat_le.mp inv'.high
    rw [inv'.next, seqSent, advances.iss, same, ← seqSent, total] at high
    rw [UInt32.le_iff_toNat_le, inv.next]
    exact high
  have done : Reached s (tcpInputState s th skb) ∧
      (tcpInputState s th skb).sock.skFreed = s.sock.skFreed ∧
      (seqSent (tcpInputState s th skb) < 2 ^ 32 →
        (tcpInputState s th skb).tsk.tcb.sndUna ≤ s.tsk.tcb.sndNxt) := by
    refine tcpInputState_rule (P := fun v => Reached s v ∧ v.sock.skFreed = s.sock.skFreed ∧
      (seqSent v < 2 ^ 32 → v.tsk.tcb.sndUna ≤ s.tsk.tcb.sndNxt)) ?_ ?_ ?_ ?_ ?_ ?_
    · rintro u v frame ⟨reached, held, una⟩
      refine ⟨reached.frame frame, frame.skFreed.trans held, ?_⟩
      rw [frame.seqSent, frame.sndUna]
      exact una
    · exact ⟨.start inv, rfl, fun _ => inv.high⟩
    · intro _
      have advances := tcpSendReset_advances (s := s)
      have reached := (Reached.start inv).step advances (.inr live)
      exact ⟨reached, advances.skFreed, within advances (tcpSendReset_sent s) rfl reached⟩
    · intro taken
      have advances := synsentSyn_advances taken
      have reached := (Reached.start inv).step advances (.inr live)
      exact ⟨reached, advances.skFreed, within advances (synsentSyn_sent s th) rfl reached⟩
    · rintro u frame new ⟨reached, held, -⟩
      have advances := takeAck_advances new
      have reached := reached.step advances (.inr (held.trans live))
      exact ⟨reached, advances.skFreed.trans held,
        within advances (takeAck_sent u th) frame.seqSent reached⟩
    · rintro u n idle front ⟨reached, held, una⟩
      have advances := sendFront_advances u n idle front
      refine ⟨reached.step advances (.inr (held.trans live)), advances.skFreed.trans held,
        fun room => ?_⟩
      obtain ⟨_, _, _, same⟩ := tcpSendNext_touches u n
      have still : (sendFront u n).tsk.tcb.sndUna = u.tsk.tcb.sndUna := same.sndUna
      rw [still]
      exact una (Nat.lt_of_le_of_lt advances.grows room)
  exact ⟨done.1, done.2.2⟩

theorem exec_reached {e : Event} {r : Reply} (inv : SendNumbers s) (taken : exec s e = some (t, r)) :
    Reached s t := by
  refine exec_rule (P := Reached s) (fun _ _ h reached => reached.frame h) (fun _ => Reached.free)
    (.start inv) taken ?write ?close ?connect ?segment ?handler ?reset
  case write => exact fun buf _ here locked => locked.step (tcpWrite_advances buf) (.inl here)
  case close => exact fun _ here locked => locked.step tcpClose_advances (.inl here)
  case connect =>
    intro addr port iss _ here closed locked
    have live := inv.live here
    generalize ready : ({ socketWrAcquire s with tsk.err := -EISCONN } : Conn) = u at locked
    have closed' : u.tsk.state = .close := by rw [← ready]; exact closed
    have live' : u.sock.skFreed = false := by rw [← ready]; exact live
    have none : s.tsk.tcb.sndNxt = 0 := ((inv.queue live).closed closed).2.2
    refine ⟨locked.logs.trans (tcpV4Connect_logs u addr port iss closed'), fun room => ?_⟩
    have before : seqSent u < 2 ^ 32 := by
      have same : seqSent u = seqSent s := by rw [← ready]; rfl
      rw [same, ← inv.next]
      exact s.tsk.tcb.sndNxt.toNat_lt
    obtain ⟨inv', -, -⟩ := locked.order before
    refine ⟨inv'.connects addr port iss live' closed' room, ?_, ?_⟩
    · have low := inv.high
      rw [none] at low
      rw [UInt32.le_antisymm low (UInt32.zero_le)]
      exact UInt32.zero_le
    · rw [none]
      exact UInt32.zero_le
  case segment =>
    intro th payload _ here locked
    have frame : SendFrame s (socketWrAcquire (tcpInitSegment s th payload).1) :=
      .of_out rfl rfl rfl rfl
    obtain ⟨reached, -⟩ := tcpInputState_reached th (tcpInitSegment s th payload).2
      (inv.frame frame) (inv.live here)
    exact ⟨locked.logs.trans reached.logs, fun room => reached.order room⟩
  case handler =>
    intro i h _ _ live
    constructor
    · intro _ ts locked
      exact tcpConnectRto_rule (P := Reached s) (fun _ _ h reached => reached.frame h) locked
        fun u k frame _ head reached => reached.step (retransmitHead_advances head)
          (.inr (frame.skFreed.trans live))
    · intro _ ts locked
      have done := tcpRetransmissionTimeout_rule (s := socketWrAcquire { s with ts := ts })
        (P := fun v => Reached s v ∧ v.sock.skFreed = false)
        (fun _ _ h kept => ⟨kept.1.frame h, h.skFreed.trans kept.2⟩) ⟨locked, live⟩
        (fun u k _ head kept => ⟨kept.1.step (retransmitHead_advances head) (.inr kept.2),
          (retransmitHead_advances head).skFreed.trans kept.2⟩)
        (fun u kept => ⟨kept.1.step tcpHandleFinState_advances (.inr kept.2),
          tcpHandleFinState_advances.skFreed.trans kept.2⟩)
      exact done.1
  case reset =>
    intro live u frame reached
    refine reached.step tcpSendReset_advances (live.imp ?_ ?_)
    · exact fun here => frame.registered.trans here
    · exact fun here => frame.skFreed.trans here

theorem SendNumbers.start : SendNumbers {} where
  gone := by simp
  low := by decide
  high := by decide
  next := rfl
  tiles := rfl
  queue _ := ⟨rfl, by decide, by simp, by simp, by simp [TcpState.sending], fun _ => ⟨rfl, rfl, rfl⟩⟩

end HfIp
