import HfIp.RttFrame
import HfIp.Bookkeeping
import HfIp.CloseOnce
import HfIp.NoStranding
import Mathlib.Algebra.Group.Int.Defs

/- Karn's rule: `tcp_rtt` takes no sample while a buffer that a timer has sent again waits for its
   acknowledgement. The backoff counter stands for the rule: it is above 0 from the first time a timer
   sends until all that has been sent is acknowledged, and it cannot come round to 0, as `rto` doubles
   with it. -/
namespace HfIp

open Transition

variable {s t u : Conn} {all : List Nat} {calm calm' : Prop}

/-- `tcp_rtt` takes a sample. -/
def Samples (s : Conn) : Prop :=
  s.tsk.backoff = 0 ∧ ∃ t ∈ s.tsk.retransmit.bind (findTimer s.ts),
    0 ≤ (timerGetTick s.ts - (t.expires - s.tsk.rto)).toInt32.toInt

instance (s : Conn) : Decidable (Samples s) := inferInstanceAs (Decidable (_ ∧ _))

/-- The event is a segment with a new ACK for which `tcp_rtt` takes a sample. -/
def TakesSample (s : Conn) : Event → Prop
  | .segment th payload =>
    tcpVerifySegment s.tsk th (tcpInitSegment s th payload).2 = true ∧ th.rst = false ∧
      th.syn = false ∧ th.ack = true ∧ AckReached s th ∧ AckNew s th ∧ Samples s
  | _ => False

instance (s : Conn) (e : Event) : Decidable (TakesSample s e) := by
  induction e using Event.casesOn <;> unfold TakesSample <;> infer_instance

/-- The event is a SYN-ACK that opens the connection. -/
def TakesSynAck (s : Conn) : Event → Prop
  | .segment th payload =>
    SynTaken (arriving s th payload) th ∧ th.rst = false ∧ th.ack = true
  | _ => False

instance (s : Conn) (e : Event) : Decidable (TakesSynAck s e) := by
  induction e using Event.casesOn <;> unfold TakesSynAck <;> infer_instance

/-- The buffer that the handler of a timer sends, not for the first time or without a number. -/
def resentHead (s : Conn) : Event → Option SkBuff
  | .handler i => s.ts.threads[i]?.bind fun h =>
    if Resends s h.handler then s.tsk.writeQueue.head? else none
  | _ => none

def sentIds (s : Conn) : List Nat := s.sent.map SkBuff.id

/-- All that had been sent before the step, by `tcp_transmit_skb` for the first time or by a timer, is
    acknowledged after it. -/
def AcksSent (all : List Nat) (s t : Conn) : Prop :=
  t.tsk.tcb.sndUna = s.tsk.tcb.sndNxt ∧ ∀ k ∈ t.tsk.writeQueue, k.id ∉ sentIds s ∧ k.id ∉ all

instance (all : List Nat) (s t : Conn) : Decidable (AcksSent all s t) :=
  inferInstanceAs (Decidable (_ ∧ _))

/- The buffers that timers have sent, all of them and those since everything sent was acknowledged. -/
structure Resent where
  all : List Nat := []
  since : List Nat := []

def noteResent (acc : Resent) (s : Conn) (e : Event) (t : Conn) : Resent :=
  let head := (resentHead s e).toList.map SkBuff.id
  { all := acc.all ++ head
    since := if AcksSent acc.all s t then head else acc.since ++ head }

def resent (trace : List (Event × Reply)) : Resent := account exec noteResent {} {} trace

/-- How often the buffer has been given to IP. -/
def timesSent (trace : List (Event × Reply)) (s : Conn) (k : SkBuff) : Nat :=
  (sentIds s).count k.id + (resent trace).all.count k.id

/-! ### The invariant -/

/- The backoff counter is far from its bound: `rto` has doubled with it. -/
structure Backed (s : Conn) : Prop where
  rto : 200 * 2 ^ s.tsk.backoff.toNat ≤ s.tsk.rto.toNat
  srtt : 0 ≤ s.tsk.srtt ∧ s.tsk.srtt < 2 ^ 31

/- Something may still be sent for the first time. -/
def Open (s : Conn) : Prop := s.tsk.writeQueue ≠ [] ∨ s.tsk.state.sending = true

/- The last buffer that has been sent is `k`, with `post` behind it; a FIN goes out by itself, unless
   nothing can come after it. -/
structure LastSent (s : Conn) (pre : List SkBuff) (k : SkBuff) (post : List SkBuff) : Prop where
  queue : s.tsk.writeQueue = pre ++ k :: post
  sent : k.id ∈ sentIds s
  behind : ∀ j ∈ post, j.id ∉ sentIds s
  ends : k.endSeq + (if k.th.fin then 1 else 0) = s.tsk.tcb.sndNxt
  alone : k.th.fin = true → post ≠ [] ∨ s.tsk.state.sending = true → k.endSeq ≤ s.tsk.tcb.sndUna

/-- A connection that was opened by a SYN-ACK. `all` lists what timers have sent, and `calm` says
    that they have sent nothing since everything was acknowledged. -/
structure Karn (all : List Nat) (calm : Prop) (s : Conn) : Prop where
  early : s.tsk.state.early = false
  backed : Backed s
  ids : (s.tsk.writeQueue.map SkBuff.id).Nodup
  queued : ∀ k ∈ s.tsk.writeQueue, k.id < s.nextSkb
  once : (sentIds s).Nodup
  below : ∀ i, i ∈ sentIds s ∨ i ∈ all → i < s.nextSkb
  counted : s.tsk.inflight = s.tsk.writeQueue.countP fun k => k.id ∈ sentIds s
  waiting : ∀ k ∈ s.tsk.writeQueue, k.id ∉ sentIds s → k.seq = 0
  plain : ∀ k ∈ s.tsk.writeQueue, k.th.fin = true → k.payload = []
  behind : ∀ k ∈ s.tsk.writeQueue.tail, k.id ∉ sentIds s → k.id ∉ all
  fresh : s.tsk.backoff = 0 → ∀ k ∈ s.tsk.writeQueue, k.id ∉ all
  idle : s.tsk.inflight = 0 → Open s → s.tsk.tcb.sndUna = s.tsk.tcb.sndNxt
  latest : s.tsk.inflight ≠ 0 → ∃ pre k post, LastSent s pre k post
  opened : s.tsk.state = .established → NoFin s.tsk.writeQueue
  closed : s.tsk.state.active2 = true → FinLast s.tsk.writeQueue
  unset : s.tsk.writeQueue = [] → s.tsk.retransmit = none
  calmed : s.tsk.backoff = 0 ∨ s.tsk.writeQueue = [] → Open s → calm

/- Nothing new is sent, and the timer only runs behind a retransmission. -/
structure Gone (s : Conn) : Prop where
  retired : Retired s
  backed : Backed s
  unset : s.tsk.backoff = 0 → s.tsk.retransmit = none

/- A buffer is in flight that no ACK takes off, since all numbers have been acknowledged. -/
structure Jammed (s : Conn) : Prop where
  early : s.tsk.state.early = false
  flying : s.tsk.inflight ≠ 0
  caught : s.tsk.tcb.sndUna = s.tsk.tcb.sndNxt

def Freed (s : Conn) : Prop := s.sock.skFreed = true ∧ s.sock.registered = false

inductive KarnInv (all : List Nat) (calm : Prop) (s : Conn) : Prop where
  | live (inv : Karn all calm s)
  | gone (inv : Gone s)
  | jammed (inv : Jammed s)
  | freed (inv : Freed s)

/-! ### What the functions of the frame keep -/

theorem Open.frame (h : SendFrame s t) (opened : Open t) : Open s := by
  rcases opened with some_left | sending
  · exact .inl (h.writeQueue ▸ some_left)
  · exact .inr (h.onward.sending sending)

theorem Backed.of_eq (backed : Backed s) (rto : t.tsk.rto = s.tsk.rto)
    (backoff : t.tsk.backoff = s.tsk.backoff) (srtt : t.tsk.srtt = s.tsk.srtt) : Backed t := by
  refine ⟨?_, ?_⟩
  · rw [rto, backoff]
    exact backed.rto
  · rw [srtt]
    exact backed.srtt

/- With the backoff at 0 `rto` may stay as it is. -/
theorem Backed.reset (backed : Backed s) (rto : t.tsk.rto = s.tsk.rto) (backoff : t.tsk.backoff = 0)
    (srtt : t.tsk.srtt = s.tsk.srtt) : Backed t := by
  have one : 1 ≤ 2 ^ s.tsk.backoff.toNat := Nat.one_le_two_pow
  have before := backed.rto
  refine ⟨?_, by rw [srtt]; exact backed.srtt⟩
  rw [rto, backoff, show (0 : UInt8).toNat = 0 from rfl]
  omega

theorem Backed.frame (backed : Backed s) (h : RttFrame s t) : Backed t := by
  rcases h.timer with ⟨backoff, -⟩ | ⟨-, zero, -⟩
  · exact backed.of_eq h.rto backoff h.srtt
  · exact backed.reset h.rto zero h.srtt

theorem onward_early (before : s.tsk.state.early = false) (onward : Onward s t) :
    t.tsk.state.early = false := by
  cases early : t.tsk.state.early with
  | false => rfl
  | true => exact absurd (onward.early early) (by simp [before])

theorem Karn.frame (inv : Karn all calm s) (h : RttFrame s t)
    (backoff : t.tsk.backoff = s.tsk.backoff)
    (retransmit : t.tsk.retransmit = s.tsk.retransmit ∨ t.tsk.retransmit = none) :
    Karn all calm t := by
  have queue := h.send.writeQueue
  have ids : sentIds t = sentIds s := congrArg (List.map SkBuff.id) h.send.sent
  constructor
  · exact onward_early inv.early h.send.onward
  · exact inv.backed.frame h
  · rw [queue]
    exact inv.ids
  · rw [queue]
    exact fun k member => Nat.lt_of_lt_of_le (inv.queued k member) h.skbs
  · rw [ids]
    exact inv.once
  · rw [ids]
    exact fun i member => Nat.lt_of_lt_of_le (inv.below i member) h.skbs
  · rw [queue, ids, h.send.inflight]
    exact inv.counted
  · rw [queue, ids]
    exact inv.waiting
  · rw [queue]
    exact inv.plain
  · rw [queue, ids]
    exact inv.behind
  · rw [queue, backoff]
    exact inv.fresh
  · rw [h.send.inflight, h.send.sndUna, h.send.sndNxt]
    exact fun idle opened => inv.idle idle (opened.frame h.send)
  · rw [h.send.inflight]
    intro flying
    obtain ⟨pre, k, post, last⟩ := inv.latest flying
    refine ⟨pre, k, post, queue.trans last.queue, ids ▸ last.sent, ids ▸ last.behind,
      h.send.sndNxt ▸ last.ends, fun fin more => ?_⟩
    rw [h.send.sndUna]
    exact last.alone fin (more.imp id h.send.onward.sending)
  · rw [queue]
    intro opened
    rcases h.text.established opened with here | before
    · exact inv.opened here
    · rw [inv.early] at before
      cases before
  · rw [queue]
    exact fun finWait => inv.closed (h.text.finWait finWait)
  · rw [queue]
    intro none
    rcases retransmit with same | unset
    · exact same.trans (inv.unset none)
    · exact unset
  · rw [queue, backoff]
    exact fun reset opened => inv.calmed reset (opened.frame h.send)

theorem Gone.frame (inv : Gone s) (h : RttFrame s t) : Gone t := by
  refine ⟨h.retired inv.retired, inv.backed.frame h, fun zero => ?_⟩
  rcases h.timer with ⟨backoff, same | none⟩ | ⟨-, -, none⟩
  · exact same.trans (inv.unset (backoff ▸ zero))
  · exact none
  · exact none

theorem Jammed.frame (inv : Jammed s) (h : SendFrame s t) : Jammed t := by
  refine ⟨onward_early inv.early h.onward, ?_, ?_⟩
  · rw [h.inflight]
    exact inv.flying
  · rw [h.sndUna, h.sndNxt]
    exact inv.caught

theorem Freed.frame (inv : Freed s) (h : SendFrame s t) : Freed t := by
  rw [Freed, h.skFreed, h.registered]
  exact inv

theorem KarnInv.frame (inv : KarnInv all calm s) (h : RttFrame s t) : KarnInv all calm t := by
  cases inv with
  | live inv =>
    rcases h.timer with ⟨backoff, retransmit⟩ | ⟨retired, zero, none⟩
    · exact .live (inv.frame h backoff retransmit)
    · exact .gone ⟨retired, inv.backed.frame h, fun _ => none⟩
  | gone inv => exact .gone (inv.frame h)
  | jammed inv => exact .jammed (inv.frame h.send)
  | freed inv => exact .freed (inv.frame h.send)

theorem Karn.mono (inv : Karn all calm s) (weaker : calm → calm') : Karn all calm' s :=
  { inv with calmed := fun reset opened => weaker (inv.calmed reset opened) }

theorem KarnInv.mono (inv : KarnInv all calm s) (weaker : calm → calm') : KarnInv all calm' s := by
  cases inv with
  | live inv => exact .live (inv.mono weaker)
  | gone inv => exact .gone inv
  | jammed inv => exact .jammed inv
  | freed inv => exact .freed inv

/-! ### First transmissions -/

/- A buffer is put at the end of the write queue, and sent when nothing is in flight. -/
structure Appends (s t : Conn) (k k' : SkBuff) : Prop where
  queue : t.tsk.writeQueue = s.tsk.writeQueue ++ [k']
  id : k'.id = k.id
  fin : k'.th.fin = k.th.fin
  payload : k'.payload = k.payload
  state : t.tsk.state = s.tsk.state
  backoff : t.tsk.backoff = s.tsk.backoff
  rto : t.tsk.rto = s.tsk.rto
  srtt : t.tsk.srtt = s.tsk.srtt
  sndUna : t.tsk.tcb.sndUna = s.tsk.tcb.sndUna
  nextSkb : t.nextSkb = s.nextSkb
  sent : (s.tsk.inflight = 0 ∧ t.tsk.inflight = 1 ∧ sentIds t = sentIds s ++ [k.id] ∧
      k'.endSeq = s.tsk.tcb.sndNxt + k.dlen ∧
      k'.endSeq + (if k.th.fin then 1 else 0) = t.tsk.tcb.sndNxt) ∨
    (s.tsk.inflight ≠ 0 ∧ t.tsk.inflight = s.tsk.inflight ∧ sentIds t = sentIds s ∧
      t.tsk.tcb.sndNxt = s.tsk.tcb.sndNxt ∧ k' = k)

theorem tcpRearmRtoTimer_nextSkb (s : Conn) : (tcpRearmRtoTimer s).nextSkb = s.nextSkb := by
  obtain ⟨_, _, eq⟩ := tcpRearmRtoTimer_touches s
  rw [eq]

theorem tcpQueueTransmitSkb_nextSkb (s : Conn) (k : SkBuff) :
    (tcpQueueTransmitSkb s k).nextSkb = s.nextSkb := by
  have armed : (if skbQueueEmpty s.tsk.writeQueue then tcpRearmRtoTimer s else s).nextSkb =
      s.nextSkb := by
    split
    · exact tcpRearmRtoTimer_nextSkb s
    · rfl
  unfold tcpQueueTransmitSkb
  dsimp only
  generalize (if skbQueueEmpty s.tsk.writeQueue then tcpRearmRtoTimer s else s) = t at armed
  split <;> exact armed

theorem tcpQueueTransmitSkb_appends (s : Conn) (k : SkBuff) :
    ∃ k', Appends s (tcpQueueTransmitSkb s k) k k' := by
  have skbs := tcpQueueTransmitSkb_nextSkb s k
  obtain ⟨_, _, _, _, _, _, same⟩ := tcpQueueTransmitSkb_touches s k
  have srtt : (tcpQueueTransmitSkb s k).tsk.srtt = s.tsk.srtt := congrArg (·.tsk.srtt) same
  by_cases idle : s.tsk.inflight = 0
  · obtain ⟨k', _, sent, queue, flying, history, -, nxt, -⟩ := tcpQueueTransmitSkb_now k idle
    refine ⟨k', queue, sent.id, sent.fin, sent.payload, same.state, same.backoff, same.rto, srtt,
      same.sndUna, skbs, .inl ⟨idle, flying, ?_, sent.endSeq, nxt.symm⟩⟩
    simp [sentIds, history, sent.id]
  · obtain ⟨u, frame, eq⟩ := tcpQueueTransmitSkb_later k idle
    have queue : (tcpQueueTransmitSkb s k).tsk.writeQueue = s.tsk.writeQueue ++ [k] := by
      rw [eq, ← frame.writeQueue]
    refine ⟨k, queue, rfl, rfl, rfl, same.state, same.backoff, same.rto, srtt, same.sndUna, skbs,
      .inr ⟨idle, ?_, ?_, ?_, rfl⟩⟩
    · rw [eq]
      exact frame.inflight
    · rw [eq]
      exact congrArg (List.map SkBuff.id) frame.sent
    · rw [eq]
      exact frame.sndNxt

theorem countP_ids_append {queue : List SkBuff} {ids more : List Nat}
    (apart : ∀ k ∈ queue, k.id ∉ more) :
    (queue.countP fun k => k.id ∈ ids ++ more) = queue.countP fun k => k.id ∈ ids := by
  apply List.countP_congr
  intro k member
  simp [apart k member]

/- With nothing in flight no buffer of the write queue has been sent. -/
theorem Karn.unsent (inv : Karn all calm s) (idle : s.tsk.inflight = 0) :
    ∀ k ∈ s.tsk.writeQueue, k.id ∉ sentIds s := by
  have none := inv.counted.symm.trans idle
  rw [List.countP_eq_zero] at none
  simpa using none

/- A new buffer is put in the queue. -/
theorem Karn.append {k k' : SkBuff} (inv : Karn all calm s)
    (appends : Appends { s with nextSkb := s.nextSkb + 1 } t k k') (new : k.id = s.nextSkb)
    (unset : k.seq = 0) (plain : k.th.fin = true → k.payload = [])
    (caught : s.tsk.inflight = 0 → s.tsk.tcb.sndUna = s.tsk.tcb.sndNxt)
    (calmly : s.tsk.backoff = 0 ∨ s.tsk.writeQueue = [] → calm)
    (opened : s.tsk.state = .established → k.th.fin = false)
    (live : s.tsk.state.sending = true ∨ NoFin s.tsk.writeQueue) : Karn all calm t := by
  have queue : t.tsk.writeQueue = s.tsk.writeQueue ++ [k'] := appends.queue
  have state : t.tsk.state = s.tsk.state := appends.state
  have backoff : t.tsk.backoff = s.tsk.backoff := appends.backoff
  have una : t.tsk.tcb.sndUna = s.tsk.tcb.sndUna := appends.sndUna
  have skbs : t.nextSkb = s.nextSkb + 1 := appends.nextSkb
  have history : (s.tsk.inflight = 0 ∧ t.tsk.inflight = 1 ∧ sentIds t = sentIds s ++ [s.nextSkb] ∧
        k'.endSeq = s.tsk.tcb.sndNxt + k.dlen ∧
        k'.endSeq + (if k.th.fin then 1 else 0) = t.tsk.tcb.sndNxt) ∨
      (s.tsk.inflight ≠ 0 ∧ t.tsk.inflight = s.tsk.inflight ∧ sentIds t = sentIds s ∧
        t.tsk.tcb.sndNxt = s.tsk.tcb.sndNxt ∧ k' = k) := by
    rw [← new]
    exact appends.sent
  have id : k'.id = s.nextSkb := appends.id.trans new
  have apart : ∀ j ∈ s.tsk.writeQueue, j.id ≠ s.nextSkb := fun j member =>
    Nat.ne_of_lt (inv.queued j member)
  have notSent : s.nextSkb ∉ sentIds s := fun member =>
    Nat.lt_irrefl _ (inv.below _ (.inl member))
  have notAll : s.nextSkb ∉ all := fun member => Nat.lt_irrefl _ (inv.below _ (.inr member))
  have tail : ∀ j ∈ t.tsk.writeQueue.tail, j ∈ s.tsk.writeQueue.tail ∨ j = k' := by
    intro j member
    rw [queue] at member
    cases some_left : s.tsk.writeQueue with
    | nil => simp [some_left] at member
    | cons first rest => simpa [some_left] using member
  have sub : ∀ i ∈ sentIds s, i ∈ sentIds t := by
    rcases history with ⟨-, -, ids, -⟩ | ⟨-, -, ids, -⟩
    · rw [ids]
      exact fun i member => List.mem_append_left _ member
    · rw [ids]
      exact fun i member => member
  constructor
  · rw [state]
    exact inv.early
  · exact inv.backed.of_eq appends.rto backoff appends.srtt
  · rw [queue, List.map_append, List.nodup_append]
    refine ⟨inv.ids, by simp, ?_⟩
    intro a queued b last
    obtain ⟨j, member, rfl⟩ := List.mem_map.mp queued
    obtain rfl := by simpa using last
    rw [id]
    exact apart j member
  · rw [queue, skbs]
    intro j member
    rcases List.mem_append.mp member with old | last
    · exact Nat.lt_succ_of_lt (inv.queued j old)
    · obtain rfl := List.mem_singleton.mp last
      omega
  · rcases history with ⟨-, -, ids, -⟩ | ⟨-, -, ids, -⟩
    · rw [ids, List.nodup_append]
      refine ⟨inv.once, by simp, ?_⟩
      rintro a member b last rfl
      obtain rfl := List.mem_singleton.mp last
      exact notSent member
    · rw [ids]
      exact inv.once
  · rw [skbs]
    rcases history with ⟨-, -, ids, -⟩ | ⟨-, -, ids, -⟩
    · rw [ids]
      intro i member
      rcases member with sent | resent
      · rcases List.mem_append.mp sent with old | last
        · exact Nat.lt_succ_of_lt (inv.below i (.inl old))
        · obtain rfl := List.mem_singleton.mp last
          exact Nat.lt_succ_self _
      · exact Nat.lt_succ_of_lt (inv.below i (.inr resent))
    · rw [ids]
      exact fun i member => Nat.lt_succ_of_lt (inv.below i member)
  · rcases history with ⟨idle, flying, ids, -⟩ | ⟨-, flying, ids, -, same⟩
    · have none := inv.counted.symm.trans idle
      rw [flying, queue, ids, List.countP_append, countP_ids_append, none]
      · simp [id]
      · simpa using apart
    · have counted : s.tsk.inflight = s.tsk.writeQueue.countP fun j => j.id ∈ sentIds s := inv.counted
      rw [flying, queue, ids, List.countP_append]
      simp only [List.countP_singleton, id, notSent, decide_false, Bool.false_eq_true, if_false]
      exact counted
  · intro j member later
    rw [queue] at member
    rcases List.mem_append.mp member with old | last
    · exact inv.waiting j old fun sent => later (sub _ sent)
    · obtain rfl := List.mem_singleton.mp last
      rcases history with ⟨-, -, ids, -⟩ | ⟨-, -, -, -, rfl⟩
      · rw [ids, id] at later
        simp at later
      · exact unset
  · rw [queue]
    intro j member fin
    rcases List.mem_append.mp member with old | last
    · exact inv.plain j old fin
    · obtain rfl := List.mem_singleton.mp last
      rw [appends.payload]
      exact plain (appends.fin ▸ fin)
  · intro j member later
    rcases tail j member with old | rfl
    · exact inv.behind j old fun sent => later (sub _ sent)
    · rw [id]
      exact notAll
  · rw [queue, backoff]
    intro zero j member
    rcases List.mem_append.mp member with old | last
    · exact inv.fresh zero j old
    · obtain rfl := List.mem_singleton.mp last
      rw [id]
      exact notAll
  · intro idle
    rcases history with ⟨-, flying, -⟩ | ⟨busy, flying, -⟩
    · rw [flying] at idle
      cases idle
    · exact absurd (flying.symm.trans idle) busy
  · intro _
    rcases history with ⟨idle, -, ids, ends, nxt⟩ | ⟨busy, -, ids, nxt, same⟩
    · refine ⟨s.tsk.writeQueue, k', [], queue, ?_, (fun j member => by cases member), ?_, ?_⟩
      · rw [ids, id]
        simp
      · rw [appends.fin]
        exact nxt
      · intro fin _
        have none : k.payload = [] := plain (appends.fin ▸ fin)
        have reached : s.tsk.tcb.sndUna = s.tsk.tcb.sndNxt := caught idle
        rw [ends, una, reached, show k.dlen = 0 by simp [SkBuff.dlen, none]]
        simp
    · obtain ⟨pre, last, post, sent⟩ := inv.latest busy
      refine ⟨pre, last, post ++ [k'], ?_, ids ▸ sent.sent, ?_, ?_, ?_⟩
      · rw [queue, sent.queue]
        simp
      · rw [ids]
        intro j member
        rcases List.mem_append.mp member with old | new
        · exact sent.behind j old
        · obtain rfl := List.mem_singleton.mp new
          rw [id]
          exact notSent
      · rw [nxt]
        exact sent.ends
      · intro fin _
        rw [una]
        refine sent.alone fin (.inr (live.resolve_right fun plain => ?_))
        have member : last ∈ s.tsk.writeQueue := by
          rw [sent.queue]
          simp
        rw [plain last member] at fin
        cases fin
  · rw [queue, state]
    intro at_state
    refine (inv.opened at_state).append fun j member => ?_
    obtain rfl := List.mem_singleton.mp member
    exact appends.fin.trans (opened at_state)
  · rw [queue, state]
    intro finWait
    unfold FinLast
    rw [List.dropLast_concat]
    refine live.resolve_left fun sending => ?_
    cases at_state : s.tsk.state <;> simp_all [TcpState.active2, TcpState.sending]
  · rw [queue]
    intro none
    simp at none
  · rw [backoff, queue]
    intro reset _
    rcases reset with zero | none
    · exact calmly (.inl zero)
    · simp at none

/- `tcp_alloc_skb` and `tcp_queue_transmit_skb` in a state from which data is sent. -/
theorem Karn.transmit {k : SkBuff} (inv : Karn all calm s) (new : k.id = s.nextSkb)
    (unset : k.seq = 0) (noFin : k.th.fin = false) (sending : s.tsk.state.sending = true) :
    Karn all calm (tcpQueueTransmitSkb { s with nextSkb := s.nextSkb + 1 } k) := by
  obtain ⟨k', appends⟩ := tcpQueueTransmitSkb_appends { s with nextSkb := s.nextSkb + 1 } k
  refine inv.append appends new unset ?_ (fun idle => inv.idle idle (.inr sending))
    (fun reset => inv.calmed reset (.inr sending)) (fun _ => noFin) (.inl sending)
  rw [noFin]
  exact fun fin => by cases fin

theorem tcpSendLoop_karn (mss fuel : Nat) (buf : List UInt8) (inv : Karn all calm s)
    (sending : s.tsk.state.sending = true) : Karn all calm (tcpSendLoop mss fuel s buf) := by
  induction fuel generalizing s buf with
  | zero => exact inv
  | succ fuel ih =>
    rw [tcpSendLoop]
    split
    · exact inv
    · dsimp only
      set al := tcpAllocSkb s 0 (buf.take mss)
      set k : SkBuff := { al.2 with
        th := { al.2.th with ack := true, psh := (buf.drop mss).length = 0 } }
      have queued : Karn all calm (tcpQueueTransmitSkb al.1 k) := inv.transmit rfl rfl rfl sending
      have state := (tcpQueueTransmitSkb_stays al.1 k).state
      exact ih (buf.drop mss) queued (state ▸ sending)

theorem tcpQueueTransmitSkb_jammed (k : SkBuff) (inv : Jammed s) :
    Jammed (tcpQueueTransmitSkb s k) := by
  obtain ⟨u, frame, eq⟩ := tcpQueueTransmitSkb_later k inv.flying
  have kept := inv.frame frame
  rw [eq]
  exact ⟨kept.early, kept.flying, kept.caught⟩

theorem tcpSendLoop_jammed (mss fuel : Nat) (buf : List UInt8) (inv : Jammed s) :
    Jammed (tcpSendLoop mss fuel s buf) := by
  induction fuel generalizing s buf with
  | zero => exact inv
  | succ fuel ih =>
    rw [tcpSendLoop]
    split
    · exact inv
    · have allocated := inv.frame (.of_minor (tcpAllocSkb_minor s 0 (buf.take mss)))
      exact ih _ (tcpQueueTransmitSkb_jammed _ allocated)

theorem tcpWrite_karn (buf : List UInt8) (inv : KarnInv all calm s)
    (live : s.sock.registered = true) : KarnInv all calm (tcpWrite s buf).1 := by
  have sends : s.tsk.state.sending = true → KarnInv all calm (tcpSend s buf) := by
    intro sending
    unfold tcpSend
    refine KarnInv.frame ?_ (tcpRearmUserTimeout_rtt _)
    cases inv with
    | live inv =>
      have accepted : Karn all calm { s with accepted := s.accepted ++ buf } :=
        { inv with
          backed := inv.backed.of_eq rfl rfl rfl
          latest := fun flying => by
            obtain ⟨pre, k, post, last⟩ := inv.latest flying
            exact ⟨pre, k, post, { last with }⟩ }
      exact .live (tcpSendLoop_karn _ _ _ accepted sending)
    | gone inv =>
      rcases inv.retired with h | ⟨h, -⟩ <;> rw [h] at sending <;> cases sending
    | jammed inv =>
      have accepted : Jammed { s with accepted := s.accepted ++ buf } := { inv with }
      exact .jammed (tcpSendLoop_jammed _ _ _ accepted)
    | freed inv =>
      rw [inv.2] at live
      cases live
  unfold tcpWrite
  split
  · exact inv
  · split
    · rename_i at_state
      exact sends (by rw [at_state]; rfl)
    · rename_i at_state
      exact sends (by rw [at_state]; rfl)
    · exact inv

/- A change of the state. -/
theorem Karn.move (inv : Karn all calm s) (state : TcpState) (early : state.early = false)
    (sending : state.sending = true → s.tsk.state.sending = true)
    (opened : state = .established → s.tsk.state = .established)
    (closed : state.active2 = true → FinLast s.tsk.writeQueue) : Karn all calm (setState s state) :=
  { inv with
    early := early
    backed := inv.backed.of_eq rfl rfl rfl
    idle := fun idle more => inv.idle idle (more.imp id sending)
    latest := fun flying => by
      obtain ⟨pre, k, post, last⟩ := inv.latest flying
      exact ⟨pre, k, post, { last with
        alone := fun fin more => last.alone fin (more.imp id sending) }⟩
    opened := fun h => inv.opened (opened h)
    closed := closed
    calmed := fun reset more => inv.calmed reset (more.imp id sending) }

/- The FIN of `tcp_close`, with the state it has moved to. -/
theorem tcpQueueFin_karn (state : TcpState) (inv : Karn all calm s)
    (moves : s.tsk.state = .established ∧ state = .finWait1 ∨
      s.tsk.state = .closeWait ∧ state = .closeWait) :
    Karn all calm (tcpQueueFin (setState s state)) := by
  have sending : s.tsk.state.sending = true := by
    rcases moves with ⟨h, -⟩ | ⟨h, -⟩ <;> rw [h] <;> rfl
  have caught := fun idle => inv.idle idle (.inr sending)
  have calmly := fun reset => inv.calmed reset (.inr sending)
  have moved : Karn all calm (setState s state) := by
    refine inv.move state ?_ (fun _ => sending) ?_ ?_
    · rcases moves with ⟨-, rfl⟩ | ⟨-, rfl⟩ <;> rfl
    · intro h
      rcases moves with ⟨-, rfl⟩ | ⟨-, rfl⟩ <;> cases h
    · intro h
      rcases moves with ⟨here, rfl⟩ | ⟨-, rfl⟩
      · exact (inv.opened here).last
      · cases h
  have counted : Karn all calm { setState s state with fins := (setState s state).fins + 1 } :=
    { moved with
      backed := moved.backed.of_eq rfl rfl rfl
      latest := fun flying => by
        obtain ⟨pre, k, post, last⟩ := moved.latest flying
        exact ⟨pre, k, post, { last with }⟩ }
  unfold tcpQueueFin
  set al := tcpAllocSkb { setState s state with fins := (setState s state).fins + 1 } 0 []
  set k : SkBuff := { al.2 with th := { al.2.th with fin := true, ack := true } }
  obtain ⟨k', appends⟩ := tcpQueueTransmitSkb_appends al.1 k
  refine counted.append appends rfl rfl (fun _ => rfl) caught calmly ?_ ?_
  · intro h
    rcases moves with ⟨-, rfl⟩ | ⟨-, rfl⟩ <;> cases h
  · rcases moves with ⟨here, -⟩ | ⟨-, rfl⟩
    · exact .inr (inv.opened here)
    · exact .inl rfl

theorem tcpDone_retires (backed : Backed s) : Gone (tcpDone s) := by
  obtain ⟨zero, none⟩ := tcpDone_cleared s
  exact ⟨.inr ⟨tcpDone_state, tcpDone_ended s⟩, backed.frame (tcpDone_rtt s), fun _ => none⟩

theorem tcpClose_karn (inv : KarnInv all calm s) (live : s.sock.registered = true) :
    KarnInv all calm (tcpClose s).1 := by
  have fin : ∀ state, (s.tsk.state = .established ∧ state = .finWait1 ∨
      s.tsk.state = .closeWait ∧ state = .closeWait) →
      KarnInv all calm (tcpQueueFin (setState s state)) := by
    intro state moves
    cases inv with
    | live inv => exact .live (tcpQueueFin_karn state inv moves)
    | gone inv =>
      rcases inv.retired with h | ⟨h, -⟩ <;> rcases moves with ⟨here, -⟩ | ⟨here, -⟩ <;>
        rw [h] at here <;> cases here
    | jammed inv =>
      have moved : Jammed (tcpAllocSkb { setState s state with
          fins := (setState s state).fins + 1 } 0 []).1 := by
        refine ⟨?_, inv.flying, inv.caught⟩
        rcases moves with ⟨-, rfl⟩ | ⟨-, rfl⟩ <;> rfl
      exact .jammed (tcpQueueTransmitSkb_jammed _ moved)
    | freed inv =>
      rw [inv.2] at live
      cases live
  unfold tcpClose
  split
  iterate 6 exact inv.frame (.of_rfl rfl rfl ⟨rfl, rfl⟩ rfl rfl)
  iterate 3 exact inv.frame (tcpDone_rtt s)
  · rename_i at_state
    exact fin .finWait1 (.inl ⟨at_state, rfl⟩)
  · rename_i at_state
    have queued := fin .closeWait (.inr ⟨at_state, rfl⟩)
    rw [show setState s .closeWait = s by rw [← at_state]; rfl] at queued
    exact queued

theorem SentRun.ids {nxt stop : UInt32} {before after : List SkBuff}
    (run : SentRun nxt before after stop) : after.map SkBuff.id = before.map SkBuff.id := by
  induction before generalizing nxt after with
  | nil =>
    cases after with
    | nil => rfl
    | cons => exact absurd run id
  | cons k rest ih =>
    cases after with
    | nil => exact absurd run id
    | cons k' after =>
      rw [List.map_cons, List.map_cons, run.1.id, ih run.2]

/- The number after the run is that after its last buffer. -/
theorem SentRun.last {nxt stop : UInt32} {before after : List SkBuff}
    (run : SentRun nxt before after stop) (some_sent : before ≠ []) :
    ∃ front k, after = front ++ [k] ∧ k.endSeq + (if k.th.fin then 1 else 0) = stop := by
  induction before generalizing nxt after with
  | nil => exact absurd rfl some_sent
  | cons k rest ih =>
    cases after with
    | nil => exact absurd run id
    | cons k' after =>
      obtain ⟨sent, run⟩ := run
      by_cases none : rest = []
      · subst none
        cases after with
        | nil => exact ⟨[], k', rfl, by rw [sent.fin]; exact run⟩
        | cons => exact absurd run id
      · obtain ⟨front, last, eq, ends⟩ := ih run none
        exact ⟨k' :: front, last, by rw [eq]; rfl, ends⟩

theorem sendNextLoop_nextSkb (amount : Nat) (s : Conn) (queue : List SkBuff) :
    (sendNextLoop s amount queue).1.nextSkb = s.nextSkb := by
  induction amount generalizing s queue with
  | zero => rfl
  | succ amount ih =>
    cases queue with
    | nil => rfl
    | cons next rest => exact ih _ rest

theorem TcpState.sending_active2 : ∀ {a : TcpState}, a.active2 = true → a.sending = false := by
  decide

theorem FinLast.take {queue : List SkBuff} {n : Nat} (last : FinLast queue) (more : n < queue.length) :
    NoFin (queue.take n) := by
  refine NoFin.sub last fun k member => ?_
  rw [List.dropLast_eq_take]
  exact List.mem_of_mem_take (i := n) (by rwa [List.take_take, Nat.min_eq_left (by omega)])

/- The buffers that wait at the front of the queue go out, and the timer is set. -/
theorem sendFront_karn (n : Nat) (inv : Karn all calm s) (idle : s.tsk.inflight = 0)
    (front : n = min s.tsk.writeQueue.length 3) (text : s.tsk.state.phase = .text)
    (some_left : s.tsk.writeQueue ≠ []) : Karn all calm (tcpRearmRtoTimer (sendFront s n)) := by
  obtain ⟨after, run, left, history⟩ := sendNextLoop_sent (s := s) n s.tsk.writeQueue
  obtain ⟨_, _, _, same⟩ := tcpSendNext_touches s n
  have skbs : (sendFront s n).nextSkb = s.nextSkb := sendNextLoop_nextSkb n s s.tsk.writeQueue
  have some_sent : s.tsk.writeQueue.take n ≠ [] := by
    have := List.length_pos_of_ne_nil some_left
    intro none
    have := congrArg List.length none
    rw [List.length_take, List.length_nil] at this
    omega
  have length : after.length = n := by
    rw [run.length, List.length_take]
    omega
  have old := inv.unsent idle
  have names := run.ids
  obtain ⟨ts, retransmit, eq⟩ := tcpRearmRtoTimer_touches (sendFront s n)
  rw [eq]
  set t : Conn := { sendFront s n with ts := ts, tsk.retransmit := retransmit } with ht
  have queue : t.tsk.writeQueue = after ++ s.tsk.writeQueue.drop n := left
  have ids : sentIds t = sentIds s ++ (s.tsk.writeQueue.take n).map SkBuff.id := by
    rw [sentIds, show t.sent = s.sent ++ after from history, List.map_append, names, sentIds]
  have flying : t.tsk.inflight = n := by
    have kept : (tcpSendNext s n).tsk.inflight = s.tsk.inflight := same.inflight
    show (tcpSendNext s n).tsk.inflight + n = n
    rw [kept, idle, Nat.zero_add]
  have state : t.tsk.state = s.tsk.state := same.state
  have una : t.tsk.tcb.sndUna = s.tsk.tcb.sndUna := same.sndUna
  have backoff : t.tsk.backoff = s.tsk.backoff := same.backoff
  have allIds : t.tsk.writeQueue.map SkBuff.id = s.tsk.writeQueue.map SkBuff.id := by
    rw [queue, List.map_append, names, ← List.map_append, List.take_append_drop]
  have mem : ∀ j ∈ t.tsk.writeQueue, ∃ k ∈ s.tsk.writeQueue, j.id = k.id ∧ j.th.fin = k.th.fin ∧
      j.payload = k.payload := by
    intro j member
    rw [queue] at member
    rcases List.mem_append.mp member with new | later
    · obtain ⟨k, before, _, sent⟩ := run.each j new
      exact ⟨k, List.mem_of_mem_take before, sent.id, sent.fin, sent.payload⟩
    · exact ⟨j, List.mem_of_mem_drop later, rfl, rfl, rfl⟩
  have split : (s.tsk.writeQueue.map SkBuff.id) = (s.tsk.writeQueue.take n).map SkBuff.id ++
      (s.tsk.writeQueue.drop n).map SkBuff.id := by
    rw [← List.map_append, List.take_append_drop]
  have distinct := inv.ids
  rw [split, List.nodup_append] at distinct
  have waits : ∀ j ∈ s.tsk.writeQueue.drop n, j.id ∉ sentIds t := by
    intro j member
    rw [ids, List.mem_append]
    rintro (before | now)
    · exact old j (List.mem_of_mem_drop member) before
    · exact distinct.2.2 _ now _ (List.mem_map_of_mem member) rfl
  have went : ∀ j ∈ after, j.id ∈ sentIds t := by
    intro j member
    rw [ids, ← names]
    exact List.mem_append_right _ (List.mem_map_of_mem member)
  have unsentLater : ∀ j ∈ t.tsk.writeQueue, j.id ∉ sentIds t → j ∈ s.tsk.writeQueue.drop n := by
    intro j member unsent
    rw [queue] at member
    exact (List.mem_append.mp member).resolve_left fun new => unsent (went j new)
  have isFin : t.tsk.writeQueue.map SkBuff.isFin = s.tsk.writeQueue.map SkBuff.isFin := by
    rw [queue, List.map_append, run.isFin, ← List.map_append, List.take_append_drop]
  constructor
  · rw [state]
    exact inv.early
  · exact inv.backed.of_eq same.rto backoff (congrArg (·.tsk.srtt) same)
  · rw [allIds]
    exact inv.ids
  · intro j member
    obtain ⟨k, before, id, -⟩ := mem j member
    rw [id, show t.nextSkb = s.nextSkb from skbs]
    exact inv.queued k before
  · rw [ids, List.nodup_append]
    refine ⟨inv.once, distinct.1, ?_⟩
    rintro a sent b now rfl
    obtain ⟨k, member, rfl⟩ := List.mem_map.mp now
    exact old k (List.mem_of_mem_take member) sent
  · rw [ids, show t.nextSkb = s.nextSkb from skbs]
    rintro i (member | resent)
    · rcases List.mem_append.mp member with sent | now
      · exact inv.below i (.inl sent)
      · obtain ⟨k, taken, rfl⟩ := List.mem_map.mp now
        exact inv.queued k (List.mem_of_mem_take taken)
    · exact inv.below i (.inr resent)
  · rw [flying, queue, List.countP_append, List.countP_eq_length.mpr (by simpa using went),
      List.countP_eq_zero.mpr (by simpa using waits), length]
    rfl
  · intro j member unsent
    have later := unsentLater j member unsent
    exact inv.waiting j (List.mem_of_mem_drop later) (old j (List.mem_of_mem_drop later))
  · intro j member fin
    obtain ⟨k, before, -, same, payload⟩ := mem j member
    rw [payload]
    exact inv.plain k before (same ▸ fin)
  · intro j member unsent
    have later := unsentLater j (List.mem_of_mem_tail member) unsent
    refine inv.behind j ?_ (old j (List.mem_of_mem_drop later))
    rw [← List.drop_one]
    have one : 1 ≤ n := by
      have := List.length_pos_of_ne_nil some_left
      omega
    rw [← Nat.sub_add_cancel one, Nat.add_comm, ← List.drop_drop] at later
    exact List.mem_of_mem_drop later
  · rw [backoff]
    intro zero j member
    obtain ⟨k, before, id, -⟩ := mem j member
    rw [id]
    exact inv.fresh zero k before
  · intro none _
    rw [flying] at none
    have := List.length_pos_of_ne_nil some_left
    omega
  · intro _
    obtain ⟨first, k, eq, ends⟩ := run.last some_sent
    refine ⟨first, k, s.tsk.writeQueue.drop n, ?_, ?_, waits, ends, fun fin more => ?_⟩
    · rw [queue, eq, List.append_assoc]
      rfl
    · exact went k (by rw [eq]; simp)
    · -- a FIN goes out only in FIN_WAIT, and behind it there is nothing
      obtain ⟨k₀, taken, _, sent⟩ := run.each k (by rw [eq]; simp)
      have flag : k₀.th.fin = true := sent.fin ▸ fin
      have finWait : s.tsk.state.active2 = true := by
        rcases TcpState.text_cases (by rw [text]; decide) (by rw [text]; decide) with h | h | h
        · rw [inv.opened h k₀ (List.mem_of_mem_take taken)] at flag
          cases flag
        · rw [h]
          rfl
        · rw [h]
          rfl
      have behind : n < s.tsk.writeQueue.length := by
        rcases more with later | sending
        · exact Nat.lt_of_not_le fun short => later (List.drop_eq_nil_of_le short)
        · rw [state, TcpState.sending_active2 finWait] at sending
          cases sending
      rw [(inv.closed finWait).take behind k₀ taken] at flag
      cases flag
  · rw [state]
    exact fun opened => (inv.opened opened).of_map isFin
  · rw [state]
    exact fun finWait => (inv.closed finWait).of_map isFin
  · intro none
    rw [← List.map_eq_nil_iff (f := SkBuff.id), allIds, List.map_eq_nil_iff] at none
    exact absurd none some_left
  · rw [backoff]
    intro reset opened
    refine inv.calmed (reset.imp id fun none => ?_) (.inl some_left)
    rw [← List.map_eq_nil_iff (f := SkBuff.id), allIds, List.map_eq_nil_iff] at none
    exact none

end HfIp
