import HfIp.TimerUse

/- What `tcp_rtt` takes for the ticks since the retransmission timer was armed. -/
namespace HfIp

open Transition

/- One call of `timer_add`: the tick of a clock that does not come round, and the argument `expire`. -/
structure Arming where
  tick : Nat := 0
  expire : UInt32 := 0

/- The clock, and the call that gave out each timer. -/
structure Stopwatch where
  clock : Nat := 0
  armed : Nat → Arming := fun _ => {}

/- `expire` of a timer that has just been added. -/
def givenExpire (ts : TimerService Handler) (i : Nat) : UInt32 :=
  match findTimer ts i with
  | none => 0
  | some x => x.expires - timerGetTick ts

def noteTime (w : Stopwatch) (s : Conn) (e : Event) (t : Conn) : Stopwatch :=
  match e with
  | .tick _ => { w with clock := w.clock + 10 }
  | _ => { w with armed := fun i => if i < s.ts.next then w.armed i else ⟨w.clock, givenExpire t.ts i⟩ }

/- The timer that `tcp_rtt` reads. -/
def rttTimer (s : Conn) : Option (Timer Handler) := s.tsk.retransmit.bind (findTimer s.ts)

/- What it works out, `int r`. -/
def rttSample (s : Conn) (x : Timer Handler) : Int :=
  (timerGetTick s.ts - (x.expires - s.tsk.rto)).toInt32.toInt

/-- The ticks since the timer was armed. -/
def elapsed (w : Stopwatch) (x : Timer Handler) : Nat := w.clock - (w.armed x.id).tick

/-- The event is a segment with a new ACK, for which `tcp_rtt` is called. -/
def CallsRtt (s : Conn) : Event → Prop
  | .segment th payload =>
    tcpVerifySegment s.tsk th (tcpInitSegment s th payload).2 = true ∧ th.rst = false ∧
      th.syn = false ∧ th.ack = true ∧ AckReached s th ∧ AckNew s th
  | _ => False

instance (s : Conn) (e : Event) : Decidable (CallsRtt s e) := by
  induction e using Event.casesOn <;> unfold CallsRtt <;> infer_instance

/-- `tcp_rtt` has a timer to read and no retransmission in the way, and what it works out is dropped as
    negative or is not the time that has passed. -/
def Mismeasures (p : Conn × Stopwatch) (e : Event) : Prop :=
  CallsRtt p.1 e ∧ p.1.tsk.backoff = 0 ∧
    ∃ x ∈ rttTimer p.1, rttSample p.1 x < 0 ∨ rttSample p.1 x ≠ elapsed p.2 x

/-- It has, and `rto` is no longer what the timer was armed with, or that is 2^31 ticks ago. -/
def RtoChanged (p : Conn × Stopwatch) (e : Event) : Prop :=
  CallsRtt p.1 e ∧ p.1.tsk.backoff = 0 ∧
    ∃ x ∈ rttTimer p.1, p.1.tsk.rto ≠ (p.2.armed x.id).expire ∨ 2 ^ 31 ≤ elapsed p.2 x

instance (p : Conn × Stopwatch) (e : Event) : Decidable (Mismeasures p e) :=
  inferInstanceAs (Decidable (_ ∧ _ ∧ ∃ x ∈ rttTimer p.1, _))

instance (p : Conn × Stopwatch) (e : Event) : Decidable (RtoChanged p e) :=
  inferInstanceAs (Decidable (_ ∧ _ ∧ ∃ x ∈ rttTimer p.1, _))

variable {s t : Conn} {e : Event} {r : Reply}

/- All that `tcp_rtt` does. -/
theorem tcpRtt_sample (s : Conn) : tcpRtt s = if s.tsk.backoff > 0 then s else
    match rttTimer s with
    | none => s
    | some x => if rttSample s x < 0 then s else { s with tsk := tcpRttUpdate s.tsk (rttSample s x) } :=
  rfl

/- The call, and what it finds. -/
theorem CallsRtt.call {th : TcpHdr} {payload : List UInt8} (calls : CallsRtt s (.segment th payload)) :
    ∃ u, (inputAck (arriving s th payload) th).1 = tcpCleanRtoQueue (tcpRtt u) th.ackSeq ∧
      u.tsk.backoff = s.tsk.backoff ∧ rttTimer u = rttTimer s ∧ ∀ x, rttSample u x = rttSample s x := by
  obtain ⟨-, -, -, -, reached, new⟩ := calls
  rcases reached with takes | ⟨waiting, inside⟩
  · refine ⟨{ arriving s th payload with tsk.tcb.sndUna := th.ackSeq }, ?_, rfl, rfl, fun _ => rfl⟩
    rw [inputAck_takes (s := arriving s th payload) takes, inputNewAck_fst,
      if_pos (show AckNew (arriving s th payload) th from new)]
  · refine ⟨{ setState (arriving s th payload) .established with tsk.tcb.sndUna := th.ackSeq }, ?_,
      rfl, rfl, fun _ => rfl⟩
    have waiting' : (arriving s th payload).tsk.state = .synReceived := waiting
    have inside' : (arriving s th payload).tsk.tcb.sndUna ≤ th.ackSeq ∧
        th.ackSeq < (arriving s th payload).tsk.tcb.sndNxt := inside
    unfold inputAck
    simp only [waiting']
    rw [if_pos inside', inputNewAck_fst,
      if_pos (show AckNew (setState (arriving s th payload) .established) th from new)]

/-! ### The stopwatch -/

/- Every timer expires as long after it was armed as it was armed for. -/
structure Watches (p : Conn × Stopwatch) : Prop where
  numbered : TimersNumbered p.1.ts
  tick : p.1.ts.tick = UInt32.ofNat p.2.clock
  before : ∀ x ∈ p.1.ts.timers, (p.2.armed x.id).tick ≤ p.2.clock
  expires : ∀ x ∈ p.1.ts.timers,
    x.expires = UInt32.ofNat (p.2.armed x.id).tick + (p.2.armed x.id).expire

theorem findTimer_of_mem {ts : TimerService Handler} {x : Timer Handler} (numbered : TimersNumbered ts)
    (member : x ∈ ts.timers) : findTimer ts x.id = some x := by
  have distinct := numbered.distinct
  clear numbered
  unfold findTimer
  generalize ts.timers = timers at member distinct
  induction timers with
  | nil => cases member
  | cons y rest ih =>
    rw [List.map_cons, List.nodup_cons] at distinct
    rcases List.mem_cons.mp member with rfl | later
    · rw [List.find?_cons_of_pos (by simp)]
    · have other : y.id ≠ x.id := fun same => distinct.1 (same ▸ List.mem_map_of_mem later)
      rw [List.find?_cons_of_neg (by simpa using other)]
      exact ih later distinct.2

theorem timersStart_timers (ts : TimerService Handler) (busy : List Nat) :
    (∀ x ∈ (timersStart ts busy).timers, ∃ y ∈ ts.timers, y.id = x.id ∧ y.expires = x.expires) ∧
      (TimersNumbered ts → TimersNumbered (timersStart ts busy)) := by
  have visited : ∀ y x : Timer Handler, visitTimer (ts.tick + 10) busy y = some x →
      y.id = x.id ∧ y.expires = x.expires := by
    intro y x stays
    unfold visitTimer at stays
    split at stays
    · obtain rfl := Option.some.inj stays
      exact ⟨rfl, rfl⟩
    · dsimp only at stays
      split at stays
      · split at stays
        · cases stays
        · obtain rfl := Option.some.inj stays
          exact ⟨rfl, rfl⟩
      · split at stays
        · cases stays
        · obtain rfl := Option.some.inj stays
          exact ⟨rfl, rfl⟩
  have old : ∀ x ∈ (timersStart ts busy).timers, ∃ y ∈ ts.timers, y.id = x.id ∧ y.expires = x.expires := by
    intro x member
    obtain ⟨y, here, stays⟩ := List.mem_filterMap.mp member
    exact ⟨y, here, visited y x stays⟩
  refine ⟨old, fun numbered => ⟨fun x member => ?_, ?_⟩⟩
  · obtain ⟨y, here, id, -⟩ := old x member
    rw [← id]
    exact numbered.below y here
  · have ids : List.Sublist ((timersStart ts busy).timers.map Timer.id) (ts.timers.map Timer.id) := by
      show List.Sublist ((ts.timers.filterMap (visitTimer (ts.tick + 10) busy)).map Timer.id) _
      induction ts.timers with
      | nil => exact .slnil
      | cons y rest ih =>
        rw [List.filterMap_cons]
        split
        · exact ih.cons y.id
        · rename_i x stays
          rw [List.map_cons, List.map_cons, (visited y x stays).1]
          exact ih.cons_cons x.id
    exact numbered.distinct.sublist ids

theorem Watches.step {p q : Conn × Stopwatch} (inv : Watches p)
    (taken : kept exec noteTime p e = some (q, r)) : Watches q := by
  obtain ⟨s, w⟩ := p
  obtain ⟨t, w'⟩ := q
  obtain ⟨here, noted⟩ := kept_taken taken
  dsimp only at here noted
  by_cases ticks : ∃ busy, e = .tick busy
  · obtain ⟨busy, rfl⟩ := ticks
    obtain ⟨rfl, -⟩ := by simpa [exec] using here
    subst noted
    obtain ⟨old, numbered⟩ := timersStart_timers s.ts busy
    refine ⟨numbered inv.numbered, ?_, fun x member => ?_, fun x member => ?_⟩
    · show s.ts.tick + 10 = UInt32.ofNat (w.clock + 10)
      rw [UInt32.ofNat_add, show s.ts.tick = _ from inv.tick]
      rfl
    · obtain ⟨y, there, id, -⟩ := old x member
      have before := inv.before y there
      rw [id] at before
      exact Nat.le_trans before (Nat.le_add_right _ _)
    · obtain ⟨y, there, id, expires⟩ := old x member
      have kept := inv.expires y there
      rw [id, expires] at kept
      exact kept
  · have still : ∀ busy, e ≠ .tick busy := fun busy ticks' => ticks ⟨busy, ticks'⟩
    have same := exec_timersKept still here
    have watch : w' = { w with armed := fun i =>
        if i < s.ts.next then w.armed i else ⟨w.clock, givenExpire t.ts i⟩ } := by
      rw [noted]
      unfold noteTime
      split
      · rename_i busy
        exact absurd rfl (still busy)
      · rfl
    subst watch
    have numbered := same.numbered inv.numbered
    refine ⟨numbered, same.tick.trans inv.tick, fun x member => ?_, fun x member => ?_⟩
    · dsimp only
      split
      · rename_i below
        obtain ⟨y, there, id, -⟩ := same.old x member below
        rw [← id]
        exact inv.before y there
      · exact Nat.le_refl _
    · dsimp only
      split
      · rename_i below
        obtain ⟨y, there, id, expires⟩ := same.old x member below
        rw [← id, ← expires]
        exact inv.expires y there
      · unfold givenExpire
        rw [findTimer_of_mem numbered member]
        dsimp only
        rw [show timerGetTick t.ts = UInt32.ofNat w.clock from same.tick.trans inv.tick,
          UInt32.add_comm, UInt32.sub_add_cancel]

/-! ### The sample -/

theorem toInt32_eq_iff (x : UInt32) (n : Nat) : x.toInt32.toInt = n ↔ x.toNat = n ∧ n < 2 ^ 31 := by
  have small := x.toNat_lt
  have signed : x.toInt32.toInt = if 2 * x.toNat < 2 ^ 32 then (x.toNat : Int) else x.toNat - 2 ^ 32 := by
    show x.toBitVec.toInt = _
    rw [BitVec.toInt_eq_toNat_cond]
    rfl
  rw [signed]
  split <;> omega

theorem Watches.sample {p : Conn × Stopwatch} (inv : Watches p) {x : Timer Handler}
    (member : x ∈ p.1.ts.timers) : rttSample p.1 x = elapsed p.2 x ↔
      p.1.tsk.rto = (p.2.armed x.id).expire ∧ elapsed p.2 x < 2 ^ 31 := by
  have before := inv.before x member
  have clock : UInt32.ofNat p.2.clock =
      UInt32.ofNat (p.2.armed x.id).tick + UInt32.ofNat (elapsed p.2 x) := by
    rw [← UInt32.ofNat_add]
    unfold elapsed
    rw [Nat.add_sub_cancel' before]
  have worked : timerGetTick p.1.ts - (x.expires - p.1.tsk.rto) =
      UInt32.ofNat (elapsed p.2 x) + (p.1.tsk.rto - (p.2.armed x.id).expire) := by
    rw [show timerGetTick p.1.ts = _ from inv.tick, inv.expires x member, clock]
    grind
  unfold rttSample
  rw [worked, toInt32_eq_iff, and_congr_left_iff]
  intro small
  have fits : (UInt32.ofNat (elapsed p.2 x)).toNat = elapsed p.2 x := by
    rw [UInt32.toNat_ofNat', Nat.mod_eq_of_lt (by omega)]
  constructor
  · intro same
    have none : UInt32.ofNat (elapsed p.2 x) + (p.1.tsk.rto - (p.2.armed x.id).expire) =
        UInt32.ofNat (elapsed p.2 x) := UInt32.toNat_inj.mp (same.trans fits.symm)
    grind
  · intro same
    rw [same, UInt32.sub_self, UInt32.add_zero]
    exact fits

theorem rttTimer_mem {x : Timer Handler} (found : x ∈ rttTimer s) : x ∈ s.ts.timers := by
  obtain ⟨i, -, at_⟩ := Option.bind_eq_some_iff.mp found
  exact List.mem_of_find?_eq_some at_

/-- Over every run: some sample is not the time since the timer was armed, or is dropped as negative,
    exactly if `rto` has changed while some timer ran that a sample was read from, or that ran for 2^31
    ticks. -/
theorem rtt_samples_exact {trace : List (Event × Reply)} (run : Run exec (fun _ _ _ => True) {} trace s) :
    Occurs (kept exec noteTime) Mismeasures ({}, {}) trace ↔
      Occurs (kept exec noteTime) RtoChanged ({}, {}) trace := by
  refine Run.occurs_iff Watches ?_ ?_ ?_ (run.keep ({} : Stopwatch))
  · exact ⟨⟨by simp, List.nodup_nil⟩, rfl, by simp, by simp⟩
  · intro _ p e q r inv _ _
    unfold Mismeasures RtoChanged
    refine and_congr_right fun _ => and_congr_right fun _ => ?_
    refine exists_congr fun x => and_congr_right fun found => ?_
    have exact_ := inv.sample (rttTimer_mem found)
    constructor
    · rintro wrong
      by_contra right
      rw [not_or, not_not, Nat.not_le] at right
      have same := exact_.mpr right
      rcases wrong with negative | other
      · omega
      · exact other same
    · intro changed
      refine .inr fun same => ?_
      obtain ⟨rto, small⟩ := exact_.mp same
      rcases changed with other | long
      · exact other rto
      · omega
  · exact fun _ p e q r inv _ _ taken => inv.step taken

/- One byte, acknowledged 50 ticks after it was sent. -/
theorem rtt_samples_exact_one : ∃ trace s, Run exec (fun _ _ _ => True) {} trace s ∧ s.tsk.srtt = 50 ∧
    ¬Occurs (kept exec noteTime) Mismeasures ({}, {}) trace ∧
    (Occurs (kept exec noteTime) Mismeasures ({}, {}) trace ↔
      Occurs (kept exec noteTime) RtoChanged ({}, {}) trace) := by
  obtain ⟨trace, s, run, srtt, right⟩ : ∃ trace s, Run exec (fun _ _ _ => True) {} trace s ∧
      s.tsk.srtt = 50 ∧ ¬Occurs (kept exec noteTime) Mismeasures ({}, {}) trace :=
    Run.exists_of_trace (handshake ++ [.write [1], .tick [], .tick [], .tick [], .tick [], .tick [],
        .segment (peerHdr 5001 1002) []])
      (P := fun trace (s : Conn) => s.tsk.srtt = 50 ∧ ¬Occurs (kept exec noteTime) Mismeasures ({}, {}) trace)
      (by decide +kernel)
  exact ⟨trace, s, run, srtt, right, rtt_samples_exact run⟩

/- The event happens, `tcp_rtt` works out `n` for it when `m` ticks have passed, and that is wrong. -/
def WorksOut (e : Event) (n : Int) (m : Nat) (p : Conn × Stopwatch) : Prop :=
  (exec p.1 e).isSome = true ∧ Mismeasures p e ∧
    ∃ x ∈ rttTimer p.1, rttSample p.1 x = n ∧ elapsed p.2 x = m

instance (e : Event) (n : Int) (m : Nat) (p : Conn × Stopwatch) : Decidable (WorksOut e n m p) :=
  inferInstanceAs (Decidable (_ ∧ _ ∧ ∃ x ∈ rttTimer p.1, _))

/- A flight of three segments: the second ACK finds another `rto` than the first, 30 ticks are taken for
   27. Three bytes acknowledged one by one: after the first sample the next one, of 60 ticks, is negative. -/
theorem rtt_samples_wrong :
    (∃ trace p, Run (kept exec noteTime) (fun _ _ _ => True) ({}, {}) trace p ∧
      WorksOut (.segment (peerHdr 5001 1004) []) 27 30 p) ∧
    ∃ trace p, Run (kept exec noteTime) (fun _ _ _ => True) ({}, {}) trace p ∧
      WorksOut (.segment (peerHdr 5001 1003) []) (-690) 60 p := by
  constructor
  · exact Run.exists_of_follow (handshake ++ [.write [1], .write [2], .write [3], .write [4],
      .tick [], .tick [], .tick [], .tick [], .tick [], .segment (peerHdr 5001 1002) [],
      .tick [], .tick [], .tick [], .segment (peerHdr 5001 1003) []]) (by decide +kernel)
  · exact Run.exists_of_follow (handshake ++ [.write [1, 2, 3],
      .tick [], .tick [], .tick [], .tick [], .tick [], .segment (peerHdr 5001 1002) [], .tick []])
      (by decide +kernel)

end HfIp
