import HfIp.TimerOps
import HfIp.Effects

/- The timer fields of the sock: which timers they hold, and which functions touch which field. -/
namespace HfIp

inductive Slot where
  | retransmit | delack | keepalive | linger
  deriving DecidableEq, Repr

def TcpSock.slot (tsk : TcpSock) : Slot → Option Nat
  | .retransmit => tsk.retransmit
  | .delack => tsk.delack
  | .keepalive => tsk.keepalive
  | .linger => tsk.linger

/- The field that the timers with this handler are kept in. -/
def Handler.slot : Handler → Option Slot
  | .tcpConnectRto | .tcpRetransmissionTimeout => some .retransmit
  | .tcpSendDelack => some .delack
  | .tcpLinger | .tcpUserTimeout => some .linger
  | .socketGarbageCollect => none

/- No field names a timer yet to be allocated, or one with a handler of another field. -/
structure Owned (s : Conn) : Prop where
  fresh : ∀ a ∈ alarms s.ts, a.id < s.ts.next
  below : ∀ c i, s.tsk.slot c = some i → i < s.ts.next
  held : ∀ c, ∀ a ∈ alarms s.ts, s.tsk.slot c = some a.id → a.handler.slot = some c

/-- The timer in the field can still fire. -/
def Ticking (s : Conn) (c : Slot) : Prop := ∃ a ∈ alarms s.ts, s.tsk.slot c = some a.id

/-- A handler of the field has been started and has not yet run. -/
def Started (s : Conn) (c : Slot) : Prop := ∃ t ∈ s.ts.threads, t.handler.slot = some c

/-- Every timer of the sock that can still fire is in one of the fields. -/
def NoOrphans (s : Conn) : Prop :=
  ∀ a ∈ alarms s.ts, a.handler.onSock = true → ∃ c, s.tsk.slot c = some a.id

instance (s : Conn) (c : Slot) : Decidable (Ticking s c) :=
  inferInstanceAs (Decidable (∃ a ∈ alarms s.ts, _))

instance (s : Conn) (c : Slot) : Decidable (Started s c) :=
  inferInstanceAs (Decidable (∃ t ∈ s.ts.threads, _))

/- Only the fields of the list are changed, and the timers in the others are left running. -/
structure TimerFrame (touched : List Slot) (s t : Conn) : Prop where
  owned : Owned s → Owned t
  threads : t.ts.threads = s.ts.threads
  slots : ∀ c ∉ touched, t.tsk.slot c = s.tsk.slot c
  alarms : Owned s → ∀ c ∉ touched, ∀ a ∈ alarms s.ts, s.tsk.slot c = some a.id → a ∈ alarms t.ts

namespace TimerFrame

variable {s t u : Conn} {touched more : List Slot}

theorem of_eq (ts : t.ts = s.ts) (slots : t.tsk.slot = s.tsk.slot) : TimerFrame [] s t := by
  refine ⟨fun own => ⟨?_, ?_, ?_⟩, by rw [ts], fun c _ => by rw [slots], fun _ c _ a member _ => ?_⟩
  · rw [ts]; exact own.fresh
  · rw [ts, slots]; exact own.below
  · rw [ts, slots]; exact own.held
  · rw [ts]; exact member

theorem refl (s : Conn) : TimerFrame [] s s := of_eq rfl rfl

theorem of_same (h : Same s t) : TimerFrame [] s t := by
  refine of_eq h.ts (funext fun c => ?_)
  cases c
  · exact h.retransmit
  · exact h.delack
  · exact h.keepalive
  · exact h.linger

theorem of_minor (h : Minor s t) : TimerFrame [] s t := of_same h.same

theorem trans (first : TimerFrame touched s t) (second : TimerFrame more t u) :
    TimerFrame (touched ++ more) s u := by
  refine ⟨second.owned ∘ first.owned, second.threads.trans first.threads, fun c outside => ?_,
    fun own c outside a member held => ?_⟩
  · rw [List.mem_append, not_or] at outside
    exact (second.slots c outside.2).trans (first.slots c outside.1)
  · rw [List.mem_append, not_or] at outside
    refine second.alarms (first.owned own) c outside.2 a (first.alarms own c outside.1 a member held) ?_
    rw [first.slots c outside.1]
    exact held

theorem after (second : TimerFrame touched t u) (first : TimerFrame [] s t) :
    TimerFrame touched s u := first.trans second

theorem weaken (h : TimerFrame touched s t) (wider : touched ⊆ more) : TimerFrame more s t :=
  ⟨h.owned, h.threads, fun c outside => h.slots c fun member => outside (wider member),
    fun own c outside => h.alarms own c fun member => outside (wider member)⟩

theorem release (c : Slot) (ts : t.ts = timerRelease s.ts (s.tsk.slot c))
    (slots : ∀ d, t.tsk.slot d = if d = c then none else s.tsk.slot d) : TimerFrame [c] s t := by
  have next : t.ts.next = s.ts.next ∧ t.ts.threads = s.ts.threads := by
    rw [ts]
    cases s.tsk.slot c <;> exact ⟨rfl, rfl⟩
  have same : HfIp.alarms t.ts = HfIp.alarms s.ts := by rw [ts, alarms_release]
  refine ⟨fun own => ⟨?_, fun d i held => ?_, fun d a member held => ?_⟩, next.2, fun d outside => ?_,
    fun _ d _ a member _ => by rw [same]; exact member⟩
  · rw [same, next.1]; exact own.fresh
  · rw [slots] at held
    split at held
    · contradiction
    · rw [next.1]; exact own.below d i held
  · rw [slots] at held
    split at held
    · contradiction
    · rw [same] at member
      exact own.held d a member held
  · rw [slots, if_neg (by simpa using outside)]

theorem cancel (c : Slot) (ts : t.ts = timerCancel s.ts (s.tsk.slot c))
    (slots : ∀ d, t.tsk.slot d = if d = c then none else s.tsk.slot d) : TimerFrame [c] s t := by
  have next : t.ts.next = s.ts.next ∧ t.ts.threads = s.ts.threads := by
    rw [ts]
    cases s.tsk.slot c <;> exact ⟨rfl, rfl⟩
  have fewer : HfIp.alarms t.ts = (HfIp.alarms s.ts).filter fun a => some a.id ≠ s.tsk.slot c := by
    rw [ts, alarms_cancel]
  have old : ∀ a ∈ HfIp.alarms t.ts, a ∈ HfIp.alarms s.ts := by
    intro a member
    rw [fewer] at member
    exact (List.mem_filter.mp member).1
  refine ⟨fun own => ⟨fun a member => ?_, fun d i held => ?_, fun d a member held => ?_⟩, next.2,
    fun d outside => ?_, fun own d outside a member held => ?_⟩
  · rw [next.1]; exact own.fresh a (old a member)
  · rw [slots] at held
    split at held
    · contradiction
    · rw [next.1]; exact own.below d i held
  · rw [slots] at held
    split at held
    · contradiction
    · exact own.held d a (old a member) held
  · rw [slots, if_neg (by simpa using outside)]
  · rw [fewer]
    refine List.mem_filter.mpr ⟨member, ?_⟩
    -- two fields with one timer would give its handler two fields
    have apart : some a.id ≠ s.tsk.slot c := by
      intro shared
      have mine := own.held d a member held
      rw [own.held c a member shared.symm] at mine
      exact outside (by simp [Option.some.inj mine])
    simpa using apart

theorem add (c : Slot) (expire : UInt32) (handler : Handler) (keeps : handler.slot = some c)
    (ts : t.ts = (timerAdd s.ts expire handler).1)
    (slots : ∀ d, t.tsk.slot d = if d = c then some s.ts.next else s.tsk.slot d) :
    TimerFrame [c] s t := by
  have next : t.ts.next = s.ts.next + 1 ∧ t.ts.threads = s.ts.threads := by
    rw [ts]
    exact ⟨rfl, rfl⟩
  have grown : HfIp.alarms t.ts
      = HfIp.alarms s.ts ++ [⟨s.ts.next, s.ts.tick + expire, handler⟩] := by
    rw [ts, alarms_add]
  refine ⟨fun own => ⟨fun a member => ?_, fun d i held => ?_, fun d a member held => ?_⟩, next.2,
    fun d outside => ?_, fun _ d _ a member _ => ?_⟩
  · rw [next.1]
    rw [grown] at member
    rcases List.mem_append.mp member with old | new
    · have := own.fresh a old
      omega
    · obtain rfl := List.mem_singleton.mp new
      exact Nat.lt_succ_self _
  · rw [next.1]
    rw [slots] at held
    split at held
    · obtain rfl := Option.some.inj held
      exact Nat.lt_succ_self _
    · have := own.below d i held
      omega
  · rw [slots] at held
    rw [grown] at member
    rcases List.mem_append.mp member with old | new
    · split at held
      · have := own.fresh a old
        have := Option.some.inj held
        omega
      · exact own.held d a old held
    · obtain rfl := List.mem_singleton.mp new
      split at held
      · rename_i this
        rw [this]
        exact keeps
      · have := own.below d _ held
        simp at this
  · rw [slots, if_neg (by simpa using outside)]
  · rw [grown]
    exact List.mem_append_left _ member

theorem still (first : TimerFrame touched s t) (second : TimerFrame [] t u) :
    TimerFrame touched s u := (first.trans second).weaken (by simp)

/- A timer that no field holds. -/
theorem oneshot (expire : UInt32) (handler : Handler) (ts : t.ts = timerOneshot s.ts expire handler)
    (slots : t.tsk.slot = s.tsk.slot) : TimerFrame [] s t := by
  have next : t.ts.next = s.ts.next + 1 ∧ t.ts.threads = s.ts.threads := by
    rw [ts]
    exact ⟨rfl, rfl⟩
  have grown : HfIp.alarms t.ts
      = HfIp.alarms s.ts ++ [⟨s.ts.next, s.ts.tick + expire, handler⟩] := by
    rw [ts, alarms_oneshot]
  refine ⟨fun own => ⟨fun a member => ?_, fun d i held => ?_, fun d a member held => ?_⟩, next.2,
    fun d _ => by rw [slots], fun _ d _ a member _ => ?_⟩
  · rw [next.1]
    rw [grown] at member
    rcases List.mem_append.mp member with old | new
    · have := own.fresh a old
      omega
    · obtain rfl := List.mem_singleton.mp new
      exact Nat.lt_succ_self _
  · rw [next.1]
    rw [slots] at held
    have := own.below d i held
    omega
  · rw [slots] at held
    rw [grown] at member
    rcases List.mem_append.mp member with old | new
    · exact own.held d a old held
    · obtain rfl := List.mem_singleton.mp new
      have := own.below d _ held
      simp at this
  · rw [grown]
    exact List.mem_append_left _ member

theorem ticking {c : Slot} (h : TimerFrame touched s t) (own : Owned s) (outside : c ∉ touched)
    (ticks : Ticking s c) : Ticking t c := by
  obtain ⟨a, member, held⟩ := ticks
  exact ⟨a, h.alarms own c outside a member held, (h.slots c outside).trans held⟩

theorem started {c : Slot} (h : TimerFrame touched s t) (starts : Started s c) : Started t c := by
  obtain ⟨th, member, handler⟩ := starts
  exact ⟨th, h.threads ▸ member, handler⟩

theorem armed {c : Slot} (h : TimerFrame touched s t) (own : Owned s) (outside : c ∉ touched)
    (armed : Ticking s c ∨ Started s c) : Ticking t c ∨ Started t c :=
  armed.imp (h.ticking own outside) h.started

end TimerFrame

variable (s : Conn)

/-! ### The timer functions -/

theorem tcpStopRtoTimer_timers : TimerFrame [.retransmit] s (tcpStopRtoTimer s) :=
  .cancel .retransmit rfl fun d => by cases d <;> rfl
theorem tcpReleaseRtoTimer_timers : TimerFrame [.retransmit] s (tcpReleaseRtoTimer s) :=
  .release .retransmit rfl fun d => by cases d <;> rfl
theorem tcpStopDelackTimer_timers : TimerFrame [.delack] s (tcpStopDelackTimer s) :=
  .cancel .delack rfl fun d => by cases d <;> rfl
theorem tcpReleaseDelackTimer_timers : TimerFrame [.delack] s (tcpReleaseDelackTimer s) :=
  .release .delack rfl fun d => by cases d <;> rfl
theorem stopKeepalive_timers : TimerFrame [.keepalive] s (stopKeepalive s) :=
  .cancel .keepalive rfl fun d => by cases d <;> rfl
theorem stopLinger_timers : TimerFrame [.linger] s (stopLinger s) :=
  .cancel .linger rfl fun d => by cases d <;> rfl
theorem addLinger_timers (expire : UInt32) (h : Handler) (keeps : h.slot = some .linger) :
    TimerFrame [.linger] s (addLinger s expire h) :=
  .add .linger expire h keeps rfl fun d => by cases d <;> rfl
theorem addRetransmit_timers (expire : UInt32) (h : Handler) (keeps : h.slot = some .retransmit) :
    TimerFrame [.retransmit] s (addRetransmit s expire h) :=
  .add .retransmit expire h keeps rfl fun d => by cases d <;> rfl
theorem addDelack_timers : TimerFrame [.delack] s (addDelack s) :=
  .add .delack 200 .tcpSendDelack rfl rfl fun d => by cases d <;> rfl

theorem socketDelete_timers : TimerFrame [] s (socketDelete s) := by
  unfold socketDelete
  split
  · exact .refl s
  · exact .oneshot 10000 .socketGarbageCollect rfl rfl

def allSlots : List Slot := [.retransmit, .delack, .keepalive, .linger]

theorem all_slots (touched : List Slot) : touched ⊆ allSlots := by
  intro c _
  cases c <;> decide

theorem tcpClearTimers_timers : TimerFrame allSlots s (tcpClearTimers s) :=
  (((tcpStopRtoTimer_timers s).trans (tcpStopDelackTimer_timers _)).trans
    (stopKeepalive_timers _)).trans (stopLinger_timers _)

theorem tcpClearQueues_timers : TimerFrame [] s (tcpClearQueues s) :=
  (TimerFrame.of_minor (skbQueueFree_minor s s.tsk.ofoQueue)).trans (.of_eq rfl rfl)

theorem tcpFree_timers : TimerFrame allSlots s (tcpFree s) :=
  ((tcpClearTimers_timers s).trans (tcpClearQueues_timers _)).trans (.of_minor (wakeSleep_minor _))
    |>.weaken (all_slots _)

theorem tcpDone_timers : TimerFrame allSlots s (tcpDone s) := by
  have marked : TimerFrame [] s (setState { s with ended := true } .closing) := .of_eq rfl rfl
  exact ((marked.trans (tcpFree_timers _)).trans (socketDelete_timers _)).weaken (all_slots _)

theorem tcpEnterTimeWait_timers : TimerFrame allSlots s (tcpEnterTimeWait s) := by
  have marked : TimerFrame [] s (setState s .timeWait) := .of_eq rfl rfl
  exact ((marked.trans (tcpClearTimers_timers _)).trans (addLinger_timers _ _ _ rfl)).weaken
    (all_slots _)

theorem tcpRearmUserTimeout_timers : TimerFrame [.linger] s (tcpRearmUserTimeout s) := by
  unfold tcpRearmUserTimeout
  split
  · exact (TimerFrame.refl s).weaken (List.nil_subset _)
  · exact ((stopLinger_timers s).trans (addLinger_timers _ _ _ rfl)).weaken (by simp)

theorem tcpRearmRtoTimer_timers : TimerFrame [.retransmit] s (tcpRearmRtoTimer s) := by
  unfold tcpRearmRtoTimer
  dsimp only
  split
  · exact ((tcpReleaseRtoTimer_timers s).trans (addRetransmit_timers _ _ _ rfl)).weaken (by simp)
  · exact ((tcpReleaseRtoTimer_timers s).trans (addRetransmit_timers _ _ _ rfl)).weaken (by simp)

theorem tcpRtt_timers : TimerFrame [] s (tcpRtt s) := by
  unfold tcpRtt
  split
  · exact .refl s
  · split
    · exact .refl s
    · dsimp only
      split <;> exact .of_eq rfl rfl

theorem tcpHandleFinState_timers : TimerFrame [] s (tcpHandleFinState s) := by
  unfold tcpHandleFinState
  split <;> exact .of_eq rfl rfl

/-! ### The send path -/

/- Past the arming of the timer for an empty queue. -/
theorem tcpQueueTransmitSkb_sends (skb : SkBuff) : TimerFrame []
    (if skbQueueEmpty s.tsk.writeQueue then tcpRearmRtoTimer s else s) (tcpQueueTransmitSkb s skb) := by
  unfold tcpQueueTransmitSkb
  dsimp only
  generalize (if skbQueueEmpty s.tsk.writeQueue then tcpRearmRtoTimer s else s) = t
  split
  · have sent := TimerFrame.of_same (tcpTransmitSkb_same t skb t.tsk.tcb.sndNxt)
    exact sent.still (.of_eq rfl rfl)
  · exact .of_eq rfl rfl

theorem tcpQueueTransmitSkb_timers (skb : SkBuff) :
    TimerFrame [.retransmit] s (tcpQueueTransmitSkb s skb) := by
  refine TimerFrame.still ?_ (tcpQueueTransmitSkb_sends s skb)
  split
  · exact tcpRearmRtoTimer_timers s
  · exact (TimerFrame.refl s).weaken (List.nil_subset _)

theorem tcpSendNext_timers (amount : Nat) : TimerFrame [] s (tcpSendNext s amount) := by
  obtain ⟨nxt, sent, queue, same⟩ := tcpSendNext_touches s amount
  have moved : TimerFrame [] s
    { s with tsk.tcb.sndNxt := nxt, sent := sent, tsk.writeQueue := queue } := .of_eq rfl rfl
  exact moved.still (.of_same same)

theorem tcpCleanRtoQueue_timers (una : UInt32) :
    TimerFrame [.retransmit] s (tcpCleanRtoQueue s una) := by
  obtain ⟨freed, cleaned⟩ := cleanLoop_conn una s s.tsk.writeQueue
  unfold tcpCleanRtoQueue
  dsimp only
  rw [cleaned]
  split
  · exact (tcpStopRtoTimer_timers _).after (.of_eq rfl rfl)
  · exact TimerFrame.weaken (.of_eq rfl rfl) (List.nil_subset _)

theorem retransmitHead_timers (skb : SkBuff) : TimerFrame [] s (retransmitHead s skb) := by
  obtain ⟨queue, same⟩ := retransmitHead_touches s skb
  have moved : TimerFrame [] s { s with tsk.writeQueue := queue } := .of_eq rfl rfl
  exact moved.still (.of_same same)

theorem tcpSendReset_timers : TimerFrame [] s (tcpSendReset s) := by
  unfold tcpSendReset
  dsimp only
  refine TimerFrame.still ?_ (.of_minor (freeSkb_minor _ _))
  exact (TimerFrame.of_same (tcpTransmitSkb_same _ _ _)).after (.of_eq rfl rfl)

theorem retransmissionFailed_timers : TimerFrame [] s (retransmissionFailed s) := .of_eq rfl rfl

theorem retransmissionBackoff_timers : TimerFrame [.retransmit] s (retransmissionBackoff s) :=
  (addRetransmit_timers _ _ _ rfl).after (.of_eq rfl rfl)

/-! ### The receive path -/

theorem tcpDataQueue_timers (skb : SkBuff) : TimerFrame [] s (tcpDataQueue s skb).1 := by
  unfold tcpDataQueue
  split
  · exact .of_minor (freeSkb_minor s skb)
  · split
    · exact .of_eq rfl rfl
    · dsimp only
      refine TimerFrame.still ?_ (.of_minor (tcpSendAck_minor _))
      split
      · exact (TimerFrame.of_minor (tcpCalculateSacks_minor { s with
          tsk.ofoQueue := (tcpDataInsertOrdered s.tsk.ofoQueue skb).1 })).after (.of_eq rfl rfl)
      · exact .of_eq rfl rfl

theorem inputText_timers (th : TcpHdr) (skb : SkBuff) : TimerFrame [] s (inputText s th skb).1 := by
  unfold inputText
  split
  iterate 3 (split; exact tcpDataQueue_timers s skb; exact .refl s)
  exact .refl s

theorem inputFinAcked_timers (th : TcpHdr) : TimerFrame [] s (inputFinAcked s th) := by
  unfold inputFinAcked
  split
  · split
    · exact .of_eq rfl rfl
    · exact .of_eq rfl rfl
    · split
      · exact (TimerFrame.of_minor (tcpSendAck_minor _)).after (.of_eq rfl rfl)
      · exact .refl s
    · exact .refl s
  · exact .refl s

theorem dequeueLoop_timers (room : Nat) (queue : List SkBuff) :
    TimerFrame [] s (dequeueLoop s room queue).1 := by
  induction queue generalizing s room with
  | nil => exact .refl s
  | cons skb rest ih =>
    rw [dequeueLoop]
    split
    · exact .refl s
    · dsimp only
      split
      · refine (ih _ _).after ((TimerFrame.of_minor (freeSkb_minor _ _)).after ?_)
        split
        · exact .of_eq rfl rfl
        · exact .refl s
      · exact .refl s

theorem tcpDataDequeue_timers (userlen : Nat) : TimerFrame [] s (tcpDataDequeue s userlen).1 := by
  unfold tcpDataDequeue
  have loop := dequeueLoop_timers s userlen s.tsk.receiveQueue
  dsimp only
  split <;> exact loop.still (.of_eq rfl rfl)

theorem receiveReturn_timers (rlen : Int) : TimerFrame [.linger] s (receiveReturn s rlen).1 := by
  unfold receiveReturn
  dsimp only
  split
  · exact tcpRearmUserTimeout_timers s
  · exact (TimerFrame.refl s).weaken (List.nil_subset _)

theorem receiveLoop_timers (len rlen : Nat) : TimerFrame [.linger] s (receiveLoop s len rlen).1 := by
  unfold receiveLoop
  have dequeue := tcpDataDequeue_timers s (len - rlen)
  dsimp only
  split
  · split
    · exact (receiveReturn_timers _ _).after (dequeue.still (.of_eq rfl rfl))
    · split
      · exact (receiveReturn_timers _ _).after dequeue
      · split
        · exact (receiveReturn_timers _ _).after dequeue
        · exact TimerFrame.weaken (dequeue.still (.of_eq rfl rfl)) (List.nil_subset _)
  · exact receiveReturn_timers s _

theorem tcpRead_timers (len : Nat) : TimerFrame [.linger] s (tcpRead s len).1 := by
  unfold tcpRead
  split
  · exact (TimerFrame.refl s).weaken (List.nil_subset _)
  · split
    · exact TimerFrame.weaken (.of_eq rfl rfl) (List.nil_subset _)
    · exact receiveLoop_timers s len 0
  iterate 3 exact (TimerFrame.refl s).weaken (List.nil_subset _)
  exact receiveLoop_timers s len 0

theorem tcpSendLoop_timers (mss fuel : Nat) (buf : List UInt8) :
    TimerFrame [.retransmit] s (tcpSendLoop mss fuel s buf) := by
  induction fuel generalizing s buf with
  | zero => exact (TimerFrame.refl s).weaken (List.nil_subset _)
  | succ fuel ih =>
    rw [tcpSendLoop]
    split
    · exact (TimerFrame.refl s).weaken (List.nil_subset _)
    · have allocated : TimerFrame [] s (tcpAllocSkb s 0 (buf.take mss)).1 := .of_eq rfl rfl
      exact ((allocated.trans (tcpQueueTransmitSkb_timers _ _)).trans (ih _ _)).weaken (by simp)

theorem tcpSend_timers (buf : List UInt8) :
    TimerFrame [.retransmit, .linger] s (tcpSend s buf) := by
  have taken : TimerFrame [] s { s with accepted := s.accepted ++ buf } := .of_eq rfl rfl
  exact (taken.trans (tcpSendLoop_timers _ s.tsk.smss.toNat buf.length buf)).trans
    (tcpRearmUserTimeout_timers _)

theorem tcpWrite_timers (buf : List UInt8) :
    TimerFrame [.retransmit, .linger] s (tcpWrite s buf).1 := by
  unfold tcpWrite
  split
  · exact (TimerFrame.refl s).weaken (List.nil_subset _)
  · split
    · exact tcpSend_timers s buf
    · exact tcpSend_timers s buf
    · exact (TimerFrame.refl s).weaken (List.nil_subset _)

theorem tcpQueueFin_timers : TimerFrame [.retransmit] s (tcpQueueFin s) := by
  unfold tcpQueueFin
  exact (tcpQueueTransmitSkb_timers _ _).after (.of_eq rfl rfl)

end HfIp
