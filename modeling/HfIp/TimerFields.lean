import HfIp.SendTimer

/- The fields as the owners of the timers: what leaves no running timer of the sock outside them. A
   timer is forgotten when a field that holds it is released or overwritten while it still runs. -/
namespace HfIp

variable {s t u : Conn} {armed more : List Slot}

theorem Handler.onSock_of_slot {h : Handler} {c : Slot} (keeps : h.slot = some c) :
    h.onSock = true := by
  cases h <;> first
    | rfl
    | cases keeps

/- A running timer that a field held is still held or stopped; only the fields of the list can have
   come to hold a running timer, and only `tcp_done` sets the garbage collector going. -/
structure Tidy (armed : List Slot) (s t : Conn) : Prop where
  frame : TimerFrame allSlots s t
  orphans : NoOrphans s → NoOrphans t
  quiet : Owned s → ∀ c ∉ armed, Ticking t c → Ticking s c
  ended : Ended s → Ended t
  freed : t.sock.skFreed = s.sock.skFreed
  collector : ∀ a ∈ alarms t.ts, a.handler.onSock = false → a ∈ alarms s.ts ∨ Ended t

namespace Tidy

theorem of_eq (ts : t.ts = s.ts) (slots : t.tsk.slot = s.tsk.slot) (ended : t.ended = s.ended)
    (freed : t.sock.skFreed = s.sock.skFreed) : Tidy [] s t := by
  refine ⟨(TimerFrame.of_eq ts slots).weaken (all_slots _), ?_, ?_, fun h => ended.trans h, freed, ?_⟩
  · unfold NoOrphans
    rw [ts, slots]
    exact id
  · unfold Ticking
    rw [ts, slots]
    exact fun _ _ _ => id
  · rw [ts]
    exact fun a member _ => .inl member

theorem refl (s : Conn) : Tidy [] s s := of_eq rfl rfl rfl rfl

theorem of_same (h : Same s t) : Tidy [] s t := by
  refine of_eq h.ts (funext fun c => ?_) h.ended h.skFreed
  cases c
  · exact h.retransmit
  · exact h.delack
  · exact h.keepalive
  · exact h.linger

theorem of_minor (h : Minor s t) : Tidy [] s t := of_same h.same

theorem trans (first : Tidy armed s t) (second : Tidy more t u) : Tidy (armed ++ more) s u := by
  refine ⟨(first.frame.trans second.frame).weaken (all_slots _), second.orphans ∘ first.orphans,
    fun own c outside ticks => ?_, second.ended ∘ first.ended,
    second.freed.trans first.freed, fun a member gc => ?_⟩
  · rw [List.mem_append, not_or] at outside
    exact first.quiet own c outside.1 (second.quiet (first.frame.owned own) c outside.2 ticks)
  · rcases second.collector a member gc with before | ended
    · rcases first.collector a before gc with earlier | ended
      · exact .inl earlier
      · exact .inr (second.ended ended)
    · exact .inr ended

theorem weaken (h : Tidy armed s t) (wider : armed ⊆ more) : Tidy more s t :=
  { h with quiet := fun own c outside => h.quiet own c fun member => outside (wider member) }

theorem still (first : Tidy armed s t) (second : Tidy [] t u) : Tidy armed s u :=
  (first.trans second).weaken (by simp)

theorem after (second : Tidy armed t u) (first : Tidy [] s t) : Tidy armed s u := first.trans second

theorem idle (h : Tidy [] s t) (own : Owned s) {c : Slot} (quiet : ¬Ticking s c) : ¬Ticking t c :=
  fun ticks => quiet (h.quiet own c (by simp) ticks)

theorem cancel (c : Slot) (ts : t.ts = timerCancel s.ts (s.tsk.slot c))
    (slots : ∀ d, t.tsk.slot d = if d = c then none else s.tsk.slot d) (ended : t.ended = s.ended)
    (freed : t.sock.skFreed = s.sock.skFreed) : Tidy [] s t := by
  have fewer : ∀ a ∈ alarms t.ts, a ∈ alarms s.ts ∧ some a.id ≠ s.tsk.slot c := by
    intro a member
    rw [ts, alarms_cancel] at member
    simpa using List.mem_filter.mp member
  refine ⟨(TimerFrame.cancel c ts slots).weaken (all_slots _), fun kept a member onSock => ?_,
    fun _ d _ ⟨a, member, held⟩ => ?_, fun h => ended.trans h, freed,
    fun a member _ => .inl (fewer a member).1⟩
  · obtain ⟨old, apart⟩ := fewer a member
    obtain ⟨d, held⟩ := kept a old onSock
    refine ⟨d, ?_⟩
    rw [slots, if_neg ?_]
    · exact held
    · rintro rfl
      exact apart held.symm
  · rw [slots] at held
    split at held
    · cases held
    · exact ⟨a, (fewer a member).1, held⟩

/- Releasing a timer is harmless when it no longer runs. -/
theorem release (c : Slot) (still : ¬Ticking s c) (ts : t.ts = timerRelease s.ts (s.tsk.slot c))
    (slots : ∀ d, t.tsk.slot d = if d = c then none else s.tsk.slot d) (ended : t.ended = s.ended)
    (freed : t.sock.skFreed = s.sock.skFreed) : Tidy [] s t := by
  have same : alarms t.ts = alarms s.ts := by rw [ts, alarms_release]
  refine ⟨(TimerFrame.release c ts slots).weaken (all_slots _), fun kept a member onSock => ?_,
    fun _ d _ ⟨a, member, held⟩ => ?_, fun h => ended.trans h, freed, fun a member _ => ?_⟩
  · rw [same] at member
    obtain ⟨d, held⟩ := kept a member onSock
    refine ⟨d, ?_⟩
    rw [slots, if_neg ?_]
    · exact held
    · rintro rfl
      exact still ⟨a, member, held⟩
  · rw [same] at member
    rw [slots] at held
    split at held
    · cases held
    · exact ⟨a, member, held⟩
  · rw [same] at member
    exact .inl member

/- And so is setting a field anew. -/
theorem add (c : Slot) (still : ¬Ticking s c) (expire : UInt32) (handler : Handler)
    (keeps : handler.slot = some c) (ts : t.ts = (timerAdd s.ts expire handler).1)
    (slots : ∀ d, t.tsk.slot d = if d = c then some s.ts.next else s.tsk.slot d)
    (ended : t.ended = s.ended) (freed : t.sock.skFreed = s.sock.skFreed) : Tidy [c] s t := by
  have grown : ∀ a ∈ alarms t.ts,
      a ∈ alarms s.ts ∨ a = ⟨s.ts.next, s.ts.tick + expire, handler⟩ := by
    intro a member
    rw [ts, alarms_add] at member
    simpa using member
  refine ⟨(TimerFrame.add c expire handler keeps ts slots).weaken (all_slots _),
    fun kept a member onSock => ?_, fun own d outside ⟨a, member, held⟩ => ?_, fun h => ended.trans h,
    freed, fun a member gc => ?_⟩
  · rcases grown a member with old | rfl
    · obtain ⟨d, held⟩ := kept a old onSock
      refine ⟨d, ?_⟩
      rw [slots, if_neg ?_]
      · exact held
      · rintro rfl
        exact still ⟨a, old, held⟩
    · exact ⟨c, by rw [slots, if_pos rfl]⟩
  · rw [slots, if_neg (by simpa using outside)] at held
    rcases grown a member with old | rfl
    · exact ⟨a, old, held⟩
    · have below := own.below d _ held
      simp at below
  · rcases grown a member with old | rfl
    · exact .inl old
    · rw [Handler.onSock_of_slot keeps] at gc
      cases gc

end Tidy

/-! ### The timer functions -/

theorem tcpStopRtoTimer_tidy (s : Conn) : Tidy [] s (tcpStopRtoTimer s) :=
  .cancel .retransmit rfl (fun d => by cases d <;> rfl) rfl rfl
theorem tcpStopDelackTimer_tidy (s : Conn) : Tidy [] s (tcpStopDelackTimer s) :=
  .cancel .delack rfl (fun d => by cases d <;> rfl) rfl rfl
theorem stopKeepalive_tidy (s : Conn) : Tidy [] s (stopKeepalive s) :=
  .cancel .keepalive rfl (fun d => by cases d <;> rfl) rfl rfl
theorem stopLinger_tidy (s : Conn) : Tidy [] s (stopLinger s) :=
  .cancel .linger rfl (fun d => by cases d <;> rfl) rfl rfl
theorem tcpReleaseRtoTimer_tidy (still : ¬Ticking s .retransmit) :
    Tidy [] s (tcpReleaseRtoTimer s) :=
  .release .retransmit still rfl (fun d => by cases d <;> rfl) rfl rfl
theorem tcpReleaseDelackTimer_tidy (still : ¬Ticking s .delack) :
    Tidy [] s (tcpReleaseDelackTimer s) :=
  .release .delack still rfl (fun d => by cases d <;> rfl) rfl rfl
theorem addLinger_tidy (still : ¬Ticking s .linger) (expire : UInt32) (h : Handler)
    (keeps : h.slot = some .linger) : Tidy [.linger] s (addLinger s expire h) :=
  .add .linger still expire h keeps rfl (fun d => by cases d <;> rfl) rfl rfl
theorem addRetransmit_tidy (still : ¬Ticking s .retransmit) (expire : UInt32) (h : Handler)
    (keeps : h.slot = some .retransmit) : Tidy [.retransmit] s (addRetransmit s expire h) :=
  .add .retransmit still expire h keeps rfl (fun d => by cases d <;> rfl) rfl rfl
theorem addDelack_tidy (still : ¬Ticking s .delack) : Tidy [.delack] s (addDelack s) :=
  .add .delack still 200 .tcpSendDelack rfl rfl (fun d => by cases d <;> rfl) rfl rfl

theorem not_ticking_of_none {c : Slot} (none : s.tsk.slot c = none) : ¬Ticking s c := by
  rintro ⟨a, -, held⟩
  rw [none] at held
  cases held

theorem tcpClearTimers_tidy (s : Conn) : Tidy [] s (tcpClearTimers s) :=
  (((tcpStopRtoTimer_tidy s).trans (tcpStopDelackTimer_tidy _)).trans
    (stopKeepalive_tidy _)).trans (stopLinger_tidy _)

theorem tcpClearTimers_slots (s : Conn) (c : Slot) : (tcpClearTimers s).tsk.slot c = none := by
  cases c <;> rfl

/- The one-shot timer of `socket_delete` is set when `tcp_done` runs. -/
theorem socketDelete_tidy (ended : Ended s) : Tidy [] s (socketDelete s) := by
  have frame := (socketDelete_timers s).weaken (all_slots _)
  unfold socketDelete at frame ⊢
  split
  · exact .refl s
  · rename_i begun
    rw [if_neg begun] at frame
    have grown : ∀ a ∈ alarms (timerOneshot s.ts 10000 .socketGarbageCollect), a ∈ alarms s.ts ∨
        a = ⟨s.ts.next, s.ts.tick + 10000, .socketGarbageCollect⟩ := by
      intro a member
      rw [alarms_oneshot] at member
      simpa using member
    refine ⟨frame, fun kept a member onSock => ?_, fun own c _ ⟨a, member, held⟩ => ?_, id, rfl,
      fun _ _ _ => .inr ended⟩
    · rcases grown a member with old | rfl
      · exact kept a old onSock
      · cases onSock
    · rcases grown a member with old | rfl
      · exact ⟨a, old, held⟩
      · have below := own.below c _ held
        simp at below

theorem tcpFree_tidy (s : Conn) : Tidy [] s (tcpFree s) := by
  have emptied : Tidy [] (tcpClearTimers s) (tcpClearQueues (tcpClearTimers s)) :=
    (Tidy.of_minor (skbQueueFree_minor _ _)).trans (.of_eq rfl rfl rfl rfl)
  exact ((tcpClearTimers_tidy s).trans emptied).trans (.of_minor (wakeSleep_minor _))

theorem tcpFree_slots (s : Conn) (c : Slot) : (tcpFree s).tsk.slot c = none := by
  have cleared := tcpClearTimers_slots s c
  unfold tcpFree tcpClearQueues
  generalize tcpClearTimers s = t at cleared
  obtain ⟨freed, eq⟩ := skbQueueFree_eq t t.tsk.ofoQueue
  rw [eq]
  cases c <;> exact cleared

theorem tcpDone_tidy (s : Conn) : Tidy [] s (tcpDone s) := by
  have frame : TimerFrame [] s (setState { s with ended := true } .closing) := .of_eq rfl rfl
  have marked : Tidy [] s (setState { s with ended := true } .closing) :=
    ⟨frame.weaken (all_slots _), id, fun _ _ _ => id, fun _ => rfl, rfl,
      fun _ member _ => .inl member⟩
  have freed := tcpFree_tidy (setState { s with ended := true } .closing)
  exact (marked.trans freed).trans (socketDelete_tidy (freed.ended rfl))

theorem tcpDone_slots (s : Conn) (c : Slot) : (tcpDone s).tsk.slot c = none := by
  have freed := tcpFree_slots (setState { s with ended := true } .closing) c
  unfold tcpDone socketDelete
  split
  · exact freed
  · cases c <;> exact freed

theorem tcpEnterTimeWait_tidy (s : Conn) : Tidy [.linger] s (tcpEnterTimeWait s) := by
  have marked : Tidy [] s (setState s .timeWait) := .of_eq rfl rfl rfl rfl
  exact (addLinger_tidy (not_ticking_of_none (tcpClearTimers_slots _ .linger)) _ _ rfl).after
    (marked.trans (tcpClearTimers_tidy _))

theorem tcpRearmUserTimeout_tidy (s : Conn) : Tidy [.linger] s (tcpRearmUserTimeout s) := by
  unfold tcpRearmUserTimeout
  split
  · exact (Tidy.refl s).weaken (List.nil_subset _)
  · exact (addLinger_tidy (not_ticking_of_none rfl) _ _ rfl).after (stopLinger_tidy s)

/- The retransmission timer is released, not stopped, before it is set anew. -/
theorem tcpRearmRtoTimer_tidy (still : ¬Ticking s .retransmit) :
    Tidy [.retransmit] s (tcpRearmRtoTimer s) := by
  unfold tcpRearmRtoTimer
  dsimp only
  have released := tcpReleaseRtoTimer_tidy still
  have none : ¬Ticking (tcpReleaseRtoTimer s) .retransmit := not_ticking_of_none rfl
  split
  · exact (addRetransmit_tidy none _ _ rfl).after released
  · exact (addRetransmit_tidy none _ _ rfl).after released

theorem tcpRtt_tidy (s : Conn) : Tidy [] s (tcpRtt s) := by
  unfold tcpRtt
  split
  · exact .refl s
  · split
    · exact .refl s
    · dsimp only
      split <;> exact .of_eq rfl rfl rfl rfl

theorem tcpHandleFinState_tidy (s : Conn) : Tidy [] s (tcpHandleFinState s) := by
  unfold tcpHandleFinState
  split <;> exact .of_eq rfl rfl rfl rfl

/-! ### The send path -/

theorem tcpQueueTransmitSkb_tidy (skb : SkBuff)
    (still : s.tsk.writeQueue = [] → ¬Ticking s .retransmit) :
    Tidy [.retransmit] s (tcpQueueTransmitSkb s skb) := by
  have set : Tidy [.retransmit] s (if skbQueueEmpty s.tsk.writeQueue then tcpRearmRtoTimer s else s) := by
    split
    · rename_i empty
      exact tcpRearmRtoTimer_tidy (still (by simpa [skbQueueEmpty] using empty))
    · exact (Tidy.refl s).weaken (List.nil_subset _)
  unfold tcpQueueTransmitSkb
  dsimp only
  generalize (if skbQueueEmpty s.tsk.writeQueue then tcpRearmRtoTimer s else s) = t at set
  refine set.still ?_
  split
  · have sent := Tidy.of_same (tcpTransmitSkb_same t skb t.tsk.tcb.sndNxt)
    exact sent.still (.of_eq rfl rfl rfl rfl)
  · exact .of_eq rfl rfl rfl rfl

theorem tcpSendNext_tidy (s : Conn) (amount : Nat) : Tidy [] s (tcpSendNext s amount) := by
  obtain ⟨nxt, sent, queue, same⟩ := tcpSendNext_touches s amount
  have moved : Tidy [] s
    { s with tsk.tcb.sndNxt := nxt, sent := sent, tsk.writeQueue := queue } := .of_eq rfl rfl rfl rfl
  exact moved.still (.of_same same)

theorem retransmitHead_tidy (s : Conn) (skb : SkBuff) : Tidy [] s (retransmitHead s skb) := by
  obtain ⟨queue, same⟩ := retransmitHead_touches s skb
  have moved : Tidy [] s { s with tsk.writeQueue := queue } := .of_eq rfl rfl rfl rfl
  exact moved.still (.of_same same)

theorem tcpSendReset_tidy (s : Conn) : Tidy [] s (tcpSendReset s) := by
  unfold tcpSendReset
  dsimp only
  refine Tidy.still ?_ (.of_minor (freeSkb_minor _ _))
  exact (Tidy.of_same (tcpTransmitSkb_same _ _ _)).after (.of_eq rfl rfl rfl rfl)

theorem tcpAbort_tidy (s : Conn) : Tidy [] s (tcpAbort s) :=
  (tcpSendReset_tidy s).trans (tcpDone_tidy _)

/-! ### The receive path -/

theorem tcpCleanRtoQueue_tidy (s : Conn) (una : UInt32) : Tidy [] s (tcpCleanRtoQueue s una) := by
  obtain ⟨freed, cleaned⟩ := cleanLoop_conn una s s.tsk.writeQueue
  unfold tcpCleanRtoQueue
  dsimp only
  rw [cleaned]
  split
  · exact (tcpStopRtoTimer_tidy _).after (.of_eq rfl rfl rfl rfl)
  · exact .of_eq rfl rfl rfl rfl

theorem inputNewAck_tidy (s : Conn) (th : TcpHdr) : Tidy [] s (inputNewAck s th).1 := by
  rw [inputNewAck_fst]
  split
  · have moved : Tidy [] s { s with tsk.tcb.sndUna := th.ackSeq } := .of_eq rfl rfl rfl rfl
    exact (moved.trans (tcpRtt_tidy _)).trans (tcpCleanRtoQueue_tidy _ _)
  · exact .refl s

theorem inputAck_tidy (s : Conn) (th : TcpHdr) : Tidy [] s (inputAck s th).1 := by
  unfold inputAck
  split
  · split
    · have opened : Tidy [] s (setState s .established) := .of_eq rfl rfl rfl rfl
      exact opened.trans (inputNewAck_tidy _ th)
    · exact .refl s
  iterate 6 exact inputNewAck_tidy s th
  exact .refl s

theorem inputFinAcked_tidy (s : Conn) (th : TcpHdr) : Tidy [] s (inputFinAcked s th) := by
  unfold inputFinAcked
  split
  · split
    · exact .of_eq rfl rfl rfl rfl
    · exact .of_eq rfl rfl rfl rfl
    · split
      · exact (Tidy.of_minor (tcpSendAck_minor _)).after (.of_eq rfl rfl rfl rfl)
      · exact .refl s
    · exact .refl s
  · exact .refl s

theorem tcpDataQueue_tidy (s : Conn) (skb : SkBuff) : Tidy [] s (tcpDataQueue s skb).1 := by
  unfold tcpDataQueue
  split
  · exact .of_minor (freeSkb_minor s skb)
  · split
    · exact .of_eq rfl rfl rfl rfl
    · dsimp only
      refine Tidy.still ?_ (.of_minor (tcpSendAck_minor _))
      split
      · exact (Tidy.of_minor (tcpCalculateSacks_minor { s with
          tsk.ofoQueue := (tcpDataInsertOrdered s.tsk.ofoQueue skb).1 })).after (.of_eq rfl rfl rfl rfl)
      · exact .of_eq rfl rfl rfl rfl

theorem inputText_tidy (s : Conn) (th : TcpHdr) (skb : SkBuff) :
    Tidy [] s (inputText s th skb).1 := by
  unfold inputText
  split
  iterate 3 (split; exact tcpDataQueue_tidy s skb; exact .refl s)
  exact .refl s

/- What a FIN does before the state is looked at. -/
theorem finTaken_tidy (s : Conn) : Tidy [] s (recvNotify (tcpSendAck (pollReadable { s with
    tsk.tcb.rcvNxt := s.tsk.tcb.rcvNxt + 1, tsk.flags := s.tsk.flags ||| TCP_FIN }))) := by
  have taken : Tidy [] s { s with
    tsk.tcb.rcvNxt := s.tsk.tcb.rcvNxt + 1, tsk.flags := s.tsk.flags ||| TCP_FIN } := .of_eq rfl rfl rfl rfl
  exact taken.trans (.of_minor (((pollReadable_minor _).trans (tcpSendAck_minor _)).trans
    (recvNotify_minor _)))

theorem inputFin_tidy (s : Conn) : Tidy [.linger] s (inputFin s) := by
  have taken := finTaken_tidy s
  unfold inputFin
  dsimp only
  generalize recvNotify (tcpSendAck (pollReadable { s with
    tsk.tcb.rcvNxt := s.tsk.tcb.rcvNxt + 1, tsk.flags := s.tsk.flags ||| TCP_FIN })) = u at taken
  refine Tidy.after ?_ taken
  split
  · exact Tidy.weaken (.of_eq rfl rfl rfl rfl) (List.nil_subset _)
  · exact Tidy.weaken (.of_eq rfl rfl rfl rfl) (List.nil_subset _)
  · split
    · exact tcpEnterTimeWait_tidy u
    · exact Tidy.weaken (.of_eq rfl rfl rfl rfl) (List.nil_subset _)
  · exact tcpEnterTimeWait_tidy u
  · exact (Tidy.refl u).weaken (List.nil_subset _)

/- The retransmission timer is set only when something waits in the queue. -/
theorem inputDelack_tidy (th : TcpHdr) (skb : SkBuff) (own : Owned s)
    (still : s.tsk.inflight = 0 → s.tsk.writeQueue ≠ [] → ¬Ticking s .retransmit) :
    ∃ armed, Tidy armed s (inputDelack s th skb) ∧
      (.retransmit ∈ armed → s.tsk.writeQueue ≠ []) := by
  have stopped := tcpStopDelackTimer_tidy s
  have none : ¬Ticking (tcpStopDelackTimer s) .delack := not_ticking_of_none rfl
  have still' : (tcpStopDelackTimer s).tsk.inflight = 0 →
      (tcpStopDelackTimer s).tsk.writeQueue ≠ [] → ¬Ticking (tcpStopDelackTimer s) .retransmit :=
    fun idle some_left => stopped.idle own (still idle some_left)
  have own' := stopped.frame.owned own
  have queue : (tcpStopDelackTimer s).tsk.writeQueue = s.tsk.writeQueue := rfl
  unfold inputDelack
  generalize tcpStopDelackTimer s = u at stopped none still' own' queue
  dsimp only
  split
  · rename_i sends
    have some_left : u.tsk.writeQueue ≠ [] := by
      intro empty
      simp [empty] at sends
    have next := tcpSendNext_tidy u (min u.tsk.writeQueue.length 3)
    have counted : Tidy [] u { tcpSendNext u (min u.tsk.writeQueue.length 3) with
        tsk.inflight := (tcpSendNext u (min u.tsk.writeQueue.length 3)).tsk.inflight +
          min u.tsk.writeQueue.length 3 } := next.still (.of_eq rfl rfl rfl rfl)
    have idle := counted.idle own' (still' sends.1 some_left)
    exact ⟨_, ((tcpRearmRtoTimer_tidy idle).after counted).after stopped, fun _ => queue ▸ some_left⟩
  · have counted : Tidy [] u (countDelack u (!th.psh && decide (1000 < skb.dlen))) := by
      unfold countDelack
      split
      · exact .of_eq rfl rfl rfl rfl
      · exact .refl u
    have idle := counted.idle own' none
    refine ⟨[.delack], Tidy.after (Tidy.after ?_ counted) stopped, by simp⟩
    generalize countDelack u (!th.psh && decide (1000 < skb.dlen)) = v at idle
    split
    · have reset : Tidy [] v { v with tsk.delacks := 0 } := .of_eq rfl rfl rfl rfl
      exact (reset.trans (.of_minor (tcpSendAck_minor _))).weaken (List.nil_subset _)
    · split
      · exact addDelack_tidy idle
      · exact (Tidy.refl v).weaken (List.nil_subset _)

theorem dequeueLoop_tidy (s : Conn) (room : Nat) (queue : List SkBuff) :
    Tidy [] s (dequeueLoop s room queue).1 := by
  obtain ⟨freed, flags, eq⟩ := dequeueLoop_touches s room queue
  rw [eq]
  exact .of_eq rfl rfl rfl rfl

theorem tcpDataDequeue_tidy (s : Conn) (userlen : Nat) : Tidy [] s (tcpDataDequeue s userlen).1 := by
  unfold tcpDataDequeue
  have loop := dequeueLoop_tidy s userlen s.tsk.receiveQueue
  dsimp only
  split <;> exact loop.still (.of_eq rfl rfl rfl rfl)

theorem receiveReturn_tidy (s : Conn) (rlen : Int) : Tidy [.linger] s (receiveReturn s rlen).1 := by
  unfold receiveReturn
  dsimp only
  split
  · exact tcpRearmUserTimeout_tidy s
  · exact (Tidy.refl s).weaken (List.nil_subset _)

theorem receiveLoop_tidy (s : Conn) (len rlen : Nat) :
    Tidy [.linger] s (receiveLoop s len rlen).1 := by
  unfold receiveLoop
  have dequeue := tcpDataDequeue_tidy s (len - rlen)
  dsimp only
  split
  · split
    · exact (receiveReturn_tidy _ _).after (dequeue.still (.of_eq rfl rfl rfl rfl))
    · split
      · exact (receiveReturn_tidy _ _).after dequeue
      · split
        · exact (receiveReturn_tidy _ _).after dequeue
        · exact Tidy.weaken (dequeue.still (.of_eq rfl rfl rfl rfl)) (List.nil_subset _)
  · exact receiveReturn_tidy s _

end HfIp
