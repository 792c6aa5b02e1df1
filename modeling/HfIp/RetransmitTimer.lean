import HfIp.DyingTimers
import HfIp.RttElapsed

/- How many retransmission timers a connection runs. The handlers of `tsk->retransmit` release the
   timer that the field holds when they get the lock, which need not be the one that started them. -/
namespace HfIp

open Transition

variable {s t u : Conn} {th : TcpHdr} {skb : SkBuff}

/-- The uncancelled timers whose handler is `tcp_connect_rto` or `tcp_retransmission_timeout`. -/
def retransmitTimers (s : Conn) : List (Timer Handler) :=
  s.ts.timers.filter fun x => !x.cancelled && decide (x.handler.slot = some .retransmit)

/-- At most one of them runs; it is the one in the field, and stopping that one stops it. -/
structure OneTimer (s : Conn) : Prop where
  one : (retransmitTimers s).length ≤ 1
  field : ∀ x ∈ retransmitTimers s, s.tsk.retransmit = some x.id
  stops : retransmitTimers (tcpStopRtoTimer s) = []

instance (s : Conn) : Decidable (OneTimer s) :=
  decidable_of_iff ((retransmitTimers s).length ≤ 1 ∧
    (∀ x ∈ retransmitTimers s, s.tsk.retransmit = some x.id) ∧
    retransmitTimers (tcpStopRtoTimer s) = [])
    ⟨fun ⟨a, b, c⟩ => ⟨a, b, c⟩, fun ⟨a, b, c⟩ => ⟨a, b, c⟩⟩

/-- The event releases the timer in the field without stopping it: the handler of a retransmission
    timer gets the lock, or a segment has what waits in the queue sent. -/
def ReleasesTimer (s : Conn) (e : Event) : Prop :=
  SetsAnew s e ∨ match e with
    | .handler i => ∃ h ∈ s.ts.threads[i]?, h.handler.slot = some .retransmit
    | _ => False

instance (s : Conn) (e : Event) : Decidable (ReleasesTimer s e) := by
  unfold ReleasesTimer
  induction e using Event.casesOn <;> infer_instance

/- The alarms of the handlers of the field. -/
def Sounds (s : Conn) (a : Alarm Handler) : Prop :=
  a ∈ alarms s.ts ∧ a.handler.slot = some .retransmit

def InField (s : Conn) : Prop := ∀ a, Sounds s a → s.tsk.retransmit = some a.id

def Stopped (s : Conn) : Prop := ∀ a, ¬Sounds s a

theorem mem_retransmitTimers {x : Timer Handler} :
    x ∈ retransmitTimers s ↔ x ∈ s.ts.timers ∧ x.cancelled = false ∧ x.handler.slot = some .retransmit := by
  simp [retransmitTimers]

theorem sounds_iff {a : Alarm Handler} :
    Sounds s a ↔ ∃ x ∈ retransmitTimers s, x.alarm = a := by
  unfold Sounds alarms alarmsOf
  rw [List.mem_map]
  constructor
  · rintro ⟨⟨x, member, rfl⟩, slot⟩
    obtain ⟨inside, live⟩ := List.mem_filter.mp member
    exact ⟨x, mem_retransmitTimers.mpr ⟨inside, by simpa using live, slot⟩, rfl⟩
  · rintro ⟨x, member, rfl⟩
    obtain ⟨inside, live, slot⟩ := mem_retransmitTimers.mp member
    exact ⟨⟨x, List.mem_filter.mpr ⟨inside, by simp [live]⟩, rfl⟩, slot⟩

theorem stopped_iff : Stopped s ↔ retransmitTimers s = [] := by
  rw [List.eq_nil_iff_forall_not_mem]
  constructor
  · exact fun stopped x member => stopped x.alarm (sounds_iff.mpr ⟨x, member, rfl⟩)
  · intro none a sounds
    obtain ⟨x, member, -⟩ := sounds_iff.mp sounds
    exact none x member

/- A timer that is in the field is the only one when the field holds every one of them. -/
theorem InField.stopped (only : InField s) (still : ¬Ticking s .retransmit) : Stopped s :=
  fun a sounds => still ⟨a, sounds.1, only a sounds⟩

theorem InField.eq (only : InField s) (ts : t.ts = s.ts) (field : t.tsk.retransmit = s.tsk.retransmit) :
    InField t := fun a rings => field.trans (only a ⟨ts ▸ rings.1, rings.2⟩)

theorem tcpStopRtoTimer_stopped (only : InField s) : Stopped (tcpStopRtoTimer s) := by
  intro a ⟨member, slot⟩
  have cancelled : alarms (tcpStopRtoTimer s).ts =
      (alarms s.ts).filter fun a => some a.id ≠ s.tsk.retransmit := alarms_cancel _ _
  rw [cancelled] at member
  obtain ⟨inside, apart⟩ := List.mem_filter.mp member
  exact absurd (only a ⟨inside, slot⟩).symm (by simpa using apart)

theorem InField.oneTimer (only : InField s) (numbered : TimersNumbered s.ts) : OneTimer s where
  one := by
    have same : ∀ x ∈ retransmitTimers s, s.tsk.retransmit = some x.id :=
      fun x member => only x.alarm (sounds_iff.mpr ⟨x, member, rfl⟩)
    have distinct : ((retransmitTimers s).map Timer.id).Nodup :=
      numbered.distinct.sublist (List.filter_sublist.map Timer.id)
    match listed : retransmitTimers s with
    | [] => simp
    | [x] => simp
    | x :: y :: rest =>
      rw [listed] at same distinct
      have shared := (same x (by simp)).symm.trans (same y (by simp))
      simp [Option.some.inj shared] at distinct
  field x member := only x.alarm (sounds_iff.mpr ⟨x, member, rfl⟩)
  stops := stopped_iff.mp (tcpStopRtoTimer_stopped only)

/-! ### Steps that set no retransmission timer -/

/- No retransmission timer has been set, and one that runs has not been taken out of the field; the
   queue has not been emptied. -/
structure RtoFrame (s t : Conn) : Prop where
  sounds : ∀ a, Sounds t a → Sounds s a ∧ (s.tsk.retransmit = some a.id → t.tsk.retransmit = some a.id)
  queue : t.tsk.writeQueue = [] → s.tsk.writeQueue = []
  freed : t.sock.skFreed = s.sock.skFreed

namespace RtoFrame

theorem refl (s : Conn) : RtoFrame s s := ⟨fun _ rings => ⟨rings, id⟩, id, rfl⟩

theorem trans (first : RtoFrame s t) (second : RtoFrame t u) : RtoFrame s u where
  sounds a sounds := by
    obtain ⟨there, kept⟩ := second.sounds a sounds
    obtain ⟨before, kept'⟩ := first.sounds a there
    exact ⟨before, kept ∘ kept'⟩
  queue := first.queue ∘ second.queue
  freed := second.freed.trans first.freed

theorem after (second : RtoFrame t u) (first : RtoFrame s t) : RtoFrame s u := first.trans second

theorem of_alarms (live : ∀ a, Sounds t a → Sounds s a) (field : t.tsk.retransmit = s.tsk.retransmit)
    (queue : t.tsk.writeQueue = [] → s.tsk.writeQueue = []) (freed : t.sock.skFreed = s.sock.skFreed) :
    RtoFrame s t :=
  ⟨fun a sounds => ⟨live a sounds, field.trans⟩, queue, freed⟩

theorem of_eq (ts : t.ts = s.ts) (field : t.tsk.retransmit = s.tsk.retransmit)
    (queue : t.tsk.writeQueue = [] → s.tsk.writeQueue = []) (freed : t.sock.skFreed = s.sock.skFreed) :
    RtoFrame s t :=
  of_alarms (fun _ rings => ⟨ts ▸ rings.1, rings.2⟩) field queue freed

theorem of_same (h : Same s t) : RtoFrame s t :=
  of_eq h.ts h.retransmit (fun empty => h.writeQueue.symm.trans empty) h.skFreed

theorem of_minor (h : Minor s t) : RtoFrame s t := of_same h.same

/- A timer of another field. -/
theorem add (expire : UInt32) (handler : Handler) (other : handler.slot ≠ some .retransmit)
    (ts : t.ts = (timerAdd s.ts expire handler).1) (field : t.tsk.retransmit = s.tsk.retransmit)
    (queue : t.tsk.writeQueue = [] → s.tsk.writeQueue = []) (freed : t.sock.skFreed = s.sock.skFreed) :
    RtoFrame s t := by
  refine of_alarms (fun a ⟨member, slot⟩ => ⟨?_, slot⟩) field queue freed
  rw [ts, alarms_add] at member
  rcases List.mem_append.mp member with old | new
  · exact old
  · obtain rfl := List.mem_singleton.mp new
    exact absurd slot other

theorem release (i : Option Nat) (ts : t.ts = timerRelease s.ts i)
    (field : t.tsk.retransmit = s.tsk.retransmit)
    (queue : t.tsk.writeQueue = [] → s.tsk.writeQueue = []) (freed : t.sock.skFreed = s.sock.skFreed) :
    RtoFrame s t := by
  refine of_alarms (fun a ⟨member, slot⟩ => ⟨?_, slot⟩) field queue freed
  rw [ts, alarms_release] at member
  exact member

theorem cancel (i : Option Nat) (ts : t.ts = timerCancel s.ts i)
    (field : t.tsk.retransmit = s.tsk.retransmit ∨ i = s.tsk.retransmit)
    (queue : t.tsk.writeQueue = [] → s.tsk.writeQueue = []) (freed : t.sock.skFreed = s.sock.skFreed) :
    RtoFrame s t := by
  refine ⟨fun a ⟨member, slot⟩ => ?_, queue, freed⟩
  rw [ts, alarms_cancel] at member
  obtain ⟨inside, apart⟩ := List.mem_filter.mp member
  refine ⟨⟨inside, slot⟩, fun held => ?_⟩
  rcases field with same | this
  · exact same.trans held
  · -- the timer in the field has been stopped
    rw [this, held] at apart
    simp at apart

theorem inField (h : RtoFrame s t) (only : InField s) : InField t := by
  intro a sounds
  obtain ⟨before, kept⟩ := h.sounds a sounds
  exact kept (only a before)

theorem stopped (h : RtoFrame s t) (none : Stopped s) : Stopped t :=
  fun a sounds => none a (h.sounds a sounds).1

end RtoFrame

variable (s : Conn)

theorem tcpStopRtoTimer_rto : RtoFrame s (tcpStopRtoTimer s) := .cancel _ rfl (.inr rfl) id rfl
theorem tcpStopDelackTimer_rto : RtoFrame s (tcpStopDelackTimer s) := .cancel _ rfl (.inl rfl) id rfl
theorem tcpReleaseDelackTimer_rto : RtoFrame s (tcpReleaseDelackTimer s) := .release _ rfl rfl id rfl
theorem stopKeepalive_rto : RtoFrame s (stopKeepalive s) := .cancel _ rfl (.inl rfl) id rfl
theorem stopLinger_rto : RtoFrame s (stopLinger s) := .cancel _ rfl (.inl rfl) id rfl
theorem addDelack_rto : RtoFrame s (addDelack s) := .add _ _ (by decide) rfl rfl id rfl

theorem addLinger_rto (expire : UInt32) (h : Handler) (other : h.slot ≠ some .retransmit) :
    RtoFrame s (addLinger s expire h) := .add _ _ other rfl rfl id rfl

theorem tcpClearTimers_rto : RtoFrame s (tcpClearTimers s) :=
  (((tcpStopRtoTimer_rto s).trans (tcpStopDelackTimer_rto _)).trans (stopKeepalive_rto _)).trans
    (stopLinger_rto _)

theorem socketDelete_rto : RtoFrame s (socketDelete s) := by
  unfold socketDelete
  split
  · exact .refl s
  · refine .of_alarms (fun a ⟨member, slot⟩ => ⟨?_, slot⟩) rfl id rfl
    rw [alarms_oneshot] at member
    rcases List.mem_append.mp member with old | new
    · exact old
    · obtain rfl := List.mem_singleton.mp new
      cases slot

theorem tcpFree_rto : RtoFrame s (tcpFree s) := by
  have emptied : RtoFrame (tcpClearTimers s) (tcpClearQueues (tcpClearTimers s)) :=
    (RtoFrame.of_minor (skbQueueFree_minor _ _)).trans (.of_eq rfl rfl id rfl)
  exact ((tcpClearTimers_rto s).trans emptied).trans (.of_minor (wakeSleep_minor _))

theorem tcpDone_rto : RtoFrame s (tcpDone s) := by
  have marked : RtoFrame s (setState { s with ended := true } .closing) := .of_eq rfl rfl id rfl
  exact (marked.trans (tcpFree_rto _)).trans (socketDelete_rto _)

theorem tcpEnterTimeWait_rto : RtoFrame s (tcpEnterTimeWait s) := by
  have marked : RtoFrame s (setState s .timeWait) := .of_eq rfl rfl id rfl
  exact (marked.trans (tcpClearTimers_rto _)).trans (addLinger_rto _ _ _ (by decide))

theorem tcpRearmUserTimeout_rto : RtoFrame s (tcpRearmUserTimeout s) := by
  unfold tcpRearmUserTimeout
  split
  · exact .refl s
  · exact (stopLinger_rto s).trans (addLinger_rto _ _ _ (by decide))

theorem tcpRtt_rto : RtoFrame s (tcpRtt s) := by
  unfold tcpRtt
  split
  · exact .refl s
  · split
    · exact .refl s
    · dsimp only
      split <;> exact .of_eq rfl rfl id rfl

theorem tcpHandleFinState_rto : RtoFrame s (tcpHandleFinState s) := by
  unfold tcpHandleFinState
  split <;> exact .of_eq rfl rfl id rfl

theorem retransmitHead_rto (k : SkBuff) : RtoFrame s (retransmitHead s k) := by
  obtain ⟨queue, same⟩ := retransmitHead_touches s k
  exact .of_eq same.ts same.retransmit (fun empty => absurd empty (retransmitHead_nonempty s k)) same.skFreed

theorem tcpSendNext_rto (amount : Nat) : RtoFrame s (tcpSendNext s amount) := by
  obtain ⟨nxt, sent, queue, same⟩ := tcpSendNext_touches s amount
  refine .of_eq same.ts same.retransmit (fun empty => ?_) same.skFreed
  have length : (tcpSendNext s amount).tsk.writeQueue.length = s.tsk.writeQueue.length :=
    sendNextLoop_length amount s.tsk.writeQueue
  rw [empty] at length
  exact List.length_eq_zero_iff.mp length.symm

theorem tcpSendReset_rto : RtoFrame s (tcpSendReset s) :=
  (RtoFrame.of_minor (tcpSendReset_minor s)).after (.of_eq rfl rfl id rfl)

theorem tcpAbort_rto : RtoFrame s (tcpAbort s) := (tcpSendReset_rto s).trans (tcpDone_rto _)

theorem tcpDataQueue_rto (skb : SkBuff) : RtoFrame s (tcpDataQueue s skb).1 := by
  unfold tcpDataQueue
  split
  · exact .of_minor (freeSkb_minor s skb)
  · split
    · exact .of_eq rfl rfl id rfl
    · dsimp only
      refine RtoFrame.after (.of_minor (tcpSendAck_minor _)) ?_
      split
      · exact (RtoFrame.of_minor (tcpCalculateSacks_minor { s with
          tsk.ofoQueue := (tcpDataInsertOrdered s.tsk.ofoQueue skb).1 })).after (.of_eq rfl rfl id rfl)
      · exact .of_eq rfl rfl id rfl

theorem inputText_rto (th : TcpHdr) (skb : SkBuff) : RtoFrame s (inputText s th skb).1 := by
  unfold inputText
  split
  iterate 3 (split; exact tcpDataQueue_rto s skb; exact .refl s)
  exact .refl s

theorem inputFinAcked_rto (th : TcpHdr) : RtoFrame s (inputFinAcked s th) := by
  unfold inputFinAcked
  split
  · split
    · exact .of_eq rfl rfl id rfl
    · exact .of_eq rfl rfl id rfl
    · split
      · exact (RtoFrame.of_minor (tcpSendAck_minor _)).after (.of_eq rfl rfl id rfl)
      · exact .refl s
    · exact .refl s
  · exact .refl s

theorem inputFin_rto : RtoFrame s (inputFin s) := by
  have taken : RtoFrame s (recvNotify (tcpSendAck (pollReadable { s with
      tsk.tcb.rcvNxt := s.tsk.tcb.rcvNxt + 1, tsk.flags := s.tsk.flags ||| TCP_FIN }))) :=
    (RtoFrame.of_minor (((pollReadable_minor _).trans (tcpSendAck_minor _)).trans
      (recvNotify_minor _))).after (.of_eq rfl rfl id rfl)
  unfold inputFin
  dsimp only
  generalize recvNotify (tcpSendAck (pollReadable { s with
    tsk.tcb.rcvNxt := s.tsk.tcb.rcvNxt + 1, tsk.flags := s.tsk.flags ||| TCP_FIN })) = u at taken
  refine RtoFrame.after ?_ taken
  split
  · exact .of_eq rfl rfl id rfl
  · exact .of_eq rfl rfl id rfl
  · split
    · exact tcpEnterTimeWait_rto u
    · exact .of_eq rfl rfl id rfl
  · exact tcpEnterTimeWait_rto u
  · exact .refl u

theorem tcpDataDequeue_rto (userlen : Nat) : RtoFrame s (tcpDataDequeue s userlen).1 := by
  obtain ⟨freed, flags, eq⟩ := dequeueLoop_touches s userlen s.tsk.receiveQueue
  unfold tcpDataDequeue
  dsimp only
  rw [eq]
  split <;> exact .of_eq rfl rfl id rfl

theorem receiveReturn_rto (rlen : Int) : RtoFrame s (receiveReturn s rlen).1 := by
  unfold receiveReturn
  dsimp only
  split
  · exact tcpRearmUserTimeout_rto s
  · exact .refl s

theorem receiveLoop_rto (len rlen : Nat) : RtoFrame s (receiveLoop s len rlen).1 := by
  have dequeued := tcpDataDequeue_rto s (len - rlen)
  unfold receiveLoop
  dsimp only
  split
  · split
    · exact (receiveReturn_rto _ _).after (dequeued.trans (.of_eq rfl rfl id rfl))
    · split
      · exact (receiveReturn_rto _ _).after dequeued
      · split
        · exact (receiveReturn_rto _ _).after dequeued
        · exact dequeued.trans (.of_eq rfl rfl id rfl)
  · exact receiveReturn_rto s _

theorem tcpRead_rto (len : Nat) : RtoFrame s (tcpRead s len).1 := by
  unfold tcpRead
  split
  · exact .refl s
  · split
    · exact .of_eq rfl rfl id rfl
    · exact receiveLoop_rto s len 0
  iterate 3 exact .refl s
  exact receiveLoop_rto s len 0

/-! ### While the sock is there -/

/- Every retransmission timer that runs is in the field, and none does while the queue is empty. -/
structure Watched (s : Conn) : Prop where
  live : s.sock.skFreed = false
  only : InField s
  idle : s.tsk.writeQueue = [] → Stopped s

variable {s}

namespace Watched

theorem stay (h : Watched s) (frame : RtoFrame s t) : Watched t :=
  ⟨frame.freed.trans h.live, frame.inField h.only, fun empty => frame.stopped (h.idle (frame.queue empty))⟩

theorem eq (h : Watched s) (ts : t.ts = s.ts) (field : t.tsk.retransmit = s.tsk.retransmit)
    (queue : t.tsk.writeQueue = [] → s.tsk.writeQueue = []) (freed : t.sock.skFreed = s.sock.skFreed) :
    Watched t := h.stay (.of_eq ts field queue freed)

theorem minor (h : Watched s) (same : Minor s t) : Watched t := h.stay (.of_minor same)

theorem done (h : Watched s) : Watched (tcpDone s) := h.stay (tcpDone_rto s)

end Watched

theorem tcpReleaseRtoTimer_rto (none : Stopped s) : RtoFrame s (tcpReleaseRtoTimer s) where
  sounds a rings := by
    have same : alarms (tcpReleaseRtoTimer s).ts = alarms s.ts := alarms_release _ _
    exact absurd ⟨same ▸ rings.1, rings.2⟩ (none a)
  queue := id
  freed := rfl

theorem addRetransmit_inField (none : Stopped s) (expire : UInt32) (h : Handler) :
    InField (addRetransmit s expire h) := by
  intro a ⟨member, slot⟩
  have grown : alarms (addRetransmit s expire h).ts =
      alarms s.ts ++ [⟨s.ts.next, s.ts.tick + expire, h⟩] := alarms_add _ _ _
  rw [grown] at member
  rcases List.mem_append.mp member with old | new
  · exact absurd ⟨old, slot⟩ (none a)
  · obtain rfl := List.mem_singleton.mp new
    rfl

theorem tcpRearmRtoTimer_inField (none : Stopped s) : InField (tcpRearmRtoTimer s) := by
  have released := (tcpReleaseRtoTimer_rto none).stopped none
  unfold tcpRearmRtoTimer
  dsimp only
  split
  · exact addRetransmit_inField released _ _
  · exact addRetransmit_inField released _ _

theorem tcpRearmRtoTimer_watched (h : Watched s) (none : Stopped s) (some_left : s.tsk.writeQueue ≠ []) :
    Watched (tcpRearmRtoTimer s) where
  live := (tcpRearmRtoTimer_send s).skFreed.trans h.live
  only := tcpRearmRtoTimer_inField none
  idle empty := absurd ((tcpRearmRtoTimer_send s).writeQueue.symm.trans empty) some_left

/-! ### Sending -/

theorem tcpQueueTransmitSkb_watched (k : SkBuff) (h : Watched s) : Watched (tcpQueueTransmitSkb s k) := by
  have set : InField (if skbQueueEmpty s.tsk.writeQueue then tcpRearmRtoTimer s else s) ∧
      (if skbQueueEmpty s.tsk.writeQueue then tcpRearmRtoTimer s else s).sock.skFreed = false := by
    split
    · rename_i empty
      exact ⟨tcpRearmRtoTimer_inField (h.idle (by simpa [skbQueueEmpty] using empty)),
        (tcpRearmRtoTimer_send s).skFreed.trans h.live⟩
    · exact ⟨h.only, h.live⟩
  unfold tcpQueueTransmitSkb
  dsimp only
  generalize (if skbQueueEmpty s.tsk.writeQueue then tcpRearmRtoTimer s else s) = t at set
  -- the timer was set for an empty queue, which is empty no longer
  have queued : ∀ u : Conn, u.ts = t.ts → u.tsk.retransmit = t.tsk.retransmit →
      u.sock.skFreed = t.sock.skFreed → u.tsk.writeQueue ≠ [] → Watched u := by
    intro u ts field freed some_left
    have frame : RtoFrame t u := .of_eq ts field (fun empty => absurd empty some_left) freed
    exact ⟨freed.trans set.2, frame.inField set.1, fun empty => absurd empty some_left⟩
  split
  · have same := tcpTransmitSkb_same t k t.tsk.tcb.sndNxt
    exact queued _ same.ts same.retransmit same.skFreed (by simp [skbQueueTail])
  · exact queued _ rfl rfl rfl (by simp [skbQueueTail])

theorem tcpSendLoop_watched (mss fuel : Nat) (buf : List UInt8) (h : Watched s) :
    Watched (tcpSendLoop mss fuel s buf) := by
  induction fuel generalizing s buf with
  | zero => exact h
  | succ fuel ih =>
    rw [tcpSendLoop]
    split
    · exact h
    · exact ih _ (tcpQueueTransmitSkb_watched _ (h.minor (tcpAllocSkb_minor s 0 (buf.take mss))))

theorem tcpSend_watched (buf : List UInt8) (h : Watched s) : Watched (tcpSend s buf) := by
  have taken : Watched { s with accepted := s.accepted ++ buf } := h.eq rfl rfl id rfl
  exact (tcpSendLoop_watched s.tsk.smss.toNat buf.length buf taken).stay (tcpRearmUserTimeout_rto _)

theorem tcpWrite_watched (buf : List UInt8) (h : Watched s) : Watched (tcpWrite s buf).1 := by
  unfold tcpWrite
  split
  · exact h
  · split
    · exact tcpSend_watched buf h
    · exact tcpSend_watched buf h
    · exact h

theorem tcpQueueFin_watched (h : Watched s) : Watched (tcpQueueFin s) := by
  have counted : Watched { s with fins := s.fins + 1 } := h.eq rfl rfl id rfl
  exact tcpQueueTransmitSkb_watched _ (counted.minor (tcpAllocSkb_minor { s with fins := s.fins + 1 } 0 []))

theorem tcpClose_watched (h : Watched s) : Watched (tcpClose s).1 := by
  unfold tcpClose
  split
  iterate 6 exact h.eq rfl rfl id rfl
  iterate 3 exact h.done
  · exact tcpQueueFin_watched (h.eq (t := setState s .finWait1) rfl rfl id rfl)
  · exact tcpQueueFin_watched h

theorem tcpV4Connect_watched (addr : SockAddr) (port : UInt16) (iss : UInt32) (h : Watched s) :
    Watched (tcpV4Connect s addr port iss) := by
  unfold tcpV4Connect tcpConnect tcpSendSyn
  dsimp only
  split
  · exact h.eq rfl rfl id rfl
  · have numbered : ∀ u : Conn, Watched u → Watched { u with tsk.tcb.sndNxt := u.tsk.tcb.sndNxt + 1 } :=
      fun u kept => kept.eq rfl rfl id rfl
    refine numbered _ (tcpQueueTransmitSkb_watched _ ?_)
    exact h.eq rfl rfl id rfl

/-! ### Handlers -/

theorem tcpConnectRto_watched (h : Watched s) (none : Stopped s) : Watched (tcpConnectRto s) := by
  have frame := tcpReleaseRtoTimer_rto none
  have released := h.stay frame
  have still := frame.stopped none
  unfold tcpConnectRto
  generalize tcpReleaseRtoTimer s = u at released still
  dsimp only
  split
  · split
    · have failed : Watched (retransmissionFailed u) := released.eq rfl rfl id rfl
      exact failed.done
    · split
      · exact released
      · rename_i k _
        have again : RtoFrame u { retransmitHead u k with
            tsk.backoff := (retransmitHead u k).tsk.backoff + 1 } :=
          (retransmitHead_rto u k).trans (.of_eq rfl rfl id rfl)
        exact tcpRearmRtoTimer_watched (released.stay again) (again.stopped still) (retransmitHead_nonempty u k)
  · exact released

theorem tcpRetransmissionTimeout_watched (h : Watched s) (none : Stopped s) :
    Watched (tcpRetransmissionTimeout s) := by
  have frame := tcpReleaseRtoTimer_rto none
  have released := h.stay frame
  have still := frame.stopped none
  unfold tcpRetransmissionTimeout
  generalize tcpReleaseRtoTimer s = u at released still
  dsimp only
  split
  · have forgot : Watched { u with tsk.backoff := 0 } := released.eq rfl rfl id rfl
    exact forgot.minor (tcpNotifyUser_minor _)
  · rename_i k _
    have again := retransmitHead_rto u k
    split
    · exact (released.stay again).done.eq rfl rfl id rfl
    · have doubled : RtoFrame u { retransmitHead u k with
          tsk.rto := (retransmitHead u k).tsk.rto * 2
          tsk.backoff := (retransmitHead u k).tsk.backoff + 1 } := again.trans (.of_eq rfl rfl id rfl)
      have kept : Watched (retransmissionBackoff (retransmitHead u k)) :=
        ⟨again.freed.trans released.live, addRetransmit_inField (doubled.stopped still) _ _,
          fun empty => absurd empty (retransmitHead_nonempty u k)⟩
      split
      · exact kept.stay (tcpHandleFinState_rto _)
      · exact kept

/- What a handler of the sock does, when no retransmission timer runs as it is one of that field. -/
theorem runHandler_watched {a : Handler} (h : Watched s) (sock : a.onSock = true)
    (rto : a.slot = some .retransmit → Stopped s) : Watched (runHandler s a) := by
  have locked := RtoFrame.of_minor (socketWrAcquire_minor s)
  have taken := h.stay locked
  unfold runHandler
  cases a with
  | tcpConnectRto =>
    exact (tcpConnectRto_watched taken (locked.stopped (rto rfl))).minor (socketRelease_minor _)
  | tcpRetransmissionTimeout =>
    exact (tcpRetransmissionTimeout_watched taken (locked.stopped (rto rfl))).minor (socketRelease_minor _)
  | tcpSendDelack =>
    have reset : Watched { socketWrAcquire s with tsk.delacks := 0 } := taken.eq rfl rfl id rfl
    have released := reset.stay (tcpReleaseDelackTimer_rto _)
    exact (released.minor (tcpSendAck_minor _)).minor (socketRelease_minor _)
  | tcpLinger => exact (taken.stay (stopLinger_rto _)).done.minor (socketRelease_minor _)
  | tcpUserTimeout =>
    exact ((taken.stay (stopLinger_rto _)).stay (tcpAbort_rto _)).minor (socketRelease_minor _)
  | socketGarbageCollect => cases sock

/-! ### Arriving segments -/

/- Cleaning stops the timer when it empties the queue. -/
theorem tcpCleanRtoQueue_watched (una : UInt32) (h : Watched s) : Watched (tcpCleanRtoQueue s una) := by
  obtain ⟨freed, cleaned⟩ := cleanLoop_conn una s s.tsk.writeQueue
  unfold tcpCleanRtoQueue
  dsimp only
  rw [cleaned]
  split
  · refine ⟨h.live, (tcpStopRtoTimer_rto _).inField (h.only.eq rfl rfl), fun _ => ?_⟩
    exact tcpStopRtoTimer_stopped (h.only.eq rfl rfl)
  · rename_i left
    exact ⟨h.live, h.only, fun empty => absurd (.inl empty) left⟩

theorem inputNewAck_watched (th : TcpHdr) (h : Watched s) : Watched (inputNewAck s th).1 := by
  rw [inputNewAck_fst]
  split
  · have moved : Watched { s with tsk.tcb.sndUna := th.ackSeq } := h.eq rfl rfl id rfl
    exact tcpCleanRtoQueue_watched _ (moved.stay (tcpRtt_rto _))
  · exact h

theorem inputAck_watched (th : TcpHdr) (h : Watched s) : Watched (inputAck s th).1 := by
  unfold inputAck
  split
  · split
    · exact inputNewAck_watched th (h.eq (t := setState s .established) rfl rfl id rfl)
    · exact h
  iterate 6 exact inputNewAck_watched th h
  exact h

theorem inputAck_old (old : ¬AckNew s th) : RtoFrame s (inputAck s th).1 := by
  unfold inputAck
  split
  · split
    · rw [inputNewAck_fst, if_neg (show ¬AckNew (setState s .established) th from old)]
      exact .of_eq rfl rfl id rfl
    · exact .refl s
  iterate 6
    rw [inputNewAck_fst, if_neg old]
    exact .refl s
  exact .refl s

/- Nothing is in flight and no timer runs, unless that was so before and nothing has been acknowledged. -/
theorem inputAck_stopped (h : Watched s) (valid : (inputAck s th).2 = true)
    (came : s.tsk.state.phase = .text ∨ s.tsk.state = .synReceived)
    (idle : (inputAck s th).1.tsk.inflight = 0) (some_left : (inputAck s th).1.tsk.writeQueue ≠ [])
    (still : ¬AckNew s th → s.tsk.inflight = 0 → s.tsk.writeQueue ≠ [] → Stopped s) :
    Stopped (inputAck s th).1 := by
  by_cases ticks : Ticking (inputAck s th).1 .retransmit
  · obtain ⟨old, idle', some_left'⟩ := inputAck_still th valid idle some_left ticks came
    exact (inputAck_old old).stopped (still old idle' some_left')
  · exact (inputAck_watched th h).only.stopped ticks

theorem inputDelack_watched (th : TcpHdr) (skb : SkBuff) (h : Watched s)
    (still : s.tsk.inflight = 0 → s.tsk.writeQueue ≠ [] → Stopped s) : Watched (inputDelack s th skb) := by
  have frame := tcpStopDelackTimer_rto s
  have stopped := h.stay frame
  have still' : (tcpStopDelackTimer s).tsk.inflight = 0 → (tcpStopDelackTimer s).tsk.writeQueue ≠ [] →
      Stopped (tcpStopDelackTimer s) := fun idle some_left => frame.stopped (still idle some_left)
  unfold inputDelack
  generalize tcpStopDelackTimer s = u at stopped still'
  dsimp only
  split
  · rename_i sends
    have some_left : u.tsk.writeQueue ≠ [] := by
      intro empty
      simp [empty] at sends
    have next := tcpSendNext_rto u (min u.tsk.writeQueue.length 3)
    have counted : RtoFrame u { tcpSendNext u (min u.tsk.writeQueue.length 3) with
        tsk.inflight := (tcpSendNext u (min u.tsk.writeQueue.length 3)).tsk.inflight +
          min u.tsk.writeQueue.length 3 } := next.trans (.of_eq rfl rfl id rfl)
    exact tcpRearmRtoTimer_watched (stopped.stay counted) (counted.stopped (still' sends.1 some_left))
      fun empty => some_left (counted.queue empty)
  · have counted : Watched (countDelack u (!th.psh && decide (1000 < skb.dlen))) := by
      unfold countDelack
      split
      · exact stopped.eq rfl rfl id rfl
      · exact stopped
    generalize countDelack u (!th.psh && decide (1000 < skb.dlen)) = v at counted
    split
    · have reset : Watched { v with tsk.delacks := 0 } := counted.eq rfl rfl id rfl
      exact reset.minor (tcpSendAck_minor _)
    · split
      · exact counted.stay (addDelack_rto _)
      · exact counted

/- What comes after the ACK field; the hypothesis is about the state in which text is taken. -/
theorem inputTail_watched (h : Watched s)
    (still : s.tsk.state.phase = .text → th.fin = false → skb.seq = s.tsk.tcb.rcvNxt →
      s.tsk.inflight = 0 → s.tsk.writeQueue ≠ [] → Stopped s) : Watched (inputTail s th skb) := by
  have frame := inputText_rto s th skb
  have text := h.stay frame
  have send := inputText_send s th skb
  have state := (inputText_stays s th skb).state
  unfold inputTail
  dsimp only
  refine Watched.minor ?_ (freeSkb_minor _ _)
  generalize (inputText s th skb).1 = u at frame text send state
  unfold inputTextFin
  by_cases ends : (th.fin && decide (skb.seq = s.tsk.tcb.rcvNxt)) = true
  · rw [if_pos ends]
    have taken := text.stay (inputFin_rto u)
    have out : (inputFin u).tsk.state.phase ≠ .text := by
      rw [(inputFin_moves u).1]
      exact TcpState.afterFin_phase _ _
    unfold inputExpected
    split
    iterate 3 (rename_i at_state; rw [at_state] at out; exact absurd rfl out)
    exact taken
  · rw [if_neg ends]
    have delayed : u.tsk.state.phase = .text → skb.seq = s.tsk.tcb.rcvNxt →
        Watched (inputDelack u th skb) := by
      intro here next
      have plain : th.fin = false := by simpa [next] using ends
      rw [state] at here
      refine inputDelack_watched th skb text fun idle some_left => ?_
      rw [send.inflight] at idle
      rw [send.writeQueue] at some_left
      exact frame.stopped (still here plain next idle some_left)
    unfold inputExpected
    split
    iterate 3
      rename_i at_state
      split
      · rename_i next
        exact delayed (by rw [at_state]; rfl) (by simpa using next)
      · exact text
    exact text

theorem inputOtherwise_watched (h : Watched s) (here : skb.seq = th.seq)
    (still : Passes s th skb → (inputAck s th).1.tsk.state.phase = .text → th.fin = false →
      th.seq = s.tsk.tcb.rcvNxt → ¬AckNew s th → s.tsk.inflight = 0 → s.tsk.writeQueue ≠ [] →
      Stopped s) : Watched (inputOtherwise s th skb) := by
  have taken := inputAck_watched th h
  refine inputOtherwise_cases s th skb ?_ ?_ ?_ ?_ ?_ ?_
  · intro _
    split
    · exact h.minor (freeSkb_minor _ _)
    · exact (h.minor (tcpSendAck_minor _)).minor (freeSkb_minor _ _)
  · intro _ _
    have dropped := h.minor (freeSkb_minor s skb)
    exact (dropped.stay (tcpEnterTimeWait_rto _)).minor (recvNotify_minor _)
  · intro _ _ _
    exact h.minor (freeSkb_minor _ _)
  · intro _ _ _ _ _
    exact taken.minor (freeSkb_minor _ _)
  · intro _ _ _ _ _ _ _
    exact (taken.minor (freeSkb_minor _ _)).done
  · intro verified rst syn ack valid queued
    have passes : Passes s th skb := ⟨verified, rst, syn, ack, valid, queued⟩
    have frame := inputFinAcked_rto (inputAck s th).1 th
    have send := inputFinAcked_send (inputAck s th).1 th
    have phase : (inputFinAcked (inputAck s th).1 th).tsk.state.phase =
        (inputAck s th).1.tsk.state.phase := inputFinAcked_phase
    have next : (inputFinAcked (inputAck s th).1 th).tsk.tcb.rcvNxt = s.tsk.tcb.rcvNxt :=
      inputFinAcked_rcvNxt.trans (inputAck_rcvNxt s th)
    refine inputTail_watched (taken.stay frame) fun text plain expected idle some_left => ?_
    rw [phase] at text
    rw [send.inflight] at idle
    rw [send.writeQueue] at some_left
    rw [here, next] at expected
    have came : s.tsk.state.phase = .text ∨ s.tsk.state = .synReceived := by
      rcases (inputAck_moves s th).1 with same | ⟨waiting, -⟩
      · rw [same] at text
        exact .inl text
      · exact .inr waiting
    exact frame.stopped (inputAck_stopped h valid came idle some_left (still passes text plain expected))

theorem synsentAck_watched (th : TcpHdr) (h : Watched s) : Watched (synsentAck s th) := by
  unfold synsentAck
  dsimp only
  split
  · exact tcpCleanRtoQueue_watched _ (h.eq rfl rfl id rfl)
  · exact h.eq rfl rfl id rfl

theorem synsentEstablish_watched (th : TcpHdr) (h : Watched s) : Watched (synsentEstablish s th) := by
  have opened : Watched { setState s .established with
      tsk.tcb.sndUna := s.tsk.tcb.sndNxt, tsk.state := .established
      tsk.backoff := 0, tsk.rto := 1000 } := h.eq rfl rfl id rfl
  have set := (opened.minor (tcpSendAck_minor _)).stay (tcpRearmUserTimeout_rto _)
  have parsed : ∀ u : Conn, Watched u → Watched (sockConnected { u with tsk := tcpParseOpts u.tsk th }) := by
    intro u kept
    have sized : Watched { u with tsk.smss := (tcpParseOpts u.tsk th).smss } := kept.eq rfl rfl id rfl
    have done := sized.minor (tcpParseOpts_minor u th)
    generalize tcpParseOpts u.tsk th = tsk at done
    exact done.eq rfl rfl id rfl
  exact parsed _ set

theorem synsentSyn_watched (th : TcpHdr) (h : Watched s) : Watched (synsentSyn s th) := by
  have taken := synsentAck_watched th h
  unfold synsentSyn
  dsimp only
  split
  · exact synsentEstablish_watched th taken
  · rw [tcpSendSynack_minor _ (by simp [setState])]
    exact taken.eq rfl rfl id rfl

theorem tcpReset_watched (h : Watched s) : Watched (tcpReset s) := by
  have failed : ∀ u : Conn, RtoFrame s u → Watched (tcpDone u) := fun u frame => (h.stay frame).done
  unfold tcpReset
  dsimp only
  split
  · exact failed _ (.of_eq rfl rfl id rfl)
  · exact failed _ (.of_eq rfl rfl id rfl)
  · exact h.eq rfl rfl id rfl
  · exact failed _ (.of_eq rfl rfl id rfl)

theorem tcpSynsent_watched (th : TcpHdr) (skb : SkBuff) (h : Watched s) : Watched (tcpSynsent s skb th) := by
  unfold tcpSynsent
  dsimp only
  split
  · exact h.minor (freeSkb_minor _ _)
  · split
    · exact h.minor (freeSkb_minor _ _)
    · split
      · exact (tcpReset_watched h).minor (freeSkb_minor _ _)
      · split
        · exact h.minor (freeSkb_minor _ _)
        · exact (synsentSyn_watched th h).minor (freeSkb_minor _ _)

theorem tcpInputState_watched (h : Watched s) (here : skb.seq = th.seq)
    (still : s.tsk.state.synchronizes = true → Passes s th skb →
      (inputAck s th).1.tsk.state.phase = .text → th.fin = false → th.seq = s.tsk.tcb.rcvNxt →
      ¬AckNew s th → s.tsk.inflight = 0 → s.tsk.writeQueue ≠ [] → Stopped s) :
    Watched (tcpInputState s th skb) := by
  by_cases checked : s.tsk.state.synchronizes = true
  · rw [tcpInputState_otherwise checked]
    exact inputOtherwise_watched h here (still checked)
  · unfold tcpInputState
    split
    · unfold tcpClosed
      split
      · exact h.minor (freeSkb_minor _ _)
      · exact (h.stay (tcpSendReset_rto s)).minor (freeSkb_minor _ _)
    · exact h.minor (freeSkb_minor _ _)
    · exact tcpSynsent_watched th skb h
    · cases at_state : s.tsk.state <;> simp_all [TcpState.synchronizes]

/-! ### Events and runs -/

/- The sock is there, or it has been freed and nothing reaches it. -/
def WatchedOrFreed (s : Conn) : Prop := Watched s ∨ Freed s ∧ InField s

theorem WatchedOrFreed.watched (h : WatchedOrFreed s)
    (live : s.sock.registered = true ∨ s.sock.skFreed = false) : Watched s := by
  rcases h with watched | ⟨⟨freed, closed⟩, -⟩
  · exact watched
  · simp [freed, closed] at live

theorem WatchedOrFreed.field (h : WatchedOrFreed s) : InField s := h.elim Watched.only And.right

theorem WatchedOrFreed.fewer (h : WatchedOrFreed s) (rings : ∀ a, Sounds t a → Sounds s a)
    (tsk : t.tsk = s.tsk) (sock : t.sock = s.sock) : WatchedOrFreed t := by
  have only : InField s → InField t := by
    intro only a sounds
    rw [tsk]
    exact only a (rings a sounds)
  rcases h with ⟨live, field, idle⟩ | ⟨freed, field⟩
  · refine .inl ⟨sock ▸ live, only field, fun empty a sounds => ?_⟩
    exact idle (tsk ▸ empty) a (rings a sounds)
  · refine .inr ⟨?_, only field⟩
    unfold Freed
    rw [sock]
    exact freed

theorem socketFree_watched (h : WatchedOrFreed s) : WatchedOrFreed (socketFree s) := by
  refine .inr ⟨socketFree_freed s, ?_⟩
  obtain ⟨freed, eq⟩ := socketFree_eq s
  rw [eq]
  exact h.field.eq rfl rfl

theorem idle_watched (idle : Idle s t) (h : WatchedOrFreed s) : WatchedOrFreed t := by
  have ts : t.ts = s.ts := congrArg (·.ts) idle
  have field : t.tsk.retransmit = s.tsk.retransmit := congrArg (·.tsk.retransmit) idle
  rcases h with watched | ⟨⟨freed, closed⟩, only⟩
  · have queue : t.tsk.writeQueue = s.tsk.writeQueue := congrArg (·.tsk.writeQueue) idle
    exact .inl (watched.eq ts field queue.symm.trans (congrArg (·.sock.skFreed) idle))
  · refine .inr ⟨⟨?_, ?_⟩, only.eq ts field⟩
    · exact (congrArg (·.sock.skFreed) idle).trans freed
    · exact (congrArg (·.sock.registered) idle).trans closed

/- One event, which lets no timer go that still runs. -/
theorem exec_watched {e : Event} {r : Reply} (h : WatchedOrFreed s) (safe : ReleasesTimer s e → Stopped s)
    (taken : exec s e = some (t, r)) : WatchedOrFreed t := by
  have called : ∀ {u : Conn}, s.sock.registered = true → Minor s u → Watched u :=
    fun registered same => (h.watched (.inl registered)).minor same
  have locked := socketWrAcquire_minor s
  refine exec_pass (P := WatchedOrFreed) (fun _ _ => idle_watched) h taken ?_ ?_ ?_ ?_ ?_ ?_ ?_ ?_ ?_ ?_
  · exact fun _ _ => socketFree_watched
  · intro busy _
    exact h.fewer (fun a rings => ⟨tick_alarms _ rings.1, rings.2⟩) rfl rfl
  · rintro i x rfl found gone
    have ready : WatchedOrFreed (started s i) := h.fewer (fun _ => id) rfl rfl
    by_cases gc : x.handler.onSock = false
    · have collects : x.handler = .socketGarbageCollect := by
        cases at_handler : x.handler <;> simp_all [Handler.onSock]
      rw [collects]
      show WatchedOrFreed (socketGarbageCollect (started s i))
      unfold socketGarbageCollect
      split
      · exact socketFree_watched ready
      · exact ready
    · have sock : x.handler.onSock = true := by simpa using gc
      have live : s.sock.skFreed = false := by
        by_contra freed
        rw [gone (by simpa using freed)] at sock
        cases sock
      refine .inl (runHandler_watched (ready.watched (.inr live)) sock fun slot a rings => ?_)
      exact safe (.inr ⟨x, found, slot⟩) a rings
  · exact fun buf _ registered _ => .inl (tcpWrite_watched buf (called registered locked))
  · exact fun len _ registered _ => .inl ((called registered locked).stay (tcpRead_rto _ len))
  · rintro i b rfl _ live woken
    exact .inl ((woken.watched (.inr live)).stay (receiveLoop_rto _ _ _))
  · exact fun _ registered _ => .inl (tcpClose_watched (called registered locked))
  · exact fun _ registered => .inl ((h.watched (.inl registered)).stay (tcpAbort_rto s))
  · intro addr port iss _ registered _ _
    have marked : Watched { socketWrAcquire s with tsk.err := -EISCONN } :=
      (called registered locked).eq rfl rfl id rfl
    exact .inl (tcpV4Connect_watched addr port iss marked)
  · rintro th payload rfl registered arrived
    have watched := arrived.watched (.inl registered)
    refine .inl (tcpInputState_watched watched rfl ?_)
    intro checked passes text plain next old idle some_left
    exact safe (.inl ⟨checked, passes, text, plain, next, old, idle, some_left⟩)

theorem exec_numbered {e : Event} {r : Reply} (numbered : TimersNumbered s.ts)
    (taken : exec s e = some (t, r)) : TimersNumbered t.ts := by
  by_cases ticks : ∃ busy, e = .tick busy
  · obtain ⟨busy, rfl⟩ := ticks
    obtain ⟨rfl, -⟩ := by simpa [exec] using taken
    exact (timersStart_timers s.ts busy).2 numbered
  · exact (exec_timersKept (fun busy same => ticks ⟨busy, same⟩) taken).numbered numbered

/-- As long as no event releases a timer that still runs, a connection has one running retransmission
    timer at most, the one in its field. -/
theorem one_retransmission_timer {trace : List (Event × Reply)}
    (run : Run exec (fun _ s e => ReleasesTimer s e → retransmitTimers s = []) {} trace s) : OneTimer s := by
  have kept : TimersNumbered s.ts ∧ WatchedOrFreed s := by
    refine run.invariant_state (P := fun u => TimersNumbered u.ts ∧ WatchedOrFreed u) ?_ ?_
    · refine ⟨⟨by simp, by simp⟩, .inl ⟨rfl, ?_, fun _ => ?_⟩⟩
      · rintro a ⟨member, -⟩
        simp [alarms, alarmsOf] at member
      · rintro a ⟨member, -⟩
        simp [alarms, alarmsOf] at member
    · rintro _ u e v r ⟨numbered, watched⟩ safe taken
      have safe' : ReleasesTimer u e → Stopped u := fun releases => stopped_iff.mpr (safe releases)
      exact ⟨exec_numbered numbered taken, exec_watched watched safe' taken⟩
  exact kept.2.field.oneTimer kept.1

/- A byte is sent and its timer fires; the handler has yet to get the lock. -/
def fires : List Event := handshake ++ .write [1] :: List.replicate 102 (.tick [])

theorem one_retransmission_timer_resent : ∃ trace s,
    Run exec (fun _ s e => ReleasesTimer s e → retransmitTimers s = []) {} trace s ∧
      (retransmitTimers s).length = 1 ∧ s.tsk.backoff = 1 ∧ OneTimer s := by
  obtain ⟨trace, s, run, one, again⟩ : ∃ trace s,
      Run exec (fun _ s e => ReleasesTimer s e → retransmitTimers s = []) {} trace s ∧
        (retransmitTimers s).length = 1 ∧ s.tsk.backoff = 1 :=
    Run.exists_of_follow (P := fun s => (retransmitTimers s).length = 1 ∧ s.tsk.backoff = 1)
      (fires ++ [.handler 0]) (by decide +kernel)
  exact ⟨trace, s, run, one, again, one_retransmission_timer run⟩

/-- The byte is acknowledged before the handler runs and another is sent: the handler releases the timer
    of that one and sets its own. Or the handler runs while nothing is in flight, and the timer it sets
    is released when the next segment has the queue sent. -/
theorem two_retransmission_timers :
    (∃ trace s, Run exec (fun _ _ _ => True) {} trace s ∧ ¬OneTimer s ∧
      (retransmitTimers s).length = 2 ∧ (retransmitTimers (tcpStopRtoTimer s)).length = 1) ∧
    ∃ trace s, Run exec (fun _ s e => e = .handler 0 → retransmitTimers s = []) {} trace s ∧
      ¬OneTimer s := by
  constructor
  · exact Run.exists_of_follow (fires ++ [.segment (peerHdr 5001 1002) [], .write [2], .handler 0])
      (P := fun s => ¬OneTimer s ∧ (retransmitTimers s).length = 2 ∧
        (retransmitTimers (tcpStopRtoTimer s)).length = 1) (by decide +kernel)
  · exact Run.exists_of_follow (P := fun s => ¬OneTimer s) (fires ++ [.write [2],
      .segment (peerHdr 5002 1002) [9], .handler 0, .segment (peerHdr 5001 1002) [8]]) (by decide +kernel)

end HfIp
