import HfIp.Backoff

/- What acknowledgements, arriving segments and timers leave of the account of retransmissions. -/
namespace HfIp

open Transition

variable {s t u : Conn} {all : List Nat} {calm calm' : Prop}

/-! ### New acknowledgements -/

theorem tcpRttUpdate_backed (tsk : TcpSock) (r : Int32) (sample : 0 ≤ r.toInt)
    (before : 0 ≤ tsk.srtt ∧ tsk.srtt < 2 ^ 31) :
    (0 ≤ (tcpRttUpdate tsk r.toInt).srtt ∧ (tcpRttUpdate tsk r.toInt).srtt < 2 ^ 31) ∧
      200 ≤ (tcpRttUpdate tsk r.toInt).rto.toNat := by
  have below := r.toInt_lt
  have srtt : 0 ≤ (tcpRttUpdate tsk r.toInt).srtt ∧ (tcpRttUpdate tsk r.toInt).srtt < 2 ^ 31 := by
    unfold tcpRttUpdate
    dsimp only
    split
    · exact ⟨sample, below⟩
    · rw [Int.tdiv_eq_ediv_of_nonneg (by omega)]
      omega
  refine ⟨srtt, ?_⟩
  have wide : (tcpRttUpdate tsk r.toInt).rto = UInt32.ofInt ((tcpRttUpdate tsk r.toInt).srtt +
      max (Int32.ofInt (4 * (tcpRttUpdate tsk r.toInt).rttvar)).toInt 200) := rfl
  have k := (Int32.ofInt (4 * (tcpRttUpdate tsk r.toInt).rttvar)).toInt_lt
  rw [wide]
  generalize (Int32.ofInt (4 * (tcpRttUpdate tsk r.toInt).rttvar)).toInt = k at *
  generalize (tcpRttUpdate tsk r.toInt).srtt = srtt at *
  unfold UInt32.ofInt
  rw [UInt32.toNat_ofNat']
  omega

/- Without a sample the estimator and `rto` stay. -/
theorem tcpRtt_touches (s : Conn) : (¬Samples s → tcpRtt s = s) ∧ (Backed s → Backed (tcpRtt s)) ∧
    ∃ srtt rttvar rto, tcpRtt s = { s with
      tsk.srtt := srtt, tsk.rttvar := rttvar, tsk.rto := rto } := by
  unfold tcpRtt Samples
  split
  · rename_i backed
    exact ⟨fun _ => rfl, id, _, _, _, rfl⟩
  · rename_i zero
    have zero : s.tsk.backoff = 0 := UInt8.le_antisymm (UInt8.not_lt.mp zero) UInt8.zero_le
    split
    · exact ⟨fun _ => rfl, id, _, _, _, rfl⟩
    · rename_i timer found
      dsimp only
      split
      · exact ⟨fun _ => rfl, id, _, _, _, rfl⟩
      · rename_i sample
        refine ⟨fun none => absurd ⟨zero, timer, found, Int.not_lt.mp sample⟩ none, fun backed => ?_,
          _, _, _, rfl⟩
        obtain ⟨srtt, rto⟩ := tcpRttUpdate_backed s.tsk _ (Int.not_lt.mp sample) backed.srtt
        refine ⟨?_, srtt⟩
        have same : ∀ r, (tcpRttUpdate s.tsk r).backoff = 0 := fun _ => zero
        rw [same, show (0 : UInt8).toNat = 0 from rfl]
        omega

theorem dropWhile_around {p : SkBuff → Bool} (pre post : List SkBuff) (k : SkBuff) :
    (∃ front, (pre ++ k :: post).dropWhile p = front ++ k :: post) ∨
      (p k = true ∧ (pre ++ k :: post).dropWhile p = post.dropWhile p) := by
  rw [List.dropWhile_append]
  split
  · rw [List.dropWhile_cons]
    split
    · rename_i taken
      exact .inr ⟨taken, rfl⟩
    · exact .inl ⟨[], rfl⟩
  · exact .inl ⟨_, rfl⟩

/- What a new ACK leaves. The timer is stopped when nothing that has been sent is left. -/
structure AckLeaves (s t : Conn) (ack : UInt32) : Prop where
  queue : t.tsk.writeQueue = s.tsk.writeQueue.dropWhile (acked ack)
  inflight : t.tsk.inflight = s.tsk.inflight - (s.tsk.writeQueue.takeWhile (acked ack)).length
  sndUna : t.tsk.tcb.sndUna = ack
  sndNxt : t.tsk.tcb.sndNxt = s.tsk.tcb.sndNxt
  state : t.tsk.state = s.tsk.state
  ids : sentIds t = sentIds s
  nextSkb : t.nextSkb = s.nextSkb
  backed : Backed s → Backed t
  timer : ((t.tsk.writeQueue = [] ∨ t.tsk.inflight = 0) ∧ t.tsk.backoff = 0 ∧
      t.tsk.retransmit = none) ∨
    (t.tsk.writeQueue ≠ [] ∧ t.tsk.inflight ≠ 0 ∧ t.tsk.backoff = s.tsk.backoff ∧
      t.tsk.retransmit = s.tsk.retransmit)

theorem takeAck_leaves (s : Conn) (th : TcpHdr) : AckLeaves s (takeAck s th) th.ackSeq := by
  obtain ⟨-, kept, srtt, rttvar, rto, rtt⟩ := tcpRtt_touches { s with tsk.tcb.sndUna := th.ackSeq }
  have backed : Backed s → Backed (tcpRtt { s with tsk.tcb.sndUna := th.ackSeq }) :=
    fun before => kept (before.of_eq rfl rfl rfl)
  obtain ⟨freed, cleaned⟩ := cleanLoop_conn th.ackSeq
    (tcpRtt { s with tsk.tcb.sndUna := th.ackSeq }) s.tsk.writeQueue
  unfold takeAck tcpCleanRtoQueue
  dsimp only
  have same : (tcpRtt { s with tsk.tcb.sndUna := th.ackSeq }).tsk.writeQueue = s.tsk.writeQueue := by
    rw [rtt]
  rw [same, cleaned, cleanLoop_queue]
  rw [rtt] at backed ⊢
  dsimp only
  split
  · rename_i ended
    exact ⟨rfl, rfl, rfl, rfl, rfl, rfl, rfl, fun before => (backed before).reset rfl rfl rfl,
      .inl ⟨ended, rfl, rfl⟩⟩
  · rename_i more
    rw [not_or] at more
    exact ⟨rfl, rfl, rfl, rfl, rfl, rfl, rfl, fun before => (backed before).of_eq rfl rfl rfl,
      .inr ⟨more.1, more.2, rfl, rfl⟩⟩

/- All that has been sent has been acknowledged when the last buffer of it is taken off. -/
theorem LastSent.caught {pre post : List SkBuff} {k : SkBuff} {ack : UInt32}
    (last : LastSent s pre k post) (una : s.tsk.tcb.sndUna < ack) (nxt : ack ≤ s.tsk.tcb.sndNxt)
    (taken : acked ack k = true) (more : post ≠ [] ∨ s.tsk.state.sending = true) :
    ack = s.tsk.tcb.sndNxt := by
  simp only [acked, Bool.and_eq_true, decide_eq_true_eq] at taken
  have ends := last.ends
  refine UInt32.le_antisymm nxt ?_
  cases fin : k.th.fin with
  | false =>
    rw [fin] at ends
    simp only [Bool.false_eq_true, if_false, UInt32.add_zero] at ends
    exact ends ▸ taken.2
  | true =>
    have first := last.alone fin more
    simp only [fin, if_true] at ends
    rw [← ends] at nxt ⊢
    grind

theorem takeAck_karn {th : TcpHdr} (inv : Karn all calm s) (new : AckNew s th) :
    Karn all (calm ∨ AcksSent all s (takeAck s th)) (takeAck s th) := by
  have took := takeAck_leaves s th
  generalize takeAck s th = t at took
  obtain ⟨una, nxt⟩ := new
  have suffix : t.tsk.writeQueue <:+ s.tsk.writeQueue := took.queue ▸ List.dropWhile_suffix _
  have old : ∀ j ∈ t.tsk.writeQueue, j ∈ s.tsk.writeQueue := fun j member => suffix.mem member
  have opens : Open t → Open s := by
    rintro (some_left | sending)
    · refine .inl fun none => some_left ?_
      rw [none] at suffix
      exact List.suffix_nil.mp suffix
    · exact .inr (took.state ▸ sending)
  have goneSent : ∀ j ∈ s.tsk.writeQueue.takeWhile (acked th.ackSeq), j.id ∈ sentIds s := by
    intro j member
    by_contra unsent
    have taken := List.mem_takeWhile_imp member
    rw [acked, inv.waiting j ((List.takeWhile_prefix _).mem member) unsent] at taken
    simp at taken
  have counted : t.tsk.inflight = t.tsk.writeQueue.countP fun k => k.id ∈ sentIds s := by
    have total := inv.counted
    rw [← List.takeWhile_append_dropWhile (p := acked th.ackSeq) (l := s.tsk.writeQueue),
      List.countP_append, List.countP_eq_length.mpr (by simpa using goneSent), ← took.queue] at total
    rw [took.inflight]
    omega
  -- none of the buffers that are left behind an emptied flight has been sent
  have unsent : t.tsk.inflight = 0 → ∀ j ∈ t.tsk.writeQueue, j.id ∉ sentIds s := by
    intro idle
    have none := counted.symm.trans idle
    rw [List.countP_eq_zero] at none
    simpa using none
  have flew : Open s → s.tsk.inflight ≠ 0 := by
    intro opened idle
    rw [inv.idle idle opened] at una
    exact absurd (UInt32.lt_of_lt_of_le una nxt) (UInt32.lt_irrefl _)
  have caught : t.tsk.inflight = 0 → Open t → th.ackSeq = s.tsk.tcb.sndNxt := by
    intro idle opened
    obtain ⟨pre, k, post, last⟩ := inv.latest (flew (opens opened))
    have left := took.queue
    rw [last.queue] at left
    rcases dropWhile_around (p := acked th.ackSeq) pre post k with ⟨front, kept⟩ | ⟨taken, rest⟩
    · exact absurd last.sent (unsent idle k (by rw [left, kept]; simp))
    · refine last.caught una nxt taken (opened.symm.elim (fun h => .inr ?_)
        fun some_left => .inl fun none => some_left ?_)
      · exact took.state ▸ h
      · rw [left, rest, none]
        rfl
  have fresh : t.tsk.backoff = 0 → ∀ j ∈ t.tsk.writeQueue, j.id ∉ all := by
    intro zero j member
    rcases took.timer with ⟨ended, -, -⟩ | ⟨-, -, same, -⟩
    · have idle : t.tsk.inflight = 0 := by
        refine ended.resolve_left fun none => ?_
        rw [none] at member
        cases member
      have flying := flew (.inl fun none => by simpa [none] using old j member)
      have some_gone : s.tsk.writeQueue.takeWhile (acked th.ackSeq) ≠ [] := by
        intro none
        have inflight := took.inflight
        rw [none, List.length_nil, Nat.sub_zero] at inflight
        exact flying (inflight ▸ idle)
      refine inv.behind j ?_ (unsent idle j member)
      obtain ⟨first, gone, eq⟩ := List.exists_cons_of_ne_nil some_gone
      rw [← List.takeWhile_append_dropWhile (p := acked th.ackSeq) (l := s.tsk.writeQueue), eq,
        ← took.queue]
      exact List.mem_append_right _ member
    · exact inv.fresh (same ▸ zero) j (old j member)
  constructor
  · rw [took.state]
    exact inv.early
  · exact took.backed inv.backed
  · exact inv.ids.sublist (suffix.sublist.map SkBuff.id)
  · rw [took.nextSkb]
    exact fun j member => inv.queued j (old j member)
  · rw [took.ids]
    exact inv.once
  · rw [took.ids, took.nextSkb]
    exact inv.below
  · rw [took.ids]
    exact counted
  · rw [took.ids]
    exact fun j member => inv.waiting j (old j member)
  · exact fun j member => inv.plain j (old j member)
  · rw [took.ids]
    intro j member
    refine inv.behind j ?_
    obtain ⟨gone, eq⟩ := suffix
    rw [← eq]
    cases gone with
    | nil => exact member
    | cons first rest => exact List.mem_append_right _ (List.mem_of_mem_tail member)
  · exact fresh
  · rw [took.sndUna, took.sndNxt]
    exact caught
  · intro flying
    obtain ⟨pre, k, post, last⟩ := inv.latest fun idle => flying (by rw [took.inflight, idle]; simp)
    have left := took.queue
    rw [last.queue] at left
    rcases dropWhile_around (p := acked th.ackSeq) pre post k with ⟨front, kept⟩ | ⟨-, rest⟩
    · refine ⟨front, k, post, left.trans kept, took.ids ▸ last.sent, took.ids ▸ last.behind,
        took.sndNxt ▸ last.ends, fun fin more => ?_⟩
      rw [took.sndUna]
      exact UInt32.le_trans (last.alone fin (more.imp id fun h => took.state ▸ h))
        (UInt32.le_of_lt una)
    · refine absurd (counted.trans (List.countP_eq_zero.mpr ?_)) flying
      intro j member
      rw [left, rest] at member
      simpa using last.behind j ((List.dropWhile_suffix _).mem member)
  · rw [took.state]
    exact fun opened => (inv.opened opened).sub old
  · rw [took.state]
    intro finWait
    obtain ⟨gone, eq⟩ := suffix
    have last := inv.closed finWait
    rw [← eq] at last
    exact last.right
  · intro none
    rcases took.timer with ⟨-, -, unset⟩ | ⟨some_left, -⟩
    · exact unset
    · exact absurd none some_left
  · intro reset opened
    rcases took.timer with ⟨ended, zero, -⟩ | ⟨some_left, -, same, -⟩
    · have idle : t.tsk.inflight = 0 := by
        rcases ended with none | idle
        · rw [counted, none]
          rfl
        · exact idle
      refine .inr ⟨took.sndUna.trans (caught idle opened), fun j member => ?_⟩
      exact ⟨unsent idle j member, fresh zero j member⟩
    · refine .inl (inv.calmed (.inl ?_) (opens opened))
      rw [← same]
      exact reset.resolve_right some_left

theorem takeAck_gone {th : TcpHdr} (inv : Gone s) : Gone (takeAck s th) := by
  have took := takeAck_leaves s th
  have ended : (takeAck s th).ended = s.ended := by
    unfold takeAck
    obtain ⟨-, -, _, _, _, rtt⟩ := tcpRtt_touches { s with tsk.tcb.sndUna := th.ackSeq }
    rw [(tcpCleanRtoQueue_stays _ _).ended, rtt]
  refine ⟨inv.retired.stay ⟨took.state, ended⟩, took.backed inv.backed, fun zero => ?_⟩
  rcases took.timer with ⟨-, -, none⟩ | ⟨-, -, backoff, retransmit⟩
  · exact none
  · exact retransmit.trans (inv.unset (backoff ▸ zero))

/-! ### Arriving segments -/

/- The numbers acknowledged and the buffers left are the same. -/
structure Follows (s t : Conn) : Prop where
  sndUna : t.tsk.tcb.sndUna = s.tsk.tcb.sndUna
  ids : t.tsk.writeQueue.map SkBuff.id = s.tsk.writeQueue.map SkBuff.id

theorem Follows.of_frame (h : SendFrame s t) : Follows s t :=
  ⟨h.sndUna, by rw [h.writeQueue]⟩

theorem Follows.trans (first : Follows s t) (second : Follows t u) : Follows s u :=
  ⟨second.sndUna.trans first.sndUna, second.ids.trans first.ids⟩

theorem AcksSent.follow {before : Conn} (acks : AcksSent all before s) (follows : Follows s t) :
    AcksSent all before t := by
  refine ⟨follows.sndUna.trans acks.1, fun j member => ?_⟩
  have id : j.id ∈ s.tsk.writeQueue.map SkBuff.id := follows.ids ▸ List.mem_map_of_mem member
  obtain ⟨k, there, same⟩ := List.mem_map.mp id
  rw [← same]
  exact acks.2 k there

theorem sendFront_follows (s : Conn) (n : Nat) : Follows s (sendFront s n) := by
  obtain ⟨after, run, left, -⟩ := sendNextLoop_sent (s := s) n s.tsk.writeQueue
  obtain ⟨_, _, _, same⟩ := tcpSendNext_touches s n
  refine ⟨same.sndUna, ?_⟩
  rw [show (sendFront s n).tsk.writeQueue = after ++ s.tsk.writeQueue.drop n from left,
    List.map_append, run.ids, ← List.map_append, List.take_append_drop]

/- In the modes of a connection that has its sock the connection was opened. -/
theorem KarnInv.early (inv : KarnInv all calm s) (live : s.sock.registered = true) :
    s.tsk.state.early = false := by
  cases inv with
  | live inv => exact inv.early
  | gone inv => rcases inv.retired with h | ⟨h, -⟩ <;> rw [h] <;> rfl
  | jammed inv => exact inv.early
  | freed inv =>
    rw [inv.2] at live
    cases live

/-- The rest of a segment, for what the frame keeps and the sending of waiting buffers keeps. -/
theorem inputTail_framed {P : Conn → Prop} {th : TcpHdr} {skb : SkBuff}
    (frame : ∀ u v, RttFrame u v → P u → P v) (start : P s)
    (next : ∀ u, u.tsk.state.phase = .text → u.tsk.inflight = 0 → u.tsk.writeQueue ≠ [] → P u →
      P (tcpRearmRtoTimer (sendFront u (min u.tsk.writeQueue.length 3)))) :
    P (inputTail s th skb) := by
  have delack : ∀ u, u.tsk.state.phase = .text → P u → P (inputDelack u th skb) := by
    intro u text kept
    have stopped : P (tcpStopDelackTimer u) :=
      frame u _ (.of_rfl rfl rfl ⟨rfl, rfl⟩ rfl rfl) kept
    replace text : (tcpStopDelackTimer u).tsk.state.phase = .text := text
    unfold inputDelack
    generalize tcpStopDelackTimer u = v at stopped text
    dsimp only
    split
    · rename_i idle
      refine next v text idle.1 (fun none => ?_) stopped
      rw [none] at idle
      exact absurd idle.2 (by decide)
    · have counted : P (countDelack v (!th.psh && decide (1000 < skb.dlen))) := by
        unfold countDelack
        split
        · exact frame v _ (.of_rfl rfl rfl ⟨rfl, rfl⟩ rfl rfl) stopped
        · exact stopped
      split
      · refine frame _ _ (tcpSendAck_rtt _) (frame _ _ ?_ counted)
        exact .of_rfl rfl rfl ⟨rfl, rfl⟩ rfl rfl
      · split
        · refine frame _ _ ?_ counted
          exact .of_rfl rfl rfl ⟨rfl, rfl⟩ rfl rfl
        · exact counted
  have queued := frame _ _ ((inputText_rtt s th skb).trans
    (inputTextFin_rtt _ th (decide (skb.seq = s.tsk.tcb.rcvNxt)))) start
  unfold inputTail inputExpected
  dsimp only
  generalize inputTextFin (inputText s th skb).1 th (decide (skb.seq = s.tsk.tcb.rcvNxt)) = t at queued
  refine frame _ _ (freeSkb_rtt _ _) ?_
  split
  iterate 3
    rename_i at_state
    split
    · exact delack t (by rw [at_state]; rfl) queued
    · exact queued
  exact queued

/-- The same for a whole segment, its ACK field apart. -/
theorem inputOtherwise_framed {P : Conn → Prop} {th : TcpHdr} {skb : SkBuff}
    (frame : ∀ u v, RttFrame u v → P u → P v) (start : P s)
    (ack : tcpVerifySegment s.tsk th skb = true → th.rst = false → th.syn = false → th.ack = true →
      P (inputAck s th).1)
    (next : ∀ u, u.tsk.state.phase = .text → u.tsk.inflight = 0 → u.tsk.writeQueue ≠ [] → P u →
      P (tcpRearmRtoTimer (sendFront u (min u.tsk.writeQueue.length 3)))) :
    P (inputOtherwise s th skb) := by
  have freed : ∀ u, P u → P (freeSkb u skb) := fun u => frame u _ (freeSkb_rtt u skb)
  refine inputOtherwise_cases s th skb ?_ ?_ ?_ ?_ ?_ ?_
  · intro _
    refine freed _ ?_
    split
    · exact start
    · exact frame s _ (tcpSendAck_rtt s) start
  · intro _ _
    refine frame _ _ ((tcpEnterTimeWait_rtt _).trans ?_) (freed s start)
    exact .of_rfl rfl rfl ⟨rfl, rfl⟩ rfl rfl
  · exact fun _ _ _ => freed s start
  · exact fun verified rst syn acks _ => freed _ (ack verified rst syn acks)
  · intro verified rst syn acks _ _ _
    exact frame _ _ (tcpDone_rtt _) (freed _ (ack verified rst syn acks))
  · intro verified rst syn acks _ _
    exact inputTail_framed frame (frame _ _ (inputFinAcked_rtt _ th) (ack verified rst syn acks)) next

/- The ACK field; `calm` may come true when everything sent is acknowledged. -/
theorem inputAck_karn (th : TcpHdr) (inv : KarnInv all calm s) (live : s.sock.registered = true) :
    KarnInv all (calm ∨ AcksSent all s (inputAck s th).1) (inputAck s th).1 := by
  have early := inv.early live
  have new : KarnInv all (calm ∨ AcksSent all s (inputNewAck s th).1) (inputNewAck s th).1 := by
    rw [inputNewAck_fst]
    split
    · rename_i new
      cases inv with
      | live inv => exact .live (takeAck_karn inv new)
      | gone inv => exact .gone (takeAck_gone inv)
      | jammed inv =>
        have none := UInt32.lt_of_lt_of_le new.1 new.2
        rw [inv.caught] at none
        exact absurd none (UInt32.lt_irrefl _)
      | freed inv =>
        rw [inv.2] at live
        cases live
    · exact inv.mono .inl
  unfold inputAck
  split
  · rename_i at_state
    rw [at_state] at early
    cases early
  iterate 6 exact new
  exact inv.mono .inl

theorem tcpInputState_karn (th : TcpHdr) (skb : SkBuff) (inv : KarnInv all calm s)
    (live : s.sock.registered = true) :
    KarnInv all (calm ∨ AcksSent all s (tcpInputState s th skb)) (tcpInputState s th skb) := by
  have early := inv.early live
  have follow : ∀ u v, Follows u v → calm ∨ AcksSent all s u → calm ∨ AcksSent all s v :=
    fun u v follows => Or.imp id fun acks => acks.follow follows
  suffices kept : KarnInv all (calm ∨ AcksSent all s (inputOtherwise s th skb))
      (inputOtherwise s th skb) ∧ (inputOtherwise s th skb).sock.registered = true by
    unfold tcpInputState
    split
    iterate 3
      rename_i at_state
      rw [at_state] at early
      cases early
    exact kept.1
  refine inputOtherwise_framed (P := fun u => KarnInv all (calm ∨ AcksSent all s u) u ∧
    u.sock.registered = true) ?_ ⟨inv.mono .inl, live⟩ ?_ ?_
  · rintro u v frame ⟨kept, here⟩
    refine ⟨(kept.frame frame).mono (follow u v (.of_frame frame.send)), ?_⟩
    exact frame.send.registered.trans here
  · intro _ _ _ _
    exact ⟨inputAck_karn th inv live, (inputAck_keeps (s := s) th).registered.trans live⟩
  · rintro u text idle waits ⟨kept, here⟩
    have rearmed := tcpRearmRtoTimer_send (sendFront u (min u.tsk.writeQueue.length 3))
    have follows := (sendFront_follows u (min u.tsk.writeQueue.length 3)).trans (.of_frame rearmed)
    obtain ⟨_, _, _, same⟩ := tcpSendNext_touches u (min u.tsk.writeQueue.length 3)
    refine ⟨KarnInv.mono ?_ (follow u _ follows), rearmed.registered.trans
      ((congrArg (·.sock.registered) same).trans here)⟩
    cases kept with
    | live inv => exact .live (sendFront_karn _ inv idle rfl text waits)
    | gone inv => rcases inv.retired with h | ⟨h, -⟩ <;> rw [h] at text <;> cases text
    | jammed inv => exact absurd idle inv.flying
    | freed inv =>
      rw [inv.2] at here
      cases here

/-! ### Timers -/

/- A doubling of `rto` and a step of the backoff, up to the bound at which the connection ends. -/
theorem retransmissionBackoff_backed (backed : Backed s) (more : ¬s.tsk.rto > 60000) :
    Backed (retransmissionBackoff s) ∧ (retransmissionBackoff s).tsk.backoff ≠ 0 := by
  have rto : (retransmissionBackoff s).tsk.rto = s.tsk.rto * 2 := rfl
  have backoff : (retransmissionBackoff s).tsk.backoff = s.tsk.backoff + 1 := rfl
  have bound : s.tsk.rto.toNat ≤ 60000 := UInt32.le_iff_toNat_le.mp (UInt32.not_lt.mp more)
  have before := backed.rto
  have low : s.tsk.backoff.toNat < 9 := by
    by_contra high
    have := Nat.pow_le_pow_right (n := 2) (by decide) (Nat.not_lt.mp high)
    omega
  have next : (s.tsk.backoff + 1).toNat = s.tsk.backoff.toNat + 1 := by
    rw [UInt8.toNat_add, UInt8.toNat_one]
    omega
  have doubled : (s.tsk.rto * 2).toNat = s.tsk.rto.toNat * 2 := by
    rw [UInt32.toNat_mul, show (2 : UInt32).toNat = 2 from rfl]
    omega
  refine ⟨⟨?_, backed.srtt⟩, fun zero => ?_⟩
  · rw [rto, backoff, next, doubled, Nat.pow_succ]
    omega
  · rw [backoff] at zero
    rw [zero] at next
    cases next

/- The head of the queue is sent once more, and the counter goes up. -/
theorem Karn.resend {k : SkBuff} (inv : Karn all calm s) (head : s.tsk.writeQueue.head? = some k)
    (more : ¬s.tsk.rto > 60000) (calm' : Prop) :
    Karn (all ++ [k.id]) calm' (retransmissionBackoff (retransmitHead s k)) := by
  have same := tcpTransmitSkb_same s k s.tsk.tcb.sndUna
  have skbs : (retransmissionBackoff (retransmitHead s k)).nextSkb = s.nextSkb := rfl
  have sent : (retransmitHead s k).sent = s.sent := same.sent
  have rto : (retransmitHead s k).tsk.rto = s.tsk.rto := same.rto
  have tcb : (retransmitHead s k).tsk.tcb = s.tsk.tcb := same.tcb
  have inflight : (retransmitHead s k).tsk.inflight = s.tsk.inflight := same.inflight
  have state : (retransmitHead s k).tsk.state = s.tsk.state := same.state
  have backed : Backed (retransmitHead s k) :=
    inv.backed.of_eq same.rto same.backoff (congrArg (·.tsk.srtt) same)
  obtain ⟨backed', raised⟩ := retransmissionBackoff_backed backed (rto.symm ▸ more)
  obtain ⟨rest, queue⟩ := List.head?_eq_some_iff.mp head
  set k' := (tcpTransmitSkb s k s.tsk.tcb.sndUna).2 with hk'
  have queue' : (retransmitHead s k).tsk.writeQueue = k' :: rest := by
    simp only [retransmitHead, setHead, same.writeQueue, queue, List.tail_cons, hk']
  have ids : sentIds (retransmissionBackoff (retransmitHead s k)) = sentIds s :=
    congrArg (List.map SkBuff.id) sent
  set t := retransmissionBackoff (retransmitHead s k) with ht
  have left : t.tsk.writeQueue = k' :: rest := queue'
  have each : ∀ {p : SkBuff → Prop}, (p k → p k') → (∀ j ∈ s.tsk.writeQueue, p j) →
      ∀ j ∈ t.tsk.writeQueue, p j := by
    intro p carry old j member
    rw [queue] at old
    rw [left] at member
    rcases List.mem_cons.mp member with rfl | later
    · exact carry (old k (by simp))
    · exact old j (by simp [later])
  have names : t.tsk.writeQueue.map SkBuff.id = s.tsk.writeQueue.map SkBuff.id := by
    rw [left, queue]
    rfl
  have isFin : t.tsk.writeQueue.map SkBuff.isFin = s.tsk.writeQueue.map SkBuff.isFin := by
    rw [left, queue]
    rfl
  constructor
  · exact (congrArg TcpState.early state).trans inv.early
  · exact backed'
  · rw [names]
    exact inv.ids
  · exact each (p := fun j => j.id < s.nextSkb) id inv.queued
  · rw [ids]
    exact inv.once
  · rw [ids]
    rintro i (old | resent)
    · exact inv.below i (.inl old)
    · rcases List.mem_append.mp resent with old | new
      · exact inv.below i (.inr old)
      · obtain rfl := List.mem_singleton.mp new
        exact inv.queued k (by rw [queue]; simp)
  · have counted := inv.counted
    rw [queue] at counted
    rw [ids, left]
    exact inflight.trans counted
  · rw [ids]
    exact each (p := fun j => j.id ∉ sentIds s → j.seq = 0) id inv.waiting
  · exact each (p := fun j => j.th.fin = true → j.payload = []) id inv.plain
  · have behind := inv.behind
    have distinct := inv.ids
    rw [queue] at behind distinct
    rw [List.map_cons, List.nodup_cons] at distinct
    rw [ids, left]
    intro j member unsent again
    rcases List.mem_append.mp again with old | new
    · exact behind j member unsent old
    · rw [← List.mem_singleton.mp new] at distinct
      exact distinct.1 (List.mem_map_of_mem member)
  · exact fun zero => absurd zero raised
  · intro idle opened
    have opens : Open s := by
      refine opened.imp (fun _ none => ?_) fun sending => ?_
      · rw [queue] at none
        cases none
      · exact (congrArg TcpState.sending state).symm.trans sending
    have reached := inv.idle (inflight.symm.trans idle) opens
    rw [← tcb] at reached
    exact reached
  · intro flying
    obtain ⟨pre, last, post, before⟩ := inv.latest fun idle => flying (inflight.trans idle)
    have onward : t.tsk.state.sending = true → s.tsk.state.sending = true :=
      (congrArg TcpState.sending state).symm.trans
    have una : t.tsk.tcb.sndUna = s.tsk.tcb.sndUna := congrArg Tcb.sndUna tcb
    have nxt : t.tsk.tcb.sndNxt = s.tsk.tcb.sndNxt := congrArg Tcb.sndNxt tcb
    have split := queue.symm.trans before.queue
    cases pre with
    | nil =>
      obtain ⟨rfl, rfl⟩ := List.cons.inj split
      refine ⟨[], k', rest, left, ids ▸ before.sent, ids ▸ before.behind, nxt ▸ before.ends, ?_⟩
      rw [una]
      exact fun fin more => before.alone fin (more.imp id onward)
    | cons first pre =>
      obtain ⟨rfl, rfl⟩ := List.cons.inj split
      refine ⟨k' :: pre, last, post, left, ids ▸ before.sent, ids ▸ before.behind,
        nxt ▸ before.ends, ?_⟩
      rw [una]
      exact fun fin more => before.alone fin (more.imp id onward)
  · exact fun opened => (inv.opened (state ▸ opened)).of_map isFin
  · exact fun finWait => (inv.closed (state ▸ finWait)).of_map isFin
  · rw [left]
    intro none
    cases none
  · rw [left]
    rintro (zero | none)
    · exact absurd zero raised
    · cases none

/- The FIN's timer moves CLOSE_WAIT to LAST_ACK; in ESTABLISHED there is no FIN. -/
theorem Karn.finState (inv : Karn all calm s) (some_fin : ¬NoFin s.tsk.writeQueue) :
    Karn all calm (tcpHandleFinState s) := by
  unfold tcpHandleFinState
  split
  · exact inv.move .lastAck rfl (fun h => by cases h) (fun h => by cases h) fun h => by cases h
  · rename_i at_state
    exact absurd (inv.opened at_state) some_fin
  · exact inv

theorem Gone.finState (inv : Gone s) : Gone (tcpHandleFinState s) := by
  unfold tcpHandleFinState
  split
  · rename_i at_state
    rcases inv.retired with h | ⟨h, -⟩ <;> rw [at_state] at h <;> cases h
  · rename_i at_state
    rcases inv.retired with h | ⟨h, -⟩ <;> rw [at_state] at h <;> cases h
  · exact inv

theorem Jammed.finState (inv : Jammed s) : Jammed (tcpHandleFinState s) := by
  unfold tcpHandleFinState
  split
  · exact ⟨rfl, inv.flying, inv.caught⟩
  · exact ⟨rfl, inv.flying, inv.caught⟩
  · exact inv

theorem retransmissionFailed_rtt (s : Conn) : RttFrame s (retransmissionFailed s) :=
  .of_rfl rfl rfl ⟨rfl, rfl⟩ rfl rfl

theorem tcpRetransmissionTimeout_karn (inv : KarnInv all calm s) (live : s.sock.skFreed = false) :
    (s.tsk.writeQueue.head? = none → KarnInv all calm (tcpRetransmissionTimeout s)) ∧
      ∀ k, s.tsk.writeQueue.head? = some k → ∀ calm',
        KarnInv (all ++ [k.id]) calm' (tcpRetransmissionTimeout s) := by
  have released := inv.frame (tcpReleaseRtoTimer_rtt s)
  have unset : (tcpReleaseRtoTimer s).tsk.retransmit = none := rfl
  unfold tcpRetransmissionTimeout skbPeek
  rw [show s.tsk.writeQueue = (tcpReleaseRtoTimer s).tsk.writeQueue from rfl,
    show s.sock.skFreed = (tcpReleaseRtoTimer s).sock.skFreed from rfl] at *
  generalize tcpReleaseRtoTimer s = t at *
  dsimp only
  constructor
  · intro none
    rw [none]
    dsimp only
    have empty := List.head?_eq_none_iff.mp none
    refine KarnInv.frame (s := { t with tsk.backoff := 0 }) ?_
      (.of_minor (tcpNotifyUser_minor _) ?_)
    · cases released with
      | live inv =>
        refine .live { inv with
          backed := inv.backed.reset rfl rfl rfl
          fresh := fun _ k member => ?_
          latest := fun flying => ?_
          calmed := fun _ opened => inv.calmed (.inr empty) opened }
        · rw [show t.tsk.writeQueue = [] from empty] at member
          cases member
        · obtain ⟨pre, k, post, last⟩ := inv.latest flying
          exact ⟨pre, k, post, { last with }⟩
      | gone inv => exact .gone ⟨inv.retired, inv.backed.reset rfl rfl rfl, fun _ => unset⟩
      | jammed inv => exact .jammed ⟨inv.early, inv.flying, inv.caught⟩
      | freed inv => exact .freed inv
    · unfold tcpNotifyUser
      split <;> exact Nat.le_refl _
  · intro k head calm'
    rw [head]
    dsimp only
    have same := tcpTransmitSkb_same t k t.tsk.tcb.sndUna
    have rto : (retransmitHead t k).tsk.rto = t.tsk.rto := same.rto
    have again : Backed t → Backed (retransmitHead t k) := fun backed =>
      backed.of_eq same.rto same.backoff (congrArg (·.tsk.srtt) same)
    cases released with
    | live inv =>
      split
      · exact .gone ((tcpDone_retires (again inv.backed)).frame (retransmissionFailed_rtt _))
      · rename_i more
        have sent := inv.resend head (rto ▸ more) calm'
        split
        · rename_i fin
          refine .live (sent.finState fun plain => ?_)
          have member : (tcpTransmitSkb t k t.tsk.tcb.sndUna).2 ∈
              (retransmissionBackoff (retransmitHead t k)).tsk.writeQueue := List.mem_cons_self
          have flag := plain _ member
          rw [tcpTransmitSkb_fin, fin] at flag
          cases flag
        · exact .live sent
    | gone inv =>
      have retired : Retired (retransmitHead t k) := inv.retired.stay (retransmitHead_stays t k)
      split
      · exact .gone ((tcpDone_retires (again inv.backed)).frame (retransmissionFailed_rtt _))
      · rename_i more
        obtain ⟨backed, raised⟩ := retransmissionBackoff_backed (again inv.backed) more
        have sent : Gone (retransmissionBackoff (retransmitHead t k)) :=
          ⟨retired, backed, fun zero => absurd zero raised⟩
        split
        · exact .gone sent.finState
        · exact .gone sent
    | jammed inv =>
      have sent : Jammed (retransmitHead t k) := by
        refine ⟨(congrArg TcpState.early same.state).trans inv.early, ?_, ?_⟩
        · exact fun idle => inv.flying (same.inflight.symm.trans idle)
        · have tcb : (retransmitHead t k).tsk.tcb = t.tsk.tcb := same.tcb
          rw [tcb]
          exact inv.caught
      split
      · exact .jammed ((sent.frame (tcpDone_send _)).frame (retransmissionFailed_rtt _).send)
      · have backed : Jammed (retransmissionBackoff (retransmitHead t k)) :=
          ⟨sent.early, sent.flying, sent.caught⟩
        split
        · exact .jammed backed.finState
        · exact .jammed backed
    | freed inv =>
      rw [inv.1] at live
      cases live

/- Only SYN_SENT sends the SYN again. -/
theorem tcpConnectRto_karn (inv : KarnInv all calm s) (moved : s.tsk.state ≠ .synSent) :
    KarnInv all calm (tcpConnectRto s) := by
  have released := inv.frame (tcpReleaseRtoTimer_rtt s)
  unfold tcpConnectRto
  rw [if_neg (show (tcpReleaseRtoTimer s).tsk.state ≠ .synSent from moved)]
  exact released

/-! ### Events -/

theorem socketFree_freed (s : Conn) : Freed (socketFree s) := by
  obtain ⟨_, eq⟩ := socketFree_eq s
  rw [eq]
  exact ⟨rfl, rfl⟩

theorem tcpAbort_karn (inv : KarnInv all calm s) : KarnInv all calm (tcpAbort s) := by
  have reset := tcpSendReset_minor s
  have backed : Backed s → Backed (tcpSendReset s) := fun before =>
    before.of_eq reset.same.rto reset.same.backoff (congrArg (·.tsk.srtt) reset.same)
  cases inv with
  | live inv => exact .gone (tcpDone_retires (backed inv.backed))
  | gone inv => exact .gone (tcpDone_retires (backed inv.backed))
  | jammed inv =>
    have moved : Jammed { s with tsk.tcb.sndUna := s.tsk.tcb.sndNxt } := ⟨inv.early, inv.flying, rfl⟩
    exact .jammed ((moved.frame (.of_minor reset)).frame (tcpDone_send _))
  | freed inv =>
    have moved : Freed { s with tsk.tcb.sndUna := s.tsk.tcb.sndNxt } := inv
    exact .freed ((moved.frame (.of_minor reset)).frame (tcpDone_send _))

theorem runHandler_karn {k : Option SkBuff} (h : Handler) (inv : KarnInv all calm s)
    (live : s.sock.skFreed = true → h = .socketGarbageCollect)
    (head : k = if Resends s h then s.tsk.writeQueue.head? else none) (calm' : Prop)
    (quiet : k = none → calm → calm') :
    KarnInv (all ++ k.toList.map SkBuff.id) calm' (runHandler s h) := by
  have release : ∀ u, KarnInv (all ++ k.toList.map SkBuff.id) calm' u →
      KarnInv (all ++ k.toList.map SkBuff.id) calm' (socketRelease u) :=
    fun u kept => kept.frame (.of_still (socketRelease_still u))
  have locked : KarnInv all calm (socketWrAcquire s) := inv.frame (.of_still (.of_wait rfl rfl rfl))
  have frame : k = none → ∀ u, RttFrame (socketWrAcquire s) u →
      KarnInv (all ++ k.toList.map SkBuff.id) calm' u := by
    rintro rfl u frame
    simpa using (locked.frame frame).mono (quiet rfl)
  have here : h ≠ .socketGarbageCollect → s.sock.skFreed = false := by
    intro other
    cases freed : s.sock.skFreed with
    | false => rfl
    | true => exact absurd (live freed) other
  cases h with
  | tcpConnectRto =>
    refine release _ ?_
    have still := here (by decide)
    by_cases moved : s.tsk.state = .synSent
    · have early : s.tsk.state.early = true := by rw [moved]; rfl
      cases inv with
      | live inv => exact absurd inv.early (by simp [early])
      | gone inv => rcases inv.retired with h | ⟨h, -⟩ <;> exact absurd (h.symm.trans moved) (by decide)
      | jammed inv => exact absurd inv.early (by simp [early])
      | freed inv => exact absurd (still.symm.trans inv.1) (by decide)
    · obtain rfl : k = none := head.trans (if_neg fun resends => moved resends.1)
      simpa using (tcpConnectRto_karn locked moved).mono (quiet rfl)
  | tcpRetransmissionTimeout =>
    refine release _ ?_
    obtain ⟨empty, again⟩ := tcpRetransmissionTimeout_karn locked (here (by decide))
    have head : k = s.tsk.writeQueue.head? := head.trans (if_pos trivial)
    cases at_head : k with
    | none =>
      have kept := empty (head.symm.trans at_head)
      simpa using kept.mono (quiet at_head)
    | some k => exact again k (head.symm.trans at_head) calm'
  | tcpSendDelack => exact release _ (frame (head.trans (if_neg id)) _ (tcpSendDelack_rtt _))
  | tcpLinger => exact release _ (frame (head.trans (if_neg id)) _ (tcpLinger_rtt _))
  | tcpUserTimeout =>
    refine release _ ?_
    obtain rfl : k = none := head.trans (if_neg id)
    have stopped : RttFrame (socketWrAcquire s) (stopLinger (socketWrAcquire s)) :=
      .of_rfl rfl rfl ⟨rfl, rfl⟩ rfl rfl
    have ended := (tcpAbort_karn (locked.frame stopped)).mono (quiet rfl)
    simpa [tcpUserTimeout] using ended
  | socketGarbageCollect =>
    obtain rfl : k = none := head.trans (if_neg id)
    unfold runHandler socketGarbageCollect
    dsimp only
    split
    · exact .freed (socketFree_freed _)
    · simpa using inv.mono (quiet rfl)

/- One event: what a timer sends is noted. -/
theorem exec_karn {acc : Resent} {e : Event} {r : Reply}
    (inv : KarnInv acc.all (acc.since = []) s) (taken : exec s e = some (t, r)) :
    KarnInv (noteResent acc s e t).all ((noteResent acc s e t).since = []) t := by
  have acks : ∀ head : List Nat, head = [] → (acc.since = [] ∨ AcksSent acc.all s t) →
      (if AcksSent acc.all s t then head else acc.since ++ head) = [] := by
    rintro head rfl calm
    split
    · rfl
    · rename_i more
      simpa using calm.resolve_right more
  by_cases special : (∃ i, e = .handler i) ∨ ∃ th payload, e = .segment th payload
  · rcases special with ⟨i, rfl⟩ | ⟨th, payload, rfl⟩
    · obtain ⟨h, found, gone, done⟩ := exec_handler_taken taken
      have head : resentHead s (.handler i) =
          if Resends (started s i) h.handler then (started s i).tsk.writeQueue.head? else none := by
        rw [resentHead, found]
        rfl
      have begun : KarnInv acc.all (acc.since = []) (started s i) :=
        inv.frame (.of_rfl rfl rfl ⟨rfl, rfl⟩ rfl rfl)
      have ran := runHandler_karn h.handler begun gone head
        ((noteResent acc s (.handler i) t).since = []) fun none calm => by
          refine acks _ ?_ (.inl calm)
          rw [none]
          rfl
      rw [done] at ran ⊢
      exact ran
    · obtain ⟨registered, -, -, rfl⟩ := exec_segment_taken taken
      have arrived : RttFrame s (arriving s th payload) :=
        .of_still ⟨.of_wait rfl rfl, Nat.le_succ _⟩
      have ran := tcpInputState_karn th (tcpInitSegment s th payload).2 (inv.frame arrived) registered
      have released := socketRelease_still (tcpInputState (arriving s th payload) th
        (tcpInitSegment s th payload).2)
      have kept := ran.frame (.of_still released)
      have follows := Follows.of_frame (RttFrame.of_still released).send
      have none : (noteResent acc s (.segment th payload) (tcpIn s th payload)).all = acc.all :=
        List.append_nil acc.all
      rw [none]
      refine kept.mono fun calm => acks [] rfl (calm.imp id fun all => ?_)
      have acked : AcksSent acc.all s (tcpInputState (arriving s th payload) th
          (tcpInitSegment s th payload).2) := all
      exact acked.follow follows
  · have other : resentHead s e = none := by
      cases e with
      | handler i => exact absurd (.inl ⟨i, rfl⟩) special
      | _ => rfl
    have kept : KarnInv acc.all (acc.since = []) t := by
      refine exec_still (P := KarnInv acc.all (acc.since = [])) (fun u v still kept =>
        kept.frame (.of_still still)) inv taken ?_ ?_ ?_ ?_ ?_ ?_ ?_ ?_ ?_ ?_
      · exact fun _ u _ => .freed (socketFree_freed u)
      · exact fun busy _ => inv.frame (.of_rfl rfl rfl ⟨rfl, rfl⟩ rfl rfl)
      · exact fun i _ call _ _ => absurd (.inl ⟨i, call⟩) special
      · exact fun buf _ live locked => tcpWrite_karn buf locked live
      · exact fun len _ _ locked => locked.frame (tcpRead_rtt _ len)
      · exact fun i b _ _ _ woken => woken.frame (receiveLoop_rtt _ _ _)
      · exact fun _ live locked => tcpClose_karn locked live
      · exact fun _ _ => tcpAbort_karn inv
      · intro addr port iss _ live closed _
        have early := inv.early live
        rw [closed] at early
        cases early
      · exact fun th payload call _ _ => absurd (.inr ⟨th, payload, call⟩) special
    have all : (noteResent acc s e t).all = acc.all := by
      simp [noteResent, other]
    rw [all]
    refine kept.mono fun calm => ?_
    have none : (resentHead s e).toList.map SkBuff.id = [] := by rw [other]; rfl
    exact acks _ none (.inl calm)

end HfIp
