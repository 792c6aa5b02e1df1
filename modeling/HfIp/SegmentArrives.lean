import HfIp.Receipt
import HfIp.AckVolley
import HfIp.SequenceOrder

/- Which segments are taken: the ACK field of an old segment, and the test of the sequence number against
   that of the standard. -/
namespace HfIp

variable {s : Conn} {th : TcpHdr} {skb : SkBuff} {a : UInt32}

/-! ### Old acknowledgements -/

/- The segment has neither a FIN in sequence nor text that is not yet there. -/
structure BringsNothing (s : Conn) (th : TcpHdr) (skb : SkBuff) : Prop where
  fin : th.fin = true → skb.seq ≠ s.tsk.tcb.rcvNxt
  text : th.psh = true ∨ 0 < skb.dlen → s.tsk.tcb.rcvWnd = 0 ∨
    skb.seq ≠ s.tsk.tcb.rcvNxt ∧ insertOrdered skb s.tsk.ofoQueue = none

theorem insertOrdered_length {queue queue' : List SkBuff} (inserted : insertOrdered skb queue = some queue') :
    queue'.length = queue.length + 1 := by
  induction queue generalizing queue' with
  | nil =>
    obtain rfl := Option.some.inj inserted
    rfl
  | cons next rest ih =>
    have behind : ∀ {queue'}, (insertOrdered skb rest).map (next :: ·) = some queue' →
        queue'.length = (next :: rest).length + 1 := by
      intro queue' found
      obtain ⟨tail, eq, rfl⟩ := Option.map_eq_some_iff.mp found
      exact congrArg (· + 1) (ih eq)
    rw [insertOrdered] at inserted
    split at inserted
    · split at inserted
      · exact behind inserted
      · obtain rfl := Option.some.inj inserted
        rfl
    · split at inserted
      · cases inserted
      · exact behind inserted

/- The search looks at the numbers only. -/
theorem insertOrdered_none {k : SkBuff} (seq : k.seq = skb.seq) (endSeq : k.endSeq = skb.endSeq)
    (queue : List SkBuff) : insertOrdered k queue = none ↔ insertOrdered skb queue = none := by
  induction queue with
  | nil => simp [insertOrdered]
  | cons next rest ih =>
    rw [insertOrdered, insertOrdered, seq, endSeq]
    split
    · split
      · simp only [Option.map_eq_none_iff, ih]
      · simp
    · split
      · simp
      · simp only [Option.map_eq_none_iff, ih]

theorem tcpDataInsertOrdered_eq (queue : List SkBuff) :
    (tcpDataInsertOrdered queue skb).1 = queue ↔ insertOrdered skb queue = none := by
  have same := @insertOrdered_none skb { skb with refcnt := skb.refcnt + 1 } rfl rfl queue
  unfold tcpDataInsertOrdered
  dsimp only
  rw [← same]
  cases inserted : insertOrdered { skb with refcnt := skb.refcnt + 1 } queue with
  | none => simp
  | some queue' =>
    have longer := insertOrdered_length inserted
    refine iff_of_false ?_ (by simp)
    intro eq
    have length := congrArg List.length eq
    dsimp only at length
    omega

theorem takeText_eq (r : Receipt) : takeText r skb = r ↔
    r.rcvWnd = 0 ∨ skb.seq ≠ r.rcvNxt ∧ insertOrdered skb r.ofoQueue = none := by
  unfold takeText
  by_cases shut : r.rcvWnd = 0
  · simp [shut]
  · rw [if_neg shut, or_iff_right shut]
    by_cases hit : skb.seq = r.rcvNxt
    · rw [if_pos hit]
      refine iff_of_false ?_ (fun both => both.1 hit)
      intro same
      have length := congrArg (fun r => r.receiveQueue.length) same
      simp only [List.length_append, List.length_cons] at length
      omega
    · rw [if_neg hit, and_iff_right hit, ← tcpDataInsertOrdered_eq]
      exact ⟨congrArg Receipt.ofoQueue, fun same => by rw [same]⟩

theorem takeSegment_eq (text : s.tsk.state.phase = .text) :
    takeSegment (receipt s) th skb = receipt s ↔ BringsNothing s th skb := by
  have queued : (if th.psh ∨ 0 < skb.dlen then takeText (receipt s) skb
      else receipt s) = receipt s ↔ (th.psh = true ∨ 0 < skb.dlen → s.tsk.tcb.rcvWnd = 0 ∨
        skb.seq ≠ s.tsk.tcb.rcvNxt ∧ insertOrdered skb s.tsk.ofoQueue = none) := by
    split
    · rename_i some
      rw [takeText_eq]
      exact ⟨fun h _ => h, fun h => h some⟩
    · rename_i nothing
      exact iff_of_true rfl fun some => absurd some nothing
  unfold takeSegment
  dsimp only
  by_cases fin : th.fin = true ∧ skb.seq = s.tsk.tcb.rcvNxt
  · rw [if_pos (show th.fin = true ∧ skb.seq = (receipt s).rcvNxt from fin)]
    refine iff_of_false ?_ (fun nothing => nothing.fin fin.1 fin.2)
    intro same
    have phase : Phase.finished = s.tsk.state.phase := congrArg Receipt.phase same
    rw [text] at phase
    cases phase
  · rw [if_neg (show ¬(th.fin = true ∧ skb.seq = (receipt s).rcvNxt) from fin), queued]
    exact ⟨fun h => ⟨fun set hit => fin ⟨set, hit⟩, h⟩, fun h => h.text⟩

/-- An ACK number that is not the newest makes the segment do to the receive side what the newest would,
    only when the segment has nothing to bring, or the newest number is itself beyond what has been sent. -/
theorem stale_ack_exact (text : s.tsk.state.phase = .text)
    (verified : tcpVerifySegment s.tsk th skb = true) (rst : th.rst = false) (syn : th.syn = false)
    (ack : th.ack = true) (old : a ≤ s.tsk.tcb.sndUna) :
    receipt (tcpInputState s { th with ackSeq := a } skb) =
      receipt (tcpInputState s { th with ackSeq := s.tsk.tcb.sndUna } skb) ↔
    a = s.tsk.tcb.sndUna ∨ BringsNothing s th skb ∨ s.tsk.tcb.sndNxt < s.tsk.tcb.sndUna := by
  have newest : receipt (tcpInputState s { th with ackSeq := s.tsk.tcb.sndUna } skb) =
      if s.tsk.tcb.sndNxt < s.tsk.tcb.sndUna then receipt s
      else takeSegment (receipt s) th skb := by
    split
    · rename_i beyond
      refine tcpInputState_dropped text rst ?_ verified
      exact fun inside => UInt32.not_le.mpr beyond inside.2
    · rename_i sent
      exact tcpInputState_receipt ⟨text, rst, syn, ack, UInt32.le_refl _, UInt32.not_lt.mp sent⟩
        verified
  rw [newest]
  by_cases same : a = s.tsk.tcb.sndUna
  · subst same
    rw [newest]
    exact iff_of_true rfl (.inl rfl)
  · have dropped : receipt (tcpInputState s { th with ackSeq := a } skb) = receipt s := by
      refine tcpInputState_dropped text rst ?_ verified
      exact fun inside => same (UInt32.le_antisymm old inside.1)
    rw [dropped, or_iff_right same]
    split
    · rename_i beyond
      exact iff_of_true rfl (.inr beyond)
    · rename_i sent
      rw [or_iff_left sent, eq_comm]
      exact takeSegment_eq text

def oldAckAt (sndUna : UInt32) : Conn :=
  { openedAt 5000 with tsk.tcb.sndUna := sndUna, tsk.tcb.sndNxt := sndUna }

/- Text out of order behind an ACK number that was the newest once. -/
theorem stale_ack_exact_repeated :
    (receipt (tcpInputState (oldAckAt 2000) { seq := 5003, ackSeq := 1500, ack := true }
        { id := 0, seq := 5003, endSeq := 5004, payload := [7] }) =
      receipt (tcpInputState (oldAckAt 2000) { seq := 5003, ackSeq := 2000, ack := true }
        { id := 0, seq := 5003, endSeq := 5004, payload := [7] }) ↔
    (1500 : UInt32) = 2000 ∨ BringsNothing (oldAckAt 2000) { seq := 5003, ack := true }
      { id := 0, seq := 5003, endSeq := 5004, payload := [7] } ∨ (2000 : UInt32) < 2000) :=
  @stale_ack_exact (oldAckAt 2000) { seq := 5003, ack := true }
    { id := 0, seq := 5003, endSeq := 5004, payload := [7] } 1500 (by decide) (by decide) rfl rfl rfl
    (by decide)

/- Three bytes in sequence, and a FIN: with the old number nothing of it is taken. -/
theorem stale_ack_loses_text :
    tcpVerifySegment (oldAckAt 2000).tsk { seq := 5001, ackSeq := 1500, ack := true, fin := true }
      { id := 0, seq := 5001, endSeq := 5004, payload := [7, 8, 9] } = true ∧
    (receipt (tcpInputState (oldAckAt 2000) { seq := 5001, ackSeq := 1500, ack := true, fin := true }
      { id := 0, seq := 5001, endSeq := 5004, payload := [7, 8, 9] })).rcvNxt = 5001 ∧
    (receipt (tcpInputState (oldAckAt 2000) { seq := 5001, ackSeq := 2000, ack := true, fin := true }
      { id := 0, seq := 5001, endSeq := 5004, payload := [7, 8, 9] })).rcvNxt = 5005 := by
  decide +kernel

/-! ### The four cases of the standard -/

/- SEG.LEN: the text, the SYN and the FIN. -/
def segLen (th : TcpHdr) (skb : SkBuff) : Nat := skb.dlen.toNat + th.syn.toNat + th.fin.toNat

/- The test of RFC 793. -/
def Acceptable (tcb : Tcb) (seq len : Nat) : Prop :=
  if len = 0 then
    if tcb.rcvWnd.toNat = 0 then seq = tcb.rcvNxt.toNat
    else tcb.rcvNxt.toNat ≤ seq ∧ seq < tcb.rcvNxt.toNat + tcb.rcvWnd.toNat
  else
    if tcb.rcvWnd.toNat = 0 then False
    else (tcb.rcvNxt.toNat ≤ seq ∧ seq < tcb.rcvNxt.toNat + tcb.rcvWnd.toNat) ∨
      (tcb.rcvNxt.toNat ≤ seq + len - 1 ∧ seq + len - 1 < tcb.rcvNxt.toNat + tcb.rcvWnd.toNat)

/- The segment begins at or before `rcv_nxt` and has a tail in the window. -/
structure Coalesced (tcb : Tcb) (seq len : Nat) : Prop where
  first : seq ≤ tcb.rcvNxt.toNat
  last : tcb.rcvNxt.toNat < seq + len
  inside : seq + len ≤ tcb.rcvNxt.toNat + tcb.rcvWnd.toNat

/- No number of the window, of the segment or of what waits out of order wraps. -/
structure Unwrapped (s : Conn) (th : TcpHdr) (skb : SkBuff) : Prop where
  window : s.tsk.tcb.rcvNxt.toNat + s.tsk.tcb.rcvWnd.toNat < 2 ^ 32
  text : th.seq.toNat + segLen th skb < 2 ^ 32
  early : OfoFits 1 s

/-- The first check of `tcp_input_state` is that of the standard. -/
structure FollowsStandard (s : Conn) (th : TcpHdr) (skb : SkBuff) : Prop where
  verified : tcpVerifySegment s.tsk th skb = true ↔ Acceptable s.tsk.tcb th.seq.toNat (segLen th skb)
  refused : tcpVerifySegment s.tsk th skb = false →
    tcpInputState s th skb = freeSkb (if th.rst then s else tcpSendAck s) skb
  advances : Coalesced s.tsk.tcb th.seq.toNat (segLen th skb) → LetThrough s th →
    th.seq.toNat + segLen th skb ≤ (tcpInputState s th skb).tsk.tcb.rcvNxt.toNat

/- The segments that the check of the first number alone misjudges: a SYN or FIN without text in an empty
   window, anything that begins just behind the window, and what begins before the window and ends in it. -/
inductive Misjudged (tcb : Tcb) (th : TcpHdr) (skb : SkBuff) : Prop where
  | alone (shut : tcb.rcvWnd = 0) (next : th.seq = tcb.rcvNxt) (bare : skb.dlen = 0)
      (flag : th.syn = true ∨ th.fin = true)
  | behind (wide : tcb.rcvWnd ≠ 0) (edge : th.seq = tcb.rcvNxt + tcb.rcvWnd)
  | straddles (early : th.seq < tcb.rcvNxt) (tail : Coalesced tcb th.seq.toNat (segLen th skb))

/- The check in numbers that do not wrap. -/
theorem tcpVerifySegment_iff (tsk : TcpSock)
    (window : tsk.tcb.rcvNxt.toNat + tsk.tcb.rcvWnd.toNat < 2 ^ 32) :
    tcpVerifySegment tsk th skb = true ↔ (skb.dlen.toNat = 0 ∨ tsk.tcb.rcvWnd.toNat ≠ 0) ∧
      tsk.tcb.rcvNxt.toNat ≤ th.seq.toNat ∧
      th.seq.toNat ≤ tsk.tcb.rcvNxt.toNat + tsk.tcb.rcvWnd.toNat := by
  have edge : (tsk.tcb.rcvNxt + tsk.tcb.rcvWnd).toNat = tsk.tcb.rcvNxt.toNat + tsk.tcb.rcvWnd.toNat := by
    rw [UInt32.toNat_add, Nat.mod_eq_of_lt window]
  unfold tcpVerifySegment
  simp only [gt_iff_lt, UInt32.lt_iff_toNat_lt, ← UInt32.toNat_inj, edge, UInt32.toNat_zero]
  split
  · rename_i shut
    exact iff_of_false (by simp) (by omega)
  · rename_i text
    split
    · rename_i outside
      exact iff_of_false (by simp) (by omega)
    · rename_i inside
      exact iff_of_true rfl (by omega)

theorem misjudged_iff (tcb : Tcb) (window : tcb.rcvNxt.toNat + tcb.rcvWnd.toNat < 2 ^ 32) :
    Misjudged tcb th skb ↔
      (tcb.rcvWnd.toNat = 0 ∧ th.seq.toNat = tcb.rcvNxt.toNat ∧ skb.dlen.toNat = 0 ∧
        0 < th.syn.toNat + th.fin.toNat) ∨
      (tcb.rcvWnd.toNat ≠ 0 ∧ th.seq.toNat = tcb.rcvNxt.toNat + tcb.rcvWnd.toNat) ∨
      (th.seq.toNat < tcb.rcvNxt.toNat ∧ tcb.rcvNxt.toNat < th.seq.toNat + segLen th skb ∧
        th.seq.toNat + segLen th skb ≤ tcb.rcvNxt.toNat + tcb.rcvWnd.toNat) := by
  have edge : (tcb.rcvNxt + tcb.rcvWnd).toNat = tcb.rcvNxt.toNat + tcb.rcvWnd.toNat := by
    rw [UInt32.toNat_add, Nat.mod_eq_of_lt window]
  have flags : 0 < th.syn.toNat + th.fin.toNat ↔ th.syn = true ∨ th.fin = true := by
    cases th.syn <;> cases th.fin <;> decide
  rw [flags]
  constructor
  · intro misjudged
    cases misjudged with
    | alone shut next bare flag =>
      exact .inl ⟨congrArg UInt32.toNat shut, congrArg UInt32.toNat next, congrArg UInt32.toNat bare, flag⟩
    | behind wide eq =>
      exact .inr (.inl ⟨fun zero => wide (UInt32.toNat_inj.mp zero),
        (congrArg UInt32.toNat eq).trans edge⟩)
    | straddles early tail =>
      exact .inr (.inr ⟨UInt32.lt_iff_toNat_lt.mp early, tail.last, tail.inside⟩)
  · rintro (⟨shut, next, bare, flag⟩ | ⟨wide, eq⟩ | ⟨early, last, inside⟩)
    · exact .alone (UInt32.toNat_inj.mp shut) (UInt32.toNat_inj.mp next) (UInt32.toNat_inj.mp bare) flag
    · exact .behind (fun zero => wide (congrArg UInt32.toNat zero))
        (UInt32.toNat_inj.mp (eq.trans edge.symm))
    · exact .straddles (UInt32.lt_iff_toNat_lt.mpr early) ⟨Nat.le_of_lt early, last, inside⟩

/- The two tests agree on all other segments and on none of these. -/
theorem tcpVerifySegment_standard (tsk : TcpSock)
    (window : tsk.tcb.rcvNxt.toNat + tsk.tcb.rcvWnd.toNat < 2 ^ 32) :
    (tcpVerifySegment tsk th skb = true ↔ Acceptable tsk.tcb th.seq.toNat (segLen th skb)) ↔
      ¬Misjudged tsk.tcb th skb := by
  rw [tcpVerifySegment_iff tsk window, misjudged_iff tsk.tcb window]
  unfold Acceptable segLen
  generalize th.syn.toNat = syn, th.fin.toNat = fin, skb.dlen.toNat = dlen, th.seq.toNat = seq,
    tsk.tcb.rcvNxt.toNat = nxt, tsk.tcb.rcvWnd.toNat = wnd
  by_cases empty : dlen + syn + fin = 0
  · rw [if_pos empty]
    split
    · omega
    · omega
  · rw [if_neg empty]
    split
    · rw [iff_false]
      omega
    · omega

/- A segment in sequence takes `rcv_nxt` to its end at least. -/
theorem takeSegment_reaches {r : Receipt} (hit : skb.seq = r.rcvNxt) (wide : r.rcvWnd ≠ 0)
    (room : skb.seq.toNat + (skb.dlen.toNat + th.fin.toNat) < 2 ^ 32)
    (early : ∀ k ∈ r.ofoQueue, k.seq.toNat + k.payload.length + 1 < 2 ^ 32) :
    skb.seq.toNat + (skb.dlen.toNat + th.fin.toNat) ≤ (takeSegment r th skb).rcvNxt.toNat := by
  have fits : ∀ k ∈ r.ofoQueue, k.seq.toNat + k.payload.length + th.fin.toNat < 2 ^ 32 := by
    intro k member
    have := early k member
    have := Bool.toNat_le th.fin
    omega
  set text := if th.psh ∨ 0 < skb.dlen then takeText r skb else r with queued
  have reached : skb.seq.toNat + skb.dlen.toNat ≤ text.rcvNxt.toNat ∧
      text.rcvNxt.toNat + th.fin.toNat < 2 ^ 32 := by
    rw [queued]
    split
    · have stop : (r.rcvNxt + skb.dlen).toNat = skb.seq.toNat + skb.dlen.toNat := by
        rw [← hit, UInt32.toNat_add, Nat.mod_eq_of_lt (by omega)]
      obtain ⟨grows, within⟩ := consumeLoop_grows fits
        (show (r.rcvNxt + skb.dlen).toNat + th.fin.toNat < 2 ^ 32 by omega)
      unfold takeText
      rw [if_neg wide, if_pos hit]
      exact ⟨Nat.le_trans (Nat.le_of_eq stop.symm) grows, within⟩
    · rename_i nothing
      have bare : skb.dlen.toNat = 0 := by
        by_contra some
        exact nothing (.inr (UInt32.lt_iff_toNat_lt.mpr (Nat.pos_of_ne_zero some)))
      rw [hit] at room ⊢
      omega
  unfold takeSegment
  rw [← queued]
  dsimp only
  cases fin : th.fin
  · rw [if_neg (by simp)]
    exact reached.1
  · rw [if_pos ⟨rfl, hit⟩]
    simp only [fin, Bool.toNat_true] at reached
    have last : (text.rcvNxt + 1).toNat = text.rcvNxt.toNat + 1 := by
      rw [UInt32.toNat_add, UInt32.toNat_one, Nat.mod_eq_of_lt (by omega)]
    show skb.seq.toNat + (skb.dlen.toNat + 1) ≤ (text.rcvNxt + 1).toNat
    omega

/-- `tcp_input_state` judges a segment as the standard does, and takes `rcv_nxt` to the end of one with a
    new tail, exactly when the segment is of none of the three kinds that the check misjudges. -/
theorem segment_acceptability_exact (sync : s.tsk.state.synchronized = true) (arrived : skb.seq = th.seq)
    (unwrapped : Unwrapped s th skb) : FollowsStandard s th skb ↔ ¬Misjudged s.tsk.tcb th skb := by
  have standard := @tcpVerifySegment_standard th skb s.tsk unwrapped.window
  refine ⟨fun follows => standard.mp follows.verified, fun fair => ⟨standard.mpr fair, ?_, ?_⟩⟩
  · intro rejected
    rw [tcpInputState_synchronized sync]
    unfold inputOtherwise
    rw [rejected]
    rfl
  · intro coalesced through
    have next : th.seq.toNat = s.tsk.tcb.rcvNxt.toNat := by
      by_contra other
      have first := coalesced.first
      exact fair (.straddles (UInt32.lt_iff_toNat_lt.mpr (by omega)) coalesced)
    have wide : s.tsk.tcb.rcvWnd.toNat ≠ 0 := by
      have last := coalesced.last
      have inside := coalesced.inside
      omega
    have verified := (@tcpVerifySegment_iff th skb s.tsk unwrapped.window).mpr
      ⟨.inr wide, Nat.le_of_eq next.symm, by omega⟩
    have len : segLen th skb = skb.dlen.toNat + th.fin.toNat := by
      unfold segLen
      rw [through.syn, Bool.toNat_false, Nat.add_zero]
    have taken := congrArg Receipt.rcvNxt (tcpInputState_receipt through verified)
    have room := unwrapped.text
    rw [len, ← arrived] at room ⊢
    have reached := @takeSegment_reaches th skb (receipt s)
      (arrived.trans (UInt32.toNat_inj.mp next)) (fun zero => wide (congrArg UInt32.toNat zero)) room
      unwrapped.early
    rw [← taken] at reached
    exact reached

/- Text that begins one byte before `rcv_nxt` and brings two new ones. -/
theorem segment_acceptability_exact_tail :
    FollowsStandard (oldAckAt 2000) { seq := 5000, ackSeq := 2000, ack := true }
      { id := 0, seq := 5000, endSeq := 5003, payload := [6, 7, 8] } ↔
    ¬Misjudged (oldAckAt 2000).tsk.tcb { seq := 5000, ackSeq := 2000, ack := true }
      { id := 0, seq := 5000, endSeq := 5003, payload := [6, 7, 8] } :=
  segment_acceptability_exact (by decide) rfl ⟨by decide, by decide, by decide⟩

theorem segment_acceptability_misses_tail :
    Acceptable (oldAckAt 2000).tsk.tcb 5000 3 ∧
    tcpVerifySegment (oldAckAt 2000).tsk { seq := 5000, ackSeq := 2000, ack := true }
      { id := 0, seq := 5000, endSeq := 5003, payload := [6, 7, 8] } = false ∧
    (tcpInputState (oldAckAt 2000) { seq := 5000, ackSeq := 2000, ack := true }
      { id := 0, seq := 5000, endSeq := 5003, payload := [6, 7, 8] }).tsk.tcb.rcvNxt = 5001 := by
  refine ⟨?_, by decide, by decide +kernel⟩
  unfold Acceptable
  decide

end HfIp
