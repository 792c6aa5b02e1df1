import HfIp.QueueRule

/- How `tcp_send` cuts what it is given into buffers of the segment size, whatever the peer's options have
   made of it (src/tcp_output.c, src/tcp_input.c). -/
namespace HfIp

/-! ### The size of a segment -/

/- `IP_HDR_LEN` and the header length in words, as `tcp_transmit_skb` and `ip_output` push them. -/
def datagramLength (seg : Segment) : Nat := 20 + 4 * seg.th.hl.val + seg.payload.length

def MTU : Nat := 1500

/- A buffer with text has the plain header. -/
structure FitsMtu (k : SkBuff) : Prop where
  text : k.payload.length ≤ 1460
  header : k.th.hl ≤ 5 ∨ k.payload = []

theorem mtu_laws : QueueLaws (fun mss => 536 ≤ mss ∧ mss ≤ 1460) FitsMtu
    (fun seg => datagramLength seg ≤ MTU) where
  sizes _ more most := ⟨UInt16.le_of_lt more, most⟩
  text k mss size text := by
    refine ⟨Nat.le_trans text.short (UInt16.le_iff_toNat_le.mp size.2), .inl ?_⟩
    rw [text.hl]
    decide
  fin k fin := ⟨by simp [fin.empty], .inr fin.empty⟩
  syn k syn := ⟨by simp [syn.empty], .inr syn.empty⟩
  sends k k' seg sent fits := by
    have header : k'.th.hl ≤ 5 ∨ k'.payload = [] := by
      rw [sent.hl, sent.payload]
      refine fits.header.imp (fun plain => ?_) id
      split
      · exact Nat.le_refl _
      · exact plain
    refine ⟨⟨sent.payload ▸ fits.text, header⟩, ?_⟩
    have words := k'.th.hl.isLt
    rw [datagramLength, MTU, sent.sentHl, sent.sentPayload]
    rcases header with plain | empty
    · have five : k'.th.hl.val ≤ 5 := plain
      have text := fits.text
      omega
    · rw [← sent.payload, empty, List.length_nil]
      omega
  bare seg empty := by
    have words := seg.th.hl.isLt
    rw [datagramLength, MTU, empty, List.length_nil]
    omega

/-! ### The loop -/

/- One turn: a buffer with the next bytes, PSH on the last. -/
def sendTurn (mss : Nat) (s : Conn) (buf : List UInt8) : Conn :=
  let al := tcpAllocSkb s 0 (buf.take mss)
  tcpQueueTransmitSkb al.1 { al.2 with
    th := { al.2.th with ack := true, psh := (buf.drop mss).length = 0 } }

/- The turns until nothing is left. -/
inductive SendTurns (mss : Nat) : Conn → List UInt8 → Conn → Prop where
  | done {s : Conn} : SendTurns mss s [] s
  | turn {s t : Conn} {buf : List UInt8} (more : buf ≠ [])
      (rest : SendTurns mss (sendTurn mss s buf) (buf.drop mss) t) : SendTurns mss s buf t

/-- The loop ends, after no more turns than there are bytes. -/
theorem tcpSendLoop_turns {mss : Nat} (positive : 0 < mss) (fuel : Nat) (s : Conn) (buf : List UInt8)
    (enough : buf.length ≤ fuel) : SendTurns mss s buf (tcpSendLoop mss fuel s buf) := by
  induction fuel generalizing s buf with
  | zero =>
    obtain rfl := List.length_eq_zero_iff.mp (Nat.le_zero.mp enough)
    exact .done
  | succ fuel ih =>
    rw [tcpSendLoop]
    split
    · rename_i none
      obtain rfl := List.length_eq_zero_iff.mp none
      exact .done
    · rename_i some_text
      refine .turn (fun none => some_text (none ▸ rfl)) (ih _ _ ?_)
      rw [List.length_drop]
      omega

/- What is queued for `buf`: consecutive pieces of it, all but the last of the full size, and PSH on the
   last one. -/
structure Cutting (mss : Nat) (buf : List UInt8) (more : List SkBuff) : Prop where
  whole : more.flatMap (·.payload) = buf
  full : ∀ k ∈ more.dropLast, k.payload.length = mss ∧ k.th.psh = false
  last : ∀ k ∈ more.getLast?, 0 < k.payload.length ∧ k.payload.length ≤ mss ∧ k.th.psh = true

/- Where there is a last piece there is text. -/
theorem Cutting.some_text {mss : Nat} {buf : List UInt8} {more : List SkBuff} (cutting : Cutting mss buf more)
    (some_piece : more ≠ []) : 0 < buf.length := by
  have last := cutting.last (more.getLast some_piece) (List.getLast?_eq_getLast_of_ne_nil some_piece)
  have inside := (List.sublist_flatten_of_mem (List.mem_map_of_mem (f := fun k : SkBuff => k.payload)
    (List.getLast_mem some_piece))).length_le
  rw [← List.flatMap_def, cutting.whole] at inside
  omega

theorem Cutting.cons {mss : Nat} {buf : List UInt8} {k : SkBuff} {more : List SkBuff}
    (rest : Cutting mss (buf.drop mss) more) (positive : 0 < mss) (some_text : buf ≠ [])
    (payload : k.payload = buf.take mss) (psh : k.th.psh = decide ((buf.drop mss).length = 0)) :
    Cutting mss buf (k :: more) := by
  have length : k.payload.length = min mss buf.length := by rw [payload, List.length_take]
  have text := List.length_pos_iff.mpr some_text
  have left : (buf.drop mss).length = buf.length - mss := List.length_drop
  refine ⟨?_, ?_, ?_⟩
  · rw [List.flatMap_cons, rest.whole, payload, List.take_append_drop]
  · cases more with
    | nil => simp
    | cons next more =>
      intro j member
      rw [List.dropLast_cons_cons] at member
      rcases List.mem_cons.mp member with rfl | later
      · have longer := rest.some_text (by simp)
        refine ⟨by omega, ?_⟩
        rw [psh]
        exact decide_eq_false (by omega)
      · exact rest.full j later
  · cases more with
    | nil =>
      have none_left : buf.drop mss = [] := rest.whole.symm
      intro j member
      obtain rfl : k = j := by simpa using member
      refine ⟨by omega, by omega, ?_⟩
      rw [psh, none_left]
      rfl
    | cons next more =>
      rw [List.getLast?_cons_cons]
      exact rest.last

/- A turn adds one buffer with the bytes and flags it was made with, and leaves the others alone. -/
theorem sendTurn_queues (mss : Nat) (s : Conn) (buf : List UInt8) : ∃ k,
    (sendTurn mss s buf).tsk.writeQueue = s.tsk.writeQueue ++ [k] ∧ k.payload = buf.take mss ∧
      k.th.psh = decide ((buf.drop mss).length = 0) := by
  unfold sendTurn
  dsimp only
  generalize hk : ({ (tcpAllocSkb s 0 (buf.take mss)).2 with
    th := { (tcpAllocSkb s 0 (buf.take mss)).2.th with
      ack := true, psh := decide ((buf.drop mss).length = 0) } } : SkBuff) = k
  by_cases idle : s.tsk.inflight = 0
  · obtain ⟨k', seg, transmits, queue, -⟩ :=
      tcpQueueTransmitSkb_transmits (tcpAllocSkb s 0 (buf.take mss)).1 k idle
    refine ⟨k', queue, ?_, ?_⟩
    · rw [transmits.payload, ← hk]
      rfl
    · rw [transmits.psh, ← hk]
  · obtain ⟨u, frame, later⟩ := tcpQueueTransmitSkb_later (s := (tcpAllocSkb s 0 (buf.take mss)).1) k idle
    refine ⟨k, ?_, ?_, ?_⟩
    · rw [later]
      exact congrArg (· ++ [k]) frame.writeQueue
    · rw [← hk]
      rfl
    · rw [← hk]

theorem SendTurns.cuts {mss : Nat} (positive : 0 < mss) {s t : Conn} {buf : List UInt8}
    (turns : SendTurns mss s buf t) : ∃ more, t.tsk.writeQueue = s.tsk.writeQueue ++ more ∧
      Cutting mss buf more := by
  induction turns with
  | done => exact ⟨[], (List.append_nil _).symm, rfl, by simp, by simp⟩
  | @turn s t buf some_text rest ih =>
    obtain ⟨k, first, payload, psh⟩ := sendTurn_queues mss s buf
    obtain ⟨more, queue, cutting⟩ := ih
    refine ⟨k :: more, ?_, cutting.cons positive some_text payload psh⟩
    rw [queue, first, List.append_assoc]
    rfl

/-- In every state that a run comes to, `tcp_send` ends, and has added to the write queue, behind what was
    there, the pieces of what it was given; no segment that it sends, and none sent before, is larger than
    an Ethernet frame allows. -/
theorem tcp_send_segments {trace : List (Event × Reply)} {s : Conn} (buf : List UInt8)
    (run : Transition.Run exec (fun _ _ _ => True) {} trace s) (some_text : buf ≠ []) :
    (536 ≤ s.tsk.smss ∧ s.tsk.smss ≤ 1460) ∧
      (∃ t, SendTurns s.tsk.smss.toNat { s with accepted := s.accepted ++ buf } buf t ∧
        tcpSend s buf = tcpRearmUserTimeout t) ∧
      (∃ more, more ≠ [] ∧ (tcpSend s buf).tsk.writeQueue = s.tsk.writeQueue ++ more ∧
        Cutting s.tsk.smss.toNat buf more) ∧
      ∀ seg ∈ (tcpSend s buf).out, datagramLength seg ≤ MTU := by
  have size_pos : ∀ mss : UInt16, 536 ≤ mss ∧ mss ≤ 1460 → 0 < mss.toNat := fun mss size =>
    Nat.lt_of_lt_of_le (by decide) (UInt16.le_iff_toNat_le.mp size.1)
  have fits := mtu_laws.run size_pos ⟨by decide, by decide⟩ run
  have positive := size_pos _ fits.smss
  have turns := tcpSendLoop_turns positive buf.length { s with accepted := s.accepted ++ buf } buf
    (Nat.le_refl _)
  obtain ⟨more, queue, cutting⟩ := turns.cuts positive
  refine ⟨fits.smss, ⟨_, turns, rfl⟩, ⟨more, ?_, ?_, cutting⟩, ?_⟩
  · rintro rfl
    exact some_text cutting.whole.symm
  · exact (tcpRearmUserTimeout_send _).writeQueue.trans queue
  · have taken : Carries (fun mss => 536 ≤ mss ∧ mss ≤ 1460) FitsMtu (fun seg => datagramLength seg ≤ MTU)
        { s with accepted := s.accepted ++ buf } := fits.eq rfl rfl rfl
    exact (mtu_laws.frame (mtu_laws.sendLoop fits.smss positive buf.length buf taken)
      (tcpRearmUserTimeout_send _)).out

/- After a SYN-ACK whose options announce 600 bytes. -/
theorem tcp_send_segments_announced : ∃ trace s more, Transition.Run exec (fun _ _ _ => True) {} trace s ∧
    s.tsk.smss = 600 ∧ (tcpSend s [65, 66]).tsk.writeQueue = s.tsk.writeQueue ++ more ∧
    Cutting 600 [65, 66] more := by
  obtain ⟨trace, s, run, smss⟩ : ∃ trace s, Transition.Run exec (fun _ _ _ => True) {} trace s ∧
      s.tsk.smss = 600 :=
    Transition.Run.exists_of_follow (handshake.take 2 ++ [.segment { peerHdr 5000 1001 with
      syn := true, hl := 6, data := [TCP_OPT_MSS, TCP_OPTLEN_MSS, 2, 88] } []])
      (P := fun (s : Conn) => s.tsk.smss = 600) (by decide +kernel)
  obtain ⟨-, -, ⟨more, -, queue, cutting⟩, -⟩ := tcp_send_segments [65, 66] run (by decide)
  rw [smss] at cutting
  exact ⟨trace, s, more, run, smss, queue, cutting⟩

end HfIp
