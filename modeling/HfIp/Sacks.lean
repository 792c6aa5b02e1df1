import HfIp.Lib.Intervals
import HfIp.OfoQueue
import HfIp.TcpBytes

/- The SACK option: which blocks `tcp_calculate_sacks` builds, and what goes out in the next ACK. -/
namespace HfIp

/-! ### The blocks -/

/- No block has been built, and there is room for each that may be. -/
structure SacksIdle (tsk : TcpSock) : Prop where
  sacklen : tsk.sacklen = 0
  sacks : tsk.sacks = List.replicate 4 {}
  inside : tsk.sacksOob = false
  allowed : tsk.sacksAllowed ≤ 4
  numbered : ∀ k ∈ tsk.ofoQueue, k.seq ≠ 0

/- The blocks of `queue` when `cur` is the last one so far and `limit` more may follow. -/
def sackBlocks (limit : Nat) (cur : SackBlock) : List SkBuff → List SackBlock
  | [] => [cur]
  | k :: rest =>
    if cur.right = 0 ∨ cur.right = k.seq then sackBlocks limit { cur with right := k.endSeq } rest
    else if limit = 0 then [cur]
    else cur :: sackBlocks (limit - 1) ⟨k.seq, k.endSeq⟩ rest

/- How many blocks there may be. -/
def sackLimit (tsk : TcpSock) : Nat := max 1 tsk.sacksAllowed

variable {tsk : TcpSock} {done blocks : List SackBlock} {cur : SackBlock} {queue : List SkBuff}
  {k : SkBuff} {limit : Nat}

theorem sackBlocks_length (limit : Nat) (cur : SackBlock) (queue : List SkBuff) :
    1 ≤ (sackBlocks limit cur queue).length ∧ (sackBlocks limit cur queue).length ≤ limit + 1 := by
  induction queue generalizing limit cur with
  | nil => simp [sackBlocks]
  | cons k rest ih =>
    rw [sackBlocks]
    split
    · exact ih limit _
    · split
      · simp
      · have := ih (limit - 1) ⟨k.seq, k.endSeq⟩
        rw [List.length_cons]
        omega

theorem sackBlocks_left (start : cur.left ≠ 0) (numbered : ∀ k ∈ queue, k.seq ≠ 0) :
    ∀ b ∈ sackBlocks limit cur queue, b.left ≠ 0 := by
  induction queue generalizing limit cur with
  | nil => simpa [sackBlocks] using start
  | cons k rest ih =>
    have later : ∀ m ∈ rest, m.seq ≠ 0 := fun m member => numbered m (by simp [member])
    rw [sackBlocks]
    split
    · exact ih start later
    · split
      · simpa using start
      · intro b member
        rcases List.mem_cons.mp member with rfl | member
        · exact start
        · exact ih (numbered k (by simp)) later b member

/- The slots of `sacks` while the blocks are built: those before the last one, the last one, free ones. -/
def slots (done : List SackBlock) (cur : SackBlock) : List SackBlock :=
  done ++ cur :: List.replicate (3 - done.length) {}

theorem slots_get : (slots done cur).getD done.length {} = cur := by simp [slots]

theorem slots_set (b : SackBlock) : (slots done cur).set done.length b = slots done b := by
  simp [slots]

theorem slots_next (room : done.length < 3) (b : SackBlock) :
    (slots done cur).set (done.length + 1) b = slots (done ++ [cur]) b := by
  obtain ⟨n, more⟩ : ∃ n, 3 - done.length = n + 1 := ⟨2 - done.length, by omega⟩
  have fewer : 3 - (done ++ [cur]).length = n := by
    rw [List.length_append, List.length_singleton]
    omega
  unfold slots
  rw [fewer, more, List.replicate_succ]
  simp [List.set_append_right]

theorem slots_full :
    done ++ [cur] ++ List.replicate (4 - (done.length + 1)) ({} : SackBlock) = slots done cur := by
  rw [slots, List.append_assoc, List.singleton_append, show 4 - (done.length + 1) = 3 - done.length by omega]

/- The loop does not leave the four slots, and fills them with these blocks. -/
theorem sackLoop_eq (slot : tsk.sacks = slots done cur) (count : tsk.sacklen = done.length + 1)
    (inside : tsk.sacksOob = false) (start : cur.left ≠ 0) (numbered : ∀ k ∈ queue, k.seq ≠ 0)
    (room : sackLimit tsk ≤ 4) (left : done.length + 1 + limit = sackLimit tsk) :
    sackLoop tsk done.length queue = { tsk with
      sacks := done ++ sackBlocks limit cur queue ++
        List.replicate (4 - (done.length + (sackBlocks limit cur queue).length)) {}
      sacklen := done.length + (sackBlocks limit cur queue).length } := by
  induction queue generalizing tsk done cur limit with
  | nil =>
    rw [sackBlocks, List.length_singleton, slots_full, ← slot, ← count]
    rfl
  | cons k rest ih =>
    have later : ∀ m ∈ rest, m.seq ≠ 0 := fun m member => numbered m (by simp [member])
    have here : tsk.sacks.getD done.length {} = cur := by rw [slot, slots_get]
    rw [sackBlocks]
    unfold sackLoop
    dsimp only
    rw [here, if_neg start, here]
    by_cases touch : cur.right = 0 ∨ cur.right = k.seq
    · rw [if_pos touch, if_pos touch]
      exact @ih { tsk with sacks := tsk.sacks.set done.length { cur with right := k.endSeq } } done
        { cur with right := k.endSeq } limit (by rw [slot]; exact slots_set _) count inside start later room
        left
    · rw [if_neg touch, if_neg touch]
      unfold sackLimit at left room
      by_cases full : limit = 0
      · rw [if_pos (by omega), if_pos full, List.length_singleton]
        rw [slots_full, ← slot, ← count]
      · have more := @ih { tsk with
            sacks := tsk.sacks.set tsk.sacklen ⟨k.seq, k.endSeq⟩
            sacksOob := tsk.sacksOob || decide (4 ≤ tsk.sacklen)
            sacklen := tsk.sacklen + 1 } (done ++ [cur]) ⟨k.seq, k.endSeq⟩ (limit - 1)
          (by rw [slot, count]; exact slots_next (by omega) _)
          (by rw [count, List.length_append, List.length_singleton])
          (by rw [inside, count, decide_eq_false (by omega)]; rfl) (numbered k (by simp)) later room
          (by unfold sackLimit; rw [List.length_append, List.length_singleton]; dsimp only; omega)
        rw [List.length_append, List.length_singleton] at more
        have stays : (tsk.sacksOob || decide (4 ≤ done.length + 1)) = tsk.sacksOob := by
          rw [decide_eq_false (by omega), Bool.or_false]
        rw [if_neg (by omega), if_neg full]
        simp only [count, stays] at more ⊢
        rw [more, List.length_cons, List.append_assoc done, List.singleton_append,
          show done.length + ((sackBlocks (limit - 1) ⟨k.seq, k.endSeq⟩ rest).length + 1) =
            done.length + 1 + (sackBlocks (limit - 1) ⟨k.seq, k.endSeq⟩ rest).length by omega]

/- What `tcp_calculate_sacks` builds from a queue that is not empty. -/
theorem tcpCalculateSacks_eq (idle : SacksIdle tsk) (some : tsk.ofoQueue = k :: queue) :
    tcpCalculateSacks tsk = { tsk with
      sacks := sackBlocks (sackLimit tsk - 1) ⟨k.seq, k.endSeq⟩ queue ++
        List.replicate (4 - (sackBlocks (sackLimit tsk - 1) ⟨k.seq, k.endSeq⟩ queue).length) {}
      sacklen := (sackBlocks (sackLimit tsk - 1) ⟨k.seq, k.endSeq⟩ queue).length } := by
  have numbered := idle.numbered
  rw [some] at numbered
  have bound : sackLimit tsk ≤ 4 := Nat.max_le.mpr ⟨by omega, idle.allowed⟩
  have least : 1 ≤ sackLimit tsk := Nat.le_max_left _ _
  have built := @sackLoop_eq { tsk with sacks := slots [] ⟨k.seq, k.endSeq⟩, sacklen := 1 } []
    ⟨k.seq, k.endSeq⟩ queue (sackLimit tsk - 1) rfl rfl idle.inside (numbered k (by simp))
    (fun m member => numbered m (by simp [member])) bound (by simp [sackLimit] at least ⊢)
  have first : tcpCalculateSacks tsk =
      sackLoop { tsk with sacks := slots [] ⟨k.seq, k.endSeq⟩, sacklen := 1 } 0 queue := by
    unfold tcpCalculateSacks
    rw [some, idle.sacklen, idle.sacks, idle.inside]
    rfl
  rw [first]
  simpa only [List.nil_append, List.length_nil, Nat.zero_add] using built

/-! ### The option -/

def sackBlockBytes (b : SackBlock) : List UInt8 := be32 b.left ++ be32 b.right

/- The blocks that the other end reads. -/
def readSackBlocks : List UInt8 → List SackBlock
  | a :: b :: c :: d :: e :: f :: g :: h :: rest =>
    ⟨dwordAt [a, b, c, d] 0, dwordAt [e, f, g, h] 0⟩ :: readSackBlocks rest
  | _ => []

/- A SACK option that ends with the option area, after any number of NOPs. -/
def readSackOption : List UInt8 → Option (List SackBlock)
  | kind :: len :: rest =>
    if kind = TCP_OPT_NOOP then readSackOption (len :: rest)
    else if kind = TCP_OPT_SACK ∧ len.toNat = 2 + rest.length then some (readSackBlocks rest)
    else none
  | _ => none

/- What `tcp_write_options` writes for the blocks. -/
def sackOptionBytes (blocks : List SackBlock) : List UInt8 :=
  [TCP_OPT_NOOP, TCP_OPT_NOOP, TCP_OPT_SACK, UInt8.ofNat (2 + blocks.length * 8)] ++
    blocks.reverse.flatMap sackBlockBytes

theorem dwordAt_be32 (x : UInt32) : dwordAt (be32 x) 0 = x := dwordAt_of_field (Buffer.field_whole (be32 x))

theorem readSackBlocks_bytes (blocks : List SackBlock) :
    readSackBlocks (blocks.flatMap sackBlockBytes) = blocks := by
  induction blocks with
  | nil => rfl
  | cons b rest ih =>
    have left := dwordAt_be32 b.left
    have right := dwordAt_be32 b.right
    rw [List.flatMap_cons]
    show ⟨dwordAt (be32 b.left) 0, dwordAt (be32 b.right) 0⟩ :: readSackBlocks (rest.flatMap _) = b :: rest
    rw [left, right, ih]

theorem length_sackBlockBytes (blocks : List SackBlock) :
    (blocks.flatMap sackBlockBytes).length = 8 * blocks.length := by
  induction blocks with
  | nil => rfl
  | cons b rest ih =>
    rw [List.flatMap_cons, List.length_append, ih, List.length_cons]
    show 8 + _ = _
    omega

theorem length_sackOptionBytes (blocks : List SackBlock) :
    (sackOptionBytes blocks).length = 8 * blocks.length + 4 := by
  rw [sackOptionBytes, List.length_append, length_sackBlockBytes, List.length_reverse]
  show 4 + _ = _
  omega

/- The other end reads the blocks, last one first. -/
theorem readSackOption_bytes (few : blocks.length ≤ 4) :
    readSackOption (sackOptionBytes blocks) = some blocks.reverse := by
  have length := length_sackBlockBytes blocks.reverse
  rw [List.length_reverse] at length
  have counted : (UInt8.ofNat (2 + blocks.length * 8)).toNat =
      2 + (blocks.reverse.flatMap sackBlockBytes).length := by
    rw [UInt8.toNat_ofNat', length, Nat.mod_eq_of_lt (by omega), Nat.mul_comm]
  have bytes : sackOptionBytes blocks = TCP_OPT_NOOP :: TCP_OPT_NOOP :: TCP_OPT_SACK ::
      UInt8.ofNat (2 + blocks.length * 8) :: blocks.reverse.flatMap sackBlockBytes := rfl
  rw [bytes, readSackOption, if_pos rfl, readSackOption, if_pos rfl, readSackOption,
    if_neg (by decide), if_pos ⟨rfl, counted⟩, readSackBlocks_bytes]

/- The blocks that are ready to go out. -/
structure SacksReady (tsk : TcpSock) (blocks : List SackBlock) : Prop where
  sackok : tsk.sackok = true
  sacks : tsk.sacks = blocks ++ List.replicate (4 - blocks.length) ({} : SackBlock)
  sacklen : tsk.sacklen = blocks.length
  inside : tsk.sacksOob = false
  some : 1 ≤ blocks.length
  few : blocks.length ≤ 4
  left : ∀ b ∈ blocks, b.left ≠ 0

namespace SacksReady

theorem get (ready : SacksReady tsk blocks) {i : Nat} (inside : i < blocks.length) :
    tsk.sacks.getD i {} = blocks[i] := by
  rw [ready.sacks, List.getD_eq_getElem?_getD, List.getElem?_append_left inside,
    List.getElem?_eq_getElem inside, Option.getD_some]

theorem optionsLen (ready : SacksReady tsk blocks) : tcpOptionsLen tsk = 8 * blocks.length + 4 := by
  have all : (List.range tsk.sacklen).countP (fun i => (tsk.sacks.getD i {}).left ≠ 0) =
      blocks.length := by
    rw [List.countP_eq_length.mpr, List.length_range, ready.sacklen]
    intro i member
    have inside : i < blocks.length := by
      rw [← ready.sacklen]
      exact List.mem_range.mp member
    rw [ready.get inside]
    exact decide_eq_true (ready.left _ (List.getElem_mem inside))
  have some := ready.some
  unfold tcpOptionsLen
  rw [ready.sackok, ready.sacklen, decide_eq_true (show 0 < blocks.length by omega)]
  rw [ready.sacklen] at all
  rw [Bool.and_self, if_pos rfl]
  dsimp only
  rw [all]
  omega

theorem set (ready : SacksReady tsk blocks) :
    (!tsk.sackok || decide ((tsk.sacks.getD 0 {}).left = 0)) = false := by
  have first : (tsk.sacks.getD 0 {}).left ≠ 0 := by
    rw [ready.get ready.some]
    exact ready.left _ (List.getElem_mem _)
  rw [ready.sackok, decide_eq_false first]
  rfl

theorem bytes (ready : SacksReady tsk blocks) : optionBytes tsk = sackOptionBytes blocks := by
  have listed : (List.range blocks.length).map (fun i => tsk.sacks.getD i {}) = blocks := by
    refine List.ext_getElem (by simp) fun i inside here => ?_
    rw [List.getElem_map, List.getElem_range, ready.get here]
  unfold optionBytes sackOptionBytes
  rw [if_neg (by rw [ready.set]; exact Bool.false_ne_true), ready.sacklen]
  conv_rhs => rw [← listed, ← List.map_reverse, List.flatMap_map]
  rw [List.length_map, List.length_range]
  rfl

/- All is clear again once the option has been written. -/
theorem written (ready : SacksReady tsk blocks) (th : TcpHdr) : (tcpWriteOptions tsk th).1 =
    { tsk with sacks := List.replicate 4 {}, sacklen := 0 } := by
  have few := ready.few
  have cleared : (tsk.sacks.mapIdx fun i b => if i < blocks.length then {} else b) =
      List.replicate 4 ({} : SackBlock) := by
    rw [ready.sacks]
    refine List.ext_getElem (by simp; omega) fun i inside here => ?_
    rw [List.getElem_mapIdx, List.getElem_replicate]
    split
    · rfl
    · rename_i behind
      rw [List.getElem_append_right (by omega), List.getElem_replicate]
  unfold tcpWriteOptions
  rw [if_neg (by rw [ready.set]; exact Bool.false_ne_true), ready.sacklen]
  dsimp only
  rw [cleared, ready.inside, decide_eq_false (by omega)]
  rfl

end SacksReady

theorem SacksReady.headerLen (ready : SacksReady tsk blocks) :
    (Fin.ofNat 16 (TCP_DOFFSET + tcpOptionsLen tsk / 4)).val = 2 * blocks.length + 6 := by
  have few := ready.few
  rw [ready.optionsLen]
  show (5 + (8 * blocks.length + 4) / 4) % 16 = _
  omega

variable {s : Conn}

/- The ACK that takes the blocks along. -/
theorem tcpSendAck_sacks (ready : SacksReady s.tsk blocks) (opened : s.tsk.state ≠ .close) :
    (tcpSendAck s).tsk = { s.tsk with sacks := List.replicate 4 {}, sacklen := 0 } ∧
    ∃ seg, (tcpSendAck s).out = s.out ++ [seg] ∧ seg.th.ack = true ∧
      seg.th.ackSeq = s.tsk.tcb.rcvNxt ∧ seg.th.data = sackOptionBytes blocks ∧
      seg.th.hl.val = 2 * blocks.length + 6 := by
  have val := ready.headerLen
  have length := length_sackOptionBytes blocks
  unfold tcpSendAck
  rw [if_neg opened]
  dsimp only
  rw [freeSkb_tsk, freeSkb_out]
  unfold tcpTransmitSkb tcpAllocSkb allocSkb
  dsimp only
  generalize Fin.ofNat 16 (TCP_DOFFSET + tcpOptionsLen s.tsk / 4) = hl at val
  have nonzero : hl ≠ 0 := by
    intro zero
    rw [zero] at val
    exact absurd val.symm (by simp)
  have long : hl > 5 := by
    rw [gt_iff_lt, Fin.lt_def, val]
    show 5 < _
    omega
  rw [if_neg nonzero, if_pos long]
  refine ⟨ready.written _, _, rfl, ?_, rfl, ?_, ?_⟩
  · rw [tcpWriteOptions_data]
  · rw [tcpWriteOptions_data, ready.bytes, ready.optionsLen, length]
    simp
  · rw [tcpWriteOptions_data]
    exact val

/-! ### The runs of the queue -/

open Intervals

def SkBuff.bounds (k : SkBuff) : Nat × Nat := (k.seq.toNat, k.endSeq.toNat)

def SackBlock.bounds (b : SackBlock) : Nat × Nat := (b.left.toNat, b.right.toNat)

/- The queue is sorted, its ranges apart, not empty, without wraps and ahead of `rcv_nxt`. -/
structure SackQueue (rcvNxt : UInt32) (queue : List SkBuff) : Prop where
  ordered : OfoOrdered rcvNxt queue
  some : ∀ k ∈ queue, k.seq < k.endSeq

theorem SackQueue.bounds_lt {rcvNxt : UInt32} (good : SackQueue rcvNxt queue) (member : k ∈ queue) :
    k.seq.toNat < k.endSeq.toNat := UInt32.lt_iff_toNat_lt.mp (good.some k member)

theorem SackQueue.tail {rcvNxt : UInt32} (good : SackQueue rcvNxt (k :: queue)) :
    SackQueue rcvNxt queue where
  ordered := ⟨good.ordered.increasing.of_cons, good.ordered.apart.of_cons,
    fun m member => good.ordered.ahead m (by simp [member])⟩
  some m member := good.some m (by simp [member])

theorem SackQueue.ascending {rcvNxt : UInt32} (good : SackQueue rcvNxt queue) :
    Ascending (queue.map SkBuff.bounds) := by
  induction queue with
  | nil => exact .nil
  | cons k rest ih =>
    have here := good.bounds_lt (k := k) (by simp)
    cases rest with
    | nil => exact .one here
    | cons m rest =>
      have next := good.tail.bounds_lt (k := m) (by simp)
      have before : k.seq < m.seq := (List.pairwise_cons.mp good.ordered.increasing).1 m (by simp)
      have apart : Apart k m := (List.pairwise_cons.mp good.ordered.apart).1 m (by simp)
      refine .cons here ?_ (ih good.tail)
      by_contra reaches
      have lower := UInt32.lt_iff_toNat_lt.mp before
      exact apart m.seq.toNat ⟨Nat.le_of_lt lower, Nat.not_le.mp reaches, Nat.le_refl _, next⟩

/- The blocks are the first runs. -/
theorem sackBlocks_runs (start : cur.right ≠ 0) (ends : ∀ k ∈ queue, k.endSeq ≠ 0) :
    (sackBlocks limit cur queue).map SackBlock.bounds =
      (runsFrom cur.bounds (queue.map SkBuff.bounds)).take (limit + 1) := by
  induction queue generalizing limit cur with
  | nil => simp [sackBlocks, runsFrom]
  | cons k rest ih =>
    have later : ∀ m ∈ rest, m.endSeq ≠ 0 := fun m member => ends m (by simp [member])
    have touches : cur.bounds.2 = k.bounds.1 ↔ cur.right = k.seq := UInt32.toNat_inj
    rw [sackBlocks, List.map_cons, runsFrom]
    by_cases touch : cur.right = k.seq
    · rw [if_pos (.inr touch), if_pos (touches.mpr touch)]
      exact ih (ends k (by simp)) later
    · rw [if_neg (not_or.mpr ⟨start, touch⟩), if_neg (fun h => touch (touches.mp h))]
      cases limit with
      | zero => rfl
      | succ limit =>
        rw [if_neg (Nat.succ_ne_zero limit), List.map_cons, List.take_succ_cons, Nat.add_sub_cancel]
        exact congrArg (cur.bounds :: ·) (ih (ends k (by simp)) later)

/-! ### The duplicate ACK -/

/- The socket that `tcp_calculate_sacks` is entered with: the text is in the queue. -/
def sacksEntry (s : Conn) (skb : SkBuff) : TcpSock :=
  { s.tsk with ofoQueue := (tcpDataInsertOrdered s.tsk.ofoQueue skb).1 }

/- The ACK reports the first runs of the queue, last one first, and nothing is left of the blocks. -/
structure SacksSent (s : Conn) (entry : TcpSock) (t : Conn) : Prop where
  report : ∃ seg blocks, t.out = s.out ++ [seg] ∧ seg.th.ack = true ∧
    seg.th.ackSeq = s.tsk.tcb.rcvNxt ∧
    tcpOptionsLen (tcpCalculateSacks entry) = 4 * seg.th.hl.val - 20 ∧
    seg.th.data = optionBytes (tcpCalculateSacks entry) ∧
    seg.th.data.length = 4 * seg.th.hl.val - 20 ∧
    readSackOption seg.th.data = some blocks ∧
    blocks.map SackBlock.bounds =
      ((runs (entry.ofoQueue.map SkBuff.bounds)).take (max 1 entry.sacksAllowed)).reverse ∧
    blocks.Pairwise (fun b c => c.right < b.left) ∧ ∀ b ∈ blocks, seg.th.ackSeq < b.left
  sacklen : t.tsk.sacklen = 0
  sacks : t.tsk.sacks = List.replicate 4 {}

variable {skb : SkBuff}

theorem insertOrdered_ne_nil (queue : List SkBuff) : (tcpDataInsertOrdered queue skb).1 ≠ [] := by
  unfold tcpDataInsertOrdered
  dsimp only
  cases inserted : insertOrdered { skb with refcnt := skb.refcnt + 1 } queue with
  | none =>
    rintro rfl
    cases inserted
  | some queue' =>
    have longer := insertOrdered_length inserted
    rintro rfl
    cases longer

theorem sacksEntry_idle (idle : SacksIdle s.tsk) (numbered : skb.seq ≠ 0) : SacksIdle (sacksEntry s skb) where
  sacklen := idle.sacklen
  sacks := idle.sacks
  inside := idle.inside
  allowed := idle.allowed
  numbered k member := by
    rcases tcpDataInsertOrdered_mem member with ⟨seq, -⟩ | old
    · rw [seq]
      exact numbered
    · exact idle.numbered k old

/- What is ready to go out after `tcp_calculate_sacks`. -/
theorem SacksIdle.ready (idle : SacksIdle tsk) (sackok : tsk.sackok = true)
    (some : tsk.ofoQueue = k :: queue) : SacksReady (tcpCalculateSacks tsk)
      (sackBlocks (sackLimit tsk - 1) ⟨k.seq, k.endSeq⟩ queue) := by
  have numbered := idle.numbered
  rw [some] at numbered
  have bound : sackLimit tsk ≤ 4 := Nat.max_le.mpr ⟨by omega, idle.allowed⟩
  have least : 1 ≤ sackLimit tsk := Nat.le_max_left _ _
  have length := sackBlocks_length (sackLimit tsk - 1) ⟨k.seq, k.endSeq⟩ queue
  rw [tcpCalculateSacks_eq idle some]
  exact ⟨sackok, rfl, rfl, idle.inside, length.1, by omega,
    sackBlocks_left (numbered k (by simp)) fun m member => numbered m (by simp [member])⟩

/- The call of `tcp_data_queue` that does not find its text in sequence. -/
theorem tcpDataQueue_entry (wide : s.tsk.tcb.rcvWnd ≠ 0) (miss : skb.seq ≠ s.tsk.tcb.rcvNxt) :
    (tcpDataQueue s skb).1 = tcpSendAck { s with
      tsk := if s.tsk.sackok then tcpCalculateSacks (sacksEntry s skb) else sacksEntry s skb } := by
  unfold tcpDataQueue
  rw [if_neg wide, if_neg miss]
  dsimp only
  split
  · rfl
  · rfl

/- The blocks do not outlive the call. -/
theorem tcpDataQueue_sacked (idle : SacksIdle s.tsk) (numbered : skb.seq ≠ 0)
    (opened : s.tsk.state ≠ .close) (wide : s.tsk.tcb.rcvWnd ≠ 0) (miss : skb.seq ≠ s.tsk.tcb.rcvNxt)
    (sackok : s.tsk.sackok = true) : (tcpDataQueue s skb).1.tsk = sacksEntry s skb ∧
    ∃ seg blocks, SacksReady (tcpCalculateSacks (sacksEntry s skb)) blocks ∧
      (∃ k rest, (sacksEntry s skb).ofoQueue = k :: rest ∧ blocks =
        sackBlocks (sackLimit (sacksEntry s skb) - 1) ⟨k.seq, k.endSeq⟩ rest) ∧
      (tcpDataQueue s skb).1.out = s.out ++ [seg] ∧ seg.th.ack = true ∧
      seg.th.ackSeq = s.tsk.tcb.rcvNxt ∧ seg.th.data = sackOptionBytes blocks ∧
      seg.th.hl.val = 2 * blocks.length + 6 := by
  have entry := @sacksEntry_idle s skb idle numbered
  obtain ⟨k, rest, some⟩ := List.exists_cons_of_ne_nil (@insertOrdered_ne_nil skb s.tsk.ofoQueue)
  have ready := entry.ready sackok some
  have state : (tcpCalculateSacks (sacksEntry s skb)).state = s.tsk.state := by
    rw [tcpCalculateSacks_eq entry some]
    rfl
  have rcvNxt : (tcpCalculateSacks (sacksEntry s skb)).tcb.rcvNxt = s.tsk.tcb.rcvNxt := by
    rw [tcpCalculateSacks_eq entry some]
    rfl
  obtain ⟨cleared, seg, out, ack, number, data, hl⟩ := @tcpSendAck_sacks _
    { s with tsk := tcpCalculateSacks (sacksEntry s skb) } ready (by rw [state]; exact opened)
  rw [tcpDataQueue_entry wide miss, if_pos sackok]
  refine ⟨cleared.trans ?_, seg, _, ready, ⟨k, rest, some, rfl⟩, out, ack, number.trans rcvNxt, data, hl⟩
  rw [tcpCalculateSacks_eq entry some]
  show { sacksEntry s skb with sacks := List.replicate 4 ({} : SackBlock), sacklen := 0 } = sacksEntry s skb
  rw [← entry.sacks, ← entry.sacklen]

/-- What the ACK says. -/
theorem tcpDataQueue_reports (idle : SacksIdle s.tsk) (numbered : skb.seq ≠ 0)
    (opened : s.tsk.state ≠ .close) (wide : s.tsk.tcb.rcvWnd ≠ 0) (miss : skb.seq ≠ s.tsk.tcb.rcvNxt)
    (sackok : s.tsk.sackok = true) (good : SackQueue s.tsk.tcb.rcvNxt (sacksEntry s skb).ofoQueue) :
    SacksSent s (sacksEntry s skb) (tcpDataQueue s skb).1 := by
  obtain ⟨kept, seg, blocks, ready, ⟨k, rest, some, built⟩, out, ack, number, data, hl⟩ :=
    tcpDataQueue_sacked idle numbered opened wide miss sackok
  have length := length_sackOptionBytes blocks
  have entry := @sacksEntry_idle s skb idle numbered
  have ends : ∀ m ∈ (sacksEntry s skb).ofoQueue, m.endSeq ≠ 0 := by
    intro m member zero
    have := good.bounds_lt member
    rw [zero, UInt32.toNat_zero] at this
    omega
  have least : 1 ≤ sackLimit (sacksEntry s skb) := Nat.le_max_left _ _
  have spans : blocks.map SackBlock.bounds =
      (runs ((sacksEntry s skb).ofoQueue.map SkBuff.bounds)).take (sackLimit (sacksEntry s skb)) := by
    rw [some] at ends ⊢
    rw [built, sackBlocks_runs (ends k (by simp)) (fun m member => ends m (by simp [member])),
      Nat.sub_add_cancel least]
    rfl
  have ascending := good.ascending
  have separated := (runs_separated ascending).sublist (List.take_sublist (sackLimit (sacksEntry s skb)) _)
  have bounds := @runs_bounds Nat _ _ s.tsk.tcb.rcvNxt.toNat ascending (by
    intro a member
    obtain ⟨m, found, rfl⟩ := List.mem_map.mp member
    exact UInt32.lt_iff_toNat_lt.mp (good.ordered.ahead m found))
  rw [← spans, List.pairwise_map] at separated
  refine ⟨⟨seg, blocks.reverse, out, ack, number, ?_, ?_, ?_, ?_, ?_, ?_, ?_⟩, ?_, ?_⟩
  · rw [ready.optionsLen, hl]
    omega
  · rw [data, ready.bytes]
  · rw [data, hl, length]
    omega
  · rw [data, readSackOption_bytes ready.few]
  · rw [List.map_reverse, spans]
    rfl
  · rw [List.pairwise_reverse]
    exact separated.imp fun h => UInt32.lt_iff_toNat_lt.mpr h
  · intro b member
    have inside : b.bounds ∈ blocks.map SackBlock.bounds :=
      List.mem_map_of_mem (List.mem_reverse.mp member)
    rw [spans] at inside
    rw [number, UInt32.lt_iff_toNat_lt]
    exact (bounds _ (List.mem_of_mem_take inside)).1
  · rw [kept]
    exact entry.sacklen
  · rw [kept]
    exact entry.sacks

end HfIp
