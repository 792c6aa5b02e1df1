import HfIp.ReadRule
import HfIp.ReceiverIntegrity

/- What a read takes from the receive queue, what becomes of the flags, and what it returns. -/
namespace HfIp

/-! ### Flags -/

theorem mask_clear (f m : UInt8) : (f &&& ~~~m) &&& m = 0 := by
  apply UInt8.eq_of_toBitVec_eq
  ext i
  simp

theorem mask_clear_other (f : UInt8) {m q : UInt8} (apart : m &&& q = 0) :
    (f &&& ~~~m) &&& q = f &&& q := by
  apply UInt8.eq_of_toBitVec_eq
  ext i h
  have bit := congrArg (fun b => b.toBitVec[i]) apart
  simp at bit ⊢
  grind

theorem mask_clear_same {f m : UInt8} (clear : f &&& m = 0) : f &&& ~~~m = f := by
  apply UInt8.eq_of_toBitVec_eq
  ext i h
  have bit := congrArg (fun b => b.toBitVec[i]) clear
  simp at bit ⊢
  exact bit

theorem mask_set (f m : UInt8) : (f ||| m) &&& m = m := by
  apply UInt8.eq_of_toBitVec_eq
  ext i h
  simp
  intro set
  exact .inr set

theorem mask_set_other (f : UInt8) {m q : UInt8} (apart : m &&& q = 0) :
    (f ||| m) &&& q = f &&& q := by
  apply UInt8.eq_of_toBitVec_eq
  ext i h
  have bit := congrArg (fun b => b.toBitVec[i]) apart
  simp at bit ⊢
  grind

theorem psh_clear (f : UInt8) : (f &&& ~~~TCP_PSH) &&& TCP_PSH = 0 :=
  mask_clear f TCP_PSH

theorem psh_clear_fin (f : UInt8) : (f &&& ~~~TCP_PSH) &&& TCP_FIN = f &&& TCP_FIN :=
  mask_clear_other f rfl

theorem psh_clear_same (f : UInt8) (clear : f &&& TCP_PSH = 0) : f &&& ~~~TCP_PSH = f :=
  mask_clear_same clear

theorem psh_set (f : UInt8) : (f ||| TCP_PSH) &&& TCP_PSH ≠ 0 := by
  rw [mask_set]
  decide

theorem psh_set_fin (f : UInt8) : (f ||| TCP_PSH) &&& TCP_FIN = f &&& TCP_FIN :=
  mask_set_other f rfl

theorem fin_set (f : UInt8) : (f ||| TCP_FIN) &&& TCP_FIN ≠ 0 := by
  rw [mask_set]
  decide

theorem fin_set_psh (f : UInt8) : (f ||| TCP_FIN) &&& TCP_PSH = f &&& TCP_PSH :=
  mask_set_other f rfl

theorem fin_clear (f : UInt8) : (f &&& ~~~TCP_FIN) &&& TCP_FIN = 0 :=
  mask_clear f TCP_FIN

theorem fin_clear_psh (f : UInt8) : (f &&& ~~~TCP_FIN) &&& TCP_PSH = f &&& TCP_PSH :=
  mask_clear_other f rfl

/-! ### The loop over the queue -/

variable {s : Conn}

theorem dequeueLoop_count (room : Nat) (queue : List SkBuff) :
    (dequeueLoop s room queue).2.2.length = min room (payloads queue).length := by
  induction queue generalizing s room with
  | nil => simp [dequeueLoop, payloads]
  | cons skb rest ih =>
    rw [dequeueLoop]
    by_cases full : room = 0
    · simp [full]
    · rw [if_neg full]
      dsimp only
      split
      · rename_i whole
        rw [List.length_append, ih, payloads_cons, List.length_append]
        simp only [List.length_drop] at whole
        simp only [List.length_take]
        omega
      · rename_i part
        simp only [List.length_drop] at part
        simp only [payloads_cons, List.length_append, List.length_take]
        omega

/- What is left is untouched, or has payload left. -/
theorem dequeueLoop_left (room : Nat) (queue : List SkBuff) :
    ∀ k ∈ (dequeueLoop s room queue).2.1, k ∈ queue ∨ k.payload ≠ [] := by
  induction queue generalizing s room with
  | nil => simp [dequeueLoop]
  | cons skb rest ih =>
    rw [dequeueLoop]
    split
    · intro k member
      exact .inl member
    · dsimp only
      split
      · intro k member
        exact (ih _ k member).imp (List.mem_cons_of_mem _) id
      · rename_i part
        intro k member
        rcases List.mem_cons.mp member with rfl | later
        · exact .inr fun none => part (congrArg List.length none)
        · exact .inl (List.mem_cons_of_mem _ later)

theorem dequeueLoop_flags (room : Nat) (queue : List SkBuff) :
    (dequeueLoop s room queue).1.tsk.flags = s.tsk.flags ∨
      (dequeueLoop s room queue).1.tsk.flags = s.tsk.flags ||| TCP_PSH := by
  induction queue generalizing s room with
  | nil => exact .inl rfl
  | cons skb rest ih =>
    rw [dequeueLoop]
    split
    · exact .inl rfl
    · dsimp only
      split
      · generalize gone : freeSkb (if skb.th.psh then
            { s with tsk.flags := s.tsk.flags ||| TCP_PSH } else s)
          { skb with payload := skb.payload.drop room, refcnt := skb.refcnt - 1 } = u
        have flags : u.tsk.flags = s.tsk.flags ∨ u.tsk.flags = s.tsk.flags ||| TCP_PSH := by
          rw [← gone, freeSkb_tsk]
          split
          · exact .inr rfl
          · exact .inl rfl
        rcases flags with same | pushed
        · rw [← same]
          exact ih _
        · refine .inr ?_
          rcases ih (s := u) (room - (skb.payload.take room).length) with h | h
          · rw [h, pushed]
          · rw [h, pushed, UInt8.or_assoc, UInt8.or_self]
      · exact .inl rfl

/- With room to spare everything is taken. -/
theorem dequeueLoop_all (room : Nat) (queue : List SkBuff)
    (short : (payloads queue).length < room) :
    (dequeueLoop s room queue).2.1 = [] ∧ (dequeueLoop s room queue).1.tsk.flags =
      if queue.any (·.th.psh) then s.tsk.flags ||| TCP_PSH else s.tsk.flags := by
  induction queue generalizing s room with
  | nil => exact ⟨rfl, rfl⟩
  | cons skb rest ih =>
    rw [payloads_cons, List.length_append] at short
    have taken : skb.payload.take room = skb.payload := List.take_of_length_le (by omega)
    have whole : (skb.payload.drop room).length = 0 := by
      rw [List.length_drop]
      omega
    rw [dequeueLoop, if_neg (by omega)]
    dsimp only
    rw [if_pos whole]
    refine ⟨(ih _ (by rw [taken]; omega)).1, ?_⟩
    rw [(ih _ (by rw [taken]; omega)).2, freeSkb_tsk, List.any_cons]
    cases skb.th.psh with
    | false => simp
    | true =>
      simp only [if_true, Bool.true_or]
      split
      · rw [UInt8.or_assoc, UInt8.or_self]
      · rfl

/-- What `tcp_data_dequeue` does with `n` bytes asked for: the bytes it takes, what stays in the
    queue, the flags and the POLLIN bit. -/
structure Dequeued (s t : Conn) (n : Nat) (bytes : List UInt8) : Prop where
  rest : ∃ freed, t = { s with
    freed := freed, delivered := s.delivered ++ bytes, tsk.flags := t.tsk.flags
    tsk.receiveQueue := t.tsk.receiveQueue, tsk.pollEvents := t.tsk.pollEvents }
  order : bytes ++ payloads t.tsk.receiveQueue = payloads s.tsk.receiveQueue
  count : bytes.length = min n (payloads s.tsk.receiveQueue).length
  left : ∀ k ∈ t.tsk.receiveQueue, k ∈ s.tsk.receiveQueue ∨ k.payload ≠ []
  flags : t.tsk.flags = s.tsk.flags ∨ t.tsk.flags = s.tsk.flags ||| TCP_PSH
  all : (payloads s.tsk.receiveQueue).length < n → t.tsk.receiveQueue = [] ∧ t.tsk.flags =
    if s.tsk.receiveQueue.any (·.th.psh) then s.tsk.flags ||| TCP_PSH else s.tsk.flags
  poll : t.tsk.pollEvents &&& POLLIN = if t.tsk.receiveQueue = [] ∧ s.tsk.flags &&& TCP_FIN = 0
    then 0 else s.tsk.pollEvents &&& POLLIN

theorem Dequeued.fin {t : Conn} {n : Nat} {bytes : List UInt8} (d : Dequeued s t n bytes) :
    t.tsk.flags &&& TCP_FIN = s.tsk.flags &&& TCP_FIN := by
  rcases d.flags with same | pushed
  · rw [same]
  · rw [pushed, psh_set_fin]

/- Nothing comes of an empty queue. -/
theorem Dequeued.empty {t : Conn} {n : Nat} {bytes : List UInt8} (d : Dequeued s t n bytes)
    (none : s.tsk.receiveQueue = []) : t.tsk.receiveQueue = [] := by
  by_contra some
  obtain ⟨k, rest, eq⟩ := List.exists_cons_of_ne_nil some
  have member : k ∈ t.tsk.receiveQueue := by
    rw [eq]
    exact List.mem_cons_self
  have order := d.order
  rw [none, eq, payloads_cons] at order
  rcases d.left k member with old | full
  · rw [none] at old
    cases old
  · exact full (List.append_eq_nil_iff.mp (List.append_eq_nil_iff.mp order).2).1

theorem pollin_clear (events : UInt16) : (events &&& ~~~POLLIN) &&& POLLIN = 0 := by
  have none : ~~~POLLIN &&& POLLIN = 0 := by decide
  rw [UInt16.and_assoc, none, UInt16.and_zero]

theorem tcpDataDequeue_spec (s : Conn) (n : Nat) :
    Dequeued s (tcpDataDequeue s n).1 n (tcpDataDequeue s n).2 := by
  obtain ⟨freed, flags, eq⟩ := dequeueLoop_touches s n s.tsk.receiveQueue
  have flagged : (dequeueLoop s n s.tsk.receiveQueue).1.tsk.flags = flags := by rw [eq]
  have bytes := dequeueLoop_bytes (s := s) n s.tsk.receiveQueue
  have count := dequeueLoop_count (s := s) n s.tsk.receiveQueue
  have left := dequeueLoop_left (s := s) n s.tsk.receiveQueue
  have pushed := dequeueLoop_flags (s := s) n s.tsk.receiveQueue
  have all := dequeueLoop_all (s := s) n s.tsk.receiveQueue
  have fin : flags &&& TCP_FIN = s.tsk.flags &&& TCP_FIN := by
    rw [← flagged]
    rcases pushed with same | set
    · rw [same]
    · rw [set, psh_set_fin]
  rw [flagged] at pushed all
  unfold tcpDataDequeue
  dsimp only
  rw [eq]
  split
  · rename_i gone
    simp only [skbQueueEmpty, Bool.and_eq_true, decide_eq_true_eq] at gone
    refine ⟨⟨freed, rfl⟩, bytes, count, left, pushed, all, ?_⟩
    rw [if_pos ⟨List.length_eq_zero_iff.mp (Nat.lt_one_iff.mp gone.1), by rw [← fin]; exact gone.2⟩]
    exact pollin_clear _
  · rename_i kept
    refine ⟨⟨freed, rfl⟩, bytes, count, left, pushed, all, ?_⟩
    rw [if_neg ?_]
    rintro ⟨none, clear⟩
    refine kept ?_
    dsimp only at none ⊢
    rw [none, fin, clear]
    rfl

/-! ### The loop of `tcp_receive` -/

theorem receiveReturn_reads (s : Conn) (rlen : Int) : Reads s (receiveReturn s rlen).1 := by
  unfold receiveReturn
  dsimp only
  split
  · exact tcpRearmUserTimeout_reads s
  · exact .refl s

/-- What the loop comes to, with the flags left by `tcp_data_dequeue` and `total` bytes copied. -/
def receiveResult (s : Conn) (flags : UInt8) (len total : Nat) : Received :=
  if flags &&& TCP_PSH ≠ 0 ∨ flags &&& TCP_FIN ≠ 0 ∨ total = len then .done total
  else if s.sock.flags &&& O_NONBLOCK ≠ 0 then .done (if total = 0 then -EAGAIN else total)
  else .asleep total

/- The lock of the sleepers after the loop. -/
def leaveWait (w : WaitLock) : Received → WaitLock
  | .done _ => w
  | .asleep _ => waitSleep w

/-- A turn of the loop that has room left: the queue and the bytes are those of `tcp_data_dequeue`,
    the PSH flag is clear afterwards. -/
theorem receiveLoop_spec (s : Conn) (len rlen : Nat) (room : rlen < len) :
    ∃ d bytes, Dequeued s d (len - rlen) bytes ∧
      (receiveLoop s len rlen).2 = receiveResult s d.tsk.flags len (rlen + bytes.length) ∧
      Reads { d with tsk.flags := d.tsk.flags &&& ~~~TCP_PSH
                     tsk.recvWait := leaveWait s.tsk.recvWait (receiveLoop s len rlen).2 }
        (receiveLoop s len rlen).1 := by
  refine ⟨_, _, tcpDataDequeue_spec s (len - rlen), ?_⟩
  obtain ⟨freed, rest⟩ := (tcpDataDequeue_spec s (len - rlen)).rest
  have wait : (tcpDataDequeue s (len - rlen)).1.tsk.recvWait = s.tsk.recvWait := by rw [rest]
  have block : (tcpDataDequeue s (len - rlen)).1.sock.flags = s.sock.flags := by rw [rest]
  unfold receiveLoop receiveResult
  rw [if_pos room]
  dsimp only
  generalize tcpDataDequeue s (len - rlen) = d at wait block
  rw [block]
  split
  · rename_i pushed
    rw [if_pos (.inl pushed), ← wait]
    exact ⟨rfl, receiveReturn_reads { d.1 with tsk.flags := d.1.tsk.flags &&& ~~~TCP_PSH } _⟩
  · rename_i clear
    rw [psh_clear_same d.1.tsk.flags (by simpa using clear)]
    split
    · rename_i last
      rw [if_pos (.inr last), ← wait]
      exact ⟨rfl, receiveReturn_reads d.1 _⟩
    · rename_i more
      have stays : ¬(d.1.tsk.flags &&& TCP_PSH ≠ 0 ∨ d.1.tsk.flags &&& TCP_FIN ≠ 0 ∨
          rlen + d.2.length = len) := by
        rintro (h | h)
        · exact clear h
        · exact more h
      rw [if_neg stays]
      split
      · rw [← wait]
        exact ⟨rfl, receiveReturn_reads d.1 _⟩
      · refine ⟨rfl, ?_⟩
        rw [wait]
        exact .of_eq rfl rfl rfl rfl

theorem receiveLoop_full (s : Conn) (len rlen : Nat) (full : ¬rlen < len) :
    receiveLoop s len rlen = receiveReturn s rlen := by
  unfold receiveLoop
  rw [if_neg full]

end HfIp
