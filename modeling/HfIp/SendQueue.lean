import HfIp.SendFrame

/- The write queue as a stretch of the send stream: first the buffers that have been sent, each
   under the number of its place, then the ones still waiting. Places are counted from the
   number `base` of the first byte of `text`. -/
namespace HfIp

def SkBuff.span (k : SkBuff) : Nat := k.payload.length + k.th.fin.toNat + k.th.syn.toNat

def spans (queue : List SkBuff) : Nat := (queue.map SkBuff.span).sum

/- `p` is what `text` has at place `pos`; nothing is said of an empty `p`. -/
def TextAt (text : List UInt8) (base pos : Nat) (p : List UInt8) : Prop :=
  p ≠ [] → base ≤ pos ∧ p <+: text.drop (pos - base)

theorem textAt_nil (text : List UInt8) (base pos : Nat) : TextAt text base pos [] := by
  simp [TextAt]

theorem TextAt.grow {text : List UInt8} {base pos : Nat} {p : List UInt8} (more : List UInt8)
    (h : TextAt text base pos p) : TextAt (text ++ more) base pos p := by
  intro nonempty
  obtain ⟨lower, here⟩ := h nonempty
  refine ⟨lower, here.trans ?_⟩
  rw [List.drop_append]
  exact List.prefix_append _ _

def Numbered (text : List UInt8) (base : Nat) : Nat → List SkBuff → Nat → Prop
  | pos, [], stop => pos = stop
  | pos, k :: rest, stop => k.seq.toNat = pos ∧ k.endSeq.toNat = pos + k.payload.length ∧
      TextAt text base pos k.payload ∧ Numbered text base (pos + k.span) rest stop

def Waiting (text : List UInt8) (base : Nat) : Nat → List SkBuff → Nat → Prop
  | pos, [], stop => pos = stop
  | pos, k :: rest, stop => k.seq = 0 ∧ k.th.syn = false ∧ TextAt text base pos k.payload ∧
      Waiting text base (pos + k.span) rest stop

theorem Numbered.grow {text : List UInt8} {base pos stop : Nat} {queue : List SkBuff}
    (more : List UInt8) (h : Numbered text base pos queue stop) :
    Numbered (text ++ more) base pos queue stop := by
  induction queue generalizing pos with
  | nil => exact h
  | cons k rest ih => exact ⟨h.1, h.2.1, h.2.2.1.grow more, ih h.2.2.2⟩

theorem Waiting.grow {text : List UInt8} {base pos stop : Nat} {queue : List SkBuff}
    (more : List UInt8) (h : Waiting text base pos queue stop) :
    Waiting (text ++ more) base pos queue stop := by
  induction queue generalizing pos with
  | nil => exact h
  | cons k rest ih => exact ⟨h.1, h.2.1, h.2.2.1.grow more, ih h.2.2.2⟩

theorem Numbered.append {text : List UInt8} {base pos mid stop : Nat} {front back : List SkBuff}
    (hf : Numbered text base pos front mid) (hb : Numbered text base mid back stop) :
    Numbered text base pos (front ++ back) stop := by
  induction front generalizing pos with
  | nil => simpa [Numbered] using (show pos = mid from hf) ▸ hb
  | cons k rest ih => exact ⟨hf.1, hf.2.1, hf.2.2.1, ih hf.2.2.2⟩

theorem Waiting.append {text : List UInt8} {base pos mid stop : Nat} {front back : List SkBuff}
    (hf : Waiting text base pos front mid) (hb : Waiting text base mid back stop) :
    Waiting text base pos (front ++ back) stop := by
  induction front generalizing pos with
  | nil => simpa [Waiting] using (show pos = mid from hf) ▸ hb
  | cons k rest ih => exact ⟨hf.1, hf.2.1, hf.2.2.1, ih hf.2.2.2⟩

theorem Waiting.stop_eq {text : List UInt8} {base pos stop : Nat} {queue : List SkBuff}
    (h : Waiting text base pos queue stop) : stop = pos + spans queue := by
  induction queue generalizing pos with
  | nil => simpa [spans] using (show pos = stop from h).symm
  | cons k rest ih =>
    have tail := ih h.2.2.2
    simp only [spans, List.map_cons, List.sum_cons] at tail ⊢
    omega

/- The queue with its count of sent buffers, the next number and the place where it ends. -/
def InStream (text : List UInt8) (base : Nat) (queue : List SkBuff) (inflight : Nat)
    (nxt : UInt32) (stop : Nat) : Prop :=
  ∃ numbered waiting start, queue = numbered ++ waiting ∧ numbered.length = inflight ∧
    Numbered text base start numbered nxt.toNat ∧ Waiting text base nxt.toNat waiting stop

namespace InStream

variable {text : List UInt8} {base inflight stop : Nat} {queue : List SkBuff} {nxt : UInt32}

theorem grow (more : List UInt8) (h : InStream text base queue inflight nxt stop) :
    InStream (text ++ more) base queue inflight nxt stop := by
  obtain ⟨numbered, waiting, start, hq, hl, hn, hw⟩ := h
  exact ⟨numbered, waiting, start, hq, hl, hn.grow more, hw.grow more⟩

theorem nothing (h : InStream text base [] inflight nxt stop) :
    inflight = 0 ∧ stop = nxt.toNat := by
  obtain ⟨numbered, waiting, start, hq, hl, hn, hw⟩ := h
  obtain ⟨rfl, rfl⟩ := List.append_eq_nil_iff.mp hq.symm
  exact ⟨by simpa using hl.symm, (show nxt.toNat = stop from hw).symm⟩

theorem none_sent (h : InStream text base queue 0 nxt stop) :
    Waiting text base nxt.toNat queue stop := by
  obtain ⟨numbered, waiting, start, hq, hl, hn, hw⟩ := h
  obtain rfl := List.length_eq_zero_iff.mp hl
  exact hq ▸ hw

theorem stop_eq (h : InStream text base queue inflight nxt stop) :
    stop = nxt.toNat + spans (queue.drop inflight) := by
  obtain ⟨numbered, waiting, start, rfl, rfl, hn, hw⟩ := h
  simpa using hw.stop_eq

theorem push (h : InStream text base queue inflight nxt stop) (k : SkBuff) (unset : k.seq = 0)
    (noSyn : k.th.syn = false) (here : TextAt text base stop k.payload) :
    InStream text base (queue ++ [k]) inflight nxt (stop + k.span) := by
  obtain ⟨numbered, waiting, start, hq, hl, hn, hw⟩ := h
  exact ⟨numbered, waiting ++ [k], start, by simp [hq], hl, hn,
    hw.append ⟨unset, noSyn, here, rfl⟩⟩

/- The head as it is after another transmission. -/
theorem touch_head {k k' : SkBuff} {rest : List SkBuff} (seq : k'.seq = k.seq)
    (endSeq : k'.endSeq = k.endSeq) (payload : k'.payload = k.payload)
    (fin : k'.th.fin = k.th.fin) (syn : k'.th.syn = k.th.syn)
    (h : InStream text base (k :: rest) inflight nxt stop) :
    InStream text base (k' :: rest) inflight nxt stop := by
  have span : k'.span = k.span := by simp [SkBuff.span, payload, fin, syn]
  obtain ⟨numbered, waiting, start, hq, hl, hn, hw⟩ := h
  cases numbered with
  | nil =>
    simp only [List.nil_append] at hq
    subst hq
    exact ⟨[], k' :: rest, start, rfl, hl, hn, by
      simpa only [Waiting, seq, syn, payload, span] using hw⟩
  | cons first others =>
    obtain ⟨rfl, rfl⟩ := List.cons.inj hq
    exact ⟨k' :: others, waiting, start, rfl, hl, by
      simpa only [Numbered, seq, endSeq, payload, span] using hn, hw⟩

end InStream

/- What `tcp_retransmission_timeout` gives as number to the head of the queue when it is right. -/
def headSeq (s : Conn) (k : SkBuff) : UInt32 :=
  if s.tsk.inflight = 0 then s.tsk.tcb.sndNxt else k.seq

theorem InStream.head_text {text : List UInt8} {base inflight stop : Nat} {queue : List SkBuff}
    {nxt : UInt32} {k : SkBuff} (h : InStream text base queue inflight nxt stop)
    (head : queue.head? = some k) :
    TextAt text base (if inflight = 0 then nxt else k.seq).toNat k.payload := by
  obtain ⟨numbered, waiting, start, hq, hl, hn, hw⟩ := h
  subst hq
  cases numbered with
  | nil =>
    cases waiting with
    | nil => simp at head
    | cons first rest =>
      obtain rfl : first = k := by simpa using head
      simpa [← hl] using hw.2.2.1
  | cons first rest =>
    obtain rfl : first = k := by simpa using head
    have some_sent : inflight ≠ 0 := by rw [← hl]; simp
    rw [if_neg some_sent, hn.1]
    exact hn.2.2.1

/- Taking sent buffers off the head, by a test that no waiting buffer passes. -/
theorem InStream.drop_sent {text : List UInt8} {base inflight stop : Nat} {queue : List SkBuff}
    {nxt : UInt32} (test : SkBuff → Bool) (stops : ∀ k, k.seq = 0 → test k = false)
    (h : InStream text base queue inflight nxt stop) :
    InStream text base (queue.dropWhile test) (inflight - (queue.takeWhile test).length)
      nxt stop := by
  obtain ⟨numbered, waiting, start, rfl, rfl, hn, hw⟩ := h
  induction numbered generalizing start with
  | nil =>
    cases waiting with
    | nil => exact ⟨[], [], start, rfl, rfl, hn, hw⟩
    | cons first rest =>
      have stop_here : test first = false := stops first hw.1
      exact ⟨[], first :: rest, start, by simp [stop_here], by simp, hn, hw⟩
  | cons first rest ih =>
    cases old : test first with
    | true => simpa [old] using ih _ hn.2.2.2
    | false => exact ⟨first :: rest, waiting, start, by simp [old], by simp [old], hn, hw⟩

end HfIp
