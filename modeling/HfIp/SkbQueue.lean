import HfIp.Lib.Ring
import HfIp.Lib.Run
import HfIp.Skbuff
import Mathlib.Data.Set.Insert

/- The queues of buffers as they lie in memory (include/list.h, include/skbuff.h). `list` and `head` are
   the first members of `struct sk_buff` and `struct sk_buff_head`, so a node stands for the buffer or the
   queue that it is in. -/
namespace HfIp

open Ring

variable {N : Type} [DecidableEq N]

def listAddTail (l : Links N) (new head : N) : Links N :=
  let l := { l with next := Function.update l.next (l.prev head) new }
  let l := { l with prev := Function.update l.prev new (l.prev head) }
  let l := { l with next := Function.update l.next new head }
  { l with prev := Function.update l.prev head new }

def listDel (l : Links N) (elem : N) : Links N :=
  let prev := l.prev elem
  let next := l.next elem
  let l := { l with next := Function.update l.next prev next }
  { l with prev := Function.update l.prev next prev }

def listInit (l : Links N) (head : N) : Links N :=
  { next := Function.update l.next head head, prev := Function.update l.prev head head }

def listFirstEntry (l : Links N) (head : N) : N := l.next head

def listEmpty (l : Links N) (head : N) : Bool := l.next head = head

/- `qlen` is read at the queues, `refcnt` at the buffers; `freed` lists the buffers given to `free`. -/
structure QueueHeap (N : Type) where
  links : Links N
  qlen : N → UInt32
  refcnt : N → Int
  freed : List N := []

namespace QueueHeap

def skbQueueLen (h : QueueHeap N) (list : N) : UInt32 := h.qlen list

def skbQueueInit (h : QueueHeap N) (list : N) : QueueHeap N :=
  { h with links := listInit h.links list, qlen := Function.update h.qlen list 0 }

def skbQueueAdd (h : QueueHeap N) (list new next : N) : QueueHeap N :=
  { h with
    links := listAddTail h.links new next
    qlen := Function.update h.qlen list (h.qlen list + 1) }

def skbQueueTail (h : QueueHeap N) (list new : N) : QueueHeap N :=
  { h with
    links := listAddTail h.links new list
    qlen := Function.update h.qlen list (h.qlen list + 1) }

def skbDequeue (h : QueueHeap N) (list : N) : QueueHeap N × N :=
  let skb := listFirstEntry h.links list
  ({ h with
      links := listDel h.links skb
      qlen := Function.update h.qlen list (h.qlen list - 1) }, skb)

def skbQueueEmpty (h : QueueHeap N) (list : N) : Bool := h.skbQueueLen list < 1

def skbPeek (h : QueueHeap N) (list : N) : Option N :=
  if h.skbQueueEmpty list then none else some (listFirstEntry h.links list)

def freeSkb (h : QueueHeap N) (skb : N) : QueueHeap N :=
  if h.refcnt skb < 1 then { h with freed := h.freed ++ [skb] } else h

/- The loop of `skb_queue_free`: `skb_peek` looks at `qlen`, which goes down in every turn. -/
def queueFreeLoop : Nat → QueueHeap N → N → QueueHeap N
  | 0, h, _ => h
  | fuel + 1, h, list =>
    match h.skbPeek list with
    | none => h
    | some skb =>
      let h := (h.skbDequeue list).1
      let h := { h with refcnt := Function.update h.refcnt skb (h.refcnt skb - 1) }
      queueFreeLoop fuel (h.freeSkb skb) list

def skbQueueFree (h : QueueHeap N) (list : N) : QueueHeap N := queueFreeLoop (h.qlen list).toNat h list

/- The macro `list_for_each_safe` with `body` for the statement under it. -/
def listForEachSafe (body : N → QueueHeap N → QueueHeap N) (head : N) (fuel : Nat) (h : QueueHeap N) :
    QueueHeap N × List N :=
  visit links body head fuel (h.links.next head) (h.links.next (h.links.next head)) h

end QueueHeap

/-! ### The sequences -/

/- The operations, with the buffer that is put in first or behind the queue. -/
inductive QueueOp (N : Type) where
  | tail (list new : N)
  | add (list new next : N)
  | dequeue (list : N)
  | peek (list : N)
  | free (list : N)

def QueueHeap.step (h : QueueHeap N) : QueueOp N → QueueHeap N × Option N
  | .tail list new => (h.skbQueueTail list new, none)
  | .add list new next => (h.skbQueueAdd list new next, none)
  | .dequeue list => ((h.skbDequeue list).1, some (h.skbDequeue list).2)
  | .peek list => (h, h.skbPeek list)
  | .free list => (h.skbQueueFree list, none)

def insertBefore (next new : N) : List N → List N
  | [] => []
  | x :: rest => if x = next then new :: x :: rest else x :: insertBefore next new rest

/-- What the operations are for: each queue is a sequence of buffers. -/
def sequenceStep (A : N → List N) : QueueOp N → (N → List N) × Option N
  | .tail list new => (Function.update A list (A list ++ [new]), none)
  | .add list new next => (Function.update A list (insertBefore next new (A list)), none)
  | .dequeue list => (Function.update A list (A list).tail, (A list).head?)
  | .peek list => (A, (A list).head?)
  | .free list => (Function.update A list [], none)

/-- The node is none of the queues, and in none. -/
def InNone (heads : Set N) (A : N → List N) (x : N) : Prop := ∀ q ∈ heads, x ∉ q :: A q

def Allowed (heads : Set N) (A : N → List N) : QueueOp N → Prop
  | .tail list new => list ∈ heads ∧ InNone heads A new
  | .add list new next => list ∈ heads ∧ InNone heads A new ∧ next ∈ A list
  | .dequeue list => list ∈ heads ∧ A list ≠ []
  | .peek list => list ∈ heads
  | .free list => list ∈ heads

/-- `qlen` has room for one more. -/
def Room (A : N → List N) : QueueOp N → Prop
  | .tail list _ => (A list).length + 1 < 2 ^ 32
  | .add list _ _ => (A list).length + 1 < 2 ^ 32
  | _ => True

/-- The queues are rings that share no node, with the sequences for their members, which `qlen` counts. -/
structure Queues (heads : Set N) (A : N → List N) (h : QueueHeap N) : Prop where
  ring : ∀ q ∈ heads, IsRing h.links q (A q)
  apart : ∀ q ∈ heads, ∀ r ∈ heads, q ≠ r → (q :: A q).Disjoint (r :: A r)
  qlen : ∀ q ∈ heads, (h.qlen q).toNat = (A q).length

variable {heads : Set N} {A : N → List N} {h : QueueHeap N} {q x new : N} {pre post : List N}

theorem listAddTail_link (l : Links N) (new head : N) :
    listAddTail l new head = (l.link (l.prev head) new).link new head := rfl

theorem listDel_link (l : Links N) (elem : N) : listDel l elem = l.link (l.prev elem) (l.next elem) := rfl

theorem insertBefore_split {next : N} (new : N) {xs : List N} (member : next ∈ xs) :
    ∃ pre post, xs = pre ++ next :: post ∧ insertBefore next new xs = pre ++ new :: next :: post := by
  induction xs with
  | nil => cases member
  | cons x rest ih =>
    unfold insertBefore
    split
    · rename_i here
      subst here
      exact ⟨[], rest, rfl, rfl⟩
    · rename_i other
      obtain ⟨pre, post, split, inserted⟩ := ih ((List.mem_cons.mp member).resolve_left (Ne.symm other))
      exact ⟨x :: pre, post, by rw [split, List.cons_append], by rw [inserted, List.cons_append]⟩

omit [DecidableEq N] in
/- The buffers themselves do not matter. -/
theorem Queues.of_same {h' : QueueHeap N} (formed : Queues heads A h) (links : h'.links = h.links)
    (qlen : h'.qlen = h.qlen) : Queues heads A h' :=
  ⟨links ▸ formed.ring, formed.apart, qlen ▸ formed.qlen⟩

omit [DecidableEq N] in
/- The nodes of another queue are others. -/
theorem Queues.other (formed : Queues heads A h) {r : N} (here : q ∈ heads) (there : r ∈ heads)
    (differ : r ≠ q) (member : x ∈ q :: A q) : x ∉ r :: A r :=
  fun shared => formed.apart q here r there (Ne.symm differ) member shared

/- One queue is given other members: those it had, or one that was in no queue. -/
theorem Queues.change {h' : QueueHeap N} {xs : List N} (formed : Queues heads A h) (here : q ∈ heads)
    (members : ∀ x ∈ xs, x ∈ A q ∨ InNone heads A x) (ring : IsRing h'.links q xs)
    (others : ∀ r ∈ heads, r ≠ q → IsRing h'.links r (A r)) (qlen : (h'.qlen q).toNat = xs.length)
    (lengths : ∀ r, r ≠ q → h'.qlen r = h.qlen r) : Queues heads (Function.update A q xs) h' := by
  have mine (x : N) (member : x ∈ q :: xs) (r : N) (there : r ∈ heads) (differ : r ≠ q) :
      x ∉ r :: A r := by
    rcases List.mem_cons.mp member with rfl | inside
    · exact formed.other here there differ List.mem_cons_self
    · rcases members x inside with old | new
      · exact formed.other here there differ (List.mem_cons_of_mem q old)
      · exact new r there
  constructor
  · intro r there
    by_cases same : r = q
    · subst same
      rw [Function.update_self]
      exact ring
    · rw [Function.update_of_ne same]
      exact others r there same
  · intro r there r' there' differ x member member'
    by_cases same : r = q
    · subst same
      rw [Function.update_self] at member
      rw [Function.update_of_ne (Ne.symm differ)] at member'
      exact mine x member r' there' (Ne.symm differ) member'
    · rw [Function.update_of_ne same] at member
      by_cases same' : r' = q
      · subst same'
        rw [Function.update_self] at member'
        exact mine x member' r there same member
      · rw [Function.update_of_ne same'] at member'
        exact formed.apart r there r' there' differ member member'
  · intro r there
    by_cases same : r = q
    · subst same
      rw [Function.update_self]
      exact qlen
    · rw [Function.update_of_ne same, lengths r same]
      exact formed.qlen r there

/-- A new buffer before the member that follows `pre`, or at the end. -/
theorem Queues.insert (formed : Queues heads A h) (here : q ∈ heads) (fresh : InNone heads A new)
    (split : A q = pre ++ post) (room : (A q).length + 1 < 2 ^ 32) :
    Queues heads (Function.update A q (pre ++ new :: post)) (h.skbQueueAdd q new (post.headD q)) := by
  have ring := formed.ring q here
  rw [split] at ring
  have free : new ∉ q :: (pre ++ post) := split ▸ fresh q here
  have before := ((path_from h.links q pre post q).mp ring.path).1.prev_mem
  have inside : h.links.prev (post.headD q) ∈ q :: A q := by
    rw [split, ← List.cons_append]
    exact List.mem_append_left post before
  have follows : post.headD q ∈ q :: A q := by
    cases post with
    | nil => exact List.mem_cons_self
    | cons y rest =>
      rw [split]
      exact List.mem_cons_of_mem q (List.mem_append_right pre List.mem_cons_self)
  refine formed.change here ?_ ?_ ?_ ?_ ?_
  · intro x member
    rcases List.mem_append.mp member with front | back
    · exact .inl (split ▸ List.mem_append_left post front)
    · rcases List.mem_cons.mp back with rfl | later
      · exact .inr fresh
      · exact .inl (split ▸ List.mem_append_right pre later)
  · exact ring.insert free
  · intro r there differ
    have others := (formed.ring r there).link_other (formed.other here there differ inside)
      (fresh r there)
    exact others.link_other (fresh r there) (formed.other here there differ follows)
  · have counted := formed.qlen q here
    have more : (A q).length + 1 = (pre ++ new :: post).length := by
      rw [split, List.length_append, List.length_append, List.length_cons, Nat.add_assoc]
    have one : (1 : UInt32).toNat = 1 := rfl
    simp only [QueueHeap.skbQueueAdd, Function.update_self]
    rw [UInt32.toNat_add, counted, one, Nat.mod_eq_of_lt room, more]
  · intro r differ
    exact Function.update_of_ne differ _ _

/-- A member is taken out. -/
theorem Queues.remove (formed : Queues heads A h) (here : q ∈ heads) (split : A q = pre ++ x :: post) :
    Queues heads (Function.update A q (pre ++ post))
      { h with
        links := listDel h.links x
        qlen := Function.update h.qlen q (h.qlen q - 1) } := by
  have ring := formed.ring q here
  rw [split] at ring
  obtain ⟨before, after⟩ := path_append.mp ring.path
  have inside : h.links.prev x ∈ q :: A q := by
    rw [split, ← List.cons_append]
    exact List.mem_append_left _ before.prev_mem
  have follows : h.links.next x ∈ q :: A q := by
    rw [after.next, split]
    cases post with
    | nil => exact List.mem_cons_self
    | cons y rest =>
      refine List.mem_cons_of_mem q (List.mem_append_right pre ?_)
      exact List.mem_cons_of_mem x List.mem_cons_self
  refine formed.change here ?_ ring.remove ?_ ?_ ?_
  · intro y member
    refine .inl (split ▸ ?_)
    rcases List.mem_append.mp member with front | back
    · exact List.mem_append_left _ front
    · exact List.mem_append_right pre (List.mem_cons_of_mem x back)
  · intro r there differ
    exact (formed.ring r there).link_other (formed.other here there differ inside)
      (formed.other here there differ follows)
  · have counted := formed.qlen q here
    have length : (A q).length = (pre ++ post).length + 1 := by
      rw [split, List.length_append, List.length_append, List.length_cons, Nat.add_assoc]
    have one : (1 : UInt32).toNat = 1 := rfl
    have some_member : (1 : UInt32) ≤ h.qlen q := by
      rw [UInt32.le_iff_toNat_le]
      omega
    show (Function.update h.qlen q (h.qlen q - 1) q).toNat = _
    rw [Function.update_self, UInt32.toNat_sub_of_le _ _ some_member, counted, one]
    omega
  · intro r differ
    exact Function.update_of_ne differ _ _

/-! ### The operations -/

omit [DecidableEq N] in
theorem Queues.first (formed : Queues heads A h) (here : q ∈ heads) :
    listFirstEntry h.links q = (A q).headD q := (formed.ring q here).path.next

omit [DecidableEq N] in
theorem Queues.empty_iff (formed : Queues heads A h) (here : q ∈ heads) :
    h.skbQueueEmpty q = true ↔ A q = [] := by
  have counted := formed.qlen q here
  have one : (1 : UInt32).toNat = 1 := rfl
  rw [QueueHeap.skbQueueEmpty, QueueHeap.skbQueueLen, decide_eq_true_iff, UInt32.lt_iff_toNat_lt, counted,
    one, Nat.lt_one_iff, List.length_eq_zero_iff]

/- The pointers say the same. -/
theorem Queues.listEmpty_iff (formed : Queues heads A h) (here : q ∈ heads) :
    listEmpty h.links q = true ↔ A q = [] := by
  rw [listEmpty, decide_eq_true_iff]
  exact (formed.ring q here).next_eq_head

omit [DecidableEq N] in
theorem Queues.peek (formed : Queues heads A h) (here : q ∈ heads) : h.skbPeek q = (A q).head? := by
  have first := formed.first here
  have empty := formed.empty_iff here
  unfold QueueHeap.skbPeek
  cases members : A q with
  | nil => rw [if_pos (empty.mpr members), List.head?_nil]
  | cons x rest =>
    rw [if_neg (by rw [empty, members]; simp), first, members]
    rfl

theorem Queues.dequeue (formed : Queues heads A h) (here : q ∈ heads) (some_member : A q ≠ []) :
    some (h.skbDequeue q).2 = (A q).head? ∧
      Queues heads (Function.update A q (A q).tail) (h.skbDequeue q).1 := by
  obtain ⟨x, rest, members⟩ := List.exists_cons_of_ne_nil some_member
  have first : listFirstEntry h.links q = x := by rw [formed.first here, members, List.headD_cons]
  have front : A q = [] ++ x :: rest := members
  have removed := formed.remove here front
  unfold QueueHeap.skbDequeue
  dsimp only
  rw [first, members]
  exact ⟨rfl, removed⟩

/- Turn by turn, until the queue is empty. -/
theorem Queues.freeLoop {xs : List N} (formed : Queues heads A h) (here : q ∈ heads) (members : A q = xs) :
    Queues heads (Function.update A q []) (QueueHeap.queueFreeLoop xs.length h q) := by
  induction xs generalizing A h with
  | nil =>
    have kept : Function.update A q [] = A := by rw [← members, Function.update_eq_self]
    rw [kept]
    exact formed
  | cons x rest ih =>
    have head : h.skbPeek q = some x := by rw [formed.peek here, members, List.head?_cons]
    have taken := (formed.dequeue here (by rw [members]; simp)).2
    rw [members, List.tail_cons] at taken
    rw [List.length_cons, QueueHeap.queueFreeLoop, head]
    dsimp only
    have later := ih (A := Function.update A q rest)
      (h := QueueHeap.freeSkb { (h.skbDequeue q).1 with
        refcnt := Function.update (h.skbDequeue q).1.refcnt x ((h.skbDequeue q).1.refcnt x - 1) } x)
      (taken.of_same ?_ ?_) (Function.update_self ..)
    · rwa [Function.update_idem] at later
    · unfold QueueHeap.freeSkb
      split <;> rfl
    · unfold QueueHeap.freeSkb
      split <;> rfl

/-- One operation: the same reply, and the queues still hold the sequences. -/
theorem Queues.step (formed : Queues heads A h) {op : QueueOp N} (ok : Allowed heads A op)
    (room : Room A op) :
    (h.step op).2 = (sequenceStep A op).2 ∧ Queues heads (sequenceStep A op).1 (h.step op).1 := by
  cases op with
  | tail list new =>
    obtain ⟨here, fresh⟩ := ok
    have behind : A list = A list ++ [] := (List.append_nil _).symm
    exact ⟨rfl, formed.insert here fresh behind room⟩
  | add list new next =>
    obtain ⟨here, fresh, member⟩ := ok
    obtain ⟨pre, post, split, inserted⟩ := insertBefore_split new member
    have added := formed.insert here fresh split room
    rw [← inserted] at added
    exact ⟨rfl, added⟩
  | dequeue list => exact formed.dequeue ok.1 ok.2
  | peek list => exact ⟨formed.peek ok, formed⟩
  | free list =>
    refine ⟨rfl, ?_⟩
    have freed := formed.freeLoop ok rfl
    rwa [← formed.qlen list ok] at freed

/- A body that takes the visited node out, or not, as it decides. -/
theorem takesOut_listDel (unlink : N → QueueHeap N → Bool) (q : N) : TakesOut QueueHeap.links
    (fun x h => if unlink x h then { h with links := listDel h.links x } else h) q := by
  intro h pre x post ring
  dsimp only
  split
  · exact .inr ring.remove
  · exact .inl ring

/- A queue that was none, at a node of no queue, is empty after `skb_queue_init`. -/
theorem Queues.init (formed : Queues heads A h) (fresh : InNone heads A q) :
    Queues (heads ∪ {q}) (Function.update A q []) (h.skbQueueInit q) := by
  have old (r : N) (there : r ∈ heads ∪ {q}) (differ : r ≠ q) : r ∈ heads := there.resolve_right differ
  have members (r : N) (differ : r ≠ q) : Function.update A q [] r = A r := Function.update_of_ne differ _ _
  constructor
  · intro r there
    by_cases same : r = q
    · subst same
      rw [Function.update_self]
      exact isRing_nil.mpr (linked_link h.links r r)
    · rw [members r same]
      exact (formed.ring r (old r there same)).link_other (fresh r (old r there same))
        (fresh r (old r there same))
  · intro r there r' there' differ x member member'
    by_cases same : r = q
    · subst same
      rw [Function.update_self, List.mem_singleton] at member
      rw [members r' (Ne.symm differ), member] at member'
      exact fresh r' (old r' there' (Ne.symm differ)) member'
    · rw [members r same] at member
      by_cases same' : r' = q
      · subst same'
        rw [Function.update_self, List.mem_singleton] at member'
        exact fresh r (old r there same) (member' ▸ member)
      · rw [members r' same'] at member'
        exact formed.apart r (old r there same) r' (old r' there' same') differ member member'
  · intro r there
    unfold QueueHeap.skbQueueInit
    by_cases same : r = q
    · subst same
      simp
    · rw [members r same]
      dsimp only
      rw [Function.update_of_ne same]
      exact formed.qlen r (old r there same)

/-- Over any sequence of operations, of which none adds a buffer that is in a queue, takes one from an
    empty queue or adds one to a queue of 2^32 - 1, the queues stay disjoint rings that hold the
    sequences: same replies, `qlen` the number of buffers, emptiness and head told alike by `qlen` and by
    the links, and every buffer visited once. -/
theorem queue_refinement (formed : Queues heads A h) {trace : List (QueueOp N × Option N)}
    {A' : N → List N}
    (run : Transition.Run (fun A op => some (sequenceStep A op))
      (fun _ A op => Allowed heads A op ∧ Room A op) A trace A') :
    ∃ h', Transition.Run (fun h op => some (QueueHeap.step h op)) (fun _ _ _ => True) h trace h' ∧
      Queues heads A' h' ∧ ∀ q ∈ heads,
        (h'.skbQueueEmpty q = true ↔ A' q = []) ∧ (listEmpty h'.links q = true ↔ A' q = []) ∧
        h'.skbPeek q = (A' q).head? ∧ ∀ body fuel, TakesOut QueueHeap.links body q →
          (A' q).length < fuel → (QueueHeap.listForEachSafe body q fuel h').2 = A' q := by
  have answer : ∀ (trace : List (QueueOp N × Option N)) (B : N → List N) (h : QueueHeap N) op B' r,
      Queues heads B h → Allowed heads B op ∧ Room B op → some (sequenceStep B op) = some (B', r) →
      ∃ h', some (h.step op) = some (h', r) ∧ Queues heads B' h' := by
    intro _ B h op B' r here ok taken
    obtain ⟨reply, kept⟩ := here.step ok.1 ok.2
    rw [Option.some.inj taken] at reply kept
    exact ⟨(h.step op).1, congrArg some (Prod.ext rfl reply), kept⟩
  obtain ⟨h', there, formed'⟩ := run.simulate (fun A h => Queues heads A h) formed answer
  refine ⟨h', there, formed', fun q here => ⟨formed'.empty_iff here, formed'.listEmpty_iff here,
    formed'.peek here, fun body fuel takes enough => ?_⟩⟩
  exact visit_ring takes (formed'.ring q here) enough

/- Two queues at the nodes 0 and 1; the buffer 5 goes to the first, is taken out of it, and goes to the
   second. -/
theorem queue_refinement_moved : ∃ h', Transition.Run (fun h op => some (QueueHeap.step h op))
    (fun _ _ _ => True) { links := ⟨id, id⟩, qlen := fun _ => 0, refcnt := fun _ => 0 }
      [(.tail 0 5, none), (.dequeue 0, some 5), (.tail 1 5, none)] h' ∧
    (h'.skbQueueEmpty 0 = true ∧ h'.skbPeek 1 = some 5) := by
  have formed : Queues ({0, 1} : Set Nat) (fun _ => [])
      { links := ⟨id, id⟩, qlen := fun _ => 0, refcnt := fun _ => 0 } := by
    refine ⟨fun q _ => isRing_nil.mpr ⟨rfl, rfl⟩, fun q _ r _ differ => ?_, fun q _ => rfl⟩
    exact List.disjoint_singleton.mpr (by simpa using Ne.symm differ)
  have run : Transition.Run (fun A op => some (sequenceStep A op))
      (fun _ A op => Allowed ({0, 1} : Set Nat) A op ∧ Room A op) (fun _ => [])
      [(.tail 0 5, none), (.dequeue 0, some 5), (.tail 1 5, none)]
      (sequenceStep (sequenceStep (sequenceStep (fun _ => []) (.tail 0 5)).1 (.dequeue 0)).1
        (.tail 1 5)).1 := by
    refine .next (.next (.next .start ?_ rfl) ?_ rfl) ?_ rfl
    · simp [Allowed, InNone, Room]
    · simp [Allowed, Room]
    · simp [Allowed, InNone, Room, sequenceStep]
  obtain ⟨h', there, -, agree⟩ := queue_refinement formed run
  have first := (agree 0 (by simp)).1
  have second := (agree 1 (by simp)).2.2.1
  exact ⟨h', there, first.mpr (by simp [sequenceStep]), second.trans (by simp [sequenceStep])⟩

/-! ### A counter of 32 bits -/

/- A ring of the head 0 and the members 1 to `n`. -/
def countLinks (n : Nat) : Links Nat :=
  { next := fun k => if k = n then 0 else k + 1, prev := fun k => if k = 0 then n else k - 1 }

theorem countLinks_ring (n : Nat) : IsRing (countLinks n) 0 (List.range' 1 n) := by
  have path (k : Nat) : ∀ a, a + k = n → Path (countLinks n) a (List.range' (a + 1) k) 0 := by
    induction k with
    | zero =>
      intro a last
      have first : (countLinks n).prev 0 = n := rfl
      exact path_nil.mpr ⟨if_pos last, first.trans last.symm⟩
    | succ k ih =>
      intro a before
      have here : Linked (countLinks n) a (a + 1) := by
        have inside : a ≠ n := by omega
        exact ⟨if_neg inside, rfl⟩
      exact path_cons.mpr ⟨here, ih (a + 1) (by omega)⟩
  refine ⟨path n 0 (Nat.zero_add n), List.nodup_cons.mpr ⟨?_, List.nodup_range' ..⟩⟩
  simp

/- A queue that holds the buffers 1 to `n`. -/
def countHeap (n : Nat) : QueueHeap Nat :=
  { links := countLinks n, qlen := fun _ => UInt32.ofNat n, refcnt := fun _ => 1 }

theorem countHeap_queues {n : Nat} (small : n < 2 ^ 32) :
    Queues {0} (fun _ => List.range' 1 n) (countHeap n) := by
  refine ⟨?_, ?_, ?_⟩
  · rintro _ rfl
    exact countLinks_ring n
  · rintro _ rfl _ rfl differ
    exact absurd rfl differ
  · rintro _ rfl
    rw [List.length_range']
    exact UInt32.toNat_ofNat_of_lt small

/- One buffer more makes `qlen` 0. -/
theorem countHeap_wraps {n : Nat} (full : n + 1 = 2 ^ 32) :
    Allowed {0} (fun _ => List.range' 1 n) (.tail 0 (n + 1)) ∧
      IsRing ((countHeap n).skbQueueTail 0 (n + 1)).links 0 (List.range' 1 n ++ [n + 1]) ∧
      ((countHeap n).skbQueueTail 0 (n + 1)).skbPeek 0 = none := by
  have fresh : n + 1 ∉ 0 :: (List.range' 1 n ++ []) := by
    simp
    omega
  have ring : IsRing (countLinks n) 0 (List.range' 1 n ++ []) := by
    rw [List.append_nil]
    exact countLinks_ring n
  have zero : UInt32.ofNat n + 1 = 0 := by
    apply UInt32.toNat_inj.mp
    have one : (1 : UInt32).toNat = 1 := rfl
    have small : n % 2 ^ 32 = n := Nat.mod_eq_of_lt (by omega)
    rw [UInt32.toNat_add, UInt32.toNat_ofNat', one, small, full, Nat.mod_self]
    rfl
  refine ⟨⟨rfl, ?_⟩, ring.insert fresh, ?_⟩
  · rintro _ rfl
    simpa using fresh
  · unfold QueueHeap.skbPeek QueueHeap.skbQueueEmpty QueueHeap.skbQueueLen QueueHeap.skbQueueTail countHeap
    simp only [Function.update_self, zero]
    rfl

theorem queue_overflows : Queues {0} (fun _ => List.range' 1 4294967295) (countHeap 4294967295) ∧
    Allowed {0} (fun _ => List.range' 1 4294967295) (.tail 0 (4294967295 + 1)) ∧
    IsRing ((countHeap 4294967295).skbQueueTail 0 (4294967295 + 1)).links 0
      (List.range' 1 4294967295 ++ [4294967295 + 1]) ∧
    ((countHeap 4294967295).skbQueueTail 0 (4294967295 + 1)).skbPeek 0 = none :=
  ⟨countHeap_queues (by omega), countHeap_wraps (by omega)⟩

/-! ### The queues of the connection -/

omit [DecidableEq N] in
/-- The list of the buffers in a queue is what the operations on lists work on. -/
theorem Queues.lists (formed : Queues heads A h) (here : q ∈ heads) (buffer : N → SkBuff) :
    h.skbQueueEmpty q = HfIp.skbQueueEmpty ((A q).map buffer) ∧
      (h.skbPeek q).map buffer = HfIp.skbPeek ((A q).map buffer) := by
  constructor
  · rw [Bool.eq_iff_iff, formed.empty_iff here, HfIp.skbQueueEmpty]
    simp
  · rw [formed.peek here, HfIp.skbPeek, List.head?_map]

end HfIp
