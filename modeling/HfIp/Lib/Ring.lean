import Mathlib.Data.List.Chain
import Mathlib.Data.List.Nodup
import Mathlib.Logic.Function.Basic

/- Circular lists linked both ways in a heap of cells, each with its head among the cells. Of a cell that
   is in no ring the links may be anything. -/
namespace Ring

variable {N : Type}

structure Links (N : Type) where
  next : N → N
  prev : N → N

def Linked (l : Links N) (a b : N) : Prop := l.next a = b ∧ l.prev b = a

/- From `a` over `xs` to `b`. -/
def Path (l : Links N) (a : N) (xs : List N) (b : N) : Prop := (a :: (xs ++ [b])).IsChain (Linked l)

/-- The ring of the head `h` with the members `xs`, in their order. -/
structure IsRing (l : Links N) (h : N) (xs : List N) : Prop where
  path : Path l h xs h
  once : (h :: xs).Nodup

variable {l : Links N} {a b c d h : N} {xs pre post : List N}

theorem path_nil : Path l a [] b ↔ Linked l a b := List.isChain_pair

theorem path_cons : Path l a (c :: xs) b ↔ Linked l a c ∧ Path l c xs b := List.isChain_cons_cons

theorem path_append : Path l a (pre ++ c :: post) b ↔ Path l a pre c ∧ Path l c post b := by
  have split : ((a :: pre) ++ c :: (post ++ [b])).IsChain (Linked l) ↔
      ((a :: pre) ++ [c]).IsChain (Linked l) ∧ (c :: (post ++ [b])).IsChain (Linked l) :=
    List.isChain_split
  simpa only [Path, List.cons_append, List.append_assoc] using split

theorem Path.prev_mem (path : Path l a xs b) : l.prev b ∈ a :: xs := by
  induction xs generalizing a with
  | nil =>
    rw [(path_nil.mp path).2]
    exact List.mem_singleton_self a
  | cons x rest ih => exact List.mem_cons_of_mem a (ih (path_cons.mp path).2)

/- The first cell behind the head. -/
theorem Path.next (path : Path l a xs b) : l.next a = xs.headD b := by
  cases xs with
  | nil => exact (path_nil.mp path).1
  | cons x rest => exact (path_cons.mp path).1.1

theorem isRing_nil : IsRing l h [] ↔ Linked l h h :=
  ⟨fun ring => path_nil.mp ring.path, fun linked => ⟨path_nil.mpr linked, List.nodup_singleton h⟩⟩

/- The links of the cells alone tell whether a ring has members. -/
theorem IsRing.next_eq_head (ring : IsRing l h xs) : l.next h = h ↔ xs = [] := by
  rw [ring.path.next]
  cases xs with
  | nil => simp
  | cons x rest =>
    have apart : x ≠ h := fun same => (List.nodup_cons.mp ring.once).1 (same ▸ List.mem_cons_self)
    simp [apart]

/- The ring cut open behind `pre`: up to the cell that follows, and on from it unless it is the head. -/
theorem path_from (l : Links N) (a : N) (pre post : List N) (h : N) : Path l a (pre ++ post) h ↔
    Path l a pre (post.headD h) ∧ ∀ y rest, post = y :: rest → Path l y rest h := by
  cases post with
  | nil => simp
  | cons y rest => simp [path_append]

variable [DecidableEq N]

/-- `a` and `b` become neighbours; what pointed at either before is not told. -/
def Links.link (l : Links N) (a b : N) : Links N :=
  { next := Function.update l.next a b, prev := Function.update l.prev b a }

theorem linked_link (l : Links N) (a b : N) : Linked (l.link a b) a b :=
  ⟨Function.update_self .., Function.update_self ..⟩

theorem Linked.link_other (linked : Linked l a b) (source : a ≠ c) (target : b ≠ d) :
    Linked (l.link c d) a b := by
  unfold Links.link
  exact ⟨(Function.update_of_ne source ..).trans linked.1, (Function.update_of_ne target ..).trans linked.2⟩

/- A path that neither leaves `c` nor enters `d`. -/
theorem Path.link_other (path : Path l a xs b) (source : c ∉ a :: xs) (target : d ∉ xs ++ [b]) :
    Path (l.link c d) a xs b := by
  induction xs generalizing a with
  | nil =>
    refine path_nil.mpr ((path_nil.mp path).link_other ?_ ?_)
    · exact fun same => source (same ▸ List.mem_cons_self)
    · exact fun same => target (same ▸ List.mem_cons_self)
  | cons x rest ih =>
    obtain ⟨first, later⟩ := path_cons.mp path
    refine path_cons.mpr ⟨first.link_other ?_ ?_, ih later ?_ ?_⟩
    · exact fun same => source (same ▸ List.mem_cons_self)
    · exact fun same => target (same ▸ List.mem_cons_self)
    · exact fun member => source (List.mem_cons_of_mem a member)
    · exact fun member => target (List.mem_cons_of_mem x member)

/- The last cell of a path is led to another end. -/
theorem Path.redirect (path : Path l a xs b) (once : (a :: xs).Nodup) (fresh : c ∉ xs) :
    Path (l.link (l.prev b) c) a xs c := by
  induction xs generalizing a with
  | nil =>
    rw [(path_nil.mp path).2]
    exact path_nil.mpr (linked_link l a c)
  | cons x rest ih =>
    obtain ⟨first, later⟩ := path_cons.mp path
    obtain ⟨outside, once⟩ := List.nodup_cons.mp once
    refine path_cons.mpr ⟨first.link_other ?_ ?_, ih later once ?_⟩
    · exact fun same => outside (same ▸ later.prev_mem)
    · exact fun same => fresh (same ▸ List.mem_cons_self)
    · exact fun member => fresh (List.mem_cons_of_mem x member)

/-- Links written between cells of which the first is not in the ring, or the second. -/
theorem IsRing.link_other (ring : IsRing l h xs) (source : c ∉ h :: xs) (target : d ∉ h :: xs) :
    IsRing (l.link c d) h xs := by
  refine ⟨ring.path.link_other source fun member => target ?_, ring.once⟩
  rcases List.mem_append.mp member with inside | last
  · exact List.mem_cons_of_mem h inside
  · exact List.mem_singleton.mp last ▸ List.mem_cons_self

/-- A new cell before the one that follows `pre`. -/
theorem IsRing.insert (ring : IsRing l h (pre ++ post)) (fresh : c ∉ h :: (pre ++ post)) :
    IsRing ((l.link (l.prev (post.headD h)) c).link c (post.headD h)) h (pre ++ c :: post) := by
  have once : (h :: (pre ++ c :: post)).Nodup := by
    have moved : (h :: (pre ++ c :: post)).Perm (c :: h :: (pre ++ post)) :=
      (List.perm_middle.cons h).trans (List.Perm.swap c h _)
    exact moved.nodup_iff.mpr (List.nodup_cons.mpr ⟨fresh, ring.once⟩)
  obtain ⟨before, after⟩ := (path_from l h pre post h).mp ring.path
  have outside : (h :: pre).Nodup ∧ c ∉ h :: pre ∧ c ∉ post ∧ ∀ x ∈ h :: pre, x ∉ post := by
    rw [← List.cons_append, List.nodup_append'] at once
    obtain ⟨front, back, apart⟩ := once
    refine ⟨front, fun member => apart member List.mem_cons_self,
      (List.nodup_cons.mp back).1, fun x member later => apart member (List.mem_cons_of_mem c later)⟩
  obtain ⟨front, ahead, behind, apart⟩ := outside
  have last := before.prev_mem
  have redirected := before.redirect front fun member => ahead (List.mem_cons_of_mem h member)
  refine ⟨path_append.mpr ⟨redirected.link_other ahead ?_, ?_⟩, once⟩
  · -- the cell behind is not one of `pre`, nor the new one
    intro member
    rcases List.mem_append.mp member with inside | new
    · cases post with
      | nil => exact (List.nodup_cons.mp front).1 inside
      | cons y rest => exact apart y (List.mem_cons_of_mem h inside) List.mem_cons_self
    · cases post with
      | nil => exact ahead (List.mem_singleton.mp new ▸ List.mem_cons_self)
      | cons y rest => exact behind (List.mem_singleton.mp new ▸ List.mem_cons_self)
  · cases post with
    | nil => exact path_nil.mpr (linked_link _ c h)
    | cons y rest =>
      have nodup : (y :: rest).Nodup := by
        have back := (List.nodup_append'.mp (List.cons_append ▸ once)).2.1
        exact (List.nodup_cons.mp back).2
      have head : h ∉ y :: rest := apart h List.mem_cons_self
      have end_apart (x : N) (other : x ∉ y :: rest) (not_head : x ≠ h) : x ∉ rest ++ [h] := by
        intro member
        rcases List.mem_append.mp member with inside | last
        · exact other (List.mem_cons_of_mem y inside)
        · exact not_head (List.mem_singleton.mp last)
      refine path_cons.mpr ⟨linked_link _ c y, ?_⟩
      refine ((after y rest rfl).link_other (apart _ last) ?_).link_other behind ?_
      · exact end_apart c behind fun same => ahead (same ▸ List.mem_cons_self)
      · intro member
        rcases List.mem_append.mp member with inside | last
        · exact (List.nodup_cons.mp nodup).1 inside
        · exact head (List.mem_singleton.mp last ▸ List.mem_cons_self)

/-- A member is taken out. -/
theorem IsRing.remove (ring : IsRing l h (pre ++ c :: post)) :
    IsRing (l.link (l.prev c) (l.next c)) h (pre ++ post) := by
  obtain ⟨before, after⟩ := path_append.mp ring.path
  have kept : (h :: (pre ++ post)).Sublist (h :: (pre ++ c :: post)) :=
    ((List.sublist_cons_self c post).append_left pre).cons_cons h
  have once := ring.once
  rw [← List.cons_append, List.nodup_append'] at once
  obtain ⟨front, back, apart⟩ := once
  rw [after.next]
  refine ⟨(path_from _ h pre post h).mpr ⟨before.redirect front ?_, ?_⟩, kept.nodup ring.once⟩
  · intro member
    cases post with
    | nil => exact (List.nodup_cons.mp front).1 member
    | cons y rest =>
      exact apart (List.mem_cons_of_mem h member) (List.mem_cons_of_mem c List.mem_cons_self)
  · rintro y rest rfl
    refine (path_cons.mp after).2.link_other ?_ ?_
    · exact fun member => apart before.prev_mem (List.mem_cons_of_mem c member)
    · intro member
      rcases List.mem_append.mp member with inside | last
      · exact (List.nodup_cons.mp (List.nodup_cons.mp back).2).1 inside
      · refine apart List.mem_cons_self (List.mem_cons_of_mem c ?_)
        exact List.mem_singleton.mp last ▸ List.mem_cons_self

/-! ### A visit to every member -/

variable {State : Type}

/-- The cells visited one after another, from `pos` to the head: the successor `p` of the one at hand is
    read before `body` is run on it. -/
def visit (links : State → Links N) (body : N → State → State) (h : N) :
    Nat → N → N → State → State × List N
  | 0, _, _, s => (s, [])
  | fuel + 1, pos, p, s =>
    if pos = h then (s, [])
    else
      let s := body pos s
      let r := visit links body h fuel p ((links s).next p) s
      (r.1, pos :: r.2)

/-- A body that leaves the rest of a ring as it is: the cell it is run on stays where it is or is taken
    out. -/
def TakesOut (links : State → Links N) (body : N → State → State) (h : N) : Prop :=
  ∀ s pre x post, IsRing (links s) h (pre ++ x :: post) →
    IsRing (links (body x s)) h (pre ++ x :: post) ∨ IsRing (links (body x s)) h (pre ++ post)

variable {links : State → Links N} {body : N → State → State}

/- The cells of `kept` have been visited and are still in the ring. -/
theorem visit_rest (takes : TakesOut links body h) {fuel : Nat} {rest kept : List N} {s : State}
    (ring : IsRing (links s) h (kept ++ rest)) (enough : rest.length < fuel) :
    (visit links body h fuel (rest.headD h) ((links s).next (rest.headD h)) s).2 = rest := by
  induction rest generalizing fuel kept s with
  | nil =>
    obtain ⟨fuel, rfl⟩ := Nat.exists_eq_succ_of_ne_zero (Nat.ne_of_gt enough)
    rw [List.headD_nil, visit, if_pos rfl]
  | cons x rest ih =>
    obtain ⟨fuel, rfl⟩ := Nat.exists_eq_succ_of_ne_zero (Nat.ne_of_gt (Nat.zero_lt_of_lt enough))
    have follows : (links s).next x = rest.headD h := (path_append.mp ring.path).2.next
    have member : x ≠ h := by
      rintro rfl
      exact (List.nodup_cons.mp ring.once).1 (List.mem_append_right kept List.mem_cons_self)
    rw [List.headD_cons, visit, if_neg member, follows]
    simp only [List.cons.injEq, true_and]
    have fewer : rest.length < fuel := Nat.lt_of_succ_lt_succ enough
    rcases takes s kept x rest ring with stays | out
    · have visited : IsRing (links (body x s)) h ((kept ++ [x]) ++ rest) := by simpa using stays
      exact ih visited fewer
    · exact ih out fewer

/-- Every member is visited once and in order, also those that the body takes out. -/
theorem visit_ring (takes : TakesOut links body h) {fuel : Nat} {s : State}
    (ring : IsRing (links s) h xs) (enough : xs.length < fuel) :
    (visit links body h fuel ((links s).next h) ((links s).next ((links s).next h)) s).2 = xs := by
  have start : IsRing (links s) h ([] ++ xs) := ring
  rw [ring.path.next]
  exact visit_rest takes start enough

end Ring
