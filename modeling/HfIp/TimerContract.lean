import HfIp.Timer
import HfIp.Lib.Run

/- The timer service on its own: sequences of its calls and passes, and what it promises about every
   timer. The names are of the history, not of the service's state. -/
namespace HfIp

open Transition

variable {H : Type}

inductive ServiceEv (H : Type) where
  | add (expire : UInt32) (handler : H)
  | oneshot (expire : UInt32) (handler : H)
  | cancel (t : Option Nat)
  | release (t : Option Nat)
  | pass (busy : List Nat)
  deriving DecidableEq, Repr

/- The timers whose handlers a pass starts, and those it unlinks and frees. -/
structure Report where
  started : List Nat := []
  freed : List Nat := []
  deriving DecidableEq, Repr

def passReport (ts : TimerService H) (busy : List Nat) : Report :=
  { started := (ts.timers.filter (firesAt ts.tick busy)).map (·.id)
    freed := (ts.timers.filter fun x => (visitTimer ts.tick busy x).isNone).map (·.id) }

def serviceStep (ts : TimerService H) : ServiceEv H → Option (TimerService H × Report)
  | .add expire handler => some ((timerAdd ts expire handler).1, {})
  | .oneshot expire handler => some (timerOneshot ts expire handler, {})
  | .cancel t => some (timerCancel ts t, {})
  | .release t => some (timerRelease ts t, {})
  | .pass busy => some (timersStart ts busy, passReport { ts with tick := ts.tick + 10 } busy)

/-! ### Histories -/

abbrev History (H : Type) := List (ServiceEv H × Report)

/- When a timer is due, and whether `timer_add` has handed it out. -/
structure Birth where
  due : Nat
  shared : Bool
  deriving DecidableEq, Repr

def ServiceEv.lasts : ServiceEv H → Nat
  | .pass _ => 10
  | _ => 0

def ServiceEv.births (tick : Nat) : ServiceEv H → List Birth
  | .add expire _ => [⟨tick + expire.toNat, true⟩]
  | .oneshot expire _ => [⟨tick + expire.toNat, false⟩]
  | _ => []

def ServiceEv.cancelled : ServiceEv H → Option Nat
  | .cancel t => t
  | _ => none

def ServiceEv.given : ServiceEv H → Option Nat
  | .cancel t => t
  | .release t => t
  | _ => none

def clock (trace : History H) : Nat := (trace.map fun p => p.1.lasts).sum

/- The timers in the order of their names. -/
def birthsFrom : Nat → History H → List Birth
  | _, [] => []
  | tick, p :: rest => p.1.births tick ++ birthsFrom (tick + p.1.lasts) rest

def births (trace : History H) : List Birth := birthsFrom 0 trace

def cancelledIn (trace : History H) : List Nat := trace.filterMap fun p => p.1.cancelled

def givenIn (trace : History H) : List Nat := trace.filterMap fun p => p.1.given

def startedIn (trace : History H) : List Nat := trace.flatMap fun p => p.2.started

def freedIn (trace : History H) : List Nat := trace.flatMap fun p => p.2.freed

/-- A handle has been handed out and not been given back. -/
def Held (trace : History H) (t : Nat) : Prop :=
  (∃ b ∈ (births trace)[t]?, b.shared = true) ∧ t ∉ givenIn trace

instance (trace : History H) (t : Nat) : Decidable (Held trace t) := inferInstanceAs (Decidable (_ ∧ _))

/-- Each handle is given back at most once, and no tick reaches 2 ^ 31. -/
def Orderly (trace : History H) : ServiceEv H → Prop
  | .add expire _ => clock trace + expire.toNat < 2 ^ 31
  | .oneshot expire _ => clock trace + expire.toNat < 2 ^ 31
  | .cancel t => ∀ handle ∈ t, Held trace handle
  | .release t => ∀ handle ∈ t, Held trace handle
  | .pass _ => clock trace + 10 < 2 ^ 31

/-- A pass starts the timers that are due, have not been cancelled or started and are not locked, and
    frees none that is held or has been neither cancelled nor started. -/
structure PassContract (before : History H) (busy : List Nat) (report : Report) : Prop where
  started : ∀ t, t ∈ report.started ↔ t ∉ busy ∧ t ∉ cancelledIn before ∧ t ∉ startedIn before ∧
    ∃ b ∈ (births before)[t]?, b.due < clock before + 10
  freed : ∀ t ∈ report.freed, ¬Held before t ∧
    (t ∈ cancelledIn before ∨ t ∈ startedIn before ++ report.started)

structure TimerContract (trace : History H) : Prop where
  started_once : (startedIn trace).Nodup
  freed_once : (freedIn trace).Nodup
  passes : ∀ before busy report, before ++ [(.pass busy, report)] <+: trace →
    PassContract before busy report
  untouched : ∀ before e report t, before ++ [(e, report)] <+: trace → e.given = some t →
    t ∉ freedIn before

/-! ### One step more -/

theorem birthsFrom_append (tick : Nat) (a b : History H) :
    birthsFrom tick (a ++ b) = birthsFrom tick a ++ birthsFrom (tick + clock a) b := by
  induction a generalizing tick with
  | nil => simp [birthsFrom, clock]
  | cons p rest ih =>
    rw [List.cons_append, birthsFrom, birthsFrom, ih, List.append_assoc, clock, clock, List.map_cons,
      List.sum_cons, Nat.add_assoc]

/- What a step adds to the history. -/
structure Grows (trace trace' : History H) (e : ServiceEv H) (r : Report) : Prop where
  clock : clock trace' = clock trace + e.lasts
  births : births trace' = births trace ++ e.births (HfIp.clock trace)
  cancelled : cancelledIn trace' = cancelledIn trace ++ e.cancelled.toList
  given : givenIn trace' = givenIn trace ++ e.given.toList
  started : startedIn trace' = startedIn trace ++ r.started
  freed : freedIn trace' = freedIn trace ++ r.freed

theorem grows_snoc (trace : History H) (e : ServiceEv H) (r : Report) :
    Grows trace (trace ++ [(e, r)]) e r := by
  constructor
  · simp [clock]
  · rw [births, birthsFrom_append, Nat.zero_add, birthsFrom, birthsFrom, List.append_nil]
    rfl
  · cases here : e.cancelled <;> simp [cancelledIn, here]
  · cases here : e.given <;> simp [givenIn, here]
  · simp [startedIn]
  · simp [freedIn]

/-! ### The state and its history -/

/-- What a linked timer says of its history. -/
structure TimerEntry (trace : History H) (x : Timer H) : Prop where
  due : ∃ b ∈ (births trace)[x.id]?, x.expires.toNat = b.due
  ended : x.cancelled = true ↔ x.id ∈ cancelledIn trace ∨ x.id ∈ startedIn trace
  refs : x.refcnt = if Held trace x.id then 1 else 0

structure Recorded (trace : History H) (ts : TimerService H) : Prop where
  tick : ts.tick.toNat = clock trace
  next : ts.next = (births trace).length
  distinct : (ts.timers.map (·.id)).Nodup
  entry : ∀ x ∈ ts.timers, TimerEntry trace x
  linked : ∀ t, t < ts.next → t ∉ freedIn trace → ∃ x ∈ ts.timers, x.id = t
  gone : ∀ t ∈ freedIn trace, ¬Held trace t ∧ (t ∈ cancelledIn trace ∨ t ∈ startedIn trace) ∧
    ∀ x ∈ ts.timers, x.id ≠ t
  known : ∀ t, t ∈ givenIn trace ∨ t ∈ cancelledIn trace ∨ t ∈ startedIn trace ∨ t ∈ freedIn trace →
    t < ts.next

variable {trace trace' : History H} {e : ServiceEv H} {r : Report}
variable {ts : TimerService H} {x : Timer H}

theorem Recorded.below (kept : Recorded trace ts) (member : x ∈ ts.timers) : x.id < ts.next := by
  obtain ⟨b, here, -⟩ := (kept.entry x member).due
  rw [kept.next]
  exact (List.getElem?_eq_some_iff.mp here).1

theorem Recorded.born_before (kept : Recorded trace ts) (grows : Grows trace trace' e r) {t : Nat}
    (before : t < ts.next) : (births trace')[t]? = (births trace)[t]? := by
  rw [grows.births]
  exact List.getElem?_append_left (kept.next ▸ before)

/- A new timer. -/
theorem Recorded.born (kept : Recorded trace ts) (grows : Grows trace trace' e {}) {b : Birth}
    (one : e.births (clock trace) = [b]) (still : e.lasts = 0) (uncancelled : e.cancelled = none)
    (ungiven : e.given = none) (id : x.id = ts.next) (due : x.expires.toNat = b.due)
    (alive : x.cancelled = false) (refs : x.refcnt = if b.shared then 1 else 0) :
    Recorded trace' { ts with timers := ts.timers ++ [x], next := ts.next + 1 } := by
  have births_eq : births trace' = births trace ++ [b] := grows.births.trans (by rw [one])
  have given_eq : givenIn trace' = givenIn trace := by simpa [ungiven] using grows.given
  have cancelled_eq : cancelledIn trace' = cancelledIn trace := by
    simpa [uncancelled] using grows.cancelled
  have started_eq : startedIn trace' = startedIn trace := by simpa using grows.started
  have freed_eq : freedIn trace' = freedIn trace := by simpa using grows.freed
  have new : (births trace')[ts.next]? = some b := by
    rw [births_eq, kept.next]
    simp
  have held : ∀ t, t < ts.next → (Held trace' t ↔ Held trace t) := by
    intro t before
    rw [Held, Held, kept.born_before grows before, given_eq]
  have fresh : ∀ past, past = givenIn trace ∨ past = cancelledIn trace ∨ past = startedIn trace ∨
      past = freedIn trace → ts.next ∉ past := by
    rintro past (rfl | rfl | rfl | rfl) member
    · exact Nat.lt_irrefl _ (kept.known _ (.inl member))
    · exact Nat.lt_irrefl _ (kept.known _ (.inr (.inl member)))
    · exact Nat.lt_irrefl _ (kept.known _ (.inr (.inr (.inl member))))
    · exact Nat.lt_irrefl _ (kept.known _ (.inr (.inr (.inr member))))
  constructor
  · rw [grows.clock, still, Nat.add_zero]
    exact kept.tick
  · rw [births_eq, List.length_append, ← kept.next]
    rfl
  · rw [List.map_append]
    refine List.nodup_append.mpr ⟨kept.distinct, List.nodup_singleton _, ?_⟩
    intro a earlier c later same
    obtain ⟨y, member, rfl⟩ := List.mem_map.mp earlier
    obtain rfl := List.mem_singleton.mp later
    exact Nat.ne_of_lt (kept.below member) (same.trans id)
  · intro y member
    rcases List.mem_append.mp member with earlier | last
    · obtain ⟨due, ended, refs⟩ := kept.entry y earlier
      have before := kept.below earlier
      refine ⟨?_, ?_, ?_⟩
      · rw [kept.born_before grows before]
        exact due
      · rw [cancelled_eq, started_eq]
        exact ended
      · simp only [held _ before]
        exact refs
    · obtain rfl := List.mem_singleton.mp last
      have unheld : Held trace' ts.next ↔ b.shared = true := by
        rw [Held, new, given_eq]
        simp [fresh _ (.inl rfl)]
      refine ⟨?_, ?_, ?_⟩
      · rw [id]
        exact ⟨b, new, due⟩
      · rw [alive, id, cancelled_eq, started_eq]
        simp [fresh _ (.inr (.inl rfl)), fresh _ (.inr (.inr (.inl rfl)))]
      · rw [id, refs]
        simp only [unheld]
  · intro t before kept_on
    rcases Nat.lt_succ_iff_lt_or_eq.mp before with earlier | rfl
    · obtain ⟨y, member, same⟩ := kept.linked t earlier (freed_eq ▸ kept_on)
      exact ⟨y, List.mem_append_left _ member, same⟩
    · exact ⟨x, List.mem_append_right _ (List.mem_singleton_self _), id⟩
  · intro t member
    rw [freed_eq] at member
    have before := kept.known t (.inr (.inr (.inr member)))
    obtain ⟨unheld, ended, unlinked⟩ := kept.gone t member
    rw [held t before, cancelled_eq, started_eq]
    refine ⟨unheld, ended, fun y there => ?_⟩
    rcases List.mem_append.mp there with earlier | last
    · exact unlinked y earlier
    · obtain rfl := List.mem_singleton.mp last
      rw [id]
      exact (Nat.ne_of_lt before).symm
  · rw [given_eq, cancelled_eq, started_eq, freed_eq]
    exact fun t past => Nat.lt_succ_of_lt (kept.known t past)

/- A call that no timer notices. -/
theorem Recorded.idle (kept : Recorded trace ts) (grows : Grows trace trace' e {})
    (unborn : e.births (clock trace) = []) (still : e.lasts = 0) (uncancelled : e.cancelled = none)
    (ungiven : e.given = none) : Recorded trace' ts := by
  have clock_eq : clock trace' = clock trace := by simpa [still] using grows.clock
  have births_eq : births trace' = births trace := by simpa [unborn] using grows.births
  have given_eq : givenIn trace' = givenIn trace := by simpa [ungiven] using grows.given
  have cancelled_eq : cancelledIn trace' = cancelledIn trace := by
    simpa [uncancelled] using grows.cancelled
  have started_eq : startedIn trace' = startedIn trace := by simpa using grows.started
  have freed_eq : freedIn trace' = freedIn trace := by simpa using grows.freed
  have held : ∀ t, Held trace' t ↔ Held trace t := by
    intro t
    rw [Held, Held, births_eq, given_eq]
  constructor
  · rw [clock_eq]
    exact kept.tick
  · rw [births_eq]
    exact kept.next
  · exact kept.distinct
  · intro x member
    obtain ⟨due, ended, refs⟩ := kept.entry x member
    refine ⟨by rw [births_eq]; exact due, by rw [cancelled_eq, started_eq]; exact ended, ?_⟩
    simp only [held]
    exact refs
  · rw [freed_eq]
    exact kept.linked
  · intro t
    rw [freed_eq, held, cancelled_eq, started_eq]
    exact kept.gone t
  · rw [given_eq, cancelled_eq, started_eq, freed_eq]
    exact kept.known

theorem Recorded.held_below (kept : Recorded trace ts) {t : Nat} (held : Held trace t) : t < ts.next := by
  obtain ⟨⟨b, here, -⟩, -⟩ := held
  rw [kept.next]
  exact (List.getElem?_eq_some_iff.mp here).1

/- A handle that is given back, and the timer it is for. -/
theorem Recorded.back (kept : Recorded trace ts) (grows : Grows trace trace' e {}) {t : Nat}
    (unborn : e.births (clock trace) = []) (still : e.lasts = 0) (given : e.given = some t)
    (whose : e.cancelled = some t ∨ e.cancelled = none) (held : Held trace t)
    {f : Timer H → Timer H} (id : ∀ x, (f x).id = x.id) (due : ∀ x, (f x).expires = x.expires)
    (refs : ∀ x, (f x).refcnt = x.refcnt - 1)
    (ends : ∀ x, (f x).cancelled = true ↔ x.cancelled = true ∨ e.cancelled = some t) :
    Recorded trace' (updateTimer ts t f) := by
  have clock_eq : clock trace' = clock trace := by simpa [still] using grows.clock
  have births_eq : births trace' = births trace := by simpa [unborn] using grows.births
  have given_eq : givenIn trace' = givenIn trace ++ [t] := by simpa [given] using grows.given
  have started_eq : startedIn trace' = startedIn trace := by simpa using grows.started
  have freed_eq : freedIn trace' = freedIn trace := by simpa using grows.freed
  have cancelled_mem : ∀ u, u ∈ cancelledIn trace' ↔
      u ∈ cancelledIn trace ∨ (u = t ∧ e.cancelled = some t) := by
    intro u
    rw [grows.cancelled, List.mem_append]
    rcases whose with this | nobody
    · simp [this]
    · simp [nobody]
  have held_iff : ∀ u, Held trace' u ↔ Held trace u ∧ u ≠ t := by
    intro u
    rw [Held, Held, births_eq, given_eq, List.mem_append, List.mem_singleton, not_or, and_assoc]
  have ids : (updateTimer ts t f).timers.map (·.id) = ts.timers.map (·.id) := by
    rw [updateTimer, List.map_map]
    refine List.map_congr_left fun x _ => ?_
    by_cases this : x.id = t
    · simp only [Function.comp_apply, if_pos this, id]
    · simp only [Function.comp_apply, if_neg this]
  have named : ∀ u, (∃ x ∈ (updateTimer ts t f).timers, x.id = u) ↔ ∃ x ∈ ts.timers, x.id = u := by
    intro u
    rw [← List.mem_map, ids, List.mem_map]
  constructor
  · rw [clock_eq]
    exact kept.tick
  · rw [births_eq]
    exact kept.next
  · rw [ids]
    exact kept.distinct
  · intro y member
    obtain ⟨x, there, rfl⟩ := List.mem_map.mp member
    obtain ⟨due', ended, refs'⟩ := kept.entry x there
    by_cases this : x.id = t
    · rw [if_pos this]
      refine ⟨?_, ?_, ?_⟩
      · rw [id, due, births_eq]
        exact due'
      · rw [ends, id, cancelled_mem, started_eq, ended]
        simp only [this, true_and]
        tauto
      · have once : ¬Held trace' x.id := fun still_held => ((held_iff _).mp still_held).2 this
        rw [refs, refs', id, if_neg once, this, if_pos held]
        rfl
    · rw [if_neg this]
      refine ⟨?_, ?_, ?_⟩
      · rw [births_eq]
        exact due'
      · rw [cancelled_mem, started_eq, ended]
        simp [this]
      · have same : Held trace' x.id ↔ Held trace x.id := by simp [held_iff, this]
        simp only [same]
        exact refs'
  · intro u before kept_on
    rw [named]
    exact kept.linked u before (freed_eq ▸ kept_on)
  · intro u member
    rw [freed_eq] at member
    obtain ⟨unheld, ended, unlinked⟩ := kept.gone u member
    refine ⟨fun h => unheld ((held_iff u).mp h).1, ?_, ?_⟩
    · rw [cancelled_mem, started_eq]
      tauto
    · intro x there same
      obtain ⟨y, member', same'⟩ := (named u).mp ⟨x, there, same⟩
      exact unlinked y member' same'
  · intro u past
    have new : u = t → u < ts.next := fun this => this ▸ kept.held_below held
    rw [given_eq, cancelled_mem, started_eq, freed_eq, List.mem_append, List.mem_singleton] at past
    rcases past with (old | this) | (old | this) | old | old
    · exact kept.known u (.inl old)
    · exact new this
    · exact kept.known u (.inr (.inl old))
    · exact new this.1
    · exact kept.known u (.inr (.inr (.inl old)))
    · exact kept.known u (.inr (.inr (.inr old)))

/-! ### A pass -/

section

variable {tick : UInt32} {busy : List Nat}

theorem firesAt_iff : firesAt tick busy x = true ↔
    x.id ∉ busy ∧ x.cancelled = false ∧ x.expires < tick := by
  simp [firesAt, and_assoc]

theorem visitTimer_busy (locked : x.id ∈ busy) : visitTimer tick busy x = some x := if_pos locked

theorem firesAt_busy (locked : x.id ∈ busy) : firesAt tick busy x = false := by
  simp [firesAt, locked]

/- A timer that is not locked is marked when it fires, and goes when it is marked and unheld. -/
theorem visitTimer_free (unlocked : x.id ∉ busy) : visitTimer tick busy x =
    if (x.cancelled = true ∨ firesAt tick busy x = true) ∧ x.refcnt = 0 then none
    else some { x with cancelled := x.cancelled || firesAt tick busy x } := by
  rw [visitTimer, if_neg unlocked]
  cases fires : firesAt tick busy x with
  | true => simp
  | false => simp

theorem visitTimer_some {y : Timer H} (stays : visitTimer tick busy x = some y) :
    y.id = x.id ∧ y.expires = x.expires ∧ y.refcnt = x.refcnt ∧
      (y.cancelled = true ↔ x.cancelled = true ∨ firesAt tick busy x = true) := by
  by_cases locked : x.id ∈ busy
  · rw [visitTimer_busy locked] at stays
    obtain rfl := Option.some.inj stays
    simp [firesAt_busy locked]
  · rw [visitTimer_free locked] at stays
    split at stays
    · cases stays
    · obtain rfl := Option.some.inj stays
      simp

theorem visitTimer_none (goes : visitTimer tick busy x = none) :
    x.refcnt = 0 ∧ (x.cancelled = true ∨ firesAt tick busy x = true) := by
  by_cases locked : x.id ∈ busy
  · rw [visitTimer_busy locked] at goes
    cases goes
  · rw [visitTimer_free locked] at goes
    split at goes
    · rename_i both
      exact ⟨both.2, both.1⟩
    · cases goes

theorem mem_started {t : Nat} : t ∈ (passReport ts busy).started ↔
    ∃ x ∈ ts.timers, firesAt ts.tick busy x = true ∧ x.id = t := by
  simp [passReport, and_assoc]

theorem mem_freed {t : Nat} : t ∈ (passReport ts busy).freed ↔
    ∃ x ∈ ts.timers, visitTimer ts.tick busy x = none ∧ x.id = t := by
  simp [passReport, and_assoc]

theorem Recorded.same (kept : Recorded trace ts) {y : Timer H} (here : x ∈ ts.timers) (there : y ∈ ts.timers)
    (same : x.id = y.id) : x = y := List.inj_on_of_nodup_map kept.distinct here there same

/- What the pass starts and frees, in the words of the history. -/
theorem Recorded.contract (busy : List Nat) (kept : Recorded trace ts)
    (bound : clock trace + 10 < 2 ^ 31) :
    PassContract trace busy (passReport { ts with tick := ts.tick + 10 } busy) := by
  have now : (ts.tick + 10).toNat = clock trace + 10 := by
    have ten : (10 : UInt32).toNat = 10 := rfl
    rw [UInt32.toNat_add, kept.tick, ten]
    omega
  have late : ∀ {x : Timer H} {b : Birth}, x.expires.toNat = b.due →
      (x.expires < ts.tick + 10 ↔ b.due < clock trace + 10) := by
    intro x b due
    rw [UInt32.lt_iff_toNat_lt, due, now]
  constructor
  · intro t
    rw [mem_started]
    constructor
    · rintro ⟨x, member, fires, rfl⟩
      obtain ⟨unlocked, alive, past⟩ := firesAt_iff.mp fires
      obtain ⟨⟨b, here, due⟩, ended, -⟩ := kept.entry x member
      rw [alive] at ended
      have neither := mt ended.mpr (by simp)
      exact ⟨unlocked, fun h => neither (.inl h), fun h => neither (.inr h), b, here, (late due).mp past⟩
    · rintro ⟨unlocked, uncancelled, unstarted, b, here, past⟩
      have before : t < ts.next := by
        rw [kept.next]
        exact (List.getElem?_eq_some_iff.mp here).1
      have kept_on : t ∉ freedIn trace := fun gone =>
        (kept.gone t gone).2.1.elim uncancelled unstarted
      obtain ⟨x, member, rfl⟩ := kept.linked t before kept_on
      obtain ⟨⟨b', here', due⟩, ended, -⟩ := kept.entry x member
      obtain rfl : b = b' := by
        rw [Option.mem_def] at here here'
        exact Option.some.inj (here.symm.trans here')
      have alive : x.cancelled = false := by
        rw [← Bool.not_eq_true, ended]
        exact fun h => h.elim uncancelled unstarted
      exact ⟨x, member, firesAt_iff.mpr ⟨unlocked, alive, (late due).mpr past⟩, rfl⟩
  · intro t member
    obtain ⟨x, there, goes, rfl⟩ := mem_freed.mp member
    obtain ⟨unheld, marked⟩ := visitTimer_none goes
    obtain ⟨-, ended, refs⟩ := kept.entry x there
    refine ⟨fun held => ?_, ?_⟩
    · rw [if_pos held, unheld] at refs
      cases refs
    · rcases marked with dead | fires
      · exact (ended.mp dead).imp id (List.mem_append_left _)
      · exact .inr (List.mem_append_right _ (mem_started.mpr ⟨x, there, fires, rfl⟩))

theorem passReport_nodup (busy : List Nat) (ts : TimerService H) (distinct : (ts.timers.map (·.id)).Nodup) :
    (passReport ts busy).started.Nodup ∧ (passReport ts busy).freed.Nodup :=
  ⟨distinct.sublist (List.filter_sublist.map _), distinct.sublist (List.filter_sublist.map _)⟩

theorem visited_ids (timers : List (Timer H)) :
    ((timers.filterMap (visitTimer tick busy)).map (·.id)).Sublist (timers.map (·.id)) := by
  induction timers with
  | nil => exact List.Sublist.slnil
  | cons x rest ih =>
    rw [List.map_cons]
    cases visited : visitTimer tick busy x with
    | none =>
      rw [List.filterMap_cons_none visited]
      exact ih.cons _
    | some y =>
      rw [List.filterMap_cons_some visited, List.map_cons, (visitTimer_some visited).1]
      exact ih.cons_cons _

theorem Recorded.pass (kept : Recorded trace ts) (bound : clock trace + 10 < 2 ^ 31)
    (grows : Grows trace trace' (.pass busy) (passReport { ts with tick := ts.tick + 10 } busy)) :
    Recorded trace' (timersStart ts busy) := by
  have contract := Recorded.contract busy kept bound
  have births_eq : births trace' = births trace := by simpa [ServiceEv.births] using grows.births
  have given_eq : givenIn trace' = givenIn trace := by simpa [ServiceEv.given] using grows.given
  have cancelled_eq : cancelledIn trace' = cancelledIn trace := by
    simpa [ServiceEv.cancelled] using grows.cancelled
  have held : ∀ t, Held trace' t ↔ Held trace t := by
    intro t
    rw [Held, Held, births_eq, given_eq]
  have visited : ∀ y ∈ (timersStart ts busy).timers, ∃ x ∈ ts.timers,
      visitTimer (ts.tick + 10) busy x = some y := fun y member => List.mem_filterMap.mp member
  constructor
  · have ten : (10 : UInt32).toNat = 10 := rfl
    show (ts.tick + 10).toNat = clock trace'
    rw [grows.clock, ServiceEv.lasts, UInt32.toNat_add, kept.tick, ten]
    omega
  · rw [births_eq]
    exact kept.next
  · exact kept.distinct.sublist (visited_ids ts.timers)
  · intro y member
    obtain ⟨x, there, stays⟩ := visited y member
    obtain ⟨id, expires, refcnt, marked⟩ := visitTimer_some stays
    obtain ⟨due, ended, refs⟩ := kept.entry x there
    refine ⟨?_, ?_, ?_⟩
    · rw [id, expires, births_eq]
      exact due
    · have fires : x.id ∈ (passReport { ts with tick := ts.tick + 10 } busy).started ↔
          firesAt (ts.tick + 10) busy x = true := by
        rw [mem_started]
        constructor
        · rintro ⟨z, here, fires, same⟩
          rw [← kept.same here there same]
          exact fires
        · exact fun fires => ⟨x, there, fires, rfl⟩
      rw [marked, id, cancelled_eq, grows.started, List.mem_append, fires, ended, or_assoc]
    · simp only [refcnt, id, held]
      exact refs
  · intro t before kept_on
    rw [grows.freed, List.mem_append, not_or] at kept_on
    obtain ⟨x, there, rfl⟩ := kept.linked t before kept_on.1
    cases goes : visitTimer (ts.tick + 10) busy x with
    | none =>
      have freed : x.id ∈ (passReport { ts with tick := ts.tick + 10 } busy).freed :=
        mem_freed.mpr ⟨x, there, goes, rfl⟩
      exact absurd freed kept_on.2
    | some y => exact ⟨y, List.mem_filterMap.mpr ⟨x, there, goes⟩, (visitTimer_some goes).1⟩
  · intro t member
    rw [grows.freed, List.mem_append] at member
    rw [held, cancelled_eq, grows.started, List.mem_append]
    rcases member with old | new
    · obtain ⟨unheld, ended, unlinked⟩ := kept.gone t old
      refine ⟨unheld, ended.imp (fun h => h) .inl, fun y there same => ?_⟩
      obtain ⟨x, linked, stays⟩ := visited y there
      exact unlinked x linked ((visitTimer_some stays).1.symm.trans same)
    · obtain ⟨unheld, ended⟩ := contract.freed t new
      obtain ⟨x, there, goes, rfl⟩ := mem_freed.mp new
      refine ⟨unheld, ended.imp (fun h => h) List.mem_append.mp, fun y linked same => ?_⟩
      obtain ⟨z, here, stays⟩ := visited y linked
      have both := kept.same here there ((visitTimer_some stays).1.symm.trans same)
      rw [both] at stays
      exact absurd (goes.symm.trans stays) (by simp)
  · intro t past
    rw [given_eq, cancelled_eq, grows.started, grows.freed, List.mem_append, List.mem_append] at past
    rcases past with old | old | (old | new) | (old | new)
    · exact kept.known t (.inl old)
    · exact kept.known t (.inr (.inl old))
    · exact kept.known t (.inr (.inr (.inl old)))
    · obtain ⟨x, there, -, rfl⟩ := mem_started.mp new
      exact kept.below there
    · exact kept.known t (.inr (.inr (.inr old)))
    · obtain ⟨x, there, -, rfl⟩ := mem_freed.mp new
      exact kept.below there

end

/-! ### Every run -/

/- The contract of a history that is one step longer. -/
theorem TimerContract.snoc (contract : TimerContract trace) (starts : r.started.Nodup)
    (first_start : ∀ t ∈ r.started, t ∉ startedIn trace) (frees : r.freed.Nodup)
    (first_free : ∀ t ∈ r.freed, t ∉ freedIn trace)
    (pass : ∀ busy, e = .pass busy → PassContract trace busy r)
    (touched : ∀ t, e.given = some t → t ∉ freedIn trace) : TimerContract (trace ++ [(e, r)]) := by
  have grows := grows_snoc trace e r
  constructor
  · rw [grows.started]
    refine List.nodup_append.mpr ⟨contract.started_once, starts, ?_⟩
    rintro t old _ new rfl
    exact first_start t new old
  · rw [grows.freed]
    refine List.nodup_append.mpr ⟨contract.freed_once, frees, ?_⟩
    rintro t old _ new rfl
    exact first_free t new old
  · intro before busy report inside
    rcases List.prefix_concat_iff.mp inside with whole | earlier
    · obtain ⟨rfl, last⟩ := List.append_inj' whole rfl
      obtain ⟨rfl, rfl⟩ : .pass busy = e ∧ report = r := by simpa using last
      exact pass busy rfl
    · exact contract.passes before busy report earlier
  · intro before e' report t inside given
    rcases List.prefix_concat_iff.mp inside with whole | earlier
    · obtain ⟨rfl, last⟩ := List.append_inj' whole rfl
      obtain ⟨rfl, rfl⟩ : e' = e ∧ report = r := by simpa using last
      exact touched t given
    · exact contract.untouched before e' report t earlier given

theorem TimerContract.quiet (contract : TimerContract trace) (calm : e.lasts = 0)
    (touched : ∀ t, e.given = some t → t ∉ freedIn trace) : TimerContract (trace ++ [(e, ({} : Report))]) := by
  have nothing : ∀ (past : List Nat), ∀ t ∈ ([] : List Nat), t ∉ past :=
    fun _ _ member => (List.not_mem_nil member).elim
  refine contract.snoc List.nodup_nil (nothing _) List.nodup_nil (nothing _) ?_ touched
  rintro busy rfl
  cases calm

structure Served (trace : History H) (ts : TimerService H) : Prop where
  kept : Recorded trace ts
  contract : TimerContract trace

theorem Served.keeps {ts' : TimerService H} (served : Served trace ts) (orderly : Orderly trace e)
    (taken : serviceStep ts e = some (ts', r)) : Served (trace ++ [(e, r)]) ts' := by
  obtain ⟨kept, contract⟩ := served
  have grows := grows_snoc trace e r
  have unfreed : ∀ t, Held trace t → t ∉ freedIn trace := fun t held gone => (kept.gone t gone).1 held
  cases e with
  | add expire handler =>
    obtain ⟨rfl, rfl⟩ : (timerAdd ts expire handler).1 = ts' ∧ ({} : Report) = r := by
      simpa [serviceStep] using taken
    have due : (ts.tick + expire).toNat = clock trace + expire.toNat := by
      have bound : clock trace + expire.toNat < 2 ^ 31 := orderly
      rw [UInt32.toNat_add, kept.tick]
      omega
    exact ⟨kept.born grows rfl rfl rfl rfl rfl due rfl rfl, contract.quiet rfl fun t h => by cases h⟩
  | oneshot expire handler =>
    obtain ⟨rfl, rfl⟩ : timerOneshot ts expire handler = ts' ∧ ({} : Report) = r := by
      simpa [serviceStep] using taken
    have due : (ts.tick + expire).toNat = clock trace + expire.toNat := by
      have bound : clock trace + expire.toNat < 2 ^ 31 := orderly
      rw [UInt32.toNat_add, kept.tick]
      omega
    exact ⟨kept.born grows rfl rfl rfl rfl rfl due rfl rfl, contract.quiet rfl fun t h => by cases h⟩
  | cancel t =>
    obtain ⟨rfl, rfl⟩ : timerCancel ts t = ts' ∧ ({} : Report) = r := by
      simpa [serviceStep] using taken
    cases t with
    | none => exact ⟨kept.idle grows rfl rfl rfl rfl, contract.quiet rfl fun t h => by cases h⟩
    | some t =>
      have held : Held trace t := orderly t rfl
      refine ⟨kept.back grows rfl rfl rfl (.inl rfl) held (fun _ => rfl) (fun _ => rfl) (fun _ => rfl)
        fun x => by simp [ServiceEv.cancelled], contract.quiet rfl ?_⟩
      rintro u given
      obtain rfl := Option.some.inj given
      exact unfreed t held
  | release t =>
    obtain ⟨rfl, rfl⟩ : timerRelease ts t = ts' ∧ ({} : Report) = r := by
      simpa [serviceStep] using taken
    cases t with
    | none => exact ⟨kept.idle grows rfl rfl rfl rfl, contract.quiet rfl fun t h => by cases h⟩
    | some t =>
      have held : Held trace t := orderly t rfl
      refine ⟨kept.back grows rfl rfl rfl (.inr rfl) held (fun _ => rfl) (fun _ => rfl) (fun _ => rfl)
        fun x => by simp [ServiceEv.cancelled], contract.quiet rfl ?_⟩
      rintro u given
      obtain rfl := Option.some.inj given
      exact unfreed t held
  | pass busy =>
    obtain ⟨rfl, rfl⟩ : timersStart ts busy = ts' ∧
        passReport { ts with tick := ts.tick + 10 } busy = r := by
      simpa [serviceStep] using taken
    have passed := Recorded.contract busy kept orderly
    obtain ⟨starts, frees⟩ := passReport_nodup busy { ts with tick := ts.tick + 10 } kept.distinct
    refine ⟨kept.pass orderly grows, contract.snoc starts ?_ frees ?_ ?_ fun t h => by cases h⟩
    · exact fun t new => ((passed.started t).mp new).2.2.1
    · intro t new old
      obtain ⟨x, there, -, rfl⟩ := mem_freed.mp new
      exact (kept.gone x.id old).2.2 x there rfl
    · intro other same
      obtain rfl : busy = other := by simpa using same
      exact passed

theorem Recorded.start : Recorded ([] : History H) {} := by
  constructor
  · rfl
  · rfl
  · exact List.nodup_nil
  · exact fun x member => (List.not_mem_nil member).elim
  · exact fun t before => absurd before (Nat.not_lt_zero t)
  · exact fun t member => (List.not_mem_nil member).elim
  · rintro t (h | h | h | h) <;> exact (List.not_mem_nil h).elim

theorem TimerContract.start : TimerContract ([] : History H) := by
  constructor
  · exact List.nodup_nil
  · exact List.nodup_nil
  · exact fun before busy report inside => by simp at inside
  · exact fun before e report t inside => by simp at inside

instance (trace : History H) (e : ServiceEv H) : Decidable (Orderly trace e) := by
  cases e <;> unfold Orderly <;> infer_instance

end HfIp
