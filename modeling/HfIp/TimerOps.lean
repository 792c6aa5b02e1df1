import HfIp.Timer

/- The timers of the service that can still fire, and what each operation does to them. A timer that
   has been cancelled, or has fired, never fires again; releasing a timer does not stop it. -/
namespace HfIp

structure Alarm (H : Type) where
  id : Nat
  expires : UInt32
  handler : H
  deriving DecidableEq, Repr

variable {H : Type}

def Timer.alarm (x : Timer H) : Alarm H := ⟨x.id, x.expires, x.handler⟩

def alarmsOf (timers : List (Timer H)) : List (Alarm H) :=
  (timers.filter fun x => !x.cancelled).map Timer.alarm

def alarms (ts : TimerService H) : List (Alarm H) := alarmsOf ts.timers

/- The pass at `tick` fires the alarm, unless its timer is locked. -/
def Alarm.due (tick : UInt32) (busy : List Nat) (a : Alarm H) : Bool :=
  a.id ∉ busy && a.expires < tick

def Alarm.thread (tick : UInt32) (a : Alarm H) : Thread H := ⟨a.id, tick, a.handler⟩

variable (ts : TimerService H)

@[simp] theorem alarmsOf_cons (x : Timer H) (rest : List (Timer H)) :
    alarmsOf (x :: rest) = if x.cancelled then alarmsOf rest else x.alarm :: alarmsOf rest := by
  cases dead : x.cancelled <;> simp [alarmsOf, dead]

theorem alarmsOf_append (xs ys : List (Timer H)) :
    alarmsOf (xs ++ ys) = alarmsOf xs ++ alarmsOf ys := by
  simp [alarmsOf]

theorem alarms_oneshot (expire : UInt32) (handler : H) :
    alarms (timerOneshot ts expire handler)
      = alarms ts ++ [⟨ts.next, ts.tick + expire, handler⟩] := by
  simp only [alarms, timerOneshot, alarmsOf_append]
  rfl

theorem alarms_add (expire : UInt32) (handler : H) :
    alarms (timerAdd ts expire handler).1 = alarms ts ++ [⟨ts.next, ts.tick + expire, handler⟩] := by
  simp only [alarms, timerAdd, alarmsOf_append]
  rfl

theorem alarmsOf_update (timers : List (Timer H)) (t : Nat) (f : Timer H → Timer H)
    (alarm : ∀ x, (f x).alarm = x.alarm) (live : ∀ x, (f x).cancelled = x.cancelled) :
    alarmsOf (timers.map fun x => if x.id = t then f x else x) = alarmsOf timers := by
  induction timers with
  | nil => rfl
  | cons x rest ih =>
    rw [List.map_cons, alarmsOf_cons, alarmsOf_cons, ih]
    by_cases this : x.id = t
    · simp only [if_pos this, alarm, live]
    · simp only [if_neg this]

@[simp] theorem alarms_release (t : Option Nat) : alarms (timerRelease ts t) = alarms ts := by
  cases t with
  | none => rfl
  | some t => exact alarmsOf_update _ _ _ (fun _ => rfl) fun _ => rfl

theorem alarms_cancel (t : Option Nat) :
    alarms (timerCancel ts t) = (alarms ts).filter fun a => some a.id ≠ t := by
  cases t with
  | none => simp [timerCancel]
  | some t =>
    simp only [alarms, timerCancel, updateTimer]
    induction ts.timers with
    | nil => rfl
    | cons x rest ih =>
      rw [List.map_cons, alarmsOf_cons, alarmsOf_cons, ih]
      by_cases this : x.id = t
      · cases dead : x.cancelled <;> simp [this, Timer.alarm]
      · cases dead : x.cancelled <;> simp [this, dead, Timer.alarm]

theorem alarms_tick (busy : List Nat) : alarms (timersTick ts busy)
    = (alarms ts).filter fun a => !a.due ts.tick busy := by
  simp only [alarms, timersTick]
  induction ts.timers with
  | nil => rfl
  | cons x rest ih =>
    rw [List.filterMap_cons, alarmsOf_cons]
    by_cases locked : x.id ∈ busy
    · cases dead : x.cancelled <;> simp [visitTimer, locked, dead, ih, Timer.alarm, Alarm.due]
    · cases dead : x.cancelled
      · by_cases late : x.expires < ts.tick
        · by_cases dropped : x.refcnt = 0 <;>
            simp [visitTimer, firesAt, locked, dead, late, dropped, ih, Timer.alarm, Alarm.due]
        · simp [visitTimer, firesAt, locked, dead, late, ih, Timer.alarm, Alarm.due]
      · by_cases dropped : x.refcnt = 0 <;>
          simp [visitTimer, firesAt, locked, dead, dropped, ih]

theorem threads_tick (busy : List Nat) : (timersTick ts busy).threads
    = ts.threads ++ ((alarms ts).filter (Alarm.due ts.tick busy)).map (Alarm.thread ts.tick) := by
  simp only [alarms, timersTick]
  congr 1
  induction ts.timers with
  | nil => rfl
  | cons x rest ih =>
    rw [List.filter_cons, alarmsOf_cons]
    by_cases locked : x.id ∈ busy
    · cases dead : x.cancelled <;> simp [firesAt, locked, dead, ih, Timer.alarm, Alarm.due]
    · cases dead : x.cancelled
      · by_cases late : x.expires < ts.tick <;>
          simp [firesAt, locked, dead, late, ih, Timer.alarm, Alarm.due, Alarm.thread]
      · simp [firesAt, dead, ih]

/- An alarm is kept by a turn of the clock, or its handler's thread has been started. -/
theorem tick_keeps {a : Alarm H} (member : a ∈ alarms ts) (busy : List Nat) :
    a ∈ alarms (timersStart ts busy) ∨
      ∃ t ∈ (timersStart ts busy).threads, t.timer = a.id ∧ t.handler = a.handler := by
  have moved : a ∈ alarms { ts with tick := ts.tick + 10 } := member
  unfold timersStart
  cases due : a.due (ts.tick + 10) busy with
  | false =>
    refine .inl ?_
    rw [alarms_tick]
    exact List.mem_filter.mpr ⟨moved, by simp [due]⟩
  | true =>
    refine .inr ⟨a.thread (ts.tick + 10), ?_, rfl, rfl⟩
    rw [threads_tick]
    exact List.mem_append_right _ (List.mem_map_of_mem (List.mem_filter.mpr ⟨moved, due⟩))

theorem tick_threads {t : Thread H} (member : t ∈ ts.threads) (busy : List Nat) :
    t ∈ (timersStart ts busy).threads := by
  unfold timersStart
  rw [threads_tick]
  exact List.mem_append_left _ member

theorem tick_alarms {a : Alarm H} {busy : List Nat} (member : a ∈ alarms (timersStart ts busy)) :
    a ∈ alarms ts := by
  unfold timersStart at member
  rw [alarms_tick] at member
  exact (List.mem_filter.mp member).1

end HfIp
