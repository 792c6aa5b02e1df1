import Mathlib.Algebra.GroupWithZero.Nat
import Mathlib.Data.List.Basic
import Mathlib.Data.List.Nodup

/- The timer service of src/timer.c. A timer is named by its allocation number, so a freed
   timer's name is never reused. `timers_tick` starts one thread for each handler it fires;
   the thread runs later, and nothing in the service ever waits for it. -/
namespace HfIp

structure Timer (H : Type) where
  id : Nat
  refcnt : Int
  expires : UInt32
  cancelled : Bool
  handler : H
  deriving DecidableEq, Repr

/- A handler started by `pthread_create` and not yet run: the timer that fired, the tick of the
   pass that fired it, and the function the thread will call. -/
structure Thread (H : Type) where
  timer : Nat
  since : UInt32
  handler : H
  deriving DecidableEq, Repr

structure TimerService (H : Type) where
  tick : UInt32 := 0
  timers : List (Timer H) := []
  next : Nat := 0
  threads : List (Thread H) := []
  deriving DecidableEq, Repr

variable {H : Type}

def timerGetTick (ts : TimerService H) : UInt32 := ts.tick

def timerOneshot (ts : TimerService H) (expire : UInt32) (handler : H) : TimerService H :=
  { ts with
    timers := ts.timers ++ [⟨ts.next, 0, timerGetTick ts + expire, false, handler⟩]
    next := ts.next + 1 }

def timerAdd (ts : TimerService H) (expire : UInt32) (handler : H) : TimerService H × Nat :=
  ({ ts with
      timers := ts.timers ++ [⟨ts.next, 1, timerGetTick ts + expire, false, handler⟩]
      next := ts.next + 1 }, ts.next)

def updateTimer (ts : TimerService H) (t : Nat) (f : Timer H → Timer H) : TimerService H :=
  { ts with timers := ts.timers.map fun x => if x.id = t then f x else x }

def timerRelease (ts : TimerService H) : Option Nat → TimerService H
  | none => ts
  | some t => updateTimer ts t fun x => { x with refcnt := x.refcnt - 1 }

def timerCancel (ts : TimerService H) : Option Nat → TimerService H
  | none => ts
  | some t => updateTimer ts t fun x => { x with refcnt := x.refcnt - 1, cancelled := true }

def findTimer (ts : TimerService H) (t : Nat) : Option (Timer H) :=
  ts.timers.find? fun x => x.id = t

/- `busy` lists the timers whose lock `pthread_mutex_trylock` finds taken. -/
def firesAt (tick : UInt32) (busy : List Nat) (x : Timer H) : Bool :=
  x.id ∉ busy && !x.cancelled && x.expires < tick

def visitTimer (tick : UInt32) (busy : List Nat) (x : Timer H) : Option (Timer H) :=
  if x.id ∈ busy then some x
  else
    let x := if firesAt tick busy x then { x with cancelled := true } else x
    if x.cancelled && x.refcnt = 0 then none else some x

def timersTick (ts : TimerService H) (busy : List Nat) : TimerService H :=
  { ts with
    timers := ts.timers.filterMap (visitTimer ts.tick busy)
    threads := ts.threads ++
      (ts.timers.filter (firesAt ts.tick busy)).map fun x => ⟨x.id, ts.tick, x.handler⟩ }

/- One turn of the loop of `timers_start`. -/
def timersStart (ts : TimerService H) (busy : List Nat) : TimerService H :=
  timersTick { ts with tick := ts.tick + 10 } busy

/- The thread at position `i` gets to run. -/
def takeThread (ts : TimerService H) (i : Nat) : Option (TimerService H × Thread H) :=
  ts.threads[i]?.map fun t => ({ ts with threads := ts.threads.eraseIdx i }, t)

end HfIp
