import CaseHarvest.Duration
import CaseHarvest.Files.Fault
import CaseHarvest.Files.Tree
/-!
What a process and those that it starts do over time, and waiting for it under a time limit. Times
are nanoseconds since the start.
-/
namespace CaseHarvest

inductive ExitStatus where
  | exited (code : Nat)
  | signalled
  deriving DecidableEq, Repr

namespace ExitStatus

/-- The exit code; a process that a signal ended has none. -/
def code? : ExitStatus → Option Nat
  | exited code => some code
  | signalled => none

end ExitStatus

/-- What a process group does if it is left alone, on a machine where other processes may run. -/
structure Activity (Running : Type) where
  /-- When and how the first process ends, if it does. -/
  ending : Option (Nat × ExitStatus)
  /-- When and why waiting for the first process fails, if it does. -/
  failing : Option (Nat × Fault) := none
  /-- The files at each time. -/
  files : Nat → FileTree
  /-- What runs on the machine at each time. -/
  running : Nat → Running
  /-- What runs on at each time if the group is killed then. -/
  spared : Nat → Running

/-- What waiting for a process group comes to. -/
structure Outcome (Running : Type) where
  /-- How the first process ended, if it did in time. -/
  status : Except Fault (Option ExitStatus)
  time : Nat
  files : FileTree
  running : Running

namespace Activity

variable {Running : Type}

/-- The whole group is killed, because the limit is reached or because waiting failed. The kill is taken
as instantaneous: no process of the group does anything after it. -/
def killedAt (a : Activity Running) (time : Nat) (fault? : Option Fault) : Outcome Running where
  status := match fault? with
    | none => .ok none
    | some fault => .error fault
  time := time
  files := a.files time
  running := a.spared time

/-- Only the end of the first process is waited for. -/
def endedAt (a : Activity Running) (time : Nat) (status : ExitStatus) : Outcome Running where
  status := .ok (some status)
  time := time
  files := a.files time
  running := a.running time

/-- When waiting fails, if it does so before the first process has ended. -/
def failure? (a : Activity Running) : Option (Nat × Fault) :=
  a.failing.filter fun (time, _) => a.ending.all fun (ended, _) => time < ended

/-- Waits for the first process, but not longer than a limit. -/
def await (a : Activity Running) (limit : Duration) : Outcome Running :=
  match a.failure?, a.ending with
  | some (time, fault), _ =>
    if time < limit.toNanos then a.killedAt time (some fault) else a.killedAt limit.toNanos none
  | none, some (time, status) =>
    if time ≤ limit.toNanos then a.endedAt time status else a.killedAt limit.toNanos none
  | none, none => a.killedAt limit.toNanos none

end Activity

end CaseHarvest
