import FusionOS.Lib.Run
import Mathlib.Logic.Function.Basic
import Mathlib.Algebra.Group.Nat.Defs
import Mathlib.Algebra.Group.Int.Defs

/-!
# The task table and its scheduler

`Sched` holds the static data of the task module. Every function below is the part of the source
function that runs under `sched_lock`; a call that finds the lock taken leaves the state alone and
is no step.
-/

namespace FusionOS.Scheduler

open Function (update)

@[irreducible] def maxTasks : Nat := 64
def taskStackSize : Nat := 32 * 1024

inductive TaskState where
  | unused | ready | running | sleeping | zombie
  deriving DecidableEq, Repr

structure Task where
  state : TaskState
  rsp : Nat
  wakeTick : Nat
  stack : Nat
  cpuAffinity : Int
  runningCpu : Int
  isIdle : Bool
  deriving DecidableEq, Repr

structure Sched where
  tasks : Nat → Task
  taskCount : Nat
  cpuCountGlobal : Nat
  currentTask : Nat → Option Nat
  idleIndex : Nat → Int
  lastPick : Nat → Int
  schedulerActive : Bool
  lapicMap : Nat → Nat
  lapicMapCount : Nat
  kernelCs : Nat
  ticks : Nat
  mem : Nat → Nat

def Sched.setTask (s : Sched) (i : Nat) (t : Task) : Sched :=
  { s with tasks := update s.tasks i t }

def Sched.setCurrent (s : Sched) (cpu i : Nat) : Sched :=
  { s with currentTask := update s.currentTask cpu (some i) }

def Sched.setLastPick (s : Sched) (cpu i : Nat) : Sched :=
  { s with lastPick := update s.lastPick cpu (i : Int) }

def cpuIndex (s : Sched) (lapicId : Nat) : Nat :=
  if s.lapicMapCount = 0 then 0
  else if lapicId < 256 then s.lapicMap lapicId
  else 0

def taskRegisterCpu (s : Sched) (lapicId index : Nat) : Sched :=
  if lapicId < 256 then
    { s with
      lapicMap := update s.lapicMap lapicId index
      lapicMapCount := if s.lapicMapCount < index + 1 then index + 1 else s.lapicMapCount }
  else s

/-- Pushes `ws` downwards from `sp`, the first word highest; returns the final stack pointer. -/
def pushAll (mem : Nat → Nat) (sp : Nat) : List Nat → (Nat → Nat) × Nat
  | [] => (mem, sp)
  | w :: ws => pushAll (update mem (sp - 8) w) (sp - 8) ws

/-- The initial frame: flags, code selector and entry point, then fifteen zeroed registers. -/
def taskBuildStack (mem : Nat → Nat) (kernelCs stack entry : Nat) : (Nat → Nat) × Nat :=
  let top := stack + taskStackSize
  pushAll mem (top - top % 16) ([0x202, kernelCs, entry] ++ List.replicate 15 0)

/-- Index of the first slot below `n` that satisfies `p`. -/
def firstSlot (p : Nat → Bool) : Nat → Option Nat
  | 0 => none
  | n + 1 =>
    match firstSlot p n with
    | some i => some i
    | none => if p n then some n else none

def taskFindFree (s : Sched) : Option Nat :=
  firstSlot (fun i => (s.tasks i).state = .unused) maxTasks

/-- What `task_cleanup` does to one slot. -/
def reap (t : Task) : Task :=
  if t.state = .zombie then { t with stack := 0, state := .unused, runningCpu := -1 } else t

def taskCleanup (s : Sched) : Sched :=
  { s with tasks := fun i => if i < maxTasks then reap (s.tasks i) else s.tasks i }

/-- The slots whose stack `task_cleanup` passes to `free`. -/
def freedByCleanup (s : Sched) : List Nat :=
  (List.range maxTasks).filter fun i => (s.tasks i).state = .zombie && (s.tasks i).stack != 0

def eligible (s : Sched) (cpu i : Nat) : Bool :=
  (s.tasks i).state = .ready && (s.tasks i).runningCpu = -1 &&
    !((s.tasks i).cpuAffinity ≥ 0 && (s.tasks i).cpuAffinity ≠ cpu)

/-- The scan of `task_pick_next`: `n` slots are left, the next one is `i`, and
`idleCandidate` is the first eligible idle task met so far. -/
def pickScan (s : Sched) (cpu : Nat) : Nat → Nat → Option Nat → Option Nat
  | 0, _, idleCandidate => idleCandidate
  | n + 1, i, idleCandidate =>
    if eligible s cpu i then
      if (s.tasks i).isIdle then
        pickScan s cpu n ((i + 1) % maxTasks) (idleCandidate <|> some i)
      else some i
    else pickScan s cpu n ((i + 1) % maxTasks) idleCandidate

def taskPickNext (s : Sched) (cpu : Nat) : Option Nat × Sched :=
  -- `last_pick` starts at -1, so the first scan begins at slot 0
  let start := ((s.lastPick cpu + 1) % (maxTasks : Int)).toNat
  match pickScan s cpu maxTasks start none with
  | some i => (some i, s.setLastPick cpu i)
  | none => (none, s)

/-- `task_create_affinity`; `stack` is the answer of `malloc`, `entry` the address of the trampoline. -/
def taskCreateAffinity (s : Sched) (affinity : Int) (stack entry : Nat) : Option Nat × Sched :=
  match taskFindFree s with
  | none => (none, s)
  | some idx =>
    if stack = 0 then (none, s)
    else
      let (mem, rsp) := taskBuildStack s.mem s.kernelCs stack entry
      (some idx,
        { s with
          tasks := update s.tasks idx
            { state := .ready, rsp := rsp, wakeTick := 0, stack := stack,
              cpuAffinity := affinity, runningCpu := -1, isIdle := false }
          taskCount := (s.taskCount + 1) % 2 ^ 32
          mem := mem })

/-- One turn of the loop of `task_init`: the idle task of `cpu`. -/
def taskInitIdle (stackOf : Nat → Nat) (entry : Nat) (s : Sched) (cpu : Nat) : Sched :=
  match taskCreateAffinity s cpu (stackOf cpu) entry with
  | (none, s') => { s' with idleIndex := update s'.idleIndex cpu (-1) }
  | (some idx, s') =>
    { s' with
      idleIndex := update s'.idleIndex cpu (idx : Int)
      tasks := update s'.tasks idx { s'.tasks idx with isIdle := true } }

def clearTask (t : Task) : Task :=
  { t with state := .unused, stack := 0, runningCpu := -1, cpuAffinity := -1, isIdle := false }

/-- `task_init` before its last loop: every slot unused, no CPU with a current task. -/
def taskInitTables (s : Sched) (cpuCount : Nat) : Sched :=
  { s with
    tasks := fun i => if i < maxTasks then clearTask (s.tasks i) else s.tasks i
    currentTask := fun _ => none
    idleIndex := fun _ => -1
    lastPick := fun _ => -1
    cpuCountGlobal := cpuCount }

def Sched.setActive (s : Sched) (active : Bool) : Sched := { s with schedulerActive := active }

def taskInit (s : Sched) (cpuCount : Nat) (stackOf : Nat → Nat) (entry : Nat) : Sched :=
  ((List.range (min cpuCount 64)).foldl (taskInitIdle stackOf entry)
    (taskInitTables s cpuCount)).setActive false

/-- The common body of `task_start_bsp` (where `cpu` is 0) and `task_start_ap`. -/
def taskStart (s : Sched) (cpu lapicId : Nat) : Sched :=
  let s' :=
    if 0 ≤ s.idleIndex cpu then
      let i := (s.idleIndex cpu).toNat
      (s.setTask i { s.tasks i with state := .running, runningCpu := lapicId }).setCurrent cpu i
    else s
  s'.setActive true

def taskStartBsp (s : Sched) (lapicId : Nat) : Sched := taskStart s 0 lapicId

def taskStartAp (s : Sched) (lapicId : Nat) : Sched := taskStart s (cpuIndex s lapicId) lapicId

/-- What `task_tick` does to one slot. -/
def wake (ticks : Nat) (t : Task) : Task :=
  if t.state = .sleeping ∧ t.wakeTick ≤ ticks then { t with state := .ready } else t

def taskTick (s : Sched) : Sched :=
  if s.schedulerActive then
    { s with tasks := fun i => if i < maxTasks then wake s.ticks (s.tasks i) else s.tasks i }
  else s

/-- The clock of `timer_handler`. -/
def clockTick (s : Sched) : Sched := { s with ticks := (s.ticks + 1) % 2 ^ 64 }

def taskSleep (s : Sched) (lapicId sleepTicks : Nat) : Sched :=
  match s.currentTask (cpuIndex s lapicId) with
  | none => s
  | some t =>
    s.setTask t { s.tasks t with
      state := .sleeping, wakeTick := (s.ticks + sleepTicks) % 2 ^ 64, runningCpu := -1 }

/-- The end of `task_trampoline`, once the entry function of the task has returned. -/
def taskExit (s : Sched) (lapicId : Nat) : Sched :=
  match s.currentTask (cpuIndex s lapicId) with
  | none => s
  | some t => s.setTask t { s.tasks t with state := .zombie, runningCpu := -1 }

/-- The test on the saved frame: code selector and a canonical high-half return address. -/
def frameOk (s : Sched) (rsp : Nat) : Bool :=
  s.mem (rsp + 16 * 8) = s.kernelCs &&
    (s.mem (rsp + 15 * 8)) &&& 0xFFFF800000000000 = 0xFFFF800000000000

/-- Saves the interrupted task: `ctx.rsp`, and back to READY if it was RUNNING. -/
def savePrev (s : Sched) (prev rsp : Nat) : Sched :=
  let t := { s.tasks prev with rsp := rsp }
  s.setTask prev
    (if t.state = .running then { t with state := .ready, runningCpu := -1 } else t)

/-- The state in which `task_schedule_isr` looks for the next task. -/
def interrupted (s : Sched) (cpu rsp : Nat) : Sched :=
  match s.currentTask cpu with
  | some prev => savePrev (taskCleanup s) prev rsp
  | none => taskCleanup s

def setRunning (s : Sched) (i lapicId : Nat) : Sched :=
  s.setTask i { s.tasks i with state := .running, runningCpu := lapicId }

def taskScheduleIsr (s : Sched) (lapicId rsp : Nat) : Nat × Sched :=
  if s.schedulerActive then
    let cpu := cpuIndex s lapicId
    let prev := s.currentTask cpu
    match taskPickNext (interrupted s cpu rsp) cpu with
    | (none, s₁) =>
      match prev with
      | some p => (rsp, setRunning s₁ p lapicId)
      | none => (rsp, s₁)
    | (some next, s₁) =>
      let s₂ := setRunning s₁ next lapicId
      let s₃ := if prev = some next then s₂ else s₂.setCurrent cpu next
      let nextRsp := (s₃.tasks next).rsp
      if nextRsp ≠ 0 ∧ frameOk s₃ nextRsp then (nextRsp, s₃) else (rsp, s₃)
  else (rsp, s)

end FusionOS.Scheduler
