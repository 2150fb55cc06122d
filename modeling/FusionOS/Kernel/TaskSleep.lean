import FusionOS.Kernel.TaskSwitch
import FusionOS.Kernel.TaskSafety

/-!
# Calls of `task_sleep`

The call marks its task SLEEPING under the lock and then raises the scheduler interrupt. The
interrupt gives up where another CPU holds the lock, and then `task_sleep` returns at once.
-/

namespace FusionOS.Scheduler

open Function (update update_eq_self_iff update_of_ne update_self)

/-- A call of `task_sleep`: the tick up to which it sleeps, and whether the tick counter has got
there since. -/
structure SleepCall where
  deadline : Nat
  reached : Bool
  deriving DecidableEq

namespace SleepCall

/-- The call at a new value of the tick counter. -/
def tick (ticks : Nat) (call : SleepCall) : SleepCall :=
  { call with reached := call.reached || decide (call.deadline ≤ ticks) }

def Pending (call : SleepCall) : Prop := call.deadline < 2 ^ 64 ∧ call.reached = false

instance (call : SleepCall) : Decidable call.Pending := inferInstanceAs (Decidable (_ ∧ _))

end SleepCall

/-- The scheduler with what the code around it is doing. `lock` is the local APIC id of the CPU that
is inside a section under `sched_lock`. `call` tells by CPU index in which call of `task_sleep`
the code of the CPU is, between the section and the software interrupt. `saved` tells by slot in
which call the saved context of a task is, and whether it is inside the software interrupt of
that call, so that the call returns when the context is resumed. -/
structure World where
  config : Config
  lock : Option Nat
  call : Nat → Option SleepCall
  saved : Nat → Option (SleepCall × Bool)

inductive Event where
  /-- A CPU takes the lock and stays in its section. -/
  | hold (lapicId : Nat)
  /-- A section ends; `yield` tells the software interrupt of `task_sleep` from the others. -/
  | run (l : Label) (yield : Bool)
  /-- A scheduler interrupt finds the lock taken and gives up. -/
  | busy (lapicId : Nat) (yield : Bool)
  /-- The running code stores to memory, the saved frames on the stacks among it. -/
  | store (mem : Nat → Nat)

/-- The sections under `sched_lock`. -/
def Label.locks : Label → Bool
  | .startBsp _ | .startAp _ | .clock => false
  | _ => true

def Label.ofCpu (lapicId : Nat) : Label → Bool
  | .sleep id _ | .exit id | .isr id _ => id = lapicId
  | .create _ _ _ | .tick => true
  | _ => false

namespace World
variable (w : World)

@[reducible] def cpu (lapicId : Nat) : Nat := cpuIndex w.config.sched lapicId

/-- The section can be entered, or is the one that the holder of the lock is in. -/
def free (l : Label) : Bool :=
  !l.locks ||
    match w.lock with
    | none => true
    | some lapicId => l.ofCpu lapicId

/-- A task inside `task_sleep` makes no other call, and only such a task raises the software
interrupt of `task_sleep`. -/
def mayRun (yield : Bool) : Label → Bool
  | .sleep lapicId _ | .exit lapicId => (w.call (w.cpu lapicId)).isNone
  | .isr lapicId _ => !yield || (w.call (w.cpu lapicId)).isSome
  | _ => true

def stored (lapicId : Nat) (yield : Bool) : Nat → Option (SleepCall × Bool) :=
  match w.config.sched.currentTask (w.cpu lapicId) with
  | some p => update w.saved p ((w.call (w.cpu lapicId)).map (·, yield))
  | none => w.saved

def resumed (lapicId rsp : Nat) (yield : Bool) : Option (SleepCall × Bool) :=
  let out := taskScheduleIsr w.config.sched lapicId rsp
  if out.1 = rsp then (w.call (w.cpu lapicId)).map (·, yield)
  else (out.2.currentTask (w.cpu lapicId)).bind (w.stored lapicId yield)

def callAfter (l : Label) (yield : Bool) (c : Config) : Nat → Option SleepCall :=
  match l with
  | .sleep lapicId n =>
    update w.call (w.cpu lapicId) (some ⟨w.config.sched.ticks + n, n == 0⟩)
  | .clock => fun cpu => (w.call cpu).map (SleepCall.tick c.sched.ticks)
  | .isr lapicId rsp =>
    update w.call (w.cpu lapicId)
      ((w.resumed lapicId rsp yield).bind fun r => if r.2 then none else some r.1)
  | _ => w.call

def savedAfter (l : Label) (yield : Bool) (c : Config) : Nat → Option (SleepCall × Bool) :=
  match l with
  | .create affinity stack entry =>
    match (taskCreateAffinity w.config.sched affinity stack entry).1 with
    | some idx => update w.saved idx none
    | none => w.saved
  | .clock => fun t => (w.saved t).map fun r => (r.1.tick c.sched.ticks, r.2)
  | .isr lapicId _ =>
    -- the context of a task that runs is no longer a saved one
    match c.sched.currentTask (w.cpu lapicId) with
    | some n => update (w.stored lapicId yield) n none
    | none => w.stored lapicId yield
  | _ => w.saved

def next : Event → Option World
  | .hold lapicId => if w.lock = none then some { w with lock := some lapicId } else none
  | .run l yield =>
    if w.free l && w.mayRun yield l then
      (step w.config l).map fun c =>
        { config := c, lock := if l.locks then none else w.lock
          call := w.callAfter l yield c, saved := w.savedAfter l yield c }
    else none
  | .busy lapicId yield =>
    if w.lock = none then none
    else if yield then
      -- the CPU in the section is not at the software interrupt
      if w.lock = some lapicId ∨ w.call (w.cpu lapicId) = none then none
      else some { w with call := update w.call (w.cpu lapicId) none }
    else some w
  | .store mem =>
    some { w with config := { w.config with sched := { w.config.sched with mem := mem } } }

/-- The call of `task_sleep` that returns to its task with the event. -/
def returns : Event → Option SleepCall
  | .run (.isr lapicId rsp) yield =>
    (w.resumed lapicId rsp yield).bind fun r => if r.2 then some r.1 else none
  | .busy lapicId true => w.call (w.cpu lapicId)
  | _ => none

/-- No call of `task_sleep` returns before the tick counter has reached its end. -/
def NotEarly (e : Event) : Prop := ∀ call, w.returns e = some call → ¬ call.Pending

/-- The software interrupt of a call that must not return yet does not find the lock taken. -/
def LockFree : Event → Prop
  | .busy lapicId true => ∀ call, w.call (w.cpu lapicId) = some call → ¬ call.Pending
  | _ => True

/-- The event wakes or hands out no current task, and an interrupt happens on a CPU with an idle task
and switches to a valid saved frame only. -/
def Regular : Event → Prop
  | .run l _ => LeavesCurrent w.config l ∧
    match l with
    | .isr lapicId rsp => 0 ≤ w.config.sched.idleIndex (w.cpu lapicId) ∧
        SwitchesToFrame w.config.sched lapicId rsp
    | _ => True
  | _ => True

end World

/-- The world that `task_init` leaves behind. -/
def World.init (s : Sched) (cpuCount : Nat) (stackOf : Nat → Nat) (entry : Nat) : World :=
  ⟨Config.init s cpuCount stackOf entry, none, fun _ => none, fun _ => none⟩

/-! ## A call that must not return keeps its task asleep -/

/-- The task in slot `t` is inside the call: it sleeps up to the deadline as long as the call must
not return. -/
structure Sleeps (s : Sched) (t : Nat) (call : SleepCall) : Prop where
  lt : t < maxTasks
  notIdle : (s.tasks t).isIdle = false
  early : call.reached = false → s.ticks < call.deadline
  asleep : call.Pending →
    (s.tasks t).state = .sleeping ∧ (s.tasks t).wakeTick = call.deadline

namespace Sleeps
variable {s s' : Sched} {t : Nat} {call : SleepCall}

lemma congr (h : Sleeps s t call) (hticks : s'.ticks = s.ticks)
    (hidle : (s'.tasks t).isIdle = (s.tasks t).isIdle)
    (hstate : call.Pending → (s'.tasks t).state = (s.tasks t).state ∧
      (s'.tasks t).wakeTick = (s.tasks t).wakeTick) : Sleeps s' t call where
  lt := h.lt
  notIdle := hidle.trans h.notIdle
  early := by
    rw [hticks]
    exact h.early
  asleep := by
    intro hp
    obtain ⟨hst, hwake⟩ := hstate hp
    rw [hst, hwake]
    exact h.asleep hp

lemma of_task_eq (h : Sleeps s t call) (hticks : s'.ticks = s.ticks)
    (ht : s'.tasks t = s.tasks t) : Sleeps s' t call :=
  h.congr hticks (by rw [ht]) fun _ => by rw [ht]; exact ⟨rfl, rfl⟩

lemma not_pending (h : Sleeps s t call) (hs : (s.tasks t).state ≠ .sleeping) : ¬ call.Pending :=
  fun hp => hs (h.asleep hp).1

lemma tick (h : Sleeps s t call) : Sleeps (taskTick s) t call := by
  have hticks : (taskTick s).ticks = s.ticks := by
    obtain ⟨tasks, hs⟩ := taskTick_eq s
    rw [hs]
  rcases taskTick_tasks s t with ht | ⟨hsleep, hwake, ht⟩
  · exact h.of_task_eq hticks ht
  · refine h.congr hticks (by rw [ht]) fun hp => ?_
    -- the counter is below the deadline, so the task is not woken
    have hlt := h.early hp.2
    rw [(h.asleep hp).2] at hwake
    omega

lemma clock (h : Sleeps s t call) : Sleeps (clockTick s) t (call.tick (clockTick s).ticks) where
  lt := h.lt
  notIdle := h.notIdle
  early := by
    intro hr
    simp only [SleepCall.tick, Bool.or_eq_false_iff, decide_eq_false_iff_not] at hr ⊢
    omega
  asleep := by
    intro hp
    simp only [SleepCall.Pending, SleepCall.tick, Bool.or_eq_false_iff] at hp
    exact h.asleep ⟨hp.1, hp.2.1⟩

lemma start (h : Sleeps s t call) (htab : TableInv s) (cpu lapicId : Nat) :
    Sleeps (taskStart s cpu lapicId) t call := by
  by_cases hpos : 0 ≤ s.idleIndex cpu
  · obtain ⟨i, hi⟩ := Int.eq_ofNat_of_zero_le hpos
    have hti : t ≠ i := ((htab.idle cpu i hi).ne_of_not_idle h.notIdle).symm
    have hticks : (taskStart s cpu lapicId).ticks = s.ticks := by
      simp only [taskStart, if_pos hpos]
      rfl
    refine h.of_task_eq hticks ?_
    rw [(taskStart_some lapicId hi).1, update_of_ne hti]
  · rw [taskStart_none hpos]
    exact h.of_task_eq rfl rfl

lemma create (h : Sleeps s t call) {affinity : Int} {stack entry : Nat} {idx : Option Nat}
    (hc : taskCreateAffinity s affinity stack entry = (idx, s')) (hne : idx ≠ some t) :
    Sleeps s' t call := by
  cases idx with
  | none =>
    rw [taskCreateAffinity_none hc]
    exact h
  | some idx =>
    obtain ⟨-, -, -, -, -, rsp, ht⟩ := taskCreateAffinity_some hc
    have hti : t ≠ idx := fun h => hne (congrArg some h.symm)
    have hticks : s'.ticks = s.ticks := by
      unfold taskCreateAffinity at hc
      split at hc
      · cases hc
      · dsimp only at hc
        split at hc
        · cases hc
        · cases hc
          rfl
    exact h.of_task_eq hticks (by rw [ht, update_of_ne hti])

lemma interrupted (h : Sleeps s t call) (cpu rsp : Nat) : Sleeps (interrupted s cpu rsp) t call := by
  have hticks : (Scheduler.interrupted s cpu rsp).ticks = s.ticks := by
    obtain ⟨tasks, hs⟩ := interrupted_eq s cpu rsp
    rw [hs]
  have hidle : (reap (s.tasks t)).isIdle = (s.tasks t).isIdle := by
    unfold reap
    split <;> rfl
  refine h.congr hticks ?_ fun hp => ?_
  · rw [interrupted_isIdle s cpu rsp t h.lt, hidle]
  · have hsleep := (h.asleep hp).1
    have hreap : reap (s.tasks t) = s.tasks t := by
      rw [reap, if_neg (by rw [hsleep]; decide)]
    rw [interrupted_tasks s cpu rsp t h.lt, hreap]
    split
    · rw [if_neg (by rw [hsleep]; decide)]
      exact ⟨rfl, rfl⟩
    · exact ⟨rfl, rfl⟩

end Sleeps

structure SchedInv (s : Sched) : Prop where
  table : TableInv s
  current : CurrentInv s
  idle : IdleInv s
  active : ∀ cpu t, s.currentTask cpu = some t → s.schedulerActive = true

lemma SchedInv.of_tables {s s' : Sched} (h : SchedInv s) (ht : s'.tasks = s.tasks)
    (hcur : s'.currentTask = s.currentTask) (hidx : s'.idleIndex = s.idleIndex)
    (hact : s'.schedulerActive = s.schedulerActive) : SchedInv s' := by
  refine ⟨⟨?_, fun cpu i hi => ?_⟩, ⟨?_, ?_⟩, fun cpu i hi => ?_, ?_⟩
  · rw [hcur]
    exact h.table.current_lt
  · rw [hidx] at hi
    exact (h.table.idle cpu i hi).of_tasks_eq (by rw [ht]) hcur
  · rw [hcur]
    exact h.current.distinct
  · rw [hcur, ht]
    exact h.current.not_ready
  · rw [hidx] at hi
    unfold IdleWaits
    rw [ht, hcur]
    exact h.idle cpu i hi
  · rw [hcur, hact]
    exact h.active

lemma active_step {c c' : Config} {l : Label}
    (h : ∀ cpu t, c.sched.currentTask cpu = some t → c.sched.schedulerActive = true)
    (hstep : step c l = some c') :
    ∀ cpu t, c'.sched.currentTask cpu = some t → c'.sched.schedulerActive = true := by
  cases l with
  | startBsp lapicId =>
    obtain ⟨-, rfl⟩ := step_startBsp hstep
    exact fun _ _ _ => rfl
  | startAp lapicId =>
    obtain ⟨-, rfl⟩ := step_startAp hstep
    exact fun _ _ _ => rfl
  | create affinity stack entry =>
    obtain ⟨idx, hc, -⟩ := step_create hstep
    cases idx with
    | none =>
      rw [taskCreateAffinity_none hc]
      exact h
    | some idx =>
      obtain ⟨-, -, hcur, -, hact, -⟩ := taskCreateAffinity_some hc
      rw [hcur, hact]
      exact h
  | sleep lapicId n =>
    obtain ⟨t, ht, rfl⟩ := Option.map_eq_some_iff.mp hstep
    rw [taskSleep_eq (acting_some ht).1]
    exact h
  | exit lapicId =>
    obtain ⟨t, ht, rfl⟩ := Option.map_eq_some_iff.mp hstep
    rw [taskExit_eq (acting_some ht).1]
    exact h
  | clock =>
    cases hstep
    exact h
  | tick =>
    cases hstep
    obtain ⟨tasks, hs⟩ := taskTick_eq c.sched
    rw [hs]
    exact h
  | isr lapicId rsp =>
    cases hstep
    by_cases hact : c.sched.schedulerActive = true
    · exact fun _ _ _ => (taskScheduleIsr_cases lapicId rsp hact).2.1
    · rw [taskScheduleIsr, if_neg hact]
      exact h

lemma SchedInv.step {c c' : Config} {l : Label} (h : SchedInv c.sched) (hl : LeavesCurrent c l)
    (hstep : Scheduler.step c l = some c') : SchedInv c'.sched where
  table := tableInv_step h.table hstep
  current := currentInv_step h.table h.current hl hstep
  idle := idleInv_step h.table h.idle hstep
  active := active_step h.active hstep

/-- The tables, and what the calls of `task_sleep` that have not returned say about the slots. -/
structure SleepInv (w : World) : Prop where
  sched : SchedInv w.config.sched
  call : ∀ cpu call, w.call cpu = some call →
    ∃ p, w.config.sched.currentTask cpu = some p ∧ Sleeps w.config.sched p call
  saved : ∀ t r, w.saved t = some r → Sleeps w.config.sched t r.1
  fresh : ∀ cpu t, w.config.sched.currentTask cpu = some t → w.saved t = none

/-! ### The scheduler interrupt -/

section Interrupt
variable {w : World} {lapicId rsp : Nat}

variable {yield : Bool} {c : Config}

lemma SchedInv.isr_cases {s : Sched} (h : SchedInv s) (hact : s.schedulerActive = true)
    (hidle : 0 ≤ s.idleIndex (cpuIndex s lapicId)) (hframe : SwitchesToFrame s lapicId rsp) :
    ∃ n, (s.tasks n).state ≠ .sleeping ∧
      (taskScheduleIsr s lapicId rsp).2.currentTask =
        update s.currentTask (cpuIndex s lapicId) (some n) ∧
      (taskScheduleIsr s lapicId rsp).2.tasks =
        update (interrupted s (cpuIndex s lapicId) rsp).tasks n
          { (interrupted s (cpuIndex s lapicId) rsp).tasks n with
            state := .running, runningCpu := lapicId } ∧
      ((s.currentTask (cpuIndex s lapicId) = some n ∧ (taskScheduleIsr s lapicId rsp).1 = rsp) ∨
        ((∀ cpu, s.currentTask cpu ≠ some n) ∧ (taskScheduleIsr s lapicId rsp).1 ≠ rsp)) := by
  obtain ⟨i, hi⟩ := Int.eq_ofNat_of_zero_le hidle
  cases hpick : picked s (cpuIndex s lapicId) rsp with
  | none => exact absurd hpick (h.idle.pick_ne_none h.table rsp hi)
  | some n =>
    obtain ⟨hn, hready, -⟩ := taskPickNext_some hpick
    rw [interrupted_state s _ rsp n hn] at hready
    have hreap : ∀ st, st ≠ .unused → (reap (s.tasks n)).state = st → (s.tasks n).state = st := by
      intro st hst
      unfold reap
      split
      · exact fun hu => absurd hu.symm hst
      · exact id
    obtain ⟨hret, hcur, ht⟩ := taskScheduleIsr_some hact hpick
    by_cases hsame : s.currentTask (cpuIndex s lapicId) = some n
    · have hrun : (s.tasks n).state = .running := by
        split at hready
        · rename_i hr
          exact hreap _ (by decide) hr.2
        · exact absurd (hreap _ (by decide) hready) (h.current.not_ready _ n hsame)
      rw [interrupted_rsp_self hsame, ite_self] at hret
      refine ⟨n, ?_, hcur, ht, Or.inl ⟨hsame, hret⟩⟩
      rw [hrun]
      decide
    · rw [if_neg fun hr => hsame hr.1] at hready
      have hst := hreap _ (by decide) hready
      obtain ⟨h0, hrsp, hok⟩ := hframe n hact hpick hsame
      rw [interrupted_rsp_other hsame, if_pos ⟨h0, hok⟩] at hret
      refine ⟨n, ?_, hcur, ht, Or.inr ⟨fun cpu hc => h.current.not_ready cpu n hc hst, ?_⟩⟩
      · rw [hst]
        decide
      · rw [hret]
        exact hrsp

lemma SleepInv.call_inactive (h : SleepInv w) (hact : ¬ w.config.sched.schedulerActive = true)
    (cpu : Nat) : w.call cpu = none := by
  cases hc : w.call cpu with
  | none => rfl
  | some call =>
    obtain ⟨p, hp, -⟩ := h.call cpu call hc
    exact absurd (h.sched.active cpu p hp) hact

lemma World.stored_some {p : Nat} (hp : w.config.sched.currentTask (w.cpu lapicId) = some p)
    (yield : Bool) : w.stored lapicId yield =
      update w.saved p ((w.call (w.cpu lapicId)).map (·, yield)) := by
  unfold World.stored
  rw [hp]

lemma World.stored_none (hp : w.config.sched.currentTask (w.cpu lapicId) = none)
    (yield : Bool) : w.stored lapicId yield = w.saved := by
  unfold World.stored
  rw [hp]

lemma SleepInv.stored (h : SleepInv w) {t : Nat} {r : SleepCall × Bool}
    (hr : w.stored lapicId yield t = some r) : Sleeps w.config.sched t r.1 := by
  cases hp : w.config.sched.currentTask (w.cpu lapicId) with
  | some p =>
    rw [World.stored_some hp] at hr
    by_cases htp : t = p
    · subst htp
      rw [update_self] at hr
      obtain ⟨call, hcall, rfl⟩ := Option.map_eq_some_iff.mp hr
      obtain ⟨q, hq, hs⟩ := h.call _ call hcall
      obtain rfl : t = q := Option.some.inj (hp.symm.trans hq)
      exact hs
    · rw [update_of_ne htp] at hr
      exact h.saved t r hr
  | none =>
    rw [World.stored_none hp] at hr
    exact h.saved t r hr

lemma SleepInv.resumed (h : SleepInv w) {n : Nat}
    (hcur : (taskScheduleIsr w.config.sched lapicId rsp).2.currentTask =
      update w.config.sched.currentTask (w.cpu lapicId) (some n))
    (hret : (w.config.sched.currentTask (w.cpu lapicId) = some n ∧
        (taskScheduleIsr w.config.sched lapicId rsp).1 = rsp) ∨
      ((∀ cpu, w.config.sched.currentTask cpu ≠ some n) ∧
        (taskScheduleIsr w.config.sched lapicId rsp).1 ≠ rsp)) {r : SleepCall × Bool} (hr : w.resumed lapicId rsp yield = some r) :
    Sleeps w.config.sched n r.1 := by
  unfold World.resumed at hr
  dsimp only at hr
  rcases hret with ⟨hsame, hret⟩ | ⟨-, hret⟩
  · rw [if_pos hret] at hr
    obtain ⟨call, hcall, rfl⟩ := Option.map_eq_some_iff.mp hr
    obtain ⟨q, hq, hs⟩ := h.call _ call hcall
    obtain rfl : n = q := Option.some.inj (hsame.symm.trans hq)
    exact hs
  · rw [if_neg hret, hcur, update_self, Option.bind_some] at hr
    exact h.stored hr

lemma SleepInv.isr_inactive (h : SleepInv w)
    (hact : ¬ w.config.sched.schedulerActive = true)
    (hc : c.sched = (taskScheduleIsr w.config.sched lapicId rsp).2) (hsched : SchedInv c.sched)
    (lock : Option Nat) :
    w.NotEarly (.run (.isr lapicId rsp) yield) ∧
      SleepInv ⟨c, lock, w.callAfter (.isr lapicId rsp) yield c,
        w.savedAfter (.isr lapicId rsp) yield c⟩ := by
  have hout : taskScheduleIsr w.config.sched lapicId rsp = (rsp, w.config.sched) := by
    rw [taskScheduleIsr, if_neg hact]
  have hcall := h.call_inactive hact
  have hcur : ∀ cpu, w.config.sched.currentTask cpu = none := by
    intro cpu
    cases hcur : w.config.sched.currentTask cpu with
    | none => rfl
    | some t => exact absurd (h.sched.active cpu t hcur) hact
  have hresumed : w.resumed lapicId rsp yield = none := by
    simp only [World.resumed, hout, if_true, hcall, Option.map_none]
  rw [hout] at hc
  dsimp only at hc
  refine ⟨fun call hret => ?_, hsched, fun cpu call hcall' => ?_, fun t r hr => ?_, fun cpu t ht => ?_⟩
  · rw [World.returns, hresumed] at hret
    cases hret
  · dsimp only [World.callAfter] at hcall'
    rw [hresumed, Option.bind_none] at hcall'
    by_cases hcpu : cpu = w.cpu lapicId
    · rw [hcpu, update_self] at hcall'
      cases hcall'
    · rw [update_of_ne hcpu, hcall] at hcall'
      cases hcall'
  · dsimp only [World.savedAfter] at hr ⊢
    rw [hc, hcur] at hr
    rw [hc]
    exact h.stored hr
  · dsimp only at ht
    rw [hc, hcur] at ht
    cases ht

lemma isr_sleeps {n : Nat}
    (hc : c.sched = (taskScheduleIsr w.config.sched lapicId rsp).2)
    (hsleep : (w.config.sched.tasks n).state ≠ .sleeping)
    (ht : c.sched.tasks = update (interrupted w.config.sched (w.cpu lapicId) rsp).tasks n
      { (interrupted w.config.sched (w.cpu lapicId) rsp).tasks n with
        state := .running, runningCpu := lapicId })
    {t : Nat} {call : SleepCall} (hs : Sleeps w.config.sched t call) : Sleeps c.sched t call := by
  have hmid : (interrupted w.config.sched (w.cpu lapicId) rsp).ticks = w.config.sched.ticks := by
    obtain ⟨tasks, hs⟩ := interrupted_eq w.config.sched (w.cpu lapicId) rsp
    rw [hs]
  have hticks : c.sched.ticks = (interrupted w.config.sched (w.cpu lapicId) rsp).ticks := by
    rw [hc, taskScheduleIsr_ticks, hmid]
  have hsmid := hs.interrupted (w.cpu lapicId) rsp
  by_cases htn : t = n
  · subst htn
    refine hsmid.congr hticks ?_ fun hp => absurd hp (hs.not_pending hsleep)
    rw [ht, update_self]
  · refine hsmid.of_task_eq hticks ?_
    rw [ht, update_of_ne htn]

lemma SleepInv.isr (h : SleepInv w)
    (hidle : 0 ≤ w.config.sched.idleIndex (w.cpu lapicId))
    (hframe : SwitchesToFrame w.config.sched lapicId rsp)
    (hc : c.sched = (taskScheduleIsr w.config.sched lapicId rsp).2) (hsched : SchedInv c.sched)
    (lock : Option Nat) :
    w.NotEarly (.run (.isr lapicId rsp) yield) ∧
      SleepInv ⟨c, lock, w.callAfter (.isr lapicId rsp) yield c,
        w.savedAfter (.isr lapicId rsp) yield c⟩ := by
  by_cases hact : w.config.sched.schedulerActive = true
  swap
  · exact h.isr_inactive hact hc hsched lock
  obtain ⟨n, hsleep, hcur, ht, hret⟩ := h.sched.isr_cases hact hidle hframe
  have hresumed := fun {r : SleepCall × Bool} (hr : w.resumed lapicId rsp yield = some r) =>
    h.resumed hcur hret hr
  rw [← hc] at hcur ht
  have hkeep := fun {t : Nat} {call : SleepCall} (hs : Sleeps w.config.sched t call) =>
    isr_sleeps hc hsleep ht hs
  refine ⟨fun call hreturn => ?_, hsched, fun cpu call hcall => ?_, fun t r hr => ?_, fun cpu t htc => ?_⟩
  · obtain ⟨r, hr, hcall⟩ := Option.bind_eq_some_iff.mp hreturn
    split at hcall
    · cases hcall
      exact (hresumed hr).not_pending hsleep
    · cases hcall
  · dsimp only [World.callAfter] at hcall ⊢
    rw [hcur]
    by_cases hcpu : cpu = w.cpu lapicId
    · subst hcpu
      rw [update_self] at hcall ⊢
      obtain ⟨r, hr, hcall⟩ := Option.bind_eq_some_iff.mp hcall
      split at hcall
      · cases hcall
      · cases hcall
        exact ⟨n, rfl, hkeep (hresumed hr)⟩
    · rw [update_of_ne hcpu] at hcall ⊢
      obtain ⟨p, hp, hs⟩ := h.call cpu call hcall
      exact ⟨p, hp, hkeep hs⟩
  · dsimp only [World.savedAfter] at hr
    rw [hcur, update_self] at hr
    dsimp only at hr
    by_cases htn : t = n
    · rw [htn, update_self] at hr
      cases hr
    · rw [update_of_ne htn] at hr
      exact hkeep (h.stored hr)
  · dsimp only [World.savedAfter] at htc ⊢
    rw [hcur] at htc ⊢
    rw [update_self]
    dsimp only
    by_cases htn : t = n
    · rw [htn, update_self]
    · -- the task was current on another CPU before, so nothing of it has been stored
      have hcpu : cpu ≠ w.cpu lapicId := by
        rintro rfl
        rw [update_self] at htc
        exact htn (Option.some.inj htc).symm
      rw [update_of_ne hcpu] at htc
      rw [update_of_ne htn]
      cases hp : w.config.sched.currentTask (w.cpu lapicId) with
      | some p =>
        have htp : t ≠ p := by
          rintro rfl
          exact hcpu (h.sched.current.distinct cpu _ t htc hp)
        rw [World.stored_some hp, update_of_ne htp]
        exact h.fresh cpu t htc
      | none =>
        rw [World.stored_none hp]
        exact h.fresh cpu t htc

end Interrupt

/-! ### The other events -/

namespace SleepInv
variable {w : World}

variable {c : Config} {lapicId t : Nat}

lemma keep (h : SleepInv w) (hsched : SchedInv c.sched) (lock : Option Nat)
    (hcur : ∀ cpu p call, w.call cpu = some call → w.config.sched.currentTask cpu = some p →
      c.sched.currentTask cpu = some p)
    (hkeep : ∀ t call, Sleeps w.config.sched t call → Sleeps c.sched t call)
    (hfresh : ∀ cpu t, c.sched.currentTask cpu = some t → w.saved t = none) :
    SleepInv ⟨c, lock, w.call, w.saved⟩ where
  sched := hsched
  call := by
    intro cpu call hcall
    obtain ⟨p, hp, hs⟩ := h.call cpu call hcall
    exact ⟨p, hcur cpu p call hcall hp, hkeep p call hs⟩
  saved := fun t r hr => hkeep t r.1 (h.saved t r hr)
  fresh := hfresh

lemma start (h : SleepInv w) {cpu : Nat} (hsched : SchedInv c.sched)
    (lock : Option Nat) (hnone : w.config.sched.currentTask cpu = none)
    (hc : c.sched = taskStart w.config.sched cpu lapicId) : SleepInv ⟨c, lock, w.call, w.saved⟩ := by
  have hcur : ∀ cpu', cpu' ≠ cpu →
      c.sched.currentTask cpu' = w.config.sched.currentTask cpu' := by
    intro cpu' hne
    rw [hc]
    by_cases hpos : 0 ≤ w.config.sched.idleIndex cpu
    · obtain ⟨i, hi⟩ := Int.eq_ofNat_of_zero_le hpos
      rw [(taskStart_some lapicId hi).2.1, update_of_ne hne]
    · rw [taskStart_none hpos]
      rfl
  refine h.keep hsched lock (fun cpu' p call _ hp => ?_) (fun t call hs => ?_) fun cpu' t ht => ?_
  · have hne : cpu' ≠ cpu := by
      rintro rfl
      rw [hnone] at hp
      cases hp
    rw [hcur cpu' hne]
    exact hp
  · rw [hc]
    exact hs.start h.sched.table cpu lapicId
  · by_cases hne : cpu' = cpu
    · subst hne
      rw [hc] at ht
      cases hsaved : w.saved t with
      | none => rfl
      | some r =>
        by_cases hpos : 0 ≤ w.config.sched.idleIndex cpu'
        · obtain ⟨i, hi⟩ := Int.eq_ofNat_of_zero_le hpos
          rw [(taskStart_some lapicId hi).2.1, update_self] at ht
          obtain rfl : i = t := Option.some.inj ht
          have hnot := (h.saved i r hsaved).notIdle
          rw [(h.sched.table.idle cpu' i hi).isIdle] at hnot
          cases hnot
        · rw [taskStart_none hpos] at ht
          rw [show (w.config.sched.setActive true).currentTask cpu' =
            w.config.sched.currentTask cpu' from rfl, hnone] at ht
          cases ht
    · rw [hcur cpu' hne] at ht
      exact h.fresh cpu' t ht

lemma mark (h : SleepInv w) {task : Task} (hsched : SchedInv c.sched)
    (lock : Option Nat) (hcur : w.config.sched.currentTask (w.cpu lapicId) = some t)
    (hc : c.sched = w.config.sched.setTask t task) (entered : Option SleepCall)
    (hentered : ∀ call, entered = some call → Sleeps c.sched t call) :
    SleepInv ⟨c, lock, update w.call (w.cpu lapicId) entered, w.saved⟩ := by
  have hother : ∀ {t' call}, t' ≠ t → Sleeps w.config.sched t' call → Sleeps c.sched t' call := by
    intro t' call hne hs
    rw [hc]
    exact hs.of_task_eq rfl (update_of_ne hne ..)
  have hcurrent : c.sched.currentTask = w.config.sched.currentTask := by
    rw [hc]
    rfl
  refine ⟨hsched, fun cpu call hcall => ?_, fun t' r hr => ?_, fun cpu t' ht => ?_⟩
  · dsimp only at hcall ⊢
    rw [hcurrent]
    by_cases hcpu : cpu = w.cpu lapicId
    · subst hcpu
      rw [update_self] at hcall
      exact ⟨t, hcur, hentered call hcall⟩
    · rw [update_of_ne hcpu] at hcall
      obtain ⟨p, hp, hs⟩ := h.call cpu call hcall
      refine ⟨p, hp, hother ?_ hs⟩
      rintro rfl
      exact hcpu (h.sched.current.distinct cpu _ p hp hcur)
  · refine hother ?_ (h.saved t' r hr)
    rintro rfl
    rw [h.fresh _ t' hcur] at hr
    cases hr
  · dsimp only at ht
    rw [hcurrent] at ht
    exact h.fresh cpu t' ht

lemma sleep (h : SleepInv w) {n : Nat} (hsched : SchedInv c.sched)
    (lock : Option Nat) (hact : w.config.acting lapicId = some t)
    (hc : c.sched = taskSleep w.config.sched lapicId n) :
    SleepInv ⟨c, lock, update w.call (w.cpu lapicId)
      (some ⟨w.config.sched.ticks + n, n == 0⟩), w.saved⟩ := by
  obtain ⟨hcur, -, hidle⟩ := acting_some hact
  rw [taskSleep_eq hcur] at hc
  refine h.mark hsched lock hcur hc _ fun call hcall => ?_
  cases hcall
  have htask : c.sched.tasks t = { w.config.sched.tasks t with
      state := .sleeping, wakeTick := (w.config.sched.ticks + n) % 2 ^ 64, runningCpu := -1 } := by
    rw [hc]
    exact update_self ..
  refine ⟨h.sched.table.current_lt _ t hcur, ?_, fun hr => ?_, fun hp => ?_⟩
  · rw [htask]
    exact hidle
  · rw [hc]
    have hn : n ≠ 0 := by simpa using hr
    exact Nat.lt_add_of_pos_right (Nat.pos_of_ne_zero hn)
  · rw [htask]
    exact ⟨rfl, Nat.mod_eq_of_lt hp.1⟩

lemma exit (h : SleepInv w) (hsched : SchedInv c.sched)
    (lock : Option Nat) (hact : w.config.acting lapicId = some t)
    (hno : w.call (w.cpu lapicId) = none) (hc : c.sched = taskExit w.config.sched lapicId) :
    SleepInv ⟨c, lock, w.call, w.saved⟩ := by
  obtain ⟨hcur, -, -⟩ := acting_some hact
  rw [taskExit_eq hcur] at hc
  have hcall : update w.call (w.cpu lapicId) none = w.call :=
    update_eq_self_iff.mpr hno.symm
  have hmark := h.mark hsched lock hcur hc none fun call hcall => by cases hcall
  rw [hcall] at hmark
  exact hmark

lemma create (h : SleepInv w) {affinity : Int} {stack entry : Nat}
    (hsched : SchedInv c.sched) (lock : Option Nat) (yield : Bool)
    (hl : LeavesCurrent w.config (.create affinity stack entry))
    (hstep : step w.config (.create affinity stack entry) = some c) :
    SleepInv ⟨c, lock, w.call, w.savedAfter (.create affinity stack entry) yield c⟩ := by
  obtain ⟨idx, hc, -⟩ := step_create hstep
  dsimp only [World.savedAfter]
  rw [hc]
  cases idx with
  | none =>
    rw [taskCreateAffinity_none hc] at hsched
    have hs := taskCreateAffinity_none hc
    refine h.keep (by rw [hs]; exact hsched) lock ?_ ?_ ?_
    · rw [hs]
      exact fun _ _ _ _ hp => hp
    · rw [hs]
      exact fun _ _ hs => hs
    · rw [hs]
      exact h.fresh
  | some idx =>
    obtain ⟨hfree, -, hcur, -⟩ := taskCreateAffinity_some hc
    refine ⟨hsched, fun cpu call hcall => ?_, fun t r hr => ?_, fun cpu t ht => ?_⟩
    · obtain ⟨p, hp, hs⟩ := h.call cpu call hcall
      refine ⟨p, by rw [hcur]; exact hp, hs.create hc ?_⟩
      intro heq
      exact hl cpu p hp (hfree.trans heq)
    · dsimp only at hr
      by_cases hti : t = idx
      · rw [hti, update_self] at hr
        cases hr
      · rw [update_of_ne hti] at hr
        exact (h.saved t r hr).create hc fun heq => hti (Option.some.inj heq).symm
    · dsimp only at ht ⊢
      rw [hcur] at ht
      by_cases hti : t = idx
      · rw [hti, update_self]
      · rw [update_of_ne hti]
        exact h.fresh cpu t ht

lemma clock (h : SleepInv w) (hsched : SchedInv (clockTick w.config.sched)) (lock : Option Nat)
    (yield : Bool) :
    SleepInv ⟨{ w.config with sched := clockTick w.config.sched }, lock,
      w.callAfter .clock yield { w.config with sched := clockTick w.config.sched },
      w.savedAfter .clock yield { w.config with sched := clockTick w.config.sched }⟩ := by
  refine ⟨hsched, fun cpu call hcall => ?_, fun t r hr => ?_, fun cpu t ht => ?_⟩
  · obtain ⟨call', hcall', rfl⟩ := Option.map_eq_some_iff.mp hcall
    obtain ⟨p, hp, hs⟩ := h.call cpu call' hcall'
    exact ⟨p, hp, hs.clock⟩
  · obtain ⟨r', hr', rfl⟩ := Option.map_eq_some_iff.mp hr
    exact (h.saved t r' hr').clock
  · have hnone := h.fresh cpu t ht
    unfold World.savedAfter
    dsimp only
    rw [hnone]
    rfl

lemma wake (h : SleepInv w) (hsched : SchedInv (taskTick w.config.sched)) (lock : Option Nat) :
    SleepInv ⟨{ w.config with sched := taskTick w.config.sched }, lock, w.call, w.saved⟩ := by
  have hcur : (taskTick w.config.sched).currentTask = w.config.sched.currentTask := by
    obtain ⟨tasks, hs⟩ := taskTick_eq w.config.sched
    rw [hs]
  refine h.keep hsched lock ?_ (fun t call hs => hs.tick) ?_
  · dsimp only
    rw [hcur]
    exact fun _ _ _ _ hp => hp
  · dsimp only
    rw [hcur]
    exact h.fresh

lemma next (h : SleepInv w) {e : Event} {w' : World} (hreg : w.Regular e)
    (hnext : w.next e = some w') : SleepInv w' := by
  cases e with
  | hold lapicId =>
    obtain ⟨-, hs⟩ := Option.ite_none_right_eq_some.mp hnext
    cases hs
    exact ⟨h.sched, h.call, h.saved, h.fresh⟩
  | busy lapicId yield =>
    obtain ⟨-, hs⟩ := Option.ite_none_left_eq_some.mp hnext
    cases yield with
    | false =>
      cases hs
      exact h
    | true =>
      obtain ⟨-, hs⟩ := Option.ite_none_left_eq_some.mp hs
      cases hs
      refine ⟨h.sched, fun cpu call hcall => ?_, h.saved, h.fresh⟩
      by_cases hcpu : cpu = w.cpu lapicId
      · dsimp only at hcall
        rw [hcpu, update_self] at hcall
        cases hcall
      · dsimp only at hcall
        rw [update_of_ne hcpu] at hcall
        exact h.call cpu call hcall
  | store mem =>
    cases hnext
    refine h.keep (c := { w.config with sched := { w.config.sched with mem := mem } })
      (h.sched.of_tables rfl rfl rfl rfl) _ (fun _ _ _ _ hp => hp) (fun t call hs => ?_) h.fresh
    exact hs.of_task_eq rfl rfl
  | run l yield =>
    obtain ⟨hmay, hs⟩ := Option.ite_none_right_eq_some.mp hnext
    rw [Bool.and_eq_true] at hmay
    obtain ⟨c, hstep, rfl⟩ := Option.map_eq_some_iff.mp hs
    have hsched := h.sched.step hreg.1 hstep
    cases l with
    | startBsp lapicId =>
      obtain ⟨hnone, hs⟩ := step_startBsp hstep
      exact h.start hsched _ hnone (by rw [hs]; rfl)
    | startAp lapicId =>
      obtain ⟨hnone, hs⟩ := step_startAp hstep
      exact h.start hsched _ hnone (by rw [hs]; rfl)
    | create affinity stack entry => exact h.create hsched _ yield hreg.1 hstep
    | sleep lapicId n =>
      obtain ⟨t, hact, rfl⟩ := Option.map_eq_some_iff.mp hstep
      exact h.sleep hsched _ hact rfl
    | exit lapicId =>
      obtain ⟨t, hact, rfl⟩ := Option.map_eq_some_iff.mp hstep
      exact h.exit hsched _ hact (Option.isNone_iff_eq_none.mp hmay.2) rfl
    | clock =>
      cases hstep
      exact h.clock hsched _ yield
    | tick =>
      cases hstep
      exact h.wake hsched _
    | isr lapicId rsp =>
      cases hstep
      exact (h.isr hreg.2.1 hreg.2.2 rfl hsched _).2

lemma notEarly_iff (h : SleepInv w) {e : Event} (hreg : w.Regular e) :
    w.NotEarly e ↔ w.LockFree e := by
  have hnone : w.returns e = none → w.NotEarly e := by
    intro hr call hcall
    rw [hr] at hcall
    cases hcall
  cases e with
  | hold lapicId => exact iff_of_true (hnone rfl) trivial
  | busy lapicId yield =>
    cases yield with
    | false => exact iff_of_true (hnone rfl) trivial
    | true => exact Iff.rfl
  | store mem => exact iff_of_true (hnone rfl) trivial
  | run l yield =>
    cases l with
    | isr lapicId rsp =>
      have hsched : SchedInv (taskScheduleIsr w.config.sched lapicId rsp).2 :=
        h.sched.step (l := .isr lapicId rsp) hreg.1 rfl
      exact iff_of_true (h.isr (c := { w.config with sched := _ }) hreg.2.1 hreg.2.2 rfl hsched none).1
        trivial
    | startBsp lapicId => exact iff_of_true (hnone rfl) trivial
    | startAp lapicId => exact iff_of_true (hnone rfl) trivial
    | create affinity stack entry => exact iff_of_true (hnone rfl) trivial
    | sleep lapicId n => exact iff_of_true (hnone rfl) trivial
    | exit lapicId => exact iff_of_true (hnone rfl) trivial
    | clock => exact iff_of_true (hnone rfl) trivial
    | tick => exact iff_of_true (hnone rfl) trivial

end SleepInv

lemma sleepInv_init (s : Sched) (cpuCount : Nat) (stackOf : Nat → Nat) (entry : Nat) :
    SleepInv (World.init s cpuCount stackOf entry) := by
  have hnone := init_currentTask s cpuCount stackOf entry
  have hno : ∀ {cpu t}, (Config.init s cpuCount stackOf entry).sched.currentTask cpu ≠ some t := by
    intro cpu t h
    rw [hnone] at h
    cases h
  refine ⟨⟨init_tableInv s cpuCount stackOf entry, ⟨?_, ?_⟩, init_idleInv s cpuCount stackOf entry, ?_⟩,
    ?_, ?_, fun _ _ _ => rfl⟩
  · exact fun _ _ _ h => absurd h hno
  · exact fun _ _ h => absurd h hno
  · exact fun _ _ h => absurd h hno
  · intro cpu call h
    cases h
  · intro t r h
    cases h

/-- Along every run in which no event wakes or hands out a current task and every scheduler
interrupt happens on a CPU with an idle task and switches to a valid frame only, no call of
`task_sleep` returns before its end exactly if no software interrupt of a call that must not
return yet finds the lock taken. -/
theorem task_sleep_not_early_iff (s : Sched) (cpuCount : Nat) (stackOf : Nat → Nat) (entry : Nat)
    (es : List Event)
    (hreg : Along World.next World.Regular (World.init s cpuCount stackOf entry) es) :
    Along World.next World.NotEarly (World.init s cpuCount stackOf entry) es ↔
      Along World.next World.LockFree (World.init s cpuCount stackOf entry) es :=
  Along.iff_of_invariant SleepInv (fun _ _ _ h hreg _ hnext => h.next hreg hnext)
    (fun _ _ h hreg => h.notEarly_iff hreg) (sleepInv_init s cpuCount stackOf entry) hreg

/-- A task is created, CPU 0 starts and switches to it, and the task calls `task_sleep`. The idle task is
interrupted with its first frame on the stack. -/
def sleepOnCpuZero : List Event :=
  [.run (.create (-1) 0x200000 0xFFFFFFFF80001000) false, .run (.startBsp 0) false,
    .run (.isr 0 0x107F70) false, .run (.sleep 0 5) false]

lemma of_exec {w' : World} (w : World) (es : List Event) (P : World → Prop) [DecidablePred P]
    (hw : exec World.next w es = some w')
    (h : (exec World.next w es).map (fun w => decide (P w)) = some true) : P w' := by
  rw [hw, Option.map_some, Option.some.injEq, decide_eq_true_eq] at h
  exact h

/-- The software interrupt of the call switches to the idle task. -/
theorem task_sleep_not_early_one_cpu :
    Along World.next World.NotEarly
      (World.init oneCpu 1 (fun _ => 0x100000) 0xFFFFFFFF80001000)
      (sleepOnCpuZero ++ [.run (.isr 0 0x207F70) true]) := by
  have hreg : Along World.next World.Regular
      (World.init oneCpu 1 (fun _ => 0x100000) 0xFFFFFFFF80001000)
      (sleepOnCpuZero ++ [.run (.isr 0 0x207F70) true]) := by
    refine ⟨⟨fun cpu t ht => ?_, trivial⟩, fun w₁ h₁ => ⟨⟨trivial, trivial⟩, fun w₂ h₂ =>
      ⟨⟨trivial, ?_⟩, fun w₃ h₃ => ⟨⟨trivial, trivial⟩, fun w₄ h₄ => ⟨⟨trivial, ?_⟩,
        fun _ _ => trivial⟩⟩⟩⟩⟩
    · rw [show (World.init oneCpu 1 (fun _ => 0x100000) 0xFFFFFFFF80001000).config.sched.currentTask
        cpu = none from init_currentTask ..] at ht
      cases ht
    · refine of_exec (World.init oneCpu 1 (fun _ => 0x100000) 0xFFFFFFFF80001000)
        (sleepOnCpuZero.take 2) (fun w => 0 ≤ w.config.sched.idleIndex (w.cpu 0) ∧ SwitchesToFrame w.config.sched 0 0x107F70)
        ?_ (by decide +kernel)
      simp only [sleepOnCpuZero, List.take, exec, h₁, h₂, Option.bind_some]
    · refine of_exec (World.init oneCpu 1 (fun _ => 0x100000) 0xFFFFFFFF80001000)
        sleepOnCpuZero (fun w => 0 ≤ w.config.sched.idleIndex (w.cpu 0) ∧ SwitchesToFrame w.config.sched 0 0x207F70)
        ?_ (by decide +kernel)
      simp only [sleepOnCpuZero, exec, h₁, h₂, h₃, h₄, Option.bind_some]
  refine (task_sleep_not_early_iff oneCpu 1 (fun _ => 0x100000) 0xFFFFFFFF80001000 _ hreg).mpr ?_
  exact ⟨trivial, fun _ _ => ⟨trivial, fun _ _ => ⟨trivial, fun _ _ => ⟨trivial, fun _ _ =>
    ⟨trivial, fun _ _ => trivial⟩⟩⟩⟩⟩

def bothCpus : Sched := taskRegisterCpu (taskRegisterCpu oneCpu 0 0) 1 1

/-- CPU 1 is inside a section when the software interrupt of the call comes: the call returns in the
tick in which it was made. -/
theorem task_sleep_returns_early :
    ¬ ∀ (s : Sched) (cpuCount : Nat) (stackOf : Nat → Nat) (entry : Nat) (es : List Event),
      Along World.next World.NotEarly (World.init s cpuCount stackOf entry) es := by
  intro h
  have hsome : (exec World.next
      (World.init bothCpus 2 (fun cpu => 0x100000 + cpu * 0x10000) 0xFFFFFFFF80001000)
      (sleepOnCpuZero ++ [.run (.startAp 1) false, .hold 1])).map
        (fun w => w.returns (.busy 0 true)) = some (some ⟨5, false⟩) := by decide +kernel
  obtain ⟨w, hw, hreturns⟩ := Option.map_eq_some_iff.mp hsome
  have hearly := (h bothCpus 2 (fun cpu => 0x100000 + cpu * 0x10000) 0xFFFFFFFF80001000
    ((sleepOnCpuZero ++ [.run (.startAp 1) false, .hold 1]) ++ [.busy 0 true])).at_run
      (Run.of_exec hw)
  exact hearly _ hreturns (by decide)

end FusionOS.Scheduler
