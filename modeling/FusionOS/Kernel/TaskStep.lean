import FusionOS.Kernel.Task

/-!
# The scheduler as a step system

One label per section that runs under `sched_lock`, on any CPU and in any order.
-/

namespace FusionOS.Scheduler

open Function (update update_eq_self_iff update_self)

structure Config where
  sched : Sched
  exited : Nat → Bool

inductive Label where
  | startBsp (lapicId : Nat)
  | startAp (lapicId : Nat)
  | create (affinity : Int) (stack entry : Nat)
  | sleep (lapicId sleepTicks : Nat)
  | exit (lapicId : Nat)
  | clock
  | tick
  | isr (lapicId rsp : Nat)
  deriving DecidableEq

def Config.acting (c : Config) (lapicId : Nat) : Option Nat :=
  match c.sched.currentTask (cpuIndex c.sched lapicId) with
  | none => none
  | some t => if c.exited t || (c.sched.tasks t).isIdle then none else some t

def step (c : Config) : Label → Option Config
  | .startBsp lapicId =>
    if c.sched.currentTask 0 = none then
      some { c with sched := taskStartBsp c.sched lapicId } else none
  | .startAp lapicId =>
    -- the boot code of a CPU is gone once the CPU has switched to a task
    if c.sched.currentTask (cpuIndex c.sched lapicId) = none then
      some { c with sched := taskStartAp c.sched lapicId } else none
  | .create affinity stack entry =>
    match taskCreateAffinity c.sched affinity stack entry with
    | (none, s) => some { c with sched := s }
    | (some idx, s) => some { sched := s, exited := update c.exited idx false }
  | .sleep lapicId sleepTicks =>
    (c.acting lapicId).map fun _ => { c with sched := taskSleep c.sched lapicId sleepTicks }
  | .exit lapicId =>
    (c.acting lapicId).map fun t =>
      { sched := taskExit c.sched lapicId, exited := update c.exited t true }
  | .clock => some { c with sched := clockTick c.sched }
  | .tick => some { c with sched := taskTick c.sched }
  | .isr lapicId rsp => some { c with sched := (taskScheduleIsr c.sched lapicId rsp).2 }

/-- The configuration `task_init` leaves behind. -/
def Config.init (s : Sched) (cpuCount : Nat) (stackOf : Nat → Nat) (entry : Nat) : Config :=
  ⟨taskInit s cpuCount stackOf entry, fun _ => false⟩

lemma step_startBsp {c c' : Config} {lapicId : Nat} (h : step c (.startBsp lapicId) = some c') :
    c.sched.currentTask 0 = none ∧ c' = { c with sched := taskStartBsp c.sched lapicId } := by
  obtain ⟨hnone, hs⟩ := Option.ite_none_right_eq_some.mp h
  exact ⟨hnone, (Option.some.inj hs).symm⟩

lemma step_startAp {c c' : Config} {lapicId : Nat} (h : step c (.startAp lapicId) = some c') :
    c.sched.currentTask (cpuIndex c.sched lapicId) = none ∧
      c' = { c with sched := taskStartAp c.sched lapicId } := by
  obtain ⟨hnone, hs⟩ := Option.ite_none_right_eq_some.mp h
  exact ⟨hnone, (Option.some.inj hs).symm⟩

lemma maxTasks_eq : maxTasks = 64 := by unfold maxTasks; rfl

section Slots
variable {s : Sched} {cpu i j : Nat}

lemma firstSlot_some {p : Nat → Bool} {n : Nat} (h : firstSlot p n = some i) :
    i < n ∧ p i = true := by
  induction n with
  | zero => simp [firstSlot] at h
  | succ n ih =>
    simp only [firstSlot] at h
    split at h
    · rename_i k hk
      cases h
      exact ⟨Nat.lt_succ_of_lt (ih hk).1, (ih hk).2⟩
    · split at h
      · cases h
        exact ⟨Nat.lt_succ_self _, by assumption⟩
      · cases h

lemma taskFindFree_some (h : taskFindFree s = some i) :
    i < maxTasks ∧ (s.tasks i).state = .unused := by
  have hp := firstSlot_some h
  exact ⟨hp.1, by simpa using hp.2⟩

lemma pickScan_some {n : Nat} {cand : Option Nat} (hi : i < maxTasks)
    (h : pickScan s cpu n i cand = some j) :
    cand = some j ∨ (j < maxTasks ∧ eligible s cpu j = true) := by
  induction n generalizing i cand with
  | zero => exact Or.inl h
  | succ n ih =>
    have hnext : (i + 1) % maxTasks < maxTasks := Nat.mod_lt _ (by rw [maxTasks_eq]; decide)
    simp only [pickScan] at h
    split at h
    · rename_i he
      split at h
      · rcases ih hnext h with hc | hc
        · cases cand with
          | none =>
            have hij : i = j := by simpa using hc
            exact Or.inr ⟨hij ▸ hi, hij ▸ he⟩
          | some k => exact Or.inl (by simpa using hc)
        · exact Or.inr hc
      · cases h
        exact Or.inr ⟨hi, he⟩
    · exact ih hnext h

lemma taskPickNext_snd (s : Sched) (cpu : Nat) :
    ∃ lastPick, (taskPickNext s cpu).2 = { s with lastPick := lastPick } := by
  unfold taskPickNext
  dsimp only
  split
  · exact ⟨_, rfl⟩
  · exact ⟨s.lastPick, rfl⟩

lemma eligible_iff : eligible s cpu i = true ↔
    (s.tasks i).state = .ready ∧ (s.tasks i).runningCpu = -1 ∧
      ((s.tasks i).cpuAffinity < 0 ∨ (s.tasks i).cpuAffinity = cpu) := by
  simp only [eligible, Bool.and_eq_true, decide_eq_true_eq, Bool.not_eq_true',
    Bool.and_eq_false_iff, decide_eq_false_iff_not, ge_iff_le, Int.not_le, ne_eq, Decidable.not_not, and_assoc]

lemma taskPickNext_some (h : (taskPickNext s cpu).1 = some j) :
    j < maxTasks ∧ (s.tasks j).state = .ready ∧
      ((s.tasks j).cpuAffinity < 0 ∨ (s.tasks j).cpuAffinity = cpu) := by
  unfold taskPickNext at h
  dsimp only at h
  split at h
  · rename_i i hscan
    cases h
    have hstart : ((s.lastPick cpu + 1) % (maxTasks : Int)).toNat < maxTasks := by
      rw [maxTasks_eq]
      omega
    rcases pickScan_some hstart hscan with hc | ⟨hlt, he⟩
    · cases hc
    · have he' := eligible_iff.mp he
      exact ⟨hlt, he'.1, he'.2.2⟩
  · cases h

end Slots

lemma taskTick_eq (s : Sched) : ∃ tasks, taskTick s = { s with tasks := tasks } := by
  unfold taskTick
  split
  · exact ⟨_, rfl⟩
  · exact ⟨s.tasks, rfl⟩

lemma taskTick_tasks (s : Sched) (i : Nat) :
    (taskTick s).tasks i = s.tasks i ∨
      ((s.tasks i).state = .sleeping ∧ (s.tasks i).wakeTick ≤ s.ticks ∧
        (taskTick s).tasks i = { s.tasks i with state := .ready }) := by
  unfold taskTick
  split
  · by_cases hi : i < maxTasks
    · by_cases hw : (s.tasks i).state = .sleeping ∧ (s.tasks i).wakeTick ≤ s.ticks
      · exact Or.inr ⟨hw.1, hw.2, by simp only [if_pos hi, wake, if_pos hw]⟩
      · exact Or.inl (by simp only [if_pos hi, wake, if_neg hw])
    · exact Or.inl (by simp only [if_neg hi])
  · exact Or.inl rfl

section Interrupted
variable (s : Sched) (cpu rsp i : Nat)

lemma interrupted_tasks (hi : i < maxTasks) :
    (interrupted s cpu rsp).tasks i =
      if s.currentTask cpu = some i then
        (if (reap (s.tasks i)).state = .running then
          { reap (s.tasks i) with rsp := rsp, state := .ready, runningCpu := -1 }
        else { reap (s.tasks i) with rsp := rsp })
      else reap (s.tasks i) := by
  unfold interrupted
  cases hc : s.currentTask cpu with
  | none => simp [taskCleanup, hi]
  | some p =>
    by_cases hpi : p = i
    · subst hpi
      simp [savePrev, Sched.setTask, taskCleanup, hi]
    · have hip : i ≠ p := fun h => hpi h.symm
      simp [savePrev, Sched.setTask, taskCleanup, hi, hpi, hip]

lemma interrupted_state (hi : i < maxTasks) :
    ((interrupted s cpu rsp).tasks i).state =
      if s.currentTask cpu = some i ∧ (reap (s.tasks i)).state = .running then .ready
      else (reap (s.tasks i)).state := by
  rw [interrupted_tasks s cpu rsp i hi]
  by_cases hc : s.currentTask cpu = some i
  · by_cases hr : (reap (s.tasks i)).state = .running <;> simp [hc, hr]
  · simp [hc]

lemma interrupted_stack (hi : i < maxTasks) :
    ((interrupted s cpu rsp).tasks i).stack = (reap (s.tasks i)).stack := by
  rw [interrupted_tasks s cpu rsp i hi]
  split
  · split <;> rfl
  · rfl

lemma interrupted_isIdle (hi : i < maxTasks) :
    ((interrupted s cpu rsp).tasks i).isIdle = (reap (s.tasks i)).isIdle := by
  rw [interrupted_tasks s cpu rsp i hi]
  split
  · split <;> rfl
  · rfl

lemma interrupted_cpuAffinity (hi : i < maxTasks) :
    ((interrupted s cpu rsp).tasks i).cpuAffinity = (reap (s.tasks i)).cpuAffinity := by
  rw [interrupted_tasks s cpu rsp i hi]
  split
  · split <;> rfl
  · rfl

lemma interrupted_eq : ∃ tasks, interrupted s cpu rsp = { s with tasks := tasks } := by
  unfold interrupted
  split
  · exact ⟨_, rfl⟩
  · exact ⟨_, rfl⟩

@[simp] lemma interrupted_currentTask :
    (interrupted s cpu rsp).currentTask = s.currentTask := by
  obtain ⟨_, h⟩ := interrupted_eq s cpu rsp
  rw [h]

end Interrupted

/-- The answer of `task_pick_next` inside the scheduler interrupt. -/
def picked (s : Sched) (cpu rsp : Nat) : Option Nat :=
  (taskPickNext (interrupted s cpu rsp) cpu).1

section Isr
variable {s : Sched} {lapicId rsp : Nat}

lemma picked_eq (s : Sched) (cpu rsp : Nat) :
    ∃ lastPick, taskPickNext (interrupted s cpu rsp) cpu = (picked s cpu rsp,
      { s with tasks := (interrupted s cpu rsp).tasks, lastPick := lastPick }) := by
  obtain ⟨tasks, hmid⟩ := interrupted_eq s cpu rsp
  obtain ⟨lastPick, hsnd⟩ := taskPickNext_snd (interrupted s cpu rsp) cpu
  refine ⟨lastPick, Prod.ext rfl ?_⟩
  rw [hsnd, hmid]

lemma taskScheduleIsr_pick_none (hact : s.schedulerActive = true)
    (hpick : picked s (cpuIndex s lapicId) rsp = none) :
    ∃ lastPick, taskScheduleIsr s lapicId rsp = (rsp, { s with
      tasks :=
        match s.currentTask (cpuIndex s lapicId) with
        | some p => update (interrupted s (cpuIndex s lapicId) rsp).tasks p
            { (interrupted s (cpuIndex s lapicId) rsp).tasks p with
              state := .running, runningCpu := lapicId }
        | none => (interrupted s (cpuIndex s lapicId) rsp).tasks
      lastPick := lastPick }) := by
  obtain ⟨lastPick, heq⟩ := picked_eq s (cpuIndex s lapicId) rsp
  rw [hpick] at heq
  refine ⟨lastPick, ?_⟩
  unfold taskScheduleIsr
  rw [if_pos hact]
  dsimp only
  rw [heq]
  cases s.currentTask (cpuIndex s lapicId) <;> rfl

lemma taskScheduleIsr_pick_some (hact : s.schedulerActive = true) {n : Nat}
    (hpick : picked s (cpuIndex s lapicId) rsp = some n) :
    ∃ lastPick, taskScheduleIsr s lapicId rsp =
      (if ((interrupted s (cpuIndex s lapicId) rsp).tasks n).rsp ≠ 0 ∧
          frameOk s ((interrupted s (cpuIndex s lapicId) rsp).tasks n).rsp = true then
        ((interrupted s (cpuIndex s lapicId) rsp).tasks n).rsp
      else rsp, { s with
        tasks := update (interrupted s (cpuIndex s lapicId) rsp).tasks n
          { (interrupted s (cpuIndex s lapicId) rsp).tasks n with
            state := .running, runningCpu := lapicId }
        lastPick := lastPick
        currentTask := update s.currentTask (cpuIndex s lapicId) (some n) }) := by
  obtain ⟨lastPick, heq⟩ := picked_eq s (cpuIndex s lapicId) rsp
  rw [hpick] at heq
  refine ⟨lastPick, ?_⟩
  unfold taskScheduleIsr
  rw [if_pos hact]
  dsimp only
  rw [heq]
  dsimp only
  -- resuming the interrupted task stores the `current_task` it already has
  by_cases hsame : s.currentTask (cpuIndex s lapicId) = some n
  · have hcur : update s.currentTask (cpuIndex s lapicId) (some n) = s.currentTask :=
      update_eq_self_iff.mpr hsame.symm
    rw [if_pos hsame, hcur]
    simp only [setRunning, Sched.setTask, update_self]
    exact (apply_ite (·, _) _ _ _).symm
  · rw [if_neg hsame]
    simp only [setRunning, Sched.setTask, Sched.setCurrent, update_self]
    exact (apply_ite (·, _) _ _ _).symm

lemma taskScheduleIsr_cases (lapicId rsp : Nat) (hact : s.schedulerActive = true) :
    let cpu := cpuIndex s lapicId
    let mid := interrupted s cpu rsp
    let out := (taskScheduleIsr s lapicId rsp).2
    out.idleIndex = s.idleIndex ∧ out.schedulerActive = true ∧
    ((s.currentTask cpu = none ∧ out.tasks = mid.tasks ∧ out.currentTask = s.currentTask) ∨
    (∃ p, s.currentTask cpu = some p ∧ out.currentTask = s.currentTask ∧
      out.tasks = update mid.tasks p
        { mid.tasks p with state := .running, runningCpu := lapicId }) ∨
    (∃ n, n < maxTasks ∧ (mid.tasks n).state = .ready ∧
      ((mid.tasks n).cpuAffinity < 0 ∨ (mid.tasks n).cpuAffinity = cpu) ∧
      out.tasks = update mid.tasks n
        { mid.tasks n with state := .running, runningCpu := lapicId } ∧
      out.currentTask = update s.currentTask cpu (some n))) := by
  dsimp only
  cases hpick : picked s (cpuIndex s lapicId) rsp with
  | none =>
    obtain ⟨lastPick, heq⟩ := taskScheduleIsr_pick_none hact hpick
    rw [heq]
    refine ⟨rfl, hact, ?_⟩
    cases s.currentTask (cpuIndex s lapicId) with
    | none => exact .inl ⟨rfl, rfl, rfl⟩
    | some p => exact .inr (.inl ⟨p, rfl, rfl, rfl⟩)
  | some n =>
    obtain ⟨lastPick, heq⟩ := taskScheduleIsr_pick_some hact hpick
    obtain ⟨hn, hready, haff⟩ := taskPickNext_some hpick
    rw [heq]
    exact ⟨rfl, hact, .inr (.inr ⟨n, hn, hready, haff, rfl, rfl⟩)⟩

end Isr

end FusionOS.Scheduler
