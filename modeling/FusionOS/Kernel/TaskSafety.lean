import FusionOS.Kernel.TaskTable

/-!
# Who owns a task: `current_task` and the stacks

A task that has just called `task_sleep` or returned is still the current task of its CPU until
that CPU takes its next scheduler interrupt. Two things go wrong in this window.
-/

namespace FusionOS.Scheduler

open List
open Function (update update_of_ne update_self)

/-! ## No task is current on two CPUs -/

/-- The step wakes or hands out no slot that some CPU still has as its current task. -/
def LeavesCurrent (c : Config) : Label → Prop
  | .tick => ∀ cpu t, c.sched.currentTask cpu = some t →
      ¬ ((c.sched.tasks t).state = .sleeping ∧ (c.sched.tasks t).wakeTick ≤ c.sched.ticks)
  | .create _ _ _ => ∀ cpu t, c.sched.currentTask cpu = some t → taskFindFree c.sched ≠ some t
  | _ => True

structure CurrentInv (s : Sched) : Prop where
  distinct : ∀ c c' t, s.currentTask c = some t → s.currentTask c' = some t → c = c'
  not_ready : ∀ c t, s.currentTask c = some t → (s.tasks t).state ≠ .ready

namespace CurrentInv
variable {s s' : Sched}

lemma of_not_ready (h : CurrentInv s) (hcur : s'.currentTask = s.currentTask)
    (hr : ∀ c t, s.currentTask c = some t → (s'.tasks t).state ≠ .ready) : CurrentInv s' := by
  refine ⟨?_, ?_⟩
  · rw [hcur]
    exact h.distinct
  · rw [hcur]
    exact hr

lemma update_slot (h : CurrentInv s) {i : Nat} {t : Task} (hcur : s'.currentTask = s.currentTask)
    (ht : s'.tasks = update s.tasks i t)
    (hi : t.state ≠ .ready ∨ ∀ c, s.currentTask c ≠ some i) : CurrentInv s' := by
  refine h.of_not_ready hcur fun c j hj => ?_
  rw [ht]
  by_cases hji : j = i
  · subst hji
    rw [update_self]
    exact hi.resolve_right fun hne => hne c hj
  · rw [update_of_ne hji]
    exact h.not_ready c j hj

lemma set_current (h : CurrentInv s) {cpu i : Nat} {t : Task} (hcur :
    s'.currentTask = update s.currentTask cpu (some i))
    (ht : s'.tasks i = t) (hrun : t.state = .running)
    (hother : ∀ c j, c ≠ cpu → s.currentTask c = some j → j ≠ i ∧ (s'.tasks j).state ≠ .ready) :
    CurrentInv s' := by
  refine ⟨fun c c' j hc hc' => ?_, fun c j hc => ?_⟩
  · rw [hcur] at hc hc'
    by_cases h1 : c = cpu
    · by_cases h2 : c' = cpu
      · rw [h1, h2]
      · rw [h1, update_self] at hc
        rw [update_of_ne h2] at hc'
        exact absurd (Option.some.inj hc).symm (hother c' j h2 hc').1
    · by_cases h2 : c' = cpu
      · rw [h2, update_self] at hc'
        rw [update_of_ne h1] at hc
        exact absurd (Option.some.inj hc').symm (hother c j h1 hc).1
      · rw [update_of_ne h1] at hc
        rw [update_of_ne h2] at hc'
        exact h.distinct c c' j hc hc'
  · rw [hcur] at hc
    by_cases h1 : c = cpu
    · rw [h1, update_self] at hc
      obtain rfl := Option.some.inj hc
      rw [ht, hrun]
      decide
    · rw [update_of_ne h1] at hc
      exact (hother c j h1 hc).2

lemma start (h : CurrentInv s) (htab : TableInv s) (cpu lapicId : Nat) :
    CurrentInv (taskStart s cpu lapicId) := by
  by_cases hpos : 0 ≤ s.idleIndex cpu
  · obtain ⟨i, hi⟩ := Int.eq_ofNat_of_zero_le hpos
    obtain ⟨ht, hcur, -⟩ := taskStart_some lapicId hi
    generalize taskStart s cpu lapicId = out at ht hcur ⊢
    refine h.set_current hcur (by rw [ht, update_self]) rfl fun c j hc hj => ?_
    have hji : j ≠ i := by
      rintro rfl
      exact hc ((htab.idle cpu j hi).current c hj)
    rw [ht, update_of_ne hji]
    exact ⟨hji, h.not_ready c j hj⟩
  · rw [taskStart_none hpos]
    exact ⟨h.distinct, h.not_ready⟩

lemma interrupted_not_ready (h : CurrentInv s) (htab : TableInv s) {cpu c j : Nat} (rsp : Nat)
    (hc : c ≠ cpu) (hj : s.currentTask c = some j) :
    ((interrupted s cpu rsp).tasks j).state ≠ .ready := by
  have hne : s.currentTask cpu ≠ some j := fun hcpu => hc (h.distinct c cpu j hj hcpu)
  rw [interrupted_state s cpu rsp j (htab.current_lt c j hj), if_neg fun hr => hne hr.1]
  have hr := h.not_ready c j hj
  unfold reap
  split
  · simp
  · exact hr

lemma isr (h : CurrentInv s) (htab : TableInv s) (lapicId rsp : Nat) :
    CurrentInv (taskScheduleIsr s lapicId rsp).2 := by
  by_cases hact : s.schedulerActive = true
  · have hcases := taskScheduleIsr_cases lapicId rsp hact
    dsimp only at hcases
    generalize (taskScheduleIsr s lapicId rsp).2 = out at hcases ⊢
    rcases hcases.2.2 with ⟨hnone, ht, hcur⟩ | ⟨p, hp, hcur, ht⟩ | ⟨n, hn, hready, -, ht, hcur⟩
    · refine h.of_not_ready hcur fun c j hj => ?_
      rw [ht]
      refine h.interrupted_not_ready htab rsp ?_ hj
      rintro rfl
      rw [hnone] at hj
      cases hj
    · refine h.of_not_ready hcur fun c j hj => ?_
      rw [ht]
      by_cases hjp : j = p
      · subst hjp
        simp
      · rw [update_of_ne hjp]
        refine h.interrupted_not_ready htab rsp ?_ hj
        rintro rfl
        rw [hp] at hj
        exact hjp (Option.some.inj hj).symm
    · refine h.set_current hcur (by rw [ht, update_self]) rfl fun c j hc hj => ?_
      have hjr := h.interrupted_not_ready htab rsp hc hj
      have hjn : j ≠ n := by
        rintro rfl
        exact hjr hready
      rw [ht, update_of_ne hjn]
      exact ⟨hjn, hjr⟩
  · simpa [taskScheduleIsr, hact] using h

end CurrentInv

variable {c c' : Config} {l : Label} {ls : List Label}

lemma currentInv_step (htab : TableInv c.sched)
    (h : CurrentInv c.sched) (hl : LeavesCurrent c l) (hstep : step c l = some c') :
    CurrentInv c'.sched := by
  cases l with
  | startBsp lapicId =>
    obtain ⟨-, rfl⟩ := step_startBsp hstep
    exact h.start htab 0 lapicId
  | startAp lapicId =>
    obtain ⟨-, rfl⟩ := step_startAp hstep
    exact h.start htab (cpuIndex c.sched lapicId) lapicId
  | create affinity stack entry =>
    obtain ⟨idx, hc, -⟩ := step_create hstep
    cases idx with
    | none => exact taskCreateAffinity_none hc ▸ h
    | some idx =>
      obtain ⟨hfree, -, hcur, -, -, rsp, ht⟩ := taskCreateAffinity_some hc
      exact h.update_slot hcur ht (Or.inr fun cpu hcpu => hl cpu idx hcpu hfree)
  | sleep lapicId n =>
    obtain ⟨t, ht, rfl⟩ := Option.map_eq_some_iff.mp hstep
    rw [taskSleep_eq (acting_some ht).1]
    exact h.update_slot rfl rfl (Or.inl (by simp))
  | exit lapicId =>
    obtain ⟨t, ht, rfl⟩ := Option.map_eq_some_iff.mp hstep
    rw [taskExit_eq (acting_some ht).1]
    exact h.update_slot rfl rfl (Or.inl (by simp))
  | clock =>
    cases hstep
    exact ⟨h.distinct, h.not_ready⟩
  | tick =>
    cases hstep
    obtain ⟨tasks, hs⟩ := taskTick_eq c.sched
    refine h.of_not_ready (by rw [hs]) fun cpu t ht => ?_
    rcases taskTick_tasks c.sched t with hsame | ⟨hsleep, hwake, -⟩
    · rw [hsame]
      exact h.not_ready cpu t ht
    · exact absurd ⟨hsleep, hwake⟩ (hl cpu t ht)
  | isr lapicId rsp =>
    cases hstep
    exact h.isr htab lapicId rsp

/-- Along every run in which no step wakes or hands out a current task, no two CPUs share one. -/
theorem current_task_unique {s : Sched} {cpuCount : Nat} {stackOf : Nat → Nat} {entry : Nat}
    {ls : List Label} {c : Config}
    (hrun : Run step (Config.init s cpuCount stackOf entry) ls c)
    (hleaves : Along step LeavesCurrent (Config.init s cpuCount stackOf entry) ls) :
    ∀ cpu cpu' t, c.sched.currentTask cpu = some t → c.sched.currentTask cpu' = some t →
      cpu = cpu' := by
  have hcur : CurrentInv (Config.init s cpuCount stackOf entry).sched :=
    ⟨fun c c' t hc => by simp at hc, fun c t hc => by simp at hc⟩
  have hend := hrun.invariant_along (fun c => TableInv c.sched ∧ CurrentInv c.sched)
    (fun c l c' hi hl hstep => ⟨tableInv_step hi.1 hstep, currentInv_step hi.1 hi.2 hl hstep⟩)
    ⟨init_tableInv s cpuCount stackOf entry, hcur⟩ hleaves
  exact hend.2.distinct

/-- Two registered CPUs after `task_init`, from zeroed static data. -/
def twoCpus : Config :=
  let zeroTask : Task :=
    { state := .unused, rsp := 0, wakeTick := 0, stack := 0,
      cpuAffinity := 0, runningCpu := 0, isIdle := false }
  let zero : Sched :=
    { tasks := fun _ => zeroTask, taskCount := 0, cpuCountGlobal := 1
      currentTask := fun _ => none, idleIndex := fun _ => 0, lastPick := fun _ => 0
      schedulerActive := false, lapicMap := fun _ => 0, lapicMapCount := 0
      kernelCs := 0x28, ticks := 0, mem := fun _ => 0 }
  Config.init (taskRegisterCpu (taskRegisterCpu zero 0 0) 1 1) 2
    (fun cpu => 0x100000 + cpu * 0x10000) 0xFFFFFFFF80001000

/-- A third task is created, both CPUs start, and CPU 0 switches to that task. -/
def taskOnCpuZero : List Label :=
  [.create (-1) 0x200000 0xFFFFFFFF80001000, .startBsp 0, .startAp 1, .isr 0 0x300000]

lemma exec_of_isSome (ls : List Label) (h : (exec step twoCpus ls).isSome = true) :
    ∃ c, exec step twoCpus ls = some c ∧ Run step twoCpus ls c := by
  obtain ⟨c, hc⟩ := Option.isSome_iff_exists.mp h
  exact ⟨c, hc, Run.of_exec hc⟩

/-- The sleeper is resumed only after its own CPU has left it. -/
theorem current_task_unique_two_cpus :
    ∃ c, exec step twoCpus (taskOnCpuZero ++ [.sleep 0 5, .isr 0 0x300000, .isr 1 0x400000]) = some c ∧
      ∀ cpu cpu' t, c.sched.currentTask cpu = some t → c.sched.currentTask cpu' = some t →
        cpu = cpu' := by
  obtain ⟨c, hc, hrun⟩ := exec_of_isSome
    (taskOnCpuZero ++ [.sleep 0 5, .isr 0 0x300000, .isr 1 0x400000]) (by decide +kernel)
  refine ⟨c, hc, current_task_unique hrun ⟨fun cpu t ht => ?_, fun _ _ => ⟨trivial, fun _ _ =>
    ⟨trivial, fun _ _ => ⟨trivial, fun _ _ => ⟨trivial, fun _ _ => ⟨trivial, fun _ _ =>
      ⟨trivial, fun _ _ => trivial⟩⟩⟩⟩⟩⟩⟩⟩
  simp at ht

/-- A tick between `task_sleep` and the interrupt of CPU 0 lets CPU 1 pick the task as well. -/
theorem current_task_shared_after_early_tick :
    ¬ ∀ (s : Sched) (cpuCount : Nat) (stackOf : Nat → Nat) (entry : Nat) (ls : List Label)
      (c : Config), Run step (Config.init s cpuCount stackOf entry) ls c →
      ∀ cpu cpu' t, c.sched.currentTask cpu = some t → c.sched.currentTask cpu' = some t →
        cpu = cpu' := by
  intro h
  obtain ⟨c, hc, hrun⟩ := exec_of_isSome
    (taskOnCpuZero ++ [.sleep 0 0, .tick, .isr 1 0x400000]) (by decide +kernel)
  have hboth : (exec step twoCpus (taskOnCpuZero ++ [.sleep 0 0, .tick, .isr 1 0x400000])).map
      (fun c => (c.sched.currentTask 0, c.sched.currentTask 1)) = some (some 2, some 2) := by
    decide +kernel
  rw [hc, Option.map_some, Option.some.injEq, Prod.mk.injEq] at hboth
  have := h _ _ _ _ _ c hrun 0 1 2 hboth.1 hboth.2
  omega

/-! ## The stack of a current task -/

/-- The interrupt passes the stack of a task that is current on some CPU to `free`. -/
def FreesCurrent (c : Config) : Label → Prop
  | .isr _ _ => c.sched.schedulerActive = true ∧
      ∃ cpu t, c.sched.currentTask cpu = some t ∧ t ∈ freedByCleanup c.sched
  | _ => False

/-- `task_find_free` answers with the slot of a task that is current on some CPU. -/
def HandsOutCurrent (c : Config) : Label → Prop
  | .create _ _ _ => ∃ cpu t, c.sched.currentTask cpu = some t ∧ taskFindFree c.sched = some t
  | _ => False

def StackSafe (c : Config) (l : Label) : Prop := ¬ FreesCurrent c l ∧ ¬ HandsOutCurrent c l

def Label.isExit : Label → Bool
  | .exit _ => true
  | _ => false

def Label.isIsr : Label → Bool
  | .isr _ _ => true
  | _ => false

/-- No scheduler interrupt comes after a task exit. -/
def NoIsrAfterExit (ls : List Label) : Prop :=
  ls.Pairwise fun a b => ¬ (a.isExit = true ∧ b.isIsr = true)

structure SlotInv (s : Sched) : Prop where
  current_used : ∀ c t, s.currentTask c = some t → (s.tasks t).state ≠ .unused
  current_active : ∀ c t, s.currentTask c = some t → s.schedulerActive = true
  stack_ne : ∀ i, i < maxTasks → (s.tasks i).state ≠ .unused → (s.tasks i).stack ≠ 0

lemma mem_freedByCleanup {s : Sched} {i : Nat} : i ∈ freedByCleanup s ↔
    i < maxTasks ∧ (s.tasks i).state = .zombie ∧ (s.tasks i).stack ≠ 0 := by
  simp [freedByCleanup]

namespace SlotInv
variable {s s' : Sched}

variable {i : Nat}

lemma update_slot (h : SlotInv s) {t : Task} (hcur : s'.currentTask = s.currentTask)
    (hact : s'.schedulerActive = s.schedulerActive) (ht : s'.tasks = update s.tasks i t)
    (hused : t.state ≠ .unused) (hstack : i < maxTasks → t.stack ≠ 0) : SlotInv s' := by
  refine ⟨fun c j hj => ?_, fun c j hj => ?_, fun j hj hu => ?_⟩
  · rw [hcur] at hj
    by_cases hji : j = i
    · rw [ht, hji, update_self]
      exact hused
    · rw [ht, update_of_ne hji]
      exact h.current_used c j hj
  · rw [hcur] at hj
    rw [hact]
    exact h.current_active c j hj
  · by_cases hji : j = i
    · rw [ht, hji, update_self]
      exact hstack (hji ▸ hj)
    · rw [ht, update_of_ne hji] at hu ⊢
      exact h.stack_ne j hj hu

lemma mark (h : SlotInv s) {cpu : Nat} {t : Task} (hi : s.currentTask cpu = some i)
    (hused : t.state ≠ .unused) (hstack : t.stack = (s.tasks i).stack) : SlotInv (s.setTask i t) :=
  h.update_slot rfl rfl rfl hused fun hlt => hstack ▸ h.stack_ne i hlt (h.current_used cpu i hi)

lemma start (h : SlotInv s) (htab : TableInv s) (cpu lapicId : Nat) :
    SlotInv (taskStart s cpu lapicId) := by
  by_cases hpos : 0 ≤ s.idleIndex cpu
  · obtain ⟨i, hi⟩ := Int.eq_ofNat_of_zero_le hpos
    have hslot := htab.idle cpu i hi
    have hstack : (s.tasks i).stack ≠ 0 := by
      refine h.stack_ne i hslot.lt ?_
      rcases hslot.state with hs | hs <;> simp [hs]
    obtain ⟨ht, hcur, -⟩ := taskStart_some lapicId hi
    have hact : (taskStart s cpu lapicId).schedulerActive = true := rfl
    generalize taskStart s cpu lapicId = out at ht hcur hact ⊢
    refine ⟨fun c j hj => ?_, fun _ _ _ => hact, fun j hj hu => ?_⟩
    · rw [hcur] at hj
      by_cases hji : j = i
      · simp [ht, hji]
      · have hc : c ≠ cpu := by
          rintro rfl
          rw [update_self] at hj
          exact hji (Option.some.inj hj).symm
        rw [update_of_ne hc] at hj
        rw [ht, update_of_ne hji]
        exact h.current_used c j hj
    · by_cases hji : j = i
      · rw [ht, hji, update_self]
        exact hstack
      · rw [ht, update_of_ne hji] at hu ⊢
        exact h.stack_ne j hj hu
  · rw [taskStart_none hpos]
    exact ⟨h.current_used, fun _ _ _ => rfl, h.stack_ne⟩

lemma tick (h : SlotInv s) : SlotInv (taskTick s) := by
  obtain ⟨tasks, hs⟩ := taskTick_eq s
  refine ⟨fun c t ht => ?_, by rw [hs]; exact h.current_active, fun i hi hu => ?_⟩
  · rw [hs] at ht
    rcases taskTick_tasks s t with hsame | ⟨-, -, hready⟩
    · rw [hsame]
      exact h.current_used c t ht
    · simp [hready]
  · rcases taskTick_tasks s i with hsame | ⟨hsleep, -, hready⟩
    · rw [hsame] at hu ⊢
      exact h.stack_ne i hi hu
    · rw [hready]
      exact h.stack_ne i hi (by simp [hsleep])

lemma interrupted_stack_ne (h : SlotInv s) (cpu rsp : Nat) (hi : i < maxTasks)
    (hu : ((interrupted s cpu rsp).tasks i).state ≠ .unused) :
    ((interrupted s cpu rsp).tasks i).stack ≠ 0 := by
  have hused : (reap (s.tasks i)).state ≠ .unused := by
    intro hr
    rw [interrupted_state s cpu rsp i hi, if_neg (by simp [hr])] at hu
    exact hu hr
  rw [interrupted_stack s cpu rsp i hi]
  unfold reap at hused ⊢
  split at hused
  · exact absurd rfl hused
  · rename_i hz
    rw [if_neg hz]
    exact h.stack_ne i hi hused

lemma interrupted_used (h : SlotInv s) (htab : TableInv s) (cpu rsp : Nat) {c : Nat}
    (hi : s.currentTask c = some i) (hz : (s.tasks i).state ≠ .zombie) :
    ((interrupted s cpu rsp).tasks i).state ≠ .unused := by
  rw [interrupted_state s cpu rsp i (htab.current_lt c i hi), reap, if_neg hz]
  split
  · simp
  · exact h.current_used c i hi

lemma isr (h : SlotInv s) (htab : TableInv s) {lapicId : Nat} (rsp : Nat)
    (hz : ∀ cpu t, s.currentTask cpu = some t → (s.tasks t).state ≠ .zombie) :
    SlotInv (taskScheduleIsr s lapicId rsp).2 := by
  by_cases hact : s.schedulerActive = true
  · have hcases := taskScheduleIsr_cases lapicId rsp hact
    dsimp only at hcases
    generalize (taskScheduleIsr s lapicId rsp).2 = out at hcases ⊢
    obtain ⟨-, hout, hcases⟩ := hcases
    generalize hcpu : cpuIndex s lapicId = cpu at hcases
    have hused : ∀ c i, s.currentTask c = some i → ((interrupted s cpu rsp).tasks i).state ≠ .unused :=
      fun c i hi => h.interrupted_used htab cpu rsp hi (hz c i hi)
    -- the state before the switch, with `current_task` as it was
    have hmid : SlotInv { out with
        tasks := (interrupted s cpu rsp).tasks, currentTask := s.currentTask } :=
      ⟨hused, fun _ _ _ => hout, fun i hi hu => h.interrupted_stack_ne cpu rsp hi hu⟩
    rcases hcases with ⟨-, ht, hcur⟩ | ⟨p, hp, hcur, ht⟩ | ⟨n, hn, hready, -, ht, hcur⟩
    · exact ⟨by rw [ht, hcur]; exact hused, fun _ _ _ => hout, by rw [ht]; exact hmid.stack_ne⟩
    · exact hmid.update_slot hcur rfl ht (by simp)
        fun hlt => h.interrupted_stack_ne cpu rsp hlt (hused cpu p hp)
    · have hrun : SlotInv { out with currentTask := s.currentTask } :=
        hmid.update_slot rfl rfl ht (by simp)
          fun hlt => h.interrupted_stack_ne cpu rsp hlt (by simp [hready])
      refine ⟨fun c j hj => ?_, fun _ _ _ => hout, hrun.stack_ne⟩
      rw [hcur] at hj
      by_cases hc : c = cpu
      · rw [hc, update_self] at hj
        obtain rfl := Option.some.inj hj
        simp [ht]
      · rw [update_of_ne hc] at hj
        exact hrun.current_used c j hj
  · simpa [taskScheduleIsr, hact] using h

end SlotInv

lemma SlotInv.not_zombie {lapicId rsp : Nat} (htab : TableInv c.sched)
    (h : SlotInv c.sched) (hsafe : StackSafe c (.isr lapicId rsp)) {cpu t : Nat}
    (ht : c.sched.currentTask cpu = some t) : (c.sched.tasks t).state ≠ .zombie := by
  intro hz
  have hlt := htab.current_lt cpu t ht
  have hstack := h.stack_ne t hlt (h.current_used cpu t ht)
  exact hsafe.1 ⟨h.current_active cpu t ht, cpu, t, ht, mem_freedByCleanup.mpr ⟨hlt, hz, hstack⟩⟩

lemma slotInv_step (htab : TableInv c.sched) (h : SlotInv c.sched)
    (hsafe : StackSafe c l) (hstep : step c l = some c') : SlotInv c'.sched := by
  cases l with
  | startBsp lapicId =>
    obtain ⟨-, rfl⟩ := step_startBsp hstep
    exact h.start htab 0 lapicId
  | startAp lapicId =>
    obtain ⟨-, rfl⟩ := step_startAp hstep
    exact h.start htab (cpuIndex c.sched lapicId) lapicId
  | create affinity stack entry =>
    obtain ⟨idx, hc, -⟩ := step_create hstep
    cases idx with
    | none => exact taskCreateAffinity_none hc ▸ h
    | some idx =>
      obtain ⟨-, hstack, hcur, -, hact, rsp, ht⟩ := taskCreateAffinity_some hc
      exact h.update_slot hcur hact ht (by simp) fun _ => hstack
  | sleep lapicId n =>
    obtain ⟨t, ht, rfl⟩ := Option.map_eq_some_iff.mp hstep
    rw [taskSleep_eq (acting_some ht).1]
    exact h.mark (acting_some ht).1 (by simp) rfl
  | exit lapicId =>
    obtain ⟨t, ht, rfl⟩ := Option.map_eq_some_iff.mp hstep
    rw [taskExit_eq (acting_some ht).1]
    exact h.mark (acting_some ht).1 (by simp) rfl
  | clock =>
    cases hstep
    exact ⟨h.current_used, h.current_active, h.stack_ne⟩
  | tick =>
    cases hstep
    exact h.tick
  | isr lapicId rsp =>
    cases hstep
    exact h.isr htab rsp fun cpu t ht => h.not_zombie htab hsafe ht

lemma taskInit_slots (s : Sched) (cpuCount : Nat) (stackOf : Nat → Nat) (entry : Nat) :
    ∀ i, i < maxTasks →
      ((taskInit s cpuCount stackOf entry).tasks i).state ≠ .zombie ∧
      (((taskInit s cpuCount stackOf entry).tasks i).state ≠ .unused →
        ((taskInit s cpuCount stackOf entry).tasks i).stack ≠ 0) := by
  apply foldlRecOn (List.range (min cpuCount 64)) (taskInitIdle stackOf entry)
    (motive := fun s => ∀ i, i < maxTasks → (s.tasks i).state ≠ .zombie ∧
      ((s.tasks i).state ≠ .unused → (s.tasks i).stack ≠ 0))
  · intro i hi
    simp [taskInitTables, hi, clearTask]
  · intro s0 h cpu _ i hi
    unfold taskInitIdle
    rcases hc : taskCreateAffinity s0 cpu (stackOf cpu) entry with ⟨idx, s'⟩
    cases idx with
    | none =>
      obtain rfl := taskCreateAffinity_none hc
      exact h i hi
    | some idx =>
      obtain ⟨-, hstack, -, -, -, rsp, ht⟩ := taskCreateAffinity_some hc
      by_cases hidx : i = idx
      · subst hidx
        simp [ht, hstack]
      · simpa [ht, hidx] using h i hi

lemma init_slotInv (s : Sched) (cpuCount : Nat) (stackOf : Nat → Nat) (entry : Nat) :
    SlotInv (Config.init s cpuCount stackOf entry).sched where
  current_used c t hc := by simp at hc
  current_active c t hc := by simp at hc
  stack_ne i hi := (taskInit_slots s cpuCount stackOf entry i hi).2

def ExitedCurrent (c : Config) : Prop :=
  ∃ cpu t, c.sched.currentTask cpu = some t ∧ (c.sched.tasks t).state = .zombie ∧
    c.exited t = true ∧ (c.sched.tasks t).isIdle = false

lemma exitedCurrent_of_exit {lapicId : Nat}
    (hstep : step c (.exit lapicId) = some c') : ExitedCurrent c' := by
  obtain ⟨t, ht, rfl⟩ := Option.map_eq_some_iff.mp hstep
  have hact := acting_some ht
  rw [ExitedCurrent, taskExit_eq hact.1]
  exact ⟨cpuIndex c.sched lapicId, t, hact.1, by simp [Sched.setTask], by simp,
    by simp [Sched.setTask, hact.2.2]⟩

lemma exitedCurrent_step (htab : TableInv c.sched)
    (h : ExitedCurrent c) (hl : l.isIsr = false) (hstep : step c l = some c') :
    ExitedCurrent c' := by
  obtain ⟨cpu, t, hcur, hz, hex, hidle⟩ := h
  have hstart : ∀ cpu' lapicId, c.sched.currentTask cpu' = none →
      ExitedCurrent { c with sched := taskStart c.sched cpu' lapicId } := by
    intro cpu' lapicId hnone
    by_cases hpos : 0 ≤ c.sched.idleIndex cpu'
    · obtain ⟨i, hi⟩ := Int.eq_ofNat_of_zero_le hpos
      obtain ⟨ht, hcur', -⟩ := taskStart_some lapicId hi
      have hti : t ≠ i := ((htab.idle cpu' i hi).ne_of_not_idle hidle).symm
      have hcc : cpu ≠ cpu' := by
        rintro rfl
        rw [hnone] at hcur
        cases hcur
      refine ⟨cpu, t, ?_, ?_, hex, ?_⟩
      · rw [hcur', update_of_ne hcc, hcur]
      · rw [ht, update_of_ne hti, hz]
      · rw [ht, update_of_ne hti, hidle]
    · rw [taskStart_none hpos]
      exact ⟨cpu, t, hcur, hz, hex, hidle⟩
  cases l with
  | startBsp lapicId =>
    obtain ⟨hnone, rfl⟩ := step_startBsp hstep
    exact hstart 0 lapicId hnone
  | startAp lapicId =>
    obtain ⟨hnone, rfl⟩ := step_startAp hstep
    exact hstart (cpuIndex c.sched lapicId) lapicId hnone
  | create affinity stack entry =>
    obtain ⟨idx, hc, hexited⟩ := step_create hstep
    cases idx with
    | none =>
      have hs := taskCreateAffinity_none hc
      exact ⟨cpu, t, by rw [hs, hcur], by rw [hs, hz], by rw [hexited t (by simp), hex],
        by rw [hs, hidle]⟩
    | some idx =>
      obtain ⟨hfree, -, hcur', -, -, rsp, ht⟩ := taskCreateAffinity_some hc
      have hti : t ≠ idx := by
        rintro rfl
        rw [(taskFindFree_some hfree).2] at hz
        cases hz
      refine ⟨cpu, t, by rw [hcur', hcur], ?_, ?_, ?_⟩
      · rw [ht, update_of_ne hti, hz]
      · rw [hexited t (by simpa using hti.symm), hex]
      · rw [ht, update_of_ne hti, hidle]
  | sleep lapicId n =>
    obtain ⟨t', ht', rfl⟩ := Option.map_eq_some_iff.mp hstep
    have hact := acting_some ht'
    have htt : t ≠ t' := by
      rintro rfl
      rw [hex] at hact
      cases hact.2.1
    rw [ExitedCurrent, taskSleep_eq hact.1]
    exact ⟨cpu, t, hcur, by simp [Sched.setTask, htt, hz], hex, by simp [Sched.setTask, htt, hidle]⟩
  | exit lapicId => exact exitedCurrent_of_exit hstep
  | clock =>
    cases hstep
    exact ⟨cpu, t, hcur, hz, hex, hidle⟩
  | tick =>
    cases hstep
    obtain ⟨tasks, hs⟩ := taskTick_eq c.sched
    have ht : (taskTick c.sched).tasks t = c.sched.tasks t := by
      rcases taskTick_tasks c.sched t with hsame | ⟨hsleep, -⟩
      · exact hsame
      · rw [hz] at hsleep
        cases hsleep
    exact ⟨cpu, t, by rw [hs]; exact hcur, by rw [ht, hz], hex, by rw [ht, hidle]⟩
  | isr lapicId rsp => cases hl

lemma no_isr_of_exitedCurrent : ∀ {c c' : Config}, TableInv c.sched →
    SlotInv c.sched → ExitedCurrent c → Run step c ls c' → Along step StackSafe c ls →
    ∀ l ∈ ls, l.isIsr = false := by
  induction ls with
  | nil => simp
  | cons m ls ih =>
    intro c c' htab h hex hrun hsafe l hl
    have hm : m.isIsr = false := by
      cases m with
      | isr lapicId rsp =>
        obtain ⟨cpu, t, hcur, hz, -⟩ := hex
        exact absurd hz (h.not_zombie htab hsafe.1 hcur)
      | _ => rfl
    rcases mem_cons.mp hl with rfl | hl
    · exact hm
    · cases hrun with
      | cons hstep hrun =>
        exact ih (tableInv_step htab hstep) (slotInv_step htab h hsafe.1 hstep)
          (exitedCurrent_step htab hex hm hstep) hrun (hsafe.2 _ hstep) l hl

lemma noIsrAfterExit_of_safe : ∀ {c c' : Config}, TableInv c.sched →
    SlotInv c.sched → Run step c ls c' → Along step StackSafe c ls → NoIsrAfterExit ls := by
  induction ls with
  | nil => exact fun _ _ _ _ => List.Pairwise.nil
  | cons m ls ih =>
    intro c c' htab h hrun hsafe
    cases hrun with
    | cons hstep hrun =>
      have htab' := tableInv_step htab hstep
      have h' := slotInv_step htab h hsafe.1 hstep
      refine List.Pairwise.cons (fun l hl hml => ?_) (ih htab' h' hrun (hsafe.2 _ hstep))
      cases m with
      | exit lapicId =>
        have := no_isr_of_exitedCurrent htab' h' (exitedCurrent_of_exit hstep) hrun
          (hsafe.2 _ hstep) l hl
        rw [this] at hml
        cases hml.2
      | _ => cases hml.1

def NoZombie (s : Sched) : Prop := ∀ i, i < maxTasks → (s.tasks i).state ≠ .zombie

lemma noZombie_update {s : Sched} (h : NoZombie s) {i : Nat} {t : Task}
    (ht : t.state ≠ .zombie) {s' : Sched} (hs : s'.tasks = update s.tasks i t) :
    NoZombie s' := by
  intro j hj
  rw [hs]
  by_cases hji : j = i
  · rw [hji, update_self]
    exact ht
  · rw [update_of_ne hji]
    exact h j hj

lemma noZombie_step (h : NoZombie c.sched) (hl : l.isExit = false)
    (hstep : step c l = some c') :
    NoZombie c'.sched := by
  have hstart : ∀ cpu lapicId, NoZombie (taskStart c.sched cpu lapicId) := by
    intro cpu lapicId
    by_cases hpos : 0 ≤ c.sched.idleIndex cpu
    · obtain ⟨i, hi⟩ := Int.eq_ofNat_of_zero_le hpos
      exact noZombie_update h (by simp) (taskStart_some _ hi).1
    · rw [taskStart_none hpos]
      exact h
  cases l with
  | startBsp lapicId =>
    obtain ⟨-, rfl⟩ := step_startBsp hstep
    exact hstart 0 lapicId
  | startAp lapicId =>
    obtain ⟨-, rfl⟩ := step_startAp hstep
    exact hstart (cpuIndex c.sched lapicId) lapicId
  | create affinity stack entry =>
    obtain ⟨idx, hc, -⟩ := step_create hstep
    cases idx with
    | none => exact taskCreateAffinity_none hc ▸ h
    | some idx =>
      obtain ⟨-, -, -, -, -, rsp, ht⟩ := taskCreateAffinity_some hc
      exact noZombie_update h (by simp) ht
  | sleep lapicId n =>
    obtain ⟨t, ht, rfl⟩ := Option.map_eq_some_iff.mp hstep
    rw [taskSleep_eq (acting_some ht).1]
    exact noZombie_update h (by simp) rfl
  | exit lapicId => cases hl
  | clock =>
    cases hstep
    exact h
  | tick =>
    cases hstep
    intro i hi
    rcases taskTick_tasks c.sched i with hsame | ⟨-, -, hready⟩
    · rw [hsame]
      exact h i hi
    · simp [hready]
  | isr lapicId rsp =>
    cases hstep
    by_cases hact : c.sched.schedulerActive = true
    · have hcases := taskScheduleIsr_cases lapicId rsp hact
      dsimp only at hcases
      generalize (taskScheduleIsr c.sched lapicId rsp).2 = out at hcases ⊢
      have hmid : NoZombie (interrupted c.sched (cpuIndex c.sched lapicId) rsp) := by
        intro i hi
        rw [interrupted_state _ _ _ i hi, reap, if_neg (h i hi)]
        split
        · simp
        · exact h i hi
      rcases hcases.2.2 with ⟨-, ht, -⟩ | ⟨p, -, -, ht⟩ | ⟨n, -, -, -, ht, -⟩
      · intro i hi
        rw [ht]
        exact hmid i hi
      · exact noZombie_update hmid (by simp) ht
      · exact noZombie_update hmid (by simp) ht
    · simpa [taskScheduleIsr, hact] using h

lemma safe_of_noIsrAfterExit : ∀ {c : Config}, TableInv c.sched →
    SlotInv c.sched → (NoZombie c.sched ∨ ∀ l ∈ ls, l.isIsr = false) → NoIsrAfterExit ls →
    Along step StackSafe c ls := by
  induction ls with
  | nil => exact fun _ _ _ _ => trivial
  | cons m ls ih =>
    intro c htab h hz hpair
    obtain ⟨hm, hpair⟩ := pairwise_cons.mp hpair
    have hsafe : StackSafe c m := by
      refine ⟨?_, ?_⟩
      · cases m with
        | isr lapicId rsp =>
          rintro ⟨-, cpu, t, -, hfreed⟩
          have hfreed' := mem_freedByCleanup.mp hfreed
          rcases hz with hz | hz
          · exact hz t hfreed'.1 hfreed'.2.1
          · exact absurd (hz _ mem_cons_self) (by simp [Label.isIsr])
        | _ => exact id
      · cases m with
        | create affinity stack entry =>
          rintro ⟨cpu, t, hcur, hfree⟩
          exact h.current_used cpu t hcur (taskFindFree_some hfree).2
        | _ => exact id
    refine ⟨hsafe, fun c' hstep => ih (tableInv_step htab hstep) (slotInv_step htab h hsafe hstep)
      ?_ hpair⟩
    by_cases hexit : m.isExit = true
    · refine Or.inr fun l hl => ?_
      have := hm l hl
      simpa [hexit] using this
    · rcases hz with hz | hz
      · exact Or.inl (noZombie_step hz (by simpa using hexit) hstep)
      · exact Or.inr fun l hl => hz l (mem_cons_of_mem m hl)

/-- The stack and the slot of a current task stay untouched along a run exactly when no
scheduler interrupt of the run comes after a task exit. -/
theorem stack_safe_iff {s : Sched} {cpuCount : Nat} {stackOf : Nat → Nat} {entry : Nat}
    {ls : List Label} {c : Config} (hrun : Run step (Config.init s cpuCount stackOf entry) ls c) :
    Along step StackSafe (Config.init s cpuCount stackOf entry) ls ↔ NoIsrAfterExit ls := by
  have htab := init_tableInv s cpuCount stackOf entry
  have hslot := init_slotInv s cpuCount stackOf entry
  refine ⟨noIsrAfterExit_of_safe htab hslot hrun, safe_of_noIsrAfterExit htab hslot (Or.inl ?_)⟩
  exact fun i hi => (taskInit_slots s cpuCount stackOf entry i hi).1

theorem stack_safe_two_cpus :
    Along step StackSafe twoCpus (taskOnCpuZero ++ [.sleep 0 0, .tick, .isr 0 0x300000, .exit 0]) := by
  obtain ⟨c, -, hrun⟩ := exec_of_isSome
    (taskOnCpuZero ++ [.sleep 0 0, .tick, .isr 0 0x300000, .exit 0]) (by decide +kernel)
  exact (stack_safe_iff hrun).mpr (by unfold NoIsrAfterExit; decide)

/-- CPU 1 reaps a task that CPU 0 is still executing. -/
theorem stack_freed_while_current :
    ¬ ∀ (s : Sched) (cpuCount : Nat) (stackOf : Nat → Nat) (entry : Nat) (ls : List Label)
      (c : Config), Run step (Config.init s cpuCount stackOf entry) ls c →
      Along step StackSafe (Config.init s cpuCount stackOf entry) ls := by
  intro h
  obtain ⟨c, -, hrun⟩ := exec_of_isSome (taskOnCpuZero ++ [.exit 0, .isr 1 0x400000])
    (by decide +kernel)
  have hno : ¬ NoIsrAfterExit (taskOnCpuZero ++ [.exit 0, .isr 1 0x400000]) := by
    unfold NoIsrAfterExit
    decide
  exact hno (noIsrAfterExit_of_safe (init_tableInv _ _ _ _) (init_slotInv _ _ _ _) hrun
    (h _ _ _ _ _ c hrun))

end FusionOS.Scheduler
