import FusionOS.Kernel.TaskPick

/-!
# Where a scheduler interrupt returns to

`task_schedule_isr` records the switch in the table before it looks at the saved frame of the new
task.
-/

namespace FusionOS.Scheduler

open Function (update update_of_ne update_self)

section Outcome
variable {s : Sched} {lapicId rsp : Nat}

lemma interrupted_rsp_other {cpu n : Nat} (hn : s.currentTask cpu ≠ some n) :
    ((interrupted s cpu rsp).tasks n).rsp = (s.tasks n).rsp := by
  have hreap : ((taskCleanup s).tasks n).rsp = (s.tasks n).rsp := by
    unfold taskCleanup reap
    dsimp only
    split
    · split <;> rfl
    · rfl
  unfold interrupted
  cases hc : s.currentTask cpu with
  | none => exact hreap
  | some p =>
    have hnp : n ≠ p := by
      rintro rfl
      exact hn hc
    simp only [savePrev, Sched.setTask, update_of_ne hnp]
    exact hreap

lemma interrupted_rsp_self {cpu p : Nat} (hp : s.currentTask cpu = some p) :
    ((interrupted s cpu rsp).tasks p).rsp = rsp := by
  unfold interrupted
  rw [hp]
  simp only [savePrev, Sched.setTask, update_self]
  split <;> rfl

lemma taskScheduleIsr_none (hact : s.schedulerActive = true)
    (hpick : picked s (cpuIndex s lapicId) rsp = none) :
    (taskScheduleIsr s lapicId rsp).1 = rsp ∧
    (taskScheduleIsr s lapicId rsp).2.currentTask = s.currentTask ∧
    (taskScheduleIsr s lapicId rsp).2.tasks =
      match s.currentTask (cpuIndex s lapicId) with
      | some p => update (interrupted s (cpuIndex s lapicId) rsp).tasks p
          { (interrupted s (cpuIndex s lapicId) rsp).tasks p with
            state := .running, runningCpu := lapicId }
      | none => (interrupted s (cpuIndex s lapicId) rsp).tasks := by
  obtain ⟨lastPick, heq⟩ := taskScheduleIsr_pick_none hact hpick
  rw [heq]
  exact ⟨rfl, rfl, rfl⟩

lemma taskScheduleIsr_some (hact : s.schedulerActive = true) {n : Nat}
    (hpick : picked s (cpuIndex s lapicId) rsp = some n) :
    (taskScheduleIsr s lapicId rsp).1 =
      (if ((interrupted s (cpuIndex s lapicId) rsp).tasks n).rsp ≠ 0 ∧
          frameOk s ((interrupted s (cpuIndex s lapicId) rsp).tasks n).rsp = true then
        ((interrupted s (cpuIndex s lapicId) rsp).tasks n).rsp
      else rsp) ∧
    (taskScheduleIsr s lapicId rsp).2.currentTask =
      update s.currentTask (cpuIndex s lapicId) (some n) ∧
    (taskScheduleIsr s lapicId rsp).2.tasks =
      update (interrupted s (cpuIndex s lapicId) rsp).tasks n
        { (interrupted s (cpuIndex s lapicId) rsp).tasks n with
          state := .running, runningCpu := lapicId } := by
  obtain ⟨lastPick, heq⟩ := taskScheduleIsr_pick_some hact hpick
  rw [heq]
  exact ⟨rfl, rfl, rfl⟩

lemma taskScheduleIsr_ticks (s : Sched) (lapicId rsp : Nat) :
    (taskScheduleIsr s lapicId rsp).2.ticks = s.ticks := by
  by_cases hact : s.schedulerActive = true
  · cases hpick : picked s (cpuIndex s lapicId) rsp with
    | none =>
      obtain ⟨lastPick, heq⟩ := taskScheduleIsr_pick_none hact hpick
      rw [heq]
    | some n =>
      obtain ⟨lastPick, heq⟩ := taskScheduleIsr_pick_some hact hpick
      rw [heq]
  · rw [taskScheduleIsr, if_neg hact]

lemma interrupted_running {cpu i : Nat}
    (h : ((interrupted s cpu rsp).tasks i).state = .running) : (s.tasks i).state = .running := by
  have hreap : ((taskCleanup s).tasks i).state = .running → (s.tasks i).state = .running := by
    unfold taskCleanup reap
    dsimp only
    split
    · split
      · intro hu
        cases hu
      · exact id
    · exact id
  unfold interrupted at h
  cases hc : s.currentTask cpu with
  | none =>
    rw [hc] at h
    exact hreap h
  | some p =>
    rw [hc] at h
    by_cases hip : i = p
    · subst hip
      simp only [savePrev, Sched.setTask, update_self] at h
      split at h
      · cases h
      · exact hreap h
    · simp only [savePrev, Sched.setTask, update_of_ne hip] at h
      exact hreap h

end Outcome

structure KeepsPrevious (s out : Sched) (lapicId : Nat) : Prop where
  current : out.currentTask (cpuIndex s lapicId) = s.currentTask (cpuIndex s lapicId)
  running : ∀ p, s.schedulerActive = true → s.currentTask (cpuIndex s lapicId) = some p →
    (out.tasks p).state = .running ∧ (out.tasks p).runningCpu = lapicId
  others : ∀ i, (out.tasks i).state = .running → s.currentTask (cpuIndex s lapicId) ≠ some i →
    (s.tasks i).state = .running

/-- The table after the interrupt agrees with the stack that it returns. -/
def TableMatchesStack (s : Sched) (lapicId rsp : Nat) : Prop :=
  ((taskScheduleIsr s lapicId rsp).1 = rsp →
    KeepsPrevious s (taskScheduleIsr s lapicId rsp).2 lapicId) ∧
  ((taskScheduleIsr s lapicId rsp).1 ≠ rsp →
    ∃ t, (taskScheduleIsr s lapicId rsp).2.currentTask (cpuIndex s lapicId) = some t ∧
      (taskScheduleIsr s lapicId rsp).1 = ((taskScheduleIsr s lapicId rsp).2.tasks t).rsp)

/-- A task that the interrupt switches to has a saved stack of its own that passes the test. -/
def SwitchesToFrame (s : Sched) (lapicId rsp : Nat) : Prop :=
  ∀ n, s.schedulerActive = true → picked s (cpuIndex s lapicId) rsp = some n →
    s.currentTask (cpuIndex s lapicId) ≠ some n →
    (s.tasks n).rsp ≠ 0 ∧ (s.tasks n).rsp ≠ rsp ∧ frameOk s (s.tasks n).rsp = true

instance (s : Sched) (lapicId rsp : Nat) : Decidable (SwitchesToFrame s lapicId rsp) :=
  match hp : picked s (cpuIndex s lapicId) rsp with
  | none => isTrue fun n _ hn => absurd (hp.symm.trans hn) (Option.some_ne_none n).symm
  | some n =>
    decidable_of_iff (s.schedulerActive = true → s.currentTask (cpuIndex s lapicId) ≠ some n →
        (s.tasks n).rsp ≠ 0 ∧ (s.tasks n).rsp ≠ rsp ∧ frameOk s (s.tasks n).rsp = true)
      ⟨fun h n' hact hn' => by
        obtain rfl : n = n' := Option.some.inj (hp.symm.trans hn')
        exact h hact, fun h hact => h n hact hp⟩

section Match
variable {s : Sched} {lapicId rsp : Nat}

lemma keepsPrevious_of_stay (hact : s.schedulerActive = true)
    (hstay : ∀ n, picked s (cpuIndex s lapicId) rsp = some n →
      s.currentTask (cpuIndex s lapicId) = some n) :
    (taskScheduleIsr s lapicId rsp).1 = rsp ∧
      KeepsPrevious s (taskScheduleIsr s lapicId rsp).2 lapicId := by
  cases hpick : picked s (cpuIndex s lapicId) rsp with
  | none =>
    obtain ⟨hret, hcur, ht⟩ := taskScheduleIsr_none hact hpick
    refine ⟨hret, by rw [hcur], fun p _ hp => ?_, fun i hi hne => ?_⟩
    · rw [ht, hp]
      dsimp only
      rw [update_self]
      exact ⟨rfl, rfl⟩
    · rw [ht] at hi
      cases hp : s.currentTask (cpuIndex s lapicId) with
      | none =>
        rw [hp] at hi
        exact interrupted_running hi
      | some p =>
        rw [hp] at hi hne
        have hip : i ≠ p := by
          rintro rfl
          exact hne rfl
        dsimp only at hi
        rw [update_of_ne hip] at hi
        exact interrupted_running hi
  | some n =>
    have hn := hstay n hpick
    obtain ⟨hret, hcur, ht⟩ := taskScheduleIsr_some hact hpick
    rw [interrupted_rsp_self hn, ite_self] at hret
    refine ⟨hret, by rw [hcur, update_self, hn], fun p _ hp => ?_, fun i hi hne => ?_⟩
    · obtain rfl : n = p := Option.some.inj (hn.symm.trans hp)
      rw [ht, update_self]
      exact ⟨rfl, rfl⟩
    · have hin : i ≠ n := by
        rintro rfl
        exact hne hn
      rw [ht, update_of_ne hin] at hi
      exact interrupted_running hi

/-- The table agrees with the returned stack exactly where a switch finds a valid saved frame. -/
theorem table_matches_stack_iff (s : Sched) (lapicId rsp : Nat) :
    TableMatchesStack s lapicId rsp ↔ SwitchesToFrame s lapicId rsp := by
  by_cases hact : s.schedulerActive = true
  swap
  · have hout : taskScheduleIsr s lapicId rsp = (rsp, s) := by
      rw [taskScheduleIsr, if_neg hact]
    refine iff_of_true ?_ fun n h => absurd h hact
    unfold TableMatchesStack
    rw [hout]
    exact ⟨fun _ => ⟨rfl, fun p h => absurd h hact, fun i hi _ => hi⟩, fun h => absurd rfl h⟩
  by_cases hstay : ∀ n, picked s (cpuIndex s lapicId) rsp = some n →
      s.currentTask (cpuIndex s lapicId) = some n
  · obtain ⟨hret, hkeeps⟩ := keepsPrevious_of_stay hact hstay
    refine iff_of_true ⟨fun _ => hkeeps, fun h => absurd hret h⟩ ?_
    exact fun n _ hn hne => absurd (hstay n hn) hne
  · -- another task is picked and recorded as the current one
    simp only [not_forall] at hstay
    obtain ⟨n, hpick, hne⟩ := hstay
    obtain ⟨hret, hcur, ht⟩ := taskScheduleIsr_some hact hpick
    rw [interrupted_rsp_other hne] at hret
    have hswitched : ¬ KeepsPrevious s (taskScheduleIsr s lapicId rsp).2 lapicId := by
      intro h
      have hsame := h.current
      rw [hcur, update_self] at hsame
      exact hne hsame.symm
    constructor
    · intro h n' _ hpick' _
      obtain rfl : n = n' := Option.some.inj (hpick.symm.trans hpick')
      have hother : (taskScheduleIsr s lapicId rsp).1 ≠ rsp := fun heq => hswitched (h.1 heq)
      rw [hret] at hother
      split at hother
      · rename_i hok
        exact ⟨hok.1, hother, hok.2⟩
      · exact absurd rfl hother
    · intro h
      obtain ⟨h0, hrsp, hframe⟩ := h n hact hpick hne
      rw [if_pos ⟨h0, hframe⟩] at hret
      refine ⟨fun heq => absurd (hret.symm.trans heq) hrsp, fun _ => ⟨n, ?_, ?_⟩⟩
      · rw [hcur, update_self]
      · rw [hret, ht, update_self]
        exact (interrupted_rsp_other hne).symm

end Match

/-- CPU 0 runs task 0; the other tasks are READY with a saved stack that holds no frame. -/
def brokenFrames : Sched :=
  { crowded with
    tasks := fun i =>
      { state := if i = 0 then .running else .ready, rsp := 0x200000, wakeTick := 0,
        stack := 0x1F8000, cpuAffinity := -1, runningCpu := if i = 0 then 0 else -1, isIdle := false }
    currentTask := fun cpu => if cpu = 0 then some 0 else none
    lastPick := fun _ => 0 }

/-- The interrupt of CPU 0 goes back to the code of task 0 and records task 1. -/
theorem not_table_matches_stack_brokenFrames : ¬ TableMatchesStack brokenFrames 0 0x300000 := by
  intro h
  have hret : (taskScheduleIsr brokenFrames 0 0x300000).1 = 0x300000 := by decide +kernel
  have hcur : (taskScheduleIsr brokenFrames 0 0x300000).2.currentTask 0 = some 1 := by
    decide +kernel
  have hsame := (h.1 hret).current
  rw [show cpuIndex brokenFrames 0 = 0 from rfl, hcur] at hsame
  exact absurd hsame (by decide)

end FusionOS.Scheduler
