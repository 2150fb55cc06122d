import FusionOS.Kernel.TaskStep

/-!
# What every step keeps: slots in range and idle tasks in place

`TableInv` holds along every run, without a condition on the steps.
-/

namespace FusionOS.Scheduler

open Function (update update_eq_self_iff update_of_ne update_self)

structure IdleSlot (s : Sched) (cpu i : Nat) : Prop where
  lt : i < maxTasks
  isIdle : (s.tasks i).isIdle = true
  affinity : (s.tasks i).cpuAffinity = cpu
  state : (s.tasks i).state = .ready ∨ (s.tasks i).state = .running
  current : ∀ c, s.currentTask c = some i → c = cpu

structure TableInv (s : Sched) : Prop where
  current_lt : ∀ c t, s.currentTask c = some t → t < maxTasks
  idle : ∀ cpu i : Nat, s.idleIndex cpu = (i : Int) → IdleSlot s cpu i

section Create
variable {s s' : Sched} {affinity : Int} {stack entry idx : Nat}

lemma taskCreateAffinity_none (h : taskCreateAffinity s affinity stack entry = (none, s')) :
    s' = s := by
  unfold taskCreateAffinity at h
  split at h
  · cases h
    rfl
  · dsimp only at h
    split at h
    · cases h
      rfl
    · cases h

lemma taskCreateAffinity_some (h : taskCreateAffinity s affinity stack entry = (some idx, s')) :
    taskFindFree s = some idx ∧ stack ≠ 0 ∧ s'.currentTask = s.currentTask ∧
      s'.idleIndex = s.idleIndex ∧ s'.schedulerActive = s.schedulerActive ∧
      ∃ rsp, s'.tasks = update s.tasks idx
        { state := .ready, rsp := rsp, wakeTick := 0, stack := stack,
          cpuAffinity := affinity, runningCpu := -1, isIdle := false } := by
  unfold taskCreateAffinity at h
  split at h
  · cases h
  · rename_i i hi
    dsimp only at h
    split at h
    · cases h
    · rename_i hstack
      cases h
      exact ⟨hi, hstack, rfl, rfl, rfl, _, rfl⟩

end Create

variable {c : Config} {cpu i lapicId t : Nat} {s : Sched}

lemma acting_some (h : c.acting lapicId = some t) :
    c.sched.currentTask (cpuIndex c.sched lapicId) = some t ∧ c.exited t = false ∧
      (c.sched.tasks t).isIdle = false := by
  unfold Config.acting at h
  split at h
  · cases h
  · rename_i k hk
    split at h
    · cases h
    · rename_i hne
      cases h
      simp only [Bool.or_eq_true, not_or, Bool.not_eq_true] at hne
      exact ⟨hk, hne.1, hne.2⟩

lemma taskSleep_eq {n : Nat}
    (h : s.currentTask (cpuIndex s lapicId) = some t) :
    taskSleep s lapicId n = s.setTask t { s.tasks t with
      state := .sleeping, wakeTick := (s.ticks + n) % 2 ^ 64, runningCpu := -1 } := by
  simp only [taskSleep, h]

lemma taskExit_eq
    (h : s.currentTask (cpuIndex s lapicId) = some t) :
    taskExit s lapicId = s.setTask t { s.tasks t with state := .zombie, runningCpu := -1 } := by
  simp only [taskExit, h]

lemma taskStart_some (lapicId : Nat) (hi : s.idleIndex cpu = (i : Int)) :
    (taskStart s cpu lapicId).tasks = update s.tasks i
      { s.tasks i with state := .running, runningCpu := lapicId } ∧
    (taskStart s cpu lapicId).currentTask = update s.currentTask cpu (some i) ∧
    (taskStart s cpu lapicId).idleIndex = s.idleIndex := by
  have hpos : 0 ≤ s.idleIndex cpu := by omega
  have hto : (s.idleIndex cpu).toNat = i := by omega
  simp only [taskStart, if_pos hpos, hto]
  exact ⟨rfl, rfl, rfl⟩

lemma taskStart_none (h : ¬ 0 ≤ s.idleIndex cpu) :
    taskStart s cpu lapicId = s.setActive true := by
  simp only [taskStart, if_neg h]

lemma IdleSlot.congr {s' : Sched} (h : IdleSlot s cpu i)
    (hidle : (s'.tasks i).isIdle = (s.tasks i).isIdle)
    (haff : (s'.tasks i).cpuAffinity = (s.tasks i).cpuAffinity)
    (hstate : (s'.tasks i).state = .ready ∨ (s'.tasks i).state = .running)
    (hcur : ∀ c, s'.currentTask c = some i → c = cpu) : IdleSlot s' cpu i where
  lt := h.lt
  isIdle := hidle.trans h.isIdle
  affinity := haff.trans h.affinity
  state := hstate
  current := hcur

lemma IdleSlot.of_tasks_eq {s' : Sched} (h : IdleSlot s cpu i)
    (ht : s'.tasks i = s.tasks i) (hcur : s'.currentTask = s.currentTask) : IdleSlot s' cpu i :=
  h.congr (by rw [ht]) (by rw [ht]) (by rw [ht]; exact h.state) (by rw [hcur]; exact h.current)

lemma IdleSlot.ne_of_state {j : Nat} (h : IdleSlot s cpu i)
    (hr : (s.tasks j).state ≠ .ready) (hrun : (s.tasks j).state ≠ .running) : i ≠ j := by
  rintro rfl
  rcases h.state with hs | hs
  · exact hr hs
  · exact hrun hs

lemma IdleSlot.ne_of_not_idle {j : Nat} (h : IdleSlot s cpu i)
    (hj : (s.tasks j).isIdle = false) : i ≠ j := by
  rintro rfl
  rw [h.isIdle] at hj
  cases hj

lemma IdleSlot.reap_eq (h : IdleSlot s cpu i) :
    reap (s.tasks i) = s.tasks i := by
  have hz : (s.tasks i).state ≠ .zombie := by
    rcases h.state with hs | hs <;> simp [hs]
  simp [reap, hz]

namespace TableInv
variable {s s' : Sched}

lemma update_slot (h : TableInv s) {i : Nat} {t : Task}
    (hi : ∀ cpu j : Nat, s.idleIndex cpu = (j : Int) → j ≠ i)
    (ht : s'.tasks = update s.tasks i t)
    (hcur : s'.currentTask = s.currentTask) (hidx : s'.idleIndex = s.idleIndex) : TableInv s' where
  current_lt := by rw [hcur]; exact h.current_lt
  idle := by
    intro cpu j hj
    rw [hidx] at hj
    refine (h.idle cpu j hj).of_tasks_eq ?_ hcur
    rw [ht, update_of_ne (hi cpu j hj)]

lemma create (h : TableInv s) {affinity : Int} {stack entry : Nat} {idx : Option Nat}
    (hc : taskCreateAffinity s affinity stack entry = (idx, s')) : TableInv s' := by
  cases idx with
  | none => exact taskCreateAffinity_none hc ▸ h
  | some idx =>
    obtain ⟨hfree, -, hcur, hidx, -, rsp, ht⟩ := taskCreateAffinity_some hc
    have hunused := (taskFindFree_some hfree).2
    refine h.update_slot ?_ ht hcur hidx
    intro cpu j hj
    exact (h.idle cpu j hj).ne_of_state (by simp [hunused]) (by simp [hunused])

lemma tick (h : TableInv s) : TableInv (taskTick s) := by
  obtain ⟨tasks, hs⟩ := taskTick_eq s
  refine ⟨by rw [hs]; exact h.current_lt, fun cpu i hi => ?_⟩
  have hslot := h.idle cpu i (by rw [hs] at hi; exact hi)
  refine hslot.of_tasks_eq ?_ (by rw [hs])
  rcases taskTick_tasks s i with ht | ⟨hsleep, -⟩
  · exact ht
  · rcases hslot.state with hst | hst <;> rw [hst] at hsleep <;> cases hsleep

lemma switch {out : Sched} {cpu n lapicId : Nat}
    (hlt : ∀ c t, s.currentTask c = some t → t < maxTasks)
    (hidle : ∀ cpu' j : Nat, out.idleIndex cpu' = (j : Int) → IdleSlot s cpu' j) (hn : n < maxTasks)
    (hown : ∀ cpu', IdleSlot s cpu' n → cpu = cpu')
    (ht : out.tasks = update s.tasks n { s.tasks n with state := .running, runningCpu := lapicId })
    (hcur : out.currentTask = update s.currentTask cpu (some n)) : TableInv out := by
  refine ⟨fun c t hc => ?_, fun cpu' j hj => ?_⟩
  · rw [hcur] at hc
    by_cases hcpu : c = cpu
    · rw [hcpu, update_self] at hc
      cases hc
      exact hn
    · rw [update_of_ne hcpu] at hc
      exact hlt c t hc
  · have hs := hidle cpu' j hj
    have hcur' : ∀ c, out.currentTask c = some j → c = cpu' := by
      intro c hc
      rw [hcur] at hc
      by_cases hcpu : c = cpu
      · rw [hcpu, update_self] at hc
        cases hc
        rw [hcpu]
        exact hown cpu' hs
      · rw [update_of_ne hcpu] at hc
        exact hs.current c hc
    by_cases hjn : j = n
    · subst hjn
      exact hs.congr (by simp [ht]) (by simp [ht]) (Or.inr (by simp [ht])) hcur'
    · have htj : out.tasks j = s.tasks j := by rw [ht, update_of_ne hjn]
      exact hs.congr (by rw [htj]) (by rw [htj]) (by rw [htj]; exact hs.state) hcur'

lemma start (h : TableInv s) (cpu lapicId : Nat) : TableInv (taskStart s cpu lapicId) := by
  by_cases hpos : 0 ≤ s.idleIndex cpu
  · obtain ⟨i, hi⟩ := Int.eq_ofNat_of_zero_le hpos
    obtain ⟨ht, hcur, hidx⟩ := taskStart_some lapicId hi
    have hslot := h.idle cpu i hi
    refine switch h.current_lt (fun cpu' j hj => h.idle cpu' j (hidx ▸ hj)) hslot.lt ?_ ht hcur
    -- two CPUs cannot share an idle slot: its affinity names the CPU
    intro cpu' hs
    have := hs.affinity.symm.trans hslot.affinity
    omega
  · rw [taskStart_none hpos]
    exact ⟨h.current_lt, fun cpu' j hj => (h.idle cpu' j hj).of_tasks_eq rfl rfl⟩

lemma idle_interrupted {cpu i : Nat} (h : IdleSlot s cpu i) (cpu' rsp : Nat) :
    IdleSlot (interrupted s cpu' rsp) cpu i := by
  refine h.congr ?_ ?_ ?_ (by rw [interrupted_currentTask]; exact h.current)
  · rw [interrupted_isIdle s cpu' rsp i h.lt, h.reap_eq]
  · rw [interrupted_cpuAffinity s cpu' rsp i h.lt, h.reap_eq]
  · rw [interrupted_state s cpu' rsp i h.lt, h.reap_eq]
    split
    · exact Or.inl rfl
    · exact h.state

lemma isr (h : TableInv s) (lapicId rsp : Nat) : TableInv (taskScheduleIsr s lapicId rsp).2 := by
  by_cases hact : s.schedulerActive = true
  · have hcases := taskScheduleIsr_cases lapicId rsp hact
    dsimp only at hcases
    generalize (taskScheduleIsr s lapicId rsp).2 = out at hcases ⊢
    obtain ⟨hidx, -, hcases⟩ := hcases
    have hmid : ∀ cpu' j : Nat, out.idleIndex cpu' = (j : Int) →
        IdleSlot (interrupted s (cpuIndex s lapicId) rsp) cpu' j := by
      intro cpu' j hj
      rw [hidx] at hj
      exact idle_interrupted (h.idle cpu' j hj) _ rsp
    have hlt := h.current_lt
    rw [← interrupted_currentTask s (cpuIndex s lapicId) rsp] at hcases hlt
    rcases hcases with ⟨-, ht, hcur⟩ | ⟨p, hp, hcur, ht⟩ | ⟨n, hn, -, haff, ht, hcur⟩
    · refine ⟨by rw [hcur]; exact hlt, fun cpu' j hj => ?_⟩
      exact (hmid cpu' j hj).of_tasks_eq (by rw [ht]) hcur
    · refine switch hlt hmid (hlt _ p hp) (fun cpu' hs => hs.current _ hp) ht (hcur.trans ?_)
      exact (update_eq_self_iff.mpr hp.symm).symm
    · refine switch hlt hmid hn (fun cpu' hs => ?_) ht hcur
      -- an idle task is eligible on the CPU of its affinity only
      have := hs.affinity
      omega
  · simpa [taskScheduleIsr, hact] using h

end TableInv

lemma taskInitTables_inv (s : Sched) (cpuCount : Nat) : TableInv (taskInitTables s cpuCount) := by
  refine ⟨fun c t hc => ?_, fun cpu i hi => ?_⟩
  · cases hc
  · simp only [taskInitTables] at hi
    omega

lemma taskInitIdle_inv (stackOf : Nat → Nat) (entry : Nat) (cpu : Nat)
    (hcur : ∀ c, s.currentTask c = none) (h : TableInv s) :
    (∀ c, (taskInitIdle stackOf entry s cpu).currentTask c = none) ∧
      TableInv (taskInitIdle stackOf entry s cpu) := by
  unfold taskInitIdle
  rcases hc : taskCreateAffinity s cpu (stackOf cpu) entry with ⟨idx, s'⟩
  have hs' : TableInv s' := h.create hc
  cases idx with
  | none =>
    have hse := taskCreateAffinity_none hc
    subst hse
    refine ⟨hcur, hs'.current_lt, fun cpu' j hj => ?_⟩
    by_cases hcc : cpu' = cpu
    · subst hcc
      simp at hj
    · simp only [update_of_ne hcc] at hj
      exact (hs'.idle cpu' j hj).of_tasks_eq rfl rfl
  | some idx =>
    obtain ⟨hfree, -, hcur', hidx, -, rsp, ht⟩ := taskCreateAffinity_some hc
    have hfree' := taskFindFree_some hfree
    have hnone : ∀ c, s'.currentTask c = none := by rw [hcur']; exact hcur
    refine ⟨hnone, ?_, fun cpu' j hj => ?_⟩
    · intro c t hct
      rw [show s'.currentTask c = none from hnone c] at hct
      cases hct
    · by_cases hcc : cpu' = cpu
      · subst hcc
        have hji : j = idx := by
          simp only [update_self] at hj
          omega
        subst hji
        refine ⟨hfree'.1, by simp, by simp [ht], Or.inl (by simp [ht]), fun c hct => ?_⟩
        rw [show s'.currentTask c = none from hnone c] at hct
        cases hct
      · simp only [update_of_ne hcc] at hj
        have hslot := h.idle cpu' j (by rw [← hidx]; exact hj)
        have hne : j ≠ idx :=
          hslot.ne_of_state (by simp [hfree'.2]) (by simp [hfree'.2])
        exact (hs'.idle cpu' j hj).of_tasks_eq (by simp [hne]) rfl

lemma taskInit_inv (s : Sched) (cpuCount : Nat) (stackOf : Nat → Nat) (entry : Nat) :
    (∀ c, (taskInit s cpuCount stackOf entry).currentTask c = none) ∧
      TableInv (taskInit s cpuCount stackOf entry) := by
  have h := List.foldlRecOn (List.range (min cpuCount 64)) (taskInitIdle stackOf entry)
    (motive := fun s => (∀ c, s.currentTask c = none) ∧ TableInv s)
    ⟨fun _ => rfl, taskInitTables_inv s cpuCount⟩
    fun s h cpu _ => taskInitIdle_inv stackOf entry cpu h.1 h.2
  exact ⟨h.1, h.2.current_lt, fun cpu i hi => (h.2.idle cpu i hi).of_tasks_eq rfl rfl⟩

@[simp] lemma init_currentTask (s : Sched) (cpuCount : Nat) (stackOf : Nat → Nat) (entry cpu : Nat) :
    (Config.init s cpuCount stackOf entry).sched.currentTask cpu = none :=
  (taskInit_inv s cpuCount stackOf entry).1 cpu

lemma init_tableInv (s : Sched) (cpuCount : Nat) (stackOf : Nat → Nat) (entry : Nat) :
    TableInv (Config.init s cpuCount stackOf entry).sched :=
  (taskInit_inv s cpuCount stackOf entry).2

lemma step_create {c' : Config} {affinity : Int} {stack entry : Nat}
    (h : step c (.create affinity stack entry) = some c') :
    ∃ idx, taskCreateAffinity c.sched affinity stack entry = (idx, c'.sched) ∧
      ∀ t, idx ≠ some t → c'.exited t = c.exited t := by
  rcases hc : taskCreateAffinity c.sched affinity stack entry with ⟨idx, s'⟩
  cases idx with
  | none =>
    simp only [step, hc, Option.some.injEq] at h
    exact ⟨none, h ▸ rfl, fun t _ => h ▸ rfl⟩
  | some idx =>
    simp only [step, hc, Option.some.injEq] at h
    refine ⟨some idx, h ▸ rfl, fun t ht => ?_⟩
    rw [← h]
    exact update_of_ne (fun hti : t = idx => ht (congrArg some hti.symm)) _ _

lemma tableInv_step {c' : Config} {l : Label} (h : TableInv c.sched)
    (hstep : step c l = some c') : TableInv c'.sched := by
  cases l with
  | startBsp lapicId =>
    obtain ⟨-, rfl⟩ := step_startBsp hstep
    exact h.start 0 lapicId
  | startAp lapicId =>
    obtain ⟨-, rfl⟩ := step_startAp hstep
    exact h.start (cpuIndex c.sched lapicId) lapicId
  | create affinity stack entry =>
    obtain ⟨idx, hc, -⟩ := step_create hstep
    exact h.create hc
  | sleep lapicId n =>
    simp only [step, Option.map_eq_some_iff] at hstep
    obtain ⟨t, ht, rfl⟩ := hstep
    have hact := acting_some ht
    rw [taskSleep_eq hact.1]
    refine h.update_slot (i := t) ?_ rfl rfl rfl
    exact fun cpu j hj => (h.idle cpu j hj).ne_of_not_idle hact.2.2
  | exit lapicId =>
    simp only [step, Option.map_eq_some_iff] at hstep
    obtain ⟨t, ht, rfl⟩ := hstep
    have hact := acting_some ht
    rw [taskExit_eq hact.1]
    refine h.update_slot (i := t) ?_ rfl rfl rfl
    exact fun cpu j hj => (h.idle cpu j hj).ne_of_not_idle hact.2.2
  | clock =>
    cases hstep
    exact ⟨h.current_lt, fun cpu i hi => (h.idle cpu i hi).of_tasks_eq rfl rfl⟩
  | tick =>
    cases hstep
    exact h.tick
  | isr lapicId rsp =>
    cases hstep
    exact h.isr lapicId rsp

end FusionOS.Scheduler
