import FusionOS.Kernel.TaskTable
import Mathlib.Data.List.Nodup
import Mathlib.Data.List.Perm.Subperm

/-!
# Picking the next task

`task_pick_next` scans the slots once around, from the slot behind the last pick. A slot is named
here by its distance from the start of the scan.
-/

namespace FusionOS.Scheduler

open List
open Function (update update_of_ne update_self)

/-! ## The scan -/

section Scan
variable {s : Sched} {cpu i n : Nat} {cand : Option Nat}

lemma pickScan_isSome (hi : i < maxTasks)
    (h : cand.isSome = true ∨ ∃ d < n, eligible s cpu ((i + d) % maxTasks) = true) :
    (pickScan s cpu n i cand).isSome = true := by
  induction n generalizing i cand with
  | zero =>
    rcases h with h | ⟨d, hd, -⟩
    · exact h
    · exact absurd hd (Nat.not_lt_zero d)
  | succ n ih =>
    have hnext : (i + 1) % maxTasks < maxTasks := Nat.mod_lt _ (by rw [maxTasks_eq]; decide)
    rw [pickScan]
    by_cases he : eligible s cpu i = true
    · rw [if_pos he]
      split
      · apply ih hnext
        left
        cases cand <;> rfl
      · rfl
    · rw [if_neg he]
      apply ih hnext
      rcases h with h | ⟨d, hd, hel⟩
      · exact Or.inl h
      · right
        cases d with
        | zero =>
          rw [Nat.add_zero, Nat.mod_eq_of_lt hi] at hel
          exact absurd hel he
        | succ d =>
          refine ⟨d, by omega, ?_⟩
          rw [Nat.mod_add_mod]
          rw [show i + 1 + d = i + (d + 1) by omega]
          exact hel

lemma pickScan_first (cand : Option Nat) (hi : i < maxTasks) {d : Nat} (hd : d < n)
    (hel : eligible s cpu ((i + d) % maxTasks) = true)
    (hidle : (s.tasks ((i + d) % maxTasks)).isIdle = false) :
    ∃ e ≤ d, pickScan s cpu n i cand = some ((i + e) % maxTasks) := by
  induction n generalizing i cand d with
  | zero => exact absurd hd (Nat.not_lt_zero d)
  | succ n ih =>
    have hnext : (i + 1) % maxTasks < maxTasks := Nat.mod_lt _ (by rw [maxTasks_eq]; decide)
    have hshift : ∀ e, ((i + 1) % maxTasks + e) % maxTasks = (i + (e + 1)) % maxTasks := by
      intro e
      rw [Nat.mod_add_mod]
      congr 1
      omega
    -- the rest of the scan, where the task is not at its first slot
    have hrest : ∀ cand', d ≠ 0 →
        ∃ e ≤ d, pickScan s cpu n ((i + 1) % maxTasks) cand' = some ((i + e) % maxTasks) := by
      intro cand' h0
      obtain ⟨d', rfl⟩ : ∃ d', d = d' + 1 := ⟨d - 1, by omega⟩
      rw [← hshift] at hel hidle
      obtain ⟨e, he, hscan⟩ := ih cand' hnext (by omega) hel hidle
      exact ⟨e + 1, by omega, by rw [hscan, hshift]⟩
    rw [pickScan]
    by_cases he : eligible s cpu i = true
    · rw [if_pos he]
      split
      · rename_i hid
        apply hrest
        rintro rfl
        rw [Nat.add_zero, Nat.mod_eq_of_lt hi, hid] at hidle
        cases hidle
      · exact ⟨0, Nat.zero_le d, by rw [Nat.add_zero, Nat.mod_eq_of_lt hi]⟩
    · rw [if_neg he]
      apply hrest
      rintro rfl
      rw [Nat.add_zero, Nat.mod_eq_of_lt hi] at hel
      exact he hel

end Scan

def pickStart (s : Sched) (cpu : Nat) : Nat := ((s.lastPick cpu + 1) % (maxTasks : Int)).toNat

variable {s : Sched}

lemma pickStart_lt (s : Sched) (cpu : Nat) : pickStart s cpu < maxTasks := by
  unfold pickStart
  rw [maxTasks_eq]
  omega

lemma taskPickNext_of_scan {cpu i : Nat}
    (h : pickScan s cpu maxTasks (pickStart s cpu) none = some i) :
    taskPickNext s cpu = (some i, s.setLastPick cpu i) := by
  unfold pickStart at h
  simp only [taskPickNext, h]

lemma exists_distance {start t : Nat} (hstart : start < maxTasks) (ht : t < maxTasks) :
    ∃ d < maxTasks, (start + d) % maxTasks = t := by
  rw [maxTasks_eq] at *
  rcases Nat.le_total start t with h | h
  · exact ⟨t - start, by omega, by omega⟩
  · rcases Nat.eq_or_lt_of_le h with h | h
    · exact ⟨0, by omega, by omega⟩
    · exact ⟨64 + t - start, by omega, by omega⟩

lemma taskPickNext_isSome {cpu t : Nat} (ht : t < maxTasks)
    (hel : eligible s cpu t = true) : (taskPickNext s cpu).1.isSome = true := by
  obtain ⟨d, hd, hdt⟩ := exists_distance (pickStart_lt s cpu) ht
  have hscan : (pickScan s cpu maxTasks (pickStart s cpu) none).isSome = true :=
    pickScan_isSome (pickStart_lt s cpu) (Or.inr ⟨d, hd, by rw [hdt]; exact hel⟩)
  obtain ⟨i, hi⟩ := Option.isSome_iff_exists.mp hscan
  rw [taskPickNext_of_scan hi]
  rfl

/-! ## No task is overtaken twice -/

/-- The answers of successive calls of `task_pick_next` for one CPU, where the table holds the given
tasks at each call. Nothing but these calls stores `last_pick` of the CPU. -/
def pickRun (cpu : Nat) : Sched → List (Nat → Task) → List (Option Nat)
  | _, [] => []
  | s, tasks :: rest =>
    (taskPickNext { s with tasks := tasks } cpu).1 ::
      pickRun cpu (taskPickNext { s with tasks := tasks } cpu).2 rest

lemma pickRun_length (cpu : Nat) (s : Sched) (tables : List (Nat → Task)) :
    (pickRun cpu s tables).length = tables.length := by
  induction tables generalizing s with
  | nil => rfl
  | cons tasks rest ih =>
    rw [pickRun, length_cons, length_cons, ih]

section Overtaking
variable {cpu t : Nat}

/-- The task `t` is eligible for the CPU in a table, and no idle task. -/
def Waits (cpu t : Nat) (s : Sched) (tasks : Nat → Task) : Prop :=
  eligible { s with tasks := tasks } cpu t = true ∧ (tasks t).isIdle = false

variable {es : List Nat} {d : Nat}

lemma taskPickNext_towards {s : Sched} {tasks : Nat → Task} (hd : d < maxTasks)
    (hdt : (pickStart s cpu + d) % maxTasks = t) (hw : Waits cpu t s tasks) :
    ∃ e ≤ d, (taskPickNext { s with tasks := tasks } cpu).1 =
        some ((pickStart s cpu + e) % maxTasks) ∧
      pickStart (taskPickNext { s with tasks := tasks } cpu).2 cpu =
        (pickStart s cpu + e + 1) % maxTasks := by
  obtain ⟨hel, hidle⟩ := hw
  rw [← hdt] at hel hidle
  obtain ⟨e, he, hscan⟩ := pickScan_first none (pickStart_lt s cpu) hd hel hidle
  rw [taskPickNext_of_scan (s := { s with tasks := tasks }) hscan]
  refine ⟨e, he, rfl, ?_⟩
  unfold pickStart Sched.setLastPick
  dsimp only
  rw [update_self, maxTasks_eq]
  omega

lemma pickRun_increasing (tables : List (Nat → Task)) {s : Sched} (hd : d < maxTasks)
    (hdt : (pickStart s cpu + d) % maxTasks = t)
    (hw : ∀ tasks ∈ tables, ∀ s', Waits cpu t s' tasks)
    (hnot : some t ∉ pickRun cpu s tables) :
    ∃ es : List Nat, es.Pairwise (· < ·) ∧ (∀ e ∈ es, e < d) ∧
      pickRun cpu s tables = es.map fun e => some ((pickStart s cpu + e) % maxTasks) := by
  induction tables generalizing s d with
  | nil => exact ⟨[], .nil, fun e he => (not_mem_nil he).elim, rfl⟩
  | cons tasks rest ih =>
    rw [pickRun, mem_cons, not_or] at hnot
    obtain ⟨hfirst, hrest⟩ := hnot
    obtain ⟨e, he, hpick, hstart⟩ :=
      taskPickNext_towards hd hdt (hw tasks mem_cons_self s)
    have hlt : e < d := by
      refine Nat.lt_of_le_of_ne he fun h => hfirst ?_
      rw [hpick, h, hdt]
    -- the next scan starts behind the task just returned
    have hshift : ∀ k, ((pickStart s cpu + e + 1) % maxTasks + k) % maxTasks =
        (pickStart s cpu + (e + 1 + k)) % maxTasks := by
      intro k
      rw [Nat.mod_add_mod]
      congr 1
      omega
    have hdist : (pickStart (taskPickNext { s with tasks := tasks } cpu).2 cpu + (d - e - 1)) %
        maxTasks = t := by
      rw [hstart, hshift, ← hdt]
      congr 1
      omega
    obtain ⟨es, hinc, hbound, hes⟩ := ih (by omega) hdist
      (fun tasks' h' => hw tasks' (mem_cons_of_mem _ h')) hrest
    refine ⟨e :: es.map (e + 1 + ·), ?_, ?_, ?_⟩
    · refine pairwise_cons.mpr ⟨fun k hk => ?_, ?_⟩
      · obtain ⟨k', -, rfl⟩ := mem_map.mp hk
        omega
      · refine pairwise_map.mpr (hinc.imp ?_)
        omega
    · intro k hk
      rcases mem_cons.mp hk with rfl | hk
      · exact hlt
      · obtain ⟨k', hk', rfl⟩ := mem_map.mp hk
        have := hbound k' hk'
        omega
    · rw [pickRun, hpick, hes, map_cons, map_map, hstart]
      congr 1
      apply map_congr_left
      intro k _
      exact congrArg some (hshift k)

lemma nodup_of_distances {start : Nat} (hd : d < maxTasks)
    (hinc : es.Pairwise (· < ·)) (hbound : ∀ e ∈ es, e < d) :
    (es.map fun e => some ((start + e) % maxTasks)).Nodup := by
  refine List.Nodup.map_on ?_ (hinc.imp fun h => Nat.ne_of_lt h)
  intro a ha b hb hab
  have ha' := hbound a ha
  have hb' := hbound b hb
  rw [Option.some.injEq, maxTasks_eq] at hab
  rw [maxTasks_eq] at hd
  omega

lemma length_le_of_increasing (hinc : es.Pairwise (· < ·))
    (hbound : ∀ e ∈ es, e < d) : es.length ≤ d := by
  have hsub : es ⊆ List.range d := fun e he => mem_range.mpr (hbound e he)
  have hnodup : es.Nodup := hinc.imp fun h => Nat.ne_of_lt h
  have hlen := (hnodup.subperm hsub).length_le
  rw [length_range] at hlen
  exact hlen

/-- Over successive calls for a CPU at each of which a task that is not idle is eligible, whatever the
rest of the table holds: until the task is returned every call returns a task and none returns one
that was returned before, and `MAX_TASKS` calls return it. -/
theorem pick_no_overtaking (s : Sched) (cpu : Nat) {t : Nat} (ht : t < maxTasks)
    (tables : List (Nat → Task))
    (hw : ∀ tasks ∈ tables, eligible { s with tasks := tasks } cpu t = true ∧
      (tasks t).isIdle = false) :
    (some t ∉ pickRun cpu s tables →
      (pickRun cpu s tables).Nodup ∧ none ∉ pickRun cpu s tables) ∧
    (tables.length = maxTasks → some t ∈ pickRun cpu s tables) := by
  obtain ⟨d, hd, hdt⟩ := exists_distance (pickStart_lt s cpu) ht
  have hwaits : ∀ tasks ∈ tables, ∀ s', Waits cpu t s' tasks := fun tasks h _ => hw tasks h
  constructor
  · intro hnot
    obtain ⟨es, hinc, hbound, hes⟩ := pickRun_increasing tables hd hdt hwaits hnot
    rw [hes]
    refine ⟨nodup_of_distances hd hinc hbound, fun h => ?_⟩
    obtain ⟨e, -, he⟩ := mem_map.mp h
    cases he
  · intro hlen
    by_contra hnot
    obtain ⟨es, hinc, hbound, hes⟩ := pickRun_increasing tables hd hdt hwaits hnot
    have hcount := congrArg List.length hes
    rw [pickRun_length, length_map] at hcount
    have := length_le_of_increasing hinc hbound
    omega

end Overtaking

/-- A scheduler with all slots READY for every CPU. -/
def crowded : Sched :=
  let ready : Task :=
    { state := .ready, rsp := 0, wakeTick := 0, stack := 0,
      cpuAffinity := -1, runningCpu := -1, isIdle := false }
  { tasks := fun _ => ready, taskCount := 64, cpuCountGlobal := 1
    currentTask := fun _ => none, idleIndex := fun _ => -1, lastPick := fun _ => -1
    schedulerActive := true, lapicMap := fun _ => 0, lapicMapCount := 0
    kernelCs := 0x28, ticks := 0, mem := fun _ => 0 }

theorem pick_no_overtaking_crowded :
    some 63 ∈ pickRun 0 crowded (List.replicate maxTasks crowded.tasks) := by
  have h := pick_no_overtaking crowded 0 (t := 63) (by rw [maxTasks_eq]; decide)
    (List.replicate maxTasks crowded.tasks) (by
      intro tasks htasks
      rw [eq_of_mem_replicate htasks]
      exact ⟨by decide, rfl⟩)
  exact h.2 length_replicate

/-! ## The idle tasks -/

/-- The idle task in slot `i` waits for its CPU, or runs there. -/
def IdleWaits (s : Sched) (cpu i : Nat) : Prop :=
  ((s.tasks i).state = .ready ∧ (s.tasks i).runningCpu = -1) ∨
    ((s.tasks i).state = .running ∧ s.currentTask cpu = some i)

def IdleInv (s : Sched) : Prop := ∀ cpu i : Nat, s.idleIndex cpu = (i : Int) → IdleWaits s cpu i

namespace IdleInv
variable {s s' : Sched}

variable {cpu i : Nat}

lemma update_slot (h : IdleInv s) {t : Task}
    (hi : ∀ cpu j : Nat, s.idleIndex cpu = (j : Int) → j ≠ i)
    (ht : s'.tasks = update s.tasks i t)
    (hcur : s'.currentTask = s.currentTask) (hidx : s'.idleIndex = s.idleIndex) : IdleInv s' := by
  intro cpu j hj
  rw [hidx] at hj
  unfold IdleWaits
  rw [ht, hcur, update_of_ne (hi cpu j hj)]
  exact h cpu j hj

lemma create (h : IdleInv s) (htab : TableInv s) {affinity : Int} {stack entry : Nat}
    {idx : Option Nat} (hc : taskCreateAffinity s affinity stack entry = (idx, s')) : IdleInv s' := by
  cases idx with
  | none => exact taskCreateAffinity_none hc ▸ h
  | some idx =>
    obtain ⟨hfree, -, hcur, hidx, -, rsp, ht⟩ := taskCreateAffinity_some hc
    have hunused := (taskFindFree_some hfree).2
    refine h.update_slot ?_ ht hcur hidx
    intro cpu j hj
    exact (htab.idle cpu j hj).ne_of_state (by simp [hunused]) (by simp [hunused])

lemma tick (h : IdleInv s) : IdleInv (taskTick s) := by
  obtain ⟨tasks, hs⟩ := taskTick_eq s
  intro cpu i hi
  have hw := h cpu i (by rw [hs] at hi; exact hi)
  have hcur : (taskTick s).currentTask = s.currentTask := by rw [hs]
  rcases taskTick_tasks s i with ht | ⟨hsleep, -⟩
  · unfold IdleWaits
    rw [ht, hcur]
    exact hw
  · rcases hw with hw | hw
    · rw [hw.1] at hsleep
      cases hsleep
    · rw [hw.1] at hsleep
      cases hsleep

lemma start (h : IdleInv s) (htab : TableInv s) (cpu lapicId : Nat) :
    IdleInv (taskStart s cpu lapicId) := by
  by_cases hpos : 0 ≤ s.idleIndex cpu
  · obtain ⟨i, hi⟩ := Int.eq_ofNat_of_zero_le hpos
    obtain ⟨ht, hcur, hidx⟩ := taskStart_some lapicId hi
    intro cpu' j hj
    rw [hidx] at hj
    unfold IdleWaits
    rw [ht, hcur]
    by_cases hji : j = i
    · subst hji
      -- the affinity of an idle task names its CPU
      have haff := (htab.idle cpu' j hj).affinity.symm.trans (htab.idle cpu j hi).affinity
      obtain rfl : cpu' = cpu := by omega
      right
      rw [update_self, update_self]
      exact ⟨rfl, rfl⟩
    · have hcpu : cpu' ≠ cpu := by
        rintro rfl
        exact hji (by omega)
      rw [update_of_ne hji, update_of_ne hcpu]
      exact h cpu' j hj
  · rw [taskStart_none hpos]
    exact h

lemma interrupted_own (h : IdleInv s) (htab : TableInv s) (rsp : Nat)
    (hi : s.idleIndex cpu = (i : Int)) :
    ((interrupted s cpu rsp).tasks i).state = .ready ∧
      ((interrupted s cpu rsp).tasks i).runningCpu = -1 := by
  have hslot := htab.idle cpu i hi
  rw [interrupted_tasks s cpu rsp i hslot.lt, hslot.reap_eq]
  rcases h cpu i hi with ⟨hready, hcpu⟩ | ⟨hrun, hcur⟩
  · split
    · rw [if_neg (by rw [hready]; decide)]
      exact ⟨hready, hcpu⟩
    · exact ⟨hready, hcpu⟩
  · rw [if_pos hcur, if_pos hrun]
    exact ⟨rfl, rfl⟩

lemma interrupted_other (htab : TableInv s) {cpu' : Nat} (rsp : Nat)
    (hi : s.idleIndex cpu' = (i : Int)) (hne : cpu' ≠ cpu) :
    (interrupted s cpu rsp).tasks i = s.tasks i := by
  have hslot := htab.idle cpu' i hi
  have hcur : s.currentTask cpu ≠ some i := fun hc => hne (hslot.current cpu hc).symm
  rw [interrupted_tasks s cpu rsp i hslot.lt, if_neg hcur, hslot.reap_eq]

lemma eligible_interrupted (h : IdleInv s) (htab : TableInv s) (rsp : Nat)
    (hi : s.idleIndex cpu = (i : Int)) : eligible (interrupted s cpu rsp) cpu i = true := by
  obtain ⟨hready, hcpu⟩ := h.interrupted_own htab rsp hi
  have hslot := TableInv.idle_interrupted (htab.idle cpu i hi) cpu rsp
  exact eligible_iff.mpr ⟨hready, hcpu, Or.inr hslot.affinity⟩

lemma pick_ne_none (h : IdleInv s) (htab : TableInv s) (rsp : Nat)
    (hi : s.idleIndex cpu = (i : Int)) :
    (taskPickNext (interrupted s cpu rsp) cpu).1 ≠ none := by
  have hsome := taskPickNext_isSome (htab.idle cpu i hi).lt (h.eligible_interrupted htab rsp hi)
  intro hnone
  rw [hnone] at hsome
  cases hsome

lemma keep (h : IdleInv s) (htab : TableInv s) {cpu' j : Nat} (rsp : Nat)
    (hj : s.idleIndex cpu' = (j : Int)) (ht : s'.tasks j = (interrupted s cpu rsp).tasks j)
    (hcur : cpu' ≠ cpu → s'.currentTask cpu' = s.currentTask cpu') : IdleWaits s' cpu' j := by
  unfold IdleWaits
  by_cases hcpu : cpu' = cpu
  · subst hcpu
    rw [ht]
    exact Or.inl (h.interrupted_own htab rsp hj)
  · rw [ht, hcur hcpu, interrupted_other htab rsp hj hcpu]
    exact h cpu' j hj

lemma isr (h : IdleInv s) (htab : TableInv s) (lapicId rsp : Nat) :
    IdleInv (taskScheduleIsr s lapicId rsp).2 := by
  by_cases hact : s.schedulerActive = true
  · have hcases := taskScheduleIsr_cases lapicId rsp hact
    obtain ⟨hidx, -, hcases⟩ := hcases
    intro cpu' j hj
    rw [hidx] at hj
    have hslot := htab.idle cpu' j hj
    rcases hcases with ⟨-, ht, hcur⟩ | ⟨p, hp, hcur, ht⟩ | ⟨n, -, -, haff, ht, hcur⟩
    · exact h.keep htab rsp hj (by rw [ht]) fun _ => by rw [hcur]
    · by_cases hjp : j = p
      · subst hjp
        -- the resumed task is the idle task itself
        obtain rfl := hslot.current _ hp
        right
        rw [ht, hcur, update_self]
        exact ⟨rfl, hp⟩
      · exact h.keep htab rsp hj (by rw [ht, update_of_ne hjp]) fun _ => by rw [hcur]
    · by_cases hjn : j = n
      · subst hjn
        have hown := (TableInv.idle_interrupted hslot (cpuIndex s lapicId) rsp).affinity
        obtain rfl : cpu' = cpuIndex s lapicId := by omega
        right
        rw [ht, hcur, update_self, update_self]
        exact ⟨rfl, rfl⟩
      · exact h.keep htab rsp hj (by rw [ht, update_of_ne hjn]) fun hne => by
          rw [hcur, update_of_ne hne]
  · simpa [taskScheduleIsr, hact] using h

end IdleInv

lemma taskInitIdle_idleInv (stackOf : Nat → Nat) (entry : Nat) (cpu : Nat)
    (htab : TableInv s) (h : IdleInv s) : IdleInv (taskInitIdle stackOf entry s cpu) := by
  unfold taskInitIdle
  rcases hc : taskCreateAffinity s cpu (stackOf cpu) entry with ⟨idx, s'⟩
  have hs' : IdleInv s' := h.create htab hc
  cases idx with
  | none =>
    intro cpu' j hj
    by_cases hcc : cpu' = cpu
    · subst hcc
      simp at hj
    · simp only [update_of_ne hcc] at hj
      exact hs' cpu' j hj
  | some idx =>
    obtain ⟨hfree, -, -, hidx, -, rsp, ht⟩ := taskCreateAffinity_some hc
    have hfree' := taskFindFree_some hfree
    intro cpu' j hj
    by_cases hcc : cpu' = cpu
    · subst hcc
      have hji : j = idx := by
        simp only [update_self] at hj
        omega
      subst hji
      left
      simp [ht]
    · simp only [update_of_ne hcc] at hj
      have hslot := htab.idle cpu' j (by rw [← hidx]; exact hj)
      have hne : j ≠ idx := hslot.ne_of_state (by simp [hfree'.2]) (by simp [hfree'.2])
      unfold IdleWaits
      dsimp only
      rw [update_of_ne hne]
      exact hs' cpu' j hj

lemma init_idleInv (s : Sched) (cpuCount : Nat) (stackOf : Nat → Nat) (entry : Nat) :
    IdleInv (Config.init s cpuCount stackOf entry).sched := by
  have hinit : IdleInv (taskInitTables s cpuCount) := by
    intro cpu i hi
    simp only [taskInitTables] at hi
    omega
  have h := foldlRecOn (List.range (min cpuCount 64)) (taskInitIdle stackOf entry)
    (motive := fun s => ((∀ c, s.currentTask c = none) ∧ TableInv s) ∧ IdleInv s)
    ⟨⟨fun _ => rfl, taskInitTables_inv s cpuCount⟩, hinit⟩
    fun s h cpu _ => ⟨taskInitIdle_inv stackOf entry cpu h.1.1 h.1.2,
      taskInitIdle_idleInv stackOf entry cpu h.1.2 h.2⟩
  exact h.2

lemma idleInv_step {c c' : Config} {l : Label} (htab : TableInv c.sched) (h : IdleInv c.sched)
    (hstep : step c l = some c') : IdleInv c'.sched := by
  cases l with
  | startBsp lapicId =>
    obtain ⟨-, rfl⟩ := step_startBsp hstep
    exact h.start htab 0 lapicId
  | startAp lapicId =>
    obtain ⟨-, rfl⟩ := step_startAp hstep
    exact h.start htab (cpuIndex c.sched lapicId) lapicId
  | create affinity stack entry =>
    obtain ⟨idx, hc, -⟩ := step_create hstep
    exact h.create htab hc
  | sleep lapicId n =>
    obtain ⟨t, ht, rfl⟩ := Option.map_eq_some_iff.mp hstep
    have hact := acting_some ht
    rw [taskSleep_eq hact.1]
    refine h.update_slot (i := t) ?_ rfl rfl rfl
    exact fun cpu j hj => (htab.idle cpu j hj).ne_of_not_idle hact.2.2
  | exit lapicId =>
    obtain ⟨t, ht, rfl⟩ := Option.map_eq_some_iff.mp hstep
    have hact := acting_some ht
    rw [taskExit_eq hact.1]
    refine h.update_slot (i := t) ?_ rfl rfl rfl
    exact fun cpu j hj => (htab.idle cpu j hj).ne_of_not_idle hact.2.2
  | clock =>
    cases hstep
    exact h
  | tick =>
    cases hstep
    exact h.tick
  | isr lapicId rsp =>
    cases hstep
    exact h.isr htab lapicId rsp

lemma taskStart_idleIndex (s : Sched) (cpu lapicId : Nat) :
    (taskStart s cpu lapicId).idleIndex = s.idleIndex := by
  by_cases hpos : 0 ≤ s.idleIndex cpu
  · obtain ⟨i, hi⟩ := Int.eq_ofNat_of_zero_le hpos
    exact (taskStart_some lapicId hi).2.2
  · rw [taskStart_none hpos]
    rfl

lemma idleIndex_step {c c' : Config} {l : Label} (hstep : step c l = some c') :
    c'.sched.idleIndex = c.sched.idleIndex := by
  cases l with
  | startBsp lapicId =>
    obtain ⟨-, rfl⟩ := step_startBsp hstep
    exact taskStart_idleIndex c.sched 0 lapicId
  | startAp lapicId =>
    obtain ⟨-, rfl⟩ := step_startAp hstep
    exact taskStart_idleIndex c.sched (cpuIndex c.sched lapicId) lapicId
  | create affinity stack entry =>
    obtain ⟨idx, hc, -⟩ := step_create hstep
    cases idx with
    | none => rw [taskCreateAffinity_none hc]
    | some idx => exact (taskCreateAffinity_some hc).2.2.2.1
  | sleep lapicId n =>
    obtain ⟨t, ht, rfl⟩ := Option.map_eq_some_iff.mp hstep
    rw [taskSleep_eq (acting_some ht).1]
    rfl
  | exit lapicId =>
    obtain ⟨t, ht, rfl⟩ := Option.map_eq_some_iff.mp hstep
    rw [taskExit_eq (acting_some ht).1]
    rfl
  | clock =>
    cases hstep
    rfl
  | tick =>
    cases hstep
    obtain ⟨tasks, hs⟩ := taskTick_eq c.sched
    rw [hs]
  | isr lapicId rsp =>
    cases hstep
    by_cases hact : c.sched.schedulerActive = true
    · exact (taskScheduleIsr_cases lapicId rsp hact).1
    · simp [taskScheduleIsr, hact]

/-- In every state that is reached from `task_init` by any steps of any CPUs, the idle task that it
created for a CPU is READY with `running_cpu` -1 or RUNNING as the current task of that CPU,
and the scan of a scheduler interrupt there finds a task. -/
theorem idle_task_waits {s : Sched} {cpuCount : Nat} {stackOf : Nat → Nat} {entry : Nat}
    {ls : List Label} {c : Config} (hrun : Run step (Config.init s cpuCount stackOf entry) ls c)
    {cpu i : Nat} (hidle : (taskInit s cpuCount stackOf entry).idleIndex cpu = (i : Int)) :
    (((c.sched.tasks i).state = .ready ∧ (c.sched.tasks i).runningCpu = -1) ∨
      ((c.sched.tasks i).state = .running ∧ c.sched.currentTask cpu = some i)) ∧
    ∀ rsp, (taskPickNext (interrupted c.sched cpu rsp) cpu).1 ≠ none := by
  have hend := hrun.invariant_along
    (fun c => TableInv c.sched ∧ IdleInv c.sched ∧
      c.sched.idleIndex = (taskInit s cpuCount stackOf entry).idleIndex)
    (fun c l c' hi _ hstep => ⟨tableInv_step hi.1 hstep, idleInv_step hi.1 hi.2.1 hstep,
      (idleIndex_step hstep).trans hi.2.2⟩)
    ⟨init_tableInv s cpuCount stackOf entry, init_idleInv s cpuCount stackOf entry, rfl⟩
    (Along.of_forall (fun _ _ => trivial) _ _)
  obtain ⟨htab, hinv, hidx⟩ := hend
  rw [← hidx] at hidle
  exact ⟨hinv cpu i hidle, fun rsp => hinv.pick_ne_none htab rsp hidle⟩

/-- One CPU after `task_init`, from zeroed static data. -/
def oneCpu : Sched :=
  { crowded with
    tasks := fun _ =>
      { state := .unused, rsp := 0, wakeTick := 0, stack := 0,
        cpuAffinity := 0, runningCpu := 0, isIdle := false } }

/-- The CPU has started and has gone through one scheduler interrupt. -/
theorem idle_task_waits_one_cpu :
    ∃ c, Run step (Config.init oneCpu 1 (fun _ => 0x100000) 0xFFFFFFFF80001000)
        [.startBsp 0, .isr 0 0x300000] c ∧
      ∀ rsp, (taskPickNext (interrupted c.sched 0 rsp) 0).1 ≠ none := by
  have hsome : (exec step (Config.init oneCpu 1 (fun _ => 0x100000) 0xFFFFFFFF80001000)
      [.startBsp 0, .isr 0 0x300000]).isSome = true := by decide +kernel
  obtain ⟨c, hc⟩ := Option.isSome_iff_exists.mp hsome
  have hrun := Run.of_exec hc
  have hidle : (taskInit oneCpu 1 (fun _ => 0x100000) 0xFFFFFFFF80001000).idleIndex 0 = ((0 : Nat) : Int) := by
    decide +kernel
  exact ⟨c, hrun, (idle_task_waits hrun hidle).2⟩

end FusionOS.Scheduler
