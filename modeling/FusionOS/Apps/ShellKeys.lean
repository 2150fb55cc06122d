import FusionOS.Drivers.Keyboard
import FusionOS.Lib.Mem
import FusionOS.Lib.Run

/-!
# The command line of the shell

`shell_handle_key` edits the line in `cmd`, completes it, takes it from the history and executes it. The
history keeps the first ten lines. `shell_init` does not write `cmd`, which holds what was there before;
a closed terminal leaves its last line behind.
-/

namespace FusionOS.Shell

open Input
open List
open Function (update update_apply update_of_ne update_self)

/-! ## The source -/

def ascii (s : String) : List UInt8 := s.toList.map fun c => UInt8.ofNat c.toNat

def shellCommands : List (List UInt8) :=
  ["help", "clear", "cls", "echo", "uname", "version", "whoami", "meminfo", "mem", "heapinfo", "malloc",
    "uptime", "time", "date", "ticks", "cpuinfo", "color", "copy", "paste", "netinfo", "ip", "ls", "dir",
    "pwd", "cd", "cat", "type", "write", "append", "touch", "truncate", "mkdir", "rmdir", "cp", "mv", "rm",
    "del", "rename", "stat", "exists", "size", "wc", "head", "tail", "hexdump", "hex", "sum", "cmp", "grep",
    "lower", "upper", "reverse", "len", "repeat", "sleep", "rand", "ascii", "basename", "dirname",
    "history", "reboot", "halt", "exit"].map ascii

/-- The fields of `shell_t` that the line depends on. A line of the history is the string in its buffer. -/
structure ShellState where
  cmd : Mem
  cmdLen : Nat
  history : Nat → List UInt8
  historyCount : Nat
  historyIndex : Int
  exitRequested : Bool

/-- `shell_init`, in memory that holds `old`. -/
def shellInit (old : ShellState) : ShellState :=
  { old with cmdLen := 0, historyCount := 0, historyIndex := 0, exitRequested := false }

/-- A loop that appends bytes to the line as long as there are some and the line has room. -/
def fill (next : Nat → Option UInt8) : Nat → Mem → Nat → Mem × Nat
  | 0, cmd, len => (cmd, len)
  | room + 1, cmd, len =>
    match next len with
    | some c => fill next room (update cmd len c) (len + 1)
    | none => (cmd, len)

/-- The loop with the terminator behind it. -/
def ShellState.append (s : ShellState) (next : Nat → Option UInt8) : ShellState :=
  let r := fill next (255 - s.cmdLen) s.cmd s.cmdLen
  { s with cmd := update r.1 r.2 0, cmdLen := r.2 }

/-- `shell_set_command`. -/
def ShellState.setCommand (s : ShellState) (text : List UInt8) : ShellState :=
  ShellState.append { s with cmdLen := 0, cmd := update s.cmd 0 0 } fun i => text[i]?

/-- `strncmp` of a name with `n` bytes at `p` answers 0. -/
def nameMatches (m : Mem) : List UInt8 → Nat → Nat → Bool
  | _, _, 0 => true
  | [], p, _ + 1 => m p == 0
  | c :: cs, p, n + 1 => c == m p && nameMatches m cs (p + 1) n

/-- The loop that shortens `lcp_len` for one more name. -/
def commonLen : List UInt8 → List UInt8 → Nat → Nat
  | c :: cs, d :: ds, n + 1 => if c = d then commonLen cs ds n + 1 else 0
  | _, _, _ => 0

/-- A byte of a name. What follows its terminator is not known. -/
def charAt (behind : Nat → UInt8) (name : List UInt8) (i : Nat) : UInt8 :=
  if i < name.length then name.getD i 0 else if i = name.length then 0 else behind i

/-- `shell_autocomplete`. -/
def ShellState.autocomplete (behind : Nat → UInt8) (s : ShellState) : ShellState :=
  if 0x20 ∈ slice s.cmd 0 s.cmdLen then s
  else
    match shellCommands.filter fun name => nameMatches s.cmd name 0 s.cmdLen with
    | [] => s
    | [first] => s.append fun i => if charAt behind first i = 0 then none else some (charAt behind first i)
    | first :: names =>
      let lcpLen := names.foldl (fun n name => commonLen name first n) first.length
      if s.cmdLen < lcpLen then s.append fun i => if i < lcpLen then some (first.getD i 0) else none else s

/-- The loop of `execute_command` that cuts the line into arguments: where they start, and the line. -/
def cutArgs (m : Mem) : Nat → Nat → Nat → List Nat × Mem
  | 0, _, _ => ([], m)
  | fuel + 1, argc, p =>
    if m p ≠ 0 ∧ argc < 16 then
      if m p = 0x20 then cutArgs m fuel argc (p + 1)
      else
        let stop := p + ((slice m p 256).takeWhile fun c => c != 0 && c != 0x20).length
        if m stop = 0 then ([p], m)
        else
          let r := cutArgs (update m stop 0) fuel (argc + 1) (stop + 1)
          (p :: r.1, r.2)
    else ([], m)

/-- What `execute_command` does to these fields; `none` for the commands that do not return. The other
commands leave them alone. -/
def ShellState.execute (s : ShellState) : Option ShellState :=
  let r := cutArgs s.cmd 257 0 0
  let s := { s with cmd := r.2 }
  match r.1 with
  | [] => some s
  | p :: _ =>
    let name := (slice s.cmd p 256).takeWhile (· != 0)
    if name = ascii "reboot" ∨ name = ascii "halt" then none
    else if name = ascii "exit" then some { s with exitRequested := true }
    else some s

/-- The line as a string. -/
def ShellState.line (s : ShellState) : List UInt8 := (slice s.cmd 0 s.cmdLen).takeWhile (· != 0)

/-- The case of the enter key up to the execution: the line is terminated and noted. -/
def ShellState.note (s : ShellState) : ShellState :=
  let s := { s with cmd := update s.cmd s.cmdLen 0 }
  let s := if 0 < s.cmdLen ∧ s.historyCount < 10 then
      { s with history := update s.history s.historyCount s.line, historyCount := s.historyCount + 1 }
    else s
  { s with historyIndex := s.historyCount }

/-- The case of the enter key. -/
def ShellState.enter (s : ShellState) : Option ShellState :=
  s.note.execute.map fun s =>
    if s.exitRequested then s else { s with cmdLen := 0, cmd := update s.cmd 0 0 }

/-- `shell_handle_key`; `none` where a command does not return. -/
def ShellState.handleKey (behind : Nat → UInt8) (s : ShellState) (event : KeyEvent) : Option ShellState :=
  if event.pressed = false then some s
  else if event.ascii = 0x09 then some (s.autocomplete behind)
  else
    match event.keycode with
    | .up =>
      if 0 < s.historyCount ∧ 0 < s.historyIndex then
        let s := { s with historyIndex := s.historyIndex - 1 }
        some (s.setCommand (s.history s.historyIndex.toNat))
      else some s
    | .down =>
      if s.historyIndex + 1 < s.historyCount then
        let s := { s with historyIndex := s.historyIndex + 1 }
        some (s.setCommand (s.history s.historyIndex.toNat))
      else some s
    | .backspace =>
      if 0 < s.cmdLen then
        some { s with cmdLen := s.cmdLen - 1, cmd := update s.cmd (s.cmdLen - 1) 0 }
      else some s
    | .enter => s.enter
    | _ =>
      if event.ascii ≠ 0 ∧ s.cmdLen < 255 then
        some { s with
          cmd := update (update s.cmd s.cmdLen event.ascii) (s.cmdLen + 1) 0
          cmdLen := s.cmdLen + 1 }
      else some s

/-! ## One key -/

/-- What a key can do. -/
inductive KeyStep (s : ShellState) : ShellState → Prop where
  | same : KeyStep s s
  | complete (next : Nat → Option UInt8) : KeyStep s (s.append next)
  | recalled (i : Nat) : i < s.historyCount →
      KeyStep s (ShellState.setCommand { s with historyIndex := i } (s.history i))
  | erase : 0 < s.cmdLen →
      KeyStep s { s with cmdLen := s.cmdLen - 1, cmd := update s.cmd (s.cmdLen - 1) 0 }
  | enter {t : ShellState} : s.enter = some t → KeyStep s t
  | type (c : UInt8) : s.cmdLen < 255 →
      KeyStep s { s with
        cmd := update (update s.cmd s.cmdLen c) (s.cmdLen + 1) 0, cmdLen := s.cmdLen + 1 }

structure Bounded (s : ShellState) : Prop where
  cmdLen : s.cmdLen < 256
  index_nonneg : 0 ≤ s.historyIndex
  index_le : s.historyIndex ≤ s.historyCount
  count : s.historyCount ≤ 10
  lines : ∀ i < s.historyCount, (s.history i).length < 256

def Terminated (s : ShellState) : Prop := s.cmd s.cmdLen = 0

section Key
variable {s t : ShellState} {behind : Nat → UInt8} {event : KeyEvent}

lemma autocomplete_step : KeyStep s (s.autocomplete behind) := by
  unfold ShellState.autocomplete
  split
  · exact .same
  split
  · exact .same
  · exact .complete _
  · dsimp only
    split
    · exact .complete _
    · exact .same

lemma handleKey_step (hs : Bounded s) (h : s.handleKey behind event = some t) : KeyStep s t := by
  have hlow := hs.index_nonneg
  have hhigh := hs.index_le
  unfold ShellState.handleKey at h
  split at h
  · cases h
    exact .same
  split at h
  · cases h
    exact autocomplete_step
  split at h
  · split at h
    · have hpred : 0 ≤ s.historyIndex - 1 := by omega
      obtain ⟨i, hi⟩ := Int.eq_ofNat_of_zero_le hpred
      cases h
      rw [hi]
      exact .recalled i (by omega)
    · cases h
      exact .same
  · split at h
    · obtain ⟨i, hi⟩ := Int.eq_ofNat_of_zero_le (Int.le_add_one hlow)
      cases h
      rw [hi]
      exact .recalled i (by omega)
    · cases h
      exact .same
  · split at h
    · rename_i hpos
      cases h
      exact .erase hpos
    · cases h
      exact .same
  · exact .enter h
  · split at h
    · rename_i hroom
      cases h
      exact .type _ hroom.2
    · cases h
      exact .same

lemma fill_length_le (next : Nat → Option UInt8) (room : Nat) (cmd : Mem) (len : Nat) :
    (fill next room cmd len).2 ≤ len + room := by
  induction room generalizing cmd len with
  | zero => exact Nat.le_refl _
  | succ room ih =>
    rw [fill]
    split
    · exact (ih _ _).trans (by omega)
    · exact Nat.le_add_right _ _

lemma append_length_lt (h : s.cmdLen < 256) (next : Nat → Option UInt8) : (s.append next).cmdLen < 256 := by
  have := fill_length_le next (255 - s.cmdLen) s.cmd s.cmdLen
  unfold ShellState.append
  dsimp only
  omega

lemma append_terminated (next : Nat → Option UInt8) : Terminated (s.append next) :=
  update_self _ _ _

lemma cutArgs_zero {m : Mem} {i : Nat} (h : m i = 0) (fuel argc p : Nat) :
    (cutArgs m fuel argc p).2 i = 0 := by
  induction fuel generalizing m argc p with
  | zero => exact h
  | succ fuel ih =>
    unfold cutArgs
    split
    · split
      · exact ih h _ _
      · dsimp only
        split
        · exact h
        · apply ih
          rw [update_apply]
          split
          · rfl
          · exact h
    · exact h

lemma execute_eq (h : s.execute = some t) :
    t = { s with cmd := t.cmd, exitRequested := t.exitRequested } ∧ ∀ i, s.cmd i = 0 → t.cmd i = 0 := by
  have hcut : ∀ i, s.cmd i = 0 → (cutArgs s.cmd 257 0 0).2 i = 0 := fun i hi => cutArgs_zero hi 257 0 0
  unfold ShellState.execute at h
  dsimp only at h
  split at h
  · cases h
    exact ⟨rfl, hcut⟩
  · split at h
    · cases h
    · split at h
      · cases h
        exact ⟨rfl, hcut⟩
      · cases h
        exact ⟨rfl, hcut⟩

lemma note_of_room (h : 0 < s.cmdLen ∧ s.historyCount < 10) :
    s.note = { s with
      cmd := update s.cmd s.cmdLen 0
      history := update s.history s.historyCount s.line
      historyCount := s.historyCount + 1
      historyIndex := (s.historyCount + 1 : Nat) } := by
  have hslice : slice (update s.cmd s.cmdLen 0) 0 s.cmdLen = slice s.cmd 0 s.cmdLen :=
    slice_congr _ _ fun i _ hi => update_of_ne (by omega) _ _
  have hline : ShellState.line { s with cmd := update s.cmd s.cmdLen 0 } = s.line :=
    congrArg (List.takeWhile (· != 0)) hslice
  unfold ShellState.note
  dsimp only
  rw [if_pos h, hline]

lemma note_of_full (h : ¬(0 < s.cmdLen ∧ s.historyCount < 10)) :
    s.note = { s with cmd := update s.cmd s.cmdLen 0, historyIndex := s.historyCount } := by
  unfold ShellState.note
  dsimp only
  rw [if_neg h]

lemma enter_eq (h : s.enter = some t) :
    t.history = s.note.history ∧ t.historyCount = s.note.historyCount ∧
      t.historyIndex = s.note.historyCount ∧ t.cmdLen ≤ s.cmdLen ∧ Terminated t := by
  have hnote : s.note.cmdLen = s.cmdLen ∧ s.note.cmd s.cmdLen = 0 := by
    by_cases hroom : 0 < s.cmdLen ∧ s.historyCount < 10
    · rw [note_of_room hroom]
      exact ⟨rfl, update_self _ _ _⟩
    · rw [note_of_full hroom]
      exact ⟨rfl, update_self _ _ _⟩
  have hindex : s.note.historyIndex = s.note.historyCount := rfl
  obtain ⟨v, hv, rfl⟩ := Option.map_eq_some_iff.mp h
  obtain ⟨hsame, hzero⟩ := execute_eq hv
  rw [hsame]
  split
  · refine ⟨rfl, rfl, hindex, hnote.1.le, ?_⟩
    rw [hnote.1]
    exact hzero _ hnote.2
  · exact ⟨rfl, rfl, hindex, Nat.zero_le _, update_self 0 0 v.cmd⟩

end Key

section Step
variable {s t : ShellState}

lemma line_length_le (s : ShellState) : s.line.length ≤ s.cmdLen := by
  have := ( List.takeWhile_prefix (l := slice s.cmd 0 s.cmdLen) (· != 0)).length_le
  rwa [slice_length] at this

lemma note_bounded (hs : Bounded s) : Bounded s.note := by
  by_cases hroom : 0 < s.cmdLen ∧ s.historyCount < 10
  · rw [note_of_room hroom]
    refine ⟨hs.cmdLen, Int.natCast_nonneg _, Int.le_refl _, hroom.2, fun i hi => ?_⟩
    dsimp only at hi ⊢
    by_cases hlast : i = s.historyCount
    · rw [hlast, update_self]
      exact Nat.lt_of_le_of_lt (line_length_le s) hs.cmdLen
    · rw [update_of_ne hlast]
      exact hs.lines i (by omega)
  · rw [note_of_full hroom]
    exact { hs with index_nonneg := Int.natCast_nonneg _, index_le := Int.le_refl _ }

lemma KeyStep.bounded (hs : Bounded s) (h : KeyStep s t) : Bounded t := by
  cases h with
  | same => exact hs
  | complete next => exact { hs with cmdLen := append_length_lt hs.cmdLen next }
  | recalled i hi =>
    refine ⟨append_length_lt (Nat.zero_lt_succ 255) _, Int.natCast_nonneg i, ?_, hs.count, hs.lines⟩
    exact Int.ofNat_le.mpr (Nat.le_of_lt hi)
  | erase => exact { hs with cmdLen := Nat.lt_of_le_of_lt (Nat.sub_le _ _) hs.cmdLen }
  | type c hroom => exact { hs with cmdLen := Nat.succ_lt_succ hroom }
  | enter h =>
    have hnote := note_bounded hs
    obtain ⟨hhistory, hcount, hindex, hlen, -⟩ := enter_eq h
    rw [← hcount] at hindex
    refine ⟨Nat.lt_of_le_of_lt hlen hs.cmdLen, by omega, hindex.le, hcount ▸ hnote.count, ?_⟩
    rw [hcount, hhistory]
    exact hnote.lines

lemma KeyStep.terminated (hs : Terminated s) (h : KeyStep s t) : Terminated t := by
  cases h with
  | same => exact hs
  | complete next => exact append_terminated next
  | recalled i => exact append_terminated _
  | erase => exact update_self _ _ _
  | type c => exact update_self _ _ _
  | enter h => exact (enter_eq h).2.2.2.2

end Step

/-! ## The line from the history -/

lemma fill_line {text rest written : List UInt8} {room : Nat} {cmd : Mem} (hline : written ++ rest = text)
    (hroom : rest.length ≤ room) (hcmd : BytesAt cmd 0 written) :
    (fill (fun i => text[i]?) room cmd written.length).2 = text.length ∧
      BytesAt (fill (fun i => text[i]?) room cmd written.length).1 0 text := by
  induction rest generalizing written room cmd with
  | nil =>
    rw [append_nil] at hline
    subst hline
    cases room with
    | zero => exact ⟨rfl, hcmd⟩
    | succ room =>
      have hend : written[written.length]? = none := List.getElem?_eq_none (Nat.le_refl _)
      simp only [fill, hend]
      exact ⟨trivial, hcmd⟩
  | cons c rest ih =>
    cases room with
    | zero => cases hroom
    | succ room =>
      have hnext : text[written.length]? = some c := by
        rw [← hline, List.getElem?_append_right (Nat.le_refl _), Nat.sub_self]
        rfl
      have hsnoc := hcmd.snoc c
      rw [Nat.zero_add] at hsnoc
      have := ih ((append_assoc _ _ _).trans hline) (Nat.le_of_succ_le_succ hroom) hsnoc
      rw [length_append] at this
      simp only [fill, hnext]
      exact this

lemma setCommand_line (s : ShellState) {line : List UInt8} (h : line.length < 256) :
    slice (s.setCommand line).cmd 0 (s.setCommand line).cmdLen = line := by
  have hfit : line.length ≤ 255 := Nat.le_of_lt_succ h
  have hempty : BytesAt (update s.cmd 0 0) 0 [] := trivial
  obtain ⟨hlen, hbytes⟩ := fill_line (nil_append line) hfit hempty
  have hcmdLen : (s.setCommand line).cmdLen = line.length := hlen
  have hne : ∀ j < line.length, 0 + j ≠ (s.setCommand line).cmdLen := by omega
  have hcmd : BytesAt (s.setCommand line).cmd 0 line :=
    hbytes.congr fun j hj => update_of_ne (hne j hj) _ _
  rw [hcmdLen]
  exact hcmd.slice_eq

/-! ## A session -/

section Session
variable {old s t u : ShellState} {behind : Nat → UInt8} {events : List KeyEvent} {event : KeyEvent}

lemma shellInit_bounded (old : ShellState) : Bounded (shellInit old) :=
  ⟨Nat.zero_lt_succ _, Int.le_refl 0, Int.le_refl 0, Nat.zero_le _, fun i hi => absurd hi (Nat.not_lt_zero i)⟩

lemma session_bounded (hrun : Run (ShellState.handleKey behind) (shellInit old) events s) : Bounded s :=
  hrun.invariant_along Bounded (fun _ _ _ hs _ h => (handleKey_step hs h).bounded hs) (shellInit_bounded old)
    (Along.of_forall (fun _ _ => trivial) _ _)

lemma session_terminated (hrun : Run (ShellState.handleKey behind) (shellInit old) events s)
    (hold : old.cmd 0 = 0) : Terminated s := by
  have hinit : Bounded (shellInit old) ∧ Terminated (shellInit old) := ⟨shellInit_bounded old, hold⟩
  refine (hrun.invariant_along (fun s => Bounded s ∧ Terminated s) ?_ hinit
    (Along.of_forall (fun _ _ => trivial) _ _)).2
  intro s event t hs _ h
  have hstep := handleKey_step hs.1 h
  exact ⟨hstep.bounded hs.1, hstep.terminated hs.2⟩

/-- The event is the press of a key without the tab character. -/
def Presses (event : KeyEvent) (key : Keycode) : Prop :=
  event.pressed = true ∧ event.ascii ≠ 0x09 ∧ event.keycode = key

lemma handleKey_enter (h : Presses event .enter) : s.handleKey behind event = s.enter := by
  obtain ⟨hpressed, hascii, hkey⟩ := h
  simp [ShellState.handleKey, hpressed, hascii, hkey]

lemma handleKey_up (h : Presses event .up) {n : Nat} (hcount : 0 < s.historyCount)
    (hindex : s.historyIndex = (n + 1 : Nat)) :
    s.handleKey behind event =
      some (ShellState.setCommand { s with historyIndex := n } (s.history n)) := by
  obtain ⟨hpressed, hascii, hkey⟩ := h
  have hpos : 0 < s.historyIndex := by omega
  have hpred : s.historyIndex - 1 = n := by omega
  simp [ShellState.handleKey, hpressed, hascii, hkey, hcount, hpos, hpred]

lemma recall_iff (hs : Bounded s) (hlen : 0 < s.cmdLen) {enter up : KeyEvent} (henter : Presses enter .enter)
    (hup : Presses up .up) (ht : s.handleKey behind enter = some t) (hu : t.handleKey behind up = some u) :
    (slice u.cmd 0 u.cmdLen = s.line ∧ Terminated u) ↔ s.historyCount < 10 ∨ s.history 9 = s.line := by
  rw [handleKey_enter henter] at ht
  obtain ⟨hhistory, hcount, hindex, -, -⟩ := enter_eq ht
  have hbt : Bounded t := (KeyStep.enter ht).bounded hs
  by_cases hroom : s.historyCount < 10
  · rw [note_of_room ⟨hlen, hroom⟩] at hhistory hcount hindex
    dsimp only at hhistory hcount hindex
    rw [handleKey_up hup (by omega) hindex] at hu
    cases hu
    have hline : t.history s.historyCount = s.line := by rw [hhistory]; exact update_self _ _ _
    rw [setCommand_line _ (hbt.lines _ (by omega)), hline]
    exact iff_of_true ⟨rfl, append_terminated _⟩ (.inl hroom)
  · have hfull : s.historyCount = 10 := Nat.le_antisymm hs.count (Nat.le_of_not_lt hroom)
    rw [note_of_full fun h => hroom h.2] at hhistory hcount hindex
    rw [hfull] at hcount hindex
    rw [handleKey_up hup (by omega) hindex] at hu
    cases hu
    rw [setCommand_line _ (hbt.lines _ (by omega)), hhistory]
    exact ⟨fun h => .inr h.1, fun h => ⟨h.resolve_left hroom, append_terminated _⟩⟩

end Session

/-- Whatever the keys, the line and the history stay in their bounds. The line is terminated between the
keys if and only if it was so in the memory that the shell started in, and up right behind enter brings
back the line that was executed as long as the history has room or already ends with that line. -/
theorem shell_keys_iff (old : ShellState) (behind : Nat → UInt8) :
    (∀ events s, Run (ShellState.handleKey behind) (shellInit old) events s →
      s.cmdLen < 256 ∧ 0 ≤ s.historyIndex ∧ s.historyIndex ≤ s.historyCount ∧ s.historyCount ≤ 10) ∧
    ((∀ events s, Run (ShellState.handleKey behind) (shellInit old) events s → Terminated s) ↔
      old.cmd 0 = 0) ∧
    ∀ events s t u enter up, Run (ShellState.handleKey behind) (shellInit old) events s → 0 < s.cmdLen →
      Presses enter .enter → Presses up .up →
      s.handleKey behind enter = some t → t.handleKey behind up = some u →
      ((slice u.cmd 0 u.cmdLen = s.line ∧ Terminated u) ↔ s.historyCount < 10 ∨ s.history 9 = s.line) := by
  refine ⟨fun events s hrun => ?_, ⟨fun h => ?_, fun hold events s hrun => ?_⟩, ?_⟩
  · have hs := session_bounded hrun
    exact ⟨hs.cmdLen, hs.index_nonneg, hs.index_le, hs.count⟩
  · exact h [] _ (.nil _)
  · exact session_terminated hrun hold
  · intro events s t u enter up hrun hlen henter hup ht hu
    exact recall_iff (session_bounded hrun) hlen henter hup ht hu

/-- Memory of zeros. -/
def blank : ShellState := ⟨fun _ => 0, 0, fun _ => [], 0, 0, false⟩

/-- A character typed, and enter. -/
def typed (c : UInt8) : List KeyEvent := [⟨true, c, .none⟩, ⟨true, 0x0A, .enter⟩]

/-- The keys of ten lines. -/
def tenLines : List KeyEvent := (List.replicate 10 (typed 0x61)).flatten

/-- The eleventh line is executed but not noted: up brings back the tenth. A terminal opened in the memory
of one that was left by `exit` starts with a line that is not terminated. -/
theorem not_shell_keys_eleventh :
    (exec (ShellState.handleKey fun _ => 0) (shellInit blank) (tenLines ++ [⟨true, 0x62, .none⟩])).map
        ShellState.line = some [0x62] ∧
      (exec (ShellState.handleKey fun _ => 0) (shellInit blank)
        (tenLines ++ typed 0x62 ++ [⟨true, 0, .up⟩])).map (fun u => slice u.cmd 0 u.cmdLen) = some [0x61] ∧
      (exec (ShellState.handleKey fun _ => 0) (shellInit blank)
        ((ascii "exit").map (fun c => ⟨true, c, .none⟩) ++ [⟨true, 0x0A, .enter⟩])).map
          (fun old => (shellInit old).cmd (shellInit old).cmdLen) = some 0x65 := by
  refine ⟨?_, ?_, ?_⟩
  all_goals decide +kernel

end FusionOS.Shell
