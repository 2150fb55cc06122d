import FusionOS.Apps.ShellPath
import FusionOS.Fat.Steady
import FusionOS.Lib.Run

/-!
# The directory of the shell

`cd` makes an absolute path of its argument in a buffer of 256 bytes, asks `fs_stat` whether that is a
directory, and keeps 127 bytes of it. A session is a sequence of `cd` commands; the file system is only
read in it.
-/

namespace FusionOS.Shell

open Fat

/-- `checked` is the path that the last successful `cd` has asked `fs_stat` about. -/
structure CdState where
  fs : Fs
  cwd : CString
  checked : CString

/-- What `shell_init` leaves. -/
def CdState.init (fs : Fs) : CdState := ⟨fs, rootPath, rootPath⟩

/-- The path in `resolved`; without an argument it is the root. -/
def CdState.resolved (s : CdState) (arg : Option CString) : CString :=
  resolvePath s.cwd (arg.getD rootPath) 256

/-- The command `cd`; `none` where `fs_stat` does not return. -/
def CdState.cd (s : CdState) (arg : Option CString) : Option CdState :=
  match fsStat s.fs (s.resolved arg) with
  | none => none
  | some (some st, fs) =>
    if st.isDir then some ⟨fs, strCopyLimit (s.resolved arg) 128, s.resolved arg⟩
    else some { s with fs := fs }
  | some (none, fs) => some { s with fs := fs }

/-- The directory of the shell exists, and it is the one that was checked. -/
def CdState.NamesChecked (s : CdState) : Prop :=
  ∃ c, dirAt s.fs s.cwd = some c ∧ dirAt s.fs s.checked = some c

/-- Behind the command the shell is in the directory that was checked. -/
def CdState.StaysNamed (s : CdState) (arg : Option CString) : Prop := ∀ t, s.cd arg = some t → t.NamesChecked

/-- A path that `fs_stat` calls a directory fits `cwd`, or the bytes that fit name the same directory. -/
def CdState.Fits (s : CdState) (arg : Option CString) : Prop :=
  ∀ e fs, fsStat s.fs (s.resolved arg) = some (some e, fs) → e.isDir = true →
    (s.resolved arg).length < 128 ∨ dirAt s.fs ((s.resolved arg).take 127) = dirAt s.fs (s.resolved arg)

lemma CdState.cd_cases {s t : CdState} {arg : Option CString} (h : s.cd arg = some t) :
    Quiet s.fs t.fs ∧
      ((∃ e, fsStat s.fs (s.resolved arg) = some (some e, t.fs) ∧ e.isDir = true ∧
          t.cwd = (s.resolved arg).take 127 ∧ t.checked = s.resolved arg) ∨
        t.cwd = s.cwd ∧ t.checked = s.checked) := by
  unfold CdState.cd at h
  split at h
  · cases h
  · rename_i e fs hstat
    have hq := fsStat_quiet hstat
    split at h
    · rename_i hdir
      cases h
      exact ⟨hq, .inl ⟨e, hstat, hdir, rfl, rfl⟩⟩
    · cases h
      exact ⟨hq, .inr ⟨rfl, rfl⟩⟩
  · rename_i fs hstat
    cases h
    exact ⟨fsStat_quiet hstat, .inr ⟨rfl, rfl⟩⟩

lemma CdState.staysNamed_iff {s : CdState} (hs : s.NamesChecked) (arg : Option CString) :
    s.StaysNamed arg ↔ s.Fits arg := by
  constructor
  · intro h e fs hstat hdir
    have hcd : s.cd arg = some ⟨fs, strCopyLimit (s.resolved arg) 128, s.resolved arg⟩ := by
      unfold CdState.cd
      rw [hstat]
      exact if_pos hdir
    obtain ⟨c, hcwd, hchecked⟩ := h _ hcd
    rw [(fsStat_quiet hstat).dirAt] at hcwd hchecked
    exact .inr (hcwd.trans hchecked.symm)
  · intro h t hcd
    obtain ⟨hq, ⟨e, hstat, hdir, hcwd, hchecked⟩ | ⟨hcwd, hchecked⟩⟩ := CdState.cd_cases hcd
    · obtain ⟨c, hc⟩ := fsStat_dirAt hstat hdir
      have hkept : dirAt s.fs ((s.resolved arg).take 127) = some c := by
        rcases h e t.fs hstat hdir with hshort | hsame
        · rwa [List.take_of_length_le (Nat.le_of_lt_succ hshort)]
        · rwa [hsame]
      refine ⟨c, ?_, ?_⟩
      · rwa [hq.dirAt, hcwd]
      · rwa [hq.dirAt, hchecked]
    · obtain ⟨c, hc⟩ := hs
      refine ⟨c, ?_, ?_⟩
      · rw [hq.dirAt, hcwd]
        exact hc.1
      · rw [hq.dirAt, hchecked]
        exact hc.2

/-- Through every session the shell is in the directory that its last successful `cd` has checked,
exactly where every path that becomes its directory fits the 127 bytes that are kept, or loses nothing
that matters to them. -/
theorem cwd_named_iff (fs : Fs) (args : List (Option CString)) :
    (CdState.init fs).NamesChecked ∧
      (Along CdState.cd CdState.StaysNamed (CdState.init fs) args ↔
        Along CdState.cd CdState.Fits (CdState.init fs) args) := by
  have hinit : (CdState.init fs).NamesChecked := ⟨fs.vol.rootCluster, if_pos rfl, if_pos rfl⟩
  refine ⟨hinit, ?_⟩
  apply Along.iff_of_invariant CdState.NamesChecked
  · intro s arg t _ _ hstays hcd
    exact hstays t hcd
  · intro s arg hs _
    exact CdState.staysNamed_iff hs arg
  · exact hinit
  · exact Along.of_forall (fun _ _ => trivial) _ _

/-! ## A volume with 16 directories below each other -/

/-- Each directory has one directory ABCDEFG in it. -/
def deepFs : Fs :=
  { smallFs [] [] with
    vol := { smallVolume with totalSectors := 34, totalClusters := 32 }
    disk := fun lba =>
      if lba = 1 then fun _ => 0xFF
      else if lba < 18 then
        splice (fun _ => 0) 0 (slotOf [0x41, 0x42, 0x43, 0x44, 0x45, 0x46, 0x47] 0x10 (lba + 1) 0)
      else fun _ => 0 }

/-- The path of 128 bytes to the last one. -/
def deepPath : CString :=
  (List.replicate 16 [0x2F, 0x41, 0x42, 0x43, 0x44, 0x45, 0x46, 0x47]).flatten

/-- Of the path the shell keeps all but the last letter, and there is no directory ABCDEF. -/
theorem not_cwd_named_deep :
    ((CdState.init deepFs).cd (some deepPath)).map (fun t => (t.checked, dirAt t.fs t.checked)) =
      some (deepPath, some 18) ∧
    ((CdState.init deepFs).cd (some deepPath)).map (fun t => (t.cwd, dirAt t.fs t.cwd)) =
      some (deepPath.take 127, none) := by
  constructor
  · decide +kernel
  · decide +kernel

end FusionOS.Shell
