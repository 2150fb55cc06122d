import FusionOS.Fat.Buffer
import FusionOS.Fat.Zones

/-!
# The operations stay in their regions

Every operation of `fs.c` that writes goes through directories and files in their zones.
-/

namespace FusionOS.Fat

open Function (update update_apply update_of_ne update_self)

/-! ## The chains of files -/

section Files
variable {st st' : Fs} {D F : Nat → Prop}

variable {b : Bool} {c : Nat}

lemma fatFreeChain_zone {Z : Nat → Prop} (hr : Ready st) (hZ : ∀ c, Z c → st.vol.IsCluster c)
    (hlink : ∀ c, Z c → LeadsTo Z (st.fat c)) (hc : Z c) :
    ∃ st', fatFreeChain st c = some (true, st') ∧ Held st st' ∧ st'.data = st.data ∧
      ∀ x, st'.fat x = st.fat x ∨ (Z x ∧ st'.fat x = 0) := by
  obtain ⟨hreach, st', hrun, hh, hdata, hfat⟩ := fatFreeChain_clears hr hZ
    (fun x hx hgo => hlink x hx hgo.1 hgo.2) hc
  refine ⟨st', hrun, hh, hdata, fun x => ?_⟩
  by_cases hx : st.Reached c x
  · exact .inr ⟨hreach x hx, (hfat x).1 hx⟩
  · exact .inl ((hfat x).2 hx)

lemma fatFreeChain_zoned (hz : Zoned st D F) (hc : F c) :
    ∃ st', fatFreeChain st c = some (true, st') ∧ Held st st' ∧ Zoned st' D F := by
  obtain ⟨st', hrun, hh, hdata, hfat⟩ := fatFreeChain_zone hz.ready hz.files hz.fileLink hc
  refine ⟨st', hrun, hh, hz.withLinks hh hdata (fun x hx => ?_) (fun x hx => ?_) fun x hx => ?_⟩
  · rcases hfat x with heq | ⟨hF, -⟩
    · exact heq
    · exact absurd hF (hz.apart x hx)
  · rcases hfat x with heq | ⟨-, heq⟩
    · rw [heq]
      exact hz.fileLink x hx
    · intro h2
      omega
  · apply (hz.fileEnds x hx).cut hh.vol
    intro y
    rcases hfat y with heq | ⟨-, heq⟩
    · exact .inl heq
    · right
      omega

lemma isCluster_lt (hz : Zoned st D F) (hc : F c) : c < 2 ^ 28 := by
  have := isCluster_guard hz.ready.geometry (hz.files c hc)
  unfold eoc at this
  omega

lemma fatSetEntry_files (hz : Zoned st D F) {value : Nat} (hc : F c) (hv : value < 2 ^ 28)
    (hlead : LeadsTo F value) (h : fatSetEntry st c value = (b, st'))
    (hends : Held st st' → st'.fat = update st.fat c value → ∀ x, F x → Ends st' x) :
    Held st st' ∧ Zoned st' D F ∧ st'.fat = update st.fat c value := by
  obtain ⟨hh, hfat, hdata⟩ := fatSetEntry_links hz.ready (hz.files c hc).2 hv h
  refine ⟨hh, hz.withLinks hh hdata (fun x hx => ?_) (fun x hx => ?_) (hends hh hfat), hfat⟩
  · rw [hfat, update_of_ne]
    rintro rfl
    exact hz.apart x hx hc
  · rw [hfat, update_apply]
    split
    · exact hlead
    · exact hz.fileLink x hx

lemma fatSetEntry_hooked (hz : Zoned st D F) {new : Nat} (hc : F c)
    (hend : ¬ (2 ≤ st.fat c ∧ st.fat c < eoc)) (hnew : F new)
    (hend' : ¬ (2 ≤ st.fat new ∧ st.fat new < eoc)) (hne : c ≠ new)
    (h : fatSetEntry st c new = (b, st')) :
    Held st st' ∧ Zoned st' D F ∧ st'.fat = update st.fat c new :=
  fatSetEntry_files hz hc (isCluster_lt hz hnew) (fun _ _ => hnew) h fun hh hfat x hx =>
    (hz.fileEnds x hx).hook hz.ready.geometry hh.vol hend (hz.files _ hnew) hend' hne hfat

lemma fatSetEntry_ended (hz : Zoned st D F) (hc : F c)
    (h : fatSetEntry st c 0x0FFFFFFF = (b, st')) :
    Held st st' ∧ Zoned st' D F ∧ st'.fat = update st.fat c 0x0FFFFFFF :=
  fatSetEntry_files hz hc (by decide) (fun _ he => absurd he (by decide)) h fun hh hfat x hx =>
    (hz.fileEnds x hx).cut hh.vol (cut_of_update hfat (by decide))

lemma fatAllocCluster_zoned (hz : Zoned st D F) {new : Nat}
    (h : fatAllocCluster st = (some new, st')) :
    Held st st' ∧ Zoned st' D (fun x => F x ∨ x = new) ∧
      st'.fat = update st.fat new 0x0FFFFFFF ∧ st.fat new = 0 := by
  obtain ⟨hcl, hfree, hfat, hdata, hh⟩ := fatAllocCluster_taken hz.ready h
  have hdir : ∀ c, D c → c ≠ new := by
    rintro c hc rfl
    have := hz.busy c hc
    omega
  have hcut := cut_of_update hfat (show ¬ (2 ≤ 0x0FFFFFFF ∧ 0x0FFFFFFF < eoc) by decide)
  refine ⟨hh, ⟨hh.ready hz.ready, ?_, ?_, ?_, ?_, ?_, ?_, ?_, ?_, ?_, ?_⟩, hfat, hfree⟩
  · rw [hh.vol]
    exact hz.root
  · rw [hh.vol]
    exact hz.dirs
  · rw [hh.vol]
    rintro x (hx | rfl)
    · exact hz.files x hx
    · exact hcl
  · rintro x hx (hF | hnew)
    · exact hz.apart x hx hF
    · exact hdir x hx hnew
  · intro x hx
    rw [hfat, update_of_ne (hdir x hx)]
    exact hz.dirLink x hx
  · intro x hx
    rw [hfat, update_apply]
    split
    · intro _ he
      unfold eoc at he
      omega
    · next hxn => exact (hz.fileLink x (hx.resolve_right hxn)).mono fun _ => .inl
  · intro x hx
    rw [hfat, update_of_ne (hdir x hx)]
    exact hz.busy x hx
  · rw [hh.vol, hdata]
    intro x i hx hi hent
    exact (hz.slots x i hx hi hent).mono (fun _ h => h) fun _ => .inl
  · intro x hx
    exact (hz.dirEnds x hx).cut hh.vol hcut
  · rintro x (hx | rfl)
    · exact (hz.fileEnds x hx).cut hh.vol hcut
    · refine ⟨[x], .last (by rw [hh.vol]; exact hcl) ?_⟩
      rw [hfat, update_self]
      decide

lemma extendLoop_zoned (n : Nat) (hz : Zoned st D F) {last : Nat} (hl : F last)
    (hend : eoc ≤ st.fat last) {r : Option Nat} (h : extendLoop n last st = (r, st')) :
    ∃ F', (∀ c, F c → F' c) ∧ Held st st' ∧ Zoned st' D F' ∧ ∀ c ∈ r, F' c := by
  induction n generalizing st F last with
  | zero =>
    cases h
    refine ⟨F, fun _ h => h, Held.refl _, hz, fun c hc => ?_⟩
    cases hc
    exact hl
  | succ n ih =>
    rw [extendLoop] at h
    split at h
    · next halloc =>
      cases h
      have hq := fatAllocCluster_full hz.ready halloc
      exact ⟨F, fun _ h => h, hq.held, hz.same hq, by simp⟩
    next new st1 halloc =>
    obtain ⟨hh1, hz1, hfat1, hfree⟩ := fatAllocCluster_zoned hz halloc
    have hne : last ≠ new := by
      rintro rfl
      rw [hfree] at hend
      exact absurd hend (by decide)
    have hlast1 : eoc ≤ st1.fat last := by
      rw [hfat1, update_of_ne hne]
      exact hend
    have hnew1 : eoc ≤ st1.fat new := by
      rw [hfat1, update_self]
      decide
    split at h
    next b st2 hset =>
    obtain ⟨hh2, hz2, hfat2⟩ := fatSetEntry_hooked hz1 (.inl hl) (by omega) (.inr rfl) (by omega)
      hne hset
    have hnew2 : eoc ≤ st2.fat new := by
      rw [hfat2, update_of_ne hne.symm]
      exact hnew1
    obtain ⟨F', hsub, hh3, hz3, hr⟩ := ih hz2 (.inr rfl) hnew2 h
    exact ⟨F', fun x hx => hsub x (.inl hx), hh1.trans (hh2.trans hh3), hz3, hr⟩

lemma writeChain_zoned (xs : List UInt8) (offset needSize fuel pos : Nat) {l : List Nat}
    (hz : Zoned st D F) (hl : Walk st.vol st.fat c l) (hF : ∀ x ∈ l, F x) (hf : l.length < fuel) :
    ∃ ok st', writeChain xs offset needSize fuel c pos st = some (ok, st') ∧ Held st st' ∧
      Zoned st' D F := by
  obtain ⟨st', hrun, hh, hfat, hother, -⟩ := writeChain_ok xs offset hz.ready hl needSize fuel pos hf
  refine ⟨true, st', hrun, hh, hz.withData hh hfat ?_⟩
  intro x i hx hi hent
  rw [hother x fun hm => hz.apart x hx (hF x hm)] at hent ⊢
  exact hz.slots x i hx hi hent

end Files

/-! ## Writing a file -/

section Writes
variable {st : Fs} {D F : Nat → Prop} {f : Found} {first : Nat}

lemma setFields_refers {e : Slot} (h32 : e.length = 32) (hlt : first < 2 ^ 32)
    (size : Nat) (h : first ≠ 0 → if direntIsDir e = true then D first else F first) :
    Refers D F (direntSetFileSize (direntSetFirstCluster e first) size) := by
  have halike : Alike e (direntSetFileSize (direntSetFirstCluster e first) size) :=
    take_setFields first size
  have hfirst : direntFirstCluster (direntSetFileSize (direntSetFirstCluster e first) size) = first := by
    rw [firstCluster_setFileSize (by simp [direntSetFirstCluster, h32]),
      firstCluster_setFirstCluster h32 hlt]
  unfold Refers
  rw [hfirst, halike.isDir]
  exact h

lemma updateFields_zoned (hz : Zoned st D F) (hf : Spot st.vol D F f)
    (hlt : first < 2 ^ 32) (size : Nat)
    (h : first ≠ 0 → if direntIsDir f.ent = true then D first else F first) :
    ∃ r st', fatUpdateDirent st f.cluster f.offset
        (direntSetFileSize (direntSetFirstCluster f.ent first) size) = (r, st') ∧
      Held st st' ∧ Zoned st' D F ∧ st'.fat = st.fat :=
  ⟨_, _, rfl, fatUpdateDirent_zoned hz hf.dir hf.place (by rw [setFields_length]; exact hf.length)
    (setFields_refers hf.length hlt size h)⟩

lemma writeData_zoned (hz : Zoned st D F) (hf : Spot st.vol D F f)
    (hfile : direntIsDir f.ent = false) (xs : List UInt8) (offset : Nat) {last : Nat}
    (hfirst : F first) (hlast : F last) :
    ∃ r st', writeData st f xs offset first last = some (r, st') ∧ Held st st' ∧ Zoned st' D F := by
  rw [writeData]
  cases hset : fatSetEntry st last 0x0FFFFFFF with
  | mk b st1 =>
    obtain ⟨hh1, hz1, -⟩ := fatSetEntry_ended hz hlast hset
    obtain ⟨l, hl⟩ := hz1.fileEnds first hfirst
    have hlen := hl.length_lt hz1.ready.geometry
    obtain ⟨ok, st2, hchain, hh2, hz2⟩ := writeChain_zoned xs offset (u32 (offset + xs.length))
      chainFuel 0 hz1 hl (hl.stays hz1.ready.geometry hfirst hz1.fileLink) (by omega)
    have hh2 := hh1.trans hh2
    dsimp only
    rw [hchain]
    cases ok with
    | false => exact ⟨_, _, rfl, hh2, hz2⟩
    | true =>
      have hlt := isCluster_lt hz hfirst
      obtain ⟨r, st3, hupd, hh3, hz3, -⟩ := updateFields_zoned hz2 (by rw [hh2.vol]; exact hf)
        (show first < 2 ^ 32 by omega) (u32 (offset + xs.length))
        (fun _ => by rw [if_neg (by rw [hfile]; exact Bool.false_ne_true)]; exact hfirst)
      dsimp only
      rw [hupd]
      exact ⟨r, st3, rfl, hh2.trans hh3, hz3⟩

lemma appendFile_zoned (hz : Zoned st D F) (ht : Tight st F) (hf : Spot st.vol D F f)
    (hfile : direntIsDir f.ent = false) (xs : List UInt8) {start : Nat} (needed : Nat)
    (hstart : F start) :
    ∃ r st', appendFile st f xs start needed = some (r, st') ∧ ∃ F', Held st st' ∧ Zoned st' D F' := by
  have hg := hz.ready.geometry
  obtain ⟨l, hl, hF⟩ := (hz.fileEnds start hstart).chain hg hstart hz.fileLink ht
  have hlen := FatChain.lt_fuel hl hg
  obtain ⟨st1, hlast, hq⟩ := lastLoop_ok hz.ready hl chainFuel hlen.le
  obtain ⟨st2, hcount, hq2⟩ := countLoop_ok (hq.ready hz.ready) (by rw [hq.vol, hq.fat]; exact hl)
    chainFuel 0 hlen
  have hs := hq.trans hq2
  rw [appendFile, hlast]
  dsimp only
  rw [hcount]
  dsimp only
  cases hext : extendLoop (needed - (0 + l.length)) (l.getLast hl.ne_nil) st2 with
  | mk x st3 =>
    obtain ⟨F', hsub, hh3, hz3, hlast3⟩ := extendLoop_zoned _ (hz.same hs)
      (hF _ (List.getLast_mem hl.ne_nil)) (by rw [hs.fat]; exact Chain.stop_getLast hl) hext
    have hh3 := hs.held.trans hh3
    cases x with
    | none => exact ⟨_, _, rfl, F', hh3, hz3⟩
    | some last' =>
      have hf3 : Spot st3.vol D F' f := by
        rw [hh3.vol]
        exact hf.mono (fun _ h => h) hsub
      obtain ⟨r, st4, hrun, hh4, hz4⟩ := writeData_zoned hz3 hf3 hfile xs (direntFileSize f.ent)
        (hsub _ hstart) (hlast3 _ rfl)
      exact ⟨r, st4, hrun, F', hh3.trans hh4, hz4⟩

lemma rewriteFile_zoned (hz : Zoned st D F) (hf : Spot st.vol D F f)
    (hfile : direntIsDir f.ent = false) (xs : List UInt8) (needed : Nat) :
    ∃ r st', rewriteFile st f xs needed = some (r, st') ∧ ∃ F', Held st st' ∧ Zoned st' D F' := by
  rw [rewriteFile]
  cases halloc : fatAllocCluster st with
  | mk x st1 =>
    cases x with
    | none =>
      have hq := fatAllocCluster_full hz.ready halloc
      exact ⟨_, _, rfl, F, hq.held, hz.same hq⟩
    | some first =>
      obtain ⟨hh1, hz1, hfat1, -⟩ := fatAllocCluster_zoned hz halloc
      have hend : eoc ≤ st1.fat first := by
        rw [hfat1, update_self]
        decide
      dsimp only
      cases hext : extendLoop needed first st1 with
      | mk x st2 =>
        obtain ⟨F', hsub, hh2, hz2, hlast⟩ := extendLoop_zoned needed hz1 (.inr rfl) hend hext
        have hh2 := hh1.trans hh2
        cases x with
        | none => exact ⟨_, _, rfl, F', hh2, hz2⟩
        | some last =>
          have hf2 : Spot st2.vol D F' f := by
            rw [hh2.vol]
            exact hf.mono (fun _ h => h) fun x hx => hsub x (.inl hx)
          obtain ⟨r, st3, hrun, hh3, hz3⟩ := writeData_zoned hz2 hf2 hfile xs 0 (hsub _ (.inr rfl))
            (hlast _ rfl)
          exact ⟨r, st3, hrun, F', hh2.trans hh3, hz3⟩

lemma fatWriteEntry_zoned (hz : Zoned st D F) (ht : Tight st F) (hf : Spot st.vol D F f)
    (xs : List UInt8) (append : Bool) :
    ∃ r st', fatWriteEntry st f xs append = some (r, st') ∧ ∃ F', Held st st' ∧ Zoned st' D F' := by
  cases hfile : direntIsDir f.ent with
  | true => exact ⟨_, _, fatWriteEntry_dir xs hfile append, F, Held.refl _, hz⟩
  | false =>
  have hstart : direntFirstCluster f.ent ≠ 0 → F (direntFirstCluster f.ent) :=
    hf.refers.file (Bool.eq_false_iff.mp hfile)
  have hempty : ∀ {st1 : Fs}, Held st st1 → Zoned st1 D F → ∃ r st',
      some (fatUpdateDirent st1 f.cluster f.offset (f.withFields 0 0)) = some (r, st') ∧
        ∃ F', Held st st' ∧ Zoned st' D F' := by
    intro st1 hh1 hz1
    obtain ⟨r, st2, hrun, hh2, hz2, -⟩ := updateFields_zoned hz1 (by rw [hh1.vol]; exact hf)
      (show 0 < 2 ^ 32 by decide) 0 fun h0 => absurd rfl h0
    exact ⟨r, st2, congrArg some hrun, F, hh1.trans hh2, hz2⟩
  by_cases hkeep : append = true ∧ direntFirstCluster f.ent ≠ 0
  · obtain ⟨rfl, hne⟩ := hkeep
    rw [fatWriteEntry_keep xs hfile hne]
    split
    · exact hempty (Held.refl st) hz
    · exact appendFile_zoned hz ht hf hfile xs _ (hstart hne)
  · rw [fatWriteEntry_rewrite xs hfile hkeep]
    obtain ⟨st1, hfree, hh1, hz1⟩ : ∃ st1, (if direntFirstCluster f.ent ≠ 0 then
        fatFreeChain st (direntFirstCluster f.ent) else some (true, st)) = some (true, st1) ∧
        Held st st1 ∧ Zoned st1 D F := by
      split
      · next h0 => exact fatFreeChain_zoned hz (hstart h0)
      · exact ⟨st, rfl, Held.refl st, hz⟩
    rw [hfree, Option.bind_some]
    split
    · exact hempty hh1 hz1
    · obtain ⟨r, st2, hrun, F', hh2, hz2⟩ := rewriteFile_zoned hz1 (by rw [hh1.vol]; exact hf) hfile xs
        (neededClusters st1.vol (u32 xs.length))
      exact ⟨r, st2, hrun, F', hh1.trans hh2, hz2⟩

lemma fatWriteFile_zoned (hz : Zoned st D F) (ht : Tight st F) {d : Nat} (hd : D d)
    (name : CString) (xs : List UInt8) (append : Bool) :
    ∃ r st', fatWriteFile st d name xs append = some (r, st') ∧
      ∃ D' F', Held st st' ∧ Zoned st' D' F' := by
  obtain ⟨found, st1, hfind, hq, hspot⟩ := fatFindEntry_zoned hz hd name
  have hz1 := hz.same hq
  have ht1 := ht.of_fat hq.fat
  rw [fatWriteFile, hfind]
  cases found with
  | some f =>
    obtain ⟨r, st2, hrun, F', hh2, hz2⟩ := fatWriteEntry_zoned hz1 ht1
      (by rw [hq.vol]; exact hspot f rfl) xs append
    exact ⟨r, st2, hrun, D, F', hq.held.trans hh2, hz2⟩
  | none =>
    obtain ⟨made, st2, hnew, D', -, hh2, hz2, ht2, hfresh⟩ := fatCreateEntry_zoned hz1 ht1 hd name 0x20
    dsimp only
    rw [hnew]
    cases made with
    | none => exact ⟨_, _, rfl, D', F, hq.held.trans hh2, hz2⟩
    | some g =>
      obtain ⟨r, st3, hrun, F', hh3, hz3⟩ := fatWriteEntry_zoned hz2 ht2
        (by rw [hh2.vol]; exact (hfresh g rfl).spot) xs append
      exact ⟨r, st3, hrun, D', F', (hq.held.trans hh2).trans hh3, hz3⟩

end Writes

/-! ## Reading a file -/

section Reads
variable {st st' : Fs} {D F : Nat → Prop}

lemma Zoned.heapOnly (hz : Zoned st D F) (h : HeapOnly st st') :
    Zoned st' D F := by
  obtain ⟨_, _, _, rfl⟩ := h
  exact ⟨⟨hz.ready.geometry, hz.ready.io⟩, hz.root, hz.dirs, hz.files, hz.apart, hz.dirLink,
    hz.fileLink, hz.busy, hz.slots, hz.dirEnds, hz.fileEnds⟩

lemma fatReadFile_heapOnly (hz : Zoned st D F) {d : Nat} (hd : D d) (name : CString)
    {r : Option (Nat × Nat)} (h : fatReadFile st d name = some (r, st')) : HeapOnly st st' := by
  obtain ⟨found, st1, hfind, hq, -⟩ := fatFindEntry_zoned hz hd name
  have hs := hq.heapOnly
  rw [fatReadFile, hfind] at h
  cases found with
  | none =>
    cases h
    exact hs
  | some f =>
  dsimp only at h
  split at h
  · cases h
    exact hs
  split at h
  · cases h
  next ptr heap halloc =>
  have hs2 := hs.setHeap heap
  split at h
  · cases h
    exact hs2
  split at h
  · cases h
  · next hchain =>
    cases h
    exact (hs2.trans (readChain_heapOnly _ _ _ hchain)).setHeap _
  · next hchain =>
    obtain ⟨heap', -, heq⟩ := Option.map_eq_some_iff.mp h
    cases heq
    exact (hs2.trans (readChain_heapOnly _ _ _ hchain)).setHeap heap'

lemma fatReadFile_returns (hz : Zoned st D F) (hheap : HeapOk st.heap) {d : Nat} (hd : D d)
    (name : CString) :
    ∃ r st', fatReadFile st d name = some (r, st') ∧
      ∀ ptr len, r = some (ptr, len) → ∃ h', Memory.free st'.heap ptr = some h' := by
  obtain ⟨found, st1, hfind, hq, -⟩ := fatFindEntry_zoned hz hd name
  have hspc : 0 < st1.vol.sectorsPerCluster := by
    rw [hq.vol]
    exact hz.ready.geometry.spc_pos
  have hheap1 : HeapOk st1.heap := by
    rw [hq.diskOnly.heap]
    exact hheap
  rcases fatReadFile_cases hspc hheap1 hfind with ⟨st', hrun⟩ | ⟨f, ptr, h1, st2, -, -, -, -, hrun, hfree⟩
  · exact ⟨_, _, hrun, fun _ _ h => by cases h⟩
  · refine ⟨_, _, hrun, fun ptr' len hr => ?_⟩
    cases hr
    exact hfree

lemma fsReadFile_heapOnly (hz : Zoned st D F) {path : CString} {x : Option (Nat × Nat)}
    (h : fsReadFile st path = some (x, st')) : HeapOnly st st' := by
  rw [fsReadFile] at h
  rcases withLeaf_zoned hz none path fatReadFile with ⟨st1, heq, hq⟩ | ⟨st1, dir, name, heq, hq, hdir⟩
  · rw [heq] at h
    cases h
    exact hq.heapOnly
  · rw [heq] at h
    exact hq.heapOnly.trans (fatReadFile_heapOnly (hz.same hq) hdir name h)

lemma fsReadFile_returns (hz : Zoned st D F) (hheap : HeapOk st.heap) (path : CString) :
    ∃ r st', fsReadFile st path = some (r, st') ∧
      ∀ ptr len, r = some (ptr, len) → ∃ h', Memory.free st'.heap ptr = some h' := by
  rw [fsReadFile]
  rcases withLeaf_zoned hz none path fatReadFile with ⟨st1, heq, -⟩ | ⟨st1, dir, name, heq, hq, hdir⟩
  · exact ⟨none, st1, heq, fun _ _ h => by cases h⟩
  · rw [heq]
    apply fatReadFile_returns (hz.same hq) _ hdir
    rw [hq.diskOnly.heap]
    exact hheap

end Reads

/-! ## The operations -/

structure Confined (st st' : Fs) : Prop where
  vol : st'.vol = st.vol
  mirrored : st.Mirrored → st'.Mirrored
  outside : ∀ lba, st.vol.Outside lba → st'.disk lba = st.disk lba

section Operations
variable {st st' : Fs} {D F : Nat → Prop} {f : Found}

lemma Held.confined (h : Held st st') : Confined st st' := ⟨h.vol, h.mirrored, h.outside⟩

lemma HeapOnly.confined (h : HeapOnly st st') : Confined st st' := by
  obtain ⟨_, _, _, rfl⟩ := h
  exact ⟨rfl, fun hm => hm, fun _ _ => rfl⟩

lemma Confined.trans {st1 : Fs} (h : Confined st st1) (h' : Confined st1 st') : Confined st st' := by
  refine ⟨h'.vol.trans h.vol, fun hm => h'.mirrored (h.mirrored hm), ?_⟩
  intro lba hout
  rw [h'.outside lba (by rw [h.vol]; exact hout), h.outside lba hout]

/-- There is a result if `A` holds, and a result meets `P`. -/
def Yields {α : Type} (A : Prop) (P : α → Fs → Prop) : Option (α × Fs) → Prop
  | none => ¬ A
  | some (r, st') => P r st'

lemma Yields.of_eq {α : Type} {A : Prop} {P : α → Fs → Prop} {x : Option (α × Fs)} {r : α}
    (h : x = some (r, st')) (hP : P r st') : Yields A P x := by
  rw [h]
  exact hP

lemma Yields.returns {α : Type} {A : Prop} {P : α → Fs → Prop} {x : Option (α × Fs)}
    (h : Yields A P x) (hA : A) : ∃ r st', x = some (r, st') := by
  cases x with
  | none => exact absurd hA h
  | some x => exact ⟨x.1, x.2, rfl⟩

lemma writeLeaf_zoned (hz : Zoned st D F) (ht : Tight st F) (path : CString) (xs : List UInt8)
    (append : Bool) :
    ∃ r st', withLeaf st false path (fun st dir name => fatWriteFile st dir name xs append) =
      some (r, st') ∧ ∃ D' F', Held st st' ∧ Zoned st' D' F' := by
  rcases withLeaf_zoned hz false path fun st dir name => fatWriteFile st dir name xs append with
    ⟨st1, heq, hq⟩ | ⟨st1, dir, name, heq, hq, hdir⟩
  · exact ⟨false, st1, heq, D, F, hq.held, hz.same hq⟩
  · obtain ⟨r, st2, hrun, D', F', hh, hz'⟩ := fatWriteFile_zoned (hz.same hq) (ht.of_fat hq.fat) hdir
      name xs append
    exact ⟨r, st2, heq.trans hrun, D', F', hq.held.trans hh, hz'⟩

lemma makeDir_held (hz : Zoned st D F) (hf : Spot st.vol D F f) (parent : Nat) :
    ∃ r st', makeDir st f parent = some (r, st') ∧ Held st st' := by
  rw [makeDir]
  cases halloc : fatAllocCluster st with
  | mk x st1 =>
    cases x with
    | none => exact ⟨_, _, rfl, (fatAllocCluster_full hz.ready halloc).held⟩
    | some new =>
      obtain ⟨hcl, -, -, -, hh1⟩ := fatAllocCluster_taken hz.ready halloc
      obtain ⟨st2, hupd, hh2, -⟩ := fatUpdateDirent_ok (hh1.ready hz.ready)
        (by rw [hh1.vol]; exact hf.place) (e := direntSetFileSize (direntSetFirstCluster f.ent new) 0)
        (by rw [setFields_length]; exact hf.length)
      have hh2 := hh1.trans hh2
      have hs := (Quiet.refl st2).buffer (dotSector new parent)
      have hcl2 : st2.vol.IsCluster new := by
        rw [hh2.vol]
        exact hcl
      obtain ⟨st3, hfill, hh3, -⟩ := fillCluster_whole (hs.ready (hh2.ready hz.ready)) hcl2
      dsimp only
      rw [hupd]
      exact ⟨_, _, congrArg some hfill, hh2.trans (hs.held.trans hh3)⟩

lemma fsMkdir_held (hz : Zoned st D F) (ht : Tight st F) (path : CString) :
    ∃ r st', fsMkdir st path = some (r, st') ∧ Held st st' := by
  rw [fsMkdir]
  rcases withLeaf_zoned hz false path _ with ⟨st1, heq, hq⟩ | ⟨st1, dir, name, heq, hq, hdir⟩
  · exact ⟨false, st1, heq, hq.held⟩
  obtain ⟨found, st2, hfind, hq2, -⟩ := fatFindEntry_zoned (hz.same hq) hdir name
  have hs := hq.trans hq2
  rw [heq, hfind]
  cases found with
  | some f => exact ⟨_, _, rfl, hs.held⟩
  | none =>
    obtain ⟨made, st3, hnew, D', -, hh3, hz3, -, hfresh⟩ := fatCreateEntry_zoned (hz.same hs)
      (ht.of_fat hs.fat) hdir name 0x10
    dsimp only
    rw [hnew]
    cases made with
    | none => exact ⟨_, _, rfl, hs.held.trans hh3⟩
    | some g =>
      obtain ⟨r, st4, hrun, hh4⟩ := makeDir_held hz3 (by rw [hh3.vol]; exact (hfresh g rfl).spot) dir
      exact ⟨r, st4, hrun, (hs.held.trans hh3).trans hh4⟩

lemma removeFound_held (hz : Zoned st D F) {dir : Nat} (hdir : D dir) (name : CString)
    (hf : Refers D F f.ent) :
    ∃ r st', removeFound st dir name (direntFirstCluster f.ent) = some (r, st') ∧ Held st st' := by
  obtain ⟨ok, st1, hdel, hh1, hz1, -⟩ := fatDeleteEntry_zoned hz hdir name
  rw [removeFound, hdel, Option.bind_some]
  cases ok with
  | false => exact ⟨_, _, rfl, hh1⟩
  | true =>
    rw [if_pos rfl]
    split
    · next h0 =>
      obtain ⟨st2, hfree, hh2⟩ : ∃ st2, fatFreeChain st1 (direntFirstCluster f.ent) = some (true, st2) ∧
          Held st1 st2 := by
        rcases hf.cases h0 with ⟨-, hD⟩ | ⟨-, hF⟩
        · obtain ⟨st2, hfree, hh2, -⟩ := fatFreeChain_zone hz1.ready hz1.dirs hz1.dirLink hD
          exact ⟨st2, hfree, hh2⟩
        · obtain ⟨st2, hfree, hh2, -⟩ := fatFreeChain_zoned hz1 hF
          exact ⟨st2, hfree, hh2⟩
      rw [hfree]
      exact ⟨_, _, rfl, hh1.trans hh2⟩
    · exact ⟨_, _, rfl, hh1⟩

lemma deleteFound_held (hz : Zoned st D F) {dir : Nat} (hdir : D dir) (name : CString)
    (hf : Refers D F f.ent) : ∃ r st', deleteFound st dir name f = some (r, st') ∧ Held st st' := by
  rcases deleteFound_cases st dir name f with ⟨-, heq⟩ | ⟨-, -, heq⟩ | ⟨hd, h0, heq⟩
  · rw [heq]
    exact removeFound_held hz hdir name hf
  · exact ⟨_, _, heq, Held.refl _⟩
  · obtain ⟨l, hl, -⟩ := hz.dirChain (hf.dir hd h0)
    obtain ⟨ok, st1, hemp, hq⟩ := fatDirIsEmpty_ok hz.ready hl
    rw [heq, hemp, Option.bind_some]
    cases ok with
    | false => exact ⟨_, _, rfl, hq.held⟩
    | true =>
      obtain ⟨r, st2, hrun, hh⟩ := removeFound_held (hz.same hq) hdir name hf
      exact ⟨r, st2, hrun, hq.held.trans hh⟩

lemma fsDelete_held (hz : Zoned st D F) (path : CString) :
    ∃ r st', fsDelete st path = some (r, st') ∧ Held st st' := by
  rw [fsDelete]
  split
  · exact ⟨_, _, rfl, Held.refl _⟩
  rcases withLeaf_zoned hz false path _ with ⟨st1, heq, hq⟩ | ⟨st1, dir, name, heq, hq, hdir⟩
  · exact ⟨false, st1, heq, hq.held⟩
  obtain ⟨found, st2, hfind, hq2, hspot⟩ := fatFindEntry_zoned (hz.same hq) hdir name
  have hs := hq.trans hq2
  rw [heq, hfind]
  cases found with
  | none => exact ⟨_, _, rfl, hs.held⟩
  | some f =>
    obtain ⟨r, st3, hrun, hh⟩ := deleteFound_held (hz.same hs) hdir name (hspot f rfl).refers
    exact ⟨r, st3, hrun, hs.held.trans hh⟩

lemma renameFound_zoned (hz : Zoned st D F) (ht : Tight st F) {oldDir newDir : Nat}
    (hold : D oldDir) (hnew : D newDir) (oldName newName : CString) (hf : Refers D F f.ent) :
    ∃ r st', renameFound st oldDir oldName newDir newName f = some (r, st') ∧
      ∃ D', Held st st' ∧ Zoned st' D' F ∧ Tight st' F := by
  rw [renameFound]
  split
  · exact ⟨_, _, rfl, D, Held.refl _, hz, ht⟩
  obtain ⟨made, st1, hmake, D', hsub, hh1, hz1, ht1, hfresh⟩ := fatCreateEntry_zoned hz ht hnew newName
    (direntAttr f.ent)
  rw [hmake]
  cases made with
  | none => exact ⟨_, _, rfl, D', hh1, hz1, ht1⟩
  | some g =>
    obtain ⟨hspot, hent⟩ := hfresh g rfl
    have href : direntFirstCluster f.ent ≠ 0 →
        if direntIsDir g.ent = true then D' (direntFirstCluster f.ent)
        else F (direntFirstCluster f.ent) := by
      rw [hent, direntIsDir, newDirent_attr]
      exact hf.mono hsub fun _ h => h
    obtain ⟨ok, st2, hupd, hh2, hz2, hfat2⟩ := updateFields_zoned hz1 (by rw [hh1.vol]; exact hspot)
      (firstCluster_lt f.ent) (direntFileSize f.ent) href
    have ht2 := ht1.of_fat hfat2
    have hh2 := hh1.trans hh2
    dsimp only
    rw [hupd]
    cases ok with
    | false => exact ⟨_, _, rfl, D', hh2, hz2, ht2⟩
    | true =>
      obtain ⟨r, st3, hdel, hh3, hz3, hfat3⟩ := fatDeleteEntry_zoned hz2 (hsub _ hold) oldName
      exact ⟨r, st3, hdel, D', hh2.trans hh3, hz3, ht2.of_fat hfat3⟩

lemma fsRename_zoned (hz : Zoned st D F) (ht : Tight st F) (oldPath newPath : CString) :
    ∃ r st', fsRename st oldPath newPath = some (r, st') ∧
      ∃ D', Held st st' ∧ Zoned st' D' F ∧ Tight st' F := by
  have hsame : ∀ {st1 : Fs}, Quiet st st1 → ∃ D', Held st st1 ∧ Zoned st1 D' F ∧ Tight st1 F :=
    fun hs => ⟨D, hs.held, hz.same hs, ht.of_fat hs.fat⟩
  rw [fsRename]
  split
  · exact ⟨_, _, rfl, hsame (Quiet.refl _)⟩
  split
  · exact ⟨_, _, rfl, hsame (Quiet.refl _)⟩
  obtain ⟨oldDir, oldName, st1, hold, hq1, holdDir⟩ := pathDirCluster_zoned hz oldPath
  obtain ⟨newDir, newName, st2, hnew, hq2, hnewDir⟩ := pathDirCluster_zoned (hz.same hq1) newPath
  have hs2 := hq1.trans hq2
  rw [hold]
  dsimp only
  rw [hnew]
  dsimp only
  split
  · exact ⟨_, _, rfl, hsame hs2⟩
  next hok =>
  simp only [not_or] at hok
  have holdD := holdDir.resolve_left hok.1.1
  have hnewD := hnewDir.resolve_left hok.1.2
  obtain ⟨taken, st3, htaken, hq3, -⟩ := fatFindEntry_zoned (hz.same hs2) hnewD newName
  have hs3 := hs2.trans hq3
  rw [htaken]
  cases taken with
  | some f => exact ⟨_, _, rfl, hsame hs3⟩
  | none =>
    obtain ⟨found, st4, hfind, hq4, hspot⟩ := fatFindEntry_zoned (hz.same hs3) holdD oldName
    have hs4 := hs3.trans hq4
    dsimp only
    rw [hfind]
    cases found with
    | none => exact ⟨_, _, rfl, hsame hs4⟩
    | some f =>
      obtain ⟨r, st5, hrun, D', hh, hz', ht'⟩ := renameFound_zoned (hz.same hs4) (ht.of_fat hs4.fat)
        holdD hnewD oldName newName (hspot f rfl).refers
      exact ⟨r, st5, hrun, D', hs4.held.trans hh, hz', ht'⟩

lemma copyContents_zoned (hz : Zoned st D F) (ht : Tight st F) (srcPath dstPath : CString) :
    Yields (HeapOk st.heap) (fun _ st' => ∃ D' F', Confined st st' ∧ Zoned st' D' F')
      (copyContents st srcPath dstPath) := by
  rw [copyContents]
  cases hsrc : fsReadFile st srcPath with
  | none =>
    intro hheap
    obtain ⟨r, st', hrun, -⟩ := fsReadFile_returns hz hheap srcPath
    rw [hsrc] at hrun
    cases hrun
  | some x =>
    obtain ⟨contents, st1⟩ := x
    have hs := fsReadFile_heapOnly hz hsrc
    cases contents with
    | none => exact ⟨D, F, hs.confined, hz.heapOnly hs⟩
    | some x =>
      obtain ⟨ptr, len⟩ := x
      obtain ⟨ok, st2, hwrite, D', F', hh, hz'⟩ := writeLeaf_zoned (hz.heapOnly hs) (ht.of_fat hs.fat)
        dstPath (slice st1.heap.mem ptr len) false
      have hrun : fsWriteFile st1 dstPath (slice st1.heap.mem ptr len) = some (ok, st2) := hwrite
      dsimp only
      rw [hrun]
      dsimp only
      cases hfree : Memory.free st2.heap ptr with
      | none =>
        intro hheap
        obtain ⟨r, st', hread, hfreed⟩ := fsReadFile_returns hz hheap srcPath
        rw [hsrc] at hread
        cases hread
        obtain ⟨h', hfreed⟩ := hfreed ptr len rfl
        rw [hh.disk.heap, hfreed] at hfree
        cases hfree
      | some heap =>
        have hfreed := (HeapOnly.refl st2).setHeap heap
        exact ⟨D', F', hs.confined.trans (hh.confined.trans hfreed.confined), hz'.heapOnly hfreed⟩

lemma fsCopy_zoned (hz : Zoned st D F) (ht : Tight st F) (srcPath dstPath : CString) :
    Yields (HeapOk st.heap) (fun _ st' => ∃ D' F', Confined st st' ∧ Zoned st' D' F')
      (fsCopy st srcPath dstPath) := by
  rw [fsCopy]
  rcases withLeaf_zoned hz false srcPath _ with ⟨st1, heq, hq⟩ | ⟨st1, dir, name, heq, hq, hdir⟩
  · rw [heq]
    exact ⟨D, F, hq.held.confined, hz.same hq⟩
  obtain ⟨found, st2, hfind, hq2, -⟩ := fatFindEntry_zoned (hz.same hq) hdir name
  have hs := hq.trans hq2
  rw [heq, hfind]
  cases found with
  | none => exact ⟨D, F, hs.held.confined, hz.same hs⟩
  | some f =>
    dsimp only
    split
    · exact ⟨D, F, hs.held.confined, hz.same hs⟩
    · have hcopy := copyContents_zoned (hz.same hs) (ht.of_fat hs.fat) srcPath dstPath
      rw [hs.diskOnly.heap] at hcopy
      cases hrun : copyContents st2 srcPath dstPath with
      | none =>
        rw [hrun] at hcopy
        exact hcopy
      | some x =>
        rw [hrun] at hcopy
        obtain ⟨D', F', hh, hz'⟩ := hcopy
        exact ⟨D', F', hs.held.confined.trans hh, hz'⟩

lemma fsMove_zoned (hz : Zoned st D F) (ht : Tight st F) (srcPath dstPath : CString) :
    Yields (HeapOk st.heap) (fun _ st' => Confined st st') (fsMove st srcPath dstPath) := by
  obtain ⟨ok, st1, hren, D1, hh1, hz1, ht1⟩ := fsRename_zoned hz ht srcPath dstPath
  rw [fsMove, hren]
  cases ok with
  | true => exact hh1.confined
  | false =>
    have hcopy := fsCopy_zoned hz1 ht1 srcPath dstPath
    rw [hh1.disk.heap] at hcopy
    dsimp only
    cases hrun : fsCopy st1 srcPath dstPath with
    | none =>
      rw [hrun] at hcopy
      exact hcopy
    | some x =>
      obtain ⟨ok, st2⟩ := x
      rw [hrun] at hcopy
      obtain ⟨D2, F2, hh2, hz2⟩ := hcopy
      have hh2 := hh1.confined.trans hh2
      cases ok with
      | false => exact hh2
      | true =>
        obtain ⟨r, st3, hdel, hh3⟩ := fsDelete_held hz2 srcPath
        dsimp only
        rw [hdel]
        exact hh2.trans hh3.confined

end Operations

/-! ## Well-formed volumes -/

namespace Image
variable (I : Image)

def DirZone (c : Nat) : Prop := ∃ d p l, I.Dir d p ∧ I.ChainAt d l ∧ c ∈ l

def FileZone (c : Nat) : Prop :=
  ∃ f l, I.Entry f ∧ direntIsDir f.ent = false ∧ I.ChainAt (direntFirstCluster f.ent) l ∧ c ∈ l

end Image

variable {l : List Nat} {fat : Nat → Nat}

lemma FatChain.leadsTo {v : Volume} {a x : Nat} {Z : Nat → Prop}
    (h : FatChain v fat a l) (hZ : ∀ c ∈ l, Z c) (hx : x ∈ l) : LeadsTo Z (fat x) := by
  intro _ he
  rcases Chain.next_mem h x hx with hm | hs
  · exact hZ _ hm
  · omega

lemma FatChain.two_le {v : Volume} {a x : Nat}
    (h : FatChain v fat a l) (hx : x ∈ l) : 2 ≤ fat x := by
  rcases Chain.link h x hx with hn | hs
  · exact hn.1
  · exact Nat.le_trans (by decide) hs

section WellFormed
variable {st : Fs} (hw : WellFormed st)
include hw

lemma WellFormed.refers {d p : Nat} {l : List Nat} {f : Found} (hd : st.image.Dir d p)
    (hl : st.image.ChainAt d l) (hf : f ∈ st.image.slots l) (he : IsEntry f.ent) :
    Refers st.image.DirZone st.image.FileZone f.ent := by
  intro h0
  split
  · next hdir =>
    obtain ⟨q, hq⟩ := hw.sound.dir_of_entry hd hl hf he hdir h0
    obtain ⟨l', hl'⟩ := hw.sound.dir_chain hq
    exact ⟨_, q, l', hq, hl', hl'.head_mem⟩
  · next hdir =>
    have hfile : direntIsDir f.ent = false := Bool.eq_false_iff.mpr hdir
    have hentry := hw.sound.entry_of_file hd hl hf he hfile
    obtain ⟨l', hl'⟩ := hw.sound.chain hentry h0
    exact ⟨f, l', hentry, hfile, hl', hl'.head_mem⟩

lemma WellFormed.zoned : Zoned st st.image.DirZone st.image.FileZone := by
  refine ⟨hw.ready, ?_, ?_, ?_, ?_, ?_, ?_, ?_, ?_, ?_, ?_⟩
  · obtain ⟨l, hl⟩ := hw.sound.root
    exact ⟨_, _, l, .root, hl, hl.head_mem⟩
  · rintro c ⟨d, p, l, -, hl, hc⟩
    exact Chain.node hl c hc
  · rintro c ⟨f, l, -, -, hl, hc⟩
    exact Chain.node hl c hc
  · rintro c ⟨d, p, l, hd, hl, hc⟩ ⟨f, l', hf, hfile, hl', hc'⟩
    exact hw.sound.file_dir_disjoint hf hfile hl' hd hl hc' hc
  · rintro c ⟨d, p, l, hd, hl, hc⟩
    exact FatChain.leadsTo hl (fun x hx => ⟨d, p, l, hd, hl, hx⟩) hc
  · rintro c ⟨f, l, hf, hfile, hl, hc⟩
    exact FatChain.leadsTo hl (fun x hx => ⟨f, l, hf, hfile, hl, hx⟩) hc
  · rintro c ⟨d, p, l, -, hl, hc⟩
    exact FatChain.two_le hl hc
  · rintro c i ⟨d, p, l, hd, hl, hc⟩ hi hent
    apply hw.refers hd hl (f := ⟨slice (st.data c) (32 * i) 32, c, 32 * i⟩) _ hent
    refine mem_dirSlots.mpr ⟨hc, by dsimp only; omega, ?_, rfl⟩
    unfold clusterBytes
    dsimp only [Fs.image]
    omega
  · rintro c ⟨d, p, l, -, hl, hc⟩
    obtain ⟨-, l', -, hl'⟩ := Chain.drop hl hc
    exact ⟨l', FatChain.walk hl'⟩
  · rintro c ⟨f, l, -, -, hl, hc⟩
    obtain ⟨-, l', -, hl'⟩ := Chain.drop hl hc
    exact ⟨l', FatChain.walk hl'⟩

end WellFormed

lemma fileZone_tight (st : Fs) : Tight st st.image.FileZone := by
  rintro c ⟨f, l, -, -, hl, hc⟩
  exact FatChain.two_le hl hc

/-- A call of an operation that writes to the volume. -/
inductive Op where
  | writeFile (path : CString) (data : List UInt8)
  | appendFile (path : CString) (data : List UInt8)
  | mkdir (path : CString)
  | delete (path : CString)
  | rename (oldPath newPath : CString)
  | copy (srcPath dstPath : CString)
  | move (srcPath dstPath : CString)

def Op.run (st : Fs) : Op → Option (Bool × Fs)
  | .writeFile path data => fsWriteFile st path data
  | .appendFile path data => fsAppendFile st path data
  | .mkdir path => fsMkdir st path
  | .delete path => fsDelete st path
  | .rename oldPath newPath => fsRename st oldPath newPath
  | .copy srcPath dstPath => fsCopy st srcPath dstPath
  | .move srcPath dstPath => fsMove st srcPath dstPath

lemma Op.zoned {st : Fs} {D F : Nat → Prop} (hz : Zoned st D F) (ht : Tight st F) (op : Op) :
    Yields (HeapOk st.heap) (fun _ st' => Confined st st') (op.run st) := by
  cases op with
  | writeFile path data =>
    obtain ⟨r, st', hrun, -, -, hh, -⟩ := writeLeaf_zoned hz ht path data false
    exact .of_eq hrun hh.confined
  | appendFile path data =>
    obtain ⟨r, st', hrun, -, -, hh, -⟩ := writeLeaf_zoned hz ht path data true
    exact .of_eq hrun hh.confined
  | mkdir path =>
    obtain ⟨r, st', hrun, hh⟩ := fsMkdir_held hz ht path
    exact .of_eq hrun hh.confined
  | delete path =>
    obtain ⟨r, st', hrun, hh⟩ := fsDelete_held hz path
    exact .of_eq hrun hh.confined
  | rename oldPath newPath =>
    obtain ⟨r, st', hrun, -, hh, -⟩ := fsRename_zoned hz ht oldPath newPath
    exact .of_eq hrun hh.confined
  | copy srcPath dstPath =>
    have hcopy := fsCopy_zoned hz ht srcPath dstPath
    rw [Op.run]
    cases hrun : fsCopy st srcPath dstPath with
    | none =>
      rw [hrun] at hcopy
      exact hcopy
    | some x =>
      rw [hrun] at hcopy
      obtain ⟨-, -, hh, -⟩ := hcopy
      exact hh
  | move srcPath dstPath => exact fsMove_zoned hz ht srcPath dstPath

lemma Op.confined {st st' : Fs} (hw : WellFormed st) {op : Op} {r : Bool}
    (h : op.run st = some (r, st')) : Confined st st' := by
  have hop := Op.zoned hw.zoned (fileZone_tight st) op
  rw [h] at hop
  exact hop

/-- On a well-formed volume whose FAT copies agree, every operation leaves copies that agree and
every sector outside the FATs and the data clusters as it was, whether it succeeds or not. -/
theorem regions_kept (st : Fs) (hw : WellFormed st) (hm : st.Mirrored) (op : Op) (r : Bool) (st' : Fs)
    (h : op.run st = some (r, st')) :
    st'.Mirrored ∧ ∀ lba, st.vol.Outside lba → st'.disk lba = st.disk lba := by
  have hh := Op.confined hw h
  exact ⟨hh.mirrored hm, hh.outside⟩

/-- The volume `oneFile` with two copies of the FAT. -/
def twoFats : Fs :=
  { oneFile with
    vol := { smallVolume with fatCount := 2, dataStartLba := 3 }
    disk := fun lba => oneFile.disk (if lba < 2 then lba else lba - 1) }

lemma twoFats_wellFormed : WellFormed twoFats :=
  wellFormed_of_checked [(2, 2)] ⟨by decide, fun _ => rfl⟩ rfl (by decide +kernel)

lemma twoFats_mirrored : twoFats.Mirrored := by
  intro k hk j hj i _
  have hk : k < 2 := hk
  have hj : j < 1 := hj
  obtain rfl : j = 0 := by omega
  rcases (by omega : k = 0 ∨ k = 1) with rfl | rfl
  · rfl
  · rfl

theorem regions_kept_twoFats :
    ∃ st', (Op.writeFile [0x2F, 98] [9]).run twoFats = some (true, st') ∧ st'.Mirrored ∧
      st'.disk 0 = twoFats.disk 0 := by
  have hok : ((Op.writeFile [0x2F, 98] [9]).run twoFats).map Prod.fst = some true := by
    decide +kernel
  obtain ⟨⟨b, st'⟩, hrun, rfl⟩ := Option.map_eq_some_iff.mp hok
  obtain ⟨hm, hout⟩ := regions_kept twoFats twoFats_wellFormed twoFats_mirrored _ _ st' hrun
  exact ⟨st', hrun, hm, hout 0 (.inl (by decide))⟩

end FusionOS.Fat
