import FusionOS.Net.Stack
import FusionOS.Lib.Run
import Mathlib.Data.List.Induction
import Mathlib.Data.List.Nodup

/-!
# The ARP cache

Eight entries, each for one address. An update replaces the entry of its own address, or fills the
first free entry, or takes entry 0 away from another address; it never leaves two entries for one
address.
-/

namespace FusionOS.Net

open List

/-- A call of `arp_cache_update` at the time `ticks`. -/
structure ArpCall where
  ip : Nat
  mac : List UInt8
  ticks : Nat

def ArpCall.entry (c : ArpCall) : ArpEntry := ⟨c.ip, c.mac, c.ticks, true⟩

def ArpCall.run (s : NetState) (c : ArpCall) : NetState :=
  arpCacheUpdate { s with ticks := c.ticks } c.ip c.mac

def arpStep (s : NetState) (c : ArpCall) : Option NetState := some (c.run s)

lemma arpStep_eq (s : NetState) (c : ArpCall) : arpStep s c = some (c.run s) := rfl

def arpRun (s : NetState) (calls : List ArpCall) : NetState := calls.foldl ArpCall.run s

def validIps (cache : List ArpEntry) : List Nat := (cache.filter ArpEntry.valid).map ArpEntry.ip

structure CacheEmpty (s : NetState) : Prop where
  size : s.arpCache.length = 8
  free : ∀ e ∈ s.arpCache, e.valid = false

/-- The call takes the entry of `ip` away. -/
def Evicts (s : NetState) (c : ArpCall) (ip : Nat) : Prop :=
  arpCacheLookup s ip ≠ none ∧ arpCacheLookup (c.run s) ip = none

/-- The call neither updates nor evicts `ip`. -/
def Spares (ip : Nat) (s : NetState) (c : ArpCall) : Prop := c.ip ≠ ip ∧ ¬ Evicts s c ip

/-- What the most recent update for `ip` said. -/
def latestMac (calls : List ArpCall) (ip : Nat) : Option (List UInt8) :=
  (calls.reverse.find? fun c => c.ip == ip).map ArpCall.mac

/-- What is expected of the cache after a sequence of updates. -/
structure ArpCacheSound (s : NetState) (calls : List ArpCall) : Prop where
  distinct : (validIps (arpRun s calls).arpCache).Nodup
  stays : ∀ before c after, calls = before ++ c :: after →
    Along arpStep (Spares c.ip) (arpRun s (before ++ [c])) after →
    arpCacheLookup (arpRun s calls) c.ip = some c.mac
  latest : ∀ ip mac, arpCacheLookup (arpRun s calls) ip = some mac → latestMac calls ip = some mac
  evicts : ∀ before c after ip, calls = before ++ c :: after → Evicts (arpRun s before) c ip →
    (validIps (arpRun s before).arpCache).length = 8 ∧ c.ip ∉ validIps (arpRun s before).arpCache

/-! ## The slot of an update -/

section Slot
variable {ip : Nat} {cache : List ArpEntry}

def ArpEntry.isFor (ip : Nat) (e : ArpEntry) : Bool := e.valid && e.ip == ip

lemma ArpEntry.isFor_iff {e : ArpEntry} : e.isFor ip = true ↔ e.valid = true ∧ e.ip = ip := by
  rw [isFor, Bool.and_eq_true, beq_iff_eq]

lemma arpSlot_eq (ip : Nat) (cache : List ArpEntry) (i : Nat) (slot : Option Nat) :
    arpSlot ip cache i slot =
      ((cache.findIdx? (ArpEntry.isFor ip)).map (· + i)).getD
        (slot.getD (((cache.findIdx? fun e => !e.valid).map (· + i)).getD 0)) := by
  induction cache generalizing i slot with
  | nil => rfl
  | cons e cache ih =>
    rw [arpSlot, List.findIdx?_cons, List.findIdx?_cons]
    by_cases hown : e.isFor ip = true
    · have hown' : (e.valid && e.ip == ip) = true := hown
      rw [if_pos hown', hown, if_pos rfl, Option.map_some, Option.getD_some, Nat.zero_add]
    · have hown' : ¬ (e.valid && e.ip == ip) = true := hown
      rw [if_neg hown', if_neg hown, ih]
      cases hvalid : e.valid <;> cases slot <;>
        simp [Option.map_map, Function.comp_def, Nat.add_comm, Nat.add_left_comm]

lemma mem_validIps : ip ∈ validIps cache ↔ ∃ e ∈ cache, e.isFor ip = true := by
  simp only [validIps, mem_map, mem_filter, ArpEntry.isFor_iff, and_assoc]

/-- Which entry an update of `ip` replaces. -/
inductive Replaced (ip : Nat) (cache : List ArpEntry) (old : ArpEntry) : Prop where
  | own (valid : old.valid = true) (same : old.ip = ip)
  | free (absent : ip ∉ validIps cache) (invalid : old.valid = false)
  | victim (absent : ip ∉ validIps cache) (full : ∀ e ∈ cache, e.valid = true)

lemma arpSlot_cases (hne : cache ≠ []) (ip : Nat) :
    ∃ old, cache[arpSlot ip cache 0 none]? = some old ∧ Replaced ip cache old := by
  rw [arpSlot_eq]
  cases hown : cache.findIdx? (ArpEntry.isFor ip) with
  | some i =>
    obtain ⟨hlt, hfor, -⟩ := List.findIdx?_eq_some_iff_getElem.mp hown
    obtain ⟨hvalid, hip⟩ := ArpEntry.isFor_iff.mp hfor
    exact ⟨cache[i], List.getElem?_eq_getElem hlt, .own hvalid hip⟩
  | none =>
    have habsent : ip ∉ validIps cache := by
      rw [mem_validIps]
      rintro ⟨e, he, hfor⟩
      exact Bool.false_ne_true ((List.findIdx?_eq_none_iff.mp hown e he).symm.trans hfor)
    cases hfree : cache.findIdx? fun e => !e.valid with
    | some i =>
      obtain ⟨hlt, hinvalid, -⟩ := List.findIdx?_eq_some_iff_getElem.mp hfree
      exact ⟨cache[i], List.getElem?_eq_getElem hlt, .free habsent (by simpa using hinvalid)⟩
    | none =>
      have hfull : ∀ e ∈ cache, e.valid = true := by simpa using hfree
      have hpos := length_pos_iff.mpr hne
      exact ⟨cache[0], List.getElem?_eq_getElem hpos, .victim habsent hfull⟩

lemma arpCache_run {s : NetState} (hne : s.arpCache ≠ []) (c : ArpCall) :
    ∃ front old back, s.arpCache = front ++ old :: back ∧
      (c.run s).arpCache = front ++ c.entry :: back ∧ Replaced c.ip s.arpCache old := by
  obtain ⟨old, hold, hreplaced⟩ := arpSlot_cases hne c.ip
  obtain ⟨hlt, hget⟩ := List.getElem?_eq_some_iff.mp hold
  refine ⟨s.arpCache.take (arpSlot c.ip s.arpCache 0 none), old,
    s.arpCache.drop (arpSlot c.ip s.arpCache 0 none + 1), ?_, ?_, hreplaced⟩
  · rw [← hget, getElem_cons_drop, take_append_drop]
  · exact set_eq_take_append_cons_drop.trans (if_pos hlt)

end Slot

/-! ## One update -/

section Update
variable {s : NetState} {c : ArpCall} {ip : Nat} {front back : List ArpEntry} {e : ArpEntry}

lemma arpCacheLookup_eq (s : NetState) (ip : Nat) :
    arpCacheLookup s ip = (s.arpCache.find? (ArpEntry.isFor ip)).map ArpEntry.mac := rfl

lemma arpCacheLookup_ne_none : arpCacheLookup s ip ≠ none ↔ ip ∈ validIps s.arpCache := by
  rw [arpCacheLookup_eq, mem_validIps, ne_eq, Option.map_eq_none_iff, List.find?_eq_none]
  simp

lemma validIps_middle (front back : List ArpEntry) (e : ArpEntry) :
    validIps (front ++ e :: back) =
      validIps front ++ ((if e.valid then [e.ip] else []) ++ validIps back) := by
  rw [validIps, filter_append, map_append, filter_cons]
  split <;> rfl

lemma Replaced.absent_beside (h : Replaced ip (front ++ e :: back) e)
    (hnodup : (validIps (front ++ e :: back)).Nodup) : ip ∉ validIps front ∧ ip ∉ validIps back := by
  rw [validIps_middle] at hnodup
  have habsent : ip ∉ validIps (front ++ e :: back) → ip ∉ validIps front ∧ ip ∉ validIps back := by
    rw [validIps_middle, mem_append, mem_append]
    exact fun hnot => ⟨fun hmem => hnot (Or.inl hmem), fun hmem => hnot (Or.inr (Or.inr hmem))⟩
  cases h with
  | own valid same =>
    rw [valid, if_pos rfl, same, singleton_append, nodup_middle, nodup_cons,
      mem_append, not_or] at hnodup
    exact hnodup.1
  | free absent invalid => exact habsent absent
  | victim absent full => exact habsent absent

lemma nodup_run (hne : s.arpCache ≠ []) (hnodup : (validIps s.arpCache).Nodup) (c : ArpCall) :
    (validIps (c.run s).arpCache).Nodup := by
  obtain ⟨front, old, back, hcache, hrun, hreplaced⟩ := arpCache_run hne c
  rw [hcache] at hreplaced hnodup
  have habsent := hreplaced.absent_beside hnodup
  rw [validIps_middle] at hnodup
  have hsub : (validIps front ++ validIps back).Sublist
      (validIps front ++ ((if old.valid then [old.ip] else []) ++ validIps back)) :=
    (sublist_append_right _ _).append_left _
  rw [hrun, validIps_middle]
  exact nodup_middle.mpr (nodup_cons.mpr
    ⟨fun hmem => (mem_append.mp hmem).elim habsent.1 habsent.2, hnodup.sublist hsub⟩)

lemma find?_isFor_eq_none {cache : List ArpEntry} (h : ip ∉ validIps cache) :
    cache.find? (ArpEntry.isFor ip) = none :=
  List.find?_eq_none.mpr fun e he hfor => h (mem_validIps.mpr ⟨e, he, hfor⟩)

lemma arpCacheLookup_run_self (hne : s.arpCache ≠ []) (hnodup : (validIps s.arpCache).Nodup)
    (c : ArpCall) : arpCacheLookup (c.run s) c.ip = some c.mac := by
  obtain ⟨front, old, back, hcache, hrun, hreplaced⟩ := arpCache_run hne c
  rw [hcache] at hreplaced hnodup
  have habsent := hreplaced.absent_beside hnodup
  have hentry : c.entry.isFor c.ip = true := ArpEntry.isFor_iff.mpr ⟨rfl, rfl⟩
  rw [arpCacheLookup_eq, hrun, List.find?_append, find?_isFor_eq_none habsent.1, Option.none_or,
    List.find?_cons_of_pos hentry]
  rfl

lemma arpCacheLookup_run_of_ne (hne : s.arpCache ≠ []) (hnodup : (validIps s.arpCache).Nodup)
    (hip : c.ip ≠ ip) :
    arpCacheLookup (c.run s) ip = arpCacheLookup s ip ∨ arpCacheLookup (c.run s) ip = none := by
  obtain ⟨front, old, back, hcache, hrun, -⟩ := arpCache_run hne c
  have hentry : ¬ c.entry.isFor ip = true := fun hfor => hip (ArpEntry.isFor_iff.mp hfor).2
  rw [arpCacheLookup_eq, arpCacheLookup_eq, hrun, hcache, List.find?_append, List.find?_append,
    List.find?_cons_of_neg hentry]
  by_cases hold : old.isFor ip = true
  · -- the entry replaced was the one of `ip`, and there is no other
    right
    obtain ⟨hvalid, hsame⟩ := ArpEntry.isFor_iff.mp hold
    rw [hcache] at hnodup
    have habsent := (Replaced.own hvalid hsame).absent_beside hnodup
    rw [find?_isFor_eq_none habsent.1, find?_isFor_eq_none habsent.2]
    rfl
  · left
    rw [List.find?_cons_of_neg hold]

lemma full_of_evicts (hne : s.arpCache ≠ []) (hnodup : (validIps s.arpCache).Nodup)
    (h : Evicts s c ip) : (∀ e ∈ s.arpCache, e.valid = true) ∧ c.ip ∉ validIps s.arpCache := by
  have hip : c.ip ≠ ip := by
    rintro rfl
    exact Option.some_ne_none c.mac ((arpCacheLookup_run_self hne hnodup c).symm.trans h.2)
  obtain ⟨front, old, back, hcache, hrun, hreplaced⟩ := arpCache_run hne c
  have hgone : ip ∉ validIps (c.run s).arpCache := mt arpCacheLookup_ne_none.mpr (not_not.mpr h.2)
  have hheld := arpCacheLookup_ne_none.mp h.1
  rw [hrun, validIps_middle, mem_append, mem_append] at hgone
  rw [hcache, validIps_middle, mem_append, mem_append] at hheld
  -- the address was that of the entry replaced, since all others are still there
  have hold : ip ∈ if old.valid then [old.ip] else [] := by
    rcases hheld with hfront | hold | hback
    · exact absurd (Or.inl hfront) hgone
    · exact hold
    · exact absurd (Or.inr (Or.inr hback)) hgone
  cases hreplaced with
  | own valid same =>
    rw [valid, if_pos rfl, mem_singleton, same] at hold
    exact absurd hold.symm hip
  | free absent invalid =>
    rw [invalid] at hold
    exact absurd hold not_mem_nil
  | victim absent full => exact ⟨full, absent⟩

lemma length_validIps {cache : List ArpEntry} (h : ∀ e ∈ cache, e.valid = true) :
    (validIps cache).length = cache.length := by
  rw [validIps, length_map, filter_eq_self.mpr h]

end Update

/-! ## Sequences of updates -/

section Calls
variable {s : NetState}

structure CacheInv (s : NetState) : Prop where
  size : s.arpCache.length = 8
  nodup : (validIps s.arpCache).Nodup

lemma CacheInv.ne_nil (h : CacheInv s) : s.arpCache ≠ [] := by
  rw [← length_pos_iff, h.size]
  decide

lemma CacheEmpty.inv (h : CacheEmpty s) : CacheInv s where
  size := h.size
  nodup := by
    rw [validIps, filter_eq_nil_iff.mpr fun e he => Bool.eq_false_iff.mp (h.free e he)]
    exact nodup_nil

lemma CacheInv.run (h : CacheInv s) (c : ArpCall) : CacheInv (c.run s) where
  size := (length_set ..).trans h.size
  nodup := nodup_run h.ne_nil h.nodup c

lemma CacheInv.arpRun (h : CacheInv s) (calls : List ArpCall) : CacheInv (arpRun s calls) := by
  induction calls generalizing s with
  | nil => exact h
  | cons c calls ih => exact ih (h.run c)

lemma arpRun_append (s : NetState) (calls calls' : List ArpCall) :
    arpRun s (calls ++ calls') = arpRun (arpRun s calls) calls' := foldl_append

lemma latestMac_concat (calls : List ArpCall) (c : ArpCall) (ip : Nat) :
    latestMac (calls ++ [c]) ip = if c.ip = ip then some c.mac else latestMac calls ip := by
  rw [latestMac, reverse_concat, List.find?_cons]
  by_cases hip : c.ip = ip
  · rw [if_pos hip, beq_iff_eq.mpr hip]
    rfl
  · rw [if_neg hip, beq_eq_false_iff_ne.mpr hip]
    rfl

lemma arpCacheLookup_arpRun_spared {ip : Nat} {mac : List UInt8} (hinv : CacheInv s)
    {calls : List ArpCall} (hspared : Along arpStep (Spares ip) s calls)
    (hmac : arpCacheLookup s ip = some mac) : arpCacheLookup (arpRun s calls) ip = some mac := by
  induction calls generalizing s with
  | nil => exact hmac
  | cons c calls ih =>
    obtain ⟨⟨hip, hstays⟩, hrest⟩ := (along_cons_iff (arpStep_eq s c)).mp hspared
    have hheld : arpCacheLookup s ip ≠ none := hmac ▸ Option.some_ne_none mac
    refine ih (hinv.run c) hrest ?_
    rcases arpCacheLookup_run_of_ne hinv.ne_nil hinv.nodup hip with hsame | hgone
    · exact hsame.trans hmac
    · exact absurd ⟨hheld, hgone⟩ hstays

lemma latestMac_of_lookup (hempty : CacheEmpty s) (calls : List ArpCall) (ip : Nat) (mac : List UInt8)
    (hmac : arpCacheLookup (arpRun s calls) ip = some mac) : latestMac calls ip = some mac := by
  induction calls using List.reverseRecOn with
  | nil =>
    have hheld : ip ∈ validIps s.arpCache := arpCacheLookup_ne_none.mp fun hnone =>
      Option.some_ne_none mac (hmac.symm.trans hnone)
    obtain ⟨e, he, hfor⟩ := mem_validIps.mp hheld
    exact absurd (ArpEntry.isFor_iff.mp hfor).1 (Bool.eq_false_iff.mp (hempty.free e he))
  | append_singleton calls c ih =>
    have hinv := hempty.inv.arpRun calls
    rw [arpRun_append] at hmac
    have hlast : arpCacheLookup (c.run (arpRun s calls)) ip = some mac := hmac
    rw [latestMac_concat]
    by_cases hip : c.ip = ip
    · subst hip
      rw [if_pos rfl, ← hlast, arpCacheLookup_run_self hinv.ne_nil hinv.nodup c]
    · rw [if_neg hip]
      apply ih
      rcases arpCacheLookup_run_of_ne hinv.ne_nil hinv.nodup hip with hsame | hgone
      · exact hsame.symm.trans hlast
      · exact absurd (hlast.symm.trans hgone) (Option.some_ne_none mac)

end Calls

/-- After any sequence of updates of an empty cache: one entry for an address, the entry of an update
until the next one or an eviction, no hit but that of the most recent update, and evictions only from a full
cache by a ninth address. -/
theorem arp_cache_sound {s : NetState} (hempty : CacheEmpty s) (calls : List ArpCall) :
    ArpCacheSound s calls where
  distinct := (hempty.inv.arpRun calls).nodup
  stays := by
    rintro before c after rfl hspared
    have hinv := hempty.inv.arpRun before
    have hset : arpCacheLookup (arpRun s (before ++ [c])) c.ip = some c.mac := by
      rw [arpRun_append]
      exact arpCacheLookup_run_self hinv.ne_nil hinv.nodup c
    have hall := arpCacheLookup_arpRun_spared (hempty.inv.arpRun (before ++ [c])) hspared hset
    rwa [← arpRun_append, append_assoc, singleton_append] at hall
  latest := latestMac_of_lookup hempty calls
  evicts := by
    rintro before c after ip - hevicts
    have hinv := hempty.inv.arpRun before
    obtain ⟨hfull, habsent⟩ := full_of_evicts hinv.ne_nil hinv.nodup hevicts
    exact ⟨(length_validIps hfull).trans hinv.size, habsent⟩

/-- Nine addresses, one after the other. -/
def nineCalls : List ArpCall := (List.range 9).map fun i => ⟨i, List.replicate 6 (UInt8.ofNat i), i⟩

theorem arp_cache_sound_nine :
    ArpCacheSound NetState.zero nineCalls ∧
      arpCacheLookup (arpRun NetState.zero (nineCalls.take 8)) 0 = some (List.replicate 6 0) ∧
      arpCacheLookup (arpRun NetState.zero nineCalls) 0 = none :=
  ⟨arp_cache_sound ⟨rfl, by decide⟩ nineCalls, by decide, by decide⟩

end FusionOS.Net
