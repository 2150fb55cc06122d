import FusionOS.Lib.Mem
import FusionOS.Lib.Ring
import FusionOS.Lib.Run

/-!
# The transmit ring of the network card

The driver takes a descriptor as free if its DD bit is set; the card takes the descriptors from TDH
up to TDT as its own, and the ring as empty if the two are equal.
-/

namespace FusionOS.Drivers

open List
open Function (update update_of_ne update_self)

def txDescCount : Nat := 32
def txBufSize : Nat := 2048

/-- The fields of `struct tx_desc` that `e1000_send` and the card use; `addr` is the buffer of the same
index throughout. -/
structure TxDesc where
  length : Nat
  cmd : Nat
  status : Nat

/-- The transmit part of `e1000_device_t`, with the registers TDH and TDT of the card. -/
structure E1000 where
  ready : Bool
  txDescs : Nat → TxDesc
  txBufs : Nat → Mem
  txIndex : Nat
  tdh : Nat
  tdt : Nat

def e1000Send (g : E1000) (data : List UInt8) : Bool × E1000 :=
  if g.ready = false ∨ data.length = 0 then (false, g)
  else
    let len := min data.length txBufSize
    let desc := g.txDescs g.txIndex
    if desc.status &&& 1 = 0 then (false, g)
    else
      let next := (g.txIndex + 1) % txDescCount
      (true,
        { g with
          txBufs := update g.txBufs g.txIndex (splice (g.txBufs g.txIndex) 0 (data.take len))
          txDescs := update g.txDescs g.txIndex { desc with length := len, cmd := 9, status := 0 }
          txIndex := next
          tdt := next })

/-- The bytes that a descriptor tells the card to send. -/
def E1000.frame (g : E1000) (i : Nat) : List UInt8 := slice (g.txBufs i) 0 (g.txDescs i).length

/-- The card sends the descriptor at TDH, unless the ring is empty for it. -/
def transmit (g : E1000) : Option (Nat × List UInt8) × E1000 :=
  if g.tdh = g.tdt then (none, g)
  else
    let desc := g.txDescs g.tdh
    (some (g.tdh, g.frame g.tdh),
      { g with
        txDescs := update g.txDescs g.tdh { desc with status := desc.status ||| 1 }
        tdh := (g.tdh + 1) % txDescCount })

/-- The card behind `e1000_init`; what the buffers hold is not known. -/
def e1000InitTx (bufs : Nat → Mem) : E1000 :=
  ⟨true, fun _ => ⟨0, 0, 1⟩, bufs, 0, 0, 0⟩

/-- The card with what has happened so far: the frames for which `e1000_send` returned 1, and those
that the card has sent, each with the index of its descriptor. -/
structure TxState where
  nic : E1000
  accepted : List (Nat × List UInt8)
  sent : List (Nat × List UInt8)

inductive TxEvent where
  | send (data : List UInt8)
  | device

def TxState.step (t : TxState) : TxEvent → Option TxState
  | .send data =>
    let r := e1000Send t.nic data
    some { t with
      nic := r.2
      accepted := if r.1 then t.accepted ++ [(t.nic.txIndex, data.take txBufSize)] else t.accepted }
  | .device =>
    let r := transmit t.nic
    some { t with nic := r.2, sent := t.sent ++ r.1.toList }

def txStart (bufs : Nat → Mem) : TxState := ⟨e1000InitTx bufs, [], []⟩

def E1000.queued (g : E1000) : Nat := (g.tdt + txDescCount - g.tdh) % txDescCount

/-- What has been accepted is what has been sent and then what stands in the ring from TDH up to TDT,
in this order. -/
def TxState.Ok (t : TxState) : Prop :=
  t.accepted = t.sent ++ ringList (fun i => (i, t.nic.frame i)) txDescCount t.nic.tdh t.nic.queued

def OkAfter (t : TxState) (e : TxEvent) : Prop := ∀ t', t.step e = some t' → t'.Ok

/-- The event queues a frame behind 31 others. -/
def Overfills (t : TxState) : TxEvent → Prop
  | .send data => t.nic.ready = true ∧ data.length ≠ 0 ∧ t.nic.queued = 31
  | .device => False

/-- The ring with `n` frames queued: they have been accepted and not sent, and the driver sees the
other descriptors as free. -/
structure Queued (t : TxState) (n : Nat) : Prop where
  lt : n < txDescCount
  head : t.nic.tdh < txDescCount
  index : t.nic.txIndex = (t.nic.tdh + n) % txDescCount
  tail : t.nic.tdt = t.nic.txIndex
  history : t.accepted = t.sent ++ ringList (fun i => (i, t.nic.frame i)) txDescCount t.nic.tdh n
  busy : ∀ k < n, (t.nic.txDescs ((t.nic.tdh + k) % txDescCount)).status &&& 1 = 0
  free : ∀ k, n ≤ k → k < txDescCount →
    (t.nic.txDescs ((t.nic.tdh + k) % txDescCount)).status &&& 1 ≠ 0

section Ring
variable {t : TxState} {n : Nat}

variable {data : List UInt8} {t' : TxState}

lemma Queued.queued_eq (h : Queued t n) : t.nic.queued = n := by
  have hlt := h.lt
  have hhead := h.head
  rw [E1000.queued, h.tail, h.index]
  unfold txDescCount at *
  omega

lemma Queued.ok (h : Queued t n) : t.Ok := by
  rw [TxState.Ok, h.queued_eq]
  exact h.history

lemma txStart_queued (bufs : Nat → Mem) : Queued (txStart bufs) 0 where
  lt := by decide
  head := Nat.zero_lt_succ 31
  index := rfl
  tail := rfl
  history := rfl
  busy := fun k hk => absurd hk (Nat.not_lt_zero k)
  free := fun _ _ _ => (by decide : (1 : Nat) &&& 1 ≠ 0)

lemma next_add (i k : Nat) : ((i + 1) % txDescCount + k) % txDescCount = (i + (k + 1)) % txDescCount := by
  rw [Nat.mod_add_mod, Nat.add_assoc, Nat.add_comm 1 k]

lemma done_bit (status : Nat) : (status ||| 1) &&& 1 ≠ 0 := by
  rw [Nat.and_or_distrib_right]
  intro h
  exact absurd (Nat.or_eq_zero_iff.mp h).2 (by decide)

lemma frame_status (g : E1000) (i status head : Nat) :
    ({ g with
      txDescs := update g.txDescs i { g.txDescs i with status := status }
      tdh := head } : E1000).frame = g.frame := by
  funext j
  unfold E1000.frame
  dsimp only
  rcases eq_or_ne j i with rfl | hne
  · rw [update_self]
  · rw [update_of_ne hne]

lemma Queued.ne_head (h : Queued t n) {k : Nat} (hk : k + 1 < txDescCount) :
    (t.nic.tdh + (k + 1)) % txDescCount ≠ t.nic.tdh := by
  have hne : (t.nic.tdh + 0) % txDescCount ≠ (t.nic.tdh + (k + 1)) % txDescCount :=
    ring_index_ne (Nat.succ_pos k) (by omega)
  rw [Nat.add_zero, Nat.mod_eq_of_lt h.head] at hne
  exact hne.symm

lemma Queued.device (h : Queued t (n + 1)) (hstep : t.step .device = some t') :
    Queued t' n := by
  have hlt := h.lt
  have hhead : t.nic.tdh % txDescCount = t.nic.tdh := Nat.mod_eq_of_lt h.head
  have hne : t.nic.tdh ≠ t.nic.tdt := by
    rw [h.tail, h.index]
    exact (h.ne_head hlt).symm
  rw [TxState.step, transmit, if_neg hne] at hstep
  obtain rfl := Option.some.inj hstep
  refine ⟨by omega, Nat.mod_lt _ (by decide), ?_, h.tail, ?_, ?_, ?_⟩
  · rw [next_add, h.index]
  · rw [frame_status, h.history, ringList_succ, hhead, Option.toList_some, append_assoc,
      singleton_append]
  · intro k hk
    dsimp only
    rw [next_add, update_of_ne (h.ne_head (by omega))]
    exact h.busy (k + 1) (by omega)
  · intro k hk hk'
    dsimp only
    rw [next_add]
    rcases Nat.lt_or_ge (k + 1) txDescCount with hin | hout
    · rw [update_of_ne (h.ne_head hin)]
      exact h.free (k + 1) (by omega) hin
    · have hfull : k + 1 = txDescCount := by omega
      rw [hfull, Nat.add_mod_right, hhead, update_self]
      exact done_bit _

lemma Queued.device_empty (h : Queued t 0) (hstep : t.step .device = some t') :
    t' = t := by
  have hempty : t.nic.tdh = t.nic.tdt := by
    rw [h.tail, h.index, Nat.add_zero, Nat.mod_eq_of_lt h.head]
  rw [TxState.step, transmit, if_pos hempty, Option.toList_none, append_nil] at hstep
  exact (Option.some.inj hstep).symm

lemma send_refused (href : t.nic.ready = false ∨ data.length = 0)
    (hstep : t.step (.send data) = some t') : t' = t := by
  rw [TxState.step, e1000Send, if_pos href] at hstep
  exact (Option.some.inj hstep).symm

/-- The card as `e1000_send` leaves it when it takes a frame. -/
def loaded (g : E1000) (data : List UInt8) : E1000 :=
  { g with
    txBufs := update g.txBufs g.txIndex
      (splice (g.txBufs g.txIndex) 0 (data.take (min data.length txBufSize)))
    txDescs := update g.txDescs g.txIndex
      { g.txDescs g.txIndex with length := min data.length txBufSize, cmd := 9, status := 0 }
    txIndex := (g.txIndex + 1) % txDescCount
    tdt := (g.txIndex + 1) % txDescCount }

lemma loaded_frame (g : E1000) (data : List UInt8) :
    (fun i => (i, (loaded g data).frame i)) =
      update (fun i => (i, g.frame i)) g.txIndex (g.txIndex, data.take txBufSize) := by
  funext i
  unfold E1000.frame loaded
  dsimp only
  rcases eq_or_ne i g.txIndex with rfl | hne
  · have hlen : (data.take (min data.length txBufSize)).length = min data.length txBufSize := by
      rw [length_take]
      omega
    have hslice := slice_splice (g.txBufs g.txIndex) 0 (data.take (min data.length txBufSize))
    rw [hlen, Nat.min_comm, ← take_eq_take_min] at hslice
    rw [update_self, update_self, update_self, Nat.min_comm,
      ← take_eq_take_min]
    rw [hslice]
  · rw [update_of_ne hne, update_of_ne hne, update_of_ne hne]

lemma Queued.send_eq (h : Queued t n)
    (hready : t.nic.ready = true) (hdata : data.length ≠ 0) :
    t.step (.send data) =
      some ⟨loaded t.nic data, t.accepted ++ [(t.nic.txIndex, data.take txBufSize)], t.sent⟩ := by
  have hfree := h.free n (le_refl n) h.lt
  rw [← h.index] at hfree
  have htaken : ¬(t.nic.ready = false ∨ data.length = 0) := by
    rw [hready]
    exact fun h => h.elim (fun h => by cases h) hdata
  rw [TxState.step, e1000Send, if_neg htaken, if_neg hfree]
  rfl

lemma Queued.send (h : Queued t n) (hroom : n + 1 < txDescCount)
    (hready : t.nic.ready = true) (hdata : data.length ≠ 0)
    (hstep : t.step (.send data) = some t') : Queued t' (n + 1) := by
  rw [h.send_eq hready hdata] at hstep
  obtain rfl := Option.some.inj hstep
  have hindex : (loaded t.nic data).txIndex = (t.nic.tdh + (n + 1)) % txDescCount := by
    unfold loaded
    rw [h.index, Nat.mod_add_mod, Nat.add_assoc]
  have hother : ∀ k, k ≠ n → k < txDescCount → (t.nic.tdh + k) % txDescCount ≠ t.nic.txIndex := by
    intro k hne hk
    rw [h.index]
    rcases Nat.lt_or_gt_of_ne hne with hlt | hgt
    · exact ring_index_ne hlt (by omega)
    · exact (ring_index_ne hgt (by omega)).symm
  refine ⟨hroom, h.head, hindex, rfl, ?_, ?_, ?_⟩
  · dsimp only
    rw [loaded_frame, h.index, h.history, append_assoc]
    congr 1
    exact (ringList_push _ _ h.lt).symm
  · intro k hk
    rcases Nat.lt_succ_iff_lt_or_eq.mp hk with hlt | rfl
    · unfold loaded
      dsimp only
      rw [update_of_ne (hother k (by omega) (by omega))]
      exact h.busy k hlt
    · unfold loaded
      dsimp only
      rw [← h.index, update_self]
      exact Nat.zero_and 1
  · intro k hk hk'
    unfold loaded
    dsimp only
    rw [update_of_ne (hother k (by omega) hk')]
    exact h.free k (by omega) hk'

lemma Queued.not_ok_full (h : Queued t 31) (hready : t.nic.ready = true)
    (hdata : data.length ≠ 0) (hstep : t.step (.send data) = some t') : ¬t'.Ok := by
  rw [h.send_eq hready hdata] at hstep
  obtain rfl := Option.some.inj hstep
  have hempty : (loaded t.nic data).queued = 0 := by
    have hindex := h.index
    unfold E1000.queued loaded
    dsimp only
    unfold txDescCount at *
    omega
  intro hok
  rw [TxState.Ok] at hok
  rw [hempty, ringList_zero, append_nil, h.history] at hok
  have hlen := congrArg List.length hok
  simp only [length_append, ringList_length, length_singleton] at hlen
  omega

lemma Queued.step (h : Queued t n) {e : TxEvent} (hfits : ¬Overfills t e)
    (hstep : t.step e = some t') : ∃ n', Queued t' n' := by
  cases e with
  | send data =>
    by_cases htaken : t.nic.ready = true ∧ data.length ≠ 0
    · have hroom : n + 1 < txDescCount := by
        have hlt := h.lt
        have hnot : n ≠ 31 := fun heq => hfits ⟨htaken.1, htaken.2, h.queued_eq.trans heq⟩
        unfold txDescCount at *
        omega
      exact ⟨n + 1, h.send hroom htaken.1 htaken.2 hstep⟩
    · have href : t.nic.ready = false ∨ data.length = 0 := by
        rw [← Bool.not_eq_true]
        exact (not_and_or.mp htaken).imp id not_not.mp
      exact ⟨n, send_refused href hstep ▸ h⟩
  | device =>
    cases n with
    | zero => exact ⟨0, h.device_empty hstep ▸ h⟩
    | succ n => exact ⟨n, h.device hstep⟩

lemma okAfter_iff (h : Queued t n) (e : TxEvent) : OkAfter t e ↔ ¬Overfills t e := by
  constructor
  · intro hafter hover
    cases e with
    | send data =>
      obtain ⟨hready, hdata, hfull⟩ := hover
      have hn : n = 31 := h.queued_eq.symm.trans hfull
      subst hn
      exact h.not_ok_full hready hdata rfl (hafter _ rfl)
    | device => exact hover
  · intro hfits t' hstep
    obtain ⟨n', h'⟩ := h.step hfits hstep
    exact h'.ok

lemma Queued.overfilled (hdata : data.length ≠ 0) {k : Nat} (h : Queued t n)
    (hready : t.nic.ready = true) (hfull : n + k = 31) :
    ¬Along TxState.step OkAfter t (List.replicate (k + 1) (.send data)) := by
  induction k generalizing t n with
  | zero =>
    intro halong
    have hn : n = 31 := hfull
    subst hn
    exact h.not_ok_full hready hdata rfl (halong.1 _ rfl)
  | succ k ih =>
    intro halong
    have hstep := h.send_eq hready hdata
    have hroom : n + 1 < txDescCount := by
      unfold txDescCount
      omega
    exact ih (h.send hroom hready hdata hstep) hready (by omega) (halong.2 _ hstep)

end Ring

/-- After `e1000_init`, in every interleaving of `e1000_send` with the card, every frame that is accepted
and not yet sent stands in the ring from TDH up to TDT with its bytes, and the card sends the accepted
frames in their order, exactly if no frame is queued behind 31 others. -/
theorem tx_ring_iff (bufs : Nat → Mem) (es : List TxEvent) :
    ((txStart bufs).Ok ∧ Along TxState.step OkAfter (txStart bufs) es) ↔
      Along TxState.step (fun t e => ¬Overfills t e) (txStart bufs) es := by
  have hstart := txStart_queued bufs
  rw [and_iff_right hstart.ok]
  apply Along.iff_of_invariant (G := fun _ _ => True) (fun t => ∃ n, Queued t n)
  · rintro t e t' ⟨n, h⟩ - hafter hstep
    exact h.step ((okAfter_iff h e).mp hafter) hstep
  · rintro t e ⟨n, h⟩ -
    exact okAfter_iff h e
  · exact ⟨0, hstart⟩
  · exact .of_forall (fun _ _ => trivial) _ _

/-- 32 frames are handed over before the card sends the first. -/
theorem not_tx_ring_full :
    ¬ Along TxState.step OkAfter (txStart fun _ _ => 0) (List.replicate 32 (.send [1])) :=
  Queued.overfilled (k := 31) (by decide) (txStart_queued _) rfl rfl

end FusionOS.Drivers
