import FusionOS.Net.DnsMessage
import FusionOS.Lib.Split

/-!
# DNS queries

`net_dns_resolve` turns a host name into a question: each label between two dots behind its length.
It does not look at the labels.
-/

namespace FusionOS.Net

open List

def dot : UInt8 := 0x2E

/-- The loop over the host name. The length is kept in a `u8`. -/
def encodeLabels (label : List UInt8) : List UInt8 :=
  if _h : label = [] then []
  else
    let text := label.takeWhile (· != dot)
    let behind := label.dropWhile (· != dot)
    UInt8.ofNat text.length :: (text.take (text.length % 256) ++ encodeLabels (behind.drop 1))
termination_by label.length
decreasing_by exact length_behind_piece _h

/-- The bytes written to `packet`: the header, the name, and type A of class IN. -/
def dnsPacket (txid : Nat) (host : List UInt8) : List UInt8 :=
  u16be txid ++ u16be 0x0100 ++ u16be 1 ++ List.replicate 6 0 ++ encodeLabels host ++ [0] ++ [0, 1, 0, 1]

/-- `net_dns_resolve` up to the point where it waits for the response; `none` where the network is down. -/
def netDnsRequest (s : NetState) (host : List UInt8) : Option NetState :=
  if s.netReady && s.localIp != 0 then
    let s := { s with
      dnsServer := if s.dnsServer = 0 then 0x08080808 else s.dnsServer
      dnsPending := true
      dnsResultIp := 0
      dnsTxid := (s.ticks ^^^ 0x1234) % 65536 }
    some (netSendUdp s s.dnsServer 49152 53 (dnsPacket s.dnsTxid host))
  else none

/-! ## Reading the question back -/

def readLabels : List UInt8 → List (List UInt8)
  | [] => []
  | n :: rest => if n = 0 then [] else rest.take n.toNat :: readLabels (rest.drop n.toNat)
termination_by bytes => bytes.length
decreasing_by
  rw [length_drop, length_cons]
  omega

/-- The question is read back as it was meant. -/
structure QuestionFramed (host packet : List UInt8) : Prop where
  consumed : dnsSkipName packet packet.length 12 = some (some (packet.length - 4))
  labels : [dot].intercalate (readLabels (packet.drop 12)) = stripLast dot host
  inside : packet.length ≤ 256

/-- No dot in front and no two dots in a row. -/
def NoEmptyLabel (host : List UInt8) : Prop := host.head? ≠ some dot ∧ ¬ [dot, dot] <:+: host

instance (host : List UInt8) : Decidable (NoEmptyLabel host) := inferInstanceAs (Decidable (_ ∧ _))

def encodeLabel (text : List UInt8) : List UInt8 := UInt8.ofNat text.length :: text

lemma encodeLabels_eq {host : List UInt8} (hlen : host.length < 256) :
    encodeLabels host = (pieces dot host).flatMap encodeLabel := by
  induction host using split_induction dot with
  | nil => rw [encodeLabels, dif_pos rfl, pieces_nil, flatMap_nil]
  | last text hne h =>
    rw [encodeLabels, dif_neg hne]
    dsimp only
    rw [takeWhile_last h, dropWhile_last h, pieces_last hne h, Nat.mod_eq_of_lt hlen, take_length,
      drop_nil, encodeLabels, dif_pos rfl, flatMap_singleton, append_nil, encodeLabel]
  | more text rest h ih =>
    rw [length_append, length_cons] at hlen
    rw [encodeLabels, dif_neg (append_ne_nil_of_right_ne_nil _ (cons_ne_nil _ _))]
    dsimp only
    rw [takeWhile_piece h, dropWhile_piece h, pieces_more h, Nat.mod_eq_of_lt (by omega), take_length,
      drop_one, tail_cons, ih (by omega), flatMap_cons]
    rfl

section Labels
variable {f : Buf} {stop p : Nat} {rest : List UInt8}

lemma dnsSkipName_labels (labels : List (List UInt8)) (hne : [] ∉ labels)
    (hlt : ∀ text ∈ labels, text.length < 192)
    (hdrop : f.drop p = labels.flatMap encodeLabel ++ 0 :: rest)
    (hstop : p + (labels.flatMap encodeLabel).length + 1 ≤ stop) :
    dnsSkipName f stop p = some (some (p + (labels.flatMap encodeLabel).length + 1)) := by
  induction labels generalizing p with
  | nil => exact dnsSkipName_end (e := .root) hdrop hstop
  | cons text labels ih =>
    rw [mem_cons, not_or] at hne
    have hcons : (text :: labels).flatMap encodeLabel =
        encodeLabel text ++ labels.flatMap encodeLabel := flatMap_cons
    have hlen : (encodeLabel text).length = text.length + 1 := rfl
    rw [hcons, append_assoc] at hdrop
    rw [hcons, length_append] at hstop ⊢
    have hnext := drop_add_of_drop hdrop
    rw [dnsSkipName_bytes (Ne.symm hne.1) (hlt text mem_cons_self) hdrop (by omega), ← hlen,
      ih hne.2 (fun text' hmem => hlt text' (mem_cons_of_mem _ hmem)) hnext (by omega),
      Nat.add_assoc p]

lemma readLabels_encode (labels : List (List UInt8)) (hne : [] ∉ labels)
    (hlt : ∀ text ∈ labels, text.length < 256) :
    readLabels (labels.flatMap encodeLabel ++ 0 :: rest) = labels := by
  induction labels with
  | nil => rw [flatMap_nil, nil_append, readLabels, if_pos rfl]
  | cons text labels ih =>
    rw [mem_cons, not_or] at hne
    have hlen : (UInt8.ofNat text.length).toNat = text.length := by
      rw [UInt8.toNat_ofNat', Nat.mod_eq_of_lt (hlt text mem_cons_self)]
    have hpos : UInt8.ofNat text.length ≠ 0 := by
      intro heq
      rw [heq] at hlen
      exact hne.1 (length_eq_zero_iff.mp hlen.symm).symm
    rw [flatMap_cons, encodeLabel, append_assoc, cons_append, readLabels, if_neg hpos, hlen,
      take_left, drop_left, ih hne.2 fun text' hmem => hlt text' (mem_cons_of_mem _ hmem)]

end Labels

/-! ## The packet -/

section Packet
variable (txid : Nat) {host : List UInt8}

lemma drop_dnsPacket (hlen : host.length < 256) :
    (dnsPacket txid host).drop 12 = (pieces dot host).flatMap encodeLabel ++ 0 :: [0, 1, 0, 1] := by
  rw [dnsPacket, encodeLabels_eq hlen, append_assoc, append_assoc]
  rfl

lemma length_dnsPacket (hlen : host.length < 256) :
    (dnsPacket txid host).length = 12 + ((pieces dot host).flatMap encodeLabel).length + 5 := by
  have hdrop := congrArg List.length (drop_dnsPacket txid hlen)
  rw [length_drop, length_append] at hdrop
  simp only [length_cons, length_nil] at hdrop
  omega

lemma length_encodeLabels_le (host : List UInt8) :
    ((pieces dot host).flatMap encodeLabel).length ≤ host.length + 1 := by
  rw [length_flatMap]
  exact sum_pieces_le host

lemma noEmptyLabel_iff : NoEmptyLabel host ↔ [] ∉ pieces dot host := by
  rw [nil_mem_pieces, not_or]
  rfl

lemma pieces_lt (hlen : host.length < 192) : ∀ text ∈ pieces dot host, text.length < 192 :=
  fun _ hmem => Nat.lt_of_le_of_lt (length_le_of_mem_pieces hmem) hlen

lemma question_framed (hlen : host.length < 192) (hlabels : NoEmptyLabel host) :
    QuestionFramed host (dnsPacket txid host) where
  consumed := by
    have hpacket := length_dnsPacket txid (Nat.lt_trans hlen (by decide))
    rw [dnsSkipName_labels (pieces dot host) (noEmptyLabel_iff.mp hlabels) (pieces_lt hlen)
      (drop_dnsPacket txid (by omega)) (by omega), hpacket]
    rfl
  labels := by
    have hlt : ∀ text ∈ pieces dot host, text.length < 256 := fun text hmem =>
      Nat.lt_trans (pieces_lt hlen text hmem) (by decide)
    rw [drop_dnsPacket txid (by omega), readLabels_encode _ (noEmptyLabel_iff.mp hlabels) hlt,
      intercalate_pieces]
  inside := by
    have hle := length_encodeLabels_le host
    rw [length_dnsPacket txid (by omega)]
    omega

lemma dnsSkipName_early (hlen : host.length < 192) (hempty : ¬ NoEmptyLabel host) :
    ∃ p, dnsSkipName (dnsPacket txid host) (dnsPacket txid host).length 12 = some (some p) ∧
      p < (dnsPacket txid host).length - 4 := by
  rw [noEmptyLabel_iff, not_not] at hempty
  obtain ⟨before, behind, heq, hbefore⟩ := eq_append_cons_of_mem hempty
  have hlt : ∀ text ∈ before, text.length < 192 := fun text hmem =>
    pieces_lt hlen text (heq ▸ mem_append_left _ hmem)
  have hflat : (pieces dot host).flatMap encodeLabel =
      before.flatMap encodeLabel ++ 0 :: behind.flatMap encodeLabel := by
    rw [heq, flatMap_append, flatMap_cons]
    rfl
  have hpacket := length_dnsPacket txid (Nat.lt_trans hlen (by decide))
  have hdrop := drop_dnsPacket txid (Nat.lt_trans hlen (by decide))
  rw [hflat, append_assoc, cons_append] at hdrop
  rw [hflat, length_append, length_cons] at hpacket
  exact ⟨_, dnsSkipName_labels before hbefore hlt hdrop (by omega), by omega⟩

lemma questionFramed_iff (hlen : host.length < 192) :
    QuestionFramed host (dnsPacket txid host) ↔ NoEmptyLabel host := by
  refine ⟨fun hframed => ?_, question_framed txid hlen⟩
  by_contra hempty
  obtain ⟨p, hskip, hlt⟩ := dnsSkipName_early txid hlen hempty
  have hend := hskip.symm.trans hframed.consumed
  rw [Option.some.injEq, Option.some.injEq] at hend
  omega

end Packet

end FusionOS.Net
