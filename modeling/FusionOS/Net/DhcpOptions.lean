import FusionOS.Net.Stack

/-!
# The options of a DHCP reply

The option area is a sequence of pad bytes and options, each a tag, a length and that many bytes of
data, up to an end mark or the end of the packet.
-/

namespace FusionOS.Net

open List

structure DhcpOpt where
  tag : UInt8
  data : List UInt8
  tag_ne : tag ≠ 0 ∧ tag ≠ 255
  short : data.length ≤ 255

inductive OptItem where
  | pad
  | opt (o : DhcpOpt)

def OptItem.encode : OptItem → List UInt8
  | .pad => [0]
  | .opt o => o.tag :: UInt8.ofNat o.data.length :: o.data

/-- How the options end: with the packet, or with a mark and any bytes behind it. -/
inductive OptEnd where
  | packet
  | mark (rest : List UInt8)

def OptEnd.encode : OptEnd → List UInt8
  | .packet => []
  | .mark rest => 255 :: rest

def encodeOptions (items : List OptItem) (ending : OptEnd) : List UInt8 :=
  items.flatMap OptItem.encode ++ ending.encode

/-! ## The values meant -/

/-- The data of an item that is an option with the tag `tag` and a length that is accepted. -/
def OptItem.dataFor (tag : Nat) (accepted : Nat → Bool) : OptItem → Option (List UInt8)
  | .pad => none
  | .opt o => if o.tag.toNat = tag ∧ accepted o.data.length = true then some o.data else none

def lastData (tag : Nat) (accepted : Nat → Bool) (items : List OptItem) : Option (List UInt8) :=
  (items.filterMap (OptItem.dataFor tag accepted)).getLast?

def firstByte (data : Option (List UInt8)) : Nat := (data.bind fun d => rd8 d 0).getD 0

/-- The value of the first four bytes, as `memcpy` into a `u32` gives it; 0 without an option. -/
def firstWord (data : Option (List UInt8)) : Nat := (data.bind fun d => rd32le d 0).getD 0

def isLen (n : Nat) (len : Nat) : Bool := len == n
def isMinLen (n : Nat) (len : Nat) : Bool := decide (n ≤ len)

def optionsOf (items : List OptItem) : DhcpOptions where
  msgType := firstByte (lastData 53 (isLen 1) items)
  serverId := firstWord (lastData 54 (isLen 4) items)
  subnet := firstWord (lastData 1 (isLen 4) items)
  router := firstWord (lastData 3 (isMinLen 4) items)
  dns := firstWord (lastData 6 (isMinLen 4) items)

section Values
variable {items : List OptItem} {item : OptItem} {tag : Nat} {accepted : Nat → Bool}

lemma lastData_snoc (tag : Nat) (accepted : Nat → Bool) (items : List OptItem) (item : OptItem) :
    lastData tag accepted (items ++ [item]) =
      (item.dataFor tag accepted).or (lastData tag accepted items) := by
  rw [lastData, lastData, filterMap_append, List.getLast?_append]
  congr 1
  cases hdata : item.dataFor tag accepted with
  | none => rw [filterMap_cons_none hdata, filterMap_nil, List.getLast?_nil]
  | some d => rw [filterMap_cons_some hdata, filterMap_nil, List.getLast?_singleton]

lemma optionsOf_pad : optionsOf (items ++ [.pad]) = optionsOf items := by
  simp only [optionsOf, lastData_snoc, OptItem.dataFor, Option.none_or]

end Values

/-! ## The loop -/

section Loop
variable {f : Buf} {stop opt : Nat} {o : DhcpOpt} {items done : List OptItem} {rest : List UInt8}

lemma dhcpOption_eq (hdrop : f.drop opt = o.data ++ rest) :
    dhcpOption f o.tag.toNat o.data.length opt (optionsOf done) = some (optionsOf (done ++ [.opt o])) := by
  have hbyte : 0 < o.data.length → rd8 f opt = some (firstByte (some o.data)) := by
    intro hpos
    obtain ⟨v, hv, -⟩ := rd8_of_lt hpos
    rw [← Nat.add_zero opt, ← rd8_drop, hdrop, rd8_append hpos, firstByte, Option.bind_some, hv]
    rfl
  have hword : 4 ≤ o.data.length → rd32le f opt = some (firstWord (some o.data)) := by
    intro hmin
    obtain ⟨v, hv, -⟩ := rd32le_of_lt (f := o.data) (i := 0) (by omega)
    rw [← Nat.add_zero opt, ← rd32le_drop, hdrop, rd32le_append (by omega), firstWord, Option.bind_some, hv]
    rfl
  simp only [optionsOf, lastData_snoc, OptItem.dataFor, isLen, isMinLen, beq_iff_eq, decide_eq_true_eq]
  unfold dhcpOption
  split
  · rename_i h
    rw [hbyte (by omega)]
    simp [h]
  split
  · rename_i h
    rw [hword (by omega)]
    simp [h]
  split
  · rename_i h
    rw [hword (by omega)]
    simp [h]
  split
  · rename_i h
    rw [hword (by omega)]
    simp [h]
  split
  · rw [hword (by omega)]
    simp
  · simp only [Option.none_or]

lemma dhcpOptions_pad (hdrop : f.drop opt = 0 :: rest) (hstop : opt + 1 ≤ stop) :
    dhcpOptions f stop opt (optionsOf done) =
      dhcpOptions f stop (opt + 1) (optionsOf (done ++ [.pad])) := by
  rw [dhcpOptions, if_pos (by omega), rd8_of_drop hdrop, Option.bind_some, if_neg (by decide),
    if_pos (by decide), optionsOf_pad]

lemma dhcpOptions_opt (hdrop : f.drop opt = (OptItem.opt o).encode ++ rest)
    (hstop : opt + (OptItem.opt o).encode.length ≤ stop) :
    dhcpOptions f stop opt (optionsOf done) =
      dhcpOptions f stop (opt + (OptItem.opt o).encode.length) (optionsOf (done ++ [.opt o])) := by
  have hlen : (OptItem.opt o).encode.length = 2 + o.data.length := by
    rw [OptItem.encode, length_cons, length_cons]
    omega
  have htag : o.tag.toNat ≠ 0 ∧ o.tag.toNat ≠ 255 :=
    ⟨fun h => o.tag_ne.1 (UInt8.toNat_inj.mp h), fun h => o.tag_ne.2 (UInt8.toNat_inj.mp h)⟩
  have holen : (UInt8.ofNat o.data.length).toNat = o.data.length := by
    have hshort := o.short
    rw [UInt8.toNat_ofNat']
    omega
  have hlength := drop_succ_of_drop hdrop
  have hdata := drop_succ_of_drop hlength
  rw [hlen] at hstop ⊢
  rw [dhcpOptions, if_pos (by omega), rd8_of_drop hdrop, Option.bind_some, if_neg htag.2, if_neg htag.1,
    if_neg (by omega), rd8_of_drop hlength, Option.bind_some, holen, if_neg (by omega),
    dhcpOption_eq hdata, Option.bind_some, Nat.add_assoc opt 2]

lemma dhcpOptions_end {ending : OptEnd} (hdrop : f.drop opt = ending.encode ++ rest)
    (hstop : stop = opt + ending.encode.length) :
    dhcpOptions f stop opt (optionsOf done) = some (optionsOf done) := by
  cases ending with
  | packet => rw [dhcpOptions, if_neg (by rw [hstop]; exact Nat.lt_irrefl _)]
  | mark behind =>
    rw [OptEnd.encode, length_cons] at hstop
    rw [dhcpOptions, if_pos (by omega), rd8_of_drop hdrop, Option.bind_some, if_pos (by decide)]

lemma dhcpOptions_items (items done : List OptItem) {ending : OptEnd} {behind : List UInt8}
    (hdrop : f.drop opt = encodeOptions items ending ++ behind)
    (hstop : stop = opt + (encodeOptions items ending).length) :
    dhcpOptions f stop opt (optionsOf done) = some (optionsOf (done ++ items)) := by
  induction items generalizing opt done with
  | nil =>
    rw [append_nil]
    exact dhcpOptions_end hdrop hstop
  | cons item items ih =>
    have hcons : encodeOptions (item :: items) ending = item.encode ++ encodeOptions items ending := by
      rw [encodeOptions, flatMap_cons, append_assoc]
      rfl
    rw [hcons] at hdrop hstop
    rw [append_assoc] at hdrop
    rw [length_append] at hstop
    have hrest := ih (done ++ [item]) (drop_add_of_drop hdrop) (by omega)
    rw [append_assoc, singleton_append] at hrest
    rw [← hrest]
    cases item with
    | pad => exact dhcpOptions_pad hdrop (by rw [OptItem.encode, length_singleton] at hstop; omega)
    | opt o => exact dhcpOptions_opt hdrop (by omega)

end Loop

/-- Of every reply, the option loop of `dhcp_handle` extracts the values of the last options of each tag
that have an accepted length. -/
theorem dhcp_options_extracted (header : Buf) (hlen : header.length = 240) (items : List OptItem)
    (ending : OptEnd) :
    dhcpOptions (header ++ encodeOptions items ending) (header ++ encodeOptions items ending).length 240
      ⟨0, 0, 0, 0, 0⟩ = some (optionsOf items) := by
  have hdrop : (header ++ encodeOptions items ending).drop 240 = encodeOptions items ending ++ [] := by
    rw [← hlen, drop_left, append_nil]
  exact dhcpOptions_items items [] hdrop (by rw [length_append, hlen])

def serverIdOpt (a b c d : UInt8) : DhcpOpt := ⟨54, [a, b, c, d], by decide, Nat.le_of_ble_eq_true rfl⟩

/-- A mask whose data look like an end mark and a tag, a pad byte, and two server ids. -/
def twoServers : List OptItem :=
  [.opt ⟨1, [255, 255, 54, 0], by decide, by decide⟩, .pad,
    .opt (serverIdOpt 10 0 0 1), .opt (serverIdOpt 10 0 0 2)]

theorem dhcp_options_extracted_twoServers :
    dhcpOptions (List.replicate 240 0 ++ encodeOptions twoServers .packet)
        (List.replicate 240 0 ++ encodeOptions twoServers .packet).length 240 ⟨0, 0, 0, 0, 0⟩ =
      some ⟨0, 0x0200000A, 0x0036FFFF, 0, 0⟩ :=
  (dhcp_options_extracted (List.replicate 240 0) length_replicate twoServers .packet).trans rfl

end FusionOS.Net
