import FusionOS.Net.DnsQuery

/-!
# The host of an address

`browser_parse_url` cuts an address into a host and a path, and the host goes to `net_dns_resolve`
as it is.
-/

namespace FusionOS.Browser

open Net

def slash : UInt8 := 0x2F

/-- `http://` -/
def httpScheme : List UInt8 := [0x68, 0x74, 0x74, 0x70, 0x3A, 0x2F, 0x2F]

/-- `https://` -/
def httpsScheme : List UInt8 := [0x68, 0x74, 0x74, 0x70, 0x73, 0x3A, 0x2F, 0x2F]

/-- The address behind its scheme; `https` is refused. -/
def behindScheme (url : List UInt8) : Option (List UInt8) :=
  if url.take 7 = httpScheme then some (url.drop 7)
  else if url.take 8 = httpsScheme then none
  else some url

/-- The host and the path that `browser_parse_url` writes, as C strings. -/
def browserParseUrl (url : List UInt8) (hostCap pathCap : Nat) : Option (List UInt8 × List UInt8) :=
  (behindScheme url).bind fun p =>
    let host := p.takeWhile (· != slash)
    let path := p.dropWhile (· != slash)
    if host.length = 0 ∨ hostCap ≤ host.length then none
    else if path ≠ [] then some (host, path.take (pathCap - 1))
    else if pathCap < 2 then none
    else some (host, [slash])

lemma host_of_browserParseUrl {url host path : List UInt8} {hostCap pathCap : Nat}
    (h : browserParseUrl url hostCap pathCap = some (host, path)) :
    0 < host.length ∧ host.length < hostCap ∧ slash ∉ host := by
  obtain ⟨p, -, hp⟩ := Option.bind_eq_some_iff.mp h
  dsimp only at hp
  split at hp
  · cases hp
  · have hhost : host = p.takeWhile (· != slash) := by
      split at hp
      · exact (Prod.mk.inj (Option.some.inj hp)).1.symm
      · split at hp
        · cases hp
        · exact (Prod.mk.inj (Option.some.inj hp)).1.symm
    rw [hhost]
    refine ⟨by omega, by omega, fun hmem => ?_⟩
    have hne := List.mem_takeWhile_imp hmem
    exact absurd rfl (bne_iff_ne.mp hne)

lemma exists_browserParseUrl_iff {host : List UInt8} :
    (∃ url path, browserParseUrl url 96 128 = some (host, path)) ↔
      0 < host.length ∧ host.length < 96 ∧ slash ∉ host := by
  constructor
  · rintro ⟨url, path, h⟩
    exact host_of_browserParseUrl h
  · rintro ⟨hpos, hlt, hslash⟩
    refine ⟨httpScheme ++ host, [slash], ?_⟩
    have hbehind : behindScheme (httpScheme ++ host) = some host := if_pos rfl
    rw [browserParseUrl, hbehind, Option.bind_some]
    rw [takeWhile_last hslash, dropWhile_last hslash, if_neg (by omega), if_neg (not_not.mpr rfl),
      if_neg (by decide)]

/-- For every host that an address can have, the question of `net_dns_resolve` is framed as it should be
if and only if the host has no dot in front and no two dots in a row. -/
theorem question_framed_iff {url host path : List UInt8}
    (hparse : browserParseUrl url 96 128 = some (host, path)) (txid : Nat) :
    QuestionFramed host (dnsPacket txid host) ↔ NoEmptyLabel host := by
  obtain ⟨-, hlt, -⟩ := host_of_browserParseUrl hparse
  exact questionFramed_iff txid (by omega)

/-- `http://a.bc./x` -/
theorem question_framed_iff_trailing :
    QuestionFramed [0x61, 0x2E, 0x62, 0x63, 0x2E] (dnsPacket 0x1234 [0x61, 0x2E, 0x62, 0x63, 0x2E]) := by
  have hparse : browserParseUrl (httpScheme ++ [0x61, 0x2E, 0x62, 0x63, 0x2E, 0x2F, 0x78]) 96 128 =
      some ([0x61, 0x2E, 0x62, 0x63, 0x2E], [0x2F, 0x78]) := by decide
  exact (question_framed_iff hparse 0x1234).mpr (by decide)

/-- `http://a..b`: the name ends behind its first label. -/
theorem not_question_framed_doubled :
    browserParseUrl (httpScheme ++ [0x61, 0x2E, 0x2E, 0x62]) 96 128 = some ([0x61, 0x2E, 0x2E, 0x62], [0x2F]) ∧
      ¬ QuestionFramed [0x61, 0x2E, 0x2E, 0x62] (dnsPacket 0x1234 [0x61, 0x2E, 0x2E, 0x62]) := by
  refine ⟨by decide, fun hframed => ?_⟩
  have hlabels := (questionFramed_iff 0x1234 (by decide)).mp hframed
  exact absurd hlabels (by decide)

end FusionOS.Browser
