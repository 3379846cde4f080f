import EgressDns.Config.Endpoint
import EgressDns.Lib.Outcome
import EgressDns.Lib.UrlFrames

/-!
# From entries to servers

Which server of the upstream tree comes from which entry of the list, and what changes in the tree
when `auto` stands for another list of entries.
-/

namespace EgressDns

open Lib

open Lib (decimal)

theorem TransportKind.label_injective {s t : TransportKind} (h : s.label = t.label) : s = t := by
  cases s <;> cases t <;> first | rfl | exact absurd h (by decide)

theorem dash_notMem_decimal (n : Nat) : 45 ∉ decimal n := by
  intro h
  exact absurd (digit_of_mem_decimal h) (by decide)

theorem serverName_injective {i j : Nat} {s t : TransportKind}
    (h : serverName i s = serverName j t) : i = j ∧ s = t := by
  obtain ⟨hindex, hlabel⟩ := append_cons_inj (dash_notMem_decimal i) (dash_notMem_decimal j)
    (List.cons.inj h).2
  exact ⟨decimal_injective hindex, TransportKind.label_injective hlabel⟩

section Servers

variable {lib : ConfigLib} {index : Nat} {entry : Text}

structure FromEntry (index : Nat) (s : ServerConfig) : Prop where
  name : s.name = serverName index s.transport
  role : s.role = .authority
  enabled : s.enabled = true
  identity : s.transport.isEncrypted = true → s.serverName ≠ none

variable {s : ServerConfig} {out : List ServerConfig} {entries : List Text}

theorem serverOf_eq_ok {c : Endpoint} (h : serverOf lib index entry c = .ok s) :
    FromEntry index s ∧ s.transport = c.transport := by
  unfold serverOf at h
  split at h
  · split at h
    · cases h
    · rename_i hplain
      cases h
      exact ⟨⟨rfl, rfl, rfl, fun hs => absurd hs hplain⟩, rfl⟩
  · cases h
    exact ⟨⟨rfl, rfl, rfl, fun _ => nofun⟩, rfl⟩

theorem Endpoint.parse_eq_ok {found : List Endpoint} (h : Endpoint.parse lib entry = .ok found) :
    found ≠ [] ∧ (found.map (·.transport)).Nodup := by
  have hdoh : ∀ host port path hints, dohCandidates host port path hints ≠ [] ∧
      ((dohCandidates host port path hints).map (·.transport)).Nodup := by
    intro host port path hints
    simp [dohCandidates]
  have hone : ∀ c : Endpoint, [c] ≠ [] ∧ ([c].map (·.transport)).Nodup := by
    intro c
    simp
  have hcandidates : ∀ url host hints, candidates (trim entry) url host hints = .ok found →
      found ≠ [] ∧ (found.map (·.transport)).Nodup := by
    intro url host hints hc
    by_cases hhttps : url.scheme = ascii "https"
    · simp only [candidates, hhttps, if_true] at hc
      cases hc
      exact hdoh _ _ _ _
    · simp only [candidates, hhttps, if_false] at hc
      repeat' split at hc
      all_goals first
        | cases hc; exact hone _
        | cases hc
  unfold Endpoint.parse at h
  dsimp only at h
  split at h
  · cases h
  · split at h
    · cases h
      exact hone _
    · split at h
      · unfold parseUri at h
        split at h
        · cases h
        · obtain ⟨hints, -, hrest⟩ := bind_eq_ok_iff.mp h
          split at hrest
          · cases hrest
          · exact hcandidates _ _ _ hrest
      · split at h
        · cases h
          exact hdoh _ _ _ _
        · cases h

theorem serversOf_eq_ok {servers : List ServerConfig} (h : serversOf lib index entry = .ok servers) :
    servers ≠ [] ∧ (∀ s ∈ servers, FromEntry index s) ∧ (servers.map (·.transport)).Nodup := by
  obtain ⟨found, hparse, hmap⟩ := bind_eq_ok_iff.mp h
  obtain ⟨hne, hnodup⟩ := Endpoint.parse_eq_ok hparse
  have hall := mapM_eq_ok_iff.mp hmap
  have htransports : servers.map (·.transport) = found.map (·.transport) := by
    clear hnodup hne hmap hparse h
    induction hall with
    | nil => rfl
    | cons hc _ ih => rw [List.map_cons, List.map_cons, (serverOf_eq_ok hc).2, ih]
  refine ⟨?_, ?_, htransports ▸ hnodup⟩
  · rintro rfl
    cases hall
    exact hne rfl
  · intro s hs
    obtain ⟨c, -, hc⟩ := exists_of_mem_right hall hs
    exact (serverOf_eq_ok hc).1

theorem exists_entry_of_mem {n : Nat} (h : serversFrom lib n entries = .ok out) (hs : s ∈ out) :
    ∃ i e servers, entries[i]? = some e ∧ serversOf lib (n + i) e = .ok servers ∧
      s ∈ servers := by
  induction entries generalizing n out with
  | nil =>
    cases h
    cases hs
  | cons e rest ih =>
    obtain ⟨servers, he, hmore⟩ := bind_eq_ok_iff.mp h
    obtain ⟨more, hrest, heq⟩ := bind_eq_ok_iff.mp hmore
    cases heq
    rcases List.mem_append.mp hs with hs | hs
    · exact ⟨0, e, servers, rfl, he, hs⟩
    · obtain ⟨i, e', servers', hi, hof, hmem⟩ := ih hrest hs
      rw [Nat.add_assoc, Nat.add_comm 1 i] at hof
      exact ⟨i + 1, e', servers', hi, hof, hmem⟩

theorem servers_of_entry {n i : Nat} {e : Text} (h : serversFrom lib n entries = .ok out)
    (hi : entries[i]? = some e) :
    ∃ servers, serversOf lib (n + i) e = .ok servers ∧ ∀ s ∈ servers, s ∈ out := by
  induction entries generalizing n out i with
  | nil => cases hi
  | cons e' rest ih =>
    obtain ⟨servers, he, hmore⟩ := bind_eq_ok_iff.mp h
    obtain ⟨more, hrest, heq⟩ := bind_eq_ok_iff.mp hmore
    cases heq
    cases i with
    | zero =>
      cases hi
      exact ⟨servers, he, fun s hs => List.mem_append_left _ hs⟩
    | succ i =>
      obtain ⟨servers', hof, hsub⟩ := ih hrest hi
      rw [Nat.add_assoc, Nat.add_comm 1 i] at hof
      exact ⟨servers', hof, fun s hs => List.mem_append_right _ (hsub s hs)⟩

theorem eq_of_serverName_eq (h : serversFrom lib 0 entries = .ok out) {t : ServerConfig}
    (hs : s ∈ out) (ht : t ∈ out) (hname : s.name = t.name) : s = t := by
  obtain ⟨i, e, servers, hi, hof, hmem⟩ := exists_entry_of_mem h hs
  obtain ⟨j, e', servers', hj, hof', hmem'⟩ := exists_entry_of_mem h ht
  obtain ⟨-, hfrom, hnodup⟩ := serversOf_eq_ok hof
  obtain ⟨-, hfrom', -⟩ := serversOf_eq_ok hof'
  rw [(hfrom s hmem).name, (hfrom' t hmem').name] at hname
  obtain ⟨hindex, htransport⟩ := serverName_injective hname
  have hij : i = j := by omega
  subst hij
  rw [hi] at hj
  cases hj
  rw [hof] at hof'
  cases hof'
  -- Within one entry the transport tells the servers apart.
  exact List.inj_on_of_nodup_map hnodup hmem hmem' htransport

end Servers

section Acceptance

variable {lib : ConfigLib} {entry : Text}

/-- An entry that stands for servers. Only a name can be authenticated. -/
def Accepted (lib : ConfigLib) (entry : Text) : Prop :=
  ∃ found, Endpoint.parse lib entry = .ok found ∧
    ∀ c ∈ found, c.transport.isEncrypted = true → ∃ name, c.host = .name name

theorem exists_serverOf_iff {index : Nat} {c : Endpoint} :
    (∃ s, serverOf lib index entry c = .ok s) ↔
      (c.transport.isEncrypted = true → ∃ name, c.host = .name name) := by
  unfold serverOf
  cases c.host with
  | addr a => cases c.transport.isEncrypted <;> simp
  | name n => simp

theorem accepted_iff (index : Nat) :
    Accepted lib entry ↔ ∃ servers, serversOf lib index entry = .ok servers := by
  constructor
  · rintro ⟨found, hparse, hall⟩
    obtain ⟨servers, hmap⟩ := exists_mapM_ok (f := serverOf lib index entry)
      fun c hc => exists_serverOf_iff.mpr (hall c hc)
    exact ⟨servers, bind_eq_ok_iff.mpr ⟨found, hparse, hmap⟩⟩
  · rintro ⟨servers, h⟩
    obtain ⟨found, hparse, hmap⟩ := bind_eq_ok_iff.mp h
    refine ⟨found, hparse, ?_⟩
    intro c hc
    obtain ⟨s, -, hs⟩ := exists_of_mem_left (mapM_eq_ok_iff.mp hmap) hc
    exact exists_serverOf_iff.mp ⟨s, hs⟩

theorem exists_serversFrom_iff {n : Nat} {entries : List Text} :
    (∃ out, serversFrom lib n entries = .ok out) ↔ ∀ e ∈ entries, Accepted lib e := by
  induction entries generalizing n with
  | nil => simp [serversFrom]
  | cons e rest ih =>
    rw [List.forall_mem_cons, accepted_iff n, ← ih (n := n + 1)]
    constructor
    · rintro ⟨out, h⟩
      obtain ⟨servers, he, hmore⟩ := bind_eq_ok_iff.mp h
      obtain ⟨more, hrest, -⟩ := bind_eq_ok_iff.mp hmore
      exact ⟨⟨servers, he⟩, more, hrest⟩
    · rintro ⟨⟨servers, he⟩, more, hrest⟩
      exact ⟨servers ++ more, bind_eq_ok_iff.mpr ⟨servers, he,
        bind_eq_ok_iff.mpr ⟨more, hrest, rfl⟩⟩⟩

end Acceptance

section Measured

variable {lib : ConfigLib} {auto auto' upstreams entries : List Text}

def measured (auto upstreams : List Text) : List Text :=
  upstreams.flatMap fun e => if isAuto e then auto else [e]

def Literal (e : Text) : Prop :=
  isAuto e = false ∧ (ascii "builtin:").isPrefixOf (trim e) = false

/-- The entries that a list stands for when `auto` stands for this list. -/
inductive ExpandsTo (lib : ConfigLib) (auto : List Text) : List Text → List Text → Prop
  | nil : ExpandsTo lib auto [] []
  | auto {e : Text} {rest out : List Text} : isAuto e = true → ExpandsTo lib auto rest out →
      ExpandsTo lib auto (e :: rest) (auto ++ out)
  | entry {e : Text} {rest out these : List Text} : isAuto e = false →
      expandEntry lib e = .ok these → ExpandsTo lib auto rest out →
      ExpandsTo lib auto (e :: rest) (these ++ out)

theorem expandsTo_of_mapM {expanded : List (List Text)}
    (h : upstreams.mapM (expandEntry lib) = .ok expanded) :
    ExpandsTo lib (autoExpand lib (.rejected .noGateway) .global) upstreams expanded.flatten := by
  have hall := mapM_eq_ok_iff.mp h
  clear h
  induction hall with
  | nil => exact .nil
  | @cons e these rest out he _ ih =>
    rw [List.flatten_cons]
    cases hauto : isAuto e with
    | true =>
      simp only [expandEntry, hauto, if_true] at he
      cases he
      exact .auto hauto ih
    | false => exact .entry hauto he ih

theorem expandEntry_literal {e : Text} (h : Literal e) : expandEntry lib e = .ok [e] := by
  simp [expandEntry, h.1, h.2]

theorem forall₂_literal (h : ∀ e ∈ auto, Literal e) :
    List.Forall₂ (fun e these => expandEntry lib e = .ok these) auto (auto.map fun e => [e]) := by
  induction auto with
  | nil => exact .nil
  | cons e rest ih =>
    exact .cons (expandEntry_literal (h e List.mem_cons_self))
      (ih fun e' he' => h e' (List.mem_cons_of_mem e he'))

section

variable (h : ExpandsTo lib auto upstreams entries)
include h

theorem ExpandsTo.mapM_measured (hlit : ∀ e ∈ auto, Literal e) :
    ∃ expanded, (measured auto upstreams).mapM (expandEntry lib) = .ok expanded ∧
      expanded.flatten = entries := by
  simp only [mapM_eq_ok_iff]
  induction h with
  | nil => exact ⟨[], .nil, rfl⟩
  | @auto e rest out he _ ih =>
    obtain ⟨expanded, hall, rfl⟩ := ih
    refine ⟨auto.map (fun e => [e]) ++ expanded, ?_,
      by rw [List.flatten_append, ← List.flatMap_def, List.flatMap_singleton']⟩
    simp only [measured, List.flatMap_cons, he, if_true]
    exact List.rel_append (forall₂_literal hlit) hall
  | @entry e rest out these he hthese _ ih =>
    obtain ⟨expanded, hall, rfl⟩ := ih
    refine ⟨these :: expanded, ?_, rfl⟩
    simp only [measured, List.flatMap_cons, he]
    exact .cons hthese hall

theorem ExpandsTo.exists_other (auto' : List Text) :
    ∃ entries', ExpandsTo lib auto' upstreams entries' ∧
      ∀ e ∈ entries', e ∈ auto' ∨ e ∈ entries := by
  induction h with
  | nil => exact ⟨[], .nil, List.forall_mem_nil _⟩
  | @auto e rest out he _ ih =>
    obtain ⟨out', hout, hmem⟩ := ih
    refine ⟨auto' ++ out', .auto he hout, ?_⟩
    intro e' he'
    rcases List.mem_append.mp he' with he' | he'
    · exact .inl he'
    · exact (hmem e' he').imp id fun hold => List.mem_append_right _ hold
  | @entry e rest out these he hthese _ ih =>
    obtain ⟨out', hout, hmem⟩ := ih
    refine ⟨these ++ out', .entry he hthese hout, ?_⟩
    intro e' he'
    rcases List.mem_append.mp he' with he' | he'
    · exact .inr (List.mem_append_left _ he')
    · exact (hmem e' he').imp id fun hold => List.mem_append_right _ hold

theorem ExpandsTo.first_auto {entries' : List Text} (h' : ExpandsTo lib auto' upstreams entries')
    (hmem : ∃ e ∈ upstreams, isAuto e = true) :
    ∃ before after after', entries = before ++ (auto ++ after) ∧
      entries' = before ++ (auto' ++ after') := by
  induction h generalizing entries' with
  | nil =>
    obtain ⟨e, he, -⟩ := hmem
    cases he
  | @auto e rest out he _ ih =>
    cases h' with
    | auto _ hout => exact ⟨[], _, _, rfl, rfl⟩
    | entry hnot _ _ =>
      rw [he] at hnot
      cases hnot
  | @entry e rest out these he hthese _ ih =>
    cases h' with
    | auto hauto _ =>
      rw [he] at hauto
      cases hauto
    | entry _ hthese' hout =>
      rw [hthese] at hthese'
      cases hthese'
      obtain ⟨before, after, after', rfl, rfl⟩ := ih hout (by simpa [he] using hmem)
      exact ⟨these ++ before, after, after', by simp, by simp⟩

end

end Measured

section AddressEntries

variable {lib : ConfigLib} {a : IpAddr} {t : Text}

theorem visible_of_ipOctet {b : UInt8} (h : ipOctet b = true) : visible b = true := by
  simp [ipOctet_iff, visible, digit, UInt8.le_iff_toNat_le, ← UInt8.toNat_inj] at h ⊢
  omega

theorem parseIp_ipText (a : IpAddr) : lib.parseIp (lib.ipText a) = some a := by
  cases a with
  | v4 bits => exact lib.parse_v4 bits
  | v6 bits => exact lib.parse_v6 bits

theorem ipText_ne_nil (a : IpAddr) : lib.ipText a ≠ [] := by
  cases a with
  | v4 bits => simp [ConfigLib.ipText, dotted]
  | v6 bits => exact (lib.v6_octets bits).1

theorem hasInfix_of_notMem {pattern : Text} {c : UInt8} (hc : c ∈ pattern) (h : c ∉ t) :
    hasInfix pattern t = false := by
  rw [hasInfix, List.any_eq_false]
  intro tail htail hprefix
  have hsub := (List.isPrefixOf_iff_prefix.mp hprefix).subset hc
  exact h (((List.mem_tails _ _).mp htail).subset hsub)

theorem hasInfix_append (x pattern y : Text) : hasInfix pattern (x ++ (pattern ++ y)) = true := by
  rw [hasInfix, List.any_eq_true]
  exact ⟨pattern ++ y, (List.mem_tails _ _).mpr (List.suffix_append _ _),
    List.isPrefixOf_iff_prefix.mpr (List.prefix_append _ _)⟩

section Address

variable (h : ∀ b ∈ t, ipOctet b = true)
include h

theorem trim_of_ipOctets : trim t = t :=
  trim_of_visible fun b hb => visible_of_ipOctet (h b hb)

theorem notMem_of_ipOctets {c : UInt8} (hc : ipOctet c = false) : c ∉ t := by
  intro hmem
  rw [h c hmem] at hc
  cases hc

theorem literal_of_ipOctets : Literal t := by
  have hu : 117 ∉ t := notMem_of_ipOctets h (by decide)
  constructor
  · rw [isAuto, trim_of_ipOctets h, beq_eq_false_iff_ne]
    rintro rfl
    exact hu (by decide)
  · rw [trim_of_ipOctets h, Bool.eq_false_iff]
    intro hprefix
    exact hu ((List.isPrefixOf_iff_prefix.mp hprefix).subset (by decide))

end Address

theorem ipOctet_of_mem_ipText (a : IpAddr) : ∀ b ∈ lib.ipText a, ipOctet b = true := by
  intro b hb
  exact lib.parse_octets (parseIp_ipText a) b hb

def addressServer (index : Nat) (a : IpAddr) : ServerConfig where
  name := serverName index .udp
  role := .authority
  transport := .udp
  addresses := [a]
  port := some 53
  serverName := none
  path := none
  weight := 100
  enabled := true
  enableCookies := none
  trustAd := false

theorem serversOf_ipText (index : Nat) (a : IpAddr) :
    serversOf lib index (lib.ipText a) = .ok [addressServer index a] := by
  have hoctets : ∀ b ∈ lib.ipText a, ipOctet b = true := ipOctet_of_mem_ipText a
  have hinfix : hasInfix (ascii "://") (lib.ipText a) = false :=
    hasInfix_of_notMem (c := 47) (by decide) (notMem_of_ipOctets hoctets (by decide))
  have hbare : Endpoint.parseBare lib (lib.ipText a) = some (Endpoint.bare a 53) := by
    simp [Endpoint.parseBare, hinfix, parseIp_ipText]
  have hparse : Endpoint.parse lib (lib.ipText a) = .ok [Endpoint.bare a 53] := by
    simp only [Endpoint.parse, trim_of_ipOctets hoctets, ipText_ne_nil, if_false, hbare]
  simp only [serversOf, hparse]
  rfl

theorem accepted_ipText (a : IpAddr) : Accepted lib (lib.ipText a) :=
  (accepted_iff 0).mpr ⟨_, serversOf_ipText 0 a⟩

end AddressEntries

section DohEntries

variable {lib : ConfigLib} {name t : Text} {x y : BitVec 32} {b : UInt8}

theorem percentDecode_plain {pair : UInt8 → UInt8 → Option UInt8} (h : 37 ∉ t) :
    percentDecode pair t = t := by
  fun_induction percentDecode pair t with
  | case1 => simp at h
  | case2 => simp at h
  | case3 a b c rest ha ih => rw [ih fun hmem => h (List.mem_cons_of_mem a hmem)]
  | case4 => rfl

def queryOctet (b : UInt8) : Bool := b < 128 && !([35, 37, 38, 43, 61].contains b)

theorem queryOctet_of_ipOctet (h : ipOctet b = true) : queryOctet b = true := by
  simp [ipOctet_iff, queryOctet, digit, UInt8.le_iff_toNat_le, UInt8.lt_iff_toNat_lt,
    ← UInt8.toNat_inj] at h ⊢
  omega

theorem notMem_of_queryOctets {c : UInt8} (h : ∀ b ∈ t, queryOctet b = true)
    (hc : queryOctet c = false) : c ∉ t := by
  intro hmem
  rw [h c hmem] at hc
  cases hc

theorem decode_plain (h : ∀ b ∈ t, queryOctet b = true) :
    lib.utf8Lossy (percentDecode hexPair (Endpoint.plusToSpace t)) = t := by
  have hplus : Endpoint.plusToSpace t = t := by
    have hid : ∀ b ∈ t, (if b = 43 then 32 else b) = b := by
      intro b hb
      rw [if_neg]
      rintro rfl
      exact notMem_of_queryOctets h (by decide) hb
    rw [Endpoint.plusToSpace, List.map_congr_left hid, List.map_id']
  rw [hplus, percentDecode_plain (notMem_of_queryOctets h (by decide)),
    lib.lossy_utf8 (isUtf8_of_ascii ?_)]
  intro b hb
  have hlow := (Bool.and_eq_true_iff.mp (h b hb)).1
  simpa using hlow

def pinned (x y : BitVec 32) : Text :=
  (ascii "addr=" ++ dotted x) ++ 38 :: (ascii "addr=" ++ dotted y)

theorem queryOctet_of_mem_dotted (h : b ∈ dotted x) : queryOctet b = true :=
  queryOctet_of_ipOctet (ipOctet_of_mem_dotted h)

theorem queryPairs_pinned : Endpoint.queryPairs lib (some (pinned x y)) =
    [(ascii "addr", dotted x), (ascii "addr", dotted y)] := by
  have hand : ∀ bits, 38 ∉ ascii "addr=" ++ dotted bits := by
    intro bits hmem
    rcases List.mem_append.mp hmem with hmem | hmem
    · revert hmem
      decide
    · exact absurd (queryOctet_of_mem_dotted hmem) (by decide)
  have hsplit : ∀ bits, splitOnce 61 (ascii "addr=" ++ dotted bits) =
      some (ascii "addr", dotted bits) := by
    intro bits
    have heq : ascii "addr=" ++ dotted bits = ascii "addr" ++ 61 :: dotted bits := rfl
    have hkey : ∀ b ∈ ascii "addr", decide (b ≠ 61) = true := List.all_eq_true.mp (by decide)
    rw [heq, splitOnce, takeWhile_cut hkey (by decide), dropWhile_cut hkey (by decide)]
    simp
  have hkey : lib.utf8Lossy (percentDecode hexPair (Endpoint.plusToSpace (ascii "addr"))) =
      ascii "addr" := decode_plain (List.all_eq_true.mp (by decide))
  have hvalue : ∀ bits, lib.utf8Lossy (percentDecode hexPair
      (Endpoint.plusToSpace (dotted bits))) = dotted bits :=
    fun bits => decode_plain fun b hb => queryOctet_of_mem_dotted hb
  have hne : ∀ bits, ascii "addr=" ++ dotted bits ≠ [] := fun bits => by simp [dotted]
  simp only [Endpoint.queryPairs, Option.getD_some, pinned,
    List.splitOn_append_cons_self_of_not_mem (hand x), List.splitOn_eq_singleton (hand y)]
  simp [hne, hsplit, hkey, hvalue]

def dohTail (x y : BitVec 32) : Text := 47 :: (ascii "dns-query" ++ 63 :: pinned x y)

def dohEntry (name : Text) (x y : BitVec 32) : Text :=
  (Url.located (ascii "https") name (dohTail x y)).fill none

theorem dohEntry_eq (name : Text) (x y : BitVec 32) :
    dohEntry name x y = ascii "https" ++ (ascii "://" ++ (name ++ dohTail x y)) := rfl

theorem mem_pinned (h : b ∈ pinned x y) : visible b = true ∧ b ≠ 35 := by
  have hdotted : ∀ bits, b ∈ dotted bits → visible b = true ∧ b ≠ 35 := by
    intro bits hb
    refine ⟨visible_of_ipOctet (ipOctet_of_mem_dotted hb), ?_⟩
    rintro rfl
    exact absurd (ipOctet_of_mem_dotted hb) (by decide)
  have hkey : ∀ b ∈ ascii "addr=", visible b = true ∧ b ≠ 35 := by
    have hall : ∀ b ∈ ascii "addr=", decide (visible b = true ∧ b ≠ 35) = true :=
      List.all_eq_true.mp (by decide)
    intro b hb
    exact of_decide_eq_true (hall b hb)
  simp only [pinned, List.mem_append, List.mem_cons] at h
  rcases h with (h | h) | rfl | h | h
  · exact hkey b h
  · exact hdotted x h
  · decide
  · exact hkey b h
  · exact hdotted y h

theorem visible_of_mem_dohTail : ∀ b ∈ dohTail x y, visible b = true := by
  have hpath : ∀ b ∈ 47 :: ascii "dns-query" ++ [63], visible b = true :=
    List.all_eq_true.mp (by decide)
  intro b hb
  have hmem : b ∈ 47 :: ascii "dns-query" ++ [63] ∨ b ∈ pinned x y := by
    simpa [dohTail, or_assoc] using hb
  exact hmem.elim (hpath b) fun hq => (mem_pinned hq).1

theorem queryOf_dohTail : Url.queryOf (dohTail x y) = some (pinned x y) := by
  have hpath : ∀ b ∈ 47 :: ascii "dns-query", (!(b == 63 || b == 35)) = true :=
    List.all_eq_true.mp (by decide)
  have hwhole : (pinned x y).takeWhile (· ≠ 35) = pinned x y := by
    apply List.takeWhile_eq_self_iff.mpr
    intro b hb
    simpa using (mem_pinned hb).2
  rw [Url.queryOf, dohTail, ← List.cons_append, dropWhile_cut hpath (by decide)]
  simp only [hwhole]

theorem parseUri_eq {entry : Text} {url : Url.Address} {host : Url.Host}
    {hints : List IpAddr} (hurl : Url.parse lib.url entry = .ok url)
    (hhints : Endpoint.hintsOf lib entry (Endpoint.queryPairs lib url.query) = .ok hints)
    (hhost : url.host = some host) : Endpoint.parseUri lib entry =
      Endpoint.candidates entry url (Endpoint.hostOf lib url.scheme (trimBrackets host.text))
        hints := by
  simp only [Endpoint.parseUri, hurl, hhints, hhost, bind, Except.bind]

section Named

variable (hplain : Url.plainName name = true)
include hplain

theorem plainOctet_of_plainName : name ≠ [] ∧
    ∀ b ∈ name, Url.plainOctet b = true ∧ b ∉ [58, 91, 93] := by
  simp only [Url.plainName, Bool.and_eq_true, decide_eq_true_eq] at hplain
  refine ⟨?_, ?_⟩
  · rintro rfl
    exact hplain.1.2 rfl
  · intro b hb
    have hname := List.all_eq_true.mp hplain.1.1.1 b hb
    simp [Url.lowerLetter, digit, Url.plainOctet, visible, Url.delimiter,
      UInt8.le_iff_toNat_le, ← UInt8.toNat_inj] at hname ⊢
    omega

theorem trim_dohEntry : trim (dohEntry name x y) = dohEntry name x y := by
  apply trim_of_visible
  intro b hb
  have hstart : ∀ b ∈ ascii "https" ++ ascii "://", visible b = true :=
    List.all_eq_true.mp (by decide)
  rw [dohEntry_eq, ← List.append_assoc] at hb
  rcases List.mem_append.mp hb with hb | hb
  · exact hstart b hb
  · rcases List.mem_append.mp hb with hb | hb
    · exact (Url.plainOctet_iff.mp ((plainOctet_of_plainName hplain).2 b hb).1).1
    · exact visible_of_mem_dohTail b hb

theorem url_dohEntry : Url.parse lib.url (dohEntry name x y) =
    .ok (Url.assemble lib.url (ascii "https") none (some (.domain name)) none (dohTail x y)) := by
  obtain ⟨hne, hoctets⟩ := plainOctet_of_plainName hplain
  exact Url.parse_located (by decide) (by decide) (by decide)
    (lib.url.host_plain hplain) hne hoctets (by decide) (by decide) visible_of_mem_dohTail

theorem literal_dohEntry : Literal (dohEntry name x y) := by
  obtain ⟨rest, hrest⟩ : ∃ rest, dohEntry name x y = 104 :: rest := ⟨_, rfl⟩
  have hauto : ascii "auto" = [97, 117, 116, 111] := by decide
  have hbuiltin : ascii "builtin:" = 98 :: (ascii "builtin:").tail := by decide
  unfold Literal isAuto
  rw [trim_dohEntry hplain, hrest, hauto, hbuiltin]
  exact ⟨rfl, rfl⟩

theorem accepted_dohEntry (hname : ∃ c ∈ name, ipOctet c = false) :
    Accepted lib (dohEntry name x y) := by
  obtain ⟨hne, hoctets⟩ := plainOctet_of_plainName hplain
  have hbrackets : trimBrackets name = name := by
    apply trimBrackets_of_notMem
    intro b hb
    have hout := (hoctets b hb).2
    simp only [List.mem_cons, List.not_mem_nil, or_false, not_or] at hout
    exact ⟨hout.2.1, hout.2.2⟩
  obtain ⟨n, hn⟩ : ∃ n, Endpoint.hostOf lib (ascii "https") name = .name n := by
    obtain ⟨c, hc, hnot⟩ := hname
    have hip : lib.parseIp name = none := by
      cases hfound : lib.parseIp name with
      | none => rfl
      | some a =>
        rw [lib.parse_octets hfound c hc] at hnot
        cases hnot
    simp only [Endpoint.hostOf, hip]
    split
    · exact ⟨_, rfl⟩
    · exact ⟨_, rfl⟩
  have hhints : Endpoint.hintsOf lib (dohEntry name x y)
      (Endpoint.queryPairs lib (Url.queryOf (dohTail x y))) = .ok [.v4 x, .v4 y] := by
    rw [queryOf_dohTail, queryPairs_pinned]
    simp [Endpoint.hintsOf, lib.parse_v4, Except.map]
  have huri := parseUri_eq (url_dohEntry hplain) hhints rfl
  change _ = Endpoint.candidates _ _ (Endpoint.hostOf lib (ascii "https") (trimBrackets name)) _
    at huri
  rw [hbrackets, hn] at huri
  obtain ⟨path, hparse⟩ : ∃ path, Endpoint.parse lib (dohEntry name x y) =
      .ok (Endpoint.dohCandidates (.name n) 443 path [.v4 x, .v4 y]) := by
    have hinfix : hasInfix (ascii "://") (dohEntry name x y) = true := hasInfix_append _ _ _
    have hnil : dohEntry name x y ≠ [] := by
      rw [dohEntry_eq]
      exact List.append_ne_nil_of_left_ne_nil (by decide) _
    have hbare : Endpoint.parseBare lib (dohEntry name x y) = none := by
      simp [Endpoint.parseBare, hinfix]
    have hparse : Endpoint.parse lib (dohEntry name x y) =
        Endpoint.parseUri lib (dohEntry name x y) := by
      simp only [Endpoint.parse, trim_dohEntry hplain, hnil, if_false, hbare, hinfix, if_true]
    exact ⟨_, hparse.trans (huri.trans rfl)⟩
  refine ⟨_, hparse, ?_⟩
  intro c hc _
  simp only [Endpoint.dohCandidates, List.mem_cons, List.not_mem_nil, or_false] at hc
  rcases hc with rfl | rfl
  · exact ⟨n, rfl⟩
  · exact ⟨n, rfl⟩

end Named

end DohEntries

section AutoEntries

variable {lib : ConfigLib} {e : Text}

def Region.listed : Region → List (BitVec 32) × List (Text × BitVec 32 × BitVec 32)
  | .china =>
    ([0xDF050505, 0xDF060606, 0x771D1D1D],
      [(ascii "dns.alidns.com", 0xDF050505, 0xDF060606), (ascii "doh.pub", 0x010C0C15, 0x78353535),
        (ascii "cloudflare-dns.com", 0x01010101, 0x01000001)])
  | .global =>
    ([0x01010101, 0x08080808, 0x0909090A],
      [(ascii "cloudflare-dns.com", 0x01010101, 0x01000001),
        (ascii "dns.google", 0x08080808, 0x08080404),
        (ascii "dns10.quad9.net", 0x0909090A, 0x9570700A)])

variable {region : Region}

variable (region) in
theorem Region.entries_eq : region.entries =
    region.listed.1.map dotted ++ region.listed.2.map fun d => dohEntry d.1 d.2.1 d.2.2 := by
  cases region <;> decide +kernel

theorem Region.named_of_listed : ∀ d ∈ region.listed.2,
    Url.plainName d.1 = true ∧ ∃ c ∈ d.1, ipOctet c = false := by
  cases region <;> decide +kernel

theorem Region.entry_cases (h : e ∈ region.entries) :
    (∃ bits, e = dotted bits) ∨ ∃ name x y, e = dohEntry name x y ∧
      Url.plainName name = true ∧ ∃ c ∈ name, ipOctet c = false := by
  rw [entries_eq] at h
  rcases List.mem_append.mp h with h | h
  · obtain ⟨bits, -, rfl⟩ := List.mem_map.mp h
    exact .inl ⟨bits, rfl⟩
  · obtain ⟨d, hd, rfl⟩ := List.mem_map.mp h
    exact .inr ⟨_, _, _, rfl, named_of_listed d hd⟩

theorem Region.accepted_of_mem (h : e ∈ region.entries) : Accepted lib e := by
  rcases Region.entry_cases h with ⟨bits, rfl⟩ | ⟨name, x, y, rfl, hplain, hname⟩
  · exact accepted_ipText (.v4 bits)
  · exact accepted_dohEntry hplain hname

theorem Region.literal_of_mem (h : e ∈ region.entries) : Literal e := by
  rcases Region.entry_cases h with ⟨bits, rfl⟩ | ⟨name, x, y, rfl, hplain, -⟩
  · exact literal_of_ipOctets fun _ hb => ipOctet_of_mem_dotted hb
  · exact literal_dohEntry hplain

theorem mem_autoExpand {gateway : GatewayProbe} (h : e ∈ autoExpand lib gateway region) :
    Accepted lib e ∧ Literal e := by
  rcases List.mem_append.mp h with h | h
  · cases hgateway : gateway.address with
    | none => simp [hgateway] at h
    | some a =>
      have he : e = lib.ipText a := by simpa [hgateway] using h
      rw [he]
      exact ⟨accepted_ipText a, literal_of_ipOctets (ipOctet_of_mem_ipText a)⟩
  · exact ⟨Region.accepted_of_mem h, Region.literal_of_mem h⟩

def firstAddress (gateway : GatewayProbe) (region : Region) : IpAddr :=
  gateway.address.getD (match region with | .china => .v4 0xDF050505 | .global => .v4 0x01010101)

theorem autoExpand_eq_cons (lib : ConfigLib) (gateway : GatewayProbe) (region : Region) :
    ∃ rest, autoExpand lib gateway region = lib.ipText (firstAddress gateway region) :: rest := by
  cases hgateway : gateway.address with
  | none =>
    refine ⟨region.entries.tail, ?_⟩
    cases region
    all_goals
      rw [autoExpand, firstAddress, hgateway, Region.entries_eq]
      rfl
  | some a => exact ⟨region.entries, by simp [autoExpand, firstAddress, hgateway]⟩

end AutoEntries

section Tree

variable {lib : ConfigLib} {upstreams : List Text}

def treeOf (servers : List ServerConfig) : UpstreamConfig where
  defaultGroup := ascii "default"
  groups := [{ name := ascii "default", servers }]

structure TreeOf (lib : ConfigLib) (auto upstreams entries : List Text)
    (servers : List ServerConfig) : Prop where
  expands : ExpandsTo lib auto upstreams entries
  servers : serversFrom lib 0 entries = .ok servers

theorem buildUpstreams_eq_ok {tree : UpstreamConfig}
    (h : buildUpstreams lib upstreams = .ok tree) :
    ∃ entries servers, tree = treeOf servers ∧ servers ≠ [] ∧
      TreeOf lib (autoExpand lib (.rejected .noGateway) .global) upstreams entries servers := by
  obtain ⟨servers, hdesugar, rfl⟩ := map_eq_ok_iff.mp h
  obtain ⟨expanded, hexpand, hrest⟩ := bind_eq_ok_iff.mp hdesugar
  obtain ⟨out, hfrom, hout⟩ := bind_eq_ok_iff.mp hrest
  split at hout
  · cases hout
  · rename_i hne
    cases hout
    exact ⟨expanded.flatten, servers, rfl, hne, expandsTo_of_mapM hexpand, hfrom⟩

variable {servers : List ServerConfig}

theorem TreeOf.buildUpstreams_measured {auto entries : List Text}
    (h : TreeOf lib auto upstreams entries servers) (hlit : ∀ e ∈ auto, Literal e)
    (hne : servers ≠ []) : buildUpstreams lib (measured auto upstreams) = .ok (treeOf servers) := by
  obtain ⟨expanded, hmap, hflat⟩ := h.expands.mapM_measured hlit
  have hdesugar : desugar lib (measured auto upstreams) = .ok servers := by
    refine bind_eq_ok_iff.mpr ⟨expanded, hmap, bind_eq_ok_iff.mpr ⟨servers, ?_, ?_⟩⟩
    · rw [hflat]
      exact h.servers
    · rw [if_neg hne]
      rfl
  rw [buildUpstreams, hdesugar]
  rfl

theorem exists_measured_tree {auto entries : List Text}
    (h : TreeOf lib auto upstreams entries servers) (hauto : ∃ e ∈ upstreams, isAuto e = true)
    (gateway : GatewayProbe) (region : Region) :
    ∃ entries' servers', TreeOf lib (autoExpand lib gateway region) upstreams entries' servers' ∧
      buildUpstreams lib (measured (autoExpand lib gateway region) upstreams) =
        .ok (treeOf servers') := by
  obtain ⟨entries', hexpands, hmem⟩ := h.expands.exists_other (autoExpand lib gateway region)
  have haccepted : ∀ e ∈ entries', Accepted lib e := by
    intro e he
    rcases hmem e he with he | he
    · exact (mem_autoExpand he).1
    · exact exists_serversFrom_iff.mp ⟨servers, h.servers⟩ e he
  obtain ⟨servers', hfrom⟩ := exists_serversFrom_iff.mpr haccepted
  have htree : TreeOf lib (autoExpand lib gateway region) upstreams entries' servers' :=
    ⟨hexpands, hfrom⟩
  have hne : servers' ≠ [] := by
    obtain ⟨before, after, after', -, heq⟩ := h.expands.first_auto hexpands hauto
    obtain ⟨rest, hcons⟩ := autoExpand_eq_cons lib gateway region
    have hpos : 0 < entries'.length := by
      rw [heq, hcons]
      simp only [List.length_append, List.length_cons]
      omega
    obtain ⟨these, hof, hsub⟩ := servers_of_entry hfrom (List.getElem?_eq_getElem hpos)
    obtain ⟨s, hs⟩ := List.exists_mem_of_ne_nil these (serversOf_eq_ok hof).1
    exact List.ne_nil_of_mem (hsub s hs)
  exact ⟨entries', servers', htree,
    htree.buildUpstreams_measured (fun e he => (mem_autoExpand he).2) hne⟩

theorem TreeOf.at_auto {auto entries : List Text} {gateway : GatewayProbe} {region : Region}
    {entries' : List Text} {servers' : List ServerConfig}
    (h : TreeOf lib auto upstreams entries servers)
    (h' : TreeOf lib (autoExpand lib gateway region) upstreams entries' servers')
    (hauto : ∃ e ∈ upstreams, isAuto e = true) :
    ∃ before after rest, entries = before ++ (auto ++ after) ∧
      entries' = before ++ lib.ipText (firstAddress gateway region) :: rest := by
  obtain ⟨before, after, after', heq, heq'⟩ := h.expands.first_auto h'.expands hauto
  obtain ⟨rest, hcons⟩ := autoExpand_eq_cons lib gateway region
  rw [hcons] at heq'
  exact ⟨before, after, rest ++ after', heq, heq'⟩

theorem server_of_address {before rest : List Text} {a : IpAddr}
    (h : serversFrom lib 0 (before ++ lib.ipText a :: rest) = .ok servers) :
    addressServer before.length a ∈ servers ∧
      ∀ s ∈ servers, s.name = serverName before.length .udp → s.addresses = [a] := by
  have hget : (before ++ lib.ipText a :: rest)[before.length]? = some (lib.ipText a) := by simp
  obtain ⟨these, hof, hsub⟩ := servers_of_entry h hget
  rw [serversOf_ipText] at hof
  cases hof
  have hmem := hsub _ List.mem_cons_self
  rw [Nat.zero_add] at hmem
  refine ⟨hmem, ?_⟩
  intro s hs hname
  rw [eq_of_serverName_eq h hs hmem hname]
  rfl

end Tree

end EgressDns
