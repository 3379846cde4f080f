import EgressDns.Cloudflare.Prefixes
import EgressDns.Dns.Presentation
import EgressDns.Dns.Spelling

/-!
# Seed lists

`cloudflare/seeds.rs`: lists of candidate addresses and names from third parties. How UTF-8, lines,
addresses and numbers are read is a parameter.
-/

namespace EgressDns.Seeds

open Lib

inductive SeedItem where
  | address (addr : IpAddr) (port : Option UInt16)
  | hostname (host : Text) (port : Option UInt16)

def SeedItem.port : SeedItem → Option UInt16
  | .address _ port | .hostname _ port => port

structure SeedParseStats where
  lines : Nat := 0
  accepted : Nat := 0
  skipped : Nat := 0
  malformed : Nat := 0
  truncated : Nat := 0

structure SeedLib where
  validUtf8 : Text → Bool
  lines : Text → List Text
  parseIp : Text → Option IpAddr
  parseSocket : Text → Option (IpAddr × UInt16)
  parseU16 : Text → Option UInt16

def hostOctet (b : UInt8) : Bool := Presentation.alphanumeric b || b == 45 || b == 95

def validLabel (label : Text) : Bool :=
  label ≠ [] && label.length ≤ 63 && label.all hostOctet && label.head? ≠ some 45 &&
    label.getLast? ≠ some 45

def validateHostname (text : Text) : Option Text :=
  let s := trimEndDots text
  if s = [] ∨ 253 < s.length ∨ 46 ∉ s then none
  else if (s.splitOn 46).all validLabel = false then none
  else if ((s.splitOn 46).getLast?.getD []).all digit then none
  else some (lower s)

/-- A conservative DNS hostname. -/
structure Conservative (host : Text) : Prop where
  lowercase : lower host = host
  length : host.length ≤ 253
  twoLabels : 2 ≤ (host.splitOn 46).length
  labels : ∀ label ∈ host.splitOn 46, validLabel label = true
  notNumeric : ∃ label, (host.splitOn 46).getLast? = some label ∧ label.all digit = false

theorem hostOctet_lower (b : UInt8) : hostOctet (asciiLower b) = hostOctet b := by
  grind [hostOctet, asciiLower, Presentation.alphanumeric]

theorem digit_lower (b : UInt8) : digit (asciiLower b) = digit b := by
  grind [asciiLower, digit]

theorem lower_eq_hyphen (b : UInt8) : asciiLower b = 45 ↔ b = 45 := by
  grind [asciiLower]

theorem validLabel_lower (label : Text) : validLabel (lower label) = validLabel label := by
  have hhyphen (o : Option UInt8) : o.map asciiLower = some 45 ↔ o = some 45 := by
    cases o <;> simp [lower_eq_hyphen]
  simp [validLabel, lower, List.all_map, Function.comp_def, hostOctet_lower, hhyphen]

theorem splitOn_lower (s : Text) : (lower s).splitOn 46 = (s.splitOn 46).map lower := by
  induction s with
  | nil => rfl
  | cons b s ih =>
    change (asciiLower b :: lower s).splitOn 46 = _
    rw [List.splitOn_cons_eq_if_modifyHead, List.splitOn_cons_eq_if_modifyHead, ih]
    simp only [beq_iff_eq, asciiLower_eq_dot]
    split_ifs
    · rfl
    · cases s.splitOn 46 <;> rfl

theorem validateHostname_conservative {text host : Text}
    (h : validateHostname text = some host) : Conservative host := by
  unfold validateHostname at h
  dsimp only at h
  split_ifs at h with hshape hlabels hnumeric
  cases h
  obtain ⟨hne, hlength, hdot⟩ := not_or.mp hshape |>.imp_right not_or.mp
  refine ⟨lower_lower _, ?_, ?_, ?_, ?_⟩
  · simpa [lower] using hlength
  · obtain ⟨before, after, hsplit⟩ := List.append_of_mem (not_not.mp hdot)
    rw [splitOn_lower, List.length_map, hsplit, List.splitOn_append_cons_self, List.length_append]
    have hbefore := List.length_pos_iff.mpr (List.splitOn_ne_nil 46 before)
    have hafter := List.length_pos_iff.mpr (List.splitOn_ne_nil 46 after)
    omega
  · intro label hlabel
    rw [splitOn_lower] at hlabel
    obtain ⟨label', hmem, rfl⟩ := List.mem_map.mp hlabel
    rw [validLabel_lower]
    exact List.all_eq_true.mp (Bool.not_eq_false _ |>.mp hlabels) label' hmem
  · obtain ⟨label, hlast⟩ := Option.ne_none_iff_exists'.mp
      (mt List.getLast?_eq_none_iff.mp (List.splitOn_ne_nil 46 (trimEndDots text)))
    rw [hlast] at hnumeric
    refine ⟨lower label, by rw [splitOn_lower, List.getLast?_map, hlast]; rfl, ?_⟩
    simpa [lower, List.all_map, Function.comp_def, digit_lower] using hnumeric

section Parse

variable (lib : SeedLib)

def parseEntry (s : Text) : Option SeedItem :=
  if 300 < s.length then none
  else if s.head? = some 91 then
    (lib.parseSocket s).map fun sock => .address sock.1 (some sock.2)
  else match lib.parseIp s with
    | some addr => some (.address addr none)
    | none =>
      if 58 ∉ s then (validateHostname s).map (.hostname · none)
      else
        let host := (s.rdropWhile (· ≠ 58)).dropLast
        if 58 ∈ host then none
        else (lib.parseU16 (s.rtakeWhile (· ≠ 58))).bind fun port =>
          if port = 0 then none
          else match lib.parseIp host with
            | some addr => some (.address addr (some port))
            | none => (validateHostname host).map (.hostname · (some port))

/-- What is left of a line without its comment, unless that is nothing. -/
def payload (raw : Text) : Option Text :=
  let line := trim raw
  if line = [] ∨ line.head? = some 35 ∨ line.take 2 = [47, 47] then none
  else
    let entry := if 35 ∈ line then trim (line.takeWhile (· ≠ 35)) else line
    if entry = [] then none else some entry

def parseLines (maxItems : Nat) : List Text → List SeedItem → SeedParseStats →
    Except Text (List SeedItem × SeedParseStats)
  | [], items, stats => .ok (items, stats)
  | raw :: rest, items, stats =>
    let stats := { stats with lines := stats.lines + 1 }
    if 100000 < stats.lines then .error (ascii "seed response had too many lines")
    else match payload raw with
      | none => parseLines maxItems rest items { stats with skipped := stats.skipped + 1 }
      | some entry =>
        match parseEntry lib entry with
        | none => parseLines maxItems rest items { stats with malformed := stats.malformed + 1 }
        | some item =>
          if maxItems ≤ items.length then
            parseLines maxItems rest items { stats with truncated := stats.truncated + 1 }
          else
            parseLines maxItems rest (items ++ [item]) { stats with accepted := stats.accepted + 1 }

def parse (body : Text) (maxItems : Nat) : Except Text (List SeedItem × SeedParseStats) :=
  if lib.validUtf8 body = false then .error (ascii "seed response was not valid UTF-8")
  else
    let head := trimStart body
    if head.head? = some 60 ∨ head.take 2 = [123, 34] ∨ head.head? = some 91 then
      .error (ascii "seed response was markup or JSON, not a candidate list")
    else parseLines lib maxItems (lib.lines body) [] {}

/-- A line that is not skipped and not malformed, with what it is parsed to. -/
def entry (raw : Text) : Option (Text × SeedItem) :=
  (payload raw).bind fun s => (parseEntry lib s).map (Prod.mk s)

def SeedParseStats.Balanced (stats : SeedParseStats) : Prop :=
  stats.lines = stats.accepted + stats.skipped + stats.malformed + stats.truncated

variable {lib} {maxItems : Nat} {lines : List Text} {items items' : List SeedItem}
  {stats stats' : SeedParseStats}

theorem parseLines_spec
    (h : parseLines lib maxItems lines items stats = .ok (items', stats'))
    (hbalanced : stats.Balanced) (hitems : items.length = stats.accepted) :
    stats'.Balanced ∧ items'.length = stats'.accepted ∧ items' = items ++
      ((lines.filterMap (entry lib)).take (maxItems - items.length)).map Prod.snd := by
  induction lines generalizing items stats with
  | nil =>
    cases h
    exact ⟨hbalanced, hitems, by simp⟩
  | cons raw rest ih =>
    unfold SeedParseStats.Balanced at hbalanced ih
    unfold parseLines at h
    dsimp only at h
    split at h
    · cases h
    · split at h
      · rename_i hskip
        rw [List.filterMap_cons_none (by simp [entry, hskip])]
        exact ih h (by dsimp only; omega) hitems
      · rename_i s hpayload
        split at h
        · rename_i hbad
          rw [List.filterMap_cons_none (by simp [entry, hpayload, hbad])]
          exact ih h (by dsimp only; omega) hitems
        · rename_i item hitem
          have hentry : entry lib raw = some (s, item) := by simp [entry, hpayload, hitem]
          rw [List.filterMap_cons_some hentry]
          split at h
          · rename_i hfull
            have hkept := ih h (by dsimp only; omega) hitems
            rw [Nat.sub_eq_zero_of_le hfull] at hkept ⊢
            exact hkept
          · rename_i hroom
            obtain ⟨hbalanced', hlength, hitems'⟩ := ih h (by dsimp only; omega) (by simp [hitems])
            have hone : maxItems - items.length = maxItems - (items ++ [item]).length + 1 := by
              rw [List.length_append, List.length_singleton]
              omega
            refine ⟨hbalanced', hlength, ?_⟩
            rw [hitems', hone, List.take_succ_cons]
            simp

/-- An entry is a bracketed socket, or it has no port, or one other than 0. -/
theorem parseEntry_cases {s : Text} {item : SeedItem} (h : parseEntry lib s = some item) :
    (s.head? = some 91 ∧ ∃ addr port, lib.parseSocket s = some (addr, port) ∧
      item = .address addr (some port)) ∨
    s.head? ≠ some 91 ∧ item.port ≠ some 0 ∧
      ∀ host port, item = .hostname host port → Conservative host := by
  unfold parseEntry at h
  split at h
  · cases h
  split at h
  · rename_i hbracket
    obtain ⟨⟨addr, port⟩, hsock, rfl⟩ := Option.map_eq_some_iff.mp h
    exact .inl ⟨hbracket, addr, port, hsock, rfl⟩
  · rename_i hbracket
    refine .inr ⟨hbracket, ?_⟩
    have hnamed {name : Text} {port : Option UInt16} (hport : port ≠ some 0)
        (hitem : (validateHostname name).map (.hostname · port) = some item) :
        item.port ≠ some 0 ∧ ∀ host port, item = .hostname host port → Conservative host := by
      obtain ⟨host, hhost, rfl⟩ := Option.map_eq_some_iff.mp hitem
      refine ⟨hport, ?_⟩
      rintro _ _ ⟨⟩
      exact validateHostname_conservative hhost
    split at h
    · cases h
      exact ⟨nofun, nofun⟩
    · dsimp only at h
      split_ifs at h with hcolon hseveral
      · obtain ⟨port, -, hrest⟩ := Option.bind_eq_some_iff.mp h
        split_ifs at hrest with hzero
        have hport : some port ≠ some 0 := fun heq => hzero (Option.some.inj heq)
        split at hrest
        · cases hrest
          exact ⟨hport, nofun⟩
        · exact hnamed hport hrest
      · exact hnamed (Option.some_ne_none 0).symm h

/-- What a successful parse returns; its items have no port 0 just if no bracketed entry among those
taken has. -/
theorem seeds_parsed_iff (lib : SeedLib) (body : Text) (maxItems : Nat) (items : List SeedItem)
    (stats : SeedParseStats) (h : parse lib body maxItems = .ok (items, stats)) :
    let taken := ((lib.lines body).filterMap (entry lib)).take maxItems
    stats.lines = stats.accepted + stats.skipped + stats.malformed + stats.truncated ∧
    items.length = stats.accepted ∧ items.length ≤ maxItems ∧ items = taken.map Prod.snd ∧
    (∀ host port, .hostname host port ∈ items → Conservative host) ∧
    ((∀ item ∈ items, item.port ≠ some 0) ↔
      ∀ e ∈ taken, ¬(e.1.head? = some 91 ∧ (lib.parseSocket e.1).map Prod.snd = some 0)) := by
  intro taken
  unfold parse at h
  split_ifs at h with hutf8
  dsimp only at h
  split_ifs at h with hmarkup
  obtain ⟨hbalanced, hlength, hitems⟩ := parseLines_spec h rfl rfl
  obtain rfl : items = taken.map Prod.snd := hitems
  have hparsed : ∀ e ∈ taken, parseEntry lib e.1 = some e.2 := by
    intro e he
    obtain ⟨raw, -, hraw⟩ := List.mem_filterMap.mp (List.mem_of_mem_take he)
    obtain ⟨s, -, hs⟩ := Option.bind_eq_some_iff.mp hraw
    obtain ⟨item, hitem, rfl⟩ := Option.map_eq_some_iff.mp hs
    exact hitem
  refine ⟨hbalanced, hlength, by simp [taken], rfl, ?_, ?_⟩
  · intro host port hmem
    obtain ⟨e, he, hhost⟩ := List.mem_map.mp hmem
    rcases parseEntry_cases (hparsed e he) with ⟨-, addr, p, -, haddr⟩ | ⟨-, -, hgood⟩
    · cases haddr.symm.trans hhost
    · exact hgood host port hhost
  · rw [List.forall_mem_map]
    refine forall₂_congr fun e he => not_congr ?_
    rcases parseEntry_cases (hparsed e he) with ⟨hhead, addr, p, hsock, haddr⟩ | ⟨hhead, hport, -⟩
    · simp [hhead, hsock, haddr, SeedItem.port]
    · simp [hhead, hport]

def SeedLib.plain : SeedLib where
  validUtf8 _ := true
  lines text := text.splitOn 10
  parseIp _ := none
  parseSocket text := if text = ascii "[::1]:0" then some (.v6 1, 0) else none
  parseU16 _ := some 80

/-- The list is `A.b:80 # x`, an empty line and `c.d`. -/
theorem seeds_parsed_iff_two : ∃ items stats,
    parse SeedLib.plain (ascii "A.b:80 # x\n\nc.d") 1 = .ok (items, stats) ∧
    items.length = stats.accepted ∧ ∀ item ∈ items, item.port ≠ some 0 := by
  refine ⟨_, _, rfl, ?_⟩
  have h := seeds_parsed_iff SeedLib.plain (ascii "A.b:80 # x\n\nc.d") 1 _ _ rfl
  exact ⟨h.2.1, h.2.2.2.2.2.mpr (by decide)⟩

theorem bracketed_port_zero_accepted :
    ∃ stats, parse SeedLib.plain (ascii "x\n[::1]:0") 1 = .ok ([.address (.v6 1) (some 0)], stats) :=
  ⟨_, rfl⟩

end Parse

end EgressDns.Seeds
