import EgressDns.Cloudflare.Prefixes
import EgressDns.Config.Proxy
import EgressDns.Datasets.Reach
import Mathlib.Data.List.MinMax

/-!
# The default route

`network/detect.rs`: the default routes of the kernel's routing tables. The IPv6 table is sliced at
fixed octets, and a slice that would end inside a character panics.
-/

namespace EgressDns

structure DefaultRoute (G : Type) where
  metric : Nat
  iface : Text
  gateway : Option G

section Select

variable {G : Type}

def keepBest (best : Option (DefaultRoute G)) (route : DefaultRoute G) :
    Option (DefaultRoute G) :=
  match best with
  | none => some route
  | some b => if route.metric < b.metric then some route else best

/-- The scan of a table, given what a line denotes; `none` is a panic. -/
def parseRoute (read : Text → Option (Option (DefaultRoute G))) (lines : List Text) :
    Option (Option Text × Option G) :=
  (lines.foldlM (fun best line => (read line).map (Option.elim · best (keepBest best))) none).map
    fun best => (best.map DefaultRoute.iface, best.bind DefaultRoute.gateway)

/-- The interface and gateway of the first route of least metric. -/
def firstLeast (routes : List (DefaultRoute G)) : Option Text × Option G :=
  let least := routes.argmin DefaultRoute.metric
  (least.map DefaultRoute.iface, least.bind DefaultRoute.gateway)

theorem keepBest_eq :
    @keepBest G = List.argAux fun b c => DefaultRoute.metric b < DefaultRoute.metric c := by
  funext best route
  cases best <;> rfl

/-- A scan ends at the first line that panics, and otherwise selects among the routes read. -/
theorem parseRoute_eq_iff (read : Text → Option (Option (DefaultRoute G))) (lines : List Text) :
    parseRoute read lines = some (firstLeast (lines.filterMap fun line => (read line).join)) ↔
      ∀ line ∈ lines, read line ≠ none := by
  unfold parseRoute firstLeast List.argmin
  rw [← keepBest_eq]
  generalize (none : Option (DefaultRoute G)) = best
  induction lines generalizing best with
  | nil => simp
  | cons line lines ih =>
    cases hread : read line with
    | none => simp [hread]
    | some route =>
      cases route with
      | none => simpa [hread] using ih best
      | some route => simpa [hread] using ih (keepBest best route)

end Select

section Columns

/-- `u32::from_str_radix`: a plus sign may come first, and what does not fit is an error. -/
def parseU32 (radix : Nat) (text : Text) : Option Nat :=
  let digits := if text.head? = some 43 ∧ text ≠ [43] then text.tail else text
  if digits = [] then none
  else digits.foldlM (fun n b =>
    ((Lib.hexDigit b).filter (· < radix)).bind fun d =>
      if n * radix + d < 2 ^ 32 then some (n * radix + d) else none) 0

/-- `u32::to_be` on a little-endian machine. -/
def toBe (n : Nat) : BitVec 32 :=
  let g := BitVec.ofNat 32 n
  g.extractLsb' 0 8 ++ g.extractLsb' 8 8 ++ g.extractLsb' 16 8 ++ g.extractLsb' 24 8

def u32Max : Nat := 2 ^ 32 - 1

/-- The octets of the pairs up to the first unreadable one; `none` is the panic of a slice. -/
def hexOctets : Text → Option (Option (List UInt8))
  | b :: c :: rest =>
    if rest.head?.any isContinuation then none
    else match radixPair b c with
      | none => some none
      | some octet => (hexOctets rest).map (Option.map (octet :: ·))
  | _ => some (some [])

def parseHexV6 (s : Text) : Option (Option (BitVec 128)) :=
  if s.length ≠ 32 then some none
  else (hexOctets s).map (Option.map fun octets =>
    BitVec.ofNat 128 (octets.foldl (fun n b => n * 256 + b.toNat) 0))

variable (lib : TextLib)

def defaultRouteV4 (line : Text) : Option (DefaultRoute (BitVec 32)) :=
  match lib.splitWhitespace line with
  | iface :: dest :: gateway :: _ :: _ :: _ :: metric :: mask :: _ =>
    if (parseU32 16 dest).getD u32Max ≠ 0 ∨ (parseU32 16 mask).getD u32Max ≠ 0 then none
    else some { metric := (parseU32 10 metric).getD u32Max
                iface
                gateway := ((parseU32 16 gateway).filter (· ≠ 0)).map toBe }
  | _ => none

def parseRouteV4 (text : Text) : Option (Option Text × Option (BitVec 32)) :=
  parseRoute (fun line => some (defaultRouteV4 lib line)) ((lib.lines text).drop 1)

def defaultRouteV6 (line : Text) : Option (Option (DefaultRoute (BitVec 128))) :=
  match lib.splitWhitespace line with
  | dest :: length :: _ :: _ :: nextHop :: metric :: _ :: _ :: _ :: iface :: _ =>
    if dest ≠ List.replicate 32 48 ∨ length ≠ [48, 48] ∨ iface = ascii "lo" then some none
    else (parseHexV6 nextHop).map fun gateway =>
      some { metric := (parseU32 16 metric).getD u32Max
             iface
             gateway := gateway.filter (· ≠ 0) }
  | _ => some none

def parseRouteV6 (text : Text) : Option (Option Text × Option (BitVec 128)) :=
  parseRoute (defaultRouteV6 lib) (lib.lines text)

/-- After readable pairs, the next one ends inside a character. -/
def CutsCharacter (s : Text) : Prop :=
  ∃ (pairs : List (UInt8 × UInt8)) (b c d : UInt8) (rest : Text),
    s = pairs.flatMap (fun p => [p.1, p.2]) ++ b :: c :: d :: rest ∧
    (∀ p ∈ pairs, (radixPair p.1 p.2).isSome = true) ∧ isContinuation d = true

/-- The line denotes a default route whose next hop is sliced inside a character. -/
def CutsNextHop (line : Text) : Prop :=
  ∃ a b nextHop metric c d e iface rest,
    lib.splitWhitespace line = List.replicate 32 48 :: [48, 48] :: a :: b :: nextHop :: metric ::
      c :: d :: e :: iface :: rest ∧
    iface ≠ ascii "lo" ∧ nextHop.length = 32 ∧ CutsCharacter nextHop

theorem hexOctets_eq_none_iff (s : Text) : hexOctets s = none ↔ CutsCharacter s := by
  constructor
  · intro h
    fun_induction hexOctets s with
    | case1 b c rest hcut =>
      obtain ⟨d, hd, hcont⟩ := Option.any_eq_true _ _ |>.mp hcut
      obtain ⟨rest', rfl⟩ := List.head?_eq_some_iff.mp hd
      exact ⟨[], b, c, d, rest', rfl, nofun, hcont⟩
    | case2 b c rest hcut hpair => cases h
    | case3 b c rest hcut octet hpair ih =>
      obtain ⟨pairs, b', c', d, rest', rfl, hpairs, hcont⟩ := ih (Option.map_eq_none_iff.mp h)
      refine ⟨(b, c) :: pairs, b', c', d, rest', rfl, ?_, hcont⟩
      exact List.forall_mem_cons.mpr ⟨by simp [hpair], hpairs⟩
    | case4 => cases h
  · rintro ⟨pairs, b, c, d, rest, rfl, hpairs, hcont⟩
    induction pairs with
    | nil => simp [hexOctets, hcont]
    | cons p pairs ih =>
      obtain ⟨hp, hpairs⟩ := List.forall_mem_cons.mp hpairs
      obtain ⟨octet, hoctet⟩ := Option.isSome_iff_exists.mp hp
      change hexOctets (p.1 :: p.2 :: _) = none
      rw [hexOctets, hoctet]
      split
      · rfl
      · exact Option.map_eq_none_iff.mpr (ih hpairs)

theorem defaultRouteV6_eq_none_iff (line : Text) :
    defaultRouteV6 lib line = none ↔ CutsNextHop lib line := by
  unfold defaultRouteV6 CutsNextHop
  constructor
  · intro h
    split at h
    · rename_i dest length a b nextHop metric c d e iface rest hcols
      split_ifs at h with hskip
      obtain ⟨hdest, hlength, hiface⟩ := not_or.mp hskip |>.imp_right not_or.mp
      have hhop := Option.map_eq_none_iff.mp h
      unfold parseHexV6 at hhop
      split_ifs at hhop with hlen
      refine ⟨a, b, nextHop, metric, c, d, e, iface, rest, ?_, hiface, not_not.mp hlen, ?_⟩
      · rw [hcols, not_not.mp hdest, not_not.mp hlength]
      · exact (hexOctets_eq_none_iff _).mp (Option.map_eq_none_iff.mp hhop)
    · cases h
  · rintro ⟨a, b, nextHop, metric, c, d, e, iface, rest, hcols, hiface, hlen, hcuts⟩
    simp [hcols, hiface, parseHexV6, hlen, (hexOctets_eq_none_iff _).mpr hcuts]

/-- Both tables give the first default route of least metric, just if no next hop of the IPv6 table
is sliced inside a character. -/
theorem route_tables_parsed_iff (text : Text) :
    parseRouteV4 lib text =
      some (firstLeast (((lib.lines text).drop 1).filterMap (defaultRouteV4 lib))) ∧
    (parseRouteV6 lib text = some (firstLeast ((lib.lines text).filterMap fun line =>
        (defaultRouteV6 lib line).join)) ↔
      ∀ line ∈ lib.lines text, ¬CutsNextHop lib line) := by
  constructor
  · exact (parseRoute_eq_iff (fun line => some (defaultRouteV4 lib line)) _).mpr nofun
  · simp only [← defaultRouteV6_eq_none_iff]
    exact parseRoute_eq_iff (defaultRouteV6 lib) (lib.lines text)

def TextLib.blanks : TextLib := { TextLib.dotted with splitWhitespace text := text.splitOn 32 }

/-- The next hop is a euro sign and 29 zeros. -/
theorem euro_next_hop_panics :
    parseRouteV6 TextLib.blanks ([32].intercalate [List.replicate 32 48, [48, 48],
      List.replicate 32 48, [48, 48], [0xe2, 0x82, 0xac] ++ List.replicate 29 48, [48], [48], [48],
      [48], [101]]) = none := by
  decide

end Columns

end EgressDns
