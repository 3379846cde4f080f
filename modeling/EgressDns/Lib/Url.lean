import EgressDns.Lib.Octets

/-!
# URLs

The URL parser of the standard, without a base URL. What it rests on there: a scheme is put in lower
case; control characters and spaces are cut off at the ends, and tabs and line ends everywhere; the
userinfo ends at the last `@` of the authority; a port is a decimal number up to 65535, and dropped
if it is the usual one of the scheme. How a host is read and a path is written, and addresses of the
scheme `file`, are left to a `Grammar` with what the standard says of it.
-/

namespace EgressDns.Lib.Url

inductive Host where
  | domain (text : Octets)
  | ipv4 (text : Octets)
  /-- Without the brackets. -/
  | ipv6 (text : Octets)
  deriving DecidableEq

def Host.text : Host → Octets
  | .domain text => text
  | .ipv4 text => text
  | .ipv6 text => 91 :: text ++ [93]

def Host.isIpv6 : Host → Bool
  | .ipv6 _ => true
  | _ => false

def hostOctet (b : UInt8) : Bool :=
  visible b && !([35, 47, 58, 60, 62, 63, 64, 91, 92, 93, 94, 124].contains b)

def ipv6Octet (b : UInt8) : Bool := digit b || (97 ≤ b && b ≤ 102) || b == 58

def lowerLetter (b : UInt8) : Bool := 97 ≤ b && b ≤ 122

/-- A host name in lower case that ends in letters and is not encoded. -/
def plainName (t : Octets) : Bool :=
  t.all (fun b => lowerLetter b || digit b || b == 45 || b == 46) &&
  (t.rtakeWhile (· ≠ 46)).all lowerLetter && t.rtakeWhile (· ≠ 46) ≠ [] &&
  !t.tails.any fun rest => List.isPrefixOf [120, 110, 45, 45] rest

structure Address where
  scheme : Octets
  username : Octets
  password : Option Octets
  host : Option Host
  port : Option Nat
  path : Octets
  query : Option Octets
  deriving DecidableEq

/-- What the parser leaves to others. The flag says whether the scheme is special. -/
structure Grammar where
  host : Bool → Octets → Except Octets Host
  path : Bool → Octets → Octets
  opaquePath : Octets → Octets
  file : Octets → Except Octets Address
  host_text : ∀ {s t h}, host s t = .ok h → host s h.text = .ok h
  host_octets : ∀ {s t h}, host s t = .ok h → h.isIpv6 = false →
    h.text ≠ [] ∧ ∀ b ∈ h.text, hostOctet b = true
  host_ipv6 : ∀ {s t x}, host s t = .ok (.ipv6 x) →
    91 ∈ t ∧ 58 ∈ x ∧ ∀ b ∈ x, ipv6Octet b = true
  host_plain : ∀ {t}, plainName t = true → host true t = .ok (.domain t)
  path_nil : ∀ s, path s [] = if s then [47] else []

section Parse

def text (s : String) : Octets := s.toList.map fun c => UInt8.ofNat c.toNat

def special (scheme : Octets) : Bool :=
  ["http", "https", "ws", "wss", "ftp"].any fun s => text s == scheme

def defaultPort (scheme : Octets) : Option Nat :=
  if scheme = text "http" ∨ scheme = text "ws" then some 80
  else if scheme = text "https" ∨ scheme = text "wss" then some 443
  else if scheme = text "ftp" then some 21
  else none

variable (b : UInt8)

def ignored : Bool := b == 9 || b == 10 || b == 13

def control : Bool := b ≤ 32

/-- Control characters and spaces are cut off at the ends, tabs and line ends everywhere. -/
def clean (t : Octets) : Octets :=
  ((t.dropWhile control).rdropWhile control).filter fun b => !ignored b

def letter : Bool := (65 ≤ b && b ≤ 90) || lowerLetter b

def schemeOctet : Bool := letter b || digit b || b == 43 || b == 45 || b == 46

def lowerOctet : UInt8 := if 65 ≤ b ∧ b ≤ 90 then b + 32 else b

def splitScheme (t : Octets) : Option (Octets × Octets) :=
  let name := t.takeWhile schemeOctet
  match t.dropWhile schemeOctet with
  | 58 :: rest => if name.head?.any letter then some (name.map lowerOctet, rest) else none
  | _ => none

def delimiter (s : Bool) (b : UInt8) : Bool := b == 47 || b == 63 || b == 35 || (s && b == 92)

def notAt : Bool := b != 64

/-- The userinfo is everything before the last `@` of the authority. -/
def splitUserinfo (s : Bool) (t : Octets) : Option Octets × Octets :=
  let authority := t.takeWhile fun b => !delimiter s b
  let rest := t.dropWhile fun b => !delimiter s b
  (if 64 ∈ authority then some (authority.rdropWhile notAt).dropLast else none,
    authority.rtakeWhile notAt ++ rest)

def userinfoEncodes : Bool :=
  !visible b ||
  [34, 35, 47, 58, 59, 60, 61, 62, 63, 64, 91, 92, 93, 94, 96, 123, 124, 125].contains b

def splitHost (s : Bool) : Bool → Octets → Octets × Octets
  | _, [] => ([], [])
  | inside, b :: rest =>
    if (b = 58 ∧ inside = false) ∨ delimiter s b = true then ([], b :: rest)
    else
      let r := splitHost s (if b = 91 then true else if b = 93 then false else inside) rest
      (b :: r.1, r.2)

def emptyHost : Octets := text "empty host"

def invalidPort : Octets := text "invalid port number"

def relativeWithoutBase : Octets := text "relative URL without a base"

def portEnds (rest : Octets) : Bool := rest.head?.all fun b => [47, 92, 63, 35].contains b

/-- The default port of the scheme is as good as none. -/
def parsePort (usual : Option Nat) (t : Octets) : Except Octets (Option Nat × Octets) :=
  let digits := t.takeWhile digit
  let rest := t.dropWhile digit
  if 65535 < readDecimal digits ∨ portEnds rest = false then .error invalidPort
  else if digits = [] ∨ usual = some (readDecimal digits) then .ok (none, rest)
  else .ok (some (readDecimal digits), rest)

variable (g : Grammar)

def hostAndPort (scheme t : Octets) : Except Octets (Option Host × Option Nat × Octets) :=
  let (name, rest) := splitHost (special scheme) false t
  if name = [] then
    if special scheme = true ∨ rest.head? = some 58 then .error emptyHost
    else .ok (none, none, rest)
  else do
    let host ← g.host (special scheme) name
    if rest.head? = some 58 then
      let (port, rest) ← parsePort (defaultPort scheme) rest.tail
      pure (some host, port, rest)
    else pure (some host, none, rest)

def queryOf (rest : Octets) : Option Octets :=
  match (rest.dropWhile fun b => !(b == 63 || b == 35)) with
  | 63 :: query => some (query.takeWhile (· ≠ 35))
  | _ => none

def usernameOf (userinfo : Option Octets) : Octets := (userinfo.getD []).takeWhile (· ≠ 58)

def passwordOf (userinfo : Option Octets) : Octets :=
  ((userinfo.getD []).dropWhile (· ≠ 58)).tail

def assemble (scheme : Octets) (userinfo : Option Octets) (host : Option Host)
    (port : Option Nat) (rest : Octets) : Address where
  scheme := scheme
  username := percentEncode userinfoEncodes (usernameOf userinfo)
  password :=
    if passwordOf userinfo = [] then none
    else some (percentEncode userinfoEncodes (passwordOf userinfo))
  host := host
  port := port
  path := g.path (special scheme) (rest.takeWhile fun b => !(b == 63 || b == 35))
  query := queryOf rest

def afterDoubleSlash (scheme t : Octets) : Except Octets Address :=
  let (userinfo, rest) := splitUserinfo (special scheme) t
  if userinfo = some [] ∧ rest.head?.any (delimiter (special scheme)) = true then .error emptyHost
  else do
    let (host, port, rest) ← hostAndPort g scheme rest
    if host = none ∧ (usernameOf userinfo ≠ [] ∨ passwordOf userinfo ≠ []) then .error emptyHost
    else .ok (assemble g scheme userinfo host port rest)

def slashes (b : UInt8) : Bool := b == 47 || b == 92

def withScheme (scheme rest : Octets) : Except Octets Address :=
  if scheme = text "file" then (g.file rest).map fun a => { a with scheme := scheme }
  else if special scheme then afterDoubleSlash g scheme (rest.dropWhile slashes)
  else match rest with
    | 47 :: 47 :: rest => afterDoubleSlash g scheme rest
    | _ =>
      .ok { scheme, username := [], password := none, host := none, port := none
            path := g.opaquePath (rest.takeWhile fun b => !(b == 63 || b == 35))
            query := queryOf rest }

def parse (input : Octets) : Except Octets Address :=
  match splitScheme (clean input) with
  | some (scheme, rest) => withScheme g scheme rest
  | none => .error relativeWithoutBase

end Parse

section Inversion

variable {g : Grammar} {scheme t : Octets} {rest : Octets} {host : Host} {a : Address}

theorem parsePort_eq_some {usual : Option Nat} {n : Nat}
    (h : parsePort usual t = .ok (some n, rest)) : n ≤ 65535 ∧ usual ≠ some n := by
  simp only [parsePort] at h
  split at h
  · cases h
  · split at h
    · cases h
    · rename_i hsmall hkeep
      cases h
      rw [not_or] at hsmall hkeep
      exact ⟨Nat.not_lt.mp hsmall.1, hkeep.2⟩

theorem hostAndPort_eq_ok {port : Option Nat}
    (h : hostAndPort g scheme t = .ok (some host, port, rest)) :
    g.host (special scheme) (splitHost (special scheme) false t).1 = .ok host ∧
    ∀ n, port = some n → n ≤ 65535 ∧ defaultPort scheme ≠ some n := by
  simp only [hostAndPort] at h
  split at h
  · split at h
    · cases h
    · cases h
  · cases hhost : g.host (special scheme) (splitHost (special scheme) false t).1 with
    | error e =>
      rw [hhost] at h
      cases h
    | ok found =>
      rw [hhost] at h
      split at h
      · cases hport : parsePort (defaultPort scheme) (splitHost (special scheme) false t).2.tail with
        | error e =>
          rw [hport] at h
          cases h
        | ok parts =>
          rw [hport] at h
          cases h
          refine ⟨rfl, ?_⟩
          intro n hn
          rw [← Prod.mk.eta (p := parts), hn] at hport
          exact parsePort_eq_some hport
      · cases h
        exact ⟨rfl, nofun⟩

theorem afterDoubleSlash_eq_ok (h : afterDoubleSlash g scheme t = .ok a) : ∃ host port rest,
    hostAndPort g scheme (splitUserinfo (special scheme) t).2 = .ok (host, port, rest) ∧
    a = assemble g scheme (splitUserinfo (special scheme) t).1 host port rest := by
  simp only [afterDoubleSlash] at h
  split at h
  · cases h
  · cases hhost : hostAndPort g scheme (splitUserinfo (special scheme) t).2 with
    | error e =>
      rw [hhost] at h
      cases h
    | ok parts =>
      rw [hhost] at h
      obtain ⟨host, port, rest⟩ := parts
      refine ⟨host, port, rest, rfl, ?_⟩
      simp only [bind, Except.bind] at h
      split at h
      · cases h
      · exact (Except.ok.inj h).symm

theorem withScheme_eq_ok (h : withScheme g scheme t = .ok a) :
    a.scheme = scheme ∧ (scheme = text "file" ∨ a.host = none ∨
      ∃ rest, afterDoubleSlash g scheme rest = .ok a) := by
  have hslash : ∀ rest, afterDoubleSlash g scheme rest = .ok a → a.scheme = scheme := by
    intro rest hrest
    obtain ⟨_, _, _, -, rfl⟩ := afterDoubleSlash_eq_ok hrest
    rfl
  simp only [withScheme] at h
  split at h
  · rename_i hfile
    cases hg : g.file t with
    | error e =>
      rw [hg] at h
      cases h
    | ok b =>
      rw [hg] at h
      cases h
      exact ⟨rfl, .inl hfile⟩
  · split at h
    · exact ⟨hslash _ h, .inr (.inr ⟨_, h⟩)⟩
    · split at h
      · exact ⟨hslash _ h, .inr (.inr ⟨_, h⟩)⟩
      · cases h
        exact ⟨rfl, .inr (.inl rfl)⟩

theorem parse_host_eq_some (h : parse g t = .ok a) (hfile : a.scheme ≠ text "file")
    (hhost : a.host = some host) :
    (∃ name, g.host (special a.scheme) name = .ok host) ∧
    ∀ n, a.port = some n → n ≤ 65535 ∧ defaultPort a.scheme ≠ some n := by
  simp only [parse] at h
  split at h
  · obtain ⟨hscheme, hcases⟩ := withScheme_eq_ok h
    rw [← hscheme] at hcases
    rcases hcases with hf | hnone | ⟨rest, hrest⟩
    · exact absurd hf hfile
    · rw [hnone] at hhost
      cases hhost
    · obtain ⟨found, port, left, hparts, ha⟩ := afterDoubleSlash_eq_ok hrest
      have hfound : found = some host := by
        rw [ha] at hhost
        exact hhost
      have hport : port = a.port := by
        rw [ha]
        rfl
      rw [hfound, hport] at hparts
      obtain ⟨hname, hbound⟩ := hostAndPort_eq_ok hparts
      exact ⟨⟨_, hname⟩, hbound⟩
  · cases h

end Inversion

def Grammar.sample : Grammar where
  host _ t :=
    if t.head? = some 91 then
      let inner := t.tail.dropLast
      if t.tail = inner ++ [93] ∧ 58 ∈ inner ∧ inner.all ipv6Octet = true then .ok (.ipv6 inner)
      else .error (text "invalid IPv6 address")
    else if t ≠ [] ∧ t.all hostOctet = true then .ok (.domain t)
    else .error (text "invalid international domain name")
  path s t := if t = [] then if s then [47] else [] else t
  opaquePath t := t
  file _ := .error (text "invalid international domain name")
  host_text := by
    intro s t h hh
    dsimp only at hh ⊢
    split at hh
    · split at hh
      · rename_i hinner
        cases hh
        simpa [Host.text, hinner.2.1] using hinner.2.2
      · cases hh
    · rename_i hhead
      split at hh
      · rename_i hall
        cases hh
        change (if t.head? = some 91 then _ else _) = _
        rw [if_neg hhead]
        exact if_pos hall
      · cases hh
  host_octets := by
    intro s t h hh h6
    dsimp only at hh
    split at hh
    · split at hh
      · cases hh
        cases h6
      · cases hh
    · split at hh
      · rename_i hall
        cases hh
        exact ⟨hall.1, List.all_eq_true.mp hall.2⟩
      · cases hh
  host_ipv6 := by
    intro s t x hh
    dsimp only at hh
    split at hh
    · rename_i hhead
      split at hh
      · rename_i hinner
        cases hh
        exact ⟨List.mem_of_mem_head? hhead, hinner.2.1, List.all_eq_true.mp hinner.2.2⟩
      · cases hh
    · split at hh
      · cases hh
      · cases hh
  host_plain := by
    intro t h
    simp only [plainName, Bool.and_eq_true, decide_eq_true_eq] at h
    have hall : ∀ b ∈ t, hostOctet b = true := by
      intro b hb
      have hplain := List.all_eq_true.mp h.1.1.1 b hb
      simp [lowerLetter, digit, hostOctet, visible, UInt8.le_iff_toNat_le, ← UInt8.toNat_inj]
        at hplain ⊢
      omega
    have hne : t ≠ [] := by
      rintro rfl
      exact h.1.2 rfl
    have hhead : t.head? ≠ some 91 := by
      intro hh
      exact absurd (hall 91 (List.mem_of_mem_head? hh)) (by decide)
    rw [if_neg hhead, if_pos ⟨hne, List.all_eq_true.mpr hall⟩]
  path_nil := by
    intro s
    rfl

end EgressDns.Lib.Url
