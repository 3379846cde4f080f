import EgressDns.Lib.Url

/-!
# Userinfo and rendering of URLs

Two results about whole addresses: the parts outside the userinfo do not depend on it, and an
address written from its parts is read back.
-/

namespace EgressDns.Lib.Url

theorem visible_of_slashes {b : UInt8} (h : slashes b = true) : visible b = true := by
  simp only [slashes, Bool.or_eq_true, beq_iff_eq] at h
  rcases h with rfl | rfl <;> decide

theorem not_control_of_visible {x : UInt8} (h : visible x = true) : control x = false := by
  simp only [visible, Bool.and_eq_true, decide_eq_true_eq] at h
  exact decide_eq_false (UInt8.not_le.mpr (UInt8.lt_of_lt_of_le (by decide) h.1))

theorem not_ignored_of_visible {x : UInt8} (h : visible x = true) : ignored x = false := by
  have hx := space1_of_visible h
  simp only [ignored, Bool.or_eq_false_iff, beq_eq_false_iff_ne]
  refine ⟨⟨?_, ?_⟩, ?_⟩ <;> rintro rfl <;> exact absurd hx (by decide)

section Frames

/-- An address with a gap where the userinfo of its authority stands. -/
structure Frame where
  name : Octets
  lead : Octets
  rest : Octets

def userinfoText : Option Octets → Octets
  | none => []
  | some u => u ++ [64]

def kept (u : Option Octets) : Option Octets := u.map fun v => v.filter fun b => !ignored b

namespace Frame

variable (f : Frame)

def fill (u : Option Octets) : Octets :=
  f.name ++ 58 :: (f.lead ++ (userinfoText u ++ f.rest))

def scheme : Octets :=
  ((f.name.dropWhile control).filter fun b => !ignored b).map lowerOctet

/-- The gap is at the start of the authority, and this userinfo does not end the authority. -/
structure Fits (u : Option Octets) : Prop where
  name : 58 ∉ f.name
  lead : f.lead = [47, 47] ∨ special f.scheme = true ∧ ∀ b ∈ f.lead, slashes b = true
  userinfo : ∀ b ∈ u.getD [], delimiter (special f.scheme) b = false
  start : u = none → (f.rest.filter fun b => !ignored b).head?.any slashes = false

def trim : Frame := { f with name := trimStart f.name, rest := trimEnd f.rest }

def tidy : Frame where
  name := (f.name.dropWhile control).filter fun b => !ignored b
  lead := f.lead
  rest := (f.rest.rdropWhile control).filter fun b => !ignored b

variable {f} {u : Option Octets}

theorem Fits.slashes_of_mem (h : f.Fits u) {b : UInt8} (hb : b ∈ f.lead) : slashes b = true := by
  rcases h.lead with hl | ⟨-, hl⟩
  · rw [hl] at hb
    rcases List.mem_cons.mp hb with rfl | hb
    · decide
    · rw [List.mem_singleton.mp hb]
      decide
  · exact hl b hb

theorem exists_last (h : ∀ b ∈ f.lead, slashes b = true) (u : Option Octets) :
    ∃ mid x, visible x = true ∧
      ∀ rest, 58 :: (f.lead ++ (userinfoText u ++ rest)) = mid ++ x :: rest := by
  cases u with
  | some v => exact ⟨58 :: (f.lead ++ v), 64, by decide, by simp [userinfoText]⟩
  | none =>
    rcases List.eq_nil_or_concat f.lead with hl | ⟨init, x, hl⟩
    · exact ⟨[], 58, by decide, by simp [userinfoText, hl]⟩
    · refine ⟨58 :: init, x, visible_of_slashes (h x (by simp [hl])), ?_⟩
      simp [userinfoText, hl]

theorem trim_fill (h : f.trim.Fits u) : Lib.trim (f.fill u) = f.trim.fill u := by
  obtain ⟨mid, x, hx, hmid⟩ := exists_last (f := f) (fun b hb => h.slashes_of_mem hb) u
  rw [Lib.trim, fill, trimStart_append_cons (by decide), hmid, ← List.append_assoc,
    trimEnd_append_cons hx, List.append_assoc, ← hmid]
  rfl

theorem filter_lead (h : f.Fits u) : (f.lead.filter fun b => !ignored b) = f.lead := by
  apply List.filter_eq_self.mpr
  intro b hb
  simp [not_ignored_of_visible (visible_of_slashes (h.slashes_of_mem hb))]

theorem clean_fill (h : f.Fits u) :
    clean (f.fill u) = f.tidy.fill (kept u) := by
  obtain ⟨mid, x, hx, hmid⟩ := exists_last (f := f) (fun b hb => h.slashes_of_mem hb) u
  have hcolon : control 58 = false := by decide
  rw [clean, fill, dropWhile_append_cons hcolon, hmid, ← List.append_assoc,
    rdropWhile_append_cons (not_control_of_visible hx), List.append_assoc, ← hmid]
  have h58 : ignored 58 = false := by decide
  have h64 : ignored 64 = false := by decide
  cases u with
  | none => simp [fill, tidy, kept, userinfoText, filter_lead h, h58]
  | some v => simp [fill, tidy, kept, userinfoText, filter_lead h, h58, h64]

end Frame

def schemeText (name : Octets) : Bool := name.all schemeOctet && name.head?.any letter

theorem splitScheme_append {name : Octets} (h : 58 ∉ name) (rest : Octets) :
    splitScheme (name ++ 58 :: rest) =
      if schemeText name then some (name.map lowerOctet, rest) else none := by
  have hcolon : schemeOctet 58 = false := by decide
  by_cases hall : ∀ b ∈ name, schemeOctet b = true
  · have hname : name.all schemeOctet = true := List.all_eq_true.mpr hall
    simp only [splitScheme, takeWhile_cut hall hcolon, dropWhile_cut hall hcolon, schemeText,
      hname, Bool.true_and]
  · -- The scheme ends before the colon, at an octet that is none.
    have hname : name.all schemeOctet = false := by
      rw [← Bool.not_eq_true, List.all_eq_true]
      exact hall
    have hdrop : (name ++ 58 :: rest).dropWhile schemeOctet =
        name.dropWhile schemeOctet ++ 58 :: rest := dropWhile_append_cons hcolon
    obtain ⟨b, left, hb⟩ : ∃ b left, name.dropWhile schemeOctet = b :: left := by
      apply List.exists_cons_of_ne_nil
      intro hnil
      exact hall (List.dropWhile_eq_nil_iff.mp hnil)
    have hne : b ≠ 58 := by
      rintro rfl
      exact h ((List.dropWhile_suffix schemeOctet).subset (hb ▸ List.mem_cons_self))
    rw [hb] at hdrop
    simp [splitScheme, hdrop, schemeText, hname, hne]

section Fill

variable {g : Grammar} {f : Frame} {u : Option Octets}

theorem Frame.tidy_colon (h : f.Fits u) : 58 ∉ f.tidy.name := by
  intro hmem
  exact h.name ((List.dropWhile_suffix control).subset (List.mem_of_mem_filter hmem))

theorem not_slashes_of_head (h : f.Fits u) (hs : special f.scheme = true) {b : UInt8}
    {left : Octets} (hb : userinfoText (kept u) ++ f.tidy.rest = b :: left) :
    slashes b = false := by
  cases u with
  | none =>
    have hprefix : f.tidy.rest <+: f.rest.filter fun b => !ignored b :=
      (List.rdropWhile_prefix control f.rest).filter _
    obtain ⟨more, hmore⟩ := hprefix
    have hstart := h.start rfl
    change f.tidy.rest = b :: left at hb
    rw [← hmore, hb] at hstart
    simpa using hstart
  | some v =>
    cases hv : v.filter fun b => !ignored b with
    | nil =>
      simp only [kept, Option.map_some, userinfoText, hv, List.nil_append, List.singleton_append,
        List.cons.injEq] at hb
      rw [← hb.1]
      decide
    | cons c more =>
      have hc : c ∈ v := List.mem_of_mem_filter (hv ▸ List.mem_cons_self)
      have hdelim := h.userinfo c hc
      simp only [kept, Option.map_some, userinfoText, hv, List.cons_append,
        List.cons.injEq] at hb
      rw [← hb.1]
      simp only [delimiter, hs, Bool.true_and, Bool.or_eq_false_iff] at hdelim
      simp [slashes, hdelim]

theorem dropWhile_slashes (h : f.Fits u) (hs : special f.scheme = true) :
    (f.lead ++ (userinfoText (kept u) ++ f.tidy.rest)).dropWhile slashes =
      userinfoText (kept u) ++ f.tidy.rest := by
  rw [List.dropWhile_append_of_pos fun b hb => h.slashes_of_mem hb]
  cases hcut : userinfoText (kept u) ++ f.tidy.rest with
  | nil => rfl
  | cons b left => simp [not_slashes_of_head h hs hcut]

theorem withScheme_fill (h : f.Fits u) :
    withScheme g f.scheme (f.lead ++ (userinfoText (kept u) ++ f.tidy.rest)) =
      if f.scheme = text "file" then
        (g.file (f.lead ++ (userinfoText (kept u) ++ f.tidy.rest))).map fun a =>
          { a with scheme := f.scheme }
      else afterDoubleSlash g f.scheme (userinfoText (kept u) ++ f.tidy.rest) := by
  by_cases hfile : f.scheme = text "file"
  · simp [withScheme, hfile]
  · cases hs : special f.scheme with
    | true => simp [withScheme, hfile, hs, dropWhile_slashes h hs]
    | false =>
      have hlead : f.lead = [47, 47] := h.lead.resolve_right (by simp [hs])
      simp [withScheme, hfile, hs, hlead]

theorem parse_fill (h : f.Fits u) : parse g (f.fill u) =
    if schemeText f.tidy.name then
      withScheme g f.scheme (f.lead ++ (userinfoText (kept u) ++ f.tidy.rest))
    else .error relativeWithoutBase := by
  have hsplit : splitScheme (clean (f.fill u)) = if schemeText f.tidy.name then
      some (f.scheme, f.lead ++ (userinfoText (kept u) ++ f.tidy.rest)) else none := by
    rw [Frame.clean_fill h]
    exact splitScheme_append (Frame.tidy_colon h) _
  rw [parse, hsplit]
  cases schemeText f.tidy.name with
  | true | false => rfl

end Fill

variable {u : Option Octets} {s : Bool} {g : Grammar} {f : Frame} {a : Address} {t : Octets}
  {b : UInt8}

theorem splitUserinfo_rest (h : ∀ b ∈ u.getD [], delimiter s b = false) (rest : Octets) :
    (splitUserinfo s (userinfoText u ++ rest)).2 = (splitUserinfo s rest).2 := by
  cases u with
  | none => rfl
  | some v =>
    have hv : ∀ b ∈ v ++ [64], (!delimiter s b) = true := by
      intro b hb
      rcases List.mem_append.mp hb with hb | hb
      · simp [h b hb]
      · rw [List.mem_singleton.mp hb]
        cases s <;> decide
    simp only [splitUserinfo, userinfoText, List.takeWhile_append_of_pos hv,
      List.dropWhile_append_of_pos hv]
    rw [List.append_assoc, List.singleton_append, rtakeWhile_append_cons (by decide)]

theorem parse_fill_eq_ok (hu : f.Fits u) (ha : parse g (f.fill u) = .ok a)
    (hfile : f.scheme ≠ text "file") :
    ∃ host port rest,
      hostAndPort g f.scheme (splitUserinfo (special f.scheme) f.tidy.rest).2 =
        .ok (host, port, rest) ∧
      ∃ userinfo, a = assemble g f.scheme userinfo host port rest := by
  have hkept : ∀ b ∈ (kept u).getD [], delimiter (special f.scheme) b = false := by
    intro b hb
    cases u with
    | none => cases hb
    | some v => exact hu.userinfo b (List.mem_of_mem_filter hb)
  rw [parse_fill hu] at ha
  split at ha
  · rw [withScheme_fill hu, if_neg hfile] at ha
    obtain ⟨host, port, rest, hhost, rfl⟩ := afterDoubleSlash_eq_ok ha
    rw [splitUserinfo_rest hkept] at hhost
    exact ⟨host, port, rest, hhost, _, rfl⟩
  · cases ha

theorem mem_of_mem_splitHost {inside : Bool} (h : b ∈ (splitHost s inside t).1) : b ∈ t := by
  induction t generalizing inside with
  | nil => simp [splitHost] at h
  | cons c rest ih =>
    simp only [splitHost] at h
    split at h
    · cases h
    · rcases List.mem_cons.mp h with rfl | h
      · exact List.mem_cons_self
      · exact List.mem_cons_of_mem c (ih h)

theorem mem_of_mem_splitUserinfo (h : b ∈ (splitUserinfo s t).2) : b ∈ t := by
  rcases List.mem_append.mp h with h | h
  · exact (List.takeWhile_prefix _).subset ((List.rtakeWhile_suffix notAt _).subset h)
  · exact (List.dropWhile_suffix _).subset h

theorem scheme_of_parse_fill (hu : f.Fits u) (ha : parse g (f.fill u) = .ok a)
    (hfile : f.scheme = text "file") : a.scheme = text "file" := by
  rw [parse_fill hu] at ha
  split at ha
  · rw [withScheme_fill hu, if_pos hfile] at ha
    cases hg : g.file (f.lead ++ (userinfoText (kept u) ++ f.tidy.rest)) with
    | error e =>
      rw [hg] at ha
      cases ha
    | ok b =>
      rw [hg] at ha
      rw [← Except.ok.inj ha]
      exact hfile
  · cases ha

theorem parse_fill_agree {v : Option Octets} {b : Address} (hu : f.Fits u) (hv : f.Fits v)
    (ha : parse g (f.fill u) = .ok a) (hb : parse g (f.fill v) = .ok b)
    (hfile : a.scheme ≠ text "file") :
    a.scheme = b.scheme ∧ a.host = b.host ∧ a.port = b.port ∧ a.path = b.path := by
  have hscheme : f.scheme ≠ text "file" := fun h => hfile (scheme_of_parse_fill hu ha h)
  obtain ⟨host, port, rest, hhost, _, rfl⟩ := parse_fill_eq_ok hu ha hscheme
  obtain ⟨host', port', rest', hhost', _, rfl⟩ := parse_fill_eq_ok hv hb hscheme
  rw [hhost] at hhost'
  cases hhost'
  exact ⟨rfl, rfl, rfl, rfl⟩

theorem bracket_mem_of_ipv6 {x : Octets} (hu : f.Fits u) (ha : parse g (f.fill u) = .ok a)
    (hfile : a.scheme ≠ text "file") (hhost : a.host = some (.ipv6 x)) : 91 ∈ f.rest := by
  have hscheme : f.scheme ≠ text "file" := fun h => hfile (scheme_of_parse_fill hu ha h)
  obtain ⟨host, port, rest, hparts, _, rfl⟩ := parse_fill_eq_ok hu ha hscheme
  have hfound : host = some (.ipv6 x) := hhost
  rw [hfound] at hparts
  have hbracket := (g.host_ipv6 (hostAndPort_eq_ok hparts).1).1
  have hrest := mem_of_mem_splitUserinfo (mem_of_mem_splitHost hbracket)
  exact (List.rdropWhile_prefix control f.rest).subset (List.mem_of_mem_filter hrest)

end Frames

section Render

variable {g : Grammar} {scheme user host t : Octets} {port : Nat}

def rendered (scheme host : Octets) (port : Nat) : Frame where
  name := scheme
  lead := [47, 47]
  rest := host ++ 58 :: decimal port

def plainOctet (b : UInt8) : Bool := visible b && !delimiter true b && b != 64

theorem tidy_of_visible (h : ∀ b ∈ t, visible b = true) :
    t.dropWhile control = t ∧ t.rdropWhile control = t ∧ (t.filter fun b => !ignored b) = t := by
  refine ⟨?_, ?_, ?_⟩
  · cases t with
    | nil => rfl
    | cons b rest => simp [not_control_of_visible (h b List.mem_cons_self)]
  · apply List.rdropWhile_eq_self_iff.mpr
    intro hl
    simp [not_control_of_visible (h _ (List.getLast_mem hl))]
  · apply List.filter_eq_self.mpr
    intro b hb
    simp [not_ignored_of_visible (h b hb)]

theorem plainOctet_iff {b : UInt8} :
    plainOctet b = true ↔ visible b = true ∧ (∀ s, delimiter s b = false) ∧ b ≠ 64 := by
  have hd : delimiter true b = false ↔ ∀ s, delimiter s b = false := by
    constructor
    · intro h s
      cases s with
      | true => exact h
      | false =>
        simp only [delimiter, Bool.or_eq_false_iff] at h ⊢
        simp [h]
    · intro h
      exact h true
  simp only [plainOctet, Bool.and_eq_true, Bool.not_eq_true', bne_iff_ne, and_assoc]
  rw [hd]

theorem splitUserinfo_of_plain {s : Bool} (hu : ∀ b ∈ user, plainOctet b = true)
    (ht : ∀ b ∈ t, plainOctet b = true) : splitUserinfo s (user ++ 64 :: t) = (some user, t) := by
  have hplain : ∀ b, plainOctet b = true → (!delimiter s b) = true ∧ notAt b = true := by
    intro b hb
    obtain ⟨-, hdelim, hat⟩ := plainOctet_iff.mp hb
    simp [hdelim, notAt, hat]
  have hall : ∀ b ∈ user ++ 64 :: t, (!delimiter s b) = true := by
    intro b hb
    rcases List.mem_append.mp hb with hb | hb
    · exact (hplain b (hu b hb)).1
    · rcases List.mem_cons.mp hb with rfl | hb
      · cases s <;> decide
      · exact (hplain b (ht b hb)).1
  have hlast : t.rtakeWhile notAt = t ∧ t.rdropWhile notAt = [] :=
    ⟨List.rtakeWhile_eq_self_iff.mpr fun b hb => (hplain b (ht b hb)).2,
      List.rdropWhile_eq_nil_iff.mpr fun b hb => (hplain b (ht b hb)).2⟩
  have hat : notAt 64 = false := by decide
  simp only [splitUserinfo, List.takeWhile_eq_self_iff.mpr hall, List.dropWhile_eq_nil_iff.mpr hall]
  rw [rtakeWhile_append_cons hat, rdropWhile_append_cons hat, hlast.1, hlast.2]
  simp

theorem splitHost_cut {s : Bool} {stop : UInt8} (hstop : stop = 58 ∨ delimiter s stop = true)
    (h : ∀ b ∈ host, plainOctet b = true ∧ b ∉ [58, 91, 93]) (rest : Octets) :
    splitHost s false (host ++ stop :: rest) = (host, stop :: rest) := by
  induction host with
  | nil => simp [splitHost, hstop]
  | cons b left ih =>
    obtain ⟨hb, hout⟩ := h b List.mem_cons_self
    have hdelim : delimiter s b = false := (plainOctet_iff.mp hb).2.1 s
    simp only [List.mem_cons, List.not_mem_nil, or_false, not_or] at hout
    simp [splitHost, hdelim, hout, ih fun c hc => h c (List.mem_cons_of_mem b hc)]

theorem parsePort_decimal {usual : Option Nat} (hp : port ≤ 65535) (hd : usual ≠ some port) :
    parsePort usual (decimal port) = .ok (some port, []) := by
  have hall : ∀ b ∈ decimal port, digit b = true := fun b hb => digit_of_mem_decimal hb
  simp only [parsePort, List.takeWhile_eq_self_iff.mpr hall, List.dropWhile_eq_nil_iff.mpr hall,
    readDecimal_decimal]
  simp [portEnds, decimal_ne_nil, hd, hp]

theorem hostAndPort_rendered {h : Host} (hh : g.host (special scheme) host = .ok h)
    (hne : host ≠ []) (hplain : ∀ b ∈ host, plainOctet b = true ∧ b ∉ [58, 91, 93])
    (hp : port ≤ 65535) (hd : defaultPort scheme ≠ some port) :
    hostAndPort g scheme (host ++ 58 :: decimal port) = .ok (some h, some port, []) := by
  simp only [hostAndPort, splitHost_cut (.inl rfl) hplain, hne, hh]
  simp [bind, Except.bind, pure, Except.pure, parsePort_decimal hp hd]

theorem portEnds_of_ipv6 {t : Octets} (hne : t ≠ []) (h : ∀ b ∈ t, ipv6Octet b = true) :
    portEnds t = false := by
  cases t with
  | nil => exact absurd rfl hne
  | cons b rest =>
    have hb := h b List.mem_cons_self
    simp [ipv6Octet, digit, portEnds, UInt8.le_iff_toNat_le, ← UInt8.toNat_inj] at hb ⊢
    omega

theorem plainOctet_of_ipv6Octet {b : UInt8} (h : ipv6Octet b = true) : plainOctet b = true := by
  simp [ipv6Octet, digit, plainOctet, visible, delimiter, UInt8.le_iff_toNat_le,
    ← UInt8.toNat_inj] at h ⊢
  omega

theorem not_bracket_of_ipv6Octet {b : UInt8} (h : ipv6Octet b = true) : b ≠ 91 ∧ b ≠ 93 := by
  simp [ipv6Octet, digit, UInt8.le_iff_toNat_le, ← UInt8.toNat_inj] at h ⊢
  omega

theorem hostAndPort_bare_ipv6 (g : Grammar) (scheme : Octets) (port : Nat) {x : Octets}
    (h58 : 58 ∈ x) (hx : ∀ b ∈ x, ipv6Octet b = true) :
    ∃ e, hostAndPort g scheme (x ++ 58 :: decimal port) = .error e := by
  obtain ⟨start, more, rfl, hstart⟩ := List.eq_append_cons_of_mem h58
  have hcut : ∀ b ∈ start, plainOctet b = true ∧ b ∉ [58, 91, 93] := by
    intro b hb
    have hb6 := hx b (List.mem_append_left _ hb)
    refine ⟨plainOctet_of_ipv6Octet hb6, ?_⟩
    have h58 : b ≠ 58 := fun h => hstart (h ▸ hb)
    obtain ⟨h91, h93⟩ := not_bracket_of_ipv6Octet hb6
    simp [h58, h91, h93]
  have hport : ∀ usual, parsePort usual (more ++ 58 :: decimal port) = .error invalidPort := by
    intro usual
    have hends : portEnds ((more ++ 58 :: decimal port).dropWhile digit) = false := by
      rw [dropWhile_append_cons (by decide)]
      apply portEnds_of_ipv6 (by simp)
      intro b hb
      rcases List.mem_append.mp hb with hb | hb
      · exact hx b (by simp [(List.dropWhile_suffix digit).subset hb])
      · rcases List.mem_cons.mp hb with rfl | hb
        · decide
        · simp [ipv6Octet, digit_of_mem_decimal hb]
    simp [parsePort, hends]
  rw [List.append_assoc, List.cons_append]
  simp only [hostAndPort, splitHost_cut (.inl rfl) hcut, List.head?_cons, List.tail_cons, hport]
  split
  · exact ⟨emptyHost, by simp⟩
  · cases g.host (special scheme) start with
    | error e => exact ⟨e, rfl⟩
    | ok h => exact ⟨invalidPort, rfl⟩

theorem plain_rest (port : Nat) (h : ∀ b ∈ host, plainOctet b = true) :
    ∀ b ∈ host ++ 58 :: decimal port, plainOctet b = true := by
  intro b hb
  rcases List.mem_append.mp hb with hb | hb
  · exact h b hb
  · rcases List.mem_cons.mp hb with rfl | hb
    · decide
    · apply plainOctet_of_ipv6Octet
      simp [ipv6Octet, digit_of_mem_decimal hb]

section Written

variable {f : Frame} {u : Option Octets}

theorem parse_written (hname : schemeText f.name = true) (hlower : f.name.map lowerOctet = f.name)
    (hfile : f.name ≠ text "file") (hlead : f.lead = [47, 47])
    (hu : ∀ b ∈ u.getD [], plainOctet b = true) (hrest : ∀ b ∈ f.rest, visible b = true)
    (hstart : u = none → f.rest.head?.any slashes = false) :
    parse g (f.fill u) = afterDoubleSlash g f.name (userinfoText u ++ f.rest) := by
  have hscheme : ∀ b ∈ f.name, visible b = true ∧ b ≠ 58 := by
    intro b hb
    have hoctet := List.all_eq_true.mp (Bool.and_eq_true_iff.mp hname).1 b hb
    simp [schemeOctet, letter, lowerLetter, digit, visible, UInt8.le_iff_toNat_le,
      ← UInt8.toNat_inj] at hoctet ⊢
    omega
  have htidy := tidy_of_visible fun b hb => (hscheme b hb).1
  have hrestTidy := tidy_of_visible hrest
  have hkept : kept u = u := by
    cases u with
    | none => rfl
    | some v =>
      have hv : ∀ b ∈ v, visible b = true := fun b hb => (plainOctet_iff.mp (hu b hb)).1
      exact congrArg some (tidy_of_visible hv).2.2
  have hf : f.scheme = f.name := by simp [Frame.scheme, htidy, hlower]
  have hfits : f.Fits u := by
    refine ⟨fun h58 => (hscheme 58 h58).2 rfl, .inl hlead, ?_, ?_⟩
    · intro b hb
      exact (plainOctet_iff.mp (hu b hb)).2.1 _
    · rw [hrestTidy.2.2]
      exact hstart
  have hrestEq : f.tidy.rest = f.rest := by simp only [Frame.tidy, hrestTidy]
  have hnameEq : f.tidy.name = f.name := by simp only [Frame.tidy, htidy]
  rw [parse_fill hfits, hnameEq, if_pos hname, withScheme_fill hfits, hf, if_neg hfile, hkept,
    hrestEq]

end Written

section Located

variable {stop : UInt8} {more : Octets}

theorem splitUserinfo_none {s : Bool} (hplain : ∀ b ∈ host, plainOctet b = true)
    (hstop : delimiter s stop = true) :
    splitUserinfo s (host ++ stop :: more) = (none, host ++ stop :: more) := by
  have hall : ∀ b ∈ host, (!delimiter s b) = true := fun b hb => by
    simp [(plainOctet_iff.mp (hplain b hb)).2.1 s]
  have hcut : (!delimiter s stop) = false := by simp [hstop]
  have hat : 64 ∉ host := fun h => (plainOctet_iff.mp (hplain 64 h)).2.2 rfl
  have hwhole : host.rtakeWhile notAt = host := by
    apply List.rtakeWhile_eq_self_iff.mpr
    intro b hb
    simp [notAt, (plainOctet_iff.mp (hplain b hb)).2.2]
  simp only [splitUserinfo, takeWhile_cut hall hcut, dropWhile_cut hall hcut, hat, if_false, hwhole]

def located (scheme host after : Octets) : Frame where
  name := scheme
  lead := [47, 47]
  rest := host ++ after

theorem parse_located {h : Host} (hname : schemeText scheme = true)
    (hlower : scheme.map lowerOctet = scheme) (hfile : scheme ≠ text "file")
    (hh : g.host (special scheme) host = .ok h) (hne : host ≠ [])
    (hplain : ∀ b ∈ host, plainOctet b = true ∧ b ∉ [58, 91, 93])
    (hstop : delimiter (special scheme) stop = true) (hcolon : stop ≠ 58)
    (hvisible : ∀ b ∈ stop :: more, visible b = true) :
    parse g ((located scheme host (stop :: more)).fill none) =
      .ok (assemble g scheme none (some h) none (stop :: more)) := by
  have hrest : ∀ b ∈ host ++ stop :: more, visible b = true := by
    intro b hb
    rcases List.mem_append.mp hb with hb | hb
    · exact (plainOctet_iff.mp (hplain b hb).1).1
    · exact hvisible b hb
  have hstart : (host ++ stop :: more).head?.any slashes = false := by
    cases host with
    | nil => exact absurd rfl hne
    | cons b left =>
      have hdelim := (plainOctet_iff.mp (hplain b List.mem_cons_self).1).2.1 true
      simp only [delimiter, Bool.true_and, Bool.or_eq_false_iff] at hdelim
      simp [slashes, hdelim]
  have hparts : hostAndPort g scheme (host ++ stop :: more) =
      .ok (some h, none, stop :: more) := by
    simp only [hostAndPort, splitHost_cut (.inr hstop) hplain, hne, hh]
    simp [bind, Except.bind, pure, Except.pure, hcolon]
  rw [parse_written (f := located scheme host (stop :: more)) hname hlower hfile rfl
    (List.forall_mem_nil _) hrest fun _ => hstart]
  change afterDoubleSlash g scheme (host ++ stop :: more) = _
  simp only [afterDoubleSlash, splitUserinfo_none (fun b hb => (hplain b hb).1) hstop, hparts]
  simp [bind, Except.bind]

end Located

variable (hname : schemeText scheme = true) (hlower : scheme.map lowerOctet = scheme)
  (hfile : scheme ≠ text "file") (hu : ∀ b ∈ user, plainOctet b = true)
  (ht : ∀ b ∈ host, plainOctet b = true)
include hname hlower hfile hu ht

theorem parse_rendered : parse g ((rendered scheme host port).fill (some user)) =
    afterDoubleSlash g scheme (user ++ 64 :: (host ++ 58 :: decimal port)) := by
  have hvisible : ∀ b ∈ (rendered scheme host port).rest, visible b = true :=
    fun b hb => (plainOctet_iff.mp (plain_rest port ht b hb)).1
  rw [parse_written (f := rendered scheme host port) (u := some user) hname hlower hfile rfl hu
    hvisible nofun]
  simp [userinfoText, rendered]

theorem parse_rendered_ok {h : Host} (hh : g.host (special scheme) host = .ok h)
    (hne : host ≠ []) (hout : ∀ b ∈ host, b ∉ [58, 91, 93]) (hp : port ≤ 65535)
    (hd : defaultPort scheme ≠ some port) :
    parse g ((rendered scheme host port).fill (some user)) =
      .ok (assemble g scheme (some user) (some h) (some port) []) := by
  have hrest := plain_rest port ht
  have hhost := hostAndPort_rendered hh hne (fun b hb => ⟨ht b hb, hout b hb⟩) hp hd
  have hdelim : ((host ++ 58 :: decimal port).head?.any (delimiter (special scheme))) = false := by
    cases host with
    | nil => exact absurd rfl hne
    | cons b left => simpa using (plainOctet_iff.mp (ht b List.mem_cons_self)).2.1 _
  rw [parse_rendered hname hlower hfile hu ht]
  simp only [afterDoubleSlash, splitUserinfo_of_plain hu hrest, hdelim, hhost]
  simp [bind, Except.bind]

theorem parse_rendered_bare_ipv6 (h58 : 58 ∈ host) (h6 : ∀ b ∈ host, ipv6Octet b = true) :
    ∃ e, parse g ((rendered scheme host port).fill (some user)) = .error e := by
  obtain ⟨e, he⟩ := hostAndPort_bare_ipv6 g scheme port h58 h6
  rw [parse_rendered hname hlower hfile hu ht]
  simp only [afterDoubleSlash, splitUserinfo_of_plain hu (plain_rest port ht), he]
  split
  · exact ⟨emptyHost, rfl⟩
  · exact ⟨e, rfl⟩

end Render

end EgressDns.Lib.Url
