import EgressDns.Datasets.Reach
import EgressDns.Datasets.Snapshot
import EgressDns.Dns.SpecialNames

/-!
# Routing by suffix, label by label

`group_for` works on texts: the rules are sorted by length and the first one wins that the name ends
in after a dot. Here it is compared with the labels of the name.
-/

namespace EgressDns

open Lib

open Presentation (LabelForm asciiOnly shown)
open Lib (close)

def suffixText (suffix : Text) : Text := lower (trimStartDots (trimEndDots suffix))

def routed (rules : List SuffixRule) (name : Text) : Option String :=
  (((rules.map SuffixRule.entry).insertionSort suffixBefore).find?
    fun rule => isUnder (lower (trimEndDots name)) rule.1).map Prod.snd

theorem groupFor_build {lib : TextLib} {datasets : DatasetsConfig} {localCfg : LocalConfig}
    {disk : Disk} {now : Nat} {snapshot : DatasetSnapshot}
    (h : DatasetSnapshot.build lib datasets localCfg disk now = .ok snapshot) (name : Text) :
    snapshot.groupFor name = routed localCfg.suffixRules name := by
  unfold DatasetSnapshot.build at h
  cases hz : LocalZoneSet.build lib localCfg.zones localCfg.localTtl with
  | error e =>
    rw [hz] at h
    cases h
  | ok zones =>
    rw [hz] at h
    cases h
    rfl

section Labels

variable (form : LabelForm)

def tailText (labels : List (List UInt8)) : Text :=
  lower (trimEndDots (Presentation.name form ⟨labels⟩))

/-- The last labels of the name, this many, are the suffix. The root is the suffix of no labels. -/
def EndsIn (q : Name) (suffix : Text) (count : Nat) : Prop :=
  count ≤ q.labels.length ∧
    tailText form (q.labels.drop (q.labels.length - count)) = suffixText suffix

/-- The suffix is what stands behind a dot inside a label. -/
def InsideLabel (q : Name) (suffix : Text) : Prop :=
  suffixText suffix ≠ [] ∧ ∃ front l rest u v, q.labels = front ++ l :: rest ∧
    shown form l = u ++ 46 :: v ∧
    suffixText suffix = trimEndDots (v ++ 46 :: close 46 (rest.map (shown form)))

variable {form} {front rest : List (List UInt8)} {q : Name} {suffix : Text}

theorem isUnder_iff {name suffix : Text} :
    isUnder name suffix = true ↔ name = suffix ∨ ∃ x, name = x ++ 46 :: suffix := by
  unfold isUnder
  rw [Bool.or_eq_true, beq_iff_eq, List.isSuffixOf_iff_suffix]
  apply or_congr_right
  constructor
  · rintro ⟨x, hx⟩
    exact ⟨x, hx.symm⟩
  · rintro ⟨x, hx⟩
    exact ⟨x, hx.symm⟩

theorem tailText_nil : tailText form [] = [] := rfl

theorem tailText_of_ne_nil (h : rest ≠ []) :
    tailText form rest = trimEndDots (close 46 (rest.map (shown form))) := by
  unfold tailText
  rw [lower_trimEndDots, Presentation.lower_name h]

variable (form) in
theorem tailText_ne_nil (h : rest ≠ []) (hl : ∀ l ∈ rest, l ≠ []) : tailText form rest ≠ [] := by
  rw [tailText_of_ne_nil h]
  cases rest with
  | nil => exact absurd rfl h
  | cons l rest =>
    obtain ⟨c, cs, heq, hc⟩ := Presentation.head_shown form (hl l List.mem_cons_self)
    rw [List.map_cons, close_cons, heq]
    intro hnil
    rw [trimEndDots_eq, List.rdropWhile_eq_nil_iff] at hnil
    exact hc (of_decide_eq_true (hnil c List.mem_cons_self))

variable (form front) in
theorem tailText_append (h : rest ≠ []) (hl : ∀ l ∈ rest, l ≠ []) :
    tailText form (front ++ rest) = close 46 (front.map (shown form)) ++ tailText form rest := by
  have hne := tailText_ne_nil form h hl
  rw [tailText_of_ne_nil h] at hne ⊢
  rw [tailText_of_ne_nil (List.append_ne_nil_of_right_ne_nil _ h), List.map_append,
    close_append, trimEndDots_append hne]

theorem endsIn_all (h : tailText form q.labels = suffixText suffix) :
    EndsIn form q suffix q.labels.length :=
  ⟨le_rfl, by rw [Nat.sub_self]; exact h⟩

section

variable (hq : ∀ l ∈ q.labels, l ≠ [])
include hq

theorem endsIn_root_iff {count : Nat} (h : EndsIn form q suffix count) :
    suffixText suffix = [] ↔ count = 0 := by
  obtain ⟨hcount, htext⟩ := h
  rw [← htext]
  constructor
  · intro hnil
    by_contra hpos
    have hrest : q.labels.drop (q.labels.length - count) ≠ [] := by
      rw [Ne, List.drop_eq_nil_iff]
      omega
    exact tailText_ne_nil form hrest (fun l hl => hq l (List.mem_of_mem_drop hl)) hnil
  · rintro rfl
    rw [Nat.sub_zero, List.drop_length]
    rfl

/-- The text of a name ends in a suffix behind a dot just when its labels do, or when the suffix
stands behind a dot inside a label. -/
theorem isUnder_of_labels_iff (hroot : q.labels ≠ []) (hs : suffixText suffix ≠ []) :
    isUnder (tailText form q.labels) (suffixText suffix) = true ↔
      (∃ count, EndsIn form q suffix count) ∨ InsideLabel form q suffix := by
  rw [isUnder_iff]
  constructor
  · rintro (heq | ⟨x, hx⟩)
    · exact .inl ⟨q.labels.length, endsIn_all heq⟩
    · have hlast : (suffixText suffix).getLast? ≠ some 46 := by
        have hname := getLast?_trimEndDots (close 46 (q.labels.map (shown form)))
        rw [← tailText_of_ne_nil hroot, hx, List.append_cons,
          List.getLast?_append_of_ne_nil _ hs] at hname
        exact hname
      obtain ⟨k, hk⟩ := exists_trimmed_dots (close 46 (q.labels.map (shown form)))
      rw [← tailText_of_ne_nil hroot, hx, List.append_assoc, List.cons_append] at hk
      have htrim : trimEndDots (suffixText suffix ++ List.replicate k 46) = suffixText suffix := by
        rw [trimEndDots_append_dots, trimEndDots_of_last hlast]
      rcases close_map_eq_append hk with
        ⟨front, rest, heq, hbs⟩ | ⟨front, l, rest, u, v, heq, hl, hy⟩
      · have hrest : rest ≠ [] := by
          rintro rfl
          rw [← hbs] at htrim
          exact hs htrim.symm
        refine .inl ⟨rest.length, ?_, ?_⟩
        · rw [heq, List.length_append]
          exact Nat.le_add_left _ _
        · rw [heq, List.length_append, Nat.add_sub_cancel, List.drop_left, tailText_of_ne_nil hrest,
            hbs, htrim]
      · exact .inr ⟨hs, front, l, rest, u, v, heq, hl, by rw [← hy, htrim]⟩
  · rintro (⟨count, hcount, htext⟩ | ⟨-, front, l, rest, u, v, heq, hl, htext⟩)
    · have hrest : q.labels.drop (q.labels.length - count) ≠ [] := by
        intro hnil
        rw [hnil] at htext
        exact hs htext.symm
      have happend := tailText_append form (q.labels.take (q.labels.length - count)) hrest
        fun l hl => hq l (List.mem_of_mem_drop hl)
      rw [List.take_append_drop, htext] at happend
      by_cases hfront : q.labels.take (q.labels.length - count) = []
      · rw [hfront] at happend
        exact .inl happend
      · obtain ⟨x, -, hx⟩ := Presentation.exists_front form hfront
          fun l hl => hq l (List.mem_of_mem_take hl)
        rw [hx, List.append_assoc] at happend
        exact .inr ⟨x, happend⟩
    · refine .inr ⟨close 46 (front.map (shown form)) ++ u, ?_⟩
      rw [tailText_of_ne_nil hroot, heq, List.map_append, List.map_cons, hl, close_append,
        close_cons, htext]
      have hne : trimEndDots (v ++ 46 :: close 46 (rest.map (shown form))) ≠ [] := htext ▸ hs
      have hcut := trimEndDots_append (a := close 46 (front.map (shown form)) ++ u ++ [46]) hne
      simpa using hcut

theorem isUnder_tailText_iff :
    isUnder (tailText form q.labels) (suffixText suffix) = true ↔
      (∃ count, EndsIn form q suffix count ∧ (count = 0 → q.labels = [])) ∨
        InsideLabel form q suffix := by
  by_cases hroot : q.labels = []
  · have hinside : ¬InsideLabel form q suffix := by
      rintro ⟨-, front, l, rest, u, v, heq, -⟩
      rw [hroot] at heq
      exact List.append_ne_nil_of_right_ne_nil front (List.cons_ne_nil l rest) heq.symm
    rw [isUnder_iff, hroot]
    constructor
    · rintro (heq | ⟨x, hx⟩)
      · exact .inl ⟨q.labels.length, endsIn_all (hroot ▸ heq), fun _ => rfl⟩
      · exact absurd hx.symm (List.append_ne_nil_of_right_ne_nil x (List.cons_ne_nil _ _))
    · rintro (⟨count, ⟨-, htext⟩, -⟩ | hin)
      · rw [hroot, List.drop_nil] at htext
        exact .inl htext
      · exact absurd hin hinside
  · by_cases hs : suffixText suffix = []
    · have hnot : ¬isUnder (tailText form q.labels) (suffixText suffix) = true := by
        rw [isUnder_iff, hs]
        rintro (heq | ⟨x, hx⟩)
        · exact tailText_ne_nil form hroot hq heq
        · have hlast := getLast?_trimEndDots (close 46 (q.labels.map (shown form)))
          rw [← tailText_of_ne_nil hroot, hx] at hlast
          exact hlast (List.getLast?_concat ..)
      refine ⟨fun h => absurd h hnot, ?_⟩
      rintro (⟨count, hends, hzero⟩ | ⟨hne, -⟩)
      · exact absurd (hzero ((endsIn_root_iff hq hends).mp hs)) hroot
      · exact absurd hs hne
    · rw [isUnder_of_labels_iff hq hroot hs]
      apply or_congr_left
      apply exists_congr
      intro count
      constructor
      · exact fun hends => ⟨hends, fun hzero => absurd ((endsIn_root_iff hq hends).mpr hzero) hs⟩
      · exact And.left

theorem count_le_of_length_le {s t : Text} {j k : Nat} (hs : EndsIn form q s j)
    (ht : EndsIn form q t k) (hle : (suffixText s).length ≤ (suffixText t).length) : j ≤ k := by
  by_contra hlt
  obtain ⟨hj, hs⟩ := hs
  obtain ⟨hk, ht⟩ := ht
  have hdrop : q.labels.drop (q.labels.length - j) =
      (q.labels.drop (q.labels.length - j)).take (j - k) ++
        q.labels.drop (q.labels.length - k) := by
    conv_lhs => rw [← List.take_append_drop (j - k) (q.labels.drop (q.labels.length - j))]
    rw [List.drop_drop]
    congr 2
    omega
  have hfront : (q.labels.drop (q.labels.length - j)).take (j - k) ≠ [] := by
    rw [Ne, ← List.length_eq_zero_iff, List.length_take, List.length_drop]
    omega
  have hne : ∀ l ∈ q.labels.drop (q.labels.length - k), l ≠ [] :=
    fun l hl => hq l (List.mem_of_mem_drop hl)
  by_cases hrest : q.labels.drop (q.labels.length - k) = []
  · rw [hrest] at ht
    rw [← ht, tailText_nil] at hle
    have hnil := List.length_eq_zero_iff.mp (Nat.le_zero.mp hle)
    have hzero := (endsIn_root_iff hq ⟨hj, hs⟩).mp hnil
    omega
  · rw [hdrop, tailText_append form _ hrest hne, ht] at hs
    obtain ⟨x, -, hx⟩ := Presentation.exists_front form hfront
      fun l hl => hq l (List.mem_of_mem_drop (List.mem_of_mem_take hl))
    rw [hx] at hs
    rw [← hs] at hle
    simp only [List.length_append, List.length_singleton] at hle
    omega

end

end Labels

instance suffixBefore_total : Std.Total suffixBefore where
  total a b := by
    rcases Nat.lt_trichotomy a.1.length b.1.length with hlt | heq | hgt
    · exact .inr (.inl hlt)
    · rcases List.le_total a.1 b.1 with hle | hle
      · exact .inl (.inr ⟨heq, hle⟩)
      · exact .inr (.inr ⟨heq.symm, hle⟩)
    · exact .inl (.inl hgt)

instance suffixBefore_trans : IsTrans (Text × String) suffixBefore where
  trans a b c := by
    rintro (hab | ⟨hab, hlab⟩) (hbc | ⟨hbc, hlbc⟩)
    · exact .inl (hbc.trans hab)
    · exact .inl (hbc ▸ hab)
    · exact .inl (hab ▸ hbc)
    · exact .inr ⟨hab.trans hbc, List.le_trans hlab hlbc⟩

/-- What `group_for` finds: a rule that the name's text meets, of the longest ones. -/
theorem routed_cases (rules : List SuffixRule) (name : Text) :
    (routed rules name = none ∧
      ∀ r ∈ rules, ¬isUnder (lower (trimEndDots name)) (suffixText r.suffix) = true) ∨
    ∃ r ∈ rules, routed rules name = some r.group ∧
      isUnder (lower (trimEndDots name)) (suffixText r.suffix) = true ∧
      ∀ r' ∈ rules, isUnder (lower (trimEndDots name)) (suffixText r'.suffix) = true →
        (suffixText r'.suffix).length ≤ (suffixText r.suffix).length := by
  unfold routed
  cases hfind : ((rules.map SuffixRule.entry).insertionSort suffixBefore).find?
      fun rule => isUnder (lower (trimEndDots name)) rule.1 with
  | none =>
    refine .inl ⟨rfl, fun r hr => ?_⟩
    refine List.find?_eq_none.mp hfind r.entry ?_
    rw [List.mem_insertionSort]
    exact List.mem_map_of_mem hr
  | some entry =>
    obtain ⟨hmem, hmeets, hfirst⟩ := least_of_find?_insertionSort hfind
    obtain ⟨r, hr, rfl⟩ := List.mem_map.mp hmem
    refine .inr ⟨r, hr, rfl, hmeets, fun r' hr' hmeets' => ?_⟩
    rcases hfirst r'.entry (List.mem_map_of_mem hr') hmeets' with hlt | ⟨heq, -⟩
    · exact hlt.le
    · exact heq.ge

theorem suffix_eq_of_isUnder {name s t : Text} (hs : isUnder name s = true)
    (ht : isUnder name t = true) (hlen : s.length = t.length) : s = t := by
  have hsuffix : ∀ {u : Text}, isUnder name u = true → u <:+ name := by
    intro u hu
    rcases isUnder_iff.mp hu with rfl | ⟨x, hx⟩
    · exact List.suffix_refl _
    · exact ⟨x ++ [46], by rw [hx, List.append_assoc]; rfl⟩
  exact (List.suffix_of_suffix_length_le (hsuffix hs) (hsuffix ht) hlen.le).eq_of_length hlen

theorem routed_perm {rules rules' : List SuffixRule} (hp : rules.Perm rules')
    (hd : (rules.map fun r => suffixText r.suffix).Nodup) (name : Text) :
    routed rules' name = routed rules name := by
  rcases routed_cases rules name with ⟨hnone, hall⟩ | ⟨r, hr, hsome, hmeets, hlongest⟩ <;>
    rcases routed_cases rules' name with ⟨hnone', hall'⟩ | ⟨r', hr', hsome', hmeets', hlongest'⟩
  · rw [hnone, hnone']
  · exact absurd hmeets' (hall r' (hp.mem_iff.mpr hr'))
  · exact absurd hmeets (hall' r (hp.mem_iff.mp hr))
  · have hlen := le_antisymm (hlongest' r (hp.mem_iff.mp hr) hmeets)
      (hlongest r' (hp.mem_iff.mpr hr') hmeets')
    have heq : r = r' := List.inj_on_of_nodup_map hd hr (hp.mem_iff.mpr hr')
      (suffix_eq_of_isUnder hmeets hmeets' hlen)
    rw [hsome, hsome', heq]

section Routing

variable (form : LabelForm)

/-- Longest label match: the group is that of a rule of the most labels among those that are
suffixes of the name, and there is none only if no rule is. -/
def Routes (rules : List SuffixRule) (q : Name) : Option String → Prop
  | none => ∀ r ∈ rules, ∀ count, ¬EndsIn form q r.suffix count
  | some group => ∃ r ∈ rules, r.group = group ∧ ∃ count, EndsIn form q r.suffix count ∧
      ∀ r' ∈ rules, ∀ count', EndsIn form q r'.suffix count' → count' ≤ count

/-- A suffix that stands inside a label is outdone by one that the labels end in. -/
def InsideOutdone (suffixes : List Text) (q : Name) : Prop :=
  ∀ s ∈ suffixes, InsideLabel form q s → ∃ t ∈ suffixes, ∃ count, 0 < count ∧
    EndsIn form q t count ∧ (suffixText s).length ≤ (suffixText t).length

/-- The root rule is outdone by another one, unless the name is the root. -/
def RootOutdone (suffixes : List Text) (q : Name) : Prop :=
  ∀ s ∈ suffixes, suffixText s = [] → q.labels ≠ [] →
    ∃ t ∈ suffixes, ∃ count, 0 < count ∧ EndsIn form q t count

variable {form} {q : Name} {suffixes : List Text} {rules : List SuffixRule}

theorem routes_of_outdone (hq : ∀ l ∈ q.labels, l ≠ [])
    (hrules : (rules.map SuffixRule.suffix).Perm suffixes) (hinside : InsideOutdone form suffixes q)
    (hroot : RootOutdone form suffixes q) :
    Routes form rules q (routed rules (Presentation.name form q)) := by
  have hmem : ∀ s, s ∈ suffixes ↔ ∃ r ∈ rules, r.suffix = s :=
    fun s => hrules.mem_iff.symm.trans List.mem_map
  -- A suffix of the name is met by text, or it is the root rule and another one is met.
  have hmet : ∀ r ∈ rules, ∀ count, EndsIn form q r.suffix count → ∃ r' ∈ rules, ∃ count',
      count ≤ count' ∧ EndsIn form q r'.suffix count' ∧ (count' = 0 → q.labels = []) := by
    intro r hr count hends
    by_cases hzero : count = 0 → q.labels = []
    · exact ⟨r, hr, count, le_rfl, hends, hzero⟩
    · rw [Classical.not_imp] at hzero
      obtain ⟨t, ht, count', hpos, hends'⟩ :=
        hroot r.suffix ((hmem _).mpr ⟨r, hr, rfl⟩) ((endsIn_root_iff hq hends).mpr hzero.1) hzero.2
      obtain ⟨r', hr', rfl⟩ := (hmem t).mp ht
      exact ⟨r', hr', count', by omega, hends', fun h => by omega⟩
  rcases routed_cases rules (Presentation.name form q) with
    ⟨hnone, hall⟩ | ⟨w, hw, hsome, hmeets, hlongest⟩
  · rw [hnone]
    intro r hr count hends
    obtain ⟨r', hr', count', -, hends', hzero⟩ := hmet r hr count hends
    exact hall r' hr' ((isUnder_tailText_iff hq).mpr (.inl ⟨count', hends', hzero⟩))
  · rw [hsome]
    have hends : ∃ count, EndsIn form q w.suffix count := by
      rcases (isUnder_tailText_iff hq).mp hmeets with ⟨count, hends, -⟩ | hin
      · exact ⟨count, hends⟩
      · obtain ⟨t, ht, count, hpos, hends, hlen⟩ := hinside w.suffix ((hmem _).mpr ⟨w, hw, rfl⟩) hin
        obtain ⟨r, hr, rfl⟩ := (hmem t).mp ht
        have hmeets' : isUnder (tailText form q.labels) (suffixText r.suffix) = true :=
          (isUnder_tailText_iff hq).mpr (.inl ⟨count, hends, fun h => by omega⟩)
        have heq := suffix_eq_of_isUnder hmeets hmeets'
          (le_antisymm hlen (hlongest r hr hmeets'))
        exact ⟨count, hends.1, hends.2.trans heq.symm⟩
    obtain ⟨count, hends⟩ := hends
    refine ⟨w, hw, rfl, count, hends, fun r hr j hj => ?_⟩
    obtain ⟨r', hr', j', hle, hends', hzero⟩ := hmet r hr j hj
    have hlen := hlongest r' hr' ((isUnder_tailText_iff hq).mpr (.inl ⟨j', hends', hzero⟩))
    exact hle.trans (count_le_of_length_le hq hends' hends hlen)

def ownGroups (suffixes : List Text) : List SuffixRule :=
  suffixes.map fun s => { suffix := s, group := String.ofList (s.map UInt8.toChar) }

theorem suffix_eq_of_group_eq {r r' : SuffixRule} (hr : r ∈ ownGroups suffixes)
    (hr' : r' ∈ ownGroups suffixes) (h : r.group = r'.group) : r.suffix = r'.suffix := by
  obtain ⟨s, -, rfl⟩ := List.mem_map.mp hr
  obtain ⟨s', -, rfl⟩ := List.mem_map.mp hr'
  refine List.map_injective_iff.mpr ?_ (String.ofList_injective h)
  intro b c hbc
  exact UInt8.toUInt32_inj.mp (Char.ext_iff.mp hbc)

theorem map_suffix_ownGroups (suffixes : List Text) :
    (ownGroups suffixes).map SuffixRule.suffix = suffixes := by
  unfold ownGroups
  rw [List.map_map]
  exact List.map_id suffixes

theorem outdone_of_routes (hq : ∀ l ∈ q.labels, l ≠ [])
    (h : Routes form (ownGroups suffixes) q
      (routed (ownGroups suffixes) (Presentation.name form q))) :
    InsideOutdone form suffixes q ∧ RootOutdone form suffixes q := by
  have hmem : ∀ s, s ∈ suffixes ↔ ∃ r ∈ ownGroups suffixes, r.suffix = s := by
    intro s
    rw [← List.mem_map, map_suffix_ownGroups]
  rcases routed_cases (ownGroups suffixes) (Presentation.name form q) with
    ⟨hnone, hall⟩ | ⟨w, hw, hsome, hmeets, hlongest⟩
  · rw [hnone] at h
    constructor
    · intro s hs hin
      obtain ⟨r, hr, rfl⟩ := (hmem s).mp hs
      exact absurd ((isUnder_tailText_iff hq).mpr (.inr hin)) (hall r hr)
    · intro s hs hnil hne
      obtain ⟨r, hr, rfl⟩ := (hmem s).mp hs
      refine absurd ⟨Nat.zero_le _, ?_⟩ (h r hr 0)
      rw [Nat.sub_zero, List.drop_length, hnil]
      rfl
  · rw [hsome] at h
    obtain ⟨r, hr, hgroup, count, hends, -⟩ := h
    rw [suffix_eq_of_group_eq hr hw hgroup] at hends
    constructor
    · intro s hs hin
      obtain ⟨r', hr', rfl⟩ := (hmem s).mp hs
      have hlen := hlongest r' hr' ((isUnder_tailText_iff hq).mpr (.inr hin))
      refine ⟨w.suffix, (hmem _).mpr ⟨w, hw, rfl⟩, count, Nat.pos_of_ne_zero ?_, hends, hlen⟩
      intro hzero
      rw [(endsIn_root_iff hq hends).mpr hzero] at hlen
      exact hin.1 (List.length_eq_zero_iff.mp (Nat.le_zero.mp hlen))
    · intro s hs hnil hne
      refine ⟨w.suffix, (hmem _).mpr ⟨w, hw, rfl⟩, count, Nat.pos_of_ne_zero ?_, hends⟩
      intro hzero
      have hroot := (endsIn_root_iff hq hends).mpr hzero
      rcases (isUnder_tailText_iff hq).mp hmeets with ⟨j, hj, hjzero⟩ | hin
      · exact hne (hjzero ((endsIn_root_iff hq hj).mp hroot))
      · exact hin.1 hroot

def LocalConfig.ofRules (rules : List SuffixRule) : LocalConfig where
  hosts := []
  zones := []
  suffixRules := rules
  localTtl := 0

theorem build_ofRules (lib : TextLib) (datasets : DatasetsConfig) (disk : Disk) (now : Nat)
    (rules : List SuffixRule) : ∃ snapshot,
      DatasetSnapshot.build lib datasets (.ofRules rules) disk now = .ok snapshot :=
  ⟨_, rfl⟩

/-- Routing goes by the longest label match, whatever the groups and the order of the rules, just
when no rule meets the name inside a label and no root rule stands alone, unless another rule
outdoes it. -/
theorem suffix_routing_iff {lib : TextLib} {datasets : DatasetsConfig} {disk : Disk} {now : Nat}
    (hq : ∀ l ∈ q.labels, l ≠ []) (hd : (suffixes.map suffixText).Nodup) :
    (∀ localCfg snapshot, DatasetSnapshot.build lib datasets localCfg disk now = .ok snapshot →
      (localCfg.suffixRules.map SuffixRule.suffix).Perm suffixes →
        Routes form localCfg.suffixRules q (snapshot.groupFor (Presentation.name form q)) ∧
        ∀ localCfg' snapshot',
          DatasetSnapshot.build lib datasets localCfg' disk now = .ok snapshot' →
          localCfg.suffixRules.Perm localCfg'.suffixRules →
            snapshot'.groupFor (Presentation.name form q) =
              snapshot.groupFor (Presentation.name form q)) ↔
    InsideOutdone form suffixes q ∧ RootOutdone form suffixes q := by
  constructor
  · intro h
    obtain ⟨snapshot, hbuild⟩ := build_ofRules lib datasets disk now (ownGroups suffixes)
    have hroutes := (h _ snapshot hbuild (by rw [LocalConfig.ofRules, map_suffix_ownGroups])).1
    rw [groupFor_build hbuild] at hroutes
    exact outdone_of_routes hq hroutes
  · rintro ⟨hinside, hroot⟩ localCfg snapshot hbuild hrules
    rw [groupFor_build hbuild]
    refine ⟨routes_of_outdone hq hrules hinside hroot, fun localCfg' snapshot' hbuild' hperm => ?_⟩
    rw [groupFor_build hbuild']
    apply routed_perm hperm
    have hmap := hrules.map suffixText
    rw [List.map_map] at hmap
    exact hmap.nodup_iff.mpr hd

def Disk.blank : Disk where
  text _ := none
  opens _ := false

/-- The two rules of the repository's test. -/
theorem suffix_routing_labels :
    ∃ snapshot, DatasetSnapshot.build TextLib.dotted .fileless
        (.ofRules [⟨ascii "test", "fallback"⟩, ⟨ascii "corp.test", "corp"⟩]) .blank 0 =
          .ok snapshot ∧
      Routes asciiOnly [⟨ascii "test", "fallback"⟩, ⟨ascii "corp.test", "corp"⟩]
        (hostName ["host", "corp", "test"])
        (snapshot.groupFor
          (Presentation.name asciiOnly (hostName ["host", "corp", "test"]))) := by
  have hdots : ∀ l ∈ (hostName ["host", "corp", "test"]).labels,
      46 ∉ shown asciiOnly l := by
    decide
  have hd : (([ascii "test", ascii "corp.test"] : List Text).map suffixText).Nodup := by decide
  obtain ⟨snapshot, hbuild⟩ := build_ofRules TextLib.dotted .fileless .blank 0
    [⟨ascii "test", "fallback"⟩, ⟨ascii "corp.test", "corp"⟩]
  refine ⟨snapshot, hbuild, ((suffix_routing_iff (q := hostName ["host", "corp", "test"])
    (by decide) hd).mpr ⟨?_, ?_⟩ _ snapshot hbuild (List.Perm.refl _)).1⟩
  · rintro s - ⟨-, front, l, rest, u, v, heq, hl, -⟩
    refine absurd ?_ (hdots l (heq ▸ List.mem_append_right _ List.mem_cons_self))
    rw [hl]
    exact List.mem_append_right _ List.mem_cons_self
  · intro s hs hnil
    rcases List.mem_pair.mp hs with rfl | rfl
    · exact absurd hnil (by decide)
    · exact absurd hnil (by decide)

/-- A root rule does not apply to `www.test`; and the first label of `a\.corp.test` makes it meet a
rule for `corp.test`. -/
theorem suffix_routing_misses :
    (∃ snapshot, DatasetSnapshot.build TextLib.dotted .fileless (.ofRules [⟨ascii ".", "all"⟩])
        .blank 0 = .ok snapshot ∧
      snapshot.groupFor (Presentation.name asciiOnly (hostName ["www", "test"])) =
        none ∧
      EndsIn asciiOnly (hostName ["www", "test"]) (ascii ".") 0) ∧
    ∃ snapshot, DatasetSnapshot.build TextLib.dotted .fileless
        (.ofRules [⟨ascii "corp.test", "corp"⟩]) .blank 0 = .ok snapshot ∧
      snapshot.groupFor (Presentation.name asciiOnly (hostName ["a.corp", "test"])) =
        some "corp" ∧
      ∀ count, ¬EndsIn asciiOnly (hostName ["a.corp", "test"]) (ascii "corp.test")
        count := by
  refine ⟨⟨_, rfl, by decide, by decide, by decide⟩, _, rfl, by decide, ?_⟩
  rintro count ⟨hcount, htext⟩
  have hcases : count = 0 ∨ count = 1 ∨ count = 2 := by
    have hlen : (hostName ["a.corp", "test"]).labels.length = 2 := rfl
    omega
  rcases hcases with rfl | rfl | rfl
  · exact absurd htext (by decide)
  · exact absurd htext (by decide)
  · exact absurd htext (by decide)

end Routing

end EgressDns
