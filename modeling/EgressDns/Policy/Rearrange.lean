import EgressDns.Dns.Hickory
import EgressDns.Policy.AnswerLaws

/-!
# What the answer policy leaves where it is

An RRset of the answer section is all records of one type under one owner name. The groups of
`rrset_groups` are exactly the RRsets of the queried type, so an answer to which nothing is added
differs from the upstream's by a rearrangement inside each of them and by lower TTLs.
-/

namespace EgressDns

open Lib

section Rrsets

variable (answers : List Record) (rtype : RecordType)

def rrsetPositions (owner : Name) : List Nat :=
  (answers.zipIdx.filter fun p => p.1.recordType = rtype ∧ owner.same p.1.name = true).map Prod.snd

variable {answers rtype}

theorem mem_rrsetPositions {owner : Name} {i : Nat} :
    i ∈ rrsetPositions answers rtype owner ↔
      ∃ r, answers[i]? = some r ∧ r.recordType = rtype ∧ owner.same r.name = true := by
  constructor
  · intro h
    obtain ⟨⟨r, j⟩, hp, rfl⟩ := List.mem_map.mp h
    obtain ⟨hz, ht⟩ := List.mem_filter.mp hp
    exact ⟨r, List.mem_zipIdx_iff_getElem?.mp hz, of_decide_eq_true ht⟩
  · rintro ⟨r, hr, ht⟩
    refine List.mem_map.mpr ⟨(r, i), List.mem_filter.mpr ⟨?_, decide_eq_true ht⟩, rfl⟩
    exact List.mem_zipIdx_iff_getElem?.mpr hr

theorem rrsetPositions_nodup (owner : Name) : (rrsetPositions answers rtype owner).Nodup := by
  have hs := (List.filter_sublist (l := answers.zipIdx)
    (p := fun p => p.1.recordType = rtype ∧ owner.same p.1.name = true)).map Prod.snd
  apply hs.nodup
  rw [List.zipIdx_map_snd]
  exact List.nodup_range'

theorem Name.same_iff {a b : Name} :
    a.same b = true ↔ a.labels.map lower = b.labels.map lower := by
  simp [Name.same]

theorem Name.same_symm {a b : Name} (h : a.same b = true) : b.same a = true :=
  Name.same_iff.mpr (Name.same_iff.mp h).symm

theorem Name.same_trans {a b c : Name} (h : a.same b = true) (h' : b.same c = true) :
    a.same c = true :=
  Name.same_iff.mpr ((Name.same_iff.mp h).trans (Name.same_iff.mp h'))

end Rrsets

section Grouped

variable {rtype : RecordType}

def Apart (g h : RrsetGroup) : Prop := g.owner.same h.owner = false

instance : Std.Symm Apart where
  symm g h hgh := by
    cases hs : h.owner.same g.owner with
    | false => exact hs
    | true => exact absurd (Name.same_symm hs) (by rw [hgh]; decide)

/-- Groups of entries read so far: each holds positions of one owner, no two have the same. -/
structure Grouped (rtype : RecordType) (entries : List (Record × Nat))
    (groups : List RrsetGroup) : Prop where
  owned : ∀ g ∈ groups, ∀ i ∈ g.indices,
    ∃ r, (r, i) ∈ entries ∧ r.recordType = rtype ∧ g.owner.same r.name = true
  apart : groups.Pairwise Apart

variable {groups : List RrsetGroup} {i : Nat} {g : RrsetGroup} {owner : Name}
  {entries : List (Record × Nat)} {r : Record}

theorem mem_addToGroups (h : g ∈ addToGroups owner i groups) :
    (∃ g₀ ∈ groups, g.owner = g₀.owner ∧
      (g.indices = g₀.indices ∨ g.indices = g₀.indices ++ [i] ∧ g₀.owner.same owner = true)) ∨
    (g = { owner, indices := [i] } ∧ ∀ g₀ ∈ groups, g₀.owner.same owner = false) := by
  induction groups with
  | nil => exact .inr ⟨List.mem_singleton.mp h, List.forall_mem_nil _⟩
  | cons head groups ih =>
    unfold addToGroups at h
    split at h
    · rename_i hsame
      rcases List.mem_cons.mp h with rfl | hm
      · exact .inl ⟨head, List.mem_cons_self, rfl, .inr ⟨rfl, hsame⟩⟩
      · exact .inl ⟨g, List.mem_cons_of_mem head hm, rfl, .inl rfl⟩
    · rename_i hother
      rcases List.mem_cons.mp h with rfl | hm
      · exact .inl ⟨g, List.mem_cons_self, rfl, .inl rfl⟩
      · rcases ih hm with ⟨g₀, hg₀, hrest⟩ | ⟨rfl, hall⟩
        · exact .inl ⟨g₀, List.mem_cons_of_mem head hg₀, hrest⟩
        · refine .inr ⟨rfl, List.forall_mem_cons.mpr ⟨?_, hall⟩⟩
          exact Bool.eq_false_iff.mpr hother

theorem addToGroups_apart (owner : Name) (i : Nat) (h : groups.Pairwise Apart) :
    (addToGroups owner i groups).Pairwise Apart := by
  induction groups with
  | nil => exact List.pairwise_singleton _ _
  | cons head groups ih =>
    obtain ⟨hhead, htail⟩ := List.pairwise_cons.mp h
    unfold addToGroups
    split
    · exact List.pairwise_cons.mpr ⟨hhead, htail⟩
    · rename_i hother
      refine List.pairwise_cons.mpr ⟨?_, ih htail⟩
      intro g hg
      rcases mem_addToGroups hg with ⟨g₀, hg₀, howner, _⟩ | ⟨rfl, _⟩
      · unfold Apart
        rw [howner]
        exact hhead g₀ hg₀
      · exact Bool.eq_false_iff.mpr hother

theorem Grouped.add (h : Grouped rtype entries groups) (ht : r.recordType = rtype) :
    Grouped rtype (entries ++ [(r, i)]) (addToGroups r.name i groups) where
  owned g hg j hj := by
    have hold (g₀ : RrsetGroup) (hg₀ : g₀ ∈ groups) (howner : g.owner = g₀.owner)
        (hmem : j ∈ g₀.indices) : ∃ r', (r', j) ∈ entries ++ [(r, i)] ∧ r'.recordType = rtype ∧
          g.owner.same r'.name = true := by
      obtain ⟨r', hr', hrest⟩ := h.owned g₀ hg₀ j hmem
      exact ⟨r', List.mem_append_left _ hr', howner ▸ hrest⟩
    have hnew : (r, i) ∈ entries ++ [(r, i)] :=
      List.mem_append_right _ (List.mem_singleton_self _)
    rcases mem_addToGroups hg with ⟨g₀, hg₀, howner, hkeep | ⟨hadd, hsame⟩⟩ | ⟨rfl, _⟩
    · exact hold g₀ hg₀ howner (hkeep ▸ hj)
    · rcases List.mem_append.mp (hadd ▸ hj) with hj | hj
      · exact hold g₀ hg₀ howner hj
      · rw [List.mem_singleton.mp hj]
        exact ⟨r, hnew, ht, howner ▸ hsame⟩
    · rw [List.mem_singleton.mp hj]
      exact ⟨r, hnew, ht, Name.same_iff.mpr rfl⟩
  apart := addToGroups_apart r.name i h.apart

theorem Grouped.skip {entry : Record × Nat} (h : Grouped rtype entries groups) :
    Grouped rtype (entries ++ [entry]) groups where
  owned g hg i hi := by
    obtain ⟨r, hr, hrest⟩ := h.owned g hg i hi
    exact ⟨r, List.mem_append_left _ hr, hrest⟩
  apart := h.apart

theorem foldl_grouped {seen : List (Record × Nat)} (h : Grouped rtype seen groups) :
    Grouped rtype (seen ++ entries) (entries.foldl (fun groups p =>
      if p.1.recordType = rtype then addToGroups p.1.name p.2 groups else groups) groups) := by
  induction entries generalizing seen groups with
  | nil => rwa [List.append_nil]
  | cons p entries ih =>
    rw [List.foldl_cons, List.append_cons]
    apply ih
    split
    · rename_i ht
      exact h.add ht
    · exact h.skip

variable {answers : List Record}

theorem Grouped.nil : Grouped rtype [] [] where
  owned := List.forall_mem_nil _
  apart := List.Pairwise.nil

theorem rrsetGroups_grouped : Grouped rtype answers.zipIdx (rrsetGroups answers rtype) :=
  foldl_grouped .nil

theorem mem_indices_iff (hg : g ∈ rrsetGroups answers rtype) (hs : g.owner.same owner = true) :
    i ∈ g.indices ↔ i ∈ rrsetPositions answers rtype owner := by
  rw [mem_rrsetPositions]
  have hgrouped : Grouped rtype answers.zipIdx (rrsetGroups answers rtype) := rrsetGroups_grouped
  constructor
  · intro hi
    obtain ⟨r, hr, ht, hname⟩ := hgrouped.owned g hg i hi
    exact ⟨r, List.mem_zipIdx_iff_getElem?.mp hr, ht, Name.same_trans (Name.same_symm hs) hname⟩
  · rintro ⟨r, hr, ht, hname⟩
    -- The position is in some group, whose owner is the same: no two groups share one.
    have hpos := (groupPositions_rrsetGroups_perm answers rtype).mem_iff.mpr
      (mem_positionsOf.mpr ⟨r, hr, ht⟩)
    obtain ⟨h, hh, hi⟩ := List.mem_flatMap.mp hpos
    obtain ⟨r', hr', _, hname'⟩ := hgrouped.owned h hh i hi
    have hrr : r = r' := Option.some.inj (hr.symm.trans (List.mem_zipIdx_iff_getElem?.mp hr'))
    subst hrr
    have hsame : g.owner.same h.owner = true :=
      Name.same_trans hs (Name.same_trans hname (Name.same_symm hname'))
    by_cases hgh : g = h
    · exact hgh ▸ hi
    · have hapart : g.owner.same h.owner = false := hgrouped.apart.forall hg hh hgh
      rw [hsame] at hapart
      cases hapart

theorem rrsetPositions_cases (answers : List Record) (rtype : RecordType) (owner : Name) :
    rrsetPositions answers rtype owner = [] ∨
      ∃ g ∈ rrsetGroups answers rtype, g.indices.Perm (rrsetPositions answers rtype owner) := by
  cases hpos : rrsetPositions answers rtype owner with
  | nil => exact .inl rfl
  | cons i rest =>
    right
    obtain ⟨r, hr, ht, hname⟩ := mem_rrsetPositions.mp (hpos ▸ List.mem_cons_self)
    have hmem := (groupPositions_rrsetGroups_perm answers rtype).mem_iff.mpr
      (mem_positionsOf.mpr ⟨r, hr, ht⟩)
    obtain ⟨g, hg, hi⟩ := List.mem_flatMap.mp hmem
    obtain ⟨r', hr', _, hname'⟩ := rrsetGroups_grouped.owned g hg i hi
    have hrr : r = r' := Option.some.inj (hr.symm.trans (List.mem_zipIdx_iff_getElem?.mp hr'))
    subst hrr
    refine ⟨g, hg, hpos ▸ ?_⟩
    have hnodup := (goodIndices_of_mem hg).1
    refine (List.perm_ext_iff_of_nodup hnodup (rrsetPositions_nodup owner)).mpr ?_
    intro j
    exact mem_indices_iff hg (Name.same_trans hname' (Name.same_symm hname))

def rrsetBlocks (answers : List Record) (rtype : RecordType) : List (List Nat) :=
  (rrsetGroups answers rtype).map RrsetGroup.indices

theorem rrsetBlocks_disjoint : (rrsetBlocks answers rtype).Pairwise List.Disjoint := by
  have hperm := groupPositions_rrsetGroups_perm answers rtype
  have hnodup := hperm.nodup_iff.mpr (positionsOf_nodup answers rtype)
  exact List.pairwise_map.mpr (List.nodup_flatMap.mp hnodup).2

theorem notMem_rrsetBlocks (hr : answers[i]? = some r) (ht : r.recordType ≠ rtype) :
    ∀ is ∈ rrsetBlocks answers rtype, i ∉ is := by
  intro is hm hi
  obtain ⟨g, hg, rfl⟩ := List.mem_map.mp hm
  obtain ⟨r', hr', ht', _⟩ := rrsetGroups_grouped.owned g hg i hi
  have hrr : r = r' := Option.some.inj (hr.symm.trans (List.mem_zipIdx_iff_getElem?.mp hr'))
  exact ht (hrr ▸ ht')

end Grouped

section Moved

variable {ctx : AnswerContext}

def movedAnswers (ctx : AnswerContext) (msg : Message) : List Record :=
  ((rrsetGroups msg.answers ctx.qtype).foldl (reorderGroup ctx)
    (msg.answers, false, .disabled)).1

variable {blocks : List (List Nat)}

theorem reorderGroup_rearranged {state : List Record × Bool × OrderDecision} {g : RrsetGroup}
    (hd : blocks.Pairwise List.Disjoint) (hm : g.indices ∈ blocks)
    (hgood : GoodIndices state.1 g.indices) :
    RearrangedWithin blocks state.1 (reorderGroup ctx state g).1 := by
  rcases reorderGroup_cases state g with he | ⟨desired, he⟩
  · rw [he]
    exact .refl blocks state.1
  · rw [he]
    exact .scatter hd hm hgood.1 hgood.2 (placeAddresses_perm desired _)

theorem foldl_reorderGroup_rearranged {groups : List RrsetGroup}
    (state : List Record × Bool × OrderDecision) (hd : blocks.Pairwise List.Disjoint)
    (hm : ∀ g ∈ groups, g.indices ∈ blocks) (hgood : ∀ g ∈ groups, GoodIndices state.1 g.indices) :
    RearrangedWithin blocks state.1 (groups.foldl (reorderGroup ctx) state).1 := by
  induction groups generalizing state with
  | nil => exact .refl blocks state.1
  | cons g groups ih =>
    have hstep : RearrangedWithin blocks state.1 (reorderGroup ctx state g).1 :=
      reorderGroup_rearranged hd (hm g List.mem_cons_self) (hgood g List.mem_cons_self)
    rw [List.foldl_cons]
    refine hstep.trans (ih _ (fun g' hg' => hm g' (List.mem_cons_of_mem g hg')) ?_)
    intro g' hg'
    have hold := hgood g' (List.mem_cons_of_mem g hg')
    exact ⟨hold.1, fun i hi => hstep.length ▸ hold.2 i hi⟩

theorem movedAnswers_perm (ctx : AnswerContext) (msg : Message) :
    (movedAnswers ctx msg).Perm msg.answers := by
  exact foldl_reorderGroup_perm fun g hg => goodIndices_of_mem hg

theorem movedAnswers_rearranged (ctx : AnswerContext) (msg : Message) :
    RearrangedWithin (rrsetBlocks msg.answers ctx.qtype) msg.answers
      (movedAnswers ctx msg) := by
  exact foldl_reorderGroup_rearranged (msg.answers, false, .disabled)
    rrsetBlocks_disjoint (fun _ hg => List.mem_map_of_mem hg) (fun _ hg => goodIndices_of_mem hg)

/-- Records moved inside the RRsets of the type, nothing else moved, every TTL capped. -/
structure KeptInPlace (rtype : RecordType) (cap : Nat) (before after : List Record) : Prop where
  length : after.length = before.length
  rrset : ∀ owner,
    (gather after (rrsetPositions before rtype owner)).Perm
      ((gather before (rrsetPositions before rtype owner)).map (Record.mapTtl (min · cap)))
  other : ∀ (i : Nat) (r : Record), before[i]? = some r →
    ¬(r.recordType = rtype ∧ (rtype = .a ∨ rtype = .aaaa)) →
    after[i]? = some (r.mapTtl (min · cap))

theorem keptInPlace_of_rearranged {rtype : RecordType} {before moved : List Record} (cap : Nat)
    (h : RearrangedWithin (rrsetBlocks before rtype) before moved)
    (haddr : rtype = .a ∨ rtype = .aaaa) :
    KeptInPlace rtype cap before (moved.map (Record.mapTtl (min · cap))) where
  length := by rw [List.length_map, h.length]
  rrset owner := by
    rw [gather_map]
    apply List.Perm.map _
    rcases rrsetPositions_cases before rtype owner with hnil | ⟨g, hg, hperm⟩
    · rw [hnil]
      exact List.Perm.refl _
    · have hmoved : (gather moved (rrsetPositions before rtype owner)).Perm
          (gather moved g.indices) := (hperm.filterMap _).symm
      have hbefore : (gather before g.indices).Perm
          (gather before (rrsetPositions before rtype owner)) := hperm.filterMap _
      exact hmoved.trans ((h.inside g.indices (List.mem_map_of_mem hg)).trans hbefore)
  other i r hr hne := by
    have ht : r.recordType ≠ rtype := fun he => hne ⟨he, haddr⟩
    rw [List.getElem?_map, h.outside i (notMem_rrsetBlocks hr ht), hr]
    rfl

theorem keptInPlace_capped (rtype : RecordType) (cap : Nat) (before : List Record) :
    KeptInPlace rtype cap before (before.map (Record.mapTtl (min · cap))) where
  length := List.length_map _
  rrset owner := by rw [gather_map]
  other i r hr _ := by
    rw [List.getElem?_map, hr]
    rfl

def addedAddrs (ctx : AnswerContext) (msg : Message) (final : RrsetGroup) : List IpAddr :=
  toAdd ctx (evaluate (eligibilityInputs ctx msg (rrsetGroups msg.answers ctx.qtype) final)).1
    (movedAnswers ctx msg) ctx.qtype final

theorem applyToRrsets_added (msg : Message) (final : RrsetGroup) :
    (applyToRrsets ctx msg ctx.qtype (rrsetGroups msg.answers ctx.qtype) final).2.added =
      (addedAddrs ctx msg final).length := rfl

theorem applyToRrsets_message (msg : Message) (final : RrsetGroup) :
    let result := applyToRrsets ctx msg ctx.qtype (rrsetGroups msg.answers ctx.qtype) final
    result.1 = capTtls result.2.clientTtl
      { msg with
        answers := augmentAnswers (movedAnswers ctx msg) ctx.qtype final
          (addedAddrs ctx msg final) } := rfl

theorem applyToRrsets_unaugmented {msg : Message} {final : RrsetGroup}
    (h : (applyToRrsets ctx msg ctx.qtype (rrsetGroups msg.answers ctx.qtype) final).2.added = 0) :
    let result := applyToRrsets ctx msg ctx.qtype (rrsetGroups msg.answers ctx.qtype) final
    result.1 = capTtls result.2.clientTtl { msg with answers := movedAnswers ctx msg } := by
  have hnil : addedAddrs ctx msg final = [] := List.eq_nil_of_length_eq_zero h
  intro result
  rw [show result.1 = _ from applyToRrsets_message msg final, augmentAnswers, if_pos hnil]

/-- Nothing is synthesised when nothing is added: the answer section keeps its length, records
move only inside the RRsets of the queried address type, and beyond that TTLs go down. -/
theorem unaugmented_answer_kept (ctx : AnswerContext) (msg : Message)
    (h : (applyAnswerPolicy ctx msg).2.added = 0) :
    let result := applyAnswerPolicy ctx msg
    let cap := result.2.clientTtl
    KeptInPlace ctx.qtype cap msg.answers result.1.answers ∧
      result.1.authorities = msg.authorities.map (Record.mapTtl (min · cap)) ∧
      result.1.additionals = msg.additionals.map (Record.mapTtl (min · cap)) ∧
      result.1.metadata = msg.metadata ∧ result.1.queries = msg.queries ∧
      result.1.edns = msg.edns := by
  intro result cap
  have hkept (outcome : AnswerOutcome) (hr : result = finishTtl ctx msg outcome false false false) :
      KeptInPlace ctx.qtype cap msg.answers result.1.answers ∧
        result.1.authorities = msg.authorities.map (Record.mapTtl (min · cap)) ∧
        result.1.additionals = msg.additionals.map (Record.mapTtl (min · cap)) ∧
        result.1.metadata = msg.metadata ∧ result.1.queries = msg.queries ∧
        result.1.edns = msg.edns := by
    simp only [cap, hr]
    exact ⟨keptInPlace_capped _ _ _, rfl, rfl, rfl, rfl, rfl⟩
  by_cases haddr : ctx.qtype = .a ∨ ctx.qtype = .aaaa
  · cases hlast : (rrsetGroups msg.answers ctx.qtype).getLast? with
    | none =>
      apply hkept untouchedOutcome
      simp only [result, applyAnswerPolicy, if_pos haddr, hlast]
    | some final =>
      have hr : result = applyToRrsets ctx msg ctx.qtype (rrsetGroups msg.answers ctx.qtype)
          final := by
        simp only [result, applyAnswerPolicy, if_pos haddr, hlast]
      have hmsg := applyToRrsets_unaugmented (hr ▸ h : (applyToRrsets ctx msg ctx.qtype
        (rrsetGroups msg.answers ctx.qtype) final).2.added = 0)
      rw [← hr] at hmsg
      rw [hmsg]
      exact ⟨keptInPlace_of_rearranged cap (movedAnswers_rearranged ctx msg) haddr,
        rfl, rfl, rfl, rfl, rfl⟩
  · apply hkept untouchedOutcome
    simp only [result, applyAnswerPolicy, if_neg haddr]

def measuredContext : AnswerContext where
  qtype := .a
  dnssec := .insecure
  cloudflareEnabled := true
  cloudflareMode := .verifiedAugment
  snapshot := some { v4Masks := [(0x68100000, 0xfff80000)], v6Masks := [] }
  domainExcluded := false
  baselineValidated := true
  verified :=
    [{ addr := .v4 0x68100003, successes := 5, costMs := 10, samples := 20, fresh := true }]
  canValidateEch := false
  quality addr :=
    if addr = .v4 0x68100002 then
      some { applicable := true, expectedCost := 40, successes := 5 }
    else none
  ranking := { enabled := true, neutralCostMs := 120, hysteresis := 12 / 100
               minSuccessesToLead := 3, explorationRate := 0 }
  augment := { maxAdded := 2, minValidations := 3, minAdvantage := 12 / 100, minSamples := 8 }
  ttl := .shipped
  remainingAuthoritative := 300
  remainingSignature := none
  isStale := false
  recentNetworkChange := false
  exploreSeed := 0

def hostRecord (label : UInt8) (addr : BitVec 32) : Record :=
  .fromRdata ⟨[[label]]⟩ 300 (.a addr)

def interleavedAnswer : Message :=
  { addressQuery with
    answers := [hostRecord 97 0x68100001, hostRecord 98 0x68100004, hostRecord 97 0x68100002,
      hostRecord 97 0x68100001] }

theorem unaugmented_answer_kept_interleaved :
    (applyAnswerPolicy measuredContext interleavedAnswer).2.added = 0 ∧
    (applyAnswerPolicy measuredContext interleavedAnswer).1.answers.map recordAddress =
      [some (.v4 0x68100002), some (.v4 0x68100004), some (.v4 0x68100001),
        some (.v4 0x68100001)] ∧
    KeptInPlace .a (applyAnswerPolicy measuredContext interleavedAnswer).2.clientTtl
      interleavedAnswer.answers
      (applyAnswerPolicy measuredContext interleavedAnswer).1.answers := by
  have hadded : (applyAnswerPolicy measuredContext interleavedAnswer).2.added = 0 := by
    decide
  refine ⟨hadded, by decide +kernel, ?_⟩
  exact (unaugmented_answer_kept measuredContext interleavedAnswer hadded).1

end Moved

end EgressDns
