import EgressDns.Policy.Rearrange

/-!
# What verified augmentation may add

Who may be added to an answer, how many, and where: the records of the answer stay as
`KeptInPlace` leaves them, with the added ones in one run in front of their RRset.
-/

namespace EgressDns

def IpAddr.rtype : IpAddr → RecordType
  | .v4 _ => .a
  | .v6 _ => .aaaa

theorem rtype_of_recordAddress {r : Record} {addr : IpAddr} (h : recordAddress r = some addr) :
    r.recordType = addr.rtype := by
  unfold recordAddress at h
  unfold Record.recordType
  split at h
  · rename_i bits hd
    cases h
    rw [hd]
    rfl
  · rename_i bits hd
    cases h
    rw [hd]
    rfl
  · cases h

section Candidates

variable (ctx : AnswerContext)

structure Admitted (rtype : RecordType) (existing : List IpAddr) (v : VerifiedCandidate) :
    Prop where
  fresh : v.fresh = true
  validated : ctx.augment.minValidations ≤ v.successes
  measured : ctx.augment.minSamples ≤ v.samples
  family : v.addr.rtype = rtype
  owned : ∃ snapshot, ctx.snapshot = some snapshot ∧ snapshot.contains v.addr = true
  ordinary : classifyAddr v.addr = none
  absent : v.addr ∉ existing

variable {ctx} {rtype : RecordType} {existing added : List IpAddr} {v : VerifiedCandidate}

theorem admitted_of_admits (haddr : rtype = .a ∨ rtype = .aaaa)
    (h : admits ctx rtype existing added v = true) :
    Admitted ctx rtype existing v ∧ v.addr ∉ added := by
  unfold admits at h
  simp only [Bool.and_eq_true, decide_eq_true_eq] at h
  obtain ⟨⟨⟨⟨⟨⟨⟨⟨hfresh, hvalid⟩, hsamples⟩, hfamily⟩, howned⟩, hclass⟩, habsent⟩, hnew⟩, _⟩ := h
  have hrtype : v.addr.rtype = rtype := by
    cases hv : v.addr with
    | v4 bits =>
      rw [hv] at hfamily
      exact (of_decide_eq_true hfamily).symm
    | v6 bits =>
      rw [hv] at hfamily
      exact (haddr.resolve_left (of_decide_eq_true hfamily)).symm
  have hsnapshot : ∃ snapshot, ctx.snapshot = some snapshot ∧
      snapshot.contains v.addr = true := by
    cases hs : ctx.snapshot with
    | none => simp [hs] at howned
    | some snapshot => exact ⟨snapshot, rfl, by simpa [hs] using howned⟩
  exact ⟨⟨hfresh, hvalid, hsamples, hrtype, hsnapshot, by simpa using hclass, habsent⟩, hnew⟩

/-- The candidates that are chosen, in the order they are listed, after those already `added`. -/
structure Chosen (ctx : AnswerContext) (rtype : RecordType) (existing added : List IpAddr)
    (listed chosen : List VerifiedCandidate) : Prop where
  listed : chosen.Sublist listed
  each : ∀ v ∈ chosen, Admitted ctx rtype existing v
  distinct : added.Nodup → (added ++ chosen.map VerifiedCandidate.addr).Nodup
  bound : added.length ≤ ctx.augment.maxAdded →
    (added ++ chosen.map VerifiedCandidate.addr).length ≤ ctx.augment.maxAdded

theorem Chosen.none (ctx : AnswerContext) (rtype : RecordType) (existing added : List IpAddr)
    (listed : List VerifiedCandidate) : Chosen ctx rtype existing added listed [] where
  listed := List.nil_sublist _
  each := List.forall_mem_nil _
  distinct h := by rwa [List.map_nil, List.append_nil]
  bound h := by rwa [List.map_nil, List.append_nil]

theorem chooseAdded_eq (ctx : AnswerContext) (existing : List IpAddr)
    (haddr : rtype = .a ∨ rtype = .aaaa) (listed : List VerifiedCandidate) (added : List IpAddr) :
    ∃ chosen, chooseAdded ctx rtype existing listed added =
        added ++ chosen.map VerifiedCandidate.addr ∧
      Chosen ctx rtype existing added listed chosen := by
  induction listed generalizing added with
  | nil => exact ⟨[], (List.append_nil _).symm, .none ..⟩
  | cons v listed ih =>
    unfold chooseAdded
    split
    · exact ⟨[], (List.append_nil _).symm, .none ..⟩
    · rename_i hroom
      split
      · rename_i hadmits
        obtain ⟨hv, hnew⟩ := admitted_of_admits haddr hadmits
        obtain ⟨chosen, he, hc⟩ := ih (added ++ [v.addr])
        refine ⟨v :: chosen, ?_, ?_⟩
        · rw [he, List.map_cons, List.append_assoc, List.singleton_append]
        · refine ⟨hc.listed.cons_cons v, List.forall_mem_cons.mpr ⟨hv, hc.each⟩, ?_, ?_⟩
          · intro hnodup
            rw [List.map_cons, List.append_cons]
            refine hc.distinct (List.nodup_append.mpr ⟨hnodup, List.nodup_singleton _, ?_⟩)
            intro a ha b hb he
            rw [List.mem_singleton.mp hb] at he
            exact hnew (he ▸ ha)
          · intro _
            rw [List.map_cons, List.append_cons]
            apply hc.bound
            rw [List.length_append, List.length_singleton]
            omega
      · obtain ⟨chosen, he, hc⟩ := ih added
        exact ⟨chosen, he, hc.listed.cons v, hc.each, hc.distinct, hc.bound⟩

end Candidates

section Placement

variable {rtype : RecordType}

theorem newRecord_of_family (owner : Name) (ttl : Nat) {addr : IpAddr} (h : addr.rtype = rtype) :
    ∃ r, newRecord owner ttl rtype addr = some r ∧ recordAddress r = some addr := by
  subst h
  cases addr with
  | v4 bits | v6 bits => exact ⟨_, rfl, rfl⟩

theorem filterMap_newRecord (owner : Name) (ttl : Nat) {addrs : List IpAddr}
    (h : ∀ addr ∈ addrs, addr.rtype = rtype) :
    (addrs.filterMap (newRecord owner ttl rtype)).map recordAddress = addrs.map some := by
  induction addrs with
  | nil => rfl
  | cons addr addrs ih =>
    obtain ⟨r, hr, haddr⟩ := newRecord_of_family owner ttl (h addr List.mem_cons_self)
    have hrest := ih fun a ha => h a (List.mem_cons_of_mem addr ha)
    rw [List.filterMap_cons_some hr, List.map_cons, List.map_cons, haddr, hrest]

theorem prependAddresses_placed (answers : List Record) {g : RrsetGroup} {first : Nat}
    (ttl cap : Nat) {addrs : List IpAddr} (hfirst : g.indices.head? = some first)
    (h : ∀ addr ∈ addrs, addr.rtype = rtype) :
    let capped := Record.mapTtl (min · cap)
    ∃ added : List Record,
      (prependAddresses answers g ttl addrs rtype).map capped =
        (answers.map capped).take first ++ added ++ (answers.map capped).drop first ∧
      added.map recordAddress = addrs.map some := by
  intro capped
  refine ⟨(addrs.filterMap (newRecord g.owner ttl rtype)).map capped, ?_, ?_⟩
  · rw [prependAddresses, hfirst]
    simp only [List.map_append, List.map_take, List.map_drop]
  · rw [List.map_map]
    exact filterMap_newRecord g.owner ttl h

end Placement

section Policy

variable {ctx : AnswerContext} {msg : Message}

structure AugmentAllowed (ctx : AnswerContext) (msg : Message) : Prop where
  enabled : ctx.cloudflareEnabled = true
  mode : ctx.cloudflareMode = .verifiedAugment
  insecure : ctx.dnssec = .insecure
  single : ∃ owner : Name, ∀ r ∈ msg.answers, r.recordType = ctx.qtype → owner.same r.name = true
  owned : ∃ snapshot, ctx.snapshot = some snapshot ∧ ∃ r ∈ msg.answers, ∃ addr,
    r.recordType = ctx.qtype ∧ recordAddress r = some addr ∧ snapshot.contains addr = true
  ech : publishesEch msg = true → ctx.canValidateEch = true
  baseline : ctx.baselineValidated = true
  allowed : ctx.domainExcluded = false

/-- What is added: candidates that pass every test, none of them in the answer already, in one run
of new records; the original ones stay as they would without the addition. -/
structure Augmented (ctx : AnswerContext) (msg : Message) (result : Message × AnswerOutcome)
    (chosen : List VerifiedCandidate) : Prop where
  count : chosen.length = result.2.added
  bound : chosen.length ≤ ctx.augment.maxAdded
  listed : chosen.Sublist ctx.verified
  distinct : (chosen.map VerifiedCandidate.addr).Nodup
  each : ∀ v ∈ chosen, Admitted ctx ctx.qtype (msg.answers.filterMap recordAddress) v
  placed : ∃ kept added : List Record, ∃ first,
    KeptInPlace ctx.qtype result.2.clientTtl msg.answers kept ∧
    result.1.answers = kept.take first ++ added ++ kept.drop first ∧
    added.map recordAddress = chosen.map (fun v => some v.addr)

theorem mem_gather {A : Type} {as : List A} {is : List Nat} {a : A} (h : a ∈ Lib.gather as is) :
    ∃ i ∈ is, as[i]? = some a := List.mem_filterMap.mp h

theorem addressesOf_single {g : RrsetGroup} (hg : rrsetGroups msg.answers ctx.qtype = [g])
    {addr : IpAddr} (hfamily : addr.rtype = ctx.qtype)
    (h : addr ∈ msg.answers.filterMap recordAddress) :
    addr ∈ addressesOf (movedAnswers ctx msg) g.indices := by
  obtain ⟨r, hr, haddr⟩ := List.mem_filterMap.mp h
  have ht : r.recordType = ctx.qtype := (rtype_of_recordAddress haddr).trans hfamily
  have hblock : g.indices ∈ rrsetBlocks msg.answers ctx.qtype := by
    rw [rrsetBlocks, hg]
    exact List.mem_singleton_self _
  have hmoved := (movedAnswers_rearranged ctx msg).inside g.indices hblock
  have hgather := hmoved.mem_iff.mpr (mem_gather_of_single hg hr ht)
  exact List.mem_filterMap.mpr ⟨r, hgather, haddr⟩

variable {final : RrsetGroup}

theorem addedAddrs_nonempty (h : addedAddrs ctx msg final ≠ []) :
    (evaluate (eligibilityInputs ctx msg (rrsetGroups msg.answers ctx.qtype) final)).1 =
      .augment := by
  by_contra hne
  exact h (if_neg hne)

theorem augmentAllowed_of_eligible (hl : (rrsetGroups msg.answers ctx.qtype).getLast? = some final)
    (h : Augmentable (eligibilityInputs ctx msg (rrsetGroups msg.answers ctx.qtype) final)) :
    rrsetGroups msg.answers ctx.qtype = [final] ∧ AugmentAllowed ctx msg := by
  obtain ⟨g, hg⟩ := List.length_eq_one_iff.mp (of_decide_eq_true h.single)
  have hfinal : g = final := by
    rw [hg] at hl
    simpa using hl
  subst hfinal
  have hmem : g ∈ rrsetGroups msg.answers ctx.qtype := hg ▸ List.mem_singleton_self g
  refine ⟨hg, h.enabled, h.mode, h.insecure, ⟨g.owner, ?_⟩, ?_, h.ech, h.baseline, h.allowed⟩
  · intro r hr ht
    obtain ⟨i, hi, hri⟩ := mem_gather (mem_gather_of_single hg hr ht)
    obtain ⟨r', hr', _, hname⟩ := rrsetGroups_grouped.owned g hmem i hi
    have hrr : r = r' := Option.some.inj (hri.symm.trans (List.mem_zipIdx_iff_getElem?.mp hr'))
    exact hrr ▸ hname
  · obtain ⟨snapshot, hsnapshot, addr, haddr, hcontains⟩ := h.owned
    obtain ⟨r, hr, hra⟩ := List.mem_filterMap.mp haddr
    obtain ⟨i, hi, hri⟩ := mem_gather hr
    obtain ⟨r', hr', ht, _⟩ := rrsetGroups_grouped.owned g hmem i hi
    have hrr : r = r' := Option.some.inj (hri.symm.trans (List.mem_zipIdx_iff_getElem?.mp hr'))
    exact ⟨snapshot, hsnapshot, r, List.mem_of_getElem? hri, addr, hrr ▸ ht, hra, hcontains⟩

theorem head_of_eligible {groups : List RrsetGroup}
    (h : Augmentable (eligibilityInputs ctx msg groups final)) :
    ∃ first, final.indices.head? = some first := by
  obtain ⟨_, _, addr, haddr, _⟩ := h.owned
  obtain ⟨r, hr, _⟩ := List.mem_filterMap.mp haddr
  obtain ⟨i, hi, _⟩ := mem_gather hr
  cases hindices : final.indices with
  | nil =>
    rw [hindices] at hi
    cases hi
  | cons first rest => exact ⟨first, rfl⟩

theorem augmented_of_single (haddr : ctx.qtype = .a ∨ ctx.qtype = .aaaa)
    (hg : rrsetGroups msg.answers ctx.qtype = [final])
    (helig : (evaluate (eligibilityInputs ctx msg (rrsetGroups msg.answers ctx.qtype)
      final)).1 = .augment) :
    ∃ chosen, Augmented ctx msg
      (applyToRrsets ctx msg ctx.qtype (rrsetGroups msg.answers ctx.qtype) final) chosen := by
  obtain ⟨chosen, he, hc⟩ := chooseAdded_eq ctx
    (addressesOf (movedAnswers ctx msg) final.indices) haddr ctx.verified []
  have hadded : addedAddrs ctx msg final = chosen.map VerifiedCandidate.addr :=
    (if_pos helig).trans he
  have hfamily : ∀ addr ∈ chosen.map VerifiedCandidate.addr, addr.rtype = ctx.qtype := by
    intro addr ha
    obtain ⟨v, hv, rfl⟩ := List.mem_map.mp ha
    exact (hc.each v hv).family
  have hbound := hc.bound (Nat.zero_le _)
  rw [List.nil_append, List.length_map] at hbound
  refine ⟨chosen, ?_, hbound, hc.listed, hc.distinct List.nodup_nil, ?_, ?_⟩
  · rw [applyToRrsets_added, hadded, List.length_map]
  · intro v hv
    have hold := hc.each v hv
    exact { hold with absent := fun hm => hold.absent (addressesOf_single hg hold.family hm) }
  · have hkept := keptInPlace_of_rearranged
      (applyToRrsets ctx msg ctx.qtype (rrsetGroups msg.answers ctx.qtype) final).2.clientTtl
      (movedAnswers_rearranged ctx msg) haddr
    by_cases hnil : addedAddrs ctx msg final = []
    · refine ⟨_, [], 0, hkept, ?_, ?_⟩
      · rw [applyToRrsets_message, augmentAnswers, if_pos hnil]
        rfl
      · rw [hadded] at hnil
        rw [List.map_eq_nil_iff.mp hnil]
        rfl
    · obtain ⟨first, hfirst⟩ := head_of_eligible (augmentable_of_evaluate helig)
      obtain ⟨added, hplaced, hmap⟩ := prependAddresses_placed (movedAnswers ctx msg)
        (groupTtl (movedAnswers ctx msg) final.indices)
        (applyToRrsets ctx msg ctx.qtype (rrsetGroups msg.answers ctx.qtype) final).2.clientTtl
        hfirst hfamily
      refine ⟨_, added, first, hkept, ?_, ?_⟩
      · rw [applyToRrsets_message, augmentAnswers, if_neg hnil, hadded]
        exact hplaced
      · rw [hmap, List.map_map]
        rfl

theorem applyAnswerPolicy_added {ctx : AnswerContext} {msg : Message}
    (h : 0 < (applyAnswerPolicy ctx msg).2.added) :
    AugmentAllowed ctx msg ∧ ∃ chosen, Augmented ctx msg (applyAnswerPolicy ctx msg) chosen := by
  by_cases haddr : ctx.qtype = .a ∨ ctx.qtype = .aaaa
  · cases hlast : (rrsetGroups msg.answers ctx.qtype).getLast? with
    | none =>
      simp only [applyAnswerPolicy, if_pos haddr, hlast] at h
      exact absurd h (Nat.lt_irrefl 0)
    | some final =>
      have hr : applyAnswerPolicy ctx msg = applyToRrsets ctx msg ctx.qtype
          (rrsetGroups msg.answers ctx.qtype) final := by
        simp only [applyAnswerPolicy, if_pos haddr, hlast]
      rw [hr, applyToRrsets_added] at h
      have helig := addedAddrs_nonempty (List.ne_nil_of_length_pos h)
      obtain ⟨hg, hallowed⟩ := augmentAllowed_of_eligible hlast (augmentable_of_evaluate helig)
      rw [hr]
      exact ⟨hallowed, augmented_of_single haddr hg helig⟩
  · simp only [applyAnswerPolicy, if_neg haddr] at h
    exact absurd h (Nat.lt_irrefl 0)

theorem applyAnswerPolicy_modified (ctx : AnswerContext) (msg : Message) :
    (applyAnswerPolicy ctx msg).2.modified = true ↔ 0 < (applyAnswerPolicy ctx msg).2.added := by
  have huntouched : (finishTtl ctx msg untouchedOutcome false false false).2.modified = true ↔
      0 < (finishTtl ctx msg untouchedOutcome false false false).2.added := by
    constructor
    · intro h
      cases h
    · intro h
      exact absurd h (Nat.lt_irrefl 0)
  unfold applyAnswerPolicy
  split
  · simp only
    split
    · exact huntouched
    · rename_i final _
      change decide (addedAddrs ctx msg final ≠ []) = true ↔ 0 < (addedAddrs ctx msg final).length
      rw [decide_eq_true_iff, List.length_pos_iff]
  · exact huntouched

theorem applyAnswerPolicy_recordType (ctx : AnswerContext) (msg : Message) :
    ∀ r ∈ (applyAnswerPolicy ctx msg).1.answers,
      ∃ r₀ ∈ msg.answers, r₀.recordType = r.recordType := by
  have hcapped (cap : Nat) : ∀ r ∈ (capTtls cap msg).answers,
      ∃ r₀ ∈ msg.answers, r₀.recordType = r.recordType := by
    intro r hr
    obtain ⟨r₀, hr₀, rfl⟩ := List.mem_map.mp hr
    exact ⟨r₀, hr₀, rfl⟩
  intro r hr
  unfold applyAnswerPolicy at hr
  split at hr
  · simp only at hr
    split at hr
    · exact hcapped _ r hr
    · rename_i final hlast
      obtain ⟨r₀, hr₀, rfl⟩ := List.mem_map.mp hr
      obtain ⟨added, hperm, hadded⟩ := augmentAnswers_perm (addedAddrs ctx msg final)
        (movedAnswers ctx msg) final ctx.qtype
      rcases List.mem_append.mp (hperm.mem_iff.mp hr₀) with hnew | hold
      · obtain ⟨htype, hne, _⟩ := hadded r₀ hnew
        have helig := augmentable_of_evaluate (addedAddrs_nonempty hne)
        obtain ⟨_, _, r₁, hr₁, _, ht₁, _⟩ := (augmentAllowed_of_eligible hlast helig).2.owned
        exact ⟨r₁, hr₁, ht₁.trans htype.symm⟩
      · exact ⟨r₀, (movedAnswers_perm ctx msg).mem_iff.mp hold, rfl⟩
  · exact hcapped _ r hr

def echAnswer : Message :=
  { addressQuery with
    answers := [hostRecord 97 0x68100001]
    additionals := [.fromRdata ⟨[[97]]⟩ 300 (.https [(echParamKey, [1])] [])] }

/-- A context that can validate ECH lets an address join the answer of a name that publishes it. -/
theorem ech_answer_augmented :
    publishesEch echAnswer = true ∧
    (applyAnswerPolicy { measuredContext with canValidateEch := true } echAnswer).2.added = 1 := by
  decide

def afterChange (ttl : TtlConfig) (answers : List Record) : AnswerOutcome :=
  (applyAnswerPolicy { measuredContext with ttl, recentNetworkChange := true }
    { addressQuery with answers }).2

def longChangeCap : TtlConfig := { TtlConfig.shipped with capNetworkChange := 120 }

/-- Under the shipped caps, after a network change the reason reported for an augmented answer is
not the one that bounds it. Under a longer cap for changes a preserved answer outlasts its own. -/
theorem network_change_cap_not_strongest :
    (TtlConfig.shipped.validate = .ok () ∧
      0 < (afterChange .shipped [hostRecord 97 0x68100001]).added ∧
      TtlConfig.shipped.cap .networkChange < TtlConfig.shipped.cap
        (afterChange .shipped [hostRecord 97 0x68100001]).ttlReason) ∧
    longChangeCap.validate = .ok () ∧
      (afterChange longChangeCap interleavedAnswer.answers).cloudflareApplied = .preserve ∧
      longChangeCap.cap .cloudflarePreserve <
        (afterChange longChangeCap interleavedAnswer.answers).clientTtl := by
  refine ⟨⟨rfl, ?_⟩, rfl, ?_⟩ <;> decide

end Policy

end EgressDns
