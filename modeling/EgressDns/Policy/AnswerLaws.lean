import EgressDns.Policy.Answer

/-!
# What the answer policy does to a message

The RRset groups partition the positions of the queried type, so each reordering permutes the
answer section, and what the augmentation inserts carries the lowest TTL of the RRset it joins.
-/

namespace EgressDns

open Lib

section Groups

variable (answers : List Record) (rtype : RecordType)

def positionsOf : List Nat :=
  (answers.zipIdx.filter fun p => p.1.recordType = rtype).map Prod.snd

def groupPositions (groups : List RrsetGroup) : List Nat := groups.flatMap RrsetGroup.indices

theorem addToGroups_perm (owner : Name) (i : Nat) (groups : List RrsetGroup) :
    (groupPositions (addToGroups owner i groups)).Perm (i :: groupPositions groups) := by
  induction groups with
  | nil => exact List.Perm.refl _
  | cons g gs ih =>
    unfold addToGroups
    split
    · change (g.indices ++ [i] ++ groupPositions gs).Perm (i :: (g.indices ++ groupPositions gs))
      rw [List.append_assoc]
      exact List.perm_middle
    · change (g.indices ++ groupPositions (addToGroups owner i gs)).Perm
        (i :: (g.indices ++ groupPositions gs))
      exact (ih.append_left g.indices).trans List.perm_middle

theorem foldl_groups_perm (entries : List (Record × Nat)) (groups : List RrsetGroup) :
    (groupPositions (entries.foldl (fun groups p =>
      if p.1.recordType = rtype then addToGroups p.1.name p.2 groups else groups) groups)).Perm
      ((entries.filter fun p => p.1.recordType = rtype).map Prod.snd ++ groupPositions groups) := by
  induction entries generalizing groups with
  | nil => exact List.Perm.refl _
  | cons p entries ih =>
    rw [List.foldl_cons]
    by_cases hp : p.1.recordType = rtype
    · rw [if_pos hp, List.filter_cons_of_pos (by simpa using hp), List.map_cons]
      have hadd := (addToGroups_perm p.1.name p.2 groups).append_left
        ((entries.filter fun p => p.1.recordType = rtype).map Prod.snd)
      exact (ih _).trans (hadd.trans List.perm_middle)
    · rw [if_neg hp, List.filter_cons_of_neg (by simpa using hp)]
      exact ih groups

theorem groupPositions_rrsetGroups_perm :
    (groupPositions (rrsetGroups answers rtype)).Perm (positionsOf answers rtype) := by
  have h := foldl_groups_perm rtype answers.zipIdx []
  rw [show groupPositions [] = [] from rfl, List.append_nil] at h
  exact h

theorem positionsOf_nodup : (positionsOf answers rtype).Nodup := by
  have hs := (List.filter_sublist (l := answers.zipIdx)
    (p := fun p => p.1.recordType = rtype)).map Prod.snd
  refine hs.nodup ?_
  rw [List.zipIdx_map_snd]
  exact List.nodup_range'

variable {answers rtype}

theorem mem_positionsOf {i : Nat} :
    i ∈ positionsOf answers rtype ↔ ∃ r, answers[i]? = some r ∧ r.recordType = rtype := by
  constructor
  · intro h
    obtain ⟨⟨r, j⟩, hp, rfl⟩ := List.mem_map.mp h
    obtain ⟨hz, ht⟩ := List.mem_filter.mp hp
    exact ⟨r, List.mem_zipIdx_iff_getElem?.mp hz, by simpa using ht⟩
  · rintro ⟨r, hr, ht⟩
    refine List.mem_map.mpr ⟨(r, i), List.mem_filter.mpr ⟨?_, by simpa using ht⟩, rfl⟩
    exact List.mem_zipIdx_iff_getElem?.mpr hr

def GoodIndices (answers : List Record) (indices : List Nat) : Prop :=
  indices.Nodup ∧ ∀ i ∈ indices, i < answers.length

theorem goodIndices_of_mem {g : RrsetGroup} (h : g ∈ rrsetGroups answers rtype) :
    GoodIndices answers g.indices := by
  have hperm := groupPositions_rrsetGroups_perm answers rtype
  have hnodup := hperm.nodup_iff.mpr (positionsOf_nodup answers rtype)
  refine ⟨(List.nodup_flatMap.mp hnodup).1 g h, ?_⟩
  intro i hi
  have hm : i ∈ groupPositions (rrsetGroups answers rtype) := List.mem_flatMap.mpr ⟨g, h, hi⟩
  obtain ⟨r, hr, _⟩ := mem_positionsOf.mp (hperm.mem_iff.mp hm)
  exact (List.getElem?_eq_some_iff.mp hr).1

theorem mem_gather_of_single {g : RrsetGroup} (hg : rrsetGroups answers rtype = [g]) {r : Record}
    (hr : r ∈ answers) (ht : r.recordType = rtype) : r ∈ gather answers g.indices := by
  obtain ⟨i, hi⟩ := List.mem_iff_getElem?.mp hr
  have hm := (groupPositions_rrsetGroups_perm answers rtype).mem_iff.mpr
    (mem_positionsOf.mpr ⟨r, hi, ht⟩)
  rw [hg, groupPositions, List.flatMap_singleton] at hm
  exact List.mem_filterMap.mpr ⟨i, hm, hi⟩

end Groups

section Reorder

theorem takeAddress_perm {want : IpAddr} {taken rest : List Record} {r : Record}
    (h : takeAddress want taken = some (r, rest)) : (r :: rest).Perm taken := by
  induction taken generalizing rest with
  | nil => cases h
  | cons t taken ih =>
    unfold takeAddress at h
    split at h
    · cases h
      exact List.Perm.refl _
    · obtain ⟨⟨r', rest'⟩, hrec, he⟩ := Option.map_eq_some_iff.mp h
      cases he
      exact (List.Perm.swap t r' rest').trans ((ih hrec).cons t)

theorem placeAddresses_perm (desired : List IpAddr) (taken : List Record) :
    (placeAddresses desired taken).Perm taken := by
  induction desired generalizing taken with
  | nil => exact List.Perm.refl _
  | cons want desired ih =>
    unfold placeAddresses
    split
    · rename_i r rest h
      exact ((ih rest).cons r).trans (takeAddress_perm h)
    · exact ih taken

variable {answers : List Record} {indices : List Nat} {desired : List IpAddr}

theorem reorderInPlace_perm (h : GoodIndices answers indices) :
    (reorderInPlace answers indices desired).Perm answers :=
  scatter_perm h.1 h.2 (placeAddresses_perm desired _)

theorem gather_reorderInPlace_perm (h : GoodIndices answers indices) :
    (gather (reorderInPlace answers indices desired) indices).Perm
      (gather answers indices) := by
  have hp := placeAddresses_perm desired (gather answers indices)
  have hl := hp.length_eq.trans (length_gather h.2)
  rw [reorderInPlace, gather_scatter h.1 h.2 hl]
  exact hp

end Reorder

section Effect

variable {ctx : AnswerContext}

theorem reorderGroup_cases (state : List Record × Bool × OrderDecision) (g : RrsetGroup) :
    (reorderGroup ctx state g).1 = state.1 ∨
      ∃ desired, (reorderGroup ctx state g).1 = reorderInPlace state.1 g.indices desired := by
  unfold reorderGroup
  simp only
  split
  · exact .inl rfl
  · split
    · exact .inr ⟨_, rfl⟩
    · exact .inl rfl

variable {state : List Record × Bool × OrderDecision} {g final : RrsetGroup} {r : Record}
  {msg : Message} {outcome : AnswerOutcome}

theorem reorderGroup_perm (h : GoodIndices state.1 g.indices) :
    (reorderGroup ctx state g).1.Perm state.1 := by
  rcases reorderGroup_cases state g with he | ⟨desired, he⟩
  · rw [he]
  · rw [he]
    exact reorderInPlace_perm h

theorem gather_reorderGroup_perm (h : GoodIndices state.1 g.indices) :
    (gather (reorderGroup ctx state g).1 g.indices).Perm (gather state.1 g.indices) := by
  rcases reorderGroup_cases state g with he | ⟨desired, he⟩
  · rw [he]
  · rw [he]
    exact gather_reorderInPlace_perm h

theorem foldl_reorderGroup_perm {groups : List RrsetGroup}
    (h : ∀ g ∈ groups, GoodIndices state.1 g.indices) :
    (groups.foldl (reorderGroup ctx) state).1.Perm state.1 := by
  induction groups generalizing state with
  | nil => exact List.Perm.refl _
  | cons g groups ih =>
    have hg : (reorderGroup ctx state g).1.Perm state.1 :=
      reorderGroup_perm (h g List.mem_cons_self)
    rw [List.foldl_cons]
    refine (ih ?_).trans hg
    intro g' hm
    have hgood := h g' (List.mem_cons_of_mem g hm)
    exact ⟨hgood.1, fun i hi => hg.length_eq ▸ hgood.2 i hi⟩

theorem groupTtl_le {answers : List Record} {indices : List Nat}
    (h : r ∈ gather answers indices) : groupTtl answers indices ≤ r.ttl := by
  have hm : r.ttl ∈ (gather answers indices).map Record.ttl := List.mem_map_of_mem h
  unfold groupTtl
  cases hmin : ((gather answers indices).map Record.ttl).min? with
  | none => exact Nat.zero_le _
  | some m => exact (List.min?_eq_some_iff.mp hmin).2 _ hm

theorem newRecord_eq_some {owner : Name} {ttl : Nat} {rtype : RecordType} {addr : IpAddr}
    (h : newRecord owner ttl rtype addr = some r) : r.recordType = rtype ∧ r.ttl = ttl := by
  unfold newRecord at h
  split at h
  · cases h
    exact ⟨rfl, rfl⟩
  · cases h
    exact ⟨rfl, rfl⟩
  · cases h

theorem prependAddresses_perm (answers : List Record) (g : RrsetGroup) (ttl : Nat)
    (addrs : List IpAddr) (rtype : RecordType) :
    ∃ added, (prependAddresses answers g ttl addrs rtype).Perm (added ++ answers) ∧
      ∀ a ∈ added, a.recordType = rtype ∧ a.ttl = ttl := by
  unfold prependAddresses
  split
  · exact ⟨[], List.Perm.refl _, fun a ha => absurd ha List.not_mem_nil⟩
  · rename_i first _
    refine ⟨addrs.filterMap (newRecord g.owner ttl rtype), ?_, ?_⟩
    · have hc : ((answers.take first ++ addrs.filterMap (newRecord g.owner ttl rtype)) ++
          answers.drop first).Perm
          ((addrs.filterMap (newRecord g.owner ttl rtype) ++ answers.take first) ++
            answers.drop first) := List.perm_append_comm.append_right _
      rw [List.append_assoc (List.filterMap _ _), List.take_append_drop] at hc
      exact hc
    · intro a ha
      obtain ⟨addr, _, hn⟩ := List.mem_filterMap.mp ha
      exact newRecord_eq_some hn

theorem augmentAnswers_perm (addrs : List IpAddr) (answers : List Record) (final : RrsetGroup)
    (rtype : RecordType) :
    ∃ added, (augmentAnswers answers rtype final addrs).Perm (added ++ answers) ∧
      ∀ a ∈ added, a.recordType = rtype ∧ addrs ≠ [] ∧ a.ttl = groupTtl answers final.indices := by
  unfold augmentAnswers
  split
  · exact ⟨[], List.Perm.refl _, fun a ha => absurd ha List.not_mem_nil⟩
  · rename_i hne
    obtain ⟨added, hp, ha⟩ := prependAddresses_perm answers final
      (groupTtl answers final.indices) addrs rtype
    exact ⟨added, hp, fun a hm => ⟨(ha a hm).1, hne, (ha a hm).2⟩⟩

/-- What the policy does to a message: some records of the queried type join the answer section,
the section is permuted, and every TTL is capped at the client TTL. -/
structure PolicyEffect (ctx : AnswerContext) (msg : Message) (result : Message × AnswerOutcome)
    (added : List Record) : Prop where
  metadata : result.1.metadata = msg.metadata
  answers : result.1.answers.Perm
    ((added ++ msg.answers).map (Record.mapTtl (min · result.2.clientTtl)))
  authorities : result.1.authorities =
    msg.authorities.map (Record.mapTtl (min · result.2.clientTtl))
  additionals : result.1.additionals =
    msg.additionals.map (Record.mapTtl (min · result.2.clientTtl))
  addedType : ∀ a ∈ added, a.recordType = ctx.qtype
  addedTtl : ∀ a ∈ added, ∀ r ∈ msg.answers, r.recordType = ctx.qtype → a.ttl ≤ r.ttl
  cap : ∃ augmented preserved optimized, (result.2.clientTtl, result.2.ttlReason) =
    effectiveClientTtl ctx.ttl (ttlInputs ctx augmented preserved optimized)

theorem finishTtl_effect {answers added : List Record} {augmented preserved optimized : Bool}
    (hp : answers.Perm (added ++ msg.answers)) (ht : ∀ a ∈ added, a.recordType = ctx.qtype)
    (hl : ∀ a ∈ added, ∀ r ∈ msg.answers, r.recordType = ctx.qtype → a.ttl ≤ r.ttl) :
    PolicyEffect ctx msg
      (finishTtl ctx { msg with answers := answers } outcome augmented preserved optimized)
      added where
  metadata := rfl
  answers := hp.map _
  authorities := rfl
  additionals := rfl
  addedType := ht
  addedTtl := hl
  cap := ⟨augmented, preserved, optimized, rfl⟩

theorem finishTtl_unchanged_effect :
    PolicyEffect ctx msg (finishTtl ctx msg outcome false false false) [] :=
  finishTtl_effect (List.Perm.refl _) (fun _ ha => absurd ha List.not_mem_nil)
    (fun _ ha => absurd ha List.not_mem_nil)

theorem groupTtl_foldl_le {order : OrderDecision}
    (hl : (rrsetGroups msg.answers ctx.qtype).getLast? = some final)
    (hs : (rrsetGroups msg.answers ctx.qtype).length = 1) (hr : r ∈ msg.answers)
    (ht : r.recordType = ctx.qtype) :
    groupTtl ((rrsetGroups msg.answers ctx.qtype).foldl (reorderGroup ctx)
      (msg.answers, false, order)).1 final.indices ≤ r.ttl := by
  obtain ⟨g, hg⟩ := List.length_eq_one_iff.mp hs
  have he : g = final := by
    rw [hg] at hl
    simpa using hl
  subst he
  have hgood : GoodIndices msg.answers g.indices :=
    goodIndices_of_mem (hg ▸ List.mem_singleton_self g)
  rw [hg, List.foldl_cons, List.foldl_nil]
  exact groupTtl_le ((gather_reorderGroup_perm hgood).mem_iff.mpr (mem_gather_of_single hg hr ht))

theorem applyToRrsets_effect (hl : (rrsetGroups msg.answers ctx.qtype).getLast? = some final) :
    ∃ added, PolicyEffect ctx msg
      (applyToRrsets ctx msg ctx.qtype (rrsetGroups msg.answers ctx.qtype) final) added := by
  have hreorder : ((rrsetGroups msg.answers ctx.qtype).foldl (reorderGroup ctx)
      (msg.answers, false, .disabled)).1.Perm msg.answers :=
    foldl_reorderGroup_perm (fun g hg => goodIndices_of_mem hg)
  obtain ⟨added, hp, ha⟩ := augmentAnswers_perm
    (toAdd ctx (evaluate (eligibilityInputs ctx msg _ final)).1
      ((rrsetGroups msg.answers ctx.qtype).foldl (reorderGroup ctx)
        (msg.answers, false, .disabled)).1 ctx.qtype final)
    ((rrsetGroups msg.answers ctx.qtype).foldl (reorderGroup ctx)
      (msg.answers, false, .disabled)).1 final ctx.qtype
  refine ⟨added, finishTtl_effect (hp.trans (hreorder.append_left added))
    (fun a hm => (ha a hm).1) ?_⟩
  intro a hm r hr ht
  -- Something was added, so the eligibility was `augment` and there is one RRset.
  have helig : (evaluate (eligibilityInputs ctx msg (rrsetGroups msg.answers ctx.qtype)
      final)).1 = .augment := by
    by_contra hne
    exact (ha a hm).2.1 (if_neg hne)
  rw [(ha a hm).2.2]
  exact groupTtl_foldl_le hl (of_decide_eq_true (augmentable_of_evaluate helig).single) hr ht

theorem applyAnswerPolicy_effect (ctx : AnswerContext) (msg : Message) :
    ∃ added, PolicyEffect ctx msg (applyAnswerPolicy ctx msg) added := by
  unfold applyAnswerPolicy
  split
  · simp only
    split
    · exact ⟨[], finishTtl_unchanged_effect⟩
    · rename_i final hl
      exact applyToRrsets_effect hl
  · exact ⟨[], finishTtl_unchanged_effect⟩

theorem applyAnswerPolicy_requeried (ctx : AnswerContext) (msg : Message) (queries : List Query) :
    applyAnswerPolicy ctx { msg with queries } =
      ({ (applyAnswerPolicy ctx msg).1 with queries }, (applyAnswerPolicy ctx msg).2) := by
  unfold applyAnswerPolicy
  split
  · dsimp only
    split
    · rfl
    · rfl
  · rfl

theorem applyAnswerPolicy_queries (ctx : AnswerContext) (msg : Message) :
    (applyAnswerPolicy ctx msg).1.queries = msg.queries :=
  congrArg (fun result => result.1.queries) (applyAnswerPolicy_requeried ctx msg msg.queries)

end Effect

end EgressDns
