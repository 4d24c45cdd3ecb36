/-
TaikoGateway/PendingGroups.lean

Pending proposals in `resync`, on the path that proposes the blocks with the
anchors they have.

A group of blocks that is pending is skipped by the validation loop ("batch
already pending, skipping resync"), together with the update of the parent
parameters at the end of its body, and it is not skipped by the proposing loop.

* A pending proposal is proposed again iff the greedy split of the blocks of
  its anchor has it as a batch (`Rebuilds`).
* A group is validated against the last group before it, in the order of the
  anchors, that is not pending, or else the L2 parent; this is the block before
  the group iff `FollowsChecked`.

Main result: `resync_pending_iff`.
-/
import TaikoGateway.Splitting

namespace TaikoGateway

variable {m : ProposerManager} {env : ResyncEnv} {pending : List PendingProposal}

/-! ### Proposing again -/

/-- The request has the anchor, start and end of a pending proposal. -/
def RepeatsPending (pending : List PendingProposal) (request : ProposeBatchParams) : Prop :=
  ∃ q ∈ pending, q.anchorBlockId = request.anchorBlockId ∧
    q.startBlockNum = request.startBlockNum ∧ q.endBlockNum = request.endBlockNum

/-- The blocks that a batch announces: a batch without blocks announces the
first of all. -/
def announced (blocks piece : List Block) : List Block :=
  if piece = [] then blocks.take 1 else piece

/-- A batch of the group is a pending proposal. -/
def ProposerManager.Rebuilds (m : ProposerManager) (pending : List PendingProposal)
    (group : Nat × List Block) : Prop :=
  ∃ piece ∈ Greedy.split (FullFor m.compressedSize (m.sameArgs group.1)) [] group.2,
    isPending pending group.1 (announced group.2 piece) = true

instance (m : ProposerManager) (pending : List PendingProposal) (group : Nat × List Block) :
    Decidable (m.Rebuilds pending group) :=
  inferInstanceAs (Decidable (∃ _ ∈ _, _))

theorem Proposal.Built.repeatsPending_iff {args : RequestArgs} {first : Block} {rest : List Block}
    {p : Proposal} (h : p.Built args first) :
    RepeatsPending pending p.request ↔
      isPending pending args.anchorBlockId (announced (first :: rest) p.blocks) = true := by
  have hstart : startBlock (announced (first :: rest) p.blocks) = p.request.startBlockNum := by
    rw [h.start, announced, startBlock]
    cases p.blocks <;> rfl
  have hend : endBlock (announced (first :: rest) p.blocks) = p.request.endBlockNum := by
    rw [h.last, announced, endBlock]
    cases p.blocks using List.reverseRecOn <;> simp
  simp only [RepeatsPending, isPending, List.any_eq_true, decide_eq_true_eq, hstart, hend, h.anchor]

/-- The requests of the groups, taken together. -/
theorem mem_proposeGroups {groups : List (Nat × List Block)} (hne : ∀ g ∈ groups, g.2 ≠ []) :
    ∃ ps, proposeGroups m groups = .ok ps ∧
      ∀ p, p ∈ ps ↔ ∃ g ∈ groups, ∃ ps',
        requestFromBlocks m.compressedSize (m.sameArgs g.1) g.2 = .ok ps' ∧ p ∈ ps' := by
  induction groups using List.reverseRecOn with
  | nil => exact ⟨[], rfl, by simp⟩
  | append_singleton groups g ih =>
      obtain ⟨ps, hps, hmem⟩ := ih fun g' hg' => hne g' (List.mem_append_left _ hg')
      obtain ⟨first, rest, hfirst⟩ := List.exists_cons_of_ne_nil (hne g (by simp))
      obtain ⟨ps', hps', -, -⟩ := requestFromBlocks_split m.compressedSize (m.sameArgs g.1)
        first rest
      rw [← hfirst] at hps'
      refine ⟨ps ++ ps', proposeGroups_concat hps hps', fun p => ?_⟩
      rw [List.mem_append, hmem]
      constructor
      · rintro (⟨g', hg', hp⟩ | hp)
        · exact ⟨g', List.mem_append_left _ hg', hp⟩
        · exact ⟨g, by simp, ps', hps', hp⟩
      · rintro ⟨g', hg', ps'', hps'', hp⟩
        rcases List.mem_append.mp hg' with hg' | hg'
        · exact Or.inl ⟨g', hg', ps'', hps'', hp⟩
        · obtain rfl := List.mem_singleton.mp hg'
          rw [hps'] at hps''
          cases hps''
          exact Or.inr hp

/-- Nothing pending is proposed again iff no group rebuilds a pending
proposal. -/
theorem proposeGroups_repeats_iff {groups : List (Nat × List Block)}
    (hne : ∀ g ∈ groups, g.2 ≠ []) :
    ∃ ps, proposeGroups m groups = .ok ps ∧
      ((∀ p ∈ ps, ¬ RepeatsPending pending p.request) ↔ ∀ g ∈ groups, ¬ m.Rebuilds pending g) := by
  obtain ⟨ps, hps, hmem⟩ := mem_proposeGroups (m := m) hne
  -- what a group rebuilds are its requests
  have hgroup : ∀ g ∈ groups, (m.Rebuilds pending g ↔ ∃ ps',
      requestFromBlocks m.compressedSize (m.sameArgs g.1) g.2 = .ok ps' ∧
        ∃ p ∈ ps', RepeatsPending pending p.request) := by
    intro g hg
    obtain ⟨first, rest, hfirst⟩ := List.exists_cons_of_ne_nil (hne g hg)
    obtain ⟨ps', hps', hsplit, hbuilt⟩ := requestFromBlocks_split m.compressedSize
      (m.sameArgs g.1) first rest
    rw [ProposerManager.Rebuilds, hfirst, ← hsplit, hps']
    constructor
    · rintro ⟨piece, hpiece, hpending⟩
      obtain ⟨p, hp, rfl⟩ := List.mem_map.mp hpiece
      exact ⟨ps', rfl, p, hp, (hbuilt p hp).repeatsPending_iff.mpr hpending⟩
    · rintro ⟨_, heq, p, hp, hrepeats⟩
      obtain rfl := Except.ok.inj heq
      exact ⟨p.blocks, List.mem_map_of_mem hp, (hbuilt p hp).repeatsPending_iff.mp hrepeats⟩
  refine ⟨ps, hps, ?_, ?_⟩
  · intro hnone g hg hrebuilds
    obtain ⟨ps', hps', p, hp, hrepeats⟩ := (hgroup g hg).mp hrebuilds
    exact hnone p ((hmem p).mpr ⟨g, hg, ps', hps', hp⟩) hrepeats
  · intro hnone p hp hrepeats
    obtain ⟨g, hg, ps', hps', hp'⟩ := (hmem p).mp hp
    exact hnone g hg ((hgroup g hg).mpr ⟨ps', hps', p, hp', hrepeats⟩)

/-! ### The parent parameters -/

def lastTimestamp (blocks : List Block) : Nat :=
  (blocks.getLast?.map (·.header.timestamp)).getD 0

/-- What the validation of a group starts from: the state of the loop after the
groups before it. -/
def validationAfter (m : ProposerManager) (env : ResyncEnv) (l1Head : Nat) (l2Parent : Block)
    (pre : List (Nat × List Block)) : Validation :=
  pre.foldl (validateGroup m env (env.pendingProposals.getD []) l1Head)
    ⟨false, anchorOf l2Parent, l2Parent.header.timestamp, 0⟩

/-- The block immediately before the first one of the group. -/
def blockBefore (l2Parent : Block) (blocks group : List Block) : Block :=
  (blocks.takeWhile fun b => b.header.number ≠ startBlock group).getLast?.getD l2Parent

/-- Every group that is not pending is validated against the anchor block id
and the timestamp of the block before it. -/
def ChecksPredecessors (m : ProposerManager) (env : ResyncEnv) (l1Head : Nat) (l2Parent : Block)
    (blocks : List Block) : Prop :=
  ∀ pre g post, (Regroup.groups anchorOf blocks).toList = pre ++ g :: post →
    isPending (env.pendingProposals.getD []) g.1 g.2 = false →
      (validationAfter m env l1Head l2Parent pre).l2ParentAnchorBlockId =
          anchorOf (blockBefore l2Parent blocks g.2) ∧
        (validationAfter m env l1Head l2Parent pre).l2ParentTimestamp =
          (blockBefore l2Parent blocks g.2).header.timestamp

/-- The block `before` has the parameters of the last group below this anchor
that is not pending, or of the L2 parent if all of them are. -/
def FollowsChecked (pending : List PendingProposal) (groups : List (Nat × List Block))
    (l2Parent before : Block) (anchorBlockId : Nat) : Prop :=
  ((∀ g ∈ groups, g.1 < anchorBlockId → isPending pending g.1 g.2 = true) ∧
      anchorOf l2Parent = anchorOf before ∧
      l2Parent.header.timestamp = before.header.timestamp) ∨
    ∃ g ∈ groups, g.1 < anchorBlockId ∧ isPending pending g.1 g.2 = false ∧
      (∀ g' ∈ groups, g.1 < g'.1 → g'.1 < anchorBlockId → isPending pending g'.1 g'.2 = true) ∧
      g.1 = anchorOf before ∧ lastTimestamp g.2 = before.header.timestamp

instance (pending : List PendingProposal) (groups : List (Nat × List Block))
    (l2Parent before : Block) (anchorBlockId : Nat) :
    Decidable (FollowsChecked pending groups l2Parent before anchorBlockId) :=
  inferInstanceAs (Decidable (_ ∨ _))

/-- The loop carries the parameters of the last group that was not skipped. -/
theorem foldl_validateGroup (m : ProposerManager) (env : ResyncEnv)
    (pending : List PendingProposal) (l1Head : Nat) (v : Validation)
    (groups : List (Nat × List Block)) :
    let v' := groups.foldl (validateGroup m env pending l1Head) v
    (v'.l2ParentAnchorBlockId, v'.l2ParentTimestamp) =
      (((groups.filter fun g => !isPending pending g.1 g.2).getLast?).map
        fun g => (g.1, lastTimestamp g.2)).getD
          (v.l2ParentAnchorBlockId, v.l2ParentTimestamp) := by
  induction groups using List.reverseRecOn with
  | nil => rfl
  | append_singleton groups g ih =>
      rw [List.foldl_append, List.filter_append]
      simp only [List.foldl_cons, List.foldl_nil, validateGroup]
      by_cases hpending : isPending pending g.1 g.2 = true
      · rw [if_pos hpending, List.filter_cons_of_neg (by simp [hpending]), List.filter_nil,
          List.append_nil]
        exact ih
      · rw [if_neg hpending, List.filter_cons_of_pos (by simp [hpending]), List.filter_nil,
          List.getLast?_concat]
        rfl

/-- In a list with increasing keys, the last element that is selected. -/
theorem getLast?_filter_eq_some_iff {α : Type*} {key : α → Nat} {select : α → Bool} {l : List α}
    (hord : l.Pairwise fun a b => key a < key b) {a : α} :
    (l.filter select).getLast? = some a ↔
      a ∈ l ∧ select a = true ∧ ∀ b ∈ l, key a < key b → select b = false := by
  constructor
  · intro h
    obtain ⟨ha, hselect⟩ := List.mem_filter.mp (List.mem_of_getLast? h)
    refine ⟨ha, hselect, fun b hb hlt => ?_⟩
    by_contra hb'
    -- a later element would come after the last one
    obtain ⟨pre, hpre⟩ := List.getLast?_eq_some_iff.mp h
    have hsorted := hord.filter select
    have hmem : b ∈ l.filter select := List.mem_filter.mpr ⟨hb, by simpa using hb'⟩
    rw [hpre] at hsorted hmem
    rcases List.mem_append.mp hmem with hmem | hmem
    · exact (hlt.trans (List.pairwise_append.mp hsorted |>.2.2 b hmem a (by simp))).false
    · rw [List.mem_singleton.mp hmem] at hlt
      exact hlt.false
  · rintro ⟨ha, hselect, hlater⟩
    obtain ⟨pre, post, rfl⟩ := List.append_of_mem ha
    have hpost : post.filter select = [] := by
      rw [List.filter_eq_nil_iff]
      intro b hb
      have hlt := (List.pairwise_cons.mp (List.pairwise_append.mp hord).2.1).1 b hb
      simp [hlater b (by simp [hb]) hlt]
    rw [List.filter_append, List.filter_cons_of_pos hselect, hpost, List.getLast?_concat]

/-- The groups before one with their order are those with smaller anchors. -/
theorem mem_pre_iff {pre post : List (Nat × List Block)} {g : Nat × List Block}
    (hord : (pre ++ g :: post).Pairwise fun a b => a.1 < b.1) (g' : Nat × List Block) :
    g' ∈ pre ↔ g' ∈ pre ++ g :: post ∧ g'.1 < g.1 := by
  rw [List.pairwise_append, List.pairwise_cons] at hord
  constructor
  · intro hg'
    exact ⟨List.mem_append_left _ hg', hord.2.2 g' hg' g List.mem_cons_self⟩
  · rintro ⟨hg', hlt⟩
    rcases List.mem_append.mp hg' with hg' | hg'
    · exact hg'
    · rcases List.mem_cons.mp hg' with rfl | hg'
      · exact absurd hlt (lt_irrefl _)
      · exact absurd hlt (hord.2.1.1 g' hg').asymm

/-- **What a group is validated against** is the block `before` exactly when
that block has the parameters of the last group that was checked. -/
theorem followsChecked_iff (m : ProposerManager) (env : ResyncEnv) (l1Head : Nat)
    {l2Parent before : Block} {pre post : List (Nat × List Block)} {g : Nat × List Block}
    (hord : (pre ++ g :: post).Pairwise fun a b => a.1 < b.1) :
    ((validationAfter m env l1Head l2Parent pre).l2ParentAnchorBlockId = anchorOf before ∧
        (validationAfter m env l1Head l2Parent pre).l2ParentTimestamp =
          before.header.timestamp) ↔
      FollowsChecked (env.pendingProposals.getD []) (pre ++ g :: post) l2Parent before g.1 := by
  have hcarried := foldl_validateGroup m env (env.pendingProposals.getD []) l1Head
    ⟨false, anchorOf l2Parent, l2Parent.header.timestamp, 0⟩ pre
  have hpre := mem_pre_iff hord
  have hordPre : pre.Pairwise fun a b => a.1 < b.1 := (List.pairwise_append.mp hord).1
  cases hlast : (pre.filter fun g => !isPending (env.pendingProposals.getD []) g.1 g.2).getLast?
    with
  | none =>
      -- all groups before this one are pending
      rw [hlast] at hcarried
      obtain ⟨hanchor, htimestamp⟩ := Prod.mk.inj hcarried
      have hall : ∀ g' ∈ pre, isPending (env.pendingProposals.getD []) g'.1 g'.2 = true := by
        rw [List.getLast?_eq_none_iff, List.filter_eq_nil_iff] at hlast
        simpa using hlast
      rw [validationAfter, hanchor, htimestamp]
      constructor
      · exact fun h => Or.inl ⟨fun g' hg' hlt => hall g' ((hpre g').mpr ⟨hg', hlt⟩), h⟩
      · rintro (⟨-, h⟩ | ⟨g', hg', hlt, hnot, -⟩)
        · exact h
        · rw [hall g' ((hpre g').mpr ⟨hg', hlt⟩)] at hnot
          cases hnot
  | some c =>
      rw [hlast] at hcarried
      obtain ⟨hanchor, htimestamp⟩ := Prod.mk.inj hcarried
      obtain ⟨hc, hnot, hlater⟩ := (getLast?_filter_eq_some_iff hordPre).mp hlast
      rw [Bool.not_eq_true'] at hnot
      rw [validationAfter, hanchor, htimestamp]
      constructor
      · intro h
        obtain ⟨hcpre, hclt⟩ := (hpre c).mp hc
        refine Or.inr ⟨c, hcpre, hclt, hnot, fun g' hg' hlt hlt' => ?_, h⟩
        simpa using hlater g' ((hpre g').mpr ⟨hg', hlt'⟩) hlt
      · rintro (⟨hall, -⟩ | ⟨g', hg', hlt, hnot', hlater', h⟩)
        · rw [hall c ((hpre c).mp hc).1 ((hpre c).mp hc).2] at hnot
          cases hnot
        · -- the last such group is unique
          have hlast' : (pre.filter fun g =>
              !isPending (env.pendingProposals.getD []) g.1 g.2).getLast? = some g' := by
            refine (getLast?_filter_eq_some_iff hordPre).mpr
              ⟨(hpre g').mpr ⟨hg', hlt⟩, by rw [hnot', Bool.not_false], fun b hb hlt' => ?_⟩
            rw [hlater' b ((hpre b).mp hb).1 hlt' ((hpre b).mp hb).2, Bool.not_true]
          obtain rfl := Option.some.inj (hlast.symm.trans hlast')
          exact h

variable {origin last : Nat} {blocks : List Block}

/-- **Pending proposals are handled right** exactly when no group rebuilds one
of them, and the block before every group that is not pending is the last one
that was checked. -/
theorem resync_pending_iff (m : ProposerManager) (env : ResyncEnv) (origin last : Nat)
    (blocks : List Block) (l1Block : Header) (l2Parent : Block)
    (hfetched : fetchNBlocks env.getBlock (origin + 1) last = .ok blocks)
    (hanchored : ∀ b ∈ blocks, Anchored b) (hl1 : env.l1Block = some l1Block)
    (hl2 : env.l2Parent = some l2Parent) (hparent : Anchored l2Parent)
    (hkeep : reanchors m env blocks = false) :
    ∃ outcome, resync m env origin last = .ok outcome ∧
      ((∀ p ∈ outcome.issued, ¬ RepeatsPending (env.pendingProposals.getD []) p.request) ∧
          ChecksPredecessors m env l1Block.number l2Parent blocks ↔
        ∀ g ∈ (Regroup.groups anchorOf blocks).toList,
          ¬ m.Rebuilds (env.pendingProposals.getD []) g ∧
            (isPending (env.pendingProposals.getD []) g.1 g.2 = false →
              FollowsChecked (env.pendingProposals.getD [])
                (Regroup.groups anchorOf blocks).toList l2Parent
                (blockBefore l2Parent blocks g.2) g.1)) := by
  obtain ⟨ps, hps, hrepeats⟩ := @proposeGroups_repeats_iff m
    (env.pendingProposals.getD []) _ (groups_ne_nil blocks)
  refine ⟨⟨ps, verifyProposed env (Regroup.groups anchorOf blocks).toList⟩, ?_, ?_⟩
  · rw [resync_eq m hfetched hanchored hl1 hl2 hparent, hkeep, hps]
    rfl
  have hord : (Regroup.groups anchorOf blocks).toList.Pairwise fun a b => a.1 < b.1 :=
    (Regroup.keyed_groups blocks).1
  have hchecks : ChecksPredecessors m env l1Block.number l2Parent blocks ↔
      ∀ g ∈ (Regroup.groups anchorOf blocks).toList,
        isPending (env.pendingProposals.getD []) g.1 g.2 = false →
          FollowsChecked (env.pendingProposals.getD []) (Regroup.groups anchorOf blocks).toList
            l2Parent (blockBefore l2Parent blocks g.2) g.1 := by
    constructor
    · intro hall g hg hnot
      obtain ⟨pre, post, heq⟩ := List.append_of_mem hg
      rw [heq] at hord ⊢
      exact (followsChecked_iff m env l1Block.number hord).mp (hall pre g post heq hnot)
    · intro hall pre g post heq hnot
      have hfollows := hall g (by rw [heq]; simp) hnot
      rw [heq] at hord hfollows
      exact (followsChecked_iff m env l1Block.number hord).mpr hfollows
  rw [hrepeats, hchecks, ← forall₂_and]

section Sample

/-- The answers of `sampleEnv3` when blocks 1 to `endBlockNum` are pending with
anchor 100. -/
def pendingEnv (anchors : Nat → Nat) (endBlockNum : Nat) : ResyncEnv :=
  { sampleEnv3 anchors with
    pendingProposals := some [{
      startBlockNum := 1
      endBlockNum := endBlockNum
      anchorBlockId := 100
      nonce := 7
      txHash := 1 }] }

/-- Only block 1 is pending, but blocks 1 and 2 are a batch. -/
theorem resync_pending_iff_part :
    ∃ outcome, resync sampleManager (pendingEnv (fun n => 100 + n / 3) 1) 0 3 = .ok outcome ∧
      (∀ p ∈ outcome.issued,
        ¬ RepeatsPending ((pendingEnv (fun n => 100 + n / 3) 1).pendingProposals.getD [])
          p.request) ∧
      ChecksPredecessors sampleManager (pendingEnv (fun n => 100 + n / 3) 1) 110
        (sampleBlock 0 90) [sampleBlock 1 100, sampleBlock 2 100, sampleBlock 3 101] := by
  obtain ⟨outcome, houtcome, hiff⟩ := resync_pending_iff sampleManager
    (pendingEnv (fun n => 100 + n / 3) 1) 0 3
    [sampleBlock 1 100, sampleBlock 2 100, sampleBlock 3 101]
    { (default : Header) with number := 110 } (sampleBlock 0 90) rfl (by decide) rfl rfl
    (by decide) (by decide +kernel)
  exact ⟨outcome, houtcome, hiff.mpr (by decide +kernel)⟩

/-- Block 1 is pending: it is proposed again, and block 2 is validated against
block 0. -/
theorem pending_group_proposed_again :
    reanchors sampleManager (pendingEnv (fun n => 99 + n) 1)
        [sampleBlock 1 100, sampleBlock 2 101, sampleBlock 3 102] = false ∧
      (∃ outcome, resync sampleManager (pendingEnv (fun n => 99 + n) 1) 0 3 = .ok outcome ∧
        ∃ p ∈ outcome.issued,
          RepeatsPending ((pendingEnv (fun n => 99 + n) 1).pendingProposals.getD []) p.request) ∧
      ¬ ChecksPredecessors sampleManager (pendingEnv (fun n => 99 + n) 1) 110
        (sampleBlock 0 90) [sampleBlock 1 100, sampleBlock 2 101, sampleBlock 3 102] := by
  refine ⟨by decide +kernel, ?_, fun h => ?_⟩
  · have hrun : (resync sampleManager (pendingEnv (fun n => 99 + n) 1) 0 3).toOption.bind
        (fun outcome => (outcome.issued.map (·.request)).head?.map fun request =>
          (request.anchorBlockId, request.startBlockNum, request.endBlockNum)) =
            some (100, 1, 1) := by
      decide +kernel
    obtain ⟨outcome, houtcome, hissued⟩ := Option.bind_eq_some_iff.mp hrun
    obtain ⟨request, hrequest, hfields⟩ := Option.map_eq_some_iff.mp hissued
    obtain ⟨p, hp, rfl⟩ := List.mem_map.mp (List.mem_of_mem_head? hrequest)
    simp only [Prod.mk.injEq] at hfields
    refine ⟨outcome, Except.toOption_eq_some_iff.mp houtcome, p, hp, _, List.mem_cons_self, ?_⟩
    exact ⟨hfields.1.symm, hfields.2.1.symm, hfields.2.2.symm⟩
  · have hgroups : (Regroup.groups anchorOf
        [sampleBlock 1 100, sampleBlock 2 101, sampleBlock 3 102]).toList =
          [(100, [sampleBlock 1 100])] ++ (101, [sampleBlock 2 101]) ::
            [(102, [sampleBlock 3 102])] := by
      decide +kernel
    exact absurd (h _ _ _ hgroups (by decide)).1 (by decide +kernel)

end Sample

end TaikoGateway
