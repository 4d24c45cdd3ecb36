/-
TaikoGateway/ParentAnchor.lean

The anchor block id of the parent, when a block cannot be taken.

`update_parent_block_id` does the fallible part last: a block whose anchor does
not decode is pushed, and its id is not set.  And `new_preconf_l2_block` has
dropped the blocks of a reorg, and noted a block of ours for verification,
before it is called.  `HalfTaken` has the calls that fail behind such a change.

Without them the id is that of the last block after every call, and a call that
fails leaves everything as it was (`known_iff`).
-/
import TaikoGateway.L2Chain

namespace TaikoGateway

/-- The assertions about a block that is taken hold. -/
def Block.Sound (b : Block) : Prop :=
  ∀ tx, b.firstTx = some tx → tx.fromAddr = goldenTouchAddress ∧ b.header.gasUsed < 2 ^ 32

/-- What happens to the context: deliveries of L2 blocks, L1 headers, and what
the loop sets. -/
inductive ContextCall
  | l2 (call : L2Call)
  | l1 (newHeader : Header) (now : Instant)
  | setAnchor (anchor : Option AnchorParams)
  | setState (state : SequencerState)

namespace SequencerContext

variable {ctx ctx' : SequencerContext} {b : Block}

def handle (ctx : SequencerContext) : ContextCall → Except Panic SequencerContext
  | .l2 call => ctx.deliver call
  | .l1 newHeader now => .ok (ctx.newL1Block newHeader now)
  | .setAnchor anchor => .ok { ctx with anchor := anchor }
  | .setState state => .ok { ctx with state := state }

/-! ### What becomes of a block -/

/-- Whether a block is pushed, pushed in place of stored ones, or ignored. -/
inductive Reception
  | extends
  | replaces
  | ignored
  deriving DecidableEq

/-- The branch of `new_preconf_l2_block` that a block takes. -/
def receives (ctx : SequencerContext) (b : Block) : Reception :=
  match ctx.l2Headers.getLast? with
  | none => .extends
  | some lastSeen =>
      if lastSeen.blockNumber + 1 = b.header.number ∧ lastSeen.hash = b.header.parentHash then
        .extends
      else
        match ctx.l2Headers.find? (fun p => p.blockNumber = b.header.number) with
        | some seen => if seen.hash ≠ b.header.hash then .replaces else .ignored
        | none => if lastSeen.blockNumber < b.header.number then .extends else .ignored

/-- The context that the block is pushed onto. -/
def beforePush (ctx : SequencerContext) (b : Block) : SequencerContext :=
  if ctx.receives b = .replaces then (ctx.register b).truncate b.header.number else ctx.register b

theorem deliver_preconf (ctx : SequencerContext) (b : Block) : ctx.deliver (.preconf b) =
    if ctx.receives b = .ignored then .ok (ctx.register b)
    else (ctx.beforePush b).updateParentBlockId b := by
  have hdrop : ∀ (x : Except Panic SequencerContext) (reorged : Bool),
      ((x >>= fun c => .ok (reorged, c)) >>= fun r : Bool × SequencerContext => .ok r.2) = x := by
    intro x reorged
    cases x <;> rfl
  have hregister : (if b.header.beneficiary = ctx.coinbase then
      { ctx with toVerify := ctx.toVerify.insert b.header.number b.header } else ctx) =
        ctx.register b := rfl
  show (ctx.newPreconfL2Block b >>= fun r : Bool × SequencerContext => .ok r.2) = _
  simp only [newPreconfL2Block]
  rw [hregister, register_l2Headers]
  cases hlast : ctx.l2Headers.getLast? with
  | none =>
      have hreceives : ctx.receives b = .extends := by simp only [receives, hlast]
      rw [beforePush, hreceives]
      exact hdrop _ false
  | some last =>
      by_cases hnext : last.blockNumber + 1 = b.header.number ∧ last.hash = b.header.parentHash
      · have hreceives : ctx.receives b = .extends := by simp only [receives, hlast, if_pos hnext]
        simp only [if_pos hnext]
        rw [beforePush, hreceives]
        exact hdrop _ false
      -- not the next block, so its number decides
      · simp only [if_neg hnext]
        cases hfind : ctx.l2Headers.find? (fun p => p.blockNumber = b.header.number) with
        | some seen =>
            by_cases hhash : seen.hash ≠ b.header.hash
            · have hreceives : ctx.receives b = .replaces := by
                simp only [receives, hlast, if_neg hnext, hfind, if_pos hhash]
              simp only [if_pos hhash]
              rw [beforePush, hreceives, truncate, before, register_l2Headers]
              exact hdrop _ true
            · have hreceives : ctx.receives b = .ignored := by
                simp only [receives, hlast, if_neg hnext, hfind, if_neg hhash]
              simp only [if_neg hhash, hreceives]
              rfl
        | none =>
            by_cases hgap : last.blockNumber < b.header.number
            · have hreceives : ctx.receives b = .extends := by
                simp only [receives, hlast, if_neg hnext, hfind, if_pos hgap]
              simp only [if_pos hgap]
              rw [beforePush, hreceives]
              exact hdrop _ false
            · have hreceives : ctx.receives b = .ignored := by
                simp only [receives, hlast, if_neg hnext, hfind, if_neg hgap]
              simp only [if_neg hgap, hreceives]
              rfl

theorem updateParentBlockId_of_none (h : b.firstTx = none) :
    ctx.updateParentBlockId b = .ok ctx := by
  rw [Block.firstTx] at h
  rw [updateParentBlockId, h]

/-- A block with transactions is pushed; the id is set if there is one. -/
theorem updateParentBlockId_of_some (hsound : b.Sound) (h : b.firstTx ≠ none) :
    ∃ parent : ParentParams, parent.block = b ∧ parent.Of b ∧
      ctx.updateParentBlockId b = .ok { ctx with
        l2Headers := ctx.l2Headers ++ [parent]
        parentAnchorBlockId := b.anchorBlockId.getD ctx.parentAnchorBlockId } := by
  obtain ⟨tx, htx⟩ := Option.ne_none_iff_exists'.mp h
  obtain ⟨hgolden, hgas⟩ := hsound tx htx
  have hid : b.anchorBlockId = tx.inner.input.abiDecode.map (·.anchorBlockId) := by
    rw [Block.firstTx, Option.bind_eq_some_iff] at htx
    obtain ⟨txs, htxs, hhead⟩ := htx
    cases hcall : tx.inner.input.abiDecode <;>
      simp [Block.anchorBlockId, bind, htxs, hhead, hcall]
  rw [Block.firstTx] at htx
  obtain ⟨parent, hparent, hblock, hof⟩ : ∃ parent,
      ParentParams.fromHeaderAndAnchorNonce b tx.inner.nonce = .ok parent ∧ parent.block = b ∧
        parent.Of b := by
    rw [ParentParams.fromHeaderAndAnchorNonce, if_pos hgas]
    exact ⟨_, rfl, rfl, rfl, rfl, rfl⟩
  refine ⟨parent, hblock, hof, ?_⟩
  simp only [updateParentBlockId, htx, hgolden, hparent, hid]
  cases tx.inner.input.abiDecode <;> rfl

/-- A call that returns has met the assertions. -/
theorem sound_of_updateParentBlockId (h : ctx.updateParentBlockId b = .ok ctx') : b.Sound := by
  intro tx htx
  rw [Block.firstTx] at htx
  rw [updateParentBlockId, htx] at h
  simp only at h
  split at h
  · cases h
  · rename_i hgolden
    obtain ⟨parent, hparent, -⟩ := Except.bind_eq_ok_iff.mp h
    rw [ParentParams.fromHeaderAndAnchorNonce] at hparent
    split at hparent
    · rename_i hgas
      exact ⟨not_not.mp hgolden, hgas⟩
    · cases hparent

/-! ### Calls -/

/-- The id is that of the last stored block. -/
def Known (ctx : SequencerContext) : Prop :=
  ∀ p, ctx.l2Headers.getLast? = some p → p.block.anchorBlockId = some ctx.parentAnchorBlockId

/-- The block is to be pushed, and has no anchor that decodes. -/
def UpdateFails (ctx : SequencerContext) (b : Block) : Prop :=
  ctx.receives b ≠ .ignored ∧ b.anchorBlockId = none

/-- What `update_parent_block_id` and its caller change. -/
structure SameParent (ctx ctx' : SequencerContext) : Prop where
  l2Headers : ctx'.l2Headers = ctx.l2Headers
  toVerify : ctx'.toVerify = ctx.toVerify
  parentAnchorBlockId : ctx'.parentAnchorBlockId = ctx.parentAnchorBlockId

/-- A call leaves the id of the last block, and nothing if it fails. -/
def AllOrNothing (ctx : SequencerContext) (call : ContextCall)
    (r : Except Panic SequencerContext) : Prop :=
  ∀ b ctx', call = .l2 (.preconf b) → r = .ok ctx' →
    ctx'.Known ∧ (ctx.UpdateFails b → SameParent ctx ctx')

/-- The update fails behind a change: the block was pushed, blocks were dropped
for it, or it was noted. -/
def HalfTaken (ctx : SequencerContext) (b : Block) : Prop :=
  ctx.UpdateFails b ∧ b.Sound ∧
    (b.firstTx ≠ none ∨ ctx.receives b = .replaces ∨
      b.header.beneficiary = ctx.coinbase ∧ ctx.toVerify[b.header.number]? ≠ some b.header)

theorem Known.congr (h : ctx.Known) (hheaders : ctx'.l2Headers = ctx.l2Headers)
    (hid : ctx'.parentAnchorBlockId = ctx.parentAnchorBlockId) : ctx'.Known := by
  rw [Known, hheaders, hid]
  exact h

@[simp] theorem register_parentAnchorBlockId (ctx : SequencerContext) (b : Block) :
    (ctx.register b).parentAnchorBlockId = ctx.parentAnchorBlockId := by
  unfold register
  split <;> rfl

/-- Noting a block changes nothing if it is not ours, or noted already. -/
theorem register_toVerify_eq (h : b.header.beneficiary = ctx.coinbase →
    ctx.toVerify[b.header.number]? = some b.header) :
    (ctx.register b).toVerify = ctx.toVerify := by
  ext n header
  rw [register_toVerify]
  split
  · rename_i hours
    rw [← hours.2, h hours.1]
  · rfl

theorem receives_replaces (h : ctx.receives b = .replaces) :
    ∃ seen ∈ ctx.l2Headers, seen.blockNumber = b.header.number := by
  rw [receives] at h
  split at h
  · cases h
  · split at h
    · cases h
    · split at h
      · rename_i seen hfind
        exact ⟨seen, List.mem_of_find?_eq_some hfind, by simpa using List.find?_some hfind⟩
      · split at h <;> cases h

/-- Blocks are dropped for one that replaces others. -/
theorem l2Headers_beforePush_ne (h : ctx.receives b = .replaces) :
    (ctx.beforePush b).l2Headers ≠ ctx.l2Headers := by
  obtain ⟨seen, hseen, hnumber⟩ := receives_replaces h
  rw [beforePush, if_pos h]
  show (ctx.register b).l2Headers.takeWhile _ ≠ ctx.l2Headers
  rw [register_l2Headers]
  intro hsame
  rw [← hsame] at hseen
  have hne := List.mem_takeWhile_imp hseen
  simp [hnumber] at hne

/-- **A call that fails behind a change returns**, and is noticed: either the
last block has no anchor, or one of the three fields is another one. -/
theorem not_allOrNothing (h : ctx.HalfTaken b) :
    ∃ ctx', ctx.deliver (.preconf b) = .ok ctx' ∧ (ctx'.Known → ¬ SameParent ctx ctx') := by
  obtain ⟨⟨hreceives, hnone⟩, hsound, hchanged⟩ := h
  rw [deliver_preconf, if_neg hreceives]
  cases htx : b.firstTx with
  | none =>
      refine ⟨ctx.beforePush b, updateParentBlockId_of_none htx, fun _ hsame => ?_⟩
      rcases hchanged with hne | hreplaces | ⟨hours, hnoted⟩
      · exact hne htx
      · exact l2Headers_beforePush_ne hreplaces hsame.l2Headers
      · by_cases hreplaces : ctx.receives b = .replaces
        · exact l2Headers_beforePush_ne hreplaces hsame.l2Headers
        · apply hnoted
          rw [← hsame.toVerify, beforePush, if_neg hreplaces, register_toVerify,
            if_pos ⟨hours, rfl⟩]
  | some tx =>
      obtain ⟨parent, hparent, -, hpush⟩ := @updateParentBlockId_of_some (ctx.beforePush b) b hsound
        (by rw [htx]; exact Option.some_ne_none tx)
      -- pushed, and its own id is not there
      refine ⟨_, hpush, fun hknown _ => ?_⟩
      have hid := hknown parent List.getLast?_concat
      rw [hparent, hnone] at hid
      cases hid

/-- Any other call does what it should. -/
theorem allOrNothing (hknown : ctx.Known) (h : ¬ ctx.HalfTaken b)
    (hdeliver : ctx.deliver (.preconf b) = .ok ctx') :
    ctx'.Known ∧ (ctx.UpdateFails b → SameParent ctx ctx') := by
  rw [deliver_preconf] at hdeliver
  split at hdeliver
  · rename_i hignored
    cases hdeliver
    refine ⟨hknown.congr ?_ ?_, fun hfails => absurd hignored hfails.1⟩
    · exact register_l2Headers ctx b
    · exact register_parentAnchorBlockId ctx b
  · rename_i hreceives
    have hsound := sound_of_updateParentBlockId hdeliver
    cases htx : b.firstTx with
    | none =>
        cases (updateParentBlockId_of_none htx).symm.trans hdeliver
        have hfails : ctx.UpdateFails b := by
          refine ⟨hreceives, Option.not_isSome_iff_eq_none.mp fun hanchor => ?_⟩
          obtain ⟨tx, hsome⟩ := Block.HasAnchor.firstTx hanchor
          cases htx.symm.trans hsome
        -- without a tx nothing may have changed before the update
        have hreplaces : ctx.receives b ≠ .replaces :=
          fun hreplaces => h ⟨hfails, hsound, Or.inr (Or.inl hreplaces)⟩
        have hnoted : b.header.beneficiary = ctx.coinbase →
            ctx.toVerify[b.header.number]? = some b.header := by
          intro hours
          by_contra hne
          exact h ⟨hfails, hsound, Or.inr (Or.inr ⟨hours, hne⟩)⟩
        rw [beforePush, if_neg hreplaces]
        have hsame : SameParent ctx (ctx.register b) := ⟨register_l2Headers ctx b,
          register_toVerify_eq hnoted, register_parentAnchorBlockId ctx b⟩
        exact ⟨hknown.congr hsame.l2Headers hsame.parentAnchorBlockId, fun _ => hsame⟩
    | some tx =>
        have hne : b.firstTx ≠ none := by
          rw [htx]
          exact Option.some_ne_none tx
        obtain ⟨id, hid⟩ : ∃ id, b.anchorBlockId = some id := by
          apply Option.ne_none_iff_exists'.mp
          exact fun hnone => h ⟨⟨hreceives, hnone⟩, hsound, Or.inl hne⟩
        obtain ⟨parent, hparent, -, hpush⟩ :=
          @updateParentBlockId_of_some (ctx.beforePush b) b hsound hne
        cases hpush.symm.trans hdeliver
        refine ⟨fun p hp => ?_, fun hfails => ?_⟩
        · rw [List.getLast?_concat] at hp
          cases hp
          show parent.block.anchorBlockId = some (b.anchorBlockId.getD _)
          rw [hparent, hid]
          rfl
        · cases hid.symm.trans hfails.2

/-- A confirmed header keeps the last block, or leaves none. -/
theorem Known.origin {header : Header} (h : ctx.Known)
    (horigin : ctx.newOriginL2Block header = .ok ctx') : ctx'.Known := by
  have hheaders := (newOriginL2Block_pruned horigin).l2Headers
  obtain ⟨l2Headers, toVerify, rfl, -⟩ := newOriginL2Block_cases horigin
  intro p hp
  rw [hheaders] at hp
  apply h p
  have hsuffix := List.dropWhile_suffix (l := ctx.l2Headers)
    (fun p : ParentParams => decide (p.blockNumber < header.number))
  obtain ⟨pre, hpre⟩ := hsuffix
  rw [← hpre, List.getLast?_append, hp]
  rfl

/-- One step of a run, from a context whose id is right. -/
theorem allOrNothing_iff (hknown : ctx.Known) (call : ContextCall) :
    ctx.AllOrNothing call (ctx.handle call) ↔ ∀ b, call = .l2 (.preconf b) → ¬ ctx.HalfTaken b := by
  constructor
  · rintro hall b rfl hhalf
    obtain ⟨ctx', hdeliver, hnoticed⟩ := not_allOrNothing hhalf
    obtain ⟨hknown', hsame⟩ := hall b ctx' rfl hdeliver
    exact hnoticed hknown' (hsame hhalf.1)
  · rintro hhalf b ctx' rfl hdeliver
    exact allOrNothing hknown (hhalf b rfl) hdeliver

/-- What the other calls keep. -/
theorem Known.handle (h : ctx.Known) {call : ContextCall}
    (hall : ctx.AllOrNothing call (ctx.handle call)) (hcall : ctx.handle call = .ok ctx') :
    ctx'.Known := by
  cases call with
  | l2 call =>
      cases call with
      | preconf b => exact (hall b ctx' rfl hcall).1
      | origin header => exact h.origin hcall
  | l1 newHeader now =>
      cases hcall
      exact h
  | setAnchor anchor =>
      cases hcall
      exact h
  | setState state =>
      cases hcall
      exact h

/-- **The id of the parent's anchor is known**, and a block that cannot be taken
changes nothing, in every call of a run exactly when no block is half taken. -/
theorem known_iff (l1SafeLag : Nat) (coinbase : Address) (now : Instant)
    (calls : List ContextCall) :
    Run.Along handle AllOrNothing (.new l1SafeLag coinbase now) calls ↔
      Run.Along handle (fun ctx call _ => ∀ b, call = .l2 (.preconf b) → ¬ ctx.HalfTaken b)
        (.new l1SafeLag coinbase now) calls := by
  apply Run.Along.congr_of_invariant Known
  · exact fun ctx call hknown => allOrNothing_iff hknown call
  · exact fun ctx call ctx' hknown hall hcall => hknown.handle hall hcall
  · exact fun p hp => by cases hp

section Sample

/-- A block whose first tx is not an `anchorV3` call. -/
def garbledBlock (number hash parentHash : Nat) : Block :=
  ⟨⟨number, hash, parentHash, 0, 8, 0, 0⟩, .full [⟨goldenTouchAddress, ⟨0, 0, 0, .other [], []⟩⟩]⟩

/-- Block 11 cannot be decoded, and becomes the parent all the same. -/
theorem garbled_parent :
    ∃ ctx ctx' p, handle (.new 1 7 0) (.l2 (.preconf (sampleL2Block 10 10 9 8))) = .ok ctx ∧
      handle ctx (.l2 (.preconf (garbledBlock 11 11 10))) = .ok ctx' ∧
      ctx.UpdateFails (garbledBlock 11 11 10) ∧ ctx'.l2Headers.getLast? = some p ∧
      p.block.anchorBlockId = none ∧ ctx'.l2Headers ≠ ctx.l2Headers := by
  refine ⟨_, _, _, rfl, rfl, ⟨by decide, rfl⟩, rfl, rfl, by decide⟩

end Sample

end SequencerContext

end TaikoGateway
