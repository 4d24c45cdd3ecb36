/-
TaikoGateway/L2Chain.lean

The L2 blocks the context knows (`l2Headers`), under every order of arrivals
on its two channels: preconfirmed blocks, ours and other gateways', and
headers of confirmed blocks.

* `Arrival` has the ways in which a preconfirmed block can arrive, one
  constructor each (`newPreconfL2Block_arrival`).
* `Ascending`: the numbers in `l2Headers` increase, whatever arrives.
* `BecomesHead`: the blocks that are adopted (`Arrival.adopts_iff`).
* `toVerify_agrees`: what is noted for verification agrees with `l2Headers`.
-/
import TaikoGateway.Context

namespace TaikoGateway

/-! ### Arrivals -/

/-- What the two channels deliver. -/
inductive L2Call
  | preconf (block : Block)
  | origin (header : Header)

/-- The first transaction of a block, when it came with its transactions. -/
def Block.firstTx (b : Block) : Option Transaction := b.transactions.asTransactions.bind (·.head?)

/-- The block starts with a tx that decodes as `anchorV3`. -/
def Block.HasAnchor (b : Block) : Prop := b.anchorBlockId.isSome = true

instance (b : Block) : Decidable b.HasAnchor := inferInstanceAs (Decidable (_ = true))

theorem Block.HasAnchor.firstTx {b : Block} (h : b.HasAnchor) : ∃ tx, b.firstTx = some tx := by
  obtain ⟨id, hid⟩ := Option.isSome_iff_exists.mp h
  simp only [Block.anchorBlockId, bind, Option.bind_eq_some_iff] at hid
  obtain ⟨txs, htxs, tx, htx, -⟩ := hid
  exact ⟨tx, Option.bind_eq_some_iff.mpr ⟨txs, htxs, htx⟩⟩

/-- The parameters that are stored for a block. -/
structure ParentParams.Of (p : ParentParams) (b : Block) : Prop where
  blockNumber : p.blockNumber = b.header.number
  hash : p.hash = b.header.hash
  beneficiary : p.beneficiary = b.header.beneficiary

namespace SequencerContext

variable {ctx ctx' : SequencerContext} {b : Block}

/-- One delivery. -/
def deliver (ctx : SequencerContext) : L2Call → Except Panic SequencerContext
  | .preconf block => do
      let (_, ctx) ← ctx.newPreconfL2Block block
      .ok ctx
  | .origin header => ctx.newOriginL2Block header

theorem deliver_preconf_eq_ok :
    ctx.deliver (.preconf b) = .ok ctx' ↔
      ∃ reorged, ctx.newPreconfL2Block b = .ok (reorged, ctx') := by
  simp only [deliver, Except.bind_eq_ok_iff]
  constructor
  · rintro ⟨⟨reorged, c⟩, h, hok⟩
    cases hok
    exact ⟨reorged, h⟩
  · rintro ⟨reorged, h⟩
    exact ⟨(reorged, ctx'), h, rfl⟩

/-- A block without transactions is skipped, any other becomes the parent. -/
theorem updateParentBlockId_pushes (h : ctx.updateParentBlockId b = .ok ctx') :
    (b.firstTx = none ∧ ctx' = ctx) ∨
      ∃ parent parentAnchorBlockId, b.firstTx ≠ none ∧ parent.Of b ∧
        ctx' = { ctx with
          l2Headers := ctx.l2Headers ++ [parent], parentAnchorBlockId := parentAnchorBlockId } := by
  rcases updateParentBlockId_cases h with
    hnone | ⟨parent, id, hne, hctx, hbeneficiary, -, hnumber, hhash, -⟩
  · exact Or.inl hnone
  · exact Or.inr ⟨parent, id, hne, ⟨hnumber, hhash, hbeneficiary⟩, hctx⟩

/-- `ctx` with a block of ours noted for verification. -/
def register (ctx : SequencerContext) (b : Block) : SequencerContext :=
  if b.header.beneficiary = ctx.coinbase then
    { ctx with toVerify := ctx.toVerify.insert b.header.number b.header }
  else ctx

@[simp] theorem register_l2Headers (ctx : SequencerContext) (b : Block) :
    (ctx.register b).l2Headers = ctx.l2Headers := by
  unfold register
  split <;> rfl

@[simp] theorem register_coinbase (ctx : SequencerContext) (b : Block) :
    (ctx.register b).coinbase = ctx.coinbase := by
  unfold register
  split <;> rfl

theorem register_toVerify (ctx : SequencerContext) (b : Block) (n : Nat) :
    (ctx.register b).toVerify[n]? =
      if b.header.beneficiary = ctx.coinbase ∧ b.header.number = n then some b.header
      else ctx.toVerify[n]? := by
  unfold register
  by_cases hours : b.header.beneficiary = ctx.coinbase
  · simp [hours, Std.ExtTreeMap.getElem?_insert]
  · simp [hours]

/-- The block replaces a stored block of its number. -/
def Reorgs (ctx : SequencerContext) (b : Block) : Prop :=
  ∃ p ∈ ctx.l2Headers, p.blockNumber = b.header.number ∧ p.hash ≠ b.header.hash

instance (ctx : SequencerContext) (b : Block) : Decidable (ctx.Reorgs b) :=
  inferInstanceAs (Decidable (∃ p ∈ ctx.l2Headers, _ ∧ _))

/-- The stored blocks before the first one with this number. -/
def before (ctx : SequencerContext) (number : Nat) : List ParentParams :=
  ctx.l2Headers.takeWhile fun p => p.blockNumber ≠ number

/-- `ctx` without the blocks a reorg at this number replaces. -/
def truncate (ctx : SequencerContext) (number : Nat) : SequencerContext :=
  { ctx with
    l2Headers := ctx.before number
    toVerify := ctx.toVerify.filter fun bn _ => decide (bn < number) }

/-- The ways a preconfirmed block arrives: where the block becomes the parent,
`h` says so. -/
inductive Arrival (ctx : SequencerContext) (b : Block) : Bool → SequencerContext → Prop
  | first {ctx' : SequencerContext} (hnil : ctx.l2Headers = [])
      (h : (ctx.register b).updateParentBlockId b = .ok ctx') : Arrival ctx b false ctx'
  | next {ctx' : SequencerContext} {last : ParentParams}
      (hlast : ctx.l2Headers.getLast? = some last)
      (hnumber : last.blockNumber + 1 = b.header.number)
      (hparent : last.hash = b.header.parentHash)
      (h : (ctx.register b).updateParentBlockId b = .ok ctx') : Arrival ctx b false ctx'
  | reorg {ctx' : SequencerContext} {seen : ParentParams} (hseen : seen ∈ ctx.l2Headers)
      (hnumber : seen.blockNumber = b.header.number) (hhash : seen.hash ≠ b.header.hash)
      (h : ((ctx.register b).truncate b.header.number).updateParentBlockId b = .ok ctx') :
      Arrival ctx b true ctx'
  | seen {seen : ParentParams}
      (hseen : ctx.l2Headers.find? (fun p => p.blockNumber = b.header.number) = some seen)
      (hhash : seen.hash = b.header.hash) : Arrival ctx b false (ctx.register b)
  | gap {ctx' : SequencerContext} {last : ParentParams}
      (hlast : ctx.l2Headers.getLast? = some last) (hlt : last.blockNumber < b.header.number)
      (hother : ¬ (last.blockNumber + 1 = b.header.number ∧ last.hash = b.header.parentHash))
      (h : (ctx.register b).updateParentBlockId b = .ok ctx') : Arrival ctx b false ctx'
  | old {last : ParentParams} (hlast : ctx.l2Headers.getLast? = some last)
      (hle : b.header.number ≤ last.blockNumber)
      (hnone : ∀ p ∈ ctx.l2Headers, p.blockNumber ≠ b.header.number) :
      Arrival ctx b false (ctx.register b)

theorem newPreconfL2Block_arrival {reorged : Bool}
    (h : ctx.newPreconfL2Block b = .ok (reorged, ctx')) : Arrival ctx b reorged ctx' := by
  simp only [newPreconfL2Block] at h
  have hregister : (if b.header.beneficiary = ctx.coinbase then
      { ctx with toVerify := ctx.toVerify.insert b.header.number b.header } else ctx) =
        ctx.register b := rfl
  rw [hregister, register_l2Headers] at h
  split at h
  · rename_i hnil
    obtain ⟨c, hc, hok⟩ := Except.bind_eq_ok_iff.mp h
    cases hok
    exact .first (List.getLast?_eq_none_iff.mp hnil) hc
  · rename_i last hlast
    split at h
    · rename_i hnext
      obtain ⟨c, hc, hok⟩ := Except.bind_eq_ok_iff.mp h
      cases hok
      exact .next hlast hnext.1 hnext.2 hc
    -- not the next block: whether it was seen is asked by number alone
    · rename_i hother
      split at h
      · rename_i seen hseen
        split at h
        · rename_i hhash
          obtain ⟨c, hc, hok⟩ := Except.bind_eq_ok_iff.mp h
          cases hok
          have hnumber : seen.blockNumber = b.header.number := by
            simpa using List.find?_some hseen
          refine .reorg (List.mem_of_find?_eq_some hseen) hnumber hhash ?_
          rw [truncate, before, register_l2Headers]
          exact hc
        · rename_i hhash
          cases h
          exact .seen hseen (not_not.mp hhash)
      · rename_i hnone
        have hne : ∀ p ∈ ctx.l2Headers, p.blockNumber ≠ b.header.number := by
          intro p hp
          simpa using List.find?_eq_none.mp hnone p hp
        split at h
        · rename_i hlt
          obtain ⟨c, hc, hok⟩ := Except.bind_eq_ok_iff.mp h
          cases hok
          exact .gap hlast hlt hother hc
        -- at or below the head, and no longer stored
        · rename_i hle
          cases h
          exact .old hlast (Nat.le_of_not_lt hle) hne

/-- What a confirmed header leaves: the blocks from its number on, and of what
is noted for verification at least everything above it. -/
structure Pruned (ctx : SequencerContext) (header : Header) (ctx' : SequencerContext) : Prop where
  l2Headers : ctx'.l2Headers = ctx.l2Headers.dropWhile fun p => p.blockNumber < header.number
  coinbase : ctx'.coinbase = ctx.coinbase
  subset : ∀ (n : Nat) (own : Header), ctx'.toVerify[n]? = some own → ctx.toVerify[n]? = some own
  above : ∀ (n : Nat) (own : Header), header.number < n → ctx.toVerify[n]? = some own →
    ctx'.toVerify[n]? = some own

theorem newOriginL2Block_pruned {header : Header} (h : ctx.newOriginL2Block header = .ok ctx') :
    Pruned ctx header ctx' := by
  simp only [newOriginL2Block] at h
  -- the three ways to prune `to_verify`: one entry, all up to the number, or nothing
  obtain ⟨toVerify, htoVerify, hok⟩ : ∃ toVerify : BTreeMap Header,
      ((∀ (n : Nat) (own : Header), toVerify[n]? = some own → ctx.toVerify[n]? = some own) ∧
        ∀ (n : Nat) (own : Header), header.number < n → ctx.toVerify[n]? = some own →
          toVerify[n]? = some own) ∧
      ctx' = { ctx with
        toVerify := toVerify
        l2Headers := ctx.l2Headers.dropWhile fun p => p.blockNumber < header.number } := by
    split at h
    · split at h
      · cases h
      · cases h
        refine ⟨_, ⟨fun n own hown => ?_, fun n own hlt hown => ?_⟩, rfl⟩
        · rw [Std.ExtTreeMap.getElem?_erase] at hown
          split at hown
          · cases hown
          · exact hown
        · rw [Std.ExtTreeMap.getElem?_erase, if_neg (by simpa using hlt.ne)]
          exact hown
    · split at h
      · split at h
        · cases h
          refine ⟨_, ⟨fun n own hown => ?_, fun n own hlt hown => ?_⟩, rfl⟩
          · rw [Std.ExtTreeMap.getElem?_filter'] at hown
            exact (Option.filter_eq_some_iff.mp hown).1
          · rw [Std.ExtTreeMap.getElem?_filter', hown]
            simpa using hlt
        · cases h
          exact ⟨ctx.toVerify, ⟨fun n own hown => hown, fun n own hlt hown => hown⟩, rfl⟩
      · cases h
        exact ⟨ctx.toVerify, ⟨fun n own hown => hown, fun n own hlt hown => hown⟩, rfl⟩
  subst hok
  exact ⟨rfl, rfl, htoVerify.1, htoVerify.2⟩

/-! ### Numbers increase -/

/-- The numbers of the stored blocks increase. -/
def Ascending (ctx : SequencerContext) : Prop :=
  ctx.l2Headers.Pairwise fun p q => p.blockNumber < q.blockNumber

section Ascending

theorem Ascending.le_last (h : Ascending ctx) {last : ParentParams}
    (hlast : ctx.l2Headers.getLast? = some last) :
    ∀ p ∈ ctx.l2Headers, p.blockNumber ≤ last.blockNumber := by
  intro p hp
  obtain ⟨init, hinit⟩ := List.getLast?_eq_some_iff.mp hlast
  rw [Ascending, hinit, List.pairwise_append] at h
  rw [hinit] at hp
  rcases List.mem_append.mp hp with hp | hp
  · exact (h.2.2 p hp last List.mem_cons_self).le
  · rw [List.mem_singleton.mp hp]

/-- There is one stored block of a number. -/
theorem Ascending.eq_of_number (h : Ascending ctx) {p q : ParentParams} (hp : p ∈ ctx.l2Headers)
    (hq : q ∈ ctx.l2Headers) (hnumber : p.blockNumber = q.blockNumber) : p = q := by
  have hnodup : (ctx.l2Headers.map (·.blockNumber)).Nodup :=
    (List.pairwise_map.mpr h).imp ne_of_lt
  exact List.inj_on_of_nodup_map hnodup hp hq hnumber

/-- What stands before a stored block has lower numbers. -/
theorem Ascending.before_lt (h : Ascending ctx) {seen : ParentParams}
    (hseen : seen ∈ ctx.l2Headers) :
    ∀ p ∈ ctx.before seen.blockNumber, p.blockNumber < seen.blockNumber := by
  intro p hp
  have hsplit := List.takeWhile_append_dropWhile
    (p := fun p : ParentParams => decide (p.blockNumber ≠ seen.blockNumber)) (l := ctx.l2Headers)
  have hrest : seen ∈ ctx.l2Headers.dropWhile fun p => p.blockNumber ≠ seen.blockNumber := by
    rw [← hsplit] at hseen
    rcases List.mem_append.mp hseen with hbefore | hrest
    · have hne := List.mem_takeWhile_imp hbefore
      simp at hne
    · exact hrest
  rw [Ascending, ← hsplit, List.pairwise_append] at h
  exact h.2.2 p hp seen hrest

theorem Ascending.sublist (h : Ascending ctx) (hsub : ctx'.l2Headers.Sublist ctx.l2Headers) :
    Ascending ctx' :=
  List.Pairwise.sublist hsub h

theorem Ascending.push (h : Ascending ctx)
    (hlt : ∀ p ∈ ctx.l2Headers, p.blockNumber < b.header.number)
    (hupdate : ctx.updateParentBlockId b = .ok ctx') : Ascending ctx' := by
  rcases updateParentBlockId_pushes hupdate with ⟨-, rfl⟩ | ⟨parent, id, -, hparent, rfl⟩
  · exact h
  · show (ctx.l2Headers ++ [parent]).Pairwise _
    refine List.pairwise_append.mpr ⟨h, List.pairwise_singleton _ _, fun p hp q hq => ?_⟩
    rw [List.mem_singleton.mp hq, hparent.blockNumber]
    exact hlt p hp

theorem Ascending.register (h : Ascending ctx) (b : Block) : Ascending (ctx.register b) := by
  rw [Ascending, register_l2Headers]
  exact h

theorem Ascending.truncate (h : Ascending ctx) (number : Nat) :
    Ascending (ctx.truncate number) :=
  h.sublist (List.takeWhile_sublist _)

theorem Ascending.arrival (h : Ascending ctx) {reorged : Bool} (harr : Arrival ctx b reorged ctx') :
    Ascending ctx' := by
  cases harr with
  | first hnil hupdate =>
      refine (h.register b).push (fun p hp => ?_) hupdate
      rw [register_l2Headers, hnil] at hp
      cases hp
  | next hlast hnumber hparent hupdate =>
      refine (h.register b).push (fun p hp => ?_) hupdate
      rw [register_l2Headers] at hp
      have hle := h.le_last hlast p hp
      omega
  | reorg hseen hnumber hhash hupdate =>
      refine ((h.register b).truncate _).push (fun p hp => ?_) hupdate
      rw [← hnumber] at hp ⊢
      refine (h.register b).before_lt ?_ p hp
      rwa [register_l2Headers]
  | seen hseen hhash => exact h.register b
  | gap hlast hlt hother hupdate =>
      refine (h.register b).push (fun p hp => ?_) hupdate
      rw [register_l2Headers] at hp
      exact (h.le_last hlast p hp).trans_lt hlt
  | old hlast hle hnone => exact h.register b

/-- After a block has arrived, no other block of its number is stored. -/
theorem Ascending.hash_of_number (h : Ascending ctx) {reorged : Bool}
    (harr : Arrival ctx b reorged ctx') :
    ∀ p ∈ ctx'.l2Headers, p.blockNumber = b.header.number → p.hash = b.header.hash := by
  -- a push adds the block itself, so only what was stored before it matters
  have hpush : ∀ c : SequencerContext, c.updateParentBlockId b = .ok ctx' →
      (∀ p ∈ c.l2Headers, p.blockNumber = b.header.number → p.hash = b.header.hash) →
      ∀ p ∈ ctx'.l2Headers, p.blockNumber = b.header.number → p.hash = b.header.hash := by
    intro c hupdate hc p hp hpn
    rcases updateParentBlockId_pushes hupdate with ⟨-, rfl⟩ | ⟨parent, id, -, hof, rfl⟩
    · exact hc p hp hpn
    · rcases List.mem_append.mp hp with hp | hp
      · exact hc p hp hpn
      · rw [List.mem_singleton.mp hp]
        exact hof.hash
  have hbelow : (∀ p ∈ ctx.l2Headers, p.blockNumber < b.header.number) →
      ∀ p ∈ (ctx.register b).l2Headers, p.blockNumber = b.header.number →
        p.hash = b.header.hash := by
    intro hlt p hp hpn
    rw [register_l2Headers] at hp
    exact absurd hpn (hlt p hp).ne
  cases harr with
  | first hnil hupdate =>
      refine hpush _ hupdate (hbelow fun p hp => ?_)
      rw [hnil] at hp
      cases hp
  | next hlast hnumber hparent hupdate =>
      refine hpush _ hupdate (hbelow fun p hp => ?_)
      have hle := h.le_last hlast p hp
      omega
  | @reorg _ seen hseen hnumber hhash hupdate =>
      apply hpush _ hupdate
      intro p hp hpn
      -- what the reorg leaves is below the block
      have hp : p ∈ (ctx.register b).before b.header.number := hp
      rw [before, register_l2Headers, ← hnumber] at hp
      have hlt := h.before_lt hseen p hp
      omega
  -- numbers are not repeated, so the stored block of this number is the one seen
  | @seen seen hseen hhash =>
      intro p hp hpn
      rw [register_l2Headers] at hp
      have hnumber : seen.blockNumber = b.header.number := by simpa using List.find?_some hseen
      rw [h.eq_of_number hp (List.mem_of_find?_eq_some hseen) (hpn.trans hnumber.symm), hhash]
  | gap hlast hlt hother hupdate =>
      exact hpush _ hupdate (hbelow fun p hp => (h.le_last hlast p hp).trans_lt hlt)
  | old hlast hle hnone =>
      intro p hp hpn
      rw [register_l2Headers] at hp
      exact absurd hpn (hnone p hp)

theorem Ascending.origin (h : Ascending ctx) {header : Header}
    (hcall : ctx.newOriginL2Block header = .ok ctx') : Ascending ctx' := by
  apply h.sublist
  rw [(newOriginL2Block_pruned hcall).l2Headers]
  exact List.dropWhile_sublist _

theorem Ascending.deliver (h : Ascending ctx) {call : L2Call}
    (hcall : ctx.deliver call = .ok ctx') : Ascending ctx' := by
  cases call with
  | preconf block =>
      obtain ⟨reorged, hblock⟩ := deliver_preconf_eq_ok.mp hcall
      exact h.arrival (newPreconfL2Block_arrival hblock)
  | origin header => exact h.origin hcall

theorem ascending_new (l1SafeLag : Nat) (coinbase : Address) (now : Instant) :
    Ascending (.new l1SafeLag coinbase now) :=
  List.Pairwise.nil

end Ascending

/-! ### Blocks that become the head -/

section BecomesHead

variable {reorged : Bool}

/-- The block is the new last one. -/
def Adopts (ctx : SequencerContext) (b : Block) (ctx' : SequencerContext) : Prop :=
  ctx'.l2Headers ≠ ctx.l2Headers ∧ ∃ p, ctx'.l2Headers.getLast? = some p ∧ p.Of b

/-- The block comes with its transactions, and is above all stored blocks or
replaces one of them. -/
def BecomesHead (ctx : SequencerContext) (b : Block) : Prop :=
  b.firstTx ≠ none ∧
    ((∀ p ∈ ctx.l2Headers, p.blockNumber < b.header.number) ∨ ctx.Reorgs b)

instance (ctx : SequencerContext) (b : Block) : Decidable (ctx.BecomesHead b) :=
  inferInstanceAs (Decidable (_ ∧ (_ ∨ _)))

/-- What is stored below a number. -/
theorem Ascending.mem_before_iff (hs : Ascending ctx) {seen p : ParentParams}
    (hseen : seen ∈ ctx.l2Headers) :
    p ∈ ctx.before seen.blockNumber ↔
      p ∈ ctx.l2Headers ∧ p.blockNumber < seen.blockNumber := by
  refine ⟨fun hp => ⟨(List.takeWhile_sublist _).subset hp, hs.before_lt hseen p hp⟩, ?_⟩
  rintro ⟨hp, hlt⟩
  have hsplit := List.takeWhile_append_dropWhile
    (p := fun p : ParentParams => decide (p.blockNumber ≠ seen.blockNumber)) (l := ctx.l2Headers)
  rw [← hsplit] at hp
  rcases List.mem_append.mp hp with hp | hp
  · exact hp
  -- what stands from the block on has no lower number
  · exfalso
    cases hrest : ctx.l2Headers.dropWhile fun p => p.blockNumber ≠ seen.blockNumber with
    | nil =>
        rw [hrest] at hp
        cases hp
    | cons first rest =>
        have hfirst : first.blockNumber = seen.blockNumber := by
          have hhead := List.head?_dropWhile_not
            (fun p : ParentParams => decide (p.blockNumber ≠ seen.blockNumber)) ctx.l2Headers
          rw [hrest] at hhead
          simpa using hhead
        rw [Ascending, ← hsplit, hrest, List.pairwise_append] at hs
        rw [hrest] at hp
        rcases List.mem_cons.mp hp with rfl | hp
        · omega
        · have := (List.pairwise_cons.mp hs.2.1).1 p hp
          omega

/-- A reorg is reported for a block that takes the place of a stored one. -/
theorem Arrival.reorged_iff (hs : Ascending ctx) (harr : Arrival ctx b reorged ctx') :
    reorged = true ↔ ctx.Reorgs b := by
  cases harr with
  | first hnil hupdate =>
      refine iff_of_false (by decide) ?_
      rintro ⟨p, hp, -⟩
      rw [hnil] at hp
      cases hp
  | next hlast hnumber hparent hupdate =>
      refine iff_of_false (by decide) ?_
      rintro ⟨p, hp, hpn, -⟩
      have hle := hs.le_last hlast p hp
      omega
  | reorg hseen hnumber hhash hupdate => exact iff_of_true rfl ⟨_, hseen, hnumber, hhash⟩
  | @seen seen hseen hhash =>
      refine iff_of_false (by decide) ?_
      rintro ⟨p, hp, hpn, hne⟩
      have hnumber : seen.blockNumber = b.header.number := by simpa using List.find?_some hseen
      rw [hs.eq_of_number hp (List.mem_of_find?_eq_some hseen) (hpn.trans hnumber.symm)] at hne
      exact hne hhash
  | gap hlast hlt hother hupdate =>
      refine iff_of_false (by decide) ?_
      rintro ⟨p, hp, hpn, -⟩
      have hle := hs.le_last hlast p hp
      omega
  | old hlast hle hnone =>
      refine iff_of_false (by decide) ?_
      rintro ⟨p, hp, hpn, -⟩
      exact hnone p hp hpn

/-- **What is stored after an arrival.**  A block that becomes the head stands
behind what was stored below its number; any other leaves the stored blocks
alone, or takes away those from its number on. -/
theorem Arrival.stored (hs : Ascending ctx) (harr : Arrival ctx b reorged ctx') :
    (ctx.BecomesHead b ∧ ∃ below p, ctx'.l2Headers = below ++ [p] ∧ p.Of b ∧
        ∀ x, x ∈ below ↔ x ∈ ctx.l2Headers ∧ x.blockNumber < b.header.number) ∨
      (¬ ctx.BecomesHead b ∧ (ctx'.l2Headers = ctx.l2Headers ∨ (ctx.Reorgs b ∧
        ∀ x, x ∈ ctx'.l2Headers ↔ x ∈ ctx.l2Headers ∧ x.blockNumber < b.header.number))) := by
  -- a block above all stored ones
  have habove : (∀ p ∈ ctx.l2Headers, p.blockNumber < b.header.number) →
      (ctx.register b).updateParentBlockId b = .ok ctx' →
      (ctx.BecomesHead b ∧ ∃ below p, ctx'.l2Headers = below ++ [p] ∧ p.Of b ∧
        ∀ x, x ∈ below ↔ x ∈ ctx.l2Headers ∧ x.blockNumber < b.header.number) ∨
      (¬ ctx.BecomesHead b ∧ (ctx'.l2Headers = ctx.l2Headers ∨ (ctx.Reorgs b ∧
        ∀ x, x ∈ ctx'.l2Headers ↔ x ∈ ctx.l2Headers ∧ x.blockNumber < b.header.number))) := by
    intro hlt hupdate
    rcases updateParentBlockId_pushes hupdate with ⟨hnone, rfl⟩ | ⟨parent, id, hne, hof, rfl⟩
    · exact Or.inr ⟨fun h => h.1 hnone, Or.inl (register_l2Headers ctx b)⟩
    · refine Or.inl ⟨⟨hne, Or.inl hlt⟩, _, parent, rfl, hof, fun x => ?_⟩
      rw [register_l2Headers]
      exact ⟨fun hx => ⟨hx, hlt x hx⟩, And.left⟩
  have hkept : ¬ ctx.Reorgs b → (∃ p ∈ ctx.l2Headers, ¬ p.blockNumber < b.header.number) →
      ¬ ctx.BecomesHead b := by
    rintro hno ⟨p, hp, hge⟩ ⟨-, hlt | hreorgs⟩
    · exact hge (hlt p hp)
    · exact hno hreorgs
  have hreorgs := harr.reorged_iff hs
  cases harr with
  | first hnil hupdate =>
      refine habove (fun p hp => ?_) hupdate
      rw [hnil] at hp
      cases hp
  | next hlast hnumber hparent hupdate =>
      refine habove (fun p hp => ?_) hupdate
      have hle := hs.le_last hlast p hp
      omega
  | @reorg _ seen hseen hnumber hhash hupdate =>
      have hbefore : ∀ x, x ∈ (ctx.register b).before b.header.number ↔
          x ∈ ctx.l2Headers ∧ x.blockNumber < b.header.number := by
        intro x
        rw [before, register_l2Headers, ← hnumber]
        exact hs.mem_before_iff hseen
      rcases updateParentBlockId_pushes hupdate with ⟨hnone, rfl⟩ | ⟨parent, id, hne, hof, rfl⟩
      · exact Or.inr ⟨fun h => h.1 hnone, Or.inr ⟨hreorgs.mp rfl, hbefore⟩⟩
      · exact Or.inl ⟨⟨hne, Or.inr (hreorgs.mp rfl)⟩, _, parent, rfl, hof, hbefore⟩
  | @seen seen hseen hhash =>
      have hnumber : seen.blockNumber = b.header.number := by simpa using List.find?_some hseen
      exact Or.inr ⟨hkept (fun h => by cases hreorgs.mpr h)
        ⟨seen, List.mem_of_find?_eq_some hseen, by omega⟩, Or.inl (register_l2Headers ctx b)⟩
  | gap hlast hlt hother hupdate =>
      exact habove (fun p hp => (hs.le_last hlast p hp).trans_lt hlt) hupdate
  | old hlast hle hnone =>
      exact Or.inr ⟨hkept (fun h => by cases hreorgs.mpr h)
        ⟨_, List.mem_of_getLast? hlast, by omega⟩, Or.inl (register_l2Headers ctx b)⟩

/-- **The blocks that are adopted.** -/
theorem Arrival.adopts_iff (hs : Ascending ctx) (harr : Arrival ctx b reorged ctx') :
    Adopts ctx b ctx' ↔ ctx.BecomesHead b := by
  rcases harr.stored hs with ⟨hbecomes, below, p, hheaders, hof, hbelow⟩ | ⟨hnot, hheaders⟩
  · refine iff_of_true ⟨fun hsame => ?_, p, ?_, hof⟩ hbecomes
    · rw [hheaders] at hsame
      have hp : p ∈ ctx.l2Headers := hsame ▸ List.mem_append_right _ (List.mem_singleton_self p)
      rcases hbecomes.2 with hlt | ⟨seen, hseen, hnumber, hhash⟩
      · exact (hlt p hp).ne hof.blockNumber
      · rw [hs.eq_of_number hseen hp (hnumber.trans hof.blockNumber.symm)] at hhash
        exact hhash hof.hash
    · rw [hheaders, List.getLast?_concat]
  · refine iff_of_false ?_ hnot
    rintro ⟨hne, p, hlast, hof⟩
    rcases hheaders with hsame | ⟨-, hbelow⟩
    · exact hne hsame
    · exact ((hbelow p).mp (List.mem_of_getLast? hlast)).2.ne hof.blockNumber

end BecomesHead

/-! ### What is noted for verification -/

/-- The stored blocks are in order, and what is noted for verification is at
most the head and agrees with them. -/
structure Agrees (ctx : SequencerContext) : Prop where
  ascending : Ascending ctx
  below : ∀ (n : Nat) (own : Header), ctx.toVerify[n]? = some own →
    ∃ head, ctx.l2Headers.getLast? = some head ∧ n ≤ head.blockNumber
  sameHash : ∀ p ∈ ctx.l2Headers, ∀ own, ctx.toVerify[p.blockNumber]? = some own →
    own.hash = p.hash

/-- What is assumed of a delivery: a block has its anchor, and no confirmed
header is above the head. -/
def Delivered (ctx : SequencerContext) : L2Call → Prop
  | .preconf block => block.HasAnchor
  | .origin header => ∀ head ∈ ctx.l2Headers.getLast?, header.number ≤ head.blockNumber

instance (ctx : SequencerContext) : ∀ call, Decidable (ctx.Delivered call)
  | .preconf block => inferInstanceAs (Decidable block.HasAnchor)
  | .origin header =>
      inferInstanceAs
        (Decidable (∀ head ∈ ctx.l2Headers.getLast?, header.number ≤ head.blockNumber))

namespace Agrees

theorem le_last (h : Agrees ctx) {last : ParentParams} (hlast : ctx.l2Headers.getLast? = some last)
    {n : Nat} {own : Header} (hown : ctx.toVerify[n]? = some own) : n ≤ last.blockNumber := by
  obtain ⟨head, hhead, hle⟩ := h.below n own hown
  rw [hlast] at hhead
  cases hhead
  exact hle

/-- A new head above everything stored and noted, which is noted itself at
most with its own hash. -/
theorem push (hasc : Ascending ctx) (hlt : ∀ p ∈ ctx.l2Headers, p.blockNumber < b.header.number)
    (hkeys : ∀ (n : Nat) (own : Header), ctx.toVerify[n]? = some own → n ≤ b.header.number)
    (hsame : ∀ p ∈ ctx.l2Headers, ∀ own, ctx.toVerify[p.blockNumber]? = some own →
      own.hash = p.hash)
    (hnew : ∀ own, ctx.toVerify[b.header.number]? = some own → own.hash = b.header.hash)
    (hanchor : b.HasAnchor) (hupdate : ctx.updateParentBlockId b = .ok ctx') : Agrees ctx' := by
  have hasc' : Ascending ctx' := hasc.push hlt hupdate
  obtain ⟨tx, htx⟩ := hanchor.firstTx
  rcases updateParentBlockId_pushes hupdate with ⟨hnone, -⟩ | ⟨parent, id, -, hparent, rfl⟩
  · rw [htx] at hnone
    cases hnone
  · refine ⟨hasc', fun n own hown => ?_, fun p hp own hown => ?_⟩
    · refine ⟨parent, List.getLast?_concat, ?_⟩
      rw [hparent.blockNumber]
      exact hkeys n own hown
    · rcases List.mem_append.mp hp with hp | hp
      · exact hsame p hp own hown
      · rw [List.mem_singleton.mp hp] at hown ⊢
        rw [hparent.blockNumber] at hown
        rw [hparent.hash]
        exact hnew own hown

/-- A block that is noted but not stored, its number being at most the head's. -/
theorem register (h : Agrees ctx) {last : ParentParams}
    (hlast : ctx.l2Headers.getLast? = some last) (hle : b.header.number ≤ last.blockNumber)
    (hhash : ∀ p ∈ ctx.l2Headers, p.blockNumber = b.header.number → p.hash = b.header.hash) :
    Agrees (ctx.register b) := by
  refine ⟨h.ascending.register b, fun n own hown => ?_, fun p hp own hown => ?_⟩
  · rw [register_l2Headers]
    rw [register_toVerify] at hown
    split at hown
    · rename_i hours
      exact ⟨last, hlast, hours.2 ▸ hle⟩
    · exact h.below n own hown
  · rw [register_l2Headers] at hp
    rw [register_toVerify] at hown
    split at hown
    · rename_i hours
      cases hown
      exact (hhash p hp hours.2.symm).symm
    · exact h.sameHash p hp own hown

/-- A block that becomes the head above all others. -/
theorem extend (h : Agrees ctx) (hlt : ∀ p ∈ ctx.l2Headers, p.blockNumber < b.header.number)
    (hkeys : ∀ (n : Nat) (own : Header), ctx.toVerify[n]? = some own → n < b.header.number)
    (hanchor : b.HasAnchor) (hupdate : (ctx.register b).updateParentBlockId b = .ok ctx') :
    Agrees ctx' := by
  refine push (h.ascending.register b) ?_ (fun n own hown => ?_) (fun p hp own hown => ?_)
    (fun own hown => ?_) hanchor hupdate
  · rwa [register_l2Headers]
  · rw [register_toVerify] at hown
    split at hown
    · rename_i hours
      exact hours.2.ge
    · exact (hkeys n own hown).le
  · rw [register_l2Headers] at hp
    rw [register_toVerify, if_neg fun hours => (hlt p hp).ne' hours.2] at hown
    exact h.sameHash p hp own hown
  · rw [register_toVerify] at hown
    split at hown
    · cases hown
      rfl
    · exact absurd rfl (hkeys _ own hown).ne

theorem arrival (h : Agrees ctx) (hanchor : b.HasAnchor) {reorged : Bool}
    (harr : Arrival ctx b reorged ctx') : Agrees ctx' := by
  cases harr with
  | first hnil hupdate =>
      refine h.extend (fun p hp => ?_) (fun n own hown => ?_) hanchor hupdate
      · rw [hnil] at hp
        cases hp
      · obtain ⟨head, hhead, -⟩ := h.below n own hown
        rw [hnil] at hhead
        cases hhead
  | next hlast hnumber hparent hupdate =>
      refine h.extend (fun p hp => ?_) (fun n own hown => ?_) hanchor hupdate
      · have hle := h.ascending.le_last hlast p hp
        omega
      · have hle := h.le_last hlast hown
        omega
  | @reorg _ seen hseen hnumber hhash hupdate =>
      have hbefore : ∀ p ∈ (ctx.register b).before b.header.number,
          p.blockNumber < b.header.number := by
        rw [← hnumber]
        apply (h.ascending.register b).before_lt
        rwa [register_l2Headers]
      -- nothing from the number of the block on stays noted
      have hnoted : ∀ (n : Nat) (own : Header),
          ((ctx.register b).truncate b.header.number).toVerify[n]? = some own →
          n < b.header.number ∧ ctx.toVerify[n]? = some own := by
        intro n own hown
        simp only [SequencerContext.truncate, Std.ExtTreeMap.getElem?_filter',
          Option.filter_eq_some_iff, decide_eq_true_eq] at hown
        obtain ⟨hown, hlt⟩ := hown
        rw [register_toVerify, if_neg fun hours => hlt.ne' hours.2] at hown
        exact ⟨hlt, hown⟩
      refine push ((h.ascending.register b).truncate _) hbefore
        (fun n own hown => (hnoted n own hown).1.le) (fun p hp own hown => ?_)
        (fun own hown => ?_) hanchor hupdate
      · have hp' : p ∈ ctx.l2Headers := by
          rw [← register_l2Headers ctx b]
          exact (List.takeWhile_sublist _).subset hp
        exact h.sameHash p hp' own (hnoted _ own hown).2
      · exact absurd (hnoted _ own hown).1 (lt_irrefl _)
  | @seen seen hseen hhash =>
      have hnumber : seen.blockNumber = b.header.number := by simpa using List.find?_some hseen
      have hmem : seen ∈ ctx.l2Headers := List.mem_of_find?_eq_some hseen
      obtain ⟨last, hlast⟩ : ∃ last, ctx.l2Headers.getLast? = some last :=
        ⟨_, List.getLast?_eq_some_getLast (List.ne_nil_of_mem hmem)⟩
      refine h.register hlast ?_ fun p hp hpn => ?_
      · rw [← hnumber]
        exact h.ascending.le_last hlast seen hmem
      · rw [h.ascending.eq_of_number hp hmem (hpn.trans hnumber.symm), hhash]
  | gap hlast hlt hother hupdate =>
      refine h.extend (fun p hp => ?_) (fun n own hown => ?_) hanchor hupdate
      · exact (h.ascending.le_last hlast p hp).trans_lt hlt
      · exact (h.le_last hlast hown).trans_lt hlt
  | old hlast hle hnone =>
      exact h.register hlast hle fun p hp hpn => absurd hpn (hnone p hp)

/-- A confirmed header that is not above the head leaves the head in place. -/
theorem getLast?_dropWhile {α : Type*} {p : α → Bool} {l : List α} {last : α}
    (hlast : l.getLast? = some last) (hp : p last = false) :
    (l.dropWhile p).getLast? = some last := by
  obtain ⟨init, rfl⟩ := List.getLast?_eq_some_iff.mp hlast
  rw [List.dropWhile_append]
  split
  · simp [hp]
  · exact List.getLast?_concat

theorem origin (h : Agrees ctx) {header : Header} (hle : ctx.Delivered (.origin header))
    (hcall : ctx.newOriginL2Block header = .ok ctx') : Agrees ctx' := by
  have hpruned := newOriginL2Block_pruned hcall
  have hsub : ctx'.l2Headers.Sublist ctx.l2Headers := by
    rw [hpruned.l2Headers]
    exact List.dropWhile_sublist _
  refine ⟨h.ascending.sublist hsub, fun n own hown => ?_, fun p hp own hown => ?_⟩
  · obtain ⟨head, hhead, hn⟩ := h.below n own (hpruned.subset n own hown)
    refine ⟨head, ?_, hn⟩
    rw [hpruned.l2Headers]
    exact getLast?_dropWhile hhead (decide_eq_false (Nat.not_lt.mpr (hle head hhead)))
  · exact h.sameHash p (hsub.subset hp) own (hpruned.subset _ own hown)

theorem deliver (h : Agrees ctx) {call : L2Call} (hdelivered : ctx.Delivered call)
    (hcall : ctx.deliver call = .ok ctx') : Agrees ctx' := by
  cases call with
  | preconf block =>
      obtain ⟨reorged, hblock⟩ := deliver_preconf_eq_ok.mp hcall
      exact h.arrival hdelivered (newPreconfL2Block_arrival hblock)
  | origin header => exact h.origin hdelivered hcall

end Agrees

theorem agrees_new (l1SafeLag : Nat) (coinbase : Address) (now : Instant) :
    Agrees (.new l1SafeLag coinbase now) := by
  refine ⟨ascending_new l1SafeLag coinbase now, fun n own hown => ?_, fun p hp => ?_⟩
  · simp [new] at hown
  · cases hp

/-- **What is noted for verification agrees with the chain.**  After every
delivery of every sequence, the numbers of the stored blocks increase, every
noted number is at most the head's, and a noted block that is stored has the
stored hash. -/
theorem toVerify_agrees (l1SafeLag : Nat) (coinbase : Address) (now : Instant)
    (calls : List L2Call)
    (hdelivered : Run.Along deliver (fun ctx call _ => ctx.Delivered call)
      (.new l1SafeLag coinbase now) calls) :
    Run.Along deliver (fun _ _ r => ∀ ctx', r = .ok ctx' → Agrees ctx')
      (.new l1SafeLag coinbase now) calls :=
  Run.Along.mono_of_invariant Agrees (fun _ _ h hd _ hcall => h.deliver hd hcall)
    (fun _ _ _ h hd hcall => h.deliver hd hcall) calls (agrees_new l1SafeLag coinbase now)
    hdelivered

section Sample

/-- A block with its anchor. -/
def sampleL2Block (number hash parentHash : Nat) (beneficiary : Address) : Block :=
  ⟨⟨number, hash, parentHash, 0, beneficiary, 0, 0⟩,
    .full [⟨goldenTouchAddress, ⟨0, 0, 0, .anchorV3 default, []⟩⟩]⟩

/-- Ours is 7.  Block 11 is replaced, one block is missed, block 10 arrives
again, and then block 11 is confirmed. -/
def sampleCalls : List L2Call :=
  [ .preconf (sampleL2Block 10 10 9 7), .preconf (sampleL2Block 11 11 10 7),
    .preconf (sampleL2Block 11 21 10 8), .preconf (sampleL2Block 13 23 22 7),
    .preconf (sampleL2Block 10 10 9 7), .origin ⟨11, 21, 10, 0, 8, 0, 0⟩ ]

/-- Five arrivals of different kinds and a confirmed header. -/
theorem toVerify_agrees_sample :
    Run.Along deliver (fun _ _ r => ∀ ctx', r = .ok ctx' → Agrees ctx') (.new 1 7 0) sampleCalls ∧
      (sampleCalls.foldlM deliver (.new 1 7 0)).toOption.map
        (fun ctx => ctx.l2Headers.map (·.hash)) = some [21, 23] :=
  ⟨toVerify_agrees 1 7 0 sampleCalls (by decide +kernel), by decide +kernel⟩

end Sample

end SequencerContext

end TaikoGateway
