/-
TaikoGateway/Verification.lean

Every block of ours on the local chain is checked against the block that is
derived from L1: until a header of at least its number is confirmed, it is
noted for verification (`Registered`).

A block is noted before its arrival is classified, and a reorg afterwards
drops everything noted from its number on, the new block included.  So the
property holds along a run exactly when no block of ours replaces a stored one
above all confirmed numbers (`registered_iff`); `own_reorg_unverified` is a
run where one does.
-/
import TaikoGateway.L2Chain

namespace TaikoGateway

/-- The context, and the numbers of the headers confirmed so far. -/
structure L2History where
  ctx : SequencerContext
  origins : List Nat

namespace L2History

def step (x : L2History) (call : L2Call) : Except Panic L2History := do
  let ctx ← x.ctx.deliver call
  match call with
  | .preconf _ => .ok { x with ctx := ctx }
  | .origin header => .ok { ctx := ctx, origins := header.number :: x.origins }

variable {x x' : L2History}

theorem step_preconf_eq_ok {block : Block} :
    x.step (.preconf block) = .ok x' ↔
      ∃ reorged ctx, x.ctx.newPreconfL2Block block = .ok (reorged, ctx) ∧
        x' = { x with ctx := ctx } := by
  simp only [step, Except.bind_eq_ok_iff, SequencerContext.deliver_preconf_eq_ok]
  constructor
  · rintro ⟨ctx, ⟨reorged, h⟩, hok⟩
    cases hok
    exact ⟨reorged, ctx, h, rfl⟩
  · rintro ⟨reorged, ctx, h, rfl⟩
    exact ⟨ctx, ⟨reorged, h⟩, rfl⟩

theorem step_origin_eq_ok {header : Header} (h : x.step (.origin header) = .ok x') :
    x.ctx.newOriginL2Block header = .ok x'.ctx ∧ x'.origins = header.number :: x.origins := by
  obtain ⟨ctx, hctx, hok⟩ := Except.bind_eq_ok_iff.mp h
  cases hok
  exact ⟨hctx, rfl⟩

/-- Every stored block of ours above all confirmed headers is noted for
verification, with its hash. -/
def Registered (x : L2History) : Prop :=
  ∀ p ∈ x.ctx.l2Headers, p.beneficiary = x.ctx.coinbase → (∀ o ∈ x.origins, o < p.blockNumber) →
    ∃ own, x.ctx.toVerify[p.blockNumber]? = some own ∧ own.hash = p.hash

/-- A block of ours that is taken in place of a stored one has a number that
is confirmed already. -/
def OwnReorgsConfirmed (x : L2History) (call : L2Call) (r : Except Panic L2History) : Prop :=
  ∀ block x', call = .preconf block → r = .ok x' → block.header.beneficiary = x.ctx.coinbase →
    x.ctx.Reorgs block → ∃ o ∈ x.origins, block.header.number ≤ o

/-- The blocks of the run come with their anchors. -/
def Anchored (call : L2Call) : Prop := ∀ block, call = .preconf block → block.HasAnchor

/-- Numbers increase, and our blocks are noted. -/
structure Inv (x : L2History) : Prop where
  ascending : x.ctx.Ascending
  registered : x.Registered

open SequencerContext

/-- A block that becomes the head above all stored ones is noted if it is
ours. -/
theorem Registered.extend {ctx' : SequencerContext} {block : Block} (h : x.Registered)
    (hlt : ∀ p ∈ x.ctx.l2Headers, p.blockNumber < block.header.number)
    (hupdate : (x.ctx.register block).updateParentBlockId block = .ok ctx') :
    Registered { x with ctx := ctx' } := by
  have hold : ∀ p ∈ x.ctx.l2Headers, p.beneficiary = x.ctx.coinbase →
      (∀ o ∈ x.origins, o < p.blockNumber) →
      ∃ own, (x.ctx.register block).toVerify[p.blockNumber]? = some own ∧ own.hash = p.hash := by
    intro p hp hours habove
    rw [register_toVerify, if_neg fun heq => (hlt p hp).ne' heq.2]
    exact h p hp hours habove
  rcases updateParentBlockId_pushes hupdate with ⟨-, rfl⟩ | ⟨parent, id, -, hparent, rfl⟩
  · intro p hp hours habove
    rw [register_l2Headers] at hp
    rw [register_coinbase] at hours
    exact hold p hp hours habove
  · intro p hp hours habove
    simp only [register_l2Headers, register_coinbase] at hp hours
    rcases List.mem_append.mp hp with hp | hp
    · exact hold p hp hours habove
    · rw [List.mem_singleton.mp hp] at hours ⊢
      rw [hparent.beneficiary] at hours
      refine ⟨block.header, ?_, hparent.hash.symm⟩
      rw [hparent.blockNumber]
      exact (register_toVerify ..).trans (if_pos ⟨hours, rfl⟩)

/-- Noting a block that is stored with its hash, or not at all, changes
nothing. -/
theorem Registered.register {block : Block} (h : x.Registered)
    (hhash : ∀ p ∈ x.ctx.l2Headers, p.blockNumber = block.header.number →
      p.hash = block.header.hash) :
    Registered { x with ctx := x.ctx.register block } := by
  intro p hp hours habove
  simp only [register_l2Headers, register_coinbase] at hp hours
  show ∃ own, (x.ctx.register block).toVerify[p.blockNumber]? = some own ∧ own.hash = p.hash
  rw [register_toVerify]
  split
  · rename_i heq
    exact ⟨block.header, rfl, (hhash p hp heq.2.symm).symm⟩
  · exact h p hp hours habove

/-- After a reorg the blocks before the new one are noted as they were. -/
theorem truncate_toVerify {block : Block} {n : Nat} (hlt : n < block.header.number) :
    ((x.ctx.register block).truncate block.header.number).toVerify[n]? = x.ctx.toVerify[n]? := by
  simp only [truncate, Std.ExtTreeMap.getElem?_filter', register_toVerify]
  rw [if_neg fun heq => hlt.ne' heq.2]
  cases x.ctx.toVerify[n]? with
  | none => rfl
  | some own => simp [Option.filter, hlt]

theorem Inv.preconf {ctx' : SequencerContext} {block : Block} {reorged : Bool} (hx : x.Inv)
    (hours : block.header.beneficiary = x.ctx.coinbase → x.ctx.Reorgs block →
      ∃ o ∈ x.origins, block.header.number ≤ o)
    (harr : Arrival x.ctx block reorged ctx') : Inv { x with ctx := ctx' } := by
  refine ⟨hx.ascending.arrival harr, ?_⟩
  cases harr with
  | first hnil hupdate =>
      refine hx.registered.extend (fun p hp => ?_) hupdate
      rw [hnil] at hp
      cases hp
  | next hlast hnumber hparent hupdate =>
      refine hx.registered.extend (fun p hp => ?_) hupdate
      have hle := hx.ascending.le_last hlast p hp
      omega
  | @reorg _ seen hseen hnumber hhash hupdate =>
      have hbefore : ∀ p ∈ (x.ctx.register block).before block.header.number,
          p.blockNumber < block.header.number := by
        rw [← hnumber]
        apply (hx.ascending.register block).before_lt
        rwa [register_l2Headers]
      have hold : ∀ p ∈ (x.ctx.register block).before block.header.number,
          p.beneficiary = x.ctx.coinbase → (∀ o ∈ x.origins, o < p.blockNumber) →
          ∃ own, ((x.ctx.register block).truncate
            block.header.number).toVerify[p.blockNumber]? = some own ∧ own.hash = p.hash := by
        intro p hp hbeneficiary habove
        rw [truncate_toVerify (hbefore p hp)]
        have hp' : p ∈ x.ctx.l2Headers := by
          rw [← register_l2Headers x.ctx block]
          exact (List.takeWhile_sublist _).subset hp
        exact hx.registered p hp' hbeneficiary habove
      rcases updateParentBlockId_pushes hupdate with ⟨-, rfl⟩ | ⟨parent, id, -, hparent, rfl⟩
      · intro p hp hbeneficiary habove
        exact hold p hp (hbeneficiary.trans (register_coinbase ..)) habove
      · intro p hp hbeneficiary habove
        rcases List.mem_append.mp hp with hp | hp
        · exact hold p hp (hbeneficiary.trans (register_coinbase ..)) habove
        · -- the new block is not noted, but it is not above the confirmed ones either
          rw [List.mem_singleton.mp hp] at hbeneficiary habove
          have hown : block.header.beneficiary = x.ctx.coinbase :=
            hparent.beneficiary.symm.trans (hbeneficiary.trans (register_coinbase ..))
          obtain ⟨o, ho, hle⟩ := hours hown ⟨seen, hseen, hnumber, hhash⟩
          have hlt := habove o ho
          rw [hparent.blockNumber] at hlt
          exact absurd hle (Nat.not_le.mpr hlt)
  | @seen seen hseen hhash =>
      apply hx.registered.register
      intro p hp hpn
      have hnumber : seen.blockNumber = block.header.number := by simpa using List.find?_some hseen
      rw [hx.ascending.eq_of_number hp (List.mem_of_find?_eq_some hseen) (hpn.trans hnumber.symm),
        hhash]
  | gap hlast hlt hother hupdate =>
      exact hx.registered.extend (fun p hp => (hx.ascending.le_last hlast p hp).trans_lt hlt)
        hupdate
  | old hlast hle hnone =>
      exact hx.registered.register fun p hp hpn => absurd hpn (hnone p hp)

theorem Inv.origin {header : Header} (hx : x.Inv) (h : x.step (.origin header) = .ok x') :
    x'.Inv := by
  obtain ⟨hcall, horigins⟩ := step_origin_eq_ok h
  have hpruned := newOriginL2Block_pruned hcall
  refine ⟨hx.ascending.origin hcall, fun p hp hours habove => ?_⟩
  have hp' : p ∈ x.ctx.l2Headers := by
    rw [hpruned.l2Headers] at hp
    exact (List.dropWhile_sublist _).subset hp
  rw [horigins] at habove
  rw [hpruned.coinbase] at hours
  obtain ⟨own, hown, hhash⟩ := hx.registered p hp' hours fun o ho =>
    habove o (List.mem_cons_of_mem _ ho)
  exact ⟨own, hpruned.above _ own (habove _ List.mem_cons_self) hown, hhash⟩

theorem Inv.step {call : L2Call} (hx : x.Inv) (hours : OwnReorgsConfirmed x call (x.step call))
    (h : x.step call = .ok x') : x'.Inv := by
  cases call with
  | preconf block =>
      obtain ⟨reorged, ctx, hcall, rfl⟩ := step_preconf_eq_ok.mp h
      exact hx.preconf (hours block _ rfl h) (newPreconfL2Block_arrival hcall)
  | origin header => exact hx.origin h

/-- A reorg by a block of ours leaves it stored and not noted. -/
theorem Inv.ownReorgsConfirmed {call : L2Call} (hx : x.Inv) (hanchored : Anchored call)
    (h : ∀ x', x.step call = .ok x' → x'.Registered) :
    OwnReorgsConfirmed x call (x.step call) := by
  rintro block x' rfl hok hours ⟨q, hq, hqn, hqhash⟩
  have hregistered : x'.Registered := h x' hok
  obtain ⟨reorged, ctx, hcall, rfl⟩ := step_preconf_eq_ok.mp hok
  obtain ⟨tx, htx⟩ := (hanchored block rfl).firstTx
  cases newPreconfL2Block_arrival hcall with
  | first hnil hupdate =>
      rw [hnil] at hq
      cases hq
  | next hlast hnumber hparent hupdate =>
      have hle := hx.ascending.le_last hlast q hq
      omega
  | reorg hseen hnumber hhash hupdate =>
      rcases updateParentBlockId_pushes hupdate with ⟨hnone, -⟩ | ⟨parent, id, -, hparent, rfl⟩
      · rw [htx] at hnone
        cases hnone
      -- the pushed block is ours and the truncation has just removed its entry
      · by_contra hconfirmed
        push Not at hconfirmed
        have hbeneficiary : parent.beneficiary = (x.ctx.register block).coinbase := by
          rw [register_coinbase, hparent.beneficiary, hours]
        obtain ⟨own, hown, -⟩ := hregistered parent (List.mem_append_right _ List.mem_cons_self)
          hbeneficiary fun o ho => hparent.blockNumber ▸ hconfirmed o ho
        rw [hparent.blockNumber] at hown
        simp only [truncate, Std.ExtTreeMap.getElem?_filter', Option.filter_eq_some_iff,
          decide_eq_true_eq] at hown
        exact absurd hown.2 (lt_irrefl _)
  | @seen seen hseen hhash =>
      have hnumber : seen.blockNumber = block.header.number := by simpa using List.find?_some hseen
      rw [hx.ascending.eq_of_number hq (List.mem_of_find?_eq_some hseen) (hqn.trans hnumber.symm)]
        at hqhash
      exact absurd hhash hqhash
  | gap hlast hlt hother hupdate =>
      have hle := hx.ascending.le_last hlast q hq
      omega
  | old hlast hle hnone => exact absurd hqn (hnone q hq)

/-- Nothing delivered yet. -/
def start (l1SafeLag : Nat) (coinbase : Address) (now : Instant) : L2History :=
  ⟨.new l1SafeLag coinbase now, []⟩

/-- **Our blocks are verified.**  Along a sequence of deliveries, every stored
block of ours above all confirmed headers is noted for verification, exactly
when no block of ours above the confirmed headers is taken in place of a stored
one. -/
theorem registered_iff (l1SafeLag : Nat) (coinbase : Address) (now : Instant)
    (calls : List L2Call) (hanchored : ∀ call ∈ calls, Anchored call) :
    Run.Along step OwnReorgsConfirmed (start l1SafeLag coinbase now) calls ↔
      Run.Along step (fun _ _ r => ∀ x', r = .ok x' → x'.Registered)
        (start l1SafeLag coinbase now) calls := by
  refine Run.Along.congr_of_assumed Inv Anchored (fun x call hx hcall => ?_)
    (fun x call x' hx _ hours h => hx.step hours h) calls ?_ hanchored
  · constructor
    · exact fun hours x' h => (hx.step hours h).registered
    · exact hx.ownReorgsConfirmed hcall
  · exact ⟨ascending_new l1SafeLag coinbase now, fun p hp => by cases hp⟩

section Sample

/-- Ours is 7.  Block 11 of another gateway is replaced by ours. -/
def ownReorgCalls : List L2Call :=
  [ .preconf (sampleL2Block 10 10 9 8), .preconf (sampleL2Block 11 11 10 8),
    .preconf (sampleL2Block 11 21 10 7) ]

/-- The deliveries of these calls. -/
theorem registered_iff_sample :
    Run.Along step OwnReorgsConfirmed (start 1 7 0) ownReorgCalls ↔
      Run.Along step (fun _ _ r => ∀ x', r = .ok x' → x'.Registered) (start 1 7 0)
        ownReorgCalls := by
  apply registered_iff 1 7 0 ownReorgCalls
  intro call hcall block hblock
  simp only [ownReorgCalls, List.mem_cons, List.not_mem_nil, or_false] at hcall
  rcases hcall with rfl | rfl | rfl <;> cases hblock <;> decide

/-- Our block 11 is the head, nothing is confirmed, and it is not noted. -/
theorem own_reorg_unverified :
    ∃ x p, ownReorgCalls.foldlM step (start 1 7 0) = .ok x ∧ p ∈ x.ctx.l2Headers ∧
      p.beneficiary = x.ctx.coinbase ∧ p.hash = 21 ∧ x.origins = [] ∧ ¬ x.Registered := by
  have h : (ownReorgCalls.foldlM step (start 1 7 0)).toOption.map
      (fun x => (x.ctx.l2Headers.map fun p => (p.blockNumber, p.hash, p.beneficiary),
        x.ctx.coinbase, x.origins, x.ctx.toVerify.toList.length)) =
      some ([(10, 10, 8), (11, 21, 7)], 7, [], 0) := by decide +kernel
  obtain ⟨x, hrun, hx⟩ := Option.map_eq_some_iff.mp h
  simp only [Prod.mk.injEq] at hx
  obtain ⟨hheaders, hcoinbase, horigins, hnoted⟩ := hx
  obtain ⟨p, hp, hpeq⟩ : ∃ p ∈ x.ctx.l2Headers,
      (p.blockNumber, p.hash, p.beneficiary) = (11, 21, 7) := by
    apply List.mem_map.mp
    rw [hheaders]
    decide
  simp only [Prod.mk.injEq] at hpeq
  obtain ⟨hnumber, hhash, hbeneficiary⟩ := hpeq
  refine ⟨x, p, Except.toOption_eq_some_iff.mp hrun, hp, hbeneficiary.trans hcoinbase.symm, hhash,
    horigins, fun hregistered => ?_⟩
  obtain ⟨own, hown, -⟩ := hregistered p hp (hbeneficiary.trans hcoinbase.symm) (by
    rw [horigins]
    exact fun o ho => by cases ho)
  have hmem := Std.ExtTreeMap.mem_toList_iff_getElem?_eq_some.mpr hown
  rw [List.length_eq_zero_iff.mp hnoted] at hmem
  cases hmem

end Sample

end L2History

end TaikoGateway
