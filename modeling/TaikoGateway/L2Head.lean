/-
TaikoGateway/L2Head.lean

The head of the L2 chain in the sequencer loop.  Once there is a head there
should always be one; a confirmed header above all stored blocks, or a block
without transactions in place of the first one, leaves none (`headKept_iff`,
`overtaken_head`).
-/
import TaikoGateway.L2Chain
import TaikoGateway.Aborts
import TaikoGateway.Batches

namespace TaikoGateway
namespace Sequencer

open Relation (ReflTransGen)
open SequencerContext (Arrival Ascending)

variable {env : Env}

/-! ### Stored blocks in the loop -/

theorem ascending_congr {ctx ctx' : SequencerContext} (h : Ascending ctx)
    (heq : ctx'.l2Headers = ctx.l2Headers) : Ascending ctx' := by
  rw [Ascending, heq]
  exact h

theorem ascending_tickStep {i : TickInput} {s s' : Sequencer} (h : TickStep env i s s')
    (hs : s.ctx.Ascending) : s'.ctx.Ascending := by
  rcases h.l2 with hsame | ⟨block, reorged, -, hcall⟩ | ⟨header, hcall⟩
  · exact ascending_congr hs hsame
  · exact hs.arrival (SequencerContext.newPreconfL2Block_arrival hcall)
  · exact hs.origin hcall

theorem ascending_transition {i : TransitionInput} {s s' : Sequencer} (hs : s.ctx.Ascending)
    (h : Transition env i s s') : s'.ctx.Ascending := by
  rcases h.chains with hsame | ⟨sd, block, reorged, ctx, -, -, -, -, hcall, hsame⟩
  · exact ascending_congr hs hsame.l2Headers
  · have hs' : Ascending s.takeState.ctx := hs
    exact ascending_congr (hs'.arrival (SequencerContext.newPreconfL2Block_arrival hcall))
      hsame.l2Headers

end Sequencer

/-! ### The head is kept -/

namespace SequencerContext

variable {ctx ctx' : SequencerContext}

/-- A confirmed header is not above the head, and a block that takes the place
of the first stored one comes with its transactions. -/
def KeepsHead (ctx : SequencerContext) : L2Call → Prop
  | .origin header => ∀ head ∈ ctx.l2Headers.getLast?, header.number ≤ head.blockNumber
  | .preconf block => ∀ first ∈ ctx.l2Headers.head?, first.blockNumber = block.header.number →
      first.hash ≠ block.header.hash → block.firstTx ≠ none

theorem updateParentBlockId_ne_nil {b : Block} (h : ctx.updateParentBlockId b = .ok ctx')
    (hne : ctx.l2Headers ≠ []) : ctx'.l2Headers ≠ [] := by
  rcases updateParentBlockId_pushes h with ⟨-, rfl⟩ | ⟨parent, id, -, -, rfl⟩
  · exact hne
  · exact List.append_ne_nil_of_right_ne_nil _ (List.cons_ne_nil _ _)

/-- Nothing is before a number when the first block has it. -/
theorem before_eq_nil_iff {first : ParentParams} {rest : List ParentParams}
    (hheaders : ctx.l2Headers = first :: rest) (number : Nat) :
    ctx.before number = [] ↔ first.blockNumber = number := by
  rw [before, hheaders, List.takeWhile_cons]
  split
  · rename_i hne
    simpa using hne
  · rename_i heq
    simpa using heq

theorem Arrival.keepsHead_iff {b : Block} {reorged : Bool} (hs : Ascending ctx)
    (harr : Arrival ctx b reorged ctx') :
    (ctx.l2Headers ≠ [] → ctx'.l2Headers ≠ []) ↔ ctx.KeepsHead (.preconf b) := by
  -- where nothing stored is replaced both sides hold
  have hkept : (ctx.l2Headers ≠ [] → ctx'.l2Headers ≠ []) →
      (∀ p ∈ ctx.l2Headers, p.blockNumber = b.header.number → p.hash = b.header.hash) →
      ((ctx.l2Headers ≠ [] → ctx'.l2Headers ≠ []) ↔ ctx.KeepsHead (.preconf b)) := by
    intro hne hsame
    apply iff_of_true hne
    intro first hfirst hnumber hhash
    exact absurd (hsame first (List.mem_of_mem_head? hfirst) hnumber) hhash
  have hregister : ctx.l2Headers ≠ [] → (ctx.register b).l2Headers ≠ [] := by
    rw [register_l2Headers]
    exact id
  cases harr with
  | first hnil hupdate =>
      apply hkept (fun hne => absurd hnil hne)
      intro p hp
      rw [hnil] at hp
      cases hp
  | next hlast hnumber hparent hupdate =>
      refine hkept (fun hne => updateParentBlockId_ne_nil hupdate (hregister hne))
        fun p hp hpn => ?_
      have hle := hs.le_last hlast p hp
      omega
  | @reorg _ seen hseen hnumber hhash hupdate =>
      obtain ⟨first, rest, hheaders⟩ := List.exists_cons_of_ne_nil (List.ne_nil_of_mem hseen)
      have hfirst : first ∈ ctx.l2Headers := by
        rw [hheaders]
        exact List.mem_cons_self
      have hbefore : (ctx.register b).before b.header.number = [] ↔
          first.blockNumber = b.header.number :=
        before_eq_nil_iff ((register_l2Headers ctx b).trans hheaders) b.header.number
      rcases updateParentBlockId_pushes hupdate with ⟨hnone, rfl⟩ | ⟨parent, id, hsome, -, rfl⟩
      · constructor
        · intro hne first' hfirst' hfirstNumber
          rw [hheaders] at hfirst'
          cases hfirst'
          exact absurd (hbefore.mpr hfirstNumber) (hne (List.ne_nil_of_mem hfirst))
        · intro hkeeps _ hnil
          have hfirstNumber := hbefore.mp hnil
          have heq : first = seen := hs.eq_of_number hfirst hseen (hfirstNumber.trans hnumber.symm)
          refine hkeeps first ?_ hfirstNumber (heq ▸ hhash) hnone
          rw [hheaders]
          rfl
      · exact iff_of_true (fun _ => List.append_ne_nil_of_right_ne_nil _ (List.cons_ne_nil _ _))
          fun _ _ _ _ => hsome
  | @seen seen hseen hhash =>
      have hnumber : seen.blockNumber = b.header.number := by simpa using List.find?_some hseen
      apply hkept hregister
      intro p hp hpn
      rw [hs.eq_of_number hp (List.mem_of_find?_eq_some hseen) (hpn.trans hnumber.symm), hhash]
  | gap hlast hlt hother hupdate =>
      refine hkept (fun hne => updateParentBlockId_ne_nil hupdate (hregister hne))
        fun p hp hpn => ?_
      have hle := hs.le_last hlast p hp
      omega
  | old hlast hle hnone => exact hkept hregister fun p hp hpn => absurd hpn (hnone p hp)

theorem Pruned.keepsHead_iff {header : Header} (hs : Ascending ctx) (h : Pruned ctx header ctx') :
    (ctx.l2Headers ≠ [] → ctx'.l2Headers ≠ []) ↔ ctx.KeepsHead (.origin header) := by
  rw [h.l2Headers]
  constructor
  · intro hne head hhead
    by_contra hlt
    have hmem : head ∈ ctx.l2Headers := List.mem_of_getLast? hhead
    refine hne (List.ne_nil_of_mem hmem) (List.dropWhile_eq_nil_iff.mpr fun p hp => ?_)
    have hle := hs.le_last hhead p hp
    simp only [decide_eq_true_eq]
    omega
  · intro hkeeps hne hnil
    have hlast := List.getLast?_eq_some_getLast hne
    have hall := List.dropWhile_eq_nil_iff.mp hnil _ (List.mem_of_getLast? hlast)
    exact absurd (of_decide_eq_true hall) (Nat.not_lt.mpr (hkeeps _ hlast))

/-- **A delivery keeps the head** exactly when `KeepsHead` holds. -/
theorem keepsHead_iff {call : L2Call} (hs : Ascending ctx) (h : ctx.deliver call = .ok ctx') :
    (ctx.l2Headers ≠ [] → ctx'.l2Headers ≠ []) ↔ ctx.KeepsHead call := by
  cases call with
  | preconf block =>
      obtain ⟨reorged, hblock⟩ := deliver_preconf_eq_ok.mp h
      exact (newPreconfL2Block_arrival hblock).keepsHead_iff hs
  | origin header => exact (newOriginL2Block_pruned h).keepsHead_iff hs

end SequencerContext

namespace Sequencer

open Relation (ReflTransGen)
open SequencerContext (Ascending KeepsHead)

/-- `s` as it is when a turn starts to read the channels. -/
def entered (env : Env) (s : Sequencer) : Sequencer :=
  if s.looping || s.isReady env then { s with looping := true } else s

/-- The deliveries of a turn, each with the context it meets: L2 blocks, then
confirmed headers, and at the end the block that was sealed. -/
inductive Delivers (env : Env) (s : Sequencer) (i : Input) : SequencerContext → L2Call → Prop
  | l2Block {pre post : List Block} {block : Block} {t : Sequencer}
      (hblocks : i.tick.recv.l2Blocks = pre ++ block :: post)
      (hpre : pre.foldlM recvL2Block ((s.entered env).recvL1Blocks i.tick.recv) = .ok t) :
      Delivers env s i t.ctx (.preconf block)
  | originBlock {pre post : List Header} {header : Header} {t : Sequencer} {ctx : SequencerContext}
      (hheaders : i.tick.recv.originBlocks = pre ++ header :: post)
      (hl2 : i.tick.recv.l2Blocks.foldlM recvL2Block
        ((s.entered env).recvL1Blocks i.tick.recv) = .ok t)
      (hpre : pre.foldlM SequencerContext.newOriginL2Block t.ctx = .ok ctx) :
      Delivers env s i ctx (.origin header)
  | sealed {t : Sequencer} {sd : SortData} {block : Block} (htick : s.ticked env i = some t)
      (hstate : t.ctx.state = .sorting sd) (hdiscard : sd.shouldDiscard = false)
      (hseal : sd.shouldSeal i.transition.sealNow = true)
      (hanswer : sealAnswer i.transition sd.stateId = .ok block) :
      Delivers env s i t.takeState.ctx (.preconf block)

/-- The deliveries of the turn that do not abort keep the head. -/
def DeliveriesKeepHead (env : Env) (s : Sequencer) (i : Input) : Prop :=
  ∀ ctx call ctx', Delivers env s i ctx call → ctx.deliver call = .ok ctx' → ctx.KeepsHead call

/-- Where there is a head one is left after each delivery, after the tick and
at the end of the turn, and the turn does not abort for want of one. -/
structure HeadKept (env : Env) (s : Sequencer) (i : Input) (r : Except Panic Sequencer) : Prop where
  deliveries : ∀ ctx call ctx', Delivers env s i ctx call → ctx.deliver call = .ok ctx' →
    ctx.l2Headers ≠ [] → ctx'.l2Headers ≠ []
  reached : s.ctx.l2Headers ≠ [] → TurnReaches env (fun t => t.ctx.l2Headers ≠ []) s i r
  parent : r ≠ .error .l2HeadersEmpty

section Turn

variable {s s' t : Sequencer} {i : Input}

theorem entered_l2Headers (env : Env) (s : Sequencer) :
    (s.entered env).ctx.l2Headers = s.ctx.l2Headers := by
  unfold entered
  split <;> rfl

theorem entered_txPool (env : Env) (s : Sequencer) : (s.entered env).txPool = s.txPool := by
  unfold entered
  split <;> rfl

/-- A turn without a tick only receives. -/
theorem iteration_of_entered (h : s.iteration env i = .ok s') (hnone : s.ticked env i = none) :
    (s.entered env).recvBlocks i.tick.recv = .ok s' := by
  obtain ⟨hready, hrecv⟩ := iteration_of_not_ticked h hnone
  rwa [entered, hready]

/-! ### Invariants that ask something of the L2 blocks -/

/-- The tick without its L2 blocks. -/
def rest (i : Input) : TickInput := { i.tick with recv := { i.tick.recv with l2Blocks := [] } }

/-- The L2 block arrives in this turn, and meets the state `t`. -/
def Receives (env : Env) (s : Sequencer) (i : Input) (t : Sequencer) (block : Block) : Prop :=
  ∃ pre post, i.tick.recv.l2Blocks = pre ++ block :: post ∧
    pre.foldlM recvL2Block ((s.entered env).recvL1Blocks i.tick.recv) = .ok t

/-- What holds of every L2 block of the turn, by a walk over them. -/
theorem receives_iff {P : Sequencer → Block → Prop} :
    Run.Along recvL2Block (fun t block _ => P t block)
        ((s.entered env).recvL1Blocks i.tick.recv) i.tick.recv.l2Blocks ↔
      ∀ t block, Receives env s i t block → P t block := by
  rw [Run.along_iff_forall_at]
  constructor
  · rintro h t block ⟨pre, post, hblocks, hpre⟩
    exact h pre block post t hblocks hpre
  · intro h pre block post t hblocks hpre
    exact h t block ⟨pre, post, hblocks, hpre⟩

theorem Receives.delivers {block : Block} (h : Receives env s i t block) :
    Delivers env s i t.ctx (.preconf block) := by
  obtain ⟨pre, post, hblocks, hpre⟩ := h
  exact .l2Block hblocks hpre

section Keeps

variable (Inv : Sequencer → Prop)
  (hstep : ∀ {t t'}, TickStep env (rest i) t t' → Inv t → Inv t')
  (hrecv : ∀ {t block t'}, Receives env s i t block → t.recvL2Block block = .ok t' → Inv t → Inv t')

include hstep in
theorem chain_rest_keeps (ht : Inv t) (h : ReflTransGen (TickStep env (rest i)) t s') : Inv s' := by
  induction h with
  | refl => exact ht
  | tail _ hlast ih => exact hstep hlast ih

include hstep hrecv

/-- After some of the L2 blocks. -/
theorem received_keeps (hs : Inv s) {pre post : List Block}
    (hblocks : i.tick.recv.l2Blocks = pre ++ post)
    (hpre : pre.foldlM recvL2Block ((s.entered env).recvL1Blocks i.tick.recv) = .ok t) : Inv t := by
  refine Run.run_invariant_at Inv ?_ pre (fun before block after u u' heq hrun hblock hu => ?_) hpre
  · have hentered : Inv (s.entered env) := by
      unfold entered
      split
      · exact hstep (.quiet s.txPool s.lookahead s.previousSkipReason s.timings true s.flags id) hs
      · exact hs
    exact chain_rest_keeps Inv hstep hentered (l1Blocks_chain i.tick.recv.l1Blocks (s.entered env))
  · refine hrecv ⟨before, after ++ post, ?_, hrun⟩ hblock hu
    rw [hblocks, heq, List.append_assoc]
    rfl

/-- Where one of them arrives. -/
theorem Receives.keeps {block : Block} (hblock : Receives env s i t block) (hs : Inv s) :
    Inv t := by
  obtain ⟨pre, post, hblocks, hpre⟩ := hblock
  exact received_keeps Inv hstep hrecv hs hblocks hpre

theorem recvBlocks_keeps (hs : Inv s) (h : (s.entered env).recvBlocks i.tick.recv = .ok t) :
    Inv t := by
  obtain ⟨u, ctx, hl2, horigin, rfl⟩ := recvBlocks_eq_ok h
  have hu : Inv u := received_keeps Inv hstep hrecv hs (List.append_nil _).symm hl2
  exact chain_rest_keeps Inv hstep hu (originBlocks_chain i.tick.recv.originBlocks horigin)

theorem ticked_keeps (hs : Inv s) (h : s.ticked env i = some t) : Inv t := by
  simp only [ticked] at h
  split at h
  · rename_i hready
    obtain ⟨u, hblocks, hrest⟩ := tick_behind (rest i).recv (Except.toOption_eq_some_iff.mp h)
    have hentered : s.entered env = { s with looping := true } := if_pos hready
    exact chain_rest_keeps Inv hstep
      (recvBlocks_keeps Inv hstep hrecv hs (hentered.symm ▸ hblocks)) hrest
  · cases h

/-- **The rule for invariants of a turn** that are kept by an L2 block under a
condition on the state it meets. -/
theorem turn_keeps
    (htrans : ∀ {t s'}, s.ticked env i = some t → Inv t → Transition env i.transition t s' → Inv s')
    (hs : Inv s) (h : s.iteration env i = .ok s') : Inv s' := by
  rcases iteration_cases h with ⟨t, htick, ht⟩ | ⟨hnone, -⟩
  · exact htrans htick (ticked_keeps Inv hstep hrecv hs htick) ht
  · exact recvBlocks_keeps Inv hstep hrecv hs (iteration_of_entered h hnone)

end Keeps

/-- Receiving blocks changes only the context. -/
theorem recvBlocks_looping {i : RecvInput} (h : s.recvBlocks i = .ok s') :
    s'.looping = s.looping := by
  obtain ⟨t, ctx, hl2, -, rfl⟩ := recvBlocks_eq_ok h
  refine Run.run_invariant (fun t => t.looping = s.looping) i.l2Blocks
    (fun block _ u u' hu hrecv => ?_) rfl hl2
  obtain ⟨reorged, ctx', -, rfl, -⟩ := recvL2Block_eq_ok hrecv
  exact hu

/-- The context a delivery meets is in order. -/
theorem Delivers.ascending {ctx : SequencerContext} {call : L2Call} (hs : s.ctx.Ascending)
    (h : Delivers env s i ctx call) : ctx.Ascending := by
  have hl2 : ∀ (blocks : List Block) (t : Sequencer),
      blocks.foldlM recvL2Block ((s.entered env).recvL1Blocks i.tick.recv) = .ok t →
      t.ctx.Ascending := by
    intro blocks t hrun
    refine Run.run_invariant (fun t : Sequencer => t.ctx.Ascending) blocks
      (fun block _ u u' hu hrecv => ?_) ?_ hrun
    · obtain ⟨reorged, ctx', hctx', rfl, -⟩ := recvL2Block_eq_ok hrecv
      exact hu.arrival (SequencerContext.newPreconfL2Block_arrival hctx')
    · exact ascending_congr hs ((recvL1Blocks_l2Headers ..).trans (entered_l2Headers ..))
  cases h with
  | l2Block hblocks hpre => exact hl2 _ _ hpre
  | @originBlock pre post header t ctx hheaders hrun hpre =>
      refine Run.run_invariant Ascending pre (fun header _ c c' hc hcall => ?_) (hl2 _ _ hrun) hpre
      exact hc.origin hcall
  | sealed htick hstate hdiscard hseal hanswer =>
      have ht := chain_keeps (fun u : Sequencer => u.ctx.Ascending) ascending_tickStep hs
        (ticked_chain htick)
      exact ht

/-- With the condition, receiving blocks leaves a head. -/
theorem recvBlocks_ne_nil (hs : s.ctx.Ascending) (hkeeps : DeliveriesKeepHead env s i)
    (h : (s.entered env).recvBlocks i.tick.recv = .ok s') (hne : s.ctx.l2Headers ≠ []) :
    s'.ctx.l2Headers ≠ [] := by
  obtain ⟨t, ctx, hl2, horigin, rfl⟩ := recvBlocks_eq_ok h
  have hkept : ∀ c call c', Delivers env s i c call → c.deliver call = .ok c' →
      c.l2Headers ≠ [] → c'.l2Headers ≠ [] := fun c call c' hdelivers hcall =>
    (SequencerContext.keepsHead_iff (hdelivers.ascending hs) hcall).mpr
      (hkeeps c call c' hdelivers hcall)
  have ht : t.ctx.l2Headers ≠ [] := by
    refine Run.run_invariant_at (fun t : Sequencer => t.ctx.l2Headers ≠ []) ?_ _
      (fun pre block post u u' hblocks hpre hrecv hu => ?_) hl2
    · rwa [recvL1Blocks_l2Headers, entered_l2Headers]
    · obtain ⟨reorged, c, hcall, rfl, -⟩ := recvL2Block_eq_ok hrecv
      exact hkept u.ctx _ c (.l2Block hblocks hpre)
        (SequencerContext.deliver_preconf_eq_ok.mpr ⟨reorged, hcall⟩) hu
  exact Run.run_invariant_at (fun c : SequencerContext => c.l2Headers ≠ []) ht _
    (fun pre header post c c' hheaders hpre hcall hc =>
      hkept c (.origin header) c' (.originBlock hheaders hl2 hpre) hcall hc) horigin

theorem isReady_ne_nil (h : s.isReady env = true) : s.ctx.l2Headers ≠ [] := by
  simp only [isReady, Bool.and_eq_true] at h
  intro hnil
  rw [hnil] at h
  exact absurd h.2 (by decide)

theorem ticked_ne_nil (hs : s.ctx.Ascending) (hkeeps : DeliveriesKeepHead env s i)
    (h : s.ticked env i = some t) (hne : s.ctx.l2Headers ≠ []) : t.ctx.l2Headers ≠ [] := by
  simp only [ticked] at h
  split at h
  · rename_i hready
    obtain ⟨r, hrecv, hsame⟩ := tick_chains (Except.toOption_eq_some_iff.mp h)
    rw [hsame.l2Headers]
    refine recvBlocks_ne_nil hs hkeeps ?_ hne
    rw [entered, if_pos hready]
    exact hrecv
  · cases h

theorem iteration_ne_nil (hs : s.ctx.Ascending) (hkeeps : DeliveriesKeepHead env s i)
    (h : s.iteration env i = .ok s') (hne : s.ctx.l2Headers ≠ []) : s'.ctx.l2Headers ≠ [] := by
  rcases iteration_cases h with ⟨t, ht, htrans⟩ | ⟨hnone, -⟩
  · have htne := ticked_ne_nil hs hkeeps ht hne
    rcases htrans.chains with
      hsame | ⟨sd, block, reorged, ctx, hstate, hdiscard, hseal, hanswer, hcall, hsame⟩
    · rwa [hsame.l2Headers]
    · rw [hsame.l2Headers]
      have hdelivers : Delivers env s i t.takeState.ctx (.preconf block) :=
        .sealed ht hstate hdiscard hseal hanswer
      have hdeliver := SequencerContext.deliver_preconf_eq_ok.mpr ⟨reorged, hcall⟩
      exact (SequencerContext.keepsHead_iff (hdelivers.ascending hs) hdeliver).mpr
        (hkeeps _ _ _ hdelivers hdeliver) htne
  · exact recvBlocks_ne_nil hs hkeeps (iteration_of_entered h hnone) hne

/-- The order of the stored blocks, and a head once the loop runs. -/
structure HeadInv (s : Sequencer) : Prop where
  ascending : s.ctx.Ascending
  head : s.looping = true → s.ctx.l2Headers ≠ []

theorem HeadInv.entered_ne_nil (hs : HeadInv s) (h : (s.looping || s.isReady env) = true) :
    s.ctx.l2Headers ≠ [] := by
  rcases Bool.or_eq_true_iff.mp h with hlooping | hready
  · exact hs.head hlooping
  · exact isReady_ne_nil hready

/-- With a head after `recv_blocks` and after the tick, none is missed. -/
theorem HeadInv.not_l2HeadersEmpty (hs : HeadInv s) (hkeeps : DeliveriesKeepHead env s i) :
    s.iteration env i ≠ .error .l2HeadersEmpty := by
  intro h
  simp only [iteration] at h
  split at h
  · rename_i hready
    have hne := hs.entered_ne_nil hready
    rcases Except.bind_eq_error_iff.mp h with h | ⟨t, htick, h⟩
    · refine @tick_abortsIn {p | p ≠ .l2HeadersEmpty} env { s with looping := true }
        (fun p _ hp => hp) i.tick (fun t ht hnil => absurd hnil ?_) _ h rfl
      refine recvBlocks_ne_nil hs.ascending hkeeps ?_ hne
      rwa [entered, if_pos hready]
    · have ht : s.ticked env i = some t := by
        rw [ticked, if_pos hready, htick]
        rfl
      rcases @transition_abortsIn {p | p ≠ .l2HeadersEmpty} env i.transition t _
        (fun p _ hp _ => hp) (fun hnil => absurd hnil (ticked_ne_nil hs.ascending hkeeps ht hne))
        (fun sd _ => SortData.maybeSimNextBatch_abortsIn (by decide) (by decide) _ sd _) h with
        hne | ⟨_, _, _, _, -, -, -, hfee⟩ | ⟨sd, block, -, -, hacc⟩
      · exact hne rfl
      · simp only [computeNextBaseFee] at hfee
        split at hfee <;> cases hfee
      · rcases accumulate_aborts hacc with hp | ⟨hp, -⟩ | ⟨hp, -⟩ <;> cases hp
  · exact @recvBlocks_abortsIn {p | p ≠ .l2HeadersEmpty} s (fun p _ hp => hp) i.tick.recv _ h rfl

theorem HeadInv.kept_iff (hs : HeadInv s) :
    DeliveriesKeepHead env s i ↔ HeadKept env s i (s.iteration env i) := by
  constructor
  · intro hkeeps
    refine ⟨fun ctx call ctx' hdelivers hcall => ?_, fun hne => ⟨fun t ht => ?_, fun s' h => ?_⟩,
      hs.not_l2HeadersEmpty hkeeps⟩
    · exact (SequencerContext.keepsHead_iff (hdelivers.ascending hs.ascending) hcall).mpr
        (hkeeps ctx call ctx' hdelivers hcall)
    · exact ticked_ne_nil hs.ascending hkeeps ht hne
    · exact iteration_ne_nil hs.ascending hkeeps h hne
  · intro hkept ctx call ctx' hdelivers hcall
    exact (SequencerContext.keepsHead_iff (hdelivers.ascending hs.ascending) hcall).mp
      (hkept.deliveries ctx call ctx' hdelivers hcall)

theorem HeadInv.iteration (hs : HeadInv s) (hkeeps : DeliveriesKeepHead env s i)
    (h : s.iteration env i = .ok s') : HeadInv s' := by
  refine ⟨?_, fun hlooping => ?_⟩
  · exact iteration_keeps (fun s : Sequencer => s.ctx.Ascending) ascending_tickStep
      (fun _ ht htrans => ascending_transition ht htrans) hs.ascending h
  · by_cases hready : (s.looping || s.isReady env) = true
    · exact iteration_ne_nil hs.ascending hkeeps h (hs.entered_ne_nil hready)
    · rw [Sequencer.iteration, if_neg hready] at h
      rw [recvBlocks_looping h] at hlooping
      rw [hlooping] at hready
      exact absurd rfl hready

end Turn

/-- **There is always a head.**  Along a run the head is kept by every
delivery, and no turn aborts for want of one, exactly when no confirmed header
is above the head, and no block without transactions takes the place of the
first stored one. -/
theorem headKept_iff (env : Env) (lookahead : LookaheadHandle) (now : Instant) (is : List Input) :
    Run.Along (iteration env) (fun s i _ => DeliveriesKeepHead env s i)
        (.new env lookahead now) is ↔
      Run.Along (iteration env) (HeadKept env) (.new env lookahead now) is := by
  refine Run.Along.congr_of_invariant HeadInv (fun s i hs => hs.kept_iff)
    (fun s i s' hs hkeeps h => hs.iteration hkeeps h) is ⟨?_, fun h => ?_⟩
  · exact SequencerContext.ascending_new env.config.l1SafeLag env.config.coinbaseAddress now
  · cases h

section Sample

open Sample

/-- Block 12 is confirmed before it arrives. -/
def overtakingTurn : Input :=
  { turn 100 50 with
    tick := { (turn 100 50).tick with recv := ⟨[], [], [⟨12, 12, 11, 0, 7, 0, 0⟩], 100⟩ } }

/-- Block 10 is stored; the confirmed header leaves no block, and `fetch_txs`
has no parent. -/
theorem overtaken_head :
    ∃ s, [receiving [l1Header 100] [block 10 10 9 0 90] (turn 0 50)].foldlM
        (iteration Sample.env) Sample.start = .ok s ∧
      s.ctx.l2Headers.map (·.blockNumber) = [10] ∧
      s.iteration Sample.env overtakingTurn = .error .l2HeadersEmpty := by
  have hstored : ([receiving [l1Header 100] [block 10 10 9 0 90] (turn 0 50)].foldlM
      (iteration Sample.env) Sample.start).toOption.map
      (fun s => (s.ctx.l2Headers.map (·.blockNumber),
        (s.iteration Sample.env overtakingTurn).abort)) = some ([10], some .l2HeadersEmpty) := by
    decide +kernel
  obtain ⟨s, hrun, hs⟩ := Option.map_eq_some_iff.mp hstored
  obtain ⟨hnumbers, habort⟩ := Prod.mk.inj hs
  exact ⟨s, Except.toOption_eq_some_iff.mp hrun, hnumbers, Except.abort_eq_some_iff.mp habort⟩

end Sample

end Sequencer
end TaikoGateway
