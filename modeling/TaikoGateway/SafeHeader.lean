/-
TaikoGateway/SafeHeader.lean

The next anchor is taken from the L1 header with the lowest number that is
kept, which should be at least `l1_safe_lag` below the header received last.

The kept headers are a window over what was received (`Windowed`), whatever
the order.  The lag is kept exactly while the header that far below the last
one is in the window (`safeL1Header_iff`); `l1_safe_lag` headers are enough to
start, which is one too few (`unsafe_anchor_header`).
-/
import TaikoGateway.Chains
import TaikoGateway.Lib.Window

namespace TaikoGateway

open Window (window)

/-! ### The window of L1 headers -/

/-- The kept headers are the window over these. -/
structure SequencerContext.Windowed (lag : Nat) (hs : List Header) (ctx : SequencerContext) :
    Prop where
  l1SafeLag : ctx.l1SafeLag = lag
  l1Headers : ctx.l1Headers = window lag (fun h : Header => h.number) hs

namespace SequencerContext.Windowed

variable {lag : Nat} {hs : List Header} {ctx ctx' : SequencerContext}

theorem newL1Block (h : Windowed lag hs ctx) {header : Header} (hlag : lag ≤ header.number)
    (now : Instant) : Windowed lag (hs ++ [header]) (ctx.newL1Block header now) := by
  refine ⟨h.l1SafeLag, ?_⟩
  rw [Window.window_concat, ← h.l1Headers]
  simp only [SequencerContext.newL1Block, Window.push, h.l1SafeLag, u64Sub_of_le hlag]

theorem newL1Blocks (h : Windowed lag hs ctx) (headers : List Header)
    (hlag : ∀ header ∈ headers, lag ≤ header.number) (now : Instant) :
    Windowed lag (hs ++ headers)
      (headers.foldl (fun (ctx : SequencerContext) h => ctx.newL1Block h now) ctx) := by
  induction headers generalizing hs ctx with
  | nil =>
      rw [List.append_nil]
      exact h
  | cons header headers ih =>
      have hfirst := h.newL1Block (hlag header List.mem_cons_self) now
      have hrest := ih hfirst fun h hh => hlag h (List.mem_cons_of_mem _ hh)
      rw [List.append_assoc] at hrest
      exact hrest

theorem chains (h : Windowed lag hs ctx) (hsame : SameChains ctx ctx') : Windowed lag hs ctx' :=
  ⟨hsame.l1SafeLag.trans h.l1SafeLag, hsame.l1Headers.trans h.l1Headers⟩

/-- L2 blocks leave the L1 headers alone. -/
theorem preconf (h : Windowed lag hs ctx) {block : Block} {reorged : Bool}
    (hcall : ctx.newPreconfL2Block block = .ok (reorged, ctx')) : Windowed lag hs ctx' := by
  obtain ⟨l2Headers, toVerify, id, rfl, -⟩ := newPreconfL2Block_cases hcall
  exact ⟨h.l1SafeLag, h.l1Headers⟩

theorem origin (h : Windowed lag hs ctx) {header : Header}
    (hcall : ctx.newOriginL2Block header = .ok ctx') : Windowed lag hs ctx' := by
  obtain ⟨l2Headers, toVerify, rfl, -⟩ := newOriginL2Block_cases hcall
  exact ⟨h.l1SafeLag, h.l1Headers⟩

end SequencerContext.Windowed

namespace Sequencer

open SequencerContext (Windowed)

variable {env : Env} {lag : Nat} {hs : List Header} {s s' t : Sequencer}

theorem windowed_recvBlocks (h : Windowed lag hs s.ctx) {i : RecvInput}
    (hlag : ∀ header ∈ i.l1Blocks, lag ≤ header.number) (hrecv : s.recvBlocks i = .ok s') :
    Windowed lag (hs ++ i.l1Blocks) s'.ctx := by
  obtain ⟨t, ctx, hl2, horigin, rfl⟩ := recvBlocks_eq_ok hrecv
  have ht : Windowed lag (hs ++ i.l1Blocks) t.ctx := by
    refine Run.run_invariant (fun t : Sequencer => Windowed lag (hs ++ i.l1Blocks) t.ctx) i.l2Blocks
      (fun block _ u u' hu hblock => ?_) (h.newL1Blocks i.l1Blocks hlag i.now) hl2
    obtain ⟨reorged, ctx', hcall, rfl, -⟩ := recvL2Block_eq_ok hblock
    exact hu.preconf hcall
  exact Run.run_invariant (Windowed lag (hs ++ i.l1Blocks)) i.originBlocks
    (fun header _ c c' hc hcall => hc.origin hcall) ht horigin

theorem windowed_ticked (h : Windowed lag hs s.ctx) {i : Input}
    (hlag : ∀ header ∈ i.tick.recv.l1Blocks, lag ≤ header.number) (ht : s.ticked env i = some t) :
    Windowed lag (hs ++ i.tick.recv.l1Blocks) t.ctx := by
  simp only [ticked] at ht
  split at ht
  · obtain ⟨r, hrecv, hsame⟩ := tick_chains (Except.toOption_eq_some_iff.mp ht)
    have hloop : Windowed lag hs { s with looping := true }.ctx := h
    exact (windowed_recvBlocks hloop hlag hrecv).chains hsame
  · cases ht

theorem windowed_iteration (h : Windowed lag hs s.ctx) {i : Input}
    (hlag : ∀ header ∈ i.tick.recv.l1Blocks, lag ≤ header.number)
    (hdone : s.iteration env i = .ok s') : Windowed lag (hs ++ i.tick.recv.l1Blocks) s'.ctx := by
  rcases iteration_cases hdone with ⟨t, ht, htrans⟩ | ⟨hnone, -⟩
  · have hw := windowed_ticked h hlag ht
    rcases htrans.chains with hsame | ⟨sd, block, reorged, ctx, -, -, -, -, hcall, hsame⟩
    · exact hw.chains hsame
    · have hw' : Windowed lag (hs ++ i.tick.recv.l1Blocks) t.takeState.ctx := ⟨hw.1, hw.2⟩
      exact (hw'.preconf hcall).chains hsame
  · exact windowed_recvBlocks h hlag (iteration_of_not_ticked hdone hnone).2

/-! ### Runs -/

/-- The L1 headers that arrive in these turns. -/
def deliveredL1 (is : List Input) : List Header := is.flatMap fun i => i.tick.recv.l1Blocks

theorem windowed_of_run {lookahead : LookaheadHandle} {now : Instant} {is : List Input}
    (hrun : is.foldlM (iteration env) (.new env lookahead now) = .ok s)
    (hlag : ∀ header ∈ deliveredL1 is, env.config.l1SafeLag ≤ header.number) :
    Windowed env.config.l1SafeLag (deliveredL1 is) s.ctx := by
  induction is using List.reverseRecOn generalizing s with
  | nil =>
      obtain rfl : Sequencer.new env lookahead now = s := by simpa [pure, Except.pure] using hrun
      exact ⟨rfl, rfl⟩
  | append_singleton is i ih =>
      rw [List.foldlM_append] at hrun
      obtain ⟨u, hinit, hlast⟩ := Except.bind_eq_ok_iff.mp hrun
      have hlast : u.iteration env i = .ok s := by simpa using hlast
      have hsplit : deliveredL1 (is ++ [i]) = deliveredL1 is ++ i.tick.recv.l1Blocks := by
        simp [deliveredL1]
      rw [hsplit] at hlag ⊢
      have hu := ih hinit fun header hh => hlag header (List.mem_append_left _ hh)
      exact windowed_iteration hu (fun header hh => hlag header (List.mem_append_right _ hh)) hlast

/-- The states of the runs with the L1 headers received so far: while a turn
reads them, and when it has ticked, which it does once the sequencer is
ready. -/
inductive Heard (env : Env) (lookahead : LookaheadHandle) (now : Instant) :
    List Header → Sequencer → Prop
  | reading {is : List Input} {s : Sequencer} {i : Input} {pre post : List Header}
      (hrun : is.foldlM (iteration env) (.new env lookahead now) = .ok s)
      (hread : i.tick.recv.l1Blocks = pre ++ post) :
      Heard env lookahead now (deliveredL1 is ++ pre)
        (s.recvL1Blocks { i.tick.recv with l1Blocks := pre })
  | ticked {is : List Input} {s t : Sequencer} {i : Input}
      (hrun : is.foldlM (iteration env) (.new env lookahead now) = .ok s)
      (htick : s.ticked env i = some t) :
      Heard env lookahead now (deliveredL1 is ++ i.tick.recv.l1Blocks) t

theorem Heard.windowed {lookahead : LookaheadHandle} {now : Instant}
    (h : Heard env lookahead now hs s)
    (hlag : ∀ header ∈ hs, env.config.l1SafeLag ≤ header.number) :
    Windowed env.config.l1SafeLag hs s.ctx := by
  cases h with
  | @reading is s i pre post hrun hread =>
      have hs := windowed_of_run hrun fun header hh => hlag header (List.mem_append_left _ hh)
      exact hs.newL1Blocks pre (fun header hh => hlag header (List.mem_append_right _ hh)) _
  | ticked hrun htick =>
      have hs := windowed_of_run hrun fun header hh => hlag header (List.mem_append_left _ hh)
      exact windowed_ticked hs (fun header hh => hlag header (List.mem_append_right _ hh)) htick

/-- The safe header is at least `lag` below `latest`. -/
def SafelyBelow (lag : Nat) (latest : Header) (s : Sequencer) : Prop :=
  ∃ safe, s.ctx.safeL1Header = some safe ∧ safe.number + lag ≤ latest.number

/-- A header exactly `lag` below the last one was received, and since then
none above the last one. -/
def LagReceived (lag : Nat) (hs : List Header) (latest : Header) : Prop :=
  ∃ pre header post, hs = pre ++ header :: post ∧ header.number + lag = latest.number ∧
    ∀ h ∈ post, h.number ≤ latest.number

theorem kept_iff_lagReceived {latest : Header} (hlag : lag ≤ latest.number) :
    Window.Kept lag (hs.map fun h => h.number) (latest.number - lag) ↔
      LagReceived lag hs latest := by
  constructor
  · rintro ⟨pre, post, heq, hpost⟩
    obtain ⟨pre', rest, rfl, rfl, hrest⟩ := List.map_eq_append_iff.mp heq
    obtain ⟨header, post', rfl, hheader, rfl⟩ := List.map_eq_cons_iff.mp hrest
    refine ⟨pre', header, post', rfl, by omega, fun h hh => ?_⟩
    have hle := hpost h.number (List.mem_map_of_mem hh)
    omega
  · rintro ⟨pre, header, post, rfl, hnumber, hpost⟩
    refine ⟨pre.map fun h => h.number, post.map fun h => h.number, ?_, fun n hn => ?_⟩
    · rw [List.map_append, List.map_cons, ← hnumber, Nat.add_sub_cancel]
    · obtain ⟨h, hh, rfl⟩ := List.mem_map.mp hn
      have hle := hpost h hh
      omega

/-- **The safe header.**  In every run, whatever L1 headers were received, the
safe header is at least the lag below the last one exactly when the header
that far below it was received, and since then none above it. -/
theorem safeL1Header_iff (env : Env) (lookahead : LookaheadHandle) (now : Instant)
    (hs : List Header) (latest : Header) (s : Sequencer)
    (hheard : Heard env lookahead now (hs ++ [latest]) s)
    (hlag : ∀ header ∈ hs ++ [latest], env.config.l1SafeLag ≤ header.number) :
    SafelyBelow env.config.l1SafeLag latest s ↔
      LagReceived env.config.l1SafeLag (hs ++ [latest]) latest := by
  have hlast := hlag latest (List.mem_append_right _ List.mem_cons_self)
  have hwindowed := hheard.windowed hlag
  rw [← kept_iff_lagReceived hlast]
  have holdest : s.ctx.safeL1Header = Window.oldest s.ctx.l1Headers := rfl
  rw [SafelyBelow, holdest, hwindowed.l1Headers]
  exact Window.oldest_le_iff hlast

section Sample

open Sample

/-- Blocks 99 and 100 of L1, and block 10 of L2. -/
def fullWindow : Input := receiving [l1Header 99, l1Header 100] [block 10 10 9 0 90] (turn 0 50)

/-- With a lag of one both are needed, and both were received. -/
theorem safeL1Header_iff_sample :
    ∃ s, Heard Sample.env Sample.lookahead 0 [l1Header 99, l1Header 100] s ∧
      (SafelyBelow 1 (l1Header 100) s ↔
        LagReceived 1 [l1Header 99, l1Header 100] (l1Header 100)) := by
  have hheard := @Heard.reading Sample.env Sample.lookahead 0 [] Sample.start fullWindow
    [l1Header 99, l1Header 100] [] rfl rfl
  exact ⟨_, hheard, safeL1Header_iff Sample.env Sample.lookahead 0 [l1Header 99] (l1Header 100) _
    hheard (by decide)⟩

/-- One header is enough to be ready, and becomes the anchor. -/
theorem unsafe_anchor_header :
    ∃ s t, [receiving [l1Header 100] [block 10 10 9 0 90] (turn 0 50)].foldlM
        (iteration Sample.env) Sample.start = .ok s ∧ s.isReady Sample.env = true ∧
      s.ticked Sample.env (turn 100 50) = some t ∧
      Heard Sample.env Sample.lookahead 0 [l1Header 100] t ∧
      t.ctx.anchor.map (·.blockId) = some 100 ∧
      ¬ SafelyBelow Sample.env.config.l1SafeLag (l1Header 100) t := by
  have hready : ([receiving [l1Header 100] [block 10 10 9 0 90] (turn 0 50)].foldlM
      (iteration Sample.env) Sample.start).toOption.map
      (fun s => (s.isReady Sample.env, (s.ticked Sample.env (turn 100 50)).map fun t =>
        (t.ctx.anchor.map (·.blockId), t.ctx.safeL1Header.map (·.number)))) =
      some (true, some (some 100, some 100)) := by decide +kernel
  obtain ⟨s, hrun, hs⟩ := Option.map_eq_some_iff.mp hready
  obtain ⟨hisReady, hticked⟩ := Prod.mk.inj hs
  obtain ⟨t, htick, ht⟩ := Option.map_eq_some_iff.mp hticked
  obtain ⟨hanchor, hsafe⟩ := Prod.mk.inj ht
  have hrun := Except.toOption_eq_some_iff.mp hrun
  refine ⟨s, t, hrun, hisReady, htick, .ticked hrun htick, hanchor, ?_⟩
  rintro ⟨safe, hsome, hle⟩
  rw [hsome] at hsafe
  have hnumber : safe.number = 100 := Option.some.inj hsafe
  rw [hnumber] at hle
  exact absurd hle (by decide)

end Sample

end Sequencer
end TaikoGateway
