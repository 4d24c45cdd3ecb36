/-
TaikoGateway/OriginFetch.lean

The fetch of confirmed blocks (`run_origin_fetch`).  `fetch_origin_blocks`
stores the head origin of the node, then polls it, and sends the headers of the
blocks that each new origin adds.  An RPC error abandons what it is doing, and
it starts again by storing the head origin anew.

A `step` is one RPC and what follows up to the next one.  `covered_iff` says
when every block above the first stored origin is sent, `skipped_blocks` is a
run in which an error loses two blocks.
-/
import TaikoGateway.Types
import TaikoGateway.Lib.Run

namespace TaikoGateway

/-! ### The node -/

structure L1Origin where
  blockId : Nat
  deriving DecidableEq, Repr

/-- What ends the task: a block id that is no `u64`. -/
inductive FetchPanic
  | blockIdTooLarge
  deriving DecidableEq, Repr

def L1Origin.blockNumber (o : L1Origin) : Except FetchPanic Nat :=
  if o.blockId < 2 ^ 64 then .ok o.blockId else .error .blockIdTooLarge

/-- The answers of the node at one time; a block may be missing. -/
structure Rpc where
  headL1Origin : Except String L1Origin
  getBlockByNumber : Nat → Except String (Option Header)

/-! ### The task -/

/-- The RPC that comes next. -/
inductive FetchPhase
  /-- the head origin, at the start of `fetch_origin_blocks` -/
  | starting
  /-- the head origin, in its loop -/
  | polling
  /-- a block of `fetch_last_headers`, which is at `i` -/
  | fetching (i endBlock : Nat)
  deriving DecidableEq, Repr

/-- `firstOrigin` is the first value that was stored; nothing reads it. -/
structure OriginFetch where
  l2Origin : Nat
  phase : FetchPhase
  firstOrigin : Option Nat
  /-- the headers sent to the sequencer, with the number that was asked for -/
  sent : List (Nat × Header)
  deriving DecidableEq, Repr

namespace OriginFetch

def new : OriginFetch := ⟨0, .starting, none, []⟩

/-- After an error, and a while, `fetch_origin_blocks` is called again. -/
def retry (s : OriginFetch) : OriginFetch := { s with phase := .starting }

def storeOrigin (s : OriginFetch) (rpc : Rpc) : Except FetchPanic OriginFetch :=
  match rpc.headL1Origin with
  | .error _ => .ok s.retry
  | .ok origin => do
      let l2NewOrigin ← origin.blockNumber
      .ok { s with
        l2Origin := l2NewOrigin
        phase := .polling
        firstOrigin := some (s.firstOrigin.getD l2NewOrigin) }

def pollOrigin (s : OriginFetch) (rpc : Rpc) : Except FetchPanic OriginFetch :=
  match rpc.headL1Origin with
  | .error _ => .ok s.retry
  | .ok origin => do
      let l2NewOrigin ← origin.blockNumber
      let last := s.l2Origin
      .ok { s with
        l2Origin := l2NewOrigin
        -- fetch all the proposed blocks
        phase := if last < l2NewOrigin then .fetching (last + 1) l2NewOrigin else .polling }

/-- One block of `fetch_last_headers`. -/
def fetchHeader (s : OriginFetch) (i endBlock : Nat) (rpc : Rpc) : OriginFetch :=
  match rpc.getBlockByNumber i with
  | .ok (some header) =>
      { s with
        sent := s.sent ++ [(i, header)]
        phase := if i < endBlock then .fetching (i + 1) endBlock else .polling }
  | _ => s.retry

def step (s : OriginFetch) (rpc : Rpc) : Except FetchPanic OriginFetch :=
  match s.phase with
  | .starting => s.storeOrigin rpc
  | .polling => s.pollOrigin rpc
  | .fetching i endBlock => .ok (s.fetchHeader i endBlock rpc)

/-! ### Coverage -/

/-- The blocks that were sent. -/
def sentNumbers (s : OriginFetch) : Set Nat := { n | ∃ header, (n, header) ∈ s.sent }

/-- The blocks of the fetch in progress that have not been asked for. -/
def inProgress (s : OriginFetch) : Set Nat :=
  match s.phase with
  | .fetching i endBlock => Set.Icc i endBlock
  | _ => ∅

/-- Every block above the first stored origin, up to the last one, was sent or
is being fetched. -/
def Covered (s : OriginFetch) : Prop :=
  ∀ first, s.firstOrigin = some first →
    Set.Ioc first s.l2Origin ⊆ s.sentNumbers ∪ s.inProgress

/-- The highest of the first stored origin and the blocks that were sent. -/
def reached (s : OriginFetch) : Nat :=
  max (s.firstOrigin.getD 0) ((s.sent.map Prod.fst).toFinset.sup id)

/-- A fetch may fail, and `fetch_origin_blocks` start again, only while the
origin is not above the blocks that were sent. -/
def Lossless (s : OriginFetch) (rpc : Rpc) (_ : Except FetchPanic OriginFetch) : Prop :=
  match s.phase with
  | .starting =>
      ∀ first origin n, s.firstOrigin = some first → rpc.headL1Origin = .ok origin →
        origin.blockNumber = .ok n → n ≤ s.reached
  | .polling => True
  | .fetching i endBlock =>
      (∃ header, rpc.getBlockByNumber i = .ok (some header)) ∨ endBlock ≤ s.reached

variable {s s' : OriginFetch} {rpc : Rpc} {first : Nat}

/-! ### One step -/

/-- What a step can do. -/
inductive Step (rpc : Rpc) (s : OriginFetch) : OriginFetch → Prop
  | originFailed (hphase : s.phase = .starting ∨ s.phase = .polling) : Step rpc s s.retry
  | stored {origin : L1Origin} {n : Nat} (hphase : s.phase = .starting)
      (hanswer : rpc.headL1Origin = .ok origin) (hn : origin.blockNumber = .ok n) :
      Step rpc s { s with
        l2Origin := n, phase := .polling, firstOrigin := some (s.firstOrigin.getD n) }
  | unchanged {n : Nat} (hphase : s.phase = .polling) (hle : n ≤ s.l2Origin) :
      Step rpc s { s with l2Origin := n, phase := .polling }
  | added {n : Nat} (hphase : s.phase = .polling) (hlt : s.l2Origin < n) :
      Step rpc s { s with l2Origin := n, phase := .fetching (s.l2Origin + 1) n }
  | headerFailed {i endBlock : Nat} (hphase : s.phase = .fetching i endBlock)
      (hfailed : ∀ header, rpc.getBlockByNumber i ≠ .ok (some header)) : Step rpc s s.retry
  | sent {i endBlock : Nat} (header : Header) (hphase : s.phase = .fetching i endBlock)
      (hanswer : rpc.getBlockByNumber i = .ok (some header)) :
      Step rpc s { s with
        sent := s.sent ++ [(i, header)]
        phase := if i < endBlock then .fetching (i + 1) endBlock else .polling }

theorem storeOrigin_cases (hphase : s.phase = .starting) (h : s.storeOrigin rpc = .ok s') :
    Step rpc s s' := by
  simp only [storeOrigin] at h
  split at h
  · cases h
    exact .originFailed (Or.inl hphase)
  · rename_i origin hanswer
    obtain ⟨n, hn, hok⟩ := Except.bind_eq_ok_iff.mp h
    cases hok
    exact .stored hphase hanswer hn

theorem pollOrigin_cases (hphase : s.phase = .polling) (h : s.pollOrigin rpc = .ok s') :
    Step rpc s s' := by
  simp only [pollOrigin] at h
  split at h
  · cases h
    exact .originFailed (Or.inr hphase)
  · obtain ⟨n, -, hok⟩ := Except.bind_eq_ok_iff.mp h
    split at hok
    · rename_i hlt
      cases hok
      exact .added hphase hlt
    · rename_i hlt
      cases hok
      exact .unchanged hphase (Nat.le_of_not_lt hlt)

theorem fetchHeader_cases {i endBlock : Nat} (hphase : s.phase = .fetching i endBlock) :
    Step rpc s (s.fetchHeader i endBlock rpc) := by
  simp only [fetchHeader]
  split
  · rename_i header hanswer
    exact .sent header hphase hanswer
  · rename_i hfailed
    exact .headerFailed hphase hfailed

theorem step_cases (h : s.step rpc = .ok s') : Step rpc s s' := by
  cases hphase : s.phase with
  | starting =>
      simp only [step, hphase] at h
      exact storeOrigin_cases hphase h
  | polling =>
      simp only [step, hphase] at h
      exact pollOrigin_cases hphase h
  | fetching i endBlock =>
      simp only [step, hphase] at h
      cases h
      exact fetchHeader_cases hphase

/-! ### The blocks that were sent -/

theorem le_reached {n : Nat} (h : n ∈ s.sentNumbers) : n ≤ s.reached := by
  obtain ⟨header, hmem⟩ := h
  have hn : n ∈ (s.sent.map Prod.fst).toFinset :=
    List.mem_toFinset.mpr (List.mem_map.mpr ⟨_, hmem, rfl⟩)
  exact le_max_of_le_right (Finset.le_sup (f := id) hn)

theorem first_le_reached (h : s.firstOrigin = some first) : first ≤ s.reached := by
  simp [reached, h]

theorem sentNumbers_send (i : Nat) (header : Header) (phase : FetchPhase) :
    sentNumbers { s with sent := s.sent ++ [(i, header)], phase := phase } =
      insert i s.sentNumbers := by
  ext n
  simp only [sentNumbers, Set.mem_ofPred_eq, Set.mem_insert_iff, List.mem_append,
    List.mem_singleton, Prod.mk.injEq]
  constructor
  · rintro ⟨header', hmem | ⟨rfl, -⟩⟩
    · exact Or.inr ⟨header', hmem⟩
    · exact Or.inl rfl
  · rintro (rfl | ⟨header', hmem⟩)
    · exact ⟨header, Or.inr ⟨rfl, rfl⟩⟩
    · exact ⟨header', Or.inl hmem⟩

theorem reached_send (i : Nat) (header : Header) (phase : FetchPhase) :
    reached { s with sent := s.sent ++ [(i, header)], phase := phase } = max s.reached i := by
  simp only [reached, List.map_append, List.map_cons, List.map_nil, List.toFinset_append,
    Finset.sup_union, max_assoc]
  simp

/-! ### Keeping the coverage -/

/-- Where the coverage stands: the sent blocks have no gap, and the next one to
be sent leaves none.  While no fetch is in progress all blocks of the last
origin have been sent. -/
structure FetchInv (s : OriginFetch) (first : Nat) : Prop where
  started : s.firstOrigin = some first
  filled : Set.Ioc first s.reached ⊆ s.sentNumbers
  idle : s.inProgress = ∅ → s.l2Origin ≤ s.reached
  busy : ∀ i endBlock, s.phase = .fetching i endBlock →
    i ≤ endBlock ∧ endBlock = s.l2Origin ∧ i ≤ s.reached + 1

theorem FetchInv.covered (h : FetchInv s first) : s.Covered := by
  intro first' hfirst n hn
  obtain rfl : first = first' := Option.some.inj (h.started.symm.trans hfirst)
  by_cases hle : n ≤ s.reached
  · exact Or.inl (h.filled ⟨hn.1, hle⟩)
  · -- then a fetch is in progress, and it has not got to `n`
    right
    cases hphase : s.phase with
    | starting =>
        have hidle := h.idle (by simp [inProgress, hphase])
        exact absurd (hn.2.trans hidle) hle
    | polling =>
        have hidle := h.idle (by simp [inProgress, hphase])
        exact absurd (hn.2.trans hidle) hle
    | fetching i endBlock =>
        obtain ⟨-, hend, hnext⟩ := h.busy i endBlock hphase
        have hrange : n ∈ Set.Icc i endBlock := ⟨by omega, hend ▸ hn.2⟩
        simpa only [inProgress, hphase] using hrange

theorem FetchInv.retry (hs : FetchInv s first) (h : s.l2Origin ≤ s.reached) :
    FetchInv s.retry first where
  started := hs.started
  filled := hs.filled
  idle _ := h
  busy _ _ hphase := by cases hphase

/-- A header that is sent closes the gap to the next one. -/
theorem FetchInv.send {i endBlock : Nat} (hs : FetchInv s first)
    (hphase : s.phase = .fetching i endBlock) (header : Header) :
    FetchInv { s with
      sent := s.sent ++ [(i, header)]
      phase := if i < endBlock then .fetching (i + 1) endBlock else .polling } first := by
  obtain ⟨hle, hend, hnext⟩ := hs.busy i endBlock hphase
  refine ⟨hs.started, ?_, ?_, ?_⟩
  · rw [reached_send, sentNumbers_send]
    rintro n ⟨hfirst, hn⟩
    by_cases hsent : n ≤ s.reached
    · exact Set.mem_insert_of_mem i (hs.filled ⟨hfirst, hsent⟩)
    · obtain rfl : n = i := by omega
      exact Set.mem_insert n _
  · rw [reached_send]
    intro hempty
    by_cases hlt : i < endBlock
    · simp only [inProgress, if_pos hlt] at hempty
      exact absurd hempty (Set.nonempty_Icc.mpr hlt).ne_empty
    · show s.l2Origin ≤ max s.reached i
      omega
  · rw [reached_send]
    intro j endBlock' hphase'
    by_cases hlt : i < endBlock
    · simp only [if_pos hlt] at hphase'
      cases hphase'
      exact ⟨hlt, hend, by omega⟩
    · simp only [if_neg hlt] at hphase'
      cases hphase'

/-- A step that loses nothing keeps the coverage. -/
theorem FetchInv.step (hs : FetchInv s first) (hlossless : Lossless s rpc (s.step rpc))
    (h : s.step rpc = .ok s') : FetchInv s' first := by
  cases step_cases h with
  | originFailed hphase =>
      apply hs.retry
      apply hs.idle
      rcases hphase with hphase | hphase <;> simp [inProgress, hphase]
  | @stored origin n hphase hanswer hn =>
      simp only [Lossless, hphase] at hlossless
      have hle : n ≤ s.reached := hlossless first origin n hs.started hanswer hn
      have hfirst : some (s.firstOrigin.getD n) = s.firstOrigin := by simp [hs.started]
      rw [hfirst]
      exact ⟨hs.started, hs.filled, fun _ => hle, fun _ _ hphase' => by cases hphase'⟩
  | @unchanged n hphase hle =>
      have hidle : s.l2Origin ≤ s.reached := hs.idle (by simp [inProgress, hphase])
      exact ⟨hs.started, hs.filled, fun _ => hle.trans hidle, fun _ _ hphase' => by cases hphase'⟩
  | @added n hphase hlt =>
      have hidle : s.l2Origin ≤ s.reached := hs.idle (by simp [inProgress, hphase])
      refine ⟨hs.started, hs.filled, fun hempty => ?_, fun i endBlock hphase' => ?_⟩
      · exact absurd hempty (Set.nonempty_Icc.mpr hlt).ne_empty
      · cases hphase'
        exact ⟨hlt, rfl, Nat.succ_le_succ hidle⟩
  | @headerFailed i endBlock hphase hfailed =>
      simp only [Lossless, hphase] at hlossless
      obtain ⟨header, hheader⟩ | hle := hlossless
      · exact absurd hheader (hfailed header)
      · obtain ⟨-, hend, -⟩ := hs.busy i endBlock hphase
        exact hs.retry (hend ▸ hle)
  | @sent i endBlock header hphase hanswer =>
      exact hs.send hphase header

/-- A step that loses something ends with a block that was not sent: the last
one of the origin. -/
theorem FetchInv.lossless (hs : FetchInv s first)
    (hcovered : ∀ s', s.step rpc = .ok s' → s'.Covered) : Lossless s rpc (s.step rpc) := by
  have hfirst := first_le_reached hs.started
  cases hphase : s.phase with
  | starting =>
      simp only [Lossless, hphase]
      intro first' origin n hfirst' hanswer hn
      obtain rfl : first = first' := Option.some.inj (hs.started.symm.trans hfirst')
      by_contra hlt
      have hstep : s.step rpc = .ok { s with
          l2Origin := n, phase := .polling, firstOrigin := some (s.firstOrigin.getD n) } := by
        simp only [OriginFetch.step, hphase, storeOrigin, hanswer, hn]
        rfl
      have hrange : n ∈ Set.Ioc first n := ⟨by omega, le_rfl⟩
      rcases hcovered _ hstep first (by simp [hs.started]) hrange with hsent | hnone
      · exact hlt (le_reached (s := s) hsent)
      · cases hnone
  | polling => simp [Lossless, hphase]
  | fetching i endBlock =>
      simp only [Lossless, hphase]
      obtain ⟨hle, hend, hnext⟩ := hs.busy i endBlock hphase
      by_contra hneither
      rw [not_or] at hneither
      obtain ⟨hfailed, hlt⟩ := hneither
      have hstep : s.step rpc = .ok s.retry := by
        simp only [OriginFetch.step, hphase, fetchHeader]
        split
        · rename_i header hanswer
          exact absurd ⟨header, hanswer⟩ hfailed
        · rfl
      have hrange : endBlock ∈ Set.Ioc first s.l2Origin := ⟨by omega, hend.le⟩
      rcases hcovered _ hstep first hs.started hrange with hsent | hnone
      · exact hlt (le_reached (s := s) hsent)
      · cases hnone

/-! ### Runs -/

/-- Nothing has been stored yet, or the coverage stands. -/
def Inv (s : OriginFetch) : Prop := s = new ∨ ∃ first, FetchInv s first

/-- The first origin that is stored is where the coverage starts. -/
theorem inv_of_step_new (h : new.step rpc = .ok s') : Inv s' := by
  cases step_cases h with
  | originFailed hphase => exact Or.inl rfl
  | @stored origin n hphase hanswer hn =>
      refine Or.inr ⟨n, rfl, ?_, fun _ => ?_, fun _ _ hphase' => by cases hphase'⟩
      · rintro m ⟨hlt, hle⟩
        have hreached : m ≤ n := by simpa [reached, new] using hle
        omega
      · simp [reached, new]
  | unchanged hphase hle => cases hphase
  | added hphase hlt => cases hphase
  | headerFailed hphase hfailed => cases hphase
  | sent header hphase hanswer => cases hphase

theorem Inv.step (hs : Inv s) (hlossless : Lossless s rpc (s.step rpc))
    (h : s.step rpc = .ok s') : Inv s' := by
  rcases hs with rfl | ⟨first, hs⟩
  · exact inv_of_step_new h
  · exact Or.inr ⟨first, hs.step hlossless h⟩

theorem Inv.covered (hs : Inv s) : s.Covered := by
  rcases hs with rfl | ⟨first, hs⟩
  · intro first hfirst
    cases hfirst
  · exact hs.covered

theorem Inv.lossless_iff (hs : Inv s) :
    Lossless s rpc (s.step rpc) ↔ ∀ s', s.step rpc = .ok s' → s'.Covered := by
  constructor
  · intro hlossless s' h
    exact (hs.step hlossless h).covered
  · intro hcovered
    rcases hs with rfl | ⟨first, hs⟩
    · intro first origin n hfirst
      cases hfirst
    · exact hs.lossless hcovered

/-- **Every confirmed block is sent** along a run, or is of the fetch in
progress, exactly when no fetch fails, and none starts again, with the origin
above the blocks that were sent. -/
theorem covered_iff (rpcs : List Rpc) :
    Run.Along step Lossless new rpcs ↔
      Run.Along step (fun _ _ r => ∀ s, r = .ok s → s.Covered) new rpcs :=
  Run.Along.congr_of_invariant Inv (fun _ _ hs => hs.lossless_iff)
    (fun _ _ _ hs hlossless h => hs.step hlossless h) rpcs (Or.inl rfl)

section Sample

/-- The node has this head origin and all blocks. -/
def sampleRpc (blockId : Nat) : Rpc :=
  ⟨.ok ⟨blockId⟩, fun n => .ok (some { (default : Header) with number := n })⟩

/-- A block request fails. -/
def failingRpc (blockId : Nat) : Rpc :=
  { sampleRpc blockId with getBlockByNumber := fun _ => .error "timeout" }

/-- Origin 10 is stored, then 12 is read, and the request of block 11 fails.
The next call stores 12, and fetches from 13 on. -/
theorem skipped_blocks :
    ∃ s, [sampleRpc 10, sampleRpc 12, failingRpc 12, sampleRpc 12, sampleRpc 13,
        sampleRpc 13].foldlM step new = .ok s ∧
      s.firstOrigin = some 10 ∧ s.l2Origin = 13 ∧ s.phase = .polling ∧
      s.sent.map Prod.fst = [13] ∧ ¬ s.Covered := by
  refine ⟨_, rfl, rfl, rfl, rfl, rfl, fun hcovered => ?_⟩
  have hrange : 11 ∈ Set.Ioc 10 13 := ⟨by decide, by decide⟩
  rcases hcovered 10 rfl hrange with ⟨header, hsent⟩ | hnone
  · cases List.mem_singleton.mp hsent
  · cases hnone

end Sample

end OriginFetch
end TaikoGateway
