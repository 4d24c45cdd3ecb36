/-
TaikoGateway/LivePending.lean

The counter of pending proposals that the sequencer throttles on.

The sequencer adds one before it sends a batch to the proposer, a resync adds
the number of requests it has made, and `propose_batch` removes one behind its
retry loop.  A `System` is both of them with the channel in between; an `Event`
is one step of one of them, so a run is any interleaving.

The counter is the number of batches that are sent or made, and not proposed
yet, as long as no call of `propose_batch` takes the early return of a dry run
(`current_eq_iff`): that one leaves the counter as it is.
-/
import TaikoGateway.ProposeBatch
import TaikoGateway.Types

namespace TaikoGateway

open ProposeBatch (AttemptError LoopVars)

/-! ### The counter -/

/-- `CURRENT_PROPOSALS` -/
structure LivePending where
  currentProposals : Nat

namespace LivePending

def addPending (p : LivePending) : LivePending := ⟨p.currentProposals + 1⟩

def addNPending (p : LivePending) (n : Nat) : LivePending := ⟨p.currentProposals + n⟩

def current (p : LivePending) : Nat := p.currentProposals

/-- `fetch_sub` wraps below zero. -/
def removePending (p : LivePending) : LivePending := ⟨u64Sub p.currentProposals 1⟩

/-! ### Sequencer and proposer -/

/-- Where a call of `propose_batch` is. -/
inductive CallPhase
  /-- before the check for a dry run -/
  | entered
  /-- in the retry loop -/
  | retrying (vars : LoopVars)
  deriving DecidableEq

structure Call where
  request : ProposeBatchParams
  phase : CallPhase
  deriving DecidableEq

/-- A resync that runs, and the requests it has made and not proposed. -/
structure ResyncRun where
  origin : Nat
  last : Nat
  requests : List ProposeBatchParams
  deriving DecidableEq

structure System where
  pending : LivePending
  /-- the batch the sequencer has counted and not sent yet -/
  sending : Option ProposeBatchParams
  channel : List ProposalRequest
  call : Option Call
  resync : Option ResyncRun

def System.init : System := ⟨⟨0⟩, none, [], none, none⟩

inductive Event
  /-- `send_batch_to_proposer` takes the batch and counts it -/
  | batchTaken (request : ProposeBatchParams)
  /-- and sends it -/
  | batchSent
  | resyncSent (origin last : Nat)
  /-- the proposer receives a request -/
  | received
  /-- `resync` has made requests, for one anchor or for all blocks -/
  | requestsMade (requests : List ProposeBatchParams)
  /-- `resync` proposes its next request -/
  | nextRequest
  /-- `resync` returns; after an error it starts again -/
  | resyncReturned (ok : Bool)
  /-- `propose_batch` checks whether this is a dry run -/
  | dryRunChecked
  /-- `propose_one_batch` returns, with this nonce recorded -/
  | attempted (lastUsedNonce : Option Nat) (result : Option AttemptError)
  deriving DecidableEq

/-- Why a run ends: a panic of the proposer aborts the process. -/
inductive Stop
  | impossible
  | maxRetries
  deriving DecidableEq

namespace System

/-- The batches that are sent or made, and whose `propose_batch` call has not
returned. -/
def outstanding (s : System) : Nat :=
  s.sending.toList.length + s.channel.countP (fun r => r matches .batch _) +
    s.call.toList.length + s.resync.elim 0 (·.requests.length)

/-- Behind the retry loop. -/
def finish (s : System) : System := { s with pending := s.pending.removePending, call := none }

def attempted (s : System) (request : ProposeBatchParams) (vars : LoopVars) :
    Option AttemptError → Except Stop System
  | none => .ok s.finish
  | some err =>
      match vars.onError err with
      | .retry vars => .ok { s with call := some ⟨request, .retrying vars⟩ }
      | .stop => .ok s.finish
      | .panic => .error .maxRetries

def step (dryRun : Bool) (s : System) : Event → Except Stop System
  | .batchTaken request =>
      match s.sending with
      | none => .ok { s with pending := s.pending.addPending, sending := some request }
      | some _ => .error .impossible
  | .batchSent =>
      match s.sending with
      | some request => .ok { s with sending := none, channel := s.channel ++ [.batch request] }
      | none => .error .impossible
  | .resyncSent origin last =>
      match s.sending with
      | none => .ok { s with channel := s.channel ++ [.resync origin last] }
      | some _ => .error .impossible
  | .received =>
      match s.call, s.resync, s.channel with
      | none, none, .batch request :: channel =>
          .ok { s with channel := channel, call := some ⟨request, .entered⟩ }
      | none, none, .resync origin last :: channel =>
          .ok { s with channel := channel, resync := some ⟨origin, last, []⟩ }
      | _, _, _ => .error .impossible
  | .requestsMade requests =>
      match s.call, s.resync with
      | none, some ⟨origin, last, []⟩ =>
          .ok { s with
            pending := s.pending.addNPending requests.length
            resync := some ⟨origin, last, requests⟩ }
      | _, _ => .error .impossible
  | .nextRequest =>
      match s.call, s.resync with
      | none, some ⟨origin, last, request :: requests⟩ =>
          .ok { s with
            call := some ⟨request, .entered⟩
            resync := some ⟨origin, last, requests⟩ }
      | _, _ => .error .impossible
  | .resyncReturned ok =>
      match s.call, s.resync with
      | none, some ⟨_, _, []⟩ => .ok (if ok then { s with resync := none } else s)
      | _, _ => .error .impossible
  | .dryRunChecked =>
      match s.call with
      | some ⟨request, .entered⟩ =>
          if dryRun then .ok { s with call := none }
          else .ok { s with call := some ⟨request, .retrying {}⟩ }
      | _ => .error .impossible
  | .attempted lastUsedNonce result =>
      match s.call with
      | some ⟨request, .retrying vars⟩ =>
          s.attempted request { vars with lastUsedNonce := lastUsedNonce } result
      | _ => .error .impossible

/-! ### What a step does to the counter -/

variable {dryRun : Bool} {s s' : System}

/-- A `propose_batch` call takes the early return of a dry run. -/
def Skips (dryRun : Bool) (s : System) (e : Event) : Prop :=
  dryRun = true ∧ e = .dryRunChecked ∧ ∃ request, s.call = some ⟨request, .entered⟩

/-- The retry loop is left behind a call. -/
def Finishes (s : System) (e : Event) : Prop :=
  ∃ request vars lastUsedNonce result, s.call = some ⟨request, .retrying vars⟩ ∧
    e = .attempted lastUsedNonce result ∧
    ∀ err, result = some err → { vars with lastUsedNonce := lastUsedNonce }.onError err = .stop

/-- What a step can do to the counter and to the outstanding batches. -/
inductive CountStep (dryRun : Bool) (s : System) (e : Event) (s' : System) : Prop
  /-- both go up by the same number -/
  | counted (n : Nat) (hcurrent : s'.pending.current = s.pending.current + n)
      (houtstanding : s'.outstanding = s.outstanding + n)
  | finished (hpending : s'.pending = s.pending.removePending)
      (houtstanding : s.outstanding = s'.outstanding + 1)
  | skipped (hskips : s.Skips dryRun e)

theorem outstanding_finish {call : Call} (hcall : s.call = some call) :
    s.outstanding = s.finish.outstanding + 1 := by
  simp only [outstanding, finish, hcall, Option.toList_some, Option.toList_none,
    List.length_singleton, List.length_nil]
  omega

theorem attempted_count {request : ProposeBatchParams} {vars vars' : LoopVars} {e : Event}
    {result : Option AttemptError} (hcall : s.call = some ⟨request, .retrying vars⟩)
    (h : s.attempted request vars' result = .ok s') : CountStep dryRun s e s' := by
  cases result with
  | none =>
      cases h
      exact .finished rfl (outstanding_finish hcall)
  | some err =>
      simp only [attempted] at h
      split at h
      · cases h
        refine .counted 0 rfl ?_
        simp [outstanding, hcall]
      · cases h
        exact .finished rfl (outstanding_finish hcall)
      · cases h

/-- **One step**, whoever takes it. -/
theorem step_count {e : Event} (h : s.step dryRun e = .ok s') : CountStep dryRun s e s' := by
  cases e with
  | batchTaken request =>
      simp only [step] at h
      split at h
      · rename_i hsending
        cases h
        refine .counted 1 rfl ?_
        simp [outstanding, hsending]
        omega
      · cases h
  | batchSent =>
      simp only [step] at h
      split at h
      -- the batch goes from the sequencer to the channel
      · rename_i request hsending
        cases h
        refine .counted 0 rfl ?_
        simp [outstanding, hsending]
        omega
      · cases h
  | resyncSent origin last =>
      simp only [step] at h
      split at h
      · cases h
        refine .counted 0 rfl ?_
        simp [outstanding]
      · cases h
  | received =>
      simp only [step] at h
      split at h
      -- from the channel to a call
      · rename_i request channel hcall hresync hchannel
        cases h
        refine .counted 0 rfl ?_
        simp [outstanding, hcall, hresync, hchannel]
        omega
      · rename_i origin last channel hcall hresync hchannel
        cases h
        refine .counted 0 rfl ?_
        simp [outstanding, hcall, hresync, hchannel]
      · cases h
  | requestsMade requests =>
      simp only [step] at h
      split at h
      · rename_i origin last hcall hresync
        cases h
        refine .counted requests.length rfl ?_
        simp [outstanding, hcall, hresync]
      · cases h
  | nextRequest =>
      simp only [step] at h
      split at h
      -- from the resync to a call
      · rename_i origin last request requests hcall hresync
        cases h
        refine .counted 0 rfl ?_
        simp [outstanding, hcall, hresync]
        omega
      · cases h
  | resyncReturned ok =>
      simp only [step] at h
      split at h
      · rename_i hcall hresync
        cases h
        cases ok with
        | true =>
            refine .counted 0 rfl ?_
            simp [outstanding, hresync]
        | false => exact .counted 0 rfl rfl
      · cases h
  | dryRunChecked =>
      simp only [step] at h
      split at h
      · rename_i request hcall
        split at h
        · rename_i hdry
          exact .skipped ⟨hdry, rfl, request, hcall⟩
        · cases h
          refine .counted 0 rfl ?_
          simp [outstanding, hcall]
      · cases h
  | attempted last result =>
      simp only [step] at h
      split at h
      · rename_i request vars hcall
        exact attempted_count hcall h
      · cases h

/-! ### Runs -/

theorem outstanding_pos {call : Call} (hcall : s.call = some call) : 1 ≤ s.outstanding := by
  rw [outstanding_finish hcall]
  exact Nat.succ_le_succ (Nat.zero_le _)

/-- A call that skips leaves the counter one too high. -/
theorem skips_step {e : Event} (h : s.Skips dryRun e) (heq : s.pending.current = s.outstanding) :
    ∃ s', s.step dryRun e = .ok s' ∧ s'.pending.current = s'.outstanding + 1 := by
  obtain ⟨rfl, rfl, request, hcall⟩ := h
  refine ⟨{ s with call := none }, by simp only [step, hcall, if_true], ?_⟩
  show s.pending.current = _
  rw [heq]
  exact outstanding_finish hcall

/-- Any other step keeps the counter right, and does not take it below zero. -/
theorem counts_step {e : Event} (hskips : ¬ s.Skips dryRun e)
    (heq : s.pending.current = s.outstanding) (h : s.step dryRun e = .ok s') :
    s'.pending.current = s'.outstanding := by
  cases step_count h with
  | counted n hcurrent houtstanding => omega
  | finished hpending houtstanding =>
      have hone : 1 ≤ s.pending.current := by omega
      rw [hpending]
      show u64Sub s.pending.current 1 = _
      rw [u64Sub_of_le hone]
      omega
  | skipped hskip => exact absurd hskip hskips

/-- **The counter is right in every state of a run, and is never taken below
zero, exactly when no `propose_batch` call of the run skips.**  So where no
batch is outstanding it is zero. -/
theorem current_eq_iff (dryRun : Bool) (es : List Event) :
    Run.Along (step dryRun) (fun s e r => (s.Finishes e → 1 ≤ s.pending.current) ∧
        ∀ s', r = .ok s' → s'.pending.current = s'.outstanding) init es ↔
      Run.Along (step dryRun) (fun s e _ => ¬ s.Skips dryRun e) init es := by
  apply Run.Along.congr_of_invariant (fun s => s.pending.current = s.outstanding)
  · intro s e heq
    constructor
    · rintro ⟨-, hcounts⟩ hskips
      obtain ⟨s', h, htoo⟩ := skips_step hskips heq
      have hright := hcounts s' h
      omega
    · intro hskips
      refine ⟨?_, fun s' h => counts_step hskips heq h⟩
      rintro ⟨request, vars, last, result, hcall, -⟩
      rw [heq]
      exact outstanding_pos hcall
  · rintro s e s' - ⟨-, hcounts⟩ h
    exact hcounts s' h
  · rfl

section Sample

/-- A batch is sent, received and skipped. -/
def skippedBatch : List Event := [.batchTaken {}, .batchSent, .received, .dryRunChecked]

/-- Nothing is outstanding, but the counter is not zero. -/
theorem dryRun_leaks :
    ∃ s, skippedBatch.foldlM (step true) init = .ok s ∧ s.outstanding = 0 ∧
      s.pending.current = 1 :=
  ⟨_, rfl, rfl, rfl⟩

end Sample

end System

end LivePending

end TaikoGateway
