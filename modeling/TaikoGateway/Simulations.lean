/-
TaikoGateway/Simulations.lean

The loop and the simulations it spawns.

`spawn_sim_tx` runs each simulation as a task of its own.  A task asks the
simulator once and sends one message into an unbounded channel; the loop takes
at most one message a turn.  Tasks end in any order and at any time, also long
after the block they were spawned for: any interleaving of their ends with the
turns of the loop is a run of `Simulations`.  A task whose HTTP client cannot be
built, which would send nothing, is left out.

That each simulation is answered at most once, as `Answers` has it, is so by
construction.  `simulations_conserved` is what follows, from new state ids
alone: each simulation is received, in the channel, failed or still running,
each in one place; the counter of the block is the number of its simulations
that have not been received; and when nothing runs and the channel is empty
the counter is 0, so the next round is not held up.
-/
import TaikoGateway.InFlight
import TaikoGateway.Lib.Tasks

namespace TaikoGateway

open Outstanding (outstanding)
open Sequencer (ticked)

/-- The message that `spawn_sim_tx` makes of an answer. -/
def reply (task : Spawned) (result : ExecutionResult) : SimulatedOrder :=
  ⟨task.tag, result, task.payload⟩

structure Simulations where
  s : Sequencer
  tasks : Tasks Spawned SimulatedOrder String
  /-- state ids the simulator has returned -/
  issued : List StateId
  /-- simulations spawned so far -/
  sent : Multiset Spawned
  /-- simulations whose answer the loop has taken -/
  received : Multiset Spawned

inductive SimsEvent
  /-- a task ends: the simulator has answered, or the RPC has failed -/
  | finish (task : Spawned) (answer : Except String ExecutionResult)
  /-- a turn of the loop; what it takes from the channel is not of the input -/
  | loop (i : Input)

namespace Simulations

open SimHistory (anchorId Answers SimInv)

variable {env : Env} {c c' : Simulations} {h : SimHistory} {s s' t : Sequencer}

def new (env : Env) (lookahead : LookaheadHandle) (now : Instant) : Simulations :=
  ⟨.new env lookahead now, .new, [], 0, 0⟩

/-- `try_recv` gives the oldest message. -/
def input (c : Simulations) (i : Input) : Input :=
  { i with tick := { i.tick with sim := c.tasks.channel.head? } }

theorem answer_input (c : Simulations) (i : Input) :
    (c.input i).tick.answer = c.tasks.next := rfl

/-- The simulations that the transition from `t` to `s'` spawns. -/
def spawnedBy (env : Env) (i : TransitionInput) (t s' : Sequencer) : List Spawned :=
  match t.ctx.state, s'.ctx.state with
  | .sorting sd, .sorting sd' =>
      match sd.maybeSimNextBatch env.config i.simNow with
      | .ok (_, orders) => Outstanding.sendAll sd'.stateId orders
      | .error _ => []
  | _, _ => []

/-- A turn that ticks takes a message, and may spawn simulations. -/
def loop (env : Env) (c : Simulations) (i : Input) : Except Panic Simulations := do
  let s' ← c.s.iteration env (c.input i)
  match c.s.ticked env (c.input i) with
  | none => .ok { c with s := s' }
  | some t =>
      let spawned := spawnedBy env i.transition t s'
      .ok
        { s := s'
          tasks := c.tasks.receive.spawn spawned
          issued := (anchorId t s').toList ++ c.issued
          sent := c.sent + spawned
          received := c.received + (c.tasks.next.map (·.spawned)).toList }

/-- A task that does not run does not end. -/
def step (env : Env) (c : Simulations) : SimsEvent → Except Panic Simulations
  | .finish task answer =>
      if task ∈ c.tasks.running then
        let message := answer.map (reply task)
        .ok { c with
          tasks := c.tasks.finish task message
          issued := message.toOption.toList.flatMap (·.produced) ++ c.issued }
      else .ok c
  | .loop i => c.loop env i

/-- The state ids that the simulator returns, for an order or for the anchor of
a new block. -/
def returned (env : Env) (c : Simulations) : SimsEvent → List StateId
  | .finish task answer => (answer.map (reply task)).toOption.toList.flatMap (·.produced)
  | .loop i =>
      ((c.s.ticked env (c.input i)).bind fun t =>
        (c.s.iteration env (c.input i)).toOption.bind (anchorId t)).toList

/-- What is assumed of the simulator: the state ids it returns are new. -/
def NewIds (env : Env) (c : Simulations) (e : SimsEvent) : Prop :=
  ∀ id ∈ c.returned env e, id ∉ c.issued

instance (e : SimsEvent) : Decidable (NewIds env c e) :=
  inferInstanceAs (Decidable (∀ id ∈ c.returned env e, id ∉ c.issued))

theorem returned_loop {i : Input} (ht : c.s.ticked env (c.input i) = some t)
    (hs' : c.s.iteration env (c.input i) = .ok s') :
    c.returned env (.loop i) = (anchorId t s').toList := by
  simp only [returned, ht, hs', Except.toOption, Option.bind_some]

/-! ### The history of the loop -/

/-- `h` is the history of the loop. -/
structure HistoryOf (env : Env) (c : Simulations) (h : SimHistory) : Prop where
  s : h.s = c.s
  inv : SimInv env h
  pending : (h.pending : Multiset Spawned) = c.tasks.waiting (·.spawned)
  issued : c.issued.Perm (c.tasks.answers.flatMap (·.produced) ++ h.used)
  nodup : c.issued.Nodup
  errors : c.tasks.ErrorsKept
  placed : c.sent = c.received + c.tasks.waiting (·.spawned)

theorem historyOf_new (env : Env) (lookahead : LookaheadHandle) (now : Instant) :
    HistoryOf env (.new env lookahead now) (.new env lookahead now) :=
  ⟨rfl, .new env lookahead now, rfl, .refl _, List.nodup_nil, .new, rfl⟩

/-- A result has at most one new state. -/
theorem nodup_produced (sim : SimulatedOrder) : sim.produced.Nodup := by
  unfold SimulatedOrder.produced
  cases sim.validOrder with
  | none => exact List.nodup_nil
  | some valid => exact List.nodup_singleton _

/-- The end of a task does not matter to the loop. -/
theorem HistoryOf.finish {task : Spawned} {answer : Except String ExecutionResult}
    (hc : HistoryOf env c h) (hnew : NewIds env c (.finish task answer))
    (hstep : c.step env (.finish task answer) = .ok c') : HistoryOf env c' h := by
  simp only [step] at hstep
  split at hstep
  · rename_i hrunning
    cases hstep
    have hof : ∀ a, answer.map (reply task) = .ok a → a.spawned = task := by
      intro a ha
      cases answer with
      | error e => cases ha
      | ok result =>
          cases ha
          rfl
    have hnodup : (c.returned env (.finish task answer)).Nodup := by
      cases answer with
      | error e => exact List.nodup_nil
      | ok result =>
          have hone : c.returned env (.finish task (.ok result)) = (reply task result).produced :=
            List.flatMap_singleton _ _
          rw [hone]
          exact nodup_produced _
    have hwaiting := Tasks.waiting_finish (·.spawned) hrunning hof
    refine ⟨hc.s, hc.inv, hc.pending.trans hwaiting.symm, ?_, ?_, hc.errors.finish _ _, ?_⟩
    · show (_ ++ c.issued).Perm ((c.tasks.finish task _).answers.flatMap _ ++ h.used)
      rw [Tasks.answers_finish, List.flatMap_append, List.append_assoc]
      refine (hc.issued.append_left _).trans ?_
      rw [← List.append_assoc, ← List.append_assoc]
      exact List.perm_append_comm.append_right h.used
    · refine List.nodup_append.mpr ⟨hnodup, hc.nodup, ?_⟩
      rintro id hid id' hid' rfl
      exact hnew id hid hid'
    · show c.sent = c.received + (c.tasks.finish task _).waiting _
      rw [hwaiting]
      exact hc.placed
  · cases hstep
    exact hc

/-! ### A turn of the loop -/

theorem afterTick_used (h : SimHistory) (i : TickInput) (t : Sequencer) :
    (h.afterTick i t).used = i.answer.toList.flatMap (·.produced) ++ h.used := by
  simp only [SimHistory.afterTick]
  cases i.answer with
  | none => rfl
  | some sim =>
      show sim.produced ++ h.used = [sim].flatMap (·.produced) ++ h.used
      rw [List.flatMap_singleton]

theorem afterTick_pending {i : TickInput} (t : Sequencer) {rest : Multiset Spawned}
    (hpending : (h.pending : Multiset Spawned) = (i.answer.map (·.spawned)).toList + rest) :
    ((h.afterTick i t).pending : Multiset Spawned) = rest := by
  simp only [SimHistory.afterTick]
  cases hanswer : i.answer with
  | none =>
      rw [hanswer] at hpending
      exact hpending.trans (zero_add rest)
  | some sim =>
      rw [hanswer] at hpending
      show ((h.pending.erase sim.spawned : List Spawned) : Multiset Spawned) = rest
      rw [← Multiset.coe_erase, hpending]
      exact Multiset.erase_cons_head sim.spawned rest

theorem afterTransition_pending (h : SimHistory) (i : TransitionInput) (s' : Sequencer) :
    (h.afterTransition env i s').pending = h.pending ++ spawnedBy env i h.s s' := by
  simp only [SimHistory.afterTransition, spawnedBy]
  cases h.s.ctx.state with
  | sync lastL1 => cases s'.ctx.state <;> exact (List.append_nil _).symm
  | sorting sd =>
      cases s'.ctx.state with
      | sync lastL1 => exact (List.append_nil _).symm
      | sorting sd' => rfl

theorem afterTransition_used (h : SimHistory) (i : TransitionInput) (s' : Sequencer) :
    (h.afterTransition env i s').used = (anchorId h.s s').toList ++ h.used := by
  simp only [SimHistory.afterTransition, anchorId]
  cases h.s.ctx.state with
  | sync lastL1 => cases s'.ctx.state <;> rfl
  | sorting sd => cases s'.ctx.state <;> rfl

theorem afterTransition_s (h : SimHistory) (i : TransitionInput) (s' : Sequencer) :
    (h.afterTransition env i s').s = s' := by
  simp only [SimHistory.afterTransition]
  cases h.s.ctx.state with
  | sync lastL1 => cases s'.ctx.state <;> rfl
  | sorting sd => cases s'.ctx.state <;> rfl

/-- A failed simulation aborts the tick that takes its message. -/
theorem sim_of_ticked {i : Input} (ht : s.ticked env i = some t) (e : String) :
    i.tick.sim ≠ some (.error e) := by
  intro hsim
  simp only [ticked] at ht
  split at ht
  · obtain ⟨s1, s2, s3, -, -, hsims, -⟩ :=
      Sequencer.tick_eq_ok (Except.toOption_eq_some_iff.mp ht)
    rw [hsim] at hsims
    cases hsims
  · cases ht

/-- **The loop is answered honestly**: its message is of a simulation that it
has not had an answer of. -/
theorem HistoryOf.answers {i : Input} (hc : HistoryOf env c h)
    (hnew : NewIds env c (.loop i)) : Answers env h (c.input i) := by
  have hused : ∀ id ∈ c.tasks.next.toList.flatMap (·.produced) ++ h.used, id ∈ c.issued := by
    intro id hid
    rw [hc.issued.mem_iff, Tasks.answers_eq, List.flatMap_append]
    rcases List.mem_append.mp hid with hid | hid
    · exact List.mem_append_left _ (List.mem_append_left _ hid)
    · exact List.mem_append_right _ hid
  constructor
  · intro _ sim hsim
    have hnext : c.tasks.next = some sim := answer_input c i ▸ hsim
    constructor
    · have hmem : sim.spawned ∈ (h.pending : Multiset Spawned) := by
        rw [hc.pending, Tasks.waiting_receive, hnext]
        exact Multiset.mem_add.mpr (Or.inl (Multiset.mem_coe.mpr (List.mem_singleton_self _)))
      exact Multiset.mem_coe.mp hmem
    · intro id hid
      have hnodup := hc.issued.nodup_iff.mp hc.nodup
      refine List.disjoint_of_nodup_append hnodup ?_
      rw [Tasks.answers_eq, hnext]
      exact List.mem_flatMap.mpr ⟨sim, List.mem_append_left _ (List.mem_singleton_self _), hid⟩
  · intro t ht s' hs' id hid hmem
    rw [hc.s] at ht hs'
    rw [afterTick_used, answer_input] at hmem
    refine hnew id ?_ (hused id hmem)
    rw [returned_loop ht (Except.toOption_eq_some_iff.mp hs')]
    exact Option.mem_toList.mpr hid

/-- **A turn of the loop** is a turn of its history. -/
theorem HistoryOf.loop (henv : env.config.estimateCompressedSize 0 = 0) {i : Input}
    (hc : HistoryOf env c h) (hnew : NewIds env c (.loop i)) (hstep : c.loop env i = .ok c') :
    ∃ h', HistoryOf env c' h' := by
  obtain ⟨s', hiter, hstep⟩ := Except.bind_eq_ok_iff.mp hstep
  have hanswers := hc.answers hnew
  cases ht : c.s.ticked env (c.input i) with
  | none =>
      rw [ht] at hstep
      cases hstep
      have hturn : h.turn env (c.input i) = .ok { h with s := s' } := by
        rw [SimHistory.turn, hc.s, hiter, ht]
        rfl
      exact ⟨_, rfl, hc.inv.turn henv hanswers hturn, hc.pending, hc.issued, hc.nodup, hc.errors,
        hc.placed⟩
  | some t =>
      rw [ht] at hstep
      cases hstep
      have hturn : h.turn env (c.input i) =
          .ok ((h.afterTick (c.input i).tick t).afterTransition env i.transition s') := by
        rw [SimHistory.turn, hc.s, hiter, ht]
        rfl
      have hwaiting := Tasks.waiting_receive (·.spawned) c.tasks
      have hspawned := Tasks.waiting_spawn (·.spawned) c.tasks.receive
        (spawnedBy env i.transition t s')
      have hticked : ((h.afterTick (c.input i).tick t).pending : Multiset Spawned) =
          c.tasks.receive.waiting (·.spawned) := afterTick_pending t (hc.pending.trans hwaiting)
      refine ⟨_, afterTransition_s _ _ _, hc.inv.turn henv hanswers hturn, ?_, ?_, ?_, ?_, ?_⟩
      · rw [afterTransition_pending, SimHistory.afterTick_s, ← Multiset.coe_add, hticked]
        exact hspawned.symm
      · -- the ids of the answer that was taken are now those of the history
        rw [afterTransition_used, SimHistory.afterTick_s, afterTick_used, answer_input]
        show (_ ++ c.issued).Perm (c.tasks.receive.answers.flatMap _ ++ _)
        have hissued := Multiset.coe_eq_coe.mpr hc.issued
        rw [Tasks.answers_eq, List.flatMap_append] at hissued
        rw [← Multiset.coe_eq_coe]
        simp only [← Multiset.coe_add] at hissued ⊢
        rw [hissued]
        abel
      · refine List.nodup_append.mpr ⟨?_, hc.nodup, ?_⟩
        · cases anchorId t s' with
          | none => exact List.nodup_nil
          | some id => exact List.nodup_singleton id
        · rintro id hid id' hid' rfl
          rw [← returned_loop ht hiter] at hid
          exact hnew id hid hid'
      · exact (hc.errors.receive (sim_of_ticked ht)).spawn _
      · show c.sent + _ = c.received + _ + _
        rw [hspawned, hc.placed, hwaiting]
        abel

theorem HistoryOf.step (henv : env.config.estimateCompressedSize 0 = 0) {e : SimsEvent}
    (hc : HistoryOf env c h) (hnew : NewIds env c e) (hstep : c.step env e = .ok c') :
    ∃ h', HistoryOf env c' h' := by
  cases e with
  | finish task answer => exact ⟨h, hc.finish hnew hstep⟩
  | loop i => exact hc.loop henv hnew hstep

/-! ### Main result -/

/-- Where the simulations are. -/
structure Conserved (c : Simulations) : Prop where
  /-- each one has been received, or runs, or its message is on its way -/
  placed : c.sent = c.received + c.tasks.waiting (·.spawned)
  /-- the counter of the block is the number of its simulations on their way -/
  counted : ∀ sd, c.s.ctx.state = .sorting sd →
    sd.inFlightSims = (c.tasks.waiting (·.spawned)).countP fun r => r.tag = sd.stateId
  /-- with nothing under way a block does not wait -/
  drained : c.tasks.running = [] → c.tasks.channel = [] →
    ∀ sd, c.s.ctx.state = .sorting sd → sd.inFlightSims = 0

theorem HistoryOf.conserved (hc : HistoryOf env c h) : Conserved c := by
  have hcounted : ∀ sd, c.s.ctx.state = .sorting sd →
      sd.inFlightSims = (c.tasks.waiting (·.spawned)).countP fun r => r.tag = sd.stateId := by
    intro sd hsd
    rw [← hc.s] at hsd
    rw [← hc.pending, Multiset.coe_countP]
    exact (hc.inv.counts sd hsd).inFlight
  refine ⟨hc.placed, hcounted, fun hrunning hchannel sd hsd => ?_⟩
  rw [hcounted sd hsd, hc.errors.waiting_eq_zero _ hrunning hchannel]
  exact Multiset.countP_zero _

/-- What holds of a step: of where it leads, of the counter when it takes a
message, and of the assertions. -/
def StepConserves (env : Env) (c : Simulations) (e : SimsEvent) (r : Except Panic Simulations) :
    Prop :=
  (∀ c', r = .ok c' → Conserved c') ∧
    (∀ i, e = .loop i → SimHistory.DecrementsAboveZero env c.s (c.input i).tick) ∧
    ∀ p ∈ Sequencer.roundPanics, r ≠ .error p

theorem HistoryOf.not_roundPanics {e : SimsEvent} (hc : HistoryOf env c h)
    (hnew : NewIds env c e) : ∀ p ∈ Sequencer.roundPanics, c.step env e ≠ .error p := by
  intro p hp hstep
  cases e with
  | finish task answer =>
      simp only [Simulations.step] at hstep
      split at hstep <;> cases hstep
  | loop i =>
      rcases Except.bind_eq_error_iff.mp hstep with hiter | ⟨s', -, hdone⟩
      · rw [← hc.s] at hiter
        exact hc.inv.not_roundPanics (hc.answers hnew) p hp hiter
      · split at hdone <;> cases hdone

/-- **No simulation is lost or counted twice.**  Let the state ids that the
simulator returns be new.  In every interleaving of the ends of the tasks with
the turns of the loop: each simulation is received, on its way or running, each
in one place; the counter of the block under construction is the number of its
simulations that have not been received, and it is above 0 when it is
decremented; it is 0 when nothing runs and the channel is empty; and the
assertions about the result that a round applies hold. -/
theorem simulations_conserved (env : Env) (henv : env.config.estimateCompressedSize 0 = 0)
    (lookahead : LookaheadHandle) (now : Instant) (es : List SimsEvent)
    (hnew : Run.Along (step env) (fun c e _ => NewIds env c e) (.new env lookahead now) es) :
    Run.Along (step env) (StepConserves env) (.new env lookahead now) es := by
  refine Run.Along.mono_of_invariant (fun c => ∃ h, HistoryOf env c h) ?_ ?_ es
    ⟨_, historyOf_new env lookahead now⟩ hnew
  · rintro c e ⟨h, hc⟩ he
    refine ⟨fun c' hstep => ?_, fun i hi => ?_, hc.not_roundPanics he⟩
    · obtain ⟨h', hc'⟩ := hc.step henv he hstep
      exact hc'.conserved
    · cases hi
      rw [← hc.s]
      exact hc.inv.decrementsAboveZero (hc.answers he)
  · rintro c e c' ⟨h, hc⟩ he hstep
    exact hc.step henv he hstep

section Sample

open Sample

/-- Two txs are simulated for block 11 and one is included; the other one is
simulated again, and that task ends while block 12 is built. -/
def tasksRun : List SimsEvent :=
  [ .loop (receiving [l1Header 100] [Sample.block 10 10 9 0 90] (turn 0 50)),
    .loop (simulating (anchorTx 11 100) (blockEnv 11 52) 1 (turn 3000 50)),
    .loop (receivingTxs [userTx, SimHistory.otherTx] (turn 3100 50)),
    .finish ⟨1, userTx⟩ (.ok (.success 2 21000 1)),
    .loop (turn 3200 50),
    .finish ⟨1, SimHistory.otherTx⟩ (.ok (.success 3 21000 1)),
    .loop (turn 3300 50),
    .loop (sealing 2 (blockWith [userTx] 11 11 10 52 100) (turn 6000 53)),
    .loop (simulating (anchorTx 12 100) (blockEnv 12 58) 4 (turn 9000 56)),
    .finish ⟨2, SimHistory.otherTx⟩ (.ok (.success 5 21000 1)),
    .loop (turn 9100 56) ]

/-- The sample run ends with a simulation of block 12 running; the late answer
for block 11 was received and not counted. -/
theorem simulations_conserved_tasksRun :
    Run.Along (step Sample.env) (StepConserves Sample.env)
        (.new Sample.env Sample.lookahead 0) tasksRun ∧
      (tasksRun.foldlM (step Sample.env) (.new Sample.env Sample.lookahead 0)).toOption.map
        (fun c => (c.tasks.running, c.tasks.channel.length, c.issued)) =
          some ([⟨4, SimHistory.otherTx⟩], 0, [5, 4, 3, 2, 1]) :=
  ⟨simulations_conserved Sample.env rfl Sample.lookahead 0 tasksRun (by decide +kernel), by
    decide +kernel⟩

end Sample

end Simulations
end TaikoGateway
