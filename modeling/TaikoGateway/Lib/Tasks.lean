/-
TaikoGateway/Lib/Tasks.lean

Tasks that answer through a channel.  A task is spawned, runs, and sends one
message into a channel, an answer that names its task or an error that does
not; the messages are taken out in the order they were sent.  Any number of
tasks run at a time, and they end in any order.

`Tasks.waiting` are the tasks that nobody has had the answer of: they run,
their answer is in the channel, or they have failed.  Ending a task keeps them,
spawning adds to them, and taking an answer removes its task
(`waiting_finish`, `waiting_spawn`, `waiting_receive`).
-/
import Mathlib

/-- Tasks `ρ`, with answers `α` and errors `ε`. -/
structure Tasks (ρ α ε : Type*) where
  running : List ρ
  /-- messages that were sent and not taken, oldest first -/
  channel : List (Except ε α)
  /-- tasks that sent an error -/
  failed : List ρ

namespace Tasks

variable {ρ α ε : Type*}

def new : Tasks ρ α ε := ⟨[], [], []⟩

def spawn (w : Tasks ρ α ε) (tasks : List ρ) : Tasks ρ α ε :=
  { w with running := w.running ++ tasks }

/-- The task ends with this message. -/
def finish [DecidableEq ρ] (w : Tasks ρ α ε) (task : ρ) (message : Except ε α) : Tasks ρ α ε :=
  { running := w.running.erase task
    channel := w.channel ++ [message]
    failed :=
      match message with
      | .ok _ => w.failed
      | .error _ => w.failed ++ [task] }

/-- The oldest message is taken, if there is one. -/
def receive (w : Tasks ρ α ε) : Tasks ρ α ε := { w with channel := w.channel.tail }

/-- The answers in the channel. -/
def answers (w : Tasks ρ α ε) : List α := w.channel.filterMap Except.toOption

/-- The answer that is taken next. -/
def next (w : Tasks ρ α ε) : Option α := w.channel.head?.bind Except.toOption

theorem answers_eq (w : Tasks ρ α ε) : w.answers = w.next.toList ++ w.receive.answers := by
  obtain ⟨running, channel, failed⟩ := w
  cases channel with
  | nil => rfl
  | cons message channel =>
      cases message with
      | error e => rfl
      | ok a => rfl

theorem answers_finish [DecidableEq ρ] (w : Tasks ρ α ε) (task : ρ) (message : Except ε α) :
    (w.finish task message).answers = w.answers ++ message.toOption.toList := by
  unfold answers finish
  rw [List.filterMap_append]
  cases message with
  | error e => rfl
  | ok a => rfl

/-! ### Tasks without an answer -/

section Waiting

variable (taskOf : α → ρ)

/-- The tasks whose answer has not been taken. -/
def waiting (w : Tasks ρ α ε) : Multiset ρ :=
  (w.running : Multiset ρ) + (w.answers.map taskOf : Multiset ρ) + (w.failed : Multiset ρ)

theorem waiting_spawn (w : Tasks ρ α ε) (tasks : List ρ) :
    (w.spawn tasks).waiting taskOf = w.waiting taskOf + tasks := by
  show ((w.running ++ tasks : List ρ) : Multiset ρ) + _ + _ = _ + _ + _ + _
  rw [← Multiset.coe_add]
  abel

/-- A task that ends is still waited for. -/
theorem waiting_finish [DecidableEq ρ] {w : Tasks ρ α ε} {task : ρ} {message : Except ε α}
    (hrunning : task ∈ w.running) (hof : ∀ a, message = .ok a → taskOf a = task) :
    (w.finish task message).waiting taskOf = w.waiting taskOf := by
  have hends : (w.running : Multiset ρ) = (w.running.erase task : Multiset ρ) + {task} := by
    rw [← Multiset.coe_erase, add_comm, Multiset.singleton_add]
    exact (Multiset.cons_erase hrunning).symm
  unfold waiting
  rw [answers_finish, List.map_append, ← Multiset.coe_add, hends]
  cases message with
  | ok a =>
      show (w.running.erase task : Multiset ρ) + (_ + ([taskOf a] : Multiset ρ)) + w.failed = _
      rw [hof a rfl, Multiset.coe_singleton]
      abel
  | error e =>
      show (w.running.erase task : Multiset ρ) + (_ + 0) +
        ((w.failed ++ [task] : List ρ) : Multiset ρ) = _
      rw [← Multiset.coe_add, Multiset.coe_singleton]
      abel

/-- The task whose answer is taken is not waited for any more. -/
theorem waiting_receive (w : Tasks ρ α ε) :
    w.waiting taskOf = (w.next.map taskOf).toList + w.receive.waiting taskOf := by
  show _ + ((w.answers.map taskOf : List ρ) : Multiset ρ) + _ = _ + (_ + _ + _)
  rw [answers_eq, List.map_append, ← Multiset.coe_add]
  have hnext : w.next.toList.map taskOf = (w.next.map taskOf).toList := by
    cases w.next <;> rfl
  rw [hnext]
  show _ = _ + ((w.running : Multiset ρ) + _ + w.failed)
  abel

end Waiting

/-! ### Failed tasks -/

/-- When a task has failed, an error is in the channel. -/
def ErrorsKept (w : Tasks ρ α ε) : Prop := w.failed ≠ [] → ∃ e, .error e ∈ w.channel

namespace ErrorsKept

variable {w : Tasks ρ α ε}

theorem new : ErrorsKept (new : Tasks ρ α ε) := fun h => absurd rfl h

theorem spawn (hw : w.ErrorsKept) (tasks : List ρ) : (w.spawn tasks).ErrorsKept := hw

theorem finish [DecidableEq ρ] (hw : w.ErrorsKept) (task : ρ) (message : Except ε α) :
    (w.finish task message).ErrorsKept := by
  intro hfailed
  cases message with
  | ok a =>
      obtain ⟨e, he⟩ := hw hfailed
      exact ⟨e, List.mem_append_left _ he⟩
  | error e => exact ⟨e, List.mem_append_right _ (List.mem_singleton_self _)⟩

/-- An answer was taken, or nothing. -/
theorem receive (hw : w.ErrorsKept) (hnext : ∀ e, w.channel.head? ≠ some (.error e)) :
    w.receive.ErrorsKept := by
  intro hfailed
  obtain ⟨e, he⟩ := hw hfailed
  obtain ⟨running, channel, failed⟩ := w
  cases channel with
  | nil => cases he
  | cons message channel =>
      rcases List.mem_cons.mp he with rfl | he
      · exact absurd rfl (hnext e)
      · exact ⟨e, he⟩

/-- With no task running and an empty channel, nothing is waited for. -/
theorem waiting_eq_zero (hw : w.ErrorsKept) (taskOf : α → ρ) (hrunning : w.running = [])
    (hchannel : w.channel = []) : w.waiting taskOf = 0 := by
  have hfailed : w.failed = [] := by
    by_contra hne
    obtain ⟨e, he⟩ := hw hne
    rw [hchannel] at he
    cases he
  unfold waiting answers
  rw [hrunning, hchannel, hfailed]
  rfl

end ErrorsKept

end Tasks
