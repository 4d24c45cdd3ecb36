/-
TaikoGateway/Lib/Outstanding.lean

Requests that have not been answered.  A request carries a tag, the round it
was sent in; a requester that is in one round wants to know how many requests
of it are out.

`ofRound tag pending` are their payloads and `outstanding tag pending` counts
them, and the lemmas say what an answer (`List.erase`), a batch of new
requests, and a change to a round with a fresh tag do to either.  Tags and
payloads are arbitrary.
-/
import Mathlib

namespace Outstanding

/-- A request that was sent in the round `tag`. -/
structure Request (τ α : Type*) where
  tag : τ
  payload : α
  deriving DecidableEq

variable {τ α : Type*} {tag : τ} {pending : List (Request τ α)}

/-- The requests of one round, one for each payload. -/
def sendAll (tag : τ) (payloads : List α) : List (Request τ α) := payloads.map fun p => ⟨tag, p⟩

theorem mem_sendAll {payloads : List α} {r : Request τ α} :
    r ∈ sendAll tag payloads ↔ r.tag = tag ∧ r.payload ∈ payloads := by
  simp only [sendAll, List.mem_map]
  constructor
  · rintro ⟨p, hp, rfl⟩
    exact ⟨rfl, hp⟩
  · rintro ⟨htag, hp⟩
    refine ⟨r.payload, hp, ?_⟩
    rw [← htag]

/-- A round that asks for nothing sends nothing. -/
@[simp]
theorem append_sendAll_nil : pending ++ sendAll tag [] = pending := by simp [sendAll]

variable [DecidableEq τ]

/-- The number of requests of this round. -/
def outstanding (tag : τ) (pending : List (Request τ α)) : Nat :=
  pending.countP fun r => r.tag = tag

/-- Nothing is out in a round nothing was sent in. -/
theorem outstanding_eq_zero (h : ∀ r ∈ pending, r.tag ≠ tag) : outstanding tag pending = 0 := by
  rw [outstanding, List.countP_eq_zero]
  intro r hr
  simpa using h r hr

theorem outstanding_sendAll (payloads : List α) :
    outstanding tag (pending ++ sendAll tag payloads) =
      outstanding tag pending + payloads.length := by
  have hall : outstanding tag (sendAll tag payloads) = payloads.length := by
    rw [outstanding, List.countP_eq_length.mpr]
    · exact List.length_map _
    · intro r hr
      simpa using (mem_sendAll.mp hr).1
  rw [outstanding, List.countP_append]
  show outstanding tag pending + outstanding tag (sendAll tag payloads) = _
  rw [hall]

/-- A request of this round that can be answered is out. -/
theorem outstanding_pos {r : Request τ α} (hr : r ∈ pending) (htag : r.tag = tag) :
    0 < outstanding tag pending :=
  List.countP_pos_iff.mpr ⟨r, hr, by simpa using htag⟩

/-- What the requests of this round ask for. -/
def ofRound (tag : τ) (pending : List (Request τ α)) : List α :=
  (pending.filter fun r => r.tag = tag).map (·.payload)

theorem length_ofRound : (ofRound tag pending).length = outstanding tag pending := by
  rw [ofRound, List.length_map, outstanding, List.countP_eq_length_filter]

theorem ofRound_eq_nil (h : ∀ r ∈ pending, r.tag ≠ tag) : ofRound tag pending = [] := by
  rw [← List.length_eq_zero_iff, length_ofRound]
  exact outstanding_eq_zero h

theorem ofRound_sendAll (payloads : List α) :
    ofRound tag (pending ++ sendAll tag payloads) = ofRound tag pending ++ payloads := by
  have hall : (sendAll tag payloads).filter (fun r => r.tag = tag) = sendAll tag payloads := by
    apply List.filter_eq_self.mpr
    intro r hr
    simpa using (mem_sendAll.mp hr).1
  rw [ofRound, List.filter_append, List.map_append, hall, sendAll, List.map_map]
  exact congrArg _ (List.map_id payloads)

variable [DecidableEq α]

theorem ofRound_erase {r : Request τ α} (hr : r ∈ pending) (htag : r.tag = tag) :
    (ofRound tag pending).Perm (r.payload :: ofRound tag (pending.erase r)) := by
  have hfilter := (List.perm_cons_erase hr).filter fun r => decide (r.tag = tag)
  rw [List.filter_cons_of_pos (by simpa using htag)] at hfilter
  exact hfilter.map _

theorem ofRound_erase_of_ne {r : Request τ α} (htag : r.tag ≠ tag) :
    (ofRound tag (pending.erase r)).Perm (ofRound tag pending) := by
  by_cases hr : r ∈ pending
  · have hfilter := (List.perm_cons_erase hr).filter fun r => decide (r.tag = tag)
    rw [List.filter_cons_of_neg (by simpa using htag)] at hfilter
    exact (hfilter.map _).symm
  · rw [List.erase_of_not_mem hr]

/-- An answer to this round takes one off. -/
theorem outstanding_erase {r : Request τ α} (hr : r ∈ pending) (htag : r.tag = tag) :
    outstanding tag (pending.erase r) = outstanding tag pending - 1 := by
  have hcount := (List.perm_cons_erase hr).countP_eq fun r => decide (r.tag = tag)
  rw [List.countP_cons_of_pos (by simpa using htag)] at hcount
  show (pending.erase r).countP _ = pending.countP _ - 1
  rw [hcount, Nat.add_sub_cancel]

/-- An answer to another round is not counted. -/
theorem outstanding_erase_of_ne {r : Request τ α} (htag : r.tag ≠ tag) :
    outstanding tag (pending.erase r) = outstanding tag pending := by
  by_cases hr : r ∈ pending
  · have hcount := (List.perm_cons_erase hr).countP_eq fun r => decide (r.tag = tag)
    rw [List.countP_cons_of_neg (by simpa using htag)] at hcount
    exact hcount.symm
  · rw [List.erase_of_not_mem hr]

end Outstanding
