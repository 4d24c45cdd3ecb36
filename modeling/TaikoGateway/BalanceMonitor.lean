/-
TaikoGateway/BalanceMonitor.lean

The alerts of the balance monitor.

Every minute the monitor fetches the balances of the operator and of the prover
and hands those it got to `maybe_alert_balance`, each with its own threshold and
its own memory of the balance before.

The memory is written only together with an alert, so it never holds a balance
at or above the threshold and the comparison with it never succeeds: each label
alerts once, at its first balance below the threshold (`raisedAt_eq_latch`).
These are the alerts of an edge detector exactly where the balance does not fall
a second time (`raisedAt_iff`).
-/
import TaikoGateway.Lib.Edges
import TaikoGateway.Types

namespace TaikoGateway

/-- The balances the monitor alerts on. -/
inductive BalanceLabel
  | ethBalance
  | taikoToken
  | proverEthBalance
  deriving DecidableEq

def BalanceLabel.text : BalanceLabel → String
  | .ethBalance => "ETH Balance"
  | .taikoToken => "TAIKO Token"
  | .proverEthBalance => "Prover ETH Balance"

/-- The fetched balances of one iteration; `getEthBalance` is asked for the
prover. -/
structure BalanceFetch where
  ethBalanceRes : Except String Nat
  tokenBalanceRes : Except String Nat
  contractBalanceRes : Except String Nat
  getEthBalance : Address → Except String Nat

/-- The balances remembered between iterations. -/
structure PreviousBalances where
  previousEthBalance : Option Nat := none
  previousTokenBalance : Option Nat := none
  previousProverEthBalance : Option Nat := none

/-- A call of `maybe_alert_balance`, and the alert it raised. -/
structure BalanceCheck where
  label : BalanceLabel
  balance : Nat
  alert : Option String

/-- What the monitor reads of the configuration, in wei. -/
structure BalanceManager where
  ethBalanceThreshold : Nat
  totalTokenThreshold : Nat
  proverEthBalanceThreshold : Nat
  proverAddress : Option Address

/-- What one iteration sends and keeps. -/
structure MonitorStep where
  fetchAlerts : List String
  checks : List BalanceCheck
  previous : PreviousBalances

namespace BalanceManager

section

-- `format_ether`
variable (formatEther : Nat → String)

/-- The alert, and the remembered balance behind the call. -/
def maybeAlertBalance (label : String) (balance : Nat) (previous : Option Nat)
    (threshold : Nat) : Option String × Option Nat :=
  if balance < threshold ∧ (previous = none ∨ threshold ≤ previous.getD 0) then
    (some (label ++ " balance is below threshold: " ++ formatEther balance ++ " < " ++
      formatEther threshold), some balance)
  else (none, previous)

/-- Alerts on a balance that could be fetched. -/
def check (label : BalanceLabel) (balance : Option Nat) (previous : Option Nat)
    (threshold : Nat) : List BalanceCheck × Option Nat :=
  match balance with
  | none => ([], previous)
  | some balance =>
      let r := maybeAlertBalance formatEther label.text balance previous threshold
      ([⟨label, balance, r.1⟩], r.2)

/-- The alert for a balance that could not be fetched. -/
def fetchAlert (what : String) : Except String Nat → Option String
  | .ok _ => none
  | .error err => some ("failed to fetch " ++ what ++ ": " ++ err)

/-- The token balance and the bond; the addition wraps. -/
def totalBalance (t : BalanceFetch) : Option Nat :=
  match t.tokenBalanceRes.toOption, t.contractBalanceRes.toOption with
  | some tokenBalance, some contractBalance => some ((tokenBalance + contractBalance) % 2 ^ 256)
  | _, _ => none

variable (manager : BalanceManager)

/-- The balance of the prover; a failure to fetch it is only logged. -/
def proverBalance (t : BalanceFetch) : Option Nat :=
  match manager.proverAddress with
  | some proverAddress => (t.getEthBalance proverAddress).toOption
  | none => none

/-- One iteration of `start_balance_monitor`. -/
def monitorOnce (previous : PreviousBalances) (t : BalanceFetch) : MonitorStep :=
  let eth := check formatEther .ethBalance t.ethBalanceRes.toOption previous.previousEthBalance
    manager.ethBalanceThreshold
  let token := check formatEther .taikoToken (totalBalance t) previous.previousTokenBalance
    manager.totalTokenThreshold
  let prover := check formatEther .proverEthBalance (manager.proverBalance t)
    previous.previousProverEthBalance manager.proverEthBalanceThreshold
  { fetchAlerts := (fetchAlert "ETH balance" t.ethBalanceRes).toList ++
      (fetchAlert "token balance" t.tokenBalanceRes).toList ++
      (fetchAlert "token bond" t.contractBalanceRes).toList
    checks := eth.1 ++ token.1 ++ prover.1
    previous := ⟨eth.2, token.2, prover.2⟩ }

/-- The calls of `maybe_alert_balance` in the loop of `start_balance_monitor`. -/
def startBalanceMonitor : PreviousBalances → List BalanceFetch → List BalanceCheck
  | _, [] => []
  | previous, t :: ts =>
      let r := manager.monitorOnce formatEther previous t
      r.checks ++ startBalanceMonitor r.previous ts

end

/-! ### One label -/

def threshold (manager : BalanceManager) : BalanceLabel → Nat
  | .ethBalance => manager.ethBalanceThreshold
  | .taikoToken => manager.totalTokenThreshold
  | .proverEthBalance => manager.proverEthBalanceThreshold

def previousOf (previous : PreviousBalances) : BalanceLabel → Option Nat
  | .ethBalance => previous.previousEthBalance
  | .taikoToken => previous.previousTokenBalance
  | .proverEthBalance => previous.previousProverEthBalance

/-- The balance of a label, where it could be fetched. -/
def observed (manager : BalanceManager) (t : BalanceFetch) : BalanceLabel → Option Nat
  | .ethBalance => t.ethBalanceRes.toOption
  | .taikoToken => totalBalance t
  | .proverEthBalance => manager.proverBalance t

/-- The balances the monitor observes for a label. -/
def observations (manager : BalanceManager) (label : BalanceLabel) (ts : List BalanceFetch) :
    List Nat :=
  ts.filterMap (manager.observed · label)

variable (formatEther : Nat → String) (manager : BalanceManager)

/-- The checks of a label. -/
def checksOf (label : BalanceLabel) (cs : List BalanceCheck) : List BalanceCheck :=
  cs.filter (·.label = label)

/-- At which of its observations a label alerts, from this memory on. -/
def raisedFrom (previous : PreviousBalances) (label : BalanceLabel) (ts : List BalanceFetch) :
    List Bool :=
  (checksOf label (manager.startBalanceMonitor formatEther previous ts)).map (·.alert.isSome)

/-- At which of its observations a label alerts. -/
def raisedAt (label : BalanceLabel) (ts : List BalanceFetch) : List Bool :=
  manager.raisedFrom formatEther {} label ts

variable {formatEther manager}

@[simp] theorem checksOf_append (label : BalanceLabel) (cs cs' : List BalanceCheck) :
    checksOf label (cs ++ cs') = checksOf label cs ++ checksOf label cs' :=
  List.filter_append ..

/-- A call is checked under its own label. -/
@[simp] theorem checksOf_check (label label' : BalanceLabel) (balance previous : Option Nat)
    (threshold : Nat) :
    checksOf label (check formatEther label' balance previous threshold).1 =
      if label' = label then (check formatEther label' balance previous threshold).1 else [] := by
  cases balance with
  | none => simp [checksOf, check]
  | some balance => by_cases hlabel : label' = label <;> simp [checksOf, check, hlabel]

/-- **The labels do not mix**: an iteration is one check of each label, with the
label's own threshold and memory. -/
theorem monitorOnce_label (previous : PreviousBalances) (t : BalanceFetch)
    (label : BalanceLabel) :
    (checksOf label (manager.monitorOnce formatEther previous t).checks,
      previousOf (manager.monitorOnce formatEther previous t).previous label) =
      check formatEther label (manager.observed t label) (previousOf previous label)
        (manager.threshold label) := by
  cases label <;> simp [monitorOnce, previousOf, observed, threshold]

/-! ### The memory -/

/-- What is remembered is below the threshold. -/
def Alerted (threshold : Nat) (previous : Option Nat) : Prop := ∀ b ∈ previous, b < threshold

/-- **The comparison with the balance before never succeeds**: there is an alert
below the threshold if nothing is remembered. -/
theorem maybeAlertBalance_isSome {label : String} {balance threshold : Nat}
    {previous : Option Nat} (h : Alerted threshold previous) :
    (maybeAlertBalance formatEther label balance previous threshold).1.isSome =
      (decide (balance < threshold) && !previous.isSome) := by
  cases previous with
  | none => by_cases hlt : balance < threshold <;> simp [maybeAlertBalance, hlt]
  | some b =>
      have hb : ¬ threshold ≤ b := Nat.not_le.mpr (h b rfl)
      simp [maybeAlertBalance, hb]

/-- Something is remembered once there was an alert. -/
theorem maybeAlertBalance_previous_isSome {label : String} {balance threshold : Nat}
    {previous : Option Nat} (h : Alerted threshold previous) :
    (maybeAlertBalance formatEther label balance previous threshold).2.isSome =
      (previous.isSome || decide (balance < threshold)) := by
  cases previous with
  | none => by_cases hlt : balance < threshold <;> simp [maybeAlertBalance, hlt]
  | some b =>
      have hb : ¬ threshold ≤ b := Nat.not_le.mpr (h b rfl)
      simp [maybeAlertBalance, hb]

theorem maybeAlertBalance_alerted {label : String} {balance threshold : Nat}
    {previous : Option Nat} (h : Alerted threshold previous) :
    Alerted threshold (maybeAlertBalance formatEther label balance previous threshold).2 := by
  rw [maybeAlertBalance]
  split
  · rename_i hraise
    intro b hb
    cases hb
    exact hraise.1
  · exact h

/-! ### Whole histories -/

/-- One iteration, then the rest. -/
theorem raisedFrom_cons (previous : PreviousBalances) (label : BalanceLabel) (t : BalanceFetch)
    (ts : List BalanceFetch) :
    manager.raisedFrom formatEther previous label (t :: ts) =
      (check formatEther label (manager.observed t label) (previousOf previous label)
          (manager.threshold label)).1.map (·.alert.isSome) ++
        manager.raisedFrom formatEther (manager.monitorOnce formatEther previous t).previous
          label ts := by
  rw [← monitorOnce_label]
  simp [raisedFrom, startBalanceMonitor]

theorem raisedFrom_eq_latch {label : BalanceLabel} {previous : PreviousBalances}
    (ts : List BalanceFetch) (h : Alerted (manager.threshold label) (previousOf previous label)) :
    manager.raisedFrom formatEther previous label ts =
      Edges.latch (· < manager.threshold label) (previousOf previous label).isSome
        (manager.observations label ts) := by
  induction ts generalizing previous with
  | nil => rfl
  | cons t ts ih =>
      have hmemory := congrArg Prod.snd
        (@monitorOnce_label formatEther manager previous t label)
      rw [raisedFrom_cons]
      cases hobserved : manager.observed t label with
      | none =>
          simp only [hobserved, check] at hmemory
          rw [ih (hmemory ▸ h), hmemory]
          simp [check, observations, hobserved]
      | some balance =>
          simp only [hobserved, check] at hmemory
          rw [ih (hmemory ▸ maybeAlertBalance_alerted h), hmemory]
          simp [check, observations, hobserved, Edges.latch, maybeAlertBalance_isSome h,
            maybeAlertBalance_previous_isSome h]

/-- **A label alerts at its first observation below the threshold, and never
after that.** -/
theorem raisedAt_eq_latch (label : BalanceLabel) (ts : List BalanceFetch) :
    manager.raisedAt formatEther label ts =
      Edges.latch (· < manager.threshold label) false (manager.observations label ts) := by
  cases label <;> exact raisedFrom_eq_latch ts (fun _ hb => by cases hb)

/-- **The alerts of a label are the drops below its threshold exactly when its
balance does not drop again after a recovery.** -/
theorem raisedAt_iff (label : BalanceLabel) (ts : List BalanceFetch) :
    (∀ i, (manager.raisedAt formatEther label ts)[i]? = some true ↔
        Edges.Starts (· < manager.threshold label) (manager.observations label ts) i) ↔
      Edges.Once (· < manager.threshold label) (manager.observations label ts) := by
  rw [raisedAt_eq_latch]
  exact Edges.latch_iff_starts

section Sample

def noFetch : Except String Nat := .error "timeout"

/-- The operator's balance, and nothing else. -/
def ethFetch (balance : Nat) : BalanceFetch := ⟨.ok balance, noFetch, noFetch, fun _ => noFetch⟩

/-- Alerts below two wei. -/
def twoWei : BalanceManager := ⟨2, 0, 0, none⟩

/-- The second drop is not reported. -/
theorem second_drop_unnoticed :
    let ts := [ethFetch 1, ethFetch 3, ethFetch 1]
    Edges.Starts (· < twoWei.threshold .ethBalance) (twoWei.observations .ethBalance ts) 2 ∧
      (twoWei.raisedAt toString .ethBalance ts)[2]? = some false :=
  ⟨⟨1, rfl, by decide, .inr ⟨3, rfl, by decide⟩⟩, rfl⟩

end Sample

end BalanceManager

end TaikoGateway
