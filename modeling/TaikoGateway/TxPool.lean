/-
TaikoGateway/TxPool.lean

The transaction pool: the orders of each sender by nonce, a cache of account
nonces valid for one block number, and the snapshot of the pool that a block
is built from (`ActiveOrders`).

Where the source iterates over a `HashMap`, the order is a parameter
(`HashOrder`).  The address whose nonce is checked against the simulator is
drawn at random in the source and is an input here.
-/
import TaikoGateway.Types

namespace TaikoGateway

/-! ### Orders of one sender -/

structure TxList where
  sender : Address
  txs : BTreeMap Order

namespace TxList

def new (sender : Address) : TxList := ⟨sender, ∅⟩

/-- `first_key_value` -/
def first (l : TxList) : Option (Nat × Order) := l.txs.toList.head?

def put (l : TxList) (tx : Order) : Except Panic TxList :=
  if l.sender = tx.sender then .ok { l with txs := l.txs.insert tx.nonce tx }
  else .error .txListWrongSender

def hasTxByNonce (l : TxList) (nonce baseFee : Nat) : Bool :=
  match l.txs[nonce]? with
  | some tx => tx.validForBaseFee baseFee
  | none => false

def hasTxByFee (l : TxList) (baseFee : Nat) : Bool :=
  match l.first with
  | some (_, tx) => tx.validForBaseFee baseFee
  | none => false

/-- Removes all transactions with a nonce lower than the state nonce. -/
def forward (l : TxList) (stateNonce : Nat) : TxList :=
  { l with txs := l.txs.filter fun nonce _ => decide (stateNonce ≤ nonce) }

def len (l : TxList) : Nat := l.txs.size

def isEmpty (l : TxList) : Bool := l.txs.isEmpty

/-- Takes out the next order that can be simulated. -/
def firstReady (l : TxList) (stateNonce : Option Nat) (baseFee : Nat) : Option Order × TxList :=
  match stateNonce with
  | some stateNonce =>
      match l.txs[stateNonce]? with
      | some tx =>
          if tx.validForBaseFee baseFee then (some tx, { l with txs := l.txs.erase stateNonce })
          else (none, l)
      | none => (none, l)
  | none =>
      if l.hasTxByFee baseFee then
        match l.first with
        | some (nonce, tx) => (some tx, { l with txs := l.txs.erase nonce })
        | none => (none, l)
      else (none, l)

def weight (l : TxList) : Except Panic Nat :=
  match l.first with
  | some (_, tx) => .ok tx.tx.priorityFeeOrPrice
  | none => .error .txListEmpty

end TxList

/-! ### Nonces -/

/-- A map from sender to state nonce, for one block number. -/
structure StateNonces where
  nonces : HashMap Nat
  validBlock : Nat

namespace StateNonces

def new (validBlock : Nat) : StateNonces := ⟨∅, validBlock⟩

def isValidParent (n : StateNonces) (parentBlock : Nat) : Bool :=
  decide (n.validBlock = parentBlock + 1)

def isValidBlock (n : StateNonces) (blockNumber : Nat) : Bool :=
  decide (n.validBlock = blockNumber)

def get (n : StateNonces) (sender : Address) : Option Nat := n.nonces[sender]?

def insert (n : StateNonces) (sender : Address) (nonce : Nat) : StateNonces :=
  { n with nonces := n.nonces.insert sender nonce }

def clear (n : StateNonces) : StateNonces := { n with nonces := ∅ }

end StateNonces

/-- Nonces seen while sorting: of the parent state, and after the orders of
the block. -/
structure SortingNonces where
  state : StateNonces
  sorting : StateNonces

namespace SortingNonces

def new (validBlock : Nat) : SortingNonces := ⟨.new validBlock, .new validBlock⟩

def getNonce (n : SortingNonces) (sender : Address) : Option Nat :=
  (n.sorting.get sender).or (n.state.get sender)

def insertState (n : SortingNonces) (sender : Address) (nonce : Nat) : SortingNonces :=
  { n with state := n.state.insert sender nonce }

def insertSorting (n : SortingNonces) (sender : Address) (nonce : Nat) : SortingNonces :=
  { n with sorting := n.sorting.insert sender nonce }

def validBlock (n : SortingNonces) : Nat := n.state.validBlock

/-- State nonces first, so that a later one of the block replaces them. -/
def allIter (n : SortingNonces) : List (Address × Nat) :=
  n.state.nonces.toList ++ n.sorting.nonces.toList

def allMerged (n : SortingNonces) : StateNonces :=
  n.sorting.nonces.toList.foldl (fun s entry => s.insert entry.1 entry.2) n.state

end SortingNonces

/-! ### Active orders -/

/-- The order in which a `HashMap` gives its values. -/
structure HashOrder where
  values : HashMap TxList → List TxList
  perm : ∀ m, (values m).Perm (m.toList.map Prod.snd)

/-- The order of the keys. -/
def HashOrder.byKey : HashOrder := ⟨fun m => m.toList.map Prod.snd, fun _ => .refl _⟩

/-- The snapshot of the pool for one block. -/
structure ActiveOrders where
  txLists : List TxList
  /-- number of all txs when the snapshot was taken -/
  numTxs : Nat

namespace ActiveOrders

/-- `ActiveOrders::default()` -/
def empty : ActiveOrders := ⟨[], 0⟩

/-- Sorts by decreasing key.  Equal keys keep the order of the input, which
is arbitrary already. -/
def sortByWeight (keyed : List (Nat × TxList)) : List TxList :=
  (keyed.insertionSort fun a b => b.1 ≤ a.1).map Prod.snd

def new (order : HashOrder) (txs : HashMap TxList) : Except Panic ActiveOrders := do
  let txLists := order.values txs
  let numTxs := (txLists.map TxList.len).sum
  -- fewer than two lists are not compared
  if txLists.length < 2 then .ok { txLists := txLists, numTxs := numTxs }
  else do
    let keyed ← txLists.mapM fun l => do
      let w ← l.weight
      .ok (w, l)
    .ok { txLists := sortByWeight keyed, numTxs := numTxs }

/-- Puts the order into the list of its sender, or behind the others. -/
def putIn (order : Order) : List TxList → Except Panic (List TxList)
  | [] => do
      let l ← (TxList.new order.sender).put order
      .ok [l]
  | l :: ls =>
      if l.sender = order.sender then do
        let l ← l.put order
        .ok (l :: ls)
      else do
        let ls ← putIn order ls
        .ok (l :: ls)

def put (a : ActiveOrders) (order : Order) : Except Panic ActiveOrders := do
  let txLists ← putIn order a.txLists
  .ok { a with txLists := txLists }

/-- Removes the first list of the sender. -/
def removeSender (a : ActiveOrders) (sender : Address) : ActiveOrders :=
  { a with txLists := a.txLists.eraseP fun l => l.sender = sender }

/-- The next order of each list, for the first `max` lists that have one. -/
def nextBest (stateNonces : SortingNonces) (baseFee : Nat) :
    List TxList → Nat → List Order × List TxList
  | [], _ => ([], [])
  | l :: ls, 0 => ([], l :: ls)
  | l :: ls, max + 1 =>
      match l.firstReady (stateNonces.getNonce l.sender) baseFee with
      | (some order, l) =>
          let (orders, ls) := nextBest stateNonces baseFee ls max
          (order :: orders, l :: ls)
      | (none, l) =>
          let (orders, ls) := nextBest stateNonces baseFee ls (max + 1)
          (orders, l :: ls)

def getNextBest (a : ActiveOrders) (max : Nat) (stateNonces : SortingNonces) (baseFee : Nat) :
    List Order × ActiveOrders :=
  let (orders, txLists) := nextBest stateNonces baseFee a.txLists max
  (orders, { a with txLists := txLists })

end ActiveOrders

/-! ### The pool -/

structure TxPool where
  txLists : HashMap TxList
  /-- nonce cache -/
  nonces : StateNonces
  /-- duplicates and invalid nonces -/
  discardedOrders : Nat

namespace TxPool

def new : TxPool := ⟨∅, .new 0, 0⟩

/-- Inserts a tx, overwriting any existing tx with the same nonce. -/
def put (p : TxPool) (tx : Order) (parentBlock : Nat) : Except Panic TxPool :=
  let insert (p : TxPool) : Except Panic TxPool := do
    let l ← (p.txLists[tx.sender]?.getD (.new tx.sender)).put tx
    .ok { p with txLists := p.txLists.insert tx.sender l }
  if !p.nonces.isValidParent parentBlock then
    -- the nonces were last updated for a different block
    insert { p with nonces := if p.nonces.nonces.isEmpty then p.nonces else p.nonces.clear }
  else
    match p.nonces.get tx.sender with
    | some stateNonce =>
        if tx.nonce < stateNonce then .ok { p with discardedOrders := p.discardedOrders + 1 }
        else insert p
    | none => insert p

/-- The lists with an order for the cached nonce of their sender, and those of
new senders. -/
def getActiveForNonces (p : TxPool) (order : HashOrder) (baseFee : Nat) :
    Except Panic (Option ActiveOrders) := do
  let active : HashMap TxList ← p.txLists.toList.foldlM (fun active entry => do
    let (sender, l) := entry
    match p.nonces.get sender with
    | some stateNonce =>
        if l.hasTxByNonce stateNonce baseFee then
          let l := l.forward stateNonce
          if l.isEmpty then .error .activeListEmpty else .ok (active.insert sender l)
        else .ok active
    | none => .ok (if l.hasTxByFee baseFee then active.insert sender l else active)) ∅
  if active.isEmpty then .ok none
  else do
    let a ← ActiveOrders.new order active
    .ok (some a)

/-- The active orders for the block being built; stale nonces are cleared. -/
def activeOrders (p : TxPool) (order : HashOrder) (blockNumber baseFee : Nat) :
    Except Panic (Option ActiveOrders × TxPool) :=
  if !p.nonces.isValidBlock blockNumber then
    let p := { p with nonces := p.nonces.clear }
    if p.txLists.isEmpty then .ok (none, p)
    else do
      let a ← ActiveOrders.new order (p.txLists.filter fun _ l => l.hasTxByFee baseFee)
      .ok (some a, p)
  else do
    let a ← p.getActiveForNonces order baseFee
    .ok (a, p)

/-- Drops from the list of a sender what its nonce has passed. -/
def forwardSender (p : TxPool) (sender : Address) (stateNonce : Nat) : TxPool :=
  match p.txLists[sender]? with
  | none => p
  | some l =>
      let l := l.forward stateNonce
      { p with
        txLists := if l.isEmpty then p.txLists.erase sender else p.txLists.insert sender l }

/-- Updates from the state nonces only. -/
def updateReset (p : TxPool) (stateNonces : SortingNonces) : TxPool :=
  if p.nonces.validBlock = stateNonces.validBlock then
    -- usual case while sorting, merge the caches
    stateNonces.state.nonces.toList.foldl (fun (p : TxPool) entry =>
      ({ p with nonces := p.nonces.insert entry.1 entry.2 }).forwardSender entry.1 entry.2) p
  else
    let p := { p with nonces := stateNonces.state }
    p.nonces.nonces.toList.foldl (fun p entry => p.forwardSender entry.1 entry.2) p

/-- Updates from both state and sorting nonces of a sealed block. -/
def updateNewBlock (p : TxPool) (stateNonces : SortingNonces) : TxPool :=
  let p :=
    if p.nonces.validBlock = stateNonces.validBlock then
      -- usual case while sorting, merge the caches
      stateNonces.allIter.foldl (fun (p : TxPool) entry =>
        ({ p with nonces := p.nonces.insert entry.1 entry.2 }).forwardSender entry.1 entry.2) p
    else
      let p := { p with nonces := stateNonces.allMerged }
      p.nonces.nonces.toList.foldl (fun p entry => p.forwardSender entry.1 entry.2) p
  { p with nonces := { p.nonces with validBlock := p.nonces.validBlock + 1 } }

def clearNonces (p : TxPool) : TxPool := { p with nonces := p.nonces.clear }

/-- Compares the cached nonce of one sender, drawn at random, with the
simulator's. -/
def reportAndSanityCheck (p : TxPool) (parentBlock : Nat) (drawn : Address)
    (simulatorNonce : Option Nat) : TxPool :=
  match p.txLists[drawn]?, simulatorNonce with
  | some _, some simulatorNonce =>
      let cacheNonce := if p.nonces.isValidParent parentBlock then p.nonces.get drawn else none
      match cacheNonce with
      | some cacheNonce => if cacheNonce ≠ simulatorNonce then p.clearNonces else p
      | none => p
  | _, _ => p

end TxPool

end TaikoGateway
