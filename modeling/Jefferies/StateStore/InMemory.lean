import Jefferies.StateStore.RunState

/-!
# The store in memory

The store that tests use. A process holds its maps, each behind a lock that an operation keeps to its end; one
counter numbers the leases of all runs, and no lease expires.
-/

namespace Jefferies.StateStore

structure InMemoryRunEntry where
  state : RunState

structure InMemoryLeaseEntry where
  serverId : String
  version : Nat
  deriving DecidableEq

structure InMemoryStateStore where
  runs : HashMap String InMemoryRunEntry
  leases : HashMap String InMemoryLeaseEntry
  leaseCounter : Nat

namespace InMemoryStateStore

def empty : InMemoryStateStore := ⟨∅, ∅, 0⟩

def saveRun (self : InMemoryStateStore) (runId : String) (state : RunState) (expectedVersion : Nat) :
    Bool × InMemoryStateStore :=
  let insert : Bool × InMemoryStateStore := (true, { self with runs := self.runs.insert runId ⟨state⟩ })
  match self.runs.lookup runId with
  | some entry => if entry.state.version ≠ expectedVersion then (false, self) else insert
  | none => if expectedVersion ≠ 0 then (false, self) else insert

def loadRun (self : InMemoryStateStore) (runId : String) : Option RunState :=
  (self.runs.lookup runId).map (·.state)

def deleteRun (self : InMemoryStateStore) (runId : String) : InMemoryStateStore :=
  { self with runs := self.runs.erase runId }

def tryAcquireLease (self : InMemoryStateStore) (runId serverId : String) : Option Nat × InMemoryStateStore :=
  match self.leases.lookup runId with
  | some _ => (none, self)
  | none =>
      (some (self.leaseCounter + 1),
        { self with
          leases := self.leases.insert runId ⟨serverId, self.leaseCounter + 1⟩
          leaseCounter := self.leaseCounter + 1 })

def renewLease (self : InMemoryStateStore) (runId serverId : String) (leaseVersion : Nat) : Bool :=
  match self.leases.lookup runId with
  | some entry => entry.serverId = serverId && entry.version = leaseVersion
  | none => false

def releaseLease (self : InMemoryStateStore) (runId : String) : InMemoryStateStore :=
  { self with leases := self.leases.erase runId }

/-- The runs without a lease whose state is as wanted, in the order in which the map is gone through. -/
def unleased (self : InMemoryStateStore) (order : HashMap.IterOrder String InMemoryRunEntry)
    (wanted : RunState → Bool) : List String :=
  ((order.entries self.runs).filter fun e => wanted e.2.state && (self.leases.lookup e.1).isNone).map Prod.fst

def getOrphanedRuns (self : InMemoryStateStore) (order : HashMap.IterOrder String InMemoryRunEntry) :
    List String :=
  self.unleased order fun state => !runStateIsTerminal state

def listTerminalUnleasedRuns (self : InMemoryStateStore) (order : HashMap.IterOrder String InMemoryRunEntry) :
    List String :=
  self.unleased order runStateIsTerminal

end InMemoryStateStore

end Jefferies.StateStore
