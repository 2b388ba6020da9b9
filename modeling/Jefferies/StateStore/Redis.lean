import Jefferies.StateStore.RunState

/-!
# The Redis store

Each operation is one command or one script, which Redis executes atomically. Keys that hold the states,
the leases and the counters of granted lease versions are three maps from the run id. The time to live of
a lease is not kept: a lease may expire at any moment, which is an operation of its own.
-/

namespace Jefferies.StateStore

structure RedisStateStore where
  runs : HashMap String RunState
  leases : HashMap String LeaseData
  leaseVersions : HashMap String Nat

namespace RedisStateStore

def empty : RedisStateStore := ⟨∅, ∅, ∅⟩

/-- Whether the script of `save_run` writes. -/
def accepts (self : RedisStateStore) (runId : String) (expectedVersion : Nat) : Bool :=
  match self.runs.lookup runId with
  | none => expectedVersion = 0
  | some current => current.version = expectedVersion

def saveRun (self : RedisStateStore) (runId : String) (state : RunState) (expectedVersion : Nat) :
    Bool × RedisStateStore :=
  if self.accepts runId expectedVersion then (true, { self with runs := self.runs.insert runId state })
  else (false, self)

def loadRun (self : RedisStateStore) (runId : String) : Option RunState := self.runs.lookup runId

def deleteRun (self : RedisStateStore) (runId : String) : RedisStateStore :=
  { self with runs := self.runs.erase runId }

/-- The version the next grant for the run would have. -/
def nextVersion (self : RedisStateStore) (runId : String) : Nat :=
  (self.leaseVersions.lookup runId).getD 0 + 1

def tryAcquireLease (self : RedisStateStore) (runId serverId : String) : Option Nat × RedisStateStore :=
  match self.leases.lookup runId with
  | some _ => (none, self)
  | none =>
      (some (self.nextVersion runId),
        { self with
          leases := self.leases.insert runId ⟨self.nextVersion runId, serverId⟩
          leaseVersions := self.leaseVersions.insert runId (self.nextVersion runId) })

def renewLease (self : RedisStateStore) (runId serverId : String) (leaseVersion : Nat) : Bool :=
  match self.leases.lookup runId with
  | none => false
  | some current => current.serverId = serverId && current.version = leaseVersion

def releaseLease (self : RedisStateStore) (runId : String) : RedisStateStore :=
  { self with leases := self.leases.erase runId }

def leaseExists (self : RedisStateStore) (runId : String) : Bool := (self.leases.lookup runId).isSome

/-- The time to live of the lease is over. -/
def expireLease (self : RedisStateStore) (runId : String) : RedisStateStore :=
  { self with leases := self.leases.erase runId }

/-! ## Saving -/

theorem saveRun_accepted {self : RedisStateStore} {runId : String} {expectedVersion : Nat}
    (h : self.accepts runId expectedVersion = true) (state : RunState) :
    self.saveRun runId state expectedVersion =
      (true, { self with runs := self.runs.insert runId state }) := by
  simp [saveRun, h]

theorem saveRun_rejected {self : RedisStateStore} {runId : String} {expectedVersion : Nat}
    (h : self.accepts runId expectedVersion = false) (state : RunState) :
    self.saveRun runId state expectedVersion = (false, self) := by
  simp [saveRun, h]

@[simp] theorem saveRun_fst (self : RedisStateStore) (runId : String) (state : RunState)
    (expectedVersion : Nat) :
    (self.saveRun runId state expectedVersion).1 = self.accepts runId expectedVersion := by
  cases h : self.accepts runId expectedVersion with
  | true => rw [saveRun_accepted h]
  | false => rw [saveRun_rejected h]

@[simp] theorem saveRun_leases (self : RedisStateStore) (runId : String) (state : RunState)
    (expectedVersion : Nat) : (self.saveRun runId state expectedVersion).2.leases = self.leases := by
  unfold saveRun
  split <;> rfl

@[simp] theorem saveRun_leaseVersions (self : RedisStateStore) (runId : String) (state : RunState)
    (expectedVersion : Nat) :
    (self.saveRun runId state expectedVersion).2.leaseVersions = self.leaseVersions := by
  unfold saveRun
  split <;> rfl

theorem accepts_iff {self : RedisStateStore} {runId : String} {expectedVersion : Nat} :
    self.accepts runId expectedVersion = true ↔
      (self.runs.lookup runId = none ∧ expectedVersion = 0) ∨
        ∃ current, self.runs.lookup runId = some current ∧ current.version = expectedVersion := by
  unfold accepts
  cases self.runs.lookup runId <;> simp

/-! ## Leases -/

/-- A lease is granted exactly when none is stored, and then it is stored. -/
theorem tryAcquireLease_granted {self : RedisStateStore} {runId serverId : String} {v : Nat}
    (h : (self.tryAcquireLease runId serverId).1 = some v) :
    self.leases.lookup runId = none ∧ v = self.nextVersion runId ∧
      (self.tryAcquireLease runId serverId).2 =
        { self with
          leases := self.leases.insert runId ⟨v, serverId⟩
          leaseVersions := self.leaseVersions.insert runId v } := by
  unfold tryAcquireLease at h ⊢
  cases hl : self.leases.lookup runId with
  | some d => simp [hl] at h
  | none =>
      simp only [hl, Option.some.injEq] at h
      subst h
      exact ⟨rfl, rfl, rfl⟩

theorem tryAcquireLease_denied {self : RedisStateStore} {runId serverId : String}
    (h : (self.tryAcquireLease runId serverId).1 = none) :
    (self.tryAcquireLease runId serverId).2 = self := by
  unfold tryAcquireLease at h ⊢
  cases hl : self.leases.lookup runId with
  | some d => rfl
  | none => simp [hl] at h

@[simp] theorem tryAcquireLease_runs (self : RedisStateStore) (runId serverId : String) :
    (self.tryAcquireLease runId serverId).2.runs = self.runs := by
  unfold tryAcquireLease
  split <;> rfl

end RedisStateStore

end Jefferies.StateStore
