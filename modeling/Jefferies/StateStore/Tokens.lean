import Jefferies.StateStore.InMemory
import Jefferies.StateStore.Redis
import Jefferies.Versioning.Token

/-!
# Lease versions as fencing tokens

Both stores keep leases: Redis with a counter for each run, the store in memory with one counter for all.
-/

namespace Jefferies.StateStore

open Versioning Transition

namespace RedisStateStore

/-- Redis as a keeper of leases, whose time to live may be over at any moment. -/
def keeper : Keeper String String RedisStateStore where
  lease self runId := (self.leases.lookup runId).map fun data => (data.version, data.serverId)
  acquire := tryAcquireLease
  renew := renewLease
  release := releaseLease
  expire self runId := some (self.expireLease runId)

/-- The last version that was granted for the run. -/
def lastVersion (self : RedisStateStore) (runId : String) : Nat := (self.leaseVersions.lookup runId).getD 0

theorem keeper_lease_erase (self : RedisStateStore) (runId : String) :
    keeper.lease { self with leases := self.leases.erase runId } = Function.update (keeper.lease self) runId none := by
  funext r
  by_cases hr : r = runId <;> simp [keeper, hr]

theorem keeper_lawful : keeper.Lawful lastVersion where
  granted := by
    intro self runId serverId v hv
    obtain ⟨hnone, rfl, hafter⟩ := tryAcquireLease_granted hv
    have hlast : ∀ r, lastVersion (self.tryAcquireLease runId serverId).2 r =
        if r = runId then self.nextVersion runId else lastVersion self r := by
      intro r
      rw [hafter]
      by_cases hr : r = runId <;> simp [lastVersion, HashMap.lookup_insert_eq_ite, hr]
    have hnext : self.nextVersion runId = lastVersion self runId + 1 := rfl
    have hlease : keeper.lease (self.tryAcquireLease runId serverId).2 =
        Function.update (keeper.lease self) runId (some (self.nextVersion runId, serverId)) := by
      funext r
      rw [hafter]
      by_cases hr : r = runId <;> simp [keeper, hr]
    refine ⟨by simp [keeper, hnone], by omega, ?_, ?_, hlease⟩
    · simp [keeper, hlast]
    · intro r
      have hr := hlast r
      simp only [keeper, hr]
      split
      · subst r
        omega
      · exact Nat.le_refl _
  denied := tryAcquireLease_denied
  renewed := by
    intro self runId serverId v
    simp only [keeper, renewLease]
    cases self.leases.lookup runId with
    | none => simp
    | some data => simp [and_comm]
  released self runId := ⟨rfl, keeper_lease_erase self runId⟩
  expired := by
    intro self runId self' h
    cases h
    exact ⟨rfl, keeper_lease_erase self runId⟩

end RedisStateStore

namespace InMemoryStateStore

/-- The store in memory as a keeper of leases; none of them expires. -/
def keeper : Keeper String String InMemoryStateStore where
  lease self runId := (self.leases.lookup runId).map fun entry => (entry.version, entry.serverId)
  acquire := tryAcquireLease
  renew := renewLease
  release := releaseLease
  expire _ _ := none

theorem tryAcquireLease_granted {self : InMemoryStateStore} {runId serverId : String} {v : Nat}
    (h : (self.tryAcquireLease runId serverId).1 = some v) :
    self.leases.lookup runId = none ∧ v = self.leaseCounter + 1 ∧
      (self.tryAcquireLease runId serverId).2 =
        { self with leases := self.leases.insert runId ⟨serverId, v⟩, leaseCounter := v } := by
  unfold tryAcquireLease at h ⊢
  cases hl : self.leases.lookup runId with
  | some entry => simp [hl] at h
  | none =>
      simp only [hl, Option.some.injEq] at h
      subst h
      exact ⟨rfl, rfl, rfl⟩

theorem tryAcquireLease_denied {self : InMemoryStateStore} {runId serverId : String}
    (h : (self.tryAcquireLease runId serverId).1 = none) :
    (self.tryAcquireLease runId serverId).2 = self := by
  unfold tryAcquireLease at h ⊢
  cases hl : self.leases.lookup runId with
  | some entry => rfl
  | none => simp [hl] at h

theorem keeper_lawful : keeper.Lawful fun self _ => self.leaseCounter where
  granted := by
    intro self runId serverId v hv
    obtain ⟨hnone, rfl, hafter⟩ := tryAcquireLease_granted hv
    have hlease : keeper.lease (self.tryAcquireLease runId serverId).2 =
        Function.update (keeper.lease self) runId (some (self.leaseCounter + 1, serverId)) := by
      funext r
      rw [hafter]
      by_cases hr : r = runId <;> simp [keeper, hr]
    exact ⟨by simp [keeper, hnone], by omega, by simp [keeper, hafter], by simp [keeper, hafter], hlease⟩
  denied := tryAcquireLease_denied
  renewed := by
    intro self runId serverId v
    simp only [keeper, renewLease]
    cases self.leases.lookup runId with
    | none => simp
    | some entry => simp [and_comm]
  released self runId := by
    constructor
    · rfl
    · funext r
      by_cases hr : r = runId <;> simp [keeper, releaseLease, hr]
  expired := by
    intro self runId self' h
    cases h

end InMemoryStateStore

/-- In every sequence of lease operations, versions granted for one run strictly increase, a lease is granted
only where none is stored, and a renewal succeeds exactly for the last grant until it has expired or been
released. -/
theorem lease_versions_are_tokens :
    (∀ (h : List (Step RedisStateStore (LeaseOp String String))) (self : RedisStateStore),
      Run RedisStateStore.keeper.step (· = RedisStateStore.empty) h self →
        RedisStateStore.keeper.Fenced (RedisStateStore.keeper.loans h) self) ∧
    (∀ (h : List (Step InMemoryStateStore (LeaseOp String String))) (self : InMemoryStateStore),
      Run InMemoryStateStore.keeper.step (· = InMemoryStateStore.empty) h self →
        InMemoryStateStore.keeper.Fenced (InMemoryStateStore.keeper.loans h) self) := by
  constructor
  · intro h self hr
    apply RedisStateStore.keeper_lawful.fenced _ hr
    intro s hs k
    subst hs
    rfl
  · intro h self hr
    apply InMemoryStateStore.keeper_lawful.fenced _ hr
    intro s hs k
    subst hs
    rfl

/-- A lease is taken over once it has expired; the first server cannot renew it any more. -/
theorem lease_versions_are_tokens_taken_over : ∃ (h : List (Step RedisStateStore (LeaseOp String String)))
    (self : RedisStateStore), Run RedisStateStore.keeper.step (· = RedisStateStore.empty) h self ∧
      self.renewLease "run" "first" 1 = false ∧ self.renewLease "run" "second" 2 = true ∧
      RedisStateStore.keeper.Fenced (RedisStateStore.keeper.loans h) self := by
  let check (p : List (Step RedisStateStore (LeaseOp String String)) × RedisStateStore) : Bool :=
    !p.2.renewLease "run" "first" 1 && p.2.renewLease "run" "second" 2
  have hrun : ∃ h self, Run RedisStateStore.keeper.step (· = RedisStateStore.empty) h self ∧
      check (h, self) = true :=
    exists_run (s := RedisStateStore.empty) RedisStateStore.keeper.step
      [.acquire "run" "first", .expire "run", .acquire "run" "second"] (by rfl) check (by decide)
  obtain ⟨h, self, hr, hcheck⟩ := hrun
  simp only [check, Bool.and_eq_true, Bool.not_eq_true'] at hcheck
  exact ⟨h, self, hr, hcheck.1, hcheck.2, lease_versions_are_tokens.1 h self hr⟩

end Jefferies.StateStore
