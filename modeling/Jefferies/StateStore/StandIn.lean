import Jefferies.StateStore.InMemory
import Jefferies.StateStore.Refinement

/-!
# The store in memory as a stand-in for Redis

Both stores answer a sequence of operations alike, up to the names of the granted lease versions: Redis counts the
grants of each run, and the store in memory counts all grants. The k-th grant of a run in one store is the k-th
grant of the run in the other.
-/

namespace Jefferies.StateStore

/-! ## Operations and answers -/

inductive StoreOp where
  | saveRun (runId : String) (state : RunState) (expectedVersion : Nat)
  | loadRun (runId : String)
  | deleteRun (runId : String)
  | tryAcquireLease (runId serverId : String)
  | renewLease (runId serverId : String) (leaseVersion : Nat)
  | releaseLease (runId : String)
  | getOrphanedRuns
  | listTerminalUnleasedRuns

inductive StoreAnswer where
  | flag (b : Bool)
  | state (state : Option RunState)
  | done
  | grant (version : Option Nat)
  | runs (runIds : List String)
  | failed (error : StateStoreError)

/-- An operation, with the orders in which the stores go through their maps meanwhile. -/
structure StoreCall where
  op : StoreOp
  redisOrder : HashMap.IterOrder String String
  memoryOrder : HashMap.IterOrder String InMemoryRunEntry

def StoreOp.runId : StoreOp → Option String
  | .saveRun runId _ _ => some runId
  | .loadRun runId => some runId
  | .deleteRun runId => some runId
  | .tryAcquireLease runId _ => some runId
  | .renewLease runId _ _ => some runId
  | .releaseLease runId => some runId
  | .getOrphanedRuns => none
  | .listTerminalUnleasedRuns => none

def StoreAnswer.ofExcept {α : Type} (f : α → StoreAnswer) : Except StateStoreError α → StoreAnswer
  | .ok a => f a
  | .error e => .failed e

def Keyspace.perform (texts : Texts) (self : Keyspace) (order : HashMap.IterOrder String String) :
    StoreOp → StoreAnswer × Keyspace
  | .saveRun runId state expected =>
      (.ofExcept .flag (self.saveRun texts runId state expected).1, (self.saveRun texts runId state expected).2)
  | .loadRun runId => (.ofExcept .state (self.loadRun texts runId), self)
  | .deleteRun runId => (.done, self.deleteRun runId)
  | .tryAcquireLease runId serverId =>
      (.ofExcept .grant (self.tryAcquireLease texts runId serverId).1, (self.tryAcquireLease texts runId serverId).2)
  | .renewLease runId serverId version => (.ofExcept .flag (self.renewLease texts runId serverId version), self)
  | .releaseLease runId => (.done, self.releaseLease runId)
  | .getOrphanedRuns => (.runs (self.getOrphanedRuns texts order), self)
  | .listTerminalUnleasedRuns => (.runs (self.listTerminalUnleasedRuns texts order), self)

def InMemoryStateStore.perform (self : InMemoryStateStore) (order : HashMap.IterOrder String InMemoryRunEntry) :
    StoreOp → StoreAnswer × InMemoryStateStore
  | .saveRun runId state expected =>
      (.flag (self.saveRun runId state expected).1, (self.saveRun runId state expected).2)
  | .loadRun runId => (.state (self.loadRun runId), self)
  | .deleteRun runId => (.done, self.deleteRun runId)
  | .tryAcquireLease runId serverId =>
      (.grant (self.tryAcquireLease runId serverId).1, (self.tryAcquireLease runId serverId).2)
  | .renewLease runId serverId version => (.flag (self.renewLease runId serverId version), self)
  | .releaseLease runId => (.done, self.releaseLease runId)
  | .getOrphanedRuns => (.runs (self.getOrphanedRuns order), self)
  | .listTerminalUnleasedRuns => (.runs (self.listTerminalUnleasedRuns order), self)

/-- What Redis answers to the calls, one after the other. -/
def Keyspace.answers (texts : Texts) : Keyspace → List StoreCall → List StoreAnswer
  | _, [] => []
  | self, c :: calls =>
      (self.perform texts c.redisOrder c.op).1 :: answers texts (self.perform texts c.redisOrder c.op).2 calls

def InMemoryStateStore.answers : InMemoryStateStore → List StoreCall → List StoreAnswer
  | _, [] => []
  | self, c :: calls => (self.perform c.memoryOrder c.op).1 :: answers (self.perform c.memoryOrder c.op).2 calls

/-- The run and the version that an answered operation grants. -/
def StoreOp.granted : StoreOp → StoreAnswer → List (String × Nat)
  | .tryAcquireLease runId _, .grant (some version) => [(runId, version)]
  | _, _ => []

/-- The versions that Redis grants along the calls, each with its run. -/
def Keyspace.granted (texts : Texts) : Keyspace → List StoreCall → List (String × Nat)
  | _, [] => []
  | self, c :: calls =>
      c.op.granted (self.perform texts c.redisOrder c.op).1 ++
        granted texts (self.perform texts c.redisOrder c.op).2 calls

theorem Keyspace.granted_prefix (texts : Texts) (self : Keyspace) (calls₁ calls₂ : List StoreCall) :
    self.granted texts calls₁ <+: self.granted texts (calls₁ ++ calls₂) := by
  induction calls₁ generalizing self with
  | nil => exact List.nil_prefix
  | cons c calls ih => exact (List.prefix_append_right_inj _).mpr (ih _)

/-- The same call with the lease versions of each run renamed. -/
def StoreCall.rename (ρ : String → Nat → Nat) (c : StoreCall) : StoreCall :=
  match c.op with
  | .renewLease runId serverId version => { c with op := .renewLease runId serverId (ρ runId version) }
  | _ => c

/-- The answers are the same, up to the names of granted versions and the order of listed runs. -/
def StoreAnswer.Alike (f : Nat → Nat) : StoreAnswer → StoreAnswer → Prop
  | .grant v, .grant v' => v' = v.map f
  | .runs l, .runs l' => l.Perm l'
  | a, a' => a = a'

def StoreOp.Alike (ρ : String → Nat → Nat) (op : StoreOp) (a a' : StoreAnswer) : Prop :=
  a.Alike (ρ (op.runId.getD "")) a'

/-- All answers are alike, each to its call. -/
def AnswersAlike (ρ : String → Nat → Nat) : List StoreCall → List StoreAnswer → List StoreAnswer → Prop
  | [], [], [] => True
  | c :: calls, a :: as, a' :: as' => c.op.Alike ρ a a' ∧ AnswersAlike ρ calls as as'
  | _, _, _ => False

/-- Sequences of calls that are compared: run ids without a colon, versions below the limit, and renewals only
with versions that were granted before. -/
structure Comparable (texts : Texts) (limit : Nat) (calls : List StoreCall) : Prop where
  plain : ∀ c ∈ calls, ∀ r, c.op.runId = some r → ':' ∉ r.toList
  versions : ∀ c ∈ calls, ∀ r state expected, c.op = .saveRun r state expected →
    state.version < limit ∧ expected < limit
  grants : ∀ r v, (r, v) ∈ Keyspace.empty.granted texts calls → v < limit
  tokens : ∀ calls₁ c calls₂, calls = calls₁ ++ c :: calls₂ → ∀ r s v, c.op = .renewLease r s v →
    (r, v) ∈ Keyspace.empty.granted texts calls₁

/-- The texts that the calls write are read back while versions are below the limit. -/
structure Texts.Reads (texts : Texts) (limit : Nat) (calls : List StoreCall) : Prop where
  exact : texts.Exact limit
  states : ∀ c ∈ calls, ∀ r state expected, c.op = .saveRun r state expected → state.version < limit →
    texts.ReadsState state
  leases : ∀ c ∈ calls, ∀ r s, c.op = .tryAcquireLease r s → ∀ v < limit, texts.ReadsLease ⟨v, s⟩

/-! ## Names of granted versions -/

/-- The versions that the store in memory has granted, by run and in order. The n-th of them is the version n of
Redis. -/
abbrev Grants : Type := String → List Nat

namespace Grants

def Names (p : Grants) (r : String) (v i : Nat) : Prop := 0 < v ∧ (p r)[v - 1]? = some i

/-- The name in memory of a version of Redis. -/
def rename (p : Grants) (r : String) (v : Nat) : Nat := (p r)[v - 1]?.getD 0

def Extends (p' p : Grants) : Prop := ∀ r, p r <+: p' r

def add (p : Grants) (r : String) (i : Nat) : Grants := Function.update p r (p r ++ [i])

variable {p p' : Grants} {r : String} {v v' i i' : Nat}

theorem Extends.refl (p : Grants) : p.Extends p := fun _ => List.prefix_refl _

theorem Extends.trans {p'' : Grants} (h' : p''.Extends p') (h : p'.Extends p) : p''.Extends p :=
  fun r => (h r).trans (h' r)

theorem extends_add (p : Grants) (r : String) (i : Nat) : (p.add r i).Extends p := by
  intro r'
  by_cases hr : r' = r
  · subst hr
    simp [add]
  · simp [add, hr]

theorem Names.extend (h : p.Names r v i) (hp : p'.Extends p) : p'.Names r v i := by
  obtain ⟨hv, hi⟩ := h
  obtain ⟨rest, hrest⟩ := hp r
  refine ⟨hv, ?_⟩
  rw [← hrest, List.getElem?_append_left (List.getElem?_eq_some_iff.mp hi).1, hi]

theorem Names.rename_eq (h : p.Names r v i) : p.rename r v = i := by
  simp [rename, h.2]

theorem names_iff_le : (∃ i, p.Names r v i) ↔ 0 < v ∧ v ≤ (p r).length := by
  constructor
  · intro ⟨i, hv, hi⟩
    have := (List.getElem?_eq_some_iff.mp hi).1
    omega
  · intro ⟨hv, hle⟩
    have hlt : v - 1 < (p r).length := by omega
    exact ⟨(p r)[v - 1], hv, List.getElem?_eq_getElem hlt⟩

/-- Names are in the order of the versions. -/
theorem Names.lt_iff (hp : (p r).Pairwise (· < ·)) (h : p.Names r v i) (h' : p.Names r v' i') :
    v < v' ↔ i < i' := by
  obtain ⟨hv, hi⟩ := h
  obtain ⟨hv', hi'⟩ := h'
  obtain ⟨hlt, rfl⟩ := List.getElem?_eq_some_iff.mp hi
  obtain ⟨hlt', rfl⟩ := List.getElem?_eq_some_iff.mp hi'
  have hmono := List.pairwise_iff_getElem.mp hp
  constructor
  · intro h
    exact hmono _ _ hlt hlt' (by omega)
  · intro h
    by_contra hle
    rcases Nat.eq_or_lt_of_le (Nat.le_of_not_lt hle) with heq | hgt
    · subst heq
      omega
    · have := hmono _ _ hlt' hlt (by omega)
      omega

theorem Names.inj (hp : (p r).Pairwise (· < ·)) (h : p.Names r v i) (h' : p.Names r v' i') : v = v' ↔ i = i' := by
  have h₁ := h.lt_iff hp h'
  have h₂ := h'.lt_iff hp h
  omega

end Grants

/-! ## The same state in both stores -/

/-- The store in memory holds the same states, and the same leases under the names of their versions. -/
structure Matches (p : Grants) (store : RedisStateStore) (memory : InMemoryStateStore) : Prop where
  runs : ∀ r, (memory.runs.lookup r).map (·.state) = store.runs.lookup r
  unleased : ∀ r, memory.leases.lookup r = none ↔ store.leases.lookup r = none
  leased : ∀ r lease entry, store.leases.lookup r = some lease → memory.leases.lookup r = some entry →
    entry.serverId = lease.serverId ∧ p.Names r lease.version entry.version
  counters : ∀ r, (store.leaseVersions.lookup r).getD 0 = (p r).length
  bounded : ∀ r i, i ∈ p r → i ≤ memory.leaseCounter
  increasing : ∀ r, (p r).Pairwise (· < ·)

namespace Matches

variable {p : Grants} {store : RedisStateStore} {memory : InMemoryStateStore}

theorem empty : Matches (fun _ => []) .empty .empty where
  runs _ := rfl
  unleased _ := by simp [InMemoryStateStore.empty, RedisStateStore.empty]
  leased _ _ _ h := by cases h
  counters _ := rfl
  bounded _ _ h := by cases h
  increasing _ := List.Pairwise.nil

theorem saveRun (h : Matches p store memory) (runId : String) (state : RunState) (expected : Nat) :
    (memory.saveRun runId state expected).1 = (store.saveRun runId state expected).1 ∧
      Matches p (store.saveRun runId state expected).2 (memory.saveRun runId state expected).2 := by
  have hinsert : Matches p { store with runs := store.runs.insert runId state }
      { memory with runs := memory.runs.insert runId ⟨state⟩ } := by
    refine { h with runs := fun r => ?_ }
    rw [HashMap.lookup_insert_eq_ite, HashMap.lookup_insert_eq_ite]
    split
    · rfl
    · exact h.runs r
  have hruns := h.runs runId
  unfold InMemoryStateStore.saveRun RedisStateStore.saveRun RedisStateStore.accepts
  cases hl : memory.runs.lookup runId with
  | none =>
      rw [hl, Option.map_none] at hruns
      rw [← hruns]
      by_cases he : expected = 0
      · simpa [he] using hinsert
      · simpa [he] using h
  | some entry =>
      rw [hl, Option.map_some] at hruns
      rw [← hruns]
      by_cases he : entry.state.version = expected
      · simpa [he] using hinsert
      · simpa [he] using h

theorem deleteRun (h : Matches p store memory) (runId : String) :
    Matches p (store.deleteRun runId) (memory.deleteRun runId) := by
  refine { h with runs := fun r => ?_ }
  simp only [RedisStateStore.deleteRun, InMemoryStateStore.deleteRun, HashMap.lookup_erase_eq_ite]
  by_cases hr : r = runId
  · simp [hr]
  · simp [hr, h.runs]

theorem releaseLease (h : Matches p store memory) (runId : String) :
    Matches p (store.releaseLease runId) (memory.releaseLease runId) := by
  refine { h with unleased := fun r => ?_, leased := fun r lease entry hl hm => ?_ }
  · simp only [RedisStateStore.releaseLease, InMemoryStateStore.releaseLease, HashMap.lookup_erase_eq_ite]
    split
    · simp
    · exact h.unleased r
  · simp only [RedisStateStore.releaseLease, InMemoryStateStore.releaseLease,
      HashMap.lookup_erase_eq_ite] at hl hm
    split at hl
    · cases hl
    · rename_i hr
      rw [if_neg hr] at hm
      exact h.leased r lease entry hl hm

/-- A lease that is renewed under one name is renewed under the other. -/
theorem renewLease (h : Matches p store memory) {runId : String} {v i : Nat} (hn : p.Names runId v i)
    (serverId : String) : memory.renewLease runId serverId i = store.renewLease runId serverId v := by
  unfold InMemoryStateStore.renewLease RedisStateStore.renewLease
  cases hl : store.leases.lookup runId with
  | none => rw [(h.unleased runId).mpr hl]
  | some lease =>
      cases hm : memory.leases.lookup runId with
      | none =>
          rw [(h.unleased runId).mp hm] at hl
          cases hl
      | some entry =>
          obtain ⟨hserver, hnames⟩ := h.leased runId lease entry hl hm
          have hversion := hnames.inj (h.increasing runId) hn
          simp [hserver, hversion]

/-- A grant in both stores has a new name. -/
theorem grant (h : Matches p store memory) {runId : String} (hl : store.leases.lookup runId = none)
    (serverId : String) :
    Matches (p.add runId (memory.leaseCounter + 1)) (store.tryAcquireLease runId serverId).2
      (memory.tryAcquireLease runId serverId).2 ∧
      (p.add runId (memory.leaseCounter + 1)).Names runId (store.nextVersion runId) (memory.leaseCounter + 1) := by
  have hm := (h.unleased runId).mpr hl
  have hnext : store.nextVersion runId = (p runId).length + 1 := by rw [RedisStateStore.nextVersion, h.counters]
  have hname : (p.add runId (memory.leaseCounter + 1)).Names runId (store.nextVersion runId)
      (memory.leaseCounter + 1) := by
    simp [Grants.Names, Grants.add, hnext]
  have hadd : ∀ {r}, r ≠ runId → p.add runId (memory.leaseCounter + 1) r = p r := fun hr =>
    Function.update_of_ne hr _ _
  have hself : p.add runId (memory.leaseCounter + 1) runId = p runId ++ [memory.leaseCounter + 1] :=
    Function.update_self ..
  simp only [RedisStateStore.tryAcquireLease, InMemoryStateStore.tryAcquireLease, hl, hm]
  refine ⟨?_, hname⟩
  constructor
  · exact h.runs
  · intro r
    simp only [HashMap.lookup_insert_eq_ite]
    split
    · simp
    · exact h.unleased r
  · intro r lease entry hlease hentry
    by_cases hr : r = runId
    · subst hr
      simp only [Finmap.lookup_insert, Option.some.injEq] at hlease hentry
      subst hlease hentry
      exact ⟨rfl, hname⟩
    · simp only [Finmap.lookup_insert_of_ne _ hr] at hlease hentry
      obtain ⟨hserver, hnames⟩ := h.leased r lease entry hlease hentry
      exact ⟨hserver, hnames.extend (Grants.extends_add p runId _)⟩
  · intro r
    by_cases hr : r = runId
    · subst hr
      simp [hself, hnext]
    · simpa [Finmap.lookup_insert_of_ne _ hr, hadd hr] using h.counters r
  · intro r i hi
    by_cases hr : r = runId
    · subst hr
      rw [hself, List.mem_append, List.mem_singleton] at hi
      rcases hi with hi | rfl
      · exact Nat.le_succ_of_le (h.bounded r i hi)
      · exact Nat.le_refl _
    · rw [hadd hr] at hi
      exact Nat.le_succ_of_le (h.bounded r i hi)
  · intro r
    by_cases hr : r = runId
    · subst hr
      rw [hself, List.pairwise_append]
      refine ⟨h.increasing r, List.pairwise_singleton _ _, fun i hi j hj => ?_⟩
      rw [List.mem_singleton.mp hj]
      exact Nat.lt_succ_of_le (h.bounded r i hi)
    · rw [hadd hr]
      exact h.increasing r

/-! ## Listing -/

theorem mem_unleased (h : Matches p store memory) {order : HashMap.IterOrder String InMemoryRunEntry}
    {wanted : RunState → Bool} {runId : String} :
    runId ∈ memory.unleased order wanted ↔
      ∃ state, store.runs.lookup runId = some state ∧ wanted state = true ∧ store.leases.lookup runId = none := by
  simp only [InMemoryStateStore.unleased, List.mem_map, List.mem_filter, Bool.and_eq_true,
    Option.isNone_iff_eq_none]
  constructor
  · intro ⟨⟨r, entry⟩, ⟨hmem, hwanted, hlease⟩, heq⟩
    subst heq
    refine ⟨entry.state, ?_, hwanted, (h.unleased r).mp hlease⟩
    rw [← h.runs, order.mem_entries.mp hmem, Option.map_some]
  · intro ⟨state, hl, hwanted, hlease⟩
    rw [← h.runs, Option.map_eq_some_iff] at hl
    obtain ⟨entry, hentry, rfl⟩ := hl
    exact ⟨(runId, entry), ⟨order.mem_entries.mpr hentry, hwanted, (h.unleased runId).mpr hlease⟩, rfl⟩

theorem nodup_unleased (memory : InMemoryStateStore) (order : HashMap.IterOrder String InMemoryRunEntry)
    (wanted : RunState → Bool) : (memory.unleased order wanted).Nodup :=
  (order.nodup_keys memory.runs).sublist (List.filter_sublist.map Prod.fst)

end Matches

/-- Both stores list the same runs. -/
theorem unleased_perm {texts : Texts} {self : Keyspace} {p : Grants} {store : RedisStateStore}
    {memory : InMemoryStateStore} (hrep : Represents texts self store) (hread : Readable texts store)
    (h : Matches p store memory) (c : StoreCall) (wanted : RunState → Bool) :
    (self.unleased texts c.redisOrder wanted).Perm (memory.unleased c.memoryOrder wanted) := by
  apply (List.perm_ext_iff_of_nodup (hrep.nodup_unleased hread _ _) (Matches.nodup_unleased _ _ _)).mpr
  intro r
  rw [hrep.mem_unleased hread, h.mem_unleased]

/-! ## One operation -/

/-- Both stores stand for the same states and leases, and no version has reached the limit. -/
structure Related (texts : Texts) (limit : Nat) (p : Grants) (keyspace : Keyspace) (store : RedisStateStore)
    (memory : InMemoryStateStore) : Prop where
  represents : Represents texts keyspace store
  readable : Readable texts store
  agrees : Matches p store memory
  named : ∀ r v i, p.Names r v i → v < limit

/-- The names of all versions are those of `p`. -/
def Grants.Named (ρ : String → Nat → Nat) (p : Grants) : Prop := ∀ r v i, p.Names r v i → ρ r v = i

theorem Grants.Named.of_extends {ρ : String → Nat → Nat} {p p' : Grants} (h : p'.Named ρ) (hp : p'.Extends p) :
    p.Named ρ := fun r v i hn => h r v i (hn.extend hp)

namespace Related

variable {texts : Texts} {limit : Nat} {p : Grants} {self : Keyspace} {store : RedisStateStore}
  {memory : InMemoryStateStore}

theorem nextVersion_le (h : Related texts limit p self store memory) (r : String) :
    store.nextVersion r ≤ limit ∨ store.nextVersion r = 1 := by
  rw [RedisStateStore.nextVersion, h.agrees.counters]
  by_cases hempty : (p r).length = 0
  · exact Or.inr (by omega)
  · obtain ⟨i, hi⟩ := Grants.names_iff_le.mpr ⟨Nat.pos_of_ne_zero hempty, Nat.le_refl _⟩
    have := h.named r _ i hi
    exact Or.inl (by omega)

theorem saveRun (h : Related texts limit p self store memory) (hexact : texts.Exact limit) {runId : String}
    {state : RunState} {expected : Nat} (hplain : ':' ∉ runId.toList) (hreads : texts.ReadsState state)
    (he : expected < limit) :
    (self.saveRun texts runId state expected).1 = .ok (memory.saveRun runId state expected).1 ∧
      Related texts limit p (self.saveRun texts runId state expected).2 (store.saveRun runId state expected).2
        (memory.saveRun runId state expected).2 := by
  obtain ⟨hanswer, hrep⟩ := h.represents.saveRun h.readable runId state (hexact.below expected he)
  obtain ⟨hsame, hagrees⟩ := h.agrees.saveRun runId state expected
  have hread : Readable texts (store.saveRun runId state expected).2 := by
    cases hacc : store.accepts runId expected with
    | false =>
        rw [RedisStateStore.saveRun_rejected hacc]
        exact h.readable
    | true =>
        rw [RedisStateStore.saveRun_accepted hacc]
        constructor
        · intro r state' hl
          rw [HashMap.lookup_insert_eq_ite] at hl
          split at hl
          · rename_i hr
            exact hr ▸ hplain
          · exact h.readable.plain r state' hl
        · intro r state' hl
          rw [HashMap.lookup_insert_eq_ite] at hl
          split at hl
          · cases hl
            exact hreads
          · exact h.readable.state r state' hl
        · exact h.readable.lease
  exact ⟨by rw [hanswer, hsame], hrep, hread, hagrees, h.named⟩

theorem deleteRun (h : Related texts limit p self store memory) (runId : String) :
    Related texts limit p (self.deleteRun runId) (store.deleteRun runId) (memory.deleteRun runId) where
  represents := h.represents.delState runId
  readable := by
    have hold : ∀ r state, (store.runs.erase runId).lookup r = some state → store.runs.lookup r = some state := by
      intro r state hl
      rw [HashMap.lookup_erase_eq_ite] at hl
      split at hl
      · cases hl
      · exact hl
    constructor
    · exact fun r state hl => h.readable.plain r state (hold r state hl)
    · exact fun r state hl => h.readable.state r state (hold r state hl)
    · exact h.readable.lease
  agrees := h.agrees.deleteRun runId
  named := h.named

theorem releaseLease (h : Related texts limit p self store memory) (runId : String) :
    Related texts limit p (self.releaseLease runId) (store.releaseLease runId) (memory.releaseLease runId) where
  represents := h.represents.delLease runId
  readable := by
    refine { h.readable with lease := fun r lease hl => h.readable.lease r lease ?_ }
    rw [RedisStateStore.releaseLease, HashMap.lookup_erase_eq_ite] at hl
    split at hl
    · cases hl
    · exact hl
  agrees := h.agrees.releaseLease runId
  named := h.named

/-- A lease that is held is denied in both stores. -/
theorem denied (h : Related texts limit p self store memory) {runId : String} {lease : LeaseData}
    (hl : store.leases.lookup runId = some lease) (serverId : String) :
    self.tryAcquireLease texts runId serverId = (.ok none, self) ∧
      memory.tryAcquireLease runId serverId = (none, memory) := by
  constructor
  · unfold Keyspace.tryAcquireLease
    rw [h.represents.lease, hl]
    rfl
  · unfold InMemoryStateStore.tryAcquireLease
    cases hm : memory.leases.lookup runId with
    | some entry => rfl
    | none =>
        rw [(h.agrees.unleased runId).mp hm] at hl
        cases hl

/-- A lease that is free is granted in both stores, as long as the version is below the limit. -/
theorem granted (h : Related texts limit p self store memory) (hexact : texts.Exact limit)
    (hlimit : limit ≤ 2 ^ 53) {runId serverId : String} (hl : store.leases.lookup runId = none)
    (hreads : ∀ v < limit, texts.ReadsLease ⟨v, serverId⟩)
    (hgrant : ∀ v, (self.tryAcquireLease texts runId serverId).1 = .ok (some v) → v < limit) :
    (self.tryAcquireLease texts runId serverId).1 = .ok (some (store.nextVersion runId)) ∧
      (memory.tryAcquireLease runId serverId).1 = some (memory.leaseCounter + 1) ∧
      (p.add runId (memory.leaseCounter + 1)).Names runId (store.nextVersion runId) (memory.leaseCounter + 1) ∧
      Related texts limit (p.add runId (memory.leaseCounter + 1)) (self.tryAcquireLease texts runId serverId).2
        (store.tryAcquireLease runId serverId).2 (memory.tryAcquireLease runId serverId).2 := by
  have hn : store.nextVersion runId < 2 ^ 63 := by
    have := h.nextVersion_le runId
    omega
  have hbelow : store.nextVersion runId < limit := by
    by_contra hle
    have hanswer := hgrant _ (h.represents.tryAcquireLease_answer hn hl serverId)
    have := hexact.above _ (Nat.le_of_not_lt hle)
    omega
  obtain ⟨hanswer, hrep⟩ := h.represents.tryAcquireLease hn (hexact.below _ hbelow) serverId
  obtain ⟨hagrees, hname⟩ := h.agrees.grant hl serverId
  have hm := (h.agrees.unleased runId).mpr hl
  refine ⟨?_, ?_, hname, hrep, ?_, hagrees, ?_⟩
  · rw [hanswer, RedisStateStore.tryAcquireLease, hl]
  · rw [InMemoryStateStore.tryAcquireLease, hm]
  · simp only [RedisStateStore.tryAcquireLease, hl]
    refine { h.readable with lease := fun r lease hlease => ?_ }
    rw [HashMap.lookup_insert_eq_ite] at hlease
    split at hlease
    · cases hlease
      exact hreads _ hbelow
    · exact h.readable.lease r lease hlease
  · intro r v i hnames
    by_cases hr : r = runId
    · subst hr
      have hle := (Grants.names_iff_le.mp ⟨i, hnames⟩).2
      have hnext : store.nextVersion r = (p r).length + 1 := by rw [RedisStateStore.nextVersion, h.agrees.counters]
      simp only [Grants.add, Function.update_self, List.length_append, List.length_singleton] at hle
      omega
    · simp only [Grants.Names, Grants.add, Function.update_of_ne hr] at hnames
      exact h.named r v i hnames

theorem renewLease (h : Related texts limit p self store memory) (hexact : texts.Exact limit) {runId : String}
    {v i : Nat} (hn : p.Names runId v i) (serverId : String) :
    self.renewLease texts runId serverId v = .ok (memory.renewLease runId serverId i) := by
  rw [h.agrees.renewLease hn]
  exact h.represents.renewLease h.readable runId serverId (hexact.below v (h.named runId v i hn))

theorem loadRun (h : Related texts limit p self store memory) (runId : String) :
    self.loadRun texts runId = .ok (memory.loadRun runId) := by
  rw [h.represents.loadRun h.readable, RedisStateStore.loadRun, InMemoryStateStore.loadRun, h.agrees.runs]

/-- One call is answered alike in both stores, and they stay related. -/
theorem perform (h : Related texts limit p self store memory) (hexact : texts.Exact limit)
    (hlimit : limit ≤ 2 ^ 53) {c : StoreCall} (hplain : ∀ r, c.op.runId = some r → ':' ∉ r.toList)
    (hstates : ∀ r state expected, c.op = .saveRun r state expected → texts.ReadsState state ∧ expected < limit)
    (hleases : ∀ r s, c.op = .tryAcquireLease r s → ∀ v < limit, texts.ReadsLease ⟨v, s⟩)
    (hgrants : ∀ r v, (r, v) ∈ c.op.granted (self.perform texts c.redisOrder c.op).1 → v < limit)
    (htokens : ∀ r s v, c.op = .renewLease r s v → ∃ i, p.Names r v i) :
    ∃ p' store', p'.Extends p ∧
      (∀ r v, (r, v) ∈ c.op.granted (self.perform texts c.redisOrder c.op).1 → ∃ i, p'.Names r v i) ∧
      ∀ ρ, p'.Named ρ →
        Related texts limit p' (self.perform texts c.redisOrder c.op).2 store'
          (memory.perform (c.rename ρ).memoryOrder (c.rename ρ).op).2 ∧
        c.op.Alike ρ (self.perform texts c.redisOrder c.op).1
          (memory.perform (c.rename ρ).memoryOrder (c.rename ρ).op).1 := by
  obtain ⟨op, redisOrder, memoryOrder⟩ := c
  cases op with
  | saveRun r state expected =>
      obtain ⟨hreads, he⟩ := hstates r state expected rfl
      obtain ⟨hanswer, hnext⟩ := h.saveRun hexact (hplain r rfl) hreads he
      refine ⟨p, _, .refl p, fun _ _ hmem => absurd hmem List.not_mem_nil, fun ρ _ => ⟨hnext, ?_⟩⟩
      simp only [Keyspace.perform, hanswer]
      rfl
  | loadRun r =>
      refine ⟨p, store, .refl p, fun _ _ hmem => absurd hmem List.not_mem_nil, fun ρ _ => ⟨h, ?_⟩⟩
      simp only [Keyspace.perform, h.loadRun r]
      rfl
  | deleteRun r =>
      exact ⟨p, _, .refl p, fun _ _ hmem => absurd hmem List.not_mem_nil, fun ρ _ => ⟨h.deleteRun r, rfl⟩⟩
  | tryAcquireLease r s =>
      cases hl : store.leases.lookup r with
      | some lease =>
          obtain ⟨hredis, hmemory⟩ := h.denied hl s
          refine ⟨p, store, .refl p, ?_, fun ρ _ => ?_⟩
          · simp only [Keyspace.perform, hredis]
            exact fun _ _ hmem => absurd hmem List.not_mem_nil
          · simp only [StoreCall.rename, Keyspace.perform, InMemoryStateStore.perform, hredis, hmemory]
            exact ⟨h, rfl⟩
      | none =>
          have hgrant : ∀ v, (self.tryAcquireLease texts r s).1 = .ok (some v) → v < limit := by
            intro v hv
            apply hgrants r v
            simp only [Keyspace.perform, hv]
            exact List.mem_singleton_self _
          obtain ⟨hredis, hmemory, hname, hnext⟩ := h.granted hexact hlimit hl (hleases r s rfl) hgrant
          refine ⟨_, _, Grants.extends_add p r _, ?_, fun ρ hρ => ⟨hnext, ?_⟩⟩
          · simp only [Keyspace.perform, hredis]
            intro r' v' hmem
            cases List.mem_singleton.mp hmem
            exact ⟨_, hname⟩
          · simp only [StoreCall.rename, Keyspace.perform, InMemoryStateStore.perform, hredis, hmemory]
            show some _ = some (ρ r (store.nextVersion r))
            rw [hρ r _ _ hname]
  | renewLease r s v =>
      obtain ⟨i, hname⟩ := htokens r s v rfl
      refine ⟨p, store, .refl p, fun _ _ hmem => absurd hmem List.not_mem_nil, fun ρ hρ => ⟨h, ?_⟩⟩
      simp only [StoreCall.rename, Keyspace.perform, InMemoryStateStore.perform, hρ r v i hname,
        h.renewLease hexact hname s]
      rfl
  | releaseLease r =>
      exact ⟨p, _, .refl p, fun _ _ hmem => absurd hmem List.not_mem_nil, fun ρ _ => ⟨h.releaseLease r, rfl⟩⟩
  | getOrphanedRuns =>
      refine ⟨p, store, .refl p, fun _ _ hmem => absurd hmem List.not_mem_nil, fun ρ _ => ⟨h, ?_⟩⟩
      exact unleased_perm h.represents h.readable h.agrees ⟨.getOrphanedRuns, redisOrder, memoryOrder⟩ _
  | listTerminalUnleasedRuns =>
      refine ⟨p, store, .refl p, fun _ _ hmem => absurd hmem List.not_mem_nil, fun ρ _ => ⟨h, ?_⟩⟩
      exact unleased_perm h.represents h.readable h.agrees ⟨.listTerminalUnleasedRuns, redisOrder, memoryOrder⟩ _

/-! ## All sequences of operations -/

/-- Related stores answer every sequence of calls alike. -/
theorem answers {calls : List StoreCall} (h : Related texts limit p self store memory) (hexact : texts.Exact limit)
    (hlimit : limit ≤ 2 ^ 53) (hplain : ∀ c ∈ calls, ∀ r, c.op.runId = some r → ':' ∉ r.toList)
    (hstates : ∀ c ∈ calls, ∀ r state expected, c.op = .saveRun r state expected →
      texts.ReadsState state ∧ expected < limit)
    (hleases : ∀ c ∈ calls, ∀ r s, c.op = .tryAcquireLease r s → ∀ v < limit, texts.ReadsLease ⟨v, s⟩)
    (hgrants : ∀ r v, (r, v) ∈ self.granted texts calls → v < limit)
    (htokens : ∀ calls₁ c calls₂, calls = calls₁ ++ c :: calls₂ → ∀ r s v, c.op = .renewLease r s v →
      (∃ i, p.Names r v i) ∨ (r, v) ∈ self.granted texts calls₁) :
    ∃ p' : Grants, p'.Extends p ∧ (∀ r, (p' r).Pairwise (· < ·)) ∧
      (∀ r v, (r, v) ∈ self.granted texts calls → ∃ i, p'.Names r v i) ∧
      ∀ ρ, p'.Named ρ →
        AnswersAlike ρ calls (self.answers texts calls) (memory.answers (calls.map (·.rename ρ))) := by
  induction calls generalizing p self store memory with
  | nil => exact ⟨p, .refl p, h.agrees.increasing, fun _ _ hmem => absurd hmem List.not_mem_nil, fun _ _ => trivial⟩
  | cons c calls ih =>
      have hc : c ∈ c :: calls := List.mem_cons_self
      have hfirst : ∀ r s v, c.op = .renewLease r s v → ∃ i, p.Names r v i := by
        intro r s v hop
        rcases htokens [] c calls rfl r s v hop with hname | hmem
        · exact hname
        · cases hmem
      obtain ⟨p₁, store₁, hext, hnamed, hstep⟩ := h.perform hexact hlimit (hplain c hc) (hstates c hc)
        (hleases c hc) (fun r v hmem => hgrants r v (List.mem_append_left _ hmem)) hfirst
      have hrest : ∃ p' : Grants, p'.Extends p₁ ∧ (∀ r, (p' r).Pairwise (· < ·)) ∧
          (∀ r v, (r, v) ∈ Keyspace.granted texts (self.perform texts c.redisOrder c.op).2 calls →
            ∃ i, p'.Names r v i) ∧
          ∀ ρ, p'.Named ρ → AnswersAlike ρ calls
            (Keyspace.answers texts (self.perform texts c.redisOrder c.op).2 calls)
            (InMemoryStateStore.answers (memory.perform (c.rename p₁.rename).memoryOrder (c.rename p₁.rename).op).2
              (calls.map (·.rename ρ))) := by
        obtain ⟨hnext, _⟩ := hstep p₁.rename fun r v i hn => hn.rename_eq
        apply ih hnext (fun c' h' => hplain c' (List.mem_cons_of_mem c h'))
          (fun c' h' => hstates c' (List.mem_cons_of_mem c h')) (fun c' h' => hleases c' (List.mem_cons_of_mem c h'))
          (fun r v hmem => hgrants r v (List.mem_append_right _ hmem))
        intro calls₁ c' calls₂ heq r s v hop
        rcases htokens (c :: calls₁) c' calls₂ (by rw [heq]; rfl) r s v hop with ⟨i, hname⟩ | hmem
        · exact Or.inl ⟨i, hname.extend hext⟩
        · rcases List.mem_append.mp hmem with hmem | hmem
          · exact Or.inl (hnamed r v hmem)
          · exact Or.inr hmem
      obtain ⟨p', hext', hinc, hnamed', halike⟩ := hrest
      refine ⟨p', hext'.trans hext, hinc, fun r v hmem => ?_, fun ρ hρ => ?_⟩
      · rcases List.mem_append.mp hmem with hmem | hmem
        · obtain ⟨i, hname⟩ := hnamed r v hmem
          exact ⟨i, hname.extend hext'⟩
        · exact hnamed' r v hmem
      · -- the names that the rest of the calls add do not change those there are
        have hsame : c.rename ρ = c.rename p₁.rename := by
          unfold StoreCall.rename
          cases hop : c.op with
          | renewLease r s v =>
              obtain ⟨i, hname⟩ := hfirst r s v hop
              have hname₁ := hname.extend hext
              simp only [hρ.of_extends hext' r v i hname₁, hname₁.rename_eq]
          | _ => rfl
        have hfirstAlike := (hstep ρ (hρ.of_extends hext')).2
        have hrestAlike := halike ρ hρ
        rw [← hsame] at hrestAlike
        exact ⟨hfirstAlike, hrestAlike⟩

end Related

theorem Related.empty (texts : Texts) (limit : Nat) :
    Related texts limit (fun _ => []) .empty .empty .empty where
  represents := .empty texts
  readable :=
    { plain := fun _ _ h => nomatch h
      state := fun _ _ h => nomatch h
      lease := fun _ _ h => nomatch h }
  agrees := .empty
  named _ _ _ h := by cases h.2

/-- Redis and the store in memory answer every sequence of calls alike, where the versions that were granted to a
run are renamed in their order. -/
theorem inMemory_stands_in (texts : Texts) (limit : Nat) (hlimit : limit ≤ 2 ^ 53) (calls : List StoreCall)
    (hreads : texts.Reads limit calls) (hcalls : Comparable texts limit calls) :
    ∃ ρ : String → Nat → Nat,
      (∀ r v v', (r, v) ∈ Keyspace.empty.granted texts calls → (r, v') ∈ Keyspace.empty.granted texts calls →
        v < v' → ρ r v < ρ r v') ∧
      AnswersAlike ρ calls (Keyspace.empty.answers texts calls)
        (InMemoryStateStore.empty.answers (calls.map (·.rename ρ))) := by
  have hstates : ∀ c ∈ calls, ∀ r state expected, c.op = .saveRun r state expected →
      texts.ReadsState state ∧ expected < limit := by
    intro c hc r state expected hop
    obtain ⟨hversion, hexpected⟩ := hcalls.versions c hc r state expected hop
    exact ⟨hreads.states c hc r state expected hop hversion, hexpected⟩
  obtain ⟨p, _, hinc, hnamed, halike⟩ := (Related.empty texts limit).answers hreads.exact hlimit hcalls.plain hstates
    hreads.leases hcalls.grants fun calls₁ c calls₂ heq r s v hop => Or.inr (hcalls.tokens calls₁ c calls₂ heq r s v hop)
  refine ⟨p.rename, fun r v v' hv hv' hlt => ?_, halike p.rename fun r v i hn => hn.rename_eq⟩
  obtain ⟨i, hi⟩ := hnamed r v hv
  obtain ⟨i', hi'⟩ := hnamed r v' hv'
  rw [hi.rename_eq, hi'.rename_eq]
  exact (hi.lt_iff (hinc r) hi').mp hlt

/-! A server acquires a run, loses it and acquires it again. -/

def emptyState : RunState := ⟨0, ∅, ∅, .plain "ci" []⟩

/-- The number and the server at the start of an encoded table. -/
def decodeSample (parts : List String) : Decoded :=
  ⟨(parts[1]?.bind fun part => (splitText part ',')[0]?).bind String.toNat?,
    if parts[2]? = some "\"server\"\x7d" then some "server" else none⟩

def sampleTexts : Texts where
  toText _ :=
    "\x7b\"version\":0,\"statuses\":\x7b\x7d,\"dependencies\":\x7b\x7d,\"pipeline\":\x7b\"name\":\"ci\",\"nodes\":[]\x7d\x7d"
  fromText _ := .ok (runStateCodec.write emptyState)
  mismatch _ := ""
  toNumber n := n
  encodeLease lease :=
    "\x7b\"version\":" ++ toString lease.version ++ ",\"server_id\":\"" ++ lease.serverId ++ "\"\x7d"
  decode text := .ok (decodeSample (splitText text ':'))

def sampleCall (op : StoreOp) : StoreCall := ⟨op, .sorted, .sorted⟩

def sampleCalls : List StoreCall :=
  [sampleCall (.tryAcquireLease "run" "server"), sampleCall (.releaseLease "run"),
    sampleCall (.tryAcquireLease "run" "server"), sampleCall (.renewLease "run" "server" 1),
    sampleCall (.renewLease "run" "server" 2), sampleCall (.saveRun "run" emptyState 0), sampleCall (.loadRun "run"),
    sampleCall .listTerminalUnleasedRuns]

theorem sample_readsLease (v : Nat) : sampleTexts.ReadsLease ⟨v, "server"⟩ := by
  have hdigit : ∀ c, c.isDigit = false → c ∉ (Nat.repr v).toList := by
    intro c hc hmem
    rw [Nat.toList_repr] at hmem
    have := Nat.isDigit_of_mem_toDigits (by decide) (by decide) hmem
    simp [hc] at this
  have htext : (sampleTexts.encodeLease ⟨v, "server"⟩).toList =
      "\x7b\"version\"".toList ++ ':' :: (((Nat.repr v).toList ++ ',' :: "\"server_id\"".toList) ++
        ':' :: "\"server\"\x7d".toList) := by
    simp [sampleTexts, toString]
  have hcolon : ':' ∉ (Nat.repr v).toList ++ ',' :: "\"server_id\"".toList := by
    intro hmem
    rcases List.mem_append.mp hmem with hmem | hmem
    · exact hdigit ':' (by decide) hmem
    · exact absurd hmem (by decide)
  have hparts : splitText (sampleTexts.encodeLease ⟨v, "server"⟩) ':' =
      ["\x7b\"version\"", String.ofList ((Nat.repr v).toList ++ ',' :: "\"server_id\"".toList), "\"server\"\x7d"] := by
    rw [splitText, htext, List.splitOn_append_cons_self_of_not_mem (by decide),
      List.splitOn_append_cons_self_of_not_mem hcolon, List.splitOn_eq_singleton (by decide)]
    simp
  have hnumber : (splitText (String.ofList ((Nat.repr v).toList ++ ',' :: "\"server_id\"".toList)) ',')[0]? =
      some (Nat.repr v) := by
    rw [splitText, String.toList_ofList, List.splitOn_append_cons_self_of_not_mem (hdigit ',' (by decide))]
    exact congrArg some String.ofList_toList
  show Except.ok (decodeSample (splitText _ ':')) = _
  rw [hparts]
  simp only [decodeSample, List.getElem?_cons_succ, List.getElem?_cons_zero, Option.bind_some, hnumber, if_true]
  rw [Nat.toNat?_repr]

theorem sample_granted :
    Keyspace.empty.granted sampleTexts (sampleCalls.take 3) = [("run", 1), ("run", 2)] ∧
      Keyspace.empty.granted sampleTexts sampleCalls = [("run", 1), ("run", 2)] := by
  have hempty : ∀ key, Keyspace.empty.get key = none := fun _ => rfl
  simp [sampleCalls, sampleCall, Keyspace.granted, Keyspace.perform, Keyspace.tryAcquireLease, Keyspace.incr,
    Keyspace.releaseLease, StoreOp.granted, StoreAnswer.ofExcept, hempty, sampleTexts,
    (leaseKey_ne_leaseVersionKey _ _).symm]

theorem sample_readsState : sampleTexts.ReadsState emptyState := by
  have htext : splitText (sampleTexts.ofState emptyState) ':' =
      ["\x7b\"version\"", "0,\"statuses\"", "\x7b\x7d,\"dependencies\"", "\x7b\x7d,\"pipeline\"", "\x7b\"name\"",
        "\"ci\",\"nodes\"", "[]\x7d\x7d"] := by decide
  have hnumber : (splitText "0,\"statuses\"" ',')[0]? = some (Nat.repr 0) := by decide
  refine ⟨rfl, decodeSample _, rfl, ?_⟩
  rw [htext]
  simp only [decodeSample, List.getElem?_cons_succ, List.getElem?_cons_zero, Option.bind_some, hnumber]
  exact Nat.toNat?_repr 0

theorem sample_reads : sampleTexts.Reads (10 ^ 14) sampleCalls where
  exact := ⟨fun _ _ => rfl, fun _ h => h⟩
  states c hc r state expected hop _ := by
    have hsaved : ∀ c ∈ sampleCalls, ∀ r state expected, c.op = .saveRun r state expected → state = emptyState := by
      simp [sampleCalls, sampleCall]
    rw [hsaved c hc r state expected hop]
    exact sample_readsState
  leases c hc r s hop v _ := by
    have hserver : ∀ c ∈ sampleCalls, ∀ r s, c.op = .tryAcquireLease r s → s = "server" := by
      simp [sampleCalls, sampleCall]
    rw [hserver c hc r s hop]
    exact sample_readsLease v

theorem sample_comparable : Comparable sampleTexts (10 ^ 14) sampleCalls where
  plain := by simp [sampleCalls, sampleCall, StoreOp.runId]
  versions := by simp [sampleCalls, sampleCall, emptyState]
  grants r v hmem := by
    simp only [sample_granted.2, List.mem_cons, Prod.mk.injEq, List.not_mem_nil, or_false] at hmem
    omega
  tokens calls₁ c calls₂ heq r s v hop := by
    have hrenewed : ∀ c ∈ sampleCalls, ∀ r s v, c.op = .renewLease r s v → (r, v) ∈ [("run", 1), ("run", 2)] := by
      simp [sampleCalls, sampleCall]
    have hmem := hrenewed c (by simp [heq]) r s v hop
    -- the first three operations are no renewals
    rcases calls₁ with _ | ⟨a, _ | ⟨b, _ | ⟨d, calls⟩⟩⟩ <;>
      simp only [sampleCalls, List.nil_append, List.cons_append, List.cons.injEq] at heq
    · rw [← heq.1] at hop
      cases hop
    · rw [← heq.2.1] at hop
      cases hop
    · rw [← heq.2.2.1] at hop
      cases hop
    · rw [← heq.1, ← heq.2.1, ← heq.2.2.1]
      rw [← sample_granted.1] at hmem
      exact (Keyspace.granted_prefix sampleTexts .empty (sampleCalls.take 3) calls).subset hmem

/-- Numbers of up to fourteen digits are written whole by the scripts. -/
theorem inMemory_stands_in_for_sample : ∃ ρ : String → Nat → Nat,
    (∀ r v v', (r, v) ∈ Keyspace.empty.granted sampleTexts sampleCalls →
      (r, v') ∈ Keyspace.empty.granted sampleTexts sampleCalls → v < v' → ρ r v < ρ r v') ∧
    AnswersAlike ρ sampleCalls (Keyspace.empty.answers sampleTexts sampleCalls)
      (InMemoryStateStore.empty.answers (sampleCalls.map (·.rename ρ))) :=
  inMemory_stands_in sampleTexts (10 ^ 14) (by decide) sampleCalls sample_reads sample_comparable

end Jefferies.StateStore
