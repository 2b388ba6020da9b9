import Jefferies.StateStore.Keyspace

/-!
# What the strings stand for

The strings under the keys of a run stand for its stored state, its lease and the counter of its lease versions.
Each operation on the strings is the operation on what they stand for, as long as the texts are read back and the
numbers are exact.
-/

namespace Jefferies.StateStore

/-- Numbers below the limit are exact, and the others do not come below it. -/
structure Texts.Exact (texts : Texts) (limit : Nat) : Prop where
  below : ∀ v, v < limit → texts.toNumber v = v
  above : ∀ v, limit ≤ v → limit ≤ texts.toNumber v

/-- The text of the state is read back, by serde whole and by a script with its version. -/
def Texts.ReadsState (texts : Texts) (state : RunState) : Prop :=
  texts.fromText (texts.toText (runStateCodec.write state)) = .ok (runStateCodec.write state) ∧
    ∃ decoded, texts.decode (texts.ofState state) = .ok decoded ∧ decoded.version = some state.version

def Texts.ReadsLease (texts : Texts) (lease : LeaseData) : Prop :=
  texts.decode (texts.encodeLease lease) = .ok ⟨some lease.version, some lease.serverId⟩

theorem Texts.ReadsState.toState {texts : Texts} {state : RunState} (h : texts.ReadsState state) :
    texts.toState (texts.ofState state) = .ok state := by
  simp [Texts.toState, Texts.ofState, h.1]

/-- The strings under the keys of the runs are the texts of what the store keeps. -/
structure Represents (texts : Texts) (keyspace : Keyspace) (store : RedisStateStore) : Prop where
  state : ∀ r, keyspace.get (stateKey r) = (store.runs.lookup r).map texts.ofState
  lease : ∀ r, keyspace.get (leaseKey r) = (store.leases.lookup r).map texts.encodeLease
  version : ∀ r, keyspace.get (leaseVersionKey r) = (store.leaseVersions.lookup r).map toString

/-- What the store keeps is read back from its texts, and its run ids have no colon. -/
structure Readable (texts : Texts) (store : RedisStateStore) : Prop where
  plain : ∀ r state, store.runs.lookup r = some state → ':' ∉ r.toList
  state : ∀ r state, store.runs.lookup r = some state → texts.ReadsState state
  lease : ∀ r lease, store.leases.lookup r = some lease → texts.ReadsLease lease

namespace Keyspace

@[simp] theorem get_set (self : Keyspace) (key key' value : String) :
    (self.set key value).get key' = if key' = key then some value else self.get key' :=
  HashMap.lookup_insert_eq_ite ..

@[simp] theorem get_del (self : Keyspace) (key key' : String) :
    (self.del key).get key' = if key' = key then none else self.get key' :=
  HashMap.lookup_erase_eq_ite ..

end Keyspace

namespace Represents

variable {texts : Texts} {self : Keyspace} {store : RedisStateStore}

theorem empty (texts : Texts) : Represents texts .empty .empty := by
  constructor <;> exact fun _ => rfl

/-! ## Changes of one key -/

theorem setState (h : Represents texts self store) (runId : String) (state : RunState) :
    Represents texts (self.set (stateKey runId) (texts.ofState state))
      { store with runs := store.runs.insert runId state } where
  state r := by
    rw [Keyspace.get_set, HashMap.lookup_insert_eq_ite]
    by_cases hr : r = runId
    · simp [hr]
    · rw [if_neg fun he => hr (stateKey_inj he), if_neg hr, h.state]
  lease r := by rw [Keyspace.get_set, if_neg (stateKey_ne_leaseKey runId r).symm, h.lease]
  version r := by rw [Keyspace.get_set, if_neg (stateKey_ne_leaseVersionKey runId r).symm, h.version]

theorem delState (h : Represents texts self store) (runId : String) :
    Represents texts (self.del (stateKey runId)) { store with runs := store.runs.erase runId } where
  state r := by
    rw [Keyspace.get_del, HashMap.lookup_erase_eq_ite]
    by_cases hr : r = runId
    · simp [hr]
    · rw [if_neg fun he => hr (stateKey_inj he), if_neg hr, h.state]
  lease r := by rw [Keyspace.get_del, if_neg (stateKey_ne_leaseKey runId r).symm, h.lease]
  version r := by rw [Keyspace.get_del, if_neg (stateKey_ne_leaseVersionKey runId r).symm, h.version]

theorem setLease (h : Represents texts self store) (runId : String) (lease : LeaseData) :
    Represents texts (self.set (leaseKey runId) (texts.encodeLease lease))
      { store with leases := store.leases.insert runId lease } where
  state r := by rw [Keyspace.get_set, if_neg (stateKey_ne_leaseKey r runId), h.state]
  lease r := by
    rw [Keyspace.get_set, HashMap.lookup_insert_eq_ite]
    by_cases hr : r = runId
    · simp [hr]
    · rw [if_neg fun he => hr (leaseKey_inj he), if_neg hr, h.lease]
  version r := by rw [Keyspace.get_set, if_neg (leaseKey_ne_leaseVersionKey runId r).symm, h.version]

theorem delLease (h : Represents texts self store) (runId : String) :
    Represents texts (self.del (leaseKey runId)) { store with leases := store.leases.erase runId } where
  state r := by rw [Keyspace.get_del, if_neg (stateKey_ne_leaseKey r runId), h.state]
  lease r := by
    rw [Keyspace.get_del, HashMap.lookup_erase_eq_ite]
    by_cases hr : r = runId
    · simp [hr]
    · rw [if_neg fun he => hr (leaseKey_inj he), if_neg hr, h.lease]
  version r := by rw [Keyspace.get_del, if_neg (leaseKey_ne_leaseVersionKey runId r).symm, h.version]

theorem setVersion (h : Represents texts self store) (runId : String) (v : Nat) :
    Represents texts (self.set (leaseVersionKey runId) (toString v))
      { store with leaseVersions := store.leaseVersions.insert runId v } where
  state r := by rw [Keyspace.get_set, if_neg (stateKey_ne_leaseVersionKey r runId), h.state]
  lease r := by rw [Keyspace.get_set, if_neg (leaseKey_ne_leaseVersionKey r runId), h.lease]
  version r := by
    rw [Keyspace.get_set, HashMap.lookup_insert_eq_ite]
    by_cases hr : r = runId
    · simp [hr]
    · rw [if_neg fun he => hr (leaseVersionKey_inj he), if_neg hr, h.version]

/-! ## Operations -/

theorem saveRun (h : Represents texts self store) (hread : Readable texts store) (runId : String)
    (state : RunState) {expected : Nat} (he : texts.toNumber expected = expected) :
    (self.saveRun texts runId state expected).1 = .ok (store.saveRun runId state expected).1 ∧
      Represents texts (self.saveRun texts runId state expected).2 (store.saveRun runId state expected).2 := by
  unfold Keyspace.saveRun RedisStateStore.saveRun RedisStateStore.accepts
  rw [h.state, he]
  cases hl : store.runs.lookup runId with
  | none =>
      simp only [Option.map_none, decide_eq_true_eq]
      split
      · exact ⟨rfl, h.setState runId state⟩
      · exact ⟨rfl, h⟩
  | some current =>
      obtain ⟨decoded, hdecode, hversion⟩ := (hread.state runId current hl).2
      simp only [Option.map_some, hdecode, hversion, Option.some.injEq, decide_eq_true_eq]
      split
      · exact ⟨rfl, h.setState runId state⟩
      · exact ⟨rfl, h⟩

theorem loadRun (h : Represents texts self store) (hread : Readable texts store) (runId : String) :
    self.loadRun texts runId = .ok (store.loadRun runId) := by
  unfold Keyspace.loadRun RedisStateStore.loadRun
  rw [h.state]
  cases hl : store.runs.lookup runId with
  | none => rfl
  | some state => simp [(hread.state runId state hl).toState, Except.map]

theorem incr (h : Represents texts self store) {runId : String} (hn : store.nextVersion runId < 2 ^ 63) :
    self.incr (leaseVersionKey runId) =
      .ok (store.nextVersion runId, self.set (leaseVersionKey runId) (toString (store.nextVersion runId))) := by
  have hcount : (self.get (leaseVersionKey runId)).elim (some 0) String.toNat? =
      some ((store.leaseVersions.lookup runId).getD 0) := by
    rw [h.version]
    cases store.leaseVersions.lookup runId with
    | none => rfl
    | some n => exact Nat.toNat?_repr n
  unfold Keyspace.incr
  rw [hcount]
  simp only [RedisStateStore.nextVersion] at hn ⊢
  rw [if_pos hn]

theorem tryAcquireLease (h : Represents texts self store) {runId : String} (hn : store.nextVersion runId < 2 ^ 63)
    (hexact : texts.toNumber (store.nextVersion runId) = store.nextVersion runId) (serverId : String) :
    (self.tryAcquireLease texts runId serverId).1 = .ok (store.tryAcquireLease runId serverId).1 ∧
      Represents texts (self.tryAcquireLease texts runId serverId).2 (store.tryAcquireLease runId serverId).2 := by
  unfold Keyspace.tryAcquireLease RedisStateStore.tryAcquireLease
  rw [h.lease]
  cases hl : store.leases.lookup runId with
  | some lease => exact ⟨rfl, h⟩
  | none =>
      simp only [Option.map_none, h.incr hn, hexact, true_and]
      exact (h.setVersion runId _).setLease runId _

/-- A grant is the number that a script has for the next version. -/
theorem tryAcquireLease_answer (h : Represents texts self store) {runId : String}
    (hn : store.nextVersion runId < 2 ^ 63) (hl : store.leases.lookup runId = none) (serverId : String) :
    (self.tryAcquireLease texts runId serverId).1 = .ok (some (texts.toNumber (store.nextVersion runId))) := by
  unfold Keyspace.tryAcquireLease
  rw [h.lease, hl]
  simp only [Option.map_none, h.incr hn]

theorem renewLease (h : Represents texts self store) (hread : Readable texts store) (runId serverId : String)
    {v : Nat} (hv : texts.toNumber v = v) :
    self.renewLease texts runId serverId v = .ok (store.renewLease runId serverId v) := by
  unfold Keyspace.renewLease RedisStateStore.renewLease
  rw [h.lease, hv]
  cases hl : store.leases.lookup runId with
  | none => rfl
  | some lease =>
      have hdecode : texts.decode (texts.encodeLease lease) = _ := hread.lease runId lease hl
      simp [hdecode]

/-! ## Listing -/

theorem exists_lease (h : Represents texts self store) (runId : String) :
    self.exists? (leaseKey runId) = store.leaseExists runId := by
  simp [Keyspace.exists?, RedisStateStore.leaseExists, h.lease]

/-- The run of a state's key is listed where it is unleased and its state is as wanted. -/
theorem unleasedRun (h : Represents texts self store) (hread : Readable texts store) {wanted : RunState → Bool}
    {runId : String} {state : RunState} (hl : store.runs.lookup runId = some state) :
    self.unleasedRun texts wanted (stateKey runId) =
      if wanted state && !store.leaseExists runId then some runId else none := by
  have hjson : self.get (stateKey runId) = some (texts.ofState state) := by simp [h.state, hl]
  have hstate := (hread.state runId state hl).toState
  simp only [Keyspace.unleasedRun, splitText_stateKey (hread.plain runId state hl), hjson, h.exists_lease]
  cases hw : wanted state <;> cases hlease : store.leaseExists runId <;> simp [hstate, hw, hlease]

theorem mem_stateKeys (h : Represents texts self store) {order : HashMap.IterOrder String String} {key : String} :
    key ∈ self.stateKeys order ↔ ∃ r, key = stateKey r ∧ r ∈ store.runs.keys := by
  have hkey : ∀ r, stateKey r ∈ (order.entries self.strings).map Prod.fst ↔ r ∈ store.runs.keys := by
    intro r
    have hget : self.strings.lookup (stateKey r) = _ := h.state r
    simp [order.mem_entries, HashMap.mem_keys_iff_lookup, hget]
  simp only [Keyspace.stateKeys, List.mem_filter, isStateKey_iff]
  constructor
  · intro h
    obtain ⟨hmem, r, hr⟩ := h
    rw [hr, hkey] at hmem
    exact ⟨r, hr, hmem⟩
  · intro h
    obtain ⟨r, hr, hmem⟩ := h
    rw [hr, hkey]
    exact ⟨hmem, r, rfl⟩

/-- The runs without a lease whose state is as wanted are listed, and no others. -/
theorem mem_unleased (h : Represents texts self store) (hread : Readable texts store)
    {order : HashMap.IterOrder String String} {wanted : RunState → Bool} {runId : String} :
    runId ∈ self.unleased texts order wanted ↔
      ∃ state, store.runs.lookup runId = some state ∧ wanted state = true ∧ store.leases.lookup runId = none := by
  have hrun : ∀ r state, store.runs.lookup r = some state →
      (self.unleasedRun texts wanted (stateKey r) = some runId ↔
        r = runId ∧ wanted state = true ∧ store.leases.lookup r = none) := by
    intro r state hl
    rw [h.unleasedRun hread hl]
    cases hw : wanted state <;> cases hlease : store.leases.lookup r <;>
      simp [RedisStateStore.leaseExists, hlease]
  rw [Keyspace.unleased, List.mem_filterMap]
  constructor
  · intro ⟨key, hkey, hfound⟩
    obtain ⟨r, rfl, hr⟩ := h.mem_stateKeys.mp hkey
    obtain ⟨state, hl⟩ := HashMap.mem_keys_iff_lookup.mp hr
    obtain ⟨rfl, hwanted, hlease⟩ := (hrun r state hl).mp hfound
    exact ⟨state, hl, hwanted, hlease⟩
  · intro ⟨state, hl, hwanted, hlease⟩
    have hkey : stateKey runId ∈ self.stateKeys order :=
      h.mem_stateKeys.mpr ⟨runId, rfl, HashMap.mem_keys_iff_lookup.mpr ⟨state, hl⟩⟩
    exact ⟨stateKey runId, hkey, (hrun runId state hl).mpr ⟨rfl, hwanted, hlease⟩⟩

/-- A listed key is that of the run it is listed for. -/
theorem key_of_unleasedRun (h : Represents texts self store) (hread : Readable texts store)
    {order : HashMap.IterOrder String String} {wanted : RunState → Bool} {key runId : String}
    (hkey : key ∈ self.stateKeys order) (hfound : self.unleasedRun texts wanted key = some runId) :
    key = stateKey runId := by
  obtain ⟨r, rfl, hr⟩ := h.mem_stateKeys.mp hkey
  obtain ⟨state, hl⟩ := HashMap.mem_keys_iff_lookup.mp hr
  rw [h.unleasedRun hread hl] at hfound
  split at hfound
  · rw [Option.some.inj hfound]
  · cases hfound

theorem nodup_unleased (h : Represents texts self store) (hread : Readable texts store)
    (order : HashMap.IterOrder String String) (wanted : RunState → Bool) :
    (self.unleased texts order wanted).Nodup := by
  have hkeys : (self.stateKeys order).Nodup := (order.nodup_keys self.strings).filter _
  rw [Keyspace.unleased]
  have hmem : ∀ key ∈ self.stateKeys order, ∀ runId, self.unleasedRun texts wanted key = some runId →
      key = stateKey runId := fun key hkey runId => h.key_of_unleasedRun hread hkey
  generalize self.stateKeys order = keys at hkeys hmem
  induction keys with
  | nil => exact List.nodup_nil
  | cons key keys ih =>
      obtain ⟨hnot, hrest⟩ := List.nodup_cons.mp hkeys
      have ih' := ih hrest fun k hk => hmem k (List.mem_cons_of_mem key hk)
      cases hfound : self.unleasedRun texts wanted key with
      | none => rwa [List.filterMap_cons_none hfound]
      | some runId =>
          rw [List.filterMap_cons_some hfound, List.nodup_cons]
          refine ⟨fun hin => ?_, ih'⟩
          obtain ⟨key', hkey', hfound'⟩ := List.mem_filterMap.mp hin
          have heq := hmem key (List.mem_cons_self) runId hfound
          have heq' := hmem key' (List.mem_cons_of_mem key hkey') runId hfound'
          rw [heq, ← heq'] at hnot
          exact hnot hkey'

end Represents

end Jefferies.StateStore
