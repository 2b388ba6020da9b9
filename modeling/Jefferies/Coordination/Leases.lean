import Jefferies.Coordination.Account

/-!
# Who was granted a lease

The account of the leases has one entry for each granted version of a run's lease: the server it was granted
to, the process that holds it, and whether its time is over or its holder has given it back.
-/

namespace Jefferies.Coordination

open Pipelines StateStore RunHistory Interaction Monitor Transition Deployment

/-! ## What processes know -/

/-- The leases that a process holds, by run, server and version, and the runs whose end it has recorded. -/
structure Tenure where
  holds : String → String → Nat → Prop
  recorded : String → Prop

namespace Tenure

def none : Tenure := ⟨fun _ _ _ => False, fun _ => False⟩

def hold (γ : Tenure) (runId serverId : String) (version : Nat) : Tenure :=
  { γ with holds := fun r s v => γ.holds r s v ∨ (r = runId ∧ s = serverId ∧ v = version) }

/-- The lease goes over to the coordinator. -/
def handOver (γ : Tenure) (c : Coordinator) : Tenure :=
  { γ with holds := fun r s v => γ.holds r s v ∧ ¬(r = c.runId ∧ s = c.serverId ∧ v = c.leaseVersion) }

def record (γ : Tenure) (runId : String) : Tenure := { γ with recorded := fun r => γ.recorded r ∨ r = runId }

def next (γ : Tenure) : (e : Effect) → Resp e → Tenure
  | .tryAcquireLease runId serverId _, .ok (some version) => γ.hold runId serverId version
  | .spawnCoordinator c, _ => γ.handOver c
  | .recordPipelineRun record, _ => γ.record record.runId
  | _, _ => γ

/-- The lease is the coordinator's own. -/
def owns (γ : Tenure) (runId : String) : Local → Prop
  | .coordinator c => runId = c.runId ∧ γ.holds c.runId c.serverId c.leaseVersion
  | .task => True

end Tenure

/-- Only the holder of a run's lease acts for the run, and only until it has recorded the end of the run. -/
def leasing : Monitor Tenure Local Input Resp where
  assume _ _ := True
  ok γ s
    | .spawnCoordinator c => γ.holds c.runId c.serverId c.leaseVersion ∧ ¬γ.recorded c.runId
    | .dispatch runId _ _ _ => (∃ server version, γ.holds runId server version) ∧ ¬γ.recorded runId
    | .releaseLease runId => γ.owns runId s
    | .saveRun runId _ _ => γ.owns runId s
    | _ => True
  next γ
    | .answered _ e a => γ.next e a
    | .received _ _ => γ

/-- What a coordinator keeps: it holds its lease, until the end as long as it has not recorded it. -/
def leasingCoordinator : Keeps (leasing.comap .coordinator .event) where
  live γ c := γ.holds c.runId c.serverId c.leaseVersion ∧ ¬γ.recorded c.runId
  done γ c := γ.holds c.runId c.serverId c.leaseVersion
  told _ _ _ := True
  started _ _ := True
  read _ _ := True
  told_next _ _ _ _ _ := trivial
  started_next _ _ _ _ := trivial
  read_next _ _ _ _ := trivial
  receive _ _ _ hl _ := ⟨hl, fun _ _ _ => trivial⟩
  outcomes _ _ _ _ _ _ := ⟨fun _ _ _ _ _ => trivial, fun _ _ _ => trivial⟩
  outcome _ _ _ _ _ _ _ := trivial
  frame _ _ _ _ hl := hl
  success _ _ _ hl _ := hl
  failed _ _ _ hl := hl
  promoted _ _ _ hl _ := hl
  quiet γ c e hl he := by
    cases he <;> exact ⟨trivial, fun _ _ => hl⟩
  record _ _ _ hl _ _ := ⟨trivial, fun _ _ => hl⟩
  save γ c hl := by
    refine ⟨⟨rfl, hl.1⟩, fun r _ => ?_⟩
    rcases r with e | b
    · exact hl
    · cases b <;> exact hl
  dispatch γ c n info metadata hl _ _ := by
    refine ⟨⟨⟨_, _, hl.1⟩, hl.2⟩, fun r _ => ?_⟩
    cases r <;> exact hl
  finalize _ _ _ _ hl _ := ⟨trivial, fun _ _ => hl.1⟩
  doneFrame _ _ _ _ hd := hd
  closing γ c e hd he := by
    cases he with
    | releaseLease => exact ⟨⟨rfl, hd⟩, fun _ _ => hd⟩
    | _ => exact ⟨trivial, fun _ _ => hd⟩

theorem Tenure.next_holds {e : Effect} (he : ∀ c, e ≠ .spawnCoordinator c) {γ : Tenure} (a : Resp e)
    {r s : String} {v : Nat} (h : γ.holds r s v) : (γ.next e a).holds r s v := by
  cases e with
  | spawnCoordinator c => exact absurd rfl (he c)
  | tryAcquireLease runId serverId ttl =>
      rcases a with e | _ | version
      · exact h
      · exact h
      · exact Or.inl h
  | recordPipelineRun record => exact h
  | _ => exact h

/-- What a task keeps: it records no end of a run. -/
def leasingTask (services : Services) : Serves (leasing.comap (fun _ => .task) .tick) services where
  live γ := ∀ r, ¬γ.recorded r
  source _ _ _ _ := True
  row _ _ _ := True
  loaded _ _ _ := True
  absent _ _ := True
  holds γ r s v := γ.holds r s v
  nodes _ _ _ := True
  reported _ _ _ _ := True
  source_next _ _ _ _ _ _ := trivial
  row_next _ _ _ _ _ := trivial
  nodes_next _ _ _ _ _ := trivial
  reported_next _ _ _ _ _ _ := trivial
  loaded_next _ _ _ _ _ _ _ := trivial
  absent_next _ _ _ _ _ _ := trivial
  holds_next _ _ a _ _ _ he h := Tenure.next_holds he a h
  source_loaded _ _ _ _ _ _ := trivial
  source_parsed _ _ _ _ _ _ := trivial
  nodes_insert _ _ _ _ _ _ _ _ _ _ _ := trivial
  tick _ _ hl _ := hl
  aside γ e hl he := by
    cases he <;> exact ⟨trivial, fun _ _ => hl⟩
  load _ _ hl := ⟨trivial, fun _ _ => ⟨hl, fun _ _ => trivial, fun _ => trivial⟩⟩
  getRow _ _ _ hl _ := ⟨trivial, fun _ _ => ⟨hl, fun _ _ => trivial⟩⟩
  listRows _ hl := ⟨trivial, fun _ _ => ⟨hl, fun _ _ _ _ => trivial⟩⟩
  listNodes _ _ _ hl _ := ⟨trivial, fun _ _ => ⟨hl, fun _ _ => trivial⟩⟩
  outcome _ _ _ _ hl _ := ⟨trivial, fun _ _ => ⟨hl, fun _ _ _ _ => trivial⟩⟩
  recordNode _ _ hl _ := ⟨trivial, fun _ _ => hl⟩
  finalizeLoaded _ _ _ _ hl _ := ⟨trivial, fun _ _ => hl⟩
  finalizeNodes _ _ _ _ _ _ _ hl _ _ _ _ := ⟨trivial, fun _ _ => hl⟩
  saveReconstructed _ _ _ _ _ hl _ _ _ _ := ⟨trivial, fun _ _ => hl⟩
  acquire γ r s hl := by
    refine ⟨trivial, fun a _ => ⟨?_, ?_⟩⟩
    · rcases a with e | _ | v <;> exact hl
    · rintro v rfl
      exact Or.inr ⟨rfl, rfl, rfl⟩
  started _ _ _ _ hl _ := ⟨trivial, fun _ _ => hl⟩
  saveNew _ _ _ _ hl _ _ := ⟨trivial, fun _ _ => hl⟩
  spawnLoaded γ r p x s v st reporter watcher c hl hh _ _ hc := by
    subst hc
    exact ⟨⟨hh, hl r⟩, fun _ _ => hl⟩
  spawnNew γ r p x s v reporter watcher c hl hh _ hc := by
    subst hc
    exact ⟨⟨hh, hl r⟩, fun _ _ => hl⟩

def leasingDiscipline (d : Deployment) : Discipline d Tenure where
  monitor := leasing
  coordinator := leasingCoordinator
  task := leasingTask d.services

/-! ## The account -/

/-- A granted lease. `holder` is the process that holds it, if the grant was answered without an error; `lapsed`
says that it has expired or that its holder has released it. -/
structure Grant where
  server : String
  holder : Option Nat
  lapsed : Bool

/-- The grants by run and version, and which process has recorded the end of which run. -/
structure Leases where
  grants : String → Nat → Option Grant
  recorded : Nat → String → Bool

namespace Leases

variable (g : Leases) (r : String) (v : Nat)

/-- The grants of the run after a change of each. -/
def mapGrants (f : Nat → Grant → Grant) : Leases :=
  { g with grants := Function.update g.grants r fun v => (g.grants r v).map (f v) }

/-- The process is told of a grant if the answer has no error. -/
def grant (server : String) (holder : Option Nat) : Leases :=
  { g with grants := Function.update g.grants r (Function.update (g.grants r) v (some ⟨server, holder, false⟩)) }

/-- What a call with its answer does to the account, where `n` processes are there. -/
def answered (w : World) (n i : Nat) : Effect → Reply → Leases
  | .tryAcquireLease runId serverId _, reply =>
      if reply.carriedOut && (w.store.leases.lookup runId).isNone then
        g.grant runId (w.store.nextVersion runId) serverId (if reply matches .done then some i else none)
      else g
  | .releaseLease runId, reply =>
      if reply.carriedOut then
        g.mapGrants runId fun _ x => { x with lapsed := x.lapsed || decide (x.holder = some i) }
      else g
  | .spawnCoordinator c, _ =>
      g.mapGrants c.runId fun v x => if v = c.leaseVersion then { x with holder := some n } else x
  | .recordPipelineRun record, _ =>
      { g with recorded := Function.update g.recorded i (Function.update (g.recorded i) record.runId true) }
  | _, _ => g

def outside (w : World) : Outside → Leases
  | .expireLease runId =>
      match w.store.leases.lookup runId with
      | some lease => g.mapGrants runId fun v x => { x with lapsed := x.lapsed || decide (v = lease.version) }
      | none => g
  | _ => g

/-- The stored lease of a run is the last one that was granted, and the account has its server. -/
structure Kept (w : World) (n : Nat) : Prop where
  granted : ∀ r v x, g.grants r v = some x → v < w.store.nextVersion r
  holder : ∀ r v x j, g.grants r v = some x → x.holder = some j → j < n
  stored : ∀ r lease, w.store.leases.lookup r = some lease → w.store.leaseVersions.lookup r = some lease.version ∧
    ∃ x, g.grants r lease.version = some x ∧ x.server = lease.serverId
  recorder : ∀ r j, g.recorded j r = true → j < n

/-- The account has what the process knows. -/
structure Knows (i : Nat) (γ : Tenure) : Prop where
  holds : ∀ r s v, γ.holds r s v → ∃ x, g.grants r v = some x ∧ x.server = s ∧ x.holder = some i
  recorded : ∀ r, g.recorded i r = true → γ.recorded r

variable {g r} {w w' : World} {n n' i : Nat} {γ : Tenure}

@[simp] theorem mapGrants_grants (r' : String) (f : Nat → Grant → Grant) (r : String) (v : Nat) :
    (g.mapGrants r' f).grants r v = (g.grants r v).map fun x => if r = r' then f v x else x := by
  by_cases hr : r = r'
  · subst hr
    simp [mapGrants]
  · simp [mapGrants, hr]

@[simp] theorem grant_grants (r' : String) (v' : Nat) (server : String) (holder : Option Nat) (r : String) (v : Nat) :
    (g.grant r' v' server holder).grants r v =
      if r = r' ∧ v = v' then some ⟨server, holder, false⟩ else g.grants r v := by
  by_cases hr : r = r'
  · subst hr
    by_cases hv : v = v'
    · simp [grant, hv]
    · simp [grant, hv]
  · simp [grant, hr]

/-! ## The invariant -/

theorem Kept.same (h : Kept g w n) (hn : n ≤ n')
    (hl : ∀ r lease, w'.store.leases.lookup r = some lease → w.store.leases.lookup r = some lease)
    (hv : w'.store.leaseVersions = w.store.leaseVersions) : Kept g w' n' where
  granted r v x hx := by
    simpa [RedisStateStore.nextVersion, hv] using h.granted r v x hx
  holder r v x j hx hj := (h.holder r v x j hx hj).trans_le hn
  stored r lease hlease := by
    rw [hv]
    exact h.stored r lease (hl r lease hlease)
  recorder r j hj := (h.recorder r j hj).trans_le hn

theorem Kept.mapGrants (h : Kept g w n) {f : Nat → Grant → Grant} (hserver : ∀ v x, (f v x).server = x.server)
    (hholder : ∀ v x j, (f v x).holder = some j → x.holder = some j ∨ j < n) :
    Kept (g.mapGrants r f) w n where
  granted r' v x hx := by
    rw [mapGrants_grants, Option.map_eq_some_iff] at hx
    obtain ⟨x₀, hx₀, _⟩ := hx
    exact h.granted r' v x₀ hx₀
  holder r' v x j hx hj := by
    rw [mapGrants_grants, Option.map_eq_some_iff] at hx
    obtain ⟨x₀, hx₀, rfl⟩ := hx
    split at hj
    · exact (hholder v x₀ j hj).elim (h.holder r' v x₀ j hx₀) id
    · exact h.holder r' v x₀ j hx₀ hj
  stored r' lease hlease := by
    obtain ⟨hv, x, hx, hs⟩ := h.stored r' lease hlease
    refine ⟨hv, _, by rw [mapGrants_grants, hx]; rfl, ?_⟩
    split
    · rw [hserver, hs]
    · exact hs
  recorder := h.recorder

theorem Kept.grant (h : Kept g w n) {server : String} {holder : Option Nat} (hh : ∀ j, holder = some j → j < n)
    (hnone : w.store.leases.lookup r = none)
    (hl : w'.store.leases = w.store.leases.insert r ⟨w.store.nextVersion r, server⟩)
    (hv : w'.store.leaseVersions = w.store.leaseVersions.insert r (w.store.nextVersion r)) :
    Kept (g.grant r (w.store.nextVersion r) server holder) w' n where
  granted r' v x hx := by
    rw [grant_grants] at hx
    by_cases hr : r' = r
    · subst hr
      simp only [RedisStateStore.nextVersion, hv, Finmap.lookup_insert, Option.getD_some]
      split at hx
      · rename_i hvv
        simp only [RedisStateStore.nextVersion] at hvv
        omega
      · have := h.granted r' v x hx
        simp only [RedisStateStore.nextVersion] at this
        omega
    · rw [if_neg fun hrv => hr hrv.1] at hx
      simpa [RedisStateStore.nextVersion, hv, Finmap.lookup_insert_of_ne _ hr] using h.granted r' v x hx
  holder r' v x j hx hj := by
    rw [grant_grants] at hx
    split at hx
    · cases hx
      exact hh j hj
    · exact h.holder r' v x j hx hj
  stored r' lease hlease := by
    rw [hl] at hlease
    rw [hv]
    by_cases hr : r' = r
    · subst hr
      rw [Finmap.lookup_insert] at hlease ⊢
      cases hlease
      exact ⟨rfl, _, by rw [grant_grants, if_pos ⟨rfl, rfl⟩], rfl⟩
    · rw [Finmap.lookup_insert_of_ne _ hr] at hlease ⊢
      obtain ⟨hv', x, hx, hs⟩ := h.stored r' lease hlease
      exact ⟨hv', x, by rw [grant_grants, if_neg fun hrv => hr hrv.1, hx], hs⟩
  recorder := h.recorder

theorem Kept.answered {parseRunId : String → Option String} (h : Kept g w n) (hi : i < n) {e : Effect}
    {reply : Reply} {a : Resp e × World} (ha : respond parseRunId w e reply = some a) :
    Kept (g.answered w n i e reply) a.2 (n + (spawned e).length) := by
  have hl := respond_leases ha
  have hv := respond_leaseVersions ha
  cases e with
  | tryAcquireLease r s ttl =>
      by_cases hdone : (reply.carriedOut && (w.store.leases.lookup r).isNone) = true
      · simp only [Leases.answered, hdone, if_true] at hl hv ⊢
        obtain ⟨_, hnone⟩ := Bool.and_eq_true_iff.mp hdone
        refine h.grant (fun j hj => ?_) (Option.isNone_iff_eq_none.mp hnone) hl hv
        split at hj
        · cases hj
          exact hi
        · cases hj
      · simp only [Leases.answered, hdone] at hl hv ⊢
        exact h.same (Nat.le_refl n) (fun r lease hlease => by rwa [hl] at hlease) hv
  | releaseLease r =>
      cases hdone : reply.carriedOut with
      | true =>
          simp only [Leases.answered, hdone, if_true] at hl hv ⊢
          have hmap : Kept (g.mapGrants r fun _ x => { x with lapsed := x.lapsed || decide (x.holder = some i) }) w n :=
            h.mapGrants (fun _ _ => rfl) fun _ _ _ hj => Or.inl hj
          refine hmap.same (Nat.le_refl n) (fun r' lease hlease => ?_) hv
          rw [hl, HashMap.lookup_erase_eq_ite] at hlease
          split at hlease
          · cases hlease
          · exact hlease
      | false =>
          simp only [Leases.answered, hdone] at hl hv ⊢
          exact h.same (Nat.le_refl n) (fun r lease hlease => by simpa [hl] using hlease) hv
  | spawnCoordinator c =>
      have hmore : Kept g w (n + 1) := h.same (Nat.le_succ n) (fun _ _ hlease => hlease) rfl
      refine (hmore.mapGrants (fun v x => ?_) fun v x j hj => ?_).same (Nat.le_refl _) ?_ hv
      · split <;> rfl
      · split at hj
        · cases hj
          exact Or.inr (Nat.lt_succ_self n)
        · exact Or.inl hj
      · exact fun r lease hlease => by rwa [hl] at hlease
  | recordPipelineRun record =>
      have hsame : Kept g a.2 n := h.same (Nat.le_refl n) (fun r lease hlease => by rwa [hl] at hlease) hv
      refine ⟨hsame.granted, hsame.holder, hsame.stored, fun r j hj => ?_⟩
      by_cases hji : j = i
      · subst hji
        exact hi
      · simp only [Leases.answered, Function.update_of_ne hji] at hj
        exact h.recorder r j hj
  | _ => exact h.same (Nat.le_refl n) (fun r lease hlease => by rwa [hl] at hlease) hv

/-! ## What processes know of it -/

/-- What the account has of a process lasts as long as its grants keep their servers and holders. -/
theorem Knows.keep (h : Knows g i γ) {g' : Leases} (hg : ∀ r v x, g.grants r v = some x → x.holder = some i →
    ∃ x', g'.grants r v = some x' ∧ x'.server = x.server ∧ x'.holder = some i)
    (hrecorded : ∀ r, g'.recorded i r = g.recorded i r) : Knows g' i γ where
  holds r s v hh := by
    obtain ⟨x, hx, rfl, hholder⟩ := h.holds r s v hh
    exact hg r v x hx hholder
  recorded r hr := h.recorded r (by rwa [hrecorded] at hr)

theorem Knows.grant (hk : Kept g w n) (h : Knows g i γ) (r server : String) (holder : Option Nat) :
    Knows (g.grant r (w.store.nextVersion r) server holder) i γ := by
  refine h.keep (fun r' v x hx hh => ⟨x, ?_, rfl, hh⟩) fun _ => rfl
  rw [grant_grants, if_neg, hx]
  rintro ⟨rfl, rfl⟩
  exact absurd (hk.granted _ _ x hx) (Nat.lt_irrefl _)

theorem Knows.released (h : Knows g i γ) (r : String) (lapsed : Grant → Bool) :
    Knows (g.mapGrants r fun _ x => { x with lapsed := lapsed x }) i γ := by
  refine h.keep (fun r' v x hx hh => ⟨_, by rw [mapGrants_grants, hx]; rfl, ?_⟩) fun _ => rfl
  split <;> exact ⟨rfl, hh⟩

theorem Knows.others {parseRunId : String → Option String} (hk : Kept g w n) (h : Knows g i γ) {s : Local}
    {e : Effect} {reply : Reply} {a : Resp e × World} (hok : leasing.ok γ s e)
    (ha : respond parseRunId w e reply = some a) {j : Nat} {γ' : Tenure} (hj : j ≠ i) (h' : Knows g j γ') :
    Knows (g.answered w n i e reply) j γ' := by
  cases e with
  | tryAcquireLease r s ttl =>
      simp only [Leases.answered]
      split
      · exact h'.grant hk r s _
      · exact h'
  | releaseLease r =>
      simp only [Leases.answered]
      split
      · exact h'.released r _
      · exact h'
  | spawnCoordinator c =>
      obtain ⟨y, hy, _, hyi⟩ := h.holds _ _ _ hok.1
      refine h'.keep (fun r v x hx hh => ⟨_, by rw [Leases.answered, mapGrants_grants, hx]; rfl, ?_⟩) fun _ => rfl
      by_cases hr : r = c.runId ∧ v = c.leaseVersion
      · -- the lease that is handed over is held by another process
        rw [hr.1, hr.2, hy] at hx
        cases hx
        exact absurd (Option.some.inj (hh.symm.trans hyi)) hj
      · split
        · rename_i hr'
          have hv : v ≠ c.leaseVersion := fun hv => hr ⟨hr', hv⟩
          simp [hv, hh]
        · exact ⟨rfl, hh⟩
  | recordPipelineRun record =>
      refine h'.keep (fun r v x hx hh => ⟨x, hx, rfl, hh⟩) fun r => ?_
      simp only [Leases.answered, Function.update_of_ne hj]
  | _ => exact h'

theorem Knows.acquired {parseRunId : String → Option String} (hk : Kept g w n) (h : Knows g i γ) {r s : String}
    {ttl : Nat} {reply : Reply} {a : Resp (.tryAcquireLease r s ttl) × World}
    (ha : respond parseRunId w (.tryAcquireLease r s ttl) reply = some a) :
    Knows (g.answered w n i (.tryAcquireLease r s ttl) reply) i (γ.next (.tryAcquireLease r s ttl) a.1) := by
  rcases World.storeOp_cases ha with ⟨rfl, rfl⟩ | ⟨error, applied, rfl, rfl⟩
  · cases hl : w.store.leases.lookup r with
    | some lease =>
        simp only [Leases.answered, RedisStateStore.tryAcquireLease, hl]
        exact h
    | none =>
        have hgrant := h.grant hk r s (some i)
        have hg : g.answered w n i (.tryAcquireLease r s ttl) .done = g.grant r (w.store.nextVersion r) s (some i) := by
          simp [Leases.answered, Reply.carriedOut, hl]
        rw [hg]
        simp only [RedisStateStore.tryAcquireLease, hl]
        refine ⟨fun r' s' v' hh => ?_, hgrant.recorded⟩
        rcases hh with hh | ⟨rfl, rfl, rfl⟩
        · exact hgrant.holds r' s' v' hh
        · exact ⟨_, by rw [grant_grants, if_pos ⟨rfl, rfl⟩], rfl, rfl⟩
  · simp only [Leases.answered]
    split
    · exact h.grant hk r s _
    · exact h

theorem Knows.handedOver (h : Knows g i γ) {c : Coordinator} (hc : γ.holds c.runId c.serverId c.leaseVersion)
    (reply : Reply) : Knows (g.answered w n i (.spawnCoordinator c) reply) i (γ.handOver c) := by
  obtain ⟨y, hy, hys, _⟩ := h.holds _ _ _ hc
  refine ⟨fun r s v hh => ?_, h.recorded⟩
  obtain ⟨hh, hne⟩ := hh
  obtain ⟨x, hx, rfl, hholder⟩ := h.holds r s v hh
  refine ⟨x, ?_, rfl, hholder⟩
  rw [Leases.answered, mapGrants_grants, hx]
  by_cases hr : r = c.runId
  · have hv : v ≠ c.leaseVersion := by
      rintro rfl
      subst hr
      rw [hy] at hx
      cases hx
      exact hne ⟨rfl, hys, rfl⟩
    simp [hv]
  · simp [hr]

theorem Knows.answered {parseRunId : String → Option String} (hk : Kept g w n) (h : Knows g i γ) {s : Local}
    {e : Effect} {reply : Reply} {a : Resp e × World} (hok : leasing.ok γ s e)
    (ha : respond parseRunId w e reply = some a) :
    Knows (g.answered w n i e reply) i (γ.next e a.1) := by
  cases e with
  | tryAcquireLease r s ttl => exact h.acquired hk ha
  | releaseLease r =>
      simp only [Leases.answered]
      split
      · exact h.released r _
      · exact h
  | spawnCoordinator c => exact h.handedOver hok.1 reply
  | recordPipelineRun record =>
      refine ⟨h.holds, fun r hr => ?_⟩
      by_cases hrr : r = record.runId
      · exact Or.inr hrr
      · simp only [Leases.answered, Function.update_self, Function.update_of_ne hrr] at hr
        exact Or.inl (h.recorded r hr)
  | _ => exact h

/-- The coordinator that a task spawns takes the lease over. -/
theorem Knows.spawned (hk : Kept g w n) (h : Knows g i γ) {c : Coordinator}
    (hc : γ.holds c.runId c.serverId c.leaseVersion) (reply : Reply) :
    Knows (g.answered w n i (.spawnCoordinator c) reply) n (Tenure.none.hold c.runId c.serverId c.leaseVersion) := by
  obtain ⟨y, hy, hys, _⟩ := h.holds _ _ _ hc
  refine ⟨fun r s v hh => ?_, fun r hr => absurd (hk.recorder r n hr) (Nat.lt_irrefl n)⟩
  rcases hh with hh | ⟨rfl, rfl, rfl⟩
  · exact hh.elim
  · exact ⟨{ y with holder := some n }, by simp [Leases.answered, hy], hys, rfl⟩

theorem Kept.knows_nothing (hk : Kept g w n) : Knows g n Tenure.none :=
  ⟨fun _ _ _ hh => hh.elim, fun r hr => absurd (hk.recorder r n hr) (Nat.lt_irrefl n)⟩

/-! ## What happens from outside -/

theorem Kept.outside {d : Deployment} (h : Kept g w n) {l : Outside} {a : World × List Process}
    (ha : d.outside w l = some a) : Kept (g.outside w l) a.1 (n + a.2.length) := by
  cases l with
  | launch runId yaml reporter context =>
      obtain ⟨_, _, _, _, rfl⟩ := outside_launch ha
      exact h.same (Nat.le_add_right _ _) (fun _ _ hl => hl) rfl
  | startReaper =>
      cases ha
      exact h.same (Nat.le_add_right _ _) (fun _ _ hl => hl) rfl
  | expireLease runId =>
      cases ha
      have hsame : ∀ {g : Leases}, Kept g w n → Kept g { w with store := w.store.expireLease runId } n := by
        refine fun hg => hg.same (Nat.le_refl n) (fun r lease hl => ?_) rfl
        rw [RedisStateStore.expireLease, HashMap.lookup_erase_eq_ite] at hl
        split at hl
        · cases hl
        · exact hl
      simp only [Leases.outside]
      split
      · exact hsame (h.mapGrants (fun _ _ => rfl) fun _ _ _ hj => Or.inl hj)
      · exact hsame h

theorem Knows.outside (h : Knows g i γ) (w : World) (l : Outside) : Knows (g.outside w l) i γ := by
  unfold Leases.outside
  split
  · split
    · refine h.keep (fun r v x hx hh => ⟨_, by rw [mapGrants_grants, hx]; rfl, ?_⟩) fun _ => rfl
      split <;> exact ⟨rfl, hh⟩
    · exact h
  · exact h

/-- Nothing has been granted yet. -/
def nothing : Leases := ⟨fun _ _ => none, fun _ _ => false⟩

theorem kept_nothing : Kept nothing .empty 0 where
  granted _ _ _ h := by cases h
  holder _ _ _ _ h := by cases h
  stored _ _ h := by cases h
  recorder _ _ h := by cases h

end Leases

def leasingAccount (d : Deployment) : Account (leasingDiscipline d) Leases where
  start := .nothing
  answered := Leases.answered
  outside := Leases.outside
  inv := Leases.Kept
  rel g _ := g.Knows
  inv_start := Leases.kept_nothing
  received _ h := ⟨trivial, h⟩
  own hinv hi hrel hok ha := ⟨trivial, hinv.answered hi ha, hrel.answered hinv hok ha⟩
  others hinv hrel hok ha hj _ hrel' := hrel.others hinv hok ha hj hrel'
  spawn hinv _ hrel hok _ :=
    ⟨_, ⟨Or.inr ⟨rfl, rfl, rfl⟩, id⟩, hrel.spawned hinv hok.1 _⟩
  around hinv ha := ⟨hinv.outside ha, fun _ _ _ hrel => hrel.outside _ _⟩
  launch hinv _ _ := ⟨Tenure.none, fun _ => id, trivial, hinv.knows_nothing⟩
  reaper hinv := ⟨Tenure.none, fun _ => id, hinv.knows_nothing⟩

end Jefferies.Coordination
