import Jefferies.Coordination.Leases

/-!
# Releasing a lease

A release names the run only. It takes away the lease that is stored, whoever holds it.
-/

namespace Jefferies.Coordination

open Pipelines StateStore RunHistory Interaction Monitor Transition Deployment

/-- The release that a step carries out: its process with its local state, and the run. -/
def carriedRelease (t : Event) : Option (Nat × Local × String) :=
  match answeredCall t with
  | some (i, s, .releaseLease runId, reply) => if reply.carriedOut then some (i, s, runId) else none
  | _ => none

theorem carriedRelease_eq_some {t : Event} {i : Nat} {s : Local} {r : String} :
    carriedRelease t = some (i, s, r) ↔
      ∃ reply, answeredCall t = some (i, s, .releaseLease r, reply) ∧ reply.carriedOut = true := by
  unfold carriedRelease
  constructor
  · intro h
    split at h
    · rename_i reply hcall
      split at h
      · rename_i hdone
        cases h
        exact ⟨reply, hcall, hdone⟩
      · cases h
    · cases h
  · rintro ⟨reply, hcall, hdone⟩
    rw [hcall]
    exact if_pos hdone

/-- A stored lease disappears only when its time is over or by a release of the coordinator whose server and
version it has. -/
def OnlyByHolder (t : Event) : Prop :=
  ∀ r lease, t.before.world.store.leases.lookup r = some lease → t.after.world.store.leases.lookup r ≠ some lease →
    t.label = .outside (.expireLease r) ∨ ∃ i c, carriedRelease t = some (i, .coordinator c, r) ∧
      c.serverId = lease.serverId ∧ c.leaseVersion = lease.version

/-- A lease is released where none is stored, or by the coordinator with the version that was granted last. -/
def ReleasesLatest (t : Event) : Prop :=
  ∀ i s r, carriedRelease t = some (i, s, r) → t.before.world.store.leases.lookup r = none ∨
    ∃ c, s = .coordinator c ∧ t.before.world.store.leaseVersions.lookup r = some c.leaseVersion

namespace Deployment

variable (d : Deployment)

/-- The leases that were granted in the transitions. -/
def leases (h : List Event) : Leases := (leasingAccount d).after h

/-- The process has a lease of the run that was granted to it, that has not expired and that it has not
released. -/
def Holding (h : List Event) (i : Nat) (r : String) (v : Nat) : Prop :=
  ∃ x, (d.leases h).grants r v = some x ∧ x.holder = some i ∧ x.lapsed = false

end Deployment

variable {d : Deployment} {h : List Event} {σ : Servers}

theorem leases_kept (hr : d.Runs h σ) : (d.leases h).Kept σ.world σ.procs.length :=
  (leasingAccount d).inv_after hr

theorem leases_known (hr : d.Runs h σ) {i : Nat} {s : Local} {e : Effect} (hcall : callOf σ i = some (s, e)) :
    ∃ γ, (d.leases h).Knows i γ ∧ leasing.ok γ s e := (leasingAccount d).knows hr hcall

/-- A coordinator that releases a lease was granted one on its run, which it holds. -/
theorem release_granted (hr : d.Runs h σ) {i : Nat} {c : Coordinator} {r : String}
    (hcall : callOf σ i = some (.coordinator c, .releaseLease r)) :
    ∃ x, (d.leases h).grants r c.leaseVersion = some x ∧ x.server = c.serverId ∧ x.holder = some i := by
  obtain ⟨γ, hγ, rfl, hholds⟩ := leases_known hr hcall
  exact hγ.holds _ _ _ hholds

/-! ## One step -/

/-- How a step can take a stored lease away. -/
theorem lease_disappears {t : Event} (hs : d.cluster.step t.before t.label = some t.after) {r : String}
    {lease : LeaseData} (hbefore : t.before.world.store.leases.lookup r = some lease)
    (hafter : t.after.world.store.leases.lookup r ≠ some lease) :
    t.label = .outside (.expireLease r) ∨ ∃ i s, carriedRelease t = some (i, s, r) := by
  rcases step_cases hs with ⟨i, s, e, reply, a, hans, ha, hworld⟩ | ⟨l, a, hlabel, ha, hworld⟩ | ⟨_, _, hworld⟩
  · rw [hworld, respond_leases ha] at hafter
    cases e with
    | releaseLease r' =>
        dsimp only at hafter
        split at hafter
        · rename_i hdone
          by_cases hr : r' = r
          · subst hr
            exact Or.inr ⟨i, s, carriedRelease_eq_some.mpr ⟨reply, hans, hdone⟩⟩
          · rw [Finmap.lookup_erase_ne fun hr' => hr hr'.symm] at hafter
            exact absurd hbefore hafter
        · exact absurd hbefore hafter
    | tryAcquireLease r' s' ttl =>
        dsimp only at hafter
        split at hafter
        · rename_i hnone
          have hr : r ≠ r' := by
            rintro rfl
            simp [hbefore] at hnone
          rw [Finmap.lookup_insert_of_ne _ hr] at hafter
          exact absurd hbefore hafter
        · exact absurd hbefore hafter
    | _ => exact absurd hbefore hafter
  · rw [hworld, outside_store ha] at hafter
    cases l with
    | expireLease r' =>
        by_cases hr : r' = r
        · exact Or.inl (by rw [hlabel, hr])
        · dsimp only [RedisStateStore.expireLease] at hafter
          rw [Finmap.lookup_erase_ne fun hr' => hr hr'.symm] at hafter
          exact absurd hbefore hafter
    | _ => exact absurd hbefore hafter
  · rw [hworld] at hafter
    exact absurd hbefore hafter

/-- A release that is carried out takes the stored lease away. -/
theorem released {t : Event} (hs : d.cluster.step t.before t.label = some t.after) {i : Nat} {s : Local} {r : String}
    (hrel : carriedRelease t = some (i, s, r)) : t.after.world.store.leases.lookup r = none := by
  obtain ⟨reply, hans, hdone⟩ := carriedRelease_eq_some.mp hrel
  rcases step_cases hs with ⟨i', s', e, reply', a, hans', ha, hworld⟩ | ⟨l, a, hlabel, _, _⟩ | ⟨hnone, _, _⟩
  · cases hans.symm.trans hans'
    rw [hworld, respond_leases ha]
    simp [hdone]
  · cases hlabel.symm.trans (answeredCall_eq_some.mp hans).1
  · cases hnone.symm.trans hans

theorem onlyByHolder_iff {t : Event} (hr : d.Runs h t.before)
    (hs : d.cluster.step t.before t.label = some t.after) : OnlyByHolder t ↔ ReleasesLatest t := by
  have hkept := leases_kept hr
  constructor
  · intro hby i s r hrel
    cases hl : t.before.world.store.leases.lookup r with
    | none => exact Or.inl rfl
    | some lease =>
        right
        have hgone : t.after.world.store.leases.lookup r ≠ some lease := by
          rw [released hs hrel]
          simp
        obtain ⟨reply, hans, _⟩ := carriedRelease_eq_some.mp hrel
        rcases hby r lease hl hgone with hlabel | ⟨i', c, hrel', _, hversion⟩
        · cases hlabel.symm.trans (answeredCall_eq_some.mp hans).1
        · cases hrel.symm.trans hrel'
          exact ⟨c, rfl, by rw [hversion]; exact (hkept.stored r lease hl).1⟩
  · intro hlatest r lease hl hgone
    rcases lease_disappears hs hl hgone with hlabel | ⟨i, s, hrel⟩
    · exact Or.inl hlabel
    · right
      obtain ⟨hversion, x, hx, hserver⟩ := hkept.stored r lease hl
      obtain ⟨reply, hans, _⟩ := carriedRelease_eq_some.mp hrel
      rcases hlatest i s r hrel with hnone | ⟨c, rfl, hc⟩
      · rw [hl] at hnone
        cases hnone
      · have hcv : c.leaseVersion = lease.version := Option.some.inj (hc.symm.trans hversion)
        obtain ⟨y, hy, hys, _⟩ := release_granted hr (callOf_eq_some.mpr (answeredCall_eq_some.mp hans).2)
        rw [hcv, hx] at hy
        cases hy
        exact ⟨i, c, hrel, hys.symm.trans hserver, hcv⟩

/-! ## Whole runs -/

/-- Every grant that is not lapsed is stored. -/
def Stored (g : Leases) (w : World) : Prop :=
  ∀ r v x, g.grants r v = some x → x.lapsed = false → w.store.leases.lookup r = some ⟨v, x.server⟩

theorem Stored.released {g : Leases} {w w' : World} {n i : Nat} (hk : g.Kept w n) (h : Stored g w) {r : String}
    (hl : w'.store.leases = w.store.leases.erase r)
    (hholder : w.store.leases.lookup r = none ∨
      ∃ v y, w.store.leaseVersions.lookup r = some v ∧ g.grants r v = some y ∧ y.holder = some i) :
    Stored (g.mapGrants r fun _ x => { x with lapsed := x.lapsed || decide (x.holder = some i) }) w' := by
  intro r' v x hx hover
  rw [Leases.mapGrants_grants, Option.map_eq_some_iff] at hx
  obtain ⟨x₀, hx₀, rfl⟩ := hx
  rw [hl]
  by_cases hr : r' = r
  · subst hr
    simp only [if_true, Bool.or_eq_false_iff, decide_eq_false_iff_not] at hover
    have hlookup := h r' v x₀ hx₀ hover.1
    rcases hholder with hnone | ⟨v', y, hv', hy, hyi⟩
    · rw [hlookup] at hnone
      cases hnone
    · -- the last grant is the stored one, which the process holds
      obtain rfl : v' = v := Option.some.inj (hv'.symm.trans (hk.stored r' _ hlookup).1)
      rw [hx₀] at hy
      cases hy
      exact absurd hyi hover.2
  · simp only [if_neg hr] at hover ⊢
    rw [Finmap.lookup_erase_ne hr]
    exact h r' v x₀ hx₀ hover

theorem Stored.grant {g : Leases} {w w' : World} (h : Stored g w) {r server : String} {v : Nat}
    {holder : Option Nat} (hnone : w.store.leases.lookup r = none)
    (hl : w'.store.leases = w.store.leases.insert r ⟨v, server⟩) : Stored (g.grant r v server holder) w' := by
  intro r' v' x hx hover
  rw [Leases.grant_grants] at hx
  rw [hl]
  split at hx
  · rename_i hrv
    obtain ⟨rfl, rfl⟩ := hrv
    cases hx
    rw [Finmap.lookup_insert]
  · have hlookup := h r' v' x hx hover
    have hr : r' ≠ r := by
      rintro rfl
      rw [hnone] at hlookup
      cases hlookup
    rw [Finmap.lookup_insert_of_ne _ hr, hlookup]

theorem Stored.mapGrants {g : Leases} {w : World} (h : Stored g w) {r : String} {f : Nat → Grant → Grant}
    (hf : ∀ v x, (f v x).lapsed = x.lapsed ∧ (f v x).server = x.server) : Stored (g.mapGrants r f) w := by
  intro r' v x hx hover
  rw [Leases.mapGrants_grants, Option.map_eq_some_iff] at hx
  obtain ⟨x₀, hx₀, rfl⟩ := hx
  split at hover
  · rename_i hr
    rw [if_pos hr, (hf v x₀).2]
    exact h r' v x₀ hx₀ ((hf v x₀).1.symm.trans hover)
  · rename_i hr
    rw [if_neg hr]
    exact h r' v x₀ hx₀ hover

theorem Stored.answered {g : Leases} {w : World} {n i : Nat} {parseRunId : String → Option String} {e : Effect}
    {reply : Reply} {a : Resp e × World} (hk : g.Kept w n) (h : Stored g w)
    (ha : respond parseRunId w e reply = some a)
    (hrel : ∀ r, e = .releaseLease r → reply.carriedOut = true → w.store.leases.lookup r = none ∨
      ∃ v y, w.store.leaseVersions.lookup r = some v ∧ g.grants r v = some y ∧ y.holder = some i) :
    Stored (g.answered w n i e reply) a.2 := by
  have hl := respond_leases ha
  have hsame : ∀ {w' : World}, w'.store.leases = w.store.leases → Stored g w' := by
    intro w' hw r v x hx hover
    rw [hw]
    exact h r v x hx hover
  cases e with
  | tryAcquireLease r s ttl =>
      by_cases hdone : (reply.carriedOut && (w.store.leases.lookup r).isNone) = true
      · simp only [Leases.answered, hdone, if_true] at hl ⊢
        exact h.grant (Option.isNone_iff_eq_none.mp (Bool.and_eq_true_iff.mp hdone).2) hl
      · simp only [Leases.answered, hdone] at hl ⊢
        exact hsame hl
  | releaseLease r =>
      cases hdone : reply.carriedOut with
      | true =>
          simp only [Leases.answered, hdone, if_true] at hl ⊢
          exact h.released hk hl (hrel r rfl hdone)
      | false =>
          simp only [Leases.answered, hdone] at hl ⊢
          exact hsame hl
  | spawnCoordinator c =>
      refine (hsame hl).mapGrants fun v x => ?_
      split <;> exact ⟨rfl, rfl⟩
  | _ => exact hsame hl

theorem Stored.outside {d : Deployment} {g : Leases} {w : World} {l : Outside} {a : World × List Process}
    (h : Stored g w) (ha : d.outside w l = some a) :
    Stored (g.outside w l) a.1 := by
  have hstore := outside_store ha
  cases l with
  | expireLease r =>
      intro r' v x hx hover
      rw [hstore]
      dsimp only [RedisStateStore.expireLease]
      cases hlookup : w.store.leases.lookup r with
      | none =>
          simp only [Leases.outside, hlookup] at hx
          have hx' := h r' v x hx hover
          have hr : r' ≠ r := by
            rintro rfl
            rw [hlookup] at hx'
            cases hx'
          rw [Finmap.lookup_erase_ne hr, hx']
      | some lease =>
          simp only [Leases.outside, hlookup] at hx
          rw [Leases.mapGrants_grants, Option.map_eq_some_iff] at hx
          obtain ⟨x₀, hx₀, rfl⟩ := hx
          by_cases hr : r' = r
          · subst hr
            simp only [if_true, Bool.or_eq_false_iff, decide_eq_false_iff_not] at hover
            have hx' := hlookup.symm.trans (h r' v x₀ hx₀ hover.1)
            cases hx'
            exact absurd rfl hover.2
          · simp only [if_neg hr] at hover ⊢
            rw [Finmap.lookup_erase_ne hr]
            exact h r' v x₀ hx₀ hover
  | _ =>
      intro r v x hx hover
      rw [hstore]
      exact h r v x hx hover

/-- What was granted and is not lapsed is stored, as long as every release is by the holder of the last grant. -/
theorem leases_stored (hr : d.Runs h σ) (hall : ∀ t ∈ h, ReleasesLatest t) : Stored (d.leases h) σ.world := by
  induction hr with
  | start _ => exact fun _ _ _ hx => by cases hx
  | @snoc h σ l σ' hr hs ih =>
      have hbefore := ih fun t ht => hall t (List.mem_append_left _ ht)
      have hlatest := hall ⟨σ, l, σ'⟩ (by simp)
      have hk := leases_kept hr
      simp only [Deployment.leases, Account.after_snoc]
      rcases step_cases (t := ⟨σ, l, σ'⟩) hs with
        ⟨i, s, e, reply, a, hans, ha, hw⟩ | ⟨l, a, hl, ha, hw⟩ | ⟨hans, ho, hw⟩ <;> dsimp only at hw <;> rw [hw]
      · rw [Account.next_answer hans]
        refine hbefore.answered hk ha ?_
        rintro r rfl hdone
        refine (hlatest i s r (carriedRelease_eq_some.mpr ⟨reply, hans, hdone⟩)).imp id ?_
        rintro ⟨c, rfl, hc⟩
        obtain ⟨y, hy, _, hyi⟩ := release_granted hr (callOf_eq_some.mpr (answeredCall_eq_some.mp hans).2)
        exact ⟨_, y, hc, hy, hyi⟩
      · rw [Account.next_outside hl]
        exact hbefore.outside ha
      · rw [Account.next_other hans ho]
        exact hbefore

/-- Leases disappear only by expiry or through their holder exactly in the runs whose releases are all by the
holder of the last grant; and in these no two processes hold a lease of one run. -/
theorem released_by_holder_iff (hr : d.Runs h σ) :
    ((∀ t ∈ h, OnlyByHolder t) ↔ ∀ t ∈ h, ReleasesLatest t) ∧
      ((∀ t ∈ h, ReleasesLatest t) → ∀ r i j v w, d.Holding h i r v → d.Holding h j r w → i = j) := by
  have hstep : ∀ t ∈ h, (OnlyByHolder t ↔ ReleasesLatest t) := by
    intro t ht
    obtain ⟨h₁, h₂, rfl⟩ := List.append_of_mem ht
    exact onlyByHolder_iff hr.split.1 hr.split.2
  refine ⟨forall₂_congr hstep, ?_⟩
  rintro hall r i j v w ⟨x, hx, hxi, hxo⟩ ⟨y, hy, hyj, hyo⟩
  have hsame := (leases_stored hr hall r v x hx hxo).symm.trans (leases_stored hr hall r w y hy hyo)
  simp only [Option.some.injEq, LeaseData.mk.injEq] at hsame
  obtain ⟨rfl, _⟩ := hsame
  rw [hx] at hy
  cases hy
  exact Option.some.inj (hxi.symm.trans hyj)

end Jefferies.Coordination
