import Jefferies.Coordination.Cluster

/-!
# Sweeps and live runs

A run is live while its state and its lease are stored. A sweep takes a live run for dead only because a read failed:
the state of the run while orphaned resources are looked through, or its lease while terminal runs are listed.
-/

namespace Jefferies.Coordination

open Pipelines StateStore RunHistory Interaction Interact Monitor

/-- The calls that take from a run what it needs. -/
def Effect.harms (runId : String) : Effect → Bool
  | .cleanupRun r => r = runId
  | .releaseLease r => r = runId
  | .deleteRun r => r = runId
  | _ => false

/-- What a watcher of a run has seen of a sweep: that orphaned resources are looked through, that the lease of the run
could not be looked up, that the run was taken for dead, and that it was harmed. -/
structure Sight where
  orphans : Bool
  doubted : Bool
  mistaken : Bool
  harmed : Bool

namespace Sight

def start : Sight := ⟨false, false, false, false⟩

/-- A run is taken for dead where its state cannot be read while orphaned resources are looked through, and where its
end is recorded because its lease could not be looked up. -/
def next (runId : String) (γ : Sight) : (e : Effect) → Resp e → Sight
  | .listManagedRunIds, _ => { γ with orphans := true }
  | .leaseExists r, .error _ => { γ with doubted := γ.doubted || r = runId }
  | .loadRun r, .error _ => { γ with mistaken := γ.mistaken || (γ.orphans && r = runId) }
  | .finalizePipelineRunStatus r _ _, .ok _ => { γ with mistaken := γ.mistaken || (γ.doubted && r = runId) }
  | e, _ => { γ with harmed := γ.harmed || e.harms runId }

end Sight

/-- The store answers for a live run, unless it fails. -/
def AnswersLive (runId : String) : (e : Effect) → Resp e → Prop
  | .loadRun r, a => r = runId → a ≠ .ok none
  | .leaseExists r, a => r = runId → a ≠ .ok false
  | _, _ => True

/-- A live run is harmed exactly once it has been taken for dead. -/
def sweeping (runId : String) : Monitor Sight Unit Empty Resp where
  assume
    | _, .answered _ e a => AnswersLive runId e a
    | _, .received _ _ => True
  ok γ _ e :=
    (γ.harmed = true ∨ e.harms runId = true → γ.mistaken = true) ∧
      (γ.mistaken = true → γ.harmed = true ∨ e.harms runId = true)
  next
    | γ, .answered _ e a => γ.next runId e a
    | γ, .received _ _ => γ

/-! ## Calls -/

/-- The calls that neither harm the run nor move a sweep on. -/
def Aloof (runId : String) : Effect → Prop
  | .listManagedRunIds => False
  | .finalizePipelineRunStatus r _ _ => r ≠ runId
  | e => e.harms runId = false

variable {runId : String} {γ : Sight} {services : Services}

/-- Where the run stands: nothing has been done to it that was not mistaken, and the sweep of orphaned resources has
begun or not. -/
structure Calm (orphans : Bool) (γ : Sight) : Prop where
  even : γ.mistaken = γ.harmed
  stage : γ.orphans = orphans

theorem Calm.ok {b : Bool} (h : Calm b γ) (u : Unit) {e : Effect} (he : e.harms runId = false) :
    (sweeping runId).ok γ u e := by
  simp [sweeping, he, h.even]

/-- An aloof call keeps what is known of the run; before the sweep of orphaned resources it may also fail to load. -/
theorem Calm.aloof (h : Calm false γ) {e : Effect} (he : Aloof runId e) (a : Resp e) :
    Calm false (γ.next runId e a) := by
  have hstage := h.stage
  have hsame : ∀ {γ' : Sight}, γ'.mistaken = γ.mistaken → γ'.harmed = γ.harmed → γ'.orphans = γ.orphans →
      Calm false γ' := by
    intro γ' hm hh ho
    exact ⟨by rw [hm, hh, h.even], ho.trans hstage⟩
  cases e with
  | listManagedRunIds => exact he.elim
  | finalizePipelineRunStatus r status t =>
      have hr : r ≠ runId := he
      rcases a with e | b
      · exact hsame rfl (by simp [Sight.next, Effect.harms]) rfl
      · exact hsame (by simp [Sight.next, hr]) rfl rfl
  | loadRun r =>
      rcases a with e | b
      · exact hsame (by simp [Sight.next, hstage]) rfl rfl
      · exact hsame rfl (by simp [Sight.next, Effect.harms]) rfl
  | leaseExists r =>
      rcases a with e | b
      · exact hsame rfl rfl rfl
      · exact hsame rfl (by simp [Sight.next, Effect.harms]) rfl
  | _ =>
      refine hsame rfl ?_ rfl
      have hnot : Effect.harms runId _ = false := he
      simp [Sight.next, hnot]

theorem Aloof.not_harms {e : Effect} (he : Aloof runId e) : e.harms runId = false := by
  cases e <;> first | exact he | rfl

/-- A program that stays aloof keeps what is known of the run. -/
theorem aloof_calm {α : Type} {m : Task α} (hm : Interact.Calls (Aloof runId) m) (u : Unit) (h : Calm false γ) :
    (sweeping runId).Obeys (m u) γ fun γ' _ _ => Calm false γ' :=
  obeys_calls (Q := Calm false) (fun _ u _ hγ he => ⟨hγ.ok u he.not_harms, fun a _ => hγ.aloof he a⟩) (hm u) h

/-! ## Other runs -/

theorem aloof_startCoordinator (config : AppConfig) (r : String) (pipeline : Pipeline) (statusReporter : Bool)
    (runContext : RunContext) :
    Interact.Calls (Aloof runId) (startCoordinator config r pipeline statusReporter runContext) := by
  apply (calls_perform (by rfl)).seq
  intro serverId
  apply (calls_perform (by rfl)).seq
  intro lease
  rcases lease with e | _ | leaseVersion
  · exact calls_pure _
  · exact calls_pure _
  · apply (calls_perform (by rfl)).seq
    intro _
    apply Interact.Calls.seq
    · apply (calls_perform (by rfl)).seq
      intro loaded
      rcases loaded with e | _ | existing
      · exact calls_pure _
      · apply (calls_perform (by rfl)).seq
        exact fun _ => calls_pure _
      · exact calls_pure _
    · intro _
      apply (calls_perform (by rfl)).seq
      intro _
      apply (calls_perform (by rfl)).seq
      exact fun _ => calls_pure _

theorem aloof_resumeRun (r : String) (pipeline : Pipeline) (row : PipelineRunRow) :
    Interact.Calls (Aloof runId) (resumeRun services r pipeline row) := by
  have hstart : ∀ statusReporter, Interact.Calls (Aloof runId) (do
      let _ ← startCoordinator services.config r pipeline statusReporter (runContextFromRow row)
      return () : Task Unit) := by
    intro statusReporter
    apply (aloof_startCoordinator _ _ _ _ _).seq
    exact fun _ => calls_pure _
  unfold resumeRun
  dsimp only
  split
  · apply (calls_perform (by rfl)).seq
    exact hstart
  · exact hstart false

theorem aloof_refreshNodeRuns (r : String) (byName : HashMap String NodeRunRow) (nodeNames : List String) :
    Interact.Calls (Aloof runId) (refreshNodeRuns r byName nodeNames) := by
  induction nodeNames generalizing byName with
  | nil => exact calls_pure _
  | cons nodeName rest ih =>
      apply Interact.Calls.seq (m := refreshNodeRun r byName nodeName)
      · unfold refreshNodeRun
        split
        · exact calls_pure _
        · split
          · exact calls_pure _
          · apply (calls_perform (by rfl)).seq
            intro outcome
            split
            · split
              · apply (calls_perform (by rfl)).seq
                intro recorded
                split <;> exact calls_pure _
              · exact calls_pure _
            · exact calls_pure _
      · exact fun byName' => ih byName'

theorem aloof_reconcile {r : String} (hr : r ≠ runId) (row : PipelineRunRow) :
    Interact.Calls (Aloof runId) (reconcilePostgresInProgressRun services r row) := by
  unfold reconcilePostgresInProgressRun
  split
  · exact calls_pure _
  · apply (calls_perform (by rfl)).seq
    intro nodeRuns
    split
    · exact calls_pure _
    · apply (aloof_refreshNodeRuns _ _ _).seq
      intro byName
      split
      · apply (calls_perform (by rfl)).seq
        intro now
        apply (calls_perform (by exact hr)).seq
        intro _
        apply (calls_perform (by simpa [Aloof, Effect.harms] using hr)).seq
        exact fun _ => calls_pure _
      · apply (calls_perform (by rfl)).seq
        intro saved
        split
        · apply (aloof_resumeRun _ _ _).seq
          exact fun _ => calls_pure _
        · exact calls_pure _

/-! ## Terminal runs -/

theorem doubted_next (γ : Sight) (m : Moment Unit Empty Resp) (h : γ.doubted = true) :
    ((sweeping runId).next γ m).doubted = true := by
  cases m with
  | received u i => exact h
  | answered u e a =>
      show (γ.next runId e a).doubted = true
      unfold Sight.next
      split <;> simp [h]

/-- A live run is listed only once its lease could not be looked up. -/
theorem collectUnleased_calm (wanted : RunState → Bool) (runIds : List String) (u : Unit) (h : Calm false γ) :
    (sweeping runId).Obeys (collectUnleased wanted runIds u) γ fun γ' _ a =>
      Calm false γ' ∧ ∀ l, a = .ok l → runId ∈ l → γ'.doubted = true := by
  induction runIds generalizing γ with
  | nil =>
      refine ⟨h, fun l hl hmem => ?_⟩
      cases hl
      cases hmem
  | cons r rest ih =>
      have hlisted : ∀ γ₁, Calm false γ₁ → (r = runId → γ₁.doubted = true) → (sweeping runId).Obeys
          ((do return (← collectUnleased wanted rest).map (r :: ·) : Task _) u) γ₁ fun γ' _ a =>
            Calm false γ' ∧ ∀ l, a = .ok l → runId ∈ l → γ'.doubted = true := by
        intro γ₁ h₁ hr
        have hrest : (sweeping runId).Obeys (collectUnleased wanted rest u) γ₁ fun γ' _ a =>
            (Calm false γ' ∧ ∀ l, a = .ok l → runId ∈ l → γ'.doubted = true) ∧
              (r = runId → γ'.doubted = true) := by
          apply Obeys.stable (P := fun γ' => r = runId → γ'.doubted = true) _ (ih h₁) hr
          exact fun γ' m hm heq => doubted_next γ' m (hm heq)
        apply hrest.seq
        intro γ₂ _ a ha
        obtain ⟨⟨h₂, hmem⟩, hr₂⟩ := ha
        refine ⟨h₂, fun l hl hin => ?_⟩
        rcases a with e | l'
        · cases hl
        · cases hl
          rcases List.mem_cons.mp hin with heq | hin
          · exact hr₂ heq.symm
          · exact hmem l' rfl hin
      refine ⟨h.ok u rfl, fun a ha => ?_⟩
      have h₁ : Calm false (γ.next runId (.loadRun r) a) := h.aloof (by rfl) a
      rcases a with e | _ | state
      · cases e with
        | serialization message => exact ih h₁
        | _ => exact ⟨h₁, fun l hl => nomatch hl⟩
      · exact ih h₁
      · show (sweeping runId).Obeys ((if !wanted state then _ else _ : Task _) u) _ _
        split
        · exact ih h₁
        · refine ⟨h₁.ok u rfl, fun b hb => ?_⟩
          have h₂ : Calm false (Sight.next runId _ (.leaseExists r) b) := h₁.aloof (by rfl) b
          rcases b with e | b
          · apply hlisted _ h₂
            intro heq
            simp [Sight.next, heq]
          · cases b with
            | true => exact ih h₂
            | false =>
                apply hlisted _ h₂
                exact fun heq => absurd rfl (hb heq)

theorem reapRun_aloof {r : String} (hr : r ≠ runId) (u : Unit) (h : Calm false γ) :
    (sweeping runId).Obeys (reapRun r u) γ fun γ' _ _ => Calm false γ' := by
  apply aloof_calm _ u h
  have hne : decide (r = runId) = false := decide_eq_false hr
  apply (calls_perform (by exact hne)).seq
  intro _
  apply (calls_perform (by exact hne)).seq
  intro _
  apply (calls_perform (by exact hne)).seq
  exact fun _ => calls_pure _

/-- A run may be harmed once it has been taken for dead. -/
theorem harmingCall {e : Effect} (he : e.harms runId = true) (u : Unit) {b : Bool} (hm : γ.mistaken = true)
    (ho : γ.orphans = b) :
    (sweeping runId).Obeys ((call e : Task _) u) γ fun γ' _ _ => γ'.mistaken = true ∧ Calm b γ' := by
  refine ⟨by simp [sweeping, hm, he], fun a _ => ?_⟩
  cases e with
  | cleanupRun r => exact ⟨hm, by simp [sweeping, Sight.next, hm, he], ho⟩
  | releaseLease r => exact ⟨hm, by simp [sweeping, Sight.next, hm, he], ho⟩
  | deleteRun r => exact ⟨hm, by simp [sweeping, Sight.next, hm, he], ho⟩
  | _ => cases he

theorem reapRun_harms (u : Unit) (hm : γ.mistaken = true) (ho : γ.orphans = false) :
    (sweeping runId).Obeys (reapRun runId u) γ fun γ' _ _ => Calm false γ' := by
  have hself : decide (runId = runId) = true := decide_eq_true rfl
  apply (harmingCall (by exact hself) u hm ho).seq
  intro γ₁ u₁ _ h₁
  apply (harmingCall (by exact hself) u₁ h₁.1 h₁.2.stage).seq
  intro γ₂ u₂ _ h₂
  apply (harmingCall (by exact hself) u₂ h₂.1 h₂.2.stage).seq
  intro γ₃ _ _ h₃
  exact h₃.2

theorem sweepTerminalRedisRun_calm {r : String} (hr : r = runId → γ.doubted = true) (u : Unit) (h : Calm false γ) :
    (sweeping runId).Obeys (sweepTerminalRedisRun r u) γ fun γ' _ _ => Calm false γ' := by
  refine ⟨h.ok u rfl, fun a ha => ?_⟩
  have h₁ : Calm false (γ.next runId (.loadRun r) a) := h.aloof (by rfl) a
  rcases a with e | _ | state
  · exact h₁
  · exact reapRun_aloof (fun heq => ha heq rfl) u h₁
  · refine ⟨h₁.ok u rfl, fun now _ => ?_⟩
    have h₂ : Calm false (Sight.next runId _ .utcNow now) := h₁.aloof (by rfl) now
    refine ⟨h₂.ok u rfl, fun b _ => ?_⟩
    by_cases heq : r = runId
    · subst heq
      rcases b with e | b
      · exact ⟨by simpa [sweeping, Sight.next, Effect.harms] using h₂.even, h₂.stage⟩
      · show (sweeping r).Obeys (reapRun r u) _ _
        apply reapRun_harms u _ (by exact h₂.stage)
        simp [sweeping, Sight.next, hr rfl]
    · have h₃ : Calm false (Sight.next runId _ (.finalizePipelineRunStatus r (outcomeStatusFor state) now) b) :=
        h₂.aloof (by exact heq) b
      rcases b with e | b
      · exact h₃
      · exact reapRun_aloof heq u h₃

theorem sweepTerminalRedisRuns_calm (u : Unit) (h : Calm false γ) :
    (sweeping runId).Obeys (sweepTerminalRedisRuns u) γ fun γ' _ _ => Calm false γ' := by
  have hlist : (sweeping runId).Obeys (listTerminalUnleasedRuns u) γ fun γ' _ a =>
      Calm false γ' ∧ ∀ l, a = .ok l → runId ∈ l → γ'.doubted = true := by
    refine ⟨h.ok u rfl, fun a _ => ?_⟩
    have h₁ : Calm false (γ.next runId .stateKeys a) := h.aloof (by rfl) a
    rcases a with e | runIds
    · exact ⟨h₁, fun l hl => nomatch hl⟩
    · exact collectUnleased_calm runStateIsTerminal runIds u h₁
  apply hlist.seq
  intro γ₁ u₁ a ha
  obtain ⟨h₁, hdoubt⟩ := ha
  rcases a with e | terminal
  · exact h₁
  · have hbody : ∀ r l γ u, Calm false γ ∧ (runId ∈ r :: l → γ.doubted = true) →
        (sweeping runId).Obeys (sweepTerminalRedisRun r u) γ fun γ' _ _ =>
          Calm false γ' ∧ (runId ∈ l → γ'.doubted = true) := by
      intro r l γ u hγ
      obtain ⟨hcalm, hd⟩ := hγ
      apply Obeys.stable (P := fun γ' : Sight => runId ∈ l → γ'.doubted = true)
      · exact fun γ' m hm hin => doubted_next γ' m (hm hin)
      · apply sweepTerminalRedisRun_calm _ u hcalm
        intro heq
        exact hd (by simp [heq])
      · exact fun hin => hd (List.mem_cons_of_mem r hin)
    apply (obeys_forM (P := fun l γ _ => Calm false γ ∧ (runId ∈ l → γ.doubted = true)) hbody terminal
      ⟨h₁, hdoubt terminal rfl⟩).mono
    exact fun _ _ _ hγ => hγ.1

/-! ## Runs in progress -/

theorem sweepPostgresInProgressRun_calm (row : PipelineRunRow) (u : Unit) (h : Calm false γ) :
    (sweeping runId).Obeys (sweepPostgresInProgressRun services row u) γ fun γ' _ _ => Calm false γ' := by
  refine ⟨h.ok u rfl, fun a ha => ?_⟩
  have h₁ : Calm false (γ.next runId (.loadRun row.runId) a) := h.aloof (by rfl) a
  rcases a with e | _ | state
  · exact h₁
  · have hr : row.runId ≠ runId := fun heq => ha heq rfl
    have hcalls : Interact.Calls (Aloof runId)
        (do let _ ← reconcilePostgresInProgressRun services row.runId row : Task Unit) := by
      apply (aloof_reconcile hr row).seq
      exact fun _ => calls_pure _
    exact aloof_calm hcalls u h₁
  · exact h₁

theorem sweepPostgresInProgressRuns_calm (u : Unit) (h : Calm false γ) :
    (sweeping runId).Obeys (sweepPostgresInProgressRuns services u) γ fun γ' _ _ => Calm false γ' := by
  refine ⟨h.ok u rfl, fun a _ => ?_⟩
  have h₁ : Calm false (γ.next runId .listInProgressRuns a) := h.aloof (by rfl) a
  rcases a with e | inProgress
  · exact h₁
  · exact obeys_forM (P := fun _ γ _ => Calm false γ)
      (fun row _ _ u hγ => sweepPostgresInProgressRun_calm row u hγ) inProgress h₁

/-! ## Orphaned resources -/

theorem sweepOrphanKubeResource_calm (runId r : String) (u : Unit) (h : Calm true γ) :
    (sweeping runId).Obeys (sweepOrphanKubeResource r u) γ fun γ' _ _ => Calm true γ' := by
  refine ⟨h.ok u rfl, fun a ha => ?_⟩
  have hother : ∀ {γ : Sight} (e : Effect), Calm true γ → e.harms runId = false → (∀ a, γ.next runId e a =
      { γ with harmed := γ.harmed || e.harms runId }) →
      (sweeping runId).Obeys ((call e : Task _) u) γ fun γ' _ _ => Calm true γ' := by
    intro γ e hγ he hnext
    refine ⟨hγ.ok u he, fun a _ => ?_⟩
    show Calm true (γ.next runId e a)
    rw [hnext, he, Bool.or_false]
    exact hγ
  have hne : r ≠ runId → decide (r = runId) = false := decide_eq_false
  have h₁ : r ≠ runId → Calm true (γ.next runId (.loadRun r) a) := by
    intro hr
    rcases a with e | b
    · exact ⟨by simp [Sight.next, hr, h.even], h.stage⟩
    · exact ⟨by simp [Sight.next, Effect.harms, h.even], h.stage⟩
  rcases a with e | _ | state
  · by_cases hr : r = runId
    · subst hr
      have hself : decide (r = r) = true := decide_eq_true rfl
      apply (harmingCall (by exact hself) u _ (by exact h.stage)).seq
      · intro γ₁ u₁ _ h₂
        apply (harmingCall (by exact hself) u₁ h₂.1 h₂.2.stage).seq
        intro γ₂ _ _ h₃
        exact h₃.2
      · simp [sweeping, Sight.next, h.stage]
    · apply (hother _ (h₁ hr) (by exact hne hr) fun _ => rfl).seq
      intro γ₁ _ _ h₂
      apply (hother _ h₂ (by exact hne hr) fun _ => rfl).seq
      intro γ₂ _ _ h₃
      exact h₃
  · have hr : r ≠ runId := fun heq => ha heq rfl
    apply (hother _ (h₁ hr) (by exact hne hr) fun _ => rfl).seq
    intro γ₁ _ _ h₂
    exact h₂
  · exact ⟨by simp [sweeping, Sight.next, Effect.harms, h.even], h.stage⟩

theorem sweepOrphanKubeResources_calm (u : Unit) (h : Calm false γ) :
    (sweeping runId).Obeys (sweepOrphanKubeResources u) γ fun γ' _ _ => γ'.mistaken = γ'.harmed := by
  refine ⟨h.ok u rfl, fun a _ => ?_⟩
  rcases a with e | managed
  · exact h.even
  · have h₁ : Calm true (γ.next runId .listManagedRunIds (.ok managed)) := ⟨h.even, rfl⟩
    have hloop := obeys_forM (P := fun _ γ _ => Calm true γ)
      (fun r _ _ u hγ => sweepOrphanKubeResource_calm runId r u hγ) managed (s := u) h₁
    exact hloop.mono fun _ _ _ hγ => hγ.even

/-! ## A whole sweep -/

theorem reaperTick_sweeping (services : Services) (runId : String) :
    (sweeping runId).Obeys (reaperTick services .sweep ()) .start fun γ _ _ => γ.mistaken = γ.harmed := by
  have hstart : Calm false .start := ⟨rfl, rfl⟩
  have hsweep : (sweeping runId).Obeys (sweepStrandedResources services ()) .start fun γ _ _ =>
      γ.mistaken = γ.harmed := by
    apply (sweepTerminalRedisRuns_calm () hstart).seq
    intro γ₁ u₁ _ h₁
    apply (sweepPostgresInProgressRuns_calm u₁ h₁).seq
    intro γ₂ u₂ _ h₂
    exact sweepOrphanKubeResources_calm u₂ h₂
  apply hsweep.seq
  intro γ _ _ h
  exact h

theorem harmed_after_iff (tr : List (Moment Unit Empty Resp)) :
    ((sweeping runId).after .start tr).harmed = true ↔
      ∃ e a, .answered () e a ∈ tr ∧ e.harms runId = true := by
  induction tr using List.reverseRecOn with
  | nil => simp [Monitor.after, Sight.start]
  | append_singleton tr m ih =>
      rw [after_append]
      cases m with
      | received u i => exact i.elim
      | answered u e a =>
          have hnext : ∀ γ : Sight, (γ.next runId e a).harmed = (γ.harmed || e.harms runId) := by
            intro γ
            unfold Sight.next
            split <;> simp [Effect.harms]
          show (Sight.next runId _ e a).harmed = true ↔ _
          rw [hnext, Bool.or_eq_true, ih]
          constructor
          · intro h
            rcases h with h | h
            · obtain ⟨e', a', hmem, hharms⟩ := h
              exact ⟨e', a', List.mem_append_left _ hmem, hharms⟩
            · exact ⟨e, a, by simp, h⟩
          · intro h
            obtain ⟨e', a', hmem, hharms⟩ := h
            rcases List.mem_append.mp hmem with hmem | hmem
            · exact .inl ⟨e', a', hmem, hharms⟩
            · cases List.mem_singleton.mp hmem
              exact .inr hharms

/-- A sweep comes as far as `q`, with the answers `tr`. -/
def Sweeps (services : Services) (tr : List (Moment Unit Empty Resp)) (q : Prog Unit Resp (Option Unit)) : Prop :=
  Exec (fun i _ => nomatch i) (reaperTick services .sweep ()) tr q

/-- All answers so far are those of a store that has the run and its lease, or errors. -/
def Live (runId : String) (tr : List (Moment Unit Empty Resp)) : Prop := (sweeping runId).Assumed .start tr

/-- No call that was made harms the run. -/
def Unharmed (runId : String) (tr : List (Moment Unit Empty Resp)) (q : Prog Unit Resp (Option Unit)) : Prop :=
  (∀ e a, .answered () e a ∈ tr → e.harms runId = false) ∧ ∀ e, q.pending = some e → e.harms runId = false

/-- Some failed read made the sweep take the run for dead. -/
def TakenForDead (runId : String) (tr : List (Moment Unit Empty Resp)) : Prop :=
  ((sweeping runId).after .start tr).mistaken = true

theorem unharmed_iff {tr : List (Moment Unit Empty Resp)} {q : Prog Unit Resp (Option Unit)} :
    Unharmed runId tr q ↔
      ((sweeping runId).after .start tr).harmed = false ∧ ∀ e, q.pending = some e → e.harms runId = false := by
  unfold Unharmed
  rw [← Bool.not_eq_true, harmed_after_iff]
  simp

/-- What the shared store answers about a run that it has with its lease. -/
theorem respond_live {parseRunId : String → Option String} {w : World}
    (hstate : w.store.runs.lookup runId ≠ none) (hlease : w.store.leases.lookup runId ≠ none) {e : Effect}
    {reply : Reply} {a : Resp e × World} (ha : respond parseRunId w e reply = some a) : AnswersLive runId e a.1 := by
  cases e with
  | loadRun r =>
      intro hr hnone
      subst hr
      cases reply <;> simp [respond, World.storeOp] at ha
      · rw [← ha] at hnone
        exact hstate (Except.ok.inj hnone)
      · rw [← ha] at hnone
        cases hnone
  | leaseExists r =>
      intro hr hfalse
      subst hr
      cases reply <;> simp [respond, World.storeOp] at ha
      · rw [← ha] at hfalse
        have hnone : (w.store.leases.lookup r).isSome = false := Except.ok.inj hfalse
        exact hlease (by simpa using hnone)
      · rw [← ha] at hfalse
        cases hfalse
  | _ => trivial

/-- A sweep spares a live run exactly as long as it has not taken it for dead. -/
theorem sweep_spares_iff (services : Services) (runId : String) (tr : List (Moment Unit Empty Resp))
    (q : Prog Unit Resp (Option Unit)) (hsweep : Sweeps services tr q) (hlive : Live runId tr) :
    Unharmed runId tr q ↔ ¬ TakenForDead runId tr := by
  have hobeys := obeys_exec (fun _ _ i _ _ => nomatch i) hsweep (reaperTick_sweeping services runId) hlive
  rw [unharmed_iff, TakenForDead]
  generalize (sweeping runId).after .start tr = γ at hobeys
  cases q with
  | ret u a =>
      have heven : γ.mistaken = γ.harmed := hobeys
      simp [heven, Prog.pending]
  | call u e k =>
      obtain ⟨hharm, hmistaken⟩ := hobeys.1
      simp only [Prog.pending, Option.some.injEq, forall_eq']
      constructor
      · intro h hm
        rcases hmistaken hm with hharmed | hcall
        · rw [h.1] at hharmed
          cases hharmed
        · rw [h.2] at hcall
          cases hcall
      · intro hm
        rw [← Bool.not_eq_true, ← Bool.not_eq_true]
        exact ⟨fun hharmed => hm (hharm (.inl hharmed)), fun hcall => hm (hharm (.inr hcall))⟩

/-- The state of a run that has just been launched. -/
def launchedState : RunState := (PipelineRun.new Pipeline.buildAndTest.nodeInfo).toRunState 0 .buildAndTest

/-- A sweep that looks through the resources of that run. -/
def lookedThrough (loaded : Except StateStoreError (Option RunState)) : List (Moment Unit Empty Resp) :=
  [.answered () .stateKeys (.ok []), .answered () .listInProgressRuns (.ok []),
    .answered () .listManagedRunIds (.ok ["run"]), .answered () (.loadRun "run") loaded]

theorem sweeps_loaded (state : RunState) :
    Sweeps Deployment.buildAndTest.services (lookedThrough (.ok (some state))) (.ret () none) :=
  Exec.answered (R := Resp) (e := .stateKeys) (.ok []) <|
    Exec.answered (R := Resp) (e := .listInProgressRuns) (.ok []) <|
      Exec.answered (R := Resp) (e := .listManagedRunIds) (.ok ["run"]) <|
        Exec.answered (R := Resp) (e := .loadRun "run") (.ok (some state)) <| .refl _

theorem sweeps_unread (error : StateStoreError) :
    ∃ q, Sweeps Deployment.buildAndTest.services (lookedThrough (.error error)) q ∧
      q.pending = some (.cleanupRun "run") := by
  apply Exists.intro
  constructor
  · exact Exec.answered (R := Resp) (e := .stateKeys) (.ok []) <|
      Exec.answered (R := Resp) (e := .listInProgressRuns) (.ok []) <|
        Exec.answered (R := Resp) (e := .listManagedRunIds) (.ok ["run"]) <|
          Exec.answered (R := Resp) (e := .loadRun "run") (.error error) <| .refl _
  · rfl

theorem live_lookedThrough {loaded : Except StateStoreError (Option RunState)} (h : loaded ≠ .ok none) :
    Live "run" (lookedThrough loaded) := ⟨trivial, trivial, trivial, fun _ => h, trivial⟩

theorem sweep_spares_launched :
    Unharmed "run" (lookedThrough (.ok (some launchedState))) (.ret () none) ↔
      ¬ TakenForDead "run" (lookedThrough (.ok (some launchedState))) := by
  apply sweep_spares_iff Deployment.buildAndTest.services
  · exact sweeps_loaded launchedState
  · exact live_lookedThrough (by simp)

/-- The state of a live run cannot be read for a moment, and its resources are deleted. -/
theorem unread_run_is_harmed :
    let w : World := { World.empty with store :=
      { RedisStateStore.empty with
        runs := HashMap.ofList [("run", launchedState)], leases := HashMap.ofList [("run", ⟨1, "server"⟩)] } }
    let loaded : Except StateStoreError (Option RunState) := .error (.redis "timed out")
    respond some w (.loadRun "run") (.storeFails (.redis "timed out") false) = some (loaded, w) ∧
      Live "run" (lookedThrough loaded) ∧
      ∃ q, Sweeps Deployment.buildAndTest.services (lookedThrough loaded) q ∧ ¬ Unharmed "run" (lookedThrough loaded) q := by
  intro w loaded
  refine ⟨rfl, live_lookedThrough (by simp [loaded]), ?_⟩
  obtain ⟨q, hsweep, hq⟩ := sweeps_unread (.redis "timed out")
  refine ⟨q, hsweep, fun h => ?_⟩
  have hunharmed := h.2 _ hq
  simp [Effect.harms] at hunharmed

end Jefferies.Coordination
