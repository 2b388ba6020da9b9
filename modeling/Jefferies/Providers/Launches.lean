import Jefferies.Interaction.Monitor
import Jefferies.Providers.Webhook

/-!
# What the provider launches

Each launch is of a run for an owner and a tenant. One lemma for each function says which ones it makes.
-/

namespace Jefferies.Providers

open Pipelines RunHistory Coordination Tenancy Interaction Interact Monitor

/-- The owner of the repository of a push. -/
def pushOwner (crates : Crates) (body : Body) : Option String :=
  match eventOf crates "push" body with
  | .ok ⟨repository, .push _ _⟩ => repository.bind (·.owner)
  | _ => none

/-- The owner of the head repository of a pull request that is handled. -/
def headOwner (crates : Crates) (body : Body) : Option String :=
  match eventOf crates "pull_request" body with
  | .ok ⟨_, .pullRequest action pr⟩ =>
      if action ≠ .opened ∧ action ≠ .synchronize then none else pr.headRepo.bind (·.owner)
  | _ => none

/-- The watcher of launches: the rows that are read are known ones, and a run is launched for an owner and the slug
of a tenant that are allowed. -/
def launching (known : PipelineRunRow → Prop) (allowed : String → String → Prop) :
    Monitor Unit Unit Empty ProviderResp where
  assume
    | _, .answered _ (.getPipelineRun _) r => ∀ row, r = .ok (some row) → known row
    | _, _ => True
  ok
    | _, _, .startCoordinator _ _ _ runContext =>
        ∃ slug, runContext.tenantSlug = some slug ∧ allowed runContext.owner slug
    | _, _, _ => True
  next _ _ := ()

/-- The computation launches only runs that are allowed. -/
def Launches {α : Type} (known : PipelineRunRow → Prop) (allowed : String → String → Prop) (m : Provider α) : Prop :=
  (launching known allowed).Obeys (m ()) () fun _ _ _ => True

namespace Launches

variable {known : PipelineRunRow → Prop} {allowed : String → String → Prop} {α β : Type}

theorem pure (a : α) : Launches known allowed (pure a : Provider α) := trivial

theorem seq {m : Provider α} {f : α → Provider β} (hm : Launches known allowed m)
    (hf : ∀ a, Launches known allowed (f a)) : Launches known allowed (m >>= f) :=
  Obeys.seq hm fun _ _ a _ => hf a

/-- Every call but a launch is free. -/
theorem call {e : ProviderEffect} (he : ∀ runId pipeline reporter runContext,
      e ≠ .startCoordinator runId pipeline reporter runContext) : Launches known allowed (call e) := by
  refine obeys_perform.mpr ⟨?_, fun _ _ => trivial⟩
  cases e with
  | startCoordinator runId pipeline reporter runContext => exact absurd rfl (he _ _ _ _)
  | _ => trivial

/-- The row that is read is a known one. -/
theorem read {runId : String} {f : Except RunHistoryError (Option PipelineRunRow) → Provider β}
    (hf : ∀ r, (∀ row, r = .ok (some row) → known row) → Launches known allowed (f r)) :
    Launches known allowed (Providers.call (.getPipelineRun runId) >>= f) := ⟨trivial, hf⟩

theorem forM {f : β → Provider PUnit} (hf : ∀ x, Launches known allowed (f x)) (l : List β) :
    Launches known allowed (l.forM f) :=
  obeys_forM (P := fun _ _ _ => True) (fun x _ _ _ _ => hf x) l trivial

/-- Every launch is allowed, where every row counts as known. -/
theorem calls {m : Provider α} (h : Launches (fun _ => True) allowed m) : Interact.Calls (fun e =>
    ∀ runId pipeline reporter runContext, e = .startCoordinator runId pipeline reporter runContext →
      ∃ slug, runContext.tenantSlug = some slug ∧ allowed runContext.owner slug) m := by
  rintro ⟨⟩
  apply Obeys.calls _ _ h
  · rintro _ _ e hok runId pipeline reporter runContext rfl
    exact hok
  · rintro _ (⟨_, e, r⟩ | ⟨_, i⟩)
    · cases e with
      | getPipelineRun runId => exact fun _ _ => trivial
      | _ => trivial
    · trivial

/-! ## Launching -/

variable {crates : Crates} {state : TenancyRegistry} {tenant : TenantConfig}

theorem buildInstallationClient (owner repo : String) (app : GithubAppConfig) :
    Launches known allowed (buildInstallationClient owner repo app) := by
  unfold Providers.buildInstallationClient
  cases parseU64 app.appId with
  | none => exact pure _
  | some _ => exact call fun _ _ _ _ => ProviderEffect.noConfusion

theorem createCheckRunReporter (crab : Nat) (owner repo sha runId pipelineName : String) :
    Launches known allowed (createCheckRunReporter crab owner repo sha runId pipelineName) := by
  apply (call fun _ _ _ _ => ProviderEffect.noConfusion).seq
  intro r
  cases r with
  | ok id => exact pure _
  | error e => exact pure _

theorem uploadSource (pipeline : Pipeline) (runContext : RunContext) (crab : Nat) (runId : String) :
    Launches known allowed (uploadSource pipeline runContext crab runId) := by
  unfold Providers.uploadSource
  split
  · exact call fun _ _ _ _ => ProviderEffect.noConfusion
  · exact pure _

theorem launchCoordinatorForPipeline {pipeline : Pipeline} {runContext : RunContext} {crab : Nat} {slug : String}
    (hslug : runContext.tenantSlug = some slug) (h : allowed runContext.owner slug) :
    Launches known allowed (launchCoordinatorForPipeline pipeline runContext crab) := by
  apply (call fun _ _ _ _ => ProviderEffect.noConfusion).seq
  intro runId
  apply (uploadSource pipeline runContext crab runId).seq
  intro uploaded
  cases uploaded with
  | error e => exact pure _
  | ok _ =>
      apply (createCheckRunReporter crab _ _ _ runId _).seq
      intro checkRunId
      exact ⟨⟨slug, hslug, h⟩, fun _ _ => trivial⟩

theorem launchAll {runContext : String → DateTime → RunContext} {owner slug : String}
    (howner : ∀ yaml createdAt, (runContext yaml createdAt).owner = owner)
    (hslug : ∀ yaml createdAt, (runContext yaml createdAt).tenantSlug = some slug) (h : allowed owner slug)
    (crab : Nat) (found : List (String × Pipeline)) :
    Launches known allowed (launchAll runContext crab found) := by
  apply forM
  intro p
  apply (call fun _ _ _ _ => ProviderEffect.noConfusion).seq
  intro createdAt
  have hallowed : allowed (runContext p.1 createdAt).owner slug := by
    rw [howner]
    exact h
  exact (launchCoordinatorForPipeline (hslug _ _) hallowed).seq fun _ => pure _

/-! ## Pipelines of a repository -/

theorem matchingPipeline (crab : Nat) (owner repo sha : String) (matchesEvent : Pipeline → Bool)
    (item : ContentItem) : Launches known allowed (matchingPipeline crates crab owner repo sha matchesEvent item) := by
  unfold Providers.matchingPipeline fetchFileContent
  split
  · exact pure _
  · split
    · exact pure _
    · apply seq
      · apply (call fun _ _ _ _ => ProviderEffect.noConfusion).seq
        intro r
        cases r with
        | ok items => exact pure _
        | error e => exact pure _
      · intro content
        split
        · split
          · exact pure _
          · exact pure _
        · exact pure _

theorem matchingPipelines (crab : Nat) (owner repo sha : String) (matchesEvent : Pipeline → Bool)
    (items : List ContentItem) :
    Launches known allowed (matchingPipelines crates crab owner repo sha matchesEvent items) := by
  induction items with
  | nil => exact pure _
  | cons item items ih =>
      apply (matchingPipeline crab owner repo sha matchesEvent item).seq
      intro found
      exact ih.seq fun _ => pure _

theorem findMatchingPipelines (crab : Nat) (owner repo sha : String) (matchesEvent : Pipeline → Bool) :
    Launches known allowed (findMatchingPipelines crates crab owner repo sha matchesEvent) := by
  apply (call fun _ _ _ _ => ProviderEffect.noConfusion).seq
  intro r
  rcases r with (_ | message) | items
  · exact pure _
  · exact pure _
  · exact (matchingPipelines crab owner repo sha matchesEvent items).seq fun _ => pure _

theorem startPipelines {owner repo sha : String} {matchesEvent : Pipeline → Bool}
    {runContext : String → DateTime → RunContext}
    (howner : ∀ yaml createdAt, (runContext yaml createdAt).owner = owner)
    (hslug : ∀ yaml createdAt, (runContext yaml createdAt).tenantSlug = some tenant.slug)
    (h : allowed owner tenant.slug) :
    Launches known allowed (startPipelines crates state owner repo sha matchesEvent runContext tenant) := by
  unfold Providers.startPipelines
  cases resolveAppForTenant state tenant with
  | none => exact pure _
  | some app =>
      apply (buildInstallationClient owner repo app).seq
      intro client
      cases client with
      | error e => exact pure _
      | ok crab =>
          apply (findMatchingPipelines crab owner repo sha matchesEvent).seq
          intro found
          cases found with
          | error e => exact pure _
          | ok found => exact (launchAll howner hslug h crab found).seq fun _ => pure _

theorem startPushPipelines {owner repo sha gitRef : String} (h : allowed owner tenant.slug) :
    Launches known allowed (startPushPipelines crates state owner repo sha gitRef tenant) :=
  startPipelines (fun _ _ => rfl) (fun _ _ => rfl) h

theorem startPrPipelines {event : PullRequestEventInfo} (h : allowed event.owner tenant.slug) :
    Launches known allowed (startPrPipelines crates state event tenant) :=
  startPipelines (fun _ _ => rfl) (fun _ _ => rfl) h

/-! ## Retries -/

theorem relaunch {original : PipelineRunRow} {runId slug : String} {app : GithubAppConfig}
    (h : allowed original.owner slug) : Launches known allowed (relaunch crates original runId slug app) := by
  unfold Providers.relaunch
  cases crates.parsePipeline original.pipelineDefinition with
  | error e => exact pure _
  | ok pipeline =>
      apply (buildInstallationClient original.owner original.repo app).seq
      intro client
      cases client with
      | error e => exact pure _
      | ok crab =>
          apply (call fun _ _ _ _ => ProviderEffect.noConfusion).seq
          intro createdAt
          have hslug : some slug = some slug := rfl
          apply (launchCoordinatorForPipeline hslug h).seq
          intro newRunId
          cases newRunId with
          | none => exact pure _
          | some newRunId => exact pure _

/-- A retry is for the owner and the tenant of the row that is read. -/
theorem retryPipelineRun {slug : String}
    (h : ∀ row, known row → row.tenantSlug = some slug → allowed row.owner slug) (runId : String) :
    Launches known allowed (retryPipelineRun crates state slug runId) := by
  apply read
  intro r hr
  rcases r with e | _ | original
  · exact pure _
  · exact pure _
  · have hknown : known original := hr original rfl
    dsimp only
    cases hslug : original.tenantSlug with
    | none => exact pure _
    | some tenantSlug =>
        by_cases hne : tenantSlug ≠ slug
        · show Launches known allowed (if _ then _ else _)
          rw [if_pos hne]
          exact pure _
        · show Launches known allowed (if _ then _ else _)
          rw [if_neg hne]
          obtain rfl := not_not.mp hne
          cases state.tenants.bySlug.lookup tenantSlug with
          | none => exact pure _
          | some tenant =>
              dsimp only
              cases resolveAppForTenant state tenant with
              | none => exact pure _
              | some app => exact relaunch (h original hknown hslug)

theorem triggerRetryForRun (h : ∀ row, known row → row.tenantSlug = some tenant.slug → allowed row.owner tenant.slug)
    (runId : String) : Launches known allowed (triggerRetryForRun crates state tenant runId) :=
  (retryPipelineRun h runId).seq fun _ => pure _

/-! ## Handlers -/

theorem handlePush {body : Body} (h : ∀ owner, pushOwner crates body = some owner → allowed owner tenant.slug) :
    Launches known allowed (handlePush crates state body tenant) := by
  unfold Providers.handlePush
  unfold pushOwner at h
  cases he : eventOf crates "push" body with
  | error e => exact pure _
  | ok event =>
      rw [he] at h
      obtain ⟨repository, specific⟩ := event
      cases specific with
      | push after gitRef =>
          rcases repository with _ | ⟨name, _ | owner⟩
          · exact pure _
          · exact pure _
          · apply (startPushPipelines (h owner rfl)).seq
            intro r
            cases r with
            | error e => exact pure _
            | ok _ => exact pure _
      | _ => exact pure _

theorem handlePullRequest {body : Body}
    (h : ∀ owner, headOwner crates body = some owner → allowed owner tenant.slug) :
    Launches known allowed (handlePullRequest crates state body tenant) := by
  unfold Providers.handlePullRequest
  unfold headOwner at h
  cases he : eventOf crates "pull_request" body with
  | error e => exact pure _
  | ok event =>
      rw [he] at h
      obtain ⟨repository, specific⟩ := event
      cases specific with
      | pullRequest action pr =>
          show Launches known allowed (if _ then _ else _)
          by_cases hact : action ≠ .opened ∧ action ≠ .synchronize
          · rw [if_pos hact]
            exact pure _
          · rw [if_neg hact]
            simp only [if_neg hact] at h
            obtain ⟨number, headRepo, headSha, headRef, baseRef⟩ := pr
            rcases headRepo with _ | ⟨name, _ | owner⟩
            · exact pure _
            · exact pure _
            · apply (startPrPipelines (h owner rfl)).seq
              intro r
              cases r with
              | error e => exact pure _
              | ok _ => exact pure _
      | _ => exact pure _

theorem handleCheckRun {body : Body}
    (h : ∀ row, known row → row.tenantSlug = some tenant.slug → allowed row.owner tenant.slug) :
    Launches known allowed (handleCheckRun crates state body tenant) := by
  unfold Providers.handleCheckRun
  cases eventOf crates "check_run" body with
  | error e => exact pure _
  | ok event =>
      obtain ⟨repository, specific⟩ := event
      cases specific with
      | checkRun action checkRun =>
          show Launches known allowed (if _ then _ else _)
          split
          · exact pure _
          · split
            · exact pure _
            · exact (triggerRetryForRun h _).seq fun _ => pure _
      | _ => exact pure _

theorem handleCheckSuite {body : Body}
    (h : ∀ row, known row → row.tenantSlug = some tenant.slug → allowed row.owner tenant.slug) :
    Launches known allowed (handleCheckSuite crates state body tenant) := by
  unfold Providers.handleCheckSuite
  cases eventOf crates "check_suite" body with
  | error e => exact pure _
  | ok event =>
      obtain ⟨repository, specific⟩ := event
      cases specific with
      | checkSuite action checkSuite =>
          show Launches known allowed (if _ then _ else _)
          split
          · exact pure _
          · rcases repository with _ | ⟨name, _ | owner⟩
            · exact pure _
            · exact pure _
            · dsimp only
              cases textOf checkSuite "head_sha" with
              | none => exact pure _
              | some headSha =>
                  apply seq _ fun _ => pure _
                  apply (call fun _ _ _ _ => ProviderEffect.noConfusion).seq
                  intro r
                  cases r with
                  | error e => exact pure _
                  | ok originating => exact forM (fun row => triggerRetryForRun h _) originating
      | _ => exact pure _

/-- The owner of a push, and that of the head repository of a pull request, are allowed, and so are the owners of
known rows. -/
theorem handleEvent {eventType : String} {body : Body}
    (hpush : eventType = "push" → ∀ owner, pushOwner crates body = some owner → allowed owner tenant.slug)
    (hpr : eventType = "pull_request" → ∀ owner, headOwner crates body = some owner → allowed owner tenant.slug)
    (hrow : ∀ row, known row → row.tenantSlug = some tenant.slug → allowed row.owner tenant.slug) :
    Launches known allowed (handleEvent crates state eventType body tenant) := by
  unfold Providers.handleEvent
  split
  · exact (handlePush (hpush rfl)).seq fun _ => pure _
  · exact (handlePullRequest (hpr rfl)).seq fun _ => pure _
  · exact (handleCheckRun hrow).seq fun _ => pure _
  · exact (handleCheckSuite hrow).seq fun _ => pure _
  · exact pure _

/-- Where every tenant that the body may be routed to is handled as allowed. -/
theorem handleWebhook {headers : Headers} {body : Body}
    (h : ∀ order app info tenant,
      identifySigningApp crates state order body (getHeader headers "X-Hub-Signature-256") = some app →
      extractOwnerInfo crates body = some info → info.kind = .organization →
      state.tenants.byAppAndOrg.lookup (app.id, info.login) = some tenant →
      Launches known allowed (Providers.handleEvent crates state (getHeader headers "X-GitHub-Event") body tenant)) :
    Launches known allowed (handleWebhook crates state headers body) := by
  unfold Providers.handleWebhook
  simp only
  split
  · exact pure _
  · apply (call fun _ _ _ _ => ProviderEffect.noConfusion).seq
    intro order
    split
    · exact pure _
    · rename_i app happ
      split
      · exact pure _
      · rename_i info hinfo
        split
        · exact pure _
        · rename_i hkind
          split
          · exact pure _
          · rename_i tenant htenant
            exact h order app info tenant happ hinfo (not_not.mp hkind) htenant

end Launches

end Jefferies.Providers
