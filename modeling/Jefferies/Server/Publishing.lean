import Jefferies.Interaction.Following
import Jefferies.Interaction.Making
import Jefferies.Server.Tenants

/-!
# What the API publishes

Anyone may poke a node, and a poke is believed only as far as S3 bears it out; a run is cancelled only for a user who is
authorized for the run's tenant. So every event that the API has ever published goes back to a request of its kind, and to
what the backends showed while that request was served.
-/

namespace Jefferies.Server

open Pipelines RunHistory StateStore Coordination Sources Auth Interaction Interact Monitor Transition

/-! ## The requests of all users -/

/-- A request, and what the session store answers for it. -/
structure Visit where
  auth : Except SessionError (Option AuthSession)
  request : ApiRequest

/-- The backends as they are, and the events that were published, each for its run. -/
structure Site where
  backends : Backends
  published : List (String × BackplaneEvent)

/-- How a call fares: an event can be refused, or be published and the confirmation get lost. -/
inductive Delivery where
  | served
  | refused (e : BackplaneError)
  | lost (e : BackplaneError)

inductive SiteChange where
  | visit (v : Visit)
  | becomes (backends : Backends)

section

variable (parseRunId : String → Option String)

def Site.publish (w : Site) (runId : String) (event : BackplaneEvent) : Delivery → Except BackplaneError Unit × Site
  | .served => (.ok (), { w with published := w.published ++ [(runId, event)] })
  | .refused e => (.error e, w)
  | .lost e => (.error e, { w with published := w.published ++ [(runId, event)] })

def Site.respond (w : Site) : (e : ApiEffect) → Delivery → Option (ApiResp e × Site)
  | .publishNodeCompleted runId nodeName success, c => some (w.publish runId (.nodeCompleted nodeName success) c)
  | .publishCancel runId, c => some (w.publish runId .cancel c)
  | e, _ => some (w.backends.answer parseRunId e, w)

def Visit.process (v : Visit) : Prog Visit ApiResp (Option ApiResponse) :=
  (route v.auth v.request ()).map (fun _ => v) some

/-- The API: requests are served side by side, and the backends become what the rest of the system makes of them. -/
def api : System Site Visit Empty Delivery SiteChange ApiResp ApiResponse where
  respond w _ e c := w.respond parseRunId e c
  accept _ _ i := i.elim
  handle i := i.elim
  spawned _ := []
  outside w
    | .visit v => some (w, [v.process])
    | .becomes backends => some ({ w with backends := backends }, [])

end

abbrev SiteConfig : Type := Config Site Visit ApiResp ApiResponse

abbrev SiteStep : Type := Step SiteConfig (Act Empty Delivery SiteChange)

/-- No request is served and nothing was published. -/
def BlankSite (σ : SiteConfig) : Prop := σ.procs = [] ∧ σ.world.published = []

/-! ## Warrants -/

/-- A completion is published by a poke of the node that has read in S3 how it ended, and a cancellation by a request of
an authorized user that has read that the run is the tenant's. -/
def Warranted (v : Visit) (calls : Transcript ApiResp) : ApiEffect → Prop
  | .publishNodeCompleted runId nodeName success => v.request = .poke runId nodeName ∧
      ∃ outcome, ⟨.nodeStatus runId nodeName, .ok outcome⟩ ∈ calls ∧ validatePokeOutcome outcome = some success
  | .publishCancel runId => ∃ session slug, v.auth = .ok (some session) ∧ slug ∈ session.authorizedSlugs ∧
      v.request = .cancel slug runId ∧ ∃ row, ⟨.getPipelineRun runId, .ok (some row)⟩ ∈ calls ∧ row.tenantSlug = some slug
  | _ => True

/-- The call publishes nothing. -/
def Silent : ApiEffect → Prop
  | .publishNodeCompleted .. => False
  | .publishCancel _ => False
  | _ => True

theorem Silent.warranted {v : Visit} {calls : Transcript ApiResp} {e : ApiEffect} (h : Silent e) : Warranted v calls e := by
  cases e with
  | publishNodeCompleted => exact h.elim
  | publishCancel => exact h.elim
  | _ => trivial

theorem checkRunInSlug_silent (runId slug : String) : Calls Silent (checkRunInSlug runId slug) := by
  refine (calls_perform trivial).seq fun r => ?_
  split
  · exact calls_pure _
  · exact calls_pure _
  · exact calls_pure _

/-- A handler that looks the run up first and then publishes nothing. -/
theorem checked_silent {runId slug : String} {α : Type} {f : Except Nat Unit → ApiHandler α}
    (hrefused : ∀ code, Calls Silent (f (.error code))) (hf : Calls Silent (f (.ok ()))) :
    Calls Silent (checkRunInSlug runId slug >>= f) := by
  refine (checkRunInSlug_silent runId slug).seq fun r => ?_
  cases r with
  | error code => exact hrefused code
  | ok => exact hf

theorem getRunStatus_silent (slug runId : String) : Calls Silent (getRunStatus slug runId) := by
  refine checked_silent (fun _ => calls_pure _) ((calls_perform trivial).seq fun r => ?_)
  split
  · exact calls_pure _
  · exact calls_pure _
  · exact calls_pure _

theorem listRuns_silent (slug : String) (params : ListRunsParams) : Calls Silent (listRuns slug params) := by
  unfold listRuns
  split
  · exact calls_pure _
  · refine (calls_perform trivial).seq fun r => ?_
    split
    · exact calls_pure _
    · refine (calls_perform trivial).seq fun r => ?_
      split
      · exact calls_pure _
      · exact calls_pure _

theorem getRun_silent (slug runId : String) : Calls Silent (getRun slug runId) := by
  refine (calls_perform trivial).seq fun r => ?_
  split
  · exact calls_pure _
  · exact calls_pure _
  · exact calls_pure _

theorem augmentRow_silent (row : NodeRunRow) : Calls Silent (augmentRow row) := by
  unfold augmentRow
  split
  · exact calls_pure _
  · exact (calls_perform trivial).seq fun _ => calls_pure _

theorem listRunNodes_silent (slug runId : String) : Calls Silent (listRunNodes slug runId) := by
  refine checked_silent (fun _ => calls_pure _) ((calls_perform trivial).seq fun r => ?_)
  split
  · exact calls_pure _
  · exact (calls_mapM augmentRow_silent _).seq fun _ => calls_pure _

theorem getRunNode_silent (slug runId nodeName : String) : Calls Silent (getRunNode slug runId nodeName) := by
  refine checked_silent (fun _ => calls_pure _) ((calls_perform trivial).seq fun r => ?_)
  split
  · exact calls_pure _
  · exact calls_pure _
  · exact (augmentRow_silent _).seq fun _ => calls_pure _

theorem recordedLog_silent (runId nodeName : String) : Calls Silent (recordedLog runId nodeName) := by
  refine (calls_perform trivial).seq fun r => ?_
  split
  · exact calls_pure _
  · exact calls_pure _
  · exact calls_pure _

theorem getNodeLog_silent (slug runId nodeName : String) : Calls Silent (getNodeLog slug runId nodeName) := by
  refine checked_silent (fun _ => calls_pure _) ((calls_perform trivial).seq fun r => ?_)
  split
  · exact calls_pure _
  · exact calls_pure _
  · split
    · refine (calls_perform trivial).seq fun r => ?_
      split
      · exact calls_pure _
      · exact recordedLog_silent _ _
    · exact recordedLog_silent _ _

/-- Every call of a request that is served is warranted by what was read for it. -/
abbrev Warranting (v : Visit) (m : ApiHandler ApiResponse) (calls : Transcript ApiResp) : Prop :=
  (recording (I := Empty) (Warranted v)).Obeys (m ()) calls fun _ _ _ => True

theorem silent_warranting {v : Visit} {m : ApiHandler ApiResponse} (h : Calls Silent m) (calls : Transcript ApiResp) :
    Warranting v m calls :=
  obeys_recording (fun _ _ he => he.warranted) (h ()) calls

theorem poke_warranting {v : Visit} {runId nodeName : String} (hv : v.request = .poke runId nodeName) :
    Warranting v (handleNodePoke runId nodeName) [] := by
  refine ⟨trivial, fun r _ => ?_⟩
  cases r with
  | error e => cases e <;> trivial
  | ok outcome =>
      cases hvalid : validatePokeOutcome outcome with
      | none =>
          simp only [Prog.ret_bind, hvalid]
          trivial
      | some success =>
          simp only [Prog.ret_bind, hvalid]
          refine ⟨⟨hv, outcome, List.mem_cons_self, hvalid⟩, fun r _ => ?_⟩
          cases r with
          | error => trivial
          | ok => trivial

theorem checkRunInSlug_read {v : Visit} (runId slug : String) :
    (recording (I := Empty) (Warranted v)).Obeys (checkRunInSlug runId slug ()) [] fun calls _ r => r = .ok () →
      ∃ row, ⟨.getPipelineRun runId, .ok (some row)⟩ ∈ calls ∧ row.tenantSlug = some slug := by
  refine ⟨trivial, fun r _ => ?_⟩
  match r with
  | .error _ => exact nofun
  | .ok none => exact nofun
  | .ok (some row) =>
      intro hok
      refine ⟨row, List.mem_cons_self, ?_⟩
      by_contra hother
      rw [if_neg hother] at hok
      cases hok

theorem cancel_warranting {v : Visit} {slug runId : String} {session : AuthSession} (hauth : v.auth = .ok (some session))
    (hslug : slug ∈ session.authorizedSlugs) (hv : v.request = .cancel slug runId) :
    Warranting v (cancelPipelineRun slug runId) [] := by
  refine (checkRunInSlug_read runId slug).seq fun calls _ r hread => ?_
  cases r with
  | error code => trivial
  | ok =>
      obtain ⟨row, hrow, htenant⟩ := hread rfl
      refine ⟨⟨session, slug, hauth, hslug, hv, row, hrow, htenant⟩, fun r _ => ?_⟩
      cases r with
      | error => trivial
      | ok => trivial

theorem authorizedTenant_ok {auth : Except SessionError (Option AuthSession)} {slug : String} {session : AuthSession}
    (h : authorizedTenant auth slug = .ok session) : auth = .ok (some session) ∧ slug ∈ session.authorizedSlugs := by
  unfold authorizedTenant at h
  split at h
  · split at h
    · cases h
      exact ⟨rfl, by assumption⟩
    · cases h
  · cases h
  · cases h

/-- Whatever is requested, every call that is made for it is warranted. -/
theorem route_warranting (v : Visit) : Warranting v (route v.auth v.request) [] := by
  unfold route
  cases hslug : v.request.slug with
  | none =>
      cases hv : v.request with
      | poke runId nodeName => exact poke_warranting hv
      | _ =>
          rw [hv] at hslug
          cases hslug
  | some slug =>
      dsimp only
      cases hauth : authorizedTenant v.auth slug with
      | error code => trivial
      | ok session =>
          obtain ⟨hsession, hmem⟩ := authorizedTenant_ok hauth
          cases hv : v.request with
          | poke =>
              rw [hv] at hslug
              cases hslug
          | cancel _ runId =>
              rw [hv] at hslug
              cases hslug
              exact cancel_warranting hsession hmem hv
          | status _ runId => exact silent_warranting (getRunStatus_silent _ runId) []
          | list _ params => exact silent_warranting (listRuns_silent _ params) []
          | run _ runId => exact silent_warranting (getRun_silent _ runId) []
          | nodes _ runId => exact silent_warranting (listRunNodes_silent _ runId) []
          | node _ runId nodeName => exact silent_warranting (getRunNode_silent _ runId nodeName) []
          | log _ runId nodeName => exact silent_warranting (getNodeLog_silent _ runId nodeName) []

/-! ## In every run of the API -/

variable {parseRunId : String → Option String} {h : List SiteStep} {σ : SiteConfig}

/-- What the backends showed since a request was begun bears the event out. -/
def Attests (parseRunId : String → Option String) (v : Visit) (since : List SiteStep) (runId : String) :
    BackplaneEvent → Prop
  | .nodeCompleted nodeName success => v.request = .poke runId nodeName ∧ ∃ t ∈ since, ∃ outcome,
      t.before.world.backends.nodeStatus runId nodeName = .ok outcome ∧ outcome.success = some success ∧
      outcome.finishedAt.isSome
  | .cancel => ∃ session slug, v.auth = .ok (some session) ∧ slug ∈ session.authorizedSlugs ∧
      v.request = .cancel slug runId ∧ ∃ t ∈ since, ∃ row,
      t.before.world.backends.history.getPipelineRun parseRunId runId = .ok (some row) ∧ row.tenantSlug = some slug

/-- The event goes back to a request that was begun in the course of the run. -/
def Attested (parseRunId : String → Option String) (h : List SiteStep) (runId : String) (event : BackplaneEvent) : Prop :=
  ∃ before t since v, h = before ++ t :: since ∧ t.label = .outside (.visit v) ∧ Attests parseRunId v since runId event

theorem Attested.snoc {runId : String} {event : BackplaneEvent} {t : SiteStep} (ha : Attested parseRunId h runId event) :
    Attested parseRunId (h ++ [t]) runId event := by
  obtain ⟨before, t₀, since, v, rfl, hv, hattests⟩ := ha
  refine ⟨before, t₀, since ++ [t], v, by simp, hv, ?_⟩
  cases event with
  | nodeCompleted nodeName success =>
      obtain ⟨hpoke, t', ht', hread⟩ := hattests
      exact ⟨hpoke, t', List.mem_append_left _ ht', hread⟩
  | cancel =>
      obtain ⟨session, slug, hauth, hslug, hcancel, t', ht', hread⟩ := hattests
      exact ⟨session, slug, hauth, hslug, hcancel, t', List.mem_append_left _ ht', hread⟩

theorem starts_visit {t : SiteStep} {p : Prog Visit ApiResp (Option ApiResponse)} (ht : (api parseRunId).Starts t p) :
    ∃ v : Visit, t.label = .outside (.visit v) ∧ p = v.process := by
  obtain ⟨before, label, after⟩ := t
  cases label with
  | answer i c =>
      obtain ⟨_, _, _, _, hp⟩ := ht
      simp [api] at hp
  | deliver i input => exact input.elim
  | crash i => exact ht.elim
  | outside l =>
      obtain ⟨a, ha, hp⟩ := ht
      cases l with
      | visit v =>
          cases ha
          obtain rfl := List.mem_singleton.mp hp
          exact ⟨v, rfl, rfl⟩
      | becomes backends =>
          cases ha
          simp at hp

/-- A call that is pending is warranted by what the world has shown since the request was begun. -/
theorem call_warranted (hr : Run (api parseRunId).step BlankSite h σ) {i : Nat} {s : Visit} {e : ApiEffect}
    {k : ApiResp e → Prog Visit ApiResp (Option ApiResponse)} (hcall : σ.procs[i]? = some (some (.call s e k))) :
    ∃ before t since v calls, h = before ++ t :: since ∧ t.label = .outside (.visit v) ∧ Warranted v calls e ∧
      ∀ call ∈ calls, ∃ t' ∈ since, ∃ s', (api parseRunId).Shows t'.before.world (.answered s' call.1 call.2) := by
  have hwarranted := System.warranted (fun σ hσ => hσ.1) hr
    (P := fun t calls e => ∀ v, t.label = .outside (.visit v) → Warranted v calls e) ?_ (fun _ input => input.elim) hcall
  · obtain ⟨before, t, since, calls, rfl, ⟨p, hp⟩, hP, hcalls⟩ := hwarranted
    obtain ⟨v, hv, -⟩ := starts_visit hp
    exact ⟨before, t, since, v, calls, rfl, hv, hP v hv, hcalls⟩
  · intro t p hp
    obtain ⟨v, hv, rfl⟩ := starts_visit hp
    have hv' : (fun calls e => ∀ v, t.label = Act.outside (SiteChange.visit v) → Warranted v calls e) = Warranted v := by
      funext calls e
      rw [hv]
      simp
    rw [hv']
    exact (route_warranting v).map_recording _ _

theorem validatePokeOutcome_eq_some {outcome : NodeOutcome} {success : Bool}
    (hvalid : validatePokeOutcome outcome = some success) : outcome.success = some success ∧ outcome.finishedAt.isSome := by
  unfold validatePokeOutcome at hvalid
  split at hvalid
  · rename_i hsuccess hfinished
    cases hvalid
    exact ⟨hsuccess, by rw [hfinished]; rfl⟩
  · cases hvalid

/-- The event that a call publishes, and its run. -/
def publication : ApiEffect → Option (String × BackplaneEvent)
  | .publishNodeCompleted runId nodeName success => some (runId, .nodeCompleted nodeName success)
  | .publishCancel runId => some (runId, .cancel)
  | _ => none

/-- A call adds nothing to what is published but its own event. -/
theorem respond_published {w w' : Site} {e : ApiEffect} {r : ApiResp e} {c : Delivery}
    (hr : w.respond parseRunId e c = some (r, w')) {p : String × BackplaneEvent} (hp : p ∈ w'.published) :
    p ∈ w.published ∨ publication e = some p := by
  have hpublish (runId : String) (event : BackplaneEvent) (hp : p ∈ (w.publish runId event c).2.published) :
      p ∈ w.published ∨ some (runId, event) = some p := by
    cases c with
    | refused => exact .inl hp
    | served | lost =>
        rcases List.mem_append.mp hp with hp | hp
        · exact .inl hp
        · exact .inr (congrArg some (List.mem_singleton.mp hp).symm)
  cases e with
  | publishNodeCompleted runId nodeName success =>
      obtain rfl := (Prod.mk.inj (Option.some.inj hr)).2
      exact hpublish runId _ hp
  | publishCancel runId =>
      obtain rfl := (Prod.mk.inj (Option.some.inj hr)).2
      exact hpublish runId _ hp
  | _ =>
      obtain rfl := (Prod.mk.inj (Option.some.inj hr)).2
      exact .inl hp

theorem attests_of_warranted {v : Visit} {calls : Transcript ApiResp} {since : List SiteStep} {e : ApiEffect}
    {runId : String} {event : BackplaneEvent} (hpub : publication e = some (runId, event)) (hw : Warranted v calls e)
    (hcalls : ∀ call ∈ calls, ∃ t ∈ since, ∃ s, (api parseRunId).Shows t.before.world (.answered s call.1 call.2)) :
    Attests parseRunId v since runId event := by
  cases e with
  | publishNodeCompleted runId nodeName success =>
      cases hpub
      obtain ⟨hpoke, outcome, hread, hvalid⟩ := hw
      obtain ⟨t, ht, s, c, w', hshown⟩ := hcalls _ hread
      obtain ⟨hsuccess, hfinished⟩ := validatePokeOutcome_eq_some hvalid
      have hanswer := Option.some.inj hshown
      exact ⟨hpoke, t, ht, outcome, (Prod.mk.inj hanswer).1, hsuccess, hfinished⟩
  | publishCancel runId =>
      cases hpub
      obtain ⟨session, slug, hauth, hslug, hcancel, row, hread, htenant⟩ := hw
      obtain ⟨t, ht, s, c, w', hshown⟩ := hcalls _ hread
      have hanswer := Option.some.inj hshown
      exact ⟨session, slug, hauth, hslug, hcancel, t, ht, row, Backends.statement_ok (Prod.mk.inj hanswer).1, htenant⟩
  | _ => cases hpub

/-- Whatever is requested and however the requests interleave, every completion that the API has published was shown by
S3 to a poke of that node, and every cancellation was asked for by a user who was authorized for the tenant that the run
history named as the run's. -/
theorem published_attested (hr : Run (api parseRunId).step BlankSite h σ) :
    ∀ p ∈ σ.world.published, Attested parseRunId h p.1 p.2 := by
  apply hr.invariant
  · intro σ hσ p hp
    rw [hσ.2] at hp
    cases hp
  · intro h σ l σ' hr ih hstep p hp
    cases l with
    | answer i c =>
        obtain ⟨s, e, k, a, hcall, ha, rfl⟩ := System.step_answer hstep
        rcases respond_published ha hp with hold | hpub
        · exact (ih p hold).snoc
        · obtain ⟨before, t, since, v, calls, rfl, hv, hw, hcalls⟩ := call_warranted hr hcall
          exact Attested.snoc ⟨before, t, since, v, rfl, hv, attests_of_warranted hpub hw hcalls⟩
    | deliver i input => exact input.elim
    | crash i =>
        obtain rfl := System.step_crash hstep
        exact (ih p hp).snoc
    | outside l =>
        obtain ⟨a, ha, rfl⟩ := System.step_outside hstep
        cases l with
        | visit v =>
            cases ha
            exact (ih p hp).snoc
        | becomes backends =>
            cases ha
            exact (ih p hp).snoc

/-- Backends where S3 says that every node has succeeded. -/
def finishedBackends : Backends :=
  { Backends.bare .empty with nodeStatus := fun _ _ => .ok ⟨some true, some 1, some 2⟩ }

/-- A poke of a node is served. -/
def poked : List (Act Empty Delivery SiteChange) :=
  [.outside (.becomes finishedBackends), .outside (.visit ⟨.ok none, .poke "7" "build"⟩), .answer 0 .served,
    .answer 0 .served]

theorem published_attested_poked : ∃ h σ, Run (api some).step BlankSite h σ ∧
    σ.world.published = [("7", .nodeCompleted "build" true)] ∧ Attested some h "7" (.nodeCompleted "build" true) := by
  have hblank : BlankSite ⟨⟨.bare .empty, []⟩, []⟩ := ⟨rfl, rfl⟩
  obtain ⟨h, σ, hr, hcheck⟩ := exists_run (api some).step poked hblank
    (fun r => decide (r.2.world.published = [("7", .nodeCompleted "build" true)])) (by decide +kernel)
  have hpublished := of_decide_eq_true hcheck
  exact ⟨h, σ, hr, hpublished, published_attested hr ("7", _) (by rw [hpublished]; exact List.mem_singleton_self _)⟩

end Jefferies.Server
