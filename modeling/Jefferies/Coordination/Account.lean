import Jefferies.Coordination.Serving

/-!
# Accounts of the runs of the servers

An account is history of a run of the servers: answered calls and what happens from outside change it. Its
invariant speaks of the world, and it is related to what each process has learned.
-/

namespace Jefferies.Coordination

open Pipelines StateStore RunHistory Interaction Monitor Transition

/-- The call was carried out, with or without an error in the answer. -/
def Reply.carriedOut : Reply → Bool
  | .done => true
  | .storeFails _ applied => applied
  | .historyFails _ applied => applied
  | .dispatcherFails _ applied => applied
  | _ => false

namespace World

variable {w : World}

/-- An operation of the store that is answered was carried out or not, and its answer is known if there is no
error. -/
theorem storeOp_cases {α : Type} {a : α × RedisStateStore} {reply : Reply}
    {x : Except StateStoreError α × World} (h : w.storeOp a reply = some x) :
    (reply = .done ∧ x = (.ok a.1, { w with store := a.2 })) ∨
      ∃ error applied, reply = .storeFails error applied ∧
        x = (.error error, if applied then { w with store := a.2 } else w) := by
  cases reply with
  | done => exact Or.inl ⟨rfl, (Option.some.inj h).symm⟩
  | storeFails error applied => exact Or.inr ⟨error, applied, rfl, (Option.some.inj h).symm⟩
  | _ => cases h

theorem storeOp_store {α : Type} {a : α × RedisStateStore} {reply : Reply}
    {x : Except StateStoreError α × World} (h : w.storeOp a reply = some x) :
    x.2 = if reply.carriedOut then { w with store := a.2 } else w := by
  rcases storeOp_cases h with ⟨rfl, rfl⟩ | ⟨error, applied, rfl, rfl⟩ <;> rfl

theorem dispatcherOp_cases {α : Type} {y : α} {w' : World} {reply : Reply}
    {x : Except DispatchError α × World} (h : w.dispatcherOp y w' reply = some x) :
    (reply = .done ∧ x = (.ok y, w')) ∨
      ∃ error applied, reply = .dispatcherFails error applied ∧ x = (.error error, if applied then w' else w) := by
  cases reply with
  | done => exact Or.inl ⟨rfl, (Option.some.inj h).symm⟩
  | dispatcherFails error applied => exact Or.inr ⟨error, applied, rfl, (Option.some.inj h).symm⟩
  | _ => cases h

end World

/-- The store once the call is carried out. -/
def Effect.storeAfter (store : RedisStateStore) : Effect → RedisStateStore
  | .saveRun runId state expected => (store.saveRun runId state expected).2
  | .deleteRun runId => store.deleteRun runId
  | .tryAcquireLease runId serverId _ => (store.tryAcquireLease runId serverId).2
  | .releaseLease runId => store.releaseLease runId
  | _ => store

/-- A statement that fails changes nothing. -/
def kept (history : PostgresRunHistory) : Except RunHistoryError PostgresRunHistory → PostgresRunHistory
  | .ok history' => history'
  | .error _ => history

/-- The run history once the call is carried out. -/
def Effect.historyAfter (parseRunId : String → Option String) (history : PostgresRunHistory) :
    Effect → PostgresRunHistory
  | .recordPipelineStarted record => kept history (history.recordPipelineStarted parseRunId record)
  | .recordPipelineRun record => kept history (history.recordPipelineRun parseRunId record)
  | .finalizePipelineRunStatus runId status completedAt =>
      kept history ((history.finalizePipelineRunStatus parseRunId runId status completedAt).map Prod.snd)
  | .recordNodeDispatched record => kept history (history.recordNodeDispatched parseRunId record)
  | .recordNodeRun record => kept history (history.recordNodeRun parseRunId record)
  | _ => history

/-- What holds before a statement and behind one that does not fail holds behind it. -/
theorem kept_induction (P : PostgresRunHistory → Prop) {history : PostgresRunHistory}
    {x : Except RunHistoryError PostgresRunHistory} (h : P history) (hx : ∀ history', x = .ok history' → P history') :
    P (kept history x) := by
  cases x with
  | ok history' => exact hx history' rfl
  | error error => exact h

/-- A statement whose answer is forgotten. -/
theorem kept_forgotten {α : Type} (history : PostgresRunHistory) (a : α) (x : Except RunHistoryError PostgresRunHistory) :
    kept history ((x.map fun history' => (a, history')).map Prod.snd) = kept history x := by
  cases x <;> rfl

/-- A query keeps the history. -/
theorem kept_queried {α : Type} (history : PostgresRunHistory) (x : Except RunHistoryError α) :
    kept history ((x.map fun a => (a, history)).map Prod.snd) = history := by
  cases x <;> rfl

theorem kept_cases (history : PostgresRunHistory) (x : Except RunHistoryError PostgresRunHistory) :
    kept history x = history ∨ x = .ok (kept history x) := by
  cases x with
  | error error => exact .inl rfl
  | ok history' => exact .inr rfl

/-- A call leaves the rows of the nodes as they are, or records that a node was dispatched or that it has run. -/
theorem Effect.nodeRuns_cases (parseRunId : String → Option String) (history : PostgresRunHistory) (e : Effect) :
    (e.historyAfter parseRunId history).nodeRuns = history.nodeRuns ∨
    (∃ record, e = .recordNodeDispatched record ∧
      history.recordNodeDispatched parseRunId record = .ok (e.historyAfter parseRunId history)) ∨
    ∃ record, e = .recordNodeRun record ∧
      history.recordNodeRun parseRunId record = .ok (e.historyAfter parseRunId history) := by
  cases e with
  | recordNodeDispatched record =>
      rcases kept_cases history (history.recordNodeDispatched parseRunId record) with hkept | hok
      · exact .inl (congrArg _ hkept)
      · exact .inr (.inl ⟨record, rfl, hok⟩)
  | recordNodeRun record =>
      rcases kept_cases history (history.recordNodeRun parseRunId record) with hkept | hok
      · exact .inl (congrArg _ hkept)
      · exact .inr (.inr ⟨record, rfl, hok⟩)
  | recordPipelineStarted record =>
      left
      rcases kept_cases history (history.recordPipelineStarted parseRunId record) with hkept | hok
      · exact congrArg _ hkept
      · exact PostgresRunHistory.recordPipelineStarted_nodeRuns hok
  | recordPipelineRun record =>
      left
      rcases kept_cases history (history.recordPipelineRun parseRunId record) with hkept | hok
      · exact congrArg _ hkept
      · exact PostgresRunHistory.recordPipelineRun_nodeRuns hok
  | finalizePipelineRunStatus runId status completedAt =>
      left
      rcases kept_cases history
        ((history.finalizePipelineRunStatus parseRunId runId status completedAt).map Prod.snd) with hkept | hok
      · exact congrArg _ hkept
      · obtain ⟨a, hfinalized, ha⟩ := except_map_ok hok
        obtain ⟨uuid, _, hrows⟩ := PostgresRunHistory.finalizePipelineRunStatus_ok hfinalized
        rw [Effect.historyAfter, ← ha, hrows]
  | _ => exact .inl rfl

theorem World.historyOp_world {w : World} {α : Type} {a : Except RunHistoryError (α × PostgresRunHistory)}
    {reply : Reply} {x : Except RunHistoryError α × World} (h : w.historyOp a reply = some x) :
    x.2 = if reply.carriedOut then { w with history := kept w.history (a.map Prod.snd) } else w := by
  cases reply with
  | done => cases a <;> cases h <;> rfl
  | historyFails error applied => cases a <;> cases applied <;> cases h <;> rfl
  | _ => cases h

/-- What an operation of the run history answers is its result. -/
theorem World.historyOp_ok {w : World} {α : Type} {a : Except RunHistoryError (α × PostgresRunHistory)}
    {reply : Reply} {x : Except RunHistoryError α × World} (h : w.historyOp a reply = some x) {y : α}
    (hy : x.1 = .ok y) : ∃ history, a = .ok (y, history) := by
  cases reply with
  | done =>
      cases a with
      | error e =>
          cases h
          cases hy
      | ok b =>
          cases h
          cases hy
          exact ⟨b.2, rfl⟩
  | historyFails error applied => cases a <;> cases applied <;> cases h <;> cases hy
  | _ => cases h

theorem World.queryOp_ok {w : World} {α : Type} {a : Except RunHistoryError α} {reply : Reply}
    {x : Except RunHistoryError α × World} (h : w.historyOp (w.query a) reply = some x) {y : α} (hy : x.1 = .ok y) :
    a = .ok y := by
  obtain ⟨history, hquery⟩ := World.historyOp_ok h hy
  cases a with
  | error e => cases hquery
  | ok b =>
      cases hquery
      rfl

/-- The identifiers that were drawn once the call is answered. -/
def Effect.drawnAfter (drawn : List String) : Effect → Reply → List String
  | .newUuid, .text s => s :: drawn
  | _, _ => drawn

/-- The nodes that were dispatched once the call is carried out. -/
def Effect.dispatchedAfter (dispatched : List (String × NodeInfo)) : Effect → List (String × NodeInfo)
  | .dispatch runId _ node _ => (runId, node) :: dispatched
  | _ => dispatched

/-- The world after an answer: each part changes as its part of the call says, if the call is carried out. -/
theorem respond_world {parseRunId : String → Option String} {w : World} {e : Effect} {reply : Reply}
    {a : Resp e × World} (h : respond parseRunId w e reply = some a) :
    a.2 = { store := if reply.carriedOut then e.storeAfter w.store else w.store
            history := if reply.carriedOut then e.historyAfter parseRunId w.history else w.history
            drawn := e.drawnAfter w.drawn reply
            dispatched := if reply.carriedOut then e.dispatchedAfter w.dispatched else w.dispatched } := by
  cases e with
  | saveRun _ _ _ | deleteRun _ | tryAcquireLease _ _ _ | releaseLease _ | loadRun _ | renewLease _ _ _ _
  | leaseExists _ =>
      rw [World.storeOp_store h]
      cases reply.carriedOut <;> rfl
  | recordPipelineStarted _ | recordPipelineRun _ | recordNodeDispatched _ | recordNodeRun _ =>
      rw [World.historyOp_world h, World.unit, kept_forgotten]
      cases reply.carriedOut <;> rfl
  | finalizePipelineRunStatus _ _ _ =>
      rw [World.historyOp_world h]
      cases reply.carriedOut <;> rfl
  | getPipelineRun _ | listNodeRuns _ | getNodeRun _ _ =>
      rw [World.historyOp_world h, World.query, kept_queried]
      cases reply.carriedOut <;> rfl
  | listInProgressRuns =>
      have hop : w.historyOp (.ok (w.history.listInProgressRuns, w.history)) reply = some a := h
      rw [World.historyOp_world hop]
      cases reply.carriedOut <;> rfl
  | dispatch _ _ _ _ | cancelNode _ _ | cleanupRun _ =>
      rcases World.dispatcherOp_cases h with ⟨rfl, rfl⟩ | ⟨error, applied, rfl, rfl⟩
      · rfl
      · cases applied <;> rfl
  | newUuid =>
      cases reply with
      | text s =>
          simp only [respond] at h
          split at h <;> cases h
          rfl
      | _ => cases h
  | iterate names =>
      obtain ⟨o, _, rfl⟩ := Option.map_eq_some_iff.mp h
      cases reply.carriedOut <;> rfl
  | stateKeys =>
      cases reply with
      | names l =>
          obtain ⟨o, _, rfl⟩ := Option.map_eq_some_iff.mp h
          rfl
      | storeFails error applied => cases h; cases applied <;> rfl
      | _ => cases h
  | getNodeOutcome _ _ =>
      cases reply with
      | outcome o =>
          simp only [respond] at h
          split at h <;> cases h
          rfl
      | dispatcherFails error applied => cases h; cases applied <;> rfl
      | _ => cases h
  | readOutcomes _ _ =>
      cases reply with
      | outcomes o =>
          simp only [respond] at h
          split at h <;> cases h
          rfl
      | _ => cases h
  | _ =>
      cases reply with
      | dispatcherFails error applied => cases h <;> cases applied <;> rfl
      | _ => cases h <;> rfl

theorem respond_store {parseRunId : String → Option String} {w : World} {e : Effect} {reply : Reply}
    {a : Resp e × World} (h : respond parseRunId w e reply = some a) :
    a.2.store = if reply.carriedOut then e.storeAfter w.store else w.store := by
  rw [respond_world h]

theorem respond_history {parseRunId : String → Option String} {w : World} {e : Effect} {reply : Reply}
    {a : Resp e × World} (h : respond parseRunId w e reply = some a) :
    a.2.history = if reply.carriedOut then e.historyAfter parseRunId w.history else w.history := by
  rw [respond_world h]

theorem respond_drawn {parseRunId : String → Option String} {w : World} {e : Effect} {reply : Reply}
    {a : Resp e × World} (h : respond parseRunId w e reply = some a) : w.drawn ⊆ a.2.drawn := by
  rw [respond_world h]
  show w.drawn ⊆ e.drawnAfter w.drawn reply
  unfold Effect.drawnAfter
  split
  · exact List.subset_cons_self _ _
  · exact List.Subset.refl _

theorem respond_runs {parseRunId : String → Option String} {w : World} {e : Effect} {reply : Reply}
    {a : Resp e × World} (h : respond parseRunId w e reply = some a) :
    a.2.store.runs = match e with
      | .saveRun runId state expected =>
          if reply.carriedOut && w.store.accepts runId expected then w.store.runs.insert runId state
          else w.store.runs
      | .deleteRun runId => if reply.carriedOut then w.store.runs.erase runId else w.store.runs
      | _ => w.store.runs := by
  rw [respond_store h]
  cases reply.carriedOut with
  | false => cases e <;> rfl
  | true =>
      cases e with
      | saveRun runId state expected =>
          cases hacc : w.store.accepts runId expected with
          | true => simp [Effect.storeAfter, RedisStateStore.saveRun_accepted hacc, hacc]
          | false => simp [Effect.storeAfter, RedisStateStore.saveRun_rejected hacc, hacc]
      | tryAcquireLease runId serverId ttl => exact RedisStateStore.tryAcquireLease_runs _ _ _
      | _ => rfl

/-- What is stored behind an answer was stored before, or the call saves it. -/
theorem respond_runs_cases {parseRunId : String → Option String} {w : World} {e : Effect} {reply : Reply}
    {a : Resp e × World} (h : respond parseRunId w e reply = some a) {r : String} {state : RunState}
    (hl : a.2.store.runs.lookup r = some state) :
    w.store.runs.lookup r = some state ∨ ∃ expected, e = .saveRun r state expected := by
  rw [respond_runs h] at hl
  cases e with
  | saveRun runId saved expected =>
      simp only at hl
      split at hl
      · rw [HashMap.lookup_insert_eq_ite] at hl
        split at hl
        · rename_i hr
          cases hr
          cases hl
          exact .inr ⟨expected, rfl⟩
        · exact .inl hl
      · exact .inl hl
  | deleteRun runId =>
      simp only at hl
      split at hl
      · rw [HashMap.lookup_erase_eq_ite] at hl
        split at hl
        · cases hl
        · exact .inl hl
      · exact .inl hl
  | _ => exact .inl hl

theorem respond_leases {parseRunId : String → Option String} {w : World} {e : Effect} {reply : Reply}
    {a : Resp e × World} (h : respond parseRunId w e reply = some a) :
    a.2.store.leases = match e with
      | .tryAcquireLease runId serverId _ =>
          if reply.carriedOut && (w.store.leases.lookup runId).isNone then
            w.store.leases.insert runId ⟨w.store.nextVersion runId, serverId⟩
          else w.store.leases
      | .releaseLease runId => if reply.carriedOut then w.store.leases.erase runId else w.store.leases
      | _ => w.store.leases := by
  rw [respond_store h]
  cases reply.carriedOut with
  | false => cases e <;> rfl
  | true =>
      cases e with
      | tryAcquireLease runId serverId ttl =>
          cases hl : w.store.leases.lookup runId <;>
            simp [Effect.storeAfter, RedisStateStore.tryAcquireLease, hl]
      | saveRun runId state expected => exact RedisStateStore.saveRun_leases _ _ _ _
      | _ => rfl

theorem respond_leaseVersions {parseRunId : String → Option String} {w : World} {e : Effect} {reply : Reply}
    {a : Resp e × World} (h : respond parseRunId w e reply = some a) :
    a.2.store.leaseVersions = match e with
      | .tryAcquireLease runId _ _ =>
          if reply.carriedOut && (w.store.leases.lookup runId).isNone then
            w.store.leaseVersions.insert runId (w.store.nextVersion runId)
          else w.store.leaseVersions
      | _ => w.store.leaseVersions := by
  rw [respond_store h]
  cases reply.carriedOut with
  | false => cases e <;> rfl
  | true =>
      cases e with
      | tryAcquireLease runId serverId ttl =>
          cases hl : w.store.leases.lookup runId <;>
            simp [Effect.storeAfter, RedisStateStore.tryAcquireLease, hl]
      | saveRun runId state expected => exact RedisStateStore.saveRun_leaseVersions _ _ _ _
      | _ => rfl

/-! ## Answered calls -/

namespace Deployment

/-- The call that process `i` makes, with the local state it shows. -/
def callOf (σ : Servers) (i : Nat) : Option (Local × Effect) :=
  match σ.procs[i]? with
  | some (some (.call s e _)) => some (s, e)
  | _ => none

/-- The process whose call a step answers, with its local state, the call and the reply. -/
def answeredCall (t : Event) : Option (Nat × Local × Effect × Reply) :=
  match t.label with
  | .answer i reply => (callOf t.before i).map fun a => (i, a.1, a.2, reply)
  | _ => none

theorem callOf_eq_some {σ : Servers} {i : Nat} {s : Local} {e : Effect} :
    callOf σ i = some (s, e) ↔ ∃ k, σ.procs[i]? = some (some (.call s e k)) := by
  unfold callOf
  constructor
  · intro h
    split at h
    · rename_i k hp
      cases h
      exact ⟨k, hp⟩
    · cases h
  · rintro ⟨k, hp⟩
    rw [hp]

theorem answeredCall_eq_some {t : Event} {i : Nat} {s : Local} {e : Effect} {reply : Reply} :
    answeredCall t = some (i, s, e, reply) ↔
      t.label = .answer i reply ∧ ∃ k, t.before.procs[i]? = some (some (.call s e k)) := by
  rw [← callOf_eq_some]
  unfold answeredCall
  split
  · rename_i j reply' hlabel
    rw [hlabel]
    constructor
    · intro h
      obtain ⟨a, ha, heq⟩ := Option.map_eq_some_iff.mp h
      cases heq
      exact ⟨rfl, ha⟩
    · rintro ⟨hl, hcall⟩
      cases hl
      rw [hcall]
      rfl
  · rename_i hlabel
    constructor
    · exact fun h => absurd h (by simp)
    · exact fun h => absurd h.1 (hlabel i reply)

theorem accept_world {w w' : World} {s : Local} {input : Input} (h : accept w s input = some w') : w' = w := by
  unfold accept at h
  split at h
  · split at h <;> cases h
    rfl
  · exact (Option.some.inj h).symm
  · exact (Option.some.inj h).symm
  · cases h

theorem outside_launch {d : Deployment} {w : World} {runId yaml : String} {reporter : Bool} {context : RunContext}
    {a : World × List Process} (h : d.outside w (.launch runId yaml reporter context) = some a) :
    ∃ pipeline, d.services.parsePipeline yaml = .ok pipeline ∧ runId ∉ w.drawn ∧
      d.parseRunId runId = some runId ∧ a = ({ w with drawn := runId :: w.drawn },
        [taskProcess (d.launchTask runId pipeline reporter { context with pipelineYaml := yaml })]) := by
  simp only [outside] at h
  split at h
  · cases h
  · rename_i pipeline hparse
    split at h
    · cases h
    · rename_i hfresh
      simp only [not_or, not_not] at hfresh
      exact ⟨pipeline, hparse, hfresh.1, hfresh.2, (Option.some.inj h).symm⟩

theorem outside_store {d : Deployment} {w : World} {l : Outside} {a : World × List Process}
    (h : d.outside w l = some a) :
    a.1.store = match l with
      | .expireLease runId => w.store.expireLease runId
      | _ => w.store := by
  cases l with
  | launch runId yaml reporter context =>
      obtain ⟨_, _, _, _, rfl⟩ := outside_launch h
      rfl
  | startReaper => cases h; rfl
  | expireLease runId => cases h; rfl

theorem outside_history {d : Deployment} {w : World} {l : Outside} {a : World × List Process}
    (h : d.outside w l = some a) : a.1.history = w.history := by
  cases l with
  | launch runId yaml reporter context =>
      obtain ⟨_, _, _, _, rfl⟩ := outside_launch h
      rfl
  | startReaper => cases h; rfl
  | expireLease runId => cases h; rfl

theorem outside_runs {d : Deployment} {w : World} {l : Outside} {a : World × List Process}
    (h : d.outside w l = some a) : a.1.store.runs = w.store.runs := by
  rw [outside_store h]
  cases l <;> rfl

/-- A step answers a call, happens outside, or leaves the world as it is. -/
theorem step_cases {d : Deployment} {t : Event} (h : d.cluster.step t.before t.label = some t.after) :
    (∃ i s e reply a, answeredCall t = some (i, s, e, reply) ∧
      respond d.parseRunId t.before.world e reply = some a ∧ t.after.world = a.2) ∨
    (∃ l a, t.label = .outside l ∧ d.outside t.before.world l = some a ∧ t.after.world = a.1) ∨
    (answeredCall t = none ∧ (∀ l, t.label ≠ .outside l) ∧ t.after.world = t.before.world) := by
  cases hl : t.label with
  | answer i reply =>
      rw [hl] at h
      obtain ⟨s, e, k, a, hp, ha, hafter⟩ := System.step_answer h
      exact Or.inl ⟨i, s, e, reply, a, answeredCall_eq_some.mpr ⟨hl, k, hp⟩, ha, by rw [hafter]; rfl⟩
  | outside l =>
      rw [hl] at h
      obtain ⟨a, ha, hafter⟩ := System.step_outside h
      exact Or.inr (Or.inl ⟨l, a, rfl, ha, by rw [hafter]⟩)
  | deliver i input =>
      rw [hl] at h
      obtain ⟨s, w, hp, hw, hafter⟩ := System.step_deliver h
      exact Or.inr (Or.inr ⟨by simp [answeredCall, hl], by simp, by rw [hafter, accept_world hw]⟩)
  | crash i =>
      rw [hl] at h
      exact Or.inr (Or.inr ⟨by simp [answeredCall, hl], by simp, by rw [System.step_crash h]⟩)

end Deployment

/-! ## Accounts -/

open Deployment

/-- An account of a run of the servers. `answered` and `outside` are given the world and the number of processes
before the step; `rel` is what the account says of a process that has learned `γ`. -/
structure Account {d : Deployment} {Γ : Type} (D : Discipline d Γ) (G : Type) where
  start : G
  answered : G → World → Nat → Nat → Effect → Reply → G
  outside : G → World → Outside → G
  inv : G → World → Nat → Prop
  rel : G → World → Nat → Γ → Prop
  inv_start : inv start .empty 0
  received : ∀ {g w i γ s input}, accept w s input = some w → rel g w i γ →
    D.monitor.assume γ (.received s input) ∧ rel g w i (D.monitor.next γ (.received s input))
  own : ∀ {g w n i γ s e reply a}, inv g w n → i < n → rel g w i γ → D.monitor.ok γ s e →
    respond d.parseRunId w e reply = some a → D.monitor.assume γ (.answered s e a.1) ∧
      inv (answered g w n i e reply) a.2 (n + (spawned e).length) ∧
      rel (answered g w n i e reply) a.2 i (D.monitor.next γ (.answered s e a.1))
  others : ∀ {g w n i γ s e reply a j γ'}, inv g w n → rel g w i γ → D.monitor.ok γ s e →
    respond d.parseRunId w e reply = some a → j ≠ i → j < n → rel g w j γ' →
    rel (answered g w n i e reply) a.2 j γ'
  spawn : ∀ {g w n i γ s c reply a}, inv g w n → i < n → rel g w i γ → D.monitor.ok γ s (.spawnCoordinator c) →
    respond d.parseRunId w (.spawnCoordinator c) reply = some a → ∃ γ₀, D.coordinator.live γ₀ c ∧
      rel (answered g w n i (.spawnCoordinator c) reply) a.2 n γ₀
  around : ∀ {g w n l a}, inv g w n → d.outside w l = some a → inv (outside g w l) a.1 (n + a.2.length) ∧
    ∀ j γ, j < n → rel g w j γ → rel (outside g w l) a.1 j γ
  launch : ∀ {g w n runId yaml reporter context pipeline a}, inv g w n →
    d.outside w (.launch runId yaml reporter context) = some a → d.services.parsePipeline yaml = .ok pipeline →
    ∃ γ₀, D.task.live γ₀ ∧ D.task.source γ₀ runId pipeline { context with pipelineYaml := yaml } ∧
      rel (outside g w (.launch runId yaml reporter context)) a.1 n γ₀
  reaper : ∀ {g w n}, inv g w n → ∃ γ₀, D.task.live γ₀ ∧ rel (outside g w .startReaper) w n γ₀

namespace Account

variable {d : Deployment} {Γ G : Type} {D : Discipline d Γ} (A : Account D G)

/-- The account after a step. -/
def next (g : G) (t : Event) : G :=
  match t.label with
  | .answer i reply =>
      match t.before.procs[i]? with
      | some (some (.call _ e _)) => A.answered g t.before.world t.before.procs.length i e reply
      | _ => g
  | .outside l => A.outside g t.before.world l
  | _ => g

/-- The account of a run. -/
def after (h : List Event) : G := history A.next A.start h

variable {A}

theorem next_answer {g : G} {t : Event} {i : Nat} {s : Local} {e : Effect} {reply : Reply}
    (h : answeredCall t = some (i, s, e, reply)) :
    A.next g t = A.answered g t.before.world t.before.procs.length i e reply := by
  obtain ⟨hlabel, k, hp⟩ := answeredCall_eq_some.mp h
  simp only [next, hlabel, hp]

theorem next_outside {g : G} {t : Event} {l : Outside} (h : t.label = .outside l) :
    A.next g t = A.outside g t.before.world l := by
  simp only [next, h]

theorem next_other {g : G} {t : Event} (ha : answeredCall t = none) (ho : ∀ l, t.label ≠ .outside l) :
    A.next g t = g := by
  unfold next
  split
  · rename_i i reply hlabel
    split
    · rename_i s e k hp
      rw [answeredCall_eq_some.mpr ⟨hlabel, k, hp⟩] at ha
      cases ha
    · rfl
  · rename_i l hlabel
    exact absurd hlabel (ho l)
  · rfl

@[simp] theorem after_snoc (h : List Event) (t : Event) : A.after (h ++ [t]) = A.next (A.after h) t :=
  history_snoc ..

variable (A)

/-- What an account promises is a protocol of the servers. -/
def protocol : Protocol d.cluster D.monitor G where
  post := D.post
  next := A.next
  inv g σ := A.inv g σ.world σ.procs.length
  rel := A.rel
  handlers := D.handlers
  answer := by
    rintro g σ i c s e k a γ hinv hrel hp hok ha
    have hlt : i < σ.procs.length := (List.getElem?_eq_some_iff.mp hp).1
    rw [next_answer (answeredCall_eq_some.mpr ⟨rfl, k, hp⟩)]
    obtain ⟨hassume, hinv', hrel'⟩ := A.own hinv hlt hrel hok ha
    refine ⟨hassume, ?_, hrel', fun j γ' hj hjlt => A.others hinv hrel hok ha hj hjlt, ?_⟩
    · simpa [System.answered, Deployment.cluster] using hinv'
    · rintro j p hj
      cases e with
      | spawnCoordinator c' =>
          obtain ⟨γ₀, hlive, hrel₀⟩ := A.spawn hinv hlt hrel hok ha
          cases j with
          | zero =>
              cases hj
              exact ⟨γ₀, D.spawned_obeys hlive, hrel₀⟩
          | succ j => cases hj
      | _ => cases hj
  deliver := by
    rintro g σ i input s w γ hinv hrel _ hp hw
    cases accept_world hw
    obtain ⟨hassume, hrel'⟩ := A.received hw hrel
    exact ⟨hassume, by simpa [next] using hinv, hrel', fun j γ' _ _ h => h⟩
  crash := by
    rintro g σ i hinv
    exact ⟨by simpa [next] using hinv, fun j γ' _ _ h => h⟩
  outside := by
    rintro g σ l a hinv ha
    obtain ⟨hinv', hrel'⟩ := A.around hinv ha
    refine ⟨by simpa [next] using hinv', hrel', ?_⟩
    rintro j p hj
    cases l with
    | startReaper =>
        cases ha
        obtain ⟨γ₀, hlive, hrel₀⟩ := A.reaper hinv
        cases j with
        | zero =>
            cases hj
            exact ⟨γ₀, D.reaper_obeys hlive, hrel₀⟩
        | succ j => cases hj
    | expireLease runId =>
        cases ha
        cases hj
    | launch runId yaml reporter context =>
        obtain ⟨pipeline, hparse, _, _, rfl⟩ := outside_launch ha
        obtain ⟨γ₀, hlive, hsource, hrel₀⟩ := A.launch hinv ha hparse
        cases j with
        | zero =>
            cases hj
            exact ⟨γ₀, D.launch_obeys hlive hsource reporter, hrel₀⟩
        | succ j => cases hj

variable {A}

theorem holds {h : List Event} {σ : Servers} (hr : d.Runs h σ) : A.protocol.Holds (A.after h) σ := by
  refine A.protocol.holds ?_ hr
  rintro σ rfl
  exact ⟨A.inv_start, fun i p hp => by simp at hp⟩

theorem inv_after {h : List Event} {σ : Servers} (hr : d.Runs h σ) :
    A.inv (A.after h) σ.world σ.procs.length := (holds hr).1

/-- What a process that makes a call knows, and that the monitor grants the call. -/
theorem knows {h : List Event} {σ : Servers} (hr : d.Runs h σ) {i : Nat} {s : Local} {e : Effect}
    (hcall : callOf σ i = some (s, e)) : ∃ γ, A.rel (A.after h) σ.world i γ ∧ D.monitor.ok γ s e := by
  obtain ⟨k, hp⟩ := callOf_eq_some.mp hcall
  obtain ⟨γ, hrel, hob⟩ := (holds hr).2 i _ hp
  exact ⟨γ, hrel, hob.1⟩

end Account

end Jefferies.Coordination
