import Jefferies.Coordination.Confluence
import Jefferies.Coordination.Outcomes
import Jefferies.RunHistory.Postgres

/-!
# Late completions

A node that is neither Running nor Pending can complete again: the completion was sent twice, or it comes after
the node was failed. The mark changes nothing then, but the handler does not look at that: it saves, records
and goes on as behind a first completion.
-/

namespace Jefferies.Coordination

open Pipelines StateStore RunHistory Interaction Interact Coordinator PipelineRun

/-! ## What the history has of a node -/

structure NodeResult where
  success : Option Bool
  failureReason : Option String
  startedAt : Option DateTime
  completedAt : Option DateTime
  deriving DecidableEq

/-- The result of the node's run, where the history has one. -/
def nodeResult (parseRunId : String → Option String) (history : PostgresRunHistory) (runId nodeName : String) :
    Option NodeResult :=
  match history.getNodeRun parseRunId runId nodeName with
  | .ok (some row) => some ⟨row.success, row.failureReason, row.startedAt, row.completedAt⟩
  | _ => none

/-- The history has the run, so that a node's run can be recorded. -/
def hasRun (parseRunId : String → Option String) (history : PostgresRunHistory) (runId : String) : Bool :=
  (parseRunId runId).any fun uuid => history.refers (some uuid)

/-! ## The services behind a handler -/

/-- Whether the store takes a save, what S3 has of the node, and the run history. -/
structure Desk where
  accepts : Bool
  outcome : Option NodeOutcome
  history : PostgresRunHistory

namespace Desk

def put (self : Desk) : Except RunHistoryError PostgresRunHistory → Desk
  | .ok history => { self with history := history }
  | .error _ => self

def after (parseRunId : String → Option String) (self : Desk) : Effect → Desk
  | .recordNodeRun record => self.put (self.history.recordNodeRun parseRunId record)
  | .recordNodeDispatched record => self.put (self.history.recordNodeDispatched parseRunId record)
  | .recordPipelineRun record => self.put (self.history.recordPipelineRun parseRunId record)
  | _ => self

def startedAt (self : Desk) : Option DateTime := (self.outcome.bind (·.startedAt)).bind msToDatetime

def finishedAt (self : Desk) : Option DateTime := (self.outcome.bind (·.finishedAt)).bind msToDatetime

end Desk

/-- What is known of an outcome that was asked for. -/
def fetched : Except DispatchError (Option NodeOutcome) → Option NodeOutcome
  | .ok outcome => outcome
  | .error _ => none

/-- The handlers of a coordinator at the desk, for the node. -/
def atDesk (parseRunId : String → Option String) (n : String) : Monitor Desk Coordinator LoopEvent Resp where
  assume w
    | .answered _ (.saveRun _ _ _) r => accepted r = w.accepts
    | .answered _ (.getNodeOutcome _ node) r => node = n → fetched r = w.outcome
    | _ => True
  ok _ _ _ := True
  next w
    | .answered _ e _ => w.after parseRunId e
    | .received _ _ => w

/-- Nothing has changed: no status, and nothing that the history has of the node. -/
structure Undisturbed (parseRunId : String → Option String) (n : String) (w : Desk) (c : Coordinator) (w' : Desk)
    (c' : Coordinator) : Prop where
  statuses : c'.run.statuses = c.run.statuses
  result : nodeResult parseRunId w'.history c.runId n = nodeResult parseRunId w.history c.runId n

/-- Where a late completion does no harm: the save is accepted, a failure does not fail fast, no node is ready, and
the history has the node as it is recorded once more. -/
structure Harmless (parseRunId : String → Option String) (w : Desk) (c : Coordinator) (n : String)
    (success : Bool) : Prop where
  accepted : w.accepts = true
  goesOn : success = true ∨ c.failFastEnabled = false
  unready : c.run.readyNodes = ∅
  recorded : hasRun parseRunId w.history c.runId = true → nodeResult parseRunId w.history c.runId n =
    some ⟨some (succeeded c.run.statuses n), none, w.startedAt, w.finishedAt⟩

variable {parseRunId : String → Option String} {w : Desk} {c : Coordinator} {n : String}

/-- A node run that is recorded replaces what the history had of the node. -/
theorem nodeResult_after (w : Desk) (rec : NodeRunRecord) :
    nodeResult parseRunId (w.after parseRunId (.recordNodeRun rec)).history rec.runId rec.nodeName =
      if hasRun parseRunId w.history rec.runId then
        some ⟨some rec.success, rec.failureReason, rec.startedAt, rec.completedAt⟩
      else nodeResult parseRunId w.history rec.runId rec.nodeName := by
  cases huuid : parseRunId rec.runId with
  | none =>
      have herr : w.history.recordNodeRun parseRunId rec = .error (.invalidRunId rec.runId) := by
        rw [PostgresRunHistory.recordNodeRun, PostgresRunHistory.parse, huuid]
        rfl
      simp [Desk.after, herr, Desk.put, hasRun, huuid]
  | some uuid =>
      have hparse : PostgresRunHistory.parse parseRunId rec.runId = .ok uuid := by
        rw [PostgresRunHistory.parse, huuid]
      cases href : w.history.refers (some uuid) with
      | false =>
          have herr : w.history.recordNodeRun parseRunId rec =
              .error (.database "violates foreign key constraint") := by
            rw [PostgresRunHistory.recordNodeRun, hparse]
            simp [bind, Except.bind, PostgresRunHistory.upsertNodeRun, href]
          simp [Desk.after, herr, Desk.put, hasRun, huuid, href]
      | true =>
          let new : NodeRunEntry := ⟨⟨uuid, rec.nodeName, rec.nodeDefinition, some rec.success, rec.createdAt,
            rec.startedAt, rec.completedAt, rec.failureReason⟩, rec.outputLog⟩
          let update (e : NodeRunEntry) : NodeRunEntry :=
            { row := { e.row with
                success := some rec.success
                startedAt := rec.startedAt
                completedAt := rec.completedAt
                failureReason := rec.failureReason }
              outputLog := rec.outputLog }
          let conflict (e : NodeRunEntry) : Bool := e.row.runId = uuid && e.row.nodeName = rec.nodeName
          have hok : w.history.recordNodeRun parseRunId rec =
              .ok { w.history with nodeRuns := Table.upsert conflict update new w.history.nodeRuns } := by
            rw [PostgresRunHistory.recordNodeRun, hparse]
            simp [bind, Except.bind, PostgresRunHistory.upsertNodeRun, href, new, update, conflict]
          have hfind : (Table.upsert conflict update new w.history.nodeRuns).find? conflict =
              some (((w.history.nodeRuns.find? conflict).map update).getD new) :=
            Table.find?_upsert (fun _ => rfl) (by simp [conflict, new])
          have hrow : (w.after parseRunId (.recordNodeRun rec)).history.getNodeRun parseRunId rec.runId rec.nodeName =
              .ok (some (((w.history.nodeRuns.find? conflict).map update).getD new).row) := by
            simp only [Desk.after, hok, Desk.put, PostgresRunHistory.getNodeRun, hparse]
            exact congrArg (fun e => Except.ok (Option.map NodeRunEntry.row e)) hfind
          have hhas : hasRun parseRunId w.history rec.runId = true := by simp [hasRun, huuid, href]
          rw [nodeResult, hrow, if_pos hhas]
          cases w.history.nodeRuns.find? conflict <;> rfl

theorem atDesk_answered (w : Desk) (c : Coordinator) (e : Effect) :
    ∃ r, (atDesk parseRunId n).assume w (.answered c e r) := by
  cases e with
  | saveRun => exact ⟨.ok w.accepts, by cases h : w.accepts <;> simp [atDesk, h, accepted]⟩
  | getNodeOutcome => exact ⟨.ok w.outcome, fun _ => rfl⟩
  | _ =>
      obtain ⟨r, _⟩ := callsSucceed_answerable c _
      exact ⟨r, trivial⟩

/-! ## What a handler comes to -/

/-- The coordinators agree in what the handlers go by. -/
def Unmoved (c c' : Coordinator) : Prop :=
  c'.run = c.run ∧ c'.runId = c.runId ∧ c'.failFastEnabled = c.failFastEnabled

theorem cancelNodeTimeout_unmoved :
    (atDesk parseRunId n).Obeys (cancelNodeTimeout n c) w fun w' c' _ => w' = w ∧ Unmoved c c' := by
  unfold Coordinator.cancelNodeTimeout
  simp only [get_bind]
  cases c.nodePhaseHandles.lookup n with
  | none => exact ⟨rfl, rfl, rfl, rfl⟩
  | some timer => exact ⟨trivial, fun _ _ => ⟨rfl, rfl, rfl, rfl⟩⟩

theorem persistState_unmoved :
    (atDesk parseRunId n).Obeys (persistState c) w fun w' c' r =>
      w' = w ∧ Unmoved c c' ∧ (r = .ok () ↔ w.accepts = true) := by
  refine ⟨trivial, fun r hr => ?_⟩
  have hr : accepted r = w.accepts := hr
  rw [← hr]
  rcases r with e | _ | _ <;> exact ⟨rfl, ⟨rfl, rfl, rfl⟩, by simp [accepted]⟩

theorem persistTransition_unmoved :
    (atDesk parseRunId n).Obeys (persistStateAfterDispatchTransition c) w fun w' c' _ => w' = w ∧ Unmoved c c' := by
  apply persistState_unmoved.seq
  rintro _ c₁ _ ⟨rfl, h₁, _⟩
  exact ⟨rfl, h₁⟩

/-- The completion is recorded, over whatever the history had. -/
theorem recordNodeCompleted_result :
    (atDesk parseRunId n).Obeys (recordNodeCompleted n none c) w fun w' c' _ => c' = c ∧
      nodeResult parseRunId w'.history c.runId n =
        if hasRun parseRunId w.history c.runId then
          some ⟨some (succeeded c.run.statuses n), none, w.startedAt, w.finishedAt⟩
        else nodeResult parseRunId w.history c.runId n := by
  have hfetch : (atDesk parseRunId n).Obeys (fetchOutcome c.runId n c) w fun w' c' outcome =>
      w' = w ∧ c' = c ∧ outcome = w.outcome := by
    refine ⟨trivial, fun r hr => ?_⟩
    have hr : fetched r = w.outcome := hr rfl
    cases r with
    | error e => exact ⟨rfl, rfl, hr⟩
    | ok outcome => exact ⟨rfl, rfl, hr⟩
  have hnow : ∀ known, (atDesk parseRunId n).Obeys (orNow known false c) w fun w' c' time =>
      w' = w ∧ c' = c ∧ time = known := by
    intro known
    cases known with
    | none => exact ⟨rfl, rfl, rfl⟩
    | some time => exact ⟨rfl, rfl, rfl⟩
  have hlog : (atDesk parseRunId n).Obeys (fetchLog c.runId n c) w fun w' c' _ => w' = w ∧ c' = c := by
    refine ⟨trivial, fun r _ => ?_⟩
    cases r with
    | error e => exact ⟨rfl, rfl⟩
    | ok log => exact ⟨rfl, rfl⟩
  unfold Coordinator.recordNodeCompleted
  simp only [get_bind]
  apply hfetch.seq
  rintro _ _ _ ⟨rfl, rfl, rfl⟩
  apply (hnow _).seq
  rintro _ _ _ ⟨rfl, rfl, rfl⟩
  apply hlog.seq
  rintro _ _ log ⟨rfl, rfl⟩
  refine ⟨trivial, fun now _ => ⟨trivial, fun _ _ => ⟨rfl, ?_⟩⟩⟩
  exact nodeResult_after _ _

/-- A node in line is no longer Pending behind its dispatch. -/
theorem dispatchReadyNode_marked (x : String) :
    (atDesk parseRunId n).Obeys (dispatchReadyNode x c) w fun _ c' _ =>
      c'.run.statuses.lookup x ≠ some .pending ∧ ∃ a, a ≠ .pending ∧ Marks c.run c'.run x a := by
  have hrefused : ∀ {w error}, (atDesk parseRunId n).Obeys
      ((mark (·.markDispatchFailed x) >>= fun _ => do
        Coordinator.persistStateAfterDispatchTransition
        Coordinator.recordDispatchFailed x error : Coord Unit) c) w fun _ c' _ =>
      c'.run.statuses.lookup x ≠ some .pending ∧ ∃ a, a ≠ .pending ∧ Marks c.run c'.run x a := by
    intro w error
    have hend : ∀ {c' : Coordinator}, c'.run = (c.run.markDispatchFailed x).2 →
        c'.run.statuses.lookup x ≠ some .pending ∧ ∃ a, a ≠ .pending ∧ Marks c.run c'.run x a := by
      intro c' hrun
      rw [hrun]
      exact ⟨lookup_markDispatchFailed _ _, .failed, by decide, marks_markDispatchFailed _ _⟩
    simp only [mark, modifyGet_bind]
    apply persistTransition_unmoved.seq
    rintro _ c₁ _ ⟨rfl, h₁⟩
    exact ⟨trivial, fun now _ => ⟨trivial, fun _ _ => hend h₁.1⟩⟩
  unfold Coordinator.dispatchReadyNode
  simp only [get_bind]
  cases c.nodeInfoCache.lookup x with
  | none => exact hrefused
  | some node =>
      refine ⟨trivial, fun r _ => ?_⟩
      rcases r with e | ⟨⟩
      · exact hrefused
      · have hend : ∀ {c' : Coordinator}, c'.run = (c.run.markRunning x).2 → c'.run.statuses.lookup x ≠ some .pending ∧
            ∃ a, a ≠ .pending ∧ Marks c.run c'.run x a := by
          intro c' hrun
          rw [hrun]
          exact ⟨lookup_markRunning _ _, .running, by decide, marks_markRunning _ _⟩
        simp only [Prog.ret_bind, mark, modifyGet_bind]
        cases (c.run.markRunning x).1 with
        | false => exact hend rfl
        | true =>
            apply persistTransition_unmoved.seq
            rintro _ c₁ _ ⟨rfl, h₁⟩
            exact ⟨trivial, fun now _ => ⟨trivial, fun _ _ => ⟨trivial, fun _ _ => hend h₁.1⟩⟩⟩

/-- Behind a dispatch of the ready nodes, none of them is Pending; where there were none, nothing happened. -/
theorem dispatchReadyNodes_marked :
    (atDesk parseRunId n).Obeys (dispatchReadyNodes c) w fun w' c' _ =>
      (∀ x ∈ c.run.readyNodes, c'.run.statuses.lookup x ≠ some .pending) ∧
        (c.run.readyNodes = ∅ → w' = w ∧ c' = c) := by
  refine ⟨trivial, fun order _ => ?_⟩
  by_cases hready : c.run.readyNodes = ∅
  · have hnil : order.1 = [] := toList_eq_nil order hready
    show (atDesk parseRunId n).Obeys (order.1.forM Coordinator.dispatchReadyNode c) w _
    rw [hnil, hready]
    exact ⟨fun x hx => absurd hx (Finset.notMem_empty x), fun _ => ⟨rfl, rfl⟩⟩
  · have hline : ∀ x ∈ c.run.readyNodes, c.run.statuses.lookup x = some .pending → x ∈ order.1 := by
      intro x hx _
      rw [← order.2.2] at hx
      exact List.mem_toFinset.mp hx
    have hloop := Monitor.obeys_forM (M := atDesk parseRunId n) (f := Coordinator.dispatchReadyNode)
      (P := fun l _ c' => ∀ x ∈ c.run.readyNodes, c'.run.statuses.lookup x = some .pending → x ∈ l)
      ?_ order.1 (γ := w) hline
    · apply hloop.mono
      intro _ _ _ h
      exact ⟨fun x hx hp => List.not_mem_nil (h x hx hp), fun he => absurd he hready⟩
    · intro y l w c₁ h
      apply (dispatchReadyNode_marked y).mono
      rintro _ c₂ _ ⟨hy, a, ha, hm⟩ x hx hp
      have hmem := h x hx (hm.pending ha hp)
      apply List.mem_of_ne_of_mem _ hmem
      rintro rfl
      exact hy hp

/-! ## Handling a late completion -/

/-- What the handling of a late completion comes to: an abort where the save is rejected or a failure fails fast,
else the completion is recorded and the ready nodes are dispatched. -/
structure HandledLate (parseRunId : String → Option String) (w : Desk) (c : Coordinator) (n : String)
    (success : Bool) (w' : Desk) (c' : Coordinator) (aborted : Bool) : Prop where
  aborts : aborted = true ↔ w.accepts = false ∨ (success = false ∧ c.failFastEnabled = true)
  marked : aborted = false → ∀ x ∈ c.run.readyNodes, c'.run.statuses.lookup x ≠ some .pending
  records : aborted = false → c.run.readyNodes = ∅ → c'.run = c.run ∧
    nodeResult parseRunId w'.history c.runId n =
      if hasRun parseRunId w.history c.runId then
        some ⟨some (succeeded c.run.statuses n), none, w.startedAt, w.finishedAt⟩
      else nodeResult parseRunId w.history c.runId n

theorem HandledLate.abort {w' : Desk} {c' : Coordinator} {b : Bool}
    (h : w.accepts = false ∨ (b = false ∧ c.failFastEnabled = true)) :
    HandledLate parseRunId w c n b w' c' true :=
  ⟨⟨fun _ => h, fun _ => rfl⟩, fun h => (by cases h), fun h => (by cases h)⟩

/-- What is left to do once the completion is saved and recorded, where the run goes on. -/
theorem dispatchReadyNodes_late {w₀ w₂ : Desk} {c₂ : Coordinator} {b : Bool} (hacc : w₀.accepts = true)
    (hb : b = true ∨ c.failFastEnabled = false) (hc : Unmoved c c₂)
    (hrec : nodeResult parseRunId w₂.history c₂.runId n =
      if hasRun parseRunId w₀.history c₂.runId then
        some ⟨some (succeeded c₂.run.statuses n), none, w₀.startedAt, w₀.finishedAt⟩
      else nodeResult parseRunId w₀.history c₂.runId n) :
    (atDesk parseRunId n).Obeys ((dispatchReadyNodes >>= fun _ => pure false : Coord Bool) c₂) w₂
      (HandledLate parseRunId w₀ c n b) := by
  rw [hc.2.1, hc.1] at hrec
  apply dispatchReadyNodes_marked.seq
  rintro w₃ c₃ _ ⟨hmarked, hsame⟩
  rw [hc.1] at hmarked hsame
  refine ⟨?_, fun _ => hmarked, fun _ hready => ?_⟩
  · rcases hb with rfl | hff
    · simp [hacc]
    · simp [hacc, hff]
  · obtain ⟨rfl, rfl⟩ := hsame hready
    exact ⟨hc.1, hrec⟩

theorem handleNodeCompleted_late (hn : ¬c.run.Unfinished n) (b : Bool) :
    (atDesk parseRunId n).Obeys (handleNodeCompleted n b c) w (HandledLate parseRunId w c n b) := by
  have hsucceed : (c.run.markSuccess n).2 = c.run := by
    rw [markSuccess]
    exact congrArg Prod.snd (if_neg hn)
  have hfail : (c.run.markFailed n).2 = c.run := by
    rw [markFailed]
    exact congrArg Prod.snd (if_neg hn)
  have hcoord : c.setRun c.run = c := rfl
  unfold Coordinator.handleNodeCompleted
  cases b with
  | true =>
      simp only [↓reduceIte, mark, modifyGet_bind, hsucceed, hcoord]
      apply persistState_unmoved.seq
      rintro _ c₁ r ⟨rfl, h₁, hr⟩
      cases r with
      | error e => exact .abort (.inl (by simpa using hr))
      | ok _ =>
          apply recordNodeCompleted_result.seq
          rintro w₂ _ _ ⟨rfl, h₂⟩
          exact dispatchReadyNodes_late (hr.mp rfl) (.inl rfl) h₁ h₂
  | false =>
      simp only [Bool.false_eq_true, ↓reduceIte, mark, modifyGet_bind, hfail, hcoord]
      apply persistState_unmoved.seq
      rintro _ c₁ r ⟨rfl, h₁, hr⟩
      cases r with
      | error e => exact .abort (.inl (by simpa using hr))
      | ok _ =>
          apply recordNodeCompleted_result.seq
          rintro w₂ _ _ ⟨rfl, h₂⟩
          unfold Coordinator.failFastOrDispatch
          simp only [get_bind, h₁.2.2]
          cases hff : c.failFastEnabled with
          | true => exact .abort (.inr ⟨rfl, hff⟩)
          | false =>
              simp only [Bool.false_eq_true, ↓reduceIte]
              exact dispatchReadyNodes_late (hr.mp rfl) (.inr hff) h₁ h₂

/-- The node's timer goes first. -/
theorem completion_late (hn : ¬c.run.Unfinished n) (b : Bool) :
    (atDesk parseRunId n).Obeys ((do cancelNodeTimeout n; handleNodeCompleted n b : Coord Bool) c) w
      (HandledLate parseRunId w c n b) := by
  apply cancelNodeTimeout_unmoved.seq
  rintro _ c₁ _ ⟨rfl, hrun, hid, hff⟩
  have hn₁ : ¬c₁.run.Unfinished n := by rwa [hrun]
  apply (handleNodeCompleted_late hn₁ b).mono
  intro w' c' aborted h
  obtain ⟨haborts, hmarked, hrecords⟩ := h
  rw [hff] at haborts
  rw [hrun] at hmarked hrecords
  rw [hid] at hrecords
  exact ⟨haborts, hmarked, hrecords⟩

/-- An end that disturbs nothing is one where the completion does no harm. -/
theorem HandledLate.harmless {w' : Desk} {c' : Coordinator} {b : Bool}
    (h : HandledLate parseRunId w c n b w' c' false) (hu : Undisturbed parseRunId n w c w' c') :
    Harmless parseRunId w c n b := by
  have hnot : ¬(w.accepts = false ∨ (b = false ∧ c.failFastEnabled = true)) := fun ha => by
    cases h.aborts.mpr ha
  have hready : c.run.readyNodes = ∅ := by
    apply Finset.eq_empty_of_forall_notMem
    intro x hx
    apply h.marked rfl x hx
    rw [hu.statuses]
    exact (mem_readyNodes.mp hx).1
  refine ⟨?_, ?_, hready, fun hrun => ?_⟩
  · rw [← Bool.not_eq_false]
    exact fun ha => hnot (.inl ha)
  · cases b with
    | true => exact .inl rfl
    | false =>
        right
        rw [← Bool.not_eq_true]
        exact fun ha => hnot (.inr ⟨rfl, ha⟩)
  · rw [← hu.result, (h.records rfl hready).2, if_pos hrun]

theorem Harmless.undisturbed {w' : Desk} {c' : Coordinator} {b aborted : Bool} (hh : Harmless parseRunId w c n b)
    (h : HandledLate parseRunId w c n b w' c' aborted) :
    aborted = false ∧ c'.run = c.run ∧ Undisturbed parseRunId n w c w' c' := by
  have ha : aborted = false := by
    rw [← Bool.not_eq_true, h.aborts]
    rintro (hacc | ⟨rfl, hff⟩)
    · rw [hh.accepted] at hacc
      cases hacc
    · rcases hh.goesOn with hb | hoff
      · cases hb
      · rw [hff] at hoff
        cases hoff
  obtain ⟨hrun, hres⟩ := h.records ha hh.unready
  refine ⟨ha, hrun, by rw [hrun], ?_⟩
  rw [hres]
  split
  · rename_i hhas
    exact (hh.recorded hhas).symm
  · rfl

/-- A run that ends leaves the loop with a summary. -/
theorem goesOn_of_afterHandler {aborted : Bool} {Q : Desk → Coordinator → Prop}
    (h : (atDesk parseRunId n).Obeys (afterHandler aborted c) w fun w' c' r => Q w' c' ∧ r = none) :
    aborted = false ∧ c.run.isComplete = false ∧ Q w c := by
  unfold Coordinator.afterHandler at h
  cases aborted with
  | true =>
      obtain ⟨_, _, _, ⟨_, hnone⟩, _, _, hsome⟩ := ((Course.abortRun .failure).obeys h).ended atDesk_answered
      exact absurd hnone hsome
  | false =>
      simp only [Bool.false_eq_true, ↓reduceIte, get_bind] at h
      cases hcomplete : c.run.isComplete with
      | true =>
          simp only [hcomplete, ↓reduceIte] at h
          obtain ⟨_, _, _, ⟨_, hnone⟩, _, _, hsome⟩ := (Course.completeRun.obeys h).ended atDesk_answered
          exact absurd hnone hsome
      | false =>
          simp only [hcomplete, Bool.false_eq_true, ↓reduceIte] at h
          exact ⟨rfl, rfl, h.1⟩

theorem handleEvent_completed (b : Bool) :
    handleEvent (.backplane (some (.nodeCompleted n b))) =
      ((do cancelNodeTimeout n; handleNodeCompleted n b : Coord Bool) >>= afterHandler) := by
  rw [bind_assoc]
  rfl

theorem foldCompletion_completed {outcomes : HashMap String ReconcileResult} {b : Bool} (h : Completes outcomes n b) :
    foldCompletion outcomes n = (do cancelNodeTimeout n; handleNodeCompleted n b : Coord Bool) := by
  obtain ⟨s, f, h⟩ := h
  rw [Coordinator.foldCompletion, h]

theorem late_event_iff (hn : ¬c.run.Unfinished n) (b : Bool) :
    ((atDesk parseRunId n).Obeys (handleEvent (.backplane (some (.nodeCompleted n b))) c) w fun w' c' r =>
        Undisturbed parseRunId n w c w' c' ∧ r = none) ↔
      Harmless parseRunId w c n b ∧ c.run.isComplete = false := by
  rw [handleEvent_completed]
  constructor
  · intro h
    obtain ⟨w', c', aborted, hafter, hlate⟩ :=
      ((Monitor.obeys_seq.mp h).and (completion_late hn b)).ended atDesk_answered
    obtain ⟨rfl, hcomplete, hu⟩ := goesOn_of_afterHandler hafter
    have hh := hlate.harmless hu
    rw [(hh.undisturbed hlate).2.1] at hcomplete
    exact ⟨hh, hcomplete⟩
  · rintro ⟨hh, hcomplete⟩
    apply (completion_late hn b).seq
    intro w' c' aborted hlate
    obtain ⟨rfl, hrun, hu⟩ := hh.undisturbed hlate
    rw [← hrun] at hcomplete
    unfold Coordinator.afterHandler
    simp only [Bool.false_eq_true, ↓reduceIte, get_bind, hcomplete]
    exact ⟨hu, rfl⟩

theorem late_fold_iff (hn : ¬c.run.Unfinished n) {outcomes : HashMap String ReconcileResult} {b : Bool}
    (ho : Completes outcomes n b) :
    ((atDesk parseRunId n).Obeys (foldCompletion outcomes n c) w fun w' c' aborted =>
        Undisturbed parseRunId n w c w' c' ∧ aborted = false) ↔ Harmless parseRunId w c n b := by
  rw [foldCompletion_completed ho]
  constructor
  · intro h
    obtain ⟨w', c', _, ⟨hu, rfl⟩, hlate⟩ := (h.and (completion_late hn b)).ended atDesk_answered
    exact hlate.harmless hu
  · intro hh
    apply (completion_late hn b).mono
    intro w' c' aborted hlate
    obtain ⟨ha, _, hu⟩ := hh.undisturbed hlate
    exact ⟨hu, ha⟩

/-- Handling a completion of a node that is neither Running nor Pending is without effect, whatever the services
answer, exactly where it does no harm and the run is not complete. Where the completion is folded from an outcome,
whether the run is complete does not matter. -/
theorem late_completion_undisturbed {parseRunId : String → Option String} {w : Desk} {c : Coordinator} {n : String}
    (hn : ¬c.run.Unfinished n) (b : Bool) :
    (((atDesk parseRunId n).Obeys (handleEvent (.backplane (some (.nodeCompleted n b))) c) w fun w' c' r =>
        Undisturbed parseRunId n w c w' c' ∧ r = none) ↔
      Harmless parseRunId w c n b ∧ c.run.isComplete = false) ∧
    ∀ outcomes, Completes outcomes n b →
      (((atDesk parseRunId n).Obeys (foldCompletion outcomes n c) w fun w' c' aborted =>
          Undisturbed parseRunId n w c w' c' ∧ aborted = false) ↔
        Harmless parseRunId w c n b) :=
  ⟨late_event_iff hn b, fun _ ho => late_fold_iff hn ho⟩

/-- The coordinator of a run whose first node is over while the second one runs. -/
def besideTest (pipeline : Pipeline) (success : Bool) : Coordinator :=
  let c := freshCoordinator .default "run" pipeline
  c.setRun (((if success then c.run.markSuccess "build" else c.run.markFailed "build").2).markRunning "test").2

/-- A desk with one recorded run, and with the row of its first node. -/
def Desk.withBuild (pipeline : Pipeline) (success : Bool) (reason : Option String) : Desk where
  accepts := true
  outcome := some ⟨some success, some 1000, some 2000⟩
  history :=
    { pipelineRuns := [PostgresRunHistory.rowOf (buildPipelineStartRecord "run" pipeline (.push "acme" "app" ""))
        "run" none .inProgress none]
      nodeRuns := [⟨⟨"run", "build", none, some success, ⟨0, 0⟩, some ⟨1, 0⟩, some ⟨2, 0⟩, reason⟩, none⟩] }

/-- A success that is reported twice. -/
theorem late_completion_undisturbed_build :
    (atDesk some "build").Obeys (handleEvent (.backplane (some (.nodeCompleted "build" true)))
        (besideTest .buildAndTest true)) (.withBuild .buildAndTest true none) fun w' c' r =>
      Undisturbed some "build" (.withBuild .buildAndTest true none) (besideTest .buildAndTest true) w' c' ∧
        r = none := by
  apply (late_completion_undisturbed (by decide) true).1.mpr
  exact ⟨⟨rfl, .inl rfl, by decide, fun _ => by decide⟩, by decide⟩

/-- Of two nodes without dependencies: a failure that comes after a success ends a run that fails fast, and
where the run goes on, a failure that comes after an infrastructure failure takes its reason out of the history. -/
theorem late_completion_disturbs :
    let failFast := Pipeline.plain "ci" [.plain "build" [], .plain "test" []]
    let goesOn := { failFast with failFast := some false }
    ¬(besideTest failFast true).run.Unfinished "build" ∧
      ¬((atDesk some "build").Obeys (handleEvent (.backplane (some (.nodeCompleted "build" false)))
          (besideTest failFast true)) (.withBuild failFast true none) fun w' c' r =>
        Undisturbed some "build" (.withBuild failFast true none) (besideTest failFast true) w' c' ∧ r = none) ∧
      ¬(besideTest goesOn false).run.Unfinished "build" ∧
      ¬((atDesk some "build").Obeys (handleEvent (.backplane (some (.nodeCompleted "build" false)))
          (besideTest goesOn false)) (.withBuild goesOn false (some "OOMKilled")) fun w' c' r =>
        Undisturbed some "build" (.withBuild goesOn false (some "OOMKilled")) (besideTest goesOn false) w' c' ∧
          r = none) := by
  intro failFast goesOn
  have hsuccess : ¬(besideTest failFast true).run.Unfinished "build" := by decide
  have hfailed : ¬(besideTest goesOn false).run.Unfinished "build" := by decide
  refine ⟨hsuccess, fun h => ?_, hfailed, fun h => ?_⟩
  · obtain ⟨hh, _⟩ := (late_event_iff hsuccess false).mp h
    rcases hh.goesOn with hb | hff
    · cases hb
    · exact absurd hff (by decide)
  · obtain ⟨hh, _⟩ := (late_event_iff hfailed false).mp h
    exact absurd (hh.recorded (by decide)) (by decide)

end Jefferies.Coordination
