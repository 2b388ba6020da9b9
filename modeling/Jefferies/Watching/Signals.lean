import Jefferies.Watching.PodWatcher

/-!
# What the watcher signals

Each uid is reported once as running and once as failed, and a pod is missed only of a node that has been running.
-/

namespace Jefferies.Watching

open Coordination Interaction Interact

/-- What is signalled at most once. -/
inductive SignalKey where
  | running (nodeName podUid : String)
  | failure (nodeName podUid : String)
  deriving DecidableEq

def PodSignal.key : PodSignal → SignalKey
  | .podRunning nodeName podUid => .running nodeName podUid
  | .infraFailure nodeName podUid _ => .failure nodeName podUid

/-- The signal that a pod was deleted unexpectedly. -/
def PodSignal.alarm (nodeName podUid : String) : PodSignal := .infraFailure nodeName podUid .podDeletedUnexpectedly

def WatcherMoment.signal : WatcherMoment → Option PodSignal
  | .expected _ => none
  | .sent signal => some signal

/-- The signals that were sent, in their order. -/
def Watched.signals (self : Watched) : List PodSignal := self.log.filterMap WatcherMoment.signal

/-- The node was to be watched as running, or it was signalled as running. -/
def Watched.HasRun (self : Watched) (nodeName : String) : Prop :=
  nodeName ∈ self.seed ∨ ∃ podUid, .podRunning nodeName podUid ∈ self.signals

/-- No key is signalled twice, and what is missed has run. -/
structure Sound (w : Watched) : Prop where
  nodup : (w.signals.map PodSignal.key).Nodup
  grounded : ∀ n u, .alarm n u ∈ w.signals → w.HasRun n

namespace WatcherState

def runningUids (self : WatcherState) (n : String) : Finset String := (self.reportedRunningUids.lookup n).getD ∅

def failureUids (self : WatcherState) (n : String) : Finset String := (self.reportedFailureUids.lookup n).getD ∅

end WatcherState

/-- What was signalled is accounted for, and the account of running nodes goes back to the seed and to signals. -/
structure Accounted (w : Watched) (s : WatcherState) : Prop where
  running : ∀ n u, .podRunning n u ∈ w.signals → u ∈ s.runningUids n
  failures : ∀ n u reason, .infraFailure n u reason ∈ w.signals → u ∈ s.failureUids n
  ran : ∀ n, s.runningUids n ≠ ∅ → w.HasRun n
  seeds : s.seedRunning = w.seed

variable {w w' : Watched} {s s' : WatcherState} {n m u : String} {signal : PodSignal}

@[simp] theorem record_seed (w : Watched) (moment : WatcherMoment) : (w.record moment).seed = w.seed := rfl

@[simp] theorem record_sent_signals (w : Watched) (signal : PodSignal) :
    (w.record (.sent signal)).signals = w.signals ++ [signal] := by
  simp [Watched.record, Watched.signals, WatcherMoment.signal]

@[simp] theorem record_expected_signals (w : Watched) (n : String) :
    (w.record (.expected n)).signals = w.signals := by
  simp [Watched.record, Watched.signals, WatcherMoment.signal]

theorem Watched.HasRun.record (h : w.HasRun n) (moment : WatcherMoment) : (w.record moment).HasRun n := by
  rcases h with h | ⟨u, h⟩
  · exact .inl h
  · refine .inr ⟨u, ?_⟩
    rw [Watched.signals, Watched.record, List.filterMap_append]
    exact List.mem_append_left _ h

/-! ## The account -/

theorem report_fst {uids : HashMap String (Finset String)} :
    (report uids n u).1 = true ↔ u ∉ (uids.lookup n).getD ∅ := by
  simp [report]

theorem report_snd {uids : HashMap String (Finset String)} (m : String) :
    ((report uids n u).2.lookup m).getD ∅ =
      if m = n then insert u ((uids.lookup n).getD ∅) else (uids.lookup m).getD ∅ := by
  rw [report, HashMap.lookup_insert_eq_ite]
  split <;> rfl

theorem runningUids_podRunning (s : WatcherState) (n u m : String) :
    (s.shouldEmit (.podRunning n u)).2.runningUids m =
      if m = n then insert u (s.runningUids n) else s.runningUids m := report_snd m

theorem failureUids_infraFailure (s : WatcherState) (n u m : String) (reason : InfraFailureReason) :
    (s.shouldEmit (.infraFailure n u reason)).2.failureUids m =
      if m = n then insert u (s.failureUids n) else s.failureUids m := report_snd m

/-- Nothing is dropped from the account. -/
theorem uids_mono (s : WatcherState) (signal : PodSignal) (m : String) :
    s.runningUids m ⊆ (s.shouldEmit signal).2.runningUids m ∧ s.failureUids m ⊆ (s.shouldEmit signal).2.failureUids m := by
  cases signal with
  | podRunning n u =>
      refine ⟨?_, Finset.Subset.refl _⟩
      rw [runningUids_podRunning]
      split
      · rename_i he
        exact he ▸ Finset.subset_insert _ _
      · exact Finset.Subset.refl _
  | infraFailure n u reason =>
      refine ⟨Finset.Subset.refl _, ?_⟩
      rw [failureUids_infraFailure]
      split
      · rename_i he
        exact he ▸ Finset.subset_insert _ _
      · exact Finset.Subset.refl _

@[simp] theorem seedRunning_shouldEmit (s : WatcherState) (signal : PodSignal) :
    (s.shouldEmit signal).2.seedRunning = s.seedRunning := by
  cases signal <;> rfl

/-- A signal that is not emitted leaves the account as it was. -/
theorem Accounted.silent (h : Accounted w s) (hno : (s.shouldEmit signal).1 = false) :
    Accounted w (s.shouldEmit signal).2 := by
  constructor
  · exact fun m x hx => (uids_mono s signal m).1 (h.running m x hx)
  · exact fun m x reason hx => (uids_mono s signal m).2 (h.failures m x reason hx)
  · intro m hm
    apply h.ran m
    cases signal with
    | infraFailure => exact hm
    | podRunning n u =>
        rw [runningUids_podRunning] at hm
        split at hm
        · rename_i he
          have hknown : u ∈ s.runningUids n := by
            by_contra hnew
            rw [show (s.shouldEmit (.podRunning n u)).1 = true from report_fst.mpr hnew] at hno
            cases hno
          rw [he]
          exact Finset.ne_empty_of_mem hknown
        · exact hm
  · rw [seedRunning_shouldEmit, h.seeds]

/-- A signal that is emitted is new. -/
theorem Accounted.new (h : Accounted w s) (hyes : (s.shouldEmit signal).1 = true) :
    signal.key ∉ w.signals.map PodSignal.key := by
  intro hmem
  obtain ⟨x, hx, hkey⟩ := List.mem_map.mp hmem
  cases signal with
  | podRunning n u =>
      cases x with
      | infraFailure => cases hkey
      | podRunning =>
          cases hkey
          exact report_fst.mp hyes (h.running n u hx)
  | infraFailure n u reason =>
      cases x with
      | podRunning => cases hkey
      | infraFailure _ _ reason' =>
          cases hkey
          exact report_fst.mp hyes (h.failures n u reason' hx)

/-- A signal that is emitted is accounted for. -/
theorem Accounted.emitted (h : Accounted w s) : Accounted (w.record (.sent signal)) (s.shouldEmit signal).2 := by
  constructor
  · intro m x hx
    rw [record_sent_signals, List.mem_append, List.mem_singleton] at hx
    rcases hx with hx | rfl
    · exact (uids_mono s signal m).1 (h.running m x hx)
    · simp [runningUids_podRunning]
  · intro m x reason hx
    rw [record_sent_signals, List.mem_append, List.mem_singleton] at hx
    rcases hx with hx | rfl
    · exact (uids_mono s signal m).2 (h.failures m x reason hx)
    · simp [failureUids_infraFailure]
  · intro m hm
    have hold : s.runningUids m ≠ ∅ → (w.record (.sent signal)).HasRun m := fun hne => (h.ran m hne).record _
    cases signal with
    | infraFailure => exact hold hm
    | podRunning n u =>
        by_cases he : m = n
        · subst he
          exact .inr ⟨u, by simp⟩
        · rw [runningUids_podRunning, if_neg he] at hm
          exact hold hm
  · rw [seedRunning_shouldEmit, h.seeds, record_seed]

/-! ## The handlers -/

/-- Only a pod that is missed is signalled as deleted. -/
theorem classifyPod_ne_alarm {pod : Pod} (h : classifyPod pod = some signal) : signal ≠ .alarm n u := by
  rintro rfl
  exact classifyPod_reason h rfl

theorem Sound.sent (h : Sound w) (hnew : signal.key ∉ w.signals.map PodSignal.key)
    (hground : ∀ n u, signal = .alarm n u → w.HasRun n) : Sound (w.record (.sent signal)) := by
  constructor
  · rw [record_sent_signals, List.map_append]
    exact List.nodup_append.mpr ⟨h.nodup, List.nodup_singleton _, by simpa using hnew⟩
  · intro n u hmem
    rw [record_sent_signals, List.mem_append, List.mem_singleton] at hmem
    rcases hmem with hmem | hmem
    · exact (h.grounded n u hmem).record _
    · exact (hground n u hmem.symm).record _

/-- The account is kept, and of the watched nodes nothing is forgotten. -/
def Keeps {α : Type} (seed : Finset String) (w : Watched) (s : WatcherState) (_ : α) : Prop :=
  Accounted w s ∧ w.seed = seed

/-- The rule for a signal: it is sent where it is new. -/
theorem emit_rule {P : Watched → Prop} {Q : Watched → WatcherState → Unit → Prop} (hP : P w)
    (hsent : (s.shouldEmit signal).1 = true →
      P (w.record (.sent signal)) ∧ Q (w.record (.sent signal)) (s.shouldEmit signal).2 ())
    (hsilent : (s.shouldEmit signal).1 = false → Q w (s.shouldEmit signal).2 ()) :
    Throughout watching.answers P Q w (emit signal s) := by
  unfold emit
  simp only [modifyGet_bind]
  cases hemit : (s.shouldEmit signal).1 with
  | true =>
      refine ⟨hP, ?_⟩
      rintro _ _ rfl
      exact hsent hemit
  | false => exact ⟨hP, hsilent hemit⟩

theorem emit_keeps (hw : Sound w) (h : Accounted w s) (hground : ∀ n u, signal = .alarm n u → w.HasRun n) :
    Throughout watching.answers Sound (Keeps w.seed) w (emit signal s) := by
  apply emit_rule hw
  · exact fun hemit => ⟨hw.sent (h.new hemit) hground, h.emitted, rfl⟩
  · exact fun hemit => ⟨h.silent hemit, rfl⟩

theorem emitClassified_keeps (hw : Sound w) (h : Accounted w s) (pod : Pod) :
    Throughout watching.answers Sound (Keeps w.seed) w (emitClassified pod s) := by
  unfold emitClassified
  cases hpod : classifyPod pod with
  | none => exact ⟨hw, h, rfl⟩
  | some signal => exact emit_keeps hw h fun n u he => absurd he (classifyPod_ne_alarm hpod)

theorem wasRunning_iff : s.wasRunning n = true ↔ s.runningUids n ≠ ∅ := by
  unfold WatcherState.wasRunning WatcherState.runningUids
  cases s.reportedRunningUids.lookup n <;> simp

/-- A change to neither map nor to the nodes to start from leaves the account as it was. -/
theorem Accounted.of_eq (h : Accounted w s) (hrunning : s'.reportedRunningUids = s.reportedRunningUids)
    (hfailures : s'.reportedFailureUids = s.reportedFailureUids) (hseed : s'.seedRunning = s.seedRunning) :
    Accounted w s' := by
  have huids : ∀ n, s'.runningUids n = s.runningUids n := fun n => by
    rw [WatcherState.runningUids, hrunning, WatcherState.runningUids]
  have hfuids : ∀ n, s'.failureUids n = s.failureUids n := fun n => by
    rw [WatcherState.failureUids, hfailures, WatcherState.failureUids]
  constructor
  · exact fun n u hmem => huids n ▸ h.running n u hmem
  · exact fun n u reason hmem => hfuids n ▸ h.failures n u reason hmem
  · exact fun n hne => h.ran n (huids n ▸ hne)
  · rw [hseed, h.seeds]

theorem takeMissing_subset (s : WatcherState) : s.takeMissingAfterInit.1 ⊆ s.seedRunning := by
  unfold WatcherState.takeMissingAfterInit
  split
  · exact Finset.empty_subset _
  · exact Finset.sdiff_subset

theorem Accounted.takeMissing (h : Accounted w s) : Accounted w s.takeMissingAfterInit.2 := by
  unfold WatcherState.takeMissingAfterInit
  split
  · exact h
  · exact h.of_eq rfl rfl rfl

theorem Accounted.observe (h : Accounted w s) (n : String) : Accounted w (s.recordInitObservation n) := by
  unfold WatcherState.recordInitObservation
  split
  · exact h.of_eq rfl rfl rfl
  · exact h

theorem handleDelete_keeps (hw : Sound w) (h : Accounted w s) (pod : Pod) :
    Throughout watching.answers Sound (Keeps w.seed) w (handleDelete pod s) := by
  unfold handleDelete
  cases nodeNameFor pod with
  | none => exact ⟨hw, h, rfl⟩
  | some nodeName =>
      simp only [get_bind]
      split
      · exact ⟨hw, h, rfl⟩
      · split
        · exact ⟨hw, h, rfl⟩
        · rename_i hran
          apply emit_keeps hw h
          intro n u he
          cases he
          exact h.ran nodeName (wasRunning_iff.mp (by simpa using hran))

/-- The nodes that are missed were to be watched. -/
theorem emitPresenceDiff_keeps (hw : Sound w) (h : Accounted w s) :
    Throughout watching.answers Sound (Keeps w.seed) w (emitPresenceDiff s) := by
  unfold emitPresenceDiff
  simp only [modifyGet_bind]
  refine ⟨hw, ?_⟩
  intro order x hx
  rw [show x = w from hx]
  have hmissing : ∀ n ∈ order.1, n ∈ w.seed := by
    intro n hn
    rw [← h.seeds]
    exact takeMissing_subset s (order.2.2 ▸ List.mem_toFinset.mpr hn)
  refine (Throughout.forM (J := fun rest x t => (Accounted x t ∧ x.seed = w.seed) ∧ ∀ n ∈ rest, n ∈ w.seed) ?_
    order.1 hw ⟨⟨h.takeMissing, rfl⟩, hmissing⟩).mono fun _ _ _ hend => hend.1
  rintro n rest x t hx ⟨⟨hacc, hseed⟩, hrest⟩
  refine (emit_keeps hx hacc ?_).mono ?_
  · intro m u he
    cases he
    exact .inl (hseed ▸ hrest n List.mem_cons_self)
  · rintro x' t' _ ⟨hacc', hseed'⟩
    exact ⟨⟨hacc', hseed'.trans hseed⟩, fun m hm => hrest m (List.mem_cons_of_mem _ hm)⟩

theorem handleEvent_keeps (hw : Sound w) (h : Accounted w s) (event : WatcherEvent) :
    Throughout watching.answers Sound (Keeps w.seed) w (handleEvent event s) := by
  cases event with
  | init => exact ⟨hw, h, rfl⟩
  | initApply pod =>
      simp only [handleEvent]
      cases nodeNameFor pod with
      | none => exact emitClassified_keeps hw h pod
      | some nodeName => exact emitClassified_keeps hw (h.observe nodeName) pod
  | initDone => exact emitPresenceDiff_keeps hw h
  | apply pod => exact emitClassified_keeps hw h pod
  | delete pod => exact handleDelete_keeps hw h pod

/-- That a deletion is expected is no signal. -/
theorem Sound.expected (hw : Sound w) (n : String) : Sound (w.record (.expected n)) := by
  constructor
  · rw [record_expected_signals]
    exact hw.nodup
  · intro m u hmem
    rw [record_expected_signals] at hmem
    exact (hw.grounded m u hmem).record _

theorem Accounted.expected (h : Accounted w s) (n : String) :
    Accounted (w.record (.expected n)) (s.expectDeletion n) := by
  constructor
  · intro m u hmem
    rw [record_expected_signals] at hmem
    exact h.running m u hmem
  · intro m u reason hmem
    rw [record_expected_signals] at hmem
    exact h.failures m u reason hmem
  · exact fun m hne => (h.ran m hne).record _
  · rw [record_seed, ← h.seeds, WatcherState.expectDeletion]

/-- The rule for an input: a deletion is to be expected or an event is handled, and all else changes nothing. -/
theorem handleInput_rule {P : Watched → Prop} {R : Watched → WatcherState → Prop} (hw : P w) (h : R w s)
    (input : WatcherInput)
    (hexpected : ∀ nodeName, P (w.record (.expected nodeName)) ∧
      R (w.record (.expected nodeName)) (s.expectDeletion nodeName))
    (hevent : ∀ event, input = .event (some (.ok event)) →
      Throughout watching.answers P (fun x t _ => R x t) w (handleEvent event s)) :
    Throughout watching.answers P (fun x t (_ : Option Unit) => R x t) (w.received input)
      (handleInput input s) := by
  cases input with
  | command command =>
      cases command with
      | none => exact ⟨hw, h⟩
      | some command =>
          cases command with
          | shutdown => exact ⟨hw, h⟩
          | expectDeletion nodeName => exact hexpected nodeName
  | event event =>
      cases event with
      | none => exact ⟨hw, h⟩
      | some event =>
          cases event with
          | error => exact ⟨hw, h⟩
          | ok event => exact (hevent event rfl).seq fun _ _ _ hx ht => ⟨hx, ht⟩

theorem handleInput_keeps (hw : Sound w) (h : Accounted w s) (input : WatcherInput) :
    Throughout watching.answers Sound (fun w s (_ : Option Unit) => Accounted w s) (w.received input)
      (handleInput input s) := by
  apply handleInput_rule hw h
  · exact fun nodeName => ⟨hw.expected nodeName, h.expected nodeName⟩
  · exact fun event _ => (handleEvent_keeps hw h event).mono fun _ _ _ hkeeps => hkeeps.1

/-! ## Runs -/

theorem runningUids_seeded (running : Finset String) (h : (WatcherState.seeded running).runningUids n ≠ ∅) :
    n ∈ running := by
  have hmem : n ∈ (WatcherState.seeded running).reportedRunningUids.keys := by
    rw [HashMap.mem_keys_iff_lookup]
    unfold WatcherState.runningUids at h
    cases hlookup : (WatcherState.seeded running).reportedRunningUids.lookup n with
    | none => simp [hlookup] at h
    | some uids => exact ⟨uids, rfl⟩
  obtain ⟨entry, hentry, rfl⟩ := List.mem_map.mp (HashMap.mem_keys_ofList.mp hmem)
  obtain ⟨node, hnode, rfl⟩ := List.mem_map.mp hentry
  exact HashMap.mem_sortedList.mp hnode

theorem starts_accounted (h : watching.starts w s) : Sound w ∧ Accounted w s := by
  obtain ⟨hlog, rfl⟩ := h
  have hnone : w.signals = [] := by rw [Watched.signals, hlog, List.filterMap_nil]
  refine ⟨⟨by simp [hnone], by simp [hnone]⟩, ⟨by simp [hnone], by simp [hnone], ?_, rfl⟩⟩
  exact fun n hne => .inl (runningUids_seeded w.seed hne)

theorem reaches_sound {p : Prog WatcherState WatcherResp (Option Unit)} (h : watching.Reaches podWatcher w p) :
    Throughout watching.answers Sound (fun w s _ => Accounted w s) w p := by
  apply Throughout.reaches _ _ _ _ h
  · intro w s hs
    exact starts_accounted hs
  · rintro w s input _ hw hacc rfl
    exact handleInput_keeps hw hacc input
  · exact fun _ _ => id
  · exact fun _ _ _ => id

/-- No uid of a node is signalled twice as running or twice as failed, and a pod is missed only of a node that was to
be watched or was signalled as running before. -/
theorem signals_once_and_grounded {p : Prog WatcherState WatcherResp (Option Unit)}
    (h : watching.Reaches podWatcher w p) :
    (w.signals.map PodSignal.key).Nodup ∧
      ∀ n u, p.pending = some (.send (.alarm n u)) → w.HasRun n := by
  have hsound := reaches_sound h
  refine ⟨hsound.here.nodup, ?_⟩
  intro n u hp
  cases p with
  | ret s a => cases hp
  | call s e k =>
      cases hp
      -- the signal that is on its way counts as sent once the channel has answered
      have hsent : Sound (w.record (.sent (.alarm n u))) := (hsound.2 true _ rfl).here
      have hrun := hsent.grounded n u (by simp)
      rcases hrun with hseed | ⟨uid, hmem⟩
      · exact .inl hseed
      · rw [record_sent_signals, List.mem_append, List.mem_singleton] at hmem
        exact .inr ⟨uid, hmem.resolve_right fun he => nomatch he⟩

/-- A node that is missing at the end of the initial list was to be watched. -/
theorem signals_once_and_grounded_missing :
    ∃ w p, watching.Reaches podWatcher w p ∧ p.pending = some (.send (.alarm "build" rehydrationSentinelUid)) ∧
      (w.signals.map PodSignal.key).Nodup ∧ w.HasRun "build" := by
  have hleads : watching.Leads podWatcher ⟨{"build"}, []⟩ (podWatcher.start (.seeded {"build"})) fun _ p =>
      p.pending = some (.send (.alarm "build" rehydrationSentinelUid)) := by
    refine .receive (.event (some (.ok .initDone))) _ rfl ?_
    refine .call (⟨["build"], by decide, by decide⟩ : Coordination.Ordering ({"build"} \ ∅)) _ rfl ?_
    exact .here rfl
  obtain ⟨w, p, hreaches, hp⟩ := hleads.reaches ⟨rfl, rfl⟩
  exact ⟨w, p, hreaches, hp, (signals_once_and_grounded hreaches).1, (signals_once_and_grounded hreaches).2 _ _ hp⟩

end Jefferies.Watching
