import Jefferies.Watching.Signals

/-!
# Deletions that are to be expected

The handler of deletions looks for the node among the deletions to expect. What is missing at the end of the initial
list is signalled without that.
-/

namespace Jefferies.Watching

open Coordination Interaction Interact

/-- Once a node's deletion is to be expected, its pods are not missed. -/
def Heeded (w : Watched) : Prop :=
  w.log.Pairwise fun earlier later => ∀ n u, earlier = .expected n → later ≠ .sent (.alarm n u)

/-- The deletions to expect are those that were announced. -/
def Told (w : Watched) (s : WatcherState) : Prop := ∀ n, .expected n ∈ w.log ↔ n ∈ s.expectedDeletions

/-- Of the nodes that the initial list lacks, none is to be deleted, unless it was reported with that uid before. -/
def Listed (s : WatcherState) : Prop :=
  ∀ n ∈ s.takeMissingAfterInit.1, n ∈ s.expectedDeletions → rehydrationSentinelUid ∈ s.failureUids n

/-- The runs in which every initial list ends so. -/
def listing : Surroundings Watched WatcherState WatcherInput WatcherResp :=
  watching.within (fun _ _ _ _ => True) fun _ s input => input = .event (some (.ok .initDone)) → Listed s

variable {w x : Watched} {s t : WatcherState} {n u : String} {signal : PodSignal}

theorem Heeded.sent (h : Heeded w) (hno : ∀ n u, signal = .alarm n u → .expected n ∉ w.log) :
    Heeded (w.record (.sent signal)) := by
  refine List.pairwise_append.mpr ⟨h, List.pairwise_singleton _ _, ?_⟩
  rintro _ hearlier later hlater n u rfl hsent
  rw [List.mem_singleton.mp hlater] at hsent
  cases hsent
  exact hno n u rfl hearlier

theorem Heeded.expected (h : Heeded w) (m : String) : Heeded (w.record (.expected m)) := by
  refine List.pairwise_append.mpr ⟨h, List.pairwise_singleton _ _, ?_⟩
  intro _ _ later hlater n u _ hsent
  rw [List.mem_singleton.mp hlater] at hsent
  cases hsent

theorem mem_record_sent : .expected n ∈ (w.record (.sent signal)).log ↔ .expected n ∈ w.log := by
  simp [Watched.record]

@[simp] theorem expectedDeletions_shouldEmit (s : WatcherState) (signal : PodSignal) :
    (s.shouldEmit signal).2.expectedDeletions = s.expectedDeletions := by
  cases signal <;> rfl

theorem Told.expected (h : Told w s) (m : String) : Told (w.record (.expected m)) (s.expectDeletion m) := by
  intro n
  simp [Watched.record, WatcherState.expectDeletion, h n, or_comm]

/-! ## The handlers -/

/-- Nothing is announced, what was announced stays known, and no report is dropped. -/
structure Heeds (w : Watched) (s : WatcherState) (x : Watched) (t : WatcherState) : Prop where
  told : Told x t
  announced : ∀ n, .expected n ∈ x.log → .expected n ∈ w.log
  reported : ∀ n, s.failureUids n ⊆ t.failureUids n

theorem emit_heeds (hw : Heeded w) (h : Told w s)
    (hno : (s.shouldEmit signal).1 = true → ∀ n u, signal = .alarm n u → .expected n ∉ w.log) :
    Throughout watching.answers Heeded (fun x t _ => Heeds w s x t) w (emit signal s) := by
  apply emit_rule hw
  · intro hemit
    refine ⟨hw.sent (hno hemit), ?_, fun n => mem_record_sent.mp, fun n => (uids_mono s signal n).2⟩
    intro n
    rw [mem_record_sent, expectedDeletions_shouldEmit, h n]
  · intro _
    refine ⟨?_, fun n => id, fun n => (uids_mono s signal n).2⟩
    intro n
    rw [expectedDeletions_shouldEmit, h n]

theorem emitClassified_heeds (hw : Heeded w) (h : Told w s) (pod : Pod) :
    Throughout watching.answers Heeded (fun x t _ => Told x t) w (emitClassified pod s) := by
  unfold emitClassified
  cases hpod : classifyPod pod with
  | none => exact ⟨hw, h⟩
  | some signal =>
      refine (emit_heeds hw h ?_).mono fun _ _ _ hx => hx.told
      exact fun _ n u he => absurd he (classifyPod_ne_alarm hpod)

theorem handleDelete_heeds (hw : Heeded w) (h : Told w s) (pod : Pod) :
    Throughout watching.answers Heeded (fun x t _ => Told x t) w (handleDelete pod s) := by
  unfold handleDelete
  cases nodeNameFor pod with
  | none => exact ⟨hw, h⟩
  | some nodeName =>
      simp only [get_bind]
      split
      · exact ⟨hw, h⟩
      · rename_i hunexpected
        split
        · exact ⟨hw, h⟩
        · refine (emit_heeds hw h ?_).mono fun _ _ _ hx => hx.told
          intro _ n u he hlog
          cases he
          simp [WatcherState.deletionWasExpected, (h nodeName).mp hlog] at hunexpected

@[simp] theorem expectedDeletions_takeMissing (s : WatcherState) :
    s.takeMissingAfterInit.2.expectedDeletions = s.expectedDeletions := by
  unfold WatcherState.takeMissingAfterInit
  split <;> rfl

@[simp] theorem failureUids_takeMissing (s : WatcherState) (n : String) :
    s.takeMissingAfterInit.2.failureUids n = s.failureUids n := by
  unfold WatcherState.takeMissingAfterInit
  split <;> rfl

/-- Where the initial list ends well, no node is missed that is to be deleted. -/
theorem emitPresenceDiff_heeds (hw : Heeded w) (h : Told w s) (hlisted : Listed s) :
    Throughout watching.answers Heeded (fun x t _ => Told x t) w (emitPresenceDiff s) := by
  unfold emitPresenceDiff
  simp only [modifyGet_bind]
  refine ⟨hw, ?_⟩
  intro order x hx
  rw [show x = w from hx]
  have htold : Told w s.takeMissingAfterInit.2 := fun n => by rw [expectedDeletions_takeMissing, h n]
  have hmissing : ∀ n ∈ order.1, .expected n ∈ w.log →
      rehydrationSentinelUid ∈ s.takeMissingAfterInit.2.failureUids n := by
    intro n hn hlog
    rw [failureUids_takeMissing]
    exact hlisted n (order.2.2 ▸ List.mem_toFinset.mpr hn) ((h n).mp hlog)
  refine (Throughout.forM (J := fun rest x t => Told x t ∧
    ∀ n ∈ rest, .expected n ∈ x.log → rehydrationSentinelUid ∈ t.failureUids n) ?_
    order.1 hw ⟨htold, hmissing⟩).mono fun _ _ _ hend => hend.1
  rintro n rest x t hx ⟨ht, hrest⟩
  refine (emit_heeds hx ht ?_).mono ?_
  · intro hnew m u he hlog
    cases he
    -- a node that is to be deleted was reported with the same uid before
    exact report_fst.mp hnew (hrest n List.mem_cons_self hlog)
  · rintro x' t' _ ⟨ht', hannounced, hreported⟩
    exact ⟨ht', fun m hm hlog => hreported m (hrest m (List.mem_cons_of_mem _ hm) (hannounced m hlog))⟩

theorem handleEvent_heeds (hw : Heeded w) (h : Told w s) (event : WatcherEvent)
    (hlisted : event = .initDone → Listed s) :
    Throughout watching.answers Heeded (fun x t _ => Told x t) w (handleEvent event s) := by
  cases event with
  | init => exact ⟨hw, h⟩
  | initApply pod =>
      simp only [handleEvent]
      cases nodeNameFor pod with
      | none => exact emitClassified_heeds hw h pod
      | some nodeName =>
          have hobserved : Told w (s.recordInitObservation nodeName) := by
            unfold WatcherState.recordInitObservation
            split
            · exact h
            · exact h
          exact emitClassified_heeds hw hobserved pod
  | initDone => exact emitPresenceDiff_heeds hw h (hlisted rfl)
  | apply pod => exact emitClassified_heeds hw h pod
  | delete pod => exact handleDelete_heeds hw h pod

theorem handleInput_heeds (hw : Heeded w) (h : Told w s) (input : WatcherInput)
    (hlisted : input = .event (some (.ok .initDone)) → Listed s) :
    Throughout watching.answers Heeded (fun x t (_ : Option Unit) => Told x t) (w.received input)
      (handleInput input s) := by
  apply handleInput_rule hw h
  · exact fun nodeName => ⟨hw.expected nodeName, h.expected nodeName⟩
  · exact fun event hevent => handleEvent_heeds hw h event fun he => hlisted (by rw [hevent, he])

/-! ## Runs -/

variable {p : Prog WatcherState WatcherResp (Option Unit)}

theorem reaches_heeded (h : listing.Reaches podWatcher w p) :
    Throughout listing.answers Heeded (fun w s _ => Told w s) w p := by
  apply Throughout.reaches _ _ _ _ h
  · rintro w s ⟨hlog, rfl⟩
    constructor
    · rw [Heeded, hlog]
      exact .nil
    · intro n
      simp [hlog, WatcherState.seeded]
  · rintro w s input _ hw ht ⟨hlisted, rfl⟩
    exact (handleInput_heeds hw ht input hlisted).restrict fun _ _ _ _ _ hr => hr.2
  · exact fun _ _ => id
  · exact fun _ _ _ => id

/-- A signal that is new is sent at once. -/
theorem emit_call (h : (s.shouldEmit signal).1 = true) :
    ∃ k, emit signal s = .call (s.shouldEmit signal).2 (.send signal) k := by
  unfold emit
  rw [modifyGet_bind, h]
  exact ⟨_, rfl⟩

/-- The nodes that are missing are signalled in the order of the iteration. -/
theorem emitPresenceDiff_call (order : Coordination.Ordering s.takeMissingAfterInit.1) {rest : List String}
    (horder : order.1 = n :: rest) (hnew : rehydrationSentinelUid ∉ s.failureUids n) :
    ∃ k, emitPresenceDiff s = .call s.takeMissingAfterInit.2 (.iterate s.takeMissingAfterInit.1) k ∧
      ∃ t k', k order = .call t (.send (.alarm n rehydrationSentinelUid)) k' := by
  have hemit : (s.takeMissingAfterInit.2.shouldEmit (.alarm n rehydrationSentinelUid)).1 = true := by
    apply report_fst.mpr
    rwa [← WatcherState.failureUids, failureUids_takeMissing]
  obtain ⟨k, hk⟩ := emit_call hemit
  refine ⟨_, rfl, ?_⟩
  simp only [Prog.ret_bind, horder]
  show ∃ t k', (emit (.alarm n rehydrationSentinelUid) s.takeMissingAfterInit.2).bind _ = Prog.call t _ k'
  rw [hk]
  exact ⟨_, _, rfl⟩

/-- Where the initial list ends otherwise, a node is missed that is to be deleted. -/
theorem unlisted_missed (h : Told w s) (hno : ¬Listed s) :
    watching.Leads podWatcher w (.ret s none) fun x q =>
      ∃ n u, q.pending = some (.send (.alarm n u)) ∧ .expected n ∈ x.log := by
  unfold Listed at hno
  push Not at hno
  obtain ⟨n, hmissing, hexpected, hnew⟩ := hno
  obtain ⟨order, rest, horder⟩ := Ordering.exists_append s.takeMissingAfterInit.1 [n] (by simp) (by simpa using hmissing)
  obtain ⟨k, hcall, t, k', hsend⟩ := emitPresenceDiff_call order horder hnew
  refine .receive (.event (some (.ok .initDone))) _ rfl ?_
  show watching.Leads podWatcher w ((emitPresenceDiff s).bind _) _
  rw [hcall]
  refine .call order _ rfl (.here ⟨n, rehydrationSentinelUid, ?_, (h n).mpr hexpected⟩)
  show ((k order).bind _).pending = _
  rw [hsend]
  rfl

/-- As long as every initial list ends with the nodes to be deleted observed or reported, none of them is missed; and
one is in some run that goes on from where a list ends otherwise. -/
theorem deletions_heeded (h : listing.Reaches podWatcher w p) :
    (∀ n u, p.pending = some (.send (.alarm n u)) → .expected n ∉ w.log) ∧
      ∀ s, p = .ret s none → ¬Listed s → watching.Leads podWatcher w p fun x q =>
        ∃ n u, q.pending = some (.send (.alarm n u)) ∧ .expected n ∈ x.log := by
  have hheeded := reaches_heeded h
  constructor
  · intro n u hp hlog
    cases p with
    | ret s a => cases hp
    | call s e k =>
        cases hp
        have hsent : Heeded (w.record (.sent (.alarm n u))) := (hheeded.2 true _ ⟨trivial, rfl⟩).here
        exact (List.pairwise_append.mp hsent).2.2 _ hlog _ List.mem_cons_self n u rfl rfl
  · rintro s rfl hno
    exact unlisted_missed hheeded.2 hno

/-- One node is to be deleted, and another one is missed. -/
theorem deletions_heeded_other :
    ∃ w p, listing.Reaches podWatcher w p ∧ .expected "build" ∈ w.log ∧
      p.pending = some (.send (.alarm "test" rehydrationSentinelUid)) ∧ .expected "test" ∉ w.log := by
  have hleads : listing.Leads podWatcher ⟨{"test"}, []⟩ (podWatcher.start (.seeded {"test"})) fun w p =>
      .expected "build" ∈ w.log ∧ p.pending = some (.send (.alarm "test" rehydrationSentinelUid)) := by
    refine .receive (.command (some (.expectDeletion "build"))) _ ⟨nofun, rfl⟩ ?_
    refine .receive (.event (some (.ok .initDone))) _ ⟨fun _ => ?_, rfl⟩ ?_
    · intro n hmissing hexpected
      have htest : n = "test" := Finset.mem_singleton.mp (Finset.mem_sdiff.mp hmissing).1
      have hbuild : n = "build" := by simpa [WatcherState.expectDeletion, WatcherState.seeded] using hexpected
      rw [htest] at hbuild
      exact absurd hbuild (by decide)
    · refine .call (⟨["test"], by decide, by decide⟩ : Coordination.Ordering ({"test"} \ ∅)) _ ⟨trivial, rfl⟩ ?_
      exact .here ⟨List.mem_cons_self, rfl⟩
  obtain ⟨w, p, hreaches, hlog, hp⟩ := hleads.reaches ⟨rfl, rfl⟩
  exact ⟨w, p, hreaches, hlog, hp, (deletions_heeded hreaches).1 _ _ hp⟩

/-- The deletion of a node is to be expected before the initial list has ended, and the list does without it. -/
theorem expected_missed :
    ¬∀ w p, watching.Reaches podWatcher w p → ∀ n u, p.pending = some (.send (.alarm n u)) → .expected n ∉ w.log := by
  intro hall
  have hleads : watching.Leads podWatcher ⟨{"build"}, []⟩ (podWatcher.start (.seeded {"build"})) fun w p =>
      .expected "build" ∈ w.log ∧ p.pending = some (.send (.alarm "build" rehydrationSentinelUid)) := by
    refine .receive (.command (some (.expectDeletion "build"))) _ rfl ?_
    refine .receive (.event (some (.ok .initDone))) _ rfl ?_
    refine .call (⟨["build"], by decide, by decide⟩ : Coordination.Ordering ({"build"} \ ∅)) _ rfl ?_
    exact .here ⟨List.mem_cons_self, rfl⟩
  obtain ⟨w, p, hreaches, hlog, hp⟩ := hleads.reaches ⟨rfl, rfl⟩
  exact hall w p hreaches _ _ hp hlog

end Jefferies.Watching
