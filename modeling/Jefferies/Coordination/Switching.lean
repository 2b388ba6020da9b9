import Jefferies.Coordination.Timers

/-!
# Nodes that have started

Once a coordinator has switched a node to its runtime timer, no startup timeout fails the node. This needs
that the timeout is not in the queue yet when it switches: the abort of a timer does not recall a message.
-/

namespace Jefferies.Coordination

open Pipelines StateStore RunHistory Interaction Coordinator PipelineRun

/-- No startup timeout of the node is in the queue, and none will come from a live timer. -/
def NoTimeout (w : Runtime) (n : String) : Prop :=
  .nodePodStartTimedOut n ∉ w.queue ∧ ∀ handle, w.live.lookup handle ≠ some (n, .startup)

/-- The node is neither Running nor Pending, or it is Running and no startup timeout of it comes. -/
def Spared (w : Runtime) (c : Coordinator) (n : String) : Prop :=
  c.run.statuses.lookup n ≠ some .pending ∧ (c.run.statuses.lookup n = some .running → NoTimeout w n)

/-- Upon a NodePodRunning, the runtime timer is armed for a node that is spared. -/
def SwitchesInTime (w : Runtime) (c : Coordinator) : (e : Effect) → Resp e → Prop
  | .spawnTimer _ n .runtime _, _ => w.switching = some n → Spared w c n
  | _, _ => True

/-- The runs in which every switch comes in time. -/
def timelySwitches : Surroundings Runtime Coordinator LoopEvent Resp :=
  timers.within SwitchesInTime fun _ _ _ => True

/-- In the stage a startup timer is armed for the node. -/
def Stage.starts (n : String) : Stage → Prop
  | .saving (.started m _) _ => n = m
  | .registering m _ _ => n = m
  | .relieving _ next => next.starts n
  | .aborting _ next => next.starts n
  | .arming m phase _ => n = m ∧ phase = .startup
  | _ => False

/-- Behind a timer that is armed, the next stage does not arm a startup timer at once. -/
def Stage.single : Stage → Prop
  | .relieving _ next => next.single
  | .aborting _ next => next.single
  | .arming _ _ next => (∀ n, ¬next.starts n) ∧ next.single
  | _ => True

/-- Every node that was switched is spared and gets no startup timer. -/
structure Timely (t : Stage) (w : Runtime) (c : Coordinator) : Prop where
  spared : ∀ n ∈ w.switched, Spared w c n
  started : ∀ n ∈ w.switched, ¬t.starts n
  single : t.single
  rehydrated : t.rehydrates = true → w.switched = ∅ ∧ w.switching = none

variable {w w' : Runtime} {c c' : Coordinator} {t t' : Stage} {n m : String}

namespace Spared

/-- A mark that does not make a node Pending. -/
theorem marks (h : Spared w c n) {run : PipelineRun} {a : NodeStatus} (hm : Marks c.run run m a)
    (ha : a ≠ .pending) (hrun : c'.run = run) : Spared w c' n := by
  rw [Spared, hrun]
  constructor
  · intro hn
    rcases hm.lookup_eq hn with hold | ⟨_, he⟩
    · exact h.1 hold
    · exact ha he.symm
  · intro hn
    apply h.2
    by_contra hno
    rcases hm with rfl | ⟨hs, rfl⟩
    · exact hno hn
    · rw [HashMap.lookup_insert_eq_ite] at hn
      split at hn
      · rename_i he
        subst he
        rcases hs with hs | hs
        · exact hno hs
        · exact h.1 hs
      · exact hno hn

theorem of_run (h : Spared w c n) (hrun : c'.run = c.run) : Spared w c' n := by
  rw [Spared, hrun]
  exact h

theorem of_noTimeout (h : Spared w c n) (hw : NoTimeout w n → NoTimeout w' n) : Spared w' c n :=
  ⟨h.1, fun hn => hw (h.2 hn)⟩

end Spared

namespace NoTimeout

theorem abort (h : NoTimeout w n) (handle : Nat) : NoTimeout (w.abort handle) n := by
  refine ⟨h.1, fun handle' hl => ?_⟩
  rw [Runtime.abort, HashMap.lookup_erase_eq_ite] at hl
  split at hl
  · cases hl
  · exact h.2 handle' hl

theorem send (h : NoTimeout w n) {msg : CoordinatorMessage} (hmsg : msg ≠ .nodePodStartTimedOut n) :
    NoTimeout (w.send msg) n := by
  refine ⟨fun hmem => ?_, h.2⟩
  rcases List.mem_append.mp hmem with hold | hnew
  · exact h.1 hold
  · exact hmsg (List.mem_singleton.mp hnew).symm

theorem spawn (h : NoTimeout w n) {phase : TimerPhase} (hne : n = m → phase ≠ .startup) :
    NoTimeout (w.spawn m phase) n := by
  refine ⟨h.1, fun handle hl => ?_⟩
  rw [Runtime.spawn, HashMap.lookup_insert_eq_ite] at hl
  split at hl
  · cases hl
    exact hne rfl rfl
  · exact h.2 handle hl

theorem drift (h : NoTimeout w n) (hw : w.Drifts w') : NoTimeout w' n := by
  cases hw with
  | @expires handle m phase hl =>
      apply (h.abort handle).send
      cases phase with
      | startup =>
          rintro ⟨rfl⟩
          exact h.2 handle hl
      | runtime => exact CoordinatorMessage.noConfusion
  | @signals msg hs =>
      apply h.send
      rintro rfl
      exact hs

theorem take (h : NoTimeout w n) {event : LoopEvent} (hw : w.take event = some w') : NoTimeout w' n := by
  obtain ⟨queue, hsub, rfl⟩ := Runtime.take_eq hw
  exact ⟨fun hmem => h.1 (hsub hmem), h.2⟩

end NoTimeout

/-- What is armed for a node stays so, unless the node was switched or the run is being rehydrated. -/
theorem Moves.starts (hm : Moves t c t' c') (h : t'.starts n) : t.starts n ∨ t.rehydrates = true := by
  cases hm with
  | unarmed => exact .inl h
  | relieve => exact .inl h
  | rearm => exact .inr rfl
  | event event => rcases event with _ | _ | _ | (_ | (_ | _ | _ | _)) | (_ | (_ | _)) <;> exact h.elim
  | switch => cases h.2
  | _ => exact h.elim

theorem Moves.rehydrates_of (hm : Moves t c t' c') (h : t'.rehydrates = true) : t.rehydrates = true := by
  cases hm with
  | event event => rcases event with _ | _ | _ | (_ | (_ | _ | _ | _)) | (_ | (_ | _)) <;> cases h
  | _ => first | exact h | rfl | cases h

theorem Moves.timely (hm : Moves t c t' c') (h : Timely t w c) : Timely t' w c' := by
  refine ⟨?_, ?_, ?_, fun he => h.rehydrated (hm.rehydrates_of he)⟩
  · intro n hn
    obtain ⟨m, a, ha, hmark⟩ := hm.marks
    exact (h.spared n hn).marks hmark ha rfl
  · intro n hn hst
    rcases hm.starts hst with hold | hre
    · exact h.started n hn hold
    · rw [(h.rehydrated hre).1] at hn
      cases hn
  · cases hm with
    | unarmed => exact h.single
    | relieve => exact h.single
    | event event => rcases event with _ | _ | _ | (_ | (_ | _ | _ | _)) | (_ | (_ | _)) <;> trivial
    | switch => exact ⟨fun _ => id, trivial⟩
    | rearm => exact ⟨fun _ => id, trivial⟩
    | _ => trivial

theorem next_starts (change : Change) (k : Caller) (b : Bool) (h : (change.next k b).starts n) :
    (Stage.saving change k).starts n := by
  cases change <;> cases b <;> exact h

theorem next_rehydrates (change : Change) (k : Caller) (b : Bool)
    (h : (change.next k b).rehydrates = true) : (Stage.saving change k).rehydrates = true := by
  cases change <;> cases b <;> exact h

theorem next_single (change : Change) (k : Caller) (b : Bool) : (change.next k b).single := by
  cases change <;> cases b <;> trivial

namespace Timely

/-- The run and the runtime stay, and no startup timer is armed in the new stage. -/
theorem next (h : Timely t w c) (hrun : c'.run = c.run) (hs : ∀ n, ¬t'.starts n) (hsingle : t'.single)
    (hr : t'.rehydrates = true → t.rehydrates = true) : Timely t' w c' :=
  ⟨fun n hn => (h.spared n hn).of_run hrun, fun n _ => hs n, hsingle, fun he => h.rehydrated (hr he)⟩

/-- A node that is dispatched was Pending, so it was not switched before. -/
theorem dispatched {rest : List String} {k : Caller} (h : Timely (.dispatching (n :: rest) k) w c)
    (r : Except DispatchError Unit) : Timely (.dispatched c.run n rest k r) w (afterDispatch c n r) := by
  cases r with
  | error e =>
      refine ⟨fun m hm => ?_, fun m hm => id, trivial, h.rehydrated⟩
      exact (h.spared m hm).marks (marks_markDispatchFailed _ n) (by decide) rfl
  | ok _ =>
      have hspared : ∀ m ∈ w.switched, Spared w (afterDispatch c n (.ok ())) m :=
        fun m hm => (h.spared m hm).marks (marks_markRunning _ n) (by decide) rfl
      show Timely (if _ then _ else _) w _
      split
      · rename_i hmark
        refine ⟨hspared, ?_, trivial, h.rehydrated⟩
        rintro m hm rfl
        exact (h.spared m hm).1 (markRunning_fst.mp hmark)
      · exact ⟨hspared, fun m hm => id, trivial, h.rehydrated⟩

/-- A node is switched where its runtime timer is armed upon a NodePodRunning. -/
theorem arm {phase : TimerPhase} {next : Stage} {handle secs : Nat} (h : Timely (.arming n phase next) w c)
    (hr : SwitchesInTime w c (.spawnTimer c.runId n phase secs) handle) :
    Timely next (w.spawn n phase) (c.setTimer n ⟨phase, handle⟩) := by
  have hold : ∀ m ∈ w.switched, Spared (w.spawn n phase) c m := by
    intro m hm
    apply (h.spared m hm).of_noTimeout
    intro hno
    apply hno.spawn
    rintro rfl rfl
    exact h.started m hm ⟨rfl, rfl⟩
  refine ⟨?_, fun m _ => h.single.1 m, h.single.2, ?_⟩
  · intro m hm
    rw [Runtime.spawn] at hm
    apply Spared.of_run (c := c) _ rfl
    by_cases hsw : phase = .runtime ∧ w.switching = some n
    · obtain ⟨rfl, hn⟩ := hsw
      simp only [hn, and_self, ↓reduceIte, Finset.mem_insert] at hm
      rcases hm with rfl | hm
      · exact (hr hn).of_noTimeout fun hno => hno.spawn fun _ => by decide
      · exact hold m hm
    · rw [if_neg hsw] at hm
      exact hold m hm
  · intro hre
    obtain ⟨hsw, hnone⟩ := h.rehydrated hre
    simp [Runtime.spawn, hsw, hnone]

end Timely

theorem Asks.timely {e : Effect} {k : Resp e → Stage × Coordinator} (hk : Asks t c e k) (h : Timely t w c)
    {r : Resp e} (hr : w.Fits e r) (hin : SwitchesInTime w c e r) : Timely (k r).1 (w.after e) (k r).2 := by
  cases hk with
  | idle he ht =>
      rw [he.after]
      exact h
  | part he =>
      rw [he.after]
      exact h
  | abort hnext =>
      exact ⟨fun n hn => (h.spared n hn).of_noTimeout fun hno => hno.abort _, h.started, h.single, h.rehydrated⟩
  | arm secs hnext => exact h.arm hin
  | @save _ change k =>
      exact ⟨fun n hn => (h.spared n hn).of_run (afterSave_run _ _),
        fun n hn hst => h.started n hn (next_starts _ _ _ hst), next_single _ _ _,
        fun he => h.rehydrated (next_rehydrates _ _ _ he)⟩
  | dispatch => exact h.dispatched r
  | register => exact ⟨h.spared, fun n hn hs => h.started n hn hs.1, ⟨fun _ => id, trivial⟩, h.rehydrated⟩
  | renew =>
      show Timely (if accepted r then .waiting else .quitting) w c
      split
      · exact h.next rfl (fun _ => id) trivial id
      · exact h.next rfl (fun _ => id) trivial id
  | subscribe => rcases r with e | ⟨⟩ <;> exact h.next rfl (fun _ => id) trivial id
  | probe => rcases r with e | _ | _ <;> exact h.next rfl (fun _ => id) trivial id
  | sift => exact h.next rfl (fun _ => id) trivial fun _ => rfl
  | _ => exact h.next rfl (fun _ => id) trivial id

/-- Where every switch comes in time, the switched nodes are spared along every run. -/
def sparing : course.Invariant timelySwitches where
  holds := Timely
  start w c h := by
    obtain ⟨rfl, _⟩ := h
    exact ⟨fun _ hn => (Finset.notMem_empty _ hn).elim, fun _ hn => (Finset.notMem_empty _ hn).elim, trivial,
      fun _ => ⟨rfl, rfl⟩⟩
  move _ _ _ _ _ h hm := hm.timely h
  ask t w c e k r w' h hk ha := by
    obtain ⟨hin, hr, rfl⟩ := ha
    exact hk.timely h hr hin
  deliver w c event w' h hw := by
    refine ⟨?_, fun _ _ => id, trivial, fun he => by cases he⟩
    intro n hn
    have hn : n ∈ w.switched := by
      obtain ⟨queue, _, rfl⟩ := Runtime.take_eq hw.2
      exact hn
    exact (h.spared n hn).of_noTimeout fun hno => hno.take hw.2
  drift t w c w' h hw := by
    have hsw : w'.switched = w.switched ∧ w'.switching = w.switching := by cases hw <;> exact ⟨rfl, rfl⟩
    refine ⟨?_, ?_, h.single, ?_⟩
    · intro n hn
      rw [hsw.1] at hn
      exact (h.spared n hn).of_noTimeout fun hno => hno.drift hw
    · intro n hn
      rw [hsw.1] at hn
      exact h.started n hn
    · rw [hsw.1, hsw.2]
      exact h.rehydrated
  restart _ _ _ _ _ _ h := h.elim

/-- A failure of a node that is neither Running nor Pending is passed over. -/
theorem handleNodeInfraFailed_late {reason : InfraFailureReason} (h : (c.run.markFailed n).1 = false) :
    handleNodeInfraFailed n reason c = .ret c false := by
  unfold handleNodeInfraFailed mark
  simp only [Interact.get_bind]
  split
  · rfl
  · simp only [Interact.modifyGet_bind, h, markFailed_of_false h]
    rfl

/-- A started node is never failed for not starting: once a node is switched, a startup timeout of it that is
in the queue is passed over. -/
theorem switched_not_failed {w : Runtime} {c : Coordinator}
    (h : timelySwitches.Reaches coordinator w (.ret c none)) {n : String} (hn : n ∈ w.switched)
    (hq : .nodePodStartTimedOut n ∈ w.queue) :
    coordinator.handle (.internal (some (.nodePodStartTimedOut n))) c = .ret c none := by
  have hspared := (sparing.waiting Course.describes h).spared n hn
  have hcomplete : c.run.isComplete = false := ((readiness _).waiting Course.describes h).2 trivial
  have hfailed : (c.run.markFailed n).1 = false := by
    rw [← Bool.not_eq_true, markFailed_fst]
    rintro (hrun | hpend)
    · exact (hspared.2 hrun).1 hq
    · exact hspared.1 hpend
  show ((handleNodeInfraFailed n .podStartTimeout >>= afterHandler : Coord _) c) = _
  rw [Interact.bind_apply, handleNodeInfraFailed_late hfailed, Prog.ret_bind]
  simp [afterHandler, hcomplete, Interact.pure_apply]

/-- A node has completed before its NodePodRunning and its startup timeout are taken. -/
theorem switched_not_failed_completed :
    ∃ w c, timelySwitches.Reaches coordinator w (.ret c none) ∧ "build" ∈ w.switched ∧
      coordinator.handle (.internal (some (.nodePodStartTimedOut "build"))) c = .ret c none := by
  let c₀ := freshCoordinator .default "run" .buildAndTest
  have h : timelySwitches.Leads coordinator .new (coordinator.start c₀) fun w p =>
      ∃ c, p = .ret c none ∧ "build" ∈ w.switched ∧ .nodePodStartTimedOut "build" ∈ w.queue := by
    refine .call () _ ⟨trivial, trivial, rfl⟩ ?_
    refine .call (.ok ()) _ ⟨trivial, trivial, rfl⟩ ?_
    refine .call () _ ⟨trivial, trivial, rfl⟩ ?_
    refine .call () _ ⟨trivial, trivial, rfl⟩ ?_
    refine .call ⟨["build"], by decide⟩ _ ⟨trivial, trivial, rfl⟩ ?_
    refine .call (.ok ()) _ ⟨trivial, trivial, rfl⟩ ?_
    refine .call (.ok true) _ ⟨trivial, trivial, rfl⟩ ?_
    refine .call ⟨0, 0⟩ _ ⟨trivial, trivial, rfl⟩ ?_
    refine .call (.ok ()) _ ⟨trivial, trivial, rfl⟩ ?_
    refine .call (0 : Nat) _ ⟨trivial, rfl, rfl⟩ ?_
    refine .drift _ (@Runtime.Drifts.signals _ (.nodePodRunning "build") trivial) ?_
    refine .drift _ (@Runtime.Drifts.expires _ 0 "build" .startup (by decide)) ?_
    refine .receive (.backplane (some (.nodeCompleted "build" true))) _ ⟨trivial, rfl⟩ ?_
    refine .call () _ ⟨trivial, trivial, rfl⟩ ?_
    refine .call (.ok true) _ ⟨trivial, trivial, rfl⟩ ?_
    refine .call (.ok none) _ ⟨trivial, trivial, rfl⟩ ?_
    refine .call (.ok none) _ ⟨trivial, trivial, rfl⟩ ?_
    refine .call ⟨0, 0⟩ _ ⟨trivial, trivial, rfl⟩ ?_
    refine .call (.ok ()) _ ⟨trivial, trivial, rfl⟩ ?_
    refine .call ⟨["test"], by decide⟩ _ ⟨trivial, trivial, rfl⟩ ?_
    refine .call (.ok ()) _ ⟨trivial, trivial, rfl⟩ ?_
    refine .call (.ok true) _ ⟨trivial, trivial, rfl⟩ ?_
    refine .call ⟨0, 0⟩ _ ⟨trivial, trivial, rfl⟩ ?_
    refine .call (.ok ()) _ ⟨trivial, trivial, rfl⟩ ?_
    refine .call (1 : Nat) _ ⟨trivial, rfl, rfl⟩ ?_
    refine .receive (.internal (some (.nodePodRunning "build"))) _ ⟨trivial, rfl⟩ ?_
    refine .call (2 : Nat) _ ⟨fun _ => ⟨by decide, fun hn => absurd hn (by decide)⟩, rfl, rfl⟩ ?_
    exact .here ⟨_, rfl, by decide, by decide⟩
  obtain ⟨w, p, hr, c, rfl, hn, hq⟩ := h.reaches ⟨rfl, begins_fresh _ _ _⟩
  exact ⟨w, c, hr, hn, switched_not_failed hr hn hq⟩

/-- The startup timer of build ends after its NodePodRunning was sent and before it is taken. Then build is
switched, and the startup timeout behind fails it. -/
theorem switched_failed :
    ∃ w c, timers.Reaches coordinator w (.ret c none) ∧ "build" ∈ w.switched ∧
      w.queue = [.nodePodStartTimedOut "build"] ∧ c.run.statuses.lookup "build" = some .running ∧
      (coordinator.handle (.internal (some (.nodePodStartTimedOut "build"))) c).state.run.statuses.lookup
        "build" = some .failed := by
  let c₀ := freshCoordinator .default "run" .buildAndTest
  have h : timers.Leads coordinator .new (coordinator.start c₀) fun w p =>
      ∃ c, p = .ret c none ∧ "build" ∈ w.switched ∧ w.queue = [.nodePodStartTimedOut "build"] ∧
        c.run.statuses.lookup "build" = some .running ∧
        (coordinator.handle (.internal (some (.nodePodStartTimedOut "build"))) c).state.run.statuses.lookup
          "build" = some .failed := by
    refine .call () _ ⟨trivial, rfl⟩ ?_
    refine .call (.ok ()) _ ⟨trivial, rfl⟩ ?_
    refine .call () _ ⟨trivial, rfl⟩ ?_
    refine .call () _ ⟨trivial, rfl⟩ ?_
    refine .call ⟨["build"], by decide⟩ _ ⟨trivial, rfl⟩ ?_
    refine .call (.ok ()) _ ⟨trivial, rfl⟩ ?_
    refine .call (.ok true) _ ⟨trivial, rfl⟩ ?_
    refine .call ⟨0, 0⟩ _ ⟨trivial, rfl⟩ ?_
    refine .call (.ok ()) _ ⟨trivial, rfl⟩ ?_
    refine .call (0 : Nat) _ ⟨rfl, rfl⟩ ?_
    refine .drift _ (@Runtime.Drifts.signals _ (.nodePodRunning "build") trivial) ?_
    refine .drift _ (@Runtime.Drifts.expires _ 0 "build" .startup (by decide)) ?_
    refine .receive (.internal (some (.nodePodRunning "build"))) _ rfl ?_
    refine .call () _ ⟨trivial, rfl⟩ ?_
    refine .call (1 : Nat) _ ⟨rfl, rfl⟩ ?_
    exact .here ⟨_, rfl, by decide, rfl, by decide, by decide⟩
  obtain ⟨w, p, hr, c, rfl, hbuild⟩ := h.reaches ⟨rfl, begins_fresh _ _ _⟩
  exact ⟨w, c, hr, hbuild⟩

end Jefferies.Coordination
