import Jefferies.Coordination.Timers

/-!
# Waiting coordinators

Whenever a coordinator waits, each Running node has a timer that is live, or whose message is in the queue.
So something always comes that moves the run on.
-/

namespace Jefferies.Coordination

open Pipelines StateStore RunHistory Interaction Coordinator PipelineRun

/-- The timer in the node's place is live, or its message is in the queue. -/
def Armed (w : Runtime) (c : Coordinator) (n : String) : Prop :=
  ∃ timer, c.nodePhaseHandles.lookup n = some timer ∧
    (w.live.lookup timer.handle = some (n, timer.phase) ∨ timeoutMessage n timer.phase ∈ w.queue)

/-- The event says that a timer of the node is over. -/
def TimesOut (n : String) (event : LoopEvent) : Prop :=
  ∃ phase, event = .internal (some (timeoutMessage n phase))

/-- In the stage the node may be Running without a timer. -/
def Stage.spares (n : String) : Stage → Prop
  | .taken event => TimesOut n event
  | .timing m => n = m
  | .failing m _ k => n = m ∨ k.rehydrates = true
  | .completing m _ k => n = m ∨ k.rehydrates = true
  | .saving (.started m _) k => n = m ∨ k.rehydrates = true
  | .registering m _ k => n = m ∨ k.rehydrates = true
  | .returned aborted k => aborted = true ∨ k.rehydrates = true
  | .rearmed _ names => n ∈ names
  | .relieving _ next => next.spares n
  | .aborting _ next => next.spares n
  | .arming m _ next => n = m ∨ next.spares n
  | .closing _ => True
  | .concluding _ _ => True
  | .terminated _ _ _ => True
  | .closed _ => True
  | .quitting => True
  | .ended => True
  | t => t.rehydrates = true

variable {w w' : Runtime} {c c' : Coordinator} {t t' : Stage} {n m : String}

namespace Armed

theorem of_timers (h : Armed w c n) (hc : c'.nodePhaseHandles = c.nodePhaseHandles) : Armed w c' n := by
  unfold Armed
  rw [hc]
  exact h

theorem remove (h : Armed w c n) (hne : n ≠ m) : Armed w (c.removeTimer m) n := by
  obtain ⟨timer, hn, hl⟩ := h
  exact ⟨timer, by rw [removeTimer_timers, if_neg hne, hn], hl⟩

theorem abort (h : Armed w c n) {handle : Nat} (hd : Dropped c handle) : Armed (w.abort handle) c n := by
  obtain ⟨timer, hn, hl⟩ := h
  refine ⟨timer, hn, hl.imp_left fun hl => ?_⟩
  rw [Runtime.abort, HashMap.lookup_erase_eq_ite, if_neg (hd n timer hn), hl]

theorem arm (h : Armed w c n) (hw : Handles w c) (hne : n ≠ m) (phase : TimerPhase) :
    Armed (w.spawn m phase) (c.setTimer m ⟨phase, w.next⟩) n := by
  obtain ⟨timer, hn, hl⟩ := h
  refine ⟨timer, by rw [setTimer_timers, if_neg hne, hn], hl.imp_left fun hl => ?_⟩
  rw [Runtime.spawn, HashMap.lookup_insert_eq_ite, if_neg (hw.old n timer hn).ne, hl]

theorem armed (w : Runtime) (c : Coordinator) (n : String) (phase : TimerPhase) :
    Armed (w.spawn n phase) (c.setTimer n ⟨phase, w.next⟩) n := by
  refine ⟨⟨phase, w.next⟩, by simp, .inl ?_⟩
  rw [Runtime.spawn, HashMap.lookup_insert_eq_ite, if_pos rfl]

theorem send (h : Armed w c n) (msg : CoordinatorMessage) : Armed (w.send msg) c n := by
  obtain ⟨timer, hn, hl⟩ := h
  exact ⟨timer, hn, hl.imp_right (List.mem_append_left _)⟩

/-- A timer that is over has put its message in the queue. -/
theorem expire (h : Armed w c n) {handle : Nat} {phase : TimerPhase}
    (hl : w.live.lookup handle = some (m, phase)) : Armed (w.expire handle m phase) c n := by
  obtain ⟨timer, hn, hlive | hq⟩ := h
  · refine ⟨timer, hn, ?_⟩
    by_cases he : timer.handle = handle
    · rw [he, hl] at hlive
      cases hlive
      exact .inr (List.mem_append_right _ (List.mem_singleton.mpr rfl))
    · left
      show (w.live.erase handle).lookup timer.handle = _
      rw [HashMap.lookup_erase_eq_ite, if_neg he, hlive]
  · exact ⟨timer, hn, .inr (List.mem_append_left _ hq)⟩

theorem drift (h : Armed w c n) (hw : w.Drifts w') : Armed w' c n := by
  cases hw with
  | expires hl => exact h.expire hl
  | signals _ => exact h.send _

/-- Taking an event leaves the node armed, unless the event is that its timer is over. -/
theorem take {event : LoopEvent} (h : Armed w c n) (hw : w.take event = some w') :
    TimesOut n event ∨ Armed w' c n := by
  obtain ⟨timer, hn, hl⟩ := h
  unfold Runtime.take at hw
  split at hw
  · rename_i msg head rest hq
    split at hw
    · rename_i hhead
      cases hw
      subst hhead
      rcases hl with hl | hmem
      · exact .inr ⟨timer, hn, .inl hl⟩
      · rw [hq] at hmem
        rcases List.mem_cons.mp hmem with he | hmem
        · exact .inl ⟨timer.phase, by rw [he]⟩
        · exact .inr ⟨timer, hn, .inr hmem⟩
    · cases hw
  · cases hw
  · cases hw
    exact .inr ⟨timer, hn, hl⟩

end Armed

/-- Each Running node is armed or spared, and a new run that is about to begin has none. -/
structure Guarded (t : Stage) (w : Runtime) (c : Coordinator) : Prop where
  tended : Tended t w c
  armed : ∀ n, c.run.statuses.lookup n = some .running → t.spares n ∨ Armed w c n
  relieved : ∀ n next, t = .relieving n next → next.spares n ∨ c.run.statuses.lookup n ≠ some .running
  entered : t = .entering → c.isRehydrate = false → ∀ n, c.run.statuses.lookup n ≠ some .running

namespace Guarded

/-- The run and the timers stay, and the new stage spares what the old one does. -/
theorem next (h : Guarded t w c) (htend : Tended t' w c') (hrun : c'.run = c.run)
    (htimers : c'.nodePhaseHandles = c.nodePhaseHandles) (hs : ∀ n, t.spares n → t'.spares n)
    (hr : ∀ n next, t' = .relieving n next → next.spares n) (he : t' ≠ .entering) : Guarded t' w c' := by
  refine ⟨htend, ?_, ?_, fun h => absurd h he⟩
  · intro n hn
    rw [hrun] at hn
    rcases h.armed n hn with hsp | ha
    · exact .inl (hs n hsp)
    · exact .inr (ha.of_timers htimers)
  · intro n next ht
    exact .inl (hr n next ht)

/-- A node was marked that does not run after it. -/
theorem mark (h : Guarded t w c) {run : PipelineRun} {a : NodeStatus} (hm : Marks c.run run n a)
    (hn : run.statuses.lookup n ≠ some .running) (htend : Tended t' w (c.setRun run))
    (hs : ∀ m, m ≠ n → t.spares m → t'.spares m) (hr : ∀ m next, t' = .relieving m next → m = n)
    (he : t' ≠ .entering) : Guarded t' w (c.setRun run) := by
  refine ⟨htend, ?_, ?_, fun h => absurd h he⟩
  · intro m hrun
    have hne : m ≠ n := by
      rintro rfl
      exact hn hrun
    have hold : c.run.statuses.lookup m = some .running := by
      rw [← hm.lookup_of_ne hne]
      exact hrun
    rcases h.armed m hold with hsp | ha
    · exact .inl (hs m hne hsp)
    · exact .inr (ha.of_timers rfl)
  · intro m next ht
    obtain rfl := hr m next ht
    exact .inr hn

/-- The node that the old stage may spare on top does not run. -/
theorem ignore (h : Guarded t w c) (hf : (c.run.markFailed n).1 = false) (htend : Tended t' w c)
    (hs : ∀ m, m ≠ n → t.spares m → t'.spares m) (hr : ∀ n next, t' = .relieving n next → next.spares n)
    (he : t' ≠ .entering) : Guarded t' w c := by
  refine ⟨htend, ?_, fun n next ht => .inl (hr n next ht), fun h => absurd h he⟩
  intro m hm
  have hne : m ≠ n := by
    rintro rfl
    rw [← Bool.not_eq_true, markFailed_fst] at hf
    exact hf (.inl hm)
  exact (h.armed m hm).imp_left (hs m hne)

/-- A stage that spares every node. -/
theorem of_spares (htend : Tended t w c) (hs : ∀ n, t.spares n) (hr : t.relieves = false)
    (he : t ≠ .entering) : Guarded t w c := by
  refine ⟨htend, fun n _ => .inl (hs n), ?_, fun h => absurd h he⟩
  rintro n next rfl
  cases hr

end Guarded

theorem spares_ofEvent {event : LoopEvent} (h : TimesOut n event) : (Stage.ofEvent event).spares n := by
  obtain ⟨phase, rfl⟩ := h
  cases phase with
  | startup => exact .inl rfl
  | runtime => exact rfl

theorem relieved_ofEvent {event : LoopEvent} {next : Stage} (h : Stage.ofEvent event = .relieving n next) :
    next.spares n := by
  rcases event with _ | _ | _ | (_ | (_ | _ | _ | _)) | (_ | (_ | _)) <;> cases h
  exact .inl rfl

theorem Moves.guarded (hm : Moves t c t' c') (h : Guarded t w c) : Guarded t' w c' := by
  have htend := hm.tended h.tended
  have hno : ∀ {t : Stage}, t.relieves = false → ∀ n next, t = .relieving n next → next.spares n := by
    rintro _ ht n next rfl
    cases ht
  cases hm with
  | rehydrates => exact .of_spares htend (fun _ => rfl) rfl Stage.noConfusion
  | begins hc =>
      refine ⟨htend, ?_, fun _ _ => Stage.noConfusion, fun h => by cases h⟩
      intro n hn
      exact absurd hn (h.entered rfl hc n)
  | event event =>
      refine h.next htend rfl rfl (fun n => spares_ofEvent) (fun n next => relieved_ofEvent) ?_
      rcases event with _ | _ | _ | (_ | (_ | _ | _ | _)) | (_ | (_ | _)) <;> exact Stage.noConfusion
  | aborts => exact .of_spares htend (fun _ => trivial) rfl Stage.noConfusion
  | completes => exact .of_spares htend (fun _ => trivial) rfl Stage.noConfusion
  | waits => exact h.next htend rfl rfl (by simp [Stage.spares, Caller.rehydrates]) (hno rfl) Stage.noConfusion
  | folds =>
      exact h.next htend rfl rfl (by simp [Stage.spares, Stage.rehydrates, Caller.rehydrates]) (hno rfl)
        Stage.noConfusion
  | promotes => exact .of_spares htend (fun _ => rfl) rfl Stage.noConfusion
  | unread => exact h.next htend rfl rfl (fun _ => id) (hno rfl) Stage.noConfusion
  | folded => exact .of_spares htend (fun _ => rfl) rfl Stage.noConfusion
  | reconciled =>
      exact h.next htend rfl rfl (by simp [Stage.spares, Stage.rehydrates]) (hno rfl) Stage.noConfusion
  | skip => exact h.next htend rfl rfl (fun _ => id) (hno rfl) Stage.noConfusion
  | fold =>
      refine h.next htend rfl rfl (fun _ => .inr) ?_ Stage.noConfusion
      rintro n next ⟨rfl, rfl⟩
      exact .inl rfl
  | promoted => exact .of_spares htend (fun _ => rfl) rfl Stage.noConfusion
  | unpromoted => exact .of_spares htend (fun _ => rfl) rfl Stage.noConfusion
  | promote => exact .of_spares htend (fun _ => rfl) rfl Stage.noConfusion
  | rearm => exact h.next htend rfl rfl (by simp [Stage.spares]) (hno rfl) Stage.noConfusion
  | rehydrated => exact h.next htend rfl rfl (by simp [Stage.spares]) (hno rfl) Stage.noConfusion
  | stalled => exact .of_spares htend (fun _ => trivial) rfl Stage.noConfusion
  | switched =>
      exact h.next htend rfl rfl (by simp [Stage.spares, Stage.rehydrates]) (hno rfl) Stage.noConfusion
  | switch =>
      refine h.next htend rfl rfl (by simp [Stage.spares, Stage.rehydrates]) ?_ Stage.noConfusion
      rintro n next ⟨rfl, rfl⟩
      exact .inl rfl
  | late hf =>
      refine h.ignore hf htend ?_ (hno rfl) Stage.noConfusion
      intro m hne hs
      exact absurd hs hne
  | time hf =>
      refine h.mark (marks_markFailed _ _) (lookup_markFailed _ _).1 htend ?_ (by simp) Stage.noConfusion
      intro m hne hs
      exact absurd hs hne
  | ignore hf =>
      refine h.ignore hf htend ?_ (hno rfl) Stage.noConfusion
      intro m hne hs
      exact .inr (hs.resolve_left hne)
  | fail hf =>
      refine h.mark (marks_markFailed _ _) (lookup_markFailed _ _).1 htend ?_ ?_ Stage.noConfusion
      · intro m hne hs
        exact hs.resolve_left hne
      · rintro m next ⟨rfl, rfl⟩
        rfl
  | succeed =>
      refine h.mark (marks_markSuccess _ _) (lookup_markSuccess _ _).1 htend ?_ (by simp) Stage.noConfusion
      intro m hne hs
      exact hs.resolve_left hne
  | unsucceed =>
      refine h.mark (marks_markFailed _ _) (lookup_markFailed _ _).1 htend ?_ (by simp) Stage.noConfusion
      intro m hne hs
      exact hs.resolve_left hne
  | failFast => exact .of_spares htend (fun _ => .inl rfl) rfl Stage.noConfusion
  | goesOn => exact h.next htend rfl rfl (fun _ => id) (hno rfl) Stage.noConfusion
  | dispatched => exact h.next htend rfl rfl (fun _ => .inr) (hno rfl) Stage.noConfusion
  | @unknown _ n rest k hinfo =>
      have hm := marks_markDispatchFailed c.run n
      refine ⟨htend, ?_, fun _ _ => Stage.noConfusion, Stage.noConfusion⟩
      intro m hrun
      rcases hm.lookup_eq hrun with hold | ⟨_, ha⟩
      · exact (h.armed m hold).imp_right fun ha => ha.of_timers rfl
      · cases ha
  | unarmed hn hnext =>
      refine ⟨htend, h.armed, ?_, ?_⟩
      · rintro n next rfl
        cases hnext
      · rintro rfl
        cases hnext
  | @relieve _ n next timer hn =>
      refine ⟨htend, ?_, fun _ _ => Stage.noConfusion, Stage.noConfusion⟩
      intro m hm
      rcases h.armed m hm with hs | ha
      · exact .inl hs
      · by_cases he : m = n
        · subst he
          exact .inl ((h.relieved m next rfl).resolve_right fun hno => hno hm)
        · exact .inr (ha.remove he)
  | terminated => exact .of_spares htend (fun _ => trivial) rfl Stage.noConfusion
  | relieves n =>
      refine ⟨htend, fun _ _ => .inl trivial, ?_, Stage.noConfusion⟩
      rintro n next ⟨rfl, rfl⟩
      exact .inl trivial
  | unwatches => exact .of_spares htend (fun _ => trivial) rfl Stage.noConfusion
  | ends => exact .of_spares htend (fun _ => trivial) rfl Stage.noConfusion
  | leaves => exact .of_spares htend (fun _ => trivial) rfl Stage.noConfusion
  | gone => exact .of_spares htend (fun _ => trivial) rfl Stage.noConfusion

theorem saved_spares {change : Change} {k : Caller} (b : Bool) (h : (Stage.saving change k).spares n) :
    (change.next k b).spares n := by
  cases change with
  | completed m success => cases b with
    | true => exact h
    | false => exact .inl rfl
  | failed m reason => cases b with
    | true => exact h
    | false => exact .inl rfl
  | timedOut m => cases b with
    | true => exact h
    | false => exact .inl rfl
  | promoted m => exact h
  | started m rest => exact h
  | refused m rest => exact h

/-- Behind a dispatch the node may run, and its timer is still to be armed. -/
theorem dispatched_armed {rest : List String} {k : Caller} (h : Guarded (.dispatching (n :: rest) k) w c)
    (r : Except DispatchError Unit) (m : String)
    (hm : (afterDispatch c n r).run.statuses.lookup m = some .running) :
    (Stage.dispatched c.run n rest k r).spares m ∨ Armed w (afterDispatch c n r) m := by
  cases r with
  | error e =>
      rcases (marks_markDispatchFailed c.run n).lookup_eq hm with hold | ⟨_, ha⟩
      · exact (h.armed m hold).imp_right fun ha => ha.of_timers rfl
      · cases ha
  | ok _ =>
      show (if _ then _ else _ : Stage).spares m ∨ _
      split
      · rcases (marks_markRunning c.run n).lookup_eq hm with hold | ⟨rfl, _⟩
        · exact (h.armed m hold).imp .inr fun ha => ha.of_timers rfl
        · exact .inl (.inl rfl)
      · rename_i hf
        have hold : c.run.statuses.lookup m = some .running := by
          rw [← markRunning_of_false (Bool.eq_false_iff.mpr hf)]
          exact hm
        exact (h.armed m hold).imp_right fun ha => ha.of_timers rfl

theorem dispatched_guarded {rest : List String} {k : Caller}
    (h : Guarded (.dispatching (n :: rest) k) w c) (r : Except DispatchError Unit)
    (htend : Tended (.dispatched c.run n rest k r) w (afterDispatch c n r)) :
    Guarded (.dispatched c.run n rest k r) w (afterDispatch c n r) := by
  have hres := dispatched_resumes c.run n rest k r
  refine ⟨htend, ?_, ?_, fun he => absurd he (Stage.ne_entering_of_resumes hres)⟩
  · exact dispatched_armed h r
  · intro m next he
    rw [he] at hres
    cases hres

theorem Asks.guarded {e : Effect} {k : Resp e → Stage × Coordinator} (hk : Asks t c e k)
    (h : Guarded t w c) {r : Resp e} (hr : w.Fits e r) : Guarded (k r).1 (w.after e) (k r).2 := by
  have htend := hk.tended h.tended hr
  have hno : ∀ {t : Stage}, t.relieves = false → ∀ n next, t = .relieving n next → next.spares n := by
    rintro _ ht n next rfl
    cases ht
  cases hk with
  | idle he ht =>
      rw [he.after]
      exact h
  | part he =>
      rw [he.after]
      exact h
  | renew =>
      show Guarded (if accepted r then .waiting else .quitting) w c
      split
      · rename_i hacc
        simp only [hacc, ↓reduceIte] at htend
        exact h.next htend rfl rfl (by simp [Stage.spares, Stage.rehydrates]) (hno rfl) Stage.noConfusion
      · rename_i hacc
        simp only [hacc, Bool.false_eq_true, ↓reduceIte] at htend
        exact .of_spares htend (fun _ => trivial) rfl Stage.noConfusion
  | subscribe =>
      rcases r with e | ⟨⟩
      · exact .of_spares htend (fun _ => trivial) rfl Stage.noConfusion
      · exact h.next htend rfl rfl (by simp [Stage.spares, Stage.rehydrates]) (hno rfl) Stage.noConfusion
  | gather => exact h.next htend rfl rfl (fun _ => id) (hno rfl) Stage.noConfusion
  | read => exact h.next htend rfl rfl (fun _ => id) (hno rfl) Stage.noConfusion
  | walk => exact h.next htend rfl rfl (fun _ => id) (hno rfl) Stage.noConfusion
  | sift => exact .of_spares htend (fun _ => rfl) rfl Stage.noConfusion
  | probe =>
      rcases r with e | _ | _
      · exact h.next htend rfl rfl (fun _ => .inr) (hno rfl) Stage.noConfusion
      · exact h.next htend rfl rfl (fun _ => .inr) (hno rfl) Stage.noConfusion
      · exact h.next htend rfl rfl (fun _ => .inr) (hno rfl) Stage.noConfusion
  | clock => exact .of_spares htend (fun _ => rfl) rfl Stage.noConfusion
  | rearm =>
      refine ⟨htend, ?_, fun _ _ => Stage.noConfusion, Stage.noConfusion⟩
      intro n hn
      left
      show n ∈ r.1
      rw [← List.mem_toFinset, r.2.2, mem_nodesWith]
      exact ⟨_, hn, rfl⟩
  | @save _ change k' =>
      have hnext := next_resumes change k' (accepted r)
      exact h.next htend (afterSave_run c r) (afterSave_timers c r) (fun n => saved_spares _)
        (hno (Stage.relieves_of_resumes hnext)) (Stage.ne_entering_of_resumes hnext)
  | register => exact h.next htend rfl rfl (fun _ => id) (hno rfl) Stage.noConfusion
  | record => exact h.next htend rfl rfl (fun _ => id) (hno rfl) Stage.noConfusion
  | blame => exact h.next htend rfl rfl (fun _ => id) (hno rfl) Stage.noConfusion
  | ready => exact h.next htend rfl rfl (fun _ => id) (hno rfl) Stage.noConfusion
  | dispatch => exact dispatched_guarded h r htend
  | abort hnext =>
      refine ⟨htend, ?_, ?_, ?_⟩
      · intro n hn
        exact (h.armed n hn).imp_right fun ha => ha.abort (h.tended.2 _ _ rfl)
      · rintro n next rfl
        cases hnext
      · rintro rfl
        cases hnext
  | @arm _ m phase next secs hnext =>
      cases hr
      refine ⟨htend, ?_, ?_, ?_⟩
      · intro n hn
        by_cases he : n = m
        · subst he
          exact .inr (.armed w c n phase)
        · exact (h.armed n hn).imp (·.resolve_left he) fun ha => ha.arm h.tended.1 he phase
      · rintro n next rfl
        cases hnext
      · rintro rfl
        cases hnext
  | close => exact .of_spares htend (fun _ => trivial) rfl Stage.noConfusion
  | terminate => exact .of_spares htend (fun _ => trivial) rfl Stage.noConfusion
  | conclude => exact .of_spares htend (fun _ => trivial) rfl Stage.noConfusion

/-- Each Running node is armed or spared, along every run. -/
def guarding : course.Invariant timers where
  holds := Guarded
  start w c h := by
    obtain ⟨rfl, hc⟩ := h
    exact ⟨tended_new hc, fun n _ => .inl rfl, fun _ _ => Stage.noConfusion, fun _ hre => hc.idle hre⟩
  move _ _ _ _ _ h hm := hm.guarded h
  ask t w c e k r w' h hk ha := by
    obtain ⟨hr, rfl⟩ := ha
    exact hk.guarded h hr
  deliver w c event w' h hw := by
    refine ⟨.of_keeps (h.tended.1.take hw) fun _ _ => Stage.noConfusion, ?_, fun _ _ => Stage.noConfusion,
      fun he => by cases he⟩
    intro n hn
    rcases h.armed n hn with hs | ha
    · cases hs
    · exact ha.take hw
  drift t w c w' h hw :=
    ⟨⟨h.tended.1.drift hw, h.tended.2⟩, fun n hn => (h.armed n hn).imp_right fun ha => ha.drift hw,
      h.relieved, h.entered⟩
  restart _ _ _ _ _ _ h := h.elim

/-- No silent hang: whenever a coordinator waits, no node is ready, some node runs, and each Running node has
a timer that is live or whose message is in the queue. -/
theorem waiting_moves {w : Runtime} {c : Coordinator} (h : timers.Reaches coordinator w (.ret c none)) :
    c.run.readyNodes = ∅ ∧ (∃ n, c.run.statuses.lookup n = some .running) ∧
      ∀ n, c.run.statuses.lookup n = some .running → Armed w c n := by
  obtain ⟨hready, hbusy⟩ := waiting_settled h
  refine ⟨hready, hbusy, fun n hn => ?_⟩
  have hg : Guarded .waiting w c := guarding.waiting Course.describes h
  rcases hg.armed n hn with hs | ha
  · cases hs
  · exact ha

/-- The coordinator of a new run waits for its first node, whose startup timer is live. -/
theorem waiting_moves_buildAndTest :
    ∃ w c, timers.Reaches coordinator w (.ret c none) ∧ c.run.readyNodes = ∅ ∧ Armed w c "build" := by
  let c₀ := freshCoordinator .default "run" .buildAndTest
  have h : timers.Leads coordinator .new (coordinator.start c₀) fun _ p =>
      ∃ c, p = .ret c none ∧ c.run.statuses.lookup "build" = some .running := by
    refine .call () _ ⟨trivial, rfl⟩ ?_
    refine .call (.ok ()) _ ⟨trivial, rfl⟩ ?_
    refine .call () _ ⟨trivial, rfl⟩ ?_
    refine .call () _ ⟨trivial, rfl⟩ ?_
    refine .call ⟨["build"], by decide⟩ _ ⟨trivial, rfl⟩ ?_
    refine .call (.ok ()) _ ⟨trivial, rfl⟩ ?_
    refine .call (.ok true) _ ⟨trivial, rfl⟩ ?_
    refine .call ⟨0, 0⟩ _ ⟨trivial, rfl⟩ ?_
    refine .call (.ok ()) _ ⟨trivial, rfl⟩ ?_
    refine .call (0 : Nat) _ ⟨rfl, rfl⟩ ?_
    exact .here ⟨_, rfl, by decide⟩
  obtain ⟨w, p, hr, c, rfl, hbuild⟩ := h.reaches ⟨rfl, begins_fresh _ _ _⟩
  obtain ⟨hready, _, harmed⟩ := waiting_moves hr
  exact ⟨w, c, hr, hready, harmed "build" hbuild⟩

end Jefferies.Coordination
