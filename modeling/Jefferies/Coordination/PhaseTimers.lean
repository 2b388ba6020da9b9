import Jefferies.Coordination.Timers

/-!
# One timer for each node

An insert into the map of timers drops the handle that it replaces without an abort. Where a node is
dispatched and where the timers of a rehydrated run are armed, a live timer can be replaced so; everywhere
else the old one is aborted first.
-/

namespace Jefferies.Coordination

open Pipelines StateStore RunHistory Interaction Coordinator PipelineRun

/-- No live timer is in the node's place. -/
def Free (w : Runtime) (c : Coordinator) (n : String) : Prop :=
  ∀ timer, c.nodePhaseHandles.lookup n = some timer → w.live.lookup timer.handle = none

/-- A node whose dispatch succeeds has no live timer, and no Running node has one when `rehydratePhaseTimers`
begins. -/
def FindsFree (w : Runtime) (c : Coordinator) : (e : Effect) → Resp e → Prop
  | .dispatch _ _ node _, .ok () => Free w c node.name
  | .systemTimeMs, _ => ∀ n, c.run.statuses.lookup n = some .running → Free w c n
  | _, _ => True

/-- The runs in which the places of the nodes are found free. -/
def timersKept : Surroundings Runtime Coordinator LoopEvent Resp := timers.within FindsFree fun _ _ _ => True

/-- The nodes that get a timer in the stage. -/
def Stage.armed : Stage → List String
  | .saving (.started n _) _ => [n]
  | .registering n _ _ => [n]
  | .rearmed _ names => names
  | .relieving _ next => next.armed
  | .aborting _ next => next.armed
  | .arming n _ next => n :: next.armed
  | _ => []

/-- Every live timer is in the place of its node, or about to be aborted; then its node has none there. The
places of the nodes that get a timer are free, or about to be relieved. -/
structure Placed (t : Stage) (w : Runtime) (c : Coordinator) : Prop where
  tended : Tended t w c
  named : NamesAgree c.nodeInfoCache
  placed : ∀ handle n phase, w.live.lookup handle = some (n, phase) →
    c.nodePhaseHandles.lookup n = some ⟨phase, handle⟩ ∨
      (∃ next, t = .aborting handle next) ∧ c.nodePhaseHandles.lookup n = none
  free : ∀ n ∈ t.armed, Free w c n ∨ ∃ next, t = .relieving n next
  distinct : t.armed.Nodup
  listed : ∀ m, t = .listing m → ∀ n, c.run.statuses.lookup n = some .running → Free w c n

variable {w w' : Runtime} {c c' : Coordinator} {t t' : Stage} {n m : String}

namespace Free

theorem of_timers (h : Free w c n) (hc : c'.nodePhaseHandles = c.nodePhaseHandles) : Free w c' n := by
  unfold Free
  rw [hc]
  exact h

theorem of_none (h : c.nodePhaseHandles.lookup n = none) : Free w c n := by
  intro timer hn
  rw [h] at hn
  cases hn

/-- A place stays free where no timer comes to life. -/
theorem of_live (h : Free w c n)
    (hw : ∀ {handle x}, w'.live.lookup handle = some x → w.live.lookup handle = some x) : Free w' c n := by
  intro timer hn
  by_contra hne
  obtain ⟨x, hx⟩ := Option.ne_none_iff_exists'.mp hne
  have hold := hw hx
  rw [h timer hn] at hold
  cases hold

theorem remove (h : Free w c n) (m : String) : Free w (c.removeTimer m) n := by
  intro timer hn
  exact h timer (lookup_removeTimer hn).2

theorem arm (h : Free w c n) (hw : Handles w c) (hne : n ≠ m) (phase : TimerPhase) :
    Free (w.spawn m phase) (c.setTimer m ⟨phase, w.next⟩) n := by
  intro timer hn
  rw [setTimer_timers, if_neg hne] at hn
  rw [Runtime.spawn, HashMap.lookup_insert_eq_ite, if_neg (hw.old n timer hn).ne]
  exact h timer hn

end Free

theorem Runtime.live_abort {handle handle' : Nat} {x : String × TimerPhase}
    (h : (w.abort handle').live.lookup handle = some x) : handle ≠ handle' ∧ w.live.lookup handle = some x := by
  rw [Runtime.abort, HashMap.lookup_erase_eq_ite] at h
  split at h
  · cases h
  · exact ⟨‹_›, h⟩

namespace Placed

/-- The timers stay, and the nodes that get one too. -/
theorem next (h : Placed t w c) (ht : t.Keeps) (hr : ∀ n next, t ≠ .relieving n next)
    (htend : Tended t' w c') (hc : c'.nodePhaseHandles = c.nodePhaseHandles)
    (hcache : c'.nodeInfoCache = c.nodeInfoCache) (harmed : t'.armed = t.armed ∨ t'.armed = [])
    (hl : ∀ m, t' ≠ .listing m) : Placed t' w c' := by
  refine ⟨htend, ?_, ?_, ?_, ?_, fun m he => absurd he (hl m)⟩
  · rw [hcache]
    exact h.named
  · intro handle n phase hlive
    rw [hc]
    rcases h.placed handle n phase hlive with hn | ⟨⟨next, he⟩, _⟩
    · exact .inl hn
    · exact absurd he (ht handle next)
  · intro n hn
    rcases harmed with he | he
    · rw [he] at hn
      rcases h.free n hn with hf | ⟨next, he⟩
      · exact .inl (hf.of_timers hc)
      · exact absurd he (hr n next)
    · rw [he] at hn
      cases hn
  · rcases harmed with he | he
    · rw [he]
      exact h.distinct
    · rw [he]
      exact .nil

/-- A timer that leaves its place is about to be aborted, and the place is free then. -/
theorem relieve {timer : PhaseTimer} {next : Stage} (h : Placed (.relieving n next) w c)
    (hn : c.nodePhaseHandles.lookup n = some timer)
    (htend : Tended (.aborting timer.handle next) w (c.removeTimer n)) :
    Placed (.aborting timer.handle next) w (c.removeTimer n) := by
  refine ⟨htend, h.named, ?_, ?_, h.distinct, fun _ => Stage.noConfusion⟩
  · intro handle m phase hl
    rw [removeTimer_timers]
    rcases h.placed handle m phase hl with hm | ⟨⟨next, he⟩, _⟩
    · by_cases hmn : m = n
      · subst hmn
        rw [hn] at hm
        cases hm
        exact .inr ⟨⟨next, rfl⟩, if_pos rfl⟩
      · rw [if_neg hmn]
        exact .inl hm
    · cases he
  · intro m hm
    left
    rcases h.free m hm with hf | ⟨next, he⟩
    · exact hf.remove n
    · cases he
      exact .of_none (by rw [removeTimer_timers, if_pos rfl])

theorem unarmed {next : Stage} (h : Placed (.relieving n next) w c)
    (hn : c.nodePhaseHandles.lookup n = none) (htend : Tended next w c) (hl : ∀ m, next ≠ .listing m) :
    Placed next w c := by
  refine ⟨htend, h.named, ?_, ?_, h.distinct, fun m he => absurd he (hl m)⟩
  · intro handle m phase hlive
    rcases h.placed handle m phase hlive with hm | ⟨⟨next, he⟩, _⟩
    · exact .inl hm
    · cases he
  · intro m hm
    left
    rcases h.free m hm with hf | ⟨next, he⟩
    · exact hf
    · cases he
      exact .of_none hn

theorem abort {handle : Nat} {next : Stage} (h : Placed (.aborting handle next) w c)
    (htend : Tended next (w.abort handle) c) (hl : ∀ m, next ≠ .listing m) :
    Placed next (w.abort handle) c := by
  refine ⟨htend, h.named, ?_, ?_, h.distinct, fun m he => absurd he (hl m)⟩
  · intro handle' n phase hlive
    obtain ⟨hne, hlive⟩ := Runtime.live_abort hlive
    rcases h.placed handle' n phase hlive with hn | ⟨⟨next', he⟩, _⟩
    · exact .inl hn
    · cases he
      exact absurd rfl hne
  · intro n hn
    left
    rcases h.free n hn with hf | ⟨next', he⟩
    · exact hf.of_live fun hx => (Runtime.live_abort hx).2
    · cases he

/-- A new timer finds its place free. -/
theorem arm {phase : TimerPhase} {next : Stage} (h : Placed (.arming n phase next) w c)
    (htend : Tended next (w.spawn n phase) (c.setTimer n ⟨phase, w.next⟩)) (hl : ∀ m, next ≠ .listing m) :
    Placed next (w.spawn n phase) (c.setTimer n ⟨phase, w.next⟩) := by
  have hfree : ∀ m ∈ n :: next.armed, Free w c m := by
    intro m hm
    rcases h.free m hm with hf | ⟨next', he⟩
    · exact hf
    · cases he
  obtain ⟨hnext, hdistinct⟩ := List.nodup_cons.mp h.distinct
  refine ⟨htend, h.named, ?_, ?_, hdistinct, fun m he => absurd he (hl m)⟩
  · intro handle m phase' hlive
    left
    rw [Runtime.spawn, HashMap.lookup_insert_eq_ite] at hlive
    split at hlive
    · rename_i he
      cases hlive
      rw [he, setTimer_timers, if_pos rfl]
    · rcases h.placed handle m phase' hlive with hm | ⟨⟨next, he⟩, _⟩
      · have hmn : m ≠ n := by
          rintro rfl
          rw [hfree m List.mem_cons_self _ hm] at hlive
          cases hlive
        rw [setTimer_timers, if_neg hmn, hm]
      · cases he
  · intro m hm
    left
    have hmn : m ≠ n := by
      rintro rfl
      exact hnext hm
    exact (hfree m (List.mem_cons_of_mem _ hm)).arm h.tended.1 hmn phase

end Placed

theorem Moves.placed (hm : Moves t c t' c') (h : Placed t w c) : Placed t' w c' := by
  have htend := hm.tended h.tended
  cases hm with
  | relieve hn => exact h.relieve hn htend
  | unarmed hn hnext => exact h.unarmed hn htend (Stage.ne_listing_of_resumes hnext)
  | event event =>
      apply h.next (fun _ _ => Stage.noConfusion) (fun _ _ => Stage.noConfusion) htend rfl rfl
      · right
        rcases event with _ | _ | _ | (_ | (_ | _ | _ | _)) | (_ | (_ | _)) <;> rfl
      · rcases event with _ | _ | _ | (_ | (_ | _ | _ | _)) | (_ | (_ | _)) <;> exact fun _ => Stage.noConfusion
  | @switch _ n =>
      refine ⟨htend, h.named, ?_, ?_, List.nodup_singleton n, fun _ => Stage.noConfusion⟩
      · intro handle m phase hlive
        rcases h.placed handle m phase hlive with hm | ⟨⟨next, he⟩, _⟩
        · exact .inl hm
        · cases he
      · intro m hm
        cases List.mem_singleton.mp hm
        exact .inr ⟨_, rfl⟩
  | rearm =>
      exact h.next (fun _ _ => Stage.noConfusion) (fun _ _ => Stage.noConfusion) htend rfl rfl (.inl rfl)
        fun _ => Stage.noConfusion
  | _ =>
      exact h.next (fun _ _ => Stage.noConfusion) (fun _ _ => Stage.noConfusion) htend rfl rfl (.inr rfl)
        fun _ => Stage.noConfusion

theorem next_armed (change : Change) (k : Caller) (b : Bool) :
    (change.next k b).armed = (Stage.saving change k).armed := by
  cases change <;> cases b <;> rfl

/-- Behind a dispatch the place of the node is free. -/
theorem Placed.dispatched {info : NodeInfo} {rest : List String} {k : Caller}
    (h : Placed (.dispatching (n :: rest) k) w c) (hinfo : c.nodeInfoCache.lookup n = some info)
    {r : Except DispatchError Unit}
    (hfree : FindsFree w c (.dispatch c.runId c.runContext.runMetadata info c.pipeline) r)
    (htend : Tended (.dispatched c.run n rest k r) w (afterDispatch c n r)) :
    Placed (.dispatched c.run n rest k r) w (afterDispatch c n r) := by
  have hname := h.named n info hinfo
  subst hname
  have hl := Stage.ne_listing_of_resumes (dispatched_resumes c.run info.name rest k r)
  have hnext : (Stage.dispatched c.run info.name rest k r).armed = [] →
      Placed (.dispatched c.run info.name rest k r) w (afterDispatch c info.name r) := by
    intro harmed
    exact h.next (fun _ _ => Stage.noConfusion) (fun _ _ => Stage.noConfusion) htend
      (afterDispatch_timers _ _ _) (by cases r <;> rfl) (.inr harmed) hl
  cases r with
  | error e => exact hnext rfl
  | ok _ =>
      cases hmark : (c.run.markRunning info.name).1 with
      | false => exact hnext (by simp [Stage.dispatched, hmark, Stage.armed])
      | true =>
          have harmed : (Stage.dispatched c.run info.name rest k (.ok ())).armed = [info.name] := by
            simp [Stage.dispatched, hmark, Stage.armed]
          refine ⟨htend, h.named, ?_, ?_, ?_, fun m he => absurd he (hl m)⟩
          · intro handle m phase hlive
            rcases h.placed handle m phase hlive with hm | ⟨⟨next, he⟩, _⟩
            · exact .inl hm
            · cases he
          · intro m hm
            rw [harmed] at hm
            cases List.mem_singleton.mp hm
            exact .inl hfree
          · rw [harmed]
            exact List.nodup_singleton _

theorem Asks.placed {e : Effect} {k : Resp e → Stage × Coordinator} (hk : Asks t c e k) (h : Placed t w c)
    {r : Resp e} (hr : w.Fits e r) (hfree : FindsFree w c e r) : Placed (k r).1 (w.after e) (k r).2 := by
  have htend := hk.tended h.tended hr
  have hstays : ∀ {t' : Stage}, t.Keeps → (∀ n next, t ≠ .relieving n next) → Tended t' w c →
      t'.armed = [] → (∀ m, t' ≠ .listing m) → Placed t' w c :=
    fun ht hr htend harmed hl => h.next ht hr htend rfl rfl (.inr harmed) hl
  cases hk with
  | idle he ht =>
      rw [he.after]
      exact h
  | part he =>
      rw [he.after]
      exact h
  | abort hnext => exact h.abort htend (Stage.ne_listing_of_resumes hnext)
  | arm secs hnext =>
      cases hr
      exact h.arm htend (Stage.ne_listing_of_resumes hnext)
  | save =>
      exact h.next (fun _ _ => Stage.noConfusion) (fun _ _ => Stage.noConfusion) htend (afterSave_timers _ _)
        (by rcases r with _ | _ | _ <;> rfl) (.inl (next_armed _ _ _))
        (Stage.ne_listing_of_resumes (next_resumes _ _ _))
  | dispatch hinfo => exact h.dispatched hinfo hfree htend
  | register =>
      exact h.next (fun _ _ => Stage.noConfusion) (fun _ _ => Stage.noConfusion) htend rfl rfl (.inl rfl)
        fun _ => Stage.noConfusion
  | clock =>
      refine ⟨htend, h.named, ?_, fun _ hn => (List.not_mem_nil hn).elim, .nil, fun _ _ => hfree⟩
      intro handle m phase hlive
      rcases h.placed handle m phase hlive with hm | ⟨⟨next, he⟩, _⟩
      · exact .inl hm
      · cases he
  | @rearm _ outcomes =>
      refine ⟨htend, h.named, ?_, ?_, r.2.1, fun _ => Stage.noConfusion⟩
      · intro handle m phase hlive
        rcases h.placed handle m phase hlive with hm | ⟨⟨next, he⟩, _⟩
        · exact .inl hm
        · cases he
      · intro n (hn : n ∈ r.1)
        left
        rw [← List.mem_toFinset, r.2.2, mem_nodesWith] at hn
        obtain ⟨s, hs, hrunning⟩ := hn
        exact h.listed outcomes rfl n (by simpa [hs] using hrunning)
  | renew =>
      show Placed (if accepted r then .waiting else .quitting) w c
      split
      · rename_i hacc
        simp only [hacc, ↓reduceIte] at htend
        exact hstays (fun _ _ => Stage.noConfusion) (fun _ _ => Stage.noConfusion) htend rfl
          fun _ => Stage.noConfusion
      · rename_i hacc
        simp only [hacc, Bool.false_eq_true, ↓reduceIte] at htend
        exact hstays (fun _ _ => Stage.noConfusion) (fun _ _ => Stage.noConfusion) htend rfl
          fun _ => Stage.noConfusion
  | subscribe =>
      rcases r with e | ⟨⟩ <;> exact hstays (fun _ _ => Stage.noConfusion) (fun _ _ => Stage.noConfusion) htend
        rfl fun _ => Stage.noConfusion
  | probe =>
      rcases r with e | _ | _ <;> exact hstays (fun _ _ => Stage.noConfusion) (fun _ _ => Stage.noConfusion)
        htend rfl fun _ => Stage.noConfusion
  | _ =>
      exact hstays (fun _ _ => Stage.noConfusion) (fun _ _ => Stage.noConfusion) htend rfl
        fun _ => Stage.noConfusion

/-- Where the places are found free, every live timer stays in its place. -/
def placing : course.Invariant timersKept where
  holds := Placed
  start w c h := by
    obtain ⟨rfl, hc⟩ := h
    refine ⟨tended_new hc, hc.named, ?_, fun _ hn => (List.not_mem_nil hn).elim, .nil, fun _ => Stage.noConfusion⟩
    intro handle n phase hl
    simp [Runtime.new] at hl
  move _ _ _ _ _ h hm := hm.placed h
  ask t w c e k r w' h hk ha := by
    obtain ⟨hfree, hr, rfl⟩ := ha
    exact hk.placed h hr hfree
  deliver w c event w' h hw := by
    refine ⟨.of_keeps (h.tended.1.take hw.2) fun _ _ => Stage.noConfusion, h.named, ?_,
      fun _ hn => (List.not_mem_nil hn).elim, .nil, fun _ => Stage.noConfusion⟩
    intro handle n phase hl
    rw [(Runtime.take_live hw.2).1] at hl
    rcases h.placed handle n phase hl with hn | ⟨⟨next, he⟩, _⟩
    · exact .inl hn
    · cases he
  drift t w c w' h hw := by
    refine ⟨⟨h.tended.1.drift hw, h.tended.2⟩, h.named, ?_, ?_, h.distinct, ?_⟩
    · intro handle n phase hl
      exact h.placed handle n phase (hw.live hl)
    · intro n hn
      exact (h.free n hn).imp_left fun hf => hf.of_live hw.live
    · intro m he n hn
      exact (h.listed m he n hn).of_live hw.live
  restart _ _ _ _ _ _ h := h.elim

/-- What a coordinator does while a timer is about to be aborted. -/
theorem Asks.of_aborting {e : Effect} {handle : Nat} {next : Stage} {k : Resp e → Stage × Coordinator}
    (hk : Asks (.aborting handle next) c e k) : e = .abortTimer handle := by
  cases hk with
  | idle _ ht => cases ht
  | abort => rfl

/-- One live timer per node: it is the one in the place of its node, from which `cancelNodeTimeout` takes it
to abort it. -/
theorem live_timer_placed {w : Runtime} {p : Prog Coordinator Resp (Option RunSummary)}
    (h : timersKept.Reaches coordinator w p) :
    (∀ handle handle' n phase phase', w.live.lookup handle = some (n, phase) →
      w.live.lookup handle' = some (n, phase') → handle = handle') ∧
    ∀ handle n phase, w.live.lookup handle = some (n, phase) →
      p.state.nodePhaseHandles.lookup n = some ⟨phase, handle⟩ ∨ p.pending = some (.abortTimer handle) := by
  have hplaced : ∃ t, Placed t w p.state ∧
      ∀ handle next, t = .aborting handle next → p.pending = some (.abortTimer handle) := by
    obtain ⟨t, s, hJ, hF⟩ := placing.reaches Course.describes h
    cases p with
    | ret c r =>
        obtain ⟨t', hJ', ht⟩ := placing.at_ret hJ hF
        refine ⟨t', hJ', ?_⟩
        rintro handle next rfl
        cases r <;> cases ht
    | call c e k =>
        obtain ⟨t', k', hJ', hk, _⟩ := placing.at_call hJ hF
        refine ⟨t', hJ', ?_⟩
        rintro handle next rfl
        rw [Prog.pending, hk.of_aborting]
  obtain ⟨t, hp, habort⟩ := hplaced
  constructor
  · intro handle handle' n phase phase' hl hl'
    rcases hp.placed handle n phase hl with hn | ⟨⟨next, ht⟩, hn⟩
    · rcases hp.placed handle' n phase' hl' with hn' | ⟨_, hn'⟩
      · rw [hn] at hn'
        cases hn'
        rfl
      · rw [hn] at hn'
        cases hn'
    · rcases hp.placed handle' n phase' hl' with hn' | ⟨⟨next', ht'⟩, _⟩
      · rw [hn] at hn'
        cases hn'
      · rw [ht] at ht'
        cases ht'
        rfl
  · intro handle n phase hl
    exact (hp.placed handle n phase hl).imp_right fun ⟨⟨next, ht⟩, _⟩ => habort handle next ht

/-- The coordinator of a new run has armed the startup timer of its first node. -/
theorem live_timer_placed_buildAndTest :
    ∃ w p, timersKept.Reaches coordinator w p ∧ w.live.lookup 0 = some ("build", .startup) ∧
      (p.state.nodePhaseHandles.lookup "build" = some ⟨.startup, 0⟩ ∨ p.pending = some (.abortTimer 0)) := by
  let c₀ := freshCoordinator .default "run" .buildAndTest
  have h : timersKept.Leads coordinator .new (coordinator.start c₀) fun w _ =>
      w.live.lookup 0 = some ("build", .startup) := by
    refine .call () _ ⟨trivial, trivial, rfl⟩ ?_
    refine .call (.ok ()) _ ⟨trivial, trivial, rfl⟩ ?_
    refine .call () _ ⟨trivial, trivial, rfl⟩ ?_
    refine .call () _ ⟨trivial, trivial, rfl⟩ ?_
    refine .call ⟨["build"], by decide⟩ _ ⟨trivial, trivial, rfl⟩ ?_
    refine .call (.ok ()) _ ⟨Free.of_none rfl, trivial, rfl⟩ ?_
    refine .call (.ok true) _ ⟨trivial, trivial, rfl⟩ ?_
    refine .call ⟨0, 0⟩ _ ⟨trivial, trivial, rfl⟩ ?_
    refine .call (.ok ()) _ ⟨trivial, trivial, rfl⟩ ?_
    refine .call (0 : Nat) _ ⟨trivial, rfl, rfl⟩ ?_
    exact .here (by decide)
  obtain ⟨w, p, hr, hlive⟩ := h.reaches ⟨rfl, begins_fresh _ _ _⟩
  exact ⟨w, p, hr, hlive, (live_timer_placed hr).2 0 "build" .startup hlive⟩

/-- A run in which build has completed in S3 but not in the stored state: the fold dispatches test and arms
its timer, and then `rehydratePhaseTimers` arms another one for it. -/
theorem live_timers_two :
    ∃ w p, timers.Reaches coordinator w p ∧ w.live.lookup 0 = some ("test", .startup) ∧
      w.live.lookup 1 = some ("test", .runtime) ∧
      p.state.nodePhaseHandles.lookup "test" = some ⟨.runtime, 1⟩ := by
  let state := ((PipelineRun.new Pipeline.buildAndTest.nodeInfo).markRunning "build").2.toRunState 1 .buildAndTest
  let c₀ := rehydratedCoordinator .default "run" .buildAndTest state
  have h : timers.Leads coordinator .new (coordinator.start c₀) fun w p =>
      w.live.lookup 0 = some ("test", .startup) ∧ w.live.lookup 1 = some ("test", .runtime) ∧
        p.state.nodePhaseHandles.lookup "test" = some ⟨.runtime, 1⟩ := by
    refine .call () _ ⟨trivial, rfl⟩ ?_
    refine .call ⟨["build", "test"], by decide⟩ _ ⟨trivial, rfl⟩ ?_
    refine .call (some (HashMap.ofList [("build", .completed true none 0)])) _ ⟨trivial, rfl⟩ ?_
    refine .call ⟨["build"], by decide⟩ _ ⟨trivial, rfl⟩ ?_
    refine .call (.ok true) _ ⟨trivial, rfl⟩ ?_
    refine .call (.ok none) _ ⟨trivial, rfl⟩ ?_
    refine .call (.ok none) _ ⟨trivial, rfl⟩ ?_
    refine .call ⟨0, 0⟩ _ ⟨trivial, rfl⟩ ?_
    refine .call (.ok ()) _ ⟨trivial, rfl⟩ ?_
    refine .call ⟨["test"], by decide⟩ _ ⟨trivial, rfl⟩ ?_
    refine .call (.ok ()) _ ⟨trivial, rfl⟩ ?_
    refine .call (.ok true) _ ⟨trivial, rfl⟩ ?_
    refine .call ⟨0, 0⟩ _ ⟨trivial, rfl⟩ ?_
    refine .call (.ok ()) _ ⟨trivial, rfl⟩ ?_
    refine .call (0 : Nat) _ ⟨rfl, rfl⟩ ?_
    refine .call ⟨["build"], by decide⟩ _ ⟨trivial, rfl⟩ ?_
    refine .call (0 : Nat) _ ⟨trivial, rfl⟩ ?_
    refine .call ⟨["test"], by decide⟩ _ ⟨trivial, rfl⟩ ?_
    refine .call (.ok none) _ ⟨trivial, rfl⟩ ?_
    refine .call (1 : Nat) _ ⟨rfl, rfl⟩ ?_
    exact .here ⟨by decide, by decide, by decide⟩
  obtain ⟨w, p, hr, hlive⟩ := h.reaches ⟨rfl, begins_rehydrated _ _ _ _⟩
  exact ⟨w, p, hr, hlive⟩

end Jefferies.Coordination
