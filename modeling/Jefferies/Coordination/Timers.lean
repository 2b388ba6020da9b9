import Jefferies.Coordination.Readiness

/-!
# Timers and the internal queue

The runtime around a coordinator: its timer tasks and its internal queue. A timer whose time is over puts a
message in the queue, as the relay of the pod watcher does, at any moment; only an abort stops a timer.
-/

namespace Jefferies.Coordination

open Pipelines StateStore RunHistory Interaction Coordinator PipelineRun

/-- The timer tasks that have neither ended nor been aborted, each with its node and phase, and the internal
queue, oldest message first. `switching` is the node of the NodePodRunning that the coordinator took up last;
`switched` are the nodes whose runtime timer it has armed upon one. -/
structure Runtime where
  live : HashMap Nat (String × TimerPhase)
  queue : List CoordinatorMessage
  next : Nat
  switching : Option String
  switched : Finset String

/-- What a timer sends when its time is over. -/
def timeoutMessage (nodeName : String) : TimerPhase → CoordinatorMessage
  | .startup => .nodePodStartTimedOut nodeName
  | .runtime => .nodeTimedOut nodeName

namespace Runtime

def new : Runtime := ⟨∅, [], 0, none, ∅⟩

def spawn (self : Runtime) (nodeName : String) (phase : TimerPhase) : Runtime :=
  { self with
    live := self.live.insert self.next (nodeName, phase)
    next := self.next + 1
    switched :=
      if phase = .runtime ∧ self.switching = some nodeName then insert nodeName self.switched
      else self.switched }

def abort (self : Runtime) (handle : Nat) : Runtime := { self with live := self.live.erase handle }

def send (self : Runtime) (msg : CoordinatorMessage) : Runtime := { self with queue := self.queue ++ [msg] }

/-- The timer's time is over. -/
def expire (self : Runtime) (handle : Nat) (nodeName : String) (phase : TimerPhase) : Runtime :=
  (self.abort handle).send (timeoutMessage nodeName phase)

/-- What a call does to the runtime. -/
def after (self : Runtime) : Effect → Runtime
  | .spawnTimer _ nodeName phase _ => self.spawn nodeName phase
  | .abortTimer handle => self.abort handle
  | _ => self

/-- A new task has a handle of its own. -/
def Fits (self : Runtime) : (e : Effect) → Resp e → Prop
  | .spawnTimer .., handle => handle = self.next
  | _, _ => True

/-- The node that an event reports as running. -/
def reported : LoopEvent → Option String
  | .internal (some (.nodePodRunning nodeName)) => some nodeName
  | _ => none

/-- The select loop takes the event; a message comes from the head of the queue, and the queue never closes,
as the coordinator holds a sender of its own. -/
def take (self : Runtime) (event : LoopEvent) : Option Runtime :=
  match event, self.queue with
  | .internal (some msg), head :: rest =>
      if head = msg then some { self with queue := rest, switching := reported event } else none
  | .internal _, _ => none
  | _, _ => some { self with switching := none }

end Runtime

/-- The messages that the relay of the pod watcher sends. -/
def IsSignal : CoordinatorMessage → Prop
  | .nodePodRunning _ => True
  | .nodeInfraFailed _ _ => True
  | _ => False

/-- What happens without the coordinator. -/
inductive Runtime.Drifts : Runtime → Runtime → Prop
  | expires {w handle nodeName phase} : w.live.lookup handle = some (nodeName, phase) →
      Drifts w (w.expire handle nodeName phase)
  | signals {w msg} : IsSignal msg → Drifts w (w.send msg)

/-- One coordinator and its runtime. The other services answer in every way. -/
def timers : Surroundings Runtime Coordinator LoopEvent Resp where
  starts w c := w = .new ∧ Begins c
  answers w _ e r w' := w.Fits e r ∧ w' = w.after e
  delivers w _ event w' := w.take event = some w'
  drifts := Runtime.Drifts
  restarts _ _ _ := False

/-! ## Handles -/

/-- The handles in the places of the nodes are old ones, each is in the place of one node, and a live one
belongs to this node and phase. -/
structure Handles (w : Runtime) (c : Coordinator) : Prop where
  old : ∀ n timer, c.nodePhaseHandles.lookup n = some timer → timer.handle < w.next
  distinct : ∀ n m timer timer', c.nodePhaseHandles.lookup n = some timer →
    c.nodePhaseHandles.lookup m = some timer' → timer.handle = timer'.handle → n = m
  own : ∀ n timer x, c.nodePhaseHandles.lookup n = some timer → w.live.lookup timer.handle = some x →
    x = (n, timer.phase)

/-- No node has the handle in its place. -/
def Dropped (c : Coordinator) (handle : Nat) : Prop :=
  ∀ n timer, c.nodePhaseHandles.lookup n = some timer → timer.handle ≠ handle

variable {w w' : Runtime} {c c' : Coordinator} {t t' : Stage} {n m : String} {timer : PhaseTimer}

theorem Handles.of_timers (h : Handles w c) (hc : c'.nodePhaseHandles = c.nodePhaseHandles) : Handles w c' := by
  constructor
  · rw [hc]
    exact h.old
  · rw [hc]
    exact h.distinct
  · rw [hc]
    exact h.own

@[simp] theorem removeTimer_timers (c : Coordinator) (n m : String) :
    (c.removeTimer n).nodePhaseHandles.lookup m = if m = n then none else c.nodePhaseHandles.lookup m :=
  HashMap.lookup_erase_eq_ite ..

@[simp] theorem setTimer_timers (c : Coordinator) (n m : String) (timer : PhaseTimer) :
    (c.setTimer n timer).nodePhaseHandles.lookup m =
      if m = n then some timer else c.nodePhaseHandles.lookup m :=
  HashMap.lookup_insert_eq_ite ..

theorem lookup_removeTimer (h : (c.removeTimer n).nodePhaseHandles.lookup m = some timer) :
    m ≠ n ∧ c.nodePhaseHandles.lookup m = some timer := by
  rw [removeTimer_timers] at h
  split at h
  · cases h
  · exact ⟨‹_›, h⟩

/-- A timer that leaves its place is in no other one. -/
theorem Handles.remove (h : Handles w c) (hn : c.nodePhaseHandles.lookup n = some timer) :
    Handles w (c.removeTimer n) ∧ Dropped (c.removeTimer n) timer.handle := by
  constructor
  · constructor
    · intro m timer' hm
      exact h.old m timer' (lookup_removeTimer hm).2
    · intro m m' timer' timer'' hm hm' he
      exact h.distinct m m' timer' timer'' (lookup_removeTimer hm).2 (lookup_removeTimer hm').2 he
    · intro m timer' x hm hx
      exact h.own m timer' x (lookup_removeTimer hm).2 hx
  · intro m timer' hm he
    obtain ⟨hne, hm⟩ := lookup_removeTimer hm
    exact hne (h.distinct m n timer' timer hm hn he)

theorem Handles.abort (h : Handles w c) (handle : Nat) : Handles (w.abort handle) c := by
  constructor
  · exact h.old
  · exact h.distinct
  · intro n timer x hn hx
    apply h.own n timer x hn
    rw [Runtime.abort, HashMap.lookup_erase_eq_ite] at hx
    split at hx
    · cases hx
    · exact hx

theorem Handles.send (h : Handles w c) (msg : CoordinatorMessage) : Handles (w.send msg) c :=
  ⟨h.old, h.distinct, h.own⟩

/-- A new timer in the place of its node. -/
theorem Handles.arm (h : Handles w c) (n : String) (phase : TimerPhase) :
    Handles (w.spawn n phase) (c.setTimer n ⟨phase, w.next⟩) := by
  have hcases : ∀ {m timer}, (c.setTimer n ⟨phase, w.next⟩).nodePhaseHandles.lookup m = some timer →
      (m = n ∧ timer = ⟨phase, w.next⟩) ∨ (m ≠ n ∧ c.nodePhaseHandles.lookup m = some timer) := by
    intro m timer hm
    rw [setTimer_timers] at hm
    split at hm
    · exact .inl ⟨‹_›, (Option.some.inj hm).symm⟩
    · exact .inr ⟨‹_›, hm⟩
  constructor
  · intro m timer hm
    rcases hcases hm with ⟨_, rfl⟩ | ⟨_, hold⟩
    · exact Nat.lt_succ_self _
    · exact Nat.lt_succ_of_lt (h.old m timer hold)
  · intro m m' timer timer' hm hm' he
    rcases hcases hm with ⟨rfl, rfl⟩ | ⟨_, hold⟩
    · rcases hcases hm' with ⟨rfl, _⟩ | ⟨_, hold'⟩
      · rfl
      · exact absurd he (h.old m' timer' hold').ne'
    · rcases hcases hm' with ⟨rfl, rfl⟩ | ⟨_, hold'⟩
      · exact absurd he (h.old m timer hold).ne
      · exact h.distinct m m' timer timer' hold hold' he
  · intro m timer x hm hx
    rw [Runtime.spawn, HashMap.lookup_insert_eq_ite] at hx
    rcases hcases hm with ⟨rfl, rfl⟩ | ⟨_, hold⟩
    · rw [if_pos rfl] at hx
      exact (Option.some.inj hx).symm
    · rw [if_neg (h.old m timer hold).ne] at hx
      exact h.own m timer x hold hx

/-- What taking an event does to the runtime. -/
theorem Runtime.take_eq {event : LoopEvent} (hw : w.take event = some w') :
    ∃ queue, queue ⊆ w.queue ∧ w' = { w with queue := queue, switching := reported event } := by
  cases event with
  | internal msg =>
      cases msg with
      | none => cases hw
      | some msg =>
          unfold Runtime.take at hw
          cases hq : w.queue with
          | nil => simp [hq] at hw
          | cons head rest =>
              simp only [hq] at hw
              split at hw
              · cases hw
                exact ⟨rest, List.subset_cons_self _ _, rfl⟩
              · cases hw
  | _ =>
      cases hw
      exact ⟨w.queue, List.Subset.refl _, rfl⟩

theorem Runtime.take_live {event : LoopEvent} (hw : w.take event = some w') :
    w'.live = w.live ∧ w'.next = w.next := by
  obtain ⟨queue, _, rfl⟩ := Runtime.take_eq hw
  exact ⟨rfl, rfl⟩

theorem Handles.take {event : LoopEvent} (h : Handles w c) (hw : w.take event = some w') : Handles w' c := by
  obtain ⟨hlive, hnext⟩ := Runtime.take_live hw
  constructor
  · rw [hnext]
    exact h.old
  · exact h.distinct
  · rw [hlive]
    exact h.own

/-- Without the coordinator no timer comes to life. -/
theorem Runtime.Drifts.live (hw : w.Drifts w') {handle : Nat} {x : String × TimerPhase}
    (hl : w'.live.lookup handle = some x) : w.live.lookup handle = some x := by
  cases hw with
  | @expires handle' n phase _ =>
      have herase : (w.live.erase handle').lookup handle = some x := hl
      rw [HashMap.lookup_erase_eq_ite] at herase
      split at herase
      · cases herase
      · exact herase
  | signals _ => exact hl

theorem Handles.drift (h : Handles w c) (hw : w.Drifts w') : Handles w' c := by
  cases hw with
  | expires hl => exact (h.abort _).send _
  | signals hs => exact h.send _

/-! ## What the transitions do to the timers -/

@[simp] theorem afterSave_timers (c : Coordinator) (r : Except StateStoreError Bool) :
    (afterSave c r).nodePhaseHandles = c.nodePhaseHandles := by
  rcases r with _ | _ | _ <;> rfl

@[simp] theorem afterDispatch_timers (c : Coordinator) (n : String) (r : Except DispatchError Unit) :
    (afterDispatch c n r).nodePhaseHandles = c.nodePhaseHandles := by
  cases r <;> rfl

theorem Idle.after {e : Effect} (he : Idle c e) (w : Runtime) : w.after e = w := by cases he <;> rfl

theorem Parting.after {status : RunStatus} {e : Effect} (he : Parting c status e) (w : Runtime) :
    w.after e = w := by
  cases he <;> rfl

/-- No timer is about to be aborted. -/
def Stage.Keeps (t : Stage) : Prop := ∀ handle next, t ≠ .aborting handle next

theorem Stage.keeps_of_resumes (h : t.resumes = true) : t.Keeps := by
  rintro handle next rfl
  cases h

theorem keeps_ofEvent (event : LoopEvent) : (Stage.ofEvent event).Keeps := by
  intro handle next
  rcases event with _ | _ | _ | (_ | (_ | _ | _ | _)) | (_ | (_ | _)) <;> exact Stage.noConfusion

/-- What the coordinator computes leaves the timers alone, unless it takes one out of its place to abort
it. -/
theorem Moves.timers (hm : Moves t c t' c') :
    (c'.nodePhaseHandles = c.nodePhaseHandles ∧ t'.Keeps) ∨
      ∃ n next timer, t = .relieving n next ∧ t' = .aborting timer.handle next ∧
        c.nodePhaseHandles.lookup n = some timer ∧ c' = c.removeTimer n := by
  cases hm with
  | relieve h => exact .inr ⟨_, _, _, rfl, rfl, h, rfl⟩
  | unarmed _ hnext => exact .inl ⟨rfl, Stage.keeps_of_resumes hnext⟩
  | event event => exact .inl ⟨rfl, keeps_ofEvent event⟩
  | _ => exact .inl ⟨rfl, fun _ _ => Stage.noConfusion⟩

/-- The handles are in order, and the one that is about to be aborted is in no place. -/
def Tended (t : Stage) (w : Runtime) (c : Coordinator) : Prop :=
  Handles w c ∧ ∀ handle next, t = .aborting handle next → Dropped c handle

theorem Tended.of_keeps (h : Handles w c) (ht : t.Keeps) : Tended t w c :=
  ⟨h, fun handle next he => absurd he (ht handle next)⟩

theorem tended_new (hc : Begins c) : Tended .entering .new c := by
  have hnone : ∀ n, c.nodePhaseHandles.lookup n = none := by simp [hc.timers]
  refine .of_keeps ⟨?_, ?_, ?_⟩ fun _ _ => Stage.noConfusion
  · intro n timer hn
    simp [hnone] at hn
  · intro n m timer timer' hn
    simp [hnone] at hn
  · intro n timer x hn
    simp [hnone] at hn

theorem Moves.tended (hm : Moves t c t' c') (h : Tended t w c) : Tended t' w c' := by
  rcases hm.timers with ⟨hc, ht⟩ | ⟨n, next, timer, rfl, rfl, hn, rfl⟩
  · exact .of_keeps (h.1.of_timers hc) ht
  · obtain ⟨hr, hd⟩ := h.1.remove hn
    refine ⟨hr, ?_⟩
    rintro _ _ ⟨rfl, rfl⟩
    exact hd

/-- Only an answer to an abort or to a spawn changes the timers. -/
theorem Asks.tended {e : Effect} {k : Resp e → Stage × Coordinator} (hk : Asks t c e k) (h : Tended t w c)
    {r : Resp e} (hr : w.Fits e r) : Tended (k r).1 (w.after e) (k r).2 := by
  have hkeeps : ∀ {t : Stage} {c' : Coordinator}, c'.nodePhaseHandles = c.nodePhaseHandles →
      t.resumes = true → Tended t w c' :=
    fun hc ht => .of_keeps (h.1.of_timers hc) (Stage.keeps_of_resumes ht)
  cases hk with
  | idle he ht =>
      rw [he.after]
      exact h
  | part he =>
      rw [he.after]
      exact h
  | abort hnext => exact .of_keeps (h.1.abort _) (Stage.keeps_of_resumes hnext)
  | arm secs hnext =>
      cases hr
      exact .of_keeps (h.1.arm _ _) (Stage.keeps_of_resumes hnext)
  | save => exact hkeeps (by simp) (next_resumes _ _ _)
  | dispatch => exact hkeeps (by simp) (dispatched_resumes _ _ _ _ _)
  | renew =>
      apply hkeeps rfl
      show (if _ then _ else _ : Stage).resumes = true
      split <;> rfl
  | subscribe => rcases r with e | ⟨⟩ <;> exact hkeeps rfl rfl
  | clock => exact .of_keeps h.1 fun _ _ => Stage.noConfusion
  | probe => rcases r with e | _ | _ <;> exact .of_keeps h.1 fun _ _ => Stage.noConfusion
  | _ => exact hkeeps rfl rfl

end Jefferies.Coordination
