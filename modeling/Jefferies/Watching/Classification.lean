import Jefferies.Collections.HashMap
import Jefferies.Coordination.Message

/-!
# What a pod tells

A pod is classified by the states of its init containers and of its main containers. Each loop over the states ends at
the first one that decides or is missing, and the second one also at a container that runs, so that a failure behind it
is not seen.
-/

namespace Jefferies.Watching

open Coordination

/-! ## Pods -/

structure ContainerStateWaiting where
  reason : Option String
  message : Option String

structure ContainerStateTerminated where
  exitCode : Int
  reason : Option String
  message : Option String

/-- `running` says whether the field is there. -/
structure ContainerState where
  waiting : Option ContainerStateWaiting
  running : Bool
  terminated : Option ContainerStateTerminated

structure ContainerStatus where
  name : String
  image : String
  state : Option ContainerState

structure PodStatus where
  initContainerStatuses : Option (List ContainerStatus)
  containerStatuses : Option (List ContainerStatus)

structure Pod where
  annotations : Option (HashMap String String)
  uid : Option String
  status : Option PodStatus

inductive PodSignal where
  | podRunning (nodeName podUid : String)
  | infraFailure (nodeName podUid : String) (reason : InfraFailureReason)
  deriving DecidableEq

def nodeNameAnnotation : String := "the-conn.com/node-name"

def nodeNameFor (pod : Pod) : Option String := pod.annotations.bind (·.lookup nodeNameAnnotation)

/-! ## Classification -/

def isImagePullError (reason : String) : Bool := reason = "ImagePullBackOff" || reason = "ErrImagePull"

def isCreateError (reason : String) : Bool := reason = "CreateContainerConfigError" || reason = "CreateContainerError"

/-- What the state of an init container gives away. -/
def initFailure (name : String) (state : ContainerState) : Option InfraFailureReason :=
  let waiting := state.waiting.bind fun waiting =>
    let reason := waiting.reason.getD ""
    if isImagePullError reason then some (.initContainerFailed name (reason ++ ": " ++ waiting.message.getD "")) else none
  let terminated := state.terminated.bind fun terminated =>
    if terminated.exitCode ≠ 0 then
      some (.initContainerFailed name ("exit code " ++ toString terminated.exitCode ++ ": " ++ terminated.message.getD ""))
    else none
  waiting.or terminated

/-- The loop over the init containers; a missing state ends it. -/
def classifyInitContainers : List ContainerStatus → Option InfraFailureReason
  | [] => none
  | cs :: rest =>
      match cs.state with
      | none => none
      | some state => (initFailure cs.name state).or (classifyInitContainers rest)

def classifyInitContainerStatuses (status : PodStatus) : Option InfraFailureReason :=
  status.initContainerStatuses.bind classifyInitContainers

/-- What the state of a main container gives away. -/
def mainFailure (image : String) (state : ContainerState) : Option InfraFailureReason :=
  let waiting := state.waiting.bind fun waiting =>
    let reason := waiting.reason.getD ""
    let message := waiting.message.getD ""
    if isImagePullError reason then some (.imagePullFailed image message)
    else if isCreateError reason then some (.containerCreateError (reason ++ ": " ++ message))
    else none
  let terminated := state.terminated.bind fun terminated =>
    if terminated.reason = some "OOMKilled" then some .oomKilled
    else if terminated.exitCode ≠ 0 then
      some (.containerTerminated terminated.exitCode (terminated.reason.getD "") (terminated.message.getD ""))
    else none
  waiting.or terminated

/-- The loop over the main containers; a missing state ends it, and so does a container that runs. -/
def classifyMainContainers (nodeName podUid : String) : List ContainerStatus → Option PodSignal
  | [] => none
  | cs :: rest =>
      match cs.state with
      | none => none
      | some state =>
          match mainFailure cs.image state with
          | some reason => some (.infraFailure nodeName podUid reason)
          | none => if state.running then some (.podRunning nodeName podUid) else classifyMainContainers nodeName podUid rest

def classifyMainContainerStatuses (status : PodStatus) (nodeName podUid : String) : Option PodSignal :=
  status.containerStatuses.bind (classifyMainContainers nodeName podUid)

def classifyPod (pod : Pod) : Option PodSignal :=
  (nodeNameFor pod).bind fun nodeName => pod.uid.bind fun podUid => pod.status.bind fun status =>
    match classifyInitContainerStatuses status with
    | some reason => some (.infraFailure nodeName podUid reason)
    | none => classifyMainContainerStatuses status nodeName podUid

/-! ## What a container tells -/

namespace ContainerStatus

/-- The container waits for one of the reasons. -/
def WaitsFor (reasons : List String) (cs : ContainerStatus) : Prop :=
  ∃ state ∈ cs.state, ∃ waiting ∈ state.waiting, ∃ reason ∈ waiting.reason, reason ∈ reasons

/-- The container has ended in one of the ways. -/
def EndedAs (p : ContainerStateTerminated → Prop) (cs : ContainerStatus) : Prop :=
  ∃ state ∈ cs.state, ∃ terminated ∈ state.terminated, p terminated

def InitFails (cs : ContainerStatus) : Prop :=
  cs.WaitsFor ["ImagePullBackOff", "ErrImagePull"] ∨ cs.EndedAs (·.exitCode ≠ 0)

def MainFails (cs : ContainerStatus) : Prop :=
  cs.WaitsFor ["ImagePullBackOff", "ErrImagePull", "CreateContainerConfigError", "CreateContainerError"] ∨
    cs.EndedAs (·.reason = some "OOMKilled") ∨ cs.EndedAs (·.exitCode ≠ 0)

def Runs (cs : ContainerStatus) : Prop := ∃ state ∈ cs.state, state.running = true

def Stateless (cs : ContainerStatus) : Prop := cs.state = none

end ContainerStatus

open ContainerStatus

/-- The containers of a pod whose classification counts. -/
def PodStatus.inits (status : PodStatus) : List ContainerStatus := status.initContainerStatuses.getD []

def PodStatus.mains (status : PodStatus) : List ContainerStatus := status.containerStatuses.getD []

/-- Some container fails. -/
def PodStatus.Fails (status : PodStatus) : Prop := (∃ cs ∈ status.inits, cs.InitFails) ∨ ∃ cs ∈ status.mains, cs.MainFails

/-- A failure is signalled exactly where some container fails, and running exactly where none fails and a main container
runs. -/
def FailureDominates (status : PodStatus) (signal : Option PodSignal) : Prop :=
  ((∃ nodeName podUid reason, signal = some (.infraFailure nodeName podUid reason)) ↔ status.Fails) ∧
    ((∃ nodeName podUid, signal = some (.podRunning nodeName podUid)) ↔ ¬status.Fails ∧ ∃ cs ∈ status.mains, cs.Runs)

/-- Some container is as in `p`, and none in front of it is as in `stops`. -/
def InSight (p stops : ContainerStatus → Prop) (l : List ContainerStatus) : Prop :=
  ∃ before cs after, l = before ++ cs :: after ∧ p cs ∧ ∀ x ∈ before, ¬stops x

/-- Where some container fails, a failure is in sight, and else one that runs. -/
def PodStatus.Visible (status : PodStatus) : Prop :=
  (status.Fails → InSight InitFails Stateless status.inits ∨
    InSight MainFails (fun cs => cs.Stateless ∨ cs.Runs) status.mains) ∧
  (¬status.Fails → (∃ cs ∈ status.mains, cs.Runs) → InSight Runs Stateless status.mains)

/-! ## The loops -/

variable {p stops : ContainerStatus → Prop} {cs : ContainerStatus} {rest l : List ContainerStatus} {nodeName podUid : String}

theorem inSight_nil : ¬InSight p stops [] := by
  rintro ⟨before, cs, after, h, _⟩
  simp at h

theorem inSight_cons : InSight p stops (cs :: rest) ↔ p cs ∨ (¬stops cs ∧ InSight p stops rest) := by
  constructor
  · rintro ⟨before, x, after, hl, hx, hbefore⟩
    cases before with
    | nil =>
        cases hl
        exact .inl hx
    | cons y before =>
        cases hl
        exact .inr ⟨hbefore _ List.mem_cons_self, before, x, after, rfl, hx,
          fun z hz => hbefore z (List.mem_cons_of_mem _ hz)⟩
  · rintro (hcs | ⟨hgo, before, x, after, rfl, hx, hbefore⟩)
    · exact ⟨[], cs, rest, rfl, hcs, by simp⟩
    · refine ⟨cs :: before, x, after, rfl, hx, ?_⟩
      rintro y hy
      rcases List.mem_cons.mp hy with rfl | hy
      · exact hgo
      · exact hbefore y hy

theorem InSight.exists (h : InSight p stops l) : ∃ cs ∈ l, p cs := by
  obtain ⟨before, cs, after, rfl, hcs, _⟩ := h
  exact ⟨cs, by simp, hcs⟩

theorem waitsFor_iff {state : ContainerState} {reasons : List String} (h : cs.state = some state) :
    cs.WaitsFor reasons ↔ ∃ waiting ∈ state.waiting, ∃ reason ∈ waiting.reason, reason ∈ reasons := by
  simp [ContainerStatus.WaitsFor, h]

theorem endedAs_iff {state : ContainerState} {q : ContainerStateTerminated → Prop} (h : cs.state = some state) :
    cs.EndedAs q ↔ ∃ terminated ∈ state.terminated, q terminated := by
  simp [EndedAs, h]

theorem isImagePullError_iff {waiting : ContainerStateWaiting} : isImagePullError (waiting.reason.getD "") = true ↔
    ∃ reason ∈ waiting.reason, reason ∈ ["ImagePullBackOff", "ErrImagePull"] := by
  cases waiting.reason <;> simp [isImagePullError]

theorem isCreateError_iff {waiting : ContainerStateWaiting} : isCreateError (waiting.reason.getD "") = true ↔
    ∃ reason ∈ waiting.reason, reason ∈ ["CreateContainerConfigError", "CreateContainerError"] := by
  cases waiting.reason <;> simp [isCreateError]

theorem initFailure_isSome {state : ContainerState} (h : cs.state = some state) :
    (initFailure cs.name state).isSome = true ↔ cs.InitFails := by
  rw [InitFails, waitsFor_iff h, endedAs_iff h, initFailure, Option.isSome_or, Bool.or_eq_true]
  apply or_congr
  · cases state.waiting with
    | none => simp
    | some waiting =>
        simp only [Option.bind_some, Option.mem_some_iff, exists_eq_left', ← isImagePullError_iff]
        split <;> simp_all
  · cases state.terminated with
    | none => simp
    | some terminated =>
        simp only [Option.bind_some, Option.mem_some_iff, exists_eq_left']
        split <;> simp_all

theorem mainFailure_isSome {state : ContainerState} (h : cs.state = some state) :
    (mainFailure cs.image state).isSome = true ↔ cs.MainFails := by
  rw [MainFails, waitsFor_iff h, endedAs_iff h, endedAs_iff h, mainFailure, Option.isSome_or, Bool.or_eq_true]
  apply or_congr
  · cases state.waiting with
    | none => simp
    | some waiting =>
        have hreasons : (∃ reason ∈ waiting.reason, reason ∈ ["ImagePullBackOff", "ErrImagePull",
            "CreateContainerConfigError", "CreateContainerError"]) ↔
            isImagePullError (waiting.reason.getD "") = true ∨ isCreateError (waiting.reason.getD "") = true := by
          rw [isImagePullError_iff, isCreateError_iff]
          cases waiting.reason <;> simp [or_assoc]
        simp only [Option.bind_some, Option.mem_some_iff, exists_eq_left', hreasons]
        split
        · simp_all
        · split <;> simp_all
  · cases state.terminated with
    | none => simp
    | some terminated =>
        simp only [Option.bind_some, Option.mem_some_iff, exists_eq_left']
        split
        · simp_all
        · split <;> simp_all

/-- The first loop finds a failure exactly where one is in sight. -/
theorem classifyInitContainers_isSome : (classifyInitContainers l).isSome = true ↔ InSight InitFails Stateless l := by
  induction l with
  | nil => simp [classifyInitContainers, inSight_nil]
  | cons cs rest ih =>
      rw [classifyInitContainers, inSight_cons]
      cases hstate : cs.state with
      | none => simp [InitFails, ContainerStatus.WaitsFor, EndedAs, Stateless, hstate]
      | some state =>
          have hgo : ¬cs.Stateless := by simp [Stateless, hstate]
          simp only [Option.isSome_or, Bool.or_eq_true, initFailure_isSome hstate, ih, hgo, not_false_eq_true, true_and]

/-- The second loop finds a failure exactly where one is in sight, with no container in front that runs. -/
theorem classifyMainContainers_failure (nodeName podUid : String) :
    (∃ n u reason, classifyMainContainers nodeName podUid l = some (.infraFailure n u reason)) ↔
      InSight MainFails (fun cs => cs.Stateless ∨ cs.Runs) l := by
  induction l with
  | nil => simp [classifyMainContainers, inSight_nil]
  | cons cs rest ih =>
      rw [classifyMainContainers, inSight_cons]
      cases hstate : cs.state with
      | none => simp [MainFails, ContainerStatus.WaitsFor, EndedAs, Stateless, hstate]
      | some state =>
          have hfails := mainFailure_isSome hstate
          have hruns : cs.Runs ↔ state.running = true := by simp [Runs, hstate]
          cases hreason : mainFailure cs.image state with
          | some reason =>
              have hcs : cs.MainFails := by simpa [hreason] using hfails
              simp [hreason, hcs]
          | none =>
              have hcs : ¬cs.MainFails := by simpa [hreason] using hfails
              -- what is behind a container that runs is not looked at
              cases hrunning : state.running with
              | true => simp [hreason, hcs, hruns, hrunning]
              | false =>
                  have hgo : ¬(cs.Stateless ∨ cs.Runs) := by simp [Stateless, hstate, hruns, hrunning]
                  simpa [hreason, hrunning, hcs, hgo] using ih

/-- Without failures, the second loop finds a container that runs exactly where one is in sight. -/
theorem classifyMainContainers_running (h : ∀ cs ∈ l, ¬cs.MainFails) :
    (∃ n u, classifyMainContainers nodeName podUid l = some (.podRunning n u)) ↔ InSight Runs Stateless l := by
  induction l with
  | nil => simp [classifyMainContainers, inSight_nil]
  | cons cs rest ih =>
      have hrest := ih fun x hx => h x (List.mem_cons_of_mem _ hx)
      rw [classifyMainContainers, inSight_cons]
      cases hstate : cs.state with
      | none => simp [Runs, Stateless, hstate]
      | some state =>
          have hreason : mainFailure cs.image state = none := by
            rw [← Option.not_isSome_iff_eq_none, mainFailure_isSome hstate]
            exact h cs List.mem_cons_self
          have hruns : cs.Runs ↔ state.running = true := by simp [Runs, hstate]
          cases hrunning : state.running with
          | true => simp [hreason, hruns, hrunning]
          | false =>
              have hgo : ¬cs.Stateless := by simp [Stateless, hstate]
              simpa [hreason, hruns, hrunning, hgo] using hrest

/-! ## The reasons -/

theorem initFailure_reason {name : String} {state : ContainerState} {reason : InfraFailureReason}
    (h : initFailure name state = some reason) : reason ≠ .podDeletedUnexpectedly := by
  rintro rfl
  unfold initFailure at h
  rcases Option.or_eq_some_iff.mp h with h | ⟨_, h⟩
  · obtain ⟨waiting, _, h⟩ := Option.bind_eq_some_iff.mp h
    grind
  · obtain ⟨terminated, _, h⟩ := Option.bind_eq_some_iff.mp h
    grind

theorem mainFailure_reason {image : String} {state : ContainerState} {reason : InfraFailureReason}
    (h : mainFailure image state = some reason) : reason ≠ .podDeletedUnexpectedly := by
  rintro rfl
  unfold mainFailure at h
  rcases Option.or_eq_some_iff.mp h with h | ⟨_, h⟩
  · obtain ⟨waiting, _, h⟩ := Option.bind_eq_some_iff.mp h
    grind
  · obtain ⟨terminated, _, h⟩ := Option.bind_eq_some_iff.mp h
    grind

theorem classifyInitContainers_reason {reason : InfraFailureReason} (h : classifyInitContainers l = some reason) :
    reason ≠ .podDeletedUnexpectedly := by
  induction l with
  | nil => cases h
  | cons cs rest ih =>
      rw [classifyInitContainers] at h
      cases hstate : cs.state with
      | none => simp [hstate] at h
      | some state =>
          rw [hstate] at h
          rcases Option.or_eq_some_iff.mp h with h | ⟨_, h⟩
          · exact initFailure_reason h
          · exact ih h

theorem classifyMainContainers_reason {n u : String} {reason : InfraFailureReason}
    (h : classifyMainContainers nodeName podUid l = some (.infraFailure n u reason)) :
    reason ≠ .podDeletedUnexpectedly := by
  induction l with
  | nil => cases h
  | cons cs rest ih =>
      rw [classifyMainContainers] at h
      cases hstate : cs.state with
      | none => simp [hstate] at h
      | some state =>
          simp only [hstate] at h
          cases hreason : mainFailure cs.image state with
          | some reason' =>
              rw [hreason] at h
              cases h
              exact mainFailure_reason hreason
          | none =>
              simp only [hreason] at h
              split at h
              · cases h
              · exact ih h

/-- No pod is classified as deleted. -/
theorem classifyPod_reason {pod : Pod} {n u : String} {reason : InfraFailureReason}
    (h : classifyPod pod = some (.infraFailure n u reason)) : reason ≠ .podDeletedUnexpectedly := by
  obtain ⟨nodeName, _, h⟩ := Option.bind_eq_some_iff.mp h
  obtain ⟨podUid, _, h⟩ := Option.bind_eq_some_iff.mp h
  obtain ⟨status, _, h⟩ := Option.bind_eq_some_iff.mp h
  cases hinit : classifyInitContainerStatuses status with
  | some reason' =>
      rw [hinit] at h
      cases h
      obtain ⟨inits, _, hinits⟩ := Option.bind_eq_some_iff.mp hinit
      exact classifyInitContainers_reason hinits
  | none =>
      rw [hinit] at h
      obtain ⟨mains, _, hmains⟩ := Option.bind_eq_some_iff.mp h
      exact classifyMainContainers_reason hmains

/-! ## Pods with a name, a uid and a status -/

variable {pod : Pod} {status : PodStatus}

/-- What a pod is classified as goes by its status alone. -/
theorem classifyPod_eq (hname : nodeNameFor pod = some nodeName) (huid : pod.uid = some podUid)
    (hstatus : pod.status = some status) : classifyPod pod =
      match classifyInitContainers status.inits with
      | some reason => some (.infraFailure nodeName podUid reason)
      | none => classifyMainContainers nodeName podUid status.mains := by
  have hinits : classifyInitContainerStatuses status = classifyInitContainers status.inits := by
    unfold classifyInitContainerStatuses PodStatus.inits
    cases status.initContainerStatuses <;> rfl
  have hmains : classifyMainContainerStatuses status nodeName podUid =
      classifyMainContainers nodeName podUid status.mains := by
    unfold classifyMainContainerStatuses PodStatus.mains
    cases status.containerStatuses <;> rfl
  simp only [classifyPod, hname, huid, hstatus, Option.bind_some, hinits, hmains]

theorem classifyPod_failure (hname : nodeNameFor pod = some nodeName) (huid : pod.uid = some podUid)
    (hstatus : pod.status = some status) :
    (∃ n u reason, classifyPod pod = some (.infraFailure n u reason)) ↔
      InSight InitFails Stateless status.inits ∨ InSight MainFails (fun cs => cs.Stateless ∨ cs.Runs) status.mains := by
  rw [classifyPod_eq hname huid hstatus, ← classifyInitContainers_isSome,
    ← classifyMainContainers_failure nodeName podUid]
  cases classifyInitContainers status.inits with
  | some reason => simp
  | none => simp

theorem classifyPod_running (hname : nodeNameFor pod = some nodeName) (huid : pod.uid = some podUid)
    (hstatus : pod.status = some status) (hfails : ¬status.Fails) :
    (∃ n u, classifyPod pod = some (.podRunning n u)) ↔ InSight Runs Stateless status.mains := by
  have hinits : classifyInitContainers status.inits = none := by
    rw [← Option.not_isSome_iff_eq_none, classifyInitContainers_isSome]
    exact fun h => hfails (.inl h.exists)
  rw [classifyPod_eq hname huid hstatus, hinits]
  exact classifyMainContainers_running fun cs hcs hfail => hfails (.inr ⟨cs, hcs, hfail⟩)

/-- A pod's failures dominate exactly where they are in sight, and where a container that runs is in sight of a pod
without failures. -/
theorem failure_dominates_iff (hname : nodeNameFor pod = some nodeName) (huid : pod.uid = some podUid)
    (hstatus : pod.status = some status) : FailureDominates status (classifyPod pod) ↔ status.Visible := by
  have hfailure := classifyPod_failure hname huid hstatus
  have hseen : InSight InitFails Stateless status.inits ∨
      InSight MainFails (fun cs => cs.Stateless ∨ cs.Runs) status.mains → status.Fails :=
    Or.imp InSight.exists InSight.exists
  by_cases hfails : status.Fails
  · have hexclusive : ∀ n u reason n' u', classifyPod pod = some (.infraFailure n u reason) →
        classifyPod pod ≠ some (.podRunning n' u') := by
      intro n u reason n' u' h h'
      rw [h] at h'
      cases h'
    constructor
    · intro h
      exact ⟨fun _ => hfailure.mp (h.1.mpr hfails), fun hno => absurd hfails hno⟩
    · intro h
      obtain ⟨n, u, reason, hsignal⟩ := hfailure.mpr (h.1 hfails)
      refine ⟨⟨fun _ => hfails, fun _ => ⟨n, u, reason, hsignal⟩⟩, ?_, fun hno => absurd hfails hno.1⟩
      rintro ⟨n', u', hrunning⟩
      exact absurd hrunning (hexclusive n u reason n' u' hsignal)
  · have hrunning := classifyPod_running hname huid hstatus hfails
    rw [FailureDominates, hfailure, hrunning, PodStatus.Visible]
    constructor
    · intro h
      exact ⟨fun hf => absurd hf hfails, fun _ hr => h.2.mpr ⟨hfails, hr⟩⟩
    · intro h
      exact ⟨⟨hseen, fun hf => absurd hf hfails⟩, fun hr => ⟨hfails, hr.exists⟩, fun hr => h.2 hfails hr.2⟩

def ContainerStatus.running (name : String) : ContainerStatus := ⟨name, name, some ⟨none, true, none⟩⟩

def ContainerStatus.ended (name : String) (exitCode : Int) : ContainerStatus :=
  ⟨name, name, some ⟨none, false, some ⟨exitCode, none, none⟩⟩⟩

/-- A pod of the node `build` with the given main containers. -/
def podOf (mains : List ContainerStatus) : Pod :=
  ⟨some (HashMap.ofList [( nodeNameAnnotation, "build")]), some "uid", some ⟨none, some mains⟩⟩

/-- One container fails in front of one that runs. -/
theorem failure_dominates_iff_in_front :
    let status : PodStatus := ⟨none, some [.ended "main" 1, .running "proxy"]⟩
    FailureDominates status (classifyPod (podOf [.ended "main" 1, .running "proxy"])) ↔ status.Visible := by
  intro status
  have hname : nodeNameFor (podOf [.ended "main" 1, .running "proxy"]) = some "build" := rfl
  have huid : (podOf [.ended "main" 1, .running "proxy"]).uid = some "uid" := rfl
  exact failure_dominates_iff hname huid rfl

/-- A container that runs hides one behind it that has failed. -/
theorem running_hides_failure :
    let status : PodStatus := ⟨none, some [.running "proxy", .ended "main" 1]⟩
    classifyPod (podOf [.running "proxy", .ended "main" 1]) = some (.podRunning "build" "uid") ∧
      ¬FailureDominates status (classifyPod (podOf [.running "proxy", .ended "main" 1])) := by
  intro status
  have hsignal : classifyPod (podOf [.running "proxy", .ended "main" 1]) = some (.podRunning "build" "uid") := by decide
  refine ⟨hsignal, fun h => ?_⟩
  have hfails : status.Fails :=
    .inr ⟨.ended "main" 1, by simp [status, PodStatus.mains], .inr (.inr ⟨_, rfl, _, rfl, by decide⟩)⟩
  obtain ⟨n, u, reason, hfailure⟩ := h.1.mpr hfails
  rw [hsignal] at hfailure
  cases hfailure

end Jefferies.Watching
