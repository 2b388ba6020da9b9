import Jefferies.Collections.HashMap
import Jefferies.Coordination.Message
import Jefferies.Messaging.Broadcast
import Jefferies.Transition.Run

/-!
# The backplane in memory

The events of every run have a broadcast channel of their own. A subscription hears the events of its run that are
published from then on, in order and each once, unless it falls behind by more than the channel keeps.
-/

namespace Jefferies.Backplane

open Coordination Messaging Transition

/-- A channel for each run, behind a lock that an operation keeps to its end. -/
structure InMemoryBackplane where
  channels : HashMap String (Channel BackplaneEvent)

/-- The receiver: whose channel it is of, and how far it is. -/
structure InMemorySubscription where
  runId : String
  position : Nat
  deriving DecidableEq

namespace InMemoryBackplane

def empty : InMemoryBackplane := ⟨∅⟩

/-- The sender of a run, made where there is none. -/
def sender (self : InMemoryBackplane) (runId : String) : Channel BackplaneEvent :=
  (self.channels.lookup runId).getD ⟨128, []⟩

/-- That nobody receives the event is no failure. -/
def publishEvent (self : InMemoryBackplane) (runId : String) (event : BackplaneEvent) : InMemoryBackplane :=
  ⟨self.channels.insert runId ((self.sender runId).send event)⟩

def publishNodeCompleted (self : InMemoryBackplane) (runId nodeName : String) (success : Bool) : InMemoryBackplane :=
  self.publishEvent runId (.nodeCompleted nodeName success)

def publishCancel (self : InMemoryBackplane) (runId : String) : InMemoryBackplane := self.publishEvent runId .cancel

def subscribeRun (self : InMemoryBackplane) (runId : String) : InMemorySubscription × InMemoryBackplane :=
  let sender := self.sender runId
  (⟨runId, sender.subscribe⟩, ⟨self.channels.insert runId sender⟩)

end InMemoryBackplane

namespace InMemorySubscription

/-- One turn of the loop: a value ends it, after a lag it goes on. The map keeps every sender, so no channel is closed. -/
def nextEvent (self : InMemorySubscription) (backplane : InMemoryBackplane) :
    Option (Received BackplaneEvent × InMemorySubscription) :=
  ((backplane.sender self.runId).receive self.position).map fun r => (r.1, { self with position := r.2 })

/-- What it would still hear. -/
def waiting (self : InMemorySubscription) (backplane : InMemoryBackplane) : List BackplaneEvent :=
  (backplane.sender self.runId).waiting self.position

/-- It is further behind than its channel keeps. -/
def Lags (self : InMemorySubscription) (backplane : InMemoryBackplane) : Prop :=
  (backplane.sender self.runId).Lags self.position

end InMemorySubscription

/-! ## The backplane in use -/

/-- The backplane and its subscriptions, by their number; one that was dropped is `none`. -/
structure Bus where
  backplane : InMemoryBackplane
  subscriptions : List (Option InMemorySubscription)

inductive Use where
  | publishNodeCompleted (runId nodeName : String) (success : Bool)
  | publishCancel (runId : String)
  | subscribeRun (runId : String)
  | nextEvent (i : Nat)
  | drop (i : Nat)
  deriving DecidableEq

def Bus.step (σ : Bus) : Use → Option Bus
  | .publishNodeCompleted runId nodeName success =>
      some { σ with backplane := σ.backplane.publishNodeCompleted runId nodeName success }
  | .publishCancel runId => some { σ with backplane := σ.backplane.publishCancel runId }
  | .subscribeRun runId =>
      some ⟨(σ.backplane.subscribeRun runId).2, σ.subscriptions ++ [some (σ.backplane.subscribeRun runId).1]⟩
  | .nextEvent i =>
      match σ.subscriptions[i]? with
      | some (some sub) =>
          (sub.nextEvent σ.backplane).map fun r => { σ with subscriptions := σ.subscriptions.set i (some r.2) }
      | _ => none
  | .drop i =>
      match σ.subscriptions[i]? with
      | some (some _) => some { σ with subscriptions := σ.subscriptions.set i none }
      | _ => none

abbrev BusStep : Type := Step Bus Use

/-- The event that is published for the run. -/
def Use.event (runId : String) : Use → Option BackplaneEvent
  | .publishNodeCompleted r nodeName success => if r = runId then some (.nodeCompleted nodeName success) else none
  | .publishCancel r => if r = runId then some .cancel else none
  | _ => none

/-- The event that `next_event` of the subscription returns. -/
def heardBy (i : Nat) (t : BusStep) : Option BackplaneEvent :=
  match t.label, t.before.subscriptions[i]? with
  | .nextEvent j, some (some sub) =>
      if j = i then
        match sub.nextEvent t.before.backplane with
        | some (.value event, _) => some event
        | _ => none
      else none
  | _, _ => none

/-- What was published for the run. -/
def published (runId : String) (since : List BusStep) : List BackplaneEvent := since.filterMap (·.label.event runId)

/-- What the subscription has heard. -/
def heard (i : Nat) (since : List BusStep) : List BackplaneEvent := since.filterMap (heardBy i)

/-- The subscription is behind by more events than its channel keeps. -/
def LagsAt (i : Nat) (σ : Bus) : Prop := ∃ sub, σ.subscriptions[i]? = some (some sub) ∧ sub.Lags σ.backplane

/-! ## What one step does -/

section

variable {backplane : InMemoryBackplane} {sub sub' : InMemorySubscription} {runId : String} {event : BackplaneEvent}
  {since : List BusStep} {σ σ' : Bus} {l : Use} {i missed : Nat}

theorem sender_publishEvent (backplane : InMemoryBackplane) (runId r : String) (event : BackplaneEvent) :
    (backplane.publishEvent runId event).sender r =
      if r = runId then (backplane.sender runId).send event else backplane.sender r := by
  rw [InMemoryBackplane.sender, InMemoryBackplane.publishEvent, HashMap.lookup_insert_eq_ite]
  split
  · rfl
  · rfl

theorem sender_subscribeRun (backplane : InMemoryBackplane) (runId r : String) :
    (backplane.subscribeRun runId).2.sender r = backplane.sender r := by
  rw [InMemoryBackplane.sender, InMemoryBackplane.subscribeRun, HashMap.lookup_insert_eq_ite]
  split
  · rename_i h
    rw [h]
    rfl
  · rfl

theorem published_snoc (runId : String) (since : List BusStep) (t : BusStep) :
    published runId (since ++ [t]) = published runId since ++ (t.label.event runId).toList := by
  rw [published, List.filterMap_append]
  rfl

theorem heard_snoc (i : Nat) (since : List BusStep) (t : BusStep) :
    heard i (since ++ [t]) = heard i since ++ (heardBy i t).toList := by
  rw [heard, List.filterMap_append]
  rfl

theorem lagsAt_iff (hsub : σ.subscriptions[i]? = some (some sub)) : LagsAt i σ ↔ sub.Lags σ.backplane := by
  constructor
  · rintro ⟨sub', hsub', hlags⟩
    cases hsub.symm.trans hsub'
    exact hlags
  · intro hlags
    exact ⟨sub, hsub, hlags⟩

/-! ## What a subscription gets -/

/-- What the subscription has got since it was opened, and what it has missed. -/
structure Tracks (i : Nat) (sub : InMemorySubscription) (since : List BusStep) (σ : Bus) (missed : Nat) : Prop where
  position : sub.position ≤ (σ.backplane.sender sub.runId).sent.length
  carries : Feed.Carries ⟨heard i since, sub.waiting σ.backplane⟩ (published sub.runId since) missed
  lags : sub.Lags σ.backplane → missed ≠ 0
  missed_iff : missed = 0 ↔ ∀ t ∈ since, ¬LagsAt i t.after

namespace Tracks

/-- A step after which the subscription misses no more than before. -/
theorem snoc (h : Tracks i sub since σ missed) (hsub' : σ'.subscriptions[i]? = some (some sub'))
    (hposition : sub'.position ≤ (σ'.backplane.sender sub'.runId).sent.length)
    (hcarries : Feed.Carries ⟨heard i (since ++ [⟨σ, l, σ'⟩]), sub'.waiting σ'.backplane⟩
      (published sub'.runId (since ++ [⟨σ, l, σ'⟩])) missed)
    (hlags : sub'.Lags σ'.backplane → sub.Lags σ.backplane) : Tracks i sub' (since ++ [⟨σ, l, σ'⟩]) σ' missed := by
  refine ⟨hposition, hcarries, fun hlags' => h.lags (hlags hlags'), ?_⟩
  rw [h.missed_iff]
  constructor
  · intro hnever t ht
    rcases List.mem_append.mp ht with ht | ht
    · exact hnever t ht
    · obtain rfl := List.mem_singleton.mp ht
      intro hlags'
      exact h.lags (hlags ((lagsAt_iff hsub').mp hlags')) (h.missed_iff.mpr hnever)
  · intro hnever t ht
    exact hnever t (List.mem_append_left _ ht)

/-- A step that neither gives the subscription anything nor takes anything from it. -/
theorem same (h : Tracks i sub since σ missed) (hsub' : σ'.subscriptions[i]? = some (some sub))
    (hsender : σ'.backplane.sender sub.runId = σ.backplane.sender sub.runId) (hevent : l.event sub.runId = none)
    (hheard : heardBy i ⟨σ, l, σ'⟩ = none) : Tracks i sub (since ++ [⟨σ, l, σ'⟩]) σ' missed := by
  apply h.snoc hsub'
  · rw [hsender]
    exact h.position
  · have hcarries := h.carries
    rw [InMemorySubscription.waiting, ← hsender] at hcarries
    rw [heard_snoc, published_snoc, hheard, hevent, InMemorySubscription.waiting]
    simpa using hcarries
  · rw [InMemorySubscription.Lags, hsender]
    exact id

/-- An event is published for the run: the subscription gets it too, or loses the oldest that it had still to hear. -/
theorem publish (h : Tracks i sub since σ missed) (hsub' : σ'.subscriptions[i]? = some (some sub))
    (hsender : σ'.backplane.sender sub.runId = (σ.backplane.sender sub.runId).send event)
    (hevent : l.event sub.runId = some event) (hheard : heardBy i ⟨σ, l, σ'⟩ = none) :
    ∃ missed', Tracks i sub (since ++ [⟨σ, l, σ'⟩]) σ' missed' := by
  have hposition : sub.position ≤ (σ'.backplane.sender sub.runId).sent.length := by
    rw [hsender]
    exact h.position.trans (by simp [Channel.send])
  have hheard' : heard i (since ++ [⟨σ, l, σ'⟩]) = heard i since := by rw [heard_snoc, hheard]; exact List.append_nil _
  have hpublished : published sub.runId (since ++ [⟨σ, l, σ'⟩]) = published sub.runId since ++ [event] := by
    rw [published_snoc, hevent]
    rfl
  have hcarries := h.carries.send event
  by_cases hlags : ((σ.backplane.sender sub.runId).send event).Lags sub.position
  · obtain ⟨b, hb⟩ := Channel.waiting_send_of_lags h.position hlags
    have hlost : Feed.Carries ⟨heard i since, sub.waiting σ'.backplane⟩ (published sub.runId since ++ [event])
        (missed + 1) := by
      rw [InMemorySubscription.waiting, hb] at hcarries
      rw [InMemorySubscription.waiting, hsender]
      exact hcarries.lose
    have hlags' : LagsAt i σ' := ⟨sub, hsub', by rwa [InMemorySubscription.Lags, hsender]⟩
    refine ⟨missed + 1, hposition, by rwa [hheard', hpublished], fun _ => Nat.succ_ne_zero _, ?_⟩
    apply iff_of_false (Nat.succ_ne_zero _)
    intro hnever
    exact hnever _ (List.mem_append_right _ (List.mem_singleton_self _)) hlags'
  · refine ⟨missed, h.snoc hsub' hposition ?_ ?_⟩
    · rw [hheard', hpublished, InMemorySubscription.waiting, hsender, Channel.waiting_send h.position hlags]
      exact hcarries
    · intro hlags'
      rw [InMemorySubscription.Lags, hsender] at hlags'
      exact absurd hlags' hlags

/-- A turn of `next_event`: it returns the next event, or skips what the channel has not kept. -/
theorem nextEvent (h : Tracks i sub since σ missed) (hsub : σ.subscriptions[i]? = some (some sub))
    {r : Received BackplaneEvent} (hnext : sub.nextEvent σ.backplane = some (r, sub'))
    (hσ' : σ' = { σ with subscriptions := σ.subscriptions.set i (some sub') }) :
    sub'.runId = sub.runId ∧ Tracks i sub' (since ++ [⟨σ, .nextEvent i, σ'⟩]) σ' missed := by
  subst hσ'
  obtain ⟨⟨received, position⟩, hr, heq⟩ := Option.map_eq_some_iff.mp hnext
  cases heq
  have hsub' : (σ.subscriptions.set i (some { sub with position := position }))[i]? =
      some (some { sub with position := position }) := List.getElem?_set_self (List.getElem?_eq_some_iff.mp hsub).1
  refine ⟨rfl, ?_⟩
  cases received with
  | value event =>
      obtain ⟨hwaiting, hposition, hlags⟩ := Channel.receive_value hr
      apply h.snoc hsub' hposition
      · have hcarries := h.carries
        rw [InMemorySubscription.waiting, hwaiting] at hcarries
        rw [heard_snoc, published_snoc, heardBy, hsub]
        simp only [if_true, hnext]
        simpa [Use.event, InMemorySubscription.waiting] using hcarries.take
      · exact hlags.mp
  | lagged n =>
      obtain ⟨hwaiting, hposition, hlags⟩ := Channel.receive_lagged hr
      apply h.snoc hsub' hposition
      · have hcarries := h.carries
        rw [InMemorySubscription.waiting, ← hwaiting] at hcarries
        rw [heard_snoc, published_snoc, heardBy, hsub]
        simp only [if_true, hnext]
        simpa [Use.event, InMemorySubscription.waiting] using hcarries
      · exact fun _ => hlags

/-- A step that publishes an event. -/
theorem publication (h : Tracks i sub since σ missed) (hsub : σ.subscriptions[i]? = some (some sub))
    (hsub' : σ'.subscriptions[i]? = some (some sub')) (hσ' : σ' = { σ with backplane := σ.backplane.publishEvent runId event })
    (hl : ∀ r, l.event r = if runId = r then some event else none) (hheard : heardBy i ⟨σ, l, σ'⟩ = none) :
    sub'.runId = sub.runId ∧ ∃ missed', Tracks i sub' (since ++ [⟨σ, l, σ'⟩]) σ' missed' := by
  obtain rfl : sub = sub' := by
    rw [hσ'] at hsub'
    cases hsub.symm.trans hsub'
    rfl
  have hsender := sender_publishEvent σ.backplane runId sub.runId event
  rw [show σ.backplane.publishEvent runId event = σ'.backplane by rw [hσ']] at hsender
  refine ⟨rfl, ?_⟩
  by_cases hrun : runId = sub.runId
  · rw [if_pos hrun.symm, hrun] at hsender
    exact h.publish hsub' hsender ((hl _).trans (if_pos hrun)) hheard
  · rw [if_neg (Ne.symm hrun)] at hsender
    exact ⟨missed, h.same hsub' hsender ((hl _).trans (if_neg hrun)) hheard⟩

/-- Whatever step is taken while the subscription is there. -/
theorem step (h : Tracks i sub since σ missed) (hsub : σ.subscriptions[i]? = some (some sub))
    (hstep : σ.step l = some σ') (hsub' : σ'.subscriptions[i]? = some (some sub')) :
    sub'.runId = sub.runId ∧ ∃ missed', Tracks i sub' (since ++ [⟨σ, l, σ'⟩]) σ' missed' := by
  cases l with
  | publishNodeCompleted r nodeName success =>
      exact h.publication hsub hsub' (Option.some.inj hstep).symm (fun _ => rfl) rfl
  | publishCancel r => exact h.publication hsub hsub' (Option.some.inj hstep).symm (fun _ => rfl) rfl
  | subscribeRun r =>
      cases hstep
      rw [List.getElem?_append_left (List.getElem?_eq_some_iff.mp hsub).1] at hsub'
      cases hsub.symm.trans hsub'
      refine ⟨rfl, missed, h.same ?_ (sender_subscribeRun _ _ _) rfl rfl⟩
      rw [List.getElem?_append_left (List.getElem?_eq_some_iff.mp hsub).1]
      exact hsub
  | nextEvent j =>
      simp only [Bus.step] at hstep
      split at hstep
      · rename_i sub₀ hsub₀
        obtain ⟨⟨r, sub₁⟩, hnext, rfl⟩ := Option.map_eq_some_iff.mp hstep
        by_cases hj : j = i
        · subst hj
          cases hsub.symm.trans hsub₀
          obtain ⟨hrun, htracks⟩ := h.nextEvent hsub hnext rfl
          rw [List.getElem?_set_self (List.getElem?_eq_some_iff.mp hsub).1] at hsub'
          cases hsub'
          exact ⟨hrun, missed, htracks⟩
        · have hsame := hsub'
          rw [List.getElem?_set_ne hj] at hsame
          cases hsub.symm.trans hsame
          refine ⟨rfl, missed, h.same hsub' rfl rfl ?_⟩
          rw [heardBy, hsub]
          exact if_neg hj
      · cases hstep
  | drop j =>
      simp only [Bus.step] at hstep
      split at hstep
      · cases hstep
        have hj : j ≠ i := by
          rintro rfl
          rw [List.getElem?_set_self (List.getElem?_eq_some_iff.mp hsub).1] at hsub'
          cases hsub'
        have hsame := hsub'
        rw [List.getElem?_set_ne hj] at hsame
        cases hsub.symm.trans hsame
        exact ⟨rfl, missed, h.same hsub' rfl rfl rfl⟩
      · cases hstep

end Tracks

/-- A subscription was there before the step, or the step has opened it. -/
theorem step_subscription (hstep : σ.step l = some σ') (hsub' : σ'.subscriptions[i]? = some (some sub')) :
    (∃ sub, σ.subscriptions[i]? = some (some sub)) ∨ ∃ r, l = .subscribeRun r ∧ i = σ.subscriptions.length ∧
      sub' = (σ.backplane.subscribeRun r).1 ∧ σ'.backplane = (σ.backplane.subscribeRun r).2 := by
  cases l with
  | publishNodeCompleted r nodeName success =>
      cases hstep
      exact .inl ⟨sub', hsub'⟩
  | publishCancel r =>
      cases hstep
      exact .inl ⟨sub', hsub'⟩
  | subscribeRun r =>
      cases hstep
      rw [List.getElem?_append] at hsub'
      split at hsub'
      · exact .inl ⟨sub', hsub'⟩
      · obtain ⟨hlt, heq⟩ := List.getElem?_eq_some_iff.mp hsub'
        rw [List.length_singleton] at hlt
        rw [List.getElem_singleton] at heq
        exact .inr ⟨r, rfl, by omega, (Option.some.inj heq).symm, rfl⟩
  | nextEvent j =>
      simp only [Bus.step] at hstep
      split at hstep
      · rename_i sub₀ hsub₀
        obtain ⟨⟨r, sub₁⟩, -, rfl⟩ := Option.map_eq_some_iff.mp hstep
        by_cases hj : j = i
        · exact .inl ⟨sub₀, hj ▸ hsub₀⟩
        · rw [List.getElem?_set_ne hj] at hsub'
          exact .inl ⟨sub', hsub'⟩
      · cases hstep
  | drop j =>
      simp only [Bus.step] at hstep
      split at hstep
      · rename_i sub₀ hsub₀
        cases hstep
        by_cases hj : j = i
        · exact .inl ⟨sub₀, hj ▸ hsub₀⟩
        · rw [List.getElem?_set_ne hj] at hsub'
          exact .inl ⟨sub', hsub'⟩
      · cases hstep

end

/-! ## In every run -/

section

variable {h : List BusStep} {σ : Bus} {i : Nat} {sub : InMemorySubscription}

/-- A backplane that was just made. -/
def BlankBus (σ : Bus) : Prop := σ = ⟨.empty, []⟩

/-- Every subscription has been tracked since it was opened. -/
theorem tracked (hr : Run Bus.step BlankBus h σ) : ∀ sub, σ.subscriptions[i]? = some (some sub) →
    ∃ before t since missed, h = before ++ t :: since ∧ t.label = .subscribeRun sub.runId ∧
      t.before.subscriptions.length = i ∧ Tracks i sub since σ missed := by
  apply hr.invariant
  · intro σ hσ sub hsub
    rw [show σ = _ from hσ] at hsub
    cases hsub
  · intro h σ l σ' _ ih hstep sub' hsub'
    rcases step_subscription hstep hsub' with ⟨sub, hsub⟩ | ⟨r, rfl, rfl, rfl, hbackplane⟩
    · obtain ⟨before, t, since, missed, rfl, hl, hi, htracks⟩ := ih sub hsub
      obtain ⟨hrun, missed', htracks'⟩ := htracks.step hsub hstep hsub'
      exact ⟨before, t, since ++ [⟨σ, l, σ'⟩], missed', by simp, by rw [hl, hrun], hi, htracks'⟩
    · have hsender : σ'.backplane.sender r = σ.backplane.sender r := by rw [hbackplane, sender_subscribeRun]
      refine ⟨h, _, [], 0, rfl, rfl, rfl, ?_, ?_, ?_, ?_⟩
      · rw [InMemoryBackplane.subscribeRun, hsender]
        exact le_refl _
      · rw [InMemorySubscription.waiting, InMemoryBackplane.subscribeRun, hsender, Channel.waiting_subscribe]
        exact .start
      · rw [InMemorySubscription.Lags, InMemoryBackplane.subscribeRun, hsender]
        exact fun hlags => absurd hlags (Channel.not_lags_subscribe _)
      · simp

/-- However publishers and subscribers interleave, a subscription hears in order and each once the events that are
published for its run after it was opened, and no others; none of them is lost to it exactly if it was never behind by
more than its channel keeps, and as long as it has nothing to return it has heard all that is not lost. -/
theorem events_heard (hr : Run Bus.step BlankBus h σ) (hsub : σ.subscriptions[i]? = some (some sub)) :
    ∃ before t since, h = before ++ t :: since ∧ t.label = .subscribeRun sub.runId ∧ t.before.subscriptions.length = i ∧
      (heard i since ++ sub.waiting σ.backplane).Sublist (published sub.runId since) ∧
      (heard i since ++ sub.waiting σ.backplane = published sub.runId since ↔ ∀ t' ∈ since, ¬LagsAt i t'.after) ∧
      (sub.nextEvent σ.backplane = none → sub.waiting σ.backplane = []) := by
  obtain ⟨before, t, since, missed, rfl, hl, hi, htracks⟩ := tracked hr sub hsub
  refine ⟨before, t, since, rfl, hl, hi, htracks.carries.sublist, ?_, ?_⟩
  · rw [← htracks.missed_iff]
    exact htracks.carries.whole_iff
  · intro hnone
    exact Channel.receive_none (Option.map_eq_none_iff.mp hnone)

end

/-- A run is subscribed to and cancelled, and another run too. -/
def cancelledRun : List Use := [.subscribeRun "7", .publishCancel "8", .publishCancel "7", .nextEvent 0]

theorem events_heard_cancelled : ∃ h σ sub, Run Bus.step BlankBus h σ ∧ σ.subscriptions[0]? = some (some sub) ∧
    ∃ before t since, h = before ++ t :: since ∧ t.label = .subscribeRun "7" ∧
      (heard 0 since ++ sub.waiting σ.backplane).Sublist (published "7" since) := by
  have hblank : BlankBus ⟨.empty, []⟩ := rfl
  obtain ⟨h, σ, hr, hcheck⟩ := exists_run Bus.step cancelledRun hblank
    (fun r => decide (r.2.subscriptions = [some ⟨"7", 1⟩])) (by decide +kernel)
  have hsub : σ.subscriptions[0]? = some (some ⟨"7", 1⟩) := by rw [of_decide_eq_true hcheck]; rfl
  obtain ⟨before, t, since, hh, hl, -, hsublist, -⟩ := events_heard hr hsub
  exact ⟨h, σ, ⟨"7", 1⟩, hr, hsub, before, t, since, hh, hl, hsublist⟩

end Jefferies.Backplane
