import Jefferies.Coordination.Passing
import Jefferies.Coordination.Rehydration

/-!
# How an exposed node is dispatched

Once the outcomes that the node waits for are folded, the next dispatch of ready nodes reaches it.
-/

namespace Jefferies.Coordination

open Pipelines StateStore RunHistory Interaction Interact Coordinator PipelineRun

/-- The call dispatches the node. -/
def strikes (x : String) (_ : Unit) (_ : Coordinator) : Effect → Prop
  | .dispatch _ _ node _ => node.name = x
  | _ => False

/-- With some answers, the program dispatches the node `x` or ends as in `Q`. -/
abbrev Strikes {α : Type} (m : HashMap String ReconcileResult) (c₀ : Coordinator) (x : String)
    (Q : Coordinator → α → Prop) (p : Prog Coordinator Resp α) : Prop :=
  Can (rehydrating m c₀).answers (strikes x) (fun _ c a => Q c a) () p

/-- With some answers, the program does not end before it dispatches the node `x`. -/
abbrev Struck {α : Type} (m : HashMap String ReconcileResult) (c₀ : Coordinator) (x : String)
    (p : Prog Coordinator Resp α) : Prop := Strikes m c₀ x (fun _ _ => False) p

/-- The node is Pending, and waits for nothing but completions to be folded. -/
structure Nearing (x : String) (todo : List String) (c : Coordinator) : Prop where
  named : NamesAgree c.nodeInfoCache
  declared : ∀ n a, c.run.statuses.lookup n = some a → c.nodeInfoCache.lookup n ≠ none
  pending : c.run.statuses.lookup x = some .pending
  nears : ∀ d ∈ c.run.depsOf x, c.run.statuses.lookup d = some .success ∨ (d ∈ todo ∧ Unfinished c.run d)

variable {c₀ c c' : Coordinator} {m : HashMap String ReconcileResult} {n x : String} {todo : List String}

theorem rehydrating_lenient : Lenient (rehydrating m c₀).answers := by
  intro w c e r he
  cases e with
  | readOutcomes runId names => exact he.elim
  | _ => trivial

theorem Nearing.of_alike (h : Nearing x todo c) (hc : Alike c c') : Nearing x todo c' := by
  constructor
  · rw [hc.cache]
    exact h.named
  · rw [hc.run, hc.cache]
    exact h.declared
  · rw [hc.run]
    exact h.pending
  · rw [hc.run]
    exact h.nears

/-- Nothing is left to wait for. -/
theorem Nearing.ready (h : Nearing x [] c) : x ∈ c.run.readyNodes :=
  mem_readyNodes.mpr ⟨h.pending, fun d hd => (h.nears d hd).resolve_right fun ho => List.not_mem_nil ho.1⟩

theorem Nearing.marks {run : PipelineRun} {y : String} {a : NodeStatus} {rest : List String}
    (h : Nearing x todo c) (hm : Marks c.run run y a) (hy : y ≠ x)
    (hnears : ∀ d ∈ c.run.depsOf x, run.statuses.lookup d = some .success ∨ (d ∈ rest ∧ Unfinished run d)) :
    Nearing x rest (c.setRun run) := by
  constructor
  · exact h.named
  · intro n b hb
    obtain ⟨b', hb'⟩ := hm.known hb
    exact h.declared n b' hb'
  · exact (hm.lookup_of_ne hy.symm).trans h.pending
  · intro d hd
    apply hnears d
    rw [← hm.depsOf]
    exact hd

/-- Another node is dispatched. -/
theorem Nearing.start (h : Nearing x todo c) (hn : n ≠ x) :
    Nearing x todo (c.setRun (c.run.markRunning n).2) := by
  have hm := marks_markRunning c.run n
  apply h.marks hm hn
  intro d hd
  refine (h.nears d hd).imp hm.success_stays fun ho => ⟨ho.1, ?_⟩
  rcases hm with hsame | ⟨_, hset⟩
  · rw [hsame]
    exact ho.2
  · rw [Unfinished, hset]
    by_cases he : d = n
    · subst he
      exact .inl (Finmap.lookup_insert _)
    · simp only [Finmap.lookup_insert_of_ne _ he]
      exact ho.2

/-- The completion of a node that is waited for is folded. -/
theorem Nearing.succeed (h : Nearing x (n :: todo) c) (hn : n ≠ x) :
    Nearing x todo (c.setRun (c.run.markSuccess n).2) := by
  have hm := marks_markSuccess c.run n
  apply h.marks hm hn
  intro d hd
  rcases h.nears d hd with hs | ⟨hmem, hu⟩
  · exact .inl (hm.success_stays hs)
  · by_cases he : d = n
    · subst he
      left
      rcases hu with hu | hu <;> simp [markSuccess, hu]
    · refine .inr ⟨(List.mem_cons.mp hmem).resolve_left he, ?_⟩
      rw [Unfinished, hm.lookup_of_ne he]
      exact hu

theorem Nearing.fail (h : Nearing x [] c) (hn : n ≠ x) : Nearing x [] (c.setRun (c.run.markFailed n).2) := by
  have hm := marks_markFailed c.run n
  apply h.marks hm hn
  intro d hd
  exact (h.nears d hd).imp_left hm.success_stays |>.imp_right fun ho => absurd ho.1 List.not_mem_nil

/-! ## Dispatching -/

/-- Of the ready nodes in line, each is dispatched, and `x` is none of them. -/
theorem dispatchReadyNode_nearing (h : Nearing x todo c) (hn : n ∈ c.run.statuses.keys) :
    Strikes m c₀ x (fun c' _ => Nearing x todo c' ∧ c'.run.statuses.keys = c.run.statuses.keys)
      (dispatchReadyNode n c) := by
  obtain ⟨a, ha⟩ := HashMap.mem_keys_iff_lookup.mp hn
  unfold Coordinator.dispatchReadyNode
  simp only [get_bind]
  cases hinfo : c.nodeInfoCache.lookup n with
  | none => exact absurd hinfo (h.declared n a ha)
  | some node =>
      by_cases hx : n = x
      · exact .here ((h.named n node hinfo).trans hx)
      · refine .call (.ok ()) () trivial ?_
        have h' := h.start hx
        have hkeys := (marks_markRunning c.run n).keys
        simp only [Prog.ret_bind, mark, modifyGet_bind]
        cases hm : (c.run.markRunning n).1 with
        | false => exact .ret ⟨h', hkeys⟩
        | true =>
            apply (persistTransition_passes rehydrating_lenient).seq
            rintro _ c₁ _ ⟨_, h₁, _⟩
            apply (recordNodeDispatched_passes rehydrating_lenient n node).seq
            rintro _ c₂ _ ⟨_, h₂, _⟩
            apply (armTimer_passes rehydrating_lenient n .startup _).mono
            rintro _ c₃ _ ⟨_, h₃, _⟩
            refine ⟨((h'.of_alike h₁).of_alike h₂).of_alike h₃, ?_⟩
            rw [h₃.run, h₂.run, h₁.run]
            exact hkeys

theorem dispatchReadyNodes_nearing (h : Nearing x todo c) :
    Strikes m c₀ x (fun c' _ => Nearing x todo c') (dispatchReadyNodes c) := by
  obtain ⟨order, _, _⟩ := Ordering.exists_append c.run.readyNodes [] .nil (by simp)
  refine .call order () trivial ?_
  have hkeys : ∀ n ∈ order.1, n ∈ c.run.statuses.keys := by
    intro n hn
    have hready : n ∈ c.run.readyNodes := by
      rw [← order.2.2]
      exact List.mem_toFinset.mpr hn
    exact HashMap.mem_keys_iff_lookup.mpr ⟨_, (mem_readyNodes.mp hready).1⟩
  have hloop : Strikes m c₀ x (fun c' _ => Nearing x todo c' ∧ ∀ n ∈ [], n ∈ c'.run.statuses.keys)
      (order.1.forM Coordinator.dispatchReadyNode c) := by
    refine Can.forM (P := fun l _ c => Nearing x todo c ∧ ∀ n ∈ l, n ∈ c.run.statuses.keys) ?_ order.1 ⟨h, hkeys⟩
    rintro n l ⟨⟩ c ⟨h, hl⟩
    apply (dispatchReadyNode_nearing h (hl n List.mem_cons_self)).mono
    rintro _ c' _ ⟨h', hkeys⟩
    rw [hkeys]
    exact ⟨h', fun y hy => hl y (List.mem_cons_of_mem _ hy)⟩
  exact hloop.mono fun _ _ _ hc => hc.1

/-- Where nothing is left to wait for, the next dispatch of ready nodes begins with `x`. -/
theorem dispatchReadyNodes_struck (h : Nearing x [] c) : Struck m c₀ x (dispatchReadyNodes c) := by
  obtain ⟨order, rest, hrest⟩ := Ordering.exists_append c.run.readyNodes [x] (by simp)
    (by simpa using h.ready)
  refine .call order () trivial ?_
  show Struck m c₀ x (order.1.forM Coordinator.dispatchReadyNode c)
  rw [hrest]
  apply Can.seq (P := fun _ _ _ => False)
  · show Struck m c₀ x (dispatchReadyNode x c)
    unfold Coordinator.dispatchReadyNode
    simp only [get_bind]
    cases hinfo : c.nodeInfoCache.lookup x with
    | none => exact absurd hinfo (h.declared x _ h.pending)
    | some node => exact .here (h.named x node hinfo)
  · exact fun _ _ _ hf => hf.elim

theorem failFastOrDispatch_struck (h : Nearing x [] c) (hff : c.failFastEnabled = false) :
    Struck m c₀ x (failFastOrDispatch c) := by
  unfold Coordinator.failFastOrDispatch
  simp only [get_bind, hff, Bool.false_eq_true, ↓reduceIte]
  apply (dispatchReadyNodes_struck h).seq
  exact fun _ _ _ hf => hf.elim

/-! ## Folding -/

/-- A success that is folded comes to a dispatch of the ready nodes. -/
theorem handleNodeCompleted_dispatches {Q : Coordinator → Bool → Prop}
    (hd : ∀ c', Alike (c.setRun (c.run.markSuccess n).2) c' →
      Strikes m c₀ x (fun c'' _ => Q c'' false) (dispatchReadyNodes c')) :
    Strikes m c₀ x Q (handleNodeCompleted n true c) := by
  unfold Coordinator.handleNodeCompleted
  simp only [↓reduceIte, mark, modifyGet_bind]
  apply (persistState_passes rehydrating_lenient).seq
  rintro _ c₁ _ ⟨_, h₁, rfl⟩
  apply (recordNodeCompleted_passes rehydrating_lenient n none).seq
  rintro _ c₂ _ ⟨_, h₂, _⟩
  apply (hd c₂ (h₁.trans h₂)).seq
  rintro ⟨⟩ c₃ _ hQ
  exact .ret hQ

theorem handleNodeCompleted_struck (h : Nearing x [] c) (hn : n ≠ x) (hff : c.failFastEnabled = false) :
    Struck m c₀ x (handleNodeCompleted n false c) := by
  unfold Coordinator.handleNodeCompleted
  simp only [Bool.false_eq_true, ↓reduceIte, mark, modifyGet_bind]
  apply (persistState_passes rehydrating_lenient).seq
  rintro _ c₁ _ ⟨_, h₁, rfl⟩
  apply (recordNodeCompleted_passes rehydrating_lenient n none).seq
  rintro _ c₂ _ ⟨_, h₂, _⟩
  apply failFastOrDispatch_struck
  · exact ((h.fail hn).of_alike h₁).of_alike h₂
  · rw [h₂.failFast, h₁.failFast]
    exact hff

/-- A completion that is folded is handled. -/
theorem foldCompletion_handles {Q : Coordinator → Bool → Prop} {b : Bool} (hn : Completes m n b)
    (hh : ∀ c', Alike c c' → Strikes m c₀ x Q (handleNodeCompleted n b c')) :
    Strikes m c₀ x Q (foldCompletion m n c) := by
  obtain ⟨s, f, hn⟩ := hn
  unfold Coordinator.foldCompletion
  rw [hn]
  apply (cancelNodeTimeout_passes rehydrating_lenient n).seq
  rintro _ c' _ ⟨_, h, _⟩
  exact hh c' h

theorem foldCompletion_nearing (h : Nearing x (n :: todo) c) (hn : Completes m n true) (hne : n ≠ x) :
    Strikes m c₀ x (fun c' b => b = false ∧ Nearing x todo c') (foldCompletion m n c) := by
  apply foldCompletion_handles hn
  intro c₁ h₁
  apply handleNodeCompleted_dispatches
  intro c₂ h₂
  apply (dispatchReadyNodes_nearing (((h.of_alike h₁).succeed hne).of_alike h₂)).mono
  exact fun _ _ _ hc => ⟨rfl, hc⟩

/-- The last completion that is waited for. -/
theorem foldCompletion_struck (h : Nearing x [n] c) (hn : Completes m n true) (hne : n ≠ x) :
    Struck m c₀ x (foldCompletion m n c) := by
  apply foldCompletion_handles hn
  intro c₁ h₁
  apply handleNodeCompleted_dispatches
  intro c₂ h₂
  exact dispatchReadyNodes_struck (((h.of_alike h₁).succeed hne).of_alike h₂)

theorem foldCompletion_struck_failure (h : Nearing x [] c) (hn : Completes m n false) (hne : n ≠ x)
    (hff : c.failFastEnabled = false) : Struck m c₀ x (foldCompletion m n c) := by
  apply foldCompletion_handles hn
  intro c₁ h₁
  apply handleNodeCompleted_struck (h.of_alike h₁) hne
  rw [h₁.failFast]
  exact hff

/-- The completions that are waited for are folded one after the other. -/
theorem fold_struck {k : String} (h : Nearing x (todo ++ [k]) c) (hnd : (todo ++ [k]).Nodup)
    (hall : ∀ d ∈ todo ++ [k], Completes m d true ∧ d ≠ x) :
    Struck m c₀ x (foldCompletionsFromOutcomes m c) := by
  obtain ⟨order, rest, hrest⟩ := Ordering.exists_append m.keys (todo ++ [k]) hnd <| by
    intro d hd
    obtain ⟨⟨s, f, ho⟩, _⟩ := hall d hd
    exact HashMap.mem_keys_iff_lookup.mpr ⟨_, ho⟩
  refine .call order () trivial ?_
  show Struck m c₀ x (order.1.anyM (Coordinator.foldCompletion m) c)
  rw [hrest, List.append_assoc]
  apply Can.anyM_append (P := fun l _ c => Nearing x (l ++ [k]) c ∧ ∀ d ∈ l ++ [k], Completes m d true ∧ d ≠ x)
    _ _ todo ⟨h, hall⟩
  · rintro n l ⟨⟩ c ⟨h, hall⟩
    obtain ⟨hn, hne⟩ := hall n List.mem_cons_self
    apply (foldCompletion_nearing h hn hne).mono
    rintro _ c' b ⟨rfl, h'⟩
    exact ⟨rfl, h', fun d hd => hall d (List.mem_cons_of_mem _ hd)⟩
  · rintro ⟨⟩ c ⟨h, hall⟩
    obtain ⟨hk, hne⟩ := hall k List.mem_cons_self
    apply (foldCompletion_struck h hk hne).seq
    exact fun _ _ _ hf => hf.elim

theorem fold_struck_failure {k : String} (h : Nearing x [] c) (hk : Completes m k false) (hne : k ≠ x)
    (hff : c.failFastEnabled = false) : Struck m c₀ x (foldCompletionsFromOutcomes m c) := by
  obtain ⟨order, rest, hrest⟩ := Ordering.exists_append m.keys [k] (by simp) <| by
    obtain ⟨s, f, ho⟩ := hk
    intro d hd
    rw [List.mem_singleton.mp hd]
    exact HashMap.mem_keys_iff_lookup.mpr ⟨_, ho⟩
  refine .call order () trivial ?_
  show Struck m c₀ x (order.1.anyM (Coordinator.foldCompletion m) c)
  rw [hrest]
  apply (foldCompletion_struck_failure h hk hne hff).seq
  exact fun _ _ _ hf => hf.elim

/-! ## Promoting -/

theorem handleNodeInfraFailed_struck (h : Nearing x [] c) (hn : c.run.statuses.lookup n = some .running)
    (hne : n ≠ x) (hff : c.failFastEnabled = false) (reason : InfraFailureReason) :
    Struck m c₀ x (handleNodeInfraFailed n reason c) := by
  have hm : (c.run.markFailed n).1 = true := markFailed_fst.mpr (.inl hn)
  unfold Coordinator.handleNodeInfraFailed
  simp only [get_bind, hn, mark, modifyGet_bind, hm, Option.any_some, reduceCtorEq, decide_false,
    Bool.or_self, Bool.false_eq_true, Bool.not_true, ↓reduceIte]
  apply (cancelNodeTimeout_passes rehydrating_lenient n).seq
  rintro _ c₁ _ ⟨_, h₁, _⟩
  apply (persistState_passes rehydrating_lenient).seq
  rintro _ c₂ _ ⟨_, h₂, rfl⟩
  apply (notifyWatcherOfDeletion_passes rehydrating_lenient n).seq
  rintro _ c₃ _ ⟨_, h₃, _⟩
  refine .call (.ok ()) () trivial ?_
  apply (recordNodeCompleted_passes rehydrating_lenient n (some reason)).seq
  rintro _ c₄ _ ⟨_, h₄, _⟩
  apply failFastOrDispatch_struck
  · exact ((((h.fail hne).of_alike h₁).of_alike h₂).of_alike h₃).of_alike h₄
  · rw [h₄.failFast, h₃.failFast, h₂.failFast, h₁.failFast]
    exact hff

/-- A started node is promoted, its pod is gone, and that failure has the ready nodes dispatched. -/
theorem promoteNode_struck (h : Nearing x [] c) (hn : c.run.statuses.lookup n = some .pending) (hne : n ≠ x)
    (hff : c.failFastEnabled = false) : Struck m c₀ x (promoteNode n c) := by
  have hm : (c.run.markRunning n).1 = true := markRunning_fst.mpr hn
  unfold Coordinator.promoteNode
  simp only [mark, modifyGet_bind, hm, Bool.not_true, Bool.false_eq_true, ↓reduceIte]
  apply (persistState_passes rehydrating_lenient).seq
  rintro _ c₁ _ ⟨_, h₁, _⟩
  refine .call (.ok false) () trivial ?_
  have hrun : c₁.run.statuses.lookup n = some .running := by
    rw [h₁.run]
    simp [setRun, markRunning, hn]
  apply handleNodeInfraFailed_struck ((h.start hne).of_alike h₁) hrun hne
  rw [h₁.failFast]
  exact hff

theorem promote_struck (h : Nearing x [] c) (hs : Started m n) (hn : c.run.statuses.lookup n = some .pending)
    (hne : n ≠ x) (hff : c.failFastEnabled = false) :
    Struck m c₀ x (promoteStartedPendingToRunning m c) := by
  obtain ⟨s, hs⟩ := hs
  have hprom : isPromotable c.run m n = true := by simp [isPromotable, hs, hn]
  obtain ⟨order, rest, hrest⟩ := Ordering.exists_append m.keys [n] (by simp) <| by
    intro d hd
    rw [List.mem_singleton.mp hd]
    exact HashMap.mem_keys_iff_lookup.mpr ⟨_, hs⟩
  refine .call order () trivial ?_
  show Struck m c₀ x ((order.1.filter (isPromotable c.run m)).anyM Coordinator.promoteNode c)
  rw [hrest, List.singleton_append, List.filter_cons_of_pos hprom]
  apply (promoteNode_struck h hn hne hff).seq
  exact fun _ _ _ hf => hf.elim

/-! ## Exposed nodes -/

theorem Exposed.nearing (hb : Begins c₀) (hd : Declared c₀.run.statuses c₀.pipeline) (hx : Exposed c₀ m x)
    (htodo : ∀ d, Completes m d true → d ≠ x → d ∈ todo) : Nearing x todo c₀ := by
  refine ⟨hb.named, ?_, hx.pending, ?_⟩
  · rw [hb.cache]
    exact hd
  · intro d hdep
    refine (hx.unblocked d hdep).imp_right ?_
    rintro ⟨hne, ho, hu⟩
    exact ⟨htodo d ho hne, hu⟩

/-- Another success is folded last. -/
theorem Exposed.fold_struck (hb : Begins c₀) (hd : Declared c₀.run.statuses c₀.pipeline) (hx : Exposed c₀ m x)
    {k : String} (hk : Completes m k true) (hne : k ≠ x) :
    Struck m c₀ x (foldCompletionsFromOutcomes m c₀) := by
  classical
  let before := m.keys.filter fun d => Completes m d true ∧ d ≠ x ∧ d ≠ k
  have hmem : ∀ d, d ∈ before.toList ++ [k] ↔ Completes m d true ∧ d ≠ x := by
    intro d
    simp only [before, List.mem_append, Finset.mem_toList, Finset.mem_filter, List.mem_singleton]
    constructor
    · rintro (⟨_, ho, hdx, _⟩ | rfl)
      · exact ⟨ho, hdx⟩
      · exact ⟨hk, hne⟩
    · rintro ⟨⟨s, f, ho⟩, hdx⟩
      by_cases he : d = k
      · exact .inr he
      · exact .inl ⟨HashMap.mem_keys_iff_lookup.mpr ⟨_, ho⟩, ⟨s, f, ho⟩, hdx, he⟩
  have hnearing : Nearing x (before.toList ++ [k]) _ := hx.nearing hb hd fun d ho hdx => (hmem d).mpr ⟨ho, hdx⟩
  apply Coordination.fold_struck hnearing
  · apply List.nodup_append.mpr
    refine ⟨before.nodup_toList, by simp, ?_⟩
    rintro a ha b hb' rfl
    rw [List.mem_singleton.mp hb'] at ha
    simp [before] at ha
  · exact fun d => (hmem d).mp

/-- The outcomes are read before anything else. -/
theorem readOutcomes_done (hx : c.run.statuses.lookup x = some .pending) :
    Strikes m c₀ x (fun c' outcomes => outcomes = m ∧ c' = c) (readOutcomesForNonTerminal c) := by
  have hmem : x ∈ c.run.nodesWith isNonTerminal := mem_nodesWith.mpr ⟨_, hx, rfl⟩
  obtain ⟨order, rest, hrest⟩ := Ordering.exists_append _ [x] (by simp) (by simpa using hmem)
  unfold Coordinator.readOutcomesForNonTerminal
  simp only [get_bind]
  refine .call order () trivial ?_
  simp only [Prog.ret_bind, hrest, List.singleton_append, List.isEmpty_cons, Bool.false_eq_true, ↓reduceIte]
  refine .call (some m) () rfl ?_
  exact .ret ⟨rfl, rfl⟩

theorem Exposed.rehydrate_struck (hb : Begins c₀) (hd : Declared c₀.run.statuses c₀.pipeline)
    (hx : Exposed c₀ m x) : Struck m c₀ x (rehydrate c₀) := by
  unfold Coordinator.rehydrate
  apply (readOutcomes_done hx.pending).seq
  rintro ⟨⟩ c₀ m ⟨rfl, rfl⟩
  by_cases htrue : ∃ k, Completes m k true ∧ k ≠ x
  · obtain ⟨k, hk, hne⟩ := htrue
    apply (hx.fold_struck hb hd hk hne).seq
    exact fun _ _ _ hf => hf.elim
  · have hnear : Nearing x [] c₀ := hx.nearing hb hd fun d ho hne => (htrue ⟨d, ho, hne⟩).elim
    obtain ⟨k, hne, hk⟩ := hx.triggered
    obtain ⟨hff, hk⟩ := hk.resolve_left fun ho => htrue ⟨k, ho, hne⟩
    by_cases hfalse : ∃ k, Completes m k false ∧ k ≠ x
    · obtain ⟨k, hk, hne⟩ := hfalse
      apply (fold_struck_failure hnear hk hne hff).seq
      exact fun _ _ _ hf => hf.elim
    · obtain ⟨hs, ⟨sx, hsx⟩, hpend⟩ := hk.resolve_left fun ho => hfalse ⟨k, ho, hne⟩
      have hnone : ∀ n b, ¬Completes m n b := by
        rintro n b ⟨s, f, ho⟩
        by_cases he : n = x
        · rw [he, hsx] at ho
          cases ho
        · cases b with
          | true => exact htrue ⟨n, ⟨s, f, ho⟩, he⟩
          | false => exact hfalse ⟨n, ⟨s, f, ho⟩, he⟩
      apply (fold_passes rehydrating_lenient hnone).seq
      rintro _ c₁ _ ⟨_, h₁, rfl⟩
      have hpend₁ : c₁.run.statuses.lookup k = some .pending := by
        rw [h₁.run]
        exact hpend
      apply (promote_struck (hnear.of_alike h₁) hs hpend₁ hne (h₁.failFast.trans hff)).seq
      exact fun _ _ _ hf => hf.elim

theorem Exposed.struck (hb : Begins c₀) (hre : c₀.isRehydrate = true)
    (hd : Declared c₀.run.statuses c₀.pipeline) (hx : Exposed c₀ m x) : Struck m c₀ x (start c₀) := by
  unfold Coordinator.start
  simp only [get_bind]
  refine .call () () trivial ?_
  simp only [Prog.ret_bind, hre, ↓reduceIte]
  apply (hx.rehydrate_struck hb hd).seq
  exact fun _ _ _ hf => hf.elim

/-- No dispatch of a rehydrated coordinator, up to its first wait, is of a node that the outcomes report, exactly
where the outcomes expose none of the Pending nodes of the stored state. -/
theorem rehydration_spares {c : Coordinator} {m : HashMap String ReconcileResult} (hb : Begins c)
    (hre : c.isRehydrate = true) (hd : Declared c.run.statuses c.pipeline) :
    (∀ w p, (rehydrating m c).Reaches coordinator w p → ∀ runId metadata node pipeline,
      p.pending = some (.dispatch runId metadata node pipeline) → ¬Reports m node.name) ↔
      ∀ n, ¬Exposed c m n := by
  constructor
  · intro h n hn
    have hleads : (rehydrating m c).Leads coordinator () (coordinator.start c) fun _ p =>
        ∃ runId metadata node pipeline, p.pending = some (.dispatch runId metadata node pipeline) ∧
          node.name = n := by
      obtain ⟨w, p, hr, hp⟩ : (rehydrating m c).Leads coordinator () (coordinator.start c) _ :=
        (hn.struck hb hre hd).leads
      refine ⟨w, p, hr, ?_⟩
      rcases hp with ⟨s, e, k, rfl, hg⟩ | ⟨_, _, _, hf⟩
      · cases e with
        | dispatch runId metadata node pipeline => exact ⟨runId, metadata, node, pipeline, rfl, hg⟩
        | _ => exact hg.elim
      · exact hf.elim
    obtain ⟨w, p, hr, runId, metadata, node, pipeline, hp, hname⟩ := hleads.reaches rfl
    apply h w p hr runId metadata node pipeline hp
    rw [hname]
    exact hn.reports
  · intro hx w p hr runId metadata node pipeline hp
    exact spares_of_unexposed hb hre hx hr hp

/-- S3 shows only the first of two nodes completed, and that node is not dispatched again. -/
theorem rehydration_spares_build :
    let c := rehydratedCoordinator .default "run" .buildAndTest
      ((PipelineRun.new Pipeline.buildAndTest.nodeInfo).toRunState 1 .buildAndTest)
    ∀ w p, (rehydrating (HashMap.ofList [("build", .completed true none 1)]) c).Reaches coordinator w p →
      ∀ runId metadata node pipeline, p.pending = some (.dispatch runId metadata node pipeline) →
        node.name ≠ "build" := by
  intro c w p hr runId metadata node pipeline hp hname
  let m : HashMap String ReconcileResult := HashMap.ofList [("build", .completed true none 1)]
  have honly : ∀ n r, m.lookup n = some r → n = "build" := by
    intro n r hn
    have hkey : n ∈ m.keys := HashMap.mem_keys_iff_lookup.mpr ⟨r, hn⟩
    simpa [m, HashMap.mem_keys_ofList] using hkey
  have hnone : ∀ n, ¬Exposed c m n := by
    intro n hn
    have hbuild : n = "build" := by
      rcases hn.reports with ⟨b, s, f, ho⟩ | ⟨s, ho⟩ <;> exact honly n _ ho
    obtain ⟨k, hne, hk⟩ := hn.triggered
    apply hne
    rw [hbuild]
    rcases hk with ⟨s, f, hk⟩ | ⟨_, ⟨s, f, hk⟩ | ⟨⟨s, hk⟩, _⟩⟩ <;> exact honly k _ hk
  apply (rehydration_spares (c := c) (begins_rehydrated _ _ _ _) rfl (declared_new _)).mpr hnone w p hr _ _ _ _ hp
  rw [hname]
  exact .inl ⟨true, none, 1, by decide⟩

/-- Both of two nodes were started although the stored state has them as Pending, and the second one depends on
the first. The completion of the first one is folded, and the second one is dispatched again. -/
theorem rehydration_redispatches :
    let c := rehydratedCoordinator .default "run" .buildAndTest
      ((PipelineRun.new Pipeline.buildAndTest.nodeInfo).toRunState 1 .buildAndTest)
    let m := HashMap.ofList [("build", .completed true none 1), ("test", .inProgress 2)]
    Begins c ∧ c.isRehydrate = true ∧ Declared c.run.statuses c.pipeline ∧
      ∃ w p, (rehydrating m c).Reaches coordinator w p ∧ ∃ runId metadata node pipeline,
        p.pending = some (.dispatch runId metadata node pipeline) ∧ Reports m node.name := by
  intro c m
  have h : (rehydrating m c).Leads coordinator () (coordinator.start c) fun _ p =>
      ∃ runId metadata node pipeline, p.pending = some (.dispatch runId metadata node pipeline) ∧
        Reports m node.name := by
    refine .call () () trivial ?_
    refine .call ⟨["build", "test"], by decide⟩ () trivial ?_
    refine .call (some m) () rfl ?_
    refine .call ⟨["build", "test"], by decide⟩ () trivial ?_
    refine .call (.ok true) () trivial ?_
    refine .call (.ok none) () trivial ?_
    refine .call (.ok none) () trivial ?_
    refine .call ⟨0, 0⟩ () trivial ?_
    refine .call (.ok ()) () trivial ?_
    refine .call ⟨["test"], by decide⟩ () trivial ?_
    exact .here ⟨_, _, _, _, rfl, .inr ⟨2, by decide⟩⟩
  obtain ⟨w, p, hr, hp⟩ := h.reaches rfl
  exact ⟨begins_rehydrated _ _ _ _, rfl, declared_new _, w, p, hr, hp⟩

end Jefferies.Coordination
