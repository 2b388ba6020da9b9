import Mathlib.Data.List.Forall2
import Jefferies.Interaction.System
import Jefferies.Interaction.Transcript

/-!
# Following one process

A process of a system can be followed through a run: from the step that started it, it has taken one answer or input
after the other, each of which the world gave it as the world was then. What holds of a program for every world that it
may find at each of its calls holds of it among other processes.
-/

namespace Jefferies.Interaction

open Transition

variable {W S I C L E : Type} {R : E → Type} {α : Type}

namespace System

variable (sys : System W S I C L R α)

/-- The step starts a process with the program. -/
def Starts (t : Step (Config W S R α) (Act I C L)) (p : Prog S R (Option α)) : Prop :=
  match t.label with
  | .outside l => ∃ a, sys.outside t.before.world l = some a ∧ p ∈ a.2
  | .answer i _ => ∃ s e k, t.before.procs[i]? = some (some (.call s e k)) ∧ p ∈ sys.spawned e
  | _ => False

/-- The world, as it is, gives the answer or the input. -/
def Shows (w : W) : Moment S I R → Prop
  | .answered s e r => ∃ c w', sys.respond w s e c = some (r, w')
  | .received s i => ∃ w', sys.accept w s i = some w'

/-- In the course of the transitions, the program has come from `p` to `q`, with what it was given and the worlds that
gave it. -/
def Followed (since : List (Step (Config W S R α) (Act I C L))) (p q : Prog S R (Option α)) : Prop :=
  ∃ tr worlds, Exec sys.handle p tr q ∧ List.Forall₂ sys.Shows worlds tr ∧
    worlds.Sublist (since.map (·.before.world))

variable {sys} {since : List (Step (Config W S R α) (Act I C L))} {t : Step (Config W S R α) (Act I C L)}
  {p q : Prog S R (Option α)}

theorem Followed.refl (p : Prog S R (Option α)) : sys.Followed [] p p := ⟨[], [], .refl p, .nil, .slnil⟩

/-- The process has not moved. -/
theorem Followed.waits (h : sys.Followed since p q) : sys.Followed (since ++ [t]) p q := by
  obtain ⟨tr, worlds, hexec, hshows, hsub⟩ := h
  refine ⟨tr, worlds, hexec, hshows, ?_⟩
  rw [List.map_append]
  exact hsub.trans (List.sublist_append_left _ _)

/-- The process has moved by what the world gave it. -/
theorem Followed.moves {m : Moment S I R} {q' : Prog S R (Option α)} (h : sys.Followed since p q)
    (hm : Exec sys.handle q [m] q') (hshows : sys.Shows t.before.world m) : sys.Followed (since ++ [t]) p q' := by
  obtain ⟨tr, worlds, hexec, htr, hsub⟩ := h
  refine ⟨tr ++ [m], worlds ++ [t.before.world], hexec.trans hm, ?_, ?_⟩
  · exact List.rel_append htr (.cons hshows .nil)
  · rw [List.map_append]
    exact hsub.append (.refl _)

/-- Every process that is alive can be followed from the step that started it. -/
theorem followed {init : Config W S R α → Prop} (hinit : ∀ σ, init σ → σ.procs = [])
    {h : List (Step (Config W S R α) (Act I C L))} {σ : Config W S R α} (hr : Run sys.step init h σ) :
    ∀ (i : Nat) q, σ.procs[i]? = some (some q) →
      ∃ before t since p, h = before ++ t :: since ∧ sys.Starts t p ∧ sys.Followed since p q := by
  apply hr.invariant
  · intro σ hσ i q hq
    rw [hinit σ hσ] at hq
    cases hq
  · intro h σ l σ' _ ih hstep i q hq
    have hold {m : Moment S I R} {q' : Prog S R (Option α)} {j : Nat} (hq' : σ.procs[j]? = some (some q'))
        (hm : Exec sys.handle q' [m] q) (hshows : sys.Shows σ.world m) : ∃ before t since p,
          h ++ [⟨σ, l, σ'⟩] = before ++ t :: since ∧ sys.Starts t p ∧ sys.Followed since p q := by
      obtain ⟨before, t, since, p, rfl, hstarts, hfollowed⟩ := ih j q' hq'
      exact ⟨before, t, since ++ [⟨σ, l, σ'⟩], p, by simp, hstarts, hfollowed.moves hm hshows⟩
    have hsame {j : Nat} (hq' : σ.procs[j]? = some (some q)) : ∃ before t since p,
          h ++ [⟨σ, l, σ'⟩] = before ++ t :: since ∧ sys.Starts t p ∧ sys.Followed since p q := by
      obtain ⟨before, t, since, p, rfl, hstarts, hfollowed⟩ := ih j q hq'
      exact ⟨before, t, since ++ [⟨σ, l, σ'⟩], p, by simp, hstarts, hfollowed.waits⟩
    cases l with
    | answer n c =>
        obtain ⟨s, e, k, a, hp, ha, rfl⟩ := step_answer hstep
        rcases getElem?_set_append hq with ⟨rfl, -, heq⟩ | ⟨-, -, hq'⟩ | ⟨m, rfl, hnew⟩
        · cases heq
          exact hold hp (.answered a.1 (.refl _)) ⟨c, a.2, ha⟩
        · exact hsame hq'
        · obtain ⟨p, hp', heq⟩ := List.mem_map.mp (List.mem_of_getElem? hnew)
          cases heq
          exact ⟨h, _, [], q, rfl, ⟨s, e, k, hp, hp'⟩, .refl q⟩
    | deliver n input =>
        obtain ⟨s, w, hp, hw, rfl⟩ := step_deliver hstep
        rw [List.getElem?_set] at hq
        split at hq
        · split at hq
          · cases hq
            exact hold hp (.received input (.refl _)) ⟨w, hw⟩
          · cases hq
        · exact hsame hq
    | crash n =>
        obtain rfl := step_crash hstep
        rw [List.getElem?_set] at hq
        split at hq
        · split at hq
          · cases hq
          · cases hq
        · exact hsame hq
    | outside l =>
        obtain ⟨a, ha, rfl⟩ := step_outside hstep
        rcases getElem?_append_cases hq with ⟨-, hq'⟩ | ⟨m, rfl, hnew⟩
        · exact hsame hq'
        · obtain ⟨p, hp', heq⟩ := List.mem_map.mp (List.mem_of_getElem? hnew)
          cases heq
          exact ⟨h, _, [], q, rfl, ⟨a, ha, hp'⟩, .refl q⟩

/-- Where every process that is started makes only calls that are warranted by what it was answered before, each call of a
run is so, and each of those answers was given by the world at some time since the process was started. -/
theorem warranted {init : Config W S R α → Prop} (hinit : ∀ σ, init σ → σ.procs = [])
    {h : List (Step (Config W S R α) (Act I C L))} {σ : Config W S R α} (hr : Run sys.step init h σ)
    {P : Step (Config W S R α) (Act I C L) → Transcript R → E → Prop}
    (hstart : ∀ t p, sys.Starts t p → (Monitor.recording (I := I) (P t)).Obeys p [] fun _ _ _ => True)
    (hhandle : ∀ t input s calls, (Monitor.recording (I := I) (P t)).Obeys (sys.handle input s) calls fun _ _ _ => True)
    {i : Nat} {s : S} {e : E} {k : R e → Prog S R (Option α)} (hcall : σ.procs[i]? = some (some (.call s e k))) :
    ∃ before t since calls, h = before ++ t :: since ∧ (∃ p, sys.Starts t p) ∧ P t calls e ∧
      ∀ call ∈ calls, ∃ t' ∈ since, ∃ s', sys.Shows t'.before.world (.answered s' call.1 call.2) := by
  obtain ⟨before, t, since, p, rfl, hstarts, tr, worlds, hexec, hshows, hsub⟩ := followed hinit hr i _ hcall
  have hassumed : (Monitor.recording (S := S) (I := I) (P t)).Assumed [] tr :=
    Monitor.assumed_of_forall _ (fun _ _ => trivial) _ _
  have hobeys := Monitor.obeys_exec (fun calls s input _ _ => hhandle t input s _) hexec (hstart t p hstarts) hassumed
  refine ⟨before, t, since, _, rfl, ⟨p, hstarts⟩, hobeys.1, fun call hmem => ?_⟩
  rcases Monitor.mem_after_recording hmem with hnil | ⟨s', hs'⟩
  · cases hnil
  · obtain ⟨n, hn, hget⟩ := List.mem_iff_getElem.mp hs'
    have hlength := hshows.length_eq
    have hshown := hshows.get (by omega) hn
    obtain ⟨t', ht', hworld⟩ := List.mem_map.mp (hsub.subset (List.getElem_mem (by omega : n < worlds.length)))
    refine ⟨t', ht', s', ?_⟩
    rw [List.get_eq_getElem, List.get_eq_getElem, hget] at hshown
    rwa [hworld]

end System

end Jefferies.Interaction
