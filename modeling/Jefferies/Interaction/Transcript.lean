import Jefferies.Interaction.Monitor

/-!
# Transcripts

A transcript of a program that has ended has every call that it made, each with its answer, in order.
-/

namespace Jefferies.Interaction

variable {S E I : Type} {R : E → Type} {α : Type}

/-- The calls that were made, and what each of them was answered. -/
abbrev Transcript {E : Type} (R : E → Type) : Type := List ((e : E) × R e)

namespace Prog

/-- The program ends in `s` and `a` when its calls are answered as in the transcript. -/
def Yields : Prog S R α → Transcript R → S → α → Prop
  | .ret s a, calls, s', a' => calls = [] ∧ s' = s ∧ a' = a
  | .call _ e k, calls, s', a' => ∃ r rest, calls = ⟨e, r⟩ :: rest ∧ (k r).Yields rest s' a'

theorem ends_iff_yields {p : Prog S R α} {s : S} {a : α} :
    p.Ends (fun _ _ _ => True) s a ↔ ∃ calls, p.Yields calls s a := by
  induction p with
  | ret s' a' =>
      constructor
      · intro h
        exact ⟨[], rfl, h⟩
      · rintro ⟨_, -, h⟩
        exact h
  | call s' e k ih =>
      constructor
      · rintro ⟨r, -, h⟩
        obtain ⟨rest, hrest⟩ := (ih r).mp h
        exact ⟨_, r, rest, rfl, hrest⟩
      · rintro ⟨_, r, rest, -, h⟩
        exact ⟨r, trivial, (ih r).mpr ⟨rest, h⟩⟩

end Prog

namespace Monitor

/-- The watcher that writes every call down with its answer. A call may be promised to be warranted by what was written
down before it. -/
def recording (warranted : Transcript R → E → Prop) : Monitor (Transcript R) S I R where
  assume _ _ := True
  ok calls _ e := warranted calls e
  next
    | calls, .answered _ e r => calls ++ [⟨e, r⟩]
    | calls, .received _ _ => calls

/-- The watcher that only writes down. -/
abbrev recorder : Monitor (Transcript R) S I R := recording fun _ _ => True

variable {warranted : Transcript R → E → Prop}

/-- What the recorder finds at the end holds of the transcript. -/
theorem Obeys.yields {p : Prog S R α} {before : Transcript R} {Q : Transcript R → S → α → Prop}
    (h : (recording (I := I) warranted).Obeys p before Q) {calls : Transcript R} {s : S} {a : α}
    (hy : p.Yields calls s a) : Q (before ++ calls) s a := by
  induction p generalizing before calls with
  | ret s' a' =>
      obtain ⟨rfl, rfl, rfl⟩ := hy
      rw [List.append_nil]
      exact h
  | call s' e k ih =>
      obtain ⟨r, rest, rfl, hy⟩ := hy
      have hrest := ih r (h.2 r trivial) hy
      rwa [recording, List.append_assoc] at hrest

/-- What is warranted does not depend on the local state. -/
theorem Obeys.map_recording {S' I' : Type} {β : Type} {p : Prog S R α} {calls : Transcript R} {Q : Transcript R → S → α → Prop}
    (h : (recording (I := I) warranted).Obeys p calls Q) (f : S → S') (g : α → β) :
    (recording (I := I') warranted).Obeys (p.map f g) calls fun _ _ _ => True := by
  induction p generalizing calls with
  | ret s a => trivial
  | call s e k ih => exact ⟨h.1, fun r _ => ih r (h.2 r trivial)⟩

/-- A program that makes only calls that need no warrant. -/
theorem obeys_recording {P : E → Prop} (hP : ∀ calls e, P e → warranted calls e) {p : Prog S R α} (h : p.Calls P)
    (calls : Transcript R) : (recording (I := I) warranted).Obeys p calls fun _ _ _ => True :=
  obeys_calls (Q := fun _ => True) (fun calls _ e _ he => ⟨hP calls e he, fun _ _ => trivial⟩) h trivial

/-- A call that is written down was made. -/
theorem mem_after_recording {call : (e : E) × R e} {before : Transcript R} {tr : List (Moment S I R)}
    (h : call ∈ (recording (S := S) (I := I) warranted).after before tr) :
    call ∈ before ∨ ∃ s, .answered s call.1 call.2 ∈ tr := by
  induction tr generalizing before with
  | nil => exact .inl h
  | cons m tr ih =>
      rcases ih h with hbefore | ⟨s, hs⟩
      · cases m with
        | answered s e r =>
            rcases List.mem_append.mp hbefore with hbefore | hnew
            · exact .inl hbefore
            · obtain rfl := List.mem_singleton.mp hnew
              exact .inr ⟨s, List.mem_cons_self⟩
        | received s i => exact .inl hbefore
      · exact .inr ⟨s, List.mem_cons_of_mem _ hs⟩

end Monitor

end Jefferies.Interaction
