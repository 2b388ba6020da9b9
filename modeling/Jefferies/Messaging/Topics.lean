import Mathlib.Data.List.Basic

/-!
# Topics

A topic exchange hands a message to the queues whose binding matches its routing key. Both consist of words between dots;
in a binding `*` stands for one word and `#` for any number of them.
-/

namespace Jefferies.Messaging

/-- The words of a key. -/
def words (key : String) : List (List Char) := key.toList.splitOn '.'

/-- The words of a binding match those of a routing key. -/
def wordsMatch : List (List Char) → List (List Char) → Bool
  | [], key => key.isEmpty
  | word :: binding, key =>
      if word = ['#'] then key.tails.any (wordsMatch binding)
      else
        match key with
        | [] => false
        | word' :: key => (word = ['*'] || word = word') && wordsMatch binding key

def topicMatches (binding key : String) : Bool := wordsMatch (words binding) (words key)

theorem words_inj {a b : String} : words a = words b ↔ a = b := by
  constructor
  · intro h
    have hchars := congrArg (['.'].intercalate ·) h
    simp only [words, List.intercalate_splitOn] at hchars
    exact String.toList_inj.mp hchars
  · rintro rfl
    rfl

theorem mem_of_mem_splitOn {l : List Char} {c : Char} : ∀ w ∈ l.splitOn c, ∀ x ∈ w, x ∈ l := by
  induction l with
  | nil => simp
  | cons d l ih =>
      rw [List.splitOn_cons_eq_if_modifyHead]
      split
      · intro w hw x hx
        rcases List.mem_cons.mp hw with rfl | hw
        · cases hx
        · exact List.mem_cons_of_mem _ (ih w hw x hx)
      · obtain ⟨w₀, rest, hsplit⟩ := List.exists_cons_of_ne_nil (List.splitOn_ne_nil c l)
        rw [hsplit, List.modifyHead_cons]
        rw [hsplit] at ih
        intro w hw x hx
        rcases List.mem_cons.mp hw with rfl | hw
        · rcases List.mem_cons.mp hx with rfl | hx
          · exact List.mem_cons_self
          · exact List.mem_cons_of_mem _ (ih w₀ List.mem_cons_self x hx)
        · exact List.mem_cons_of_mem _ (ih w (List.mem_cons_of_mem _ hw) x hx)

/-- Words that are no wildcards match only themselves. -/
theorem wordsMatch_iff {binding key : List (List Char)} (hplain : ∀ word ∈ binding, word ≠ ['*'] ∧ word ≠ ['#']) :
    wordsMatch binding key = true ↔ binding = key := by
  induction binding generalizing key with
  | nil =>
      rw [wordsMatch, List.isEmpty_iff]
      exact eq_comm
  | cons word binding ih =>
      obtain ⟨⟨hstar, hhash⟩, hrest⟩ := List.forall_mem_cons.mp hplain
      rw [wordsMatch.eq_def]
      simp only [if_neg hhash]
      cases key with
      | nil => simp
      | cons word' key => simp [hstar, ih hrest]

/-- A binding without wildcards matches only the key that it is. -/
theorem topicMatches_iff {binding key : String} (hstar : '*' ∉ binding.toList) (hhash : '#' ∉ binding.toList) :
    topicMatches binding key = true ↔ key = binding := by
  have hplain : ∀ word ∈ words binding, word ≠ ['*'] ∧ word ≠ ['#'] := by
    intro word hword
    constructor
    · rintro rfl
      exact hstar (mem_of_mem_splitOn _ hword _ List.mem_cons_self)
    · rintro rfl
      exact hhash (mem_of_mem_splitOn _ hword _ List.mem_cons_self)
  rw [topicMatches, wordsMatch_iff hplain, words_inj, eq_comm]

example : topicMatches "run.*" "run.7" = true ∧ topicMatches "run.#" "run" = true ∧ topicMatches "run.7" "run.70" = false := by
  decide

end Jefferies.Messaging
