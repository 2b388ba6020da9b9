import Mathlib.Data.List.Basic

/-!
# Streams of messages

Readers come on to a stream at different times, and each is to get what is sent from then on. A broadcast channel keeps
what was sent last, for all its readers: who falls further behind than the channel keeps misses the oldest.
-/

namespace Jefferies.Messaging

variable {α : Type}

/-! ## Feeds -/

/-- The share of one reader: what it has taken, and what is still before it. -/
structure Feed (α : Type) where
  taken : List α
  waiting : List α

/-- Of what was sent the reader gets each once and in order, but for as many as it misses. -/
structure Feed.Carries (feed : Feed α) (sent : List α) (missed : Nat) : Prop where
  sublist : (feed.taken ++ feed.waiting).Sublist sent
  length : (feed.taken ++ feed.waiting).length + missed = sent.length

namespace Feed.Carries

variable {taken waiting rest sent : List α} {missed : Nat} {a : α}

theorem start : Carries ⟨[], []⟩ ([] : List α) 0 := ⟨.slnil, rfl⟩

theorem send (h : Carries ⟨taken, waiting⟩ sent missed) (a : α) :
    Carries ⟨taken, waiting ++ [a]⟩ (sent ++ [a]) missed := by
  refine ⟨?_, ?_⟩
  · rw [← List.append_assoc]
    exact h.sublist.append (.refl _)
  · have hlength := h.length
    simp only [List.length_append, List.length_singleton] at hlength ⊢
    omega

theorem take (h : Carries ⟨taken, a :: rest⟩ sent missed) : Carries ⟨taken ++ [a], rest⟩ sent missed := by
  have happend : taken ++ [a] ++ rest = taken ++ a :: rest := by simp
  refine ⟨?_, ?_⟩
  · rw [happend]
    exact h.sublist
  · rw [happend]
    exact h.length

/-- The oldest that waits is lost. -/
theorem lose (h : Carries ⟨taken, a :: rest⟩ sent missed) : Carries ⟨taken, rest⟩ sent (missed + 1) := by
  refine ⟨?_, ?_⟩
  · exact ((List.sublist_cons_self a rest).append_left taken).trans h.sublist
  · have hlength := h.length
    simp only [List.length_append, List.length_cons] at hlength ⊢
    omega

/-- Nothing that was sent is lost to a reader that misses none. -/
theorem whole_iff {feed : Feed α} (h : feed.Carries sent missed) : feed.taken ++ feed.waiting = sent ↔ missed = 0 := by
  have hlength := h.length
  constructor
  · intro heq
    rw [heq] at hlength
    omega
  · rintro rfl
    exact h.sublist.eq_of_length hlength

end Feed.Carries

/-! ## Broadcast channels -/

/-- A channel, with all that was sent in it; of this it keeps as many as its capacity. -/
structure Channel (α : Type) where
  capacity : Nat
  sent : List α

/-- What a reader gets of a channel: a value, or how many it has missed. -/
inductive Received (α : Type) where
  | value (a : α)
  | lagged (n : Nat)
  deriving DecidableEq

namespace Channel

/-- The position of the oldest value that is kept. -/
def oldest (self : Channel α) : Nat := self.sent.length - self.capacity

def send (self : Channel α) (a : α) : Channel α := { self with sent := self.sent ++ [a] }

/-- The position of a reader that comes on. -/
def subscribe (self : Channel α) : Nat := self.sent.length

/-- What the reader gets, and its position then; nothing as long as there is nothing to get. -/
def receive (self : Channel α) (position : Nat) : Option (Received α × Nat) :=
  if position < self.oldest then some (.lagged (self.oldest - position), self.oldest)
  else self.sent[position]?.map fun a => (.value a, position + 1)

/-- What the reader would still get. -/
def waiting (self : Channel α) (position : Nat) : List α := self.sent.drop (max position self.oldest)

/-- The reader is further behind than the channel keeps. -/
def Lags (self : Channel α) (position : Nat) : Prop := position + self.capacity < self.sent.length

instance (self : Channel α) (position : Nat) : Decidable (self.Lags position) :=
  inferInstanceAs (Decidable (_ < _))

variable {self : Channel α} {position position' n : Nat} {a : α}

theorem waiting_subscribe (self : Channel α) : self.waiting self.subscribe = [] := by
  rw [waiting, List.drop_eq_nil_iff]
  exact Nat.le_max_left _ _

theorem not_lags_subscribe (self : Channel α) : ¬self.Lags self.subscribe := by
  simp only [Lags, subscribe]
  omega

/-- What is sent is before every reader. -/
theorem waiting_send (h : position ≤ self.sent.length) (hlags : ¬(self.send a).Lags position) :
    (self.send a).waiting position = self.waiting position ++ [a] := by
  simp only [Lags, send, List.length_append, List.length_singleton] at hlags
  have hmax : max position (self.send a).oldest = position := by
    simp only [oldest, send, List.length_append, List.length_singleton]
    omega
  have hmax' : max position self.oldest = position := by
    simp only [oldest]
    omega
  rw [waiting, waiting, hmax, hmax', send, List.drop_append_of_le_length h]

/-- One value more is sent than the channel can keep for the reader. -/
theorem waiting_send_of_lags (h : position ≤ self.sent.length) (hlags : (self.send a).Lags position) :
    ∃ b, self.waiting position ++ [a] = b :: (self.send a).waiting position := by
  simp only [Lags, send, List.length_append, List.length_singleton] at hlags
  have hoffset : max position self.oldest ≤ self.sent.length := by
    simp only [oldest]
    omega
  have hmax : max position (self.send a).oldest = max position self.oldest + 1 := by
    simp only [oldest, send, List.length_append, List.length_singleton]
    omega
  have hwaiting : self.waiting position ++ [a] = (self.sent ++ [a]).drop (max position self.oldest) := by
    rw [waiting, List.drop_append_of_le_length hoffset]
  rw [hwaiting, waiting, hmax, send]
  refine ⟨_, List.drop_eq_getElem_cons ?_⟩
  rw [List.length_append, List.length_singleton]
  omega

theorem receive_value (hr : self.receive position = some (.value a, position')) :
    self.waiting position = a :: self.waiting position' ∧ position' ≤ self.sent.length ∧
      (self.Lags position' ↔ self.Lags position) := by
  unfold receive at hr
  split at hr
  · cases hr
  · rename_i hkept
    obtain ⟨b, hb, heq⟩ := Option.map_eq_some_iff.mp hr
    cases heq
    obtain ⟨hlt, rfl⟩ := List.getElem?_eq_some_iff.mp hb
    have hmax : max position self.oldest = position := by omega
    have hmax' : max (position + 1) self.oldest = position + 1 := by omega
    refine ⟨?_, by omega, ?_⟩
    · rw [waiting, waiting, hmax, hmax', List.drop_eq_getElem_cons hlt]
    · simp only [oldest] at hkept
      simp only [Lags]
      omega

theorem receive_lagged (hr : self.receive position = some (.lagged n, position')) :
    self.waiting position' = self.waiting position ∧ position' ≤ self.sent.length ∧ self.Lags position := by
  unfold receive at hr
  split at hr
  · rename_i hlags
    cases hr
    refine ⟨?_, ?_, ?_⟩
    · rw [waiting, waiting, Nat.max_self, Nat.max_eq_right (Nat.le_of_lt hlags)]
    · simp only [oldest]
      omega
    · simp only [oldest] at hlags
      simp only [Lags]
      omega
  · obtain ⟨b, -, heq⟩ := Option.map_eq_some_iff.mp hr
    cases heq

/-- A reader that gets nothing has got all. -/
theorem receive_none (hr : self.receive position = none) : self.waiting position = [] := by
  unfold receive at hr
  split at hr
  · cases hr
  · have hlength := List.getElem?_eq_none_iff.mp (Option.map_eq_none_iff.mp hr)
    rw [waiting, List.drop_eq_nil_iff]
    omega

end Channel

end Jefferies.Messaging
