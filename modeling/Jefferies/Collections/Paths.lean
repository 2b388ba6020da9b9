import Jefferies.Collections.Text

/-!
# Paths

An absolute path leads from the root to a place, whatever its spelling: repeated and trailing slashes and `.` add
nothing, and `..` goes up. Two places overlap where one lies inside the other. Of the spellings of a place one is
canonical, and on such spellings the overlap can be read off from the text.
-/

namespace Jefferies

/-- The names of the directories from the root down. -/
abbrev Place : Type := List (List Char)

/-- One segment of a path: the root is above itself. -/
def Place.follow (here : Place) (segment : List Char) : Place :=
  if segment = [] ∨ segment = ['.'] then here
  else if segment = ['.', '.'] then here.dropLast
  else here ++ [segment]

def segments (path : String) : List (List Char) := path.toList.splitOn '/'

/-- Where an absolute path leads. -/
def place (path : String) : Place := (segments path).foldl Place.follow []

/-- One place is the other, contains it or lies inside it. -/
def Place.Overlap (a b : Place) : Prop := a <+: b ∨ b <+: a

/-! ## Segments -/

theorem not_mem_of_mem_splitOn {l : List Char} {c : Char} : ∀ s ∈ l.splitOn c, c ∉ s := by
  induction l with
  | nil => simp
  | cons d l ih =>
      rw [List.splitOn_cons_eq_if_modifyHead]
      split
      · intro s hs
        rcases List.mem_cons.mp hs with rfl | hs
        · simp
        · exact ih s hs
      · rename_i hd
        obtain ⟨s₀, rest, hsplit⟩ := List.exists_cons_of_ne_nil (List.splitOn_ne_nil c l)
        rw [hsplit, List.modifyHead_cons]
        rw [hsplit] at ih
        intro s hs
        rcases List.mem_cons.mp hs with rfl | hs
        · have hs₀ := ih s₀ List.mem_cons_self
          simp only [beq_iff_eq] at hd
          simp [hs₀, Ne.symm hd]
        · exact ih s (List.mem_cons_of_mem _ hs)

/-- No name of a directory has a slash. -/
def SlashFree (a : Place) : Prop := ∀ s ∈ a, '/' ∉ s

theorem SlashFree.follow {a : Place} {s : List Char} (ha : SlashFree a) (hs : '/' ∉ s) : SlashFree (a.follow s) := by
  unfold Place.follow
  split
  · exact ha
  · split
    · exact fun t ht => ha t (List.mem_of_mem_dropLast ht)
    · intro t ht
      rcases List.mem_append.mp ht with ht | ht
      · exact ha t ht
      · rw [List.mem_singleton.mp ht]
        exact hs

theorem SlashFree.foldl {a : Place} {l : List (List Char)} (ha : SlashFree a) (hl : ∀ s ∈ l, '/' ∉ s) :
    SlashFree (l.foldl Place.follow a) := by
  induction l generalizing a with
  | nil => exact ha
  | cons s l ih =>
      apply ih (ha.follow (hl s List.mem_cons_self))
      exact fun t ht => hl t (List.mem_cons_of_mem _ ht)

theorem place_slashFree (path : String) : SlashFree (place path) :=
  SlashFree.foldl (by simp [SlashFree]) not_mem_of_mem_splitOn

/-- A path behind another. -/
theorem place_append (path rest : String) :
    place (path ++ "/" ++ rest) = (segments rest).foldl Place.follow (place path) := by
  have hsplit : segments (path ++ "/" ++ rest) = segments path ++ segments rest := by
    have htext : (path ++ "/" ++ rest).toList = path.toList ++ '/' :: rest.toList := by simp
    rw [segments, htext, List.splitOn_append_cons_self]
    rfl
  rw [place, hsplit, List.foldl_append, place]

/-! ## The canonical spelling -/

/-- The root is spelled by the empty text. -/
def spell (a : Place) : List Char := a.flatMap fun s => '/' :: s

/-- The shortest spelling of a path's place. -/
def canonical (path : String) : String := String.ofList (spell (place path))

@[simp] theorem spell_nil : spell [] = [] := rfl

@[simp] theorem spell_cons (s : List Char) (a : Place) : spell (s :: a) = '/' :: (s ++ spell a) := rfl

/-- A name ends where a slash stands. -/
theorem name_prefix {s t x y : List Char} (hs : '/' ∉ s) (ht : '/' ∉ t) (hy : y = [] ∨ ∃ y', y = '/' :: y')
    (h : s ++ '/' :: x <+: t ++ y) : s = t ∧ '/' :: x <+: y := by
  induction s generalizing t with
  | nil =>
      cases t with
      | nil => exact ⟨rfl, by simpa using h⟩
      | cons c t =>
          have hc := (List.cons_prefix_cons.mp (by simpa using h)).1
          simp [← hc] at ht
  | cons c s ih =>
      cases t with
      | nil =>
          rcases hy with rfl | ⟨y', rfl⟩
          · simp at h
          · have hc := (List.cons_prefix_cons.mp (by simpa using h)).1
            simp [hc] at hs
      | cons d t =>
          obtain ⟨rfl, htail⟩ := List.cons_prefix_cons.mp (show c :: (s ++ '/' :: x) <+: d :: (t ++ y) from h)
          obtain ⟨rfl, hrest⟩ := ih (fun hm => hs (List.mem_cons_of_mem _ hm)) (fun hm => ht (List.mem_cons_of_mem _ hm)) htail
          exact ⟨rfl, hrest⟩

theorem spell_cases (a : Place) : spell a = [] ∨ ∃ x, spell a = '/' :: x := by
  cases a with
  | nil => exact .inl rfl
  | cons s a => exact .inr ⟨_, rfl⟩

/-- A place lies below another just where its spelling continues the other's with a slash. -/
theorem spell_slash_starts {a b : Place} (ha : SlashFree a) (hb : SlashFree b) :
    spell a ++ ['/'] <+: spell b ↔ a <+: b ∧ a ≠ b := by
  induction a generalizing b with
  | nil =>
      cases b with
      | nil => simp
      | cons s b => simp
  | cons s a ih =>
      cases b with
      | nil => simp
      | cons t b =>
          have ha' : SlashFree a := fun u hu => ha u (List.mem_cons_of_mem _ hu)
          have hb' : SlashFree b := fun u hu => hb u (List.mem_cons_of_mem _ hu)
          obtain ⟨x, hx⟩ : ∃ x, spell a ++ ['/'] = '/' :: x := by
            rcases spell_cases a with he | ⟨x, he⟩
            · exact ⟨[], by rw [he]; rfl⟩
            · exact ⟨x ++ ['/'], by rw [he]; rfl⟩
          have htext : spell (s :: a) ++ ['/'] <+: spell (t :: b) ↔ s ++ '/' :: x <+: t ++ spell b := by
            rw [← hx]
            simp [List.cons_prefix_cons]
          rw [htext, List.cons_prefix_cons]
          constructor
          · intro h
            obtain ⟨rfl, hrest⟩ := name_prefix (ha s List.mem_cons_self) (hb t List.mem_cons_self) (spell_cases b) h
            rw [← hx, ih ha' hb'] at hrest
            exact ⟨⟨rfl, hrest.1⟩, fun he => hrest.2 (List.cons_inj_right _ |>.mp he)⟩
          · rintro ⟨⟨rfl, hstart⟩, hne⟩
            rw [List.prefix_append_right_inj, ← hx, ih ha' hb']
            exact ⟨hstart, fun he => hne (by rw [he])⟩

theorem spell_inj {a b : Place} (ha : SlashFree a) (hb : SlashFree b) : spell a = spell b ↔ a = b := by
  -- a slash more is the spelling of an empty name behind the place
  have hslash : ∀ c : Place, spell (c ++ [[]]) = spell c ++ ['/'] := by simp [spell]
  have hstart : ∀ c d : Place, SlashFree c → SlashFree d → spell c = spell d → c <+: d := by
    intro c d hc hd h
    have hd' : SlashFree (d ++ [[]]) := by
      intro s hs
      rcases List.mem_append.mp hs with hs | hs
      · exact hd s hs
      · simp [List.mem_singleton.mp hs]
    have hle : spell c ++ ['/'] <+: spell (d ++ [[]]) := by rw [hslash, h]
    obtain ⟨hp, hne⟩ := (spell_slash_starts hc hd').mp hle
    rcases List.prefix_concat_iff.mp hp with he | hp
    · exact absurd he hne
    · exact hp
  constructor
  · intro h
    have hab := hstart a b ha hb h
    have hba := hstart b a hb ha h.symm
    exact hab.eq_of_length (le_antisymm hab.length_le hba.length_le)
  · rintro rfl
    rfl

theorem canonical_eq_iff {path path' : String} : canonical path = canonical path' ↔ place path = place path' := by
  rw [canonical, canonical, String.ofList_inj, spell_inj (place_slashFree path) (place_slashFree path')]

/-- On canonical spellings, the text tells which places overlap. -/
theorem canonical_overlap {path path' : String} :
    (canonical path = canonical path' ∨ startsWith (canonical path) (canonical path' ++ "/") = true ∨
      startsWith (canonical path') (canonical path ++ "/") = true) ↔ (place path).Overlap (place path') := by
  have hbelow : ∀ p q, startsWith (canonical p) (canonical q ++ "/") = true ↔ place q <+: place p ∧ place q ≠ place p := by
    intro p q
    rw [← spell_slash_starts (place_slashFree q) (place_slashFree p), startsWith, List.isPrefixOf_iff_prefix]
    simp [canonical]
  rw [canonical_eq_iff, hbelow, hbelow, Place.Overlap]
  constructor
  · rintro (h | h | h)
    · rw [h]
      exact .inl List.prefix_rfl
    · exact .inr h.1
    · exact .inl h.1
  · intro h
    by_cases he : place path = place path'
    · exact .inl he
    · rcases h with h | h
      · exact .inr (.inr ⟨h, he⟩)
      · exact .inr (.inl ⟨h, Ne.symm he⟩)

/-! ## The last segment -/

/-- `s.rsplit_once(c)`. -/
def rsplitOnce (s : String) (c : Char) : Option (String × String) :=
  match s.toList.rdropWhile (· ≠ c) with
  | [] => none
  | l => some (String.ofList l.dropLast, String.ofList (s.toList.rtakeWhile (· ≠ c)))

theorem rsplitOnce_spec {s : String} {c : Char} (h : c ∈ s.toList) :
    ∃ dir base, rsplitOnce s c = some (dir, base) ∧ s.toList = dir.toList ++ c :: base.toList ∧ c ∉ base.toList := by
  have hne : s.toList.rdropWhile (fun d => decide (d ≠ c)) ≠ [] := by
    intro hnil
    have hall := List.rdropWhile_eq_nil_iff.mp hnil c h
    simp at hall
  have hlast : (s.toList.rdropWhile fun d => decide (d ≠ c)).getLast hne = c := by
    simpa using List.rdropWhile_last_not (fun d : Char => decide (d ≠ c)) s.toList hne
  refine ⟨String.ofList (s.toList.rdropWhile fun d => decide (d ≠ c)).dropLast,
    String.ofList (s.toList.rtakeWhile fun d => decide (d ≠ c)), ?_, ?_, ?_⟩
  · rw [rsplitOnce]
    split
    · contradiction
    · rfl
  · have hdrop := List.dropLast_concat_getLast hne
    rw [hlast] at hdrop
    rw [String.toList_ofList, String.toList_ofList, List.append_cons, hdrop, List.rdropWhile_append_rtakeWhile]
  · rw [String.toList_ofList]
    intro hmem
    have hnot := List.mem_rtakeWhile_imp hmem
    simp at hnot

end Jefferies
