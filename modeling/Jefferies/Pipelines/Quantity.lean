import Jefferies.Collections.Ascii
import Jefferies.Pipelines.Validate

/-!
# Quantities

`is_valid_quantity` with its index into the bytes, and the grammar of quantities that it is to decide. A byte
that is read at an index out of range is no answer.
-/

namespace Jefferies.Pipelines

/-! ## The scanner -/

/-- `while i < bytes.len()` over digits and a dot. -/
def scanNumberAt (bytes : List UInt8) (i : Nat) (sawDigit sawDot : Bool) : Option (Bool × Nat) :=
  if i < bytes.length then do
    let b ← bytes[i]?
    if isAsciiDigit b then scanNumberAt bytes (i + 1) true sawDot
    else if b = 46 && !sawDot then scanNumberAt bytes (i + 1) sawDigit true
    else return (sawDigit, i)
  else return (sawDigit, i)
termination_by bytes.length - i

/-- `while i < bytes.len()` over the digits of an exponent. -/
def scanDigitsAt (bytes : List UInt8) (i : Nat) (any : Bool) : Option Bool :=
  if i < bytes.length then do
    let b ← bytes[i]?
    if isAsciiDigit b then scanDigitsAt bytes (i + 1) true else return false
  else return any
termination_by bytes.length - i

/-- The byte behind an exponent letter, where there is one, begins an exponent. -/
def isExponentAt (bytes : List UInt8) (i : Nat) : Option Bool := do
  let b ← bytes[i]?
  if (b = 101 || b = 69) && decide (i + 1 < bytes.length) then do
    let next ← bytes[i + 1]?
    return isAsciiDigit next || isSign next
  else return false

def scanSuffixAt (bytes : List UInt8) (i : Nat) : Option Bool := do
  if ← isExponentAt bytes i then
    let i := i + 1
    let b ← bytes[i]?
    let i := if isSign b then i + 1 else i
    scanDigitsAt bytes i false
  else
    let b ← bytes[i]?
    if b = 110 || b = 117 || b = 109 || b = 107 then return decide (i + 1 = bytes.length)
    else if b = 75 || b = 77 || b = 71 || b = 84 || b = 80 || b = 69 then
      let i := i + 1
      if i < bytes.length then
        let b ← bytes[i]?
        return decide ((if b = 105 then i + 1 else i) = bytes.length)
      else return decide (i = bytes.length)
    else return false

/-- `is_valid_quantity`, which answers unless an index is out of range. -/
def isValidQuantityAt (s : String) : Option Bool :=
  if (bytes s).isEmpty then return false
  else do
    let bytes := bytes s
    let first ← bytes[0]?
    let (sawDigit, i) ← scanNumberAt bytes (if isSign first then 1 else 0) false false
    if !sawDigit then return false
    else if i = bytes.length then return true
    else scanSuffixAt bytes i

/-! ## The index stays in range -/

variable {l rest : List UInt8} {b : UInt8} {i : Nat}

theorem isValidSuffix_cons (b : UInt8) (rest : List UInt8) :
    isValidSuffix (b :: rest) =
      if (b = 101 || b = 69) && startsExponent rest then scanExponent rest
      else if b = 110 || b = 117 || b = 109 || b = 107 then decide (rest = [])
      else if b = 75 || b = 77 || b = 71 || b = 84 || b = 80 || b = 69 then decide (rest = [] ∨ rest = [105])
      else false := by
  have hempty : ∀ l : List UInt8, l.isEmpty = decide (l = []) := by
    intro l
    cases l <;> rfl
  simp only [isValidSuffix, hempty]
  congr 3
  -- the suffix of a multiple may go on with an `i`
  split
  · rename_i l
    simp
  · rename_i h
    cases rest with
    | nil => simp
    | cons b' l =>
        have hb : b' ≠ 105 := fun he => h l (by rw [he])
        simp [hb]

theorem of_drop_eq_cons (h : l.drop i = b :: rest) : i < l.length ∧ l[i]? = some b ∧ l.drop (i + 1) = rest := by
  have hi : i < l.length := by
    by_contra hge
    rw [List.drop_eq_nil_of_le (by omega)] at h
    cases h
  rw [List.drop_eq_getElem_cons hi] at h
  obtain ⟨rfl, rfl⟩ := List.cons.inj h
  exact ⟨hi, List.getElem?_eq_getElem hi, rfl⟩

theorem scanNumberAt_eq (hi : i ≤ l.length) (h : l.drop i = rest) (sawDigit sawDot : Bool) :
    ∃ j ≤ l.length, scanNumberAt l i sawDigit sawDot = some ((scanNumber rest sawDigit sawDot).1, j) ∧
      l.drop j = (scanNumber rest sawDigit sawDot).2 := by
  induction rest generalizing i sawDigit sawDot with
  | nil =>
      have hge : ¬i < l.length := by
        intro hlt
        rw [List.drop_eq_getElem_cons hlt] at h
        cases h
      refine ⟨i, hi, ?_, h⟩
      rw [scanNumberAt, if_neg hge]
      rfl
  | cons b rest ih =>
      obtain ⟨hlt, hb, hrest⟩ := of_drop_eq_cons h
      rw [scanNumberAt, if_pos hlt, hb, scanNumber]
      simp only [Option.bind_eq_bind, Option.bind_some]
      split
      · exact ih (by omega) hrest true sawDot
      · split
        · exact ih (by omega) hrest sawDigit true
        · exact ⟨i, hi, rfl, h⟩

theorem scanDigitsAt_eq (h : l.drop i = rest) (any : Bool) :
    scanDigitsAt l i any = some (rest.all isAsciiDigit && (any || !rest.isEmpty)) := by
  induction rest generalizing i any with
  | nil =>
      have hge : ¬i < l.length := by
        intro hlt
        rw [List.drop_eq_getElem_cons hlt] at h
        cases h
      rw [scanDigitsAt, if_neg hge]
      simp
  | cons b rest ih =>
      obtain ⟨hlt, hb, hrest⟩ := of_drop_eq_cons h
      rw [scanDigitsAt, if_pos hlt, hb]
      simp only [Option.bind_eq_bind, Option.bind_some]
      cases hdigit : isAsciiDigit b with
      | true => simp [ih hrest true, hdigit]
      | false => simp [hdigit]

theorem isExponentAt_eq (h : l.drop i = b :: rest) :
    isExponentAt l i = some ((b = 101 || b = 69) && startsExponent rest) := by
  obtain ⟨hlt, hb, hrest⟩ := of_drop_eq_cons h
  rw [isExponentAt, hb]
  simp only [Option.bind_eq_bind, Option.bind_some]
  cases rest with
  | nil =>
      have hend : ¬i + 1 < l.length := by
        intro hlt
        rw [List.drop_eq_getElem_cons hlt] at hrest
        cases hrest
      simp [hend, startsExponent]
  | cons b' rest =>
      obtain ⟨hlt', hb', _⟩ := of_drop_eq_cons hrest
      simp only [hlt', hb', decide_true, Bool.and_true, startsExponent, Option.bind_some]
      split
      · rename_i he
        simp [he]
      · rename_i he
        simp [he]

theorem scanSuffixAt_eq (h : l.drop i = b :: rest) : scanSuffixAt l i = some (isValidSuffix (b :: rest)) := by
  obtain ⟨hlt, hb, hrest⟩ := of_drop_eq_cons h
  have hend : ∀ {j r}, l.drop j = r → j ≤ l.length → (j = l.length ↔ r = []) := by
    rintro j r rfl hj
    rw [List.drop_eq_nil_iff]
    omega
  rw [scanSuffixAt, isExponentAt_eq h, hb, isValidSuffix_cons]
  simp only [Option.bind_eq_bind, Option.bind_some]
  by_cases he : ((b = 101 || b = 69) && startsExponent rest) = true
  · simp only [he, if_true]
    cases rest with
    | nil => simp [startsExponent] at he
    | cons b' rest =>
        obtain ⟨_, hb', hrest'⟩ := of_drop_eq_cons hrest
        rw [hb']
        simp only [Option.bind_some, scanExponent]
        by_cases hs : isSign b' = true
        · simp [hs, scanDigitsAt_eq hrest']
        · simp [hs, scanDigitsAt_eq hrest]
  · simp only [he, if_false, Bool.false_eq_true]
    split
    · simp [hend hrest (by omega)]
    · split
      · cases rest with
        | nil =>
            have hge : ¬i + 1 < l.length := by
              have := (hend hrest (by omega)).mpr rfl
              omega
            rw [if_neg hge]
            simp [hend hrest (by omega)]
        | cons b' rest =>
            obtain ⟨hlt', hb', hrest'⟩ := of_drop_eq_cons hrest
            rw [if_pos hlt', hb']
            simp only [Option.bind_some]
            by_cases hi : b' = 105
            · subst hi
              simp [hend hrest' (by omega)]
            · simp [hi, hend hrest (by omega)]
      · rfl

/-- The scanner always answers, as it does on the bytes that are left. -/
theorem isValidQuantityAt_eq (s : String) : isValidQuantityAt s = some (isValidQuantity s) := by
  unfold isValidQuantityAt isValidQuantity
  cases hs : bytes s with
  | nil => rfl
  | cons b rest =>
      simp only [List.isEmpty_cons, Bool.false_eq_true, if_false, List.getElem?_cons_zero, Option.bind_eq_bind,
        Option.bind_some]
      have hdrop : (b :: rest).drop (if isSign b then 1 else 0) = if isSign b then rest else b :: rest := by
        split <;> rfl
      obtain ⟨j, hj, hscan, hleft⟩ := scanNumberAt_eq (by split <;> simp) hdrop false false
      rw [hscan]
      simp only [Option.bind_some]
      generalize scanNumber _ false false = r at hleft ⊢
      obtain ⟨sawDigit, left⟩ := r
      simp only at hleft ⊢
      cases sawDigit with
      | false => simp
      | true =>
          simp only [Bool.not_true, Bool.false_eq_true, if_false, Bool.true_and]
          cases left with
          | nil =>
              have hlen : j = (b :: rest).length := by
                have := List.drop_eq_nil_iff.mp hleft
                omega
              simp [hlen, isValidSuffix]
          | cons b' left =>
              obtain ⟨hlt, _, _⟩ := of_drop_eq_cons hleft
              rw [if_neg (by omega), scanSuffixAt_eq hleft]

/-! ## The grammar -/

def Digits (s : String) : Prop := s ≠ "" ∧ ∀ c ∈ s.toList, c.isDigit = true

inductive Number : String → Prop
  | whole {d} : Digits d → Number d
  | point {d} : Digits d → Number (d ++ ".")
  | decimal {d f} : Digits d → Digits f → Number (d ++ "." ++ f)
  | fraction {f} : Digits f → Number ("." ++ f)

def signs : List String := ["", "+", "-"]

def decimalSuffixes : List String := ["n", "u", "m", "k", "M", "G", "T", "P", "E"]

def binarySuffixes : List String := ["Ki", "Mi", "Gi", "Ti", "Pi", "Ei"]

inductive Suffix : String → Prop
  | none : Suffix ""
  | decimal {u} : u ∈ decimalSuffixes → Suffix u
  | binary {u} : u ∈ binarySuffixes → Suffix u
  | exponent {e sign d} : e ∈ ["e", "E"] → sign ∈ signs → Digits d → Suffix (e ++ sign ++ d)

/-- A quantity of Kubernetes. -/
def Quantity (s : String) : Prop := ∃ sign ∈ signs, ∃ number suffix, Number number ∧ Suffix suffix ∧
  s = sign ++ number ++ suffix

/-- A number with a lone `K`, which is no suffix: the binary one is `Ki`, the decimal one `k`. -/
def LoneK (s : String) : Prop := ∃ sign ∈ signs, ∃ number, Number number ∧ s = sign ++ number ++ "K"

/-! ## Digits -/

theorem digits_iff {s : String} : Digits s ↔ bytes s ≠ [] ∧ ∀ b ∈ bytes s, isAsciiDigit b = true := by
  rw [Digits, bytes_ne_nil, all_bytes fun _ => isAsciiDigit_lt]
  apply and_congr_right
  intro _
  constructor
  · intro h
    have hascii : IsAscii s := by
      intro c hc
      have hle := (Char.isDigit_iff_toNat.mp (h c hc)).2
      exact lt_of_le_of_lt hle (by decide)
    refine ⟨hascii, fun c hc => ?_⟩
    rw [isAsciiDigit_toUInt8 (hascii c hc), h c hc]
  · rintro ⟨hascii, h⟩ c hc
    rw [← isAsciiDigit_toUInt8 (hascii c hc), h c hc]

theorem exists_digits (hne : l ≠ []) (h : ∀ b ∈ l, isAsciiDigit b = true) : ∃ s, bytes s = l ∧ Digits s := by
  obtain ⟨s, rfl⟩ := exists_bytes fun b hb => isAsciiDigit_lt (h b hb)
  exact ⟨s, rfl, digits_iff.mpr ⟨hne, h⟩⟩

/-! ## Numbers -/

/-- The scanner does not go on there. -/
def Stops (sawDot : Bool) (l : List UInt8) : Prop :=
  ∀ b r, l = b :: r → isAsciiDigit b = false ∧ (b = 46 → sawDot = true)

theorem scanNumber_stops {sawDot : Bool} (h : Stops sawDot l) (sawDigit : Bool) :
    scanNumber l sawDigit sawDot = (sawDigit, l) := by
  cases l with
  | nil => rfl
  | cons b l =>
      obtain ⟨hdigit, hdot⟩ := h b l rfl
      rw [scanNumber, hdigit]
      cases sawDot with
      | true => simp
      | false =>
          have hb : b ≠ 46 := fun he => Bool.false_ne_true (hdot he)
          simp [hb]

theorem scanNumber_digits (h : ∀ b ∈ l, isAsciiDigit b = true) (sawDigit sawDot : Bool) :
    scanNumber (l ++ rest) sawDigit sawDot = scanNumber rest (sawDigit || !l.isEmpty) sawDot := by
  induction l generalizing sawDigit with
  | nil => simp
  | cons b l ih =>
      rw [List.cons_append, scanNumber, h b List.mem_cons_self, if_pos rfl, ih fun b' hb' => h b' (List.mem_cons_of_mem _ hb')]
      simp

/-- The digits at the front, and what follows them. -/
theorem exists_digits_append (l : List UInt8) :
    ∃ ds rest, l = ds ++ rest ∧ (∀ b ∈ ds, isAsciiDigit b = true) ∧ ∀ b r, rest = b :: r → isAsciiDigit b = false := by
  refine ⟨l.takeWhile isAsciiDigit, l.dropWhile isAsciiDigit, List.takeWhile_append_dropWhile.symm,
    fun b hb => List.mem_takeWhile_imp hb, fun b r hr => ?_⟩
  have hne : l.dropWhile isAsciiDigit ≠ [] := by simp [hr]
  have := List.head_dropWhile_not isAsciiDigit hne
  simpa [hr] using this

theorem number_of_scan (h : scanNumber l false false = (true, rest)) : ∃ number, Number number ∧ l = bytes number ++ rest := by
  obtain ⟨ds, r, rfl, hds, hr⟩ := exists_digits_append l
  rw [scanNumber_digits hds, Bool.false_or] at h
  by_cases hdot : ∃ r', r = 46 :: r'
  · obtain ⟨r', rfl⟩ := hdot
    obtain ⟨fs, r'', rfl, hfs, hr''⟩ := exists_digits_append r'
    have hskip : scanNumber (46 :: (fs ++ r'')) (!ds.isEmpty) false =
        scanNumber (fs ++ r'') (!ds.isEmpty) true := rfl
    have hstop : Stops true r'' := fun b r he => ⟨hr'' b r he, fun _ => rfl⟩
    rw [hskip, scanNumber_digits hfs, scanNumber_stops hstop, Prod.mk.injEq] at h
    obtain ⟨hany, rfl⟩ := h
    by_cases hd : ds = []
    · have hf : fs ≠ [] := by
        rintro rfl
        simp [hd] at hany
      obtain ⟨f, rfl, hdf⟩ := exists_digits hf hfs
      refine ⟨_, .fraction hdf, ?_⟩
      rw [bytes_append, hd]
      rfl
    · obtain ⟨d, rfl, hdd⟩ := exists_digits hd hds
      by_cases hf : fs = []
      · refine ⟨_, .point hdd, ?_⟩
        rw [bytes_append, hf, List.append_assoc]
        rfl
      · obtain ⟨f, rfl, hdf⟩ := exists_digits hf hfs
        refine ⟨_, .decimal hdd hdf, ?_⟩
        rw [bytes_append, bytes_append, List.append_assoc, List.append_assoc]
        rfl
  · have hstop : Stops false r := fun b r' he => ⟨hr b r' he, fun hb => absurd ⟨r', by rw [he, hb]⟩ hdot⟩
    rw [scanNumber_stops hstop, Prod.mk.injEq] at h
    obtain ⟨hany, rfl⟩ := h
    have hd : ds ≠ [] := by
      rintro rfl
      simp at hany
    obtain ⟨d, rfl, hdd⟩ := exists_digits hd hds
    exact ⟨d, .whole hdd, rfl⟩

theorem Number.scan {number : String} (h : Number number) (hrest : Stops false rest) :
    scanNumber (bytes number ++ rest) false false = (true, rest) := by
  have hstop : Stops true rest := fun b r he => ⟨(hrest b r he).1, fun _ => rfl⟩
  have hdot : ∀ l d, scanNumber (46 :: l) d false = scanNumber l d true := fun _ _ => rfl
  have hpoint : bytes "." = [46] := by decide
  cases h with
  | whole hd =>
      obtain ⟨hne, hd⟩ := digits_iff.mp hd
      rw [scanNumber_digits hd, scanNumber_stops hrest]
      simp [hne]
  | point hd =>
      obtain ⟨hne, hd⟩ := digits_iff.mp hd
      rw [bytes_append, List.append_assoc, scanNumber_digits hd, hpoint, List.singleton_append, hdot,
        scanNumber_stops hstop]
      simp [hne]
  | decimal hd hf =>
      obtain ⟨hne, hd⟩ := digits_iff.mp hd
      obtain ⟨_, hf⟩ := digits_iff.mp hf
      rw [bytes_append, bytes_append, List.append_assoc, List.append_assoc, scanNumber_digits hd, hpoint,
        List.singleton_append, hdot, scanNumber_digits hf, scanNumber_stops hstop]
      simp [hne]
  | fraction hf =>
      obtain ⟨hne, hf⟩ := digits_iff.mp hf
      rw [bytes_append, List.append_assoc, hpoint, List.singleton_append, hdot, scanNumber_digits hf,
        scanNumber_stops hstop]
      simp [hne]

/-! ## Suffixes -/

/-- The letters that begin a suffix. -/
theorem suffix_letter (h : isValidSuffix (b :: rest) = true) :
    b = 101 ∨ b = 110 ∨ b = 117 ∨ b = 109 ∨ b = 107 ∨ b = 75 ∨ b = 77 ∨ b = 71 ∨ b = 84 ∨ b = 80 ∨ b = 69 := by
  rw [isValidSuffix_cons] at h
  split at h
  · rename_i he
    simp only [Bool.and_eq_true, Bool.or_eq_true, decide_eq_true_eq] at he
    tauto
  · split at h
    · rename_i he
      simp only [Bool.or_eq_true, decide_eq_true_eq] at he
      tauto
    · split at h
      · rename_i he
        simp only [Bool.or_eq_true, decide_eq_true_eq] at he
        tauto
      · cases h

theorem stops_of_suffix (h : isValidSuffix l = true) : Stops false l := by
  rintro b r rfl
  rcases suffix_letter h with rfl | rfl | rfl | rfl | rfl | rfl | rfl | rfl | rfl | rfl | rfl <;> decide

theorem isSign_iff : isSign b = true ↔ b = 43 ∨ b = 45 := by
  simp [isSign]

/-- The bytes behind an exponent letter are a sign, which may be absent, and digits. -/
theorem scanExponent_iff : scanExponent l = true ↔ ∃ sign ∈ signs, ∃ d, Digits d ∧ l = bytes (sign ++ d) := by
  constructor
  · intro h
    cases l with
    | nil => cases h
    | cons b rest =>
        simp only [scanExponent, Bool.and_eq_true, List.all_eq_true, Bool.not_eq_true', List.isEmpty_eq_false_iff] at h
        obtain ⟨hall, hne⟩ := h
        by_cases hs : isSign b = true
        · rw [if_pos hs] at hall hne
          obtain ⟨d, rfl, hd⟩ := exists_digits hne hall
          rcases isSign_iff.mp hs with rfl | rfl
          · exact ⟨"+", by decide, d, hd, by rw [bytes_append]; rfl⟩
          · exact ⟨"-", by decide, d, hd, by rw [bytes_append]; rfl⟩
        · rw [if_neg hs] at hall hne
          obtain ⟨d, hb, hd⟩ := exists_digits hne hall
          exact ⟨"", by decide, d, hd, by rw [bytes_append, hb]; rfl⟩
  · rintro ⟨sign, hs, d, hd, rfl⟩
    obtain ⟨hne, hdigits⟩ := digits_iff.mp hd
    have hplain : ∀ b l, isSign b = true → scanExponent (b :: l) = (l.all isAsciiDigit && !l.isEmpty) := by
      intro b l hb
      rw [scanExponent, if_pos hb]
    have hall : ((bytes d).all isAsciiDigit && !(bytes d).isEmpty) = true := by
      simpa [hne] using hdigits
    rw [bytes_append]
    simp only [signs, List.mem_cons, List.not_mem_nil, or_false] at hs
    rcases hs with rfl | rfl | rfl
    · show scanExponent (bytes d) = true
      cases hb : bytes d with
      | nil => exact absurd hb hne
      | cons b r =>
          have hdigit : isAsciiDigit b = true := hdigits b (by rw [hb]; exact List.mem_cons_self)
          have hs : isSign b = false := by
            by_contra hs
            rcases isSign_iff.mp (Bool.not_eq_false _ ▸ hs) with rfl | rfl <;> cases hdigit
          rw [scanExponent, hs, if_neg Bool.false_ne_true, ← hb]
          exact hall
    · exact (hplain 43 _ rfl).trans hall
    · exact (hplain 45 _ rfl).trans hall

theorem startsExponent_of_scan (h : scanExponent l = true) : startsExponent l = true := by
  cases l with
  | nil => cases h
  | cons b rest =>
      rw [startsExponent, Bool.or_eq_true]
      by_cases hs : isSign b = true
      · exact .inr hs
      · rw [scanExponent, if_neg hs] at h
        simp only [List.all_cons, Bool.and_eq_true] at h
        exact .inl h.1.1

/-- The scanner takes the suffixes of the grammar, and a lone `K`. -/
theorem isValidSuffix_iff : isValidSuffix l = true ↔ ∃ u, (Suffix u ∨ u = "K") ∧ bytes u = l := by
  constructor
  · intro h
    cases l with
    | nil => exact ⟨"", .inl .none, rfl⟩
    | cons b rest =>
        rw [isValidSuffix_cons] at h
        split at h
        · rename_i he
          simp only [Bool.and_eq_true, Bool.or_eq_true, decide_eq_true_eq] at he
          obtain ⟨sign, hs, d, hd, rfl⟩ := scanExponent_iff.mp h
          rcases he.1 with rfl | rfl
          · exact ⟨_, .inl (.exponent (e := "e") (by decide) hs hd), by rw [String.append_assoc, bytes_append]; rfl⟩
          · exact ⟨_, .inl (.exponent (e := "E") (by decide) hs hd), by rw [String.append_assoc, bytes_append]; rfl⟩
        · split at h
          · rename_i hb
            simp only [Bool.or_eq_true, decide_eq_true_eq] at hb h
            subst h
            rcases hb with ((rfl | rfl) | rfl) | rfl
            · exact ⟨"n", .inl (.decimal (by decide)), by decide⟩
            · exact ⟨"u", .inl (.decimal (by decide)), by decide⟩
            · exact ⟨"m", .inl (.decimal (by decide)), by decide⟩
            · exact ⟨"k", .inl (.decimal (by decide)), by decide⟩
          · split at h
            · rename_i hb
              simp only [Bool.or_eq_true, decide_eq_true_eq] at hb h
              rcases h with rfl | rfl
              · rcases hb with ((((rfl | rfl) | rfl) | rfl) | rfl) | rfl
                · exact ⟨"K", .inr rfl, by decide⟩
                · exact ⟨"M", .inl (.decimal (by decide)), by decide⟩
                · exact ⟨"G", .inl (.decimal (by decide)), by decide⟩
                · exact ⟨"T", .inl (.decimal (by decide)), by decide⟩
                · exact ⟨"P", .inl (.decimal (by decide)), by decide⟩
                · exact ⟨"E", .inl (.decimal (by decide)), by decide⟩
              · rcases hb with ((((rfl | rfl) | rfl) | rfl) | rfl) | rfl
                · exact ⟨"Ki", .inl (.binary (by decide)), by decide⟩
                · exact ⟨"Mi", .inl (.binary (by decide)), by decide⟩
                · exact ⟨"Gi", .inl (.binary (by decide)), by decide⟩
                · exact ⟨"Ti", .inl (.binary (by decide)), by decide⟩
                · exact ⟨"Pi", .inl (.binary (by decide)), by decide⟩
                · exact ⟨"Ei", .inl (.binary (by decide)), by decide⟩
            · cases h
  · rintro ⟨u, hu, rfl⟩
    rcases hu with hu | rfl
    · cases hu with
      | none => rfl
      | decimal hu =>
          have hall : ∀ u ∈ decimalSuffixes, isValidSuffix (bytes u) = true := by decide
          exact hall u hu
      | binary hu =>
          have hall : ∀ u ∈ binarySuffixes, isValidSuffix (bytes u) = true := by decide
          exact hall u hu
      | @exponent e sign d he hs hd =>
          have hscan : scanExponent (bytes (sign ++ d)) = true := scanExponent_iff.mpr ⟨sign, hs, d, hd, rfl⟩
          have hstart : startsExponent (bytes (sign ++ d)) = true := startsExponent_of_scan hscan
          have hbytes : ∃ b, (b = 101 ∨ b = 69) ∧ bytes e = [b] := by
            simp only [List.mem_cons, List.not_mem_nil, or_false] at he
            rcases he with rfl | rfl
            · exact ⟨101, .inl rfl, by decide⟩
            · exact ⟨69, .inr rfl, by decide⟩
          obtain ⟨b, hb, hbytes⟩ := hbytes
          rw [String.append_assoc, bytes_append, hbytes, List.singleton_append, isValidSuffix_cons, hstart, hscan]
          rcases hb with rfl | rfl <;> rfl
    · decide

/-! ## Whole quantities -/

/-- What the scanner makes of the bytes behind a sign. -/
def isValidUnsigned (l : List UInt8) : Bool :=
  (scanNumber l false false).1 && isValidSuffix (scanNumber l false false).2

theorem isValidUnsigned_iff : isValidUnsigned l = true ↔
    ∃ number u, Number number ∧ (Suffix u ∨ u = "K") ∧ l = bytes (number ++ u) := by
  rw [isValidUnsigned, Bool.and_eq_true]
  constructor
  · rintro ⟨hdigit, hsuffix⟩
    obtain ⟨u, hu, hbytes⟩ := isValidSuffix_iff.mp hsuffix
    have hscan : scanNumber l false false = (true, bytes u) := Prod.ext hdigit hbytes.symm
    obtain ⟨number, hn, hl⟩ := number_of_scan hscan
    exact ⟨number, u, hn, hu, by rw [hl, bytes_append]⟩
  · rintro ⟨number, u, hn, hu, rfl⟩
    have hsuffix : isValidSuffix (bytes u) = true := isValidSuffix_iff.mpr ⟨u, hu, rfl⟩
    rw [bytes_append, hn.scan (stops_of_suffix hsuffix)]
    exact ⟨rfl, hsuffix⟩

/-- An unsigned quantity does not begin with a sign. -/
theorem unsigned_cons (h : isValidUnsigned l = true) : ∃ b rest, l = b :: rest ∧ isSign b = false := by
  cases l with
  | nil => cases h
  | cons b rest =>
      refine ⟨b, rest, rfl, ?_⟩
      by_contra hs
      have hstop : Stops false (b :: rest) := by
        intro b' r he
        obtain ⟨rfl, _⟩ := List.cons.inj he
        rcases isSign_iff.mp (by simpa using hs) with rfl | rfl <;> decide
      rw [isValidUnsigned, scanNumber_stops hstop] at h
      cases h

theorem isValidQuantity_cons {s : String} (h : bytes s = b :: rest) :
    isValidQuantity s = isValidUnsigned (if isSign b then rest else b :: rest) := by
  unfold isValidQuantity
  rw [h]
  rfl

theorem isValidQuantity_iff_unsigned {s : String} :
    isValidQuantity s = true ↔ ∃ sign ∈ signs, ∃ t, isValidUnsigned (bytes t) = true ∧ s = sign ++ t := by
  constructor
  · intro h
    cases hs : bytes s with
    | nil =>
        unfold isValidQuantity at h
        rw [hs] at h
        cases h
    | cons b rest =>
        rw [isValidQuantity_cons hs] at h
        obtain ⟨number, u, _, _, ht⟩ := isValidUnsigned_iff.mp h
        rw [ht] at h
        by_cases hsign : isSign b = true
        · rw [if_pos hsign] at ht
          rcases isSign_iff.mp hsign with rfl | rfl
          · refine ⟨"+", by decide, _, h, bytes_inj.mp ?_⟩
            rw [hs, ht, bytes_append]
            rfl
          · refine ⟨"-", by decide, _, h, bytes_inj.mp ?_⟩
            rw [hs, ht, bytes_append]
            rfl
        · rw [if_neg hsign] at ht
          exact ⟨"", by decide, _, h, bytes_inj.mp (by rw [hs, ht, String.empty_append])⟩
  · rintro ⟨sign, hs, t, ht, rfl⟩
    obtain ⟨b, rest, hb, hsign⟩ := unsigned_cons ht
    simp only [signs, List.mem_cons, List.not_mem_nil, or_false] at hs
    rcases hs with rfl | rfl | rfl
    · rw [String.empty_append, isValidQuantity_cons hb, if_neg (by simp [hsign]), ← hb, ht]
    · have hplus : bytes ("+" ++ t) = 43 :: bytes t := by
        rw [bytes_append]
        rfl
      rw [isValidQuantity_cons hplus]
      exact ht
    · have hminus : bytes ("-" ++ t) = 45 :: bytes t := by
        rw [bytes_append]
        rfl
      rw [isValidQuantity_cons hminus]
      exact ht

/-- The scanner takes what the grammar takes, and numbers with a lone `K`. -/
theorem isValidQuantity_iff {s : String} : isValidQuantity s = true ↔ Quantity s ∨ LoneK s := by
  rw [isValidQuantity_iff_unsigned]
  constructor
  · rintro ⟨sign, hs, t, ht, rfl⟩
    obtain ⟨number, u, hn, hu, hbytes⟩ := isValidUnsigned_iff.mp ht
    obtain rfl := bytes_inj.mp hbytes
    rw [← String.append_assoc]
    rcases hu with hu | rfl
    · exact .inl ⟨sign, hs, number, u, hn, hu, rfl⟩
    · exact .inr ⟨sign, hs, number, hn, rfl⟩
  · rintro (⟨sign, hs, number, u, hn, hu, rfl⟩ | ⟨sign, hs, number, hn, rfl⟩)
    · exact ⟨sign, hs, _, isValidUnsigned_iff.mpr ⟨number, u, hn, .inl hu, rfl⟩, String.append_assoc ..⟩
    · exact ⟨sign, hs, _, isValidUnsigned_iff.mpr ⟨number, "K", hn, .inr rfl, rfl⟩, String.append_assoc ..⟩

/-! ## The last byte -/

theorem Digits.last {d : String} (h : Digits d) (s : String) : (bytes (s ++ d)).getLast? ≠ some 75 := by
  obtain ⟨hne, hdigits⟩ := digits_iff.mp h
  rw [bytes_append, List.getLast?_append_of_ne_nil _ hne]
  intro hlast
  cases hdigits 75 (List.mem_of_getLast? hlast)

theorem Number.last {number : String} (h : Number number) (s : String) :
    (bytes (s ++ number)).getLast? ≠ some 75 := by
  cases h with
  | whole hd => exact hd.last s
  | point hd =>
      rw [← String.append_assoc, bytes_append, List.getLast?_append_of_ne_nil _ (by decide)]
      decide
  | decimal hd hf =>
      rw [← String.append_assoc]
      exact hf.last _
  | fraction hf =>
      rw [← String.append_assoc]
      exact hf.last _

/-- No quantity ends in `K`. -/
theorem Quantity.last {s : String} (h : Quantity s) : (bytes s).getLast? ≠ some 75 := by
  have hdecimal : ∀ u ∈ decimalSuffixes, (bytes u).getLast?.any (· ≠ 75) = true := by decide
  have hbinary : ∀ u ∈ binarySuffixes, (bytes u).getLast?.any (· ≠ 75) = true := by decide
  have hletter : ∀ s u, (bytes u).getLast?.any (· ≠ 75) = true → (bytes (s ++ u)).getLast? ≠ some 75 := by
    intro s u hu
    rw [bytes_append, List.getLast?_append]
    intro he
    cases hlast : (bytes u).getLast? with
    | none => simp [hlast] at hu
    | some b =>
        rw [hlast] at hu he
        cases he
        simp at hu
  obtain ⟨sign, hs, number, u, hn, hu, rfl⟩ := h
  cases hu with
  | none =>
      rw [String.append_empty]
      exact hn.last sign
  | decimal hu => exact hletter _ u (hdecimal u hu)
  | binary hu => exact hletter _ u (hbinary u hu)
  | exponent he hs hd =>
      rw [← String.append_assoc]
      exact hd.last _

theorem LoneK.not_quantity {s : String} (h : LoneK s) : ¬Quantity s := by
  obtain ⟨sign, hs, number, hn, rfl⟩ := h
  intro hq
  apply hq.last
  rw [bytes_append, List.getLast?_append_of_ne_nil _ (by decide)]
  decide

/-- The scanner answers for every string, and exactly on those that are no number with a lone `K` its answer is
that of the grammar. -/
theorem isValidQuantityAt_exact (s : String) :
    (∃ b, isValidQuantityAt s = some b ∧ (b = true ↔ Quantity s)) ↔ ¬LoneK s := by
  rw [isValidQuantityAt_eq]
  constructor
  · rintro ⟨b, hb, hexact⟩ hk
    cases hb
    exact hk.not_quantity (hexact.mp (isValidQuantity_iff.mpr (.inr hk)))
  · intro hk
    refine ⟨_, rfl, ?_⟩
    rw [isValidQuantity_iff]
    exact or_iff_left hk

/-- The scanner takes `1K` for a quantity. -/
theorem isValidQuantityAt_takes_1K :
    isValidQuantityAt "1K" = some true ∧ ¬∃ b, isValidQuantityAt "1K" = some b ∧ (b = true ↔ Quantity "1K") := by
  have hk : LoneK "1K" := ⟨"", by decide, "1", .whole ⟨by decide, by simp⟩, by decide⟩
  have htakes : isValidQuantityAt "1K" = some true := by
    rw [isValidQuantityAt_eq, isValidQuantity_iff.mpr (.inr hk)]
  refine ⟨htakes, ?_⟩
  rintro ⟨b, hb, hexact⟩
  rw [htakes] at hb
  cases hb
  exact hk.not_quantity (hexact.mp rfl)

end Jefferies.Pipelines
