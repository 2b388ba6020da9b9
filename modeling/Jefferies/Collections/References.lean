import Jefferies.Collections.Text

/-!
# References to URLs

A reference is cut into its components and resolved against the URL of a page, as RFC 3986 has it. Browsers take a
backslash for a slash. The origin of a URL is its scheme with the host and the port of its authority.
-/

namespace Jefferies

def isSlash (c : Char) : Bool := c = '/' || c = '\\'

/-- What comes before the first character of a kind, and what comes behind it, if there is one. -/
def cut (p : Char → Bool) (text : List Char) : List Char × Option (List Char) :=
  match text.dropWhile (!p ·) with
  | [] => (text, none)
  | _ :: rest => (text.takeWhile (!p ·), some rest)

structure Reference where
  scheme : Option (List Char)
  authority : Option (List Char)
  path : List Char
  query : Option (List Char)
  fragment : Option (List Char)
  deriving DecidableEq

structure Url where
  scheme : List Char
  authority : Option (List Char)
  path : List Char
  query : Option (List Char)
  fragment : Option (List Char)
  deriving DecidableEq

/-! ## Components -/

namespace Reference

def splitScheme (text : List Char) : Option (List Char) × List Char :=
  match cut (· = ':') text with
  | (name, some rest) => if name ≠ [] ∧ name.all (!isSlash ·) then (some name, rest) else (none, text)
  | (_, none) => (none, text)

def splitAuthority : List Char → Option (List Char) × List Char
  | a :: b :: rest =>
      if isSlash a ∧ isSlash b then (some (rest.takeWhile (!isSlash ·)), rest.dropWhile (!isSlash ·))
      else (none, a :: b :: rest)
  | path => (none, path)

def ofText (text : List Char) : Reference :=
  let (text, fragment) := cut (· = '#') text
  let (text, query) := cut (· = '?') text
  let (scheme, text) := splitScheme text
  let (authority, path) := splitAuthority text
  ⟨scheme, authority, path, query, fragment⟩

end Reference

/-! ## Resolution -/

/-- The leading dots of a path without a root. -/
def dropDots : List (List Char) → List (List Char)
  | [] => []
  | s :: rest => if s = ['.'] ∨ s = ['.', '.'] then dropDots rest else s :: rest

/-- The pieces of the path, each with the slash before it. -/
def walk : List (List Char) → List (List Char) → List (List Char)
  | out, [] => out
  | out, s :: rest =>
      if s = ['.'] then walk (if rest = [] then out ++ [['/']] else out) rest
      else if s = ['.', '.'] then walk (if rest = [] then out.dropLast ++ [['/']] else out.dropLast) rest
      else walk (out ++ ['/' :: s]) rest

def removeDotSegments (path : List Char) : List Char :=
  match dropDots (path.splitOnP isSlash) with
  | [] => []
  | s :: rest => (walk [s] rest).flatten

namespace Url

/-- The path behind the last slash of the base. -/
def mergePaths (base : Url) (path : List Char) : List Char :=
  if base.authority.isSome ∧ base.path = [] then '/' :: path
  else (base.path.reverse.dropWhile (!isSlash ·)).reverse ++ path

def resolve (base : Url) (r : Reference) : Url :=
  match r.scheme with
  | some scheme => ⟨scheme, r.authority, removeDotSegments r.path, r.query, r.fragment⟩
  | none =>
      match r.authority with
      | some authority => ⟨base.scheme, some authority, removeDotSegments r.path, r.query, r.fragment⟩
      | none =>
          match r.path with
          | [] => ⟨base.scheme, base.authority, base.path, r.query.or base.query, r.fragment⟩
          | c :: path =>
              if isSlash c then ⟨base.scheme, base.authority, removeDotSegments (c :: path), r.query, r.fragment⟩
              else ⟨base.scheme, base.authority, removeDotSegments (base.mergePaths (c :: path)), r.query, r.fragment⟩

end Url

example : removeDotSegments ['/', 'b', '/', '.', '/', 'c', '/', '.', '.', '/', 'g'] = ['/', 'b', '/', 'g'] := by decide

/-! ## Origins -/

structure Origin where
  scheme : List Char
  host : List Char
  port : Nat
  deriving DecidableEq

def defaultPort (scheme : List Char) : Option Nat :=
  if scheme = ['h', 't', 't', 'p', 's'] then some 443
  else if scheme = ['h', 't', 't', 'p'] then some 80
  else none

def readPort (scheme : List Char) : List Char → Option Nat
  | [] => defaultPort scheme
  | [':'] => defaultPort scheme
  | ':' :: digits =>
      let port := digits.foldl (fun n d => 10 * n + (d.toNat - '0'.toNat)) 0
      if digits.all (·.isDigit) ∧ port < 2 ^ 16 then some port else none
  | _ => none

/-- The host, and what is behind it. A host in brackets may have colons. -/
def splitHost (text : List Char) : List Char × List Char :=
  match text with
  | '[' :: _ => (text.takeWhile (· ≠ ']') ++ [']'], (text.dropWhile (· ≠ ']')).tail)
  | _ => (text.takeWhile (· ≠ ':'), text.dropWhile (· ≠ ':'))

/-- The origin with a scheme and an authority; what is before an at sign is about the user. -/
def originOf (scheme authority : List Char) : Option Origin :=
  let (host, port) := splitHost (authority.reverse.takeWhile (· ≠ '@')).reverse
  if host = [] then none
  else (readPort scheme port).map fun port => ⟨scheme.map Char.toLower, host.map Char.toLower, port⟩

def Url.origin (url : Url) : Option Origin := url.authority.bind (originOf url.scheme)

/-- A page that is served over https. -/
structure HttpsPage where
  url : Url
  origin : Origin
  https : url.scheme = ['h', 't', 't', 'p', 's']
  origin_eq : url.origin = some origin

namespace Reference

/-- Wherever it is followed from, the reference leads to the origin that it was followed from. -/
def Stays (r : Reference) : Prop := ∀ page : HttpsPage, (page.url.resolve r).origin = some page.origin

variable {r : Reference} {base : Url}

/-- A reference without a scheme and an authority leads to the origin of its base. -/
theorem origin_resolve_relative (hscheme : r.scheme = none) (hauthority : r.authority = none) :
    (base.resolve r).origin = base.origin := by
  rw [Url.resolve, hscheme, hauthority]
  cases r.path with
  | nil => rfl
  | cons c path => cases hc : isSlash c <;> simp [hc, Url.origin]

theorem origin_resolve_authority {authority : List Char} (hscheme : r.scheme = none)
    (hauthority : r.authority = some authority) : (base.resolve r).origin = originOf base.scheme authority := by
  rw [Url.resolve, hscheme, hauthority]
  rfl

/-- The page at the root of a host. -/
def pageAt (host : List Char) (origin : Origin)
    (h : originOf ['h', 't', 't', 'p', 's'] host = some origin) : HttpsPage where
  url := ⟨['h', 't', 't', 'p', 's'], some host, ['/'], none, none⟩
  origin := origin
  https := rfl
  origin_eq := h

/-- A reference with an authority leads to one origin at most, and there are more. -/
theorem stays_iff (hscheme : r.scheme = none) : r.Stays ↔ r.authority = none := by
  constructor
  · intro h
    cases hauthority : r.authority with
    | none => rfl
    | some authority =>
        -- the origin goes by the authority alone, so two pages of different hosts cannot both keep theirs
        have h₁ := h (pageAt ['a'] ⟨['h', 't', 't', 'p', 's'], ['a'], 443⟩ (by decide))
        have h₂ := h (pageAt ['b'] ⟨['h', 't', 't', 'p', 's'], ['b'], 443⟩ (by decide))
        rw [origin_resolve_authority hscheme hauthority] at h₁ h₂
        exact absurd (h₁.symm.trans h₂) (by decide)
  · intro h page
    rw [origin_resolve_relative hscheme h, page.origin_eq]

end Reference

/-! ## References that begin with a slash -/

theorem cut_cons {p : Char → Bool} {c : Char} {text : List Char} (hc : p c = false) :
    cut p (c :: text) = ((c :: (cut p text).1), (cut p text).2) := by
  unfold cut
  rw [List.dropWhile_cons_of_pos (by simp [hc]), List.takeWhile_cons_of_pos (by simp [hc])]
  cases text.dropWhile (!p ·) with
  | nil => rfl
  | cons d rest => rfl

/-- The first character stays where it is, unless it is cut. -/
theorem head?_cut {p : Char → Bool} {text : List Char} :
    (cut p text).1.head? = text.head?.filter (!p ·) := by
  cases text with
  | nil => rfl
  | cons c text =>
      cases hc : p c with
      | false => simp [cut_cons hc, Option.filter, hc]
      | true => simp [cut, Option.filter, hc]

namespace Reference

variable {text : List Char} {c : Char}

theorem splitScheme_of_slash (hc : isSlash c = true) : splitScheme (c :: text) = (none, c :: text) := by
  have hcolon : decide (c = ':') = false := by
    rw [decide_eq_false_iff_not]
    rintro rfl
    cases hc
  rw [splitScheme, cut_cons hcolon]
  cases (cut (· = ':') text).2 with
  | none => rfl
  | some rest => simp [hc]

theorem splitAuthority_eq_none (hc : isSlash c = true) :
    (splitAuthority (c :: text)).1 = none ↔ text.head?.any isSlash = false := by
  cases text with
  | nil => simp [splitAuthority]
  | cons d text => cases hd : isSlash d <;> simp [splitAuthority, hc, hd]

/-- A reference that begins with a slash has an authority exactly if it begins with two. -/
theorem ofText_of_slash (text : List Char) (hc : isSlash c = true) : (ofText (c :: text)).scheme = none ∧
    ((ofText (c :: text)).authority = none ↔ text.head?.any isSlash = false) := by
  have hhash : decide (c = '#') = false := by
    rw [decide_eq_false_iff_not]
    rintro rfl
    cases hc
  have hmark : decide (c = '?') = false := by
    rw [decide_eq_false_iff_not]
    rintro rfl
    cases hc
  rw [ofText, cut_cons (p := fun c => decide (c = '#')) hhash]
  simp only [cut_cons (p := fun c => decide (c = '?')) hmark, splitScheme_of_slash hc, true_and]
  rw [splitAuthority_eq_none hc, head?_cut, head?_cut]
  cases text with
  | nil => simp
  | cons d text =>
      by_cases hd : isSlash d = true
      · have hne : d ≠ '#' ∧ d ≠ '?' := by
          constructor <;>
            · rintro rfl
              cases hd
        simp [hd, hne]
      · by_cases h : d = '#' <;> by_cases h' : d = '?' <;> simp_all

end Reference

end Jefferies
