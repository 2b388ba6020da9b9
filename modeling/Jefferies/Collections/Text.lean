import Mathlib

/-!
# Strings and ordered collections

Strings as their bytes or characters, and the ordered sets and maps that a program builds one insertion
at a time. An ordered map is the list of its entries in ascending order of the keys.
-/

namespace Jefferies

/-- The UTF-8 bytes of a string. -/
def bytes (s : String) : List UInt8 := s.toUTF8.data.toList

def isAsciiLowercase (b : UInt8) : Bool := 97 ≤ b && b ≤ 122

def isAsciiUppercase (b : UInt8) : Bool := 65 ≤ b && b ≤ 90

def isAsciiDigit (b : UInt8) : Bool := 48 ≤ b && b ≤ 57

def isAsciiAlphabetic (b : UInt8) : Bool := isAsciiLowercase b || isAsciiUppercase b

def isAsciiAlphanumeric (b : UInt8) : Bool := isAsciiAlphabetic b || isAsciiDigit b

/-- `s.starts_with(pre)`. -/
def startsWith (s pre : String) : Bool := pre.toList.isPrefixOf s.toList

/-- `s.ends_with(suf)`. -/
def endsWith (s suf : String) : Bool := suf.toList.isSuffixOf s.toList

/-- `s.strip_prefix(pre)`. -/
def stripPrefix (s pre : String) : Option String :=
  if startsWith s pre then some (String.ofList (s.toList.drop pre.toList.length)) else none

/-- `s.contains(sub)`. -/
def containsText (s sub : String) : Bool := decide (sub.toList <:+: s.toList)

/-- `c.is_whitespace()`. -/
def isWhitespace (c : Char) : Bool :=
  (9 ≤ c.toNat && c.toNat ≤ 13) || (8192 ≤ c.toNat && c.toNat ≤ 8202) ||
    c.toNat ∈ [32, 133, 160, 5760, 8232, 8233, 8239, 8287, 12288]

/-- `s.trim().is_empty()`. -/
def isBlank (s : String) : Bool := s.toList.all isWhitespace

/-- `s.parse::<u64>()`. -/
def parseU64 (s : String) : Option Nat :=
  let digits := match s.toList with
    | '+' :: rest => rest
    | l => l
  let n : Nat := digits.foldl (fun n c => 10 * n + (c.toNat - 48)) 0
  if !digits.isEmpty && digits.all Char.isDigit && decide (n < 2 ^ 64) then some n else none

/-- `s.split(c)`. -/
def splitText (s : String) (c : Char) : List String := (s.toList.splitOn c).map String.ofList

/-- A map whose entries are in ascending order of the keys. -/
abbrev BTreeMap (α : Type) : Type := List (String × α)

namespace BTreeMap

variable {α : Type}

/-- Insertion keeps the order and replaces the value of a key that is present. -/
def insert (k : String) (a : α) : BTreeMap α → BTreeMap α
  | [] => [(k, a)]
  | (k', a') :: m =>
      if k < k' then (k, a) :: (k', a') :: m
      else if k = k' then (k, a) :: m
      else (k', a') :: insert k a m

end BTreeMap

/-- A set of strings in ascending order. -/
abbrev BTreeSet : Type := List String

def BTreeSet.insert (k : String) : BTreeSet → BTreeSet
  | [] => [k]
  | k' :: m => if k < k' then k :: k' :: m else if k = k' then k' :: m else k' :: BTreeSet.insert k m

end Jefferies
