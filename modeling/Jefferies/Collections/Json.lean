import Jefferies.Collections.HashMap
import Mathlib.Data.String.Basic

/-!
# JSON values and codecs

A codec writes the values of a type as JSON and reads them back. The codec of a record is made from codecs of
its fields, of which an absent one is left out.
-/

namespace Jefferies

/-- A JSON value; the numbers are whole and not negative. -/
inductive Json where
  | null
  | bool (b : Bool)
  | number (n : Nat)
  | string (s : String)
  | array (elements : List Json)
  | object (fields : List (String × Json))

namespace Json

variable {α : Type}

/-- The object of the fields that are there. -/
def record (fields : List (String × Option Json)) : Json :=
  .object (fields.filterMap fun f => f.2.map fun v => (f.1, v))

/-- A field of an object, which may be absent. Only objects have fields, and none has a field twice. -/
def field (name : String) : Json → Option (Option Json)
  | .object fields =>
      match fields.filter fun f => f.1 = name with
      | [] => some none
      | [f] => some (some f.2)
      | _ => none
  | _ => none

@[simp] theorem record_ne_null (fields : List (String × Option Json)) : record fields ≠ .null := by
  simp [record]

theorem lookup_cons_eq_ite {β : Type} (k name : String) (v : β) (l : List (String × β)) :
    ((k, v) :: l).lookup name = if name = k then some v else l.lookup name := by
  rw [List.lookup_cons]
  by_cases h : name = k
  · simp [h]
  · simp [h, beq_eq_false_iff_ne.mpr h]

theorem filter_fields_eq_nil {fields : List (String × Option Json)} {name : String}
    (h : name ∉ fields.map Prod.fst) :
    ((fields.filterMap fun f => f.2.map fun v => (f.1, v)).filter fun f => f.1 = name) = [] := by
  rw [List.filter_eq_nil_iff]
  intro f hf heq
  obtain ⟨g, hg, hmap⟩ := List.mem_filterMap.mp hf
  obtain ⟨v, _, rfl⟩ := Option.map_eq_some_iff.mp hmap
  exact h (List.mem_map.mpr ⟨g, hg, of_decide_eq_true heq⟩)

/-- A field of a record with distinct names is what was given for it. -/
theorem field_record {fields : List (String × Option Json)} (hnd : (fields.map Prod.fst).Nodup) (name : String) :
    (record fields).field name = some (fields.lookup name).join := by
  induction fields with
  | nil => rfl
  | cons f fields ih =>
      obtain ⟨k, v⟩ := f
      obtain ⟨hk, hnd⟩ := List.nodup_cons.mp hnd
      by_cases hname : name = k
      · subst hname
        have hrest := filter_fields_eq_nil hk
        cases v with
        | none => simp [record, field, hrest]
        | some v => simp [record, field, hrest]
      · have hname' : ¬k = name := fun h => hname h.symm
        have hsame : (record ((k, v) :: fields)).field name = (record fields).field name := by
          cases v <;> simp [record, field, hname']
        rw [hsame, ih hnd, lookup_cons_eq_ite, if_neg hname]

end Json

/-- What is written is read back, and nothing is written as `null`. -/
structure Codec (α : Type) where
  write : α → Json
  read : Json → Option α
  read_write : ∀ x, read (write x) = some x
  write_ne_null : ∀ x, write x ≠ .null

attribute [simp] Codec.read_write

namespace Codec

variable {α : Type}

/-! ## Single values -/

def text : Codec String where
  write := .string
  read
    | .string s => some s
    | _ => none
  read_write _ := rfl
  write_ne_null _ := by simp

def number : Codec Nat where
  write := .number
  read
    | .number n => some n
    | _ => none
  read_write _ := rfl
  write_ne_null _ := by simp

def flag : Codec Bool where
  write := .bool
  read
    | .bool b => some b
    | _ => none
  read_write _ := rfl
  write_ne_null _ := by simp

/-! ## Collections -/

variable (c : Codec α)

def list : Codec (List α) where
  write l := .array (l.map c.write)
  read
    | .array elements => elements.mapM c.read
    | _ => none
  read_write l := by
    induction l with
    | nil => rfl
    | cons x l ih => simp_all
  write_ne_null _ := by simp

/-- The entries of a map are written in ascending order of the keys; they are read in any order. -/
def map : Codec (HashMap String α) where
  write m := .object ((HashMap.IterOrder.sorted.entries m).map fun e => (e.1, c.write e.2))
  read
    | .object fields => (fields.mapM fun f => (c.read f.2).map fun x => (f.1, x)).map HashMap.ofList
    | _ => none
  read_write m := by
    have hread : ∀ l : List (String × α),
        (l.map fun e => (e.1, c.write e.2)).mapM (fun f => (c.read f.2).map fun x => (f.1, x)) = some l := by
      intro l
      induction l with
      | nil => rfl
      | cons e l ih => simp_all
    simp only [hread, Option.map_some, HashMap.ofList_entries]
  write_ne_null _ := by simp

/-! ## Fields -/

/-- A field that is left out where there is no value. -/
def writeOption (x : Option α) : Option Json := x.map c.write

def readRequired : Option Json → Option α
  | none => none
  | some j => c.read j

def readOption : Option Json → Option (Option α)
  | none => some none
  | some .null => some none
  | some j => (c.read j).map some

/-- A field that is left out where it has its default. -/
def writeUnless (isDefault : α → Bool) (x : α) : Option Json := if isDefault x then none else some (c.write x)

def readOr (default : α) : Option Json → Option α
  | none => some default
  | some j => c.read j

variable {c}

@[simp] theorem readRequired_write (x : α) : c.readRequired (some (c.write x)) = some x := c.read_write x

@[simp] theorem readOption_writeOption (x : Option α) : c.readOption (c.writeOption x) = some x := by
  cases x with
  | none => rfl
  | some x =>
      have hread := c.read_write x
      have hnull := c.write_ne_null x
      simp only [writeOption, Option.map_some]
      cases hw : c.write x with
      | null => exact absurd hw hnull
      | _ => simp_all [readOption]

theorem readOr_writeUnless {default : α} {isDefault : α → Bool} (h : ∀ x, isDefault x = true → x = default) (x : α) :
    c.readOr default (c.writeUnless isDefault x) = some x := by
  unfold writeUnless
  split
  · rename_i hdefault
    rw [h x hdefault]
    rfl
  · exact c.read_write x

end Codec

end Jefferies
