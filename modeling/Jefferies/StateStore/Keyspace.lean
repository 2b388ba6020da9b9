import Jefferies.Collections.Text
import Jefferies.StateStore.Document
import Jefferies.StateStore.Redis

/-!
# Redis as strings under keys

The commands and the scripts of the Redis store on the strings that Redis keeps. The libraries that turn values
into texts are outside this repository and stand here as functions: serde writes and reads documents, and the
scripts encode and decode tables, whose numbers are doubles. No time to live elapses here, so setting one does
nothing.
-/

namespace Jefferies.StateStore

/-- The fields that the scripts use of a decoded table. -/
structure Decoded where
  version : Option Nat
  serverId : Option String

/-- How values are written as texts and read from them. `mismatch` is what serde says of a value of another
shape, and `toNumber` the number that a script has for an integer. -/
structure Texts where
  toText : Json → String
  fromText : String → Except String Json
  mismatch : Json → String
  toNumber : Nat → Nat
  encodeLease : LeaseData → String
  decode : String → Except String Decoded

/-- `serde_json::to_string` of a state. -/
def Texts.ofState (texts : Texts) (state : RunState) : String := texts.toText (runStateCodec.write state)

/-- `serde_json::from_str` of a state. -/
def Texts.toState (texts : Texts) (text : String) : Except StateStoreError RunState :=
  match texts.fromText text with
  | .error e => .error (.serialization e)
  | .ok j =>
      match runStateCodec.read j with
      | none => .error (.serialization (texts.mismatch j))
      | some state => .ok state

def stateKey (runId : String) : String := "jefferies:run:" ++ runId ++ ":state"

def leaseKey (runId : String) : String := "jefferies:run:" ++ runId ++ ":lease"

/-- The key of the counter in the script of `try_acquire_lease`. -/
def leaseVersionKey (runId : String) : String := leaseKey runId ++ ":ver"

/-- The glob `jefferies:run:*:state`. -/
def isStateKey (key : String) : Bool :=
  startsWith key "jefferies:run:" &&
    ":state".toList.isSuffixOf (key.toList.drop "jefferies:run:".toList.length)

structure Keyspace where
  strings : HashMap String String

namespace Keyspace

def empty : Keyspace := ⟨∅⟩

/-! ## Commands -/

def get (self : Keyspace) (key : String) : Option String := self.strings.lookup key

def set (self : Keyspace) (key value : String) : Keyspace := ⟨self.strings.insert key value⟩

def del (self : Keyspace) (key : String) : Keyspace := ⟨self.strings.erase key⟩

def exists? (self : Keyspace) (key : String) : Bool := (self.get key).isSome

/-- The number at the key goes up by one; a key without a string counts as 0. -/
def incr (self : Keyspace) (key : String) : Except String (Nat × Keyspace) :=
  match (self.get key).elim (some 0) String.toNat? with
  | some n =>
      if n + 1 < 2 ^ 63 then .ok (n + 1, self.set key (toString (n + 1)))
      else .error "ERR increment or decrement would overflow"
  | none => .error "ERR value is not an integer or out of range"

/-- The keys that match the glob, in the order in which Redis goes through its keys. -/
def stateKeys (self : Keyspace) (order : HashMap.IterOrder String String) : List String :=
  ((order.entries self.strings).map Prod.fst).filter isStateKey

/-! ## The state store -/

def saveRun (texts : Texts) (self : Keyspace) (runId : String) (state : RunState) (expectedVersion : Nat) :
    Except StateStoreError Bool × Keyspace :=
  match self.get (stateKey runId) with
  | none =>
      if texts.toNumber expectedVersion = 0 then
        (.ok true, self.set (stateKey runId) (texts.ofState state))
      else (.ok false, self)
  | some current =>
      match texts.decode current with
      | .error e => (.error (.redis e), self)
      | .ok decoded =>
          if decoded.version = some (texts.toNumber expectedVersion) then
            (.ok true, self.set (stateKey runId) (texts.ofState state))
          else (.ok false, self)

def loadRun (texts : Texts) (self : Keyspace) (runId : String) : Except StateStoreError (Option RunState) :=
  match self.get (stateKey runId) with
  | some json => (texts.toState json).map some
  | none => .ok none

def deleteRun (self : Keyspace) (runId : String) : Keyspace := self.del (stateKey runId)

def tryAcquireLease (texts : Texts) (self : Keyspace) (runId serverId : String) :
    Except StateStoreError (Option Nat) × Keyspace :=
  match self.get (leaseKey runId) with
  | some _ => (.ok none, self)
  | none =>
      match self.incr (leaseVersionKey runId) with
      | .error e => (.error (.redis e), self)
      | .ok (counter, self) =>
          let version := texts.toNumber counter
          (.ok (some version), self.set (leaseKey runId) (texts.encodeLease ⟨version, serverId⟩))

def renewLease (texts : Texts) (self : Keyspace) (runId serverId : String) (leaseVersion : Nat) :
    Except StateStoreError Bool :=
  match self.get (leaseKey runId) with
  | none => .ok false
  | some current =>
      match texts.decode current with
      | .error e => .error (.redis e)
      | .ok decoded =>
          .ok (decoded.serverId = some serverId && decoded.version = some (texts.toNumber leaseVersion))

def releaseLease (self : Keyspace) (runId : String) : Keyspace := self.del (leaseKey runId)

/-- The run of a listed key, where it is unleased and its state is as wanted. -/
def unleasedRun (texts : Texts) (self : Keyspace) (wanted : RunState → Bool) (key : String) : Option String :=
  let parts := splitText key ':'
  if parts.length < 4 then none
  else
    match parts[2]?, self.get key with
    | some runId, some json =>
        match texts.toState json with
        | .error _ => none
        | .ok state =>
            if !wanted state then none
            else if self.exists? (leaseKey runId) then none
            else some runId
    | _, _ => none

def unleased (texts : Texts) (self : Keyspace) (order : HashMap.IterOrder String String)
    (wanted : RunState → Bool) : List String :=
  (self.stateKeys order).filterMap (self.unleasedRun texts wanted)

def getOrphanedRuns (texts : Texts) (self : Keyspace) (order : HashMap.IterOrder String String) : List String :=
  self.unleased texts order fun state => !runStateIsTerminal state

def listTerminalUnleasedRuns (texts : Texts) (self : Keyspace) (order : HashMap.IterOrder String String) :
    List String :=
  self.unleased texts order runStateIsTerminal

end Keyspace

/-! ## Keys -/

theorem stateKey_eq (r : String) : stateKey r = "jefferies:run:" ++ r ++ ":state" := rfl

theorem leaseKey_eq (r : String) : leaseKey r = "jefferies:run:" ++ r ++ ":lease" := rfl

theorem stateKey_toList (r : String) :
    (stateKey r).toList = "jefferies:run:".toList ++ (r.toList ++ ":state".toList) := by
  simp [stateKey_eq]

theorem stateKey_inj {r r' : String} (h : stateKey r = stateKey r') : r = r' := by
  have hl := congrArg String.toList h
  simp only [stateKey_toList] at hl
  exact String.toList_injective (List.append_cancel_right (List.append_cancel_left hl))

theorem leaseKey_inj {r r' : String} (h : leaseKey r = leaseKey r') : r = r' := by
  have hl := congrArg String.toList h
  simp only [leaseKey_eq, String.toList_append, List.append_assoc] at hl
  exact String.toList_injective (List.append_cancel_right (List.append_cancel_left hl))

theorem leaseVersionKey_inj {r r' : String} (h : leaseVersionKey r = leaseVersionKey r') : r = r' := by
  have hl := congrArg String.toList h
  simp only [leaseVersionKey, String.toList_append] at hl
  exact leaseKey_inj (String.toList_injective (List.append_cancel_right hl))

/-- The three kinds of keys end in different ways. -/
theorem ne_of_ends {a b x y : String} (hlen : x.toList.length = y.toList.length) (hne : x ≠ y) :
    a ++ x ≠ b ++ y := by
  intro h
  have hl := congrArg String.toList h
  simp only [String.toList_append] at hl
  exact hne (String.toList_injective (List.append_inj' hl hlen).2)

theorem stateKey_ne_leaseKey (r r' : String) : stateKey r ≠ leaseKey r' := by
  rw [stateKey_eq, leaseKey_eq]
  exact ne_of_ends (by simp) (by simp)

theorem leaseVersionKey_eq (r : String) : leaseVersionKey r = "jefferies:run:" ++ r ++ ":lea" ++ "se:ver" := by
  apply String.toList_injective
  simp [leaseVersionKey, leaseKey_eq]

theorem stateKey_ne_leaseVersionKey (r r' : String) : stateKey r ≠ leaseVersionKey r' := by
  rw [stateKey_eq, leaseVersionKey_eq]
  exact ne_of_ends (by simp) (by simp)

theorem leaseKey_ne_leaseVersionKey (r r' : String) : leaseKey r ≠ leaseVersionKey r' := by
  rw [leaseKey_eq, leaseVersionKey_eq]
  exact ne_of_ends (by simp) (by simp)

/-- The glob matches the keys of states and no others. -/
theorem isStateKey_iff {key : String} : isStateKey key = true ↔ ∃ r, key = stateKey r := by
  simp only [isStateKey, startsWith, Bool.and_eq_true, List.isPrefixOf_iff_prefix, List.isSuffixOf_iff_suffix]
  constructor
  · intro ⟨⟨rest, hrest⟩, ⟨mid, hmid⟩⟩
    rw [← hrest, List.drop_left] at hmid
    use String.ofList mid
    apply String.toList_injective
    have hofList : (String.ofList mid).toList = mid := String.toList_ofList
    rw [stateKey_toList, ← hrest, ← hmid, hofList]
  · intro ⟨r, hr⟩
    rw [hr, stateKey_toList]
    exact ⟨⟨_, rfl⟩, by rw [List.drop_left]; exact ⟨_, rfl⟩⟩

/-- The third part of a key is the run, where the run id has no colon. -/
theorem splitText_stateKey {r : String} (hr : ':' ∉ r.toList) :
    splitText (stateKey r) ':' = ["jefferies", "run", r, "state"] := by
  have hkey : (stateKey r).toList =
      "jefferies".toList ++ ':' :: ("run".toList ++ ':' :: (r.toList ++ ':' :: "state".toList)) := by
    simp [stateKey_eq]
  rw [splitText, hkey, List.splitOn_append_cons_self_of_not_mem (by decide),
    List.splitOn_append_cons_self_of_not_mem (by decide), List.splitOn_append_cons_self_of_not_mem hr,
    List.splitOn_eq_singleton (by decide)]
  simp

end Jefferies.StateStore
