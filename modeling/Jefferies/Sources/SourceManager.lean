import Jefferies.Interaction.Process
import Jefferies.Collections.Text

/-!
# The source manager

The source of a run is streamed to S3 in parts of equal size, and what a run has left under its prefix is deleted in the
end.
-/

namespace Jefferies.Sources

open Interaction Interact

def partSize : Nat := 8 * 1024 * 1024

inductive SourceError where
  | download (message : String)
  | s3 (message : String)
  | presign (message : String)
  | notFound (message : String)
  deriving DecidableEq

/-- A frame of a body: data, or trailers. -/
inductive Frame where
  | data (chunk : List UInt8)
  | trailers

def Frame.bytes : Frame → List UInt8
  | .data chunk => chunk
  | .trailers => []

/-- What a body still yields, frame by frame. -/
abbrev Body : Type := List (Except String Frame)

structure UploadPart where
  bucket : String
  key : String
  uploadId : String
  partNumber : Int32
  contentLength : Int64
  body : List UInt8

structure CompletedPart where
  eTag : String
  partNumber : Int32

inductive SourceEffect where
  | downloadTarball (owner repo sha : String)
  | createMultipartUpload (bucket key contentType : String)
  | uploadPart (request : UploadPart)
  | completeMultipartUpload (bucket key uploadId : String) (parts : List CompletedPart)
  | abortMultipartUpload (bucket key uploadId : String)
  | listObjectsV2 (bucket runPrefix : String)
  | deleteObjects (bucket : String) (keys : List String)

/-- An upload is answered with its id and a part with its tag, where S3 returns one; a listing with the keys of its
objects, where they have one. -/
@[reducible] def SourceResp : SourceEffect → Type
  | .downloadTarball .. => Except String Body
  | .createMultipartUpload .. => Except String (Option String)
  | .uploadPart _ => Except String (Option String)
  | .completeMultipartUpload .. => Except String Unit
  | .abortMultipartUpload .. => Except String Unit
  | .listObjectsV2 .. => Except String (List (Option String))
  | .deleteObjects .. => Except String Unit

structure SourceManager where
  bucket : String

/-- A computation of the source manager. -/
abbrev Manage (α : Type) : Type := Interact SourceManager SourceResp α

/-- Make the call `e`. -/
abbrev request (e : SourceEffect) : Manage (SourceResp e) := perform e

def sourceKey (runId : String) : String := "runs/" ++ runId ++ "/source.tar.gz"

def statusKey (runId nodeName : String) : String := "runs/" ++ runId ++ "/nodes/" ++ nodeName ++ "/status.json"

/-! ## Uploads -/

/-- The inner loop: whether the body is at its end, the buffer and what the body still yields. -/
def fill : Body → List UInt8 → Except String (Bool × List UInt8 × Body)
  | body, buffer =>
      if buffer.length ≥ partSize then .ok (false, buffer, body)
      else
        match body with
        | [] => .ok (true, buffer, [])
        | .ok frame :: rest => fill rest (buffer ++ frame.bytes)
        | .error e :: _ => .error e

/-- The bytes that a body still yields. -/
def Body.bytes (body : Body) : List UInt8 :=
  body.flatMap fun
    | .ok frame => frame.bytes
    | .error _ => []

/-- The next part, and what stays in the buffer. -/
def splitBuffer (buffer : List UInt8) : List UInt8 × List UInt8 :=
  if buffer.length > partSize then (buffer.take partSize, buffer.drop partSize) else (buffer, [])

variable {body rest : Body} {buffer filled : List UInt8} {bodyDone : Bool}

/-- The buffer takes up frames from the front of the body until it is filled or the body ends. -/
theorem fill_ok (h : fill body buffer = .ok (bodyDone, filled, rest)) :
    (∃ frames : List Frame, body = frames.map .ok ++ rest ∧ filled = buffer ++ frames.flatMap Frame.bytes) ∧
      if bodyDone then rest = [] ∧ filled.length < partSize else partSize ≤ filled.length := by
  induction body generalizing buffer with
  | nil =>
      unfold fill at h
      split at h
      · cases h
        exact ⟨⟨[], rfl, (List.append_nil _).symm⟩, by assumption⟩
      · cases h
        exact ⟨⟨[], rfl, (List.append_nil _).symm⟩, rfl, by omega⟩
  | cons frame body ih =>
      unfold fill at h
      split at h
      · cases h
        exact ⟨⟨[], rfl, (List.append_nil _).symm⟩, by assumption⟩
      · cases frame with
        | error e => cases h
        | ok frame =>
            obtain ⟨⟨frames, hbody, hfilled⟩, hdone⟩ := ih h
            refine ⟨⟨frame :: frames, by rw [hbody]; rfl, ?_⟩, hdone⟩
            rw [hfilled, List.flatMap_cons, List.append_assoc]

/-- Filling the buffer loses nothing. -/
theorem fill_bytes (h : fill body buffer = .ok (bodyDone, filled, rest)) :
    filled ++ rest.bytes = buffer ++ body.bytes := by
  obtain ⟨⟨frames, rfl, rfl⟩, _⟩ := fill_ok h
  simp [Body.bytes, List.flatMap_map]

theorem partSize_pos : 0 < partSize := by decide

theorem splitBuffer_append (buffer : List UInt8) : (splitBuffer buffer).1 ++ (splitBuffer buffer).2 = buffer := by
  unfold splitBuffer
  split
  · exact List.take_append_drop _ _
  · exact List.append_nil _

theorem splitBuffer_ne_nil (h : buffer ≠ []) : (splitBuffer buffer).1 ≠ [] := by
  unfold splitBuffer
  split
  · simp [List.take_eq_nil_iff, partSize_pos.ne', h]
  · exact h

/-- Each part takes some of the bytes. -/
theorem fill_decreases (h : fill body buffer = .ok (bodyDone, filled, rest)) (hne : filled ≠ []) :
    ((splitBuffer filled).2 ++ rest.bytes).length < (buffer ++ body.bytes).length := by
  have hsplit := congrArg List.length (splitBuffer_append filled)
  have hpart := List.length_pos_of_ne_nil (splitBuffer_ne_nil hne)
  rw [← fill_bytes h]
  simp only [List.length_append] at hsplit ⊢
  omega

/-- The outer loop, with the part to come and the parts that are uploaded. -/
def uploadRest (key uploadId : String) (body : Body) (buffer : List UInt8) (partNumber : Int32)
    (parts : List CompletedPart) : Manage (Except SourceError (List CompletedPart)) :=
  match hfill : fill body buffer with
  | .error e => return .error (.download e)
  | .ok (bodyDone, filled, rest) =>
      if hfilled : filled = [] then return .ok parts
      else do
        let self ← get
        let part := (splitBuffer filled).1
        match ← request (.uploadPart ⟨self.bucket, key, uploadId, partNumber, .ofNat part.length, part⟩) with
        | .error e => return .error (.s3 e)
        | .ok eTag =>
            let parts := parts ++ [⟨eTag.getD "", partNumber⟩]
            if bodyDone then return .ok parts
            else uploadRest key uploadId rest (splitBuffer filled).2 (partNumber + 1) parts
termination_by (buffer ++ body.bytes).length
decreasing_by exact fill_decreases hfill hfilled

def uploadParts (key uploadId : String) (body : Body) : Manage (Except SourceError (List CompletedPart)) :=
  uploadRest key uploadId body [] 1 []

def uploadSource (runId owner repo sha : String) : Manage (Except SourceError Unit) := do
  match ← request (.downloadTarball owner repo sha) with
  | .error e => return .error (.download e)
  | .ok body =>
      let self ← get
      let key := sourceKey runId
      match ← request (.createMultipartUpload self.bucket key "application/gzip") with
      | .error e => return .error (.s3 e)
      | .ok none => return .error (.s3 "S3 did not return an upload ID")
      | .ok (some uploadId) =>
          match ← uploadParts key uploadId body with
          | .ok parts =>
              match ← request (.completeMultipartUpload self.bucket key uploadId parts) with
              | .error e => return .error (.s3 e)
              | .ok () => return .ok ()
          | .error e => do
              let _ ← request (.abortMultipartUpload self.bucket key uploadId)
              return .error e

/-! ## Cleanup -/

def runPrefix (runId : String) : String := "runs/" ++ runId ++ "/"

def cleanupRun (runId : String) : Manage (Except SourceError Unit) := do
  let self ← get
  match ← request (.listObjectsV2 self.bucket (runPrefix runId)) with
  | .error e => return .error (.s3 e)
  | .ok contents =>
      let identifiers := contents.filterMap id
      if identifiers = [] then return .ok ()
      else
        match ← request (.deleteObjects self.bucket identifiers) with
        | .error e => return .error (.s3 e)
        | .ok () => return .ok ()

end Jefferies.Sources
