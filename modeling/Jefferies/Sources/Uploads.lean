import Jefferies.Sources.SourceManager

/-!
# What the parts of a source make up

The parts that are accepted and the bytes still to come make up the source at every moment, and all parts but the last
are full.
-/

namespace Jefferies.Sources

open Interaction Interact

/-- What is to be known of an upload: the body that is downloaded, the parts that S3 accepted, whether it refused one
and whether it was asked to complete the upload. -/
structure Upload where
  downloaded : Option Body
  accepted : List UploadPart
  refused : Bool
  completed : Bool

namespace Upload

def empty : Upload := ⟨none, [], false, false⟩

def answered (self : Upload) : (e : SourceEffect) → SourceResp e → Upload
  | .downloadTarball .., .ok body => { self with downloaded := some body }
  | .uploadPart part, .ok _ => { self with accepted := self.accepted ++ [part] }
  | .uploadPart _, .error _ => { self with refused := true }
  | .completeMultipartUpload .., _ => { self with completed := true }
  | _, _ => self

end Upload

/-- GitHub and S3 answer as `allow` has it. -/
def storing (allow : (e : SourceEffect) → SourceResp e → Prop) (w : Upload) (_ : SourceManager) (e : SourceEffect)
    (r : SourceResp e) (w' : Upload) : Prop := allow e r ∧ w' = w.answered e r

/-- The body breaks off. -/
def Body.Broken (body : Body) : Prop := ∃ e, .error e ∈ body

/-- The parts are numbered from 1, all but the last are full and the last is not empty, and they make up the data. -/
structure Lossless (data : List UInt8) (parts : List UploadPart) : Prop where
  numbered : parts.map (fun part => part.partNumber.toInt) = (List.range parts.length).map fun i : ℕ => (i : ℤ) + 1
  full : ∀ part ∈ parts.dropLast, part.body.length = partSize
  last : ∀ part ∈ parts.getLast?, 1 ≤ part.body.length ∧ part.body.length ≤ partSize
  whole : (parts.map UploadPart.body).flatten = data

variable {body rest : Body} {buffer filled : List UInt8} {bodyDone : Bool} {w : Upload}

theorem Lossless.eq_nil {data : List UInt8} {parts : List UploadPart} (h : Lossless data parts) :
    parts = [] ↔ data = [] := by
  rw [← h.whole]
  constructor
  · rintro rfl
    rfl
  · intro hflat
    by_contra hne
    have hlast := h.last _ (List.getLast?_eq_some_getLast hne)
    have hnil := List.flatten_eq_nil_iff.mp hflat _ (List.mem_map_of_mem (List.getLast_mem hne))
    rw [hnil] at hlast
    exact absurd hlast.1 (by simp)

/-! ## The inner loop -/

/-- What is left of a body breaks off where the body does. -/
theorem fill_broken (h : fill body buffer = .ok (bodyDone, filled, rest)) : rest.Broken ↔ body.Broken := by
  obtain ⟨⟨frames, rfl, _⟩, _⟩ := fill_ok h
  simp [Body.Broken]

/-- A body that comes to its end does not break off. -/
theorem fill_end (h : fill body buffer = .ok (bodyDone, filled, [])) : ¬body.Broken := by
  rw [← fill_broken h]
  rintro ⟨e, he⟩
  cases he

theorem fill_error {e : String} (h : fill body buffer = .error e) : body.Broken := by
  induction body generalizing buffer with
  | nil =>
      unfold fill at h
      split at h
      · cases h
      · cases h
  | cons frame body ih =>
      unfold fill at h
      split at h
      · cases h
      · cases frame with
        | error e => exact ⟨e, List.mem_cons_self⟩
        | ok frame =>
            obtain ⟨e, he⟩ := ih h
            exact ⟨e, List.mem_cons_of_mem _ he⟩

/-! ## The outer loop -/

/-- So far only full parts were accepted, none was refused, and the next one has the next number. -/
structure Uploading (w : Upload) (partNumber : Int32) (parts : List CompletedPart) : Prop where
  numbered : w.accepted.map (fun part => part.partNumber.toInt) =
    (List.range w.accepted.length).map fun i : ℕ => (i : ℤ) + 1
  next : partNumber.toInt = w.accepted.length + 1
  full : ∀ part ∈ w.accepted, part.body.length = partSize
  returned : parts.map CompletedPart.partNumber = w.accepted.map UploadPart.partNumber
  refused : w.refused = false

/-- How an upload of `data` ends: with all of it, or with an error where the body breaks off or S3 refuses a part. -/
def Uploaded (data : List UInt8) (broken : Prop) (w : Upload) (result : Except SourceError (List CompletedPart)) : Prop :=
  (w.refused = true ∨ broken → ∃ e, result = .error e) ∧
    (w.refused = false → ¬broken → ∃ parts, result = .ok parts ∧
      parts.map CompletedPart.partNumber = w.accepted.map UploadPart.partNumber ∧ Lossless data w.accepted)

variable {partNumber : Int32} {parts : List CompletedPart}

theorem uploaded_whole {data : List UInt8} {broken : Prop} (hrefused : w.refused = false) (hbroken : ¬broken)
    (hreturned : parts.map CompletedPart.partNumber = w.accepted.map UploadPart.partNumber)
    (hlossless : Lossless data w.accepted) : Uploaded data broken w (.ok parts) := by
  refine ⟨?_, fun _ _ => ⟨parts, rfl, hreturned, hlossless⟩⟩
  rintro (h | h)
  · rw [hrefused] at h
    cases h
  · exact absurd h hbroken

theorem toInt_succ (h : 1 ≤ partNumber.toInt) (hlimit : partNumber.toInt ≤ 10000) :
    (partNumber + 1).toInt = partNumber.toInt + 1 := by
  have hone : (1 : Int32).toInt = 1 := rfl
  rw [Int32.toInt_add, hone, Int.bmod_eq_of_le (by omega) (by omega)]

/-- A full part keeps the loop going. -/
theorem Uploading.full_part (h : Uploading w partNumber parts) {part : UploadPart} (hnumber : part.partNumber = partNumber)
    (hfull : part.body.length = partSize) (hlimit : partNumber.toInt ≤ 10000) (eTag : String) :
    Uploading { w with accepted := w.accepted ++ [part] } (partNumber + 1) (parts ++ [⟨eTag, partNumber⟩]) := by
  have hnext := h.next
  constructor
  · simp only [List.map_append, List.map_cons, List.map_nil, List.length_append, List.length_singleton,
      List.range_succ, h.numbered, hnumber, hnext]
  · rw [toInt_succ (by omega) hlimit, hnext]
    simp
  · intro p hp
    rcases List.mem_append.mp hp with hp | hp
    · exact h.full p hp
    · rw [List.mem_singleton.mp hp, hfull]
  · simp [h.returned, hnumber]
  · exact h.refused

/-- With a last part that is not empty and no larger than the others, the upload is whole. -/
theorem Uploading.last_part (h : Uploading w partNumber parts) {part : UploadPart} (hnumber : part.partNumber = partNumber)
    (hpos : 1 ≤ part.body.length) (hle : part.body.length ≤ partSize) :
    Lossless ((w.accepted.map UploadPart.body).flatten ++ part.body) (w.accepted ++ [part]) := by
  have hnext := h.next
  constructor
  · simp only [List.map_append, List.map_cons, List.map_nil, List.length_append, List.length_singleton,
      List.range_succ, h.numbered, hnumber, hnext]
  · rw [List.dropLast_concat]
    exact h.full
  · rw [List.getLast?_concat]
    rintro _ ⟨⟩
    exact ⟨hpos, hle⟩
  · simp

/-- Without a part more, the upload is whole as it is. -/
theorem Uploading.no_part (h : Uploading w partNumber parts) :
    Lossless (w.accepted.map UploadPart.body).flatten w.accepted := by
  constructor
  · exact h.numbered
  · exact fun part hpart => h.full part (List.dropLast_subset _ hpart)
  · intro part hpart
    have hfull := h.full part (List.mem_of_getLast? hpart)
    have := partSize_pos
    omega
  · rfl

theorem Uploaded.intact {data : List UInt8} {broken : Prop} (h : Uploaded data broken w (.ok parts)) :
    w.refused = false ∧ ¬broken := by
  by_contra hno
  have hfailed : w.refused = true ∨ broken := by
    cases hrefused : w.refused with
    | true => exact .inl rfl
    | false => exact .inr (not_not.mp fun hbroken => hno ⟨hrefused, hbroken⟩)
  obtain ⟨e, he⟩ := h.1 hfailed
  cases he

/-! ## The answers of S3 -/

variable {allow : (e : SourceEffect) → SourceResp e → Prop} {self : SourceManager} {P : Upload → Prop}

/-- S3 takes the parts of an upload up to the number 10000. -/
def PartLimit (allow : (e : SourceEffect) → SourceResp e → Prop) : Prop :=
  ∀ part eTag, allow (.uploadPart part) (.ok eTag) → part.partNumber.toInt ≤ 10000

theorem splitBuffer_full (h : partSize ≤ buffer.length) : (splitBuffer buffer).1.length = partSize := by
  unfold splitBuffer
  split
  · rw [List.length_take]
    omega
  · show buffer.length = partSize
    omega

theorem splitBuffer_last (h : buffer.length < partSize) : splitBuffer buffer = (buffer, []) := by
  unfold splitBuffer
  rw [if_neg (by omega)]

theorem uploadRest_error {key uploadId e : String} (h : fill body buffer = .error e) :
    uploadRest key uploadId body buffer partNumber parts self = .ret self (.error (.download e)) := by
  generalize hloop : uploadRest key uploadId body buffer partNumber parts = loop
  rw [uploadRest] at hloop
  split at hloop
  · rename_i h'
    cases h.symm.trans h'
    subst hloop
    rfl
  · rename_i h'
    cases h.symm.trans h'

theorem uploadRest_done {key uploadId : String} (h : fill body buffer = .ok (bodyDone, [], rest)) :
    uploadRest key uploadId body buffer partNumber parts self = .ret self (.ok parts) := by
  generalize hloop : uploadRest key uploadId body buffer partNumber parts = loop
  rw [uploadRest] at hloop
  split at hloop
  · rename_i h'
    cases h.symm.trans h'
  · rename_i h'
    cases h.symm.trans h'
    subst hloop
    rfl

theorem uploadRest_part (self : SourceManager) (key uploadId : String) (partNumber : Int32) (parts : List CompletedPart)
    (h : fill body buffer = .ok (bodyDone, filled, rest)) (hne : filled ≠ []) :
    ∃ part : UploadPart, part.partNumber = partNumber ∧ part.body = (splitBuffer filled).1 ∧
      ∃ k, uploadRest key uploadId body buffer partNumber parts self = .call self (.uploadPart part) k ∧
        (∀ e, k (.error e) = .ret self (.error (.s3 e))) ∧
        ∀ eTag, k (.ok eTag) =
          if bodyDone then .ret self (.ok (parts ++ [⟨eTag.getD "", partNumber⟩]))
          else uploadRest key uploadId rest (splitBuffer filled).2 (partNumber + 1)
            (parts ++ [⟨eTag.getD "", partNumber⟩]) self := by
  generalize hloop : uploadRest key uploadId body buffer partNumber parts = loop
  rw [uploadRest] at hloop
  split at hloop
  · rename_i h'
    cases h.symm.trans h'
  · rename_i h'
    cases h.symm.trans h'
    rw [dif_neg hne] at hloop
    subst hloop
    refine ⟨_, rfl, rfl, _, rfl, fun _ => rfl, fun eTag => ?_⟩
    cases bodyDone <;> rfl

/-- What the loop ends with, from any moment on. -/
theorem uploadRest_uploaded (hlimit : PartLimit allow) (hP : ∀ w : Upload, w.completed = false → P w)
    (key uploadId : String) (body : Body) (buffer : List UInt8) (partNumber : Int32) (parts : List CompletedPart) {w : Upload}
    (hw : w.completed = false) (h : Uploading w partNumber parts) :
    Throughout (storing allow) P (fun x _ result => (x.downloaded = w.downloaded ∧ x.completed = false) ∧
        Uploaded ((w.accepted.map UploadPart.body).flatten ++ (buffer ++ body.bytes)) body.Broken x result) w
      (uploadRest key uploadId body buffer partNumber parts self) := by
  induction body, buffer, partNumber, parts using uploadRest.induct generalizing w with
  | case1 body buffer partNumber parts e hfill =>
      rw [uploadRest_error hfill]
      exact ⟨hP w hw, ⟨rfl, hw⟩, fun _ => ⟨_, rfl⟩, fun _ hno => absurd (fill_error hfill) hno⟩
  | case2 body buffer partNumber parts bodyDone rest hfill =>
      rw [uploadRest_done hfill]
      -- nothing is left, as an empty buffer means that the body has ended
      have hrest : rest = [] := by
        have hdone := (fill_ok hfill).2
        cases bodyDone with
        | true => exact hdone.1
        | false => exact absurd (Nat.lt_of_lt_of_le partSize_pos hdone) (lt_irrefl 0)
      have hbytes := fill_bytes hfill
      subst hrest
      refine ⟨hP w hw, ⟨rfl, hw⟩, uploaded_whole h.refused (fill_end hfill) h.returned ?_⟩
      rw [← hbytes]
      simpa [Body.bytes] using h.no_part
  | case3 body buffer partNumber parts bodyDone filled rest hfill hne ih =>
      obtain ⟨part, hnumber, hbody, k, hcall, herror, hok⟩ := uploadRest_part self key uploadId partNumber
        parts hfill hne
      rw [hcall]
      refine ⟨hP w hw, ?_⟩
      rintro r _ ⟨hr, rfl⟩
      cases r with
      | error e =>
          -- a refused part ends the loop with its error
          rw [herror]
          exact ⟨hP _ hw, ⟨rfl, hw⟩, fun _ => ⟨_, rfl⟩, fun hno => absurd hno (by simp [Upload.answered])⟩
      | ok eTag =>
          rw [hok]
          have hdone := (fill_ok hfill).2
          have hsplit := splitBuffer_append filled
          have hbytes := fill_bytes hfill
          have hpartLimit : partNumber.toInt ≤ 10000 := hnumber ▸ hlimit part eTag hr
          cases bodyDone with
          | true =>
              obtain ⟨rfl, hlast⟩ := hdone
              rw [splitBuffer_last hlast] at hbody
              have hpos : 1 ≤ part.body.length := hbody ▸ List.length_pos_of_ne_nil hne
              have hlossless := h.last_part hnumber hpos (hbody ▸ hlast.le)
              refine ⟨hP _ hw, ⟨rfl, hw⟩, uploaded_whole h.refused (fill_end hfill) ?_ ?_⟩
              · simp [Upload.answered, h.returned, hnumber]
              · rw [← hbytes]
                simpa [Body.bytes, Upload.answered, hbody] using hlossless
          | false =>
              -- the part is full, and the loop goes on with what is left in the buffer
              have hfull := splitBuffer_full hdone
              rw [← hbody] at hfull
              refine (ih eTag (w := w.answered (.uploadPart part) (.ok eTag)) hw
                (h.full_part hnumber hfull hpartLimit _)).mono ?_
              rintro x _ result ⟨hx, hres⟩
              refine ⟨hx, ?_⟩
              rw [fill_broken hfill] at hres
              have hdata : ((w.answered (.uploadPart part) (.ok eTag)).accepted.map UploadPart.body).flatten ++
                  ((splitBuffer filled).2 ++ rest.bytes) =
                    (w.accepted.map UploadPart.body).flatten ++ (buffer ++ body.bytes) := by
                rw [← hbytes]
                conv_rhs => rw [← hsplit]
                simp [Upload.answered, hbody]
              rwa [hdata] at hres

/-! ## The upload of a source -/

theorem uploadParts_uploaded (hlimit : PartLimit allow) (hP : ∀ w : Upload, w.completed = false → P w) (key uploadId : String)
    (body : Body) (hw : w.completed = false) (haccepted : w.accepted = []) (hrefused : w.refused = false) :
    Throughout (storing allow) P (fun x _ result => (x.downloaded = w.downloaded ∧ x.completed = false) ∧
        Uploaded body.bytes body.Broken x result) w (uploadParts key uploadId body self) := by
  have hstart : Uploading w 1 [] := by
    constructor
    · simp [haccepted]
    · rw [haccepted]
      rfl
    · simp [haccepted]
    · simp [haccepted]
    · exact hrefused
  simpa [uploadParts, haccepted] using uploadRest_uploaded hlimit hP key uploadId body [] 1 [] hw hstart

/-- The upload is completed only with a body that came to its end and with parts that were all accepted. -/
def Intact (w : Upload) : Prop := w.completed = true → w.refused = false ∧ ∀ body ∈ w.downloaded, ¬body.Broken

theorem intact_of_not_completed (h : w.completed = false) : Intact w := fun hcompleted => by
  rw [h] at hcompleted
  cases hcompleted

/-- A failure is reported, and the upload is not completed. -/
def Reported (w : Upload) (result : Except SourceError Unit) : Prop :=
  (w.refused = true ∨ ∃ body ∈ w.downloaded, body.Broken) → w.completed = false ∧ ∃ e, result = .error e

theorem uploadSource_reported (hlimit : PartLimit allow) (runId owner repo sha : String) :
    Throughout (storing allow) Intact (fun w _ result => Reported w result) .empty
      (uploadSource runId owner repo sha self) := by
  refine ⟨intact_of_not_completed rfl, ?_⟩
  rintro downloaded _ ⟨_, rfl⟩
  cases downloaded with
  | error e => exact ⟨intact_of_not_completed rfl, fun _ => ⟨rfl, _, rfl⟩⟩
  | ok body =>
      refine ⟨intact_of_not_completed rfl, ?_⟩
      rintro created _ ⟨_, rfl⟩
      cases created with
      | error e => exact ⟨intact_of_not_completed rfl, fun _ => ⟨rfl, _, rfl⟩⟩
      | ok created =>
          cases created with
          | none => exact ⟨intact_of_not_completed rfl, fun _ => ⟨rfl, _, rfl⟩⟩
          | some uploadId =>
              apply Throughout.seq (uploadParts_uploaded hlimit (fun _ => intact_of_not_completed) _ uploadId body
                rfl rfl rfl)
              rintro x s result hx ⟨⟨hdownloaded, hcompleted⟩, hres⟩
              cases result with
              | error e =>
                  refine ⟨hx, ?_⟩
                  rintro _ _ ⟨_, rfl⟩
                  exact ⟨hx, fun _ => ⟨hcompleted, _, rfl⟩⟩
              | ok parts =>
                  obtain ⟨hrefused, hbroken⟩ := hres.intact
                  have hwhole : ∀ b ∈ x.downloaded, ¬b.Broken := by
                    rw [hdownloaded]
                    rintro _ ⟨⟩
                    exact hbroken
                  refine ⟨hx, ?_⟩
                  rintro completed _ ⟨_, rfl⟩
                  have hreported : ∀ result, Reported { x with completed := true } result := by
                    rintro result (h | ⟨b, hb, h⟩)
                    · rw [show x.refused = true from h] at hrefused
                      cases hrefused
                    · exact absurd h (hwhole b hb)
                  cases completed with
                  | error e => exact ⟨fun _ => ⟨hrefused, hwhole⟩, hreported _⟩
                  | ok => exact ⟨fun _ => ⟨hrefused, hwhole⟩, hreported _⟩

/-- The parts of a body that comes to its end are its data, wherever its frames begin and end. Where the body breaks off
or a part is refused, the upload fails and is never completed. -/
theorem upload_lossless (hlimit : PartLimit allow) :
    (∀ key uploadId body, Throughout (storing allow) (fun _ => True) (fun w _ result =>
        Uploaded body.bytes body.Broken w result ∧
          (w.refused = false → ¬body.Broken → (w.accepted = [] ↔ body.bytes = []))) .empty
        (uploadParts key uploadId body self)) ∧
      ∀ runId owner repo sha, Throughout (storing allow) Intact (fun w _ result => Reported w result) .empty
        (uploadSource runId owner repo sha self) := by
  refine ⟨?_, fun runId owner repo sha => uploadSource_reported hlimit runId owner repo sha⟩
  intro key uploadId body
  refine (uploadParts_uploaded hlimit (fun _ _ => trivial) key uploadId body rfl rfl rfl).mono ?_
  rintro w _ result ⟨_, hres⟩
  refine ⟨hres, fun hrefused hbroken => ?_⟩
  obtain ⟨_, _, _, hlossless⟩ := hres.2 hrefused hbroken
  exact hlossless.eq_nil

/-- S3 as its documentation has it: a part is taken if its number is one of 1 to 10000. -/
def documented : (e : SourceEffect) → SourceResp e → Prop
  | .uploadPart part, .ok _ => 1 ≤ part.partNumber.toInt ∧ part.partNumber.toInt ≤ 10000
  | _, _ => True

/-- Two frames of data with trailers between them are uploaded as they are. -/
theorem upload_lossless_documented :
    let body : Body := [.ok (.data [1, 2]), .ok .trailers, .ok (.data [3])]
    Throughout (storing documented) (fun _ => True) (fun w _ result =>
        Uploaded [1, 2, 3] False w result ∧ (w.refused = false → w.accepted ≠ [])) .empty
      (uploadParts "runs/r/source.tar.gz" "id" body ⟨"sources"⟩) := by
  intro body
  refine ((upload_lossless fun part eTag h => h.2).1 "runs/r/source.tar.gz" "id" body).mono ?_
  have hbroken : ¬body.Broken := by simp [body, Body.Broken]
  rintro w _ result ⟨hres, hempty⟩
  rw [iff_false_intro hbroken] at hres
  exact ⟨hres, fun hrefused hnone => absurd ((hempty hrefused hbroken).mp hnone) (by decide)⟩

end Jefferies.Sources
