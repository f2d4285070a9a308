import Helm.Framework.OrdMap
import Helm.Framework.Signed
import Helm.Amio.GribIdentity

/-! # The record index of a GRIB2 file

  `GRIB2_Driver::build_record_index` scans a file and files every record
  under the name of its field. The records of one entry are taken for the
  timesteps of one field.

  The name leaves out some of what tells two fields apart: the scale factor
  of the surface, the sizes of an aerosol, the scale factors of the
  wavelengths, and everything for templates the driver does not know.

  What g2c reports of a file is given: its messages, and for each field the
  header or an error code.

  Main result: `index_sound_iff`.
-/

namespace Amio.Grib2

open Signed Labels

/-! ## Section 1: The scan -/

/-- What the driver reads of a `gribfield`. A missing array is empty. -/
structure GribField where
  ipdtnum : Int
  ipdtmpl : List Int
  igdtmpl : List Int
  ngrdpts : Int
  deriving DecidableEq

structure GribRecordLocation where
  offset : Int
  length : Int
  field_number : Int
  deriving DecidableEq

/-- An entry of the index; its default is what `records_[key]` makes. -/
structure GribFieldIndex where
  ni : Int := 0
  nj : Int := 0
  ngrdpts : Int := 0
  records : List GribRecordLocation := []
  deriving DecidableEq

/-- A message as `seekgb`, the file and g2c report it. -/
structure GribMessage where
  lskip : Int
  lgrib : Int
  seeks : Bool
  reads : Bool
  /-- `g2_info`: its error code, or the discipline. -/
  info : Except Int Int
  /-- `g2_getfld`, for each field: its error code, or the header. -/
  fields : List (Except Int GribField)

/-- The messages of a file, or nothing when it cannot be opened. -/
abbrev GribFile := Option (List GribMessage)

def kGdtNiIdx : Nat := 7

def kGdtNjIdx : Nat := 8

/-- The grid that the template gives, if it is long enough. -/
def template_grid (gfld : GribField) : Int × Int :=
  if kGdtNjIdx < gfld.igdtmpl.length then
    (safe_get gfld.igdtmpl kGdtNiIdx, safe_get gfld.igdtmpl kGdtNjIdx)
  else (0, 0)

/-- `ni` and `nj`: a single row when the template has no usable shape. -/
def geometry (gfld : GribField) : Outcome String (Int × Int) :=
  let (ni, nj) := template_grid gfld
  if ni ≤ 0 ∨ nj ≤ 0 then .returned (gfld.ngrdpts, 1)
  else do
    let points ← signed 64 (ni * nj)
    if points ≠ gfld.ngrdpts then .returned (gfld.ngrdpts, 1) else .returned (ni, nj)

abbrev Index := OrdMap String GribFieldIndex

section Scan
variable (input_path : String)

/-- One record: its key, its grid and its place. -/
def index_field (discipline : Int) (msg : GribMessage) (records : Index)
    (field : Except Int GribField × Nat) : Outcome String Index :=
  match field with
  | (.error code, _) =>
    .thrown ("GRIB2_Driver::open_read: g2_getfld (metadata) failed (code " ++ toString code ++
      ") while indexing '" ++ input_path ++ "'.")
  | (.ok gfld, n) => do
    let key := field_identity_name (record_identity discipline gfld.ipdtnum gfld.ipdtmpl)
    let (ni, nj) ← geometry gfld
    let entry := (records.lookup key).getD {}
    let entry := if entry.records = [] then { entry with ni, nj, ngrdpts := gfld.ngrdpts } else entry
    return records.insert key
      { entry with records := entry.records ++ [⟨msg.lskip, msg.lgrib, n⟩] }

/-- One message; its fields are numbered from one. -/
def index_message (records : Index) (msg : GribMessage) : Outcome String Index :=
  if msg.seeks = false then
    .thrown ("GRIB2_Driver::open_read: seek failed while indexing '" ++ input_path ++ "'.")
  else if msg.reads = false then
    .thrown ("GRIB2_Driver::open_read: short read while indexing '" ++ input_path ++ "'.")
  else
    match msg.info with
    | .error code =>
      .thrown ("GRIB2_Driver::open_read: g2_info failed (code " ++ toString code ++
        ") while indexing '" ++ input_path ++ "'.")
    | .ok discipline =>
      (msg.fields.zipIdx 1).foldlM (index_field input_path discipline msg) records

def build_record_index (file : GribFile) : Outcome String Index :=
  match file with
  | none =>
    .thrown ("GRIB2_Driver::open_read: failed to open input file '" ++ input_path ++
      "' for reading.")
  | some messages => messages.foldlM (index_message input_path) OrdMap.empty

end Scan

/-! ## Section 2: Fields -/

/-- A record of a file. -/
structure GribRecord where
  discipline : Int
  header : GribField
  location : GribRecordLocation

def GribRecord.identity (r : GribRecord) : Identity :=
  record_identity r.discipline r.header.ipdtnum r.header.ipdtmpl

/-- The key of the entry that the record goes to. -/
def GribRecord.name (r : GribRecord) : String := field_identity_name r.identity

/-- The places from `i` to `j` of a template. -/
def between (t : List Int) (i j : Nat) : List Int :=
  (List.range' i (j + 1 - i)).map (safe_get t)

/-- What tells the fields of one parameter and template apart, at the places
    where the builders put it: first fixed surface (type, scale factor and
    scaled value), constituent or aerosol, size distribution, optical property
    and wavelengths, ensemble member, statistical process. For other templates
    `wmo` knows the places. -/
def described (wmo : Int → List Int → List Int) (pdt_number : Int) (t : List Int) : List Int :=
  match pdt_number with
  | 0 => between t 9 11
  | 8 => between t 9 11 ++ [safe_get t 23]
  | 40 => between t 10 12 ++ [safe_get t 2]
  | 44 => between t 15 17 ++ between t 2 7
  | 45 => between t 18 20 ++ between t 2 7 ++ [safe_get t 16]
  | 46 => between t 15 17 ++ between t 2 7 ++ [safe_get t 29]
  | 48 => between t 20 22 ++ between t 2 12
  | 49 => between t 23 25 ++ between t 2 12 ++ [safe_get t 21]
  | _ => wmo pdt_number t

/-- Two records of one field. -/
structure SameField (wmo : Int → List Int → List Int) (a b : GribRecord) : Prop where
  discipline : a.discipline = b.discipline
  template : a.header.ipdtnum = b.header.ipdtnum
  parameter : between a.header.ipdtmpl 0 1 = between b.header.ipdtmpl 0 1
  rest : described wmo a.header.ipdtnum a.header.ipdtmpl =
    described wmo b.header.ipdtnum b.header.ipdtmpl

/-- **Groups.** The records under a name are those of the file with that name,
    in the order of the file, and they are of one field. -/
structure GroupsSoundly (wmo : Int → List Int → List Int) (records : List GribRecord)
    (index : Index) : Prop where
  entries : ∀ name, ((index.lookup name).map (·.records)).getD [] =
    (records.filter (·.name = name)).map (·.location)
  filled : ∀ name entry, index.lookup name = some entry → entry.records ≠ []
  one_field : ∀ a ∈ records, ∀ b ∈ records, a.name = b.name → SameField wmo a b

/-! ## Section 3: The file as a list of records -/

/-- What the scan meets: a record, or an error that ends it. -/
def GribMessage.events (input_path : String) (msg : GribMessage) :
    List (Except String GribRecord) :=
  if msg.seeks = false then
    [.error ("GRIB2_Driver::open_read: seek failed while indexing '" ++ input_path ++ "'.")]
  else if msg.reads = false then
    [.error ("GRIB2_Driver::open_read: short read while indexing '" ++ input_path ++ "'.")]
  else
    match msg.info with
    | .error code =>
      [.error ("GRIB2_Driver::open_read: g2_info failed (code " ++ toString code ++
        ") while indexing '" ++ input_path ++ "'.")]
    | .ok discipline =>
      (msg.fields.zipIdx 1).map fun field =>
        match field with
        | (.error code, _) =>
          .error ("GRIB2_Driver::open_read: g2_getfld (metadata) failed (code " ++ toString code ++
            ") while indexing '" ++ input_path ++ "'.")
        | (.ok gfld, n) => .ok ⟨discipline, gfld, ⟨msg.lskip, msg.lgrib, n⟩⟩

/-- The records before the first error. -/
def scanned : List (Except String GribRecord) → List GribRecord
  | .ok r :: events => r :: scanned events
  | _ => []

/-- No error ends the scan. -/
def Complete (events : List (Except String GribRecord)) : Prop :=
  ∀ event ∈ events, ∃ r, event = .ok r

def GribFile.events (input_path : String) (file : GribFile) : List (Except String GribRecord) :=
  match file with
  | none => [.error ("GRIB2_Driver::open_read: failed to open input file '" ++ input_path ++
      "' for reading.")]
  | some messages => messages.flatMap (GribMessage.events input_path)

/-- The product of the template's sizes is only computed when both are
    positive. -/
def GridFits (gfld : GribField) : Prop :=
  (template_grid gfld).1 ≤ 0 ∨ (template_grid gfld).2 ≤ 0 ∨
    Fits 64 ((template_grid gfld).1 * (template_grid gfld).2)

instance (gfld : GribField) : Decidable (GridFits gfld) :=
  inferInstanceAs (Decidable (_ ∨ _ ∨ _))

/-- `ni` and `nj` when the product fits. -/
def grid_of (gfld : GribField) : Int × Int :=
  let (ni, nj) := template_grid gfld
  if ni ≤ 0 ∨ nj ≤ 0 ∨ ni * nj ≠ gfld.ngrdpts then (gfld.ngrdpts, 1) else (ni, nj)

theorem geometry_of_fits {gfld : GribField} (h : GridFits gfld) :
    geometry gfld = .returned (grid_of gfld) := by
  unfold GridFits at h
  unfold geometry grid_of
  generalize template_grid gfld = grid at h ⊢
  obtain ⟨ni, nj⟩ := grid
  dsimp only at h ⊢
  by_cases hpos : ni ≤ 0 ∨ nj ≤ 0
  · rw [if_pos hpos, if_pos (by tauto)]
  · rw [if_neg hpos, signed_of_fits (by tauto), Outcome.returned_bind]
    by_cases hpoints : ni * nj = gfld.ngrdpts
    · rw [if_neg (not_not_intro hpoints), if_neg (by tauto)]
    · rw [if_pos hpoints, if_pos (.inr (.inr hpoints))]

theorem geometry_undefined {gfld : GribField} (h : ¬ GridFits gfld) :
    geometry gfld = .undefined := by
  unfold GridFits at h
  unfold geometry
  generalize template_grid gfld = grid at h ⊢
  obtain ⟨ni, nj⟩ := grid
  dsimp only at h ⊢
  rw [if_neg (by tauto), signed_of_not_fits (by tauto)]
  rfl

/-- An entry with one more record. -/
def GribFieldIndex.push (entry : GribFieldIndex) (r : GribRecord) : GribFieldIndex :=
  let entry :=
    if entry.records = [] then
      { entry with ni := (grid_of r.header).1, nj := (grid_of r.header).2,
                   ngrdpts := r.header.ngrdpts }
    else entry
  { entry with records := entry.records ++ [r.location] }

/-- The index with one more record. -/
def add_record (index : Index) (r : GribRecord) : Index :=
  OrdMap.collect GribRecord.name (GribFieldIndex.push {}) GribFieldIndex.push index r

/-- One event of the scan. -/
def index_event (index : Index) (event : Except String GribRecord) : Outcome String Index :=
  match event with
  | .error e => .thrown e
  | .ok r => if GridFits r.header then .returned (add_record index r) else .undefined

theorem index_field_eq (input_path : String) (discipline : Int) (msg : GribMessage) (index : Index)
    (gfld : GribField) (n : Nat) :
    index_field input_path discipline msg index (.ok gfld, n) =
      index_event index (.ok ⟨discipline, gfld, ⟨msg.lskip, msg.lgrib, n⟩⟩) := by
  rw [index_field, index_event]
  by_cases hfits : GridFits gfld
  · rw [geometry_of_fits hfits, Outcome.returned_bind, if_pos hfits, add_record, OrdMap.collect]
    dsimp only
    rw [GribRecord.name, GribRecord.identity]
    cases index.lookup (field_identity_name (record_identity discipline gfld.ipdtnum gfld.ipdtmpl)) with
    | none => rfl
    | some entry => rfl
  · rw [geometry_undefined hfits, if_neg hfits]
    rfl

theorem index_message_eq (input_path : String) (index : Index) (msg : GribMessage) :
    index_message input_path index msg = (msg.events input_path).foldlM index_event index := by
  unfold index_message GribMessage.events
  split
  · rfl
  · split
    · rfl
    · split
      · rfl
      · next discipline _ =>
        rw [List.foldlM_map]
        apply congrArg (fun f => List.foldlM f index (msg.fields.zipIdx 1))
        funext records field
        obtain ⟨result, n⟩ := field
        cases result with
        | error code => rfl
        | ok gfld => exact index_field_eq input_path discipline msg records gfld n

theorem build_record_index_eq (input_path : String) (file : GribFile) :
    build_record_index input_path file =
      (GribFile.events input_path file).foldlM index_event OrdMap.empty := by
  cases file with
  | none => rfl
  | some messages =>
    show messages.foldlM (index_message input_path) OrdMap.empty =
      (messages.flatMap (GribMessage.events input_path)).foldlM index_event OrdMap.empty
    generalize (OrdMap.empty : Index) = index
    induction messages generalizing index with
    | nil => rfl
    | cons msg messages ih =>
      rw [List.foldlM_cons, List.flatMap_cons, List.foldlM_append, index_message_eq]
      apply congrArg
      funext index'
      exact ih index'

theorem foldlM_index_event (events : List (Except String GribRecord)) (index : Index) :
    ((∀ r ∈ scanned events, GridFits r.header) ∧ Complete events ∧
      events.foldlM index_event index = .returned ((scanned events).foldl add_record index)) ∨
    ((∀ r ∈ scanned events, GridFits r.header) ∧ ¬ Complete events ∧
      ∃ e, events.foldlM index_event index = .thrown e) ∨
    ((∃ r ∈ scanned events, ¬ GridFits r.header) ∧
      events.foldlM index_event index = .undefined) := by
  induction events generalizing index with
  | nil =>
    left
    exact ⟨by simp [scanned], by simp [Complete], rfl⟩
  | cons event events ih =>
    rw [List.foldlM_cons]
    cases event with
    | error e =>
      right; left
      refine ⟨by simp [scanned], ?_, e, rfl⟩
      intro hcomplete
      obtain ⟨r, hr⟩ := hcomplete _ List.mem_cons_self
      cases hr
    | ok r =>
      by_cases hfits : GridFits r.header
      · have hcons : Complete (.ok r :: events) ↔ Complete events := by simp [Complete]
        rw [index_event, if_pos hfits, Outcome.returned_bind]
        simp only [scanned, List.mem_cons, forall_eq_or_imp, exists_eq_or_imp, hcons, hfits, true_and,
          not_true_eq_false, false_or, List.foldl_cons]
        exact ih (add_record index r)
      · right; right
        refine ⟨⟨r, List.mem_cons_self, hfits⟩, ?_⟩
        rw [index_event, if_neg hfits]
        rfl

/-! ## Section 4: The entries -/

theorem records_foldl_push (l : List GribRecord) (entry : GribFieldIndex) :
    (l.foldl GribFieldIndex.push entry).records = entry.records ++ l.map (·.location) := by
  induction l generalizing entry with
  | nil => simp
  | cons r l ih =>
    rw [List.foldl_cons, ih, List.map_cons, GribFieldIndex.push]
    dsimp only
    split <;> simp

theorem lookup_index (records : List GribRecord) (name : String) :
    (records.foldl add_record OrdMap.empty).lookup name =
      match records.filter (·.name = name) with
      | [] => none
      | r :: l => some (l.foldl GribFieldIndex.push (GribFieldIndex.push {} r)) := by
  show (records.foldl (OrdMap.collect GribRecord.name (GribFieldIndex.push {})
    GribFieldIndex.push) OrdMap.empty).lookup name = _
  rw [OrdMap.lookup_foldl_collect, OrdMap.lookup_empty]
  cases records.filter (·.name = name) with
  | nil => rfl
  | cons r l => rfl

theorem entries_index (records : List GribRecord) (name : String) :
    (((records.foldl add_record OrdMap.empty).lookup name).map (·.records)).getD [] =
      (records.filter (·.name = name)).map (·.location) := by
  rw [lookup_index]
  cases records.filter (·.name = name) with
  | nil => rfl
  | cons r l =>
    show (l.foldl GribFieldIndex.push (GribFieldIndex.push {} r)).records = _
    rw [records_foldl_push]
    rfl

theorem filled_index {records : List GribRecord} {name : String} {entry : GribFieldIndex}
    (h : (records.foldl add_record OrdMap.empty).lookup name = some entry) :
    entry.records ≠ [] := by
  intro hnil
  have hentries := entries_index records name
  rw [h, Option.map_some, Option.getD_some, hnil, eq_comm, List.map_eq_nil_iff] at hentries
  rw [lookup_index, hentries] at h
  cases h

theorem grid_foldl_push (l : List GribRecord) (entry : GribFieldIndex) (h : entry.records ≠ []) :
    (l.foldl GribFieldIndex.push entry).ni = entry.ni ∧
      (l.foldl GribFieldIndex.push entry).nj = entry.nj := by
  induction l generalizing entry with
  | nil => exact ⟨rfl, rfl⟩
  | cons r l ih =>
    have hpush : entry.push r = { entry with records := entry.records ++ [r.location] } := by
      rw [GribFieldIndex.push, if_neg h]
    rw [List.foldl_cons, hpush]
    exact ih { entry with records := entry.records ++ [r.location] } (by simp)

theorem grid_index {records : List GribRecord} {name : String} {entry : GribFieldIndex}
    (h : (records.foldl add_record OrdMap.empty).lookup name = some entry) :
    ∃ r ∈ records, entry.ni = (grid_of r.header).1 ∧ entry.nj = (grid_of r.header).2 := by
  rw [lookup_index] at h
  cases hfilter : records.filter (·.name = name) with
  | nil =>
    rw [hfilter] at h
    cases h
  | cons r l =>
    rw [hfilter] at h
    cases h
    have hr : r ∈ records.filter (·.name = name) := hfilter ▸ List.mem_cons_self
    have hne : (GribFieldIndex.push {} r).records ≠ [] := by simp [GribFieldIndex.push]
    obtain ⟨hni, hnj⟩ := grid_foldl_push l _ hne
    exact ⟨r, List.mem_of_mem_filter hr, hni, hnj⟩

/-! ## Section 5: What the name leaves out -/

/-- What a template says about its field and the name does not. -/
def left_out (wmo : Int → List Int → List Int) (pdt_number : Int) (t : List Int) : List Int :=
  match pdt_number with
  | 0 => [safe_get t 10]
  | 8 => [safe_get t 10]
  | 40 => [safe_get t 11]
  | 44 => safe_get t 16 :: between t 3 7
  | 45 => safe_get t 19 :: between t 3 7
  | 46 => safe_get t 16 :: between t 3 7
  | 48 => safe_get t 21 :: safe_get t 9 :: safe_get t 11 :: between t 3 7
  | 49 => safe_get t 24 :: safe_get t 9 :: safe_get t 11 :: between t 3 7
  | _ => wmo pdt_number t

/-- Two records put the same numbers under the same labels into their names. -/
def SameNumbers (a b : GribRecord) : Prop :=
  base_fields a.identity = base_fields b.identity ∧
    composition_fields a.identity.composition = composition_fields b.identity.composition

theorem name_eq_iff (a b : GribRecord) : a.name = b.name ↔ SameNumbers a b := by
  constructor
  · intro h
    rw [GribRecord.name, GribRecord.name, field_identity_name_eq, field_identity_name_eq] at h
    have hfields := joined_injective (by simp [base_fields]) (by simp [base_fields])
      (isLabel_fields a.identity) (isLabel_fields b.identity) h
    exact List.append_inj hfields rfl
  · rintro ⟨hbase, hcomposition⟩
    rw [GribRecord.name, GribRecord.name, field_identity_name_eq, field_identity_name_eq, hbase,
      hcomposition]

theorem described_iff {wmo : Int → List Int → List Int} {pdt_number : Int} {t u : List Int}
    (hsurface : safe_get t (pdt_surface_type_index pdt_number) =
      safe_get u (pdt_surface_type_index pdt_number) ∧
      safe_get t (pdt_surface_value_index pdt_number) =
        safe_get u (pdt_surface_value_index pdt_number))
    (hfields : composition_fields (extract_composition_metadata pdt_number t) =
      composition_fields (extract_composition_metadata pdt_number u)) :
    described wmo pdt_number t = described wmo pdt_number u ↔
      left_out wmo pdt_number t = left_out wmo pdt_number u := by
  unfold described left_out
  split <;>
    simp [pdt_surface_value_index, pdt_surface_type_index, extract_composition_metadata,
      composition_fields, between, List.range'] at hsurface hfields ⊢ <;> tauto

/-- Two records agree also on what their names leave out. -/
def SameRest (wmo : Int → List Int → List Int) (a b : GribRecord) : Prop :=
  a.header.ipdtnum = b.header.ipdtnum ∧
    left_out wmo a.header.ipdtnum a.header.ipdtmpl = left_out wmo b.header.ipdtnum b.header.ipdtmpl

theorem same_field_iff {wmo : Int → List Int → List Int} {a b : GribRecord}
    (h : SameNumbers a b) : SameField wmo a b ↔ SameRest wmo a b := by
  obtain ⟨hbase, hcomposition⟩ := h
  simp only [base_fields, GribRecord.identity, record_identity, List.cons.injEq, Prod.mk.injEq,
    true_and, and_true] at hbase
  obtain ⟨hdiscipline, hcategory, hnumber, htype, hvalue⟩ := hbase
  have hparameter : between a.header.ipdtmpl 0 1 = between b.header.ipdtmpl 0 1 := by
    show [safe_get a.header.ipdtmpl 0, safe_get a.header.ipdtmpl 1] =
      [safe_get b.header.ipdtmpl 0, safe_get b.header.ipdtmpl 1]
    exact congrArg₂ (fun x y => [x, y]) hcategory hnumber
  have hrest : a.header.ipdtnum = b.header.ipdtnum →
      (described wmo a.header.ipdtnum a.header.ipdtmpl =
        described wmo b.header.ipdtnum b.header.ipdtmpl ↔
      left_out wmo a.header.ipdtnum a.header.ipdtmpl =
        left_out wmo b.header.ipdtnum b.header.ipdtmpl) := by
    intro htemplate
    rw [GribRecord.identity, GribRecord.identity, record_identity, record_identity,
      ← htemplate] at hcomposition
    rw [← htemplate] at htype hvalue ⊢
    exact described_iff ⟨htype, hvalue⟩ hcomposition
  constructor
  · intro hsame
    exact ⟨hsame.template, (hrest hsame.template).mp hsame.rest⟩
  · rintro ⟨htemplate, hleft⟩
    exact ⟨hdiscipline, htemplate, hparameter, (hrest htemplate).mpr hleft⟩

/-! ## Section 6: The index -/

/-- The claim for one file: unless the file is rejected, there is an index and
    its groups are sound. -/
def IndexSound (wmo : Int → List Int → List Int) (input_path : String) (file : GribFile) : Prop :=
  match build_record_index input_path file with
  | .returned index => GroupsSoundly wmo (scanned (GribFile.events input_path file)) index
  | .thrown _ => True
  | .undefined => False

theorem groups_soundly_iff (wmo : Int → List Int → List Int) (records : List GribRecord) :
    GroupsSoundly wmo records (records.foldl add_record OrdMap.empty) ↔
      ∀ a ∈ records, ∀ b ∈ records, SameNumbers a b → SameRest wmo a b := by
  constructor
  · intro hsound a ha b hb hsame
    exact (same_field_iff hsame).mp (hsound.one_field a ha b hb ((name_eq_iff a b).mpr hsame))
  · intro hall
    exact {
      entries := entries_index records
      filled := fun _ _ h => filled_index h
      one_field := by
        intro a ha b hb hname
        have hsame := (name_eq_iff a b).mp hname
        exact (same_field_iff hsame).mpr (hall a ha b hb hsame) }

/-- **The record index.** It groups the records of a file soundly just when no
    grid size overflows and any two records that have the same numbers in their
    names also agree on what the names leave out (or the file is rejected). -/
theorem index_sound_iff (wmo : Int → List Int → List Int) (input_path : String) (file : GribFile) :
    IndexSound wmo input_path file ↔
      (∀ r ∈ scanned (GribFile.events input_path file), GridFits r.header) ∧
        (¬ Complete (GribFile.events input_path file) ∨
          ∀ a ∈ scanned (GribFile.events input_path file),
          ∀ b ∈ scanned (GribFile.events input_path file), SameNumbers a b → SameRest wmo a b) := by
  rw [IndexSound, build_record_index_eq]
  generalize GribFile.events input_path file = events
  rcases foldlM_index_event events OrdMap.empty with
    ⟨hfits, hcomplete, heq⟩ | ⟨hfits, hcomplete, e, heq⟩ | ⟨⟨r, hr, hnot⟩, heq⟩
  · rw [heq]
    dsimp only
    rw [groups_soundly_iff]
    constructor
    · intro hall
      exact ⟨hfits, .inr hall⟩
    · intro ⟨_, hor⟩
      exact hor.resolve_left (not_not_intro hcomplete)
  · rw [heq]
    exact iff_of_true trivial ⟨hfits, .inl hcomplete⟩
  · rw [heq]
    apply iff_of_false id
    intro ⟨hfits, _⟩
    exact hnot (hfits r hr)

/-- Dust of some size range, in template 4.44. -/
def dust_bin (first second : Int) : GribField where
  ipdtnum := 44
  ipdtmpl := [20, 0, 62001, 0, 0, first, 0, second, 2, 0, 0, 0, 0, 1, 6, 1, 0, 0, 255, 0, 0]
  igdtmpl := []
  ngrdpts := 4

/-- Two size ranges at one time, one message each. -/
def bins_file : GribFile :=
  some [⟨0, 200, true, true, .ok 0, [.ok (dust_bin 1 10)]⟩,
    ⟨200, 200, true, true, .ok 0, [.ok (dust_bin 10 20)]⟩]

theorem size_bins_merged : ¬ IndexSound (fun _ _ => []) "dust.grib2" bins_file := by
  have hevents : GribFile.events "dust.grib2" bins_file =
      [.ok ⟨0, dust_bin 1 10, ⟨0, 200, 1⟩⟩, .ok ⟨0, dust_bin 10 20, ⟨200, 200, 1⟩⟩] := rfl
  have hbuild : build_record_index "dust.grib2" bins_file =
      .returned ([⟨0, dust_bin 1 10, ⟨0, 200, 1⟩⟩, ⟨0, dust_bin 10 20, ⟨200, 200, 1⟩⟩].foldl
        add_record OrdMap.empty) := by
    rw [build_record_index_eq, hevents]
    rfl
  intro hsound
  rw [IndexSound, hbuild, hevents] at hsound
  -- both records have the name of the aerosol
  have hsame := hsound.one_field _ List.mem_cons_self _ (List.mem_cons_of_mem _ List.mem_cons_self)
    rfl
  have hrest := hsame.rest
  exact absurd hrest (by decide)

end Amio.Grib2
