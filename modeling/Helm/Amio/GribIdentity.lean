import Helm.Framework.Labels

/-! # Names of GRIB2 fields

  GRIB2 records carry no variable names. The driver
  (`drivers/grib2/grib2_driver.cpp`) makes a name from the numbers of the
  product definition template: the same for the settings that the encoder
  turns into a template and for the template that the decoder finds.

  The eight builders put the same settings at different places, and a table
  of places reads them back. `record_name_build` is the round trip;
  `field_identity_name_injective` says what a name tells.

  Main result: `identity_round_trip`.
-/

namespace Amio.Grib2

open Labels

/-! ## Section 1: The functions -/

/-- The settings that the product templates are built from. -/
structure Grib2Settings where
  discipline : Int
  pdt_number : Int
  parameter_category : Int
  parameter_number : Int
  type_of_first_fixed_surface : Int
  scale_factor_first_surface : Int
  scaled_value_first_surface : Int
  forecast_time : Int
  indicator_of_unit_of_time : Int
  chemical_constituent_type : Int
  aerosol_type : Int
  size_dist_param_first : Int
  size_dist_param_second : Int
  optical_property_type : Int
  wavelength_first_nm : Int
  wavelength_last_nm : Int
  ensemble_perturbation_number : Int
  statistical_process : Int
  time_range_unit : Int
  time_range_length : Int
  number_of_time_range_specs : Int
  total_missing_from_statistical_process : Int

structure CompositionMetadata where
  pdt_number : Int := 0
  chemical_constituent_type : Int := 0
  aerosol_type : Int := 0
  optical_property_type : Int := 0
  wavelength_first_nm : Int := 0
  wavelength_last_nm : Int := 0
  ensemble_perturbation_number : Int := 0
  statistical_process : Int := 0
  deriving DecidableEq

/-- `field_identity_name` of five arguments -/
def base_identity_name (discipline parameter_category parameter_number surface_type
    surface_value : Int) : String :=
  "d" ++ toString discipline ++ "_c" ++ toString parameter_category ++ "_n" ++
    toString parameter_number ++ "_s" ++ toString surface_type ++ "_l" ++ toString surface_value

/-- What `field_identity_name` appends. -/
def composition_suffix (m : CompositionMetadata) : String :=
  match m.pdt_number with
  | 40 => "_ct" ++ toString m.chemical_constituent_type
  | 44 => "_at" ++ toString m.aerosol_type
  | 45 => "_at" ++ toString m.aerosol_type ++ "_ep" ++ toString m.ensemble_perturbation_number
  | 46 => "_at" ++ toString m.aerosol_type ++ "_sp" ++ toString m.statistical_process
  | 48 =>
    "_at" ++ toString m.aerosol_type ++ "_op" ++ toString m.optical_property_type ++
      "_wl" ++ toString m.wavelength_first_nm ++ "_" ++ toString m.wavelength_last_nm
  | 49 =>
    "_at" ++ toString m.aerosol_type ++ "_op" ++ toString m.optical_property_type ++
      "_wl" ++ toString m.wavelength_first_nm ++ "_" ++ toString m.wavelength_last_nm ++
      "_ep" ++ toString m.ensemble_perturbation_number
  | 8 => "_sp" ++ toString m.statistical_process
  -- 4.0, and templates it does not know
  | _ => ""

/-- What a name is made from. -/
structure Identity where
  discipline : Int
  parameter_category : Int
  parameter_number : Int
  surface_type : Int
  surface_value : Int
  composition : CompositionMetadata
  deriving DecidableEq

/-- `field_identity_name` with the composition fields -/
def field_identity_name (id : Identity) : String :=
  base_identity_name id.discipline id.parameter_category id.parameter_number id.surface_type
    id.surface_value ++ composition_suffix id.composition

/-- `safe_get`, `pdt_value`: zero out of range -/
def safe_get (ipdtmpl : List Int) (idx : Nat) : Int := ipdtmpl.getD idx 0

def extract_composition_metadata (pdt_number : Int) (ipdtmpl : List Int) : CompositionMetadata :=
  match pdt_number with
  | 40 => { pdt_number, chemical_constituent_type := safe_get ipdtmpl 2 }
  | 44 => { pdt_number, aerosol_type := safe_get ipdtmpl 2 }
  | 45 =>
    { pdt_number, aerosol_type := safe_get ipdtmpl 2,
      ensemble_perturbation_number := safe_get ipdtmpl 16 }
  | 46 =>
    { pdt_number, aerosol_type := safe_get ipdtmpl 2,
      statistical_process := safe_get ipdtmpl 29 }
  | 48 =>
    { pdt_number, aerosol_type := safe_get ipdtmpl 2,
      optical_property_type := safe_get ipdtmpl 8,
      wavelength_first_nm := safe_get ipdtmpl 10,
      wavelength_last_nm := safe_get ipdtmpl 12 }
  | 49 =>
    { pdt_number, aerosol_type := safe_get ipdtmpl 2,
      optical_property_type := safe_get ipdtmpl 8,
      wavelength_first_nm := safe_get ipdtmpl 10,
      wavelength_last_nm := safe_get ipdtmpl 12,
      ensemble_perturbation_number := safe_get ipdtmpl 21 }
  | 8 => { pdt_number, statistical_process := safe_get ipdtmpl 23 }
  | _ => { pdt_number }

def kPdtCategoryIdx : Nat := 0

def kPdtNumberIdx : Nat := 1

def pdt_surface_type_index (pdt_number : Int) : Nat :=
  match pdt_number with
  | 0 => 9
  | 8 => 9
  | 40 => 10
  | 44 => 15
  | 45 => 18
  | 46 => 15
  | 48 => 20
  | 49 => 23
  | _ => 9

def pdt_surface_value_index (pdt_number : Int) : Nat := pdt_surface_type_index pdt_number + 2

/-- What `build_record_index` makes a record's key from. -/
def record_identity (discipline pdt_number : Int) (ipdtmpl : List Int) : Identity where
  discipline := discipline
  parameter_category := safe_get ipdtmpl kPdtCategoryIdx
  parameter_number := safe_get ipdtmpl kPdtNumberIdx
  surface_type := safe_get ipdtmpl (pdt_surface_type_index pdt_number)
  surface_value := safe_get ipdtmpl (pdt_surface_value_index pdt_number)
  composition := extract_composition_metadata pdt_number ipdtmpl

/-! ### The builders -/

section Builders
variable (s : Grib2Settings)

/-- Generating process and data cutoff: 2 = forecast. -/
def forecast_header : List Int := [2, 0, 0, 0, 0]

/-- The first fixed surface; there is no second one (255 = missing). -/
def fixed_surfaces : List Int :=
  [s.type_of_first_fixed_surface, s.scale_factor_first_surface, s.scaled_value_first_surface,
    255, 0, 0]

/-- Aerosol and size distribution. -/
def aerosol_sizes : List Int :=
  [s.aerosol_type, 0, 0, s.size_dist_param_first, 0, s.size_dist_param_second]

/-- Aerosol without sizes, optical property and wavelengths. -/
def aerosol_optics : List Int :=
  [s.aerosol_type, 0, 0, 0, 0, 0, s.optical_property_type, 0, s.wavelength_first_nm, 0,
    s.wavelength_last_nm]

def build_pdt_4_0 : List Int :=
  [s.parameter_category, s.parameter_number] ++ forecast_header ++
    [s.indicator_of_unit_of_time, s.forecast_time] ++ fixed_surfaces s

def build_pdt_4_8 : List Int :=
  [s.parameter_category, s.parameter_number] ++ forecast_header ++
    [s.indicator_of_unit_of_time, s.forecast_time] ++ fixed_surfaces s ++
    -- end of the overall time interval
    [0, 0, 0, 0, 0, 0] ++
    [s.number_of_time_range_specs, s.total_missing_from_statistical_process,
      s.statistical_process, 2, s.time_range_unit, s.time_range_length,
      s.indicator_of_unit_of_time, 0]

def build_pdt_4_40 : List Int :=
  [s.parameter_category, s.parameter_number, s.chemical_constituent_type] ++ forecast_header ++
    [s.indicator_of_unit_of_time, s.forecast_time] ++ fixed_surfaces s

def build_pdt_4_44 : List Int :=
  [s.parameter_category, s.parameter_number] ++ aerosol_sizes s ++ forecast_header ++
    [s.indicator_of_unit_of_time, s.forecast_time] ++ fixed_surfaces s

def build_pdt_4_45 : List Int :=
  [s.parameter_category, s.parameter_number] ++ aerosol_sizes s ++ forecast_header ++
    [s.indicator_of_unit_of_time, s.forecast_time] ++
    [0, s.ensemble_perturbation_number, 0] ++ fixed_surfaces s

def build_pdt_4_46 : List Int :=
  [s.parameter_category, s.parameter_number] ++ aerosol_sizes s ++ forecast_header ++
    [s.indicator_of_unit_of_time, s.forecast_time] ++ fixed_surfaces s ++
    [0, 0, 0, 0, 0, 0] ++
    [s.number_of_time_range_specs, s.total_missing_from_statistical_process,
      s.statistical_process, 0, s.time_range_unit, s.time_range_length, 0, 0]

def build_pdt_4_48 : List Int :=
  [s.parameter_category, s.parameter_number] ++ aerosol_optics s ++ forecast_header ++
    [s.indicator_of_unit_of_time, s.forecast_time] ++ fixed_surfaces s

def build_pdt_4_49 : List Int :=
  [s.parameter_category, s.parameter_number] ++ aerosol_optics s ++ forecast_header ++
    [s.indicator_of_unit_of_time, s.forecast_time] ++
    [0, s.ensemble_perturbation_number, 0] ++ fixed_surfaces s

/-- The template that `write` hands to g2c, if it supports the number. -/
def build_pdt : Option (List Int) :=
  match s.pdt_number with
  | 0 => some (build_pdt_4_0 s)
  | 8 => some (build_pdt_4_8 s)
  | 40 => some (build_pdt_4_40 s)
  | 44 => some (build_pdt_4_44 s)
  | 45 => some (build_pdt_4_45 s)
  | 46 => some (build_pdt_4_46 s)
  | 48 => some (build_pdt_4_48 s)
  | 49 => some (build_pdt_4_49 s)
  | _ => none

/-- The name directly from the settings. -/
def settings_identity : Identity where
  discipline := s.discipline
  parameter_category := s.parameter_category
  parameter_number := s.parameter_number
  surface_type := s.type_of_first_fixed_surface
  surface_value := s.scaled_value_first_surface
  composition := {
    pdt_number := s.pdt_number
    chemical_constituent_type := s.chemical_constituent_type
    aerosol_type := s.aerosol_type
    optical_property_type := s.optical_property_type
    wavelength_first_nm := s.wavelength_first_nm
    wavelength_last_nm := s.wavelength_last_nm
    ensemble_perturbation_number := s.ensemble_perturbation_number
    statistical_process := s.statistical_process }

end Builders

/-! ## Section 2: What a name is made of -/

def supported_templates : List Int := [0, 8, 40, 44, 45, 46, 48, 49]

/-- The fields that the template puts in the name, with their labels. -/
def composition_fields (m : CompositionMetadata) : List (String × Int) :=
  match m.pdt_number with
  | 40 => [("ct", m.chemical_constituent_type)]
  | 44 => [("at", m.aerosol_type)]
  | 45 => [("at", m.aerosol_type), ("ep", m.ensemble_perturbation_number)]
  | 46 => [("at", m.aerosol_type), ("sp", m.statistical_process)]
  | 48 =>
    [("at", m.aerosol_type), ("op", m.optical_property_type), ("wl", m.wavelength_first_nm),
      ("", m.wavelength_last_nm)]
  | 49 =>
    [("at", m.aerosol_type), ("op", m.optical_property_type), ("wl", m.wavelength_first_nm),
      ("", m.wavelength_last_nm), ("ep", m.ensemble_perturbation_number)]
  | 8 => [("sp", m.statistical_process)]
  | _ => []

def base_fields (id : Identity) : List (String × Int) :=
  [("d", id.discipline), ("c", id.parameter_category), ("n", id.parameter_number),
    ("s", id.surface_type), ("l", id.surface_value)]

/-- The labels of a template's fields. -/
def composition_labels (pdt_number : Int) : List String :=
  (composition_fields { pdt_number }).map (·.1)

theorem labels_composition_fields (m : CompositionMetadata) :
    (composition_fields m).map (·.1) = composition_labels m.pdt_number := by
  unfold composition_labels composition_fields
  dsimp only
  split <;> rfl

theorem isLabel_fields (id : Identity) :
    ∀ p ∈ base_fields id ++ composition_fields id.composition, IsLabel p.1 := by
  have hlabels : ∀ pdt_number, ∀ label ∈ composition_labels pdt_number, IsLabel label := by
    intro pdt_number
    unfold composition_labels composition_fields
    dsimp only
    split <;> simp [IsLabel]
  intro p hp
  rcases List.mem_append.mp hp with hp | hp
  · have hbase : p.1 ∈ ["d", "c", "n", "s", "l"] := List.mem_map_of_mem (f := Prod.fst) hp
    exact (by simp [IsLabel] : ∀ label ∈ ["d", "c", "n", "s", "l"], IsLabel label) _ hbase
  · apply hlabels id.composition.pdt_number
    rw [← labels_composition_fields]
    exact List.mem_map_of_mem hp

theorem field_identity_name_eq (id : Identity) :
    field_identity_name id = joined (base_fields id ++ composition_fields id.composition) := by
  apply String.toList_inj.mp
  unfold field_identity_name base_identity_name composition_suffix joined base_fields
    composition_fields
  split <;> simp [labelled]

theorem eq_of_composition_labels : ∀ a ∈ supported_templates, ∀ b ∈ supported_templates,
    composition_labels a = composition_labels b → a = b := by
  decide

theorem field_identity_name_injective {a b : Identity}
    (ha : a.composition.pdt_number ∈ supported_templates)
    (hb : b.composition.pdt_number ∈ supported_templates)
    (h : field_identity_name a = field_identity_name b) :
    a.composition.pdt_number = b.composition.pdt_number ∧ base_fields a = base_fields b ∧
      composition_fields a.composition = composition_fields b.composition := by
  rw [field_identity_name_eq, field_identity_name_eq] at h
  have hfields := joined_injective (by simp [base_fields]) (by simp [base_fields])
    (isLabel_fields a) (isLabel_fields b) h
  obtain ⟨hbase, hcomposition⟩ := List.append_inj hfields rfl
  have hlabels : composition_labels a.composition.pdt_number =
      composition_labels b.composition.pdt_number := by
    rw [← labels_composition_fields, hcomposition, labels_composition_fields]
  exact ⟨eq_of_composition_labels _ ha _ hb hlabels, hbase, hcomposition⟩

/-! ## Section 3: The round trip -/

theorem record_name_build {s : Grib2Settings} {ipdtmpl : List Int}
    (h : build_pdt s = some ipdtmpl) :
    field_identity_name (record_identity s.discipline s.pdt_number ipdtmpl) =
      field_identity_name (settings_identity s) := by
  have hfields : ∀ {pdt_number t}, s.pdt_number = pdt_number →
      base_fields (record_identity s.discipline pdt_number t) = base_fields (settings_identity s) →
      composition_fields (extract_composition_metadata pdt_number t) =
        composition_fields { (settings_identity s).composition with pdt_number } →
      field_identity_name (record_identity s.discipline pdt_number t) =
        field_identity_name (settings_identity s) := by
    intro pdt_number t hpdt hbase hcomposition
    subst hpdt
    rw [field_identity_name_eq, field_identity_name_eq, hbase]
    exact congrArg (fun fields => joined (base_fields (settings_identity s) ++ fields)) hcomposition
  unfold build_pdt at h
  split at h
  case h_9 => cases h
  all_goals
    next hpdt =>
      cases h
      rw [hpdt]
      exact hfields hpdt rfl rfl

theorem exists_build_pdt {s : Grib2Settings} (h : s.pdt_number ∈ supported_templates) :
    ∃ ipdtmpl, build_pdt s = some ipdtmpl := by
  unfold build_pdt
  simp only [supported_templates, List.mem_cons, List.not_mem_nil, or_false] at h
  rcases h with h | h | h | h | h | h | h | h <;> rw [h] <;> exact ⟨_, rfl⟩

/-- **Names of fields.** For every supported template the name read back from
    the template that the encoder builds is the name formed from the settings.
    And two names are equal only if the template numbers and all the numbers
    that the template puts in the name are. -/
theorem identity_round_trip :
    (∀ s : Grib2Settings, s.pdt_number ∈ supported_templates →
      ∃ ipdtmpl, build_pdt s = some ipdtmpl ∧
        field_identity_name (record_identity s.discipline s.pdt_number ipdtmpl) =
          field_identity_name (settings_identity s)) ∧
    (∀ a b : Identity, a.composition.pdt_number ∈ supported_templates →
      b.composition.pdt_number ∈ supported_templates →
      field_identity_name a = field_identity_name b →
      a.composition.pdt_number = b.composition.pdt_number ∧ base_fields a = base_fields b ∧
        composition_fields a.composition = composition_fields b.composition) := by
  constructor
  · intro s hs
    obtain ⟨ipdtmpl, hbuild⟩ := exists_build_pdt hs
    exact ⟨ipdtmpl, hbuild, record_name_build hbuild⟩
  · intro a b ha hb h
    exact field_identity_name_injective ha hb h

/-- Dust at 550 nm, member 3. -/
def dust_settings : Grib2Settings where
  discipline := 0
  pdt_number := 49
  parameter_category := 20
  parameter_number := 102
  type_of_first_fixed_surface := 1
  scale_factor_first_surface := 0
  scaled_value_first_surface := -7
  forecast_time := 6
  indicator_of_unit_of_time := 1
  chemical_constituent_type := 0
  aerosol_type := 62001
  size_dist_param_first := 0
  size_dist_param_second := 0
  optical_property_type := 4
  wavelength_first_nm := 545
  wavelength_last_nm := 565
  ensemble_perturbation_number := 3
  statistical_process := 0
  time_range_unit := 0
  time_range_length := 0
  number_of_time_range_specs := 0
  total_missing_from_statistical_process := 0

theorem dust_round_trip : ∃ ipdtmpl, build_pdt dust_settings = some ipdtmpl ∧
    field_identity_name (record_identity 0 49 ipdtmpl) =
      field_identity_name (settings_identity dust_settings) :=
  identity_round_trip.1 dust_settings (by decide)

end Amio.Grib2
