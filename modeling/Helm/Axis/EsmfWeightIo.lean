import Helm.Axis.Conservation

/-! # AXIS: ESMF weight files

  `EsmfWeightIO` writes an `InterpolationMatrix` to a NetCDF file with
  indices from one, and reads such a file into a matrix.

  * **Indices**: an index of the matrix has 64 bits and one of the file has
    32. `write_esmf` adds one and converts, `read_esmf` subtracts one and
    converts back.
  * **Cell counts**: `n_src` and `n_dst` go through an attribute of type
    `int`.
  * **Fractions and areas**: the file has none. `read_esmf` makes arrays of
    zeros.

  NetCDF stores the arrays and attributes that it is given; whether it refuses
  a call is a parameter, and so is what Kokkos can allocate.

  Main result: `write_read_iff`.
-/

namespace Axis.Esmf

open Signed Segments

/-! ## Section 1: Matrices and files -/

/-- `InterpolationMatrix` with all its arrays. An entry may lie outside of the
    matrix. -/
structure InterpolationMatrix (K : Type) where
  factor_list : List K
  factor_row : List Int
  factor_col : List Int
  frac_a : List K
  frac_b : List K
  area_a : List K
  area_b : List K
  n_src : Nat
  n_dst : Nat
  deriving DecidableEq

/-- What the arrays of a matrix are in C++: the two index arrays have an element
    of 64 bits for every entry, and there is a fraction and an area for every
    cell. -/
structure InterpolationMatrix.WellFormed {K : Type} (m : InterpolationMatrix K) : Prop where
  rows_length : m.factor_row.length = m.factor_list.length
  cols_length : m.factor_col.length = m.factor_list.length
  rows_fit : ∀ i ∈ m.factor_row, Fits 64 i
  cols_fit : ∀ i ∈ m.factor_col, Fits 64 i
  frac_a_length : m.frac_a.length = m.n_src
  frac_b_length : m.frac_b.length = m.n_dst
  area_a_length : m.area_a.length = m.n_src
  area_b_length : m.area_b.length = m.n_dst

/-- The file: a dimension, three variables along it and two attributes. -/
structure WeightFile (K : Type) where
  num_wgts : Nat
  S : List K
  col_idx : List Int
  row_idx : List Int
  n_a : Int
  n_b : Int
  deriving DecidableEq

/-- The calls of the library, by what they are about. -/
inductive NcCall
  | nc_create
  | nc_def_dim (name : String)
  | nc_def_var (name : String)
  | nc_put_att_int (name : String)
  | nc_enddef
  | nc_put_var (name : String)
  | nc_open
  | nc_get_att_int (name : String)
  | nc_inq_varid (name : String)
  | nc_inq_var (name : String)
  | nc_inq_dimlen (name : String)
  | nc_get_var (name : String)
  deriving DecidableEq

/-- What the code runs on. `refuses` gives the `nc_strerror` text of a call that
    fails, and `allocates n` says whether Kokkos can allocate a view of `n`
    elements of eight bytes. -/
structure Environment where
  refuses : NcCall → Option String
  allocates : Nat → Bool
  bounded : ∀ n, allocates n = true → 8 * n < 2 ^ 64

/-! ## Section 2: The functions -/

variable {K : Type} (env : Environment)

/-- `AXIS_NC_CHECK` -/
def nc_check (call : NcCall) : Outcome String Unit :=
  match env.refuses call with
  | none => .returned ()
  | some text => .thrown ("AXIS NetCDF Error: " ++ text)

def write_calls : List NcCall :=
  [.nc_create,
   .nc_def_dim "num_wgts",
   .nc_def_var "S", .nc_def_var "col_idx", .nc_def_var "row_idx",
   .nc_put_att_int "n_a", .nc_put_att_int "n_b",
   .nc_enddef,
   .nc_put_var "S", .nc_put_var "col_idx", .nc_put_var "row_idx"]

def read_calls : List NcCall :=
  [.nc_open,
   .nc_get_att_int "n_a", .nc_get_att_int "n_b",
   .nc_inq_varid "S", .nc_inq_varid "col_idx", .nc_inq_varid "row_idx",
   .nc_inq_var "S", .nc_inq_dimlen "num_wgts",
   .nc_get_var "S", .nc_get_var "col_idx", .nc_get_var "row_idx"]

/-- An index of the file. The addition is one of 64 bits. -/
def one_based (i : Int) : Outcome String Int := do
  let next ← signed 64 (i + 1)
  return to_int next

/-- An index of the matrix. The subtraction is one of 32 bits. -/
def zero_based (i : Int) : Outcome String Int := signed 32 (i - 1)

/-- `static_cast<std::size_t>` -/
def to_size (x : Int) : Nat := (x % 2 ^ 64).toNat

/-- The allocation of a view of `n` elements. -/
def allocate (n : Nat) : Outcome String Unit :=
  if env.allocates n then .returned () else .thrown "Kokkos failed to allocate memory"

/-- A new view, which Kokkos fills with zeros. -/
def new_view [Zero K] (n : Nat) : Outcome String (List K) := do
  allocate env n
  return List.replicate n 0

def write_esmf (matrix : InterpolationMatrix K) : Outcome String (WeightFile K) := do
  let col_idx ← matrix.factor_col.mapM one_based
  let row_idx ← matrix.factor_row.mapM one_based
  forM write_calls (nc_check env)
  return {
    num_wgts := matrix.factor_list.length
    S := matrix.factor_list
    col_idx
    row_idx
    n_a := to_int matrix.n_src
    n_b := to_int matrix.n_dst }

def read_esmf [Zero K] (file : WeightFile K) : Outcome String (InterpolationMatrix K) := do
  forM read_calls (nc_check env)
  let n_src := to_size file.n_a
  let n_dst := to_size file.n_b
  allocate env file.num_wgts
  let factor_row ← file.row_idx.mapM zero_based
  let factor_col ← file.col_idx.mapM zero_based
  let frac_a ← new_view env n_src
  let frac_b ← new_view env n_dst
  let area_a ← new_view env n_src
  let area_b ← new_view env n_dst
  return {
    factor_list := file.S
    factor_row
    factor_col
    frac_a
    frac_b
    area_a
    area_b
    n_src
    n_dst }

/-! ## Section 3: The promise -/

/-- The writer reports an error, or the file is read back into the same
    matrix. -/
def RoundTrips [Zero K] (m : InterpolationMatrix K) : Prop :=
  (∃ text, write_esmf env m = .thrown text) ∨
  ∃ file, write_esmf env m = .returned file ∧ read_esmf env file = .returned m

/-- The indices that survive the two conversions. -/
def IndexStorable (i : Int) : Prop := -2 ^ 31 ≤ i ∧ i < 2 ^ 31 - 1

instance (i : Int) : Decidable (IndexStorable i) := inferInstanceAs (Decidable (_ ∧ _))

/-- A matrix that loses nothing in the file. -/
structure Storable [Zero K] (m : InterpolationMatrix K) : Prop where
  rows : ∀ i ∈ m.factor_row, IndexStorable i
  cols : ∀ i ∈ m.factor_col, IndexStorable i
  n_src : m.n_src < 2 ^ 31
  n_dst : m.n_dst < 2 ^ 31
  frac_a : ∀ x ∈ m.frac_a, x = 0
  frac_b : ∀ x ∈ m.frac_b, x = 0
  area_a : ∀ x ∈ m.area_a, x = 0
  area_b : ∀ x ∈ m.area_b, x = 0

/-- There is memory for a second matrix of this size. -/
structure HasMemory (m : InterpolationMatrix K) : Prop where
  entries : env.allocates m.factor_list.length = true
  src : env.allocates m.n_src = true
  dst : env.allocates m.n_dst = true

/-- The library refuses a call of the writer, and the indices can be
    incremented. -/
def Refused (m : InterpolationMatrix K) : Prop :=
  (∃ call ∈ write_calls, env.refuses call ≠ none) ∧
  ∀ i ∈ m.factor_row ++ m.factor_col, Fits 64 (i + 1)

/-! ## Section 4: Calls of the library -/

section
variable {env}

theorem nc_checks_of_accepted {calls : List NcCall} (h : ∀ c ∈ calls, env.refuses c = none) :
    forM calls (nc_check env) = .returned () := by
  induction calls with
  | nil => rfl
  | cons c calls ih =>
    have hfirst : nc_check env c = .returned () := by
      rw [nc_check, h c List.mem_cons_self]
    rw [List.forM_cons, hfirst, Outcome.returned_bind]
    exact ih fun d hd => h d (List.mem_cons_of_mem c hd)

theorem nc_checks_of_refused {calls : List NcCall} (h : ∃ c ∈ calls, env.refuses c ≠ none) :
    ∃ text, forM calls (nc_check env) = .thrown text := by
  induction calls with
  | nil =>
    obtain ⟨c, hc, _⟩ := h
    exact absurd hc List.not_mem_nil
  | cons c calls ih =>
    rw [List.forM_cons, nc_check]
    cases hc : env.refuses c with
    | some text => exact ⟨_, rfl⟩
    | none =>
      apply ih
      obtain ⟨d, hd, hrefused⟩ := h
      -- the refused call is not this one
      obtain rfl | hrest := List.mem_cons.mp hd
      · exact absurd hc hrefused
      · exact ⟨d, hrest, hrefused⟩

theorem allocate_eq_returned {n : Nat} : allocate env n = .returned () ↔ env.allocates n = true := by
  unfold allocate
  split
  · next h => exact iff_of_true rfl h
  · next h =>
    apply iff_of_false
    · intro heq
      cases heq
    · exact h

theorem new_view_eq_returned [Zero K] {n : Nat} {view : List K} :
    new_view env n = .returned view ↔ env.allocates n = true ∧ view = List.replicate n 0 := by
  unfold new_view
  rw [Outcome.bind_eq_returned]
  constructor
  · intro ⟨_, halloc, hview⟩
    cases hview
    exact ⟨allocate_eq_returned.mp halloc, rfl⟩
  · intro ⟨halloc, hview⟩
    rw [hview]
    exact ⟨(), allocate_eq_returned.mpr halloc, rfl⟩

end

/-! ## Section 5: Indices and cell counts -/

/-- The file of a matrix. -/
def file_of (m : InterpolationMatrix K) : WeightFile K where
  num_wgts := m.factor_list.length
  S := m.factor_list
  col_idx := m.factor_col.map fun i => to_int (i + 1)
  row_idx := m.factor_row.map fun i => to_int (i + 1)
  n_a := to_int m.n_src
  n_b := to_int m.n_dst

theorem one_based_of_fits {i : Int} (h : Fits 64 (i + 1)) :
    one_based i = .returned (to_int (i + 1)) := by
  rw [one_based, signed_of_fits h]
  rfl

theorem one_based_eq_returned {i j : Int} (h : one_based i = .returned j) : Fits 64 (i + 1) := by
  by_contra hfits
  rw [one_based, signed_of_not_fits hfits] at h
  cases h

theorem one_based_ne_thrown (i : Int) (text : String) : one_based i ≠ .thrown text := by
  intro h
  by_cases hfits : Fits 64 (i + 1)
  · rw [one_based_of_fits hfits] at h
    cases h
  · rw [one_based, signed_of_not_fits hfits] at h
    cases h

theorem zero_based_one_based {i : Int} (h : Fits 64 i) :
    zero_based (to_int (i + 1)) = .returned i ↔ IndexStorable i := by
  have ⟨hlo, hhi⟩ := fits_64.mp h
  constructor
  · intro hback
    have heq := signed_eq_returned hback
    have hfits : Fits 32 i := by
      by_contra hfits
      rw [zero_based, ← heq, signed_of_not_fits hfits] at hback
      cases hback
    have ⟨hlo32, hhi32⟩ := fits_32.mp hfits
    -- `2 ^ 31 - 1` is stored as `-2 ^ 31`
    refine ⟨by omega, ?_⟩
    by_contra hlast
    have hi : i = 2147483647 := by omega
    rw [hi] at heq
    exact absurd heq (by decide)
  · intro ⟨hlo32, hhi32⟩
    have hnext : to_int (i + 1) = i + 1 := to_int_of_fits (fits_32.mpr ⟨by omega, by omega⟩)
    rw [zero_based, hnext, Int.add_sub_cancel]
    exact signed_of_fits (fits_32.mpr ⟨by omega, by omega⟩)

theorem to_size_to_int {n : Nat} (h : n < 2 ^ 31) : to_size (to_int n) = n := by
  rw [to_int_of_fits (fits_32.mpr ⟨by omega, by omega⟩), to_size]
  omega

theorem lt_of_to_size_eq {n : Nat} (hsize : to_size (to_int n) = n) (hbound : 8 * n < 2 ^ 64) :
    n < 2 ^ 31 := by
  unfold to_size to_int at hsize
  dsimp only at hsize
  split at hsize
  · omega
  · omega

/-! ## Section 6: What the two functions do -/

section
variable {env}

theorem mapM_one_based {is : List Int} (h : ∀ i ∈ is, Fits 64 (i + 1)) :
    is.mapM one_based = .returned (is.map fun i => to_int (i + 1)) := by
  rw [Outcome.mapM_eq_returned, List.forall₂_map_right_iff, List.forall₂_same]
  exact fun i hi => one_based_of_fits (h i hi)

theorem fits_of_mapM_one_based {is js : List Int} (h : is.mapM one_based = .returned js) :
    ∀ i ∈ is, Fits 64 (i + 1) := by
  intro i hi
  obtain ⟨_, _, heq⟩ := Outcome.exists_of_mapM h hi
  exact one_based_eq_returned heq

theorem write_esmf_eq {m : InterpolationMatrix K}
    (h : ∀ i ∈ m.factor_row ++ m.factor_col, Fits 64 (i + 1)) :
    write_esmf env m = (do forM write_calls (nc_check env); return file_of m) := by
  have hcol := mapM_one_based fun i hi => h i (List.mem_append_right _ hi)
  have hrow := mapM_one_based fun i hi => h i (List.mem_append_left _ hi)
  rw [write_esmf, hcol, Outcome.returned_bind, hrow, Outcome.returned_bind]
  rfl

theorem write_esmf_of_overflow {m : InterpolationMatrix K}
    (h : ¬ ∀ i ∈ m.factor_row ++ m.factor_col, Fits 64 (i + 1)) :
    write_esmf env m = .undefined := by
  unfold write_esmf
  cases hcol : m.factor_col.mapM one_based with
  | thrown text => exact absurd hcol (Outcome.mapM_ne_thrown one_based_ne_thrown text)
  | undefined => rfl
  | returned col_idx =>
    rw [Outcome.returned_bind]
    cases hrow : m.factor_row.mapM one_based with
    | thrown text => exact absurd hrow (Outcome.mapM_ne_thrown one_based_ne_thrown text)
    | undefined => rfl
    | returned row_idx =>
      -- both loops ended, so every index was incremented
      apply absurd _ h
      intro i hi
      obtain hi | hi := List.mem_append.mp hi
      · exact fits_of_mapM_one_based hrow i hi
      · exact fits_of_mapM_one_based hcol i hi

theorem write_esmf_thrown {m : InterpolationMatrix K} :
    (∃ text, write_esmf env m = .thrown text) ↔ Refused env m := by
  by_cases hfits : ∀ i ∈ m.factor_row ++ m.factor_col, Fits 64 (i + 1)
  · rw [write_esmf_eq hfits]
    constructor
    · intro ⟨text, htext⟩
      refine ⟨?_, hfits⟩
      by_contra hnone
      rw [nc_checks_of_accepted fun c hc => not_not.mp fun hne => hnone ⟨c, hc, hne⟩] at htext
      cases htext
    · intro ⟨hrefused, _⟩
      obtain ⟨text, htext⟩ := nc_checks_of_refused hrefused
      rw [htext]
      exact ⟨text, rfl⟩
  · rw [write_esmf_of_overflow hfits]
    constructor
    · intro ⟨text, htext⟩
      cases htext
    · exact fun hrefused => absurd hrefused.2 hfits

theorem write_esmf_returned {m : InterpolationMatrix K} {file : WeightFile K}
    (h : write_esmf env m = .returned file) : file = file_of m := by
  by_cases hfits : ∀ i ∈ m.factor_row ++ m.factor_col, Fits 64 (i + 1)
  · rw [write_esmf_eq hfits] at h
    obtain ⟨_, _, hfile⟩ := Outcome.bind_eq_returned.mp h
    cases hfile
    rfl
  · rw [write_esmf_of_overflow hfits] at h
    cases h

theorem mapM_zero_based {is : List Int} (h : ∀ i ∈ is, Fits 64 i) :
    (is.map fun i => to_int (i + 1)).mapM zero_based = .returned is ↔
      ∀ i ∈ is, IndexStorable i := by
  rw [Outcome.mapM_eq_returned, List.forall₂_map_left_iff, List.forall₂_same]
  exact forall₂_congr fun i hi => zero_based_one_based (h i hi)

/-- What the reader makes of the file of a matrix. -/
theorem read_esmf_file_of [Zero K] (hread : ∀ c ∈ read_calls, env.refuses c = none)
    {m : InterpolationMatrix K} (hm : m.WellFormed) :
    read_esmf env (file_of m) = .returned m ↔ Storable m ∧ HasMemory env m := by
  have hrows := mapM_zero_based hm.rows_fit
  have hcols := mapM_zero_based hm.cols_fit
  rw [read_esmf, nc_checks_of_accepted hread, Outcome.returned_bind]
  dsimp only [file_of]
  constructor
  · intro h
    obtain ⟨_, hentries, h⟩ := Outcome.bind_eq_returned.mp h
    obtain ⟨rows, hrow, h⟩ := Outcome.bind_eq_returned.mp h
    obtain ⟨cols, hcol, h⟩ := Outcome.bind_eq_returned.mp h
    obtain ⟨frac_a, hfrac_a, h⟩ := Outcome.bind_eq_returned.mp h
    obtain ⟨frac_b, hfrac_b, h⟩ := Outcome.bind_eq_returned.mp h
    obtain ⟨area_a, harea_a, h⟩ := Outcome.bind_eq_returned.mp h
    obtain ⟨area_b, harea_b, h⟩ := Outcome.bind_eq_returned.mp h
    have hmatrix := Outcome.returned.inj h
    -- the counts of the file are those of the matrix
    have hsrc := congrArg InterpolationMatrix.n_src hmatrix
    have hdst := congrArg InterpolationMatrix.n_dst hmatrix
    dsimp only at hsrc hdst
    obtain ⟨hmem_a, hfrac_a⟩ := new_view_eq_returned.mp hfrac_a
    obtain ⟨hmem_b, hfrac_b⟩ := new_view_eq_returned.mp hfrac_b
    obtain ⟨_, harea_a⟩ := new_view_eq_returned.mp harea_a
    obtain ⟨_, harea_b⟩ := new_view_eq_returned.mp harea_b
    have hmem_src : env.allocates m.n_src = true := hsrc ▸ hmem_a
    have hmem_dst : env.allocates m.n_dst = true := hdst ▸ hmem_b
    have heq_a : frac_a = m.frac_a := congrArg InterpolationMatrix.frac_a hmatrix
    have heq_b : frac_b = m.frac_b := congrArg InterpolationMatrix.frac_b hmatrix
    have heq_area_a : area_a = m.area_a := congrArg InterpolationMatrix.area_a hmatrix
    have heq_area_b : area_b = m.area_b := congrArg InterpolationMatrix.area_b hmatrix
    have heq_rows : rows = m.factor_row := congrArg InterpolationMatrix.factor_row hmatrix
    have heq_cols : cols = m.factor_col := congrArg InterpolationMatrix.factor_col hmatrix
    constructor
    · exact
        { rows := hrows.mp (heq_rows ▸ hrow)
          cols := hcols.mp (heq_cols ▸ hcol)
          n_src := lt_of_to_size_eq hsrc (env.bounded _ hmem_src)
          n_dst := lt_of_to_size_eq hdst (env.bounded _ hmem_dst)
          frac_a := (List.eq_replicate_iff.mp (heq_a ▸ hfrac_a)).2
          frac_b := (List.eq_replicate_iff.mp (heq_b ▸ hfrac_b)).2
          area_a := (List.eq_replicate_iff.mp (heq_area_a ▸ harea_a)).2
          area_b := (List.eq_replicate_iff.mp (heq_area_b ▸ harea_b)).2 }
    · exact ⟨allocate_eq_returned.mp hentries, hmem_src, hmem_dst⟩
  · intro ⟨hs, hmem⟩
    have hsrc := to_size_to_int hs.n_src
    have hdst := to_size_to_int hs.n_dst
    have hfrac_a := new_view_eq_returned.mpr
      ⟨hmem.src, List.eq_replicate_iff.mpr ⟨hm.frac_a_length, hs.frac_a⟩⟩
    have hfrac_b := new_view_eq_returned.mpr
      ⟨hmem.dst, List.eq_replicate_iff.mpr ⟨hm.frac_b_length, hs.frac_b⟩⟩
    have harea_a := new_view_eq_returned.mpr
      ⟨hmem.src, List.eq_replicate_iff.mpr ⟨hm.area_a_length, hs.area_a⟩⟩
    have harea_b := new_view_eq_returned.mpr
      ⟨hmem.dst, List.eq_replicate_iff.mpr ⟨hm.area_b_length, hs.area_b⟩⟩
    have hentries : allocate env m.factor_list.length = .returned () :=
      allocate_eq_returned.mpr hmem.entries
    rw [hentries, Outcome.returned_bind, hrows.mpr hs.rows, Outcome.returned_bind,
      hcols.mpr hs.cols, Outcome.returned_bind, hsrc, hdst]
    -- the views of fractions and areas are equal as lists of zeros
    rw [hfrac_a, Outcome.returned_bind, hfrac_b, Outcome.returned_bind]
    rw [← hfrac_a, harea_a, Outcome.returned_bind, ← hfrac_b, harea_b, Outcome.returned_bind]
    rfl

end

/-! ## Section 7: Main result -/

theorem Storable.increments [Zero K] {m : InterpolationMatrix K} (h : Storable m) :
    ∀ i ∈ m.factor_row ++ m.factor_col, Fits 64 (i + 1) := by
  intro i hi
  have hstored : IndexStorable i := by
    obtain hi | hi := List.mem_append.mp hi
    · exact h.rows i hi
    · exact h.cols i hi
  obtain ⟨hlo, hhi⟩ := hstored
  exact fits_64.mpr ⟨by omega, by omega⟩

theorem write_read_iff [Zero K] {m : InterpolationMatrix K} (hm : m.WellFormed)
    (hread : ∀ c ∈ read_calls, env.refuses c = none) :
    RoundTrips env m ↔ Refused env m ∨ Storable m ∧ HasMemory env m := by
  rw [RoundTrips, write_esmf_thrown]
  constructor
  · intro h
    obtain hrefused | ⟨file, hwrite, hback⟩ := h
    · exact Or.inl hrefused
    · rw [write_esmf_returned hwrite] at hback
      exact Or.inr ((read_esmf_file_of hread hm).mp hback)
  · intro h
    obtain hrefused | ⟨hstorable, hmemory⟩ := h
    · exact Or.inl hrefused
    · by_cases haccepted : ∀ c ∈ write_calls, env.refuses c = none
      · apply Or.inr
        refine ⟨file_of m, ?_, (read_esmf_file_of hread hm).mpr ⟨hstorable, hmemory⟩⟩
        rw [write_esmf_eq hstorable.increments, nc_checks_of_accepted haccepted]
        rfl
      · -- a call that is refused is reported
        push Not at haccepted
        exact Or.inl ⟨haccepted, hstorable.increments⟩

/-- A library that accepts every call. -/
def accepting : Environment where
  refuses _ := none
  allocates n := decide (8 * n < 2 ^ 64)
  bounded _ h := of_decide_eq_true h

/-- A matrix of one entry. -/
def one_entry (frac area : Int) : InterpolationMatrix Int where
  factor_list := [5]
  factor_row := [0]
  factor_col := [0]
  frac_a := [frac]
  frac_b := [frac]
  area_a := [area]
  area_b := [area]
  n_src := 1
  n_dst := 1

theorem one_entry_well_formed (frac area : Int) : (one_entry frac area).WellFormed where
  rows_length := rfl
  cols_length := rfl
  rows_fit i hi := by
    rw [List.mem_singleton.mp hi]
    decide
  cols_fit i hi := by
    rw [List.mem_singleton.mp hi]
    decide
  frac_a_length := rfl
  frac_b_length := rfl
  area_a_length := rfl
  area_b_length := rfl

theorem write_read_one_entry :
    (one_entry 0 0).WellFormed ∧ (∀ c ∈ read_calls, accepting.refuses c = none) ∧
      RoundTrips accepting (one_entry 0 0) := by
  refine ⟨one_entry_well_formed 0 0, fun _ _ => rfl, ?_⟩
  apply (write_read_iff accepting (one_entry_well_formed 0 0) fun _ _ => rfl).mpr
  apply Or.inr
  constructor
  · constructor <;> decide
  · constructor <;> rfl

theorem write_read_drops_fractions :
    (one_entry 1 4).WellFormed ∧ (∀ c, accepting.refuses c = none) ∧
      write_esmf accepting (one_entry 1 4) = .returned (file_of (one_entry 1 4)) ∧
      read_esmf accepting (file_of (one_entry 1 4)) = .returned (one_entry 0 0) ∧
      ¬ RoundTrips accepting (one_entry 1 4) := by
  have hwrite : write_esmf accepting (one_entry 1 4) = .returned (file_of (one_entry 1 4)) := by
    decide +kernel
  have hread : read_esmf accepting (file_of (one_entry 1 4)) = .returned (one_entry 0 0) := by
    decide +kernel
  refine ⟨one_entry_well_formed 1 4, fun _ => rfl, hwrite, hread, ?_⟩
  intro h
  obtain ⟨text, htext⟩ | ⟨file, hfile, hback⟩ := h
  · rw [hwrite] at htext
    cases htext
  · rw [hwrite] at hfile
    rw [← Outcome.returned.inj hfile, hread] at hback
    exact absurd (Outcome.returned.inj hback) (by decide)

end Axis.Esmf
