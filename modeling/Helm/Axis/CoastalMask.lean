import Helm.Axis.Conservation
import Helm.Axis.GridDetector

/-! # AXIS: masked source cells

  `coastal_renormalize_and_extrapolate` runs over the matrix that any of the
  generators made. It drops the entries of masked source cells, divides what
  is left of a row by its sum when that sum is between 0 and 1, and gives a
  row that is left empty the nearest unmasked cell.

  The code asks for a value above 0 when it keeps an entry, and for one
  other than 0 when it looks for the nearest cell. Weights are finite, and
  their sums and quotients are rounded. The nearest-point query is ArborX's.

  Main result: `mask_law_iff`, when a mask changes only what it masks.
-/

namespace Axis

/-! ## Section 1: The post-processing -/

inductive ExtrapolationAction where
  | None
  | NearestWet
  deriving DecidableEq

abbrev Point2 := ℚ × ℚ

/-- What the code relies on in ArborX: a query returns the index of one of
    the points, when there are any. -/
structure ArborX where
  nearest (points : List Point2) (query : Point2) : Nat
  nearest_lt {points : List Point2} (query : Point2) (h : points ≠ []) :
    nearest points query < points.length

/-- The first of the points that are closest in the plane. -/
def ArborX.planar : ArborX where
  nearest points query :=
    let dist := points.map fun x => (x.1 - query.1) ^ 2 + (x.2 - query.2) ^ 2
    dist.findIdx fun x => dist.all (x ≤ ·)
  nearest_lt {points} query h := by
    set dist := points.map fun x => (x.1 - query.1) ^ 2 + (x.2 - query.2) ^ 2 with hdist
    have hne : dist ≠ [] := by simpa [hdist] using h
    rw [show points.length = dist.length by simp [hdist], List.findIdx_lt_length]
    refine ⟨dist.min hne, List.min_mem hne, ?_⟩
    rw [List.all_eq_true]
    intro x hx
    exact decide_eq_true (List.min_le_of_mem hx)

variable {n_src n_dst : Nat}

/-- The meshes as the post-processing sees them. -/
structure CoastalMeshes (n_src n_dst : Nat) where
  /-- The mask of the source cells, when there is one. -/
  cell_mask : Option (Fin n_src → Int)
  src_centroid : Fin n_src → Point2
  dst_centroid : Fin n_dst → Point2

section
variable (fl : Rounding) (mask : Fin n_src → Int) (matrix : List (Entry ℚ n_src n_dst))

def row_sums : Fin n_dst → ℚ :=
  matrix.foldl (fun sums e => if mask e.col > 0 then
    Function.update sums e.row (fl.round (sums e.row + e.weight)) else sums) fun _ => 0

/-- A weight of a row whose wet weights have the sum `s`. -/
def renormalize (s w : ℚ) : ℚ := if s > 0 ∧ s < 1 then fl.round (w / s) else w

/-- The loop that keeps the wet entries. -/
def wet_entries : List (Entry ℚ n_src n_dst) :=
  (matrix.filter fun e => mask e.col > 0).map fun e =>
    { e with weight := renormalize fl (row_sums fl mask matrix e.row) e.weight }

end

def row_has_weights (kept : List (Entry ℚ n_src n_dst)) (j : Fin n_dst) : Bool :=
  kept.any fun e => e.row = j

def wet_indices (mask : Fin n_src → Int) : List (Fin n_src) :=
  (List.finRange n_src).filter fun i => mask i ≠ 0

def dry_rows (kept : List (Entry ℚ n_src n_dst)) : List (Fin n_dst) :=
  (List.finRange n_dst).filter fun j => !row_has_weights kept j

section
variable (ax : ArborX) (meshes : CoastalMeshes n_src n_dst) (mask : Fin n_src → Int)

/-- The cell that the query for a destination cell finds. -/
def nearest_wet (j : Fin n_dst) : Option (Fin n_src) :=
  let wet_points := (wet_indices mask).map meshes.src_centroid
  (wet_indices mask)[ax.nearest wet_points (meshes.dst_centroid j)]?

/-- The entries for the rows without weights. -/
def extrapolated (kept : List (Entry ℚ n_src n_dst)) : List (Entry ℚ n_src n_dst) :=
  if wet_indices mask = [] then []
  else (dry_rows kept).filterMap fun j => (nearest_wet ax meshes mask j).map fun i => ⟨j, i, 1⟩

end

def coastal_renormalize_and_extrapolate (fl : Rounding) (ax : ArborX)
    (meshes : CoastalMeshes n_src n_dst) (matrix : List (Entry ℚ n_src n_dst))
    (extrap_method : ExtrapolationAction) : List (Entry ℚ n_src n_dst) :=
  match meshes.cell_mask with
  | none => matrix
  | some mask =>
    let kept := wet_entries fl mask matrix
    if extrap_method = .NearestWet then kept ++ extrapolated ax meshes mask kept else kept

/-! ## Section 2: Row by row -/

/-- The entries of a row in their order. -/
def row (j : Fin n_dst) (matrix : List (Entry ℚ n_src n_dst)) : List (Entry ℚ n_src n_dst) :=
  matrix.filter fun e => e.row = j

/-- The entries that the code takes to be wet. -/
def positive (mask : Fin n_src → Int) (entries : List (Entry ℚ n_src n_dst)) :
    List (Entry ℚ n_src n_dst) :=
  entries.filter fun e => mask e.col > 0

/-- The entries of cells that are not masked. -/
def unmasked (mask : Fin n_src → Int) (entries : List (Entry ℚ n_src n_dst)) :
    List (Entry ℚ n_src n_dst) :=
  entries.filter fun e => mask e.col ≠ 0

/-- The weights added up one after the other. -/
def weight_sum (fl : Rounding) (entries : List (Entry ℚ n_src n_dst)) : ℚ :=
  entries.foldl (fun sum e => fl.round (sum + e.weight)) 0

section
variable {fl : Rounding} {mask : Fin n_src → Int}

theorem mem_row {j : Fin n_dst} {matrix : List (Entry ℚ n_src n_dst)} {e : Entry ℚ n_src n_dst} :
    e ∈ row j matrix ↔ e ∈ matrix ∧ e.row = j := by
  simp [row]

theorem row_append (j : Fin n_dst) (l l' : List (Entry ℚ n_src n_dst)) :
    row j (l ++ l') = row j l ++ row j l' := List.filter_append _ _

theorem row_sums_from (matrix : List (Entry ℚ n_src n_dst)) (sums : Fin n_dst → ℚ)
    (j : Fin n_dst) :
    matrix.foldl (fun sums e => if mask e.col > 0 then
        Function.update sums e.row (fl.round (sums e.row + e.weight)) else sums) sums j =
      (positive mask (row j matrix)).foldl (fun sum e => fl.round (sum + e.weight)) (sums j) := by
  induction matrix generalizing sums with
  | nil => rfl
  | cons e matrix ih =>
    rw [List.foldl_cons, ih]
    unfold positive row
    by_cases hwet : mask e.col > 0
    · by_cases hrow : e.row = j
      · subst hrow
        simp [hwet]
      · simp [hwet, hrow, Function.update_of_ne (Ne.symm hrow)]
    · by_cases hrow : e.row = j
      · simp [hwet, hrow]
      · simp [hwet, hrow]

theorem row_sums_eq (matrix : List (Entry ℚ n_src n_dst)) (j : Fin n_dst) :
    row_sums fl mask matrix j = weight_sum fl (positive mask (row j matrix)) :=
  row_sums_from matrix _ j

theorem row_wet_entries (matrix : List (Entry ℚ n_src n_dst)) (j : Fin n_dst) :
    row j (wet_entries fl mask matrix) = (positive mask (row j matrix)).map fun e =>
      { e with weight := renormalize fl (weight_sum fl (positive mask (row j matrix))) e.weight } := by
  unfold wet_entries
  rw [row, List.filter_map]
  have hfilter : (matrix.filter fun e => mask e.col > 0).filter (fun e => e.row = j) =
      positive mask (row j matrix) := by
    unfold positive row
    rw [List.filter_filter, List.filter_filter]
    apply List.filter_congr
    intro e _
    exact Bool.and_comm _ _
  show List.map _ ((matrix.filter fun e => mask e.col > 0).filter fun e => e.row = j) = _
  rw [hfilter]
  apply List.map_congr_left
  intro e he
  have hrow : e.row = j := (mem_row.mp (List.mem_filter.mp he).1).2
  rw [row_sums_eq, hrow]

theorem row_wet_entries_eq_nil {matrix : List (Entry ℚ n_src n_dst)} {j : Fin n_dst} :
    row j (wet_entries fl mask matrix) = [] ↔ positive mask (row j matrix) = [] := by
  rw [row_wet_entries, List.map_eq_nil_iff]

theorem not_row_has_weights {kept : List (Entry ℚ n_src n_dst)} {j : Fin n_dst} :
    row_has_weights kept j = false ↔ row j kept = [] := by
  simp [row_has_weights, row]

theorem mem_wet_indices {i : Fin n_src} : i ∈ wet_indices mask ↔ mask i ≠ 0 := by
  simp [wet_indices]

variable {ax : ArborX} {meshes : CoastalMeshes n_src n_dst}

variable (ax meshes) in
theorem exists_nearest_wet (h : wet_indices mask ≠ []) (j : Fin n_dst) :
    ∃ i, nearest_wet ax meshes mask j = some i ∧ mask i ≠ 0 := by
  set wet_points := (wet_indices mask).map meshes.src_centroid with hpoints
  have hlt : ax.nearest wet_points (meshes.dst_centroid j) < (wet_indices mask).length := by
    have hne : wet_points ≠ [] := by simpa [hpoints]
    have hbound := ax.nearest_lt (meshes.dst_centroid j) hne
    rwa [hpoints, List.length_map] at hbound
  refine ⟨_, List.getElem?_eq_getElem hlt, ?_⟩
  exact mem_wet_indices.mp (List.getElem_mem hlt)

theorem row_filterMap {f : Fin n_dst → Option (Fin n_src)} {rows : List (Fin n_dst)}
    (hnodup : rows.Nodup) (j : Fin n_dst) :
    row j (rows.filterMap fun j' => (f j').map fun i => (⟨j', i, 1⟩ : Entry ℚ n_src n_dst)) =
      if j ∈ rows then ((f j).map fun i => ⟨j, i, 1⟩).toList else [] := by
  induction rows with
  | nil => rfl
  | cons j' rows ih =>
    obtain ⟨hnotin, hnodup⟩ := List.nodup_cons.mp hnodup
    rw [List.filterMap_cons]
    by_cases hj : j' = j
    · subst hj
      -- no later row is the same
      have hrest := ih hnodup
      rw [if_neg hnotin] at hrest
      cases hf : f j' with
      | none => simpa [hf] using hrest
      | some i => simpa [hf, row] using hrest
    · have hne : j ≠ j' := Ne.symm hj
      have hrest := ih hnodup
      cases hf : f j' with
      | none => simpa [hf, hne] using hrest
      | some i => simpa [hf, row, hj, hne] using hrest

theorem row_extrapolated (h : wet_indices mask ≠ []) (kept : List (Entry ℚ n_src n_dst))
    (j : Fin n_dst) : row j (extrapolated ax meshes mask kept) =
      if row j kept = [] then ((nearest_wet ax meshes mask j).map fun i => ⟨j, i, 1⟩).toList
      else [] := by
  have hnodup : (dry_rows kept).Nodup := (List.nodup_finRange n_dst).filter _
  unfold extrapolated
  rw [if_neg h, row_filterMap hnodup]
  have hmem : j ∈ dry_rows kept ↔ row j kept = [] := by
    rw [← not_row_has_weights]
    simp [dry_rows]
  simp only [hmem]

end

/-! ## Section 3: What becomes of a row -/

section
variable {fl : Rounding} {ax : ArborX} {meshes : CoastalMeshes n_src n_dst}
  {mask : Fin n_src → Int} {matrix : List (Entry ℚ n_src n_dst)}
  {extrap_method : ExtrapolationAction}

theorem row_of_wet (hmask : meshes.cell_mask = some mask) {j : Fin n_dst}
    (hwet : positive mask (row j matrix) ≠ []) :
    row j (coastal_renormalize_and_extrapolate fl ax meshes matrix extrap_method) =
      (positive mask (row j matrix)).map fun e =>
        { e with weight :=
            renormalize fl (weight_sum fl (positive mask (row j matrix))) e.weight } := by
  unfold coastal_renormalize_and_extrapolate
  rw [hmask]
  dsimp only
  split
  · have hkept : row j (wet_entries fl mask matrix) ≠ [] := mt row_wet_entries_eq_nil.mp hwet
    by_cases hnone : wet_indices mask = []
    · have hempty : extrapolated ax meshes mask (wet_entries fl mask matrix) = [] := if_pos hnone
      rw [hempty, List.append_nil, row_wet_entries]
    · rw [row_append, row_extrapolated hnone, if_neg hkept, List.append_nil, row_wet_entries]
  · exact row_wet_entries matrix j

theorem row_of_dry (hmask : meshes.cell_mask = some mask) {j : Fin n_dst}
    (hdry : positive mask (row j matrix) = []) :
    row j (coastal_renormalize_and_extrapolate fl ax meshes matrix extrap_method) =
      if extrap_method = .NearestWet ∧ wet_indices mask ≠ [] then
        ((nearest_wet ax meshes mask j).map fun i => ⟨j, i, 1⟩).toList
      else [] := by
  have hkept : row j (wet_entries fl mask matrix) = [] := row_wet_entries_eq_nil.mpr hdry
  unfold coastal_renormalize_and_extrapolate
  rw [hmask]
  dsimp only
  split
  · next hnearest =>
    by_cases hnone : wet_indices mask = []
    · have hempty : extrapolated ax meshes mask (wet_entries fl mask matrix) = [] := if_pos hnone
      rw [hempty, List.append_nil, hkept, if_neg (by simp [hnone])]
    · rw [row_append, row_extrapolated hnone, if_pos hkept, hkept, List.nil_append,
        if_pos ⟨hnearest, hnone⟩]
  · next hnearest =>
    rw [hkept, if_neg (by simp [hnearest])]

end

/-! ## Section 4: A mask changes what it masks -/

section
variable (fl : Rounding) (ax : ArborX) (meshes : CoastalMeshes n_src n_dst)
  (mask : Fin n_src → Int) (matrix : List (Entry ℚ n_src n_dst))
  (extrap_method : ExtrapolationAction)

/-- What a mask may do to a row: `result` is the row after the
    post-processing. -/
structure RowLaw (j : Fin n_dst) (result : List (Entry ℚ n_src n_dst)) : Prop where
  /-- No entry of a masked cell is left. -/
  no_masked : ∀ e ∈ result, mask e.col ≠ 0
  /-- A row without masked entries is as it was. -/
  kept : unmasked mask (row j matrix) = row j matrix →
    row j matrix ≠ [] ∨ extrap_method = .None → result = row j matrix
  /-- A row with unmasked entries has these and no others. -/
  wet : unmasked mask (row j matrix) ≠ [] →
    result.map (·.col) = (unmasked mask (row j matrix)).map (·.col)
  /-- Any other row gets one entry. -/
  dry : extrap_method = .NearestWet → unmasked mask (row j matrix) = [] →
    (∃ i, mask i ≠ 0) → ∃ i, mask i ≠ 0 ∧ result = [⟨j, i, 1⟩]

/-- The mask changes only what it masks. -/
structure MaskLaw : Prop where
  rows : ∀ j, RowLaw mask matrix extrap_method j
    (row j (coastal_renormalize_and_extrapolate fl ax meshes matrix extrap_method))
  /-- A mask that masks nothing is as good as none. -/
  all_valid : extrap_method = .None → (∀ i, mask i ≠ 0) →
    coastal_renormalize_and_extrapolate fl ax meshes matrix extrap_method =
      coastal_renormalize_and_extrapolate fl ax { meshes with cell_mask := none } matrix
        extrap_method

/-- The weights of a row do not change when they are divided by their sum, or
    the sum is not between 0 and 1. -/
def SumKept (entries : List (Entry ℚ n_src n_dst)) : Prop :=
  weight_sum fl entries ≤ 0 ∨ 1 ≤ weight_sum fl entries ∨
    ∀ e ∈ entries, fl.round (e.weight / weight_sum fl entries) = e.weight

/-- The raw row is one on which the code does what it should: all of its
    entries are masked; or none of its cells has a negative mask value and, if
    none is masked, its sum is not between 0 and 1. The one other case is that
    of a single unmasked entry whose cell has a negative value: it is dropped,
    and the query may find the same cell again. -/
def RowFit (j : Fin n_dst) : Prop :=
  unmasked mask (row j matrix) = [] ∨
  (positive mask (row j matrix) = unmasked mask (row j matrix) ∧
    (unmasked mask (row j matrix) = row j matrix → SumKept fl (row j matrix))) ∨
  (extrap_method = .NearestWet ∧ positive mask (row j matrix) = [] ∧
    ∃ e, unmasked mask (row j matrix) = [e] ∧ nearest_wet ax meshes mask j = some e.col ∧
      (unmasked mask (row j matrix) = row j matrix → e.weight = 1))

end

section
variable {fl : Rounding} {ax : ArborX} {meshes : CoastalMeshes n_src n_dst}
  {mask : Fin n_src → Int} {matrix : List (Entry ℚ n_src n_dst)}
  {extrap_method : ExtrapolationAction}

theorem renormalize_eq_iff {entries : List (Entry ℚ n_src n_dst)} :
    (∀ e ∈ entries, renormalize fl (weight_sum fl entries) e.weight = e.weight) ↔
      SumKept fl entries := by
  unfold renormalize SumKept
  constructor
  · intro h
    by_cases hs : weight_sum fl entries > 0 ∧ weight_sum fl entries < 1
    · right
      right
      intro e he
      have heq := h e he
      rwa [if_pos hs] at heq
    · by_cases hpos : weight_sum fl entries > 0
      · exact .inr (.inl (not_lt.mp fun hlt => hs ⟨hpos, hlt⟩))
      · exact .inl (not_lt.mp hpos)
  · intro h e he
    split
    · next hs =>
      obtain hle | hge | hquot := h
      · exact absurd hs.1 (not_lt.mpr hle)
      · exact absurd hs.2 (not_lt.mpr hge)
      · exact hquot e he
    · rfl

theorem map_renormalize_eq_iff {entries : List (Entry ℚ n_src n_dst)} :
    (entries.map fun e => { e with weight := renormalize fl (weight_sum fl entries) e.weight }) =
      entries ↔ SumKept fl entries := by
  rw [← renormalize_eq_iff]
  constructor
  · intro h e he
    have hfixed := List.map_inj_left.mp (h.trans (List.map_id entries).symm) e he
    exact congrArg Entry.weight hfixed
  · intro h
    apply Eq.trans _ (List.map_id entries)
    apply List.map_congr_left
    intro e he
    rw [h e he]
    rfl

variable (mask) in
theorem positive_sublist_unmasked (entries : List (Entry ℚ n_src n_dst)) :
    List.Sublist (positive mask entries) (unmasked mask entries) := by
  apply List.monotone_filter_right
  intro e he
  have hpos : mask e.col > 0 := by simpa using he
  have hne : mask e.col ≠ 0 := by omega
  simpa using hne

theorem wet_indices_ne_nil : wet_indices mask ≠ [] ↔ ∃ i, mask i ≠ 0 := by
  constructor
  · intro h
    obtain ⟨i, hi⟩ := List.exists_mem_of_ne_nil _ h
    exact ⟨i, mem_wet_indices.mp hi⟩
  · intro ⟨i, hi⟩ hnil
    have hmem := mem_wet_indices.mpr hi
    rw [hnil] at hmem
    cases hmem

theorem no_masked_of_mem (hmask : meshes.cell_mask = some mask) {j : Fin n_dst}
    {e : Entry ℚ n_src n_dst}
    (he : e ∈ row j (coastal_renormalize_and_extrapolate fl ax meshes matrix extrap_method)) :
    mask e.col ≠ 0 := by
  by_cases hwet : positive mask (row j matrix) = []
  · rw [row_of_dry hmask hwet] at he
    split at he
    · next hnearest =>
      obtain ⟨i, hi, hne⟩ := exists_nearest_wet ax meshes hnearest.2 j
      rw [hi] at he
      have heq : e = ⟨j, i, 1⟩ := by simpa using he
      rw [heq]
      exact hne
    · cases he
  · rw [row_of_wet hmask hwet] at he
    obtain ⟨e', he', heq⟩ := List.mem_map.mp he
    subst heq
    have hpos : mask e'.col > 0 := by simpa using (List.mem_filter.mp he').2
    show mask e'.col ≠ 0
    omega

theorem positive_eq_nil_of_unmasked {entries : List (Entry ℚ n_src n_dst)}
    (h : unmasked mask entries = []) : positive mask entries = [] := by
  have hsub := positive_sublist_unmasked mask entries
  rw [h] at hsub
  exact List.sublist_nil.mp hsub

theorem row_of_found (hmask : meshes.cell_mask = some mask)
    (hnearest : extrap_method = .NearestWet) {j : Fin n_dst}
    (hdry : positive mask (row j matrix) = []) {i : Fin n_src}
    (hi : nearest_wet ax meshes mask j = some i) (hwet : wet_indices mask ≠ []) :
    row j (coastal_renormalize_and_extrapolate fl ax meshes matrix extrap_method) =
      [⟨j, i, 1⟩] := by
  rw [row_of_dry hmask hdry, if_pos ⟨hnearest, hwet⟩, hi]
  rfl

theorem row_law_of_masked (hmask : meshes.cell_mask = some mask) {j : Fin n_dst}
    (h : unmasked mask (row j matrix) = []) : RowLaw mask matrix extrap_method j
      (row j (coastal_renormalize_and_extrapolate fl ax meshes matrix extrap_method)) := by
  have hdry := positive_eq_nil_of_unmasked h
  constructor
  · intro e he
    exact no_masked_of_mem hmask he
  · intro hall hor
    have hempty : row j matrix = [] := hall.symm.trans h
    have hnone : extrap_method = .None := hor.resolve_left (not_not.mpr hempty)
    rw [row_of_dry hmask hdry, if_neg (by simp [hnone]), hempty]
  · intro hne
    exact absurd h hne
  · intro hnearest _ hexists
    have hwet := wet_indices_ne_nil.mpr hexists
    obtain ⟨i, hi, hne⟩ := exists_nearest_wet ax meshes hwet j
    exact ⟨i, hne, row_of_found hmask hnearest hdry hi hwet⟩

theorem row_law_iff (hmask : meshes.cell_mask = some mask) (j : Fin n_dst) :
    RowLaw mask matrix extrap_method j
        (row j (coastal_renormalize_and_extrapolate fl ax meshes matrix extrap_method)) ↔
      RowFit fl ax meshes mask matrix extrap_method j := by
  by_cases hmasked : unmasked mask (row j matrix) = []
  · exact ⟨fun _ => .inl hmasked, fun _ => row_law_of_masked hmask hmasked⟩
  have hne : row j matrix ≠ [] := by
    intro hnil
    rw [hnil] at hmasked
    exact hmasked rfl
  -- an unmasked entry shows that there is an unmasked cell
  have hwet : wet_indices mask ≠ [] := by
    obtain ⟨e, he⟩ := List.exists_mem_of_ne_nil _ hmasked
    exact wet_indices_ne_nil.mpr ⟨e.col, by simpa using (List.mem_filter.mp he).2⟩
  obtain ⟨i, hi, hi_ne⟩ := exists_nearest_wet ax meshes hwet j
  constructor
  · intro hlaw
    right
    by_cases hdry : positive mask (row j matrix) = []
    · right
      have hcols := hlaw.wet hmasked
      have hnearest : extrap_method = .NearestWet := by
        by_contra hnot
        rw [row_of_dry hmask hdry, if_neg (by simp [hnot])] at hcols
        exact hmasked (List.map_eq_nil_iff.mp hcols.symm)
      rw [row_of_found hmask hnearest hdry hi hwet] at hcols
      obtain ⟨e, he, hcol⟩ := List.map_eq_singleton_iff.mp hcols.symm
      refine ⟨hnearest, hdry, e, he, by rw [hi, hcol], ?_⟩
      intro hall
      have hkept := hlaw.kept hall (.inl hne)
      rw [row_of_found hmask hnearest hdry hi hwet, ← hall, he] at hkept
      cases hkept
      rfl
    · left
      have hcols := hlaw.wet hmasked
      rw [row_of_wet hmask hdry, List.map_map] at hcols
      have hlength := congrArg List.length hcols
      rw [List.length_map, List.length_map] at hlength
      have hsame := (positive_sublist_unmasked mask (row j matrix)).eq_of_length hlength
      refine ⟨hsame, ?_⟩
      intro hall
      have hkept := hlaw.kept hall (.inl hne)
      rw [row_of_wet hmask hdry, hsame, hall] at hkept
      exact map_renormalize_eq_iff.mp hkept
  · intro hfit
    obtain hmasked' | ⟨hsame, hsum⟩ | ⟨hnearest, hdry, e, he, hfound, hweight⟩ := hfit
    · exact absurd hmasked' hmasked
    · have hpositive : positive mask (row j matrix) ≠ [] := hsame ▸ hmasked
      constructor
      · intro e he
        exact no_masked_of_mem hmask he
      · intro hall _
        rw [row_of_wet hmask hpositive, hsame, hall]
        exact map_renormalize_eq_iff.mpr (hsum hall)
      · intro _
        rw [row_of_wet hmask hpositive, List.map_map, hsame]
        rfl
      · intro _ hnil
        exact absurd hnil hmasked
    · have hresult : row j (coastal_renormalize_and_extrapolate fl ax meshes matrix extrap_method) =
          [⟨j, e.col, 1⟩] := row_of_found hmask hnearest hdry hfound hwet
      constructor
      · intro e he
        exact no_masked_of_mem hmask he
      · intro hall _
        have hrow : e.row = j := by
          have hmem : e ∈ row j matrix := by
            rw [← hall, he]
            exact List.mem_cons_self
          exact (mem_row.mp hmem).2
        rw [hresult, ← hall, he, ← hweight hall, ← hrow]
      · intro _
        rw [hresult, he]
        rfl
      · intro _ hnil
        exact absurd hnil hmasked

theorem unchanged_of_all_valid (hmask : meshes.cell_mask = some mask)
    (hnone : extrap_method = .None) (hvalid : ∀ i, mask i ≠ 0)
    (hfit : ∀ j, RowFit fl ax meshes mask matrix extrap_method j) :
    coastal_renormalize_and_extrapolate fl ax meshes matrix extrap_method = matrix := by
  have hall : ∀ j, unmasked mask (row j matrix) = row j matrix := by
    intro j
    apply List.filter_eq_self.mpr
    intro e _
    simpa using hvalid e.col
  -- the row of an entry is not empty, so that its cells are all positive
  have hrow : ∀ e ∈ matrix, positive mask (row e.row matrix) = row e.row matrix ∧
      SumKept fl (row e.row matrix) := by
    intro e he
    have hmem : e ∈ row e.row matrix := mem_row.mpr ⟨he, rfl⟩
    obtain hmasked | ⟨hsame, hsum⟩ | ⟨hnearest, _⟩ := hfit e.row
    · rw [hall, List.eq_nil_iff_forall_not_mem] at hmasked
      exact absurd hmem (hmasked e)
    · exact ⟨hsame.trans (hall e.row), hsum (hall e.row)⟩
    · rw [hnone] at hnearest
      cases hnearest
  unfold coastal_renormalize_and_extrapolate
  rw [hmask, hnone]
  show wet_entries fl mask matrix = matrix
  unfold wet_entries
  have hkept : (matrix.filter fun e => mask e.col > 0) = matrix := by
    apply List.filter_eq_self.mpr
    intro e he
    have hmem : e ∈ positive mask (row e.row matrix) := by
      rw [(hrow e he).1]
      exact mem_row.mpr ⟨he, rfl⟩
    exact (List.mem_filter.mp hmem).2
  rw [hkept]
  apply Eq.trans _ (List.map_id matrix)
  apply List.map_congr_left
  intro e he
  obtain ⟨hsame, hsum⟩ := hrow e he
  have hweight := renormalize_eq_iff.mpr hsum e (mem_row.mpr ⟨he, rfl⟩)
  rw [row_sums_eq, hsame, hweight]
  rfl

/-- **Masks**: a mask changes only what it masks exactly when every raw row is
    fit. -/
theorem mask_law_iff (hmask : meshes.cell_mask = some mask) :
    MaskLaw fl ax meshes mask matrix extrap_method ↔
      ∀ j, RowFit fl ax meshes mask matrix extrap_method j := by
  constructor
  · intro hlaw j
    exact (row_law_iff hmask j).mp (hlaw.rows j)
  · intro hfit
    constructor
    · intro j
      exact (row_law_iff hmask j).mpr (hfit j)
    · intro hnone hvalid
      exact unchanged_of_all_valid hmask hnone hvalid hfit

end

/-! ### A mask at the shore and a mask that masks nothing -/

/-- Two cells side by side on each grid, the second source cell masked. -/
def shore : CoastalMeshes 2 2 where
  cell_mask := some ![1, 0]
  src_centroid := ![(0, 0), (1, 0)]
  dst_centroid := ![(0, 0), (1, 0)]

theorem shore_mask_law :
    MaskLaw .exact .planar shore ![1, 0] [⟨0, 0, 1⟩, ⟨1, 1, 1⟩] .NearestWet := by
  apply (mask_law_iff rfl).mpr
  intro j
  match j with
  | 0 => exact .inr (.inl ⟨by decide +kernel, fun _ => .inr (.inl (by decide +kernel))⟩)
  | 1 => exact .inl (by decide +kernel)

theorem overlaps_edge : (to_square 1 (1 / 2) 0).overlaps id =
    .returned [⟨⟨0, by decide⟩, ⟨0, by decide⟩, 1 / 2⟩] := by
  decide +kernel

theorem all_valid_mask_changes_edge : ∃ M,
    (to_square 1 (1 / 2) 0).generate_conservative_rect id .DstArea = .returned M ∧
      ∃ meshes : CoastalMeshes M.n_src M.n_dst, meshes.cell_mask = some (fun _ => 1) ∧
        M.entries.map (·.weight) = [1 / 2] ∧
        (coastal_renormalize_and_extrapolate .exact .planar meshes M.entries .None).map
          (·.weight) = [1] ∧
        ¬ MaskLaw .exact .planar meshes (fun _ => 1) M.entries .None := by
  refine ⟨_, generate_of_overlaps (by decide +kernel) overlaps_edge .DstArea,
    ⟨some fun _ => 1, fun _ => (0, 0), fun _ => (0, 0)⟩, rfl, by decide +kernel, by decide +kernel, ?_⟩
  intro hlaw
  have hsame := congrArg (List.map (·.weight)) (hlaw.all_valid rfl (by simp))
  exact absurd hsame (by decide +kernel)

end Axis
