import Helm.Axis.WeightGenerator

/-! # AXIS: destination cells without weights

  With `UnmappedAction::Error` a destination cell that finds no source cell
  is to be reported. The paths of the generator check this one by one. The
  two fast paths for conservative weights do not: their matrix is taken when
  it has an entry at all. The post-processing of masked cells can take all
  entries from a row and does not check either.

  `path` says which path makes the weights, and `columns` which source cells
  this path gives to a destination cell; `raw_follows` connects them with the
  generator. Whether the matrix covers the destination is then a question
  about `columns`.

  Main result: `generate_covers_iff`.
-/

namespace Axis.WeightGenerator

open Signed Segments ArrayLoops SecondOrder

namespace Meshes

variable (p : Meshes) (env : Env) (config : RegridConfig)

/-! ## Section 1: The promise -/

/-- A destination cell that has to have an entry. -/
structure Required (j : Fin p.dst.n_cells) : Prop where
  unmasked : p.dst.is_masked j = false
  regular : p.geometry.dst_degenerate j = false
  area : 0 < p.dst_areas config.line_type j

/-- Every such cell has one. -/
def Covers (M : p.Matrix) : Prop := ∀ j, p.Required config j → ∃ e ∈ M.entries, e.row = j

/-! ## Section 2: The paths -/

inductive Path where
  | nearest_rect
  | nearest (line_type : LineType)
  | bilinear_rect
  | bilinear_nonuniform
  | bilinear
  | bicubic
  | patch
  | conservative_rect (q : RectMeshes ℚ)
  | conservative_nonuniform
  | conservative_sphere
  | conservative_plane
  | conservative_2nd_order

/-- The path looks at every destination cell. -/
def Path.checked : Path → Bool
  | .conservative_rect _ => false
  | .conservative_nonuniform => false
  | _ => true

/-- One destination cell in the plane, with the check that is made after the
    loop. -/
def planar_row (j : Fin p.dst.n_cells) :
    Outcome String (List (Overlap ℚ p.src.n_cells p.dst.n_cells)) :=
  if p.dst.is_masked j then return []
  else if p.geometry.dst_degenerate j then return []
  else if p.dst_areas config.line_type j ≤ 0 then return []
  else
    let found := p.overlaps_of config j
    if found.isEmpty then .thrown (p.unmapped_error "generate_conservative" j) else return found

/-- Row and column of a cell of a grid. -/
def grid_cell (nj ni : Nat) (j : Nat) : Outcome String (Fin nj × Fin ni) :=
  if h : j / ni < nj ∧ j % ni < ni then .returned (⟨j / ni, h.1⟩, ⟨j % ni, h.2⟩) else .undefined

/-- The source cells that a path gives to a destination cell. -/
def columns (path : Path) (j : Fin p.dst.n_cells) : Outcome String (List Nat) :=
  match path with
  | .nearest_rect => do
    let e ← p.nearest_rect_entry p.src.detect_regular_grid p.dst.detect_regular_grid j
    return [e.col.val]
  | .nearest line_type => do
    let row ← p.nearest_row config line_type j
    return row.map (·.col.val)
  | .bilinear_rect => do
    let row ← p.bilinear_rect_row config p.src.detect_regular_grid j
    return row.map (·.col.val)
  | .bilinear_nonuniform => do
    let row ← p.bilinear_nonuniform_row p.src.detect_rectilinear_grid j
    return row.map (·.col.val)
  | .bilinear => do
    let row ← p.bilinear_row env config j
    return row.map (·.col.val)
  | .bicubic => do
    let row ← p.fitted_row config "generate_bicubic" (p.bicubic_entries env) j
    return row.map (·.col.val)
  | .patch => do
    let row ← p.fitted_row config "generate_patch" (p.patch_entries env) j
    return row.map (·.col.val)
  | .conservative_rect q => do
    let d ← grid_cell q.dst.nj q.dst.ni j
    let row ← q.cell_overlaps env.sin d
    return row.map (·.col.val)
  | .conservative_nonuniform => do
    let src_info := p.src.detect_rectilinear_grid
    let dst_info := p.dst.detect_rectilinear_grid
    let d ← grid_cell dst_info.nj dst_info.ni j
    let row ← p.nonuniform_row env.sin src_info dst_info d
    return row.map (·.col.val)
  | .conservative_sphere => do
    let row ← p.spherical_row config j
    return row.map (·.col.val)
  | .conservative_plane => do
    let row ← p.planar_row config j
    return row.map (·.col.val)
  | .conservative_2nd_order => do
    let row ← (p.second_order config).cell_overlaps env.sin env.cos config.toRegridConfig j
    return row.map (·.col.val)

/-- Which path `generate_bilinear` takes. -/
def bilinear_path : Path :=
  if p.src.detect_regular_grid.is_regular ∧ p.dst.detect_regular_grid.is_regular then .bilinear_rect
  else if p.src.detect_rectilinear_grid.is_rectilinear ∧ 0 < p.dst.n_cells then .bilinear_nonuniform
  else .bilinear

def nearest_path : Path :=
  if p.src.detect_regular_grid.is_regular ∧ p.dst.detect_regular_grid.is_regular then .nearest_rect
  else .nearest (if p.src.is_spherical then .GreatCircle else .Cartesian)

/-- The path for grids that are not uniform, if it finds an overlap. -/
def nonuniform_path : Outcome String Path := do
  let src_info := p.src.detect_rectilinear_grid
  let dst_info := p.dst.detect_rectilinear_grid
  let generic := match config.line_type with
    | .GreatCircle => Path.conservative_sphere
    | .Cartesian => Path.conservative_plane
  if src_info.is_rectilinear ∧ dst_info.is_rectilinear then
    let rows ← ((List.finRange dst_info.nj).product (List.finRange dst_info.ni)).mapM
      (p.nonuniform_row env.sin src_info dst_info)
    return if rows.flatten = [] then generic else .conservative_nonuniform
  else return generic

/-- What the first fast path finds, unless it declines. -/
def rect_found (q : RectMeshes ℚ) : Outcome String (List (Overlap ℚ q.src.n_cells q.dst.n_cells)) :=
  if q.falls_back then .returned [] else q.overlaps env.sin

/-- A fast path for conservative weights is taken when it finds an overlap. -/
def conservative_path : Outcome String Path := do
  match ← p.rect_meshes with
  | none => p.nonuniform_path env config
  | some q =>
    let found ← rect_found env q
    if found = [] then p.nonuniform_path env config else return .conservative_rect q

/-- The path that makes the weights. -/
def path : Outcome String Path :=
  match config.method with
  | .Bilinear => .returned p.bilinear_path
  | .NearestNeighbor => .returned p.nearest_path
  | .Bicubic => .returned .bicubic
  | .Patch => .returned .patch
  | .Conservative1stOrder => p.conservative_path env config
  | .Conservative2ndOrder =>
    -- the gradients need the number of cells as an `int`
    if to_int p.src.n_cells < 0 then .undefined else .returned .conservative_2nd_order

/-- Source cell `i` is given to destination cell `j`. -/
def Gives (j : Fin p.dst.n_cells) (i : Fin p.src.n_cells) : Prop :=
  ∃ path cols, p.path env config = .returned path ∧
    p.columns env config path j = .returned cols ∧ i.val ∈ cols

/-- No matrix is made: the meshes do not fit together, or the path stops at
    some destination cell. -/
def Refuses : Prop :=
  p.src.csys ≠ p.dst.csys ∨
    (p.src.is_spherical ∧ p.longitudes_mismatch (lon_range p.src) (lon_range p.dst) ∧
      ¬ p.is_structured_fast_path config) ∨
    ¬ ∃ path, p.path env config = .returned path ∧
      ∀ j, ∃ cols, p.columns env config path j = .returned cols

/-- There is a source cell to extrapolate from. -/
def Extrapolates (mask : Fin p.src.n_cells → Int) : Prop :=
  config.extrap_method = .NearestWet ∧ ∃ i, mask i ≠ 0

/-- Without a mask only the paths that do not check are in question. With one,
    every cell must keep an entry or be extrapolated. -/
def Safe : Prop :=
  match p.src.cell_mask with
  | none => ∀ path, p.path env config = .returned path → path.checked = false →
      ∀ j, p.Required config j → ∃ i, p.Gives env config j i
  | some mask => p.Extrapolates config mask ∨
      ∀ j, p.Required config j → ∃ i, p.Gives env config j i ∧ 0 < mask i

/-! ## Section 3: Loops over the destination -/

/-- The matrix has the entries that `columns` says. -/
structure Follows (raw : Outcome String p.Matrix)
    (columns : Fin p.dst.n_cells → Outcome String (List Nat)) : Prop where
  returns : (∀ j, ∃ cols, columns j = .returned cols) → ∃ M, raw = .returned M
  entries : ∀ M, raw = .returned M → ∀ j, ∃ cols, columns j = .returned cols ∧
    ∀ k, k ∈ cols ↔ ∃ e ∈ M.entries, e.row = j ∧ e.col.val = k

section Loop

variable {p} {δ κ : Type} {order : List δ} {cell : Fin p.dst.n_cells → Outcome String δ}
  {row : δ → Outcome String (List κ)} {row_of : κ → Fin p.dst.n_cells} {col_of : κ → Nat}
  {pack : List (List κ) → p.Matrix}

/-- A loop over the destination cells in any order, where each adds entries to
    its own row. -/
theorem follows_loop (hcell : ∀ j, ∃ d ∈ order, cell j = .returned d)
    (hown : ∀ d ∈ order, ∀ ks, row d = .returned ks → ∀ k ∈ ks, cell (row_of k) = .returned d)
    (hinj : ∀ j j' d, cell j = .returned d → cell j' = .returned d → j = j')
    (hsurj : ∀ d ∈ order, ∃ j, cell j = .returned d)
    (hpack : ∀ rows j c, (∃ e ∈ (pack rows).entries, e.row = j ∧ e.col.val = c) ↔
      ∃ k ∈ rows.flatten, row_of k = j ∧ col_of k = c) :
    Follows p (do
      let rows ← order.mapM row
      return pack rows) (fun j => do
        let d ← cell j
        let ks ← row d
        return ks.map col_of) := by
  constructor
  · intro hcols
    have hrows : ∃ rows, order.mapM row = .returned rows := by
      apply Outcome.mapM_returns.mpr
      intro d hd
      obtain ⟨j, hj⟩ := hsurj d hd
      obtain ⟨cols, h⟩ := hcols j
      rw [hj, Outcome.returned_bind] at h
      obtain ⟨ks, hks, _⟩ := Outcome.bind_eq_returned.mp h
      exact ⟨ks, hks⟩
    obtain ⟨rows, hrows⟩ := hrows
    exact ⟨pack rows, by rw [hrows]; rfl⟩
  · intro M h j
    obtain ⟨rows, hrows, h⟩ := Outcome.bind_eq_returned.mp h
    cases h
    obtain ⟨d, hd, hj⟩ := hcell j
    obtain ⟨ks, hks, hrow⟩ := Outcome.exists_of_mapM hrows hd
    refine ⟨ks.map col_of, by rw [hj, Outcome.returned_bind, hrow]; rfl, ?_⟩
    intro i
    rw [hpack, List.mem_map]
    constructor
    · intro ⟨k, hk, hcol⟩
      have hrow_of : row_of k = j := hinj _ _ d (hown d hd ks hrow k hk) hj
      exact ⟨k, List.mem_flatten.mpr ⟨ks, hks, hk⟩, hrow_of, hcol⟩
    · intro ⟨k, hk, hrow_of, hcol⟩
      obtain ⟨ks', hks', hk⟩ := List.mem_flatten.mp hk
      obtain ⟨d', hd', hrow'⟩ := (Outcome.mem_of_mapM hrows).mp hks'
      -- what is in the row of `j` was added by its own iteration
      have hd_eq := hown d' hd' ks' hrow' k hk
      rw [hrow_of, hj] at hd_eq
      cases hd_eq
      rw [hrow] at hrow'
      cases hrow'
      exact ⟨k, hk, hcol⟩

theorem follows_cells {order : List (Fin p.dst.n_cells)} (hmem : ∀ j, j ∈ order)
    {row : Fin p.dst.n_cells → Outcome String (List κ)}
    (hown : ∀ j ks, row j = .returned ks → ∀ k ∈ ks, row_of k = j)
    (hpack : ∀ rows j c, (∃ e ∈ (pack rows).entries, e.row = j ∧ e.col.val = c) ↔
      ∃ k ∈ rows.flatten, row_of k = j ∧ col_of k = c) :
    Follows p (do
      let rows ← order.mapM row
      return pack rows) (fun j => do
        let ks ← row j
        return ks.map col_of) := by
  have hloop := @follows_loop p _ _ order Outcome.returned row row_of col_of pack
    (fun j => ⟨j, hmem j, rfl⟩)
    (fun j _ ks hks k hk => congrArg Outcome.returned (hown j ks hks k hk))
    (fun j j' d h h' => by cases h; cases h'; rfl) (fun j _ => ⟨j, rfl⟩) hpack
  exact hloop

theorem mem_overlap_entries {config : RegridConfig} {src_areas : Fin p.src.n_cells → ℚ}
    {dst_areas : Fin p.dst.n_cells → ℚ} {w : Overlap ℚ p.src.n_cells p.dst.n_cells → ℚ}
    {found : List (Overlap ℚ p.src.n_cells p.dst.n_cells)} {j : Fin p.dst.n_cells} {c : Nat} :
    (∃ e ∈ (p.pack_overlaps config src_areas dst_areas w found).entries,
      e.row = j ∧ e.col.val = c) ↔ ∃ o ∈ found, o.row = j ∧ o.col.val = c := by
  simp only [pack_overlaps, List.mem_map]
  constructor
  · intro ⟨_, ⟨o, ho, heq⟩, hrow, hcol⟩
    subst heq
    exact ⟨o, ho, hrow, hcol⟩
  · intro ⟨o, ho, hrow, hcol⟩
    exact ⟨_, ⟨o, ho, rfl⟩, hrow, hcol⟩

theorem overlap_entries_eq_nil {config : RegridConfig} {src_areas : Fin p.src.n_cells → ℚ}
    {dst_areas : Fin p.dst.n_cells → ℚ} {w : Overlap ℚ p.src.n_cells p.dst.n_cells → ℚ}
    {found : List (Overlap ℚ p.src.n_cells p.dst.n_cells)} :
    (p.pack_overlaps config src_areas dst_areas w found).entries = [] ↔ found = [] :=
  List.map_eq_nil_iff

end Loop

/-! ## Section 4: Rows of the paths that check -/

/-- The entries of destination cell `j`, at least one. -/
structure IsRow (j : Fin p.dst.n_cells) (es : List p.Entry) : Prop where
  own : ∀ e ∈ es, e.row = j
  nonempty : es ≠ []

section Rows

variable {p} {env : Env} {config : RegridConfig} {j : Fin p.dst.n_cells} {es : List p.Entry}
  {cells : List (Fin p.src.n_cells)}

theorem isRow_map {α : Type} {as : List α} {col : α → Fin p.src.n_cells} {w : α → ℚ}
    (hne : as ≠ []) : p.IsRow j (as.map fun a => ⟨j, col a, w a⟩) := by
  constructor
  · intro e he
    obtain ⟨a, _, rfl⟩ := List.mem_map.mp he
    rfl
  · simpa using hne

theorem unmapped_stops (herr : config.unmapped = .Error) {where_ : String} :
    p.unmapped config where_ j ≠ .returned es := by
  unfold unmapped
  rw [if_pos herr]
  nofun

theorem nearest_row_spec (herr : config.unmapped = .Error) {line_type : LineType}
    (h : p.nearest_row config line_type j = .returned es) : p.IsRow j es := by
  unfold nearest_row at h
  split at h
  · exact absurd h (unmapped_stops herr)
  · next i _ _ =>
    cases h
    exact @isRow_map p j _ [i] id (fun _ => 1) (by simp)

theorem stencil_spec {stencil : List (Int × ℚ)} (hne : stencil ≠ [])
    (h : p.stencil_entries j stencil = .returned es) : p.IsRow j es := by
  constructor
  · intro e he
    obtain ⟨cell, _, hcell⟩ := (Outcome.mem_of_mapM h).mp he
    obtain ⟨i, _, hi⟩ := Outcome.bind_eq_returned.mp hcell
    cases hi
    rfl
  · intro hnil
    have hlength := (Outcome.mapM_eq_returned.mp h).length_eq
    rw [hnil] at hlength
    exact hne (List.length_eq_zero_iff.mp hlength)

theorem compute_weights_ne_nil {kernel : BilinearRectKernel} {point : Point2}
    {weights : List (Int × ℚ)} (h : kernel.compute_weights point = .returned (some weights)) :
    weights ≠ [] := by
  unfold BilinearRectKernel.compute_weights at h
  dsimp only at h
  split at h
  · cases h
  · obtain ⟨i, _, h⟩ := Outcome.bind_eq_returned.mp h
    obtain ⟨j, _, h⟩ := Outcome.bind_eq_returned.mp h
    obtain ⟨j', _, h⟩ := Outcome.bind_eq_returned.mp h
    obtain ⟨i', _, h⟩ := Outcome.bind_eq_returned.mp h
    cases h
    exact List.cons_ne_nil _ _

theorem bilinear_rect_row_spec (herr : config.unmapped = .Error) {info : RegularGridInfo}
    (h : p.bilinear_rect_row config info j = .returned es) : p.IsRow j es := by
  unfold bilinear_rect_row at h
  split at h
  · cases h
  · obtain ⟨weights, hweights, h⟩ := Outcome.bind_eq_returned.mp h
    split at h
    · rw [if_pos herr] at h
      cases h
    · exact stencil_spec (compute_weights_ne_nil hweights) h

theorem bilinear_nonuniform_row_spec {info : RectilinearGridInfo}
    (h : p.bilinear_nonuniform_row info j = .returned es) : p.IsRow j es := by
  obtain ⟨⟨i, tx⟩, _, h⟩ := Outcome.bind_eq_returned.mp h
  obtain ⟨⟨j', ty⟩, _, h⟩ := Outcome.bind_eq_returned.mp h
  exact stencil_spec (List.cons_ne_nil _ _) h

theorem idw_spec {dist : Fin p.src.n_cells → ℚ} (hne : cells ≠ []) :
    p.IsRow j (p.idw_entries dist j cells) := by
  unfold idw_entries
  split
  · next i _ => exact @isRow_map p j _ [i] id (fun _ => 1) (by simp)
  · exact isRow_map hne

theorem quad_spec (h : p.quad_entries env j cells = some es) : p.IsRow j es := by
  unfold quad_entries at h
  split at h
  · dsimp only at h
    split at h
    · cases h
    · cases h
      exact ⟨by simp, List.cons_ne_nil _ _⟩
  · cases h

theorem triangle_spec (h : p.triangle_entries env j cells = some es) : p.IsRow j es := by
  unfold triangle_entries at h
  split at h
  · dsimp only at h
    split at h
    · cases h
    · cases h
      exact ⟨by simp, List.cons_ne_nil _ _⟩
  · cases h

theorem shape_spec (hne : cells ≠ []) : p.IsRow j (p.shape_entries env j cells) := by
  unfold shape_entries
  split
  · next hquad =>
    obtain ⟨c, _, hc⟩ := List.exists_of_findSome?_eq_some hquad
    exact quad_spec hc
  split
  · next htriangle =>
    obtain ⟨c, _, hc⟩ := List.exists_of_findSome?_eq_some htriangle
    exact triangle_spec hc
  · exact idw_spec (by simpa using hne)

theorem bilinear_row_spec (herr : config.unmapped = .Error)
    (h : p.bilinear_row env config j = .returned es) : p.IsRow j es := by
  unfold bilinear_row at h
  dsimp only at h
  split at h
  · exact absurd h (unmapped_stops herr)
  · next hne =>
    cases h
    exact shape_spec hne

theorem patch_entries_isRow (hne : cells ≠ []) {w : Fin (p.patch j cells).n → ℚ} :
    p.IsRow j ((p.patch j cells).entries j w) := by
  have hpos : 0 < (p.patch j cells).n := List.length_pos_iff.mpr hne
  apply isRow_map
  rw [Ne, List.finRange_eq_nil_iff]
  exact hpos.ne'

theorem bicubic_spec (hne : cells ≠ []) : p.IsRow j (p.bicubic_entries env j cells) := by
  unfold bicubic_entries
  dsimp only
  split
  · exact patch_entries_isRow hne
  split
  · exact patch_entries_isRow hne
  · exact idw_spec hne

theorem patch_spec (hne : cells ≠ []) : p.IsRow j (p.patch_entries env j cells) := by
  unfold patch_entries
  dsimp only
  split
  · exact patch_entries_isRow hne
  · exact idw_spec hne

theorem fitted_row_spec (herr : config.unmapped = .Error) {where_ : String}
    {entries : Fin p.dst.n_cells → List (Fin p.src.n_cells) → List p.Entry}
    (hentries : ∀ j cells, cells ≠ [] → p.IsRow j (entries j cells))
    (h : p.fitted_row config where_ entries j = .returned es) : p.IsRow j es := by
  unfold fitted_row at h
  dsimp only at h
  split at h
  · exact absurd h (unmapped_stops herr)
  · next hne =>
    cases h
    exact hentries j _ hne

end Rows

/-! ## Section 5: The paths for weights at points -/

section Points

variable {p} {env : Env} {config : RegridConfig}

theorem follows_rows {row : Fin p.dst.n_cells → Outcome String (List p.Entry)}
    (hrow : ∀ j es, row j = .returned es → p.IsRow j es) {pack : List (List p.Entry) → p.Matrix}
    (hpack : ∀ rows, (pack rows).entries = rows.flatten) :
    Follows p (do
      let rows ← (List.finRange p.dst.n_cells).mapM row
      return pack rows) (fun j => do
        let es ← row j
        return es.map (·.col.val)) := by
  apply follows_cells List.mem_finRange
  · exact fun j es h => (hrow j es h).own
  · intro rows j c
    rw [hpack]

theorem detected_dimensions {mesh : Mesh} (h : mesh.detect_regular_grid.is_regular = true) :
    mesh.detect_regular_grid.ni ≠ 0 ∧ mesh.detect_regular_grid.nj ≠ 0 := by
  unfold Mesh.detect_regular_grid Axis.detect_regular_grid at h ⊢
  split
  · next hnone =>
    rw [hnone] at h
    cases h
  · next lons lats hsome =>
    rw [hsome] at h
    dsimp only at h ⊢
    obtain ⟨_, _, hlons, hlats, _⟩ := grid_coordinates_eq_some hsome
    split at h
    · cases h
    · next huniform =>
      rw [if_neg huniform]
      dsimp only
      omega

theorem nearest_rect_follows : Follows p
    (p.generate_nearest_rect p.src.detect_regular_grid p.dst.detect_regular_grid)
    (p.columns env config .nearest_rect) := by
  set entry := p.nearest_rect_entry p.src.detect_regular_grid p.dst.detect_regular_grid with hentry
  have hown : ∀ j e, entry j = .returned e → e.row = j := by
    intro j e h
    obtain ⟨_, _, h⟩ := Outcome.bind_eq_returned.mp h
    obtain ⟨_, _, h⟩ := Outcome.bind_eq_returned.mp h
    obtain ⟨_, _, h⟩ := Outcome.bind_eq_returned.mp h
    cases h
    rfl
  constructor
  · intro hcols
    have hentries : ∃ es, (List.finRange p.dst.n_cells).mapM entry = .returned es := by
      apply Outcome.mapM_returns.mpr
      intro j _
      obtain ⟨cols, h⟩ := hcols j
      obtain ⟨e, he, _⟩ := Outcome.bind_eq_returned.mp h
      exact ⟨e, he⟩
    obtain ⟨es, hes⟩ := hentries
    exact ⟨_, Outcome.bind_eq_returned.mpr ⟨es, hes, rfl⟩⟩
  · intro M h j
    obtain ⟨es, hes, h⟩ := Outcome.bind_eq_returned.mp h
    cases h
    obtain ⟨e, he, hj⟩ := Outcome.exists_of_mapM hes (List.mem_finRange j)
    refine ⟨[e.col.val], Outcome.bind_eq_returned.mpr ⟨e, hj, rfl⟩, ?_⟩
    intro c
    rw [List.mem_singleton]
    constructor
    · intro hc
      exact ⟨e, he, hown j e hj, hc.symm⟩
    · intro ⟨e', he', hrow, hcol⟩
      obtain ⟨j', _, hj'⟩ := (Outcome.mem_of_mapM hes).mp he'
      -- one entry for each cell
      rw [← hown j' e' hj', hrow] at hj'
      rw [hj] at hj'
      cases hj'
      exact hcol.symm

theorem nearest_follows (herr : config.unmapped = .Error) :
    Follows p (p.generate_nearest config) (p.columns env config p.nearest_path) := by
  have hgeneric (line_type : LineType) : Follows p (p.generate_nearest_impl config line_type)
      (p.columns env config (.nearest line_type)) :=
    follows_rows (fun j es => nearest_row_spec herr) fun _ => rfl
  unfold generate_nearest nearest_path
  dsimp only
  split
  · exact nearest_rect_follows
  split
  · exact hgeneric .GreatCircle
  · exact hgeneric .Cartesian

theorem bilinear_follows (herr : config.unmapped = .Error) :
    Follows p (p.generate_bilinear env config) (p.columns env config p.bilinear_path) := by
  unfold generate_bilinear bilinear_path
  dsimp only
  split
  · next hregular =>
    obtain ⟨hni, hnj⟩ := detected_dimensions hregular.1
    have hfast : p.generate_bilinear_rect config p.src.detect_regular_grid = do
        let rows ← (List.finRange p.dst.n_cells).mapM
          (p.bilinear_rect_row config p.src.detect_regular_grid)
        return some ⟨rows.flatten, fun _ => 1,
          fun j => if rows.flatten.any (·.row = j) then 1 else 0, fun _ => 0, fun _ => 0⟩ := by
      unfold generate_bilinear_rect
      rw [if_neg (by simp [hni, hnj])]
    rw [hfast]
    simp only [bind_assoc, Outcome.pure_eq, Outcome.returned_bind]
    exact follows_rows (fun j es => bilinear_rect_row_spec herr) fun _ => rfl
  · simp only [Outcome.pure_eq, Outcome.returned_bind]
    split
    · exact follows_rows (fun j es => bilinear_nonuniform_row_spec) fun _ => rfl
    · exact follows_rows (fun j es => bilinear_row_spec herr) fun _ => rfl

theorem fitted_follows (herr : config.unmapped = .Error) {where_ : String}
    {entries : Fin p.dst.n_cells → List (Fin p.src.n_cells) → List p.Entry}
    (hentries : ∀ j cells, cells ≠ [] → p.IsRow j (entries j cells)) :
    Follows p (do
      let rows ← (List.finRange p.dst.n_cells).mapM (p.fitted_row config where_ entries)
      return p.pack_rows rows) (fun j => do
        let es ← p.fitted_row config where_ entries j
        return es.map (·.col.val)) :=
  follows_rows (fun _ _ => fitted_row_spec herr hentries) fun _ => rfl

end Points

/-! ## Section 6: The paths for conservative weights -/

section Conservative

variable {p} {env : Env} {config : RegridConfig}

theorem overlaps_of_own {j : Fin p.dst.n_cells} {o : Overlap ℚ p.src.n_cells p.dst.n_cells}
    (h : o ∈ p.overlaps_of config j) : o.row = j := by
  obtain ⟨i, _, hi⟩ := List.mem_filterMap.mp h
  unfold overlap_of at hi
  dsimp only at hi
  split at hi
  · cases hi
  split at hi
  · cases hi
  split at hi
  · cases hi
  split at hi
  · cases hi
  split at hi
  · cases hi
  · cases hi
    rfl

theorem spherical_row_own {j : Fin p.dst.n_cells}
    {os : List (Overlap ℚ p.src.n_cells p.dst.n_cells)}
    (h : p.spherical_row config j = .returned os) : ∀ o ∈ os, o.row = j := by
  unfold spherical_row at h
  dsimp only at h
  split at h
  · cases h
    simp
  split at h
  · cases h
    simp
  split at h
  · split at h
    · cases h
    · cases h
      simp
  split at h
  · cases h
  · cases h
    intro o ho
    exact overlaps_of_own ho

theorem spherical_row_ne_nil (herr : config.unmapped = .Error) {j : Fin p.dst.n_cells}
    (hreq : p.Required config j) {os : List (Overlap ℚ p.src.n_cells p.dst.n_cells)}
    (h : p.spherical_row config j = .returned os) : os ≠ [] := by
  unfold spherical_row at h
  dsimp only at h
  rw [hreq.unmasked, if_neg (by simp), hreq.regular, if_neg (by simp),
    if_neg (not_le.mpr hreq.area)] at h
  split at h
  · cases h
  · next hfound =>
    cases h
    simpa [herr] using hfound

/-- The row of a cell in the plane, before the check. -/
def planar_found (p : Meshes) (config : RegridConfig) (j : Fin p.dst.n_cells) :
    List (Overlap ℚ p.src.n_cells p.dst.n_cells) :=
  if p.dst.is_masked j then []
  else if p.geometry.dst_degenerate j then []
  else if p.dst_areas config.line_type j ≤ 0 then []
  else p.overlaps_of config j

theorem planar_found_own {j : Fin p.dst.n_cells} {o : Overlap ℚ p.src.n_cells p.dst.n_cells}
    (h : o ∈ planar_found p config j) : o.row = j := by
  unfold planar_found at h
  split at h
  · cases h
  split at h
  · cases h
  split at h
  · cases h
  · exact overlaps_of_own h

theorem any_planar_found (j : Fin p.dst.n_cells) :
    ((List.finRange p.dst.n_cells).flatMap (planar_found p config)).any (·.row = j) =
      !(planar_found p config j).isEmpty := by
  rw [Bool.eq_iff_iff]
  simp only [List.any_eq_true, List.mem_flatMap, List.mem_finRange, true_and, decide_eq_true_eq,
    Bool.not_eq_true', List.isEmpty_eq_false_iff_exists_mem]
  constructor
  · intro ⟨o, ⟨j', ho⟩, hrow⟩
    rw [planar_found_own ho] at hrow
    subst hrow
    exact ⟨o, ho⟩
  · intro ⟨o, ho⟩
    exact ⟨o, ⟨j, ho⟩, planar_found_own ho⟩

theorem check_mapped_eq (j : Fin p.dst.n_cells) :
    p.check_mapped config ((List.finRange p.dst.n_cells).flatMap (planar_found p config)) j = do
      let _ ← p.planar_row config j
      return () := by
  unfold check_mapped planar_row
  rw [any_planar_found]
  by_cases hmask : p.dst.is_masked j = true
  · simp [hmask]
  by_cases hdegenerate : p.geometry.dst_degenerate j = true
  · simp [hmask, hdegenerate]
  by_cases harea : p.dst_areas config.line_type j ≤ 0
  · simp [hmask, hdegenerate, harea]
  · have hfound : planar_found p config j = p.overlaps_of config j := by
      simp [planar_found, hmask, hdegenerate, harea]
    rw [hfound]
    by_cases hempty : (p.overlaps_of config j).isEmpty = true
    · simp [hmask, hdegenerate, harea, hempty]
    · simp [hmask, hdegenerate, harea, hempty]

theorem planar_row_eq_returned {j : Fin p.dst.n_cells}
    {os : List (Overlap ℚ p.src.n_cells p.dst.n_cells)}
    (h : p.planar_row config j = .returned os) : os = planar_found p config j := by
  unfold planar_row at h
  unfold planar_found
  dsimp only at h
  split at h
  · next hmask =>
    cases h
    rw [if_pos hmask]
  next hmask =>
  rw [if_neg hmask]
  split at h
  · next hdegenerate =>
    cases h
    rw [if_pos hdegenerate]
  next hdegenerate =>
  rw [if_neg hdegenerate]
  split at h
  · next harea =>
    cases h
    rw [if_pos harea]
  next harea =>
  rw [if_neg harea]
  split at h
  · cases h
  · cases h
    rfl

theorem planar_row_ne_nil {j : Fin p.dst.n_cells} (hreq : p.Required config j)
    {os : List (Overlap ℚ p.src.n_cells p.dst.n_cells)}
    (h : p.planar_row config j = .returned os) : os ≠ [] := by
  unfold planar_row at h
  dsimp only at h
  rw [hreq.unmasked, if_neg (by simp), hreq.regular, if_neg (by simp),
    if_neg (not_le.mpr hreq.area)] at h
  split at h
  · cases h
  · next hfound =>
    cases h
    simpa using hfound

theorem planar_overlaps_eq (herr : config.unmapped = .Error) :
    p.planar_overlaps config = do
      let rows ← (List.finRange p.dst.n_cells).mapM (p.planar_row config)
      return rows.flatten := by
  have hloop (js : List (Fin p.dst.n_cells)) :
      (js.mapM (fun j => do
        let _ ← p.planar_row config j
        return ()) >>= fun _ => Outcome.returned (js.flatMap (planar_found p config))) = do
      let rows ← js.mapM (p.planar_row config)
      return rows.flatten := by
    induction js with
    | nil => rfl
    | cons j js ih =>
      simp only [List.mapM_cons, List.flatMap_cons, bind_assoc, Outcome.pure_eq,
        Outcome.returned_bind]
      cases hj : p.planar_row config j with
      | thrown e => rfl
      | undefined => rfl
      | returned os =>
        simp only [Outcome.returned_bind]
        rw [planar_row_eq_returned hj]
        -- the rest of the loop, with the first row in front
        have hrest := congrArg (fun x => x >>= fun found =>
          (Outcome.returned (planar_found p config j ++ found) : Outcome String _)) ih
        simpa only [bind_assoc, Outcome.pure_eq, Outcome.returned_bind, List.flatten_cons]
          using hrest
  rw [← hloop]
  unfold planar_overlaps
  rw [if_pos herr]
  simp only [← check_mapped_eq]
  rfl

theorem sphere_follows (hline : config.line_type = .GreatCircle) :
    Follows p (p.generate_conservative_impl config) (p.columns env config .conservative_sphere) := by
  unfold generate_conservative_impl spherical_overlaps
  rw [hline]
  simp only [bind_assoc, Outcome.pure_eq, Outcome.returned_bind]
  exact @follows_cells p _ (·.row) (·.col.val) (fun rows => p.pack_overlaps config _ _ _ rows.flatten)
    p.geometry.sorted_dst.order p.geometry.sorted_dst.mem _ (fun _ _ => spherical_row_own)
    fun rows j c => mem_overlap_entries

theorem plane_follows (herr : config.unmapped = .Error) (hline : config.line_type = .Cartesian) :
    Follows p (p.generate_conservative_impl config) (p.columns env config .conservative_plane) := by
  unfold generate_conservative_impl
  rw [hline]
  dsimp only
  rw [planar_overlaps_eq herr]
  simp only [bind_assoc, Outcome.pure_eq, Outcome.returned_bind]
  refine @follows_cells p _ (·.row) (·.col.val) (fun rows => p.pack_overlaps config _ _ _ rows.flatten)
    (List.finRange p.dst.n_cells) List.mem_finRange _ ?_ fun rows j c => mem_overlap_entries
  intro j os h o ho
  rw [planar_row_eq_returned h] at ho
  exact planar_found_own ho

theorem grid_cell_iff {nj ni j : Nat} {d : Fin nj × Fin ni} :
    grid_cell nj ni j = .returned d ↔ j = d.1 * ni + d.2 := by
  obtain ⟨jd, id⟩ := d
  have hpos : 0 < ni := id.pos
  unfold grid_cell
  constructor
  · intro h
    split at h
    · cases h
      show j = j / ni * ni + j % ni
      rw [Nat.mul_comm, Nat.div_add_mod]
    · cases h
  · intro h
    have hdiv : j / ni = jd := by
      rw [h, Nat.mul_comm, Nat.mul_add_div hpos, Nat.div_eq_of_lt id.isLt, Nat.add_zero]
    have hmod : j % ni = id := by
      rw [h, Nat.mul_comm, Nat.mul_add_mod, Nat.mod_eq_of_lt id.isLt]
    rw [dif_pos ⟨hdiv ▸ jd.isLt, hmod ▸ id.isLt⟩]
    simp only [hdiv, hmod]

theorem exists_grid_cell {nj ni j : Nat} (h : j < nj * ni) :
    ∃ d ∈ (List.finRange nj).product (List.finRange ni), grid_cell nj ni j = .returned d := by
  have hpos : 0 < ni := Nat.pos_of_mul_pos_left (Nat.zero_lt_of_lt h)
  have hj : j / ni < nj := Nat.div_lt_of_lt_mul (by rwa [Nat.mul_comm])
  refine ⟨(⟨j / ni, hj⟩, ⟨j % ni, Nat.mod_lt j hpos⟩),
    List.pair_mem_product.mpr ⟨List.mem_finRange _, List.mem_finRange _⟩, ?_⟩
  exact dif_pos ⟨hj, Nat.mod_lt j hpos⟩

theorem element_eq_returned {n : Nat} {idx : Int} {k : Fin n}
    (h : element n idx = .returned k) : (k.val : Int) = idx := by
  unfold element at h
  split at h
  · next hidx =>
    cases h
    exact Int.toNat_of_nonneg hidx.1
  · cases h

theorem nonuniform_row_cell {src_info dst_info : RectilinearGridInfo}
    {d : Fin dst_info.nj × Fin dst_info.ni} {os : List (Overlap ℚ p.src.n_cells p.dst.n_cells)}
    (h : p.nonuniform_row env.sin src_info dst_info d = .returned os) :
    ∃ c_dst : Fin p.dst.n_cells, c_dst.val = d.1 * dst_info.ni + d.2 ∧ ∀ o ∈ os, o.row = c_dst := by
  obtain ⟨c_dst, hcell, h⟩ := Outcome.bind_eq_returned.mp h
  have hval := element_eq_returned hcell
  refine ⟨c_dst, by omega, ?_⟩
  split at h
  · cases h
    simp
  split at h
  · cases h
    simp
  obtain ⟨columns, _, h⟩ := Outcome.bind_eq_returned.mp h
  obtain ⟨rows, _, h⟩ := Outcome.bind_eq_returned.mp h
  obtain ⟨found, hfound, h⟩ := Outcome.bind_eq_returned.mp h
  cases h
  intro o ho
  rw [List.reduceOption_mem_iff] at ho
  obtain ⟨s, _, hs⟩ := (Outcome.mem_of_mapM hfound).mp ho
  obtain ⟨i, _, hs⟩ := Outcome.bind_eq_returned.mp hs
  obtain ⟨c_src, _, hs⟩ := Outcome.bind_eq_returned.mp hs
  dsimp only at hs
  split at hs
  · cases hs
  split at hs
  · cases hs
  split at hs
  · cases hs
  · cases hs
    rfl

theorem rectilinear_cells {mesh : Mesh} (h : mesh.detect_rectilinear_grid.is_rectilinear = true) :
    mesh.n_cells ≤ mesh.detect_rectilinear_grid.nj * mesh.detect_rectilinear_grid.ni := by
  have hcount : mesh.unstructured.n_cells = mesh.n_cells := by
    simp [UnstructuredMesh.n_cells, Mesh.unstructured]
  unfold Mesh.detect_rectilinear_grid Axis.detect_rectilinear_grid at h ⊢
  split
  · next hnone =>
    rw [hnone] at h
    cases h
  · next lons lats hsome =>
    obtain ⟨_, _, _, _, hcells⟩ := grid_coordinates_eq_some hsome
    dsimp only
    rw [← hcount, ← hcells, Nat.mul_comm]
    exact Nat.mod_le _ _

theorem follows_grid {κ : Type} {row_of : κ → Fin p.dst.n_cells} {col_of : κ → Nat} {nj ni : Nat}
    (hcells : p.dst.n_cells ≤ nj * ni) {row : Fin nj × Fin ni → Outcome String (List κ)}
    (hrow : ∀ d os, row d = .returned os → ∃ c_dst : Fin p.dst.n_cells,
      c_dst.val = d.1 * ni + d.2 ∧ ∀ o ∈ os, row_of o = c_dst)
    {rows : List (List κ)}
    (hrows : ((List.finRange nj).product (List.finRange ni)).mapM row = .returned rows)
    {pack : List (List κ) → p.Matrix}
    (hpack : ∀ rows j c, (∃ e ∈ (pack rows).entries, e.row = j ∧ e.col.val = c) ↔
      ∃ o ∈ rows.flatten, row_of o = j ∧ col_of o = c) :
    Follows p (.returned (pack rows)) (fun j => do
      let d ← grid_cell nj ni j
      let os ← row d
      return os.map col_of) := by
  have hloop := @follows_loop p _ _ ((List.finRange nj).product (List.finRange ni))
    (fun j => grid_cell nj ni j) row row_of col_of pack
    (fun j => exists_grid_cell (lt_of_lt_of_le j.isLt hcells))
    (fun d _ os hos o ho => by
      obtain ⟨c_dst, hval, hown⟩ := hrow d os hos
      rw [hown o ho]
      exact grid_cell_iff.mpr hval)
    (fun j j' d hj hj' => by
      rw [grid_cell_iff] at hj hj'
      exact Fin.ext (hj.trans hj'.symm))
    (fun d hd => by
      obtain ⟨os, _, hos⟩ := Outcome.exists_of_mapM hrows hd
      obtain ⟨c_dst, hval, _⟩ := hrow d os hos
      exact ⟨c_dst, grid_cell_iff.mpr hval⟩) hpack
  rw [hrows] at hloop
  exact hloop

theorem accepts_iff (herr : config.unmapped = .Error) {M : p.Matrix} :
    p.accepts config M = true ↔ M.entries ≠ [] := by
  unfold accepts
  rw [decide_eq_true_eq]
  constructor
  · intro ⟨_, h⟩
    exact h.resolve_left (not_not.mpr herr)
  · intro h
    obtain ⟨e, _⟩ := List.exists_mem_of_ne_nil _ h
    exact ⟨e.row.pos, Or.inr h⟩

theorem filter_accepts (herr : config.unmapped = .Error) (M : p.Matrix) :
    Option.filter (p.accepts config) (some M) = if M.entries = [] then none else some M := by
  rw [Option.filter_some]
  by_cases h : M.entries = []
  · rw [if_pos h, if_neg (mt (accepts_iff herr).mp (not_not.mpr h))]
  · rw [if_neg h, if_pos ((accepts_iff herr).mpr h)]

theorem nonuniform_follows (herr : config.unmapped = .Error) {path : Path}
    (hpath : p.nonuniform_path env config = .returned path) :
    Follows p (do
      match ← p.conservative_nonuniform_result env config with
      | some M => return M
      | none => p.generate_conservative_impl config) (p.columns env config path) := by
  have hgeneric : Follows p (p.generate_conservative_impl config) (p.columns env config
      (match config.line_type with
        | .GreatCircle => .conservative_sphere
        | .Cartesian => .conservative_plane)) := by
    cases hline : config.line_type with
    | GreatCircle => exact sphere_follows hline
    | Cartesian => exact plane_follows herr hline
  unfold nonuniform_path at hpath
  unfold conservative_nonuniform_result
  dsimp only at hpath ⊢
  split at hpath
  · next hgrids =>
    rw [if_pos hgrids]
    obtain ⟨rows, hrows, hpath⟩ := Outcome.bind_eq_returned.mp hpath
    cases hpath
    unfold generate_conservative_rect_nonuniform
    rw [hrows]
    simp only [Outcome.pure_eq, Outcome.returned_bind]
    rw [filter_accepts herr]
    by_cases hnil : rows.flatten = []
    · rw [if_pos (overlap_entries_eq_nil.mpr hnil), if_pos hnil]
      exact hgeneric
    · rw [if_neg (mt overlap_entries_eq_nil.mp hnil), if_neg hnil]
      exact follows_grid (rectilinear_cells hgrids.2) (fun d os => nonuniform_row_cell) hrows
        fun rows j c => mem_overlap_entries
  · next hgrids =>
    cases hpath
    rw [if_neg hgrids]
    exact hgeneric

theorem rect_meshes_cells {q : RectMeshes ℚ} (h : p.rect_meshes = .returned (some q)) :
    q.src.n_cells = p.src.n_cells ∧ q.dst.n_cells = p.dst.n_cells := by
  unfold rect_meshes at h
  dsimp only at h
  split at h
  · split at h
    · next hcells =>
      cases h
      exact hcells
    · cases h
  · cases h

/-- The matrix for what the first fast path finds. -/
def rect_matrix (p : Meshes) (sin : ℚ → ℚ) (norm_type : NormType) (q : RectMeshes ℚ)
    (h : q.src.n_cells = p.src.n_cells ∧ q.dst.n_cells = p.dst.n_cells)
    (found : List (Overlap ℚ q.src.n_cells q.dst.n_cells)) : p.Matrix where
  entries := (q.pack sin found norm_type).entries.map fun e =>
    ⟨e.row.cast h.2, e.col.cast h.1, e.weight⟩
  frac_a := fun i => (q.pack sin found norm_type).frac_a (i.cast h.1.symm)
  frac_b := fun j => (q.pack sin found norm_type).frac_b (j.cast h.2.symm)
  area_a := fun i => (q.pack sin found norm_type).area_a (i.cast h.1.symm)
  area_b := fun j => (q.pack sin found norm_type).area_b (j.cast h.2.symm)

theorem rect_entries_eq_nil {sin : ℚ → ℚ} {norm_type : NormType} {q : RectMeshes ℚ}
    {h : q.src.n_cells = p.src.n_cells ∧ q.dst.n_cells = p.dst.n_cells}
    {found : List (Overlap ℚ q.src.n_cells q.dst.n_cells)} :
    (rect_matrix p sin norm_type q h found).entries = [] ↔ found = [] := by
  simp [rect_matrix, RectMeshes.pack]

theorem mem_rect_entries {sin : ℚ → ℚ} {norm_type : NormType} {q : RectMeshes ℚ}
    {h : q.src.n_cells = p.src.n_cells ∧ q.dst.n_cells = p.dst.n_cells}
    {found : List (Overlap ℚ q.src.n_cells q.dst.n_cells)} {j : Fin p.dst.n_cells} {c : Nat} :
    (∃ e ∈ (rect_matrix p sin norm_type q h found).entries, e.row = j ∧ e.col.val = c) ↔
      ∃ o ∈ found, o.row.cast h.2 = j ∧ o.col.val = c := by
  simp only [rect_matrix, RectMeshes.pack, List.map_map, List.mem_map, Function.comp_apply]
  constructor
  · intro ⟨_, ⟨o, ho, heq⟩, hrow, hcol⟩
    subst heq
    exact ⟨o, ho, hrow, hcol⟩
  · intro ⟨o, ho, hrow, hcol⟩
    exact ⟨_, ⟨o, ho, rfl⟩, hrow, hcol⟩

theorem rect_result_eq (herr : config.unmapped = .Error) {q : RectMeshes ℚ}
    (hq : p.rect_meshes = .returned (some q)) :
    p.conservative_rect_result env config = do
      let found ← rect_found env q
      return if found = [] then none
        else some (rect_matrix p env.sin config.norm_type q (rect_meshes_cells hq) found) := by
  unfold conservative_rect_result RectMeshes.generate_conservative_rect rect_found
  rw [hq, Outcome.returned_bind]
  dsimp only
  by_cases hfalls : q.falls_back = true
  · simp only [hfalls, if_true, Outcome.pure_eq, Outcome.returned_bind]
    unfold accepted
    split
    · rw [filter_accepts herr, if_pos (by rfl)]
    · rfl
  · simp only [hfalls, Bool.false_eq_true, if_false, bind_assoc, Outcome.pure_eq, Outcome.returned_bind]
    apply bind_congr
    intro found
    have haccepted : p.accepted (q.pack env.sin found config.norm_type) =
        some (rect_matrix p env.sin config.norm_type q (rect_meshes_cells hq) found) :=
      dif_pos (rect_meshes_cells hq)
    rw [haccepted, filter_accepts herr]
    simp only [rect_entries_eq_nil]

theorem conservative_follows (herr : config.unmapped = .Error) {path : Path}
    (hpath : p.conservative_path env config = .returned path) :
    Follows p (p.generate_conservative env config) (p.columns env config path) := by
  obtain ⟨result, hmeshes, hpath⟩ := Outcome.bind_eq_returned.mp hpath
  unfold generate_conservative
  cases result with
  | none =>
    have hnone : p.conservative_rect_result env config = .returned none := by
      unfold conservative_rect_result
      rw [hmeshes]
      rfl
    rw [hnone, Outcome.returned_bind]
    exact nonuniform_follows herr hpath
  | some q =>
    rw [rect_result_eq herr hmeshes]
    obtain ⟨found, hfound, hpath⟩ := Outcome.bind_eq_returned.mp hpath
    rw [hfound]
    simp only [Outcome.pure_eq, Outcome.returned_bind]
    split at hpath
    · next hnil =>
      rw [if_pos hnil]
      exact nonuniform_follows herr hpath
    · next hne =>
      rw [if_neg hne]
      cases hpath
      have hcells := rect_meshes_cells hmeshes
      unfold rect_found at hfound
      split at hfound
      · cases hfound
        exact absurd rfl hne
      · obtain ⟨rows, hrows, hfound⟩ := Outcome.bind_eq_returned.mp hfound
        cases hfound
        apply @follows_grid p _ (fun o => o.row.cast hcells.2) (·.col.val) q.dst.nj q.dst.ni
          (by rw [← hcells.2, RegularMesh.n_cells, Nat.mul_comm]) _ _ rows hrows
          (fun rows => rect_matrix p env.sin config.norm_type q hcells rows.flatten)
          fun rows j c => mem_rect_entries
        intro d os hos
        refine ⟨(q.dst_cell_idx d).cast hcells.2, rfl, ?_⟩
        intro o ho
        obtain ⟨js, i, s, _, rfl⟩ := (RectMeshes.mem_cell_overlaps hos).mp ho
        rfl

end Conservative

/-! ## Section 7: The generator follows its path -/

section Raw

variable {p} {env : Env} {config : RegridConfig}

theorem second_order_row {j : Fin p.dst.n_cells}
    {os : List (OverlapEntry ℚ p.src.n_cells p.dst.n_cells)}
    (h : (p.second_order config).cell_overlaps env.sin env.cos config.toRegridConfig j =
      .returned os) :
    (∀ o ∈ os, o.row = j) ∧ (config.unmapped = .Error → os ≠ []) := by
  unfold SecondOrder.Meshes.cell_overlaps at h
  split at h
  · split at h
    · cases h
    · next herr =>
      cases h
      exact ⟨by simp, fun h => absurd h herr⟩
  dsimp only at h
  split at h
  · cases h
  next hfound =>
  cases h
  constructor
  · intro o ho
    obtain ⟨i, _, hi⟩ := List.mem_filterMap.mp ho
    unfold SecondOrder.Meshes.overlap at hi
    split at hi
    · cases hi
    split at hi
    · dsimp only at hi
      split at hi
      · cases hi
      split at hi
      · cases hi
      · cases hi
        rfl
    · dsimp only at hi
      split at hi
      · cases hi
      · cases hi
        rfl
  · intro herr hnil
    exact hfound ⟨by rw [hnil]; rfl, herr⟩

theorem second_order_follows (hn : ¬ to_int p.src.n_cells < 0) :
    Follows p ((p.second_order config).generate_conservative_2nd_order env.sin env.cos
      config.toRegridConfig) (p.columns env config .conservative_2nd_order) := by
  obtain ⟨corr, hcorr⟩ := @SecondOrder.Meshes.corrections_returned ℚ _ _ (p.second_order config)
    env.sin env.cos config.toRegridConfig hn
  unfold SecondOrder.Meshes.generate_conservative_2nd_order SecondOrder.Meshes.overlap_entries
  rw [hcorr]
  simp only [bind_assoc, Outcome.pure_eq, Outcome.returned_bind]
  refine @follows_cells p (OverlapEntry ℚ p.src.n_cells p.dst.n_cells) (·.row) (·.col.val)
    (fun rows => (p.second_order config).pack config.toRegridConfig rows.flatten corr)
    (List.finRange p.dst.n_cells) List.mem_finRange _ (fun j os h => (second_order_row h).1) ?_
  intro rows j c
  constructor
  · intro ⟨e, he, hrow, hcol⟩
    obtain ⟨o, ho, rfl⟩ := List.mem_map.mp he
    exact ⟨o, ho, hrow, hcol⟩
  · intro ⟨o, ho, hrow, hcol⟩
    exact ⟨_, List.mem_map.mpr ⟨o, ho, rfl⟩, hrow, hcol⟩

theorem raw_follows (herr : config.unmapped = .Error) {path : Path}
    (hpath : p.path env config = .returned path) :
    Follows p (p.raw_matrix env config) (p.columns env config path) := by
  unfold Meshes.path at hpath
  unfold raw_matrix
  cases hmethod : config.method with
  | Bilinear =>
    rw [hmethod] at hpath
    cases hpath
    exact bilinear_follows herr
  | NearestNeighbor =>
    rw [hmethod] at hpath
    cases hpath
    exact nearest_follows herr
  | Bicubic =>
    rw [hmethod] at hpath
    cases hpath
    exact fitted_follows herr fun _ _ => bicubic_spec
  | Patch =>
    rw [hmethod] at hpath
    cases hpath
    exact fitted_follows herr fun _ _ => patch_spec
  | Conservative1stOrder =>
    rw [hmethod] at hpath
    exact conservative_follows herr hpath
  | Conservative2ndOrder =>
    rw [hmethod] at hpath
    dsimp only at hpath
    split at hpath
    · cases hpath
    · next hn =>
      cases hpath
      exact second_order_follows hn

theorem nonuniform_path_returned {M : p.Matrix} (h : (do
      match ← p.conservative_nonuniform_result env config with
      | some M => return M
      | none => p.generate_conservative_impl config) = .returned M) :
    ∃ path, p.nonuniform_path env config = .returned path := by
  obtain ⟨result, hresult, _⟩ := Outcome.bind_eq_returned.mp h
  unfold conservative_nonuniform_result at hresult
  unfold nonuniform_path
  dsimp only at hresult ⊢
  split at hresult
  · next hgrids =>
    rw [if_pos hgrids]
    obtain ⟨_, hM, _⟩ := Outcome.bind_eq_returned.mp hresult
    obtain ⟨rows, hrows, _⟩ := Outcome.bind_eq_returned.mp hM
    rw [hrows]
    exact ⟨_, rfl⟩
  · next hgrids =>
    rw [if_neg hgrids]
    exact ⟨_, rfl⟩

theorem path_returned (herr : config.unmapped = .Error) {M : p.Matrix}
    (h : p.raw_matrix env config = .returned M) :
    ∃ path, p.path env config = .returned path := by
  unfold raw_matrix at h
  unfold Meshes.path
  cases hmethod : config.method with
  | Bilinear => exact ⟨_, rfl⟩
  | NearestNeighbor => exact ⟨_, rfl⟩
  | Bicubic => exact ⟨_, rfl⟩
  | Patch => exact ⟨_, rfl⟩
  | Conservative1stOrder =>
    rw [hmethod] at h
    obtain ⟨result, hresult, h⟩ := Outcome.bind_eq_returned.mp h
    show ∃ path, p.conservative_path env config = .returned path
    unfold conservative_path
    cases hmeshes : p.rect_meshes with
    | thrown e =>
      rw [conservative_rect_result, hmeshes] at hresult
      cases hresult
    | undefined =>
      rw [conservative_rect_result, hmeshes] at hresult
      cases hresult
    | returned meshes =>
      rw [Outcome.returned_bind]
      cases meshes with
      | none =>
        rw [conservative_rect_result, hmeshes] at hresult
        cases hresult
        exact nonuniform_path_returned h
      | some q =>
        rw [rect_result_eq herr hmeshes] at hresult
        obtain ⟨found, hfound, hresult⟩ := Outcome.bind_eq_returned.mp hresult
        dsimp only
        rw [hfound, Outcome.returned_bind]
        by_cases hnil : found = []
        · rw [if_pos hnil] at hresult ⊢
          cases hresult
          exact nonuniform_path_returned h
        · rw [if_neg hnil]
          exact ⟨_, rfl⟩
  | Conservative2ndOrder =>
    rw [hmethod] at h
    dsimp only
    split
    · next hn =>
      -- the gradients are undefined
      obtain ⟨_, _, h⟩ := Outcome.bind_eq_returned.mp h
      obtain ⟨_, hcorr, _⟩ := Outcome.bind_eq_returned.mp h
      obtain ⟨_, hgrad, _⟩ := Outcome.bind_eq_returned.mp hcorr
      dsimp only [GradientReconstructor.compute] at hgrad
      rw [if_pos hn] at hgrad
      cases hgrad
    · exact ⟨_, rfl⟩

/-- Paths that check leave no cell without weights. -/
theorem columns_ne_nil (herr : config.unmapped = .Error) {path : Path}
    (hchecked : path.checked = true) {j : Fin p.dst.n_cells} (hreq : p.Required config j)
    {cols : List Nat} (h : p.columns env config path j = .returned cols) : cols ≠ [] := by
  have hrow {κ : Type} {ks : List κ} {f : κ → Nat} (hne : ks ≠ []) : ks.map f ≠ [] := by
    simpa using hne
  cases path with
  | nearest_rect =>
    obtain ⟨e, _, h⟩ := Outcome.bind_eq_returned.mp h
    cases h
    exact List.cons_ne_nil _ _
  | nearest line_type =>
    obtain ⟨es, hes, h⟩ := Outcome.bind_eq_returned.mp h
    cases h
    exact hrow (nearest_row_spec herr hes).nonempty
  | bilinear_rect =>
    obtain ⟨es, hes, h⟩ := Outcome.bind_eq_returned.mp h
    cases h
    exact hrow (bilinear_rect_row_spec herr hes).nonempty
  | bilinear_nonuniform =>
    obtain ⟨es, hes, h⟩ := Outcome.bind_eq_returned.mp h
    cases h
    exact hrow (bilinear_nonuniform_row_spec hes).nonempty
  | bilinear =>
    obtain ⟨es, hes, h⟩ := Outcome.bind_eq_returned.mp h
    cases h
    exact hrow (bilinear_row_spec herr hes).nonempty
  | bicubic =>
    obtain ⟨es, hes, h⟩ := Outcome.bind_eq_returned.mp h
    cases h
    exact hrow (fitted_row_spec herr (fun _ _ => bicubic_spec) hes).nonempty
  | patch =>
    obtain ⟨es, hes, h⟩ := Outcome.bind_eq_returned.mp h
    cases h
    exact hrow (fitted_row_spec herr (fun _ _ => patch_spec) hes).nonempty
  | conservative_rect q => cases hchecked
  | conservative_nonuniform => cases hchecked
  | conservative_sphere =>
    obtain ⟨os, hos, h⟩ := Outcome.bind_eq_returned.mp h
    cases h
    exact hrow (spherical_row_ne_nil herr hreq hos)
  | conservative_plane =>
    obtain ⟨os, hos, h⟩ := Outcome.bind_eq_returned.mp h
    cases h
    exact hrow (planar_row_ne_nil hreq hos)
  | conservative_2nd_order =>
    obtain ⟨os, hos, h⟩ := Outcome.bind_eq_returned.mp h
    cases h
    exact hrow ((second_order_row hos).2 herr)

end Raw

/-! ## Section 8: What is covered -/

section Coverage

variable {p} {env : Env} {ax : ArborX} {config : RegridConfig}

/-- The post-processing of the weights. -/
def postprocess (p : Meshes) (ax : ArborX) (config : RegridConfig) (raw : p.Matrix) : p.Matrix :=
  let entries := coastal_renormalize_and_extrapolate Rounding.exact ax p.coastal raw.entries
    config.extrap_method
  { raw with entries }

theorem generate_eq_returned {M : p.Matrix} :
    p.generate env ax config = .returned M ↔ p.src.csys = p.dst.csys ∧
      ¬ (p.src.is_spherical ∧ p.longitudes_mismatch (lon_range p.src) (lon_range p.dst) ∧
        ¬ p.is_structured_fast_path config) ∧
      ∃ raw, p.raw_matrix env config = .returned raw ∧ M = postprocess p ax config raw := by
  have hcsys : p.check_coord_systems = .returned () ↔ p.src.csys = p.dst.csys := by
    unfold check_coord_systems
    split
    · next hne => simp [hne]
    · next heq => simpa using heq
  have hlon : p.check_longitudes config = .returned () ↔
      ¬ (p.src.is_spherical ∧ p.longitudes_mismatch (lon_range p.src) (lon_range p.dst) ∧
        ¬ p.is_structured_fast_path config) := by
    unfold check_longitudes
    dsimp only
    split
    · next h => simp [h]
    · next h => simpa using h
  unfold generate
  rw [Outcome.bind_eq_returned]
  constructor
  · intro ⟨_, h₁, h⟩
    obtain ⟨_, h₂, h⟩ := Outcome.bind_eq_returned.mp h
    obtain ⟨raw, hraw, h⟩ := Outcome.bind_eq_returned.mp h
    exact ⟨hcsys.mp h₁, hlon.mp h₂, raw, hraw, (Outcome.returned.inj h).symm⟩
  · intro ⟨h₁, h₂, raw, hraw, heq⟩
    refine ⟨(), hcsys.mpr h₁, Outcome.bind_eq_returned.mpr ⟨(), hlon.mpr h₂, ?_⟩⟩
    exact Outcome.bind_eq_returned.mpr ⟨raw, hraw, congrArg Outcome.returned heq.symm⟩

theorem gives_iff (herr : config.unmapped = .Error) {raw : p.Matrix}
    (hraw : p.raw_matrix env config = .returned raw) {j : Fin p.dst.n_cells}
    {i : Fin p.src.n_cells} :
    p.Gives env config j i ↔ ∃ e ∈ raw.entries, e.row = j ∧ e.col = i := by
  obtain ⟨path, hpath⟩ := path_returned herr hraw
  obtain ⟨cols, hcols, hmem⟩ := (raw_follows herr hpath).entries raw hraw j
  constructor
  · intro ⟨path', cols', hpath', hcols', hi⟩
    rw [hpath] at hpath'
    cases hpath'
    rw [hcols] at hcols'
    cases hcols'
    obtain ⟨e, he, hrow, hcol⟩ := (hmem i.val).mp hi
    exact ⟨e, he, hrow, Fin.ext hcol⟩
  · intro ⟨e, he, hrow, hcol⟩
    exact ⟨path, cols, hpath, hcols, (hmem i.val).mpr ⟨e, he, hrow, congrArg Fin.val hcol⟩⟩

theorem generate_returns_iff (herr : config.unmapped = .Error) :
    (∃ M, p.generate env ax config = .returned M) ↔ ¬ p.Refuses env config := by
  have hraw : (∃ raw, p.raw_matrix env config = .returned raw) ↔
      ∃ path, p.path env config = .returned path ∧
        ∀ j, ∃ cols, p.columns env config path j = .returned cols := by
    constructor
    · intro ⟨raw, hraw⟩
      obtain ⟨path, hpath⟩ := path_returned herr hraw
      refine ⟨path, hpath, ?_⟩
      intro j
      obtain ⟨cols, hcols, _⟩ := (raw_follows herr hpath).entries raw hraw j
      exact ⟨cols, hcols⟩
    · intro ⟨path, hpath, hcols⟩
      exact (raw_follows herr hpath).returns hcols
  unfold Refuses
  rw [← hraw]
  simp only [generate_eq_returned, not_or, not_not]
  constructor
  · intro ⟨_, hcsys, hlon, raw, h, _⟩
    exact ⟨hcsys, hlon, raw, h⟩
  · intro ⟨hcsys, hlon, raw, h⟩
    exact ⟨_, hcsys, hlon, raw, h, rfl⟩

theorem covered_of_mask {raw : p.Matrix} {mask : Fin p.src.n_cells → Int}
    (hmask : p.src.cell_mask = some mask) (j : Fin p.dst.n_cells) :
    (∃ e ∈ (postprocess p ax config raw).entries, e.row = j) ↔
      p.Extrapolates config mask ∨ ∃ e ∈ raw.entries, e.row = j ∧ 0 < mask e.col := by
  have hne {es : List p.Entry} : (∃ e ∈ es, e.row = j) ↔ row j es ≠ [] := by
    simp only [Ne, List.eq_nil_iff_forall_not_mem, not_forall, not_not, mem_row]
  have hpositive : (∃ e ∈ raw.entries, e.row = j ∧ 0 < mask e.col) ↔
      positive mask (row j raw.entries) ≠ [] := by
    simp only [Ne, List.eq_nil_iff_forall_not_mem, not_forall, not_not, positive, List.mem_filter,
      mem_row, decide_eq_true_eq, gt_iff_lt, and_assoc]
  have hcoastal : p.coastal.cell_mask = some mask := hmask
  rw [hne, hpositive]
  by_cases hwet : positive mask (row j raw.entries) = []
  · show row j (coastal_renormalize_and_extrapolate _ _ _ _ _) ≠ [] ↔ _
    rw [row_of_dry hcoastal hwet]
    have hwet_iff : wet_indices mask ≠ [] ↔ ∃ i, mask i ≠ 0 := by
      simp only [Ne, List.eq_nil_iff_forall_not_mem, not_forall, not_not, mem_wet_indices]
    have hextrapolates : p.Extrapolates config mask ↔
        config.extrap_method = .NearestWet ∧ wet_indices mask ≠ [] :=
      and_congr_right fun _ => hwet_iff.symm
    split
    · next hboth =>
      -- the search finds one of the cells
      obtain ⟨i, hi, _⟩ := exists_nearest_wet ax p.coastal hboth.2 j
      simp [hi, hextrapolates.mpr hboth]
    · next hnot => simp [mt hextrapolates.mp hnot, hwet]
  · show row j (coastal_renormalize_and_extrapolate _ _ _ _ _) ≠ [] ↔ _
    rw [row_of_wet hcoastal hwet]
    simp [hwet]

end Coverage

end Meshes

/-! ## Section 9: A cell and a tower of two -/

/-- Unit squares on top of each other. -/
def tower (n : Nat) (cell_mask : Option (Fin n → Int)) : Mesh where
  n_nodes := 2 * (n + 1)
  n_cells := n
  coords := fun ni => ⟨(ni.val % 2 : Nat), (ni.val / 2 : Nat), 0⟩
  csys := .Cartesian3D
  cells := fun c => [⟨2 * c, by omega⟩, ⟨2 * c + 1, by omega⟩, ⟨2 * c + 3, by omega⟩,
    ⟨2 * c + 2, by omega⟩]
  cell_areas := none
  cell_mask := cell_mask

section
local instance sole_source : NeZero 1 := ⟨Nat.one_ne_zero⟩

/-- A square as the source, and the same square with another on top of it. -/
def square_and_tower (cell_mask : Option (Fin 1 → Int)) : Meshes where
  src := tower 1 cell_mask
  dst := tower 2 none
  geometry :=
    { src_centroid := fun _ => (1 / 2, 1 / 2)
      dst_centroid := fun j => (1 / 2, j.val + 1 / 2)
      src_areas := fun _ _ => 1
      dst_areas := fun _ _ => 1
      src_degenerate := fun _ => false
      dst_degenerate := fun _ => false
      sorted_dst := Schedule.serial 2
      nearest := fun _ k _ => [(0 : Fin 1)].take k
      intersects := fun _ _ => [(0 : Fin 1)]
      overlap_area := fun _ j _ => if j.val = 0 then 1 else 0
      spherical_cap_rejects := fun _ _ => false
      clip := fun _ _ => ⟨[], 0⟩
      compute_polygon_overlap_area := fun j _ => if j.val = 0 then 1 else 0 }

end

/-- Functions that the plane does not use. -/
def planar_env : Env := ⟨id, id, id, fun _ _ => none⟩

def error_config (method : InterpolationMethod) (extrap_method : ExtrapolationAction) :
    RegridConfig where
  norm_type := .DstArea
  line_type := .Cartesian
  unmapped := .Error
  use_limiter := false
  method := method
  extrap_method := extrap_method

theorem required_of_tower (cell_mask : Option (Fin 1 → Int)) (method : InterpolationMethod)
    (extrap_method : ExtrapolationAction) (j : Fin 2) :
    (square_and_tower cell_mask).Required (error_config method extrap_method) j :=
  ⟨rfl, rfl, show (0 : ℚ) < 1 from zero_lt_one⟩

/-- A call on the two squares that gets to its end. -/
def returns {p : Meshes} (result : Outcome String p.Matrix) : Bool :=
  match result with
  | .returned _ => true
  | _ => false

theorem exists_of_returns {p : Meshes} {r : Outcome String p.Matrix}
    (h : returns r = true) : ∃ M, r = .returned M := by
  cases r with
  | thrown e => cases h
  | undefined => cases h
  | returned M => exact ⟨M, rfl⟩

/-- The call returns a matrix with rows of the lower square only. -/
def lower_only {p : Meshes} (result : Outcome String p.Matrix) : Bool :=
  match result with
  | .returned M => M.entries.all (·.row.val = 0)
  | _ => false

theorem uncovered_of_lower_only {cell_mask : Option (Fin 1 → Int)} {method : InterpolationMethod}
    {extrap_method : ExtrapolationAction} {result : Outcome String (square_and_tower cell_mask).Matrix}
    (h : lower_only result = true) : ∃ M, result = .returned M ∧
      ¬ (square_and_tower cell_mask).Covers (error_config method extrap_method) M := by
  cases result with
  | thrown e => cases h
  | undefined => cases h
  | returned M =>
    refine ⟨M, rfl, ?_⟩
    intro hcovers
    obtain ⟨e, he, hrow⟩ := hcovers (1 : Fin 2) (required_of_tower cell_mask method extrap_method 1)
    have hzero := List.all_eq_true.mp h e he
    have hone : e.row.val = 1 := congrArg Fin.val hrow
    rw [hone] at hzero
    exact absurd hzero (by decide)

end Axis.WeightGenerator
