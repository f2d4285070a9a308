import Helm.Amio.NetcdfRead
import Helm.Amio.DriverWrite

/-! # Dimensions of NetCDF files

  `NetCDF_Driver::write` defines a variable when it is written for the first
  time. For every axis it looks for a dimension of the same length in the
  file; of several it takes the one whose name suits the axis best. Without
  one it takes or defines a dimension that is named after the variable and
  the axis. Later writes of the variable go to the dimensions it has.

  The state is the header of the file, its dimensions and variables. What the
  library refuses is part of a call.

  Main result: `writes_keep_iff`.
-/

namespace Amio.NetcdfWrite

open Signed

/-! ## Section 1: Headers -/

abbrev Name := List (BitVec 8)

structure Dim where
  name : Name
  /-- The current length. -/
  length : Nat
  unlimited : Bool
  deriving DecidableEq

structure Var where
  name : Name
  dimids : List Nat
  deriving DecidableEq

structure Header where
  dims : List Dim
  vars : List Var
  deriving DecidableEq

/-- A new file. -/
def Header.empty : Header := ⟨[], []⟩

namespace Header

variable (file : Header)

/-- `nc_inq_varid` -/
def inq_varid (name : Name) : Option Var := file.vars.find? (·.name = name)

/-- `nc_inq_dimid` -/
def inq_dimid (name : Name) : Option Nat := file.dims.findIdx? (·.name = name)

/-- `nc_def_dim`: the new dimension has the next number. -/
def def_dim (dim : Dim) : Header := { file with dims := file.dims ++ [dim] }

/-- `nc_def_var` -/
def def_var (var : Var) : Header := { file with vars := file.vars ++ [var] }

/-- `matching_dimids` with `matching_names` -/
def matching (target_len : Nat) : List (Nat × Name) :=
  file.dims.zipIdx.filterMap fun x =>
    if x.1.length = target_len then some (x.2, x.1.name) else none

/-- The unlimited dimensions of a variable grow with what is written. -/
def grow (var : Var) (count : List Nat) : Header where
  dims := file.dims.mapIdx fun id dim =>
    if dim.unlimited then
      ((var.dimids.zip count).filter (·.1 = id)).foldl
        (fun dim x => { dim with length := max dim.length x.2 }) dim
    else dim
  vars := file.vars

end Header

/-- The calls that the library can refuse. -/
inductive NcCall
  | nc_inq_varid
  | nc_redef
  | nc_def_dim (name : Name)
  | nc_def_var
  | nc_put_att
  | nc_def_var_deflate
  | nc_enddef
  | nc_var_par_access
  | nc_put_vara
  deriving DecidableEq

/-- A call of `write` for a shape that is valid. `refuses` gives the message for
    a call of the library that fails. -/
structure WriteCall where
  info : VarMeta
  use_parallel : Bool
  refuses : NcCall → Option String
  valid : validate_shape info.shape = true

/-! ## Section 2: The dimension of an axis -/

/-- `axis_role` -/
inductive AxisRole
  | none | X | Y | Z | T
  deriving DecidableEq

def axis_role (rank : Int) (d : Nat) : AxisRole :=
  if (d : Int) = rank - 1 then .X
  else if (d : Int) = rank - 2 then .Y
  else if (d : Int) = rank - 3 then .Z
  else if (d : Int) = rank - 4 then .T
  else .none

local instance name_lawful : LawfulBEq (List (BitVec 8)) := inferInstance

/-- The score of a name, by the names and the parts of names that suit. -/
def name_score (names parts : List Name) (name : Name) : Nat :=
  if name ∈ names then 3
  else if parts.any fun part => decide (part <:+: name) then 2
  else if text "dim" <:+: name then 1
  else 0

def score (role : AxisRole) (name : Name) : Nat :=
  match role with
  | .X => name_score [text "lon", text "x"] [text "lon", text "x"] name
  | .Y => name_score [text "lat", text "y"] [text "lat", text "y"] name
  | .Z => name_score [text "lev", text "z", text "level"] [text "lev", text "z"] name
  | .T => name_score [text "time", text "t"] [text "time", text "t"] name
  | .none => 0

/-- `best_score` and `best_dimid` after one more candidate. -/
def better (role : AxisRole) (best : Option (Nat × Nat)) (candidate : Nat × Name) :
    Option (Nat × Nat) :=
  match best with
  | none => some (score role candidate.2, candidate.1)
  | some (best_score, best_dimid) =>
    if score role candidate.2 > best_score then some (score role candidate.2, candidate.1)
    else some (best_score, best_dimid)

/-- The dimension that the file already has for an axis. -/
def Header.shared (file : Header) (role : AxisRole) (target_len : Nat) : Option Nat :=
  match file.matching target_len with
  | [] => none
  | [candidate] => some candidate.1
  | candidates => (candidates.foldl (better role) none).map (·.2)

/-- The names of coordinate variables. -/
def is_coordinate (name : Name) : Bool :=
  name = text "lon" ∨ name = text "lat" ∨ name = text "lev" ∨ name = text "time"

section Axes

variable (info : VarMeta)

def target_len (d : Fin kMaxRank) : Nat := (info.shape.extents d).toNat

def dim_name (d : Fin kMaxRank) : Name :=
  if is_coordinate info.name ∧ info.shape.rank = 1 then info.name
  else info.name ++ text "_dim" ++ text (toString d.val)

/-- The search for a dimension to share; coordinate variables have none. -/
def found_shared (file : Header) (d : Fin kMaxRank) : Option Nat :=
  if is_coordinate info.name then none
  else file.shared (axis_role info.shape.rank d) (target_len info d)

/-- The dimension of the axis `d` when it is defined. The dimension called "time"
    is the record dimension. -/
def default_dim (d : Fin kMaxRank) : Dim :=
  if dim_name info d = text "time" then ⟨dim_name info d, 0, true⟩
  else ⟨dim_name info d, target_len info d, false⟩

end Axes

variable (call : WriteCall)

/-- One iteration of the loop over the axes. -/
def axis_dim (file : Header) (d : Fin kMaxRank) : Except String Nat × Header :=
  match found_shared call.info file d with
  | some existing_dimid => (.ok existing_dimid, file)
  | none =>
    match file.inq_dimid (dim_name call.info d) with
    | some existing_dimid => (.ok existing_dimid, file)
    | none =>
      match call.refuses (.nc_def_dim (dim_name call.info d)) with
      | some error => (.error error, file)
      | none => (.ok file.dims.length, file.def_dim (default_dim call.info d))

/-- The loop over the axes. -/
def axis_dims (file : Header) : List (Fin kMaxRank) → Except String (List Nat) × Header
  | [] => (.ok [], file)
  | d :: ds =>
    match axis_dim call file d with
    | (.error error, file) => (.error error, file)
    | (.ok dimid, file) =>
      match axis_dims file ds with
      | (.error error, file) => (.error error, file)
      | (.ok dimids, file) => (.ok (dimid :: dimids), file)

/-! ## Section 3: `write` -/

/-- Define the variable. -/
def define_variable (file : Header) : Except String Var × Header :=
  match call.refuses .nc_redef with
  | some error => (.error error, file)
  | none =>
    match axis_dims call file call.info.shape.dims with
    | (.error error, file) => (.error error, file)
    | (.ok dimids, file) =>
      match NetCDF_Driver.dtype_to_nc_type call.info.dtype with
      | .thrown error => (.error error, file)
      | .undefined => (.error "", file)
      | .returned _ =>
        match call.refuses .nc_def_var with
        | some error => (.error error, file)
        | none =>
          let var := ⟨call.info.name, dimids⟩
          let file := file.def_var var
          -- attributes, compression and the end of the definitions
          match call.refuses .nc_put_att, call.refuses .nc_def_var_deflate,
              call.refuses .nc_enddef with
          | some error, _, _ => (.error error, file)
          | none, some error, _ => (.error error, file)
          | none, none, some error => (.error error, file)
          | none, none, none => (.ok var, file)

/-- The arguments of a call of `nc_put_vara`, with the variable it writes to. -/
structure PutVara where
  var : Var
  start : List Nat
  count : List Nat
  deriving DecidableEq

/-- What a call leaves behind. -/
structure Written where
  file : Header
  put_vara : Option PutVara
  outcome : Outcome String Unit

/-- The library reads as many counts as the variable has dimensions, and writes
    nothing beyond a dimension that is not unlimited. -/
def nc_put_vara (file : Header) (args : PutVara) : Outcome String Unit × Header :=
  if args.count.length < args.var.dimids.length then (.undefined, file)
  else
    match call.refuses .nc_put_vara with
    | some error => (.thrown error, file)
    | none =>
      if (args.var.dimids.zip args.count).any fun x =>
          file.dims.zipIdx.any fun y => y.2 = x.1 ∧ !y.1.unlimited ∧ y.1.length < x.2 then
        (.thrown "NC_EEDGE", file)
      else (.returned (), file.grow args.var args.count)

/-- The second part of `write`: the data. -/
def write_data (file : Header) (var : Var) : Written :=
  match (if call.use_parallel then call.refuses .nc_var_par_access else none) with
  | some error => ⟨file, none, .thrown error⟩
  | none =>
    let args : PutVara :=
      { var, start := List.replicate call.info.shape.rank.toNat 0, count := call.info.shape.sizes }
    let (outcome, file) := nc_put_vara call file args
    ⟨file, some args, outcome⟩

/-- `NetCDF_Driver::write` -/
def write (file : Header) : Written :=
  match call.refuses .nc_inq_varid with
  | some error => ⟨file, none, .thrown error⟩
  | none =>
    match file.inq_varid call.info.name with
    | some var => write_data call file var
    | none =>
      match define_variable call file with
      | (.error error, file) => ⟨file, none, .thrown error⟩
      | (.ok var, file) => write_data call file var

/-! ## Section 4: The promise -/

/-- A dimension for an axis: it has the extent of the axis, or is the unlimited
    time dimension. -/
def DimOf (dim : Dim) (extent : Nat) : Prop :=
  dim.length = extent ∨ dim.unlimited = true ∧ dim.name = text "time"

/-- The dimensions of a variable fit a shape: one for each axis and no two axes
    with the same. -/
structure Fits (file : Header) (var : Var) (shape : AmioShape) : Prop where
  lengths : List.Forall₂ (fun id extent => ∃ dim, file.dims[id]? = some dim ∧ DimOf dim extent)
    var.dimids shape.sizes
  nodup : var.dimids.Nodup

/-- What a call keeps. -/
structure Kept (file : Header) : Prop where
  /-- A variable that is defined fits the shape. -/
  defined : file.inq_varid call.info.name = none →
    ∀ var, (write call file).file.inq_varid call.info.name = some var →
      Fits (write call file).file var call.info.shape
  /-- The arrays have the rank of the variable. -/
  arrays : ∀ args, (write call file).put_vara = some args →
    args.start.length = args.var.dimids.length ∧ args.count.length = args.var.dimids.length
  /-- Another rank is rejected. -/
  rejected : ∀ var, file.inq_varid call.info.name = some var →
    var.dimids.length ≠ call.info.shape.sizes.length →
      ∃ error, (write call file).outcome = .thrown error

/-! ## Section 5: When it is kept -/

/-- The axis `d` gets a new dimension. -/
def NeedsDim (info : VarMeta) (file : Header) (d : Fin kMaxRank) : Prop :=
  file.inq_dimid (dim_name info d) = none ∧
  (is_coordinate info.name = false →
    file.matching (target_len info d) = [] ∧
    -- no axis before it has made one of this length
    ∀ d' ∈ info.shape.dims, d' < d → target_len info d' = target_len info d →
      file.inq_dimid (dim_name info d') ≠ none)

/-- The definition of the variable is refused. -/
def Refused (file : Header) : Prop :=
  call.refuses .nc_redef ≠ none ∨
  (∃ d ∈ call.info.shape.dims,
    NeedsDim call.info file d ∧ call.refuses (.nc_def_dim (dim_name call.info d)) ≠ none) ∨
  (∃ tag, call.info.dtype = .unknown tag) ∨
  call.refuses .nc_def_var ≠ none

/-- The dimensions in the file leave a place for every axis. -/
structure Separate (info : VarMeta) (file : Header) : Prop where
  /-- An axis without a dimension of its length finds its own name free. -/
  free : ∀ d ∈ info.shape.dims,
    is_coordinate info.name = false → file.matching (target_len info d) = [] →
      file.inq_dimid (dim_name info d) = none
  /-- A coordinate finds its name free, or with its length. -/
  own : ∀ d ∈ info.shape.dims, is_coordinate info.name = true →
    ∀ id dim, file.inq_dimid (dim_name info d) = some id → file.dims[id]? = some dim →
      DimOf dim (target_len info d)
  /-- Two axes of one length have different dimensions in the file already. -/
  apart : ∀ d ∈ info.shape.dims, ∀ d' ∈ info.shape.dims, d ≠ d' →
    is_coordinate info.name = false → target_len info d = target_len info d' →
      file.shared (axis_role info.shape.rank d) (target_len info d) ≠
        file.shared (axis_role info.shape.rank d') (target_len info d)

/-- The condition of a call. -/
def Met (file : Header) : Prop :=
  call.refuses .nc_inq_varid ≠ none ∨
  match file.inq_varid call.info.name with
  | some var =>
    var.dimids.length = call.info.shape.sizes.length ∨
      (call.use_parallel = true ∧ call.refuses .nc_var_par_access ≠ none)
  | none => Refused call file ∨ Separate call.info file

/-! ## Section 6: The search -/

section Search

variable {file : Header} {role : AxisRole} {len id : Nat}

theorem mem_matching {name : Name} : (id, name) ∈ file.matching len ↔
    ∃ dim, file.dims[id]? = some dim ∧ dim.length = len ∧ dim.name = name := by
  unfold Header.matching
  rw [List.mem_filterMap]
  constructor
  · intro ⟨x, hx, hsome⟩
    split at hsome
    · next hlen =>
      cases hsome
      exact ⟨x.1, List.mem_zipIdx_iff_getElem?.mp hx, hlen, rfl⟩
    · cases hsome
  · intro ⟨dim, hdim, hlen, hname⟩
    refine ⟨(dim, id), List.mem_zipIdx_iff_getElem?.mpr hdim, ?_⟩
    rw [if_pos hlen, hname]

theorem matching_def_dim (dim : Dim) : (file.def_dim dim).matching len =
    if dim.length = len then file.matching len ++ [(file.dims.length, dim.name)]
    else file.matching len := by
  unfold Header.matching Header.def_dim
  dsimp only
  rw [List.zipIdx_append, List.filterMap_append]
  split
  · next h => simp [h]
  · next h => simp [h]

theorem exists_best (best : Option (Nat × Nat)) {candidates : List (Nat × Name)}
    (h : candidates ≠ [] ∨ best ≠ none) :
    ∃ pair, candidates.foldl (better role) best = some pair ∧
      ((∃ c ∈ candidates, c.1 = pair.2) ∨ ∃ b, best = some b ∧ b.2 = pair.2) := by
  induction candidates generalizing best with
  | nil =>
    obtain ⟨b, hb⟩ := Option.ne_none_iff_exists'.mp (h.resolve_left (not_not.mpr rfl))
    exact ⟨b, hb, Or.inr ⟨b, hb, rfl⟩⟩
  | cons c cs ih =>
    rw [List.foldl_cons]
    have hstep : better role best c ≠ none := by
      unfold better
      split
      · exact Option.some_ne_none _
      · split <;> exact Option.some_ne_none _
    obtain ⟨pair, hpair, hfrom⟩ := ih (better role best c) (Or.inr hstep)
    refine ⟨pair, hpair, ?_⟩
    obtain ⟨c', hc', heq⟩ | ⟨b, hb, heq⟩ := hfrom
    · exact Or.inl ⟨c', List.mem_cons_of_mem c hc', heq⟩
    · -- the best after one candidate is that candidate or the best before
      unfold better at hb
      split at hb
      · cases hb
        exact Or.inl ⟨c, List.mem_cons_self, heq⟩
      · split at hb
        · cases hb
          exact Or.inl ⟨c, List.mem_cons_self, heq⟩
        · cases hb
          exact Or.inr ⟨_, rfl, heq⟩

theorem shared_eq_none : file.shared role len = none ↔ file.matching len = [] := by
  unfold Header.shared
  split
  · next h => simp [h]
  · next h => simp [h]
  · next _ hnil _ =>
    obtain ⟨pair, hpair, _⟩ := @exists_best role none (file.matching len) (Or.inl hnil)
    rw [hpair]
    simpa using hnil

theorem mem_of_shared (h : file.shared role len = some id) :
    ∃ dim, file.dims[id]? = some dim ∧ dim.length = len := by
  have hmem : ∃ c ∈ file.matching len, c.1 = id := by
    unfold Header.shared at h
    split at h
    · cases h
    · next c hc =>
      cases h
      exact ⟨c, hc ▸ List.mem_singleton_self c, rfl⟩
    · next _ hnil _ =>
      obtain ⟨pair, hpair, hfrom⟩ := @exists_best role none (file.matching len) (Or.inl hnil)
      rw [hpair] at h
      cases h
      obtain hc | ⟨b, hb, _⟩ := hfrom
      · exact hc
      · cases hb
  obtain ⟨⟨i, name⟩, hc, rfl⟩ := hmem
  obtain ⟨dim, hdim, hlen, _⟩ := mem_matching.mp hc
  exact ⟨dim, hdim, hlen⟩

theorem shared_of_single {c : Nat × Name} (h : file.matching len = [c]) :
    file.shared role len = some c.1 := by
  unfold Header.shared
  rw [h]

theorem shared_congr {file' : Header} (h : file'.matching len = file.matching len) :
    file'.shared role len = file.shared role len := by
  unfold Header.shared
  rw [h]

end Search

/-! ## Section 7: Names -/

section Names

variable {info : VarMeta}

theorem mem_dims {shape : AmioShape} {d : Fin kMaxRank} :
    d ∈ shape.dims ↔ (d.val : Int) < shape.rank := by
  simp [AmioShape.dims]

theorem nodup_dims (shape : AmioShape) : shape.dims.Nodup :=
  (List.nodup_finRange kMaxRank).filter _

theorem text_axis_inj : ∀ d d' : Fin kMaxRank, text (toString d.val) = text (toString d'.val) → d = d' := by
  decide +kernel

theorem dim_name_inj {d d' : Fin kMaxRank} (hd : d ∈ info.shape.dims) (hd' : d' ∈ info.shape.dims)
    (h : dim_name info d = dim_name info d') : d = d' := by
  unfold dim_name at h
  split at h
  · next hshort =>
    have hlt := mem_dims.mp hd
    have hlt' := mem_dims.mp hd'
    apply Fin.ext
    omega
  · exact text_axis_inj d d' (List.append_cancel_left h)

theorem not_suffix_time : ∀ d : Fin kMaxRank, ¬ text (toString d.val) <:+ text "time" := by
  decide +kernel

theorem dim_name_ne_time (h : is_coordinate info.name = false) (d : Fin kMaxRank) :
    dim_name info d ≠ text "time" := by
  intro heq
  unfold dim_name at heq
  rw [if_neg (by simp [h])] at heq
  exact not_suffix_time d (heq ▸ List.suffix_append _ _)

theorem default_dim_name (d : Fin kMaxRank) : (default_dim info d).name = dim_name info d := by
  unfold default_dim
  split <;> rfl

theorem default_dim_eq (h : is_coordinate info.name = false) (d : Fin kMaxRank) :
    default_dim info d = ⟨dim_name info d, target_len info d, false⟩ :=
  if_neg (dim_name_ne_time h d)

theorem dimOf_default_dim (d : Fin kMaxRank) : DimOf (default_dim info d) (target_len info d) := by
  unfold default_dim DimOf
  split
  · next h => exact Or.inr ⟨rfl, h⟩
  · exact Or.inl rfl

variable {file file' : Header}

theorem dims_of_inq_dimid {name : Name} {id : Nat} (h : file.inq_dimid name = some id) :
    ∃ dim, file.dims[id]? = some dim ∧ dim.name = name := by
  obtain ⟨hlt, hname, _⟩ := List.findIdx?_eq_some_iff_getElem.mp h
  exact ⟨_, List.getElem?_eq_getElem hlt, of_decide_eq_true hname⟩

theorem inq_dimid_append {name : Name} {new : List Dim} (hdims : file'.dims = file.dims ++ new)
    (hnew : ∀ dim ∈ new, dim.name ≠ name) : file'.inq_dimid name = file.inq_dimid name := by
  unfold Header.inq_dimid
  have hnone : new.findIdx? (fun dim => decide (dim.name = name)) = none := by
    rw [List.findIdx?_eq_none_iff]
    exact fun dim hdim => decide_eq_false (hnew dim hdim)
  rw [hdims, List.findIdx?_append, hnone]
  simp

theorem inq_dimid_none_of_append {name : Name} {new : List Dim}
    (hdims : file'.dims = file.dims ++ new) (h : file'.inq_dimid name = none) :
    file.inq_dimid name = none := by
  unfold Header.inq_dimid at h ⊢
  rw [hdims, List.findIdx?_append, Option.or_eq_none_iff] at h
  exact h.1

end Names

/-! ## Section 8: The loop over the axes -/

/-- What the loop over some axes does to the header. -/
structure Extends (info : VarMeta) (axes : List (Fin kMaxRank)) (file file' : Header) : Prop where
  vars : file'.vars = file.vars
  dims : ∃ new, file'.dims = file.dims ++ new ∧
    ∀ dim ∈ new, ∃ d ∈ axes, dim = default_dim info d
  /-- A search finds what it found before, or the one dimension that is new. -/
  matching : is_coordinate info.name = false → ∀ len,
    file'.matching len = file.matching len ∨
    file.matching len = [] ∧ (∃ m, file'.matching len = [m]) ∧
      ∃ d ∈ axes, target_len info d = len ∧ file.inq_dimid (dim_name info d) = none

/-- Where the dimension of an axis comes from, for a loop from `file` to
    `file'`. -/
inductive Placed (info : VarMeta) (file file' : Header) (d : Fin kMaxRank) (id : Nat) : Prop
  /-- The search finds it at the end of the loop. -/
  | shared (hname : is_coordinate info.name = false)
      (h : file'.shared (axis_role info.shape.rank d) (target_len info d) = some id)
  /-- It had the name of the axis already. -/
  | own (hnone : found_shared info file d = none)
      (h : file.inq_dimid (dim_name info d) = some id)
  /-- It is new, for a coordinate. -/
  | new (hname : is_coordinate info.name = true)
      (hfree : file.inq_dimid (dim_name info d) = none)
      (h : file'.dims[id]? = some (default_dim info d))

section Loop

variable {call} {info : VarMeta} {file file₁ file₂ : Header} {axes axes' : List (Fin kMaxRank)}

theorem found_shared_of_not (h : is_coordinate info.name = false) (d : Fin kMaxRank) :
    found_shared info file d = file.shared (axis_role info.shape.rank d) (target_len info d) := by
  rw [found_shared, h]
  rfl

theorem found_shared_eq_none (h : is_coordinate info.name = false) {d : Fin kMaxRank} :
    found_shared info file d = none ↔ file.matching (target_len info d) = [] := by
  rw [found_shared_of_not h, shared_eq_none]

theorem Extends.refl (axes : List (Fin kMaxRank)) : Extends info axes file file where
  vars := rfl
  dims := ⟨[], (List.append_nil _).symm, fun _ h => absurd h List.not_mem_nil⟩
  matching _ _ := Or.inl rfl

theorem Extends.trans (h : Extends info axes file file₁) (h' : Extends info axes' file₁ file₂) :
    Extends info (axes ++ axes') file file₂ where
  vars := h'.vars.trans h.vars
  dims := by
    obtain ⟨new, hdims, hnew⟩ := h.dims
    obtain ⟨new', hdims', hnew'⟩ := h'.dims
    refine ⟨new ++ new', by rw [hdims', hdims, List.append_assoc], ?_⟩
    intro dim hdim
    obtain hdim | hdim := List.mem_append.mp hdim
    · obtain ⟨d, hd, heq⟩ := hnew dim hdim
      exact ⟨d, List.mem_append_left _ hd, heq⟩
    · obtain ⟨d, hd, heq⟩ := hnew' dim hdim
      exact ⟨d, List.mem_append_right _ hd, heq⟩
  matching := by
    intro hname len
    obtain ⟨new, hdims, _⟩ := h.dims
    obtain hfirst | ⟨hnil, ⟨m, hm⟩, d, hd, hrest⟩ := h.matching hname len
    · obtain hsecond | ⟨hnil, hone, d, hd, hlen, hfree⟩ := h'.matching hname len
      · exact Or.inl (hsecond.trans hfirst)
      · exact Or.inr ⟨hfirst ▸ hnil, hone, d, List.mem_append_right _ hd, hlen,
          inq_dimid_none_of_append hdims hfree⟩
    · obtain hsecond | ⟨hnil', _⟩ := h'.matching hname len
      · exact Or.inr ⟨hnil, ⟨m, hsecond.trans hm⟩, d, List.mem_append_left _ hd, hrest⟩
      · -- nothing is added where the search has found something
        rw [hm] at hnil'
        cases hnil'

theorem Extends.shared (h : Extends info axes file file₁) (hname : is_coordinate info.name = false)
    {role : AxisRole} {len id : Nat} (hfound : file.shared role len = some id) :
    file₁.shared role len = some id := by
  obtain hsame | ⟨hnil, _⟩ := h.matching hname len
  · rw [shared_congr hsame, hfound]
  · rw [shared_eq_none.mpr hnil] at hfound
    cases hfound

theorem Extends.getElem (h : Extends info axes file file₁) {id : Nat} {dim : Dim}
    (hdim : file.dims[id]? = some dim) : file₁.dims[id]? = some dim := by
  obtain ⟨new, hdims, _⟩ := h.dims
  obtain ⟨hlt, _⟩ := List.getElem?_eq_some_iff.mp hdim
  rw [hdims, List.getElem?_append_left hlt, hdim]

theorem Extends.inq_dimid (h : Extends info axes file file₁) (haxes : ∀ d ∈ axes, d ∈ info.shape.dims)
    {d : Fin kMaxRank} (hd : d ∈ info.shape.dims) (hfresh : d ∉ axes) :
    file₁.inq_dimid (dim_name info d) = file.inq_dimid (dim_name info d) := by
  obtain ⟨new, hdims, hnew⟩ := h.dims
  apply inq_dimid_append hdims
  intro dim hdim heq
  obtain ⟨d', hd', rfl⟩ := hnew dim hdim
  rw [default_dim_name] at heq
  exact hfresh (dim_name_inj (haxes d' hd') hd heq ▸ hd')

/-- One iteration. -/
theorem axis_dim_ok {d : Fin kMaxRank} {id : Nat} (h : axis_dim call file d = (.ok id, file₁)) :
    Extends call.info [d] file file₁ ∧ Placed call.info file file₁ d id := by
  unfold axis_dim at h
  split at h
  · next existing hfound =>
    cases h
    refine ⟨Extends.refl [d], ?_⟩
    cases hname : is_coordinate call.info.name with
    | false =>
      rw [found_shared_of_not hname] at hfound
      exact .shared hname hfound
    | true =>
      rw [found_shared, hname] at hfound
      cases hfound
  · next hnone =>
    split at h
    · next existing hown =>
      cases h
      exact ⟨Extends.refl [d], .own hnone hown⟩
    · next hfree =>
      split at h
      · cases h
      · cases h
        constructor
        · refine ⟨rfl, ⟨_, rfl, fun dim hdim => ⟨d, List.mem_singleton_self d,
            List.mem_singleton.mp hdim⟩⟩, ?_⟩
          intro hname len
          have hnil := (found_shared_eq_none hname).mp hnone
          rw [matching_def_dim, default_dim_eq hname]
          by_cases hlen : target_len call.info d = len
          · rw [if_pos hlen, ← hlen, hnil]
            exact Or.inr ⟨rfl, ⟨_, rfl⟩, d, List.mem_singleton_self d, rfl, hfree⟩
          · rw [if_neg hlen]
            exact Or.inl rfl
        · cases hname : is_coordinate call.info.name with
          | false =>
            apply Placed.shared hname
            have hnil := (found_shared_eq_none hname).mp hnone
            have hone : (file.def_dim (default_dim call.info d)).matching (target_len call.info d) =
                [(file.dims.length, dim_name call.info d)] := by
              rw [matching_def_dim, default_dim_eq hname, if_pos rfl, hnil, List.nil_append]
            rw [shared_of_single hone]
          | true =>
            apply Placed.new hname hfree
            rw [Header.def_dim, List.getElem?_concat_length]

theorem Placed.later {d : Fin kMaxRank} {id : Nat} (h : Placed info file file₁ d id)
    (hext : Extends info axes file₁ file₂) : Placed info file file₂ d id := by
  cases h with
  | shared hname h => exact .shared hname (hext.shared hname h)
  | own hnone h => exact .own hnone h
  | new hname hfree h => exact .new hname hfree (hext.getElem h)

theorem Placed.earlier {d : Fin kMaxRank} {id : Nat} (h : Placed info file₁ file₂ d id)
    (hext : Extends info axes file file₁) (haxes : ∀ d ∈ axes, d ∈ info.shape.dims)
    (hd : d ∈ info.shape.dims) (hfresh : d ∉ axes) : Placed info file file₂ d id := by
  cases h with
  | shared hname h => exact .shared hname h
  | new hname hfree h =>
    obtain ⟨new, hdims, _⟩ := hext.dims
    exact .new hname (inq_dimid_none_of_append hdims hfree) h
  | own hnone h =>
    apply Placed.own
    · cases hname : is_coordinate info.name with
      | true =>
        rw [found_shared, hname]
        rfl
      | false =>
        have hnil := (found_shared_eq_none hname).mp hnone
        apply (found_shared_eq_none hname).mpr
        obtain hsame | ⟨hfile, _⟩ := hext.matching hname (target_len info d)
        · rw [← hsame, hnil]
        · exact hfile
    · rw [← hext.inq_dimid haxes hd hfresh, h]

theorem axis_dims_ok (haxes : ∀ d ∈ axes, d ∈ call.info.shape.dims) (hnodup : axes.Nodup)
    {ids : List Nat} (h : axis_dims call file axes = (.ok ids, file₂)) :
    Extends call.info axes file file₂ ∧ List.Forall₂ (Placed call.info file file₂) axes ids := by
  induction axes generalizing file ids with
  | nil =>
    cases h
    exact ⟨Extends.refl [], List.Forall₂.nil⟩
  | cons d ds ih =>
    obtain ⟨hfresh, hnodup⟩ := List.nodup_cons.mp hnodup
    have hd := haxes d List.mem_cons_self
    have hds : ∀ d' ∈ ds, d' ∈ call.info.shape.dims :=
      fun d' h => haxes d' (List.mem_cons_of_mem d h)
    rw [axis_dims] at h
    split at h
    · cases h
    · next id file₁ hstep =>
      split at h
      · cases h
      · next ids' file' hrest =>
        cases h
        obtain ⟨hext, hplaced⟩ := axis_dim_ok hstep
        obtain ⟨hexts, hall⟩ := ih hds hnodup hrest
        refine ⟨hext.trans hexts, List.Forall₂.cons (hplaced.later hexts) ?_⟩
        -- what the rest finds in `file₁` it finds in `file`
        have hsingle : ∀ d' ∈ [d], d' ∈ call.info.shape.dims := by
          intro d' hd'
          rw [List.mem_singleton.mp hd']
          exact hd
        apply List.forall₂_iff_zip.mpr
        refine ⟨hall.length_eq, fun {d' id'} hmem => ?_⟩
        have hd' := (List.of_mem_zip hmem).1
        apply ((List.forall₂_iff_zip.mp hall).2 hmem).earlier hext hsingle (hds d' hd')
        intro heq
        rw [List.mem_singleton.mp heq] at hd'
        exact hfresh hd'

theorem axis_dims_append_ok {pre post : List (Fin kMaxRank)} {ids : List Nat}
    (h : axis_dims call file (pre ++ post) = (.ok ids, file₂)) :
    ∃ ids₁ ids₂ file₁, axis_dims call file pre = (.ok ids₁, file₁) ∧
      axis_dims call file₁ post = (.ok ids₂, file₂) := by
  induction pre generalizing file ids with
  | nil => exact ⟨[], ids, file, rfl, h⟩
  | cons d ds ih =>
    rw [List.cons_append, axis_dims] at h
    split at h
    · cases h
    · next id file' hstep =>
      split at h
      · cases h
      · next ids' file'' hrest =>
        cases h
        obtain ⟨ids₁, ids₂, file₁, hfirst, hsecond⟩ := ih hrest
        refine ⟨id :: ids₁, ids₂, file₁, ?_, hsecond⟩
        rw [axis_dims, hstep]
        dsimp only
        rw [hfirst]

theorem axis_dims_error {error : String}
    (h : axis_dims call file axes = (.error error, file₂)) :
    ∃ pre d post ids file₁, axes = pre ++ d :: post ∧
      axis_dims call file pre = (.ok ids, file₁) ∧ axis_dim call file₁ d = (.error error, file₂) := by
  induction axes generalizing file with
  | nil => cases h
  | cons d ds ih =>
    rw [axis_dims] at h
    split at h
    · next error' file' hstep =>
      cases h
      exact ⟨[], d, ds, [], file, rfl, rfl, hstep⟩
    · next id file' hstep =>
      split at h
      · next error' file'' hrest =>
        cases h
        obtain ⟨pre, d', post, ids, file₁, rfl, hpre, hfail⟩ := ih hrest
        refine ⟨d :: pre, d', post, id :: ids, file₁, rfl, ?_, hfail⟩
        rw [axis_dims, hstep]
        dsimp only
        rw [hpre]
      · cases h

theorem axis_dim_error {d : Fin kMaxRank} {error : String}
    (h : axis_dim call file d = (.error error, file₁)) :
    file₁ = file ∧ found_shared call.info file d = none ∧
      file.inq_dimid (dim_name call.info d) = none ∧
      call.refuses (.nc_def_dim (dim_name call.info d)) = some error := by
  unfold axis_dim at h
  split at h
  · cases h
  · next hnone =>
    split at h
    · cases h
    · next hfree =>
      split at h
      · next error' hrefused =>
        cases h
        exact ⟨rfl, hnone, hfree, hrefused⟩
      · cases h

theorem exists_right {α β : Type} {R : α → β → Prop} {as : List α} {bs : List β}
    (h : List.Forall₂ R as bs) {a : α} (ha : a ∈ as) : ∃ b ∈ bs, R a b := by
  induction h with
  | nil => cases ha
  | cons hfirst _ ih =>
    obtain rfl | hrest := List.mem_cons.mp ha
    · exact ⟨_, List.mem_cons_self, hfirst⟩
    · obtain ⟨b, hb, hab⟩ := ih hrest
      exact ⟨b, List.mem_cons_of_mem _ hb, hab⟩

theorem mem_of_dims_eq {shape : AmioShape} {pre post : List (Fin kMaxRank)} {d e : Fin kMaxRank}
    (hdims : shape.dims = pre ++ d :: post) : e ∈ pre ↔ e ∈ shape.dims ∧ e < d := by
  have hsorted : shape.dims.Pairwise (· < ·) := (List.pairwise_lt_finRange kMaxRank).filter _
  rw [hdims] at hsorted ⊢
  obtain ⟨_, hpost, hpre⟩ := List.pairwise_append.mp hsorted
  constructor
  · intro h
    exact ⟨List.mem_append_left _ h, hpre e h d List.mem_cons_self⟩
  · intro ⟨hmem, hlt⟩
    obtain h | h := List.mem_append.mp hmem
    · exact h
    · exfalso
      obtain rfl | h := List.mem_cons.mp h
      · exact lt_irrefl _ hlt
      · exact lt_asymm hlt ((List.pairwise_cons.mp hpost).1 e h)

theorem loop_before {pre post : List (Fin kMaxRank)} {d : Fin kMaxRank} {ids : List Nat}
    (hdims : call.info.shape.dims = pre ++ d :: post)
    (h : axis_dims call file pre = (.ok ids, file₁)) :
    Extends call.info pre file file₁ ∧ List.Forall₂ (Placed call.info file file₁) pre ids := by
  have hnodup := nodup_dims call.info.shape
  rw [hdims] at hnodup
  exact axis_dims_ok (fun d' hd' => ((mem_of_dims_eq hdims).mp hd').1) hnodup.of_append_left h

theorem needsDim_of_error {error : String}
    (h : axis_dims call file call.info.shape.dims = (.error error, file₂)) :
    (∃ axes, Extends call.info axes file file₂) ∧ ∃ d ∈ call.info.shape.dims,
      NeedsDim call.info file d ∧ call.refuses (.nc_def_dim (dim_name call.info d)) ≠ none := by
  obtain ⟨pre, d, post, ids, file₁, hdims, hpre, hfail⟩ := axis_dims_error h
  obtain ⟨rfl, hnone, hfree, hrefused⟩ := axis_dim_error hfail
  obtain ⟨hext, hplaced⟩ := loop_before hdims hpre
  obtain ⟨new, hnew, _⟩ := hext.dims
  have hd : d ∈ call.info.shape.dims := hdims ▸ List.mem_append_right _ List.mem_cons_self
  refine ⟨⟨pre, hext⟩, d, hd, ⟨inq_dimid_none_of_append hnew hfree, ?_⟩, ?_⟩
  · intro hname
    have hnil := (found_shared_eq_none hname).mp hnone
    constructor
    · obtain hsame | ⟨hfile, _⟩ := hext.matching hname (target_len call.info d)
      · rw [← hsame, hnil]
      · exact hfile
    · intro d' hd' hlt hlen
      obtain ⟨id', _, hplaced'⟩ := exists_right hplaced ((mem_of_dims_eq hdims).mpr ⟨hd', hlt⟩)
      cases hplaced' with
      | shared _ h =>
        -- the search for `d` would find it
        rw [hlen, shared_eq_none.mpr hnil] at h
        cases h
      | own _ h =>
        rw [h]
        exact Option.some_ne_none id'
      | new hcoord _ _ =>
        rw [hcoord] at hname
        cases hname
  · rw [hrefused]
    exact Option.some_ne_none error

theorem error_of_needsDim {d : Fin kMaxRank} (hd : d ∈ call.info.shape.dims)
    (hneeds : NeedsDim call.info file d)
    (hrefused : call.refuses (.nc_def_dim (dim_name call.info d)) ≠ none) :
    ∃ error file₂, axis_dims call file call.info.shape.dims = (.error error, file₂) := by
  obtain ⟨pre, post, hdims⟩ := List.append_of_mem hd
  cases hloop : axis_dims call file call.info.shape.dims with
  | mk result file₂ =>
    cases result with
    | error error => exact ⟨error, file₂, rfl⟩
    | ok ids =>
      exfalso
      rw [hdims] at hloop
      obtain ⟨ids₁, ids₂, file₁, hpre, hrest⟩ := axis_dims_append_ok hloop
      obtain ⟨hext, _⟩ := loop_before hdims hpre
      have hbefore := fun e => mem_of_dims_eq (e := e) hdims
      -- the axis is reached without a dimension for it
      have hfree : file₁.inq_dimid (dim_name call.info d) = none := by
        rw [hext.inq_dimid (fun d' hd' => ((hbefore d').mp hd').1) hd
          fun hmem => lt_irrefl _ ((hbefore d).mp hmem).2]
        exact hneeds.1
      have hnone : found_shared call.info file₁ d = none := by
        cases hname : is_coordinate call.info.name with
        | true =>
          rw [found_shared, hname]
          rfl
        | false =>
          obtain ⟨hnil, hothers⟩ := hneeds.2 hname
          apply (found_shared_eq_none hname).mpr
          obtain hsame | ⟨_, _, d', hd', hlen, hfree'⟩ := hext.matching hname (target_len call.info d)
          · rw [hsame, hnil]
          · obtain ⟨hmem, hlt⟩ := (hbefore d').mp hd'
            exact absurd hfree' (hothers d' hmem hlt hlen)
      obtain ⟨error, herror⟩ := Option.ne_none_iff_exists'.mp hrefused
      rw [axis_dims, axis_dim, hnone] at hrest
      dsimp only at hrest
      rw [hfree] at hrest
      dsimp only at hrest
      rw [herror] at hrest
      cases hrest

end Loop

/-! ## Section 9: The dimensions of the variable -/

section Pairs

variable {α β : Type} {R : α → β → Prop} {as : List α} {bs : List β}

theorem nodup_right (h : List.Forall₂ R as bs) (has : as.Nodup)
    (hinj : ∀ a ∈ as, ∀ a' ∈ as, a ≠ a' → ∀ b b', R a b → R a' b' → b ≠ b') : bs.Nodup := by
  induction h with
  | nil => exact List.nodup_nil
  | cons hfirst hrest ih =>
    obtain ⟨hfresh, has⟩ := List.nodup_cons.mp has
    apply List.nodup_cons.mpr
    constructor
    · intro hmem
      obtain ⟨a', ha', hab⟩ := exists_right hrest.flip hmem
      apply hinj _ List.mem_cons_self a' (List.mem_cons_of_mem _ ha') _ _ _ hfirst hab rfl
      intro heq
      exact hfresh (heq ▸ ha')
    · exact ih has fun a ha a' ha' =>
        hinj a (List.mem_cons_of_mem _ ha) a' (List.mem_cons_of_mem _ ha')

theorem exists_pair (h : List.Forall₂ R as bs) (hbs : bs.Nodup) {a a' : α} (ha : a ∈ as)
    (ha' : a' ∈ as) (hne : a ≠ a') : ∃ b b', R a b ∧ R a' b' ∧ b ≠ b' := by
  induction h with
  | nil => cases ha
  | cons hfirst hrest ih =>
    obtain ⟨hfresh, hbs⟩ := List.nodup_cons.mp hbs
    obtain rfl | hrest_a := List.mem_cons.mp ha
    · obtain rfl | hrest_a' := List.mem_cons.mp ha'
      · exact absurd rfl hne
      · obtain ⟨b', hb', hab⟩ := exists_right hrest hrest_a'
        exact ⟨_, b', hfirst, hab, fun heq => hfresh (heq ▸ hb')⟩
    · obtain rfl | hrest_a' := List.mem_cons.mp ha'
      · obtain ⟨b, hb, hab⟩ := exists_right hrest hrest_a
        exact ⟨b, _, hab, hfirst, fun heq => hfresh (heq ▸ hb)⟩
      · exact ih hbs hrest_a hrest_a'

end Pairs

section Fits

variable {call} {file file₂ : Header} {ids : List Nat}

theorem fits_iff {var : Var} {shape : AmioShape} : Fits file var shape ↔
    List.Forall₂ (fun d id => ∃ dim, file.dims[id]? = some dim ∧
      DimOf dim (shape.extents d).toNat) shape.dims var.dimids ∧ var.dimids.Nodup := by
  constructor
  · intro h
    exact ⟨(List.forall₂_map_right_iff.mp h.lengths).flip, h.nodup⟩
  · intro ⟨hlengths, hnodup⟩
    exact ⟨List.forall₂_map_right_iff.mpr hlengths.flip, hnodup⟩

theorem Placed.name {info : VarMeta} {d : Fin kMaxRank} {id : Nat} {axes : List (Fin kMaxRank)}
    (h : Placed info file file₂ d id) (hext : Extends info axes file file₂)
    (hname : is_coordinate info.name = true) :
    ∃ dim, file₂.dims[id]? = some dim ∧ dim.name = dim_name info d := by
  cases h with
  | shared hnot _ =>
    rw [hnot] at hname
    cases hname
  | own _ hown =>
    obtain ⟨dim, hdim, heq⟩ := dims_of_inq_dimid hown
    exact ⟨dim, hext.getElem hdim, heq⟩
  | new _ _ hnew => exact ⟨_, hnew, default_dim_name d⟩

theorem Placed.shared_of_free {info : VarMeta} {d : Fin kMaxRank} {id : Nat}
    (h : Placed info file file₂ d id) (hname : is_coordinate info.name = false)
    (hfree : file.matching (target_len info d) = [] → file.inq_dimid (dim_name info d) = none) :
    file₂.shared (axis_role info.shape.rank d) (target_len info d) = some id := by
  cases h with
  | shared _ h => exact h
  | own hnone hown =>
    rw [hfree ((found_shared_eq_none hname).mp hnone)] at hown
    cases hown
  | new hcoord _ _ =>
    rw [hcoord] at hname
    cases hname

theorem shared_apart {info : VarMeta} {d d' : Fin kMaxRank} {id id' : Nat}
    {axes : List (Fin kMaxRank)} (hext : Extends info axes file file₂)
    (hname : is_coordinate info.name = false) (hlen : target_len info d = target_len info d')
    (h : file₂.shared (axis_role info.shape.rank d) (target_len info d) = some id)
    (h' : file₂.shared (axis_role info.shape.rank d') (target_len info d') = some id') :
    id ≠ id' ↔ file.shared (axis_role info.shape.rank d) (target_len info d) ≠
      file.shared (axis_role info.shape.rank d') (target_len info d) := by
  rw [← hlen] at h'
  obtain hsame | ⟨hnil, ⟨m, hm⟩, _⟩ := hext.matching hname (target_len info d)
  · rw [← shared_congr hsame, ← shared_congr hsame, h, h']
    exact not_congr Option.some_inj.symm
  · -- no dimension before and one after: both axes have it
    rw [shared_of_single hm] at h h'
    cases h
    cases h'
    rw [shared_eq_none.mpr hnil, shared_eq_none.mpr hnil]
    exact iff_of_false (fun hne => hne rfl) fun hne => hne rfl

theorem fits_of_separate (hext : Extends call.info call.info.shape.dims file file₂)
    (hplaced : List.Forall₂ (Placed call.info file file₂) call.info.shape.dims ids)
    (hs : Separate call.info file) : Fits file₂ ⟨call.info.name, ids⟩ call.info.shape := by
  have hmem := (List.forall₂_and_left _ _).mpr ⟨fun d (hd : d ∈ call.info.shape.dims) => hd, hplaced⟩
  apply fits_iff.mpr
  constructor
  · apply hmem.imp
    intro d id ⟨hd, hp⟩
    cases hname : is_coordinate call.info.name with
    | false =>
      obtain ⟨dim, hdim, hlen⟩ := mem_of_shared (hp.shared_of_free hname (hs.free d hd hname))
      exact ⟨dim, hdim, Or.inl hlen⟩
    | true =>
      cases hp with
      | shared hnot _ =>
        rw [hnot] at hname
        cases hname
      | own _ hown =>
        obtain ⟨dim, hdim, _⟩ := dims_of_inq_dimid hown
        exact ⟨dim, hext.getElem hdim, hs.own d hd hname id dim hown hdim⟩
      | new _ _ hnew => exact ⟨_, hnew, dimOf_default_dim d⟩
  · apply nodup_right hmem (nodup_dims _)
    intro d hd d' hd' hne id id' ⟨_, hp⟩ ⟨_, hp'⟩
    cases hname : is_coordinate call.info.name with
    | true =>
      -- coordinates: the names of the axes differ
      intro heq
      obtain ⟨dim, hdim, hdim_name⟩ := hp.name hext hname
      obtain ⟨dim', hdim', hdim_name'⟩ := hp'.name hext hname
      rw [← heq, hdim] at hdim'
      cases hdim'
      exact hne (dim_name_inj hd hd' (hdim_name.symm.trans hdim_name'))
    | false =>
      have hfound := hp.shared_of_free hname (hs.free d hd hname)
      have hfound' := hp'.shared_of_free hname (hs.free d' hd' hname)
      by_cases hlen : target_len call.info d = target_len call.info d'
      · exact (shared_apart hext hname hlen hfound hfound').mpr
          (hs.apart d hd d' hd' hne hname hlen)
      · intro heq
        obtain ⟨dim, hdim, hdim_len⟩ := mem_of_shared hfound
        obtain ⟨dim', hdim', hdim_len'⟩ := mem_of_shared hfound'
        rw [← heq, hdim] at hdim'
        cases hdim'
        exact hlen (hdim_len.symm.trans hdim_len')

theorem separate_of_fits (hext : Extends call.info call.info.shape.dims file file₂)
    (hplaced : List.Forall₂ (Placed call.info file file₂) call.info.shape.dims ids)
    (h : Fits file₂ ⟨call.info.name, ids⟩ call.info.shape) : Separate call.info file := by
  obtain ⟨hlengths, hnodup⟩ := fits_iff.mp h
  have hboth : List.Forall₂ (fun d id => Placed call.info file file₂ d id ∧
      ∃ dim, file₂.dims[id]? = some dim ∧ DimOf dim (target_len call.info d))
      call.info.shape.dims ids := List.Forall₂.mp (fun _ _ hp hl => ⟨hp, hl⟩) hplaced hlengths
  -- a dimension that only has the name of the axis is too long or too short
  have hstale : ∀ d id, is_coordinate call.info.name = false →
      file.matching (target_len call.info d) = [] →
      (∃ dim, file₂.dims[id]? = some dim ∧ DimOf dim (target_len call.info d)) →
        file.inq_dimid (dim_name call.info d) ≠ some id := by
    intro d id hname hnil ⟨dim, hdim, hof⟩ hown
    obtain ⟨dim', hdim', hname'⟩ := dims_of_inq_dimid hown
    rw [hext.getElem hdim'] at hdim
    cases hdim
    obtain hlen | ⟨_, htime⟩ := hof
    · have hmem := mem_matching.mpr ⟨dim, hdim', hlen, rfl⟩
      rw [hnil] at hmem
      cases hmem
    · exact dim_name_ne_time hname d (hname'.symm.trans htime)
  have hfree : ∀ d ∈ call.info.shape.dims, is_coordinate call.info.name = false →
      file.matching (target_len call.info d) = [] →
        file.inq_dimid (dim_name call.info d) = none := by
    intro d hd hname hnil
    by_contra hsome
    obtain ⟨id, _, hp, hof⟩ := exists_right hboth hd
    cases hp with
    | own _ hown => exact hstale d id hname hnil hof hown
    | new _ hnone _ => exact hsome hnone
    | shared _ hfound =>
      obtain hsame | ⟨_, ⟨m, hm⟩, d', hd', hlen, hfree'⟩ :=
        hext.matching hname (target_len call.info d)
      · rw [shared_congr hsame, shared_eq_none.mpr hnil] at hfound
        cases hfound
      · -- the axis that has made the dimension would have to share it
        have hne : d ≠ d' := fun heq => hsome (heq ▸ hfree')
        obtain ⟨i, i', ⟨hi, hi_of⟩, ⟨hi', _⟩, hids⟩ := exists_pair hboth hnodup hd hd' hne
        have hshared' := hi'.shared_of_free hname fun _ => hfree'
        rw [hlen, shared_of_single hm] at hshared'
        cases hi with
        | shared _ hshared =>
          rw [shared_of_single hm] at hshared
          exact hids (Option.some_inj.mp (hshared.symm.trans hshared'))
        | own _ hown => exact hstale d i hname hnil hi_of hown
        | new _ hnone _ => exact hsome hnone
  refine ⟨hfree, ?_, ?_⟩
  · intro d hd hname id dim hown hdim
    obtain ⟨id', _, hp, dim', hdim', hof⟩ := exists_right hboth hd
    cases hp with
    | shared hnot _ =>
      rw [hnot] at hname
      cases hname
    | own _ hown' =>
      rw [hown] at hown'
      cases hown'
      rw [hext.getElem hdim] at hdim'
      cases hdim'
      exact hof
    | new _ hnone _ =>
      rw [hown] at hnone
      cases hnone
  · intro d hd d' hd' hne hname hlen
    obtain ⟨id, id', ⟨hp, _⟩, ⟨hp', _⟩, hids⟩ := exists_pair hboth hnodup hd hd' hne
    exact (shared_apart hext hname hlen (hp.shared_of_free hname (hfree d hd hname))
      (hp'.shared_of_free hname (hfree d' hd' hname))).mp hids

theorem fits_iff_separate (h : axis_dims call file call.info.shape.dims = (.ok ids, file₂)) :
    Fits file₂ ⟨call.info.name, ids⟩ call.info.shape ↔ Separate call.info file := by
  obtain ⟨hext, hplaced⟩ := axis_dims_ok (fun d hd => hd) (nodup_dims _) h
  exact ⟨separate_of_fits hext hplaced, fits_of_separate hext hplaced⟩

end Fits

/-! ## Section 10: One call -/

/-- Only the time dimension is unlimited. -/
def TimeOnly (file : Header) : Prop :=
  ∀ dim ∈ file.dims, dim.unlimited = true → dim.name = text "time"

section Call

variable {call} {file file₂ : Header}

theorem length_sizes (call : WriteCall) :
    call.info.shape.sizes.length = call.info.shape.rank.toNat := by
  have hvalid := call.valid
  simp only [validate_shape, decide_eq_true_eq] at hvalid
  obtain ⟨hlow, hhigh, _⟩ := hvalid
  rw [AmioShape.sizes, List.length_map]
  have hlength := length_dims ⟨by omega, hhigh⟩
  omega

theorem grow_foldl (counts : List (Nat × Nat)) (dim : Dim) :
    (counts.foldl (fun dim x => { dim with length := max dim.length x.2 }) dim).name = dim.name ∧
    (counts.foldl (fun dim x => { dim with length := max dim.length x.2 }) dim).unlimited =
      dim.unlimited := by
  induction counts generalizing dim with
  | nil => exact ⟨rfl, rfl⟩
  | cons x xs ih =>
    rw [List.foldl_cons]
    exact ih _

theorem grow_getElem (var : Var) (count : List Nat) (id : Nat) :
    ∃ g : Dim → Dim, ((file.grow var count).dims[id]? = (file.dims[id]?).map g) ∧
      ∀ dim, (g dim).name = dim.name ∧ (g dim).unlimited = dim.unlimited ∧
        (dim.unlimited = false → g dim = dim) := by
  unfold Header.grow
  dsimp only
  rw [List.getElem?_mapIdx]
  refine ⟨_, rfl, ?_⟩
  intro dim
  split
  · next h =>
    obtain ⟨hname, hunlimited⟩ := grow_foldl ((var.dimids.zip count).filter (·.1 = id)) dim
    refine ⟨hname, hunlimited, ?_⟩
    intro hnot
    rw [h] at hnot
    cases hnot
  · exact ⟨rfl, rfl, fun _ => rfl⟩

theorem dimOf_iff {dim dim' : Dim} {extent : Nat} (hname : dim'.name = dim.name)
    (hunlimited : dim'.unlimited = dim.unlimited) (hfixed : dim.unlimited = false → dim' = dim)
    (htime : dim.unlimited = true → dim.name = text "time") :
    DimOf dim' extent ↔ DimOf dim extent := by
  cases h : dim.unlimited with
  | false => rw [hfixed h]
  | true =>
    have hboth := htime h
    exact iff_of_true (Or.inr ⟨hunlimited.trans h, hname.trans hboth⟩) (Or.inr ⟨h, hboth⟩)

theorem fits_grow (htime : TimeOnly file) (var₀ var : Var) (count : List Nat) (shape : AmioShape) :
    Fits (file.grow var₀ count) var shape ↔ Fits file var shape := by
  have hdim : ∀ id extent : Nat, (∃ dim, (file.grow var₀ count).dims[id]? = some dim ∧ DimOf dim extent) ↔
      ∃ dim, file.dims[id]? = some dim ∧ DimOf dim extent := by
    intro id extent
    obtain ⟨g, hg, hsame⟩ := @grow_getElem file var₀ count id
    rw [hg]
    cases hid : file.dims[id]? with
    | none => simp
    | some dim =>
      obtain ⟨hname, hunlimited, hfixed⟩ := hsame dim
      have hiff := @dimOf_iff dim (g dim) extent hname hunlimited hfixed
        (htime dim (List.mem_of_getElem? hid))
      constructor
      · intro ⟨dim', hdim', hof⟩
        cases hdim'
        exact ⟨dim, rfl, hiff.mp hof⟩
      · intro ⟨dim', hdim', hof⟩
        cases hdim'
        exact ⟨g dim, rfl, hiff.mpr hof⟩
  constructor
  · intro ⟨hlengths, hnodup⟩
    exact ⟨hlengths.imp fun id extent => (hdim id extent).mp, hnodup⟩
  · intro ⟨hlengths, hnodup⟩
    exact ⟨hlengths.imp fun id extent => (hdim id extent).mpr, hnodup⟩

theorem TimeOnly.grow (htime : TimeOnly file) (var : Var) (count : List Nat) :
    TimeOnly (file.grow var count) := by
  intro dim hdim hunlimited
  obtain ⟨id, hid⟩ := List.mem_iff_getElem?.mp hdim
  obtain ⟨g, hg, hsame⟩ := @grow_getElem file var count id
  rw [hg, Option.map_eq_some_iff] at hid
  obtain ⟨dim', hdim', rfl⟩ := hid
  obtain ⟨hname, hsame', _⟩ := hsame dim'
  exact hname.trans (htime dim' (List.mem_of_getElem? hdim') (hsame'.symm.trans hunlimited))

theorem TimeOnly.def_var (htime : TimeOnly file) (var : Var) : TimeOnly (file.def_var var) :=
  htime

theorem TimeOnly.of_extends {info : VarMeta} {axes : List (Fin kMaxRank)} (htime : TimeOnly file)
    (hext : Extends info axes file file₂) : TimeOnly file₂ := by
  obtain ⟨new, hdims, hnew⟩ := hext.dims
  intro dim hdim hunlimited
  rw [hdims] at hdim
  obtain hdim | hdim := List.mem_append.mp hdim
  · exact htime dim hdim hunlimited
  · obtain ⟨d, _, rfl⟩ := hnew dim hdim
    unfold default_dim at hunlimited ⊢
    split at hunlimited
    · next h => rw [if_pos h]; exact h
    · cases hunlimited

theorem dtype_cases (dtype : Dtype) :
    (∃ tag, dtype = .unknown tag) ∧ (∃ error, NetCDF_Driver.dtype_to_nc_type dtype = .thrown error) ∨
    (¬ ∃ tag, dtype = .unknown tag) ∧
      NetCDF_Driver.dtype_to_nc_type dtype = .returned dtype := by
  cases dtype with
  | unknown tag => exact Or.inl ⟨⟨tag, rfl⟩, _, rfl⟩
  | _ => exact Or.inr ⟨by simp, rfl⟩

/-- Either the definition is refused and the header has no new variable, or all
    axes have a dimension and the variable is defined with them. -/
theorem define_variable_cases (call : WriteCall) (file : Header) :
    (Refused call file ∧ ∃ error file₂ axes, define_variable call file = (.error error, file₂) ∧
      Extends call.info axes file file₂) ∨
    (¬ Refused call file ∧ ∃ ids file₂,
      axis_dims call file call.info.shape.dims = (.ok ids, file₂) ∧
      ∃ result, define_variable call file = (result, file₂.def_var ⟨call.info.name, ids⟩) ∧
        ∀ var, result = .ok var → var = ⟨call.info.name, ids⟩) := by
  cases hredef : call.refuses .nc_redef with
  | some error =>
    apply Or.inl
    refine ⟨Or.inl (by rw [hredef]; exact Option.some_ne_none error), error, file, [], ?_,
      Extends.refl []⟩
    rw [define_variable, hredef]
  | none =>
    cases hloop : axis_dims call file call.info.shape.dims with
    | mk result file₂ =>
      cases result with
      | error error =>
        obtain ⟨⟨axes, hext⟩, hneeds⟩ := needsDim_of_error hloop
        apply Or.inl
        refine ⟨Or.inr (Or.inl hneeds), error, file₂, axes, ?_, hext⟩
        rw [define_variable, hredef, hloop]
      | ok ids =>
        obtain ⟨hext, _⟩ := axis_dims_ok (fun d hd => hd) (nodup_dims _) hloop
        -- every axis has its dimension: only the type and `nc_def_var` are left
        have hno_dim : ¬ ∃ d ∈ call.info.shape.dims, NeedsDim call.info file d ∧
            call.refuses (.nc_def_dim (dim_name call.info d)) ≠ none := by
          intro ⟨d, hd, hneeds, hrefused⟩
          obtain ⟨error, file', herror⟩ := error_of_needsDim hd hneeds hrefused
          rw [hloop] at herror
          cases herror
        obtain ⟨hunknown, error, herror⟩ | ⟨hknown, htype⟩ := dtype_cases call.info.dtype
        · apply Or.inl
          refine ⟨Or.inr (Or.inr (Or.inl hunknown)), error, file₂, _, ?_, hext⟩
          rw [define_variable, hredef, hloop]
          dsimp only
          rw [herror]
        · cases hdef : call.refuses .nc_def_var with
          | some error =>
            apply Or.inl
            refine ⟨Or.inr (Or.inr (Or.inr (by rw [hdef]; exact Option.some_ne_none error))), error,
              file₂, _, ?_, hext⟩
            rw [define_variable, hredef, hloop]
            dsimp only
            rw [htype]
            dsimp only
            rw [hdef]
          | none =>
            apply Or.inr
            constructor
            · intro h
              obtain h | h | h | h := h
              · exact h hredef
              · exact hno_dim h
              · exact hknown h
              · exact h hdef
            · refine ⟨ids, file₂, rfl, ?_⟩
              rw [define_variable, hredef, hloop]
              dsimp only
              rw [htype]
              dsimp only
              rw [hdef]
              dsimp only
              split
              · exact ⟨_, rfl, fun var h => by cases h⟩
              · exact ⟨_, rfl, fun var h => by cases h⟩
              · exact ⟨_, rfl, fun var h => by cases h⟩
              · exact ⟨_, rfl, fun var h => (Except.ok.inj h).symm⟩

theorem write_data_file (file : Header) (var : Var) :
    (write_data call file var).file = file ∨
      (write_data call file var).file = file.grow var call.info.shape.sizes := by
  unfold write_data nc_put_vara
  split
  · exact Or.inl rfl
  · dsimp only
    split
    · exact Or.inl rfl
    · split
      · exact Or.inl rfl
      · split
        · exact Or.inl rfl
        · exact Or.inr rfl

theorem write_data_arrays {var : Var} {args : PutVara}
    (h : (write_data call file var).put_vara = some args) :
    args.var = var ∧ args.start.length = call.info.shape.sizes.length ∧
      args.count.length = call.info.shape.sizes.length := by
  unfold write_data at h
  split at h
  · cases h
  · cases h
    refine ⟨rfl, ?_, rfl⟩
    rw [length_sizes]
    exact List.length_replicate

theorem write_data_reaches (file : Header) (var : Var) :
    (∃ args, (write_data call file var).put_vara = some args) ∨
    (call.use_parallel = true ∧ call.refuses .nc_var_par_access ≠ none) ∧
      (write_data call file var).put_vara = none ∧
      ∃ error, (write_data call file var).outcome = .thrown error := by
  unfold write_data
  split
  · next error herror =>
    apply Or.inr
    split at herror
    · next hpar =>
      refine ⟨⟨hpar, ?_⟩, rfl, error, rfl⟩
      rw [herror]
      exact Option.some_ne_none error
    · cases herror
  · exact Or.inl ⟨_, rfl⟩

theorem write_data_refused {var : Var}
    (h : call.use_parallel = true ∧ call.refuses .nc_var_par_access ≠ none) :
    (write_data call file var).put_vara = none ∧
      ∃ error, (write_data call file var).outcome = .thrown error := by
  obtain ⟨error, herror⟩ := Option.ne_none_iff_exists'.mp h.2
  unfold write_data
  rw [if_pos h.1, herror]
  exact ⟨rfl, error, rfl⟩

theorem kept_existing {var : Var} (hinq : call.refuses .nc_inq_varid = none)
    (hvar : file.inq_varid call.info.name = some var) :
    Kept call file ↔ var.dimids.length = call.info.shape.sizes.length ∨
      (call.use_parallel = true ∧ call.refuses .nc_var_par_access ≠ none) := by
  have hwrite : write call file = write_data call file var := by
    rw [write, hinq]
    dsimp only
    rw [hvar]
  constructor
  · intro hkept
    obtain ⟨args, hargs⟩ | ⟨hrefused, _⟩ := @write_data_reaches call file var
    · obtain ⟨hsame, hstart, _⟩ := write_data_arrays hargs
      have harrays := (hkept.arrays args (by rw [hwrite, hargs])).1
      rw [hsame, hstart] at harrays
      exact Or.inl harrays.symm
    · exact Or.inr hrefused
  · intro h
    constructor
    · intro hnone
      rw [hvar] at hnone
      cases hnone
    · intro args hargs
      rw [hwrite] at hargs
      obtain hrank | hrefused := h
      · obtain ⟨hsame, hstart, hcount⟩ := write_data_arrays hargs
        rw [hsame, hstart, hcount, hrank]
        exact ⟨rfl, rfl⟩
      · rw [(write_data_refused hrefused).1] at hargs
        cases hargs
    · intro var' hvar' hother
      rw [hvar] at hvar'
      cases hvar'
      rw [hwrite]
      exact (write_data_refused (h.resolve_left hother)).2

theorem inq_varid_def_var {info : VarMeta} {axes : List (Fin kMaxRank)} (var : Var)
    (hvar : file.inq_varid var.name = none) (hext : Extends info axes file file₂) :
    (file₂.def_var var).inq_varid var.name = some var := by
  unfold Header.inq_varid Header.def_var at *
  dsimp only
  rw [hext.vars, List.find?_append, hvar]
  simp

theorem fits_def_var (file : Header) (var₀ var : Var) (shape : AmioShape) :
    Fits (file.def_var var₀) var shape ↔ Fits file var shape :=
  ⟨fun h => ⟨h.lengths, h.nodup⟩, fun h => ⟨h.lengths, h.nodup⟩⟩

/-- A new variable. -/
theorem kept_new (htime : TimeOnly file) (hinq : call.refuses .nc_inq_varid = none)
    (hvar : file.inq_varid call.info.name = none) :
    Kept call file ↔ Refused call file ∨ Separate call.info file := by
  obtain ⟨hrefused, error, file₂, axes, hdefine, hext⟩ |
    ⟨hnot, ids, file₂, hloop, result, hdefine, hresult⟩ := define_variable_cases call file
  · -- no variable is defined
    have hwrite : write call file = ⟨file₂, none, .thrown error⟩ := by
      rw [write, hinq]
      dsimp only
      rw [hvar]
      dsimp only
      rw [hdefine]
    have hstill : file₂.inq_varid call.info.name = none := by
      rw [Header.inq_varid, hext.vars]
      exact hvar
    apply iff_of_true
    · constructor
      · intro _ var hdefined
        rw [hwrite, hstill] at hdefined
        cases hdefined
      · intro args hargs
        rw [hwrite] at hargs
        cases hargs
      · intro var hsome
        rw [hvar] at hsome
        cases hsome
    · exact Or.inl hrefused
  · rw [or_iff_right hnot, ← fits_iff_separate hloop]
    obtain ⟨hext, hplaced⟩ := axis_dims_ok (fun d hd => hd) (nodup_dims _) hloop
    have hdefined := @inq_varid_def_var file file₂ call.info call.info.shape.dims
      ⟨call.info.name, ids⟩ hvar hext
    have hlength : ids.length = call.info.shape.sizes.length := by
      rw [AmioShape.sizes, List.length_map, hplaced.length_eq]
    -- the file after the call has the variable, with the same dimensions
    have hfile : (write call file).file = file₂.def_var ⟨call.info.name, ids⟩ ∨
        (write call file).file = (file₂.def_var ⟨call.info.name, ids⟩).grow ⟨call.info.name, ids⟩
          call.info.shape.sizes := by
      rw [write, hinq]
      dsimp only
      rw [hvar]
      dsimp only
      rw [hdefine]
      cases result with
      | error error => exact Or.inl rfl
      | ok var =>
        rw [hresult var rfl]
        exact write_data_file _ _
    have hinq_after : (write call file).file.inq_varid call.info.name =
        some ⟨call.info.name, ids⟩ := by
      obtain h | h := hfile
      · rw [h]
        exact hdefined
      · rw [h]
        exact hdefined
    have hfits : Fits (write call file).file ⟨call.info.name, ids⟩ call.info.shape ↔
        Fits file₂ ⟨call.info.name, ids⟩ call.info.shape := by
      obtain h | h := hfile
      · rw [h, fits_def_var]
      · have htime₂ := (htime.of_extends hext).def_var ⟨call.info.name, ids⟩
        rw [h, fits_grow htime₂, fits_def_var]
    constructor
    · intro hkept
      exact hfits.mp (hkept.defined hvar _ hinq_after)
    · intro h
      constructor
      · intro _ var hsome
        rw [hinq_after] at hsome
        cases hsome
        exact hfits.mpr h
      · intro args hargs
        rw [write, hinq] at hargs
        dsimp only at hargs
        rw [hvar] at hargs
        dsimp only at hargs
        rw [hdefine] at hargs
        cases result with
        | error error => cases hargs
        | ok var =>
          dsimp only at hargs
          obtain ⟨hsame, hstart, hcount⟩ := write_data_arrays hargs
          rw [hsame, hresult var rfl, hstart, hcount, ← hlength]
          exact ⟨rfl, rfl⟩
      · intro var hsome
        rw [hvar] at hsome
        cases hsome

/-- **One call.** It keeps the promise exactly when it meets the condition. -/
theorem kept_iff_met (htime : TimeOnly file) : Kept call file ↔ Met call file := by
  unfold Met
  cases hinq : call.refuses .nc_inq_varid with
  | some error =>
    have hwrite : write call file = ⟨file, none, .thrown error⟩ := by rw [write, hinq]
    apply iff_of_true
    · constructor
      · intro hnone var hvar
        rw [hwrite] at hvar
        rw [hvar] at hnone
        cases hnone
      · intro args hargs
        rw [hwrite] at hargs
        cases hargs
      · intro var _ _
        rw [hwrite]
        exact ⟨error, rfl⟩
    · exact Or.inl (Option.some_ne_none error)
  | none =>
    rw [or_iff_right (fun h => h rfl)]
    cases hvar : file.inq_varid call.info.name with
    | some var => exact kept_existing hinq hvar
    | none => exact kept_new htime hinq hvar

theorem TimeOnly.write (htime : TimeOnly file) (call : WriteCall) :
    TimeOnly (write call file).file := by
  have hdata : ∀ {F : Header} (var : Var), TimeOnly F → TimeOnly (write_data call F var).file := by
    intro F var hF
    obtain h | h := @write_data_file call F var
    · rw [h]
      exact hF
    · rw [h]
      exact hF.grow _ _
  unfold NetcdfWrite.write
  split
  · exact htime
  · split
    · exact hdata _ htime
    · obtain ⟨_, error, file₂, axes, hdefine, hext⟩ |
        ⟨_, ids, file₂, hloop, result, hdefine, _⟩ := define_variable_cases call file
      · rw [hdefine]
        exact htime.of_extends hext
      · obtain ⟨hext, _⟩ := axis_dims_ok (fun d hd => hd) (nodup_dims _) hloop
        have htime₂ := (htime.of_extends hext).def_var ⟨call.info.name, ids⟩
        rw [hdefine]
        cases result with
        | error error => exact htime₂
        | ok var => exact hdata _ htime₂

end Call

/-! ## Section 11: Main result -/

/-- Every call of a run, in the file that it finds. -/
def Along (P : WriteCall → Header → Prop) : Header → List WriteCall → Prop
  | _, [] => True
  | file, call :: calls => P call file ∧ Along P (write call file).file calls

theorem writes_keep_iff (calls : List WriteCall) :
    Along Kept Header.empty calls ↔ Along Met Header.empty calls := by
  have hfrom : ∀ file, TimeOnly file → (Along Kept file calls ↔ Along Met file calls) := by
    induction calls with
    | nil => exact fun _ _ => Iff.rfl
    | cons call calls ih =>
      intro file htime
      exact and_congr (kept_iff_met htime) (ih _ (htime.write call))
  exact hfrom Header.empty fun _ hdim => absurd hdim List.not_mem_nil

theorem field_valid {nj ni : Nat} (hj : 0 < nj) (hi : 0 < ni) :
    validate_shape { rank := 2, extents := fun d => if d.val = 0 then nj else ni,
                     strides := fun _ => 0 } = true := by
  simp only [validate_shape, decide_eq_true_eq]
  refine ⟨by decide, by decide, ?_⟩
  intro d _
  split
  · omega
  · omega

/-- A field of two axes. -/
def write_field (nj ni : Nat) (hj : 0 < nj) (hi : 0 < ni) : WriteCall where
  info :=
    { dataset_id := 0, variable_id := 0, name := text "v", dtype := .F64,
      shape := { rank := 2, extents := fun d => if d.val = 0 then nj else ni, strides := fun _ => 0 },
      timestep := -1 }
  use_parallel := false
  refuses := fun _ => none
  valid := field_valid hj hi

theorem writes_share_dimension :
    (write (write_field 5 5 (by decide) (by decide)) Header.empty).file =
        ⟨[⟨text "v_dim0", 5, false⟩], [⟨text "v", [0, 0]⟩]⟩ ∧
      ¬ Along Kept Header.empty [write_field 5 5 (by decide) (by decide)] := by
  have hwrite : (write (write_field 5 5 (by decide) (by decide)) Header.empty).file =
      ⟨[⟨text "v_dim0", 5, false⟩], [⟨text "v", [0, 0]⟩]⟩ := by decide +kernel
  refine ⟨hwrite, ?_⟩
  intro ⟨hkept, _⟩
  have hfits := hkept.defined rfl ⟨text "v", [0, 0]⟩ (by rw [hwrite]; rfl)
  exact absurd hfits.nodup (by decide)

end Amio.NetcdfWrite
