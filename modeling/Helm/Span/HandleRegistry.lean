import Helm.Span.FieldView

/-! # SPAN: the handle registry

  `HandleRegistry` maps positive handles to registered fields. A new handle is
  the next number until handles have been given back; then these are issued
  again in the order in which they came back. The number of active entries is
  counted apart.

  A run is any order of calls of the C functions. `live` are the handles that
  have been returned and not been given back, and `last` is the latest
  registration that a handle was issued for.

  Main result: `registry_keeps_handles`.
-/

namespace Span

open Signed LTS

/-! ## Section 1: The registry -/

inductive MemorySpaceToken where
  | Host
  | CudaDevice
  | HipDevice
  deriving DecidableEq

structure RegisteredField where
  field_view : FieldView
  rank : Int
  mem_space : MemorySpaceToken
  dims : List Int64
  raw_ptr : Nat
  deriving DecidableEq

def SUCCESS : Int := 0
def ERR_NULL_PTR : Int := -1
def ERR_INVALID_RANK : Int := -2
def ERR_INVALID_HANDLE : Int := -3
def ERR_INVALID_MEMORY_SPACE : Int := -4
def ERR_REGISTRY_FULL : Int := -5
def ERR_INTERNAL : Int := -99

def MAX_RANK : Int := 7

structure HandleRegistry where
  slots : Nat → Option RegisteredField
  occupied : Nat → Bool
  free_list : List Int
  next_handle : Int
  active_count : Nat

namespace HandleRegistry

def MAX_CAPACITY : Nat := 65536

def new : HandleRegistry := ⟨fun _ => none, fun _ => false, [], 1, 0⟩

/-- `static_cast<std::size_t>(handle) - 1` -/
def index (handle : Int) : Nat := Word.sub 64 (handle % 2 ^ 64).toNat 1

/-- An index into the two arrays. -/
def element (idx : Nat) : Outcome String Nat := if idx < MAX_CAPACITY then .returned idx else .undefined

variable (reg : HandleRegistry)

/-- A slot is filled. -/
def fill (idx : Nat) (view : RegisteredField) : HandleRegistry :=
  { reg with
    slots := fun k => if k = idx then some view else reg.slots k
    occupied := fun k => if k = idx then true else reg.occupied k }

/-- A handle, or that the registry is full. -/
def register_view (view : RegisteredField) : Outcome String (Int × HandleRegistry) := do
  if reg.active_count ≥ MAX_CAPACITY then return (ERR_REGISTRY_FULL, reg)
  else
    match reg.free_list with
    | handle :: rest =>
      let idx ← element (index handle)
      let reg := ({ reg with free_list := rest }).fill idx view
      return (handle, { reg with active_count := Word.add 64 reg.active_count 1 })
    | [] =>
      let handle := reg.next_handle
      let next_handle ← signed 32 (handle + 1)
      let idx ← element (index handle)
      let reg := ({ reg with next_handle }).fill idx view
      return (handle, { reg with active_count := Word.add 64 reg.active_count 1 })

def is_valid_unlocked (handle : Int) : Bool :=
  if handle ≤ 0 then false
  else if index handle ≥ MAX_CAPACITY then false
  else reg.occupied (index handle)

def lookup (handle : Int) : Option RegisteredField :=
  if reg.is_valid_unlocked handle then reg.slots (index handle) else none

def unregister (handle : Int) : Bool × HandleRegistry :=
  if reg.is_valid_unlocked handle then
    (true,
      { reg with
        slots := fun k => if k = index handle then none else reg.slots k
        occupied := fun k => if k = index handle then false else reg.occupied k
        free_list := reg.free_list ++ [handle]
        active_count := Word.sub 64 reg.active_count 1 })
  else (false, reg)

end HandleRegistry

/-! ## Section 2: The C functions -/

/-- The device backends that Kokkos is built with. -/
structure Backends where
  cuda : Bool
  hip : Bool

variable (backends : Backends)

/-- The memory space of a token that is valid. -/
def memory_space (token : Int) : Option MemorySpaceToken :=
  if token = 0 then some .Host
  else if token = 1 then (if backends.cuda then some .CudaDevice else none)
  else if token = 2 then (if backends.hip then some .HipDevice else none)
  else none

/-- The view is built over the host, or over the device. -/
def create_field_view (ptr : Nat) (exts : List Nat) (mem_space : MemorySpaceToken) :
    Outcome String FieldView := do
  FieldView.validate_extents exts
  if mem_space = .Host then
    return ⟨some ptr, none, exts, FieldView.compute_total_size exts, .HOST_CLEAN⟩
  else return ⟨none, some ptr, exts, FieldView.compute_total_size exts, .HOST_CLEAN⟩

/-- The arguments of a registration. -/
structure Registration where
  ptr : Option Nat
  dims : Nat → Int64
  rank : Int
  memory_space_token : Int

namespace Registration

variable (r : Registration)

def dims_read : List Int64 := (List.range r.rank.toNat).map r.dims

/-- The first check that fails. -/
def refusal : Option Int :=
  if r.ptr = none then some ERR_NULL_PTR
  else if r.rank < 1 ∨ r.rank > MAX_RANK then some ERR_INVALID_RANK
  else if memory_space backends r.memory_space_token = none then some ERR_INVALID_MEMORY_SPACE
  else if r.dims_read.any (·.toInt ≤ 0) then some ERR_NULL_PTR
  else none

/-- The record that is registered. -/
def record (ptr : Nat) (mem_space : MemorySpaceToken) : Outcome String RegisteredField := do
  let field_view ← create_field_view ptr (r.dims_read.map (·.toInt.toNat)) mem_space
  return ⟨field_view, r.rank, mem_space, r.dims_read, ptr⟩

end Registration

/-- The code, `*handle_out` after the call and the registry. -/
def helm_span_register_legacy_ptr (reg : HandleRegistry) (r : Registration) (handle_out : Int) :
    Outcome String (Int × Int × HandleRegistry) :=
  match r.refusal backends, r.ptr, memory_space backends r.memory_space_token with
  | some code, _, _ => .returned (code, handle_out, reg)
  | none, some ptr, some mem_space =>
    match r.record ptr mem_space with
    -- the exception barrier
    | .thrown _ => .returned (ERR_INTERNAL, handle_out, reg)
    | .undefined => .undefined
    | .returned field => do
      let (handle, reg') ← reg.register_view field
      if handle = ERR_REGISTRY_FULL then return (ERR_REGISTRY_FULL, handle_out, reg')
      else return (SUCCESS, handle, reg')
  -- the pointer and the token have been checked
  | none, _, _ => .undefined

/-- What a caller of `helm_span_get_view` passes by address. -/
structure ViewOut where
  ptr_out : Option Nat
  dims_out : Nat → Int64
  rank_out : Int

def helm_span_get_view (reg : HandleRegistry) (handle : Int32) (out : ViewOut) : Int × ViewOut :=
  match reg.lookup handle.toInt with
  | none => (ERR_INVALID_HANDLE, out)
  | some field =>
    (SUCCESS,
      { ptr_out := some field.raw_ptr
        rank_out := field.rank
        dims_out := fun i => if (i : Int) < field.rank then field.dims.getD i 0 else out.dims_out i })

def helm_span_unregister (reg : HandleRegistry) (handle : Int32) : Int × HandleRegistry :=
  let (ok, reg') := reg.unregister handle.toInt
  if ok then (SUCCESS, reg') else (ERR_INVALID_HANDLE, reg')

/-! ## Section 3: Runs -/

structure RegistryRun where
  reg : HandleRegistry
  /-- The handles that were returned and not given back. -/
  live : List Int
  /-- The latest registration that a handle was issued for. -/
  last : Int → Option Registration

inductive Call where
  | register (r : Registration)
  | get_view (handle : Int32)
  | unregister (handle : Int32)

/-- A call takes effect when it holds the lock. Nothing follows undefined
    behaviour. -/
def RegistryRun.next (s : RegistryRun) : Call → Option RegistryRun
  | .register r =>
    match helm_span_register_legacy_ptr backends s.reg r 0 with
    | .returned (code, handle, reg) =>
      if code = SUCCESS then
        some ⟨reg, handle :: s.live, fun h => if h = handle then some r else s.last h⟩
      else some { s with reg }
    | _ => none
  | .get_view _ => some s
  | .unregister handle =>
    let (code, reg) := helm_span_unregister s.reg handle
    if code = SUCCESS then some { s with reg, live := s.live.erase handle.toInt }
    else some { s with reg }

/-- **All orders of calls.** -/
def registry : System RegistryRun Call :=
  System.ofNext (fun s => s = ⟨.new, [], fun _ => none⟩) (RegistryRun.next backends)

/-! ## Section 4: The invariant -/

namespace HandleRegistry

theorem index_of_pos {h : Int} (hpos : 1 ≤ h) (hle : h ≤ 2 ^ 31) : index h = (h - 1).toNat := by
  unfold index
  rw [Int.emod_eq_of_lt (by omega) (by omega), Word.sub_of_le (by omega) (by omega)]
  omega

theorem element_of_lt {idx : Nat} (h : idx < MAX_CAPACITY) : element idx = .returned idx := if_pos h

end HandleRegistry

open HandleRegistry

/-- The field holds what the registration has passed. -/
structure Holds (r : Registration) (field : RegisteredField) : Prop where
  ptr : r.ptr = some field.raw_ptr
  rank : field.rank = r.rank
  dims : field.dims = r.dims_read

/-- **The invariant**: which handles are live, which can be issued again, and
    what the slots hold. -/
structure RegistryInv (s : RegistryRun) : Prop where
  issued : ∀ h, h ∈ s.live ++ s.reg.free_list ↔ 1 ≤ h ∧ h < s.reg.next_handle
  nodup : (s.live ++ s.reg.free_list).Nodup
  next_pos : 1 ≤ s.reg.next_handle
  room : s.reg.next_handle ≤ MAX_CAPACITY + 1
  count : s.reg.active_count = s.live.length
  occupied : ∀ h : Int, 1 ≤ h → h ≤ MAX_CAPACITY →
    (s.reg.occupied (h - 1).toNat = true ↔ h ∈ s.live)
  filled : ∀ h ∈ s.live, ∃ r field, s.last h = some r ∧
    s.reg.slots (h - 1).toNat = some field ∧ Holds r field
  last : ∀ h, (s.last h).isSome = true ↔ 1 ≤ h ∧ h < s.reg.next_handle

section
variable {s : RegistryRun} {backends} {r : Registration} {h : Int}

theorem live_add_free (hinv : RegistryInv s) :
    (s.live.length + s.reg.free_list.length : Int) = s.reg.next_handle - 1 := by
  have hset : (s.live ++ s.reg.free_list).toFinset = Finset.Ico 1 s.reg.next_handle := by
    ext h
    rw [List.mem_toFinset, Finset.mem_Ico]
    exact hinv.issued h
  have hcard := congrArg Finset.card hset
  rw [List.toFinset_card_of_nodup hinv.nodup, List.length_append, Int.card_Ico] at hcard
  have hpos := hinv.next_pos
  omega

theorem live_le (hinv : RegistryInv s) : s.live.length ≤ MAX_CAPACITY := by
  have hsum := live_add_free hinv
  have hroom := hinv.room
  omega

theorem live_bounds (hinv : RegistryInv s) (hlive : h ∈ s.live) : 1 ≤ h ∧ h ≤ MAX_CAPACITY := by
  obtain ⟨hpos, hlt⟩ := (hinv.issued h).mp (List.mem_append_left _ hlive)
  have hroom := hinv.room
  exact ⟨hpos, by omega⟩

/-- **A handle is valid** exactly when it is live. -/
theorem is_valid_iff (hinv : RegistryInv s) (hfits : h ≤ 2147483647) :
    s.reg.is_valid_unlocked h = true ↔ h ∈ s.live := by
  have hcap : MAX_CAPACITY = 65536 := rfl
  unfold is_valid_unlocked
  by_cases hpos : h ≤ 0
  · rw [if_pos hpos]
    constructor
    · intro hfalse
      cases hfalse
    · intro hlive
      have hbounds := live_bounds hinv hlive
      omega
  · rw [if_neg hpos, index_of_pos (by omega) (by omega)]
    by_cases hin : h ≤ MAX_CAPACITY
    · rw [if_neg (by omega)]
      exact hinv.occupied h (by omega) hin
    · rw [if_pos (by omega)]
      constructor
      · intro hfalse
        cases hfalse
      · intro hlive
        exact absurd (live_bounds hinv hlive).2 hin

/-! ## Section 5: Registering -/

/-- What `register_view` makes of the registry when there is room. -/
structure Registered (reg : HandleRegistry) (view : RegisteredField) (handle : Int)
    (reg' : HandleRegistry) : Prop where
  slots : ∀ k, reg'.slots k = if k = (handle - 1).toNat then some view else reg.slots k
  occupied : ∀ k, reg'.occupied k = if k = (handle - 1).toNat then true else reg.occupied k
  active_count : reg'.active_count = reg.active_count + 1
  /-- The handle comes from the free list, or it is new. -/
  source : (reg.free_list = handle :: reg'.free_list ∧ reg'.next_handle = reg.next_handle) ∨
    (reg.free_list = [] ∧ reg'.free_list = [] ∧ handle = reg.next_handle ∧
      reg'.next_handle = reg.next_handle + 1)

/-- **There is room** unless the live handles fill the registry. -/
theorem register_view_spec (hinv : RegistryInv s) (view : RegisteredField) :
    (s.live.length = MAX_CAPACITY ∧ s.reg.register_view view = .returned (ERR_REGISTRY_FULL, s.reg)) ∨
      (s.live.length < MAX_CAPACITY ∧ ∃ (handle : Int) (reg' : HandleRegistry),
        1 ≤ handle ∧ handle ≤ MAX_CAPACITY ∧
        s.reg.register_view view = .returned (handle, reg') ∧
        Registered s.reg view handle reg') := by
  have hcap : MAX_CAPACITY = 65536 := rfl
  have hle := live_le hinv
  have hcount := hinv.count
  have hsum := live_add_free hinv
  have hroom := hinv.room
  unfold register_view
  rcases hle.lt_or_eq with hlt | heq
  · right
    refine ⟨hlt, ?_⟩
    rw [if_neg (by omega)]
    cases hfree : s.reg.free_list with
    | cons handle rest =>
      have hmem : handle ∈ s.live ++ s.reg.free_list := by
        rw [hfree]
        exact List.mem_append_right _ List.mem_cons_self
      obtain ⟨hpos, hless⟩ := (hinv.issued handle).mp hmem
      dsimp only
      rw [index_of_pos hpos (by omega), element_of_lt (by omega), Outcome.returned_bind]
      refine ⟨handle, _, hpos, by omega, rfl, ?_⟩
      constructor
      · intro k
        rfl
      · intro k
        rfl
      · show Word.add 64 s.reg.active_count 1 = s.reg.active_count + 1
        exact Word.add_of_lt (by omega)
      · exact .inl ⟨hfree, rfl⟩
    | nil =>
      -- no handle has come back, so the next one is behind the live ones
      rw [hfree, List.length_nil] at hsum
      have hnext := hinv.next_pos
      dsimp only
      rw [signed_of_fits (fits_32.mpr (by omega)), Outcome.returned_bind,
        index_of_pos hnext (by omega), element_of_lt (by omega), Outcome.returned_bind]
      refine ⟨s.reg.next_handle, _, hnext, by omega, rfl, ?_⟩
      constructor
      · intro k
        rfl
      · intro k
        rfl
      · show Word.add 64 s.reg.active_count 1 = s.reg.active_count + 1
        exact Word.add_of_lt (by omega)
      · exact .inr ⟨hfree, rfl, rfl, rfl⟩
  · left
    refine ⟨heq, ?_⟩
    rw [if_pos (by omega)]
    rfl

theorem not_live_of_registered (hinv : RegistryInv s) {view : RegisteredField}
    {reg' : HandleRegistry} (hreg : Registered s.reg view h reg') : h ∉ s.live := by
  intro hlive
  rcases hreg.source with ⟨hfree, -⟩ | ⟨-, -, hnew, -⟩
  · have hdisjoint := (List.nodup_append.mp hinv.nodup).2.2
    exact hdisjoint h hlive h (hfree ▸ List.mem_cons_self) rfl
  · have hless := ((hinv.issued h).mp (List.mem_append_left _ hlive)).2
    omega

theorem registered_handles (hinv : RegistryInv s) {view : RegisteredField} {reg' : HandleRegistry}
    (hreg : Registered s.reg view h reg') :
    (h :: s.live ++ reg'.free_list).Nodup ∧ 1 ≤ reg'.next_handle ∧
      (h ≤ MAX_CAPACITY → reg'.next_handle ≤ MAX_CAPACITY + 1) ∧
      (∀ h', h' ∈ h :: s.live ++ reg'.free_list ↔ 1 ≤ h' ∧ h' < reg'.next_handle) ∧
      ∀ h', (h' = h ∨ 1 ≤ h' ∧ h' < s.reg.next_handle) ↔ 1 ≤ h' ∧ h' < reg'.next_handle := by
  have hpos := hinv.next_pos
  have hroom := hinv.room
  rcases hreg.source with ⟨hfree, hnext⟩ | ⟨hfree, hfree', hnew, hnext⟩
  · have hperm : (s.live ++ s.reg.free_list).Perm (h :: s.live ++ reg'.free_list) := by
      rw [hfree, List.cons_append]
      exact List.perm_middle
    have hissued := (hinv.issued h).mp (hperm.mem_iff.mpr List.mem_cons_self)
    refine ⟨hperm.nodup_iff.mp hinv.nodup, by omega, fun _ => by omega, ?_, ?_⟩
    · intro h'
      rw [← hperm.mem_iff, hinv.issued h', hnext]
    · intro h'
      rw [hnext]
      constructor
      · rintro (rfl | hin)
        · exact hissued
        · exact hin
      · exact Or.inr
  · have hlive : ∀ h', h' ∈ s.live ↔ 1 ≤ h' ∧ h' < s.reg.next_handle := by
      intro h'
      rw [← hinv.issued h', hfree, List.append_nil]
    refine ⟨?_, by omega, fun hle => by omega, ?_, ?_⟩
    · rw [hfree', List.append_nil]
      exact List.nodup_cons.mpr
        ⟨not_live_of_registered hinv hreg, (List.nodup_append.mp hinv.nodup).1⟩
    · intro h'
      rw [hfree', List.append_nil, List.mem_cons, hlive h']
      omega
    · intro h'
      omega

/-- **A registration** keeps the invariant. -/
theorem inv_of_registered (hinv : RegistryInv s) {field : RegisteredField} {reg' : HandleRegistry}
    (hpos : 1 ≤ h) (hle : h ≤ MAX_CAPACITY) (hreg : Registered s.reg field h reg')
    (hholds : Holds r field) :
    RegistryInv ⟨reg', h :: s.live, fun h' => if h' = h then some r else s.last h'⟩ := by
  obtain ⟨hnodup, hnext, hroom, hissued, hlast⟩ := registered_handles hinv hreg
  constructor
  · exact hissued
  · exact hnodup
  · exact hnext
  · exact hroom hle
  · show reg'.active_count = (h :: s.live).length
    rw [hreg.active_count, hinv.count, List.length_cons]
  · intro h' hpos' hle'
    show reg'.occupied (h' - 1).toNat = true ↔ h' ∈ h :: s.live
    rw [hreg.occupied, List.mem_cons]
    by_cases heq : h' = h
    · rw [heq, if_pos rfl]
      exact ⟨fun _ => .inl rfl, fun _ => rfl⟩
    · rw [if_neg (by omega), hinv.occupied h' hpos' hle']
      exact ⟨Or.inr, fun hmem => hmem.resolve_left heq⟩
  · intro h' hmem
    show ∃ r' field', (if h' = h then some r else s.last h') = some r' ∧
      reg'.slots (h' - 1).toNat = some field' ∧ Holds r' field'
    by_cases heq : h' = h
    · rw [if_pos heq, hreg.slots, heq, if_pos rfl]
      exact ⟨r, field, rfl, rfl, hholds⟩
    · have hlive : h' ∈ s.live := (List.mem_cons.mp hmem).resolve_left heq
      have hpos' := (live_bounds hinv hlive).1
      rw [if_neg heq, hreg.slots, if_neg (by omega)]
      exact hinv.filled h' hlive
  · intro h'
    show (if h' = h then some r else s.last h').isSome = true ↔ 1 ≤ h' ∧ h' < reg'.next_handle
    rw [← hlast h', ← hinv.last h']
    by_cases heq : h' = h
    · rw [if_pos heq]
      exact ⟨fun _ => .inl heq, fun _ => rfl⟩
    · rw [if_neg heq]
      exact ⟨Or.inr, fun hmem => hmem.resolve_left heq⟩

/-! ## Section 6: Giving back -/

/-- The registry without a live handle. -/
def without (s : RegistryRun) (h : Int) : HandleRegistry :=
  { s.reg with
    slots := fun k => if k = (h - 1).toNat then none else s.reg.slots k
    occupied := fun k => if k = (h - 1).toNat then false else s.reg.occupied k
    free_list := s.reg.free_list ++ [h]
    active_count := s.live.length - 1 }

theorem unregister_of_live (hinv : RegistryInv s) (hlive : h ∈ s.live) :
    s.reg.unregister h = (true, without s h) := by
  have hcap : MAX_CAPACITY = 65536 := rfl
  obtain ⟨hpos, hle⟩ := live_bounds hinv hlive
  have hlength := live_le hinv
  have hone : 0 < s.live.length := List.length_pos_of_mem hlive
  unfold HandleRegistry.unregister without
  rw [if_pos ((is_valid_iff hinv (by omega)).mpr hlive), index_of_pos hpos (by omega), hinv.count,
    Word.sub_of_le (by omega) (by omega)]

theorem unregister_of_not_live (hinv : RegistryInv s) (hfits : h ≤ 2147483647)
    (hnot : h ∉ s.live) : s.reg.unregister h = (false, s.reg) := by
  unfold HandleRegistry.unregister
  rw [if_neg (fun hvalid => hnot ((is_valid_iff hinv hfits).mp hvalid))]

/-- **Giving a handle back** keeps the invariant. -/
theorem inv_of_unregistered (hinv : RegistryInv s) (hlive : h ∈ s.live) :
    RegistryInv { s with reg := without s h, live := s.live.erase h } := by
  have hnodup_live := (List.nodup_append.mp hinv.nodup).1
  have herase := List.perm_cons_erase hlive
  -- the handle moves from one list to the other
  have hperm : (s.live ++ s.reg.free_list).Perm (s.live.erase h ++ (s.reg.free_list ++ [h])) := by
    calc (s.live ++ s.reg.free_list).Perm (h :: s.live.erase h ++ s.reg.free_list) :=
        herase.append_right _
      _ |>.Perm (s.live.erase h ++ h :: s.reg.free_list) := List.perm_middle.symm
      _ |>.Perm (s.live.erase h ++ (s.reg.free_list ++ [h])) :=
        (List.perm_append_singleton h s.reg.free_list).symm.append_left _
  have hmem : ∀ h', h' ∈ s.live.erase h ↔ h' ≠ h ∧ h' ∈ s.live := by
    intro h'
    exact hnodup_live.mem_erase_iff
  constructor
  · intro h'
    show h' ∈ s.live.erase h ++ (s.reg.free_list ++ [h]) ↔ 1 ≤ h' ∧ h' < s.reg.next_handle
    rw [← hperm.mem_iff]
    exact hinv.issued h'
  · exact hperm.nodup_iff.mp hinv.nodup
  · exact hinv.next_pos
  · exact hinv.room
  · exact (List.length_erase_of_mem hlive).symm
  · intro h' hpos hle
    show (if (h' - 1).toNat = (h - 1).toNat then false else s.reg.occupied (h' - 1).toNat) = true ↔
      h' ∈ s.live.erase h
    have hh := (live_bounds hinv hlive).1
    rw [hmem h', ← hinv.occupied h' hpos hle]
    by_cases heq : h' = h
    · rw [heq, if_pos rfl]
      simp
    · rw [if_neg (by omega)]
      exact ⟨fun hoccupied => ⟨heq, hoccupied⟩, fun hboth => hboth.2⟩
  · intro h' hlive'
    obtain ⟨hne, hlive'⟩ := (hmem h').mp hlive'
    obtain ⟨r', field, hlast, hslot, hholds⟩ := hinv.filled h' hlive'
    have hh := (live_bounds hinv hlive).1
    have hh' := (live_bounds hinv hlive').1
    refine ⟨r', field, hlast, ?_, hholds⟩
    show (if (h' - 1).toNat = (h - 1).toNat then none else s.reg.slots (h' - 1).toNat) = some field
    rw [if_neg (by omega), hslot]
  · exact hinv.last

/-! ## Section 7: The calls -/

theorem registry_inv_init : RegistryInv ⟨.new, [], fun _ => none⟩ := by
  have hempty : ∀ h : Int, ¬ (1 ≤ h ∧ h < HandleRegistry.new.next_handle) := by
    intro h hboth
    have hone : HandleRegistry.new.next_handle = 1 := rfl
    omega
  constructor
  · intro h
    exact ⟨fun hmem => absurd hmem (List.not_mem_nil), fun hboth => absurd hboth (hempty h)⟩
  · exact List.nodup_nil
  · exact le_rfl
  · show (1 : Int) ≤ MAX_CAPACITY + 1
    omega
  · rfl
  · intro h _ _
    exact ⟨fun hfalse => absurd hfalse Bool.false_ne_true, fun hmem => absurd hmem List.not_mem_nil⟩
  · intro h hmem
    exact absurd hmem List.not_mem_nil
  · intro h
    exact ⟨fun hfalse => absurd hfalse Bool.false_ne_true, fun hboth => absurd hboth (hempty h)⟩

theorem checked_of_refusal (h : r.refusal backends = none) :
    ∃ ptr mem_space, r.ptr = some ptr ∧ memory_space backends r.memory_space_token = some mem_space ∧
      1 ≤ r.rank ∧ ∀ d ∈ r.dims_read, 0 < d.toInt := by
  unfold Registration.refusal at h
  split at h
  · cases h
  · split at h
    · cases h
    · split at h
      · cases h
      · split at h
        · cases h
        · rename_i hptr hrank hspace hdims
          obtain ⟨ptr, hptr⟩ := Option.ne_none_iff_exists'.mp hptr
          obtain ⟨mem_space, hspace⟩ := Option.ne_none_iff_exists'.mp hspace
          refine ⟨ptr, mem_space, hptr, hspace, by omega, ?_⟩
          intro d hd
          by_contra hle
          exact hdims (List.any_eq_true.mpr ⟨d, hd, decide_eq_true (not_lt.mp hle)⟩)

theorem refusal_ne {code : Int} (h : r.refusal backends = some code) :
    code ≠ SUCCESS ∧ code ≠ ERR_REGISTRY_FULL := by
  unfold Registration.refusal at h
  split at h
  · exact Option.some.inj h ▸ by decide
  · split at h
    · exact Option.some.inj h ▸ by decide
    · split at h
      · exact Option.some.inj h ▸ by decide
      · split at h
        · exact Option.some.inj h ▸ by decide
        · cases h

theorem record_returned {ptr : Nat} (mem_space : MemorySpaceToken) (hptr : r.ptr = some ptr)
    (hdims : ∀ d ∈ r.dims_read, 0 < d.toInt) :
    ∃ field, r.record ptr mem_space = .returned field ∧ Holds r field := by
  have hextents : FieldView.validate_extents (r.dims_read.map (·.toInt.toNat)) = .returned () := by
    have hnone : (r.dims_read.map (·.toInt.toNat)).findIdx? (· = 0) = none := by
      rw [List.findIdx?_eq_none_iff]
      intro extent hmem
      obtain ⟨d, hd, rfl⟩ := List.mem_map.mp hmem
      have hpos := hdims d hd
      exact decide_eq_false (by omega)
    unfold FieldView.validate_extents
    rw [hnone]
  unfold Registration.record create_field_view
  rw [hextents, Outcome.returned_bind]
  by_cases hhost : mem_space = .Host
  · rw [if_pos hhost]
    exact ⟨_, rfl, hptr, rfl, rfl⟩
  · rw [if_neg hhost]
    exact ⟨_, rfl, hptr, rfl, rfl⟩

/-- **Registering**: a check fails, the registry is full, or a new handle is
    returned. -/
theorem register_legacy_ptr_spec (backends : Backends) (hinv : RegistryInv s) (r : Registration)
    (handle_out : Int) :
    (∃ code, r.refusal backends = some code ∧
      helm_span_register_legacy_ptr backends s.reg r handle_out = .returned (code, handle_out, s.reg)) ∨
    (r.refusal backends = none ∧ s.live.length = MAX_CAPACITY ∧
      helm_span_register_legacy_ptr backends s.reg r handle_out =
        .returned (ERR_REGISTRY_FULL, handle_out, s.reg)) ∨
    (r.refusal backends = none ∧ s.live.length < MAX_CAPACITY ∧
      ∃ (handle : Int) (reg' : HandleRegistry) (field : RegisteredField),
        helm_span_register_legacy_ptr backends s.reg r handle_out = .returned (SUCCESS, handle, reg') ∧
        1 ≤ handle ∧ handle ≤ MAX_CAPACITY ∧ Registered s.reg field handle reg' ∧ Holds r field) := by
  unfold helm_span_register_legacy_ptr
  cases hrefusal : r.refusal backends with
  | some code => exact .inl ⟨code, rfl, rfl⟩
  | none =>
    right
    obtain ⟨ptr, mem_space, hptr, hspace, -, hdims⟩ := checked_of_refusal hrefusal
    obtain ⟨field, hrecord, hholds⟩ := record_returned mem_space hptr hdims
    simp only [hptr, hspace, hrecord]
    rcases register_view_spec hinv field with ⟨hfull, hview⟩ | ⟨hroom, handle, reg', hpos, hle, hview, hreg⟩
    · left
      rw [hview, Outcome.returned_bind]
      exact ⟨trivial, hfull, if_pos rfl⟩
    · right
      have hne : handle ≠ ERR_REGISTRY_FULL := by
        intro heq
        have hminus : ERR_REGISTRY_FULL = -5 := rfl
        omega
      rw [hview, Outcome.returned_bind]
      exact ⟨trivial, hroom, handle, reg', field, if_neg hne, hpos, hle, hreg, hholds⟩

theorem unregister_spec (hinv : RegistryInv s) (handle : Int32) :
    (handle.toInt ∈ s.live ∧
      helm_span_unregister s.reg handle = (SUCCESS, without s handle.toInt)) ∨
    (handle.toInt ∉ s.live ∧ helm_span_unregister s.reg handle = (ERR_INVALID_HANDLE, s.reg)) := by
  have hfits := fits_32.mp (fits_toInt32 handle)
  unfold helm_span_unregister
  by_cases hlive : handle.toInt ∈ s.live
  · left
    rw [unregister_of_live hinv hlive]
    exact ⟨hlive, rfl⟩
  · right
    rw [unregister_of_not_live hinv hfits.2 hlive]
    exact ⟨hlive, rfl⟩

/-- What a caller gets to see of a registration. -/
structure Shows (r : Registration) (view : ViewOut) : Prop where
  ptr : view.ptr_out = r.ptr
  rank : view.rank_out = r.rank
  dims : ∀ i : Nat, (i : Int) < r.rank → view.dims_out i = r.dims i

theorem get_view_spec (hinv : RegistryInv s) (handle : Int32) (out : ViewOut) :
    (handle.toInt ∈ s.live ∧ ∃ r view, s.last handle.toInt = some r ∧ Shows r view ∧
      helm_span_get_view s.reg handle out = (SUCCESS, view)) ∨
    (handle.toInt ∉ s.live ∧ helm_span_get_view s.reg handle out = (ERR_INVALID_HANDLE, out)) := by
  have hfits := fits_32.mp (fits_toInt32 handle)
  have hvalid := is_valid_iff hinv hfits.2
  unfold helm_span_get_view HandleRegistry.lookup
  by_cases hlive : handle.toInt ∈ s.live
  · left
    obtain ⟨hpos, -⟩ := live_bounds hinv hlive
    obtain ⟨r, field, hlast, hslot, hholds⟩ := hinv.filled _ hlive
    rw [if_pos (hvalid.mpr hlive), index_of_pos hpos (by omega), hslot]
    refine ⟨hlive, r, _, hlast, ⟨hholds.ptr.symm, hholds.rank, ?_⟩, rfl⟩
    intro i hi
    show (if (i : Int) < field.rank then field.dims.getD i 0 else out.dims_out i) = r.dims i
    rw [if_pos (hholds.rank ▸ hi), hholds.dims]
    unfold Registration.dims_read
    rw [List.getD_eq_getElem?_getD, List.getElem?_map, List.getElem?_range (by omega)]
    rfl
  · right
    rw [if_neg (fun h => hlive (hvalid.mp h))]
    exact ⟨hlive, rfl⟩

/-! ## Section 8: All interleavings -/

/-- **Every call** keeps the invariant. -/
theorem registry_inv_step {s' : RegistryRun} {c : Call} (hinv : RegistryInv s)
    (hstep : RegistryRun.next backends s c = some s') : RegistryInv s' := by
  cases c with
  | register r =>
    rcases register_legacy_ptr_spec backends hinv r 0 with ⟨code, hcode, hcall⟩ | ⟨-, -, hcall⟩ |
      ⟨-, -, handle, reg', field, hcall, hpos, hle, hreg, hholds⟩
    · simp only [RegistryRun.next, hcall, if_neg (refusal_ne hcode).1, Option.some.injEq] at hstep
      exact hstep ▸ hinv
    · have hne : ERR_REGISTRY_FULL ≠ SUCCESS := by decide
      simp only [RegistryRun.next, hcall, if_neg hne, Option.some.injEq] at hstep
      exact hstep ▸ hinv
    · simp only [RegistryRun.next, hcall, if_pos, Option.some.injEq] at hstep
      exact hstep ▸ inv_of_registered hinv hpos hle hreg hholds
  | get_view handle =>
    exact Option.some.inj hstep ▸ hinv
  | unregister handle =>
    rcases unregister_spec hinv handle with ⟨hlive, hcall⟩ | ⟨-, hcall⟩
    · simp only [RegistryRun.next, hcall, if_pos, Option.some.injEq] at hstep
      exact hstep ▸ inv_of_unregistered hinv hlive
    · have hne : ERR_INVALID_HANDLE ≠ SUCCESS := by decide
      simp only [RegistryRun.next, hcall, if_neg hne, Option.some.injEq] at hstep
      exact hstep ▸ hinv

theorem registry_inv_reachable (hr : (registry backends).Reachable s) : RegistryInv s := by
  apply hr.invariant
  · intro s hinit
    exact hinit ▸ registry_inv_init
  · intro s c s' _ hinv hstep
    exact registry_inv_step hinv hstep

end

end Span
