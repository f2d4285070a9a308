import Helm.Framework.Bytes

/-! # AXIS: the weight cache

  `WeightCache` writes an interpolation matrix to a blob in memory and reads
  it back: a header of 40 bytes with the dimensions, then seven arrays one
  after the other. Writer, reader and size function each go through the
  same sequence of fields on their own.

  The values are bit patterns of 64 bits. Sizes are of type `size_t` and
  wrap. Whether Kokkos can allocate an array is a parameter; the memory of
  an array is what its elements take in `size_t` arithmetic.

  Main result: `round_trip`.
-/

namespace Axis

open Signed Segments Bytes

/-! ## Section 1: Matrices in memory -/

/-- A `Kokkos::View` of elements of eight bytes: its extent, and the words in
    the memory behind it. -/
structure WordView where
  extent : Nat
  data : List Word
  deriving DecidableEq

/-- The members of `InterpolationMatrix`. -/
structure MatrixViews where
  factor_list : WordView
  factor_row : WordView
  factor_col : WordView
  frac_a : WordView
  frac_b : WordView
  area_a : WordView
  area_b : WordView
  n_src : Nat
  n_dst : Nat
  deriving DecidableEq

namespace MatrixViews

variable (m : MatrixViews)

def nnz : Nat := m.factor_list.extent

def views : List WordView :=
  [m.factor_list, m.factor_row, m.factor_col, m.frac_a, m.frac_b, m.area_a, m.area_b]

end MatrixViews

/-- The extents of the seven arrays in their order. -/
def array_extents (n_src n_dst nnz : Nat) : List Nat := [nnz, nnz, nnz, n_src, n_dst, n_src, n_dst]

/-! ## Section 2: The format -/

namespace WeightCache

def FORMAT_VERSION : Nat := 1

def MAGIC : Nat := 0x43574841

def ENDIAN_LITTLE : UInt8 := 0x01

def ENDIAN_BIG : UInt8 := 0x02

def HEADER_SIZE : Nat := 40

/-- The number of bytes of a blob. -/
def exact_size (n_src n_dst nnz : Nat) : Nat :=
  HEADER_SIZE + nnz * 8 + nnz * 8 + nnz * 8 + n_src * 8 + n_dst * 8 + n_src * 8 + n_dst * 8

/-- The same in `size_t`. -/
def compute_blob_size (n_src n_dst nnz : Nat) : Nat := exact_size n_src n_dst nnz % 2 ^ 64

def detect_native_endian (native : Endian) : UInt8 :=
  match native with
  | .little => ENDIAN_LITTLE
  | .big => ENDIAN_BIG

def write_header (native : Endian) (n_src n_dst nnz : Nat) : List UInt8 :=
  of_nat native 4 MAGIC ++ of_nat native 4 FORMAT_VERSION ++ [detect_native_endian native] ++
    List.replicate 7 0 ++ of_nat native 8 n_src ++ of_nat native 8 n_dst ++ of_nat native 8 nnz

/-- `n * sizeof(double)`, which is also `n * sizeof(index_t)` -/
def array_bytes (n : Nat) : Nat := n * 8 % 2 ^ 64

/-! ## Section 3: Writing -/

/-- The arrays that `serialize` copies, with the number of elements that it
    takes each to have. -/
def body (m : MatrixViews) : List (WordView × Nat) :=
  m.views.zip (array_extents m.n_src m.n_dst m.nnz)

/-- One `memcpy` after the other. -/
def copy_views (native : Endian) (buffer : List UInt8) (pos : Nat) :
    List (WordView × Nat) → Outcome String (List UInt8)
  | [] => .returned buffer
  | (view, n) :: rest => do
    let buffer ← memcpy_to buffer pos (bytes_of_words native view.data) (array_bytes n)
    copy_views native buffer (pos + array_bytes n) rest

/-- The number that is returned, and the buffer afterwards. -/
def serialize (native : Endian) (m : MatrixViews) (buf : Option (List UInt8)) :
    Outcome String (Nat × Option (List UInt8)) :=
  let required := compute_blob_size m.n_src m.n_dst m.nnz
  match buf with
  | none => .returned (required, none)
  | some buffer =>
    if buffer.length < required then
      .thrown ("axis::solver::WeightCache::serialize: buf_size (" ++ toString buffer.length ++
        ") < required (" ++ toString required ++ ")")
    else do
      let header := write_header native m.n_src m.n_dst m.nnz
      let buffer ← memcpy_to buffer 0 header header.length
      let buffer ← copy_views native buffer HEADER_SIZE (body m)
      return (required, some buffer)

/-! ## Section 4: Reading -/

structure Header where
  magic : Nat
  version : Nat
  endian : UInt8
  n_src : Nat
  n_dst : Nat
  nnz : Nat
  deriving DecidableEq

def read_header (native : Endian) (buffer : List UInt8) : Header where
  magic := to_nat native (buffer.take 4)
  version := to_nat native ((buffer.drop 4).take 4)
  endian := buffer.getD 8 0
  n_src := to_nat native ((buffer.drop 16).take 8)
  n_dst := to_nat native ((buffer.drop 24).take 8)
  nnz := to_nat native ((buffer.drop 32).take 8)

def to_hex (val : Nat) : String :=
  let digits := "0123456789ABCDEF".toList
  String.ofList ((List.range 8).map fun i => digits.getD (val / 16 ^ (7 - i) % 16) '0')

def endian_name (e : UInt8) : String :=
  if e = ENDIAN_LITTLE then "little-endian"
  else if e = ENDIAN_BIG then "big-endian"
  else "unknown(0x" ++ to_hex e.toNat ++ ")"

/-- The text of the exception for a header that is not accepted. -/
def header_error (native : Endian) (h : Header) : Option String :=
  if h.magic ≠ MAGIC then
    some ("axis::solver::WeightCache::deserialize: invalid magic bytes (expected 0x" ++
      to_hex MAGIC ++ ", got 0x" ++ to_hex h.magic ++ ")")
  else if h.version ≠ FORMAT_VERSION then
    some ("axis::solver::WeightCache::deserialize: format version mismatch (expected " ++
      toString FORMAT_VERSION ++ ", got " ++ toString h.version ++ ")")
  else if h.endian ≠ detect_native_endian native then
    some ("axis::solver::WeightCache::deserialize: endianness mismatch (blob is " ++
      endian_name h.endian ++ ", native is " ++ endian_name (detect_native_endian native) ++ ")")
  else none

def size_error (buf_size : Nat) (h : Header) : String :=
  "axis::solver::WeightCache::deserialize: blob size mismatch (buf_size=" ++ toString buf_size ++
    ", expected=" ++ toString (compute_blob_size h.n_src h.n_dst h.nnz) ++ " for n_src=" ++
    toString h.n_src ++ ", n_dst=" ++ toString h.n_dst ++ ", nnz=" ++ toString h.nnz ++ ")"

/-- One `memcpy` after the other, each into a view of the given extent. -/
def read_views (native : Endian) (buffer : List UInt8) (pos : Nat) :
    List Nat → Outcome String (List WordView)
  | [] => .returned []
  | n :: ns => do
    let bytes ← memcpy_from buffer pos (array_bytes n)
    let views ← read_views native buffer (pos + array_bytes n) ns
    return ⟨n, words_of_bytes native (array_bytes n / 8) bytes⟩ :: views

/-- The matrix of the seven views. -/
def pack_views (n_src n_dst : Nat) : List WordView → Outcome String MatrixViews
  | [factor_list, factor_row, factor_col, frac_a, frac_b, area_a, area_b] =>
    .returned { factor_list, factor_row, factor_col, frac_a, frac_b, area_a, area_b, n_src, n_dst }
  | _ => .undefined

/-- `allocates n` says whether Kokkos can allocate a view of extent `n`; it
    throws otherwise. -/
def deserialize (native : Endian) (allocates : Nat → Bool) (buf : Option (List UInt8)) :
    Outcome String MatrixViews :=
  match buf with
  | none => .thrown "axis::solver::WeightCache::deserialize: buf is nullptr"
  | some buffer =>
    if buffer.length < HEADER_SIZE then
      .thrown ("axis::solver::WeightCache::deserialize: buf_size (" ++ toString buffer.length ++
        ") < minimum header size (40)")
    else
      let h := read_header native buffer
      match header_error native h with
      | some text => .thrown text
      | none =>
        if buffer.length < compute_blob_size h.n_src h.n_dst h.nnz then
          .thrown (size_error buffer.length h)
        else if !(array_extents h.n_src h.n_dst h.nnz).all allocates then
          .thrown "Kokkos failed to allocate memory"
        else do
          let views ← read_views native buffer HEADER_SIZE (array_extents h.n_src h.n_dst h.nnz)
          pack_views h.n_src h.n_dst views

/-! ## Section 5: Fields of the header -/

theorem length_write_header (native : Endian) (n_src n_dst nnz : Nat) :
    (write_header native n_src n_dst nnz).length = HEADER_SIZE := by
  simp [write_header, HEADER_SIZE]

theorem field_at {front field rest : List UInt8} {pos width : Nat} (hpos : front.length = pos)
    (hwidth : field.length = width) : ((front ++ field ++ rest).drop pos).take width = field := by
  rw [List.append_assoc, List.drop_left' hpos, List.take_left' hwidth]

/-- The header is read back. -/
theorem read_header_write_header (native : Endian) (n_src n_dst nnz : Nat) (rest : List UInt8)
    (hsrc : n_src < 2 ^ 64) (hdst : n_dst < 2 ^ 64) (hnnz : nnz < 2 ^ 64) :
    read_header native (write_header native n_src n_dst nnz ++ rest) =
      { magic := MAGIC, version := FORMAT_VERSION, endian := detect_native_endian native,
        n_src, n_dst, nnz } := by
  set magic := of_nat native 4 MAGIC with hmagic
  set version := of_nat native 4 FORMAT_VERSION with hversion
  set src := of_nat native 8 n_src with hsrc_bytes
  set dst := of_nat native 8 n_dst with hdst_bytes
  set entries := of_nat native 8 nnz with hentries
  let endian := [detect_native_endian native]
  let pad : List UInt8 := List.replicate 7 0
  set buffer := write_header native n_src n_dst nnz ++ rest with hbuffer
  have hparts : buffer = magic ++ version ++ endian ++ pad ++ src ++ dst ++ entries ++ rest := rfl
  -- each field with what is before it and behind it
  have h0 : buffer.take 4 = magic := by
    rw [hparts]
    simp only [List.append_assoc]
    exact List.take_left' (length_of_nat native 4 MAGIC)
  have h4 : (buffer.drop 4).take 4 = version := by
    have hassoc : buffer = magic ++ version ++ (endian ++ pad ++ src ++ dst ++ entries ++ rest) := by
      rw [hparts]
      simp only [List.append_assoc]
    rw [hassoc]
    apply field_at <;> simp [hmagic, hversion]
  have h8 : buffer.getD 8 0 = detect_native_endian native := by
    have hassoc : buffer = (magic ++ version) ++
        (detect_native_endian native :: (pad ++ src ++ dst ++ entries ++ rest)) := by
      rw [hparts]
      simp only [List.append_assoc]
      rfl
    have hlen : (magic ++ version).length = 8 := by simp [hmagic, hversion]
    rw [hassoc, List.getD_append_right _ _ _ _ (by omega), hlen]
    rfl
  have h16 : (buffer.drop 16).take 8 = src := by
    have hassoc : buffer = (magic ++ version ++ endian ++ pad) ++ src ++ (dst ++ entries ++ rest) := by
      rw [hparts]
      simp only [List.append_assoc]
    rw [hassoc]
    apply field_at <;> simp [hmagic, hversion, hsrc_bytes, endian, pad]
  have h24 : (buffer.drop 24).take 8 = dst := by
    have hassoc : buffer = (magic ++ version ++ endian ++ pad ++ src) ++ dst ++ (entries ++ rest) := by
      rw [hparts]
      simp only [List.append_assoc]
    rw [hassoc]
    apply field_at <;> simp [hmagic, hversion, hsrc_bytes, hdst_bytes, endian, pad]
  have h32 : (buffer.drop 32).take 8 = entries := by
    rw [hparts]
    apply field_at <;> simp [hmagic, hversion, hsrc_bytes, hdst_bytes, hentries, endian, pad]
  unfold read_header
  rw [h0, h4, h8, h16, h24, h32, hmagic, hversion, hsrc_bytes, hdst_bytes, hentries,
    to_nat_of_nat_of_lt (by decide), to_nat_of_nat_of_lt (by decide), to_nat_of_nat_of_lt hsrc,
    to_nat_of_nat_of_lt hdst, to_nat_of_nat_of_lt hnnz]

theorem header_error_eq_none_iff {native : Endian} {h : Header} : header_error native h = none ↔
    h.magic = MAGIC ∧ h.version = FORMAT_VERSION ∧ h.endian = detect_native_endian native := by
  unfold header_error
  split
  · next hne => simp [hne]
  · next hmagic =>
    split
    · next hne => simp [hne]
    · next hversion =>
      split
      · next hne => simp [hne]
      · next hendian => simp_all

/-! ## Section 6: Arrays -/

theorem array_bytes_of_lt {n : Nat} (h : n * 8 < 2 ^ 64) : array_bytes n = n * 8 :=
  Nat.mod_eq_of_lt h

/-- The arrays have the number of elements that is taken of them. -/
def Filled (arrays : List (WordView × Nat)) : Prop :=
  ∀ c ∈ arrays, c.1.extent = c.2 ∧ c.1.data.length = c.2 ∧ c.2 * 8 < 2 ^ 64

/-- The bytes of arrays one after the other. -/
def views_bytes (native : Endian) (views : List WordView) : List UInt8 :=
  views.flatMap fun view => bytes_of_words native view.data

theorem length_bytes_of_filled (native : Endian) {arrays : List (WordView × Nat)}
    {c : WordView × Nat} (hfilled : Filled arrays) (hc : c ∈ arrays) :
    (bytes_of_words native c.1.data).length = array_bytes c.2 := by
  obtain ⟨_, hlen, hlt⟩ := hfilled c hc
  rw [length_bytes_of_words, hlen, array_bytes_of_lt hlt, mul_comm]

theorem length_views_bytes (native : Endian) {arrays : List (WordView × Nat)}
    (hfilled : Filled arrays) :
    (views_bytes native (arrays.map (·.1))).length = (arrays.map fun c => c.2 * 8).sum := by
  induction arrays with
  | nil => rfl
  | cons c arrays ih =>
    have hrest := ih fun c' hc' => hfilled c' (List.mem_cons_of_mem c hc')
    have hfirst := length_bytes_of_filled native hfilled List.mem_cons_self
    obtain ⟨_, _, hlt⟩ := hfilled c List.mem_cons_self
    rw [array_bytes_of_lt hlt] at hfirst
    show (bytes_of_words native c.1.data ++ views_bytes native (arrays.map (·.1))).length = _
    rw [List.length_append, hrest, hfirst, List.map_cons, List.sum_cons]

theorem copy_views_filled {native : Endian} {arrays : List (WordView × Nat)}
    {front rest : List UInt8} (hfilled : Filled arrays)
    (hroom : (views_bytes native (arrays.map (·.1))).length ≤ rest.length) :
    copy_views native (front ++ rest) front.length arrays =
      .returned (front ++ views_bytes native (arrays.map (·.1)) ++
        rest.drop (views_bytes native (arrays.map (·.1))).length) := by
  induction arrays generalizing front rest with
  | nil => simp [copy_views, views_bytes]
  | cons c arrays ih =>
    obtain ⟨view, n⟩ := c
    have hbytes := length_bytes_of_filled native hfilled List.mem_cons_self
    dsimp only at hbytes
    have hsplit : views_bytes native (((view, n) :: arrays).map (·.1)) =
        bytes_of_words native view.data ++ views_bytes native (arrays.map (·.1)) := rfl
    rw [hsplit, List.length_append] at hroom
    rw [hsplit, copy_views, ← hbytes, memcpy_to_append (by omega), Outcome.returned_bind,
      ← List.length_append, ih (fun c' hc' => hfilled c' (List.mem_cons_of_mem _ hc'))]
    · rw [List.length_append, List.drop_drop, List.append_assoc front]
    · rw [List.length_drop]
      omega

theorem read_views_filled (native : Endian) {arrays : List (WordView × Nat)}
    (front rest : List UInt8) (hfilled : Filled arrays) :
    read_views native (front ++ views_bytes native (arrays.map (·.1)) ++ rest) front.length
      (arrays.map (·.2)) = .returned (arrays.map (·.1)) := by
  induction arrays generalizing front with
  | nil => rfl
  | cons c arrays ih =>
    obtain ⟨view, n⟩ := c
    obtain ⟨hextent, hlen, hlt⟩ := hfilled (view, n) List.mem_cons_self
    have hbytes := length_bytes_of_filled native hfilled List.mem_cons_self
    dsimp only at hextent hlen hlt hbytes
    have hsplit : front ++ views_bytes native (((view, n) :: arrays).map (·.1)) ++ rest =
        front ++ bytes_of_words native view.data ++
          (views_bytes native (arrays.map (·.1)) ++ rest) := by
      have hcons : views_bytes native (((view, n) :: arrays).map (·.1)) =
          bytes_of_words native view.data ++ views_bytes native (arrays.map (·.1)) := rfl
      rw [hcons]
      simp only [List.append_assoc]
    have hrest := ih (front ++ bytes_of_words native view.data)
      fun c' hc' => hfilled c' (List.mem_cons_of_mem _ hc')
    rw [List.length_append, List.append_assoc] at hrest
    rw [hsplit, List.map_cons, List.map_cons, read_views, ← hbytes, memcpy_from_append,
      Outcome.returned_bind, hrest, Outcome.returned_bind, Outcome.pure_eq]
    -- as many words as the view has
    have hwords : (bytes_of_words native view.data).length / 8 = view.data.length := by
      rw [length_bytes_of_words]
      omega
    rw [hwords, words_of_bytes_of_words, ← hextent]

end WeightCache

/-! ## Section 7: The round trip -/

/-- A matrix whose arrays have the lengths of its dimensions. Together with a
    header they have room in one address space. -/
structure StoredMatrix extends MatrixViews where
  consistent : ∀ c ∈ WeightCache.body toMatrixViews, c.1.extent = c.2 ∧ c.1.data.length = c.2
  in_memory : WeightCache.exact_size n_src n_dst toMatrixViews.nnz < 2 ^ 64

namespace WeightCache

theorem map_fst_body (m : MatrixViews) : (body m).map (·.1) = m.views := rfl

theorem map_snd_body (m : MatrixViews) :
    (body m).map (·.2) = array_extents m.n_src m.n_dst m.nnz := rfl

theorem exact_size_eq (n_src n_dst nnz : Nat) :
    exact_size n_src n_dst nnz =
      HEADER_SIZE + ((array_extents n_src n_dst nnz).map (· * 8)).sum := by
  simp only [exact_size, array_extents, List.map_cons, List.map_nil, List.sum_cons, List.sum_nil]
  omega

variable (m : StoredMatrix)

theorem filled : Filled (body m.toMatrixViews) := by
  intro c hc
  obtain ⟨hextent, hlen⟩ := m.consistent c hc
  refine ⟨hextent, hlen, ?_⟩
  -- no array is longer than all of them
  have hmem : c.2 * 8 ∈ (array_extents m.n_src m.n_dst m.nnz).map (· * 8) :=
    List.mem_map.mpr ⟨c.2, List.mem_map.mpr ⟨c, hc, rfl⟩, rfl⟩
  have hle := List.le_sum_of_mem hmem
  have hsize := m.in_memory
  rw [exact_size_eq] at hsize
  omega

/-- The bytes of a matrix. -/
def blob (native : Endian) : List UInt8 :=
  write_header native m.n_src m.n_dst m.nnz ++ views_bytes native m.views

theorem length_views :
    (views_bytes native m.views).length =
      exact_size m.n_src m.n_dst m.nnz - HEADER_SIZE := by
  have hlen := length_views_bytes native (filled m)
  rw [map_fst_body] at hlen
  rw [hlen, exact_size_eq, ← map_snd_body, List.map_map, Nat.add_sub_cancel_left]
  rfl

theorem length_blob (native : Endian) :
    (blob m native).length = compute_blob_size m.n_src m.n_dst m.nnz := by
  unfold blob compute_blob_size
  rw [List.length_append, length_write_header, length_views, Nat.mod_eq_of_lt m.in_memory]
  have hle : HEADER_SIZE ≤ exact_size m.n_src m.n_dst m.nnz := by
    rw [exact_size_eq]
    omega
  omega

theorem serialize_eq (native : Endian) {buffer : List UInt8}
    (hroom : compute_blob_size m.n_src m.n_dst m.nnz ≤ buffer.length) :
    serialize native m.toMatrixViews (some buffer) =
      .returned (compute_blob_size m.n_src m.n_dst m.nnz,
        some (blob m native ++ buffer.drop (compute_blob_size m.n_src m.n_dst m.nnz))) := by
  have hlen := length_blob m native
  set required := compute_blob_size m.n_src m.n_dst m.nnz
  set header := write_header native m.n_src m.n_dst m.nnz with hheader
  have hparts : (blob m native).length = header.length + (views_bytes native m.views).length :=
    List.length_append
  have hsize : header.length = HEADER_SIZE := length_write_header native _ _ _
  have hfirst : (memcpy_to buffer 0 header header.length : Outcome String (List UInt8)) =
      .returned (header ++ buffer.drop header.length) :=
    @memcpy_to_append _ [] _ _ (by omega)
  have hrest : copy_views native (header ++ buffer.drop header.length) HEADER_SIZE
      (body m.toMatrixViews) = .returned (header ++ views_bytes native m.views ++
        (buffer.drop header.length).drop (views_bytes native m.views).length) := by
    rw [← hsize, ← map_fst_body]
    apply copy_views_filled (filled m)
    rw [map_fst_body, List.length_drop]
    omega
  unfold serialize
  dsimp only
  rw [if_neg (by omega), hfirst, Outcome.returned_bind, hrest, Outcome.returned_bind,
    Outcome.pure_eq, List.drop_drop, ← hparts, hlen]
  rfl

theorem deserialize_blob (native : Endian) {allocates : Nat → Bool}
    (halloc : ∀ n ∈ array_extents m.n_src m.n_dst m.nnz, allocates n = true) :
    deserialize native allocates (some (blob m native)) = .returned m.toMatrixViews := by
  have hsize := m.in_memory
  have hexact := exact_size_eq m.n_src m.n_dst m.nnz
  simp only [array_extents, List.map_cons, List.map_nil, List.sum_cons, List.sum_nil] at hexact
  have hheader : read_header native (blob m native) = _ :=
    read_header_write_header native m.n_src m.n_dst m.nnz (views_bytes native m.views) (by omega)
      (by omega) (by omega)
  have hlong : HEADER_SIZE ≤ (blob m native).length := by
    unfold blob
    rw [List.length_append, length_write_header]
    omega
  have haccepted : header_error native (read_header native (blob m native)) = none := by
    rw [hheader]
    exact header_error_eq_none_iff.mpr ⟨rfl, rfl, rfl⟩
  have hviews : read_views native (blob m native) HEADER_SIZE
      (array_extents m.n_src m.n_dst m.nnz) = .returned m.views := by
    have hread := read_views_filled native (write_header native m.n_src m.n_dst m.nnz) []
      (filled m)
    rw [length_write_header, List.append_nil, map_fst_body, map_snd_body] at hread
    exact hread
  unfold deserialize
  dsimp only
  rw [if_neg (not_lt.mpr hlong), haccepted]
  dsimp only
  rw [hheader]
  dsimp only
  have hall : (array_extents m.n_src m.n_dst m.nnz).all allocates = true :=
    List.all_eq_true.mpr halloc
  rw [if_neg (by rw [length_blob]; exact lt_irrefl _), hall, Bool.not_true,
    if_neg Bool.false_ne_true, hviews, Outcome.returned_bind]
  rfl

/-- **Round trip**: the size is what a query returns, the writer fills
    exactly these bytes of a buffer that has room for them, and the reader
    gets the same matrix from them. -/
theorem round_trip (native : Endian) {allocates : Nat → Bool}
    (halloc : ∀ n ∈ array_extents m.n_src m.n_dst m.nnz, allocates n = true) :
    let required := compute_blob_size m.n_src m.n_dst m.nnz
    serialize native m.toMatrixViews none = .returned (required, none) ∧
      ∃ bytes, bytes.length = required ∧
        (∀ buffer, required ≤ buffer.length →
          serialize native m.toMatrixViews (some buffer) =
            .returned (required, some (bytes ++ buffer.drop required))) ∧
        deserialize native allocates (some bytes) = .returned m.toMatrixViews := by
  refine ⟨rfl, blob m native, length_blob m native, ?_, deserialize_blob m native halloc⟩
  intro buffer hroom
  exact serialize_eq m native hroom

/-! ### Two entries -/

/-- Two source cells for one destination cell; the second weight is a NaN. -/
def averaging : StoredMatrix where
  factor_list := ⟨2, [0x3FE0000000000000, 0x7FF8000000000001]⟩
  factor_row := ⟨2, [0, 0]⟩
  factor_col := ⟨2, [0, 1]⟩
  frac_a := ⟨2, [0x3FF0000000000000, 0x3FF0000000000000]⟩
  frac_b := ⟨1, [0x3FF0000000000000]⟩
  area_a := ⟨2, [0x4000000000000000, 0x4000000000000000]⟩
  area_b := ⟨1, [0x4010000000000000]⟩
  n_src := 2
  n_dst := 1
  consistent := by decide
  in_memory := by decide

theorem round_trip_averaging :
    let required := compute_blob_size 2 1 2
    serialize .little averaging.toMatrixViews none = .returned (required, none) ∧
      ∃ bytes, bytes.length = required ∧
        (∀ buffer, required ≤ buffer.length →
          serialize .little averaging.toMatrixViews (some buffer) =
            .returned (required, some (bytes ++ buffer.drop required))) ∧
        deserialize .little (fun n => decide (n ≤ 2 ^ 40)) (some bytes) =
          .returned averaging.toMatrixViews :=
  round_trip averaging .little (by decide)

end WeightCache

end Axis
