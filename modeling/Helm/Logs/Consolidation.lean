import Helm.Framework.OrdMap
import Helm.Framework.Runs
import Helm.Framework.Segments

/-! # LOGS: collective consolidation

  `Logger::consolidate` sends the keys of all buffered records, with the
  rank they come from, to rank 0, which makes one record of every key and
  annotates it with the ranks that logged it.

  A record takes part with its key, its severity and its message; its other
  fields are not sent. A function is `none` where the source overflows an
  `int` or copies a range of negative length, which is undefined behaviour.

  Main results:
  - `collectives_match_iff`: when all ranks enter the same collectives
  - `consolidation_correct`: what rank 0 makes of the records
-/

namespace Logs

open Signed Segments Runs

/-! ## Section 1: Records and keys -/

/-- `Severity_Level`, an enumeration over `int`. -/
abbrev SeverityLevel := Int32

/-- `Consolidation_Key`. A message is its bytes. -/
structure Key where
  severity : SeverityLevel
  message : List UInt8
  deriving DecidableEq

/-- `KeyCompare` compares severities as `int` and then messages byte by byte. -/
def Key.order (k : Key) : Lex (Int × List Nat) :=
  toLex (k.severity.toInt, k.message.map UInt8.toNat)

theorem Key.order_injective : Function.Injective Key.order := by
  intro a b h
  obtain ⟨hseverity, hmessage⟩ := Prod.mk.inj (toLex_inj.mp h)
  cases a
  cases b
  have hbytes := List.map_injective_iff.mpr (fun _ _ => UInt8.toNat_inj.mp) hmessage
  simp only [Key.mk.injEq]
  exact ⟨Int32.toInt_inj.mp hseverity, hbytes⟩

instance : LinearOrder Key := LinearOrder.lift' Key.order Key.order_injective

structure ConsolidatedRecord where
  key : Key
  rank_count : Int
  ranges : List Run

def compact_ranges (ranks : List Int) : List Run := compact (sort_unique ranks)

/-! ## Section 2: Serialization -/

/-- Append one record to a buffer. -/
def serialize_record (record : Key) (rank : Int) (buffer : List UInt8) : Option (List UInt8) :=
  let msg_len := to_int record.message.length
  if msg_len < 0 then none
  else some (buffer ++ int_bytes record.severity.toInt ++ int_bytes msg_len ++
    record.message.take msg_len.toNat ++ int_bytes rank)

/-- Step 1 of `consolidate_collective`. -/
def serialize (rank : Int) (records : List Key) : Option (List UInt8) :=
  records.foldlM (fun buffer record => serialize_record record rank buffer) []

/-- The loop of `deserialize_records`, on what is left of the buffer. -/
def read_records (buffer : List UInt8) : List (Key × Int) :=
  if 12 ≤ buffer.length then
    let severity := int_of_bytes (buffer.take 4)
    let msg_len := int_of_bytes ((buffer.drop 4).take 4)
    let rest := buffer.drop 8
    if msg_len < 0 ∨ rest.length < msg_len.toNat + 4 then []
    else
      let rank := int_of_bytes ((rest.drop msg_len.toNat).take 4)
      (⟨.ofInt severity, rest.take msg_len.toNat⟩, rank) ::
        read_records (rest.drop (msg_len.toNat + 4))
  else []
termination_by buffer.length
decreasing_by
  simp only [List.length_drop]
  omega

/-- `groups[key].push_back(rank)` -/
def push_rank (groups : OrdMap Key (List Int)) (entry : Key × Int) : OrdMap Key (List Int) :=
  groups.insert entry.1 ((groups.lookup entry.1).getD [] ++ [entry.2])

def deserialize_records (buffer : List UInt8) : OrdMap Key (List Int) :=
  (read_records buffer).foldl push_rank .empty

/-! ## Section 3: The collective -/

/-- The loop that computes the displacements; `total` is an `int`. -/
def displacements (total : Int) : List Int → Option (List Int × Int)
  | [] => some ([], total)
  | size :: sizes =>
    if Fits 32 (total + size) then
      (displacements (total + size) sizes).map fun (ds, t) => (total :: ds, t)
    else none

/-- The map of keys to ranks, turned into records. -/
def build_records (groups : OrdMap Key (List Int)) : List ConsolidatedRecord :=
  groups.entries.map fun (key, ranks) =>
    let ranges := compact_ranges ranks
    { key, ranges, rank_count := (ranges.map Run.size).sum }

/-- What `consolidate_collective` returns on a rank when no call fails;
    `datas` are the serialized records of all ranks, in their order. -/
def consolidate_collective (my_rank : Int) (datas : List (List UInt8)) :
    Option (List ConsolidatedRecord) :=
  if my_rank ≠ 0 then some []
  else
    let all_sizes := datas.map fun data => to_int data.length
    match displacements 0 all_sizes with
    | none => none
    | some (displs, total) =>
      -- a negative total throws when the buffer is resized
      if total < 0 then some []
      else
        let all_data := write_all (List.replicate total.toNat 0) ((displs.map Int.toNat).zip datas)
        some (build_records (deserialize_records all_data))

/-- A collective operation, with its root. -/
inductive Collective
  | gather (root : Int)
  | gatherv (root : Int)
  deriving DecidableEq

/-- What a rank brings to `Logger::consolidate`: its buffered records, and
    which of its own steps fail. -/
structure RankInput where
  buffered : List Key
  comm_size_ok : Bool
  /-- An exception while the records are serialized. -/
  throws : Bool
  gather_ok : Bool
  /-- An exception between the two collectives; only rank 0 allocates there. -/
  throws_between : Bool

/-- The collectives a rank enters in `Logger::consolidate` with a communicator.
    `all_sizes` are the sizes rank 0 has gathered. -/
def consolidate (my_rank : Int) (input : RankInput) (all_sizes : List Int) :
    Option (List Collective) :=
  if input.buffered = [] then some []
  else if !input.comm_size_ok then some []
  else if input.throws then some []
  else
    match serialize my_rank input.buffered with
    | none => none
    | some _ =>
      if !input.gather_ok then some [.gather 0]
      else if my_rank ≠ 0 then some [.gather 0, .gatherv 0]
      else
        match displacements 0 all_sizes with
        | none => none
        | some (_, total) =>
          if total < 0 ∨ input.throws_between then some [.gather 0]
          else some [.gather 0, .gatherv 0]

/-- The size a rank contributes. -/
def local_size (my_rank : Int) (input : RankInput) : Int :=
  match serialize my_rank input.buffered with
  | none => 0
  | some data => to_int data.length

/-- The ranks are numbered in the order of the list. -/
def gathered_sizes (inputs : List RankInput) : List Int :=
  inputs.mapIdx fun r input => local_size r input

/-! ## Section 4: Which collectives the ranks enter -/

/-- The lengths of the messages are not negative as an `int`. -/
def LengthsFit (records : List Key) : Prop :=
  ∀ record ∈ records, 0 ≤ to_int record.message.length

/-- The sums of the first sizes are in the range of an `int`, and the sum of all
    is not negative. -/
def SizesFit (sizes : List Int) : Prop :=
  (∀ k, Fits 32 (sizes.take k).sum) ∧ 0 ≤ sizes.sum

/-- The rank has something to consolidate and fails in none of its own steps. -/
structure TakesPart (input : RankInput) : Prop where
  buffered : input.buffered ≠ []
  comm_size_ok : input.comm_size_ok = true
  serializes : input.throws = false
  lengths : LengthsFit input.buffered
  gather_ok : input.gather_ok = true

theorem serialize_isSome {rank : Int} {records : List Key} :
    (∃ data, serialize rank records = some data) ↔ LengthsFit records := by
  have hloop : ∀ buffer, (∃ data, records.foldlM
      (fun buffer record => serialize_record record rank buffer) buffer = some data) ↔
      LengthsFit records := by
    induction records with
    | nil => simp [LengthsFit]
    | cons record records ih =>
      intro buffer
      unfold LengthsFit at ih ⊢
      rw [List.foldlM_cons, List.forall_mem_cons]
      by_cases hlen : to_int record.message.length < 0
      · have hfail : serialize_record record rank buffer = none := by
          simp only [serialize_record, hlen, if_true]
        rw [hfail]
        simp [hlen]
      · obtain ⟨b, hb⟩ : ∃ b, serialize_record record rank buffer = some b := by
          simp only [serialize_record, hlen, if_false, Option.some.injEq, exists_eq']
        rw [hb]
        show (∃ data, records.foldlM _ b = some data) ↔ _
        rw [ih b]
        constructor
        · intro h
          exact ⟨by omega, h⟩
        · intro h
          exact h.2
  exact hloop []

theorem displacements_eq {total : Int} {sizes : List Int} {ds : List Int} {t : Int}
    (h : displacements total sizes = some (ds, t)) : t = total + sizes.sum := by
  induction sizes generalizing total ds with
  | nil =>
    cases h
    simp
  | cons size sizes ih =>
    unfold displacements at h
    split at h
    · obtain ⟨⟨ds', t'⟩, hrest, heq⟩ := Option.map_eq_some_iff.mp h
      cases heq
      rw [ih hrest, List.sum_cons]
      omega
    · cases h

theorem displacements_isSome {total : Int} {sizes : List Int} (h : Fits 32 total) :
    (∃ d, displacements total sizes = some d) ↔ ∀ k, Fits 32 (total + (sizes.take k).sum) := by
  induction sizes generalizing total with
  | nil =>
    simp [displacements, h]
  | cons size sizes ih =>
    unfold displacements
    split
    · next hfits =>
      have hmap : (∃ d, ((displacements (total + size) sizes).map fun x =>
          (total :: x.1, x.2)) = some d) ↔ ∃ d, displacements (total + size) sizes = some d := by
        rcases displacements (total + size) sizes with _ | d <;> simp
      refine hmap.trans ((ih hfits).trans ?_)
      constructor
      · intro hall k
        match k with
        | 0 => simpa using h
        | k + 1 =>
          have := hall k
          rwa [List.take_succ_cons, List.sum_cons, ← add_assoc]
      · intro hall k
        have := hall (k + 1)
        rwa [List.take_succ_cons, List.sum_cons, ← add_assoc] at this
    · next hfits =>
      simp only [reduceCtorEq, exists_false, false_iff]
      intro hall
      have := hall 1
      simp at this
      exact hfits this

/-- A rank enters both collectives exactly when it takes part and, on rank 0,
    the sizes fit and nothing is thrown in between. -/
theorem consolidate_eq {my_rank : Int} {input : RankInput} {all_sizes : List Int} :
    consolidate my_rank input all_sizes = some [.gather 0, .gatherv 0] ↔
      TakesPart input ∧
        (my_rank = 0 → SizesFit all_sizes ∧ input.throws_between = false) := by
  have hzero : Fits 32 0 := by decide
  have hsum : (∃ ds total, displacements 0 all_sizes = some (ds, total) ∧ ¬ total < 0) ↔
      SizesFit all_sizes := by
    have hfits : (∃ d, displacements 0 all_sizes = some d) ↔
        ∀ k, Fits 32 (0 + (all_sizes.take k).sum) := displacements_isSome hzero
    simp only [zero_add] at hfits
    constructor
    · rintro ⟨ds, total, hd, hneg⟩
      have htotal := displacements_eq hd
      exact ⟨hfits.mp ⟨_, hd⟩, by omega⟩
    · rintro ⟨hall, hneg⟩
      obtain ⟨⟨ds, total⟩, hd⟩ := hfits.mpr hall
      have htotal := displacements_eq hd
      exact ⟨ds, total, hd, by omega⟩
  have hparts : TakesPart input ↔ input.buffered ≠ [] ∧ input.comm_size_ok = true ∧
      input.throws = false ∧ (∃ data, serialize my_rank input.buffered = some data) ∧
      input.gather_ok = true := by
    rw [serialize_isSome]
    constructor
    · rintro ⟨h1, h2, h3, h4, h5⟩
      exact ⟨h1, h2, h3, h4, h5⟩
    · rintro ⟨h1, h2, h3, h4, h5⟩
      exact ⟨h1, h2, h3, h4, h5⟩
  rw [hparts, ← hsum]
  unfold consolidate
  by_cases h1 : input.buffered = []
  · simp [h1]
  by_cases h2 : input.comm_size_ok = true
  swap
  · simp [h1, h2]
  by_cases h3 : input.throws = true
  · simp [h1, h2, h3]
  rcases h4 : serialize my_rank input.buffered with _ | data
  · simp [h1, h2, h3]
  by_cases h5 : input.gather_ok = true
  swap
  · simp [h1, h2, h3, h5]
  by_cases h6 : my_rank = 0
  swap
  · simp [h1, h2, h3, h5, h6]
  rcases h7 : displacements 0 all_sizes with _ | ⟨ds, total⟩
  · simp [h1, h2, h3, h5, h6]
  by_cases h8 : total < 0
  · simp [h1, h2, h3, h5, h6, h8]
  by_cases h9 : input.throws_between = true
  · simp [h1, h2, h3, h5, h6, h9]
  · simp [h1, h2, h3, h5, h6, h8, h9, not_lt.mp h8]

theorem collectives_match_iff (root : RankInput) (others : List RankInput) :
    (∀ (r : Nat) (input : RankInput), (root :: others)[r]? = some input →
      consolidate r input (gathered_sizes (root :: others)) = some [.gather 0, .gatherv 0]) ↔
    (∀ input ∈ root :: others, TakesPart input) ∧
      SizesFit (gathered_sizes (root :: others)) ∧ root.throws_between = false := by
  simp only [consolidate_eq]
  constructor
  · intro h
    refine ⟨?_, ?_⟩
    · intro input hmem
      obtain ⟨r, hr⟩ := List.getElem?_of_mem hmem
      exact (h r input hr).1
    · exact (h 0 root rfl).2 rfl
  · rintro ⟨hpart, hroot⟩ r input hr
    refine ⟨hpart input (List.mem_of_getElem? hr), ?_⟩
    intro hzero
    have hr0 : r = 0 := by exact_mod_cast hzero
    subst hr0
    cases hr
    exact hroot

theorem collectives_mismatch :
    ¬ ∀ (root : RankInput) (others : List RankInput) (r : Nat) (input : RankInput),
      (root :: others)[r]? = some input →
      consolidate r input (gathered_sizes (root :: others)) = some [.gather 0, .gatherv 0] := by
  intro h
  have hsecond := h ⟨[⟨1, []⟩], true, false, true, false⟩ [⟨[], true, false, true, false⟩] 1 _ rfl
  cases hsecond

/-! ## Section 5: What rank 0 reads -/

/-- The number of bytes the records take. -/
def wire_size (records : List Key) : Nat := (records.map fun k => 12 + k.message.length).sum

/-- The bytes of a record whose length fits an `int`. -/
def record_bytes (rank : Int) (record : Key) : List UInt8 :=
  int_bytes record.severity.toInt ++ int_bytes record.message.length ++ record.message ++
    int_bytes rank

def records_bytes (rank : Int) (records : List Key) : List UInt8 :=
  records.flatMap (record_bytes rank)

/-- Every record of the ranks with the rank it comes from, rank after rank. -/
def tagged (buffers : List (List Key)) : List (Key × Int) :=
  (buffers.mapIdx fun r records => records.map fun k => (k, (r : Int))).flatten

/-- The serialized records of all ranks. -/
def rank_bytes (buffers : List (List Key)) : List (List UInt8) :=
  buffers.mapIdx fun r records => records_bytes r records

theorem length_records_bytes (rank : Int) (records : List Key) :
    (records_bytes rank records).length = wire_size records := by
  unfold records_bytes wire_size
  rw [List.length_flatMap]
  congr 2
  funext record
  simp only [record_bytes, List.length_append, length_int_bytes]
  omega

theorem wire_size_cons (record : Key) (records : List Key) :
    wire_size (record :: records) = 12 + record.message.length + wire_size records := by
  simp [wire_size]

theorem serialize_eq {rank : Int} {records : List Key} (h : wire_size records < 2 ^ 31) :
    serialize rank records = some (records_bytes rank records) := by
  have hloop : ∀ buffer, records.foldlM
      (fun buffer record => serialize_record record rank buffer) buffer =
      some (buffer ++ records_bytes rank records) := by
    induction records with
    | nil => simp [records_bytes]
    | cons record records ih =>
      intro buffer
      rw [wire_size_cons] at h
      have hfits : Fits 32 (record.message.length : Int) := fits_32.mpr (by omega)
      have hlen : ¬ (record.message.length : Int) < 0 := by omega
      have hrecord : serialize_record record rank buffer =
          some (buffer ++ record_bytes rank record) := by
        simp [serialize_record, record_bytes, to_int_of_fits hfits]
      rw [List.foldlM_cons, hrecord]
      show List.foldlM _ (buffer ++ record_bytes rank record) records = _
      rw [ih (by omega), List.append_assoc]
      rfl
  have hempty := hloop []
  rwa [List.nil_append] at hempty

theorem read_record {rank : Int} {record : Key} (tail : List UInt8) (hrank : Fits 32 rank)
    (hlen : record.message.length < 2 ^ 31) :
    read_records (record_bytes rank record ++ tail) = (record, rank) :: read_records tail := by
  obtain ⟨severity, message⟩ := record
  have hsize : (int_bytes severity.toInt ++ (int_bytes message.length ++
      (message ++ (int_bytes rank ++ tail)))).length = 12 + message.length + tail.length := by
    simp only [List.length_append, length_int_bytes]
    omega
  have hsev : Fits 32 severity.toInt :=
    fits_32.mpr ⟨by have := severity.le_toInt; omega, by have := severity.toInt_lt; omega⟩
  have hmsg : Fits 32 (message.length : Int) := fits_32.mpr (by simp only at hlen; omega)
  -- what the four reads see of the buffer
  have h4 : ∀ (x : Int) (rest : List UInt8), (int_bytes x ++ rest).take 4 = int_bytes x := by
    intro x rest
    exact List.take_left' (length_int_bytes x)
  have hd4 : ∀ (x : Int) (rest : List UInt8), (int_bytes x ++ rest).drop 4 = rest := by
    intro x rest
    exact List.drop_left' (length_int_bytes x)
  have hd8 : ∀ rest : List UInt8, (int_bytes severity.toInt ++
      (int_bytes message.length ++ rest)).drop 8 = rest := by
    intro rest
    rw [show 8 = 4 + 4 from rfl, ← List.drop_drop, hd4, hd4]
  have hrest : (message ++ (int_bytes rank ++ tail)).drop (message.length + 4) = tail := by
    rw [← List.drop_drop, List.drop_left, hd4]
  unfold record_bytes
  simp only [List.append_assoc]
  rw [read_records, if_pos (by omega)]
  simp only [h4, hd4, hd8, int_of_bytes_int_bytes hsev, int_of_bytes_int_bytes hmsg,
    int_of_bytes_int_bytes hrank, Int.toNat_natCast, List.take_left, List.drop_left, hrest,
    Int32.ofInt_toInt]
  rw [if_neg]
  simp only [List.length_append, length_int_bytes]
  omega

theorem read_rank {rank : Int} {records : List Key} (tail : List UInt8) (hrank : Fits 32 rank)
    (h : wire_size records < 2 ^ 31) :
    read_records (records_bytes rank records ++ tail) =
      records.map (fun k => (k, rank)) ++ read_records tail := by
  induction records with
  | nil => rfl
  | cons record records ih =>
    rw [wire_size_cons] at h
    show read_records ((record_bytes rank record ++ records_bytes rank records) ++ tail) = _
    rw [List.append_assoc, read_record _ hrank (by omega), ih (by omega)]
    rfl

theorem read_ranks {base : Nat} {buffers : List (List Key)}
    (hranks : buffers.length + base ≤ 2147483647) (hsize : (buffers.map wire_size).sum < 2 ^ 31) :
    read_records
      (buffers.mapIdx fun r records => records_bytes (r + base : Nat) records).flatten =
      (buffers.mapIdx fun r records => records.map fun k => (k, ((r + base : Nat) : Int))).flatten := by
  induction buffers generalizing base with
  | nil =>
    unfold read_records
    rfl
  | cons records buffers ih =>
    simp only [List.map_cons, List.sum_cons, List.length_cons] at hranks hsize
    have hrank : Fits 32 (base : Int) := fits_32.mpr (by omega)
    have hshift : ∀ r, r + 1 + base = r + (base + 1) := by omega
    rw [List.mapIdx_cons, List.mapIdx_cons, List.flatten_cons, List.flatten_cons]
    simp only [hshift, Nat.zero_add]
    rw [read_rank _ hrank (by omega), ih (by omega) (by omega)]

theorem read_all {buffers : List (List Key)} (hranks : buffers.length ≤ 2147483647)
    (hsize : (buffers.map wire_size).sum < 2 ^ 31) :
    read_records (rank_bytes buffers).flatten = tagged buffers :=
  read_ranks (show buffers.length + 0 ≤ _ from hranks) hsize

/-! ## Section 6: What rank 0 makes of it -/

theorem map_length_rank_bytes (buffers : List (List Key)) :
    (rank_bytes buffers).map List.length = buffers.map wire_size := by
  unfold rank_bytes
  apply List.ext_getElem
  · simp
  · intro r h1 h2
    simp [length_records_bytes]

theorem displacements_offsets {base : Nat} {sizes : List Nat} (h : base + sizes.sum < 2 ^ 31) :
    displacements base (sizes.map Nat.cast) =
      some ((offsets base sizes).map Nat.cast, ((base + sizes.sum : Nat) : Int)) := by
  induction sizes generalizing base with
  | nil => simp [displacements, offsets]
  | cons size sizes ih =>
    rw [List.sum_cons] at h
    have hfits : Fits 32 ((base : Int) + (size : Int)) := fits_32.mpr (by omega)
    have hnext : (base : Int) + (size : Int) = ((base + size : Nat) : Int) := by omega
    rw [List.map_cons, displacements, if_pos hfits, hnext, ih (by omega), Option.map_some,
      List.sum_cons, Nat.add_assoc]
    rfl

theorem consolidate_collective_eq {buffers : List (List Key)}
    (hranks : buffers.length ≤ 2147483647) (hsize : (buffers.map wire_size).sum < 2 ^ 31) :
    consolidate_collective 0 (rank_bytes buffers) =
      some (build_records ((tagged buffers).foldl push_rank .empty)) := by
  set datas := rank_bytes buffers with hdatas
  set sizes := buffers.map wire_size with hsizes
  have hlengths : datas.map List.length = sizes := map_length_rank_bytes buffers
  have hgathered : (datas.map fun data => to_int data.length) = sizes.map Nat.cast := by
    rw [← hlengths, List.map_map]
    apply List.map_congr_left
    intro data hmem
    have hle : data.length ≤ (datas.map List.length).sum :=
      List.single_le_sum (by simp) _ (List.mem_map_of_mem hmem)
    rw [hlengths] at hle
    exact to_int_of_fits (fits_32.mpr (by omega))
  have hdispl : displacements 0 (sizes.map Nat.cast) =
      some ((offsets 0 sizes).map Nat.cast, ((0 + sizes.sum : Nat) : Int)) :=
    displacements_offsets (show 0 + sizes.sum < 2 ^ 31 by omega)
  have hfill : write_all (List.replicate sizes.sum 0) ((offsets 0 sizes).zip datas) =
      datas.flatten := by
    rw [← hlengths]
    exact @write_all_offsets _ datas [] (List.replicate _ 0) (List.length_replicate ..)
  have hoffsets : ((offsets 0 sizes).map Nat.cast).map Int.toNat = offsets 0 sizes := by
    simp [Function.comp_def]
  unfold consolidate_collective
  rw [if_neg (by simp)]
  dsimp only
  rw [hgathered, hdispl]
  dsimp only
  rw [if_neg (by omega), hoffsets, Int.toNat_natCast, Nat.zero_add, hfill, deserialize_records,
    hdatas, read_all hranks hsize]

theorem lookup_push_ranks (entries : List (Key × Int)) (key : Key) :
    ((entries.foldl push_rank .empty).lookup key).getD [] =
      (entries.filter (·.1 = key)).map (·.2) := by
  induction entries using List.reverseRecOn with
  | nil => rfl
  | append_singleton entries entry ih =>
    rw [List.foldl_append, List.filter_append, List.map_append, ← ih]
    show ((push_rank _ entry).lookup key).getD [] = _
    rw [push_rank, OrdMap.lookup_insert]
    by_cases hkey : key = entry.1
    · subst hkey
      simp
    · simp [hkey, Ne.symm hkey]

theorem lookup_push_isSome (entries : List (Key × Int)) (key : Key) :
    (∃ ranks, (entries.foldl push_rank .empty).lookup key = some ranks) ↔
      ∃ rank, (key, rank) ∈ entries := by
  induction entries using List.reverseRecOn with
  | nil => simp
  | append_singleton entries entry ih =>
    rw [List.foldl_append]
    show (∃ ranks, (push_rank _ entry).lookup key = some ranks) ↔ _
    simp only [List.mem_append, List.mem_singleton, exists_or, ← ih, push_rank,
      OrdMap.lookup_insert]
    by_cases hkey : key = entry.1
    · subst hkey
      simp
    · have hne : ∀ rank, (key, rank) ≠ entry := by
        intro rank h
        exact hkey (congrArg Prod.fst h)
      simp [hkey, hne]

/-- Rank `x` has a record with this key. -/
def Contributed (buffers : List (List Key)) (key : Key) (x : Int) : Prop :=
  ∃ (r : Nat) (records : List Key), x = r ∧ buffers[r]? = some records ∧ key ∈ records

theorem mem_tagged {buffers : List (List Key)} {key : Key} {x : Int} :
    (key, x) ∈ tagged buffers ↔ Contributed buffers key x := by
  unfold tagged Contributed
  simp only [List.mem_flatten, List.mem_mapIdx, List.getElem?_eq_some_iff]
  constructor
  · rintro ⟨entries, ⟨r, hr, rfl⟩, hmem⟩
    obtain ⟨k, hk, heq⟩ := List.mem_map.mp hmem
    cases heq
    exact ⟨r, _, rfl, ⟨hr, rfl⟩, hk⟩
  · rintro ⟨r, records, rfl, ⟨hr, rfl⟩, hk⟩
    exact ⟨_, ⟨r, hr, rfl⟩, List.mem_map_of_mem hk⟩

/-- The ranks that have a record with this key. -/
def contributors (buffers : List (List Key)) (key : Key) : List Nat :=
  (List.range buffers.length).filter fun r => key ∈ buffers.getD r []

theorem mem_contributors {buffers : List (List Key)} {key : Key} {r : Nat} :
    r ∈ contributors buffers key ↔ Contributed buffers key r := by
  unfold contributors Contributed
  rw [List.mem_filter, List.mem_range, decide_eq_true_eq, List.getD_eq_getElem?_getD]
  constructor
  · rintro ⟨hr, hk⟩
    rw [List.getElem?_eq_getElem hr, Option.getD_some] at hk
    exact ⟨r, _, rfl, List.getElem?_eq_getElem hr, hk⟩
  · rintro ⟨r', records, heq, hr', hk⟩
    obtain rfl : r = r' := by exact_mod_cast heq
    rw [hr', Option.getD_some]
    exact ⟨(List.getElem?_eq_some_iff.mp hr').1, hk⟩

/-- What a consolidated record has to say about its key. -/
structure Annotates (buffers : List (List Key)) (record : ConsolidatedRecord) : Prop where
  nonempty : ∀ run ∈ record.ranges, run.first ≤ run.last
  /-- Sorted, disjoint, and no two ranges could be one. -/
  apart : record.ranges.Pairwise fun a b => a.last + 1 < b.first
  covers : ∀ x, (∃ run ∈ record.ranges, run.Holds x) ↔ Contributed buffers record.key x
  counts : record.rank_count = (contributors buffers record.key).length

theorem annotates_compact {buffers : List (List Key)} {key : Key} {ranks : List Int}
    (h : ∀ x, x ∈ ranks ↔ Contributed buffers key x) :
    Annotates buffers
      ⟨key, ((compact_ranges ranks).map Run.size).sum, compact_ranges ranks⟩ := by
  obtain ⟨hnonempty, hapart, hcovers, hcount⟩ := compact_spec (sort_unique_sorted ranks)
  -- the ranks, each once, are the contributors in some order
  have hperm : (sort_unique ranks).Perm ((contributors buffers key).map Nat.cast) := by
    rw [List.perm_ext_iff_of_nodup]
    · intro x
      rw [mem_sort_unique, h, List.mem_map]
      constructor
      · intro hx
        obtain ⟨r, records, rfl, hrest⟩ := hx
        exact ⟨r, mem_contributors.mpr ⟨r, records, rfl, hrest⟩, rfl⟩
      · rintro ⟨r, hr, rfl⟩
        exact mem_contributors.mp hr
    · exact (sort_unique_sorted ranks).imp fun hlt => hlt.ne
    · exact (List.nodup_range.filter _).map Nat.cast_injective
  refine ⟨hnonempty, hapart, ?_, ?_⟩
  · intro x
    exact (hcovers x).trans (mem_sort_unique.trans (h x))
  · show ((compact (sort_unique ranks)).map Run.size).sum = _
    rw [hcount, hperm.length_eq, List.length_map]

theorem build_records_spec (buffers : List (List Key)) :
    let result := build_records ((tagged buffers).foldl push_rank .empty)
    (result.map (·.key)).Nodup ∧
    (∀ key, key ∈ result.map (·.key) ↔ ∃ records ∈ buffers, key ∈ records) ∧
    ∀ record ∈ result, Annotates buffers record := by
  intro result
  set groups := (tagged buffers).foldl push_rank .empty with hgroups
  have hkeys : result.map (·.key) = groups.entries.map (·.1) := by
    simp [result, build_records, Function.comp_def, hgroups]
  have hranks : ∀ key ranks, groups.lookup key = some ranks →
      ∀ x, x ∈ ranks ↔ Contributed buffers key x := by
    intro key ranks hlook x
    have hall := lookup_push_ranks (tagged buffers) key
    rw [← hgroups, hlook, Option.getD_some] at hall
    rw [hall, ← mem_tagged]
    simp
  refine ⟨?_, ?_, ?_⟩
  · rw [hkeys]
    exact groups.nodup_keys
  · intro key
    have hlook := lookup_push_isSome (tagged buffers) key
    rw [← hgroups] at hlook
    simp only [OrdMap.lookup_eq_some, mem_tagged] at hlook
    rw [hkeys]
    simp only [List.mem_map, Prod.exists, exists_and_right, exists_eq_right, hlook]
    constructor
    · rintro ⟨x, r, records, -, hr, hk⟩
      exact ⟨records, List.mem_of_getElem? hr, hk⟩
    · rintro ⟨records, hmem, hk⟩
      obtain ⟨r, hr⟩ := List.getElem?_of_mem hmem
      exact ⟨r, r, records, rfl, hr, hk⟩
  · intro record hrecord
    obtain ⟨⟨key, ranks⟩, hentry, rfl⟩ := List.mem_map.mp hrecord
    exact annotates_compact (hranks key ranks (OrdMap.lookup_eq_some.mpr hentry))

theorem consolidation_correct (buffers : List (List Key)) (hranks : buffers.length ≤ 2147483647)
    (hsize : (buffers.map wire_size).sum < 2 ^ 31) :
    ∃ (datas : List (List UInt8)) (result : List ConsolidatedRecord),
      (buffers.mapIdx fun r records => serialize r records) = datas.map some ∧
      datas.map List.length = buffers.map wire_size ∧
      read_records datas.flatten = tagged buffers ∧
      consolidate_collective 0 datas = some result ∧
      (result.map (·.key)).Nodup ∧
      (∀ key, key ∈ result.map (·.key) ↔ ∃ records ∈ buffers, key ∈ records) ∧
      (∀ record ∈ result, Annotates buffers record) ∧
      ∀ my_rank, my_rank ≠ 0 → consolidate_collective my_rank datas = some [] := by
  obtain ⟨hnodup, hmem, hannotates⟩ := build_records_spec buffers
  refine ⟨rank_bytes buffers, _, ?_, map_length_rank_bytes buffers, read_all hranks hsize,
    consolidate_collective_eq hranks hsize, hnodup, hmem, hannotates, ?_⟩
  · apply List.ext_getElem
    · simp [rank_bytes]
    · intro r h1 h2
      have hr : r < buffers.length := by simpa using h1
      have hle : wire_size buffers[r] ≤ (buffers.map wire_size).sum :=
        List.single_le_sum (by simp) _ (List.mem_map_of_mem (List.getElem_mem hr))
      simp only [List.getElem_mapIdx, rank_bytes, List.getElem_map]
      exact serialize_eq (by omega)
  · intro my_rank hne
    unfold consolidate_collective
    rw [if_pos hne]

theorem consolidation_correct_three :
    ([[⟨1, []⟩, ⟨1, []⟩], [], [⟨1, []⟩, ⟨2, [0, 65]⟩]] : List (List Key)).length ≤ 2147483647 ∧
    (([[⟨1, []⟩, ⟨1, []⟩], [], [⟨1, []⟩, ⟨2, [0, 65]⟩]] : List (List Key)).map wire_size).sum <
      2 ^ 31 ∧
    ∃ (datas : List (List UInt8)) (result : List ConsolidatedRecord),
      read_records datas.flatten =
        tagged [[⟨1, []⟩, ⟨1, []⟩], [], [⟨1, []⟩, ⟨2, [0, 65]⟩]] ∧
      consolidate_collective 0 datas = some result := by
  refine ⟨by decide, by decide, ?_⟩
  obtain ⟨datas, result, -, -, hread, hresult, -⟩ := consolidation_correct
    [[⟨1, []⟩, ⟨1, []⟩], [], [⟨1, []⟩, ⟨2, [0, 65]⟩]] (by decide) (by decide)
  exact ⟨datas, result, hread, hresult⟩

end Logs
