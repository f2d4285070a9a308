import Helm.Framework.Datatypes
import Helm.Framework.Signed
import Helm.Halo.Messages

/-! # Replicated gathers

  Every rank has a band of a field, for some levels. After `gather_replicated`
  every rank has the whole field, level by level, and all bands side by side in
  each level. One `MPI_Allgatherv` does it: the datatype of a
  `Replicated_Gather_Plan` sends and receives one element of each level, and the
  next instance is the next element of the band.

  Memory is bytes. The views are on the host, or staged through host mirrors
  whose first contents are unknown. The ranks call together, and the collective
  calls that only synchronize are left out.
-/

namespace Halo

open Signed (Outcome signed)
open Datatypes (Datatype basic vector resized addresses gather scatter column items)

/-! ## Section 1: Plans -/

/-- The loop of `prefix_sum` -/
def prefix_sum_from (running : Int) : List Int → Outcome Exn (List Int)
  | [] => pure []
  | count :: counts => do
    let next ← signed 32 (running + count)
    let displ ← prefix_sum_from next counts
    pure (running :: displ)

/-- `prefix_sum` -/
def prefix_sum (counts : List Int) : Outcome Exn (List Int) := prefix_sum_from 0 counts

/-- `Replicated_Gather_Plan` -/
structure ReplicatedGatherPlan where
  num_levels : Int
  per_level_total : Int
  local_band_count : Int
  band_counts : List Int
  displacements : List Int
  send_type : Datatype
  recv_type : Datatype

/-- `make_resized_column` -/
def ReplicatedGatherPlan.make_resized_column (ty : ValueType) (num_levels stride : Int) : Datatype :=
  resized (vector num_levels.toNat 1 stride (basic (mpi_datatype_for ty).extent)) ty.sizeof

/-- The constructor. `gathered` is what `allgather` returns: the band counts of all
    ranks. -/
def ReplicatedGatherPlan.make (ty : ValueType) (gathered : List Int)
    (local_band_count num_levels : Int) : Outcome Exn ReplicatedGatherPlan :=
  if num_levels = 0 then
    .thrown (.invalid_argument ("Replicated_Gather_Plan: num_levels must be > 0 (got num_levels = " ++
      toString num_levels ++ ")"))
  else if local_band_count < 0 then
    .thrown (.invalid_argument ("Replicated_Gather_Plan: local_band_count must be >= 0 (got " ++
      toString local_band_count ++ ")"))
  else do
    let displacements ← prefix_sum gathered
    match displacements.getLast?, gathered.getLast? with
    | some last, some count => do
      let per_level_total ← signed 32 (last + count)
      -- `MPI_Type_vector` refuses a negative count
      if num_levels < 0 then .thrown .other
      else
        let send_stride := if local_band_count > 0 then local_band_count else 1
        pure {
          num_levels
          per_level_total
          local_band_count
          band_counts := gathered
          displacements
          send_type := ReplicatedGatherPlan.make_resized_column ty num_levels send_stride
          recv_type := ReplicatedGatherPlan.make_resized_column ty num_levels per_level_total }
    -- `back()` of an empty vector
    | _, _ => .undefined

/-! ## Section 2: The gather -/

section Gather

variable {N : Nat} {β : Type}

/-- What an `MPI_Allgatherv` leaves in the receive buffer of one rank. A message
    that does not have the size of its block is an error. -/
def MPI_Allgatherv (messages : List (List β)) (recvcounts displs : List Int) (recvtype : Datatype)
    (recvbuf : Int → β) : Option (Int → β) :=
  let blocks := (recvcounts.zip displs).map fun x =>
    addresses recvtype (x.2 * recvtype.extent) x.1.toNat
  if ∀ x ∈ messages.zip blocks, x.1.length = x.2.length then
    some ((messages.zip blocks).foldl (fun memory x => scatter x.2 x.1 memory) recvbuf)
  else none

/-- The first bytes of one memory, and the others of another. -/
def copy_bytes (count : Int) (source target : Int → β) : Int → β :=
  fun a => if 0 ≤ a ∧ a < count then source a else target a

/-- What a rank sends. -/
def send_message (plan : ReplicatedGatherPlan) (rank : Nat) (sendbuf : Int → β) : List β :=
  gather sendbuf (addresses plan.send_type 0 (plan.band_counts.getD rank 0).toNat)

/-- `gather_replicated`, at the rank `rank`. `staged` says which ranks go through
    host mirrors, and `mirrors` what their memory holds first. -/
def ReplicatedGatherPlan.gather_replicated (ty : ValueType) (plans : Fin N → ReplicatedGatherPlan)
    (src : Fin N → Int → β) (staged : Fin N → Bool) (mirrors : Fin N → Int → β) (rank : Fin N)
    (dest : Int → β) : Outcome Exn (Int → β) :=
  let plan := plans rank
  let sendbuf q :=
    if staged q then
      let send_count := (plans q).num_levels * (plans q).band_counts.getD q 0
      copy_bytes (send_count * ty.sizeof) (src q) (mirrors q)
    else src q
  let recv_total := plan.num_levels * plan.per_level_total
  let recvbuf := if staged rank then mirrors rank else dest
  match MPI_Allgatherv (List.ofFn fun q => send_message (plans q) q (sendbuf q)) plan.band_counts
      plan.displacements plan.recv_type recvbuf with
  | none => .thrown .other
  | some received =>
    .returned (if staged rank then copy_bytes (recv_total * ty.sizeof) received dest else received)

end Gather

/-! ## Section 3: Bands -/

/-- Where the band of a rank starts. -/
def displ (bands : List Nat) (r : Nat) : Nat := (bands.take r).sum

theorem displ_cons_succ (band : Nat) (bands : List Nat) (r : Nat) :
    displ (band :: bands) (r + 1) = band + displ bands r := by
  simp [displ]

theorem displ_add_le {bands : List Nat} {r : Nat} (hr : r < bands.length) :
    displ bands r + bands[r] ≤ bands.sum := by
  have hsum := List.sum_take_add_sum_drop bands r
  rw [List.drop_eq_getElem_cons hr, List.sum_cons] at hsum
  rw [displ]
  omega

/-- **The bands tile the level**: every place belongs to exactly one of them. -/
theorem exists_unique_band {bands : List Nat} {j : Nat} (hj : j < bands.sum) :
    ∃! r : Fin bands.length, displ bands r ≤ j ∧ j < displ bands r + bands[r] := by
  induction bands generalizing j with
  | nil => simp at hj
  | cons band bands ih =>
    by_cases hfirst : j < band
    · refine ⟨⟨0, Nat.succ_pos _⟩, ⟨Nat.zero_le _, by simpa [displ] using hfirst⟩, ?_⟩
      intro ⟨r, hr⟩ ⟨hle, _⟩
      cases r with
      | zero => rfl
      | succ r =>
        dsimp only at hle
        rw [displ_cons_succ] at hle
        omega
    · rw [List.sum_cons] at hj
      obtain ⟨⟨r, hr⟩, ⟨hle, hlt⟩, huniq⟩ := @ih (j - band) (by omega)
      dsimp only [Fin.getElem_fin] at hle hlt
      refine ⟨⟨r + 1, Nat.succ_lt_succ hr⟩, ?_, ?_⟩
      · dsimp only [Fin.getElem_fin]
        rw [displ_cons_succ, List.getElem_cons_succ]
        omega
      · intro ⟨r', hr'⟩ ⟨hle', hlt'⟩
        dsimp only [Fin.getElem_fin] at hle' hlt'
        cases r' with
        | zero =>
          simp only [List.getElem_cons_zero, displ, List.take_zero, List.sum_nil] at hlt'
          omega
        | succ r' =>
          rw [displ_cons_succ] at hle' hlt'
          rw [List.getElem_cons_succ] at hlt'
          have heq := huniq ⟨r', Nat.lt_of_succ_lt_succ hr'⟩
            ⟨by dsimp only; omega, by dsimp only [Fin.getElem_fin]; omega⟩
          have : r' = r := congrArg Fin.val heq
          subst this
          rfl

/-- The band counts as the ranks know them. -/
def counts (bands : List Nat) : List Int := bands.map ((↑) : Nat → Int)

theorem prefix_sum_from_eq {running : Nat} {bands : List Nat}
    (hfits : running + bands.sum < 2 ^ 31) :
    prefix_sum_from running (counts bands) =
      .returned ((List.range bands.length).map fun r => ((running + displ bands r : Nat) : Int)) := by
  induction bands generalizing running with
  | nil => rfl
  | cons band bands ih =>
    rw [List.sum_cons] at hfits
    have hnext : signed 32 ((running : Int) + band) =
        (.returned ((running + band : Nat) : Int) : Outcome Exn Int) := by
      rw [Signed.signed_of_fits]
      · push_cast
        rfl
      · unfold Signed.Fits
        omega
    show (signed 32 ((running : Int) + band) >>= fun next => prefix_sum_from next (counts bands) >>=
      fun displ => pure ((running : Int) :: displ)) = _
    rw [hnext, Signed.Outcome.returned_bind, ih (by omega), Signed.Outcome.returned_bind,
      List.length_cons, List.range_succ_eq_map, List.map_cons, List.map_map]
    have hrest : (List.range bands.length).map
          (fun r => ((running + band + displ bands r : Nat) : Int)) =
        (List.range bands.length).map
          ((fun r => ((running + displ (band :: bands) r : Nat) : Int)) ∘ Nat.succ) := by
      apply List.map_congr_left
      intro r _
      show _ = ((running + displ (band :: bands) (r + 1) : Nat) : Int)
      rw [displ_cons_succ, Nat.add_assoc]
    rw [hrest]
    rfl

theorem displ_last {bands : List Nat} (h : bands ≠ []) :
    displ bands (bands.length - 1) + bands.getLast h = bands.sum := by
  have hsum := List.sum_take_add_sum_drop bands (bands.length - 1)
  rw [List.drop_length_sub_one h] at hsum
  simpa [displ] using hsum

/-- The plan of a rank. -/
def plan_of (ty : ValueType) (bands : List Nat) (levels band : Nat) : ReplicatedGatherPlan where
  num_levels := levels
  per_level_total := bands.sum
  local_band_count := band
  band_counts := counts bands
  displacements := (List.range bands.length).map fun r => (displ bands r : Int)
  send_type := ReplicatedGatherPlan.make_resized_column ty levels (if 0 < band then band else 1)
  recv_type := ReplicatedGatherPlan.make_resized_column ty levels bands.sum

theorem make_eq {ty : ValueType} {bands : List Nat} {levels : Nat} (band : Nat) (hranks : bands ≠ [])
    (hlevels : 0 < levels) (hsum : bands.sum < 2 ^ 31) :
    ReplicatedGatherPlan.make ty (counts bands) band levels =
      .returned (plan_of ty bands levels band) := by
  have hprefix : prefix_sum (counts bands) =
      .returned ((List.range bands.length).map fun r => (displ bands r : Int)) := by
    have := @prefix_sum_from_eq 0 bands (by omega)
    simpa [prefix_sum] using this
  have hpos : 0 < bands.length := List.length_pos_iff.mpr hranks
  have hlast : ((List.range bands.length).map fun r => (displ bands r : Int)).getLast? =
      some ((displ bands (bands.length - 1) : Nat) : Int) := by
    rw [List.getLast?_map, List.getLast?_range, if_neg hpos.ne']
    rfl
  have hcount : (counts bands).getLast? = some ((bands.getLast hranks : Nat) : Int) := by
    rw [counts, List.getLast?_map, List.getLast?_eq_some_getLast hranks]
    rfl
  have htotal : signed 32 (((displ bands (bands.length - 1) : Nat) : Int) +
      ((bands.getLast hranks : Nat) : Int)) = (.returned (bands.sum : Int) : Outcome Exn Int) := by
    rw [← Nat.cast_add, displ_last hranks, Signed.signed_of_fits]
    unfold Signed.Fits
    omega
  rw [ReplicatedGatherPlan.make, if_neg (by omega), if_neg (by omega), hprefix,
    Signed.Outcome.returned_bind, hlast, hcount]
  dsimp only
  rw [htotal, Signed.Outcome.returned_bind, if_neg (by omega)]
  show Outcome.returned _ = Outcome.returned _
  rw [plan_of]
  simp only [gt_iff_lt, Nat.cast_pos]

/-! ## Section 4: What the gather writes -/

section Correctness

variable {ty : ValueType} {bands : List Nat} {levels : Nat} {β : Type}

/-- The bytes of an element of the datatype that the plan uses. -/
abbrev piece (ty : ValueType) : Nat := (mpi_datatype_for ty).extent

/-- Where byte `x` of the message of a rank comes from. -/
def send_address (ty : ValueType) (bands : List Nat) (q : Fin bands.length) (x : Nat × Nat × Nat) :
    Int :=
  0 + (x.1 : Int) * ty.sizeof + (x.2.1 : Int) *
    (if 0 < bands[q] then (bands[q] : Int) else 1) * piece ty + (x.2.2 : Int)

/-- Where it goes to. -/
def recv_address (ty : ValueType) (bands : List Nat) (q : Fin bands.length) (x : Nat × Nat × Nat) :
    Int :=
  displ bands q * ty.sizeof + (x.1 : Int) * ty.sizeof + (x.2.1 : Int) * bands.sum * piece ty +
    (x.2.2 : Int)

/-- The bytes of the band of a rank. -/
def band_items (ty : ValueType) (bands : List Nat) (levels : Nat) (q : Fin bands.length) :
    List (Nat × Nat × Nat) :=
  items bands[q] levels (piece ty)

/-- The memory from which a rank sends. -/
def send_buffer (ty : ValueType) (bands : List Nat) (levels : Nat)
    (src : Fin bands.length → Int → β) (staged : Fin bands.length → Bool)
    (mirrors : Fin bands.length → Int → β) (q : Fin bands.length) : Int → β :=
  if staged q then copy_bytes ((levels : Int) * (bands[q] : Int) * ty.sizeof) (src q) (mirrors q)
  else src q

/-- The receive buffer after the messages of all ranks. -/
def received (ty : ValueType) (bands : List Nat) (levels : Nat)
    (buffers : Fin bands.length → Int → β) (recvbuf : Int → β) : Int → β :=
  (List.finRange bands.length).foldl (fun memory q =>
    scatter ((band_items ty bands levels q).map (recv_address ty bands q))
      ((band_items ty bands levels q).map fun x => buffers q (send_address ty bands q x)) memory)
    recvbuf

theorem counts_getD (q : Fin bands.length) : (counts bands).getD q 0 = (bands[q] : Int) := by
  simp [counts]

theorem counts_eq : counts bands =
    (List.finRange bands.length).map fun q : Fin bands.length => ((bands[q] : Nat) : Int) := by
  apply List.ext_getElem
  · simp [counts]
  · intro r hr _
    simp [counts]

theorem displacements_eq : ((List.range bands.length).map fun r => (displ bands r : Int)) =
    (List.finRange bands.length).map fun q : Fin bands.length => (displ bands q.val : Int) := by
  apply List.ext_getElem
  · simp
  · intro r hr _
    simp

theorem send_message_eq (q : Fin bands.length) (sendbuf : Int → β) :
    send_message (plan_of ty bands levels bands[q]) q sendbuf =
      (band_items ty bands levels q).map fun x => sendbuf (send_address ty bands q x) := by
  have htype : (plan_of ty bands levels bands[q]).send_type =
      column levels (if 0 < bands[q] then bands[q] else 1) (piece ty) ty.sizeof := rfl
  rw [send_message, htype, show (plan_of ty bands levels bands[q]).band_counts = counts bands from rfl,
    counts_getD, Int.toNat_natCast, gather, Datatypes.addresses_column, List.map_map]
  rfl

theorem block_eq (q : Fin bands.length) :
    addresses (ReplicatedGatherPlan.make_resized_column ty levels bands.sum)
        ((displ bands q : Int) * (ReplicatedGatherPlan.make_resized_column ty levels bands.sum).extent)
        ((bands[q] : Nat) : Int).toNat =
      (band_items ty bands levels q).map (recv_address ty bands q) := by
  have htype : ReplicatedGatherPlan.make_resized_column ty levels bands.sum =
      column levels bands.sum (piece ty) ty.sizeof := rfl
  rw [htype, Datatypes.addresses_column, Int.toNat_natCast]
  rfl

/-- The gather succeeds at every rank. -/
theorem gather_replicated_eq (src : Fin bands.length → Int → β) (staged : Fin bands.length → Bool)
    (mirrors : Fin bands.length → Int → β) (rank : Fin bands.length) (dest : Int → β) :
    ReplicatedGatherPlan.gather_replicated ty (fun q => plan_of ty bands levels bands[q])
        src staged mirrors rank dest =
      .returned (
        let memory := received ty bands levels (send_buffer ty bands levels src staged mirrors)
          (if staged rank then mirrors rank else dest)
        if staged rank then copy_bytes ((levels : Int) * bands.sum * ty.sizeof) memory dest
        else memory) := by
  have hmessages : (List.ofFn fun q : Fin bands.length =>
      send_message (plan_of ty bands levels bands[q]) q
        (if staged q then copy_bytes ((plan_of ty bands levels bands[q]).num_levels *
          (plan_of ty bands levels bands[q]).band_counts.getD q 0 * ty.sizeof) (src q) (mirrors q)
        else src q)) =
      (List.finRange bands.length).map fun q => (band_items ty bands levels q).map fun x =>
        send_buffer ty bands levels src staged mirrors q (send_address ty bands q x) := by
    rw [List.ofFn_eq_map]
    apply List.map_congr_left
    intro q _
    rw [send_message_eq]
    show (band_items ty bands levels q).map (fun x => (if staged q then copy_bytes
      ((levels : Int) * (counts bands).getD q 0 * ty.sizeof) (src q) (mirrors q) else src q)
        (send_address ty bands q x)) = _
    rw [counts_getD]
    rfl
  have hblocks : ((counts bands).zip ((List.range bands.length).map fun r => (displ bands r : Int))).map
        (fun x => addresses (ReplicatedGatherPlan.make_resized_column ty levels bands.sum)
          (x.2 * (ReplicatedGatherPlan.make_resized_column ty levels bands.sum).extent) x.1.toNat) =
      (List.finRange bands.length).map fun q =>
        (band_items ty bands levels q).map (recv_address ty bands q) := by
    rw [counts_eq, displacements_eq, List.zip_map', List.map_map]
    apply List.map_congr_left
    intro q _
    exact block_eq q
  have hgather : ∀ recvbuf : Int → β, MPI_Allgatherv
      ((List.finRange bands.length).map fun q => (band_items ty bands levels q).map fun x =>
        send_buffer ty bands levels src staged mirrors q (send_address ty bands q x))
      (counts bands) ((List.range bands.length).map fun r => (displ bands r : Int))
      (ReplicatedGatherPlan.make_resized_column ty levels bands.sum) recvbuf =
        some (received ty bands levels (send_buffer ty bands levels src staged mirrors) recvbuf) := by
    intro recvbuf
    rw [MPI_Allgatherv, hblocks, List.zip_map', if_pos]
    · rw [List.foldl_map]
      rfl
    · intro x hx
      obtain ⟨q, _, hq⟩ := List.mem_map.mp hx
      subst hq
      simp
  rw [ReplicatedGatherPlan.gather_replicated]
  dsimp only
  rw [hmessages]
  show (match MPI_Allgatherv _ (counts bands) ((List.range bands.length).map fun r =>
    (displ bands r : Int)) (ReplicatedGatherPlan.make_resized_column ty levels bands.sum) _ with
    | none => Outcome.thrown Exn.other
    | some memory => Outcome.returned (if staged rank then
        copy_bytes ((levels : Int) * bands.sum * ty.sizeof) memory dest else memory)) = _
  rw [hgather]

/-- The place of an element in the field: the level, the rank and the number in
    the band. -/
def place (bands : List Nat) (r : Fin bands.length) (level b : Nat) : Nat :=
  level * bands.sum + displ bands r + b

/-- The field that a gather of each level for itself leaves: every element of
    every band at its place, in every level. -/
def Replicated (ty : ValueType) (bands : List Nat) (levels : Nat)
    (src : Fin bands.length → Int → β) (dest : Int → β) : Prop :=
  ∀ (r : Fin bands.length) (level b c : Nat), level < levels → b < bands[r] → c < ty.sizeof →
    dest ((place bands r level b * ty.sizeof + c : Nat) : Int) =
      src r (((level * bands[r] + b) * ty.sizeof + c : Nat) : Int)

theorem table_inj {t s x x' k k' c c' : Nat} (hx : x < t) (hx' : x' < t) (hc : c < s) (hc' : c' < s)
    (h : (x + k * t) * s + c = (x' + k' * t) * s + c') : x = x' ∧ k = k' ∧ c = c' := by
  have hbyte : ∀ {e d : Nat}, d < s → (e * s + d) % s = d ∧ (e * s + d) / s = e := by
    intro e d hd
    rw [Nat.mul_comm, Nat.mul_add_mod, Nat.mod_eq_of_lt hd, Nat.mul_add_div (by omega),
      Nat.div_eq_of_lt hd]
    exact ⟨rfl, Nat.add_zero e⟩
  have hplace : ∀ {e k : Nat}, e < t → (e + k * t) % t = e ∧ (e + k * t) / t = k := by
    intro e k he
    rw [Nat.add_mul_mod_self_right, Nat.mod_eq_of_lt he, Nat.add_mul_div_right _ _ (by omega),
      Nat.div_eq_of_lt he]
    exact ⟨rfl, Nat.zero_add k⟩
  have helement : x + k * t = x' + k' * t := by
    rw [← (@hbyte (x + k * t) c hc).2, h, (hbyte hc').2]
  refine ⟨?_, ?_, ?_⟩
  · rw [← (@hplace x k hx).1, helement, (hplace hx').1]
  · rw [← (@hplace x k hx).2, helement, (hplace hx').2]
  · rw [← (@hbyte (x + k * t) c hc).1, h, (hbyte hc').1]

theorem table_lt {t s x k c : Nat} {levels : Nat} (hk : k < levels) (hx : x < t) (hc : c < s) :
    (k * t + x) * s + c < levels * t * s := by
  have hplace : k * t + x + 1 ≤ levels * t := by
    have := Nat.mul_le_mul_right t hk
    rw [Nat.succ_mul] at this
    omega
  have := Nat.mul_le_mul_right s hplace
  rw [Nat.succ_mul] at this
  omega

theorem displ_add_lt {r : Fin bands.length} {b : Nat} (hb : b < bands[r]) :
    displ bands r + b < bands.sum := by
  have := displ_add_le r.isLt
  simp only [Fin.getElem_fin] at hb
  omega

theorem band_eq {q r : Fin bands.length} {b b' : Nat} (hb : b < bands[q]) (hb' : b' < bands[r])
    (h : displ bands q + b = displ bands r + b') : q = r := by
  exact (exists_unique_band (displ_add_lt hb)).unique ⟨by omega, by omega⟩ ⟨by omega, by omega⟩

section Transferable

variable (hty : ty.Transferable)
include hty

theorem recv_address_eq (q : Fin bands.length) (b k c : Nat) :
    recv_address ty bands q (b, k, c) = ((place bands q k b * ty.sizeof + c : Nat) : Int) := by
  have hpiece : piece ty = ty.sizeof := hty
  rw [recv_address, place, hpiece]
  push_cast
  ring

theorem send_address_eq {q : Fin bands.length} {b : Nat} (hb : b < bands[q]) (k c : Nat) :
    send_address ty bands q (b, k, c) = (((k * bands[q] + b) * ty.sizeof + c : Nat) : Int) := by
  have hpiece : piece ty = ty.sizeof := hty
  rw [send_address, if_pos (Nat.zero_lt_of_lt hb), hpiece]
  push_cast
  ring

theorem recv_address_inj {q r : Fin bands.length} {x y : Nat × Nat × Nat}
    (hx : x ∈ band_items ty bands levels q) (hy : y ∈ band_items ty bands levels r)
    (h : recv_address ty bands q x = recv_address ty bands r y) : q = r ∧ x = y := by
  obtain ⟨b, k, c⟩ := x
  obtain ⟨b', k', c'⟩ := y
  have hpiece : piece ty = ty.sizeof := hty
  rw [band_items, Datatypes.mem_items, hpiece] at hx hy
  rw [recv_address_eq hty, recv_address_eq hty, Nat.cast_inj] at h
  have htable : (displ bands q + b + k * bands.sum) * ty.sizeof + c =
      (displ bands r + b' + k' * bands.sum) * ty.sizeof + c' := by
    rw [place, place] at h
    calc _ = (k * bands.sum + displ bands q + b) * ty.sizeof + c := by ring
      _ = _ := h
      _ = _ := by ring
  obtain ⟨hplace, hk, hc⟩ := table_inj (displ_add_lt hx.1) (displ_add_lt hy.1) hx.2.2 hy.2.2 htable
  have hqr := band_eq hx.1 hy.1 hplace
  subst hqr
  exact ⟨rfl, by rw [hk, hc, show b = b' by omega]⟩

theorem received_apply (buffers : Fin bands.length → Int → β) (recvbuf : Int → β)
    {r : Fin bands.length} {x : Nat × Nat × Nat} (hx : x ∈ band_items ty bands levels r) :
    received ty bands levels buffers recvbuf (recv_address ty bands r x) =
      buffers r (send_address ty bands r x) := by
  apply Datatypes.foldl_apply_of_hit (List.mem_finRange r)
  · intro memory
    apply Datatypes.scatter_map _ hx
    intro y hy z hz heq
    exact (recv_address_inj hty hy hz heq).2
  · intro q _ hne memory
    apply Datatypes.scatter_of_not_mem
    intro hmem
    obtain ⟨y, hy, heq⟩ := List.mem_map.mp hmem
    exact hne (recv_address_inj hty hy hx heq).1

theorem send_buffer_apply (src : Fin bands.length → Int → β) (staged : Fin bands.length → Bool)
    (mirrors : Fin bands.length → Int → β) {q : Fin bands.length} {b k c : Nat} (hb : b < bands[q])
    (hk : k < levels) (hc : c < ty.sizeof) :
    send_buffer ty bands levels src staged mirrors q (send_address ty bands q (b, k, c)) =
      src q (((k * bands[q] + b) * ty.sizeof + c : Nat) : Int) := by
  rw [send_address_eq hty hb, send_buffer]
  by_cases hstaged : staged q = true
  · rw [if_pos hstaged, copy_bytes, if_pos]
    have hbound := table_lt hk hb hc
    constructor
    · omega
    · exact_mod_cast hbound
  · rw [if_neg hstaged]

/-- **The gather assembles the field**, directly and through mirrors. -/
theorem gather_replicated_field (src : Fin bands.length → Int → β)
    (staged : Fin bands.length → Bool) (mirrors : Fin bands.length → Int → β)
    (rank : Fin bands.length) (dest : Int → β) :
    ∃ field, ReplicatedGatherPlan.gather_replicated ty
      (fun q => plan_of ty bands levels bands[q]) src staged mirrors rank
        dest = .returned field ∧ Replicated ty bands levels src field := by
  refine ⟨_, gather_replicated_eq src staged mirrors rank dest, ?_⟩
  intro r level b c hlevel hb hc
  have hpiece : piece ty = ty.sizeof := hty
  have hitem : (b, level, c) ∈ band_items ty bands levels r := by
    rw [band_items, Datatypes.mem_items, hpiece]
    exact ⟨hb, hlevel, hc⟩
  have harrived : ∀ recvbuf, received ty bands levels (send_buffer ty bands levels src staged mirrors)
      recvbuf ((place bands r level b * ty.sizeof + c : Nat) : Int) =
        src r (((level * bands[r] + b) * ty.sizeof + c : Nat) : Int) := by
    intro recvbuf
    rw [← recv_address_eq hty, received_apply hty _ _ hitem,
      send_buffer_apply hty src staged mirrors hb hlevel hc]
  dsimp only
  split
  · rw [copy_bytes, if_pos]
    · exact harrived _
    · have hbound := table_lt hlevel (displ_add_lt hb) hc
      rw [← Nat.add_assoc] at hbound
      constructor
      · omega
      · exact_mod_cast hbound
  · exact harrived _

end Transferable

/-- A type whose elements go as single bytes leaves the last byte of the field as
    it was. -/
theorem received_last (hty : ¬ ty.Transferable) (hsize : 0 < ty.sizeof) (hlevels : 0 < levels)
    (buffers : Fin bands.length → Int → β) (recvbuf : Int → β) :
    received ty bands levels buffers recvbuf
        ((levels : Int) * bands.sum * ty.sizeof - 1) =
      recvbuf ((levels : Int) * bands.sum * ty.sizeof - 1) := by
  have hpiece : piece ty = 1 ∧ 2 ≤ ty.sizeof := by
    rw [transferable_iff] at hty
    push Not at hty
    obtain ⟨size, heq, hne⟩ := hty
    subst heq
    have hpos : 0 < size := hsize
    exact ⟨rfl, show 2 ≤ size by omega⟩
  apply Datatypes.foldl_apply_of_miss
  intro q _ memory
  apply Datatypes.scatter_of_not_mem
  intro hmem
  obtain ⟨⟨b, k, c⟩, hx, heq⟩ := List.mem_map.mp hmem
  rw [band_items, Datatypes.mem_items, hpiece.1] at hx
  obtain ⟨hb, hk, hc⟩ := hx
  rw [recv_address, hpiece.1] at heq
  have hplace := displ_add_lt hb
  -- the farthest byte that is written lies before the last one
  have hnear : (displ bands q + b) * ty.sizeof + k * bands.sum + c + 1 < levels * bands.sum * ty.sizeof := by
    have hwidth : (displ bands q + b) * ty.sizeof + ty.sizeof ≤ bands.sum * ty.sizeof := by
      have := Nat.mul_le_mul_right ty.sizeof hplace
      rwa [Nat.succ_mul] at this
    have hheight : k * bands.sum ≤ (levels - 1) * bands.sum * ty.sizeof := by
      calc k * bands.sum ≤ (levels - 1) * bands.sum := Nat.mul_le_mul_right _ (by omega)
        _ ≤ (levels - 1) * bands.sum * ty.sizeof := Nat.le_mul_of_pos_right _ hsize
    have hsplit : levels * bands.sum * ty.sizeof =
        (levels - 1) * bands.sum * ty.sizeof + bands.sum * ty.sizeof := by
      conv_lhs => rw [show levels = levels - 1 + 1 by omega]
      ring
    omega
  have hnear' : ((displ bands q : Int) + b) * ty.sizeof + k * bands.sum + c + 1 <
      (levels : Int) * bands.sum * ty.sizeof := by exact_mod_cast hnear
  have hlast : (displ bands q : Int) * ty.sizeof + b * ty.sizeof + k * bands.sum * (1 : Nat) + c =
      ((displ bands q : Int) + b) * ty.sizeof + k * bands.sum + c := by
    push_cast
    ring
  rw [hlast] at heq
  omega

/-- **The gather is right for the types that `mpi_datatype_for` knows.** The plans
    of the ranks have the same displacements, and the bands tile a level. -/
theorem gather_replicated_iff (hranks : bands ≠ []) (hlevels : 0 < levels)
    (hsum : bands.sum < 2 ^ 31) (hsize : 0 < ty.sizeof) :
    ∃ plans : Fin bands.length → ReplicatedGatherPlan,
      (∀ q, ReplicatedGatherPlan.make ty (counts bands) (bands[q] : Nat) levels =
        .returned (plans q)) ∧
      (∀ q r : Fin bands.length, (plans q).displacements[r.val]? = some (displ bands r : Int)) ∧
      (∀ j < bands.sum, ∃! r : Fin bands.length,
        displ bands r ≤ j ∧ j < displ bands r + bands[r]) ∧
      ((∀ (src : Fin bands.length → Int → UInt8) (staged : Fin bands.length → Bool)
          (mirrors : Fin bands.length → Int → UInt8) (rank : Fin bands.length) (dest : Int → UInt8),
          ∃ field, ReplicatedGatherPlan.gather_replicated ty plans src staged mirrors rank dest =
              .returned field ∧
            Replicated ty bands levels src field) ↔
        ty.Transferable ∨ ∀ band ∈ bands, band = 0) := by
  refine ⟨fun q => plan_of ty bands levels bands[q], fun q => make_eq _ hranks hlevels hsum, ?_,
    fun j hj => exists_unique_band hj, ?_⟩
  · intro q r
    simp [plan_of]
  constructor
  · intro hall
    by_contra hneither
    push Not at hneither
    obtain ⟨hty, band, hband, hpos⟩ := hneither
    have htotal : 0 < bands.sum :=
      Nat.lt_of_lt_of_le (Nat.pos_of_ne_zero hpos) (List.le_sum_of_mem hband)
    -- the last element of the last level
    obtain ⟨r, ⟨hle, hlt⟩, _⟩ := @exists_unique_band bands (bands.sum - 1) (by omega)
    obtain ⟨field, hgather, hfield⟩ := hall (fun _ _ => 1) (fun _ => false) (fun _ _ => 0) r
      fun _ => 0
    have hwant := hfield r (levels - 1) (bands.sum - 1 - displ bands r) (ty.sizeof - 1) (by omega)
      (by omega) (by omega)
    have hlast : ((place bands r (levels - 1) (bands.sum - 1 - displ bands r) * ty.sizeof +
        (ty.sizeof - 1) : Nat) : Int) = (levels : Int) * bands.sum * ty.sizeof - 1 := by
      have hplace : place bands r (levels - 1) (bands.sum - 1 - displ bands r) + 1 =
          levels * bands.sum := by
        rw [place]
        conv_rhs => rw [show levels = levels - 1 + 1 by omega, Nat.succ_mul]
        omega
      have hbytes : place bands r (levels - 1) (bands.sum - 1 - displ bands r) * ty.sizeof +
          (ty.sizeof - 1) + 1 = levels * bands.sum * ty.sizeof := by
        rw [← hplace, Nat.succ_mul]
        omega
      have hcast := congrArg (fun n : Nat => (n : Int)) hbytes
      push_cast at hcast ⊢
      omega
    rw [gather_replicated_eq] at hgather
    have hfield_eq := Signed.Outcome.returned.inj hgather
    rw [hlast, ← hfield_eq] at hwant
    dsimp only at hwant
    rw [if_neg (by decide), received_last hty hsize hlevels] at hwant
    have hbyte : (0 : UInt8) = 1 := hwant
    exact absurd hbyte (by decide)
  · intro hcase src staged mirrors rank dest
    rcases hcase with hty | hzero
    · exact gather_replicated_field hty src staged mirrors rank dest
    · refine ⟨_, gather_replicated_eq src staged mirrors rank dest, ?_⟩
      intro r level b c _ hb _
      have := hzero _ (List.getElem_mem r.isLt)
      simp only [Fin.getElem_fin] at hb
      omega

end Correctness

theorem gather_replicated_two_levels :
    ∃ plans : Fin 2 → ReplicatedGatherPlan,
      ∀ (src : Fin 2 → Int → UInt8) (rank : Fin 2) (dest : Int → UInt8),
        ∃ field, ReplicatedGatherPlan.gather_replicated .double plans src (fun _ => false)
            (fun _ _ => 0) rank dest =
          .returned field ∧ Replicated .double [3, 0] 2 src field := by
  obtain ⟨plans, _, _, _, hiff⟩ := @gather_replicated_iff .double [3, 0] 2 (by decide) (by decide)
    (by decide) (by decide)
  exact ⟨plans, fun src rank dest =>
    hiff.mpr (.inl (by decide)) src (fun _ => false) (fun _ _ => 0) rank dest⟩

theorem gather_replicated_drops_byte :
    ∃ plan, ReplicatedGatherPlan.make (.other 2) [1] 1 1 = .returned plan ∧
      ∃ field : Int → UInt8, ReplicatedGatherPlan.gather_replicated (.other 2)
          (fun _ : Fin 1 => plan) (fun _ _ => 1)
          (fun _ => false) (fun _ _ => 0) 0 (fun _ => 0) = .returned field ∧
        ¬ Replicated (.other 2) [1] 1 (fun _ _ => 1) field := by
  refine ⟨_, rfl, _, rfl, ?_⟩
  intro hfield
  exact absurd (hfield ⟨0, by decide⟩ 0 0 1 (by decide) (by decide) (by decide)) (by decide)

end Halo
