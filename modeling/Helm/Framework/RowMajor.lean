import Mathlib

/-! # Arrays in row-major order

  An array has an extent for each of its axes. A multi-index has a number
  for each axis, below the extent; in row-major order the last axis varies
  fastest.

  * **Enumeration**: `indices es` lists the multi-indices of the extents
    `es` in row-major order, and `unrank es k` is the `k`-th of them.
  * **Offsets**: `offset i ss` is the place of the element `i` when the axes
    have the strides `ss`. With `strides es` the elements lie one after the
    other. `Contiguous` says which strides are as good as these, and
    `Forward` and `farthest` bound the offsets of any strides.
  * **Odometer**: `advance` goes from a multi-index to the next one, and
    `walk` visits all of them.
  * **Regions**: a `Region` has a start, a count and a stride for each axis.
    `Region.Inside es` says that it selects elements of the array only.
  * **Alignment**: an array is read as one with other extents, its axes matched
    from the last one on.
  * **Blocks**: part of an array, with the strides of the whole. `prod_le_farthest`
    says when its elements lie one after the other.
-/

namespace RowMajor

/-! ### Enumeration -/

/-- The multi-indices in row-major order. -/
def indices : List Nat → List (List Nat)
  | [] => [[]]
  | e :: es => (List.range e).flatMap fun i => (indices es).map (i :: ·)

@[simp] theorem indices_nil : indices [] = [[]] := rfl

theorem indices_cons (e : Nat) (es : List Nat) :
    indices (e :: es) = (List.range e).flatMap fun i => (indices es).map (i :: ·) := rfl

theorem length_indices (es : List Nat) : (indices es).length = es.prod := by
  induction es with
  | nil => rfl
  | cons e es ih =>
    simp [indices_cons, List.length_flatMap, ih]

theorem mem_indices {i es : List Nat} : i ∈ indices es ↔ List.Forall₂ (· < ·) i es := by
  induction es generalizing i with
  | nil => simp
  | cons e es ih =>
    simp only [indices_cons, List.mem_flatMap, List.mem_range, List.mem_map, ih,
      List.forall₂_cons_right_iff]
    constructor
    · intro ⟨k, hk, i', hi', heq⟩
      exact ⟨k, i', hk, hi', heq.symm⟩
    · intro ⟨k, i', hk, hi', heq⟩
      exact ⟨k, hk, i', hi', heq.symm⟩

theorem range_mul (a b : Nat) :
    List.range (a * b) = (List.range a).flatMap fun i => (List.range b).map (i * b + ·) := by
  induction a with
  | zero => simp
  | succ a ih =>
    rw [List.range_succ, List.flatMap_append, ← ih, Nat.succ_mul, List.range_add]
    simp

/-- The `k`-th multi-index. Only `k` modulo the number of elements counts. -/
def unrank : List Nat → Nat → List Nat
  | [], _ => []
  | e :: es, k => k / es.prod % e :: unrank es k

@[simp] theorem length_unrank (es : List Nat) (k : Nat) : (unrank es k).length = es.length := by
  induction es with
  | nil => rfl
  | cons e es ih => simp [unrank, ih]

theorem unrank_zero (es : List Nat) : unrank es 0 = List.replicate es.length 0 := by
  induction es with
  | nil => rfl
  | cons e es ih => simp [unrank, ih, List.replicate_succ]

theorem unrank_add_mul (es : List Nat) (k c : Nat) (hpos : 0 < es.prod) :
    unrank es (c * es.prod + k) = unrank es k := by
  induction es generalizing c with
  | nil => rfl
  | cons e es ih =>
    rw [List.prod_cons] at hpos ⊢
    have hes : 0 < es.prod := Nat.pos_of_mul_pos_left hpos
    have hshift : c * (e * es.prod) + k = c * e * es.prod + k := by ring
    rw [unrank, unrank, hshift, ih (c * e) hes, Nat.add_comm, Nat.add_mul_div_right _ _ hes,
      Nat.add_mul_mod_self_right]

theorem indices_eq_map_unrank (es : List Nat) :
    indices es = (List.range es.prod).map (unrank es) := by
  induction es with
  | nil => rfl
  | cons e es ih =>
    rw [indices_cons, List.prod_cons, range_mul, List.map_flatMap, ih]
    apply List.flatMap_congr
    intro i hi
    rw [List.map_map, List.map_map]
    apply List.map_congr_left
    intro k hk
    have hi := List.mem_range.mp hi
    have hk := List.mem_range.mp hk
    have hpos : 0 < es.prod := by omega
    show i :: unrank es k = unrank (e :: es) (i * es.prod + k)
    rw [unrank, unrank_add_mul es k i hpos, Nat.add_comm, Nat.add_mul_div_right _ _ hpos,
      Nat.div_eq_of_lt hk, Nat.zero_add, Nat.mod_eq_of_lt hi]

/-! ### Offsets -/

/-- The place of an element, in elements from the start of the array. -/
def offset (i : List Nat) (ss : List Int) : Int :=
  (List.zipWith (fun (k : Nat) (s : Int) => k * s) i ss).sum

@[simp] theorem offset_nil (ss : List Int) : offset [] ss = 0 := rfl

@[simp] theorem offset_cons (k : Nat) (i : List Nat) (s : Int) (ss : List Int) :
    offset (k :: i) (s :: ss) = k * s + offset i ss := by
  simp [offset]

theorem offset_zeros (n : Nat) (ss : List Int) : offset (List.replicate n 0) ss = 0 := by
  induction n generalizing ss with
  | zero => rfl
  | succ n ih =>
    cases ss with
    | nil => rfl
    | cons s ss => simp [List.replicate_succ, ih]

/-- The strides with which the elements lie one after the other. -/
def strides : List Nat → List Int
  | [] => []
  | _ :: es => (es.prod : Int) :: strides es

@[simp] theorem length_strides (es : List Nat) : (strides es).length = es.length := by
  induction es with
  | nil => rfl
  | cons e es ih => simp [strides, ih]

theorem offset_unrank {es : List Nat} {k : Nat} (hk : k < es.prod) :
    offset (unrank es k) (strides es) = k := by
  induction es generalizing k with
  | nil =>
    simp at hk
    simp [unrank, hk]
  | cons e es ih =>
    have hpos : 0 < es.prod := by
      rw [List.prod_cons] at hk
      exact Nat.pos_of_mul_pos_left (Nat.zero_lt_of_lt hk)
    have hdiv : k / es.prod < e := by
      rw [List.prod_cons] at hk
      exact Nat.div_lt_of_lt_mul (Nat.mul_comm e es.prod ▸ hk)
    have hrest : unrank es k = unrank es (k % es.prod) := by
      conv_lhs => rw [← Nat.div_add_mod' k es.prod]
      exact unrank_add_mul es _ _ hpos
    rw [unrank, strides, offset_cons, hrest, ih (Nat.mod_lt k hpos), Nat.mod_eq_of_lt hdiv]
    exact_mod_cast Nat.div_add_mod' k es.prod

theorem zeros_mem_indices {es : List Nat} (hpos : ∀ e ∈ es, 0 < e) :
    List.replicate es.length 0 ∈ indices es := by
  rw [mem_indices]
  induction es with
  | nil => exact .nil
  | cons e es ih =>
    rw [List.length_cons, List.replicate_succ]
    exact .cons (hpos e List.mem_cons_self) (ih fun e' he' => hpos e' (List.mem_cons_of_mem _ he'))

theorem cons_mem_indices {k e : Nat} {i es : List Nat} :
    k :: i ∈ indices (e :: es) ↔ k < e ∧ i ∈ indices es := by
  rw [mem_indices, mem_indices, List.forall₂_cons]

/-- The strides leave the elements one after the other. The stride of an axis
    with a single element does not matter. -/
def Contiguous : List Nat → List Int → Prop
  | e :: es, s :: ss => (e ≤ 1 ∨ s = es.prod) ∧ Contiguous es ss
  | _, _ => True

instance decidableContiguous : (es : List Nat) → (ss : List Int) → Decidable (Contiguous es ss)
  | [], _ => isTrue trivial
  | _ :: _, [] => isTrue trivial
  | e :: es, s :: ss =>
    have := decidableContiguous es ss
    inferInstanceAs (Decidable ((e ≤ 1 ∨ s = es.prod) ∧ Contiguous es ss))

theorem contiguous_iff {es : List Nat} {ss : List Int} (hlength : ss.length = es.length)
    (hpos : ∀ e ∈ es, 0 < e) :
    Contiguous es ss ↔ ∀ i ∈ indices es, offset i ss = offset i (strides es) := by
  induction es generalizing ss with
  | nil => simp [Contiguous]
  | cons e es ih =>
    obtain ⟨s, ss, rfl⟩ := List.exists_cons_of_length_eq_add_one hlength
    have hes : ∀ e' ∈ es, 0 < e' := fun e' he' => hpos e' (List.mem_cons_of_mem _ he')
    have ih := ih (by simpa using hlength) hes
    rw [Contiguous, ih]
    constructor
    · intro ⟨hs, htail⟩ i hi
      obtain ⟨k, i, hk, hi', rfl⟩ := List.forall₂_cons_right_iff.mp (mem_indices.mp hi)
      have hrest := htail i (mem_indices.mpr hi')
      rw [strides, offset_cons, offset_cons, hrest]
      rcases hs with he | rfl
      · -- the axis has one element
        obtain rfl : k = 0 := by omega
        simp
      · rfl
    · intro hall
      constructor
      · by_cases he : e ≤ 1
        · exact .inl he
        · -- the second element along the axis
          have hone := hall (1 :: List.replicate es.length 0)
            (cons_mem_indices.mpr ⟨by omega, zeros_mem_indices hes⟩)
          rw [strides, offset_cons, offset_cons, offset_zeros, offset_zeros] at hone
          exact .inr (by simpa using hone)
      · intro i hi
        have hzero := hall (0 :: i) (cons_mem_indices.mpr ⟨hpos e List.mem_cons_self, hi⟩)
        rw [strides, offset_cons, offset_cons] at hzero
        simpa using hzero

/-- No stride goes backward, except along an axis with a single element. -/
def Forward : List Nat → List Int → Prop
  | e :: es, s :: ss => (e ≤ 1 ∨ 0 ≤ s) ∧ Forward es ss
  | _, _ => True

instance decidableForward : (es : List Nat) → (ss : List Int) → Decidable (Forward es ss)
  | [], _ => isTrue trivial
  | _ :: _, [] => isTrue trivial
  | e :: es, s :: ss =>
    have := decidableForward es ss
    inferInstanceAs (Decidable ((e ≤ 1 ∨ 0 ≤ s) ∧ Forward es ss))

/-- The offset of the last element. -/
def farthest (es : List Nat) (ss : List Int) : Int := offset (es.map (· - 1)) ss

theorem last_mem_indices {es : List Nat} (hpos : ∀ e ∈ es, 0 < e) :
    es.map (· - 1) ∈ indices es := by
  rw [mem_indices, List.forall₂_map_left_iff]
  apply List.forall₂_same.mpr
  intro e he
  have := hpos e he
  omega

theorem offset_le_farthest {es : List Nat} {ss : List Int} (hlength : ss.length = es.length)
    (hforward : Forward es ss) {i : List Nat} (hi : i ∈ indices es) :
    0 ≤ offset i ss ∧ offset i ss ≤ farthest es ss := by
  induction es generalizing ss i with
  | nil =>
    obtain rfl : i = [] := by simpa using hi
    simp [farthest]
  | cons e es ih =>
    obtain ⟨s, ss, rfl⟩ := List.exists_cons_of_length_eq_add_one hlength
    obtain ⟨k, i, hk, hi', rfl⟩ := List.forall₂_cons_right_iff.mp (mem_indices.mp hi)
    obtain ⟨hs, htail⟩ := hforward
    obtain ⟨hlow, hhigh⟩ := ih (by simpa using hlength) htail (mem_indices.mpr hi')
    rw [farthest] at hhigh ⊢
    rw [List.map_cons, offset_cons, offset_cons]
    rcases hs with he | hs
    · obtain rfl : k = 0 := by omega
      obtain rfl : e = 1 := by omega
      simpa using ⟨hlow, hhigh⟩
    · have hterm : 0 ≤ (k : Int) * s := by positivity
      have hmono : (k : Int) * s ≤ ((e - 1 : Nat) : Int) * s := by
        apply mul_le_mul_of_nonneg_right _ hs
        exact_mod_cast Nat.le_sub_one_of_lt hk
      constructor
      · omega
      · omega

theorem forward_iff {es : List Nat} {ss : List Int} {n : Int} (hlength : ss.length = es.length)
    (hpos : ∀ e ∈ es, 0 < e) :
    Forward es ss ∧ farthest es ss < n ↔
      ∀ i ∈ indices es, 0 ≤ offset i ss ∧ offset i ss < n := by
  constructor
  · intro ⟨hforward, hlt⟩ i hi
    obtain ⟨hlow, hhigh⟩ := offset_le_farthest hlength hforward hi
    exact ⟨hlow, hhigh.trans_lt hlt⟩
  · intro hall
    constructor
    · -- one step along each axis
      have hlow : ∀ i ∈ indices es, 0 ≤ offset i ss := fun i hi => (hall i hi).1
      clear hall
      induction es generalizing ss with
      | nil => exact trivial
      | cons e es ih =>
        obtain ⟨s, ss, rfl⟩ := List.exists_cons_of_length_eq_add_one hlength
        have hes : ∀ e' ∈ es, 0 < e' := fun e' he' => hpos e' (List.mem_cons_of_mem _ he')
        constructor
        · by_cases he : e ≤ 1
          · exact .inl he
          · have hone := hlow (1 :: List.replicate es.length 0)
              (cons_mem_indices.mpr ⟨by omega, zeros_mem_indices hes⟩)
            rw [offset_cons, offset_zeros] at hone
            exact .inr (by simpa using hone)
        · apply ih (by simpa using hlength) hes
          intro i hi
          have hzero := hlow (0 :: i) (cons_mem_indices.mpr ⟨hpos e List.mem_cons_self, hi⟩)
          simpa using hzero
    · exact (hall _ (last_mem_indices hpos)).2

/-! ### Odometer -/

/-- The next multi-index: the last axis that has room goes on by one, and the
    axes after it start again. The flag says that no axis had room. -/
def advance : List Nat → List Nat → List Nat × Bool
  | e :: es, k :: i =>
    match advance es i with
    | (i', false) => (k :: i', false)
    | (i', true) => if k + 1 < e then ((k + 1) :: i', false) else (0 :: i', true)
  | _, _ => ([], true)

/-- The first `n` multi-indices from `i` on. -/
def walk (es : List Nat) : Nat → List Nat → List (List Nat)
  | 0, _ => []
  | n + 1, i => i :: walk es n (advance es i).1

theorem advance_unrank {es : List Nat} (hpos : ∀ e ∈ es, 0 < e) (k : Nat) :
    advance es (unrank es k) = (unrank es (k + 1), decide (es.prod ∣ k + 1)) := by
  induction es with
  | nil => simp [advance, unrank]
  | cons e es ih =>
    have he : 0 < e := hpos e List.mem_cons_self
    have ih := ih fun e' he' => hpos e' (List.mem_cons_of_mem _ he')
    rw [unrank, advance, ih, unrank, List.prod_cons]
    by_cases hdvd : es.prod ∣ k + 1
    · -- the axes after this one start again
      obtain ⟨c, hc⟩ := hdvd
      have hprod : 0 < es.prod := by
        rcases Nat.eq_zero_or_pos es.prod with h0 | h0
        · simp [h0] at hc
        · exact h0
      have hnext : (k + 1) / es.prod = c := by rw [hc, Nat.mul_div_cancel_left _ hprod]
      have hdiv : k / es.prod + 1 = c := by
        have := Nat.succ_div (a := k) (b := es.prod)
        rw [if_pos ⟨c, hc⟩] at this
        omega
      have hall : e * es.prod ∣ k + 1 ↔ e ∣ c := by
        rw [hc, Nat.mul_comm e, Nat.mul_dvd_mul_iff_left hprod]
      simp only [show es.prod ∣ k + 1 from ⟨c, hc⟩, decide_true, hnext, hall]
      have hmod : c % e = if k / es.prod % e + 1 < e then k / es.prod % e + 1 else 0 := by
        rw [← hdiv, Nat.add_mod]
        have := Nat.mod_lt (k / es.prod) he
        rcases Nat.lt_or_ge 1 e with h1 | h1
        · rw [Nat.mod_eq_of_lt h1]
          split
          · next hlt => exact Nat.mod_eq_of_lt hlt
          · rw [show k / es.prod % e + 1 = e by omega, Nat.mod_self]
        · obtain rfl : e = 1 := by omega
          simp [Nat.mod_one]
      by_cases hroom : k / es.prod % e + 1 < e
      · rw [if_pos hroom] at hmod ⊢
        have hno : ¬ e ∣ c := by
          rw [Nat.dvd_iff_mod_eq_zero, hmod]
          omega
        simp [hmod, hno]
      · rw [if_neg hroom] at hmod ⊢
        have hyes : e ∣ c := Nat.dvd_of_mod_eq_zero hmod
        simp [hmod, hyes]
    · have hsame : (k + 1) / es.prod = k / es.prod := by
        have := Nat.succ_div (a := k) (b := es.prod)
        rw [if_neg hdvd] at this
        exact this
      have hno : ¬ e * es.prod ∣ k + 1 := fun h => hdvd (Dvd.dvd.trans ⟨e, Nat.mul_comm ..⟩ h)
      simp [hdvd, hno, hsame]

theorem walk_unrank {es : List Nat} (hpos : ∀ e ∈ es, 0 < e) (n k : Nat) :
    walk es n (unrank es k) = (List.range n).map fun j => unrank es (k + j) := by
  induction n generalizing k with
  | zero => rfl
  | succ n ih =>
    rw [walk, advance_unrank hpos, ih, List.range_succ_eq_map, List.map_cons, List.map_map]
    congr 2
    funext j
    rw [Function.comp_apply, Nat.succ_eq_add_one]
    congr 1
    omega

theorem walk_zeros {es : List Nat} (hpos : ∀ e ∈ es, 0 < e) :
    walk es es.prod (List.replicate es.length 0) = indices es := by
  rw [← unrank_zero, walk_unrank hpos, indices_eq_map_unrank]
  simp

/-! ### Regions -/

/-- The multi-index that a step `i` of a region selects. -/
def place : List Nat → List Nat → List Nat → List Nat
  | o :: os, s :: ss, k :: i => (o + k * s) :: place os ss i
  | _, _, _ => []

theorem place_origin (i : List Nat) :
    place (List.replicate i.length 0) (List.replicate i.length 1) i = i := by
  induction i with
  | nil => rfl
  | cons k i ih => simp [List.replicate_succ, place, ih]

/-- A start, a count and a stride for each axis. -/
structure Region where
  start : List Nat
  count : List Nat
  stride : List Nat
  deriving DecidableEq

namespace Region

/-- The multi-indices that a region selects, in row-major order. -/
def elements (r : Region) : List (List Nat) := (indices r.count).map (place r.start r.stride)

@[simp] theorem length_elements (r : Region) : r.elements.length = r.count.prod := by
  rw [elements, List.length_map, length_indices]

/-- The whole array. -/
def whole (es : List Nat) : Region :=
  ⟨List.replicate es.length 0, es, List.replicate es.length 1⟩

theorem elements_whole (es : List Nat) : (whole es).elements = indices es := by
  rw [elements, whole]
  conv_rhs => rw [← List.map_id (indices es)]
  apply List.map_congr_left
  intro i hi
  have hlength := (mem_indices.mp hi).length_eq
  dsimp only
  rw [← hlength, place_origin, id]

/-- One more axis, in front, along which a single element is selected. -/
def cons (o : Nat) (r : Region) : Region := ⟨o :: r.start, 1 :: r.count, 1 :: r.stride⟩

theorem elements_cons (o : Nat) (r : Region) :
    (r.cons o).elements = r.elements.map (o :: ·) := by
  simp only [elements, cons, indices_cons, List.range_one, List.flatMap_singleton, List.map_map]
  apply List.map_congr_left
  intro i _
  simp [place]

/-- The axes of a region that lies inside an array. -/
def Within : List Nat → List Nat → List Nat → List Nat → Prop
  | [], [], [], [] => True
  | e :: es, o :: os, n :: ns, s :: ss => (1 ≤ n ∧ o + (n - 1) * s < e) ∧ Within es os ns ss
  | _, _, _, _ => False

/-- The region has the axes of the array, and selects indices inside it. -/
def Inside (es : List Nat) (r : Region) : Prop := Within es r.start r.count r.stride

instance decidableWithin : (es os ns ss : List Nat) → Decidable (Within es os ns ss)
  | [], [], [], [] => isTrue trivial
  | e :: es, o :: os, n :: ns, s :: ss =>
    have := decidableWithin es os ns ss
    inferInstanceAs (Decidable ((1 ≤ n ∧ o + (n - 1) * s < e) ∧ Within es os ns ss))
  | [], _ :: _, _, _ => isFalse id
  | [], [], _ :: _, _ => isFalse id
  | [], [], [], _ :: _ => isFalse id
  | _ :: _, [], _, _ => isFalse id
  | _ :: _, _ :: _, [], _ => isFalse id
  | _ :: _, _ :: _, _ :: _, [] => isFalse id

instance (es : List Nat) (r : Region) : Decidable (r.Inside es) :=
  inferInstanceAs (Decidable (Within es r.start r.count r.stride))

theorem within_map {ι : Type*} {l : List ι} {e o n s : ι → Nat} :
    Within (l.map e) (l.map o) (l.map n) (l.map s) ↔
      ∀ d ∈ l, 1 ≤ n d ∧ o d + (n d - 1) * s d < e d := by
  induction l with
  | nil => simp [Within]
  | cons d l ih => simp [Within, ih]

theorem inside_cons {e o : Nat} {es : List Nat} {r : Region} (ho : o < e) (h : r.Inside es) :
    (r.cons o).Inside (e :: es) :=
  ⟨⟨le_rfl, by simpa using ho⟩, h⟩

theorem inside_whole {es : List Nat} (hpos : ∀ e ∈ es, 0 < e) : (whole es).Inside es := by
  induction es with
  | nil => exact trivial
  | cons e es ih =>
    have he := hpos e List.mem_cons_self
    refine ⟨⟨he, ?_⟩, ih fun e' he' => hpos e' (List.mem_cons_of_mem _ he')⟩
    omega

theorem Inside.lengths {es : List Nat} {r : Region} (h : r.Inside es) :
    r.start.length = es.length ∧ r.count.length = es.length ∧ r.stride.length = es.length := by
  obtain ⟨os, ns, ss⟩ := r
  unfold Inside at h
  dsimp only at h ⊢
  induction es generalizing os ns ss with
  | nil =>
    match os, ns, ss, h with
    | [], [], [], _ => exact ⟨rfl, rfl, rfl⟩
  | cons e es ih =>
    match os, ns, ss, h with
    | o :: os, n :: ns, s :: ss, h =>
      obtain ⟨hos, hns, hss⟩ := ih os ns ss h.2
      simp [hos, hns, hss]

theorem Inside.elements_subset {es : List Nat} {r : Region} (h : r.Inside es) :
    r.elements ⊆ indices es := by
  obtain ⟨os, ns, ss⟩ := r
  unfold Inside at h
  dsimp only at h
  intro j hj
  obtain ⟨i, hi, rfl⟩ := List.mem_map.mp hj
  clear hj
  dsimp only at hi ⊢
  induction es generalizing os ns ss i with
  | nil =>
    match os, ns, ss, h with
    | [], [], [], _ => simp [place]
  | cons e es ih =>
    match os, ns, ss, h with
    | o :: os, n :: ns, s :: ss, ⟨⟨hn, hlast⟩, h⟩ =>
      obtain ⟨k, i, hk, hi', rfl⟩ := List.forall₂_cons_right_iff.mp (mem_indices.mp hi)
      rw [place, cons_mem_indices]
      refine ⟨?_, ih os ns ss h i (mem_indices.mpr hi')⟩
      have : k * s ≤ (n - 1) * s := Nat.mul_le_mul_right _ (by omega)
      omega

theorem inside_ones {es os ss : List Nat} (h : ss.length = os.length) :
    Inside es ⟨os, List.replicate os.length 1, ss⟩ ↔ os ∈ indices es := by
  rw [mem_indices]
  unfold Inside
  dsimp only
  induction es generalizing os ss with
  | nil =>
    cases os with
    | nil => simp [Within, List.eq_nil_of_length_eq_zero h]
    | cons o os => simp [Within]
  | cons e es ih =>
    cases os with
    | nil => simp [Within]
    | cons o os =>
      obtain ⟨s, ss, rfl⟩ := List.exists_cons_of_length_eq_add_one h
      simp [List.replicate_succ, Within, ih (show ss.length = os.length by simpa using h)]

/-- The region that selects part of a region, along one axis. -/
def slice (r : Region) (d o n s : Nat) : Region :=
  ⟨r.start.set d (r.start.getD d 0 + o * r.stride.getD d 0), r.count.set d n,
    r.stride.set d (r.stride.getD d 0 * s)⟩

theorem slice_append {os ns ss : List Nat} {d : Nat} (os' ns' ss' : List Nat) (e : Nat) (hos : os.length = d)
    (hns : ns.length = d) (hss : ss.length = d) (o n s : Nat) :
    slice ⟨os ++ 0 :: os', ns ++ e :: ns', ss ++ 1 :: ss'⟩ d o n s =
      ⟨os ++ o :: os', ns ++ n :: ns', ss ++ s :: ss'⟩ := by
  have hset : ∀ {xs ys : List Nat} {x y : Nat}, xs.length = d →
      (xs ++ x :: ys).set d y = xs ++ y :: ys := by
    intro xs ys x y hxs
    rw [← hxs, List.set_append_right _ _ le_rfl, Nat.sub_self, List.set_cons_zero]
  have hget : ∀ {xs ys : List Nat} {x : Nat}, xs.length = d → (xs ++ x :: ys).getD d 0 = x := by
    intro xs ys x hxs
    rw [← hxs]
    simp
  simp only [slice, hset hos, hset hns, hset hss, hget hos, hget hss, Nat.zero_add, Nat.mul_one,
    Nat.one_mul]

end Region

/-! ### Alignment

  The lists of this section start with the last axis. -/

/-- Can an array be read as one with other extents? An axis with one element is
    repeated as often as is needed; an axis without partner has one element. -/
def Aligned : List Nat → List Nat → Prop
  | [], _ => True
  | e :: es, [] => e = 1 ∧ Aligned es []
  | e :: es, f :: fs => (e = f ∨ e = 1) ∧ Aligned es fs

instance decidableAligned : (es fs : List Nat) → Decidable (Aligned es fs)
  | [], _ => isTrue trivial
  | e :: es, [] =>
    have := decidableAligned es []
    inferInstanceAs (Decidable (e = 1 ∧ Aligned es []))
  | e :: es, f :: fs =>
    have := decidableAligned es fs
    inferInstanceAs (Decidable ((e = f ∨ e = 1) ∧ Aligned es fs))

/-- The index that is read for an index of the other array. -/
def align : List Nat → List Nat → List Nat
  | [], _ => []
  | _ :: es, [] => 0 :: align es []
  | e :: es, k :: i => (if e = 1 then 0 else k) :: align es i

theorem aligned_append {e : Nat} (es : List Nat) : Aligned (es ++ [e]) es ↔ e = 1 := by
  induction es with
  | nil => simp [Aligned]
  | cons f es ih => simp [Aligned, ih]

theorem aligned_cons (e : Nat) (es : List Nat) :
    Aligned (e :: es) es ↔ e = 1 ∧ ∀ f ∈ es, f = 1 := by
  induction es generalizing e with
  | nil => simp [Aligned]
  | cons f es ih =>
    rw [Aligned, ih, List.forall_mem_cons]
    constructor
    · intro ⟨he, hf, hes⟩
      exact ⟨he.elim (fun h => h.trans hf) id, hf, hes⟩
    · intro ⟨he, hf, hes⟩
      exact ⟨.inr he, hf, hes⟩

theorem align_append {es i : List Nat} (hi : List.Forall₂ (· < ·) i es) :
    align (es ++ [1]) i = i ++ [0] := by
  induction hi with
  | nil => rfl
  | @cons k e i es hk _ ih =>
    rw [List.cons_append, align, ih, List.cons_append]
    split
    · next he => rw [show k = 0 by omega]
    · rfl

theorem align_ones (n : Nat) (i : List Nat) :
    align (List.replicate n 1) i = List.replicate n 0 := by
  induction n generalizing i with
  | zero => rfl
  | succ n ih =>
    cases i with
    | nil => rw [List.replicate_succ, align, ih, List.replicate_succ]
    | cons k i => rw [List.replicate_succ, align, if_pos rfl, ih, List.replicate_succ]

theorem indices_ones (n : Nat) : indices (List.replicate n 1) = [List.replicate n 0] := by
  induction n with
  | zero => rfl
  | succ n ih => simp [List.replicate_succ, indices_cons, ih]

theorem place_zeros {os ss : List Nat} (h : ss.length = os.length) :
    place os ss (List.replicate os.length 0) = os := by
  induction os generalizing ss with
  | nil => rfl
  | cons o os ih =>
    obtain ⟨s, ss, rfl⟩ := List.exists_cons_of_length_eq_add_one h
    simp [List.replicate_succ, place, ih (by simpa using h)]

/-! ### Blocks of an array -/

theorem prod_le_prod {es ns : List Nat} (h : List.Forall₂ (· ≤ ·) es ns) : es.prod ≤ ns.prod := by
  induction h with
  | nil => exact Nat.le_refl _
  | cons he _ ih =>
    rw [List.prod_cons, List.prod_cons]
    exact Nat.mul_le_mul he ih

theorem mem_indices_of_le {i es ns : List Nat} (h : List.Forall₂ (· ≤ ·) es ns)
    (hi : i ∈ indices es) : i ∈ indices ns := by
  induction h generalizing i with
  | nil => exact hi
  | cons he _ ih =>
    obtain ⟨k, j, hk, hj, heq⟩ := List.forall₂_cons_right_iff.mp (mem_indices.mp hi)
    subst heq
    exact cons_mem_indices.mpr ⟨Nat.lt_of_lt_of_le hk he, ih (mem_indices.mpr hj)⟩

/-- The elements of a block of an array reach at least as far as there are many,
    and no farther exactly where they lie one after the other. -/
theorem prod_le_farthest {es ns : List Nat} (h : List.Forall₂ (· ≤ ·) es ns)
    (hpos : ∀ e ∈ es, 0 < e) :
    (es.prod : Int) ≤ farthest es (strides ns) + 1 ∧
      (farthest es (strides ns) + 1 = es.prod ↔ Contiguous es (strides ns)) := by
  induction h with
  | nil => simp [farthest, strides, Contiguous]
  | @cons e n es ns he hrest ih =>
    obtain ⟨hle, hiff⟩ := ih fun e' he' => hpos e' (List.mem_cons_of_mem _ he')
    have hepos := hpos e List.mem_cons_self
    have hprod : (es.prod : Int) ≤ ns.prod := by exact_mod_cast prod_le_prod hrest
    have hfar : farthest (e :: es) (strides (n :: ns)) =
        ((e : Int) - 1) * ns.prod + farthest es (strides ns) := by
      rw [farthest, farthest, List.map_cons, strides, offset_cons]
      push_cast [hepos]
      rfl
    have hcount : ((e :: es).prod : Int) = ((e : Int) - 1) * es.prod + es.prod := by
      rw [List.prod_cons]
      push_cast
      ring
    have hmono : ((e : Int) - 1) * es.prod ≤ ((e : Int) - 1) * ns.prod :=
      mul_le_mul_of_nonneg_left hprod (by omega)
    rw [hfar, hcount]
    constructor
    · omega
    · -- both differences are zero
      rw [strides, Contiguous, ← hiff]
      constructor
      · intro heq
        have hsame : ((e : Int) - 1) * es.prod = ((e : Int) - 1) * ns.prod := by omega
        constructor
        · rcases mul_eq_mul_left_iff.mp hsame with hsame | hone
          · exact .inr hsame.symm
          · exact .inl (by omega)
        · omega
      · intro ⟨haxis, hinner⟩
        rcases haxis with hone | hsame
        · obtain rfl : e = 1 := by omega
          simpa using hinner
        · rw [hsame]
          omega

theorem contiguous_append {ess ds es ns : List Nat} {e n : Nat}
    (hfront : List.Forall₂ (· ≤ ·) ess ds) (hback : List.Forall₂ (· ≤ ·) es ns) (hlt : e < n)
    (hpos : ∀ k ∈ ess ++ e :: es, 0 < k) :
    Contiguous (ess ++ e :: es) (strides (ds ++ n :: ns)) ↔
      (∀ k ∈ ess, k ≤ 1) ∧ Contiguous (e :: es) ((ns.prod : Int) :: strides ns) := by
  induction hfront with
  | nil => simp [strides]
  | @cons k d ess ds hk hrest ih =>
    have ih := ih fun k' hk' => hpos k' (List.mem_cons_of_mem _ hk')
    -- the stride of this axis goes past what is left out
    have hstride : ((ds ++ n :: ns).prod : Int) ≠ (ess ++ e :: es).prod := by
      have hle := prod_le_prod hrest
      have hle' := prod_le_prod hback
      have hpos1 : 0 < ess.prod := List.prod_pos fun k' hk' =>
        hpos k' (List.mem_cons_of_mem _ (List.mem_append_left _ hk'))
      have hpos2 : 0 < es.prod := List.prod_pos fun k' hk' =>
        hpos k' (List.mem_cons_of_mem _ (List.mem_append_right _ (List.mem_cons_of_mem _ hk')))
      have : (ess ++ e :: es).prod < (ds ++ n :: ns).prod := by
        rw [List.prod_append, List.prod_append, List.prod_cons, List.prod_cons]
        calc ess.prod * (e * es.prod) < ess.prod * (n * es.prod) := by gcongr
          _ ≤ ds.prod * (n * ns.prod) := by gcongr
      exact_mod_cast this.ne'
    rw [List.cons_append, List.cons_append, strides, Contiguous, ih, List.forall_mem_cons]
    constructor
    · intro ⟨haxis, hones, hinner⟩
      exact ⟨⟨haxis.resolve_right hstride, hones⟩, hinner⟩
    · intro ⟨⟨hone, hones⟩, hinner⟩
      exact ⟨.inl hone, hones, hinner⟩

theorem offset_zipWith_add {i j : List Nat} (ss : List Int) (h : i.length = j.length) :
    offset (List.zipWith (· + ·) i j) ss = offset i ss + offset j ss := by
  induction i generalizing j ss with
  | nil =>
    obtain rfl : j = [] := List.length_eq_zero_iff.mp h.symm
    rfl
  | cons k i ih =>
    obtain ⟨l, j, rfl⟩ := List.exists_cons_of_length_eq_add_one h.symm
    obtain _ | ⟨s, ss⟩ := ss
    · simp [offset]
    · rw [List.zipWith_cons_cons, offset_cons, offset_cons, offset_cons, ih ss (by simpa using h)]
      push_cast
      ring

theorem offset_append {i j : List Nat} {ss ts : List Int} (h : i.length = ss.length) :
    offset (i ++ j) (ss ++ ts) = offset i ss + offset j ts := by
  rw [offset, List.zipWith_append h, List.sum_append]
  rfl

theorem offset_reverse {i : List Nat} {ss : List Int} (h : i.length = ss.length) :
    offset i.reverse ss.reverse = offset i ss := by
  induction i generalizing ss with
  | nil =>
    obtain rfl : ss = [] := List.length_eq_zero_iff.mp h.symm
    rfl
  | cons k i ih =>
    obtain ⟨s, ss, rfl⟩ := List.exists_cons_of_length_eq_add_one h.symm
    have hlength : i.length = ss.length := by simpa using h
    rw [List.reverse_cons, List.reverse_cons, offset_append (by simpa using hlength), ih hlength,
      offset_cons, offset_cons, offset_nil]
    omega

theorem reverse_mem_indices {i es : List Nat} : i.reverse ∈ indices es.reverse ↔ i ∈ indices es := by
  rw [mem_indices, mem_indices, List.forall₂_reverse_iff]

theorem exists_unrank {i es : List Nat} (hi : i ∈ indices es) :
    ∃ k < es.prod, i = unrank es k ∧ offset i (strides es) = k := by
  rw [indices_eq_map_unrank, List.mem_map] at hi
  obtain ⟨k, hk, heq⟩ := hi
  have hk := List.mem_range.mp hk
  subst heq
  exact ⟨k, hk, rfl, offset_unrank hk⟩

theorem offset_injective {i j es : List Nat} (hi : i ∈ indices es) (hj : j ∈ indices es)
    (h : offset i (strides es) = offset j (strides es)) : i = j := by
  obtain ⟨k, _, hik, hk⟩ := exists_unrank hi
  obtain ⟨k', _, hjk, hk'⟩ := exists_unrank hj
  have heq : k = k' := by omega
  rw [hik, hjk, heq]

end RowMajor
