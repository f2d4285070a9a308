import Mathlib

/-! # Labelled numbers

  Names made of numbers with labels, joined by underscores, such as
  `d0_c3_n5`. A label is made of letters, so a name determines its labels
  and its numbers, whatever their sign and length.

  Main result: `joined_injective`.
-/

namespace Labels

/-- A label, which may be empty. -/
def IsLabel (label : String) : Prop := ∀ c ∈ label.toList, c.isAlpha = true

instance (label : String) : Decidable (IsLabel label) :=
  inferInstanceAs (Decidable (∀ c ∈ label.toList, c.isAlpha = true))

/-- One number with its label. -/
def labelled (p : String × Int) : String := p.1 ++ toString p.2

/-- A name. -/
def joined (ps : List (String × Int)) : String := "_".intercalate (ps.map labelled)

/-- A character of the text of a number. -/
def IsDigitOrSign (c : Char) : Prop := c.isDigit = true ∨ c = '-'

theorem mem_toString {x : Int} {c : Char} (hc : c ∈ (toString x).toList) : IsDigitOrSign c := by
  rw [Int.toString_eq_repr, Int.repr_eq_if] at hc
  have hdigits : ∀ n : Nat, c ∈ (Nat.repr n).toList → IsDigitOrSign c := by
    intro n hn
    rw [Nat.toList_repr] at hn
    exact .inl (Nat.isDigit_of_mem_toDigits (by decide) (by decide) hn)
  split at hc
  · exact hdigits _ hc
  · rw [String.toList_append, List.mem_append] at hc
    rcases hc with hsign | hc
    · exact .inr (List.mem_singleton.mp hsign)
    · exact hdigits _ hc

theorem toString_ne_nil (x : Int) : (toString x).toList ≠ [] := by
  rw [Int.toString_eq_repr, Int.repr_eq_if]
  split
  · rw [Nat.toList_repr]
    exact Nat.toDigits_ne_nil
  · rw [String.toList_append]
    simp

theorem not_alpha {c : Char} (h : IsDigitOrSign c) : c.isAlpha = false := by
  rcases h with h | rfl
  · simp only [Char.isDigit, Bool.and_eq_true, decide_eq_true_eq, UInt32.le_iff_toNat_le] at h
    simp only [Char.isAlpha, Char.isUpper, Char.isLower, Bool.or_eq_false_iff, Bool.and_eq_false_iff,
      decide_eq_false_iff_not, UInt32.le_iff_toNat_le, not_le]
    have hdigit : '9'.val.toNat = 57 := rfl
    have hupper : 'A'.val.toNat = 65 := rfl
    have hlower : 'a'.val.toNat = 97 := rfl
    omega
  · decide

theorem labelled_injective {p q : String × Int} (hp : IsLabel p.1) (hq : IsLabel q.1)
    (h : labelled p = labelled q) : p = q := by
  have hchars := congrArg String.toList h
  simp only [labelled, String.toList_append] at hchars
  have htake : ∀ r : String × Int, IsLabel r.1 →
      (r.1.toList ++ (toString r.2).toList).takeWhile Char.isAlpha = r.1.toList := by
    intro r hr
    rw [List.takeWhile_append_of_pos hr]
    obtain ⟨c, cs, hcs⟩ := List.exists_cons_of_ne_nil (toString_ne_nil r.2)
    have hc : c.isAlpha = false := not_alpha (mem_toString (x := r.2) (hcs ▸ List.mem_cons_self))
    rw [hcs, List.takeWhile_cons_of_neg (by simp [hc]), List.append_nil]
  have hlabel : p.1.toList = q.1.toList := by rw [← htake p hp, hchars, htake q hq]
  rw [hlabel] at hchars
  have hnumber := String.toList_inj.mp (List.append_cancel_left hchars)
  rw [Int.toString_eq_repr, Int.toString_eq_repr, Int.repr_inj] at hnumber
  exact Prod.ext (String.toList_inj.mp hlabel) hnumber

theorem underscore_not_mem {p : String × Int} (hp : IsLabel p.1) : '_' ∉ (labelled p).toList := by
  intro hmem
  rw [labelled, String.toList_append, List.mem_append] at hmem
  rcases hmem with hmem | hmem
  · exact absurd (hp _ hmem) (by decide)
  · rcases mem_toString hmem with h | h
    · exact absurd h (by decide)
    · exact absurd h (by decide)

/-- **A name determines its labels and its numbers.** -/
theorem joined_injective {ps qs : List (String × Int)} (hps : ps ≠ []) (hqs : qs ≠ [])
    (hp : ∀ p ∈ ps, IsLabel p.1) (hq : ∀ q ∈ qs, IsLabel q.1) (h : joined ps = joined qs) :
    ps = qs := by
  have hsplit : ∀ {rs : List (String × Int)}, rs ≠ [] → (∀ r ∈ rs, IsLabel r.1) →
      (joined rs).toList.splitOn '_' = rs.map fun r => (labelled r).toList := by
    intro rs hne hrs
    have htext : (joined rs).toList =
        ['_'].intercalate (rs.map fun r => (labelled r).toList) := by
      rw [joined, String.toList_intercalate, List.map_map]
      rfl
    rw [htext, List.splitOn_intercalate]
    · intro l hl
      obtain ⟨r, hr, rfl⟩ := List.mem_map.mp hl
      exact underscore_not_mem (hrs r hr)
    · simpa using hne
  have hparts : ps.map (fun r => (labelled r).toList) = qs.map fun r => (labelled r).toList := by
    rw [← hsplit hps hp, ← hsplit hqs hq, h]
  clear h hsplit hps hqs
  induction ps generalizing qs with
  | nil =>
    rw [List.map_nil, eq_comm, List.map_eq_nil_iff] at hparts
    exact hparts.symm
  | cons p ps ih =>
    obtain ⟨q, qs, rfl, hhead, htail⟩ := List.map_eq_cons_iff.mp hparts.symm
    have hpq := labelled_injective (hp p List.mem_cons_self) (hq q List.mem_cons_self)
      (String.toList_inj.mp hhead.symm)
    rw [hpq, ih (fun r hr => hp r (List.mem_cons_of_mem _ hr))
      (fun r hr => hq r (List.mem_cons_of_mem _ hr)) htail.symm]

end Labels
