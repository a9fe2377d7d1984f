import Mathlib.Data.Nat.Log
import Mathlib.Tactic.Ring

/-
True division of non-negative integers in binary64.

A finite double is counted in units of `2 ^ -1074`, of which every double is a
multiple.  The quotient is rounded once, to nearest with ties to even, to a
grid of 53 significant bits.  The quotients of interest are far below the
overflow threshold, which is therefore left out.
-/

namespace Python.Binary64

/-- The smallest double is `2 ^ -scale`. -/
@[irreducible] def scale : Nat := 1074

/-- The number one, in units of the smallest double. -/
def one : Nat := 2 ^ scale

theorem scale_eq : scale = 1074 := by unfold scale; rfl

/-- The integer nearest to `a / b`, the even one of two. -/
def roundHalfEven (a b : Nat) : Nat :=
  if 2 * (a % b) < b ∨ (2 * (a % b) = b ∧ a / b % 2 = 0) then a / b else a / b + 1

/-- The exponent of the grid a quotient is rounded to. -/
def grain (quotient : Nat) : Nat := Nat.log 2 quotient - 52

/-- `a / b`, in units. -/
def ofRatio (a b : Nat) : Nat :=
  roundHalfEven (a * one) (b * 2 ^ grain (a * one / b)) * 2 ^ grain (a * one / b)

/-! ### Rounding to an integer -/

section RoundHalfEven

variable {a b : Nat}

theorem roundHalfEven_le (positive : 0 < b) {k : Nat} (le : a ≤ k * b) : roundHalfEven a b ≤ k := by
  have quotient : a / b ≤ k := Nat.div_le_of_le_mul (by rwa [Nat.mul_comm])
  unfold roundHalfEven
  split
  · exact quotient
  · rename_i up
    -- rounded up, so the quotient is not exact and stays below `k`
    have split := Nat.div_add_mod a b
    have remainder : 0 < a % b := by
      by_contra none
      have zero : a % b = 0 := Nat.le_zero.mp (Nat.le_of_not_lt none)
      rw [zero] at up
      exact up (Or.inl (by omega))
    by_contra above
    have same : a / b = k := by omega
    rw [same, Nat.mul_comm] at split
    omega

theorem le_roundHalfEven (positive : 0 < b) {k : Nat} (le : k * b ≤ a) : k ≤ roundHalfEven a b := by
  have quotient : k ≤ a / b := (Nat.le_div_iff_mul_le positive).mpr le
  unfold roundHalfEven
  split <;> omega

theorem lt_roundHalfEven (positive : 0 < b) {k : Nat} (past : (2 * k + 1) * b < 2 * a) :
    k < roundHalfEven a b := by
  have split := Nat.div_add_mod a b
  have below : k * b ≤ a := by
    have expand : (2 * k + 1) * b = 2 * (k * b) + b := by ring
    omega
  have quotient : k ≤ a / b := (Nat.le_div_iff_mul_le positive).mpr below
  unfold roundHalfEven
  split
  · rename_i down
    by_contra stuck
    have same : a / b = k := by omega
    rw [same, Nat.mul_comm] at split
    have expand : (2 * k + 1) * b = 2 * (k * b) + b := by ring
    omega
  · omega

theorem roundHalfEven_mono {a' : Nat} (le : a ≤ a') :
    roundHalfEven a b ≤ roundHalfEven a' b := by
  have quotient : a / b ≤ a' / b := Nat.div_le_div_right le
  rcases Nat.lt_or_eq_of_le quotient with lt | same
  · have up : roundHalfEven a b ≤ a / b + 1 := by
      unfold roundHalfEven
      split <;> omega
    have down : a' / b ≤ roundHalfEven a' b := by
      unfold roundHalfEven
      split <;> omega
    omega
  · have left := Nat.div_add_mod a b
    have right := Nat.div_add_mod a' b
    rw [same] at left
    have remainder : a % b ≤ a' % b := by omega
    unfold roundHalfEven
    rw [same]
    split <;> split <;> omega

end RoundHalfEven

/-! ### The grid -/

theorem one_pos : 0 < one := Nat.two_pow_pos scale

private theorem grid_pos {b : Nat} (positive : 0 < b) (g : Nat) : 0 < b * 2 ^ g :=
  Nat.mul_pos positive (Nat.two_pow_pos g)

/-- A quotient is at least `2 ^ 52` grid steps, unless the grid is the finest one. -/
theorem grain_le {quotient : Nat} (coarse : 0 < grain quotient) :
    2 ^ (52 + grain quotient) ≤ quotient := by
  have nonzero : quotient ≠ 0 := by
    rintro rfl
    simp only [grain, Nat.log_zero_right, Nat.zero_sub, Nat.lt_irrefl] at coarse
  have exponent : 52 + grain quotient = Nat.log 2 quotient := by
    unfold grain at coarse ⊢
    omega
  rw [exponent]
  exact Nat.pow_log_le_self 2 nonzero

theorem lt_grain (quotient : Nat) : quotient < 2 ^ (53 + grain quotient) := by
  have below : quotient < 2 ^ (Nat.log 2 quotient + 1) :=
    Nat.lt_pow_succ_log_self Nat.one_lt_two quotient
  refine below.trans_le (Nat.pow_le_pow_right Nat.two_pos ?_)
  unfold grain
  omega

theorem grain_mono {m n : Nat} (le : m ≤ n) : grain m ≤ grain n :=
  Nat.sub_le_sub_right (Nat.log_mono_right le) 52

/-- A multiple of some power of two with at most 53 significant bits. -/
def Representable (v : Nat) : Prop := ∃ m h, v = m * 2 ^ h ∧ m ≤ 2 ^ 53

theorem ofRatio_le {a b v : Nat} (positive : 0 < b) (exact : Representable v)
    (le : a * one ≤ v * b) : ofRatio a b ≤ v := by
  obtain ⟨m, h, rfl, small⟩ := exact
  unfold ofRatio
  generalize hg : grain (a * one / b) = g
  have quotient : a * one / b ≤ m * 2 ^ h :=
    Nat.div_le_of_le_mul (le.trans_eq (Nat.mul_comm _ _))
  obtain ⟨k, multiple⟩ : ∃ k, m * 2 ^ h = k * 2 ^ g := by
    by_cases fine : g ≤ h
    · exact ⟨m * 2 ^ (h - g), by rw [Nat.mul_assoc, ← Nat.pow_add, Nat.sub_add_cancel fine]⟩
    · -- the bound is itself the first point of the quotient's binade
      have coarse : 0 < grain (a * one / b) := by omega
      have lower := (grain_le coarse).trans quotient
      rw [hg] at lower
      have upper : m * 2 ^ h ≤ 2 ^ (52 + g) := by
        calc m * 2 ^ h ≤ 2 ^ 53 * 2 ^ h := Nat.mul_le_mul_right _ small
          _ = 2 ^ (53 + h) := (Nat.pow_add 2 53 h).symm
          _ ≤ 2 ^ (52 + g) := Nat.pow_le_pow_right Nat.two_pos (by omega)
      exact ⟨2 ^ 52, by rw [← Nat.pow_add]; omega⟩
  rw [multiple]
  refine Nat.mul_le_mul_right _ (roundHalfEven_le (grid_pos positive g) ?_)
  calc a * one ≤ m * 2 ^ h * b := le
    _ = k * 2 ^ g * b := by rw [multiple]
    _ = k * (b * 2 ^ g) := by ring

theorem le_ofRatio {a b v : Nat} (positive : 0 < b) (exact : Representable v)
    (le : v * b ≤ a * one) : v ≤ ofRatio a b := by
  obtain ⟨m, h, rfl, small⟩ := exact
  unfold ofRatio
  generalize hg : grain (a * one / b) = g
  by_cases fine : g ≤ h
  · have multiple : m * 2 ^ h = m * 2 ^ (h - g) * 2 ^ g := by
      rw [Nat.mul_assoc, ← Nat.pow_add, Nat.sub_add_cancel fine]
    rw [multiple]
    refine Nat.mul_le_mul_right _ (le_roundHalfEven (grid_pos positive g) ?_)
    calc m * 2 ^ (h - g) * (b * 2 ^ g) = m * 2 ^ (h - g) * 2 ^ g * b := by ring
      _ = m * 2 ^ h * b := by rw [← multiple]
      _ ≤ a * one := le
  · have coarse : 0 < grain (a * one / b) := by omega
    have lower := grain_le coarse
    rw [hg, Nat.le_div_iff_mul_le positive] at lower
    have steps : 2 ^ 52 ≤ roundHalfEven (a * one) (b * 2 ^ g) := by
      apply le_roundHalfEven (grid_pos positive g)
      calc 2 ^ 52 * (b * 2 ^ g) = 2 ^ (52 + g) * b := by rw [Nat.pow_add]; ring
        _ ≤ a * one := lower
    calc m * 2 ^ h ≤ 2 ^ 53 * 2 ^ h := Nat.mul_le_mul_right _ small
      _ = 2 ^ (53 + h) := (Nat.pow_add 2 53 h).symm
      _ ≤ 2 ^ (52 + g) := Nat.pow_le_pow_right Nat.two_pos (by omega)
      _ = 2 ^ 52 * 2 ^ g := Nat.pow_add 2 52 g
      _ ≤ roundHalfEven (a * one) (b * 2 ^ g) * 2 ^ g := Nat.mul_le_mul_right _ steps

theorem ofRatio_mono {a a' b : Nat} (positive : 0 < b) (le : a ≤ a') :
    ofRatio a b ≤ ofRatio a' b := by
  have scaled : a * one ≤ a' * one := Nat.mul_le_mul_right _ le
  have quotients : a * one / b ≤ a' * one / b := Nat.div_le_div_right scaled
  rcases Nat.lt_or_eq_of_le (grain_mono quotients) with lt | same
  · -- the binade boundary separates the two
    have coarse : 0 < grain (a' * one / b) := by omega
    have exact : Representable (2 ^ (52 + grain (a' * one / b))) :=
      ⟨1, 52 + grain (a' * one / b), (Nat.one_mul _).symm, Nat.one_le_two_pow⟩
    have upper := (grain_le coarse)
    rw [Nat.le_div_iff_mul_le positive] at upper
    have lower : a * one < 2 ^ (52 + grain (a' * one / b)) * b := by
      have bound := (Nat.div_lt_iff_lt_mul positive).mp (lt_grain (a * one / b))
      refine bound.trans_le (Nat.mul_le_mul_right _ (Nat.pow_le_pow_right Nat.two_pos ?_))
      omega
    exact (ofRatio_le positive exact lower.le).trans (le_ofRatio positive exact upper)
  · unfold ofRatio
    rw [same]
    exact Nat.mul_le_mul_right _ (roundHalfEven_mono scaled)

/-! ### Comparing a quotient with an integer -/

theorem representable_int {t : Nat} (small : t ≤ 2 ^ 53) : Representable (t * one) :=
  ⟨t, scale, rfl, small⟩

theorem ofRatio_le_int {a b t : Nat} (positive : 0 < b) (small : t ≤ 2 ^ 53) (le : a ≤ t * b) :
    ofRatio a b ≤ t * one := by
  apply ofRatio_le positive (representable_int small)
  calc a * one ≤ t * b * one := Nat.mul_le_mul_right _ le
    _ = t * one * b := by ring

/-- Below `2 ^ 34` a microsecond more than an integer number of seconds shows. -/
theorem lt_ofRatio_million {a t : Nat} (small : t < 2 ^ 34) (lt : t * 1000000 < a) :
    t * one < ofRatio a 1000000 := by
  have positive : 0 < 1000000 := by omega
  by_cases large : 2 ^ 34 * 1000000 ≤ a
  · have bound : 2 ^ 34 * one ≤ ofRatio a 1000000 := by
      apply le_ofRatio positive (representable_int (by decide))
      calc 2 ^ 34 * one * 1000000 = 2 ^ 34 * 1000000 * one := by ring
        _ ≤ a * one := Nat.mul_le_mul_right _ large
    exact (Nat.mul_lt_mul_of_pos_right small one_pos).trans_le bound
  · -- the grid step is at most `2 ^ -19` seconds, less than two microseconds
    have below : a * one / 1000000 < 2 ^ (34 + scale) := by
      rw [Nat.div_lt_iff_lt_mul positive]
      calc a * one < 2 ^ 34 * 1000000 * one :=
            Nat.mul_lt_mul_of_pos_right (Nat.lt_of_not_le large) one_pos
        _ = 2 ^ (34 + scale) * 1000000 := by
            rw [one, Nat.mul_right_comm, ← Nat.pow_add]
    have fine : grain (a * one / 1000000) + 19 ≤ scale := by
      have log : Nat.log 2 (a * one / 1000000) < 34 + scale :=
        Nat.log_lt_of_lt_pow' (by omega) below
      have value := scale_eq
      unfold grain
      omega
    unfold ofRatio
    generalize grain (a * one / 1000000) = g at fine
    have grid : one = 2 ^ (scale - g) * 2 ^ g := by
      rw [← Nat.pow_add, Nat.sub_add_cancel (by omega), one]
    have steps : 2 ^ 19 ≤ 2 ^ (scale - g) := Nat.pow_le_pow_right Nat.two_pos (by omega)
    have past : t * 2 ^ (scale - g) < roundHalfEven (a * one) (1000000 * 2 ^ g) := by
      apply lt_roundHalfEven (grid_pos positive g)
      generalize 2 ^ (scale - g) = s at grid steps
      have unit : 0 < 2 ^ g := Nat.two_pow_pos g
      rw [grid]
      generalize 2 ^ g = w at unit
      calc (2 * (t * s) + 1) * (1000000 * w) = (2 * (t * 1000000) * s + 1000000) * w := by ring
        _ < (2 * (t * 1000000 + 1) * s) * w := by
            refine Nat.mul_lt_mul_of_pos_right ?_ unit
            have expand : 2 * (t * 1000000 + 1) * s = 2 * (t * 1000000) * s + 2 * s := by ring
            omega
        _ ≤ (2 * a * s) * w :=
            Nat.mul_le_mul_right _ (Nat.mul_le_mul_right _ (Nat.mul_le_mul_left _ lt))
        _ = 2 * (a * (s * w)) := by ring
    calc t * one = t * 2 ^ (scale - g) * 2 ^ g := by rw [Nat.mul_assoc, ← grid]
      _ < roundHalfEven (a * one) (1000000 * 2 ^ g) * 2 ^ g :=
          Nat.mul_lt_mul_of_pos_right past (Nat.two_pow_pos g)

/-- The numerators whose quotient does not exceed an integer end somewhere before
the next integer. -/
theorem exists_threshold {t : Nat} (small : t < 2 ^ 53) :
    ∃ bound, t * 1000000 ≤ bound ∧ bound < (t + 1) * 1000000 ∧
      ∀ a, ofRatio a 1000000 ≤ t * one ↔ a ≤ bound := by
  have positive : 0 < 1000000 := by omega
  have atStart : ofRatio (t * 1000000) 1000000 ≤ t * one :=
    ofRatio_le_int positive small.le le_rfl
  have past : ∀ a, (t + 1) * 1000000 ≤ a → ¬ofRatio a 1000000 ≤ t * one := by
    intro a le within
    have next : (t + 1) * one ≤ ofRatio a 1000000 := by
      apply le_ofRatio positive (representable_int (by omega))
      calc (t + 1) * one * 1000000 = (t + 1) * 1000000 * one := by ring
        _ ≤ a * one := Nat.mul_le_mul_right _ le
    have larger : t * one < (t + 1) * one :=
      Nat.mul_lt_mul_of_pos_right (Nat.lt_succ_self t) one_pos
    omega
  -- the largest numerator still within, searched below the next integer
  let within := fun a => ofRatio a 1000000 ≤ t * one
  have found : within (Nat.findGreatest within ((t + 1) * 1000000)) :=
    Nat.findGreatest_spec (P := within) (m := t * 1000000) (by omega) atStart
  refine ⟨Nat.findGreatest within ((t + 1) * 1000000), ?_, ?_, ?_⟩
  · exact Nat.le_findGreatest (by omega) atStart
  · by_contra reached
    exact past _ (Nat.le_of_not_lt reached) found
  · intro a
    constructor
    · intro le
      have below : a ≤ (t + 1) * 1000000 := by
        by_contra above
        exact past a (by omega) le
      exact Nat.le_findGreatest below le
    · exact fun le => (ofRatio_mono positive le).trans found

end Python.Binary64
