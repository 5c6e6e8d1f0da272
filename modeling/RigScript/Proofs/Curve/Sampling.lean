import Mathlib.Data.List.MinMax
import Mathlib.Data.Rat.Floor
import Mathlib.Tactic.Ring
import RigScript.Curve

/-!
# Sampling a curve

A curve is sampled between two keys, or beyond them by holding an end or by going round. This module
reads sampling with exact fractions and shows that whatever the extrapolation, the value of a curve
stays between the least and the greatest value of its keys, and that a curve that goes round on both
sides is periodic, except that its last key ends a period and does not begin the next.

## Main definitions

* `RigScript.Scalar.exact`: exact fractions as the numbers of a curve
* `RigScript.Curve.exactSample`: the value of a curve, computed without rounding

## Main results

* `RigScript.Curve.exactInterpolate_bounds`: the straight pieces stay within the values of the keys
* `RigScript.Curve.exactSample_of_cyclic`: a curve that goes round has one formula for all positions
  but the last key's
* `RigScript.Curve.exactSample_bounded_periodic`: **sampling is bounded and cyclic**
-/

namespace RigScript

/-- Exact fractions as the numbers of a curve: nothing is rounded, and the remainder is the
Euclidean one. -/
@[reducible] def Scalar.exact : Scalar ℚ where
  zero := 0
  eq a b := a = b
  lt a b := a < b
  le a b := a ≤ b
  cycle x period := x - |period| * ⌊x / |period|⌋

namespace Curve

/-- The value of a curve, computed without rounding. -/
def exactSample (c : Curve ℚ) (x : ℚ) : ℚ :=
  @sample ℚ .exact c x

/-- The value of the straight pieces of a curve, computed without rounding. -/
def exactInterpolate (a : Keyframe ℚ) (rest : List (Keyframe ℚ)) (x : ℚ) : ℚ :=
  @interpolate ℚ .exact a rest x

variable {c : Curve ℚ} {a b first : Keyframe ℚ} {rest : List (Keyframe ℚ)} {x low high : ℚ}

theorem exact_zero : @Scalar.zero ℚ .exact = 0 := rfl

theorem exact_le (x y : ℚ) : @Scalar.le ℚ .exact x y = decide (x ≤ y) := rfl

theorem exact_lt (x y : ℚ) : @Scalar.lt ℚ .exact x y = decide (x < y) := rfl

/-! ### The remainder -/

/-- The exact remainder is the Euclidean one. -/
theorem exact_cycle {period : ℚ} (hperiod : 0 < period) (x : ℚ) :
    @Scalar.cycle ℚ .exact x period = period * Int.fract (x / period) := by
  have hcycle : @Scalar.cycle ℚ .exact x period = x - |period| * ⌊x / |period|⌋ := rfl
  rw [hcycle, abs_of_pos hperiod, Int.fract, mul_sub, mul_div_cancel₀ x hperiod.ne']

/-! ### Between the keys -/

/-- Between two keys a curve is straight, and beyond the second one the pieces after it count. -/
theorem exactInterpolate_cons (hspan : a.position < b.position) :
    exactInterpolate a (b :: rest) x =
      if x ≤ b.position then
        a.value + (b.value - a.value) * ((x - a.position) / (b.position - a.position))
      else exactInterpolate b rest x := by
  simp only [exactInterpolate, interpolate, exact_le, exact_zero, decide_eq_true_iff, sub_nonpos,
    hspan.not_ge, if_false]

/-- A part of the way between two values lies between them. -/
theorem le_add_mul_le {v w t : ℚ} (hv : low ≤ v ∧ v ≤ high) (hw : low ≤ w ∧ w ≤ high)
    (ht : 0 ≤ t ∧ t ≤ 1) : low ≤ v + (w - v) * t ∧ v + (w - v) * t ≤ high := by
  have hmix : v + (w - v) * t = v * (1 - t) + w * t := by ring
  have ht' : 0 ≤ 1 - t := sub_nonneg.2 ht.2
  rw [hmix]
  constructor
  · calc low = low * (1 - t) + low * t := by ring
      _ ≤ v * (1 - t) + w * t :=
        add_le_add (mul_le_mul_of_nonneg_right hv.1 ht') (mul_le_mul_of_nonneg_right hw.1 ht.1)
  · calc v * (1 - t) + w * t ≤ high * (1 - t) + high * t :=
        add_le_add (mul_le_mul_of_nonneg_right hv.2 ht') (mul_le_mul_of_nonneg_right hw.2 ht.1)
      _ = high := by ring

/-- **The straight pieces stay within the values of the keys.** The piece that is chosen starts
before `x`: it is the first one, or `x` lies beyond all pieces before it. -/
theorem exactInterpolate_bounds
    (hordered : (a :: rest).Pairwise fun a b => a.position < b.position) (hx : a.position ≤ x)
    (hvalues : ∀ k ∈ a :: rest, low ≤ k.value ∧ k.value ≤ high) :
    low ≤ exactInterpolate a rest x ∧ exactInterpolate a rest x ≤ high := by
  induction rest generalizing a with
  | nil => exact hvalues a List.mem_cons_self
  | cons b rest ih =>
      obtain ⟨ha, hrest⟩ := List.pairwise_cons.1 hordered
      have hspan := ha b List.mem_cons_self
      rw [exactInterpolate_cons hspan]
      by_cases hxb : x ≤ b.position
      · rw [if_pos hxb]
        have hpos : 0 < b.position - a.position := sub_pos.2 hspan
        refine le_add_mul_le (hvalues a (by simp)) (hvalues b (by simp))
          ⟨div_nonneg (sub_nonneg.2 hx) hpos.le, (div_le_one hpos).2 ?_⟩
        exact sub_le_sub_right hxb _
      · rw [if_neg hxb]
        exact ih hrest (not_le.1 hxb).le fun k hk => hvalues k (List.mem_cons_of_mem a hk)

/-! ### Beyond the keys -/

/-- The last of the keys `first :: rest`. -/
def lastKey (first : Keyframe ℚ) (rest : List (Keyframe ℚ)) : Keyframe ℚ :=
  rest.getLastD first

/-- The distance from the first key to the last. -/
def period (first : Keyframe ℚ) (rest : List (Keyframe ℚ)) : ℚ :=
  (lastKey first rest).position - first.position

/-- The position in the keyed range that stands for `x` when a curve goes round. -/
def wrapped (first : Keyframe ℚ) (rest : List (Keyframe ℚ)) (x : ℚ) : ℚ :=
  first.position + period first rest * Int.fract ((x - first.position) / period first rest)

/-- **The three regions of a curve**: before its keys, after them, and among them. -/
theorem exactSample_eq (hkeys : c.keys = first :: rest) (hperiod : 0 < period first rest) :
    c.exactSample x =
      if x < first.position then
        match c.pre with
        | .constant => first.value
        | .cyclic => exactInterpolate first rest (wrapped first rest x)
      else if (lastKey first rest).position < x then
        match c.post with
        | .constant => (lastKey first rest).value
        | .cyclic => exactInterpolate first rest (wrapped first rest x)
      else exactInterpolate first rest x := by
  have hwrapped : first.position + @Scalar.cycle ℚ .exact (x - first.position)
      ((rest.getLastD first).position - first.position) = wrapped first rest x :=
    congrArg (first.position + ·) (exact_cycle hperiod _)
  have hlong : ¬ (rest.getLastD first).position - first.position ≤ 0 := hperiod.not_ge
  simp only [exactSample, sample, hkeys, exact_le, exact_lt, exact_zero, decide_eq_true_iff, hlong,
    if_false, hwrapped]
  rfl

theorem getLast?_keys (first : Keyframe ℚ) (rest : List (Keyframe ℚ)) :
    (first :: rest).getLast? = some (lastKey first rest) := by
  rw [lastKey, List.getLast?_cons, List.getLastD_eq_getLast?]

/-- Keys in order span a distance when there are two of them. -/
theorem period_pos (hordered : (first :: rest).Pairwise fun a b => a.position < b.position)
    (hlong : rest ≠ []) : 0 < period first rest := by
  have hlast : lastKey first rest ∈ rest := by
    rw [lastKey, List.getLastD_eq_getLast?, List.getLast?_eq_some_getLast hlong]
    exact List.getLast_mem hlong
  exact sub_pos.2 ((List.pairwise_cons.1 hordered).1 _ hlast)

/-- Going round never leads before the first key. -/
theorem le_wrapped (hperiod : 0 < period first rest) : first.position ≤ wrapped first rest x :=
  le_add_of_nonneg_right (mul_nonneg hperiod.le (Int.fract_nonneg _))

/-- A position among the keys stands for itself, unless it is that of the last one. -/
theorem wrapped_eq_self (hperiod : 0 < period first rest) (hfirst : first.position ≤ x)
    (hlast : x < (lastKey first rest).position) : wrapped first rest x = x := by
  have hfract : Int.fract ((x - first.position) / period first rest) =
      (x - first.position) / period first rest := by
    refine Int.fract_eq_self.2 ⟨div_nonneg (sub_nonneg.2 hfirst) hperiod.le, ?_⟩
    exact (div_lt_one hperiod).2 (sub_lt_sub_right hlast _)
  rw [wrapped, hfract, mul_div_cancel₀ _ hperiod.ne', add_sub_cancel]

/-- Going round once more leads to the same position. -/
theorem wrapped_add_mul (hperiod : 0 < period first rest) (k : ℤ) :
    wrapped first rest (x + k * period first rest) = wrapped first rest x := by
  have hturns : (x + k * period first rest - first.position) / period first rest =
      (x - first.position) / period first rest + k := by
    rw [add_sub_right_comm, add_div, mul_div_cancel_right₀ _ hperiod.ne']
  rw [wrapped, hturns, Int.fract_add_intCast, wrapped]

/-- **A curve stays within the values of its keys**, whatever its extrapolation. -/
theorem exactSample_bounds (hkeys : c.keys = first :: rest) (hlong : rest ≠ [])
    (hordered : (first :: rest).Pairwise fun a b => a.position < b.position)
    (hvalues : ∀ k ∈ first :: rest, low ≤ k.value ∧ k.value ≤ high) :
    low ≤ c.exactSample x ∧ c.exactSample x ≤ high := by
  have hperiod := period_pos hordered hlong
  have hround := exactInterpolate_bounds hordered (le_wrapped (x := x) hperiod) hvalues
  rw [exactSample_eq hkeys hperiod]
  split
  · cases c.pre with
    | constant => exact hvalues first List.mem_cons_self
    | cyclic => exact hround
  · next hfirst =>
    split
    · cases c.post with
      | constant => exact hvalues _ (List.mem_of_getLast? (getLast?_keys first rest))
      | cyclic => exact hround
    · exact exactInterpolate_bounds hordered (not_lt.1 hfirst) hvalues

/-- **A curve that goes round on both sides has one formula** for all positions but that of its last
key. -/
theorem exactSample_of_cyclic (hkeys : c.keys = first :: rest) (hperiod : 0 < period first rest)
    (hpre : c.pre = .cyclic) (hpost : c.post = .cyclic)
    (hx : x ≠ (lastKey first rest).position) :
    c.exactSample x = exactInterpolate first rest (wrapped first rest x) := by
  rw [exactSample_eq hkeys hperiod, hpre, hpost]
  by_cases hfirst : x < first.position
  · rw [if_pos hfirst]
  by_cases hlast : (lastKey first rest).position < x
  · rw [if_neg hfirst, if_pos hlast]
  · rw [if_neg hfirst, if_neg hlast,
      wrapped_eq_self hperiod (not_lt.1 hfirst) (lt_of_le_of_ne (not_lt.1 hlast) hx)]

/-- **Sampling is bounded and cyclic.** A curve of at least two keys in order, sampled with exact
fractions, has a value between the least and the greatest one of its keys, whatever its
extrapolation. If it goes round on both sides, its value is the same after any number of periods,
forwards or backwards, unless one of the two positions is that of the last key. -/
theorem exactSample_bounded_periodic (c : Curve ℚ) (hlong : 2 ≤ c.keys.length)
    (hordered : c.keys.Pairwise fun a b => a.position < b.position) (x : ℚ) :
    (∃ least ∈ c.keys, ∃ greatest ∈ c.keys,
      (∀ k ∈ c.keys, least.value ≤ k.value ∧ k.value ≤ greatest.value) ∧
      least.value ≤ c.exactSample x ∧ c.exactSample x ≤ greatest.value) ∧
    (c.pre = .cyclic → c.post = .cyclic →
      ∀ first last, c.keys.head? = some first → c.keys.getLast? = some last →
      ∀ k : ℤ, x ≠ last.position → x + k * (last.position - first.position) ≠ last.position →
        c.exactSample (x + k * (last.position - first.position)) = c.exactSample x) := by
  obtain ⟨first, rest, hkeys⟩ : ∃ first rest, c.keys = first :: rest :=
    List.exists_cons_of_length_pos (by omega)
  have hrest : rest ≠ [] := by
    rintro rfl
    simp [hkeys] at hlong
  rw [hkeys] at hordered ⊢
  have hperiod := period_pos hordered hrest
  constructor
  · obtain ⟨least, hleast⟩ := Option.ne_none_iff_exists'.1
      (mt (List.argmin_eq_none (f := Keyframe.value)).1 (List.cons_ne_nil first rest))
    obtain ⟨greatest, hgreatest⟩ := Option.ne_none_iff_exists'.1
      (mt (List.argmax_eq_none (f := Keyframe.value)).1 (List.cons_ne_nil first rest))
    have hvalues : ∀ k ∈ first :: rest, least.value ≤ k.value ∧ k.value ≤ greatest.value :=
      fun k hk => ⟨List.le_of_mem_argmin hk hleast, List.le_of_mem_argmax hk hgreatest⟩
    exact ⟨least, List.argmin_mem hleast, greatest, List.argmax_mem hgreatest, hvalues,
      exactSample_bounds hkeys hrest hordered hvalues⟩
  · intro hpre hpost first' last hfirst hlast k hx hxk
    obtain rfl : first = first' := Option.some.inj hfirst
    obtain rfl : lastKey first rest = last :=
      Option.some.inj ((getLast?_keys first rest).symm.trans hlast)
    rw [exactSample_of_cyclic hkeys hperiod hpre hpost hx,
      exactSample_of_cyclic hkeys hperiod hpre hpost hxk]
    exact congrArg _ (wrapped_add_mul hperiod k)

/-- A curve with three keys that goes round on both sides. -/
def sawtooth : Curve ℚ :=
  ⟨[⟨1, 0⟩, ⟨2, 4⟩, ⟨4, -2⟩], .cyclic, .cyclic⟩

/-- Between the second key and the third the curve falls, three periods earlier as well. At the last
key it does not have the value of the first. -/
theorem exactSample_bounded_periodic_sawtooth :
    sawtooth.exactSample 3 = 1 ∧ sawtooth.exactSample (-6) = 1 ∧
      (-2 ≤ sawtooth.exactSample 100 ∧ sawtooth.exactSample 100 ≤ 4) ∧
      sawtooth.exactSample 4 ≠ sawtooth.exactSample 1 := by
  have hordered : sawtooth.keys.Pairwise fun a b => a.position < b.position := by decide
  have hvalues : ∀ k ∈ sawtooth.keys, -2 ≤ k.value ∧ k.value ≤ 4 := by decide
  have hthree : sawtooth.exactSample 3 = 1 := by decide +kernel
  obtain ⟨-, hround⟩ := exactSample_bounded_periodic sawtooth (by decide) hordered 3
  obtain ⟨⟨least, hleast, greatest, hgreatest, -, hlow, hhigh⟩, -⟩ :=
    exactSample_bounded_periodic sawtooth (by decide) hordered 100
  refine ⟨hthree, ?_, ?_, by decide +kernel⟩
  · have hback : (3 : ℚ) + (-3 : ℤ) * (4 - 1) = -6 := by norm_num
    have hsame := hround rfl rfl ⟨1, 0⟩ ⟨4, -2⟩ rfl rfl (-3) (by norm_num) (by norm_num)
    rw [← hback, hsame, hthree]
  · exact ⟨(hvalues least hleast).1.trans hlow, hhigh.trans (hvalues greatest hgreatest).2⟩

end Curve

end RigScript
