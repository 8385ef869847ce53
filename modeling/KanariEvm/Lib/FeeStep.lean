import Mathlib.Algebra.Order.Ring.Nat
import Mathlib.Tactic.Ring

namespace FeeStep

/-- The adjustment of a price towards a target use: the price times the relative distance from the
target, over a denominator, rounded down twice. -/
def delta (target denominator price distance : ℕ) : ℕ :=
  price * distance / target / denominator

/-- The next price in the unbounded integers: it rises by at least one above the target, and falls
or stays below it. -/
def next (target denominator price used : ℕ) : ℕ :=
  if used = target then price
  else if target < used then price + max (delta target denominator price (used - target)) 1
  else price - delta target denominator price (target - used)

variable {target denominator : ℕ}

theorem delta_eq (price distance : ℕ) :
    delta target denominator price distance = price * distance / (target * denominator) :=
  Nat.div_div_eq_div_mul _ _ _

theorem delta_mono_distance (price : ℕ) {d d' : ℕ} (h : d ≤ d') :
    delta target denominator price d ≤ delta target denominator price d' := by
  unfold delta
  exact Nat.div_le_div_right (Nat.div_le_div_right (Nat.mul_le_mul_left price h))

theorem delta_mono_price {price price' : ℕ} (h : price ≤ price') (distance : ℕ) :
    delta target denominator price distance ≤ delta target denominator price' distance := by
  unfold delta
  exact Nat.div_le_div_right (Nat.div_le_div_right (Nat.mul_le_mul_right distance h))

variable (htarget : 0 < target)

include htarget

theorem delta_le {price distance : ℕ} (h : distance ≤ target) :
    delta target denominator price distance ≤ price / denominator := by
  unfold delta
  apply Nat.div_le_div_right
  calc price * distance / target ≤ price * target / target :=
        Nat.div_le_div_right (Nat.mul_le_mul_left price h)
    _ = price := Nat.mul_div_cancel price htarget

theorem delta_add_le (hdenominator : 0 < denominator) {price price' distance : ℕ}
    (h : price ≤ price') (hdistance : distance ≤ target) :
    delta target denominator price' distance + price ≤
      delta target denominator price distance + price' := by
  obtain ⟨rise, rfl⟩ := Nat.exists_eq_add_of_le h
  have hpos : 0 < target * denominator := Nat.mul_pos htarget hdenominator
  have hstep : rise * distance ≤ rise * (target * denominator) :=
    Nat.mul_le_mul_left rise (hdistance.trans (Nat.le_mul_of_pos_right target hdenominator))
  have hbound : delta target denominator (price + rise) distance ≤
      delta target denominator price distance + rise := by
    rw [delta_eq, delta_eq, add_mul]
    calc (price * distance + rise * distance) / (target * denominator)
        ≤ (price * distance + rise * (target * denominator)) / (target * denominator) :=
          Nat.div_le_div_right (Nat.add_le_add_left hstep _)
      _ = price * distance / (target * denominator) + rise :=
          Nat.add_mul_div_right _ _ hpos
  omega

/-- The price moves by at most one part in `denominator`, or by one. -/
theorem next_near {price used : ℕ} (hused : used ≤ 2 * target) :
    next target denominator price used ≤ price + max 1 (price / denominator) ∧
      price ≤ next target denominator price used + price / denominator := by
  have hup : delta target denominator price (used - target) ≤ price / denominator :=
    delta_le htarget (by omega)
  have hdown : delta target denominator price (target - used) ≤ price / denominator :=
    delta_le htarget (by omega)
  unfold next
  split_ifs <;> omega

omit htarget

theorem lt_next {price used : ℕ} (h : target < used) :
    price < next target denominator price used := by
  unfold next
  split_ifs <;> omega

theorem next_le {price used : ℕ} (h : used ≤ target) :
    next target denominator price used ≤ price := by
  unfold next
  split_ifs <;> omega

theorem next_mono_used (price : ℕ) {used used' : ℕ} (h : used ≤ used') :
    next target denominator price used ≤ next target denominator price used' := by
  rcases Nat.lt_or_ge target used' with hover | hunder
  · rcases Nat.lt_or_ge target used with hover' | hunder'
    · have hdelta : delta target denominator price (used - target) ≤
          delta target denominator price (used' - target) := delta_mono_distance price (by omega)
      unfold next
      split_ifs <;> omega
    · exact (next_le hunder').trans (lt_next hover).le
  · have hdelta : delta target denominator price (target - used') ≤
        delta target denominator price (target - used) := delta_mono_distance price (by omega)
    unfold next
    split_ifs <;> omega

include htarget

theorem next_mono_price (hdenominator : 0 < denominator) {price price' : ℕ} (h : price ≤ price')
    (used : ℕ) : next target denominator price used ≤ next target denominator price' used := by
  have hup : delta target denominator price (used - target) ≤
      delta target denominator price' (used - target) := delta_mono_price h _
  have hdown := delta_add_le htarget hdenominator h (Nat.sub_le target used)
  unfold next
  split_ifs <;> omega

omit htarget

/-- How far a price can be from the start after `i` steps. -/
structure Corridor (denominator start i price : ℕ) : Prop where
  low : (denominator - 1) ^ i * start ≤ denominator ^ i * price
  high : denominator ^ i * price ≤ (denominator + 1) ^ i * max start denominator

/-- No price that `i` steps can reach from the start is as large as the bound. -/
def Room (denominator start bound i : ℕ) : Prop :=
  (denominator + 1) ^ i * max start denominator < denominator ^ i * bound

instance (denominator start bound i : ℕ) : Decidable (Room denominator start bound i) := by
  unfold Room; infer_instance

variable {start bound i price : ℕ}

theorem Corridor.zero (denominator start : ℕ) : Corridor denominator start 0 start := by
  constructor
  · simp
  · simp

theorem Corridor.lt (h : Corridor denominator start i price)
    (hroom : Room denominator start bound i) : price < bound :=
  Nat.lt_of_mul_lt_mul_left (h.high.trans_lt hroom)

theorem Corridor.pos (h : Corridor denominator start i price) (hdenominator : 1 < denominator)
    (hstart : 0 < start) : 0 < price := by
  have hlow : 0 < (denominator - 1) ^ i * start :=
    Nat.mul_pos (Nat.pow_pos (by omega)) hstart
  exact Nat.pos_of_mul_pos_left (hlow.trans_le h.low)

theorem Room.of_succ (h : Room denominator start bound (i + 1)) :
    Room denominator start bound i := by
  unfold Room at h ⊢
  by_contra hfull
  apply Nat.not_le_of_lt h
  calc denominator ^ (i + 1) * bound = denominator * (denominator ^ i * bound) := by ring
    _ ≤ (denominator + 1) * ((denominator + 1) ^ i * max start denominator) :=
        Nat.mul_le_mul (Nat.le_succ denominator) (Nat.le_of_not_lt hfull)
    _ = (denominator + 1) ^ (i + 1) * max start denominator := by ring

theorem Corridor.floor (h : Corridor denominator start i price) (hdenominator : 0 < denominator) :
    Corridor denominator start i (max price 1) := by
  have hone : denominator ^ i * 1 ≤ (denominator + 1) ^ i * max start denominator :=
    Nat.mul_le_mul (Nat.pow_le_pow_left (Nat.le_succ denominator) i)
      (hdenominator.trans_le (le_max_right start denominator))
  constructor
  · exact h.low.trans (Nat.mul_le_mul_left _ (le_max_left price 1))
  · rw [← Nat.mul_max_mul_left]
    exact max_le h.high hone

include htarget

theorem mul_next_le {used : ℕ} (hused : used ≤ 2 * target) :
    denominator * next target denominator price used ≤
      (denominator + 1) * max price denominator := by
  have hnear : next target denominator price used ≤ price + max 1 (price / denominator) :=
    (next_near htarget hused).1
  -- below the denominator a step is one unit, whatever the price
  by_cases hsmall : price < denominator
  · rw [Nat.div_eq_of_lt hsmall] at hnear
    rw [max_eq_right hsmall.le]
    calc denominator * next target denominator price used ≤ denominator * denominator :=
          Nat.mul_le_mul_left denominator (by omega)
      _ ≤ (denominator + 1) * denominator := Nat.mul_le_mul_right _ (Nat.le_succ denominator)
  · rw [max_eq_left (Nat.le_of_not_lt hsmall)]
    have hpart : denominator * max 1 (price / denominator) ≤ price := by
      rw [← Nat.mul_max_mul_left, max_le_iff]
      exact ⟨by omega, Nat.mul_div_le price denominator⟩
    calc denominator * next target denominator price used
        ≤ denominator * (price + max 1 (price / denominator)) :=
          Nat.mul_le_mul_left denominator hnear
      _ = denominator * price + denominator * max 1 (price / denominator) := Nat.mul_add _ _ _
      _ ≤ denominator * price + price := Nat.add_le_add_left hpart _
      _ = (denominator + 1) * price := by ring

theorem mul_price_le {used : ℕ} (hused : used ≤ 2 * target) :
    (denominator - 1) * price ≤ denominator * next target denominator price used := by
  have hnear : price ≤ next target denominator price used + price / denominator :=
    (next_near htarget hused).2
  have hscaled : denominator * price ≤
      denominator * next target denominator price used + price := by
    calc denominator * price
        ≤ denominator * (next target denominator price used + price / denominator) :=
          Nat.mul_le_mul_left denominator hnear
      _ = denominator * next target denominator price used + denominator * (price / denominator) :=
          Nat.mul_add _ _ _
      _ ≤ denominator * next target denominator price used + price :=
          Nat.add_le_add_left (Nat.mul_div_le price denominator) _
  rw [Nat.sub_mul, Nat.one_mul]
  omega

theorem Corridor.next (h : Corridor denominator start i price) {used : ℕ}
    (hused : used ≤ 2 * target) :
    Corridor denominator start (i + 1) (next target denominator price used) := by
  have hbase : denominator ^ i * denominator ≤ (denominator + 1) ^ i * max start denominator :=
    Nat.mul_le_mul (Nat.pow_le_pow_left (Nat.le_succ denominator) i) (le_max_right _ _)
  constructor
  · calc (denominator - 1) ^ (i + 1) * start
        = (denominator - 1) * ((denominator - 1) ^ i * start) := by ring
      _ ≤ (denominator - 1) * (denominator ^ i * price) := Nat.mul_le_mul_left _ h.low
      _ = denominator ^ i * ((denominator - 1) * price) := by ring
      _ ≤ denominator ^ i * (denominator * FeeStep.next target denominator price used) :=
          Nat.mul_le_mul_left _ (mul_price_le htarget hused)
      _ = denominator ^ (i + 1) * FeeStep.next target denominator price used := by ring
  · calc denominator ^ (i + 1) * FeeStep.next target denominator price used
        = denominator ^ i * (denominator * FeeStep.next target denominator price used) := by ring
      _ ≤ denominator ^ i * ((denominator + 1) * max price denominator) :=
          Nat.mul_le_mul_left _ (mul_next_le htarget hused)
      _ = (denominator + 1) * max (denominator ^ i * price) (denominator ^ i * denominator) := by
          rw [Nat.mul_max_mul_left]
          ring
      _ ≤ (denominator + 1) * ((denominator + 1) ^ i * max start denominator) :=
          Nat.mul_le_mul_left _ (max_le h.high hbase)
      _ = (denominator + 1) ^ (i + 1) * max start denominator := by ring

end FeeStep
