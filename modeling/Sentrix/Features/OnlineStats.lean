import Mathlib.Algebra.Order.Field.Basic
import Mathlib.Tactic.Ring
import Mathlib.Order.Lattice.Nat
import Sentrix.Lib.Literals

/-!
# Online statistics

`features/online_stats.py`: Welford's running mean and variance, the Count-Min
sketch and the exponentially weighted moving average, over an ordered field.
The square root and the logarithm are what the host's `math` module computes,
and the sketch's hash is a parameter of its operations.
-/

namespace Sentrix

variable {K : Type} [Field K]

/-- The functions of the `math` module that the features use. -/
structure PyMath (K : Type) where
  sqrt : K → K
  log2 : K → K

/-! ### Welford -/

/-- `Welford`: count, mean and sum of squared deviations. -/
structure Welford (K : Type) where
  count : ℕ
  mean : K
  m2 : K

namespace Welford

def new : Welford K := ⟨0, 0, 0⟩

def update (s : Welford K) (value : K) : Welford K :=
  let count := s.count + 1
  let delta := value - s.mean
  let mean := s.mean + delta / count
  let delta2 := value - mean
  ⟨count, mean, s.m2 + delta * delta2⟩

def getVariance (s : Welford K) : K := if s.count < 2 then 0 else s.m2 / (s.count - 1)

def getStddev (math : PyMath K) (s : Welford K) : K := math.sqrt s.getVariance

end Welford

/-! ### Count-Min sketch -/

/-- The number the hash makes of a seed and an item, before it is reduced to a
column. -/
abbrev SketchHash := ℕ → String → ℕ

/-- `CountMinSketch`. -/
structure CountMinSketch where
  width : ℕ
  depth : ℕ
  table : List (List ℕ)
  totalCount : ℕ

namespace CountMinSketch

def new (width depth : ℕ) : CountMinSketch :=
  ⟨width, depth, List.replicate depth (List.replicate width 0), 0⟩

def add (hash : SketchHash) (s : CountMinSketch) (item : String) (count : ℕ) : CountMinSketch where
  width := s.width
  depth := s.depth
  table := s.table.mapIdx fun i row => row.modify (hash i item % s.width) (· + count)
  totalCount := s.totalCount + count

/-- The smallest of the item's cells; `⊤` is the float infinity the search starts from. -/
def get (hash : SketchHash) (s : CountMinSketch) (item : String) : WithTop ℕ :=
  (s.table.mapIdx fun i row => row.getD (hash i item % s.width) 0).foldl
    (fun m c => min m (c : WithTop ℕ)) ⊤

/-- The entropy of the counts of the first row. -/
def approximateEntropy (math : PyMath K) (s : CountMinSketch) : K :=
  if s.totalCount = 0 then 0
  else
    (s.table.headD []).foldl (fun (entropy : K) (count : ℕ) =>
      if count > 0 then
        let p : K := count / s.totalCount
        entropy - p * math.log2 p
      else entropy) 0

end CountMinSketch

/-! ### Moving average -/

/-- `EWMA`; no value before the first update. -/
structure Ewma (K : Type) where
  alpha : K
  value : Option K

namespace Ewma

def new (alpha : K) : Ewma K := ⟨alpha, none⟩

def update (s : Ewma K) (newValue : K) : Ewma K where
  alpha := s.alpha
  value :=
    match s.value with
    | none => some newValue
    | some v => some (s.alpha * newValue + (1 - s.alpha) * v)

def get (s : Ewma K) : K := s.value.getD 0

end Ewma

/-! ### Signs

The averages of non-negative values are non-negative. -/

section Signs

variable [LinearOrder K]

/-- A weight between zero and one, and no negative value. -/
structure Ewma.Nonneg (s : Ewma K) : Prop where
  alpha_nonneg : 0 ≤ s.alpha
  alpha_le_one : s.alpha ≤ 1
  value_nonneg : ∀ v, s.value = some v → 0 ≤ v

/-- A fresh average is nonnegative. -/
theorem Ewma.Nonneg.new {alpha : K} (h0 : 0 ≤ alpha) (h1 : alpha ≤ 1) : (Ewma.new alpha).Nonneg :=
  ⟨h0, h1, fun _ hv => absurd hv (Option.some_ne_none _).symm⟩

theorem Ewma.Nonneg.get {s : Ewma K} (hs : s.Nonneg) : 0 ≤ s.get := by
  unfold Ewma.get
  cases hval : s.value with
  | none => exact le_rfl
  | some v => exact hs.value_nonneg v hval

variable [IsStrictOrderedRing K]

/-- Nonnegative samples keep the average nonnegative. -/
theorem Ewma.Nonneg.update {s : Ewma K} (hs : s.Nonneg) {x : K} (hx : 0 ≤ x) :
    (s.update x).Nonneg := by
  refine ⟨hs.alpha_nonneg, hs.alpha_le_one, ?_⟩
  intro v hv
  cases hval : s.value with
  | none =>
    obtain rfl : x = v := by simpa [Ewma.update, hval] using hv
    exact hx
  | some u =>
    obtain rfl : s.alpha * x + (1 - s.alpha) * u = v := by simpa [Ewma.update, hval] using hv
    have hu : 0 ≤ u := hs.value_nonneg u hval
    have hrest : 0 ≤ 1 - s.alpha := sub_nonneg.mpr hs.alpha_le_one
    exact add_nonneg (mul_nonneg hs.alpha_nonneg hx) (mul_nonneg hrest hu)

/-- The running mean stays non-negative: it is a weighted average of the old
mean and the new value. -/
theorem Welford.mean_update_nonneg {s : Welford K} (hs : 0 ≤ s.mean) {x : K} (hx : 0 ≤ x) :
    0 ≤ (s.update x).mean := by
  have hpos : (0 : K) < ((s.count + 1 : ℕ) : K) := by exact_mod_cast Nat.succ_pos s.count
  -- the increment form of the source is the weighted average
  have hmean : (s.update x).mean = (s.count * s.mean + x) / ((s.count + 1 : ℕ) : K) := by
    show s.mean + (x - s.mean) / ((s.count + 1 : ℕ) : K) = _
    rw [eq_div_iff hpos.ne', add_mul, div_mul_cancel₀ _ hpos.ne', Nat.cast_add, Nat.cast_one]
    ring
  rw [hmean]
  have hsum : 0 ≤ (s.count : K) * s.mean + x := add_nonneg (mul_nonneg (Nat.cast_nonneg _) hs) hx
  exact div_nonneg hsum hpos.le

end Signs

end Sentrix
