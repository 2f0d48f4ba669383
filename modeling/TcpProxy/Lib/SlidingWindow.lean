import Mathlib.Algebra.BigOperators.Group.Finset.Piecewise
import Mathlib.Algebra.Order.Ring.Int
import Mathlib.Data.Int.ConditionallyCompleteOrder
import Mathlib.Order.ConditionallyCompleteLattice.Basic
import Mathlib.Data.Int.Interval

namespace SlidingWindow

variable {width : Nat} {now s : Int}

-- The most recent slot, up to `now`, that lies in one residue class. Over the
-- residues these are the `width` slots of the window that ends at `now`.
def latest (width : Nat) (now residue : Int) : Int := now - (now-residue) % width

theorem latest_le (positive : 0 < width) (now residue : Int) : latest width now residue ≤ now := by
  have := Int.emod_nonneg (now-residue) (b:=width) (by omega)
  unfold latest
  omega

theorem lt_latest (positive : 0 < width) (now residue : Int) : now-width < latest width now residue := by
  have := Int.emod_lt_of_pos (now-residue) (b:=width) (by omega)
  unfold latest
  omega

theorem latest_emod (width : Nat) (now residue : Int) : latest width now residue % width = residue % width := by
  unfold latest
  rw [Int.sub_emod,Int.emod_emod_of_dvd _ (Int.dvd_refl _),← Int.sub_emod,sub_sub_cancel]

theorem latest_eq (low : now-width < s) (high : s ≤ now) (residue : Int)
    (same : s % width = residue % width) : latest width now residue = s := by
  have shift : (now-residue) % width = (now-s) % width := by
    rw [Int.sub_emod,← same,← Int.sub_emod]
  unfold latest
  rw [shift,Int.emod_eq_of_lt (by omega) (by omega)]
  omega

theorem sum_latest (positive : 0 < width) (now : Int) (f : Int → Int) :
    ∑ j ∈ Finset.range width, f (latest width now j) = ∑ s ∈ Finset.Ioc (now-width) now, f s := by
  refine Finset.sum_bij (fun j _ => latest width now j) ?_ ?_ ?_ (fun _ _ => rfl)
  · intro j _
    exact Finset.mem_Ioc.mpr ⟨lt_latest positive now j,latest_le positive now j⟩
  · intro i iBound j jBound same
    have residues := congrArg (· % (width : Int)) same
    simp only [latest_emod] at residues
    rw [Finset.mem_range] at iBound jBound
    rw [Int.emod_eq_of_lt (by omega) (by omega),Int.emod_eq_of_lt (by omega) (by omega)] at residues
    omega
  · intro s member
    obtain ⟨low,high⟩ := Finset.mem_Ioc.mp member
    have nonneg := Int.emod_nonneg s (show (width : Int) ≠ 0 by omega)
    have bound := Int.emod_lt_of_pos s (show (0 : Int) < width by omega)
    refine ⟨(s % width).toNat,Finset.mem_range.mpr (by omega),?_⟩
    rw [Int.toNat_of_nonneg nonneg]
    exact latest_eq low high _ (by rw [Int.emod_emod])

-- The slots of a history that fall in an interval, counted slot by slot.
theorem sum_count (low high : Int) (history : List Int) :
    ∑ s ∈ Finset.Ioc low high, (history.count s : Int) =
      history.countP fun s => low < s ∧ s ≤ high := by
  induction history with
  | nil => simp
  | cons first rest ih =>
      simp only [List.count_cons,List.countP_cons,Nat.cast_add,Finset.sum_add_distrib,ih]
      congr 1
      simp only [beq_iff_eq,Nat.cast_ite,Nat.cast_one,Nat.cast_zero,Finset.sum_ite_eq,Finset.mem_Ioc]
      by_cases inside : low < first ∧ first ≤ high <;> simp [inside]

end SlidingWindow
