import Mathlib.Algebra.Order.Ring.Int

namespace LittleEndian

abbrev Memory := Nat → UInt8

-- The number in the first w bytes, the least significant of them first.
def load (m : Memory) : Nat → Nat
  | 0 => 0
  | w+1 => load m w + 256^w * (m w).toNat

-- The first w bytes are overwritten with those of the value in two's complement.
def store (m : Memory) (w : Nat) (value : Int) : Memory :=
  fun i => if i < w then UInt8.ofInt (value/256^i) else m i

-- The number in the first w bytes, the highest bit of them its sign.
def loadSigned (m : Memory) (w : Nat) : Int := (load m w : Int).bmod (256^w)

variable {m : Memory} {w r : Nat}

theorem load_zeros (zeros : ∀ i, w ≤ i → i < w+k → m i = 0) : load m (w+k) = load m w := by
  induction k with
  | zero => rfl
  | succ k ih =>
      rw [← Nat.add_assoc,load,ih fun i low high => zeros i low (by omega),zeros (w+k) (by omega) (by omega)]
      simp

theorem byte_toNat (value : Int) : ((UInt8.ofInt value).toNat : Int) = value % 256 := by
  simp [UInt8.ofInt]
  omega

theorem emod_mul (value : Int) (a : Nat) : value % (256^a*256) = value % 256^a + 256^a * (value/256^a % 256) := by
  have positive : (0 : Int) ≤ 256^a := pow_nonneg (by decide) a
  rw [Int.emod_def,Int.emod_def value (256^a),Int.emod_def (value/256^a) 256,Int.ediv_ediv_of_nonneg positive,Int.mul_sub,
    Int.mul_assoc]
  omega

-- A part of a value that was stored is the value modulo the part's size.
theorem load_store (m : Memory) (value : Int) (part : r ≤ w) : (load (store m w value) r : Int) = value % 256^r := by
  induction r with
  | zero => rw [load,pow_zero,Int.emod_one,Int.natCast_zero]
  | succ r ih =>
      have stored : store m w value r = UInt8.ofInt (value/256^r) := if_pos part
      rw [load,stored,pow_succ,emod_mul,← ih (Nat.le_of_succ_le part)]
      push_cast
      rw [byte_toNat]

theorem loadSigned_store (m : Memory) (value : Int) (part : r ≤ w) : loadSigned (store m w value) r = value.bmod (256^r) := by
  rw [loadSigned,load_store m value part]
  exact_mod_cast Int.emod_bmod value (256^r)

end LittleEndian
