import Mathlib.Algebra.Order.Ring.Rat

namespace TcpProxy

def toInt32 (x : Int) : Int := x.bmod (2^32)
def toInt64 (x : Int) : Int := x.bmod (2^64)

theorem toInt32_eq (low : -2^31 ≤ x) (high : x < 2^31) : toInt32 x = x :=
  Int.bmod_eq_of_le (by omega) (by omega)

theorem toInt64_eq (low : -2^63 ≤ x) (high : x < 2^63) : toInt64 x = x :=
  Int.bmod_eq_of_le (by omega) (by omega)

theorem toInt32_lt (x : Int) : toInt32 x < 2^31 := Int.bmod_lt (by decide)

theorem le_toInt32 (x : Int) : -2^31 ≤ toInt32 x := Int.le_bmod (by decide)

theorem toInt32_emod (low : -2^31 ≤ x) (high : x < 2^31) : toInt32 (x % 2^32).toNat = x := by
  rw [Int.toNat_of_nonneg (Int.emod_nonneg x (by decide))]
  exact (Int.emod_bmod x (2^32)).trans (toInt32_eq low high)

theorem toInt32_add (x y : Int) : toInt32 (toInt32 x + y) = toInt32 (x + y) := by
  simp [toInt32]

theorem toInt64_add (x y : Int) : toInt64 (toInt64 x + y) = toInt64 (x + y) := by
  simp [toInt64]

-- On a little-endian machine the two byte orders are each other's reverse.
def htonl (x : UInt32) : UInt32 :=
  let n := x.toNat
  UInt32.ofNat (n % 256 * 16777216 + n / 256 % 256 * 65536 + n / 256 / 256 % 256 * 256 + n / 256 / 256 / 256)

theorem htonl_toNat (x : UInt32) : ∃ a b c d : Nat, a < 256 ∧ b < 256 ∧ c < 256 ∧ d < 256 ∧
    x.toNat = a + 256*b + 65536*c + 16777216*d ∧ (htonl x).toNat = 16777216*a + 65536*b + 256*c + d := by
  have bound := x.toNat_lt
  refine ⟨x.toNat % 256,x.toNat/256 % 256,x.toNat/256/256 % 256,x.toNat/256/256/256,
    by omega,by omega,by omega,by omega,by omega,?_⟩
  simp only [htonl,UInt32.toNat_ofNat']
  rw [Nat.mod_eq_of_lt (by omega)]
  omega

theorem htonl_injective (x y : UInt32) (same : htonl x = htonl y) : x = y := by
  obtain ⟨a,b,c,d,aBound,bBound,cBound,dBound,xAt,swapped⟩ := htonl_toNat x
  obtain ⟨a',b',c',d',aBound',bBound',cBound',dBound',yAt,swapped'⟩ := htonl_toNat y
  have equal := congrArg UInt32.toNat same
  exact UInt32.toNat_inj.mp (by omega)

structure Timeval where
  sec : Int
  usec : Int
deriving DecidableEq, Repr, Inhabited

def tvsub (t1 t0 : Timeval) : Timeval :=
  let sec := t1.sec - t0.sec
  let usec := t1.usec - t0.usec
  if usec < 0 then ⟨sec-1,usec+1000000⟩ else ⟨sec,usec⟩

def elapsedTime (t1 t0 : Timeval) : ℚ :=
  let td := tvsub t1 t0
  td.sec + td.usec/1000000

end TcpProxy
