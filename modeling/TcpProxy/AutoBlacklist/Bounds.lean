import TcpProxy.Sysconf.Accepted
import TcpProxy.AutoBlacklist.Table

namespace TcpProxy.AutoBlacklist
open Sysconf

def configuredTable (c : Config) (memory : Nat → IpAccessEntry) : Table :=
  newAutoBlacklistService (Int32.ofInt (sysconfIntOrDefault c (literal "hash-size") 521))
    (Int32.ofInt (sysconfIntOrDefault c (literal "monitor-period") 86400)) memory

-- The two divisors of find_and_increase and expiring are not zero, and what
-- they index the buckets and the ring of slots with is inside.
structure IndexSafe (t : Table) (now : Int) (address : UInt32) : Prop where
  period : t.frequencyInSeconds.toInt ≠ 0
  size : t.hashBufferSize.toInt ≠ 0
  bucket : 0 ≤ hashIndex t (htonl address) ∧ hashIndex t (htonl address) < t.hashBufferSize.toInt
  swept : ∀ k ∈ buckets t, 0 ≤ k ∧ k < t.hashBufferSize.toInt
  ring : 0 ≤ (currentTimeIndex t now).1 ∧ (currentTimeIndex t now).1 < reservedEntry

-- The slots of `period` seconds are counted with an int: of the first 2^32 the
-- second half is negative, or all of the first half if the period is. The
-- remainder is negative too then, unless it is zero.
def SlotIndexable (period now : Int) : Prop :=
  if 0 < period then now / period % 2^32 < 2^31 ∨ now / period % 2^32 % 12 = 4
  else 2^31 < now / -period % 2^32 ∨ now / -period % 2^32 % 12 = 0

instance (period now : Int) : Decidable (SlotIndexable period now) := inferInstanceAs (Decidable (ite _ _ _))

def Indexable (hashSize monitorPeriod now : Int) : Prop :=
  0 < hashSize ∧ (12 ≤ monitorPeriod ∨ monitorPeriod ≤ -12) ∧ SlotIndexable (monitorPeriod.tdiv 12) now

instance (hashSize monitorPeriod now : Int) : Decidable (Indexable hashSize monitorPeriod now) :=
  inferInstanceAs (Decidable (_ ∧ _))

theorem tdiv_twelve (m : Int) : m.tdiv 12 = if 0 ≤ m then m / 12 else -(-m / 12) := by
  split
  · next nonneg => exact Int.tdiv_eq_ediv_of_nonneg nonneg
  · rw [← Int.tdiv_eq_ediv_of_nonneg (show 0 ≤ -m by omega),Int.neg_tdiv,Int.neg_neg]

theorem new_setup (low : -2^31 ≤ hashSize) (high : hashSize < 2^31) (low' : -2^31 ≤ monitorPeriod)
    (high' : monitorPeriod < 2^31) (memory : Nat → IpAccessEntry) :
    let t := newAutoBlacklistService (Int32.ofInt hashSize) (Int32.ofInt monitorPeriod) memory
    t.hashBufferSize.toInt = hashSize ∧ t.frequencyInSeconds.toInt = monitorPeriod.tdiv 12 := by
  refine ⟨Int32.toInt_ofInt_of_le low high,?_⟩
  have twelve : (12 : Int32).toInt = 12 := by decide
  simp only [newAutoBlacklistService]
  rw [Int32.toInt_div,Int32.toInt_ofInt_of_le low' high',twelve]
  have small : -2^31 ≤ monitorPeriod.tdiv 12 ∧ monitorPeriod.tdiv 12 < 2^31 := by
    rw [tdiv_twelve]
    split <;> omega
  exact Int.bmod_eq_of_le (by omega) (by omega)

theorem bucket_iff (t : Table) (ip : UInt32) :
    (0 ≤ hashIndex t ip ∧ hashIndex t ip < t.hashBufferSize.toInt) ↔ 0 < t.hashBufferSize.toInt := by
  constructor
  · intro ⟨low,high⟩
    omega
  · intro positive
    have bound := Int32.toInt_lt t.hashBufferSize
    have size : t.hashBufferSize.toInt % 2^32 = t.hashBufferSize.toInt := Int.emod_eq_of_lt (by omega) (by omega)
    have low := Int.emod_nonneg (ip.toNat : Int) (show t.hashBufferSize.toInt ≠ 0 by omega)
    have high := Int.emod_lt_of_pos (ip.toNat : Int) positive
    rw [hashIndex,size,toInt32_eq (by omega) (by omega)]
    exact ⟨low,high⟩

theorem tmod_twelve_nonneg (x : Int) : 0 ≤ x.tmod 12 ↔ 0 ≤ x ∨ x % 12 = 0 := by
  constructor
  · intro nonneg
    rcases Int.lt_or_le x 0 with negative | low
    · have opposite := Int.neg_tmod x 12
      have same := Int.tmod_eq_emod_of_nonneg (b := 12) (show 0 ≤ -x by omega)
      omega
    · exact .inl low
  · intro either
    rcases either with low | zero
    · exact Int.tmod_nonneg 12 low
    · have divides : (12 : Int) ∣ x := Int.dvd_of_emod_eq_zero zero
      rw [Int.tmod_eq_zero_of_dvd divides]

theorem toInt32_twelve (slot : Int) : (0 ≤ toInt32 slot ∨ toInt32 slot % 12 = 0) ↔
    slot % 2^32 < 2^31 ∨ slot % 2^32 % 12 = 4 := by
  have value : toInt32 slot = if slot % 2^32 < 2^31 then slot % 2^32 else slot % 2^32 - 2^32 := by
    rw [toInt32,Int.bmod_def]
    rfl
  have low := Int.emod_nonneg slot (show (2^32 : Int) ≠ 0 by decide)
  have high := Int.emod_lt_of_pos slot (show (0 : Int) < 2^32 by decide)
  rw [value]
  split <;> omega

theorem ring_iff (t : Table) (started : 0 ≤ now) :
    (0 ≤ (currentTimeIndex t now).1 ∧ (currentTimeIndex t now).1 < reservedEntry) ↔
      SlotIndexable t.frequencyInSeconds.toInt now := by
  have index : (currentTimeIndex t now).1 = (toInt32 (now.tdiv t.frequencyInSeconds.toInt)).tmod 12 := rfl
  have bound := Int.tmod_lt_of_pos (toInt32 (now.tdiv t.frequencyInSeconds.toInt)) (show (0 : Int) < 12 by decide)
  rw [index]
  generalize t.frequencyInSeconds.toInt = p at *
  have upper : ((toInt32 (now.tdiv p)).tmod 12 < (reservedEntry : Int)) := bound
  simp only [upper,and_true]
  rw [tmod_twelve_nonneg,toInt32_twelve,SlotIndexable]
  split
  · rw [Int.tdiv_eq_ediv_of_nonneg started]
  · next negative =>
      have quotient : now.tdiv p = -(now / -p) := by
        rw [← Int.tdiv_eq_ediv_of_nonneg started,Int.tdiv_neg,Int.neg_neg]
      rw [quotient]
      generalize now / -p = q
      have low := Int.emod_nonneg q (show (2^32 : Int) ≠ 0 by decide)
      have opposite : -q % 2^32 = if q % 2^32 = 0 then 0 else 2^32 - q % 2^32 := by
        split <;> omega
      rw [opposite]
      generalize q % 2^32 = r at low
      split <;> omega

-- The divisors come from the file, the slot from the clock: all three have to
-- be in their range.
theorem indices_safe_iff (accepted : yyparse input = some c) (memory : Nat → IpAccessEntry) (started : 0 ≤ now)
    (address : UInt32) :
    IndexSafe (configuredTable c memory) now address ↔
      Indexable (sysconfIntOrDefault c (literal "hash-size") 521)
        (sysconfIntOrDefault c (literal "monitor-period") 86400) now := by
  obtain ⟨low,high⟩ := sysconfIntOrDefault_int accepted (literal "hash-size") (show -2^31 ≤ (521 : Int) by decide)
    (by decide)
  obtain ⟨low',high'⟩ := sysconfIntOrDefault_int accepted (literal "monitor-period")
    (show -2^31 ≤ (86400 : Int) by decide) (by decide)
  obtain ⟨size,period⟩ := new_setup low high low' high' memory
  have nonzero : ∀ m : Int, m.tdiv 12 ≠ 0 ↔ 12 ≤ m ∨ m ≤ -12 := by
    intro m
    rw [tdiv_twelve]
    split <;> omega
  rw [← configuredTable] at size period
  rw [Indexable,← nonzero,← size,← period]
  constructor
  · intro safe
    exact ⟨(bucket_iff _ _).mp safe.bucket,safe.period,(ring_iff _ started).mp safe.ring⟩
  · intro ⟨positive,divides,slot⟩
    refine ⟨divides,by omega,(bucket_iff _ _).mpr positive,fun k member => ?_,(ring_iff _ started).mpr slot⟩
    obtain ⟨n,inside,rfl⟩ := List.mem_map.mp member
    have below := List.mem_range.mp inside
    omega

-- hash-size=7;monitor-period=120; in November 2023.
theorem indices_safe_iff_two_minutes : ∃ c, yyparse (literal "hash-size=7;monitor-period=120;") = some c ∧
    ∀ address, IndexSafe (configuredTable c fun _ => default) 1700000000 address := by
  have parsed : (yyparse (literal "hash-size=7;monitor-period=120;")).map (fun c =>
      (sysconfIntOrDefault c (literal "hash-size") 521,sysconfIntOrDefault c (literal "monitor-period") 86400)) =
        some (7,120) := by decide +kernel
  obtain ⟨c,accepted,values⟩ := Option.map_eq_some_iff.mp parsed
  obtain ⟨hashSize,monitorPeriod⟩ := Prod.mk.inj values
  refine ⟨c,accepted,fun address => (indices_safe_iff accepted _ (by decide) address).mpr ?_⟩
  rw [hashSize,monitorPeriod]
  decide

-- hash-size=0; is accepted, and no address has a bucket.
theorem zero_hash_size_divides_by_zero : ∃ c, yyparse (literal "hash-size=0;") = some c ∧
    ∀ now address, ¬ IndexSafe (configuredTable c fun _ => default) now address := by
  have parsed : (yyparse (literal "hash-size=0;")).map (fun c => sysconfIntOrDefault c (literal "hash-size") 521) =
      some 0 := by decide +kernel
  obtain ⟨c,accepted,size⟩ := Option.map_eq_some_iff.mp parsed
  refine ⟨c,accepted,fun now address safe => safe.size ?_⟩
  rw [configuredTable,size]
  rfl

end TcpProxy.AutoBlacklist
