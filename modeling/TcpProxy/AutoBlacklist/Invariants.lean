import TcpProxy.AutoBlacklist.History

namespace TcpProxy.AutoBlacklist
open LinkedChain

variable {t : Table} {chains : Int → List Nat} {freeList : Option Nat} {limbo pool : List Nat}

-- What holds whatever the clock does: the lists, and in every node that was
-- ever allocated the counts.
structure Steady (t : Table) (chains : Int → List Nat) (pool : List Nat) : Prop where
  shape : Shape t chains none [] pool
  balanced : ∀ e < t.allocated, Balanced (t.memory e)

-- The same, as one would draw the table.
structure WellKept (t : Table) (chains : Int → List Nat) (pool : List Nat) : Prop where
  linked : ∀ k, t.InRange k → Links t.nextOf (t.entries k) (chains k)
  pooled : Links t.nextOf t.releasePool pool
  once : (∀ k, t.InRange k → (chains k).Nodup) ∧ pool.Nodup
  home : ∀ k, t.InRange k → ∀ e ∈ chains k, ((t.memory e).ipaddr.toNat : Int) % t.hashBufferSize.toInt = k
  single : ∀ j k, t.InRange j → t.InRange k → ∀ a ∈ chains j, ∀ b ∈ chains k,
    (t.memory a).ipaddr = (t.memory b).ipaddr → a = b
  everywhere : ∀ e, e < t.allocated ↔ e ∈ pool ∨ ∃ k, t.InRange k ∧ e ∈ chains k
  apart : ∀ j k, t.InRange j → t.InRange k → ∀ e ∈ chains j, e ∉ pool ∧ (e ∈ chains k → j = k)
  total : ∀ e < t.allocated, (t.memory e).counter = ∑ j ∈ Finset.range 12, ((t.memory e).accessCount j).counter
  nonneg : ∀ e < t.allocated, ∀ j < 12, 0 ≤ ((t.memory e).accessCount j).counter

theorem Steady.wellKept (valid : Steady t chains pool) : WellKept t chains pool := by
  have shape := valid.shape
  refine ⟨shape.linked,shape.pooled,⟨fun k inside => links_nodup (shape.linked k inside),links_nodup shape.pooled⟩,
    ?_,?_,?_,?_,fun e below => (valid.balanced e below).total,fun e below => (valid.balanced e below).nonneg⟩
  · intro k inside e member
    rw [← hashIndex_eq shape.sized]
    exact shape.home k inside e member
  · intro j k one two a left b right same
    obtain rfl : j = k := by
      rw [← shape.home j one a left,← shape.home k two b right,same]
    exact shape.address_unique one left right same
  · intro e
    constructor
    · intro below
      rcases shape.everywhere e below with pooled | waits | chained
      · exact .inl pooled
      · cases waits
      · exact .inr chained
    · intro place
      rcases place with pooled | ⟨k,inside,member⟩
      · exact shape.resting e pooled
      · exact (shape.chained k inside e member).2.2
  · intro j k one two e member
    exact ⟨(shape.chained j one e member).2.1,shape.chain_apart one two member⟩

theorem allocateNewEntry_below (t : Table) (below : a < (allocateNewEntry t).2.allocated) :
    a = (allocateNewEntry t).1 ∨ a < t.allocated := by
  unfold allocateNewEntry at below ⊢
  cases head : t.releasePool with
  | some e =>
      rw [head] at below
      exact .inr below
  | none =>
      rw [head] at below
      simp only at below ⊢
      omega

theorem lockedBody_below (t : Table) (now : Timeval) (reading : Reading)
    (below : a < (lockedBody t now reading).2.allocated) : a = (lockedBody t now reading).1 ∨ a < t.allocated := by
  unfold lockedBody at below ⊢
  cases found : findIp t.memory reading.ip t.allocated reading.entry with
  | some e =>
      rw [found] at below
      exact .inr below
  | none =>
      rw [found] at below
      exact allocateNewEntry_below t below

theorem fresh_balanced (ip : UInt32) (now : Timeval) (next : Option Nat) :
    Balanced ⟨ip,fun _ => ⟨0,0⟩,0,0,now,next⟩ := ⟨by simp,by simp⟩

theorem findAndIncrease_steady (valid : Steady t chains pool) (now : Timeval) (address : UInt32)
    (index : 0 ≤ (currentTimeIndex t now.sec).1 ∧ (currentTimeIndex t now.sec).1 < 12) :
    ∃ chains' pool', Steady (findAndIncrease t now address).2 chains' pool' ∧
      SameSetup t (findAndIncrease t now address).2 := by
  obtain ⟨chains',pool',shape,setup,others,outcome⟩ :=
    lockedBody_cases valid.shape now (readHead t now address) rfl
  have below := fun a => @lockedBody_below a t now (readHead t now address)
  have inside := hashIndex_inRange valid.shape.sized (readHead t now address).ip
  unfold findAndIncrease
  dsimp only
  have position : (readHead t now address).index < 12 := by
    change (currentTimeIndex t now.sec).1.toNat < 12
    omega
  generalize lockedBody t now (readHead t now address) = body at *
  obtain ⟨e,middle⟩ := body
  dsimp only at shape setup others outcome below ⊢
  have own : Balanced (middle.memory e) := by
    rcases outcome with ⟨member,_,_,memoryAt⟩ | ⟨_,_,_,memoryAt⟩
    · rw [memoryAt]
      exact refresh_balanced (valid.balanced e (valid.shape.chained _ inside e member).2.2) position _
    · rw [memoryAt]
      exact refresh_balanced (fresh_balanced _ _ _) position _
  refine ⟨chains',pool',⟨shape.setEntry e _ (by simp) (by simp),fun a bound => ?_⟩,setup.size,setup.frequency⟩
  by_cases equal : a = e
  · subst a
    rw [setEntry_self]
    exact countAccess_balanced own position
  · rw [setEntry_other _ _ equal,others a equal]
    rcases below a bound with same | old
    · exact absurd same equal
    · exact valid.balanced a old

theorem sweepChain_allocated (index : Nat) (slotIndex k : Int) (left : Nat) (entry prev : Option Nat) (t : Table)
    (freeList : Option Nat) :
    (sweepChain index slotIndex k left entry prev t freeList).1.allocated = t.allocated := by
  induction left generalizing entry prev t freeList with
  | zero => rfl
  | succ left ih =>
      cases entry with
      | none => rfl
      | some e =>
          simp only [sweepChain]
          split
          · rw [ih]
            exact (setLink_setup _ k prev _).2.1
          · rw [ih]
            rfl

theorem releaseList_allocated (left : Nat) (t : Table) (freeList : Option Nat) :
    (releaseList left t freeList).allocated = t.allocated := by
  induction left generalizing t freeList with
  | zero => rfl
  | succ left ih =>
      cases freeList with
      | none => rfl
      | some e => exact ih _ _

theorem sweepBucket_allocated (index : Nat) (slotIndex : Int) (t : Table) (k : Int) :
    (sweepBucket index slotIndex t k).allocated = t.allocated := by
  unfold sweepBucket
  exact (releaseList_allocated _ _ _).trans (sweepChain_allocated _ _ _ _ _ _ _ _)

theorem Balanced.of_data (balanced : Balanced one) (same : IpAccessEntry.data one = IpAccessEntry.data two) :
    Balanced two := by
  refine ⟨?_,fun j bound => ?_⟩
  · rw [← data_counter same,← data_accessCount same]
    exact balanced.total
  · rw [← data_accessCount same]
    exact balanced.nonneg j bound

theorem sweepBucket_steady (valid : Steady t chains pool) (inside : t.InRange k) (position : index < 12)
    (slotIndex : Int) :
    ∃ chains' pool', Steady (sweepBucket index slotIndex t k) chains' pool' ∧
      SameSetup t (sweepBucket index slotIndex t k) ∧ ∀ j, (chains' j).Sublist (chains j) := by
  obtain ⟨⟨rest,shape⟩,setup,cleared,others⟩ := sweepBucket_spec index slotIndex valid.shape inside
  refine ⟨_,rest,⟨shape,fun e below => ?_⟩,setup,fun j => ?_⟩
  · rw [sweepBucket_allocated] at below
    have before := valid.balanced e below
    by_cases member : e ∈ chains k
    · exact (clearOutdatedData_balanced before position slotIndex).of_data (cleared e member).symm
    · exact before.of_data (others e member).symm
  · by_cases equal : j = k
    · subst j
      rw [Function.update_self]
      exact List.filter_sublist
    · rw [Function.update_of_ne equal]

theorem sweep_steady (valid : Steady t chains pool) (todo : List Int) (inside : ∀ k ∈ todo, t.InRange k)
    (position : index < 12) (slotIndex : Int) :
    ∃ chains' pool', Steady (todo.foldl (sweepBucket index slotIndex) t) chains' pool' ∧
      SameSetup t (todo.foldl (sweepBucket index slotIndex) t) ∧ ∀ j, (chains' j).Sublist (chains j) := by
  induction todo generalizing t chains pool with
  | nil => exact ⟨chains,pool,valid,SameSetup.refl t,fun _ => List.Sublist.refl _⟩
  | cons k rest ih =>
      obtain ⟨chains',pool',next,setup,ordered⟩ := sweepBucket_steady valid (inside k (by simp)) position slotIndex
      obtain ⟨chains'',pool'',last,same,more⟩ := ih next
        (fun j member => setup.inRange.mpr (inside j (List.mem_cons_of_mem _ member)))
      exact ⟨chains'',pool'',last,setup.trans same,fun j => (more j).trans (ordered j)⟩

theorem expiring_steady (valid : Steady t chains pool) (now : Timeval)
    (index : 0 ≤ (currentTimeIndex t now.sec).1 ∧ (currentTimeIndex t now.sec).1 < 12) :
    ∃ chains' pool', Steady (expiring t now) chains' pool' ∧ SameSetup t (expiring t now) ∧
      ∀ k, (chains' k).Sublist (chains k) := by
  have position : (currentTimeIndex t now.sec).1.toNat < 12 := by omega
  obtain ⟨chains',pool',next,setup,ordered⟩ := sweep_steady valid (buckets t) (fun _ => mem_buckets.mp) position
    (currentTimeIndex t now.sec).2
  simp only [expiring]
  split
  · exact ⟨chains',pool',⟨next.shape.keep ⟨rfl,rfl⟩ rfl rfl rfl fun _ => ⟨rfl,rfl⟩,next.balanced⟩,
      ⟨setup.size,setup.frequency⟩,ordered⟩
  · exact ⟨chains,pool,valid,SameSetup.refl t,fun _ => List.Sublist.refl _⟩

-- The number of a slot, as current_time_index stores it.
def slotNumber (frequency now : Int) : Int := toInt32 (now.tdiv frequency)

theorem index_bounds (numbered : 0 ≤ slotNumber t.frequencyInSeconds.toInt now) :
    0 ≤ (currentTimeIndex t now).1 ∧ (currentTimeIndex t now).1 < 12 :=
  ⟨Int.tmod_nonneg 12 numbered,Int.tmod_lt_of_pos _ (by decide)⟩

theorem operate_steady (valid : Steady t chains pool) (op : Operation)
    (numbered : 0 ≤ slotNumber t.frequencyInSeconds.toInt op.now.sec) :
    ∃ chains' pool', Steady (operate t op) chains' pool' ∧ SameSetup t (operate t op) := by
  cases op with
  | findAndIncrease now address => exact findAndIncrease_steady valid now address (index_bounds numbered)
  | expiring now =>
      obtain ⟨chains',pool',next,setup,_⟩ := expiring_steady valid now (index_bounds numbered)
      exact ⟨chains',pool',next,setup⟩

theorem new_steady (hashSize monitorPeriod : Int32) (memory : Nat → IpAccessEntry) (sized : 0 < hashSize.toInt) :
    Steady (newAutoBlacklistService hashSize monitorPeriod memory) (fun _ => []) [] := by
  refine ⟨⟨sized,fun _ _ => rfl,rfl,rfl,by simp,by simp,by simp,by simp,by simp,?_⟩,?_⟩
  · intro e below
    exact absurd below (Nat.not_lt_zero e)
  · intro e below
    exact absurd below (Nat.not_lt_zero e)

theorem run_steady (hashSize monitorPeriod : Int32) (memory : Nat → IpAccessEntry) (sized : 0 < hashSize.toInt)
    (ops : List Operation) (numbered : ∀ op ∈ ops, 0 ≤ slotNumber (monitorPeriod / 12).toInt op.now.sec) :
    ∃ chains pool, Steady (Machine.run operate (newAutoBlacklistService hashSize monitorPeriod memory) ops) chains pool ∧
      SameSetup (newAutoBlacklistService hashSize monitorPeriod memory)
        (Machine.run operate (newAutoBlacklistService hashSize monitorPeriod memory) ops) := by
  induction ops using List.reverseRecOn with
  | nil => exact ⟨_,_,new_steady hashSize monitorPeriod memory sized,SameSetup.refl _⟩
  | append_singleton earlier op ih =>
      rw [Machine.run_concat]
      obtain ⟨chains,pool,valid,setup⟩ := ih fun one member => numbered one (by simp [member])
      obtain ⟨chains',pool',next,same⟩ := operate_steady valid op (by
        rw [setup.frequency]
        exact numbered op (by simp))
      exact ⟨chains',pool',next,setup.trans same⟩

-- For any clock: times need not be ordered. A sweep, at any time, keeps the
-- order of what it does not free.
theorem table_well_kept (hashSize monitorPeriod : Int32) (memory : Nat → IpAccessEntry) (sized : 0 < hashSize.toInt)
    (ops : List Operation) (numbered : ∀ op ∈ ops, 0 ≤ slotNumber (monitorPeriod / 12).toInt op.now.sec) :
    let t := Machine.run operate (newAutoBlacklistService hashSize monitorPeriod memory) ops
    ∃ chains pool, WellKept t chains pool ∧
      ∀ now : Timeval, 0 ≤ slotNumber (monitorPeriod / 12).toInt now.sec →
        ∃ chains' pool', WellKept (expiring t now) chains' pool' ∧ ∀ k, (chains' k).Sublist (chains k) := by
  intro t
  obtain ⟨chains,pool,valid,setup⟩ := run_steady hashSize monitorPeriod memory sized ops numbered
  refine ⟨chains,pool,valid.wellKept,fun now fine => ?_⟩
  obtain ⟨chains',pool',next,_,ordered⟩ := expiring_steady valid now
    (index_bounds (by rw [setup.frequency]; exact fine))
  exact ⟨chains',pool',next.wellKept,ordered⟩

theorem table_well_kept_backwards :
    let t := Machine.run operate (newAutoBlacklistService 7 120 fun _ => ⟨0,fun _ => ⟨0,0⟩,0,0,⟨0,0⟩,none⟩)
      [.findAndIncrease ⟨1000,0⟩ 5,.expiring ⟨1000,0⟩,.findAndIncrease ⟨40,0⟩ 5]
    ∃ chains pool, WellKept t chains pool := by
  obtain ⟨chains,pool,valid,_⟩ := table_well_kept 7 120 (fun _ => ⟨0,fun _ => ⟨0,0⟩,0,0,⟨0,0⟩,none⟩) (by decide)
    [.findAndIncrease ⟨1000,0⟩ 5,.expiring ⟨1000,0⟩,.findAndIncrease ⟨40,0⟩ 5] (by decide)
  exact ⟨chains,pool,valid⟩

end TcpProxy.AutoBlacklist
