import TcpProxy.AutoBlacklist.History

namespace TcpProxy.AutoBlacklist
open LinkedChain SlidingWindow

-- Where a call of find_and_increase is between its sections: the head has been
-- read, or the bucket's lock has been given back and the increments are due.
inductive Call where
  | idle
  | reading (reading : Reading)
  | counting (reading : Reading) (entry : Nat)
deriving DecidableEq, Repr

-- Where a call of expiring is: waiting for the lock of the next bucket, or
-- giving back what it has taken out of the last one.
inductive Pass where
  | resting
  | sweeping (index slotIndex : Int) (todo : List Int)
  | releasing (index slotIndex : Int) (freeList : Option Nat) (todo : List Int)
deriving DecidableEq, Repr

-- The proxy thread and the expiring thread on one table. `clock` is the last
-- time that was read. The last two fields are the record of what was done: the
-- address and the slot of every completed call, and the slot each bucket was
-- last swept with.
structure Concurrent where
  table : Table
  call : Call
  pass : Pass
  clock : Int
  calls : List (UInt32 × Int)
  swept : Int → Int

inductive Section where
  | readHead (now : Timeval) (address : UInt32)
  | lockedBody (now : Timeval)
  | increment
  | wake (now : Timeval)
  | sweepBucket
  | freeEntry

def act (m : Concurrent) : Section → Concurrent
  | .readHead now address =>
    match m.call with
    | .idle => {m with call := .reading (readHead m.table now address),clock := now.sec}
    | _ => m
  | .lockedBody now =>
    match m.call with
    | .reading reading =>
      let (e,table) := lockedBody m.table now reading
      {m with table := table,call := .counting reading e,clock := now.sec}
    | _ => m
  | .increment =>
    match m.call with
    | .counting reading e => {m with
        table := m.table.setEntry e (countAccess (m.table.memory e) reading.index),
        call := .idle,calls := m.calls ++ [(reading.ip,reading.slotIndex)]}
    | _ => m
  | .wake now =>
    match m.pass with
    | .resting =>
      let (index,slotIndex) := currentTimeIndex m.table now.sec
      {m with
        clock := now.sec,
        pass := if index ≠ m.table.recentIndex then .sweeping index slotIndex (buckets m.table) else .resting}
    | _ => m
  | .sweepBucket =>
    match m.pass with
    | .sweeping index slotIndex (k :: todo) =>
      let (table,freeList) :=
        sweepChain index.toNat slotIndex k m.table.allocated (m.table.entries k) none m.table none
      {m with
        table := table,pass := .releasing index slotIndex freeList todo,
        swept := Function.update m.swept k slotIndex}
    | .sweeping index _ [] => {m with table := {m.table with recentIndex := index},pass := .resting}
    | _ => m
  | .freeEntry =>
    match m.pass with
    | .releasing index slotIndex (some e) todo => {m with
        table := freeEntry m.table e,pass := .releasing index slotIndex (m.table.memory e).next todo}
    | .releasing index slotIndex none todo => {m with pass := .sweeping index slotIndex todo}
    | _ => m

def start (hashSize monitorPeriod : Int32) (memory : Nat → IpAccessEntry) : Concurrent :=
  ⟨newAutoBlacklistService hashSize monitorPeriod memory,.idle,.resting,0,[],fun _ => 0⟩

-- Sections that follow each other are the functions they were cut out of.
theorem call_uninterrupted (m : Concurrent) (idle : m.call = .idle) (now : Timeval) (address : UInt32) :
    Machine.run act m [.readHead now address,.lockedBody now,.increment] =
      {m with
        table := (findAndIncrease m.table now address).2,clock := now.sec,
        calls := m.calls ++ [(htonl address,(currentTimeIndex m.table now.sec).2)]} := by
  cases m
  cases idle
  rfl

theorem release_uninterrupted (m : Concurrent) (index slotIndex : Int) (todo : List Int) (left : Nat)
    (enough : limbo.length ≤ left) (shape : Shape t chains freeList limbo pool) :
    Machine.run act {m with table := t,pass := .releasing index slotIndex freeList todo}
      (List.replicate (limbo.length+1) .freeEntry) =
    {m with table := releaseList left t freeList,pass := .sweeping index slotIndex todo} := by
  induction limbo generalizing t freeList pool left with
  | nil =>
      obtain rfl : freeList = none := shape.pending
      cases left <;> rfl
  | cons e rest ih =>
      obtain rfl : freeList = some e := shape.pending.1
      cases left with
      | zero => simp at enough
      | succ left => exact ih left (by simpa using enough) (freeEntry_shape shape)

theorem sweep_uninterrupted (m : Concurrent) (index slotIndex : Int) (todo : List Int)
    (inside : ∀ k ∈ todo, t.InRange k) (shape : Shape t chains none [] pool) :
    ∃ parts swept, (∀ part ∈ parts, part = .sweepBucket ∨ part = .freeEntry) ∧
      Machine.run act {m with table := t,pass := .sweeping index slotIndex todo} parts =
      {m with
        table := {todo.foldl (sweepBucket index.toNat slotIndex) t with recentIndex := index},
        pass := .resting,swept := swept} := by
  induction todo generalizing t chains pool m with
  | nil => exact ⟨[.sweepBucket],m.swept,by simp,rfl⟩
  | cons k rest ih =>
      have here := inside k (by simp)
      obtain ⟨⟨released,after⟩,setup,_⟩ := sweepBucket_spec index.toNat slotIndex shape here
      have done := sweepChain_swept index.toNat slotIndex (chains k) [] t.allocated shape here rfl
        (shape.chain_length here)
      rw [← links_head (shape.linked k here),List.getLast?_nil] at done
      obtain ⟨limbo,middle⟩ := done.shape
      obtain ⟨parts,swept,own,more⟩ := ih {m with swept := Function.update m.swept k slotIndex}
        (fun j member => setup.inRange.mpr (inside j (List.mem_cons_of_mem _ member))) after
      refine ⟨.sweepBucket :: (List.replicate (limbo.length+1) .freeEntry ++ parts),swept,?_,?_⟩
      · intro part member
        rcases List.mem_cons.mp member with first | later
        · exact .inl first
        · rcases List.mem_append.mp later with free | last
          · exact .inr (List.eq_of_mem_replicate free)
          · exact own part last
      · have freed := release_uninterrupted {m with swept := Function.update m.swept k slotIndex} index slotIndex rest
          _ middle.limbo_length middle
        rw [Machine.run_cons,Machine.run_append]
        refine Eq.trans (congrArg (fun next => Machine.run act next parts) freed) ?_
        exact more

theorem pass_uninterrupted (m : Concurrent) (resting : m.pass = .resting) (now : Timeval)
    (shape : Shape m.table chains none [] pool) :
    ∃ parts swept, (∀ part ∈ parts, part = .sweepBucket ∨ part = .freeEntry) ∧
      Machine.run act m (.wake now :: parts) =
      {m with table := expiring m.table now,clock := now.sec,swept := swept} := by
  obtain ⟨parts,swept,own,swept'⟩ := sweep_uninterrupted {m with clock := now.sec} (currentTimeIndex m.table now.sec).1
    (currentTimeIndex m.table now.sec).2 (buckets m.table) (fun _ => mem_buckets.mp) shape
  by_cases due : (currentTimeIndex m.table now.sec).1 ≠ m.table.recentIndex
  · refine ⟨parts,swept,own,?_⟩
    simp only [Machine.run_cons,act,resting,if_pos due,expiring]
    exact swept'
  · refine ⟨[],m.swept,by simp,?_⟩
    simp only [Machine.run_cons,Machine.run_nil,act,resting,if_neg due,expiring]

def slotsSeen (calls : List (UInt32 × Int)) (ip : UInt32) : List Int :=
  calls.filterMap fun c => if c.1 = ip then some c.2 else none

-- What a finished call has to find: its entry in the chain of the bucket and
-- not in the pool, with the number of completed calls in the window that ends
-- at its own slot.
structure Counted (m : Concurrent) (reading : Reading) (e : Nat) : Prop where
  chained : ∃ chain, Links m.table.nextOf (m.table.entries (hashIndex m.table reading.ip)) chain ∧ e ∈ chain
  unreleased : ∃ pool, Links m.table.nextOf m.table.releasePool pool ∧ e ∉ pool
  address : (m.table.memory e).ipaddr = reading.ip
  counter : (m.table.memory e).counter =
    (slotsSeen m.calls reading.ip).countP fun s => reading.slotIndex-12 < s ∧ s ≤ reading.slotIndex

def Finishes (m : Concurrent) : Prop :=
  ∀ reading e, m.call = .counting reading e → Counted (act m .increment) reading e

def Section.now : Section → Option Timeval
  | .readHead now _ => some now
  | .lockedBody now => some now
  | .wake now => some now
  | _ => none

def slotOf (t : Table) (now : Int) : Int := now / t.frequencyInSeconds.toInt

def Ticking (m : Concurrent) (part : Section) : Prop :=
  ∀ now, part.now = some now → m.clock ≤ now.sec ∧ slotOf m.table now.sec < 2^31

def inFlight : Call → List (UInt32 × Int)
  | .idle => []
  | .reading _ => []
  | .counting reading _ => [(reading.ip,reading.slotIndex)]

-- A sweep with a later slot than the call's has a later window too. It takes
-- nothing out of the call's own: neither the access that is being counted nor
-- one that the address has made before.
def Spares (calls : List (UInt32 × Int)) (reading : Reading) (swept : Int) : Prop :=
  ∀ s ∈ reading.slotIndex :: slotsSeen calls reading.ip, reading.slotIndex-12 < s → swept-12 < s

-- A sweep is not older than a call that its bucket has seen, and neither frees
-- the entry whose increments are due nor takes an access out of their window.
def SweepHarmless (m : Concurrent) (index slotIndex k : Int) : Prop :=
  (∀ c ∈ m.calls ++ inFlight m.call, hashIndex m.table c.1 = k → c.2 ≤ slotIndex) ∧
  ∀ reading e, m.call = .counting reading e → hashIndex m.table reading.ip = k →
    ¬ Expires index.toNat slotIndex m.table e ∧ Spares m.calls reading slotIndex

-- The search from the head that was read finds what it would find from the
-- head as it is now, and the last sweep of the bucket has spared the call.
def BodyHarmless (m : Concurrent) (reading : Reading) : Prop :=
  findIp m.table.memory reading.ip m.table.allocated reading.entry =
    findIp m.table.memory reading.ip m.table.allocated (m.table.entries (hashIndex m.table reading.ip)) ∧
  Spares m.calls reading (m.swept (hashIndex m.table reading.ip))

def Harmless (m : Concurrent) (part : Section) : Prop :=
  match part,m.call,m.pass with
  | .lockedBody _,.reading reading,_ => BodyHarmless m reading
  | .sweepBucket,_,.sweeping index slotIndex (k :: _) => SweepHarmless m index slotIndex k
  | _,_,_ => True

instance (m : Concurrent) (part : Section) : Decidable (Ticking m part) :=
  match time : part.now with
  | some now => decidable_of_iff (m.clock ≤ now.sec ∧ slotOf m.table now.sec < 2^31) (by simp [Ticking,time])
  | none => isTrue (by simp [Ticking,time])

instance (calls : List (UInt32 × Int)) (reading : Reading) (swept : Int) : Decidable (Spares calls reading swept) :=
  inferInstanceAs (Decidable (∀ s ∈ reading.slotIndex :: slotsSeen calls reading.ip, _))

instance (m : Concurrent) (index slotIndex k : Int) : Decidable (SweepHarmless m index slotIndex k) :=
  match call : m.call with
  | .idle => decidable_of_iff (∀ c ∈ m.calls, hashIndex m.table c.1 = k → c.2 ≤ slotIndex)
      (by simp [SweepHarmless,call,inFlight])
  | .reading _ => decidable_of_iff (∀ c ∈ m.calls, hashIndex m.table c.1 = k → c.2 ≤ slotIndex)
      (by simp [SweepHarmless,call,inFlight])
  | .counting reading e => decidable_of_iff
      ((∀ c ∈ m.calls ++ [(reading.ip,reading.slotIndex)], hashIndex m.table c.1 = k → c.2 ≤ slotIndex) ∧
        (hashIndex m.table reading.ip = k →
          ¬ Expires index.toNat slotIndex m.table e ∧ Spares m.calls reading slotIndex))
      (by simp [SweepHarmless,call,inFlight])

instance (m : Concurrent) (reading : Reading) : Decidable (BodyHarmless m reading) :=
  inferInstanceAs (Decidable (_ ∧ _))

instance (m : Concurrent) (part : Section) : Decidable (Harmless m part) := by
  unfold Harmless
  split
  · infer_instance
  · infer_instance
  · exact isTrue trivial

def countsOf (calls : List (UInt32 × Int)) (ip : UInt32) (s : Int) : Nat := (slotsSeen calls ip).count s

theorem mem_slotsSeen : s ∈ slotsSeen calls ip ↔ (ip,s) ∈ calls := by
  simp only [slotsSeen,List.mem_filterMap]
  constructor
  · intro ⟨c,member,seen⟩
    split at seen
    · rename_i own
      cases own
      cases seen
      exact member
    · cases seen
  · intro member
    exact ⟨(ip,s),member,if_pos rfl⟩

theorem countsOf_own (calls : List (UInt32 × Int)) (ip : UInt32) (slot : Int) :
    countsOf (calls ++ [(ip,slot)]) ip = Function.update (countsOf calls ip) slot (countsOf calls ip slot+1) := by
  funext s
  by_cases equal : s = slot
  · subst s
    simp [countsOf,slotsSeen]
  · have different : ¬ slot = s := fun same => equal same.symm
    simp [countsOf,slotsSeen,Function.update_of_ne equal,different]

theorem countsOf_other (calls : List (UInt32 × Int)) (slot : Int) (different : other ≠ ip) :
    countsOf (calls ++ [(other,slot)]) ip = countsOf calls ip := by
  funext s
  simp [countsOf,slotsSeen,different]

theorem countsOf_after (bounded : ∀ c ∈ calls, c.2 ≤ slot) (s : Int) (after : slot < s) : countsOf calls ip s = 0 := by
  refine List.count_eq_zero.mpr fun seen => ?_
  have := bounded _ (mem_slotsSeen.mp seen)
  dsimp only at this
  omega

structure Dated (t : Table) (clock : Int) (calls : List (UInt32 × Int)) (reading : Reading) : Prop where
  index : reading.index = (reading.slotIndex % 12).toNat
  low : 0 ≤ reading.slotIndex
  high : reading.slotIndex ≤ slotOf t clock
  latest : ∀ c ∈ calls, c.2 ≤ reading.slotIndex

-- The entry of a call in flight is ready for the increments. `swept` is the
-- slot its bucket was last swept with.
structure Ready (t : Table) (calls : List (UInt32 × Int)) (swept : Int) (chains : Int → List Nat) (reading : Reading)
    (e : Nat) : Prop where
  chained : e ∈ chains (hashIndex t reading.ip)
  address : (t.memory e).ipaddr = reading.ip
  tracks : Tracks (t.memory e) (countsOf calls reading.ip) (max reading.slotIndex swept)
  labelled : ((t.memory e).accessCount reading.index).slotIndex = reading.slotIndex
  spared : Spares calls reading swept

def CallSound (m : Concurrent) (chains : Int → List Nat) : Call → Prop
  | .idle => True
  | .reading reading => Dated m.table m.clock m.calls reading
  | .counting reading e => Dated m.table m.clock m.calls reading ∧
      Ready m.table m.calls (m.swept (hashIndex m.table reading.ip)) chains reading e

structure Timed (t : Table) (clock : Int) (swept : Int → Int) (index slotIndex : Int) (todo : List Int) : Prop where
  index : index = slotIndex % 12
  low : 0 ≤ slotIndex
  high : slotIndex ≤ slotOf t clock
  latest : ∀ k, swept k ≤ slotIndex
  inside : ∀ k ∈ todo, t.InRange k

def PassSound (m : Concurrent) : Pass → Prop
  | .resting => True
  | .sweeping index slotIndex todo => Timed m.table m.clock m.swept index slotIndex todo
  | .releasing index slotIndex _ todo => Timed m.table m.clock m.swept index slotIndex todo

def Pass.freeList : Pass → Option Nat
  | .releasing _ _ freeList _ => freeList
  | _ => none

-- Nothing is lost: an address has what its completed calls have counted, up to
-- the last sweep of its bucket or up to one of its own calls.
def Known (m : Concurrent) (chains : Int → List Nat) (ip : UInt32) : Prop :=
  ∃ last, m.swept (hashIndex m.table ip) ≤ last ∧
    (last ≤ m.swept (hashIndex m.table ip) ∨ ∃ c ∈ m.calls ++ inFlight m.call, c.1 = ip ∧ last ≤ c.2) ∧
    Holds m.table chains ip (countsOf m.calls ip) last

structure Timing (m : Concurrent) : Prop where
  frequency : 0 < m.table.frequencyInSeconds.toInt
  started : 0 ≤ m.clock
  past : ∀ c ∈ m.calls, c.2 ≤ slotOf m.table m.clock
  sweeps : ∀ k, 0 ≤ m.swept k ∧ m.swept k ≤ slotOf m.table m.clock
  pass : PassSound m m.pass

structure Whole (m : Concurrent) (chains : Int → List Nat) (limbo pool : List Nat) : Prop where
  shape : Shape m.table chains m.pass.freeList limbo pool
  timing : Timing m
  call : CallSound m chains m.call
  known : ∀ ip, Known m chains ip

variable {m next : Concurrent} {chains : Int → List Nat} {limbo pool : List Nat}

theorem Spares.near (spared : Spares calls reading swept) : swept-12 < reading.slotIndex :=
  spared _ List.mem_cons_self (by omega)

theorem Spares.window {seen : List Int} (spared : Spares calls reading swept)
    (latest : ∀ s ∈ seen, s ≤ reading.slotIndex)
    (known : ∀ s ∈ seen, s = reading.slotIndex ∨ s ∈ slotsSeen calls reading.ip) :
    (seen.countP fun s => max reading.slotIndex swept-12 < s ∧ s ≤ max reading.slotIndex swept) =
      seen.countP fun s => reading.slotIndex-12 < s ∧ s ≤ reading.slotIndex := by
  refine List.countP_congr fun s member => ?_
  have before := latest s member
  have kept := spared s (List.mem_cons.mpr (known s member))
  simp only [decide_eq_true_eq]
  omega

theorem SameSetup.slotOf (same : SameSetup t table) (now : Int) : slotOf table now = AutoBlacklist.slotOf t now := by
  unfold AutoBlacklist.slotOf
  rw [same.frequency]

theorem Dated.setup (dated : Dated t clock calls reading) (same : SameSetup t table)
    (later : slotOf t clock ≤ slotOf t now) : Dated table now calls reading :=
  ⟨dated.index,dated.low,by rw [same.slotOf]; exact dated.high.trans later,dated.latest⟩

theorem PassSound.setup {pass : Pass} (sound : PassSound m pass) (same : SameSetup m.table next.table)
    (later : slotOf m.table m.clock ≤ slotOf m.table next.clock) (swept : next.swept = m.swept) :
    PassSound next pass := by
  have timed : ∀ {index slotIndex todo}, Timed m.table m.clock m.swept index slotIndex todo →
      Timed next.table next.clock next.swept index slotIndex todo := fun timed =>
    ⟨timed.index,timed.low,by rw [same.slotOf]; exact timed.high.trans later,by rw [swept]; exact timed.latest,
      fun k member => same.inRange.mpr (timed.inside k member)⟩
  cases pass with
  | resting => trivial
  | sweeping index slotIndex todo => exact timed sound
  | releasing index slotIndex freeList todo => exact timed sound

theorem Timing.setup (timing : Timing m) (same : SameSetup m.table next.table) (ordered : m.clock ≤ next.clock)
    (calls : ∀ c ∈ next.calls, c ∈ m.calls ∨ c.2 ≤ slotOf m.table m.clock) (swept : next.swept = m.swept)
    (pass : next.pass = m.pass) : Timing next := by
  have later : slotOf m.table m.clock ≤ slotOf m.table next.clock := Int.ediv_le_ediv timing.frequency ordered
  refine ⟨by rw [same.frequency]; exact timing.frequency,timing.started.trans ordered,fun c member => ?_,fun k => ?_,?_⟩
  · rw [same.slotOf]
    rcases calls c member with old | before
    · exact (timing.past c old).trans later
    · exact before.trans later
  · rw [same.slotOf,swept]
    exact ⟨(timing.sweeps k).1,(timing.sweeps k).2.trans later⟩
  · rw [pass]
    exact timing.pass.setup same later swept

theorem readHead_whole (valid : Whole m chains limbo pool) (idle : m.call = .idle) (now : Timeval) (address : UInt32)
    (ordered : m.clock ≤ now.sec) (representable : slotOf m.table now.sec < 2^31) :
    Whole {m with call := .reading (readHead m.table now address),clock := now.sec} chains limbo pool := by
  have timing : Timing {m with call := .reading (readHead m.table now address),clock := now.sec} :=
    valid.timing.setup (SameSetup.refl _) ordered (fun _ => .inl) rfl rfl
  have time := currentTimeIndex_eq timing.frequency timing.started representable
  have dated : Dated m.table now.sec m.calls (readHead m.table now address) := by
    simp only [readHead,time]
    exact ⟨rfl,Int.ediv_nonneg timing.started (Int.le_of_lt timing.frequency),Int.le_refl _,timing.past⟩
  refine ⟨valid.shape,timing,dated,fun ip => ?_⟩
  have known := valid.known ip
  unfold Known at known ⊢
  rw [idle] at known
  exact known

theorem lockedBody_whole (valid : Whole m chains limbo pool) (reads : m.call = .reading reading) (now : Timeval)
    (ordered : m.clock ≤ now.sec) (harmless : Harmless m (.lockedBody now)) :
    ∃ chains' pool', Whole {m with
      table := (lockedBody m.table now reading).2,call := .counting reading (lockedBody m.table now reading).1,
      clock := now.sec} chains' limbo pool' := by
  obtain ⟨same,spared⟩ : BodyHarmless m reading := by
    unfold Harmless at harmless
    rwa [reads] at harmless
  have near := spared.near
  have dated : Dated m.table m.clock m.calls reading := by
    have sound := valid.call
    rwa [reads] at sound
  obtain ⟨chains',pool',shape,setup,chained,address,mine,others⟩ :=
    lockedBody_holds valid.shape now reading same
  -- The bucket was last brought up to date by a sweep, or by a call not after this one.
  obtain ⟨last,swept,reached,holds⟩ := valid.known reading.ip
  have behind : last ≤ max reading.slotIndex (m.swept (hashIndex m.table reading.ip)) := by
    rcases reached with sweep | ⟨c,member,_,before⟩
    · exact le_max_of_le_right sweep
    · rw [reads,inFlight,List.append_nil] at member
      exact le_max_of_le_left (before.trans (dated.latest c member))
  have current : max last reading.slotIndex = max reading.slotIndex (m.swept (hashIndex m.table reading.ip)) := by
    omega
  obtain ⟨tracks,labelled⟩ := mine _ last holds ((valid.timing.sweeps _).1.trans swept) (by omega)
    (countsOf_after dated.latest) dated.index
  rw [current] at tracks
  generalize lockedBody m.table now reading = body at *
  obtain ⟨e,table⟩ := body
  dsimp only at shape setup chained address others tracks labelled ⊢
  have ready : Ready table m.calls (m.swept (hashIndex table reading.ip)) chains' reading e := by
    rw [setup.hashIndex]
    exact ⟨by rw [setup.hashIndex]; exact chained,address,tracks,labelled,spared⟩
  have later := Int.ediv_le_ediv valid.timing.frequency ordered
  refine ⟨chains',pool',shape,valid.timing.setup setup ordered (fun _ => .inl) rfl rfl,
    ⟨dated.setup setup later,ready⟩,?_⟩
  intro ip
  unfold Known
  rw [setup.hashIndex]
  by_cases equal : ip = reading.ip
  · subst ip
    refine ⟨max reading.slotIndex (m.swept (hashIndex m.table reading.ip)),le_max_right _ _,?_,
      .inl ⟨e,ready.chained,address,tracks⟩⟩
    rcases le_total reading.slotIndex (m.swept (hashIndex m.table reading.ip)) with left | right
    · exact .inl (by rw [max_eq_right left])
    · exact .inr ⟨(reading.ip,reading.slotIndex),by simp [inFlight],rfl,by rw [max_eq_left right]⟩
  · obtain ⟨last,swept,reached,holds⟩ := valid.known ip
    refine ⟨last,swept,?_,others ip _ last equal holds⟩
    rcases reached with sweep | ⟨c,member,own,before⟩
    · exact .inl sweep
    · rw [reads,inFlight,List.append_nil] at member
      exact .inr ⟨c,List.mem_append_left _ member,own,before⟩

theorem increment_whole (valid : Whole m chains limbo pool) (due : m.call = .counting reading e) :
    Whole (act m .increment) chains limbo pool ∧
    Tracks ((act m .increment).table.memory e) (countsOf (act m .increment).calls reading.ip)
      (max reading.slotIndex (m.swept (hashIndex m.table reading.ip))) := by
  obtain ⟨dated,ready⟩ : Dated m.table m.clock m.calls reading ∧
      Ready m.table m.calls (m.swept (hashIndex m.table reading.ip)) chains reading e := by
    have sound := valid.call
    rwa [due] at sound
  have near := ready.spared.near
  have counted := ready.tracks.countAccess (by omega) (le_max_left _ _) (dated.index ▸ ready.labelled)
  rw [← dated.index,← countsOf_own] at counted
  have setup : SameSetup m.table (m.table.setEntry e (countAccess (m.table.memory e) reading.index)) := ⟨rfl,rfl⟩
  simp only [act,due]
  refine ⟨⟨valid.shape.setEntry e _ (by simp) (by simp),valid.timing.setup setup (Int.le_refl _) ?_ rfl rfl,trivial,?_⟩,
    by simpa using counted⟩
  · intro c member
    rcases List.mem_append.mp member with old | new
    · exact .inl old
    · obtain rfl := List.mem_singleton.mp new
      exact .inr dated.high
  · intro ip
    obtain ⟨last,swept,reached,holds⟩ := valid.known ip
    unfold Known
    rw [due] at reached
    simp only [setup.hashIndex,inFlight,List.append_nil]
    by_cases equal : reading.ip = ip
    · subst ip
      refine ⟨_,le_max_right _ _,?_,.inl ⟨e,?_,by simpa using ready.address,by simpa using counted⟩⟩
      · rcases le_total reading.slotIndex (m.swept (hashIndex m.table reading.ip)) with left | right
        · exact .inl (by rw [max_eq_right left])
        · exact .inr ⟨(reading.ip,reading.slotIndex),by simp,rfl,by rw [max_eq_left right]⟩
      · rw [setup.hashIndex]
        exact ready.chained
    · rw [countsOf_other _ _ equal]
      exact ⟨last,swept,reached,holds.setEntry (fun same => equal (ready.address.symm.trans same)) (by simp)⟩

theorem CallSound.keep (sound : CallSound m chains call) (same : SameSetup m.table next.table)
    (ordered : slotOf m.table m.clock ≤ slotOf m.table next.clock) (calls : next.calls = m.calls)
    (ready : ∀ reading e, call = .counting reading e → Dated m.table m.clock m.calls reading →
      Ready m.table m.calls (m.swept (hashIndex m.table reading.ip)) chains reading e →
      Ready next.table m.calls (next.swept (hashIndex m.table reading.ip)) chains' reading e) :
    CallSound next chains' call := by
  cases call with
  | idle => trivial
  | reading reading =>
      unfold CallSound
      rw [calls]
      exact Dated.setup sound same ordered
  | counting reading e =>
      simp only [CallSound,calls,same.hashIndex]
      exact ⟨sound.1.setup same ordered,ready reading e rfl sound.1 sound.2⟩

theorem wake_whole (valid : Whole m chains limbo pool) (resting : m.pass = .resting) (now : Timeval)
    (ordered : m.clock ≤ now.sec) (representable : slotOf m.table now.sec < 2^31) :
    Whole (act m (.wake now)) chains limbo pool := by
  have timing : Timing {m with clock := now.sec} :=
    valid.timing.setup (SameSetup.refl _) ordered (fun _ => .inl) rfl rfl
  have time := currentTimeIndex_eq timing.frequency timing.started representable
  have later := Int.ediv_le_ediv valid.timing.frequency ordered
  have shape : Shape m.table chains none limbo pool := by
    have shape := valid.shape
    rwa [resting] at shape
  have timed : Timed m.table now.sec m.swept (slotOf m.table now.sec % 12) (slotOf m.table now.sec) (buckets m.table) :=
    ⟨rfl,Int.ediv_nonneg timing.started (Int.le_of_lt timing.frequency),Int.le_refl _,fun k => (timing.sweeps k).2,
      fun k => mem_buckets.mp⟩
  have call : ∀ pass, CallSound {m with clock := now.sec,pass := pass} chains m.call :=
    fun pass => valid.call.keep (SameSetup.refl _) later rfl (fun _ _ _ _ ready => ready)
  simp only [act,resting,time]
  split
  · exact ⟨shape,⟨timing.frequency,timing.started,timing.past,timing.sweeps,timed⟩,call _,valid.known⟩
  · exact ⟨shape,⟨timing.frequency,timing.started,timing.past,timing.sweeps,trivial⟩,call _,valid.known⟩

theorem freeEntry_whole (valid : Whole m chains limbo pool) (releasing : m.pass = .releasing index slotIndex freeList todo) :
    ∃ limbo' pool', Whole (act m .freeEntry) chains limbo' pool' := by
  have shape : Shape m.table chains freeList limbo pool := by
    have shape := valid.shape
    rwa [releasing] at shape
  have timed : Timed m.table m.clock m.swept index slotIndex todo := by
    have pass := valid.timing.pass
    rwa [releasing] at pass
  have timing := valid.timing
  cases freeList with
  | none =>
      simp only [act,releasing]
      exact ⟨limbo,pool,shape,⟨timing.frequency,timing.started,timing.past,timing.sweeps,timed⟩,valid.call,valid.known⟩
  | some e =>
      obtain ⟨rest,rfl,_⟩ := links_some shape.pending
      have data := setNext_data m.table e m.table.releasePool
      have setup : SameSetup m.table (freeEntry m.table e) := ⟨rfl,rfl⟩
      simp only [act,releasing]
      refine ⟨rest,e :: pool,freeEntry_shape shape,⟨timing.frequency,timing.started,timing.past,timing.sweeps,?_⟩,?_,?_⟩
      · exact ⟨timed.index,timed.low,timed.high,timed.latest,timed.inside⟩
      · refine valid.call.keep setup (Int.le_refl _) rfl (fun reading a _ _ ready => ?_)
        have same : ((freeEntry m.table e).memory a).data = (m.table.memory a).data := data a
        refine ⟨ready.chained,(data_ipaddr same).trans ready.address,ready.tracks.of_data same.symm,?_,ready.spared⟩
        rw [data_accessCount same]
        exact ready.labelled
      · intro ip
        obtain ⟨last,swept,reached,holds⟩ := valid.known ip
        exact ⟨last,swept,reached,holds.of_counts setup (fun a => data_ipaddr (data a))
          (fun a => data_accessCount (data a)) (fun a => data_counter (data a))⟩

theorem Ready.sweep (ready : Ready t calls swept chains reading e) (dated : Dated t clock calls reading)
    (behind : max reading.slotIndex swept ≤ slot) (spared : Spares calls reading slot)
    (cleared : (table.memory e).data = (clearOutdatedData (t.memory e) (slot % 12).toNat slot).data)
    (chained : e ∈ chains' (hashIndex table reading.ip)) : Ready table calls slot chains' reading e := by
  have current := ready.tracks.clear behind
  have high : reading.slotIndex ≤ slot := (le_max_left _ _).trans behind
  have near := spared.near
  refine ⟨chained,(data_ipaddr cleared).trans (by simpa using ready.address),?_,?_,spared⟩
  · rw [max_eq_right high]
    exact current.of_data cleared.symm
  · rw [data_accessCount cleared,dated.index,clearOutdatedData_accessCount _ _ _ (by omega),relabel_slotIndex]
    exact latest_eq (by push_cast; omega) high _ (by push_cast; omega)

theorem sweepBucket_whole (valid : Whole m chains limbo pool)
    (sweeping : m.pass = .sweeping index slotIndex (k :: todo)) (harmless : Harmless m .sweepBucket) :
    ∃ chains' limbo', Whole (act m .sweepBucket) chains' limbo' pool := by
  obtain ⟨newest,alive⟩ : SweepHarmless m index slotIndex k := by
    unfold Harmless at harmless
    rwa [sweeping] at harmless
  have shape : Shape m.table chains none limbo pool := by
    have shape := valid.shape
    rwa [sweeping] at shape
  have timed : Timed m.table m.clock m.swept index slotIndex (k :: todo) := by
    have pass := valid.timing.pass
    rwa [sweeping] at pass
  obtain rfl := timed.index
  have inside := timed.inside k (by simp)
  have done := sweepChain_swept (slotIndex % 12).toNat slotIndex (chains k) [] m.table.allocated shape inside rfl
    (shape.chain_length inside)
  rw [← links_head (shape.linked k inside),List.getLast?_nil] at done
  simp only [act,sweeping]
  generalize sweepChain (slotIndex % 12).toNat slotIndex k m.table.allocated (m.table.entries k) none m.table none =
    result at *
  obtain ⟨table,freeList⟩ := result
  obtain ⟨⟨limbo',after⟩,setup,cleared,others⟩ := done
  dsimp only at after setup cleared others ⊢
  have timing := valid.timing
  have bounds : ∀ j, 0 ≤ Function.update m.swept k slotIndex j ∧ Function.update m.swept k slotIndex j ≤ slotIndex := by
    intro j
    by_cases equal : j = k
    · subst j
      rw [Function.update_self]
      exact ⟨timed.low,Int.le_refl _⟩
    · rw [Function.update_of_ne equal]
      exact ⟨(timing.sweeps j).1,timed.latest j⟩
  refine ⟨_,limbo',after,?_,?_,?_⟩
  · refine ⟨by rw [setup.frequency]; exact timing.frequency,timing.started,?_,fun j => ?_,?_⟩
    · intro c member
      rw [setup.slotOf]
      exact timing.past c member
    · rw [setup.slotOf]
      exact ⟨(bounds j).1,(bounds j).2.trans timed.high⟩
    · exact ⟨rfl,timed.low,by rw [setup.slotOf]; exact timed.high,fun j => (bounds j).2,
        fun j member => setup.inRange.mpr (timed.inside j (List.mem_cons_of_mem _ member))⟩
  · refine valid.call.keep setup (Int.le_refl _) rfl (fun reading e due dated ready => ?_)
    dsimp only
    by_cases equal : hashIndex m.table reading.ip = k
    · subst k
      rw [Function.update_self]
      have own := newest (reading.ip,reading.slotIndex) (by simp [due,inFlight]) rfl
      obtain ⟨kept,spared⟩ := alive reading e due rfl
      refine ready.sweep dated (max_le own (timed.latest _)) spared (cleared e ready.chained) ?_
      rw [setup.hashIndex,Function.update_self]
      exact List.mem_filter.mpr ⟨ready.chained,by simpa using kept⟩
    · have outside : e ∉ chains k := fun member =>
        equal (shape.chain_apart (hashIndex_inRange shape.sized _) inside ready.chained member)
      have same := others e outside
      rw [Function.update_of_ne equal]
      refine ⟨?_,(data_ipaddr same).trans ready.address,ready.tracks.of_data same.symm,?_,ready.spared⟩
      · rw [setup.hashIndex,Function.update_of_ne equal]
        exact ready.chained
      · rw [data_accessCount same]
        exact ready.labelled
  · intro ip
    obtain ⟨last,swept,reached,holds⟩ := valid.known ip
    have ordered : hashIndex m.table ip = k → last ≤ slotIndex := by
      intro equal
      rcases reached with sweep | ⟨c,member,own,before⟩
      · exact sweep.trans (timed.latest _)
      · exact before.trans (newest c member (own ▸ equal))
    have swept' := holds.sweep shape inside setup cleared others ordered
    unfold Known
    dsimp only
    rw [setup.hashIndex]
    by_cases equal : hashIndex m.table ip = k
    · rw [if_pos equal] at swept'
      rw [equal,Function.update_self]
      exact ⟨slotIndex,Int.le_refl _,.inl (Int.le_refl _),swept'⟩
    · rw [if_neg equal] at swept'
      rw [Function.update_of_ne equal]
      exact ⟨last,swept,reached,swept'⟩

theorem act_whole (valid : Whole m chains limbo pool) (ticking : Ticking m part) (harmless : Harmless m part) :
    ∃ chains' limbo' pool', Whole (act m part) chains' limbo' pool' := by
  cases part with
  | readHead now address =>
      obtain ⟨ordered,representable⟩ := ticking now rfl
      cases call : m.call with
      | idle =>
          simp only [act,call]
          exact ⟨_,_,_,readHead_whole valid call now address ordered representable⟩
      | reading reading => exact ⟨_,_,_,by simpa only [act,call] using valid⟩
      | counting reading e => exact ⟨_,_,_,by simpa only [act,call] using valid⟩
  | lockedBody now =>
      cases call : m.call with
      | idle => exact ⟨_,_,_,by simpa only [act,call] using valid⟩
      | reading reading =>
          obtain ⟨chains',pool',next⟩ := lockedBody_whole valid call now (ticking now rfl).1 harmless
          simp only [act,call]
          exact ⟨chains',limbo,pool',next⟩
      | counting reading e => exact ⟨_,_,_,by simpa only [act,call] using valid⟩
  | increment =>
      cases call : m.call with
      | idle => exact ⟨_,_,_,by simpa only [act,call] using valid⟩
      | reading reading => exact ⟨_,_,_,by simpa only [act,call] using valid⟩
      | counting reading e => exact ⟨_,_,_,(increment_whole valid call).1⟩
  | wake now =>
      obtain ⟨ordered,representable⟩ := ticking now rfl
      cases pass : m.pass with
      | resting => exact ⟨_,_,_,wake_whole valid pass now ordered representable⟩
      | sweeping index slotIndex todo => exact ⟨_,_,_,by simpa only [act,pass] using valid⟩
      | releasing index slotIndex freeList todo => exact ⟨_,_,_,by simpa only [act,pass] using valid⟩
  | sweepBucket =>
      cases pass : m.pass with
      | resting => exact ⟨_,_,_,by simpa only [act,pass] using valid⟩
      | sweeping index slotIndex todo =>
          cases todo with
          | nil =>
              have shape := valid.shape
              have timing := valid.timing
              rw [pass] at shape
              simp only [act,pass]
              refine ⟨chains,limbo,pool,shape.keep ⟨rfl,rfl⟩ rfl rfl rfl fun _ => ⟨rfl,rfl⟩,
                ⟨timing.frequency,timing.started,timing.past,timing.sweeps,trivial⟩,?_,valid.known⟩
              exact valid.call.keep ⟨rfl,rfl⟩ (Int.le_refl _) rfl
                (fun _ _ _ _ ready => ⟨ready.chained,ready.address,ready.tracks,ready.labelled,ready.spared⟩)
          | cons k todo =>
              obtain ⟨chains',limbo',next⟩ := sweepBucket_whole valid pass harmless
              exact ⟨chains',limbo',pool,next⟩
      | releasing index slotIndex freeList todo => exact ⟨_,_,_,by simpa only [act,pass] using valid⟩
  | freeEntry =>
      cases pass : m.pass with
      | resting => exact ⟨_,_,_,by simpa only [act,pass] using valid⟩
      | sweeping index slotIndex todo => exact ⟨_,_,_,by simpa only [act,pass] using valid⟩
      | releasing index slotIndex freeList todo =>
          obtain ⟨limbo',pool',next⟩ := freeEntry_whole valid pass
          exact ⟨chains,limbo',pool',next⟩

theorem Whole.finishes (valid : Whole m chains limbo pool) : Finishes m := by
  intro reading e due
  obtain ⟨after,tracks⟩ := increment_whole valid due
  have sound := valid.call
  rw [due] at sound
  obtain ⟨dated,ready⟩ := sound
  have shape := after.shape
  have setup : SameSetup m.table (act m .increment).table := by simpa only [act,due] using ⟨rfl,rfl⟩
  have calls : (act m .increment).calls = m.calls ++ [(reading.ip,reading.slotIndex)] := by simp only [act,due]
  have address : ((act m .increment).table.memory e).ipaddr = reading.ip := by
    simpa [act,due] using ready.address
  have within := hashIndex_inRange shape.sized reading.ip
  have member : e ∈ chains (hashIndex (act m .increment).table reading.ip) := by
    rw [setup.hashIndex]
    exact ready.chained
  refine ⟨⟨_,shape.linked _ within,member⟩,⟨pool,shape.pooled,(shape.chained _ within e member).2.1⟩,address,?_⟩
  have seen : ∀ s ∈ slotsSeen (act m .increment).calls reading.ip,
      s = reading.slotIndex ∨ s ∈ slotsSeen m.calls reading.ip := by
    intro s member
    rw [calls] at member
    rcases List.mem_append.mp (mem_slotsSeen.mp member) with old | new
    · exact .inr (mem_slotsSeen.mpr old)
    · cases List.mem_singleton.mp new
      exact .inl rfl
  have latest : ∀ s ∈ slotsSeen (act m .increment).calls reading.ip, s ≤ reading.slotIndex := by
    intro s member
    rcases seen s member with rfl | old
    · exact Int.le_refl _
    · exact dated.latest _ (mem_slotsSeen.mp old)
  rw [← ready.spared.window latest seen,← sum_count]
  exact tracks.counter

theorem start_whole (memory : Nat → IpAccessEntry) (sized : 0 < hashSize.toInt)
    (positive : 0 < (monitorPeriod / 12).toInt) :
    Whole (start hashSize monitorPeriod memory) (fun _ => []) [] [] := by
  refine ⟨⟨sized,fun _ _ => rfl,rfl,rfl,by simp,by simp,by simp,by simp,by simp,?_⟩,
    ⟨positive,Int.le_refl _,by simp [start],fun k => ⟨Int.le_refl _,?_⟩,trivial⟩,trivial,?_⟩
  · intro e below
    exact absurd below (Nat.not_lt_zero e)
  · exact Int.le_of_eq (Int.zero_ediv _).symm
  · intro ip
    exact ⟨0,Int.le_refl _,.inl (Int.le_refl _),.inr ⟨by simp,fun s _ => by simp [start,countsOf,slotsSeen]⟩⟩

-- Over every interleaving that keeps to the condition, each call of
-- find_and_increase ends with its entry in place and nothing lost.
theorem no_access_lost (hashSize monitorPeriod : Int32) (memory : Nat → IpAccessEntry) (sized : 0 < hashSize.toInt)
    (positive : 0 < (monitorPeriod / 12).toInt) (parts : List Section)
    (ticking : Machine.Along act Ticking (start hashSize monitorPeriod memory) parts)
    (harmless : Machine.Along act Harmless (start hashSize monitorPeriod memory) parts) :
    ∀ earlier later, parts = earlier ++ later →
      Finishes (Machine.run act (start hashSize monitorPeriod memory) earlier) := by
  rintro earlier later rfl
  have along := Machine.along_and ((Machine.along_append earlier later).mp ticking).1
    ((Machine.along_append earlier later).mp harmless).1
  obtain ⟨chains,limbo,pool,valid⟩ := Machine.run_invariant (fun m => ∃ chains limbo pool, Whole m chains limbo pool)
    ⟨_,_,_,start_whole memory sized positive⟩
    (fun m part ⟨_,_,_,valid⟩ ⟨ticking,harmless⟩ => act_whole valid ticking harmless) earlier along
  exact valid.finishes

-- The second call reads the head before the sweep of its bucket and takes the
-- lock after it; the entry has been counted and stays.
theorem no_access_lost_around_sweep :
    let blank : IpAccessEntry := ⟨0,fun _ => ⟨0,0⟩,0,0,⟨0,0⟩,none⟩
    let parts : List Section := [.readHead ⟨3,0⟩ 5,.lockedBody ⟨3,0⟩,.increment,
      .readHead ⟨14,0⟩ 5,.wake ⟨14,0⟩,.sweepBucket,.lockedBody ⟨14,0⟩,.freeEntry]
    Finishes (Machine.run act (start 1 120 fun _ => blank) parts) ∧
      ((Machine.run act (start 1 120 fun _ => blank) (parts ++ [.increment])).table.memory 0).counter = 2 := by
  intro blank parts
  have ticking : Machine.Along act Ticking (start 1 120 fun _ => blank) parts := by decide +kernel
  have harmless : Machine.Along act Harmless (start 1 120 fun _ => blank) parts := by decide +kernel
  have finishes := no_access_lost 1 120 (fun _ => blank) (by decide) (by decide) parts ticking harmless
  refine ⟨finishes parts [] (List.append_nil parts).symm,?_⟩
  decide +kernel

theorem not_finishes (due : m.call = .counting reading e)
    (empty : (act m .increment).table.entries (hashIndex (act m .increment).table reading.ip) = none) :
    ¬ Finishes m := by
  intro finishes
  obtain ⟨chain,linked,member⟩ := (finishes reading e due).chained
  rw [empty] at linked
  rw [links_none linked] at member
  cases member

-- A new entry is visible with its counter at zero, which is what a sweep frees.
theorem swept_before_increment :
    ¬ Finishes (Machine.run act (start 1 120 fun _ => ⟨0,fun _ => ⟨0,0⟩,0,0,⟨0,0⟩,none⟩)
      [.readHead ⟨3,0⟩ 5,.lockedBody ⟨3,0⟩,.wake ⟨3,0⟩,.sweepBucket,.freeEntry]) :=
  @not_finishes _ ⟨htonl 5,none,0,0⟩ 0 (by decide +kernel) (by decide +kernel)

end TcpProxy.AutoBlacklist
