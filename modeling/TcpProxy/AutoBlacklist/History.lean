import TcpProxy.Lib.Run
import TcpProxy.AutoBlacklist.Sweep

namespace TcpProxy.AutoBlacklist
open LinkedChain SlidingWindow

variable {t : Table} {chains : Int → List Nat} {freeList : Option Nat} {limbo pool : List Nat}

-- The body under the lock either finds the address in its chain or puts a new
-- node in front of it; the node it ends with has been brought up to date.
theorem lockedBody_cases (shape : Shape t chains freeList limbo pool) (now : Timeval) (reading : Reading)
    (same : findIp t.memory reading.ip t.allocated reading.entry =
      findIp t.memory reading.ip t.allocated (t.entries (hashIndex t reading.ip))) :
    ∃ chains' pool',
      Shape (lockedBody t now reading).2 chains' freeList limbo pool' ∧
      SameSetup t (lockedBody t now reading).2 ∧
      (∀ a, a ≠ (lockedBody t now reading).1 → (lockedBody t now reading).2.memory a = t.memory a) ∧
      (((lockedBody t now reading).1 ∈ chains (hashIndex t reading.ip) ∧
        (t.memory (lockedBody t now reading).1).ipaddr = reading.ip ∧ chains' = chains ∧
        (lockedBody t now reading).2.memory (lockedBody t now reading).1 =
          refresh (t.memory (lockedBody t now reading).1) reading.index reading.slotIndex) ∨
      ((∀ a ∈ chains (hashIndex t reading.ip), (t.memory a).ipaddr ≠ reading.ip) ∧
        (∀ k, t.InRange k → (lockedBody t now reading).1 ∉ chains k) ∧
        chains' = Function.update chains (hashIndex t reading.ip)
          ((lockedBody t now reading).1 :: chains (hashIndex t reading.ip)) ∧
        (lockedBody t now reading).2.memory (lockedBody t now reading).1 =
          refresh ⟨reading.ip,fun _ => ⟨0,0⟩,0,0,now,t.entries (hashIndex t reading.ip)⟩
            reading.index reading.slotIndex)) := by
  have inside := hashIndex_inRange shape.sized reading.ip
  have search := findIp_links t.memory reading.ip _ t.allocated (shape.linked _ inside) (shape.chain_length inside)
  unfold lockedBody
  rw [same,search]
  cases found : (chains (hashIndex t reading.ip)).find? (fun e => (t.memory e).ipaddr == reading.ip) with
  | some e =>
      have member := List.mem_of_find?_eq_some found
      have address : (t.memory e).ipaddr = reading.ip := by simpa using List.find?_some found
      refine ⟨chains,pool,shape.setEntry e _ (by simp) (by simp),⟨rfl,rfl⟩,
        fun a different => setEntry_other t _ different,.inl ⟨member,address,rfl,by simp⟩⟩
  | none =>
      have absent : ∀ a ∈ chains (hashIndex t reading.ip), (t.memory a).ipaddr ≠ reading.ip := by
        intro a member
        simpa using List.find?_eq_none.mp found a member
      obtain ⟨rest,after,fresh,others,outside,setup⟩ := insertNew_shape shape now reading.ip absent
      refine ⟨_,rest,after.setEntry _ _ (by simp) (by simp),⟨setup.size,setup.frequency⟩,?_,
        .inr ⟨absent,outside,rfl,?_⟩⟩
      · intro a different
        rw [setEntry_other _ _ different]
        exact others a different
      · simp only [setEntry_self,fresh]

inductive Operation where
  | findAndIncrease (now : Timeval) (address : UInt32)
  | expiring (now : Timeval)

def Operation.now : Operation → Timeval
  | .findAndIncrease now _ => now
  | .expiring now => now

def operate (t : Table) : Operation → Table
  | .findAndIncrease now address => (findAndIncrease t now address).2
  | .expiring now => expiring t now

def slotsOf (frequency : Int) (ip : UInt32) (ops : List Operation) : List Int :=
  ops.filterMap fun
    | .findAndIncrease now address => if htonl address = ip then some (now.sec / frequency) else none
    | .expiring _ => none

def accesses (frequency : Int) (ip : UInt32) (ops : List Operation) (s : Int) : Nat :=
  (slotsOf frequency ip ops).count s

structure Timely (frequency : Int) (ops : List Operation) : Prop where
  ordered : ops.Pairwise fun one two => one.now.sec ≤ two.now.sec
  started : ∀ op ∈ ops, 0 ≤ op.now.sec
  representable : ∀ op ∈ ops, op.now.sec / frequency < 2^31

theorem currentTimeIndex_eq (positive : 0 < t.frequencyInSeconds.toInt) (started : 0 ≤ now)
    (representable : now / t.frequencyInSeconds.toInt < 2^31) :
    currentTimeIndex t now = (now / t.frequencyInSeconds.toInt % 12,now / t.frequencyInSeconds.toInt) := by
  have nonneg : 0 ≤ now / t.frequencyInSeconds.toInt := Int.ediv_nonneg started (Int.le_of_lt positive)
  have quotient : now.tdiv t.frequencyInSeconds.toInt = now / t.frequencyInSeconds.toInt :=
    Int.tdiv_eq_ediv_of_nonneg started
  unfold currentTimeIndex
  rw [quotient,toInt32_eq (by omega) representable]
  simp only [reservedEntry,Nat.cast_ofNat]
  rw [Int.tmod_eq_emod_of_nonneg nonneg]

theorem Tracks.of_counts (valid : Tracks one counts last) (slots : one.accessCount = two.accessCount)
    (total : one.counter = two.counter) : Tracks two counts last := by
  refine ⟨⟨?_,?_⟩,?_,?_,?_,valid.future⟩
  · rw [← total,← slots]; exact valid.balanced.total
  · rw [← slots]; exact valid.balanced.nonneg
  · rw [← slots]; exact valid.dated
  · rw [← slots]; exact valid.held
  · rw [← slots]; exact valid.complete

theorem Tracks.of_data (valid : Tracks one counts last) (same : IpAccessEntry.data one = IpAccessEntry.data two) :
    Tracks two counts last := valid.of_counts (data_accessCount same) (data_counter same)

-- What the table holds of one address: its node, up to date at slot `last`, or
-- no node and no access in the window that ended there.
def Holds (t : Table) (chains : Int → List Nat) (ip : UInt32) (counts : Int → Nat) (last : Int) : Prop :=
  (∃ e ∈ chains (hashIndex t ip), (t.memory e).ipaddr = ip ∧ Tracks (t.memory e) counts last) ∨
    ((∀ e ∈ chains (hashIndex t ip), (t.memory e).ipaddr ≠ ip) ∧ ∀ s, last-12 < s → counts s = 0)

theorem Holds.future (holds : Holds t chains ip counts last) (s : Int) (after : last < s) : counts s = 0 := by
  rcases holds with ⟨_,_,_,tracks⟩ | ⟨_,quiet⟩
  · exact tracks.future s after
  · exact quiet s (by omega)

theorem Holds.of_counts (holds : Holds t chains ip counts last) (setup : SameSetup t next)
    (address : ∀ e, (next.memory e).ipaddr = (t.memory e).ipaddr)
    (slots : ∀ e, (next.memory e).accessCount = (t.memory e).accessCount)
    (counter : ∀ e, (next.memory e).counter = (t.memory e).counter) : Holds next chains ip counts last := by
  unfold Holds
  rw [setup.hashIndex]
  rcases holds with ⟨e,member,addressAt,tracks⟩ | ⟨absent,quiet⟩
  · exact .inl ⟨e,member,(address e).trans addressAt,tracks.of_counts (slots e).symm (counter e).symm⟩
  · exact .inr ⟨fun e member => by rw [address]; exact absent e member,quiet⟩

theorem Holds.setEntry (holds : Holds t chains ip counts last) (own : (t.memory e).ipaddr ≠ ip)
    (address : entry.ipaddr = (t.memory e).ipaddr) : Holds (t.setEntry e entry) chains ip counts last := by
  have setup : SameSetup t (t.setEntry e entry) := ⟨rfl,rfl⟩
  unfold Holds
  rw [setup.hashIndex]
  rcases holds with ⟨a,member,addressAt,tracks⟩ | ⟨absent,quiet⟩
  · have different : a ≠ e := fun equal => own (equal ▸ addressAt)
    rw [← setEntry_other t entry different] at addressAt tracks
    exact .inl ⟨a,member,addressAt,tracks⟩
  · refine .inr ⟨fun a member => ?_,quiet⟩
    by_cases equal : a = e
    · subst a
      rw [setEntry_self,address]
      exact own
    · rw [setEntry_other t entry equal]
      exact absent a member

theorem lockedBody_holds (shape : Shape t chains freeList limbo pool) (now : Timeval) (reading : Reading)
    (same : findIp t.memory reading.ip t.allocated reading.entry =
      findIp t.memory reading.ip t.allocated (t.entries (hashIndex t reading.ip))) :
    ∃ chains' pool', let body := lockedBody t now reading
      Shape body.2 chains' freeList limbo pool' ∧ SameSetup t body.2 ∧
      body.1 ∈ chains' (hashIndex t reading.ip) ∧ (body.2.memory body.1).ipaddr = reading.ip ∧
      (∀ counts last, Holds t chains reading.ip counts last → 0 ≤ last → last-12 < reading.slotIndex →
        (∀ s, reading.slotIndex < s → counts s = 0) → reading.index = (reading.slotIndex % 12).toNat →
        Tracks (body.2.memory body.1) counts (max last reading.slotIndex) ∧
          ((body.2.memory body.1).accessCount reading.index).slotIndex = reading.slotIndex) ∧
      ∀ ip counts last, ip ≠ reading.ip → Holds t chains ip counts last → Holds body.2 chains' ip counts last := by
  have inside := hashIndex_inRange shape.sized reading.ip
  obtain ⟨chains',pool',after,setup,others,outcome⟩ := lockedBody_cases shape now reading same
  refine ⟨chains',pool',?_⟩
  generalize lockedBody t now reading = body at *
  obtain ⟨e,middle⟩ := body
  dsimp only at after setup others outcome ⊢
  have address : (middle.memory e).ipaddr = reading.ip := by
    rcases outcome with ⟨_,addressAt,_,memoryAt⟩ | ⟨_,_,_,memoryAt⟩
    · simpa [memoryAt] using addressAt
    · simp [memoryAt]
  refine ⟨after,setup,?_,address,?_,?_⟩
  · rcases outcome with ⟨member,_,rfl,_⟩ | ⟨_,_,rfl,_⟩
    · exact member
    · simp
  · intro counts last holds low current quiet index
    rw [index] at outcome ⊢
    rcases outcome with ⟨member,addressAt,_,memoryAt⟩ | ⟨absent,_,_,memoryAt⟩
    · rcases holds with ⟨a,inChain,sameAddress,tracks⟩ | ⟨missing,_⟩
      · obtain rfl : a = e := shape.address_unique inside inChain member
          (sameAddress.trans addressAt.symm)
        rw [memoryAt]
        exact tracks.refresh_any current quiet
      · exact absurd addressAt (missing e member)
    · rcases holds with ⟨a,inChain,sameAddress,_⟩ | ⟨_,absentLately⟩
      · exact absurd sameAddress (absent a inChain)
      · rw [memoryAt]
        exact (tracks_new reading.ip now _ low absentLately).refresh_any current quiet
  · intro ip counts last different holds
    have within := hashIndex_inRange shape.sized ip
    unfold Holds
    rw [setup.hashIndex]
    have apart : ∀ a ∈ chains (hashIndex t ip), (t.memory a).ipaddr = ip → a ≠ e := by
      rintro a member sameAddress rfl
      rcases outcome with ⟨_,own,_⟩ | ⟨_,outside,_⟩
      · exact different (sameAddress.symm.trans own)
      · exact outside _ within member
    have members : ∀ a, a ≠ e → (a ∈ chains' (hashIndex t ip) ↔ a ∈ chains (hashIndex t ip)) := by
      intro a notNew
      rcases outcome with ⟨_,_,rfl,_⟩ | ⟨_,_,rfl,_⟩
      · rfl
      · rw [mem_update_cons]
        exact or_iff_right fun first => notNew first.2
    rcases holds with ⟨a,member,sameAddress,tracks⟩ | ⟨absent,quiet⟩
    · have notNew := apart a member sameAddress
      rw [← others a notNew] at sameAddress tracks
      exact .inl ⟨a,(members a notNew).mpr member,sameAddress,tracks⟩
    · refine .inr ⟨fun a member => ?_,quiet⟩
      by_cases equal : a = e
      · subst a
        rw [address]
        exact different.symm
      · rw [others a equal]
        exact absent a ((members a equal).mp member)

theorem Holds.sweep (holds : Holds t chains ip counts last) (shape : Shape t chains freeList limbo pool)
    (inside : t.InRange k) (setup : SameSetup t next)
    (cleared : ∀ e ∈ chains k, (next.memory e).data = (clearOutdatedData (t.memory e) (slot % 12).toNat slot).data)
    (others : ∀ e, e ∉ chains k → (next.memory e).data = (t.memory e).data)
    (ordered : hashIndex t ip = k → last ≤ slot) :
    Holds next (Function.update chains k ((chains k).filter fun e => ¬ Expires (slot % 12).toNat slot t e))
      ip counts (if hashIndex t ip = k then slot else last) := by
  have within := hashIndex_inRange shape.sized ip
  have address : ∀ e, (next.memory e).ipaddr = (t.memory e).ipaddr := by
    intro e
    by_cases member : e ∈ chains k
    · exact (data_ipaddr (cleared e member)).trans (by simp)
    · exact data_ipaddr (others e member)
  unfold Holds
  rw [setup.hashIndex]
  by_cases equal : hashIndex t ip = k
  · subst k
    rw [Function.update_self,if_pos rfl]
    rcases holds with ⟨e,member,addressAt,tracks⟩ | ⟨absent,quiet⟩
    · have current := tracks.clear (ordered rfl)
      by_cases expires : Expires (slot % 12).toNat slot t e
      · -- The node leaves the chain, and with it the only one of this address.
        refine .inr ⟨?_,fun s low => current.quiet expires s low⟩
        intro a present sameAddress
        obtain ⟨old,alive⟩ := List.mem_filter.mp present
        have same : a = e := shape.address_unique inside old member
          (((address a).symm.trans sameAddress).trans addressAt.symm)
        subst a
        exact absurd expires (by simpa using alive)
      · exact .inl ⟨e,List.mem_filter.mpr ⟨member,by simpa using expires⟩,(address e).trans addressAt,
          current.of_data (cleared e member).symm⟩
    · have reached := ordered rfl
      refine .inr ⟨?_,fun s low => quiet s (by omega)⟩
      intro a present
      rw [address]
      exact absent a (List.mem_filter.mp present).1
  · rw [Function.update_of_ne equal,if_neg equal]
    have apart : ∀ e ∈ chains (hashIndex t ip), e ∉ chains k :=
      fun e left right => equal (shape.chain_apart within inside left right)
    rcases holds with ⟨e,member,addressAt,tracks⟩ | ⟨absent,quiet⟩
    · exact .inl ⟨e,member,(address e).trans addressAt,tracks.of_data (others e (apart e member)).symm⟩
    · exact .inr ⟨fun e member => by rw [address]; exact absent e member,quiet⟩

def Knows (t : Table) (chains : Int → List Nat) (ip : UInt32) (counts : Int → Nat) (clock : Int) : Prop :=
  ∃ last, 0 ≤ last ∧ last ≤ clock ∧ Holds t chains ip counts last

theorem Knows.later (known : Knows t chains ip counts clock) (ordered : clock ≤ slot) :
    Knows t chains ip counts slot := by
  obtain ⟨last,nonneg,before,state⟩ := known
  exact ⟨last,nonneg,by omega,state⟩

def Exact (frequency : Int) (ops : List Operation) (clock : Int) (t : Table) : Prop :=
  ∃ chains pool, Shape t chains none [] pool ∧ ∀ ip, Knows t chains ip (accesses frequency ip ops) clock

theorem sweep_exact (slot : Int) (todo : List Int) (inside : ∀ k ∈ todo, t.InRange k)
    (precise : Exact frequency ops slot t) :
    Exact frequency ops slot (todo.foldl (sweepBucket (slot % 12).toNat slot) t) ∧
      SameSetup t (todo.foldl (sweepBucket (slot % 12).toNat slot) t) := by
  induction todo generalizing t with
  | nil => exact ⟨precise,SameSetup.refl t⟩
  | cons k rest ih =>
      obtain ⟨chains,pool,shape,known⟩ := precise
      have here := inside k (by simp)
      obtain ⟨⟨released,after⟩,setup,cleared,others⟩ := sweepBucket_spec (slot % 12).toNat slot shape here
      have one : Exact frequency ops slot (sweepBucket (slot % 12).toNat slot t k) := by
        refine ⟨_,released,after,fun ip => ?_⟩
        obtain ⟨last,nonneg,before,holds⟩ := known ip
        refine ⟨_,?_,?_,holds.sweep shape here setup cleared others (fun _ => before)⟩
        · split <;> omega
        · split <;> omega
      obtain ⟨whole,same⟩ := ih (fun j member => setup.inRange.mpr (inside j (by simp [member]))) one
      exact ⟨whole,setup.trans same⟩

theorem accesses_expiring (frequency : Int) (ip : UInt32) (ops : List Operation) (now : Timeval) :
    accesses frequency ip (ops ++ [.expiring now]) = accesses frequency ip ops := by
  funext s
  simp [accesses,slotsOf]

theorem accesses_own (frequency : Int) (ops : List Operation) (now : Timeval) (address : UInt32) :
    accesses frequency (htonl address) (ops ++ [.findAndIncrease now address]) =
      Function.update (accesses frequency (htonl address) ops) (now.sec / frequency)
        (accesses frequency (htonl address) ops (now.sec / frequency) + 1) := by
  funext s
  by_cases equal : s = now.sec / frequency
  · subst s; simp [accesses,slotsOf]
  · have different : ¬ now.sec / frequency = s := fun same => equal same.symm
    simp [accesses,slotsOf,Function.update_of_ne equal,different]

theorem accesses_other (frequency : Int) (ops : List Operation) (now : Timeval) (address ip : UInt32)
    (different : htonl address ≠ ip) :
    accesses frequency ip (ops ++ [.findAndIncrease now address]) = accesses frequency ip ops := by
  funext s
  simp [accesses,slotsOf,different]

theorem findAndIncrease_exact (positive : 0 < t.frequencyInSeconds.toInt) (started : 0 ≤ now.sec)
    (representable : now.sec / t.frequencyInSeconds.toInt < 2^31)
    (precise : Exact t.frequencyInSeconds.toInt ops (now.sec / t.frequencyInSeconds.toInt) t) (address : UInt32) :
    Exact t.frequencyInSeconds.toInt (ops ++ [.findAndIncrease now address])
      (now.sec / t.frequencyInSeconds.toInt) (findAndIncrease t now address).2 ∧
    SameSetup t (findAndIncrease t now address).2 ∧
    ((findAndIncrease t now address).2.memory (findAndIncrease t now address).1).ipaddr = htonl address ∧
    Tracks ((findAndIncrease t now address).2.memory (findAndIncrease t now address).1)
      (accesses t.frequencyInSeconds.toInt (htonl address) (ops ++ [.findAndIncrease now address]))
      (now.sec / t.frequencyInSeconds.toInt) := by
  obtain ⟨chains,pool,shape,known⟩ := precise
  have time := currentTimeIndex_eq positive started representable
  have own := accesses_own t.frequencyInSeconds.toInt ops now address
  generalize slotAt : now.sec / t.frequencyInSeconds.toInt = slot at *
  have nonneg : 0 ≤ slot := slotAt ▸ Int.ediv_nonneg started (Int.le_of_lt positive)
  have readingAt : readHead t now address =
      ⟨htonl address,t.entries (hashIndex t (htonl address)),(slot % 12).toNat,slot⟩ := by
    simp only [readHead,time]
  obtain ⟨chains',pool',after,setup,chained,addressAt,mine,others⟩ := lockedBody_holds shape now
    (readHead t now address) (by rw [readingAt])
  unfold findAndIncrease
  rw [readingAt] at chained addressAt mine others after setup ⊢
  dsimp only at chained addressAt mine others after setup ⊢
  generalize lockedBody t now _ = body at *
  obtain ⟨e,middle⟩ := body
  dsimp only at chained addressAt mine others after setup ⊢
  -- The node ends up to date at this slot with everything seen before the call.
  obtain ⟨last,low,high,state⟩ := known (htonl address)
  obtain ⟨tracks,current⟩ := mine _ last state low (by omega) (fun s later => state.future s (by omega)) rfl
  rw [max_eq_right high] at tracks
  have counted := tracks.countAccess (by omega) (Int.le_refl _) current
  rw [← own] at counted
  have setup' : SameSetup t (middle.setEntry e (countAccess (middle.memory e) (slot % 12).toNat)) :=
    ⟨setup.size,setup.frequency⟩
  refine ⟨⟨chains',pool',after.setEntry e _ (by simp) (by simp),?_⟩,setup',by simpa using addressAt,
    by simpa using counted⟩
  intro ip
  by_cases equal : ip = htonl address
  · subst ip
    refine ⟨slot,nonneg,Int.le_refl _,.inl ⟨e,?_,by simpa using addressAt,by simpa using counted⟩⟩
    rw [setup'.hashIndex]
    exact chained
  · rw [accesses_other _ _ _ _ _ (fun same => equal same.symm)]
    obtain ⟨last,low,high,state⟩ := known ip
    exact ⟨last,low,high,(others ip _ last equal state).setEntry
      (fun same => equal (same.symm.trans addressAt)) (by simp)⟩

theorem Exact.later (precise : Exact frequency ops clock t) (ordered : clock ≤ slot) : Exact frequency ops slot t := by
  obtain ⟨chains,pool,shape,known⟩ := precise
  exact ⟨chains,pool,shape,fun ip => (known ip).later ordered⟩

theorem expiring_exact (positive : 0 < t.frequencyInSeconds.toInt) (started : 0 ≤ now.sec)
    (representable : now.sec / t.frequencyInSeconds.toInt < 2^31)
    (precise : Exact t.frequencyInSeconds.toInt ops (now.sec / t.frequencyInSeconds.toInt) t) :
    Exact t.frequencyInSeconds.toInt (ops ++ [.expiring now]) (now.sec / t.frequencyInSeconds.toInt)
      (expiring t now) ∧ SameSetup t (expiring t now) := by
  have time := currentTimeIndex_eq positive started representable
  generalize now.sec / t.frequencyInSeconds.toInt = slot at *
  have swept := sweep_exact slot (buckets t) (fun k => mem_buckets.mp) precise
  unfold Exact
  simp only [accesses_expiring,expiring,time]
  split
  · obtain ⟨⟨chains,pool,shape,known⟩,setup⟩ := swept
    exact ⟨⟨chains,pool,shape.keep ⟨rfl,rfl⟩ rfl rfl rfl fun _ => ⟨rfl,rfl⟩,known⟩,setup.size,setup.frequency⟩
  · exact ⟨precise,SameSetup.refl t⟩

theorem operate_exact (positive : 0 < t.frequencyInSeconds.toInt) (op : Operation) (started : 0 ≤ op.now.sec)
    (representable : op.now.sec / t.frequencyInSeconds.toInt < 2^31)
    (precise : Exact t.frequencyInSeconds.toInt ops (op.now.sec / t.frequencyInSeconds.toInt) t) :
    Exact t.frequencyInSeconds.toInt (ops ++ [op]) (op.now.sec / t.frequencyInSeconds.toInt) (operate t op) ∧
      SameSetup t (operate t op) := by
  cases op with
  | findAndIncrease now address =>
      obtain ⟨after,same,_,_⟩ := findAndIncrease_exact positive started representable precise address
      exact ⟨after,same⟩
  | expiring now => exact expiring_exact positive started representable precise

theorem new_exact (hashSize monitorPeriod : Int32) (memory : Nat → IpAccessEntry) (sized : 0 < hashSize.toInt)
    (nonneg : 0 ≤ clock) : Exact frequency [] clock (newAutoBlacklistService hashSize monitorPeriod memory) := by
  refine ⟨fun _ => [],[],⟨sized,fun _ _ => rfl,rfl,rfl,by simp,by simp,by simp,by simp,by simp,?_⟩,?_⟩
  · intro e below
    exact absurd below (Nat.not_lt_zero e)
  · intro ip
    exact ⟨clock,nonneg,Int.le_refl _,.inr ⟨by simp,fun s _ => by simp [accesses,slotsOf]⟩⟩

-- The rule for the runs of a timely clock: what holds after the operations up
-- to a slot, is kept by the next one and does not depend on how late it is.
theorem run_timely {start : Table} (valid : List Operation → Int → Table → Prop)
    (positive : 0 < start.frequencyInSeconds.toInt) (initial : ∀ clock, 0 ≤ clock → valid [] clock start)
    (later : ∀ ops clock slot t, valid ops clock t → clock ≤ slot → valid ops slot t)
    (kept : ∀ ops op t, SameSetup start t → 0 ≤ op.now.sec → op.now.sec / start.frequencyInSeconds.toInt < 2^31 →
      valid ops (op.now.sec / start.frequencyInSeconds.toInt) t →
      valid (ops ++ [op]) (op.now.sec / start.frequencyInSeconds.toInt) (operate t op) ∧ SameSetup t (operate t op))
    (ops : List Operation) (timely : Timely start.frequencyInSeconds.toInt ops) (nonneg : 0 ≤ clock)
    (reached : ∀ op ∈ ops, op.now.sec / start.frequencyInSeconds.toInt ≤ clock) :
    valid ops clock (Machine.run operate start ops) ∧ SameSetup start (Machine.run operate start ops) := by
  induction ops using List.reverseRecOn generalizing clock with
  | nil => exact ⟨initial clock nonneg,SameSetup.refl _⟩
  | append_singleton earlier op ih =>
      have past := List.pairwise_append.mp timely.ordered
      have started := timely.started op (by simp)
      have before : ∀ one ∈ earlier, one.now.sec / start.frequencyInSeconds.toInt ≤
          op.now.sec / start.frequencyInSeconds.toInt := fun one member =>
        Int.ediv_le_ediv positive (past.2.2 one member op (by simp))
      obtain ⟨sound,setup⟩ := ih ⟨past.1,fun one member => timely.started one (by simp [member]),
        fun one member => timely.representable one (by simp [member])⟩
        (Int.ediv_nonneg started (Int.le_of_lt positive)) before
      rw [Machine.run_concat]
      obtain ⟨after,same⟩ := kept earlier op _ setup started (timely.representable op (by simp)) sound
      exact ⟨later _ _ _ _ after (reached op (by simp)),setup.trans same⟩

variable {hashSize monitorPeriod : Int32} (memory : Nat → IpAccessEntry)

theorem run_exact (sized : 0 < hashSize.toInt) (positive : 0 < (monitorPeriod / 12).toInt) (ops : List Operation)
    (timely : Timely (monitorPeriod / 12).toInt ops) (nonneg : 0 ≤ clock)
    (reached : ∀ op ∈ ops, op.now.sec / (monitorPeriod / 12).toInt ≤ clock) :
    Exact (monitorPeriod / 12).toInt ops clock
      (Machine.run operate (newAutoBlacklistService hashSize monitorPeriod memory) ops) ∧
    SameSetup (newAutoBlacklistService hashSize monitorPeriod memory)
      (Machine.run operate (newAutoBlacklistService hashSize monitorPeriod memory) ops) := by
  refine @run_timely clock (newAutoBlacklistService hashSize monitorPeriod memory) (Exact (monitorPeriod / 12).toInt)
    positive (fun _ nonneg => new_exact hashSize monitorPeriod memory sized nonneg)
    (fun _ _ _ _ valid ordered => valid.later ordered) ?_ ops timely nonneg reached
  intro earlier op t setup started representable valid
  have frequency : t.frequencyInSeconds.toInt = (monitorPeriod / 12).toInt := by rw [setup.frequency]; rfl
  change op.now.sec / (monitorPeriod / 12).toInt < 2^31 at representable
  change Exact _ _ (op.now.sec / (monitorPeriod / 12).toInt) t at valid
  change Exact _ _ (op.now.sec / (monitorPeriod / 12).toInt) _ ∧ _
  rw [← frequency] at positive representable valid ⊢
  exact operate_exact positive op started representable valid

def callsIn (frequency : Int) (address : UInt32) (low high : Int) (ops : List Operation) : Nat :=
  ops.countP fun
    | .findAndIncrease now other => other = address ∧ low ≤ now.sec / frequency ∧ now.sec / frequency ≤ high
    | .expiring _ => false

theorem callsIn_eq (frequency : Int) (address : UInt32) (low high : Int) (ops : List Operation) :
    callsIn frequency address low high ops =
      (slotsOf frequency (htonl address) ops).countP fun s => low-1 < s ∧ s ≤ high := by
  induction ops with
  | nil => rfl
  | cons op rest ih =>
      simp only [callsIn,slotsOf] at ih ⊢
      rw [List.countP_cons,ih]
      cases op with
      | expiring now => simp
      | findAndIncrease now other =>
          by_cases equal : other = address
          · subst other
            have shift : (low ≤ now.sec / frequency ∧ now.sec / frequency ≤ high) ↔
                (low-1 < now.sec / frequency ∧ now.sec / frequency ≤ high) := by omega
            simp [shift,List.countP_cons]
          · have different : htonl other ≠ htonl address := fun same => equal (htonl_injective _ _ same)
            simp [equal,different]

theorem exact_counts (positive : 0 < t.frequencyInSeconds.toInt) (started : 0 ≤ now.sec)
    (representable : now.sec / t.frequencyInSeconds.toInt < 2^31)
    (precise : Exact t.frequencyInSeconds.toInt ops (now.sec / t.frequencyInSeconds.toInt) t) (address : UInt32) :
    let slot := now.sec / t.frequencyInSeconds.toInt
    let found := findAndIncrease t now address
    (found.2.memory found.1).ipaddr = htonl address ∧
      (found.2.memory found.1).counter =
        callsIn t.frequencyInSeconds.toInt address (slot-11) slot (ops ++ [.findAndIncrease now address]) ∧
      ((found.2.memory found.1).accessCount (slot % 12).toNat).counter =
        callsIn t.frequencyInSeconds.toInt address slot slot (ops ++ [.findAndIncrease now address]) := by
  intro slot found
  obtain ⟨_,_,own,tracks⟩ := findAndIncrease_exact positive started representable precise address
  have nonneg : 0 ≤ slot := Int.ediv_nonneg started (Int.le_of_lt positive)
  rw [callsIn_eq,callsIn_eq]
  refine ⟨own,?_,?_⟩
  · rw [← sum_count,show slot-11-1 = slot-12 by omega]
    exact tracks.counter
  · have here := tracks.slot_counter (slot % 12).toNat (by omega)
    rw [latest_eq (by omega) (Int.le_refl _) _ (by push_cast; omega)] at here
    refine here.trans ?_
    unfold accesses List.count
    congr 1
    refine List.countP_congr fun s _ => ?_
    have single : (slot-1 < s ∧ s ≤ slot) ↔ s = slot := by omega
    simp only [beq_iff_eq,decide_eq_true_eq]
    exact single.symm

theorem find_counts (sized : 0 < hashSize.toInt) (positive : 0 < (monitorPeriod / 12).toInt)
    (ops : List Operation) (now : Timeval) (address : UInt32)
    (timely : Timely (monitorPeriod / 12).toInt (ops ++ [.findAndIncrease now address])) :
    let slot := now.sec / (monitorPeriod / 12).toInt
    let found := findAndIncrease
      (Machine.run operate (newAutoBlacklistService hashSize monitorPeriod memory) ops) now address
    (found.2.memory found.1).ipaddr = htonl address ∧
      (found.2.memory found.1).counter =
        callsIn (monitorPeriod / 12).toInt address (slot-11) slot (ops ++ [.findAndIncrease now address]) ∧
      ((found.2.memory found.1).accessCount (slot % 12).toNat).counter =
        callsIn (monitorPeriod / 12).toInt address slot slot (ops ++ [.findAndIncrease now address]) := by
  intro slot found
  have past := List.pairwise_append.mp timely.ordered
  have started : 0 ≤ now.sec := timely.started (.findAndIncrease now address) (by simp)
  have representable : slot < 2^31 := timely.representable (.findAndIncrease now address) (by simp)
  obtain ⟨valid,setup⟩ := run_exact memory sized positive ops
    ⟨past.1,fun one member => timely.started one (by simp [member]),
      fun one member => timely.representable one (by simp [member])⟩
    (Int.ediv_nonneg started (Int.le_of_lt positive))
    (fun one member => Int.ediv_le_ediv positive (past.2.2 one member (.findAndIncrease now address) (by simp)))
  have frequency : (Machine.run operate (newAutoBlacklistService hashSize monitorPeriod memory)
      ops).frequencyInSeconds.toInt = (monitorPeriod / 12).toInt := by rw [setup.frequency]; rfl
  have spec := exact_counts (by rw [frequency]; exact positive) started (by rw [frequency]; exact representable)
    (by rw [frequency]; exact valid) address
  rw [frequency] at spec
  exact spec

def Operation.isCall : Operation → Bool
  | .findAndIncrease _ _ => true
  | .expiring _ => false

theorem callsIn_calls (frequency : Int) (address : UInt32) (low high : Int) (ops : List Operation) :
    callsIn frequency address low high (ops.filter Operation.isCall) = callsIn frequency address low high ops := by
  unfold callsIn
  rw [List.countP_filter]
  refine List.countP_congr fun op _ => ?_
  cases op <;> simp [Operation.isCall]

theorem Timely.sublist (timely : Timely frequency ops) (part : List.Sublist fewer ops) : Timely frequency fewer :=
  ⟨timely.ordered.sublist part,fun op member => timely.started op (part.subset member),
    fun op member => timely.representable op (part.subset member)⟩

variable (hashSize monitorPeriod) in
theorem sliding_window_exact (sized : 0 < hashSize.toInt) (positive : 0 < (monitorPeriod / 12).toInt)
    (ops : List Operation) (now : Timeval) (address : UInt32)
    (timely : Timely (monitorPeriod / 12).toInt (ops ++ [.findAndIncrease now address])) :
    let slot := now.sec / (monitorPeriod / 12).toInt
    let after := fun ops => findAndIncrease
      (Machine.run operate (newAutoBlacklistService hashSize monitorPeriod memory) ops) now address
    let entry := (after ops).2.memory (after ops).1
    let unswept := (after (ops.filter Operation.isCall)).2.memory (after (ops.filter Operation.isCall)).1
    entry.ipaddr = htonl address ∧
    entry.counter =
      callsIn (monitorPeriod / 12).toInt address (slot-11) slot (ops ++ [.findAndIncrease now address]) ∧
    (entry.accessCount (slot % 12).toNat).counter =
      callsIn (monitorPeriod / 12).toInt address slot slot (ops ++ [.findAndIncrease now address]) ∧
    entry.counter = unswept.counter := by
  intro slot after entry unswept
  have counts := find_counts memory sized positive ops now address timely
  refine ⟨counts.1,counts.2.1,counts.2.2,?_⟩
  have part : List.Sublist (ops.filter Operation.isCall ++ [.findAndIncrease now address])
      (ops ++ [.findAndIncrease now address]) := List.filter_sublist.append_right _
  have alone := find_counts memory sized positive (ops.filter Operation.isCall) now address (timely.sublist part)
  refine counts.2.1.trans (Eq.trans ?_ alone.2.1.symm)
  have calls : ops.filter Operation.isCall ++ [Operation.findAndIncrease now address] =
      (ops ++ [Operation.findAndIncrease now address]).filter Operation.isCall := by rw [List.filter_append]; rfl
  rw [calls,callsIn_calls]

-- Slots 0, 1 and 12 at ten seconds each: the first call has left the window of
-- the third, and the sweep between them changes nothing.
theorem sliding_window_exact_across_sweep :
    let blank : IpAccessEntry := ⟨0,fun _ => ⟨0,0⟩,0,0,⟨0,0⟩,none⟩
    let ops := [.findAndIncrease ⟨3,0⟩ 5,.findAndIncrease ⟨14,0⟩ 5,.expiring ⟨40,0⟩]
    let found := findAndIncrease (Machine.run operate (newAutoBlacklistService 7 120 fun _ => blank) ops) ⟨125,0⟩ 5
    (found.2.memory found.1).counter = 2 := by
  intro blank ops found
  have timely : Timely ((120 : Int32) / 12).toInt (ops ++ [.findAndIncrease ⟨125,0⟩ 5]) :=
    ⟨by simp [ops,Operation.now],by simp [ops,Operation.now],by simp [ops,Operation.now]⟩
  have counted := (sliding_window_exact 7 120 (fun _ => blank) (by decide) (by decide) ops ⟨125,0⟩ 5 timely).2.1
  dsimp only [found] at counted ⊢
  exact counted.trans (by decide +kernel)

end TcpProxy.AutoBlacklist
