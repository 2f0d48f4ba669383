import TcpProxy.AutoBlacklist.History

namespace TcpProxy.AutoBlacklist
open LinkedChain

variable {t : Table} {chains : Int → List Nat} {pool : List Nat}

def Contains (t : Table) (ip : UInt32) : Prop :=
  ∃ chain e, Links t.nextOf (t.entries (hashIndex t ip)) chain ∧ e ∈ chain ∧ (t.memory e).ipaddr = ip

def Recent (frequency : Int) (ops : List Operation) (slot : Int) (ip : UInt32) : Prop :=
  ∃ s, slot-12 < s ∧ s ≤ slot ∧ 0 < accesses frequency ip ops s

-- What the table is to be like when expiring returns at `slot`: it has the
-- addresses of the current window and no others, and every other node is in
-- the pool.
structure Clean (frequency : Int) (ops : List Operation) (slot : Int) (t : Table) : Prop where
  contents : ∀ ip, Contains t ip ↔ Recent frequency ops slot ip
  released : ∀ e < t.allocated, (∃ pool, Links t.nextOf t.releasePool pool ∧ e ∈ pool) ∨
    ∃ chain, Links t.nextOf (t.entries (hashIndex t (t.memory e).ipaddr)) chain ∧ e ∈ chain

def lastSweep (frequency : Int) (ops : List Operation) : Option Int :=
  ops.foldl (fun last op => match op with
    | .findAndIncrease _ _ => last
    | .expiring now => if last.map (· % 12) = some (now.sec / frequency % 12) then last else some (now.sec / frequency))
    none

-- A call that is a multiple of twelve slots behind the last sweep, and not in
-- its slot, finds every address seen since the window of that sweep in the
-- current window again.
def SkipHarmless (frequency : Int) (ops : List Operation) (slot : Int) : Prop :=
  ∀ last, lastSweep frequency ops = some last → slot % 12 = last % 12 → slot ≠ last →
    ∀ ip s, last-12 < s → s ≤ slot-12 → 0 < accesses frequency ip ops s → Recent frequency ops slot ip

theorem lastSweep_call (frequency : Int) (ops : List Operation) (now : Timeval) (address : UInt32) :
    lastSweep frequency (ops ++ [.findAndIncrease now address]) = lastSweep frequency ops := by
  simp [lastSweep]

theorem lastSweep_expiring (frequency : Int) (ops : List Operation) (now : Timeval) :
    lastSweep frequency (ops ++ [.expiring now]) =
      if (lastSweep frequency ops).map (· % 12) = some (now.sec / frequency % 12) then lastSweep frequency ops
      else some (now.sec / frequency) := by
  simp [lastSweep]

theorem Shape.contains (shape : Shape t chains freeList limbo pool) (ip : UInt32) :
    Contains t ip ↔ ∃ e ∈ chains (hashIndex t ip), (t.memory e).ipaddr = ip := by
  have linked := shape.linked _ (hashIndex_inRange shape.sized ip)
  constructor
  · intro ⟨chain,e,other,member,address⟩
    obtain rfl := links_unique linked other
    exact ⟨e,member,address⟩
  · intro ⟨e,member,address⟩
    exact ⟨_,e,linked,member,address⟩

theorem contains_keep (setup : SameSetup t next) (entries : next.entries = t.entries)
    (memory : ∀ e, (next.memory e).next = (t.memory e).next ∧ (next.memory e).ipaddr = (t.memory e).ipaddr)
    (ip : UInt32) : Contains next ip ↔ Contains t ip := by
  have links : next.nextOf = t.nextOf := funext fun e => (memory e).1
  unfold Contains
  rw [setup.hashIndex,entries,links]
  simp only [(memory _).2]

theorem Holds.contains_iff (holds : Holds t chains ip counts last) (shape : Shape t chains freeList limbo pool)
    (ordered : last ≤ slot) :
    (∃ e ∈ chains (hashIndex t ip), (t.memory e).ipaddr = ip ∧ ¬ Expires (slot % 12).toNat slot t e) ↔
      ∃ s, slot-12 < s ∧ s ≤ slot ∧ 0 < counts s := by
  rcases holds with ⟨a,inside,own,tracks⟩ | ⟨absent,quiet⟩
  · have current := tracks.clear ordered
    constructor
    · intro ⟨e,member,address,alive⟩
      obtain rfl : e = a := shape.address_unique (hashIndex_inRange shape.sized ip) member inside
        (address.trans own.symm)
      by_contra missing
      refine alive (current.counter.trans (Finset.sum_eq_zero fun s within => ?_))
      obtain ⟨low,high⟩ := Finset.mem_Ioc.mp within
      by_contra present
      exact missing ⟨s,low,high,by omega⟩
    · intro ⟨s,low,high,seen⟩
      refine ⟨a,inside,own,fun expires => ?_⟩
      have := current.quiet expires s low
      omega
  · constructor
    · intro ⟨e,member,address,_⟩
      exact absurd address (absent e member)
    · intro ⟨s,low,_,seen⟩
      have := quiet s (by omega)
      omega

theorem sweepBucket_contains (shape : Shape t chains none [] pool) (inside : t.InRange k)
    (holds : Holds t chains ip counts last) (ordered : last ≤ slot) :
    Contains (sweepBucket (slot % 12).toNat slot t k) ip ↔
      if hashIndex t ip = k then ∃ s, slot-12 < s ∧ s ≤ slot ∧ 0 < counts s else Contains t ip := by
  obtain ⟨⟨rest,after⟩,setup,cleared,others⟩ := sweepBucket_spec (slot % 12).toNat slot shape inside
  have address : ∀ e, ((sweepBucket (slot % 12).toNat slot t k).memory e).ipaddr = (t.memory e).ipaddr := by
    intro e
    by_cases member : e ∈ chains k
    · exact (data_ipaddr (cleared e member)).trans (by simp)
    · exact data_ipaddr (others e member)
  rw [after.contains,setup.hashIndex]
  simp only [address]
  by_cases equal : hashIndex t ip = k
  · rw [if_pos equal,← holds.contains_iff shape ordered,equal,Function.update_self]
    simp only [List.mem_filter,decide_eq_true_eq]
    exact ⟨fun ⟨e,⟨member,alive⟩,own⟩ => ⟨e,member,own,alive⟩,fun ⟨e,member,own,alive⟩ => ⟨e,⟨member,alive⟩,own⟩⟩
  · rw [if_neg equal,Function.update_of_ne equal,shape.contains]

theorem sweep_contains (slot : Int) (todo : List Int) (inside : ∀ k ∈ todo, t.InRange k)
    (precise : Exact frequency ops slot t) (ip : UInt32) :
    Contains (todo.foldl (sweepBucket (slot % 12).toNat slot) t) ip ↔
      if hashIndex t ip ∈ todo then Recent frequency ops slot ip else Contains t ip := by
  induction todo generalizing t with
  | nil => simp
  | cons k rest ih =>
      obtain ⟨chains,pool,shape,known⟩ := id precise
      obtain ⟨last,_,ordered,holds⟩ := known ip
      have here := inside k (by simp)
      obtain ⟨one,setup⟩ := sweep_exact slot [k] (fun j member => by
        obtain rfl := List.mem_singleton.mp member
        exact here) precise
      rw [List.foldl_cons,List.foldl_nil] at one setup
      have first := sweepBucket_contains shape here holds ordered
      rw [List.foldl_cons,ih (fun j member => setup.inRange.mpr (inside j (List.mem_cons_of_mem _ member))) one,
        setup.hashIndex]
      by_cases later : hashIndex t ip ∈ rest
      · rw [if_pos later,if_pos (List.mem_cons_of_mem _ later)]
      · rw [if_neg later]
        refine first.trans ?_
        by_cases equal : hashIndex t ip = k
        · rw [if_pos equal,if_pos (by simp [equal])]
          rfl
        · rw [if_neg equal,if_neg (by simp [equal,later])]

theorem findAndIncrease_contains (shape : Shape t chains none [] pool) (now : Timeval) (address ip : UInt32) :
    Contains (findAndIncrease t now address).2 ip ↔ ip = htonl address ∨ Contains t ip := by
  obtain ⟨chains',pool',after,setup,others,outcome⟩ := lockedBody_cases shape now (readHead t now address) rfl
  have ipAt : (readHead t now address).ip = htonl address := rfl
  have written : Contains (findAndIncrease t now address).2 ip ↔
      Contains (lockedBody t now (readHead t now address)).2 ip := by
    refine @contains_keep (lockedBody t now (readHead t now address)).2 (findAndIncrease t now address).2
      ⟨rfl,rfl⟩ rfl (fun e => ?_) ip
    unfold findAndIncrease
    dsimp only
    by_cases equal : e = (lockedBody t now (readHead t now address)).1
    · subst e
      rw [setEntry_self]
      exact ⟨rfl,rfl⟩
    · rw [setEntry_other _ _ equal]
      exact ⟨rfl,rfl⟩
  rw [written,after.contains,shape.contains,setup.hashIndex]
  generalize lockedBody t now (readHead t now address) = body at *
  obtain ⟨e,middle⟩ := body
  dsimp only at after setup others outcome ⊢
  rw [ipAt] at outcome
  have within := hashIndex_inRange shape.sized ip
  rcases outcome with ⟨member,own,rfl,memoryAt⟩ | ⟨absent,outside,rfl,memoryAt⟩
  · have same : ∀ a, (middle.memory a).ipaddr = (t.memory a).ipaddr := by
      intro a
      by_cases equal : a = e
      · subst a
        rw [memoryAt,refresh_ipaddr]
      · rw [others a equal]
    simp only [same]
    constructor
    · exact .inr
    · intro found
      rcases found with rfl | old
      · exact ⟨e,member,own⟩
      · exact old
  · have mine : (middle.memory e).ipaddr = htonl address := by
      rw [memoryAt,refresh_ipaddr]
    constructor
    · intro ⟨a,member,named⟩
      by_cases equal : a = e
      · subst a
        exact .inl (named.symm.trans mine)
      · rw [others a equal] at named
        exact .inr ⟨a,(mem_update_cons.mp member).resolve_left fun first => equal first.2,named⟩
    · intro found
      rcases found with rfl | ⟨a,member,named⟩
      · exact ⟨e,by simp,mine⟩
      · have different : a ≠ e := fun equal => outside _ within (equal ▸ member)
        rw [← others a different] at named
        exact ⟨a,mem_update_cons.mpr (.inr member),named⟩

theorem findAndIncrease_recentIndex (t : Table) (now : Timeval) (address : UInt32) :
    (findAndIncrease t now address).2.recentIndex = t.recentIndex := by
  unfold findAndIncrease lockedBody insertNew allocateNewEntry
  dsimp only
  split
  · rfl
  · split
    · rfl
    · rfl

theorem accesses_bound (precise : Exact frequency ops clock t) (seen : 0 < accesses frequency ip ops s) : s ≤ clock := by
  obtain ⟨chains,pool,shape,known⟩ := precise
  obtain ⟨last,_,ordered,holds⟩ := known ip
  by_contra after
  have := holds.future s (by omega)
  omega

-- What is known of the table between two calls: the guard's variable, and that
-- the table has the addresses seen since the window of the last sweep.
structure Charted (frequency : Int) (ops : List Operation) (clock : Int) (t : Table) : Prop where
  exact : Exact frequency ops clock t
  guard : t.recentIndex = (lastSweep frequency ops).elim (-1) (· % 12)
  swept : ∀ last, lastSweep frequency ops = some last → last ≤ clock
  contents : ∀ ip, Contains t ip ↔
    ∃ s, (∀ last, lastSweep frequency ops = some last → last-12 < s) ∧ 0 < accesses frequency ip ops s

theorem Charted.later (valid : Charted frequency ops clock t) (ordered : clock ≤ slot) :
    Charted frequency ops slot t :=
  ⟨valid.exact.later ordered,valid.guard,fun last found => (valid.swept last found).trans ordered,valid.contents⟩

theorem findAndIncrease_charted (positive : 0 < t.frequencyInSeconds.toInt) (started : 0 ≤ now.sec)
    (representable : now.sec / t.frequencyInSeconds.toInt < 2^31)
    (valid : Charted t.frequencyInSeconds.toInt ops (now.sec / t.frequencyInSeconds.toInt) t) (address : UInt32) :
    Charted t.frequencyInSeconds.toInt (ops ++ [.findAndIncrease now address])
      (now.sec / t.frequencyInSeconds.toInt) (findAndIncrease t now address).2 := by
  obtain ⟨after,_,_,_⟩ := findAndIncrease_exact positive started representable valid.exact address
  obtain ⟨chains,pool,shape,_⟩ := valid.exact
  refine ⟨after,?_,?_,fun ip => ?_⟩
  · rw [findAndIncrease_recentIndex,lastSweep_call]
    exact valid.guard
  · rw [lastSweep_call]
    exact valid.swept
  · rw [findAndIncrease_contains shape,lastSweep_call,valid.contents]
    by_cases equal : htonl address = ip
    · subst ip
      refine ⟨fun _ => ⟨now.sec / t.frequencyInSeconds.toInt,fun last found => ?_,?_⟩,fun _ => .inl rfl⟩
      · have := valid.swept last found
        omega
      · rw [accesses_own,Function.update_self]
        exact Nat.succ_pos _
    · rw [accesses_other _ _ _ _ _ equal]
      constructor
      · intro found
        rcases found with same | old
        · exact absurd same.symm equal
        · exact old
      · exact .inr

-- The guard lets a sweep through unless its slot is at the place in the ring
-- where the last one was.
theorem Charted.guard_iff (valid : Charted frequency ops clock t) (slot : Int) :
    slot % 12 = t.recentIndex ↔ ∃ last, lastSweep frequency ops = some last ∧ slot % 12 = last % 12 := by
  rw [valid.guard]
  cases lastSweep frequency ops with
  | none =>
      simp only [Option.elim_none,reduceCtorEq,false_and,exists_false,iff_false]
      omega
  | some last => simp

theorem expiring_contains (positive : 0 < t.frequencyInSeconds.toInt) (started : 0 ≤ now.sec)
    (representable : now.sec / t.frequencyInSeconds.toInt < 2^31)
    (precise : Exact t.frequencyInSeconds.toInt ops (now.sec / t.frequencyInSeconds.toInt) t) (ip : UInt32) :
    Contains (expiring t now) ip ↔
      if now.sec / t.frequencyInSeconds.toInt % 12 = t.recentIndex then Contains t ip
      else Recent t.frequencyInSeconds.toInt ops (now.sec / t.frequencyInSeconds.toInt) ip := by
  have time := currentTimeIndex_eq positive started representable
  obtain ⟨chains,pool,shape,_⟩ := id precise
  have member := mem_buckets.mpr (hashIndex_inRange shape.sized ip)
  have swept := sweep_contains (now.sec / t.frequencyInSeconds.toInt) (buckets t) (fun _ => mem_buckets.mp) precise ip
  rw [if_pos member] at swept
  simp only [expiring,time]
  by_cases skipped : now.sec / t.frequencyInSeconds.toInt % 12 = t.recentIndex
  · rw [if_neg (not_not.mpr skipped),if_pos skipped]
  · rw [if_pos skipped,if_neg skipped,← swept]
    exact contains_keep ⟨rfl,rfl⟩ rfl (fun _ => ⟨rfl,rfl⟩) ip

theorem expiring_charted (positive : 0 < t.frequencyInSeconds.toInt) (started : 0 ≤ now.sec)
    (representable : now.sec / t.frequencyInSeconds.toInt < 2^31)
    (valid : Charted t.frequencyInSeconds.toInt ops (now.sec / t.frequencyInSeconds.toInt) t) :
    Charted t.frequencyInSeconds.toInt (ops ++ [.expiring now]) (now.sec / t.frequencyInSeconds.toInt)
      (expiring t now) := by
  have contents := expiring_contains positive started representable valid.exact
  have after := (expiring_exact positive started representable valid.exact).1
  have guard := valid.guard_iff (now.sec / t.frequencyInSeconds.toInt)
  have bound := fun ip s => @accesses_bound t _ ops _ ip s valid.exact
  have index : (expiring t now).recentIndex = now.sec / t.frequencyInSeconds.toInt % 12 := by
    simp only [expiring,currentTimeIndex_eq positive started representable]
    split
    · rfl
    · rename_i same
      exact (not_not.mp same).symm
  by_cases skipped : now.sec / t.frequencyInSeconds.toInt % 12 = t.recentIndex
  · obtain ⟨last,found,same⟩ := guard.mp skipped
    have kept : lastSweep t.frequencyInSeconds.toInt (ops ++ [.expiring now]) =
        lastSweep t.frequencyInSeconds.toInt ops := by
      rw [lastSweep_expiring,if_pos (by rw [found,same]; rfl)]
    refine ⟨after,?_,?_,fun ip => ?_⟩
    · rw [kept,index,skipped]
      exact valid.guard
    · rw [kept]
      exact valid.swept
    · rw [kept,accesses_expiring,contents,if_pos skipped]
      exact valid.contents ip
  · have moved : lastSweep t.frequencyInSeconds.toInt (ops ++ [.expiring now]) =
        some (now.sec / t.frequencyInSeconds.toInt) := by
      rw [lastSweep_expiring]
      refine if_neg fun same => skipped (guard.mpr ?_)
      obtain ⟨last,found,equal⟩ := Option.map_eq_some_iff.mp same
      exact ⟨last,found,equal.symm⟩
    refine ⟨after,?_,?_,fun ip => ?_⟩
    · rw [moved,index]
      rfl
    · rw [moved]
      intro last found
      cases found
      exact Int.le_refl _
    · rw [moved,accesses_expiring,contents,if_neg skipped]
      constructor
      · rintro ⟨s,low,_,seen⟩
        refine ⟨s,fun last found => ?_,seen⟩
        cases found
        exact low
      · rintro ⟨s,low,seen⟩
        exact ⟨s,low _ rfl,bound ip s seen,seen⟩

theorem new_charted (hashSize monitorPeriod : Int32) (memory : Nat → IpAccessEntry) (sized : 0 < hashSize.toInt)
    (nonneg : 0 ≤ clock) : Charted frequency [] clock (newAutoBlacklistService hashSize monitorPeriod memory) := by
  refine ⟨new_exact hashSize monitorPeriod memory sized nonneg,rfl,fun last found => ?_,fun ip => ?_⟩
  · cases found
  · constructor
    · intro ⟨chain,e,linked,member,_⟩
      rw [links_none linked] at member
      cases member
    · intro ⟨s,_,seen⟩
      simp [accesses,slotsOf] at seen

theorem run_charted (memory : Nat → IpAccessEntry) (sized : 0 < hashSize.toInt)
    (positive : 0 < (monitorPeriod / 12).toInt) (ops : List Operation)
    (timely : Timely (monitorPeriod / 12).toInt ops) (nonneg : 0 ≤ clock)
    (reached : ∀ op ∈ ops, op.now.sec / (monitorPeriod / 12).toInt ≤ clock) :
    Charted (monitorPeriod / 12).toInt ops clock
      (Machine.run operate (newAutoBlacklistService hashSize monitorPeriod memory) ops) := by
  refine (@run_timely clock (newAutoBlacklistService hashSize monitorPeriod memory) (Charted (monitorPeriod / 12).toInt)
    positive (fun _ nonneg => new_charted hashSize monitorPeriod memory sized nonneg)
    (fun _ _ _ _ valid ordered => valid.later ordered) ?_ ops timely nonneg reached).1
  intro earlier op t setup started representable valid
  have frequency : t.frequencyInSeconds.toInt = (monitorPeriod / 12).toInt := by rw [setup.frequency]; rfl
  change op.now.sec / (monitorPeriod / 12).toInt < 2^31 at representable
  change Charted _ _ (op.now.sec / (monitorPeriod / 12).toInt) t at valid
  change Charted _ _ (op.now.sec / (monitorPeriod / 12).toInt) _ ∧ _
  rw [← frequency] at positive representable valid ⊢
  refine ⟨?_,(operate_exact positive op started representable valid.exact).2⟩
  cases op with
  | findAndIncrease now address => exact findAndIncrease_charted positive started representable valid address
  | expiring now => exact expiring_charted positive started representable valid

theorem Charted.released (valid : Charted frequency ops clock t) (e : Nat) (below : e < t.allocated) :
    (∃ pool, Links t.nextOf t.releasePool pool ∧ e ∈ pool) ∨
    ∃ chain, Links t.nextOf (t.entries (hashIndex t (t.memory e).ipaddr)) chain ∧ e ∈ chain := by
  obtain ⟨chains,pool,shape,_⟩ := valid.exact
  rcases shape.everywhere e below with pooled | waits | ⟨k,inside,member⟩
  · exact .inl ⟨pool,shape.pooled,pooled⟩
  · cases waits
  · have home := shape.home k inside e member
    rw [← home] at inside member
    exact .inr ⟨_,shape.linked _ inside,member⟩

-- At the end of a call of expiring, anywhere in a run, the table is clean
-- exactly if the guard has not skipped a sweep that was due.
theorem clean_iff_skip_harmless (hashSize monitorPeriod : Int32) (memory : Nat → IpAccessEntry)
    (sized : 0 < hashSize.toInt) (positive : 0 < (monitorPeriod / 12).toInt) (ops : List Operation) (now : Timeval)
    (timely : Timely (monitorPeriod / 12).toInt (ops ++ [.expiring now])) :
    Clean (monitorPeriod / 12).toInt ops (now.sec / (monitorPeriod / 12).toInt)
      (Machine.run operate (newAutoBlacklistService hashSize monitorPeriod memory) (ops ++ [.expiring now])) ↔
    SkipHarmless (monitorPeriod / 12).toInt ops (now.sec / (monitorPeriod / 12).toInt) := by
  have past := List.pairwise_append.mp timely.ordered
  have started : 0 ≤ now.sec := timely.started (.expiring now) (by simp)
  have nonneg := Int.ediv_nonneg started (Int.le_of_lt positive)
  have representable : now.sec / (monitorPeriod / 12).toInt < 2^31 :=
    timely.representable (.expiring now) (by simp)
  have fewer := timely.sublist (List.sublist_append_left ops [.expiring now])
  have before : ∀ one ∈ ops, one.now.sec / (monitorPeriod / 12).toInt ≤ now.sec / (monitorPeriod / 12).toInt :=
    fun one member => Int.ediv_le_ediv positive (past.2.2 one member (.expiring now) (by simp))
  have valid := run_charted memory sized positive ops fewer nonneg before
  obtain ⟨_,setup⟩ := run_exact memory sized positive ops fewer nonneg before
  rw [Machine.run_concat]
  generalize Machine.run operate (newAutoBlacklistService hashSize monitorPeriod memory) ops = t at *
  have frequency : t.frequencyInSeconds.toInt = (monitorPeriod / 12).toInt := by rw [setup.frequency]; rfl
  rw [← frequency] at valid representable positive ⊢
  have contents := expiring_contains positive started representable valid.exact
  have after := expiring_charted positive started representable valid
  have guard := valid.guard_iff (now.sec / t.frequencyInSeconds.toInt)
  have bound := fun ip s => @accesses_bound t _ ops _ ip s valid.exact
  generalize now.sec / t.frequencyInSeconds.toInt = slot at *
  constructor
  · intro clean last found same different ip s low high seen
    refine (clean.contents ip).mp ((contents ip).mpr ?_)
    rw [if_pos (guard.mpr ⟨last,found,same⟩)]
    refine (valid.contents ip).mpr ⟨s,fun other also => ?_,seen⟩
    obtain rfl := Option.some.inj (found.symm.trans also)
    exact low
  · intro harmless
    refine ⟨fun ip => ?_,after.released⟩
    refine (contents ip).trans ?_
    by_cases skipped : slot % 12 = t.recentIndex
    · obtain ⟨last,found,same⟩ := guard.mp skipped
      have reached := valid.swept last found
      rw [if_pos skipped,valid.contents ip]
      constructor
      · intro ⟨s,low,seen⟩
        have high := bound ip s seen
        by_cases current : slot-12 < s
        · exact ⟨s,current,high,seen⟩
        · have after_last := low last found
          exact harmless last found same (by omega) ip s after_last (by omega) seen
      · intro ⟨s,low,_,seen⟩
        refine ⟨s,fun other also => ?_,seen⟩
        obtain rfl := Option.some.inj (found.symm.trans also)
        omega
    · rw [if_neg skipped]

-- The sweep of slot 0 and a call in slot 13, where the first access is too old.
theorem clean_iff_skip_harmless_next_round :
    Clean ((60 : Int32) / 12).toInt [.findAndIncrease ⟨0,0⟩ 5,.expiring ⟨0,0⟩] 13
      (Machine.run operate (newAutoBlacklistService 7 60 fun _ => ⟨0,fun _ => ⟨0,0⟩,0,0,⟨0,0⟩,none⟩)
        [.findAndIncrease ⟨0,0⟩ 5,.expiring ⟨0,0⟩,.expiring ⟨65,0⟩]) := by
  have precise := clean_iff_skip_harmless 7 60 (fun _ => ⟨0,fun _ => ⟨0,0⟩,0,0,⟨0,0⟩,none⟩) (by decide) (by decide)
    [.findAndIncrease ⟨0,0⟩ 5,.expiring ⟨0,0⟩] ⟨65,0⟩
    ⟨by simp [Operation.now],by simp [Operation.now],by simp [Operation.now]⟩
  refine precise.mpr ?_
  intro last found same
  obtain rfl : 0 = last := Option.some.inj ((show lastSweep _ _ = some 0 by decide).symm.trans found)
  exact absurd same (by decide)

-- Sixty seconds between two calls with a period of sixty: the second call is
-- skipped and leaves the entry of slot 0, which the window of slot 12 is past.
theorem skipped_sweep_leaves_entry :
    ¬ Clean ((60 : Int32) / 12).toInt [.findAndIncrease ⟨0,0⟩ 5,.expiring ⟨0,0⟩] 12
      (Machine.run operate (newAutoBlacklistService 7 60 fun _ => ⟨0,fun _ => ⟨0,0⟩,0,0,⟨0,0⟩,none⟩)
        [.findAndIncrease ⟨0,0⟩ 5,.expiring ⟨0,0⟩,.expiring ⟨60,0⟩]) := by
  intro clean
  obtain ⟨s,low,high,seen⟩ := (clean.contents (htonl 5)).mp
    ⟨[0],0,⟨by decide +kernel,by unfold Links; decide +kernel⟩,by simp,by decide +kernel⟩
  have quiet : ∀ s ∈ Finset.Ioc (0 : Int) 12,
      accesses ((60 : Int32) / 12).toInt (htonl 5) [.findAndIncrease ⟨0,0⟩ 5,.expiring ⟨0,0⟩] s = 0 := by
    decide +kernel
  exact absurd (quiet s (Finset.mem_Ioc.mpr ⟨low,high⟩)) (by omega)

end TcpProxy.AutoBlacklist
