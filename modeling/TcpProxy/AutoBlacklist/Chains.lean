import TcpProxy.Lib.LinkedChain
import TcpProxy.AutoBlacklist.Ring

namespace TcpProxy.AutoBlacklist
open LinkedChain

def Table.nextOf (t : Table) (e : Nat) : Option Nat := (t.memory e).next
def Table.InRange (t : Table) (k : Int) : Prop := 0 ≤ k ∧ k < t.hashBufferSize.toInt

def IpAccessEntry.data (entry : IpAccessEntry) : IpAccessEntry := {entry with next := none}

@[simp] theorem setEntry_self (t : Table) (e : Nat) (entry : IpAccessEntry) :
    (t.setEntry e entry).memory e = entry := by simp [Table.setEntry]
theorem setEntry_other (t : Table) (entry : IpAccessEntry) (different : a ≠ e) :
    (t.setEntry e entry).memory a = t.memory a := by simp [Table.setEntry,Function.update_of_ne different]

-- The lists behind the pointers: one chain for each bucket, the list of nodes
-- a sweep has taken out and not yet released, and the pool. A node that was
-- ever allocated is on exactly one of them.
structure Shape (t : Table) (chains : Int → List Nat) (freeList : Option Nat) (limbo pool : List Nat) : Prop where
  sized : 0 < t.hashBufferSize.toInt
  linked : ∀ k, t.InRange k → Links t.nextOf (t.entries k) (chains k)
  pending : Links t.nextOf freeList limbo
  pooled : Links t.nextOf t.releasePool pool
  home : ∀ k, t.InRange k → ∀ e ∈ chains k, hashIndex t (t.memory e).ipaddr = k
  single : ∀ k, t.InRange k → ((chains k).map fun e => (t.memory e).ipaddr).Nodup
  chained : ∀ k, t.InRange k → ∀ e ∈ chains k, e ∉ limbo ∧ e ∉ pool ∧ e < t.allocated
  waiting : ∀ e ∈ limbo, e ∉ pool ∧ e < t.allocated
  resting : ∀ e ∈ pool, e < t.allocated
  everywhere : ∀ e < t.allocated, e ∈ pool ∨ e ∈ limbo ∨ ∃ k, t.InRange k ∧ e ∈ chains k

structure SameSetup (t next : Table) : Prop where
  size : next.hashBufferSize = t.hashBufferSize
  frequency : next.frequencyInSeconds = t.frequencyInSeconds

theorem SameSetup.refl (t : Table) : SameSetup t t := ⟨rfl,rfl⟩
theorem SameSetup.trans (one : SameSetup t middle) (two : SameSetup middle next) : SameSetup t next :=
  ⟨two.size.trans one.size,two.frequency.trans one.frequency⟩

variable {t : Table} {chains : Int → List Nat} {freeList : Option Nat} {limbo pool : List Nat}

theorem SameSetup.inRange (same : SameSetup t next) : next.InRange k ↔ t.InRange k := by
  unfold Table.InRange
  rw [same.size]

theorem SameSetup.hashIndex (same : SameSetup t next) (ip : UInt32) : hashIndex next ip = hashIndex t ip := by
  unfold AutoBlacklist.hashIndex
  rw [same.size]

theorem hashIndex_eq (sized : 0 < t.hashBufferSize.toInt) (ip : UInt32) :
    hashIndex t ip = (ip.toNat : Int) % t.hashBufferSize.toInt := by
  have limit := t.hashBufferSize.toInt_lt
  have low := Int.emod_nonneg (ip.toNat : Int) (show t.hashBufferSize.toInt ≠ 0 by omega)
  have high := Int.emod_lt_of_pos (ip.toNat : Int) sized
  unfold hashIndex
  rw [Int.emod_eq_of_lt (by omega) (show t.hashBufferSize.toInt < 2^32 by omega)]
  exact toInt32_eq (by omega) (by omega)

theorem hashIndex_inRange (sized : 0 < t.hashBufferSize.toInt) (ip : UInt32) : t.InRange (hashIndex t ip) := by
  rw [hashIndex_eq sized]
  exact ⟨Int.emod_nonneg _ (by omega),Int.emod_lt_of_pos _ sized⟩

theorem mem_buckets : k ∈ buckets t ↔ t.InRange k := by
  simp only [buckets,List.mem_map,List.mem_range,Table.InRange]
  constructor
  · rintro ⟨n,below,rfl⟩; omega
  · rintro ⟨low,high⟩; exact ⟨k.toNat,by omega,by omega⟩

def Placed (t : Table) (chains : Int → List Nat) (limbo pool : List Nat) (e : Nat) : Prop :=
  e ∈ pool ∨ e ∈ limbo ∨ ∃ k, t.InRange k ∧ e ∈ chains k

theorem Shape.placed_iff (shape : Shape t chains freeList limbo pool) (e : Nat) :
    Placed t chains limbo pool e ↔ e < t.allocated := by
  refine ⟨?_,shape.everywhere e⟩
  intro placed
  rcases placed with pooled | waits | ⟨k,inside,member⟩
  · exact shape.resting e pooled
  · exact (shape.waiting e waits).2
  · exact (shape.chained k inside e member).2.2

theorem Shape.rearrange {chains' : Int → List Nat} (shape : Shape t chains freeList limbo pool) (same : SameSetup t next)
    (allocated : next.allocated = t.allocated) (address : ∀ e, (next.memory e).ipaddr = (t.memory e).ipaddr)
    (linked : ∀ k, t.InRange k → Links next.nextOf (next.entries k) (chains' k))
    (pending : Links next.nextOf freeList' limbo') (pooled : Links next.nextOf next.releasePool pool')
    (fewer : ∀ k, t.InRange k → (chains' k).Sublist (chains k))
    (apart : ∀ k, t.InRange k → ∀ e ∈ chains' k, e ∉ limbo' ∧ e ∉ pool') (waiting : ∀ e ∈ limbo', e ∉ pool')
    (placed : ∀ e, Placed t chains' limbo' pool' e ↔ Placed t chains limbo pool e) :
    Shape next chains' freeList' limbo' pool' := by
  have below : ∀ e, Placed t chains' limbo' pool' e ↔ e < next.allocated := by
    intro e
    rw [placed,shape.placed_iff,allocated]
  refine ⟨same.size ▸ shape.sized,?_,pending,pooled,?_,?_,?_,?_,?_,?_⟩
  · intro k inside
    exact linked k (same.inRange.mp inside)
  · intro k inside e member
    have before := same.inRange.mp inside
    rw [same.hashIndex,address]
    exact shape.home k before e ((fewer k before).subset member)
  · intro k inside
    have before := same.inRange.mp inside
    simp only [address]
    exact (shape.single k before).sublist ((fewer k before).map _)
  · intro k inside e member
    have before := same.inRange.mp inside
    obtain ⟨notWaiting,notPooled⟩ := apart k before e member
    exact ⟨notWaiting,notPooled,(below e).mp (.inr (.inr ⟨k,before,member⟩))⟩
  · intro e waits
    exact ⟨waiting e waits,(below e).mp (.inr (.inl waits))⟩
  · intro e rests
    exact (below e).mp (.inl rests)
  · intro e bound
    simp only [same.inRange]
    exact (below e).mpr bound

theorem Shape.keep (shape : Shape t chains freeList limbo pool) (same : SameSetup t next)
    (allocated : next.allocated = t.allocated) (entries : next.entries = t.entries)
    (released : next.releasePool = t.releasePool)
    (memory : ∀ e, (next.memory e).next = (t.memory e).next ∧ (next.memory e).ipaddr = (t.memory e).ipaddr) :
    Shape next chains freeList limbo pool := by
  have links : ∀ nodes : List Nat, ∀ e ∈ nodes, t.nextOf e = next.nextOf e := fun _ e _ => (memory e).1.symm
  refine shape.rearrange same allocated (fun e => (memory e).2) ?_ (links_congr (links _) shape.pending) ?_
    (fun k _ => List.Sublist.refl _) ?_ (fun e waits => (shape.waiting e waits).1) (fun e => Iff.rfl)
  · intro k inside
    rw [entries]
    exact links_congr (links _) (shape.linked k inside)
  · rw [released]
    exact links_congr (links _) shape.pooled
  · intro k inside e member
    obtain ⟨notWaiting,notPooled,_⟩ := shape.chained k inside e member
    exact ⟨notWaiting,notPooled⟩

theorem Shape.setEntry (shape : Shape t chains freeList limbo pool) (e : Nat) (entry : IpAccessEntry)
    (next : entry.next = (t.memory e).next) (ipaddr : entry.ipaddr = (t.memory e).ipaddr) :
    Shape (t.setEntry e entry) chains freeList limbo pool := by
  refine shape.keep ⟨rfl,rfl⟩ rfl rfl rfl ?_
  intro a
  by_cases equal : a = e
  · subst a; simpa using ⟨next,ipaddr⟩
  · rw [setEntry_other t entry equal]; exact ⟨rfl,rfl⟩

theorem Shape.chain_apart (shape : Shape t chains freeList limbo pool) (one : t.InRange j) (two : t.InRange k)
    (left : e ∈ chains j) (right : e ∈ chains k) : j = k :=
  (shape.home j one e left).symm.trans (shape.home k two e right)

theorem Shape.address_unique (shape : Shape t chains freeList limbo pool) (inside : t.InRange k) (one : a ∈ chains k)
    (two : e ∈ chains k) (same : (t.memory a).ipaddr = (t.memory e).ipaddr) : a = e :=
  List.inj_on_of_nodup_map (shape.single k inside) one two same

theorem Shape.chain_length (shape : Shape t chains freeList limbo pool) (inside : t.InRange k) :
    (chains k).length ≤ t.allocated :=
  length_le_of_nodup _ (links_nodup (shape.linked k inside)) fun e member => (shape.chained k inside e member).2.2

theorem Shape.limbo_length (shape : Shape t chains freeList limbo pool) : limbo.length ≤ t.allocated :=
  length_le_of_nodup _ (links_nodup shape.pending) fun e member => (shape.waiting e member).2

theorem findIp_links (memory : Nat → IpAccessEntry) (ip : UInt32) (nodes : List Nat) (left : Nat)
    (linked : Links (fun e => (memory e).next) head nodes) (enough : nodes.length ≤ left) :
    findIp memory ip left head = nodes.find? fun e => (memory e).ipaddr == ip := by
  induction nodes generalizing head left with
  | nil =>
      cases linked
      cases left <;> rfl
  | cons e rest ih =>
      obtain ⟨rfl,tail⟩ := linked
      cases left with
      | zero => simp at enough
      | succ left =>
          have others := ih left tail (by simpa using enough)
          by_cases equal : (memory e).ipaddr = ip
          · simp [findIp,equal]
          · simpa [findIp,equal] using others

theorem allocate_cases (shape : Shape t chains freeList limbo pool) :
    ∃ e rest, allocateNewEntry t = (e,(allocateNewEntry t).2) ∧ e ∉ limbo ∧ e ∉ rest ∧
      (∀ k, t.InRange k → e ∉ chains k) ∧ e < (allocateNewEntry t).2.allocated ∧
      (allocateNewEntry t).2.memory = t.memory ∧ (allocateNewEntry t).2.entries = t.entries ∧
      SameSetup t (allocateNewEntry t).2 ∧ Links t.nextOf (allocateNewEntry t).2.releasePool rest ∧
      (∀ a, a < (allocateNewEntry t).2.allocated ↔ a = e ∨ a < t.allocated) ∧
      ∀ a, a ∈ pool ∧ a ≠ e ↔ a ∈ rest := by
  unfold allocateNewEntry
  cases head : t.releasePool with
  | some e =>
      have pooled := shape.pooled
      rw [head] at pooled
      obtain ⟨rest,same,linked⟩ := links_some pooled
      have once := links_nodup pooled
      rw [same,List.nodup_cons] at once
      have member : e ∈ pool := by simp [same]
      have below := shape.resting e member
      refine ⟨e,rest,rfl,fun waits => (shape.waiting e waits).1 member,once.1,
        fun k inside chained => (shape.chained k inside e chained).2.1 member,below,rfl,rfl,⟨rfl,rfl⟩,linked,?_,?_⟩
      · intro a
        constructor
        · exact .inr
        · rintro (rfl | old)
          · exact below
          · exact old
      · intro a
        rw [same,List.mem_cons]
        constructor
        · rintro ⟨equal | old,different⟩
          · exact absurd equal different
          · exact old
        · intro old
          exact ⟨.inr old,by rintro rfl; exact once.1 old⟩
  | none =>
      have pooled := shape.pooled
      rw [head] at pooled
      have empty := links_none pooled
      refine ⟨t.allocated,[],rfl,fun waits => Nat.lt_irrefl _ (shape.waiting _ waits).2,by simp,
        fun k inside chained => Nat.lt_irrefl _ (shape.chained k inside _ chained).2.2,Nat.lt_succ_self _,
        rfl,rfl,⟨rfl,rfl⟩,rfl,?_,by simp [empty]⟩
      intro a
      simp only
      omega

theorem insertNew_shape (shape : Shape t chains freeList limbo pool) (now : Timeval) (ip : UInt32)
    (absent : ∀ e ∈ chains (hashIndex t ip), (t.memory e).ipaddr ≠ ip) :
    ∃ rest, Shape (insertNew t now ip).2
        (Function.update chains (hashIndex t ip) ((insertNew t now ip).1 :: chains (hashIndex t ip)))
        freeList limbo rest ∧
      (insertNew t now ip).2.memory (insertNew t now ip).1 =
        ⟨ip,fun _ => ⟨0,0⟩,0,0,now,t.entries (hashIndex t ip)⟩ ∧
      (∀ a, a ≠ (insertNew t now ip).1 → (insertNew t now ip).2.memory a = t.memory a) ∧
      (∀ k, t.InRange k → (insertNew t now ip).1 ∉ chains k) ∧ SameSetup t (insertNew t now ip).2 := by
  obtain ⟨e,rest,pair,notLimbo,notRest,notChained,below,memory,entries,same,linked,grown,others⟩ :=
    allocate_cases shape
  generalize taken : (allocateNewEntry t).2 = middle at *
  have first : (insertNew t now ip).1 = e := by simp [insertNew,pair]
  have index : hashIndex middle ip = hashIndex t ip := same.hashIndex ip
  generalize new : (⟨ip,fun _ => ⟨0,0⟩,0,0,now,t.entries (hashIndex t ip)⟩ : IpAccessEntry) = entry
  have result : (insertNew t now ip).2 =
      {middle.setEntry e entry with entries := Function.update t.entries (hashIndex t ip) (some e)} := by
    simp only [insertNew,pair,index,entries,← new]
  rw [first,result]
  have inside : t.InRange (hashIndex t ip) := hashIndex_inRange shape.sized ip
  have old : ∀ a, a ≠ e → (middle.setEntry e entry).memory a = t.memory a := by
    intro a different
    rw [setEntry_other middle entry different,memory]
  have links : ∀ nodes : List Nat, e ∉ nodes → ∀ a ∈ nodes, t.nextOf a = (middle.setEntry e entry).nextOf a := by
    intro nodes outside a member
    have different : a ≠ e := by rintro rfl; exact outside member
    simp only [Table.nextOf,old a different]
  have setup : SameSetup t {middle.setEntry e entry with
      entries := Function.update t.entries (hashIndex t ip) (some e)} := ⟨same.size,same.frequency⟩
  have fresh : entry.ipaddr = ip ∧ entry.next = t.entries (hashIndex t ip) := by rw [← new]; exact ⟨rfl,rfl⟩
  refine ⟨rest,⟨setup.size ▸ shape.sized,?_,links_congr (links _ notLimbo) shape.pending,
    links_congr (links _ notRest) linked,?_,?_,?_,?_,?_,?_⟩,by simp,old,notChained,setup⟩
  · intro k within
    have before := setup.inRange.mp within
    by_cases equal : k = hashIndex t ip
    · subst k
      simp only [Function.update_self]
      exact links_push (shape.linked _ before) (links _ (notChained _ before)) (by simp [Table.nextOf,fresh.2])
    · simp only [Function.update_of_ne equal]
      exact links_congr (links _ (notChained k before)) (shape.linked k before)
  · intro k within a member
    have before := setup.inRange.mp within
    rw [setup.hashIndex]
    simp only
    rcases mem_update_cons.mp member with ⟨own,pushed⟩ | earlier
    · simp [own,pushed,fresh.1]
    · rw [old a (by rintro rfl; exact notChained k before earlier)]
      exact shape.home k before a earlier
  · intro k within
    have before := setup.inRange.mp within
    have keep : (chains k).map (fun a => ((middle.setEntry e entry).memory a).ipaddr) =
        (chains k).map fun a => (t.memory a).ipaddr := by
      refine List.map_congr_left fun a member => ?_
      rw [old a (by rintro rfl; exact notChained k before member)]
    by_cases equal : k = hashIndex t ip
    · subst k
      simp only [Function.update_self,List.map_cons,setEntry_self,fresh.1,keep,List.nodup_cons]
      refine ⟨?_,shape.single _ before⟩
      intro again
      obtain ⟨a,member,address⟩ := List.mem_map.mp again
      exact absent a member address
    · simpa only [Function.update_of_ne equal,keep] using shape.single k before
  · intro k within a member
    rcases mem_update_cons.mp member with ⟨_,pushed⟩ | earlier
    · subst a
      exact ⟨notLimbo,notRest,below⟩
    · obtain ⟨one,two,three⟩ := shape.chained k (setup.inRange.mp within) a earlier
      exact ⟨one,fun inRest => two ((others a).mpr inRest).1,(grown a).mpr (.inr three)⟩
  · intro a member
    obtain ⟨one,two⟩ := shape.waiting a member
    exact ⟨fun inRest => one ((others a).mpr inRest).1,(grown a).mpr (.inr two)⟩
  · intro a member
    exact (grown a).mpr (.inr (shape.resting a ((others a).mpr member).1))
  · intro a bound
    simp only [setup.inRange]
    rcases (grown a).mp bound with rfl | earlier
    · exact .inr (.inr ⟨hashIndex t ip,inside,by simp⟩)
    · by_cases equal : a = e
      · exact .inr (.inr ⟨hashIndex t ip,inside,by simp [equal]⟩)
      · rcases shape.everywhere a earlier with pooled | waits | ⟨k,within,member⟩
        · exact .inl ((others a).mp ⟨pooled,equal⟩)
        · exact .inr (.inl waits)
        · exact .inr (.inr ⟨k,within,mem_update_cons.mpr (.inr member)⟩)

end TcpProxy.AutoBlacklist
