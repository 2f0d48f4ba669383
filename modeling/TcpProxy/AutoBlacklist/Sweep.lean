import TcpProxy.AutoBlacklist.Chains

namespace TcpProxy.AutoBlacklist
open LinkedChain

variable {t : Table} {chains : Int → List Nat} {freeList : Option Nat} {limbo pool : List Nat}

theorem setNext_data (t : Table) (e : Nat) (next : Option Nat) (a : Nat) :
    ((t.setNext e next).memory a).data = (t.memory a).data := by
  by_cases equal : a = e
  · subst a; simp [Table.setNext,IpAccessEntry.data]
  · rw [Table.setNext,setEntry_other t _ equal]

theorem setLink_data (t : Table) (k : Int) (prev next : Option Nat) (a : Nat) :
    ((t.setLink k prev next).memory a).data = (t.memory a).data := by
  cases prev with
  | none => rfl
  | some p => exact setNext_data t p next a

theorem setLink_setup (t : Table) (k : Int) (prev next : Option Nat) :
    SameSetup t (t.setLink k prev next) ∧ (t.setLink k prev next).allocated = t.allocated ∧
      (t.setLink k prev next).releasePool = t.releasePool := by
  cases prev <;> exact ⟨⟨rfl,rfl⟩,rfl,rfl⟩

theorem setLink_next (t : Table) (k : Int) (prev next : Option Nat) (different : prev ≠ some a) :
    (t.setLink k prev next).memory a = t.memory a := by
  cases prev with
  | none => rfl
  | some p => exact setEntry_other t _ fun equal => different (equal ▸ rfl)

theorem data_ipaddr (same : IpAccessEntry.data one = IpAccessEntry.data two) : one.ipaddr = two.ipaddr := by
  have address := congrArg IpAccessEntry.ipaddr same
  exact address

theorem data_accessCount (same : IpAccessEntry.data one = IpAccessEntry.data two) :
    one.accessCount = two.accessCount := by
  have slots := congrArg IpAccessEntry.accessCount same
  exact slots

theorem data_counter (same : IpAccessEntry.data one = IpAccessEntry.data two) : one.counter = two.counter := by
  have total := congrArg IpAccessEntry.counter same
  exact total

-- The removal of one node in the middle of a sweep: `*prev` passes over it and
-- its own link is turned to the list of nodes to release.
def Table.cutOut (t : Table) (k : Int) (prev : Option Nat) (e : Nat) (freeList : Option Nat) : Table :=
  (t.setLink k prev (t.memory e).next).setNext e freeList

theorem cutOut_setup (t : Table) (k : Int) (prev : Option Nat) (e : Nat) (freeList : Option Nat) :
    SameSetup t (t.cutOut k prev e freeList) ∧ (t.cutOut k prev e freeList).allocated = t.allocated ∧
      (t.cutOut k prev e freeList).releasePool = t.releasePool := by
  obtain ⟨setup,allocated,released⟩ := setLink_setup t k prev (t.memory e).next
  exact ⟨⟨setup.size,setup.frequency⟩,allocated,released⟩

theorem cutOut_data (t : Table) (k : Int) (prev : Option Nat) (e : Nat) (freeList : Option Nat) (a : Nat) :
    ((t.cutOut k prev e freeList).memory a).data = (t.memory a).data :=
  (setNext_data _ e freeList a).trans (setLink_data t k prev _ a)

theorem cutOut_other (t : Table) (k : Int) (freeList : Option Nat) (different : a ≠ e) (notPrev : prev ≠ some a) :
    (t.cutOut k prev e freeList).memory a = t.memory a := by
  rw [Table.cutOut,Table.setNext,setEntry_other _ _ different,setLink_next t k _ _ notPrev]

theorem cutOut_self (t : Table) (k : Int) (prev : Option Nat) (e : Nat) (freeList : Option Nat) :
    (t.cutOut k prev e freeList).nextOf e = freeList := by
  simp [Table.nextOf,Table.cutOut,Table.setNext]

theorem cutOut_prev (t : Table) (k : Int) (freeList : Option Nat) (different : p ≠ e) :
    (t.cutOut k (some p) e freeList).nextOf p = t.nextOf e := by
  rw [Table.nextOf,Table.cutOut,Table.setNext,setEntry_other _ _ different]
  simp [Table.setLink,Table.setNext,Table.nextOf]

theorem cutOut_entries (t : Table) (k : Int) (prev : Option Nat) (e : Nat) (freeList : Option Nat) (j : Int) :
    (t.cutOut k prev e freeList).entries j = if j = k ∧ prev = none then t.nextOf e else t.entries j := by
  cases prev with
  | none =>
      by_cases equal : j = k
      · simp [Table.cutOut,Table.setNext,Table.setEntry,Table.setLink,Table.nextOf,equal]
      · simp [Table.cutOut,Table.setNext,Table.setEntry,Table.setLink,equal]
  | some p => simp [Table.cutOut,Table.setNext,Table.setEntry,Table.setLink]

theorem Shape.mem_without (shape : Shape t chains freeList limbo pool) (inside : t.InRange k)
    (chainAt : chains k = kept ++ e :: rest) (within : t.InRange j) :
    a ∈ Function.update chains k (kept ++ rest) j ↔ a ∈ chains j ∧ a ≠ e := by
  rw [mem_update]
  split
  · rename_i equal
    subst j
    have once := links_nodup (shape.linked k inside)
    rw [chainAt] at once ⊢
    have notLater : e ∉ rest := (List.nodup_cons.mp (List.nodup_append.mp once).2.1).1
    have notBefore : e ∉ kept := fun earlier => (List.nodup_append.mp once).2.2 e earlier e (by simp) rfl
    grind
  · rename_i equal
    refine ⟨fun present => ⟨present,?_⟩,And.left⟩
    rintro rfl
    exact equal (shape.chain_apart within inside present (by simp [chainAt]))

theorem cutOut_shape (shape : Shape t chains freeList limbo pool) (inside : t.InRange k)
    (chainAt : chains k = kept ++ e :: rest) :
    Shape (t.cutOut k kept.getLast? e freeList) (Function.update chains k (kept ++ rest)) (some e) (e :: limbo) pool := by
  have linked := shape.linked k inside
  rw [chainAt] at linked
  have once := links_nodup linked
  have notLater : e ∉ rest := (List.nodup_cons.mp (List.nodup_append.mp once).2.1).1
  have notBefore : e ∉ kept := fun earlier => (List.nodup_append.mp once).2.2 e earlier e (by simp) rfl
  have ownChain : e ∈ chains k := by simp [chainAt]
  have fewer : (kept ++ rest).Sublist (chains k) := by
    rw [chainAt]
    exact List.Sublist.append_left (List.sublist_cons_self e rest) kept
  obtain ⟨same,allocated,released⟩ := cutOut_setup t k kept.getLast? e freeList
  have away : ∀ nodes : List Nat, (∀ a ∈ nodes, a ∉ chains k) →
      ∀ a ∈ nodes, t.nextOf a = (t.cutOut k kept.getLast? e freeList).nextOf a := by
    intro nodes apart a member
    have different : a ≠ e := fun equal => apart a member (equal ▸ ownChain)
    have notLast : kept.getLast? ≠ some a :=
      fun last => apart a member (by rw [chainAt]; exact List.mem_append_left _ (List.mem_of_getLast? last))
    rw [Table.nextOf,Table.nextOf,cutOut_other t k freeList different notLast]
  obtain ⟨notLimbo,notPool,_⟩ := shape.chained k inside e ownChain
  refine shape.rearrange same allocated (fun a => data_ipaddr (cutOut_data t k _ e freeList a)) ?_ ⟨rfl,?_⟩ ?_ ?_ ?_ ?_ ?_
  · intro j within
    rw [cutOut_entries]
    by_cases equal : j = k
    · subst j
      simp only [Function.update_self,true_and,List.getLast?_eq_none_iff]
      refine links_unlink linked (fun a present notLast => ?_) fun a last => ?_
      · have different : a ≠ e := by
          rintro rfl
          exact (List.mem_append.mp present).elim notBefore notLater
        rw [Table.nextOf,Table.nextOf,cutOut_other t k freeList different notLast]
      · rw [last]
        exact cutOut_prev t k freeList fun equal => notBefore (equal ▸ List.mem_of_getLast? last)
    · simp only [equal,false_and,if_false,Function.update_of_ne equal]
      refine links_congr (away _ fun a present chained => ?_) (shape.linked j within)
      exact equal (shape.chain_apart within inside present chained)
  · rw [cutOut_self]
    exact links_congr (away _ fun a waits chained => (shape.chained k inside a chained).1 waits) shape.pending
  · rw [released]
    exact links_congr (away _ fun a pooled chained => (shape.chained k inside a chained).2.1 pooled) shape.pooled
  · intro j _
    by_cases equal : j = k
    · subst j
      rw [Function.update_self]
      exact fewer
    · rw [Function.update_of_ne equal]
  · intro j within a present
    obtain ⟨old,different⟩ := (shape.mem_without inside chainAt within).mp present
    obtain ⟨notWaiting,notPooled,_⟩ := shape.chained j within a old
    exact ⟨by simpa [different] using notWaiting,notPooled⟩
  · intro a present
    rcases List.mem_cons.mp present with rfl | old
    · exact notPool
    · exact (shape.waiting a old).1
  · intro a
    have chainsAt : (∃ j, t.InRange j ∧ a ∈ Function.update chains k (kept ++ rest) j) ∨ a = e ↔
        ∃ j, t.InRange j ∧ a ∈ chains j := by
      constructor
      · rintro (⟨j,within,present⟩ | rfl)
        · exact ⟨j,within,((shape.mem_without inside chainAt within).mp present).1⟩
        · exact ⟨k,inside,ownChain⟩
      · rintro ⟨j,within,present⟩
        by_cases removed : a = e
        · exact .inr removed
        · exact .inl ⟨j,within,(shape.mem_without inside chainAt within).mpr ⟨present,removed⟩⟩
    unfold Placed
    rw [← chainsAt,List.mem_cons]
    simp only [or_assoc,or_comm,or_left_comm]

theorem freeEntry_shape (shape : Shape t chains (some e) (e :: limbo) pool) :
    Shape (freeEntry t e) chains (t.memory e).next limbo (e :: pool) := by
  have once := links_nodup shape.pending
  rw [List.nodup_cons] at once
  have links : ∀ nodes : List Nat, e ∉ nodes → ∀ a ∈ nodes, t.nextOf a = (freeEntry t e).nextOf a := by
    intro nodes apart a member
    have different : a ≠ e := by rintro rfl; exact apart member
    simp only [Table.nextOf,freeEntry,Table.setNext]
    rw [setEntry_other t _ different]
  have notChained : ∀ k, t.InRange k → e ∉ chains k :=
    fun k inside chained => (shape.chained k inside e chained).1 (by simp)
  have notPooled : e ∉ pool := (shape.waiting e (by simp)).1
  refine shape.rearrange ⟨rfl,rfl⟩ rfl (fun a => data_ipaddr (setNext_data t e t.releasePool a)) ?_
    (links_congr (links _ once.1) shape.pending.2) ?_ (fun k _ => List.Sublist.refl _) ?_ ?_ ?_
  · intro k within
    exact links_congr (links _ (notChained k within)) (shape.linked k within)
  · exact links_push shape.pooled (links _ notPooled) (by simp [Table.nextOf,freeEntry,Table.setNext])
  · intro k within a member
    obtain ⟨one,two,_⟩ := shape.chained k within a member
    have different : a ≠ e := by rintro rfl; exact notChained k within member
    exact ⟨fun waits => one (by simp [waits]),by simpa [different] using two⟩
  · intro a member
    have different : a ≠ e := by rintro rfl; exact once.1 member
    simpa [different] using (shape.waiting a (by simp [member])).1
  · intro a
    unfold Placed
    rw [List.mem_cons,List.mem_cons]
    tauto

theorem releaseList_shape (left : Nat) (enough : limbo.length ≤ left)
    (shape : Shape t chains freeList limbo pool) :
    Shape (releaseList left t freeList) chains none [] (limbo.reverse ++ pool) ∧
      SameSetup t (releaseList left t freeList) ∧
      ∀ a, ((releaseList left t freeList).memory a).data = (t.memory a).data := by
  induction limbo generalizing t freeList pool left with
  | nil =>
      obtain rfl : freeList = none := shape.pending
      cases left <;> exact ⟨shape,SameSetup.refl t,fun _ => rfl⟩
  | cons e rest ih =>
      obtain rfl : freeList = some e := shape.pending.1
      cases left with
      | zero => simp at enough
      | succ left =>
          obtain ⟨after,setup,data⟩ := ih left (by simpa using enough) (freeEntry_shape shape)
          refine ⟨by simpa [releaseList] using after,?_,?_⟩
          · exact ⟨setup.size,setup.frequency⟩
          · exact fun a => (data a).trans (setNext_data t e t.releasePool a)

def Expires (index : Nat) (slotIndex : Int) (t : Table) (e : Nat) : Prop :=
  (clearOutdatedData (t.memory e) index slotIndex).counter = 0

instance (index : Nat) (slotIndex : Int) (t : Table) (e : Nat) : Decidable (Expires index slotIndex t e) :=
  inferInstanceAs (Decidable (_ = _))

-- What the section of a sweep under one bucket's lock leaves behind, from any
-- point of the walk on: `kept` has been passed, `todo` is still to come.
structure Swept (index : Nat) (slotIndex : Int) (t : Table) (chains : Int → List Nat) (k : Int)
    (kept todo pool : List Nat) (result : Table × Option Nat) : Prop where
  shape : ∃ limbo, Shape result.1
    (Function.update chains k (kept ++ todo.filter fun e => ¬ Expires index slotIndex t e)) result.2 limbo pool
  setup : SameSetup t result.1
  cleared : ∀ e ∈ todo, (result.1.memory e).data = (clearOutdatedData (t.memory e) index slotIndex).data
  others : ∀ e, e ∉ todo → (result.1.memory e).data = (t.memory e).data

theorem Swept.cons (swept : Swept index slotIndex next chains' k kept' rest pool result) (setup : SameSetup t next)
    (apart : e ∉ rest) (here : (next.memory e).data = (clearOutdatedData (t.memory e) index slotIndex).data)
    (others : ∀ a, a ≠ e → (next.memory a).data = (t.memory a).data) (later : ∀ a ∈ rest, next.memory a = t.memory a)
    (chain : Function.update chains' k (kept' ++ rest.filter fun a => ¬ Expires index slotIndex t a) =
      Function.update chains k (kept ++ (e :: rest).filter fun a => ¬ Expires index slotIndex t a)) :
    Swept index slotIndex t chains k kept (e :: rest) pool result := by
  have sameExpiry : ∀ a ∈ rest, Expires index slotIndex next a ↔ Expires index slotIndex t a := by
    intro a member
    unfold Expires
    rw [later a member]
  have filtered : (rest.filter fun a => ¬ Expires index slotIndex next a) =
      rest.filter fun a => ¬ Expires index slotIndex t a :=
    List.filter_congr fun a member => by simp [sameExpiry a member]
  refine ⟨?_,setup.trans swept.setup,?_,?_⟩
  · obtain ⟨limbo,done⟩ := swept.shape
    rw [filtered,chain] at done
    exact ⟨limbo,done⟩
  · intro a member
    rcases List.mem_cons.mp member with rfl | old
    · rw [swept.others a apart,here]
    · rw [swept.cleared a old,later a old]
  · intro a outside
    simp only [List.mem_cons,not_or] at outside
    rw [swept.others a outside.2,others a outside.1]

theorem link_head (shape : Shape t chains freeList limbo pool) (inside : t.InRange k) (chainAt : chains k = kept ++ rest) :
    t.link k kept.getLast? = rest.head? := by
  have chain := shape.linked k inside
  rw [chainAt] at chain
  cases last : kept.getLast? with
  | none =>
      obtain rfl := List.getLast?_eq_none_iff.mp last
      simpa [Table.link] using links_head chain
  | some p =>
      obtain ⟨before,rfl⟩ := List.getLast?_eq_some_iff.mp last
      rw [List.append_assoc] at chain
      exact links_next chain

theorem sweepChain_swept (index : Nat) (slotIndex : Int) (todo kept : List Nat) (left : Nat)
    (shape : Shape t chains freeList limbo pool) (inside : t.InRange k) (chainAt : chains k = kept ++ todo)
    (enough : todo.length ≤ left) :
    Swept index slotIndex t chains k kept todo pool
      (sweepChain index slotIndex k left todo.head? kept.getLast? t freeList) := by
  induction todo generalizing t chains freeList limbo kept left with
  | nil =>
      have result : sweepChain index slotIndex k left none kept.getLast? t freeList = (t,freeList) := by
        cases left <;> rfl
      rw [List.head?_nil,result]
      refine ⟨⟨limbo,?_⟩,SameSetup.refl t,by simp,fun _ _ => rfl⟩
      have unchanged : Function.update chains k (kept ++ []) = chains := by rw [← chainAt]; simp
      rw [List.filter_nil,unchanged]
      exact shape
  | cons e rest ih =>
      cases left with
      | zero => simp at enough
      | succ left =>
          have once := links_nodup (shape.linked k inside)
          rw [chainAt] at once
          have notRest : e ∉ rest := (List.nodup_cons.mp (List.nodup_append.mp once).2.1).1
          have notKept : ∀ a ∈ e :: rest, a ∉ kept :=
            fun a later earlier => (List.nodup_append.mp once).2.2 a earlier a later rfl
          have differs : ∀ a ∈ rest, a ≠ e := by
            rintro a member rfl
            exact notRest member
          generalize cleared : t.setEntry e (clearOutdatedData (t.memory e) index slotIndex) = middle
          have clearedShape : Shape middle chains freeList limbo pool := by
            rw [← cleared]; exact shape.setEntry e _ (by simp) (by simp)
          have setup : SameSetup t middle := by rw [← cleared]; exact ⟨rfl,rfl⟩
          have within := setup.inRange.mpr inside
          have here : middle.memory e = clearOutdatedData (t.memory e) index slotIndex := by simp [← cleared]
          have away : ∀ a, a ≠ e → middle.memory a = t.memory a := by
            intro a different; rw [← cleared]; exact setEntry_other t _ different
          by_cases expires : Expires index slotIndex t e
          · have zero : (middle.memory e).counter = 0 := by rw [here]; exact expires
            have cutSetup := setup.trans (cutOut_setup middle k kept.getLast? e freeList).1
            have cutData := cutOut_data middle k kept.getLast? e freeList
            have cutShape := cutOut_shape clearedShape within chainAt
            have linkAt := link_head cutShape (cutSetup.inRange.mpr inside) (Function.update_self _ _ _)
            have step : sweepChain index slotIndex k (left+1) (e :: rest).head? kept.getLast? t freeList =
                sweepChain index slotIndex k left rest.head? kept.getLast?
                  (middle.cutOut k kept.getLast? e freeList) (some e) := by
              rw [← linkAt]
              simp only [List.head?_cons,sweepChain,cleared,zero,if_true,Table.cutOut]
            rw [step]
            refine (ih kept left cutShape (cutSetup.inRange.mpr inside) (by simp) (by simpa using enough)).cons cutSetup
              notRest ((cutData e).trans (congrArg _ here)) (fun a different => ?_) (fun a member => ?_) ?_
            · rw [cutData,away a different]
            · have notLast : kept.getLast? ≠ some a :=
                fun last => notKept a (by simp [member]) (List.mem_of_getLast? last)
              rw [cutOut_other middle k freeList (differs a member) notLast,away a (differs a member)]
            · rw [List.filter_cons_of_neg (by simpa using expires),Function.update_idem]
          · have nonzero : (middle.memory e).counter ≠ 0 := by rw [here]; exact expires
            have nextAt : (middle.memory e).next = rest.head? := by
              have chain := clearedShape.linked k within
              rw [chainAt] at chain
              exact links_next chain
            have step : sweepChain index slotIndex k (left+1) (e :: rest).head? kept.getLast? t freeList =
                sweepChain index slotIndex k left rest.head? (kept ++ [e]).getLast? middle freeList := by
              simp only [List.head?_cons,sweepChain,cleared,nonzero,if_false,nextAt,List.getLast?_concat]
            rw [step]
            refine (ih (kept ++ [e]) left clearedShape within (by simpa using chainAt) (by simpa using enough)).cons setup
              notRest (congrArg _ here) (fun a different => ?_) (fun a member => away a (differs a member)) ?_
            · rw [away a different]
            · rw [List.filter_cons_of_pos (by simpa using expires),List.append_assoc]
              rfl

theorem sweepBucket_spec (index : Nat) (slotIndex : Int) (shape : Shape t chains none [] pool) (inside : t.InRange k) :
    (∃ rest, Shape (sweepBucket index slotIndex t k)
      (Function.update chains k ((chains k).filter fun e => ¬ Expires index slotIndex t e)) none [] rest) ∧
    SameSetup t (sweepBucket index slotIndex t k) ∧
    (∀ e ∈ chains k, ((sweepBucket index slotIndex t k).memory e).data =
      (clearOutdatedData (t.memory e) index slotIndex).data) ∧
    ∀ e, e ∉ chains k → ((sweepBucket index slotIndex t k).memory e).data = (t.memory e).data := by
  have swept := sweepChain_swept index slotIndex (chains k) [] t.allocated shape inside rfl
    (shape.chain_length inside)
  rw [← links_head (shape.linked k inside),List.getLast?_nil] at swept
  unfold sweepBucket
  generalize sweepChain index slotIndex k t.allocated (t.entries k) none t none = result at *
  obtain ⟨middle,freed⟩ := result
  obtain ⟨limbo,done⟩ := swept.shape
  obtain ⟨after,setup,data⟩ := releaseList_shape middle.allocated done.limbo_length done
  refine ⟨⟨_,after⟩,swept.setup.trans setup,?_,?_⟩
  · intro e member
    rw [data,swept.cleared e member]
  · intro e outside
    rw [data,swept.others e outside]

end TcpProxy.AutoBlacklist
