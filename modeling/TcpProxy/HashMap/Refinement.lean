import TcpProxy.HashMap.Table
import TcpProxy.Lib.LinkedChain

namespace TcpProxy.HashMap
open LinkedChain

variable {Value : Type} {t next : Table Value} {broken : Int → Prop} {chains : Int → List Nat}

def Table.nextOf (t : Table Value) (e : Nat) : Option Nat := (t.memory e).bind Node.next

def Table.keyOf (t : Table Value) (e : Nat) : Option Key := (t.memory e).map Node.key

-- The chains of the table. A broken bucket is one whose first node is freed;
-- nothing is said about what is behind it.
structure Shape (t : Table Value) (broken : Int → Prop) (chains : Int → List Nat) : Prop where
  linked : ∀ k, t.InRange k → ¬ broken k → Links t.nextOf (t.buckets k) (chains k)
  dangling : ∀ k, broken k → chains k = [] ∧ ∃ e, t.buckets k = some e ∧ t.memory e = none
  nodes : ∀ k, t.InRange k → ∀ e ∈ chains k,
    ∃ node, t.memory e = some node ∧ node.prev = k ∧ findHead t node.key = some k
  keys : ∀ k, t.InRange k → ((chains k).map t.keyOf).Nodup
  below : ∀ e, t.memory e ≠ none → e < t.allocated
  dangled : ∀ k e, broken k → t.buckets k = some e → e < t.allocated

def Stored (t : Table Value) (chains : Int → List Nat) (key : Key) (value : Option Value) : Prop :=
  ∃ k e node, findHead t key = some k ∧ e ∈ chains k ∧ t.memory e = some node ∧ node.key = key ∧ node.value = value

theorem findHead_inRange (found : findHead t key = some k) : t.InRange k := by
  simp only [findHead,Option.bind_eq_bind,Option.bind_eq_some_iff] at found
  obtain ⟨code,_,index⟩ := found
  split at index
  · cases index; assumption
  · cases index

theorem findHead_same (size : next.bucketsSize = t.bucketsSize) (hash : next.hashingFunction = t.hashingFunction) :
    findHead next = findHead t := by
  cases next
  cases t
  cases size
  cases hash
  rfl

@[simp] theorem setNode_memory (t : Table Value) (e : Nat) (node : Option (Node Value)) :
    (t.setNode e node).memory e = node := Function.update_self _ _ _

theorem setNode_other (t : Table Value) (node : Option (Node Value)) (different : a ≠ e) :
    (t.setNode e node).memory a = t.memory a := Function.update_of_ne different _ _

@[simp] theorem findHead_setNode (t : Table Value) (e : Nat) (node : Option (Node Value)) :
    findHead (t.setNode e node) = findHead t := findHead_same rfl rfl

@[simp] theorem findHead_insertHead (t : Table Value) (k : Int) (key : Key) (value : Option Value) :
    findHead (insertHead t k key value) = findHead t := findHead_same rfl rfl

theorem findFrom_links (linked : Links t.nextOf head nodes) (live : ∀ e ∈ nodes, t.memory e ≠ none)
    (enough : nodes.length ≤ left) (key : Key) :
    findFrom t key left head = some (nodes.find? fun e => t.keyOf e = some key) := by
  induction nodes generalizing head left with
  | nil =>
      cases linked
      cases left <;> rfl
  | cons e rest ih =>
      obtain ⟨rfl,tail⟩ := linked
      obtain ⟨node,resident⟩ := Option.ne_none_iff_exists'.mp (live e (by simp))
      cases left with
      | zero => cases enough
      | succ left =>
          have keyAt : t.keyOf e = some node.key := by simp [Table.keyOf,resident]
          have nextAt : t.nextOf e = node.next := by simp [Table.nextOf,resident]
          have further := ih (nextAt ▸ tail) (fun e member => live e (List.mem_cons_of_mem _ member))
            (Nat.le_of_succ_le_succ enough)
          simp only [findFrom,resident,Option.bind_eq_bind,Option.bind_some,List.find?_cons,keyAt]
          by_cases equal : key = node.key
          · simp [equal]
          · have other : ¬ node.key = key := fun same => equal same.symm
            simpa [equal,other] using further

namespace Shape

theorem live (shape : Shape t broken chains) (inside : t.InRange k) (member : e ∈ chains k) : t.memory e ≠ none := by
  obtain ⟨node,resident,_⟩ := shape.nodes k inside e member
  simp [resident]

theorem key_unique (shape : Shape t broken chains) (inside : t.InRange k) (one : a ∈ chains k) (two : b ∈ chains k)
    (same : t.keyOf a = t.keyOf b) : a = b :=
  List.inj_on_of_nodup_map (shape.keys k inside) one two same

theorem length (shape : Shape t broken chains) (inside : t.InRange k) : (chains k).length ≤ t.allocated := by
  have once := List.Nodup.of_map _ (shape.keys k inside)
  exact length_le_of_nodup _ once fun e member => shape.below e (shape.live inside member)

theorem findData_eq (shape : Shape t broken chains) (inside : t.InRange k) (intact : ¬ broken k) (key : Key) :
    findData t k key = some ((chains k).find? fun e => t.keyOf e = some key) :=
  findFrom_links (shape.linked k inside intact) (fun _ member => shape.live inside member) (shape.length inside) key

theorem findData_broken (shape : Shape t broken chains) (gone : broken k) (key : Key) : findData t k key = none := by
  obtain ⟨_,e,head,freed⟩ := shape.dangling k gone
  unfold findData
  rw [head]
  cases t.allocated with
  | zero => rfl
  | succ left => simp [findFrom,freed]

theorem find_cases (shape : Shape t broken chains) (head : findHead t key = some k) (intact : ¬ broken k) :
    (findData t k key = some none ∧ ∀ value, ¬ Stored t chains key value) ∨
    ∃ before e after node, chains k = before ++ e :: after ∧ t.memory e = some node ∧ node.key = key ∧
      findData t k key = some (some e) ∧ ∀ value, Stored t chains key value ↔ node.value = value := by
  have inside := findHead_inRange head
  have found := shape.findData_eq inside intact key
  cases outcome : (chains k).find? fun e => t.keyOf e = some key with
  | none =>
      refine .inl ⟨found.trans (congrArg some outcome),?_⟩
      intro value ⟨k',e,node,head',member,resident,own,_⟩
      obtain rfl : k = k' := Option.some.inj (head.symm.trans head')
      have differs := List.find?_eq_none.mp outcome e member
      simp [Table.keyOf,resident,own] at differs
  | some e =>
      have member := List.mem_of_find?_eq_some outcome
      have own : t.keyOf e = some key := by simpa using List.find?_some outcome
      obtain ⟨node,resident,_⟩ := shape.nodes k inside e member
      have keyAt : node.key = key := by simpa [Table.keyOf,resident] using own
      obtain ⟨before,after,split⟩ := List.append_of_mem member
      refine .inr ⟨before,e,after,node,split,resident,keyAt,found.trans (congrArg some outcome),?_⟩
      intro value
      constructor
      · intro ⟨k',e',node',head',member',at',own',value'⟩
        obtain rfl : k = k' := Option.some.inj (head.symm.trans head')
        obtain rfl : e' = e := shape.key_unique inside member' member
          (by simp [Table.keyOf,at',own',resident,keyAt])
        obtain rfl : node' = node := Option.some.inj (at'.symm.trans resident)
        exact value'
      · intro same
        exact ⟨k,e,node,head,member,resident,keyAt,same⟩

theorem fresh (shape : Shape t broken chains) : t.memory t.allocated = none := by
  by_contra used
  exact absurd (shape.below _ used) (Nat.lt_irrefl _)

theorem not_allocated (shape : Shape t broken chains) (inside : t.InRange k) (member : e ∈ chains k) :
    e ≠ t.allocated := by
  rintro rfl
  exact shape.live inside member shape.fresh

theorem insertHead (shape : Shape t broken chains) (head : findHead t key = some k) (intact : ¬ broken k)
    (absent : ∀ value, ¬ Stored t chains key value) (value : Option Value) :
    Shape (insertHead t k key value) broken (Function.update chains k (t.allocated :: chains k)) := by
  have inside := findHead_inRange head
  have memory : ∀ e, e ≠ t.allocated → (HashMap.insertHead t k key value).memory e = t.memory e :=
    fun e different => setNode_other t _ different
  have new : (HashMap.insertHead t k key value).memory t.allocated = some ⟨key,value,k,t.buckets k⟩ :=
    setNode_memory t _ _
  have kept : ∀ j, t.InRange j → ∀ e ∈ chains j, (HashMap.insertHead t k key value).memory e = t.memory e :=
    fun j inRange e member => memory e (shape.not_allocated inRange member)
  have heads : (HashMap.insertHead t k key value).buckets = Function.update t.buckets k (some t.allocated) := rfl
  constructor
  case linked =>
    intro j inRange whole
    have agree : ∀ e ∈ chains j, t.nextOf e = (HashMap.insertHead t k key value).nextOf e := fun e member => by
      simp only [Table.nextOf,kept j inRange e member]
    have linked := shape.linked j inRange whole
    by_cases equal : j = k
    · subst j
      rw [heads,Function.update_self,Function.update_self]
      refine links_push linked agree ?_
      simp [Table.nextOf,new]
    · rw [heads,Function.update_of_ne equal,Function.update_of_ne equal]
      exact links_congr agree linked
  case dangling =>
    intro j gone
    have different : j ≠ k := fun equal => intact (equal ▸ gone)
    obtain ⟨empty,e,first,freed⟩ := shape.dangling j gone
    rw [heads,Function.update_of_ne different,Function.update_of_ne different]
    refine ⟨empty,e,first,(memory e ?_).trans freed⟩
    exact Nat.ne_of_lt (shape.dangled j e gone first)
  case nodes =>
    intro j inRange e member
    rcases mem_update_cons.mp member with ⟨rfl,rfl⟩ | old
    · exact ⟨_,new,rfl,by simpa using head⟩
    · simpa [kept j inRange e old] using shape.nodes j inRange e old
  case keys =>
    intro j inRange
    have same : (chains j).map (HashMap.insertHead t k key value).keyOf = (chains j).map t.keyOf :=
      List.map_congr_left fun e member => by simp only [Table.keyOf,kept j inRange e member]
    have unique := shape.keys j inRange
    by_cases equal : j = k
    · subst j
      rw [Function.update_self,List.map_cons,same]
      refine List.nodup_cons.mpr ⟨?_,unique⟩
      intro again
      obtain ⟨e,member,own⟩ := List.mem_map.mp again
      obtain ⟨node,resident,_⟩ := shape.nodes k inside e member
      refine absent node.value ⟨k,e,node,head,member,resident,?_,rfl⟩
      simpa [Table.keyOf,resident,new] using own
    · rw [Function.update_of_ne equal,same]
      exact unique
  case below =>
    intro e used
    by_cases equal : e = t.allocated
    · exact equal ▸ Nat.lt_succ_self _
    · rw [memory e equal] at used
      exact Nat.lt_succ_of_lt (shape.below e used)
  case dangled =>
    intro j e gone first
    have different : j ≠ k := fun equal => intact (equal ▸ gone)
    rw [heads,Function.update_of_ne different] at first
    exact Nat.lt_succ_of_lt (shape.dangled j e gone first)

theorem insertHead_stored (shape : Shape t broken chains) (head : findHead t key = some k)
    (absent : ∀ value, ¬ Stored t chains key value) (value : Option Value) (other : Key) (held : Option Value) :
    Stored (HashMap.insertHead t k key value) (Function.update chains k (t.allocated :: chains k)) other held ↔
      if other = key then value = held else Stored t chains other held := by
  have new : (HashMap.insertHead t k key value).memory t.allocated = some ⟨key,value,k,t.buckets k⟩ :=
    setNode_memory t _ _
  have old : ∀ j a, findHead t other = some j → a ∈ chains j →
      (HashMap.insertHead t k key value).memory a = t.memory a := fun j a resident member =>
    setNode_other t _ (shape.not_allocated (findHead_inRange resident) member)
  constructor
  · intro ⟨j,a,node,resident,member,sameNode,own,sameValue⟩
    rw [findHead_insertHead] at resident
    rcases mem_update_cons.mp member with ⟨rfl,rfl⟩ | before
    · obtain rfl := Option.some.inj (new.symm.trans sameNode)
      rw [if_pos own.symm]
      exact sameValue
    · have stored : Stored t chains other held := ⟨j,a,node,resident,before,(old j a resident before).symm.trans sameNode,own,sameValue⟩
      have different : other ≠ key := by
        rintro rfl
        exact absent held stored
      rw [if_neg different]
      exact stored
  · intro holds
    by_cases equal : other = key
    · subst other
      rw [if_pos rfl] at holds
      exact ⟨k,t.allocated,_,by simpa using head,mem_update_cons.mpr (.inl ⟨rfl,rfl⟩),new,rfl,holds⟩
    · rw [if_neg equal] at holds
      obtain ⟨j,a,node,resident,member,sameNode,own,sameValue⟩ := holds
      exact ⟨j,a,node,by simpa using resident,mem_update_cons.mpr (.inr member),(old j a resident member).trans sameNode,own,sameValue⟩

theorem disjoint (shape : Shape t broken chains) (one : t.InRange j) (two : t.InRange k)
    (member : e ∈ chains j) (also : e ∈ chains k) : j = k := by
  obtain ⟨node,resident,own,_⟩ := shape.nodes j one e member
  obtain ⟨node',at',own',_⟩ := shape.nodes k two e also
  obtain rfl := Option.some.inj (resident.symm.trans at')
  exact own.symm.trans own'

-- A change of the nodes of one bucket that may drop some of them, or break
-- the bucket.
theorem rechain (shape : Shape t broken chains) (inside : t.InRange k) (intact : ¬ broken k)
    (size : next.bucketsSize = t.bucketsSize) (hash : next.hashingFunction = t.hashingFunction)
    (allocated : next.allocated = t.allocated) (heads : next.buckets = t.buckets)
    (others : ∀ e, e ∉ chains k → next.memory e = t.memory e) (part : chain.Sublist (chains k))
    (nodes : ∀ e ∈ chain, ∀ node, t.memory e = some node →
      ∃ node', next.memory e = some node' ∧ node'.key = node.key ∧ node'.prev = node.prev)
    (outcome : (¬ gone ∧ Links next.nextOf (t.buckets k) chain) ∨
      (gone ∧ chain = [] ∧ ∃ e ∈ chains k, t.buckets k = some e ∧ next.memory e = none)) :
    Shape next (fun j => broken j ∨ j = k ∧ gone) (Function.update chains k chain) := by
  have sameHeads : findHead next = findHead t := findHead_same size hash
  have range : ∀ j, next.InRange j ↔ t.InRange j := fun j => by simp only [Table.InRange,size]
  have apart : ∀ j, t.InRange j → j ≠ k → ∀ e ∈ chains j, next.memory e = t.memory e :=
    fun j inRange different e member => others e fun also =>
      different (shape.disjoint inRange inside member also)
  have kept : ∀ j, t.InRange j → ∀ e ∈ Function.update chains k chain j, ∃ node node',
      t.memory e = some node ∧ next.memory e = some node' ∧ node'.key = node.key ∧ node'.prev = node.prev ∧
      e ∈ chains j := by
    intro j inRange e member
    by_cases equal : j = k
    · subst j
      rw [Function.update_self] at member
      obtain ⟨node,resident,_⟩ := shape.nodes k inside e (part.subset member)
      obtain ⟨node',at',key,prev⟩ := nodes e member node resident
      exact ⟨node,node',resident,at',key,prev,part.subset member⟩
    · rw [Function.update_of_ne equal] at member
      obtain ⟨node,resident,_⟩ := shape.nodes j inRange e member
      exact ⟨node,node,resident,(apart j inRange equal e member).trans resident,rfl,rfl,member⟩
  constructor
  case linked =>
    intro j inRange whole
    rw [range] at inRange
    rw [heads]
    by_cases equal : j = k
    · subst j
      rw [Function.update_self]
      rcases outcome with ⟨_,linked⟩ | ⟨vanished,_⟩
      · exact linked
      · exact absurd (.inr ⟨rfl,vanished⟩) whole
    · rw [Function.update_of_ne equal]
      refine links_congr (fun e member => ?_) (shape.linked j inRange fun also => whole (.inl also))
      simp only [Table.nextOf,apart j inRange equal e member]
  case dangling =>
    intro j vanished
    rw [heads]
    rcases vanished with before | ⟨rfl,current⟩
    · have different : j ≠ k := fun equal => intact (equal ▸ before)
      obtain ⟨empty,e,first,freed⟩ := shape.dangling j before
      rw [Function.update_of_ne different]
      refine ⟨empty,e,first,(others e fun member => ?_).trans freed⟩
      exact shape.live inside member freed
    · rcases outcome with ⟨other,_⟩ | ⟨_,empty,e,_,first,freed⟩
      · exact absurd current other
      · rw [Function.update_self]
        exact ⟨empty,e,first,freed⟩
  case nodes =>
    intro j inRange e member
    rw [range] at inRange
    obtain ⟨node,node',resident,at',key,prev,old⟩ := kept j inRange e member
    obtain ⟨sameNode,same,own,home⟩ := shape.nodes j inRange e old
    obtain rfl := Option.some.inj (resident.symm.trans same)
    exact ⟨node',at',prev.trans own,by rw [sameHeads,key]; exact home⟩
  case keys =>
    intro j inRange
    rw [range] at inRange
    have same : (Function.update chains k chain j).map next.keyOf = (Function.update chains k chain j).map t.keyOf := by
      refine List.map_congr_left fun e member => ?_
      obtain ⟨node,node',resident,at',key,_⟩ := kept j inRange e member
      simp [Table.keyOf,resident,at',key]
    have unique := shape.keys j inRange
    rw [same]
    by_cases equal : j = k
    · subst j
      rw [Function.update_self]
      exact unique.sublist (part.map _)
    · rwa [Function.update_of_ne equal]
  case below =>
    intro e used
    rw [allocated]
    by_cases member : e ∈ chains k
    · exact shape.below e (shape.live inside member)
    · rw [others e member] at used
      exact shape.below e used
  case dangled =>
    intro j a vanished first
    rw [heads] at first
    rw [allocated]
    rcases vanished with before | ⟨rfl,current⟩
    · exact shape.dangled j a before first
    · rcases outcome with ⟨other,_⟩ | ⟨_,_,e,member,head,_⟩
      · exact absurd current other
      · obtain rfl := Option.some.inj (first.symm.trans head)
        exact shape.below a (shape.live inside member)

theorem setValue (shape : Shape t broken chains) (inside : t.InRange k) (intact : ¬ broken k)
    (member : e ∈ chains k) (resident : t.memory e = some node) (value : Option Value) :
    Shape (t.setNode e (some {node with value := value})) broken chains := by
  have same : (fun j => broken j ∨ j = k ∧ False) = broken := funext fun j => by simp
  have changed : ∀ a old, t.memory a = some old → ∃ new, (t.setNode e (some {node with value := value})).memory a = some new ∧
      new.key = old.key ∧ new.prev = old.prev ∧ new.next = old.next := by
    intro a old before
    by_cases equal : a = e
    · subst a
      obtain rfl := Option.some.inj (resident.symm.trans before)
      exact ⟨_,setNode_memory t e _,rfl,rfl,rfl⟩
    · exact ⟨old,(setNode_other t _ equal).trans before,rfl,rfl,rfl⟩
  have whole := @rechain _ t (t.setNode e (some {node with value := value})) broken chains k (chains k) False shape inside intact rfl rfl rfl rfl
    (fun a outside => setNode_other t _ fun equal => outside (equal ▸ member)) (List.Sublist.refl _)
    (fun a _ old before => by
      obtain ⟨new,after,key,prev,_⟩ := changed a old before
      exact ⟨new,after,key,prev⟩)
    (.inl ⟨id,links_congr (fun a inChain => by
      obtain ⟨old,before,_⟩ := shape.nodes k inside a inChain
      obtain ⟨new,after,_,_,link⟩ := changed a old before
      simp [Table.nextOf,before,after,link]) (shape.linked k inside intact)⟩)
  rwa [same,Function.update_eq_self] at whole

theorem setValue_stored (shape : Shape t broken chains) (head : findHead t key = some k) (member : e ∈ chains k)
    (resident : t.memory e = some node) (own : node.key = key) (value : Option Value) (other : Key) (held : Option Value) :
    Stored (t.setNode e (some {node with value := value})) chains other held ↔
      if other = key then value = held else Stored t chains other held := by
  have inside := findHead_inRange head
  constructor
  · intro ⟨j,a,found,home,inChain,there,named,sameValue⟩
    rw [findHead_setNode] at home
    by_cases equal : a = e
    · subst a
      obtain rfl := Option.some.inj ((setNode_memory t e _).symm.trans there)
      rw [if_pos (named.symm.trans own)]
      exact sameValue
    · have before := (setNode_other t _ equal).symm.trans there
      have different : other ≠ key := by
        rintro rfl
        obtain rfl := Option.some.inj (head.symm.trans home)
        refine equal (shape.key_unique inside inChain member ?_)
        simp [Table.keyOf,before,resident,named,own]
      rw [if_neg different]
      exact ⟨j,a,found,home,inChain,before,named,sameValue⟩
  · intro holds
    by_cases equal : other = key
    · subst other
      rw [if_pos rfl] at holds
      exact ⟨k,e,_,by simpa using head,member,setNode_memory t e _,own,holds⟩
    · rw [if_neg equal] at holds
      obtain ⟨j,a,found,home,inChain,there,named,sameValue⟩ := holds
      have apart : a ≠ e := by
        rintro rfl
        obtain rfl := Option.some.inj (resident.symm.trans there)
        exact equal (named.symm.trans own)
      exact ⟨j,a,found,by simpa using home,inChain,(setNode_other t _ apart).trans there,named,sameValue⟩

end Shape

-- The abstract map: a key has no entry, or an entry with a pointer.
abbrev Store (Value : Type) := Key → Option (Option Value)

structure Represents (t : Table Value) (broken : Int → Prop) (chains : Int → List Nat) (store : Store Value) : Prop where
  shape : Shape t broken chains
  stored : ∀ key value, store key = some value ↔ Stored t chains key value

def Operation.key : Operation Value → Key
  | .put key _ | .putIfAbsent key _ | .get key | .exists_ key | .remove key => key

def Operation.isRemove : Operation Value → Bool
  | .remove _ => true
  | _ => false

def answer (store : Store Value) : Operation Value → Answer Value
  | .put key _ | .putIfAbsent key _ | .get key | .remove key => .pointer (store key).join
  | .exists_ key => .truth (store key).isSome

def apply (store : Store Value) : Operation Value → Store Value
  | .put key value => Function.update store key (some value)
  | .putIfAbsent key value => if store key = none then Function.update store key (some value) else store
  | .get _ | .exists_ _ => store
  | .remove key => Function.update store key none

structure SameSetup (t next : Table Value) : Prop where
  size : next.bucketsSize = t.bucketsSize
  hash : next.hashingFunction = t.hashingFunction

namespace Represents

variable {store : Store Value}

theorem find_cases (valid : Represents t broken chains store) (head : findHead t key = some k) (intact : ¬ broken k) :
    (findData t k key = some none ∧ store key = none ∧ ∀ value, ¬ Stored t chains key value) ∨
    ∃ before e after node, chains k = before ++ e :: after ∧ t.memory e = some node ∧ node.key = key ∧
      findData t k key = some (some e) ∧ store key = some node.value := by
  rcases valid.shape.find_cases head intact with ⟨found,absent⟩ | ⟨before,e,after,node,split,resident,own,found,stored⟩
  · refine .inl ⟨found,?_,absent⟩
    cases held : store key with
    | none => rfl
    | some value => exact absurd ((valid.stored key value).mp held) (absent value)
  · exact .inr ⟨before,e,after,node,split,resident,own,found,(valid.stored key node.value).mpr ((stored _).mpr rfl)⟩

theorem getByKey_eq (valid : Represents t broken chains store) (head : findHead t key = some k) (intact : ¬ broken k) :
    getByKey t key = some (store key).join := by
  rcases valid.find_cases head intact with ⟨found,absent,_⟩ | ⟨_,e,_,node,_,resident,_,found,held⟩
  · simp [getByKey,head,found,absent]
  · simp [getByKey,head,found,held,resident]

theorem exists_eq (valid : Represents t broken chains store) (head : findHead t key = some k) (intact : ¬ broken k) :
    exists_ t key = some (store key).isSome := by
  rcases valid.find_cases head intact with ⟨found,absent,_⟩ | ⟨_,e,_,node,_,resident,_,found,held⟩
  · simp [exists_,head,found,absent]
  · simp [exists_,head,found,held]

theorem update (valid : Represents t broken chains store) (shape : Shape next broken chains')
    (stored : ∀ other held, Stored next chains' other held ↔ if other = key then value = held else Stored t chains other held) :
    Represents next broken chains' (Function.update store key (some value)) := by
  refine ⟨shape,?_⟩
  intro other held
  rw [stored other held]
  by_cases equal : other = key
  · subst other
    rw [if_pos rfl,Function.update_self,Option.some.injEq]
  · rw [if_neg equal,Function.update_of_ne equal]
    exact valid.stored other held

theorem insertHead (valid : Represents t broken chains store) (head : findHead t key = some k) (intact : ¬ broken k)
    (absent : ∀ value, ¬ Stored t chains key value) (value : Option Value) :
    Represents (HashMap.insertHead t k key value) broken (Function.update chains k (t.allocated :: chains k))
      (Function.update store key (some value)) :=
  valid.update (valid.shape.insertHead head intact absent value) (valid.shape.insertHead_stored head absent value)

theorem overwritePut (valid : Represents t broken chains store) (head : findHead t key = some k) (intact : ¬ broken k)
    (value : Option Value) :
    ∃ next chains', overwritePut t key value = some ((store key).join,next) ∧ SameSetup t next ∧
      Represents next broken chains' (Function.update store key (some value)) := by
  rcases valid.find_cases head intact with ⟨found,missing,absent⟩ | ⟨before,e,after,node,split,resident,own,found,held⟩
  · refine ⟨HashMap.insertHead t k key value,_,?_,⟨rfl,rfl⟩,valid.insertHead head intact absent value⟩
    simp [HashMap.overwritePut,head,found,missing]
  · have member : e ∈ chains k := by simp [split]
    refine ⟨t.setNode e (some {node with value := value}),chains,?_,⟨rfl,rfl⟩,?_⟩
    · simp [HashMap.overwritePut,head,found,resident,held]
    · exact valid.update (valid.shape.setValue (findHead_inRange head) intact member resident value)
        (valid.shape.setValue_stored head member resident own value)

theorem putIfAbsent (valid : Represents t broken chains store) (head : findHead t key = some k) (intact : ¬ broken k)
    (value : Option Value) :
    ∃ next chains', putIfAbsent t key value = some ((store key).join,next) ∧ SameSetup t next ∧
      Represents next broken chains' (apply store (.putIfAbsent key value)) := by
  rcases valid.find_cases head intact with ⟨found,missing,absent⟩ | ⟨before,e,after,node,split,resident,own,found,held⟩
  · refine ⟨HashMap.insertHead t k key value,Function.update chains k (t.allocated :: chains k),?_,⟨rfl,rfl⟩,?_⟩
    · simp [HashMap.putIfAbsent,head,found,missing]
    · rw [apply,if_pos missing]
      exact valid.insertHead head intact absent value
  · refine ⟨t,chains,?_,⟨rfl,rfl⟩,?_⟩
    · simp [HashMap.putIfAbsent,head,found,resident,held]
    · rw [apply,if_neg (by simp [held])]
      exact valid

theorem operate (valid : Represents t broken chains store) (op : Operation Value) (head : findHead t op.key = some k)
    (intact : ¬ broken k) (keeps : op.isRemove = false) :
    ∃ next chains', operate t op = some (answer store op,next) ∧ SameSetup t next ∧
      Represents next broken chains' (apply store op) := by
  cases op with
  | put key value =>
      have head : findHead t key = some k := head
      obtain ⟨next,chains',done,rest⟩ := valid.overwritePut head intact value
      exact ⟨next,chains',by simp [HashMap.operate,done,answer],rest⟩
  | putIfAbsent key value =>
      have head : findHead t key = some k := head
      obtain ⟨next,chains',done,rest⟩ := valid.putIfAbsent head intact value
      exact ⟨next,chains',by simp [HashMap.operate,done,answer],rest⟩
  | get key =>
      have head : findHead t key = some k := head
      have read := valid.getByKey_eq head intact
      exact ⟨t,chains,by simp [HashMap.operate,read,answer],⟨rfl,rfl⟩,valid⟩
  | exists_ key =>
      have head : findHead t key = some k := head
      have read := valid.exists_eq head intact
      exact ⟨t,chains,by simp [HashMap.operate,read,answer],⟨rfl,rfl⟩,valid⟩
  | remove key => cases keeps

end Represents

def storeOf (ops : List (Operation Value)) : Store Value := ops.foldl apply fun _ => none

def Operation.Stores (key : Key) : Operation Value → Prop
  | .put stored _ | .putIfAbsent stored _ => stored = key
  | _ => False

theorem new_represents (bucketsSize : Int) (hash : Option (Key → Option Int)) :
    Represents (newHashMap bucketsSize hash : Table Value) (fun _ => False) (fun _ => []) fun _ => none := by
  refine ⟨⟨fun _ _ _ => rfl,fun _ gone => gone.elim,?_,fun _ _ => List.nodup_nil,?_,fun _ _ gone => gone.elim⟩,?_⟩
  · intro k _ e member
    cases member
  · intro e used
    exact absurd rfl used
  · intro key value
    refine ⟨fun held => (by cases held),?_⟩
    intro ⟨_,_,_,_,member,_⟩
    cases member

theorem findHead_nonneg (sized : 1 ≤ bucketsSize) (hash : Key → Int) (nonneg : ∀ key, 0 ≤ hash key) (key : Key) :
    findHead (newHashMap bucketsSize (some fun key => some (hash key)) : Table Value) key =
      some (hash key % bucketsSize) := by
  have index : (hash key).tmod bucketsSize = hash key % bucketsSize := Int.tmod_eq_emod_of_nonneg (nonneg key)
  have low := Int.emod_nonneg (hash key) (show bucketsSize ≠ 0 by omega)
  have high := Int.emod_lt_of_pos (hash key) (show 0 < bucketsSize by omega)
  simp [findHead,newHashMap,Table.InRange,index,low,high]

theorem storeOf_concat (ops : List (Operation Value)) (op : Operation Value) :
    storeOf (ops ++ [op]) = apply (storeOf ops) op := by
  simp [storeOf]

theorem apply_other (store : Store Value) (op : Operation Value) (different : key ≠ op.key) :
    apply store op key = store key := by
  cases op with
  | put stored value | remove stored => exact Function.update_of_ne different _ _
  | putIfAbsent stored value =>
      simp only [apply]
      split
      · exact Function.update_of_ne different _ _
      · rfl
  | get stored | exists_ stored => rfl

theorem apply_isSome (store : Store Value) (op : Operation Value) (keeps : op.isRemove = false) (key : Key) :
    (apply store op key).isSome ↔ (store key).isSome ∨ op.Stores key := by
  by_cases same : key = op.key
  · cases op with
    | put stored value =>
        obtain rfl : key = stored := same
        simp [apply,Operation.Stores]
    | putIfAbsent stored value =>
        obtain rfl : key = stored := same
        cases held : store key <;> simp [apply,Operation.Stores,held]
    | get stored | exists_ stored => simp [apply,Operation.Stores]
    | remove stored => cases keeps
  · rw [apply_other store op same]
    cases op with
    | put stored value | putIfAbsent stored value =>
        have other : stored ≠ key := fun equal => same equal.symm
        simp [Operation.Stores,other]
    | get stored | exists_ stored => simp [Operation.Stores]
    | remove stored => cases keeps

theorem storeOf_isSome (ops : List (Operation Value)) (kept : ∀ op ∈ ops, op.isRemove = false) (key : Key) :
    (storeOf ops key).isSome ↔ ∃ op ∈ ops, op.Stores key := by
  induction ops using List.reverseRecOn with
  | nil => simp [storeOf]
  | append_singleton earlier op ih =>
      rw [storeOf_concat,apply_isSome _ op (kept op (by simp)),ih fun one member => kept one (by simp [member])]
      simp [or_and_right,exists_or]

theorem run_represents (sized : 1 ≤ bucketsSize) (hash : Key → Int) (nonneg : ∀ key, 0 ≤ hash key)
    (ops : List (Operation Value)) (kept : ∀ op ∈ ops, op.isRemove = false) :
    ∃ t chains, Machine.run step (some (newHashMap bucketsSize (some fun key => some (hash key)))) ops = some t ∧
      SameSetup (newHashMap bucketsSize (some fun key => some (hash key))) t ∧
      Represents t (fun _ => False) chains (storeOf ops) := by
  induction ops using List.reverseRecOn with
  | nil => exact ⟨_,_,rfl,⟨rfl,rfl⟩,new_represents _ _⟩
  | append_singleton earlier op ih =>
      obtain ⟨t,chains,reached,setup,valid⟩ := ih fun one member => kept one (by simp [member])
      have head : findHead t op.key = some (hash op.key % bucketsSize) := by
        rw [findHead_same setup.size setup.hash]
        exact findHead_nonneg sized hash nonneg op.key
      obtain ⟨next,chains',done,same,after⟩ := valid.operate op head id (kept op (by simp))
      refine ⟨next,chains',?_,⟨same.size.trans setup.size,same.hash.trans setup.hash⟩,?_⟩
      · rw [Machine.run_concat,reached]
        simp [step,done]
      · rwa [storeOf_concat]

theorem count_key (valid : Represents t broken chains store) (inside : t.InRange k) (key : Key) :
    ((chains k).map t.keyOf).count (some key) = if (store key).isSome ∧ findHead t key = some k then 1 else 0 := by
  have unique := valid.shape.keys k inside
  split
  · next holds =>
      obtain ⟨value,held⟩ := Option.isSome_iff_exists.mp holds.1
      obtain ⟨j,e,node,head,member,resident,own,_⟩ := (valid.stored key value).mp held
      obtain rfl := Option.some.inj (head.symm.trans holds.2)
      refine List.count_eq_one_of_mem unique (List.mem_map.mpr ⟨e,member,?_⟩)
      simp [Table.keyOf,resident,own]
  · next fails =>
      refine List.count_eq_zero.mpr fun found => fails ?_
      obtain ⟨e,member,own⟩ := List.mem_map.mp found
      obtain ⟨node,resident,_,head⟩ := valid.shape.nodes k inside e member
      obtain rfl : node.key = key := by simpa [Table.keyOf,resident] using own
      have held := (valid.stored node.key node.value).mpr ⟨k,e,node,head,member,resident,rfl,rfl⟩
      exact ⟨by simp [held],head⟩

-- The hash map behaves as a store of its keys: the answers are those of the
-- store, another key's answers stay, and a stored key has one node, in the
-- bucket of its hash.
theorem hash_map_refines_store (bucketsSize : Int) (sized : 1 ≤ bucketsSize) (hash : Key → Int)
    (nonneg : ∀ key, 0 ≤ hash key) (ops : List (Operation Value)) (kept : ∀ op ∈ ops, op.isRemove = false) :
    ∃ t, Machine.run step (some (newHashMap bucketsSize (some fun key => some (hash key)))) ops = some t ∧
      (∀ op : Operation Value, op.isRemove = false → ∃ next, operate t op = some (answer (storeOf ops) op,next) ∧
        ∀ key, key ≠ op.key → getByKey next key = getByKey t key ∧ exists_ next key = exists_ t key) ∧
      (∀ key, (storeOf ops key).isSome ↔ ∃ op ∈ ops, op.Stores key) ∧
      ∀ k, 0 ≤ k → k < bucketsSize → ∃ chain, Links t.nextOf (t.buckets k) chain ∧
        ∀ key, (chain.map t.keyOf).count (some key) =
          if (storeOf ops key).isSome ∧ hash key % bucketsSize = k then 1 else 0 := by
  obtain ⟨t,chains,reached,setup,valid⟩ := run_represents sized hash nonneg ops kept
  have heads : ∀ key, findHead t key = some (hash key % bucketsSize) := fun key => by
    rw [findHead_same setup.size setup.hash]
    exact findHead_nonneg sized hash nonneg key
  refine ⟨t,reached,?_,storeOf_isSome ops kept,?_⟩
  · intro op keeps
    obtain ⟨next,chains',done,same,after⟩ := valid.operate op (heads op.key) id keeps
    refine ⟨next,done,fun key different => ?_⟩
    have head : findHead next key = some (hash key % bucketsSize) := by
      rw [findHead_same same.size same.hash]
      exact heads key
    rw [after.getByKey_eq head id,valid.getByKey_eq (heads key) id,after.exists_eq head id,
      valid.exists_eq (heads key) id,apply_other (storeOf ops) op different]
    exact ⟨rfl,rfl⟩
  · intro k low high
    have inside : t.InRange k := ⟨low,by rw [setup.size]; exact high⟩
    refine ⟨chains k,valid.shape.linked k inside id,fun key => ?_⟩
    rw [count_key valid inside key,heads key]
    simp only [Option.some.injEq]

-- Two keys of one bucket: the second put of a key replaces its value, and
-- put_if_absent of a key that is there does not.
theorem hash_map_refines_store_colliding :
    ∃ t next : Table Nat, Machine.run step (some (newHashMap 2 (some fun key => some (key.length : Int))))
      [.put [97] (some 1),.put [98] (some 2),.putIfAbsent [97] (some 3),.put [98] (some 4)] = some t ∧
      operate t (.put [97] (some 5)) = some (.pointer (some 1),next) ∧ getByKey next [98] = getByKey t [98] := by
  obtain ⟨t,reached,answers,_⟩ := hash_map_refines_store 2 (by decide) (fun key => (key.length : Int))
    (fun key => Int.natCast_nonneg _)
    [.put [97] (some 1),.put [98] (some 2),.putIfAbsent [97] (some 3),.put [98] (some 4)] (by decide)
  obtain ⟨next,done,others⟩ := answers (.put [97] (some 5)) rfl
  exact ⟨t,next,reached,done.trans (by rfl),(others [98] (by decide)).1⟩

end TcpProxy.HashMap
