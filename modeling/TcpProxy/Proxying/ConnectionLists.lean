import TcpProxy.Lib.LinkedChain
import TcpProxy.Proxying.Connections

namespace TcpProxy.Proxying
open LinkedChain

variable {c : Connections} {chain held pool : List Nat}

def Connections.nextOf (c : Connections) (e : Nat) : Option Nat := (c.memory e).next
def Connections.prevOf (c : Connections) (e : Nat) : Option Nat := (c.memory e).prev

def ConnectionInfo.data (info : ConnectionInfo) : ConnectionInfo :=
  {info with inChain := false,prev := none,next := none}

theorem eq_of_data (same : ConnectionInfo.data one = ConnectionInfo.data two) :
    one = {two with inChain := one.inChain,prev := one.prev,next := one.next} := by
  cases one
  cases two
  simp only [ConnectionInfo.data,ConnectionInfo.mk.injEq] at same ⊢
  simp only [same,and_self]

@[simp] theorem set_self (c : Connections) (e : Nat) (info : ConnectionInfo) :
    (c.set e info).memory e = info := by simp [Connections.set]
theorem set_other (c : Connections) (info : ConnectionInfo) (different : a ≠ e) :
    (c.set e info).memory a = c.memory a := by simp [Connections.set,Function.update_of_ne different]

-- Every allocated entry is in the chain, in the pool, or held by the function
-- that is working on it.
structure ConnShape (c : Connections) (chain held pool : List Nat) : Prop where
  linked : Links c.nextOf c.infos chain
  mirrored : Mirrors c.prevOf none chain
  pooled : Links c.nextOf c.pool pool
  partition : (chain ++ (held ++ pool)).Perm (List.range c.numberOfAllocation)
  attached : ∀ e ∈ chain, (c.memory e).inChain = true
  released : ∀ e ∈ pool, (c.memory e).inChain = false
  counted : c.numberOfEntries = chain.length

theorem new_connShape (memory : Nat → ConnectionInfo) : ConnShape (newConnections memory) [] [] [] :=
  ⟨rfl,trivial,rfl,by simp [newConnections],by simp,by simp,rfl⟩

theorem ConnShape.nodup (shape : ConnShape c chain held pool) : (chain ++ (held ++ pool)).Nodup :=
  shape.partition.nodup_iff.mpr List.nodup_range

theorem ConnShape.apart (shape : ConnShape c chain held pool) (member : e ∈ chain) : e ∉ held ∧ e ∉ pool := by
  have separate := (List.nodup_append.mp shape.nodup).2.2 e member
  exact ⟨fun inside => separate e (by simp [inside]) rfl,fun inside => separate e (by simp [inside]) rfl⟩

theorem ConnShape.held_apart (shape : ConnShape c chain held pool) (member : e ∈ held) : e ∉ chain ∧ e ∉ pool := by
  have inner := (List.nodup_append.mp shape.nodup).2.1
  exact ⟨fun inside => (shape.apart inside).1 member,
    fun inside => (List.nodup_append.mp inner).2.2 e member e inside rfl⟩

theorem ConnShape.middle_apart (shape : ConnShape c (before ++ e :: after) held pool)
    (member : a ∈ before ++ after) : a ≠ e := by
  rintro rfl
  exact (List.nodup_cons.mp (List.perm_middle.nodup_iff.mp (links_nodup shape.linked))).1 member

theorem ConnShape.below (shape : ConnShape c chain held pool) (member : e ∈ chain ++ (held ++ pool)) :
    e < c.numberOfAllocation :=
  List.mem_range.mp (shape.partition.mem_iff.mp member)

theorem ConnShape.inChain_iff (shape : ConnShape c chain [] pool) (below : e < c.numberOfAllocation) :
    (c.memory e).inChain = true ↔ e ∈ chain := by
  refine ⟨fun flag => ?_,shape.attached e⟩
  have member := shape.partition.mem_iff.mpr (List.mem_range.mpr below)
  rcases List.mem_append.mp member with inside | outside
  · exact inside
  · rw [shape.released e (by simpa using outside)] at flag
    cases flag

theorem ConnShape.keep (shape : ConnShape c chain held pool) (infos : next.infos = c.infos)
    (released : next.pool = c.pool) (entries : next.numberOfEntries = c.numberOfEntries)
    (allocation : next.numberOfAllocation = c.numberOfAllocation)
    (memory : ∀ e ∈ chain ++ pool, (next.memory e).next = (c.memory e).next ∧
      (next.memory e).prev = (c.memory e).prev ∧ (next.memory e).inChain = (c.memory e).inChain) :
    ConnShape next chain held pool := by
  refine ⟨?_,?_,?_,allocation ▸ shape.partition,?_,?_,entries.trans shape.counted⟩
  · rw [infos]
    exact links_congr (fun e member => (memory e (by simp [member])).1.symm) shape.linked
  · exact mirrors_congr (fun e member => (memory e (by simp [member])).2.1.symm) shape.mirrored
  · rw [released]
    exact links_congr (fun e member => (memory e (by simp [member])).1.symm) shape.pooled
  · exact fun e member => (memory e (by simp [member])).2.2.trans (shape.attached e member)
  · exact fun e member => (memory e (by simp [member])).2.2.trans (shape.released e member)

theorem ConnShape.set_held (shape : ConnShape c chain held pool) (member : e ∈ held) (info : ConnectionInfo) :
    ConnShape (c.set e info) chain held pool := by
  refine shape.keep rfl rfl rfl rfl ?_
  intro a inside
  have different : a ≠ e := by
    rintro rfl
    obtain ⟨outChain,outPool⟩ := shape.held_apart member
    rcases List.mem_append.mp inside with left | right
    · exact outChain left
    · exact outPool right
  rw [set_other c info different]
  exact ⟨rfl,rfl,rfl⟩

theorem ConnShape.set_data (shape : ConnShape c chain held pool) (e : Nat) (info : ConnectionInfo)
    (next : info.next = (c.memory e).next) (prev : info.prev = (c.memory e).prev)
    (flag : info.inChain = (c.memory e).inChain) : ConnShape (c.set e info) chain held pool := by
  refine shape.keep rfl rfl rfl rfl ?_
  intro a _
  by_cases equal : a = e
  · subst a; simpa using ⟨next,prev,flag⟩
  · rw [set_other c info equal]; exact ⟨rfl,rfl,rfl⟩

theorem allocate_shape (shape : ConnShape c chain [] pool) :
    ∃ rest, ConnShape (allocateConnectionInfo c).2 chain [(allocateConnectionInfo c).1] rest ∧
      (allocateConnectionInfo c).2.memory = c.memory := by
  cases head : c.pool with
  | some e =>
      obtain ⟨rest,rfl,linked⟩ := links_some (head ▸ shape.pooled)
      simp only [allocateConnectionInfo,head]
      exact ⟨rest,⟨shape.linked,shape.mirrored,linked,shape.partition,shape.attached,
        fun a member => shape.released a (List.mem_cons_of_mem _ member),shape.counted⟩,trivial⟩
  | none =>
      obtain rfl := links_none (head ▸ shape.pooled)
      simp only [allocateConnectionInfo,head]
      refine ⟨[],⟨shape.linked,shape.mirrored,rfl,?_,shape.attached,by simp,shape.counted⟩,trivial⟩
      have base : chain.Perm (List.range c.numberOfAllocation) := by simpa using shape.partition
      rw [List.range_succ]
      exact base.append_right _

theorem free_shape (shape : ConnShape c chain [e] pool) (flag : (c.memory e).inChain = false) :
    ConnShape (freeConnectionInfo c e) chain [] (e :: pool) ∧
      ∀ a, ((freeConnectionInfo c e).memory a).data = (c.memory a).data := by
  obtain ⟨outChain,outPool⟩ := shape.held_apart (List.mem_singleton.mpr rfl)
  have others : ∀ a, a ≠ e → (freeConnectionInfo c e).memory a = c.memory a :=
    fun a different => set_other c _ different
  have own : (freeConnectionInfo c e).memory e = {c.memory e with next := c.pool} := set_self c e _
  have chainApart : ∀ a ∈ chain, a ≠ e := fun a member equal => outChain (equal ▸ member)
  have poolApart : ∀ a ∈ pool, a ≠ e := fun a member equal => outPool (equal ▸ member)
  refine ⟨⟨?_,?_,?_,shape.partition,?_,?_,shape.counted⟩,?_⟩
  · refine links_congr (fun a member => ?_) shape.linked
    simp only [Connections.nextOf,others a (chainApart a member)]
  · refine mirrors_congr (fun a member => ?_) shape.mirrored
    simp only [Connections.prevOf,others a (chainApart a member)]
  · refine links_push shape.pooled (fun a member => ?_) (by simp only [Connections.nextOf,own])
    simp only [Connections.nextOf,others a (poolApart a member)]
  · intro a member
    rw [others a (chainApart a member)]
    exact shape.attached a member
  · intro a member
    rcases List.mem_cons.mp member with rfl | inside
    · rw [own]; exact flag
    · rw [others a (poolApart a inside)]
      exact shape.released a inside
  · intro a
    by_cases equal : a = e
    · subst a; rw [own]; rfl
    · rw [others a equal]

theorem attach_memory (c : Connections) (outside : c.infos ≠ some e) (a : Nat) :
    (attachConnectionInfoEntry c e).memory a =
      if a = e then {c.memory e with next := c.infos,prev := none,inChain := true}
      else if c.infos = some a then {c.memory a with prev := some e}
      else c.memory a := by
  cases head : c.infos with
  | none =>
      by_cases equal : a = e
      · subst a; simp [attachConnectionInfoEntry,Connections.set,head]
      · simp [attachConnectionInfoEntry,Connections.set,head,equal]
  | some first =>
      have different : first ≠ e := fun equal => outside (equal ▸ head)
      by_cases equal : a = e
      · subst a
        simp [attachConnectionInfoEntry,Connections.set,head,Function.update_of_ne (Ne.symm different)]
      · by_cases top : first = a
        · subst a
          simp [attachConnectionInfoEntry,Connections.set,head,different]
        · simp [attachConnectionInfoEntry,Connections.set,head,equal,top,Function.update_of_ne (Ne.symm top)]

theorem attach_shape (shape : ConnShape c chain [e] pool) :
    ConnShape (attachConnectionInfoEntry c e) (e :: chain) [] pool ∧
      ∀ a, ((attachConnectionInfoEntry c e).memory a).data = (c.memory a).data := by
  obtain ⟨outChain,outPool⟩ := shape.held_apart (List.mem_singleton.mpr rfl)
  have top : c.infos = chain.head? := links_head shape.linked
  have outside : c.infos ≠ some e := fun equal => outChain (List.mem_of_head? (top ▸ equal))
  have memory := attach_memory c outside
  have chainApart : ∀ a ∈ chain, a ≠ e := fun a member equal => outChain (equal ▸ member)
  have poolApart : ∀ a ∈ pool, a ≠ e ∧ c.infos ≠ some a := fun a member =>
    ⟨fun equal => outPool (equal ▸ member),
      fun equal => (shape.apart (List.mem_of_head? (top ▸ equal))).2 member⟩
  have counts : (attachConnectionInfoEntry c e).numberOfEntries = c.numberOfEntries+1 ∧
      (attachConnectionInfoEntry c e).numberOfAllocation = c.numberOfAllocation ∧
      (attachConnectionInfoEntry c e).pool = c.pool ∧ (attachConnectionInfoEntry c e).infos = some e := by
    cases head : c.infos <;> simp [attachConnectionInfoEntry,Connections.set,head]
  obtain ⟨entries,allocation,released,infos⟩ := counts
  refine ⟨⟨?_,?_,?_,?_,?_,?_,?_⟩,?_⟩
  · rw [infos]
    refine links_push shape.linked (fun a member => ?_) (by simp [Connections.nextOf,memory])
    simp only [Connections.nextOf,memory,chainApart a member,if_false]
    split <;> rfl
  · refine mirrors_push (links_nodup shape.linked) shape.mirrored (fun a member different => ?_)
      (by simp [Connections.prevOf,memory]) (fun a first => ?_)
    · simp [Connections.prevOf,memory,chainApart a member,top,different]
    · simp [Connections.prevOf,memory,chainApart a (List.mem_of_head? first),top,first]
  · rw [released]
    refine links_congr (fun a member => ?_) shape.pooled
    simp [Connections.nextOf,memory,poolApart a member]
  · rw [allocation]
    refine List.Perm.trans ?_ shape.partition
    exact List.perm_middle.symm
  · intro a member
    rcases List.mem_cons.mp member with rfl | inside
    · simp [memory]
    · simp only [memory,chainApart a inside,if_false]
      split
      · exact shape.attached a inside
      · exact shape.attached a inside
  · intro a member
    simpa [memory,poolApart a member] using shape.released a member
  · rw [entries,shape.counted]
    simp
  · intro a
    rw [memory]
    split
    · subst a; rfl
    · split <;> rfl

-- Both branches of detach relink the two neighbours, if there are any.
theorem detach_memory (shape : ConnShape c (before ++ e :: after) [] pool) (a : Nat) :
    (detachConnectionInfoEntry c e).memory a =
      {c.memory a with
        next := if before.getLast? = some a then (c.memory e).next else (c.memory a).next,
        prev := if after.head? = some a then (c.memory e).prev else (c.memory a).prev,
        inChain := if a = e then false else (c.memory a).inChain} := by
  have flag := shape.attached e (by simp)
  have next : (c.memory e).next = after.head? := links_next shape.linked
  have prev : (c.memory e).prev = before.getLast? :=
    (mirrors_prev shape.mirrored).trans (by simp)
  have once := (links_nodup shape.linked)
  have nextApart : ∀ n, after.head? = some n → n ≠ e ∧ n ∉ before := by
    intro n first
    have member := List.mem_of_head? first
    obtain ⟨_,tail,separate⟩ := List.nodup_append.mp once
    refine ⟨fun equal => (List.nodup_cons.mp tail).1 (equal ▸ member),fun inside => ?_⟩
    exact separate n inside n (List.mem_cons_of_mem _ member) rfl
  have prevApart : ∀ p, before.getLast? = some p → p ≠ e := by
    intro p last equal
    obtain ⟨_,_,separate⟩ := List.nodup_append.mp once
    exact separate p (List.mem_of_getLast? last) e (by simp) equal
  cases before with
  | nil =>
      have head : c.infos = some e := shape.linked.1
      cases after with
      | nil =>
          by_cases equal : a = e
          · subst a; simp [detachConnectionInfoEntry,flag,head,next]
          · simp [detachConnectionInfoEntry,flag,head,next,equal,Connections.set]
      | cons n after =>
          obtain ⟨different,_⟩ := nextApart n rfl
          by_cases equal : a = e
          · subst a
            simp [detachConnectionInfoEntry,flag,head,next,different,Connections.set,
              Function.update_of_ne (Ne.symm different)]
          · by_cases top : n = a
            · subst a
              simp [detachConnectionInfoEntry,flag,head,next,equal,Connections.set,prev]
            · simp [detachConnectionInfoEntry,flag,head,next,equal,Connections.set,top,
                Function.update_of_ne (Ne.symm top)]
  | cons first before =>
      have head : c.infos = some first := shape.linked.1
      have inner : ¬ e = first := fun equal => (List.nodup_cons.mp once).1 (by simp [equal])
      obtain ⟨p,last⟩ : ∃ p, (first :: before).getLast? = some p :=
        ⟨_,List.getLast?_eq_some_getLast (List.cons_ne_nil first before)⟩
      have predecessor := prevApart p last
      rw [last] at prev ⊢
      cases after with
      | nil =>
          by_cases equal : a = e
          · subst a
            simp [detachConnectionInfoEntry,flag,head,inner,prev,next,Connections.set,predecessor,
              Function.update_of_ne (Ne.symm predecessor)]
          · by_cases before : p = a
            · subst a
              simp [detachConnectionInfoEntry,flag,head,inner,prev,next,Connections.set,predecessor]
            · simp [detachConnectionInfoEntry,flag,head,inner,prev,next,Connections.set,equal,before,
                Function.update_of_ne (Ne.symm before)]
      | cons n after =>
          obtain ⟨different,apart⟩ := nextApart n rfl
          have neighbours : n ≠ p := fun equal => apart (equal ▸ List.mem_of_getLast? last)
          by_cases equal : a = e
          · subst a
            simp [detachConnectionInfoEntry,flag,head,inner,prev,next,Connections.set,predecessor,different,
              Function.update_of_ne (Ne.symm predecessor),Function.update_of_ne (Ne.symm different)]
          · by_cases before : p = a
            · subst a
              simp [detachConnectionInfoEntry,flag,head,inner,prev,next,Connections.set,predecessor,neighbours,
                Function.update_of_ne (Ne.symm neighbours)]
            · by_cases top : n = a
              · subst a
                simp [detachConnectionInfoEntry,flag,head,inner,prev,next,Connections.set,different,before,
                  neighbours]
              · simp [detachConnectionInfoEntry,flag,head,inner,prev,next,Connections.set,equal,before,top,
                  Function.update_of_ne (Ne.symm before),Function.update_of_ne (Ne.symm top)]

theorem detach_rest (shape : ConnShape c (before ++ e :: after) [] pool) :
    (detachConnectionInfoEntry c e).infos = (if before = [] then (c.memory e).next else c.infos) ∧
    (detachConnectionInfoEntry c e).pool = c.pool ∧
    (detachConnectionInfoEntry c e).numberOfEntries = c.numberOfEntries-1 ∧
    (detachConnectionInfoEntry c e).numberOfAllocation = c.numberOfAllocation := by
  have flag := shape.attached e (by simp)
  have once := (links_nodup shape.linked)
  cases before with
  | nil =>
      have head : c.infos = some e := shape.linked.1
      cases next : (c.memory e).next <;> simp [detachConnectionInfoEntry,flag,head,next,Connections.set]
  | cons first before =>
      have head : c.infos = some first := shape.linked.1
      have inner : ¬ e = first := fun equal => (List.nodup_cons.mp once).1 (by simp [equal])
      cases prev : (c.memory e).prev <;> cases next : (c.memory e).next <;>
        simp [detachConnectionInfoEntry,flag,head,inner,prev,next,Connections.set]

theorem detach_shape (shape : ConnShape c (before ++ e :: after) [] pool) :
    ConnShape (detachConnectionInfoEntry c e) (before ++ after) [e] pool ∧
      ((detachConnectionInfoEntry c e).memory e).inChain = false ∧
      ∀ a, ((detachConnectionInfoEntry c e).memory a).data = (c.memory a).data := by
  have memory := detach_memory shape
  obtain ⟨infos,released,entries,allocation⟩ := detach_rest shape
  have once := links_nodup shape.linked
  have chainApart : ∀ a ∈ before ++ after, a ≠ e := fun a member => shape.middle_apart member
  have poolApart : ∀ a ∈ pool, a ≠ e ∧ before.getLast? ≠ some a := by
    intro a member
    refine ⟨?_,fun last => ?_⟩
    · rintro rfl
      exact (shape.apart (by simp)).2 member
    · exact (shape.apart (List.mem_append_left _ (List.mem_of_getLast? last))).2 member
  refine ⟨⟨?_,?_,?_,?_,?_,?_,?_⟩,by simp [memory],fun a => by rw [memory]; rfl⟩
  · rw [infos]
    refine links_unlink shape.linked (fun a _ different => ?_) (fun a last => ?_)
    · simp only [Connections.nextOf,memory,different,if_false]
    · simp only [Connections.nextOf,memory,last,if_true]
  · refine mirrors_unlink once shape.mirrored (fun a _ different => ?_) (fun a first => ?_)
    · simp only [Connections.prevOf,memory,different,if_false]
    · simp only [Connections.prevOf,memory,first,if_true]
  · rw [released]
    refine links_congr (fun a member => ?_) shape.pooled
    simp only [Connections.nextOf,memory,(poolApart a member).2,if_false]
  · rw [allocation]
    refine List.Perm.trans ?_ shape.partition
    simp only [List.append_assoc,List.cons_append,List.nil_append]
    exact List.Perm.append_left before List.perm_middle
  · intro a member
    simp only [memory,chainApart a member,if_false]
    exact shape.attached a (by
      rcases List.mem_append.mp member with left | right
      · exact List.mem_append_left _ left
      · exact List.mem_append_right _ (List.mem_cons_of_mem _ right))
  · intro a member
    simp only [memory,(poolApart a member).1,if_false]
    exact shape.released a member
  · rw [entries,shape.counted]
    simp
    omega

theorem copyChain_links (memory : Nat → ConnectionInfo) (linked : Links (fun e => (memory e).next) head nodes) :
    copyChain memory nodes.length head = nodes := by
  induction nodes generalizing head with
  | nil => cases linked; rfl
  | cons node rest ih =>
      cases linked.1
      simp only [List.length_cons,copyChain]
      rw [ih linked.2]

theorem snapshot_spec (shape : ConnShape c chain held pool) :
    (snapshot c).1 = chain ∧ ConnShape (snapshot c).2 chain held pool ∧ (snapshot c).2.memory = c.memory ∧
      (snapshot c).2.numberOfAllocation = c.numberOfAllocation := by
  have copied := copyChain_links c.memory shape.linked
  have counted := shape.counted
  by_cases positive : 0 < c.numberOfEntries
  · have kept : ∀ holder size, ConnShape {c with expiringHolder := holder,sizeOfExpiringHolder := size} chain held pool :=
      fun holder size => shape.keep rfl rfl rfl rfl (fun e _ => ⟨rfl,rfl,rfl⟩)
    have length : c.numberOfEntries.toNat = chain.length := by omega
    simp only [snapshot,positive,if_true]
    split
    · exact ⟨by rw [length]; exact copied,shape,rfl,rfl⟩
    · exact ⟨by simp only [length]; exact copied,kept _ _,rfl,rfl⟩
  · have empty : chain = [] := List.length_eq_zero_iff.mp (by omega)
    simp only [snapshot,positive,if_false]
    exact ⟨empty.symm,shape,trivial,trivial⟩

end TcpProxy.Proxying
