import TcpProxy.HashMap.Refinement

namespace TcpProxy.HashMap
open LinkedChain

variable {Value : Type} {t next : Table Value} {broken : Int → Prop} {chains : Int → List Nat} {node : Node Value}

-- What remove is to do: the key is gone, the rest of the map is as before, and
-- every bucket is a list of nodes that are not freed.
def RemovesRightly (t : Table Value) (key : Key) : Prop :=
  ∃ value next, remove t key = some (value,next) ∧ getByKey t key = some value ∧
    getByKey next key = some none ∧ exists_ next key = some false ∧
    (∀ other, other ≠ key → getByKey next other = getByKey t other ∧ exists_ next other = exists_ t other) ∧
    ∀ k, next.InRange k → ∃ chain, Links next.nextOf (next.buckets k) chain ∧ ∀ e ∈ chain, next.memory e ≠ none

-- When it does: no bucket starts with a freed node, and the key is absent or
-- its node is the second of at least three.
def Removable (t : Table Value) (key : Key) : Prop :=
  (∀ k, t.InRange k → ∀ e, t.buckets k = some e → t.memory e ≠ none) ∧
  ∃ k chain, findHead t key = some k ∧ Links t.nextOf (t.buckets k) chain ∧
    (some key ∉ chain.map t.keyOf ∨
      ∃ first e behind rest, chain = first :: e :: behind :: rest ∧ t.keyOf e = some key)

def unlinked (t : Table Value) (k : Int) (first e behind : Nat) (front back : Node Value) : Table Value :=
  ((t.setNode first (some {front with next := some behind})).setNode behind (some {back with prev := k})).setNode e none

-- remove behind its search. The found node is read again after each write.
theorem remove_found (head : findHead t key = some k) (found : findData t k key = some (some e))
    (resident : t.memory e = some node) (own : node.prev = k) :
    remove t key = (t.buckets k).bind fun first => (t.memory first).bind fun front =>
      let t := t.setNode first (some {front with next := node.next})
      (t.memory e).bind fun node => node.next.bind fun behind => (t.memory behind).bind fun back =>
        let t := t.setNode behind (some {back with prev := node.prev})
        (t.memory e).bind fun node => some (node.value,t.setNode e none) := by
  subst own
  simp only [remove,head,found,resident,Option.bind_eq_bind,Option.bind_some]

theorem remove_unlinks (head : findHead t key = some k) (found : findData t k key = some (some e))
    (resident : t.memory e = some node) (own : node.prev = k) (start : t.buckets k = some first)
    (frontAt : t.memory first = some front) (link : node.next = some behind) (backAt : t.memory behind = some back)
    (behindApart : behind ≠ e) (frontApart : behind ≠ first) :
    remove t key = some (node.value,unlinked t k first e behind front back) := by
  by_cases equal : first = e
  · subst first
    obtain rfl := Option.some.inj (resident.symm.trans frontAt)
    simp [remove_found head found resident own,unlinked,resident,own,start,link,backAt,setNode_other _ _ behindApart,
      setNode_other _ _ behindApart.symm]
  · have apart : e ≠ first := fun same => equal same.symm
    simp [remove_found head found resident own,unlinked,resident,own,start,frontAt,link,backAt,
      setNode_other _ _ behindApart.symm,setNode_other _ _ frontApart,setNode_other _ _ apart]

-- Every node but the freed one keeps its key, its value and its bucket, and
-- only the first one has another successor.
theorem unlinked_node (frontAt : t.memory first = some front) (backAt : t.memory behind = some back)
    (own : back.prev = k) (frontApart : behind ≠ first) (kept : a ≠ e) (before : t.memory a = some node) :
    ∃ after, (unlinked t k first e behind front back).memory a = some after ∧ after.key = node.key ∧
      after.value = node.value ∧ after.prev = node.prev ∧ after.next = if a = first then some behind else node.next := by
  by_cases last : a = behind
  · subst a
    obtain rfl := Option.some.inj (backAt.symm.trans before)
    refine ⟨_,(setNode_other _ _ kept).trans (setNode_memory _ _ _),rfl,rfl,own.symm,?_⟩
    rw [if_neg frontApart]
  · by_cases start : a = first
    · subst a
      obtain rfl := Option.some.inj (frontAt.symm.trans before)
      refine ⟨_,(setNode_other _ _ kept).trans ((setNode_other _ _ last).trans (setNode_memory _ _ _)),rfl,rfl,rfl,?_⟩
      rw [if_pos rfl]
    · refine ⟨node,(setNode_other _ _ kept).trans
        ((setNode_other _ _ last).trans ((setNode_other _ _ start).trans before)),rfl,rfl,rfl,?_⟩
      rw [if_neg start]

theorem unlinked_freed (t : Table Value) (k : Int) (first e behind : Nat) (front back : Node Value) :
    (unlinked t k first e behind front back).memory e = none := setNode_memory _ _ _

theorem Shape.unlink_first (shape : Shape t broken chains) (inside : t.InRange k) (intact : ¬ broken k)
    (split : chains k = e :: behind :: rest) (node back : Node Value) :
    Shape (unlinked t k e e behind node back) (fun j => broken j ∨ j = k ∧ True) (Function.update chains k []) := by
  have start : t.buckets k = some e := by
    have linked := shape.linked k inside intact
    rw [split] at linked
    exact linked.1
  refine shape.rechain inside intact rfl rfl rfl rfl (fun a outside => ?_) (List.nil_sublist _)
    (fun a member => (by cases member)) (.inr ⟨trivial,rfl,e,by simp [split],start,unlinked_freed _ _ _ _ _ _ _⟩)
  rw [split] at outside
  simp only [List.mem_cons,not_or] at outside
  exact (setNode_other _ _ outside.1).trans ((setNode_other _ _ outside.2.1).trans (setNode_other _ _ outside.1))

-- A later node is freed, and the first one is linked to what is behind it.
theorem Shape.unlink_later (shape : Shape t broken chains) (inside : t.InRange k) (intact : ¬ broken k)
    (split : chains k = first :: more ++ e :: behind :: rest) (frontAt : t.memory first = some front)
    (backAt : t.memory behind = some back) :
    Shape (unlinked t k first e behind front back) broken (Function.update chains k (first :: behind :: rest)) := by
  have linked := shape.linked k inside intact
  have once := links_nodup linked
  obtain ⟨back',at',own,_⟩ := shape.nodes k inside behind (by simp [split])
  obtain rfl := Option.some.inj (backAt.symm.trans at')
  rw [split] at linked once
  have tail : Links t.nextOf (some behind) (behind :: rest) := by
    have again : first :: more ++ e :: behind :: rest = (first :: more ++ [e]) ++ behind :: rest := by simp
    rw [again] at linked
    exact links_suffix linked
  have firstOnce : first ∉ more ++ e :: behind :: rest := (List.nodup_cons.mp once).1
  have laterOnce : e ∉ behind :: rest := (List.nodup_cons.mp (List.nodup_append.mp (List.nodup_cons.mp once).2).2.1).1
  have frontApart : behind ≠ first := fun equal => firstOnce (by simp [equal])
  have same : (fun j => broken j ∨ j = k ∧ False) = broken := funext fun j => by simp
  rw [← same]
  have kept : ∀ a ∈ first :: behind :: rest, a ≠ e := by
    intro a member equal
    subst a
    rcases List.mem_cons.mp member with start | later
    · exact firstOnce (by simp [start])
    · exact laterOnce later
  have part : (first :: behind :: rest).Sublist (chains k) := by
    rw [split,List.cons_append]
    exact ((List.sublist_cons_self e _).trans (List.sublist_append_right more _)).cons_cons first
  have links : ∀ a ∈ first :: behind :: rest, (unlinked t k first e behind front back).nextOf a =
      if a = first then some behind else t.nextOf a := by
    intro a member
    obtain ⟨old,before,_⟩ := shape.nodes k inside a (part.subset member)
    obtain ⟨new,after,_,_,_,link⟩ := unlinked_node frontAt backAt own frontApart (kept a member) before
    simp only [Table.nextOf,before,after,Option.bind_some]
    exact link
  refine shape.rechain inside intact rfl rfl rfl rfl (fun a outside => ?_) part (fun a member old before => ?_)
    (.inl ⟨id,linked.1,?_⟩)
  · rw [split] at outside
    simp only [List.cons_append,List.mem_cons,List.mem_append,not_or] at outside
    exact (setNode_other _ _ outside.2.2.1).trans ((setNode_other _ _ outside.2.2.2.1).trans (setNode_other _ _ outside.1))
  · obtain ⟨new,after,key,_,prev,_⟩ := unlinked_node frontAt backAt own frontApart (kept a member) before
    exact ⟨new,after,key,prev⟩
  · rw [links first (by simp),if_pos rfl]
    refine links_congr (fun a member => ?_) tail
    have later : a ≠ first := by
      rintro rfl
      exact firstOnce (List.mem_append_right more (List.mem_cons_of_mem e member))
    rw [links a (List.mem_cons_of_mem _ member),if_neg later]

theorem Shape.unlink_later_members (shape : Shape t broken chains) (inside : t.InRange k) (intact : ¬ broken k)
    (split : chains k = first :: more ++ e :: behind :: rest) (inRange : t.InRange j) (a : Nat) :
    a ∈ Function.update chains k (first :: behind :: rest) j ↔ a ∈ chains j ∧ a ∉ more ++ [e] := by
  have once := links_nodup (shape.linked k inside intact)
  by_cases equal : j = k
  · subst j
    rw [Function.update_self]
    rw [split] at once ⊢
    simp only [List.cons_append,List.nodup_cons,List.nodup_append,List.mem_cons,List.mem_append,List.not_mem_nil]
      at once ⊢
    grind
  · rw [Function.update_of_ne equal]
    refine ⟨fun member => ⟨member,fun gone => ?_⟩,And.left⟩
    refine equal (shape.disjoint inRange inside member ?_)
    simp only [split,List.cons_append,List.mem_cons,List.mem_append,List.not_mem_nil] at gone ⊢
    tauto

-- The freed node and those between the first one and it are lost.
theorem Shape.unlink_later_stored (shape : Shape t broken chains) (inside : t.InRange k) (intact : ¬ broken k)
    (split : chains k = first :: more ++ e :: behind :: rest) (frontAt : t.memory first = some front)
    (backAt : t.memory behind = some back) (other : Key) (value : Option Value) :
    Stored (unlinked t k first e behind front back) (Function.update chains k (first :: behind :: rest)) other value ↔
      Stored t chains other value ∧ some other ∉ (more ++ [e]).map t.keyOf := by
  have once := links_nodup (shape.linked k inside intact)
  obtain ⟨back',at',own,_⟩ := shape.nodes k inside behind (by simp [split])
  obtain rfl := Option.some.inj (backAt.symm.trans at')
  have homes : findHead (unlinked t k first e behind front back) = findHead t := by simp [unlinked]
  have frontApart : behind ≠ first := by
    rintro rfl
    rw [split] at once
    simp at once
  have kept : ∀ a node, a ∉ more ++ [e] → t.memory a = some node →
      ∃ new, (unlinked t k first e behind front back).memory a = some new ∧ new.key = node.key ∧
        new.value = node.value := by
    intro a node outside before
    have different : a ≠ e := fun equal => outside (by simp [equal])
    obtain ⟨new,after,key,held,_⟩ := unlinked_node frontAt backAt own frontApart different before
    exact ⟨new,after,key,held⟩
  have moved : ∀ j, t.InRange j → ∀ a, a ∈ Function.update chains k (first :: behind :: rest) j ↔
      a ∈ chains j ∧ a ∉ more ++ [e] :=
    fun j inRange a => shape.unlink_later_members inside intact split inRange a
  constructor
  · rintro ⟨j,a,new,home,member,resident,named,held⟩
    rw [homes] at home
    have inRange := findHead_inRange home
    obtain ⟨old,outside⟩ := (moved j inRange a).mp member
    obtain ⟨node,before,_⟩ := shape.nodes j inRange a old
    obtain ⟨new',after,key,same⟩ := kept a node outside before
    obtain rfl := Option.some.inj (after.symm.trans resident)
    refine ⟨⟨j,a,node,home,old,before,key.symm.trans named,same.symm.trans held⟩,fun gone => ?_⟩
    obtain ⟨a',lost,own'⟩ := List.mem_map.mp gone
    have member' : a' ∈ chains k := by
      simp only [split,List.cons_append,List.mem_cons,List.mem_append,List.not_mem_nil] at lost ⊢
      tauto
    obtain ⟨node',before',_,home'⟩ := shape.nodes k inside a' member'
    have named' : node'.key = other := by simpa [Table.keyOf,before'] using own'
    rw [named'] at home'
    obtain rfl := Option.some.inj (home'.symm.trans home)
    have equal := shape.key_unique inside old member'
      (by simp [Table.keyOf,before,before',named',key.symm.trans named])
    exact outside (equal ▸ lost)
  · rintro ⟨⟨j,a,node,home,member,before,named,held⟩,survives⟩
    have outside : a ∉ more ++ [e] := fun gone =>
      survives (List.mem_map.mpr ⟨a,gone,by simp [Table.keyOf,before,named]⟩)
    obtain ⟨new,after,key,same⟩ := kept a node outside before
    exact ⟨j,a,new,by rw [homes]; exact home,(moved j (findHead_inRange home) a).mpr ⟨member,outside⟩,after,
      key.trans named,same.trans held⟩

namespace Represents

variable {store : Store Value}

theorem found (valid : Represents t broken chains store) (head : findHead t key = some k) (intact : ¬ broken k)
    (member : e ∈ chains k) (own : t.keyOf e = some key) :
    ∃ node, t.memory e = some node ∧ node.prev = k ∧ findData t k key = some (some e) ∧ store key = some node.value := by
  have inside := findHead_inRange head
  obtain ⟨node,resident,prev,_⟩ := valid.shape.nodes k inside e member
  have named : node.key = key := by simpa [Table.keyOf,resident] using own
  rcases valid.find_cases head intact with ⟨_,_,absent⟩ | ⟨before,a,after,other,split,there,same,found,held⟩
  · exact absurd ⟨k,e,node,head,member,resident,named,rfl⟩ (absent node.value)
  · obtain rfl : a = e := valid.shape.key_unique inside (by simp [split]) member
      (by simp [Table.keyOf,there,resident,same,named])
    obtain rfl := Option.some.inj (there.symm.trans resident)
    exact ⟨other,resident,prev,found,held⟩

theorem remove_last (valid : Represents t broken chains store) (head : findHead t key = some k) (intact : ¬ broken k)
    (split : chains k = before ++ [e]) (own : t.keyOf e = some key) : remove t key = none := by
  obtain ⟨node,resident,prev,found,_⟩ := valid.found head intact (by simp [split]) own
  have linked := valid.shape.linked k (findHead_inRange head) intact
  rw [split] at linked
  have link : node.next = none := by simpa [Table.nextOf,resident] using links_next linked
  rw [remove_found head found resident prev]
  cases start : t.buckets k with
  | none => rfl
  | some first =>
      cases frontAt : t.memory first with
      | none => simp [frontAt]
      | some front =>
          by_cases equal : e = first
          · subst first
            simp [frontAt,link]
          · simp [frontAt,resident,setNode_other _ _ equal,link]

theorem remove_first (valid : Represents t broken chains store) (head : findHead t key = some k) (intact : ¬ broken k)
    (split : chains k = e :: behind :: rest) (own : t.keyOf e = some key) :
    ∃ node back, t.memory e = some node ∧ t.memory behind = some back ∧ t.buckets k = some e ∧
      remove t key = some (node.value,unlinked t k e e behind node back) := by
  have inside := findHead_inRange head
  obtain ⟨node,resident,prev,found,_⟩ := valid.found head intact (by simp [split]) own
  obtain ⟨back,backAt,_⟩ := valid.shape.nodes k inside behind (by simp [split])
  have linked := valid.shape.linked k inside intact
  have once := links_nodup linked
  rw [split] at linked once
  have link : node.next = some behind := by
    simpa [Table.nextOf,resident] using (show Links t.nextOf _ ([] ++ e :: behind :: rest) from linked) |> links_next
  have apart : behind ≠ e := by
    rintro rfl
    simp at once
  exact ⟨node,back,resident,backAt,linked.1,remove_unlinks head found resident prev linked.1 resident link backAt apart apart⟩

theorem remove_later (valid : Represents t broken chains store) (head : findHead t key = some k) (intact : ¬ broken k)
    (split : chains k = first :: more ++ e :: behind :: rest) (own : t.keyOf e = some key) :
    ∃ front back, t.memory first = some front ∧ t.memory behind = some back ∧
      remove t key = some ((store key).join,unlinked t k first e behind front back) ∧
      Represents (unlinked t k first e behind front back) broken (Function.update chains k (first :: behind :: rest))
        fun other => if some other ∈ (more ++ [e]).map t.keyOf then none else store other := by
  have inside := findHead_inRange head
  obtain ⟨node,resident,prev,found,held⟩ := valid.found head intact (by simp [split]) own
  obtain ⟨front,frontAt,_⟩ := valid.shape.nodes k inside first (by simp [split])
  obtain ⟨back,backAt,_⟩ := valid.shape.nodes k inside behind (by simp [split])
  have linked := valid.shape.linked k inside intact
  have once := links_nodup linked
  rw [split] at linked once
  have link : node.next = some behind := by simpa [Table.nextOf,resident] using links_next linked
  have behindApart : behind ≠ e := by
    rintro rfl
    simp [List.nodup_append] at once
  have frontApart : behind ≠ first := by
    rintro rfl
    simp at once
  refine ⟨front,back,frontAt,backAt,?_,valid.shape.unlink_later inside intact split frontAt backAt,?_⟩
  · rw [held]
    exact remove_unlinks head found resident prev linked.1 frontAt link backAt behindApart frontApart
  · intro other value
    rw [valid.shape.unlink_later_stored inside intact split frontAt backAt other value,← valid.stored other value]
    split
    · next gone => exact ⟨fun nothing => (by cases nothing),fun both => absurd gone both.2⟩
    · next survives => exact ⟨fun held => ⟨held,survives⟩,And.left⟩

theorem searched (valid : Represents t broken chains store)
    (found : findData t k key = some outcome) : ¬ broken k := by
  intro gone
  rw [valid.shape.findData_broken gone] at found
  cases found

-- The four outcomes of remove: the key is absent, or its node is the last, the
-- first or one in between.
theorem remove_cases (valid : Represents t broken chains store) (head : findHead t key = some k) (intact : ¬ broken k) :
    (some key ∉ (chains k).map t.keyOf ∧ store key = none ∧ remove t key = some (none,t)) ∨
    (∃ before e, chains k = before ++ [e] ∧ t.keyOf e = some key) ∨
    (∃ e behind rest, chains k = e :: behind :: rest ∧ t.keyOf e = some key) ∨
    ∃ first more e behind rest, chains k = first :: more ++ e :: behind :: rest ∧ t.keyOf e = some key := by
  rcases valid.find_cases head intact with ⟨found,missing,absent⟩ | ⟨before,e,after,node,split,resident,named,found,held⟩
  · refine .inl ⟨fun member => ?_,missing,by simp [remove,head,found]⟩
    obtain ⟨e,inChain,own⟩ := List.mem_map.mp member
    obtain ⟨node,resident,_⟩ := valid.shape.nodes k (findHead_inRange head) e inChain
    exact absent node.value ⟨k,e,node,head,inChain,resident,by simpa [Table.keyOf,resident] using own,rfl⟩
  · have own : t.keyOf e = some key := by simp [Table.keyOf,resident,named]
    cases after with
    | nil => exact .inr (.inl ⟨before,e,split,own⟩)
    | cons behind rest =>
        cases before with
        | nil => exact .inr (.inr (.inl ⟨e,behind,rest,split,own⟩))
        | cons first more => exact .inr (.inr (.inr ⟨first,more,e,behind,rest,split,own⟩))

end Represents

theorem Stored.unique (shape : Shape t broken chains) (one : Stored t chains key value)
    (two : Stored t chains key value') : value = value' := by
  obtain ⟨j,a,node,home,member,resident,named,held⟩ := one
  obtain ⟨k,b,other,home',member',there,named',held'⟩ := two
  obtain rfl := Option.some.inj (home.symm.trans home')
  obtain rfl : a = b := shape.key_unique (findHead_inRange home) member member'
    (by simp [Table.keyOf,resident,there,named,named'])
  obtain rfl := Option.some.inj (resident.symm.trans there)
  exact held.symm.trans held'

open Classical in
theorem Shape.represents (shape : Shape t broken chains) : ∃ store, Represents t broken chains store := by
  refine ⟨fun key => if held : ∃ value, Stored t chains key value then some held.choose else none,shape,?_⟩
  intro key value
  by_cases held : ∃ value, Stored t chains key value
  · rw [dif_pos held,Option.some.injEq]
    exact ⟨fun same => same ▸ held.choose_spec,fun stored => held.choose_spec.unique shape stored⟩
  · rw [dif_neg held]
    exact ⟨fun nothing => (by cases nothing),fun stored => absurd ⟨value,stored⟩ held⟩

theorem operate_searched (done : operate t op = some result) :
    ∃ k found, findHead t op.key = some k ∧ findData t k op.key = some found := by
  cases op with
  | put key value | putIfAbsent key value | get key | exists_ key | remove key =>
      obtain ⟨_,ended,_⟩ := Option.map_eq_some_iff.mp done
      obtain ⟨k,head,searching⟩ := Option.bind_eq_some_iff.mp ended
      obtain ⟨found,search,_⟩ := Option.bind_eq_some_iff.mp searching
      exact ⟨k,found,head,search⟩

theorem operate_shape (shape : Shape t broken chains) (done : operate t op = some (result,next)) :
    ∃ broken' chains', Shape next broken' chains' := by
  obtain ⟨store,valid⟩ := shape.represents
  obtain ⟨k,outcome,head,found⟩ := operate_searched done
  have intact := valid.searched found
  have inside := findHead_inRange head
  cases removes : op.isRemove with
  | false =>
      obtain ⟨after,chains',same,_,kept⟩ := valid.operate op head intact removes
      obtain ⟨_,rfl⟩ := Prod.mk.inj (Option.some.inj (same.symm.trans done))
      exact ⟨broken,chains',kept.shape⟩
  | true =>
      cases op with
      | put | putIfAbsent | get | exists_ => cases removes
      | remove key =>
          have head : findHead t key = some k := head
          obtain ⟨⟨value,after⟩,removed,same⟩ := Option.map_eq_some_iff.mp done
          obtain ⟨_,rfl⟩ := Prod.mk.inj same
          rcases valid.remove_cases head intact with ⟨_,_,stays⟩ | ⟨before,e,split,own⟩ | ⟨e,behind,rest,split,own⟩ |
            ⟨first,more,e,behind,rest,split,own⟩
          · obtain ⟨_,rfl⟩ := Prod.mk.inj (Option.some.inj (stays.symm.trans removed))
            exact ⟨broken,chains,shape⟩
          · rw [valid.remove_last head intact split own] at removed
            cases removed
          · obtain ⟨node,back,_,_,_,freed⟩ := valid.remove_first head intact split own
            obtain ⟨_,rfl⟩ := Prod.mk.inj (Option.some.inj (freed.symm.trans removed))
            exact ⟨_,_,shape.unlink_first inside intact split node back⟩
          · obtain ⟨front,back,_,_,freed,kept⟩ := valid.remove_later head intact split own
            obtain ⟨_,rfl⟩ := Prod.mk.inj (Option.some.inj (freed.symm.trans removed))
            exact ⟨_,_,kept.shape⟩

theorem run_shape (bucketsSize : Int) (hash : Option (Key → Option Int)) (ops : List (Operation Value))
    (reached : Machine.run step (some (newHashMap bucketsSize hash)) ops = some t) :
    ∃ broken chains, Shape t broken chains := by
  refine Machine.run_preserves (fun state => ∀ t, state = some t → ∃ broken chains, Shape t broken chains) ?_ ?_ ops t
    reached
  · intro t new
    cases new
    exact ⟨_,_,(new_represents bucketsSize hash).shape⟩
  · intro state op before next after
    obtain ⟨t,rfl,ended⟩ := Option.bind_eq_some_iff.mp after
    obtain ⟨⟨result,_⟩,done,rfl⟩ := Option.map_eq_some_iff.mp ended
    obtain ⟨broken,chains,shape⟩ := before t rfl
    exact operate_shape shape done

theorem exists_of_member (valid : Represents t broken chains store) (inside : t.InRange k) (intact : ¬ broken k)
    (member : e ∈ chains k) : ∃ key, t.keyOf e = some key ∧ findHead t key = some k ∧ exists_ t key = some true := by
  obtain ⟨node,resident,_,head⟩ := valid.shape.nodes k inside e member
  refine ⟨node.key,by simp [Table.keyOf,resident],head,?_⟩
  obtain ⟨_,_,_,_,held⟩ := valid.found head intact member (by simp [Table.keyOf,resident])
  rw [valid.exists_eq head intact,held]
  rfl

-- remove does not touch the buckets, and revives no node.
theorem unlinked_none (frontAt : t.memory first = some front) (backAt : t.memory behind = some back)
    (freed : t.memory a = none) : (unlinked t k first e behind front back).memory a = none := by
  have different : a ≠ first := by
    rintro rfl
    cases freed.symm.trans frontAt
  have different' : a ≠ behind := by
    rintro rfl
    cases freed.symm.trans backAt
  by_cases equal : a = e
  · subst a
    exact unlinked_freed _ _ _ _ _ _ _
  · exact (setNode_other _ _ equal).trans ((setNode_other _ _ different').trans ((setNode_other _ _ different).trans freed))

theorem head_live (linked : Links t.nextOf (t.buckets k) chain) (live : ∀ e ∈ chain, t.memory e ≠ none)
    (start : t.buckets k = some e) : t.memory e ≠ none := by
  rw [start] at linked
  obtain ⟨rest,rfl,_⟩ := links_some linked
  exact live e (by simp)

theorem same_answers (valid : Represents t broken chains store) (after : Represents next broken chains' store')
    (whole : ∀ k, t.InRange k → ¬ broken k) (homes : findHead next = findHead t) (same : store' key = store key) :
    getByKey next key = getByKey t key ∧ exists_ next key = exists_ t key := by
  cases head : findHead t key with
  | none => simp [getByKey,exists_,homes,head]
  | some k =>
      have intact := whole k (findHead_inRange head)
      have head' : findHead next key = some k := by rw [homes]; exact head
      rw [valid.getByKey_eq head intact,valid.exists_eq head intact,after.getByKey_eq head' intact,
        after.exists_eq head' intact,same]
      exact ⟨rfl,rfl⟩

theorem removes_absent (valid : Represents t broken chains store) (whole : ∀ k, t.InRange k → ¬ broken k)
    (head : findHead t key = some k) (absent : some key ∉ (chains k).map t.keyOf) : RemovesRightly t key := by
  have intact := whole k (findHead_inRange head)
  have present : ∀ e ∈ chains k, t.keyOf e ≠ some key := fun e member own => absent (List.mem_map.mpr ⟨e,member,own⟩)
  rcases valid.remove_cases head intact with ⟨_,missing,stays⟩ | ⟨_,e,split,own⟩ | ⟨e,_,_,split,own⟩ | ⟨_,_,e,_,_,split,own⟩
  · refine ⟨none,t,stays,?_,?_,?_,fun _ _ => ⟨rfl,rfl⟩,fun j inRange => ?_⟩
    · rw [valid.getByKey_eq head intact,missing]
      rfl
    · rw [valid.getByKey_eq head intact,missing]
      rfl
    · rw [valid.exists_eq head intact,missing]
      rfl
    · exact ⟨chains j,valid.shape.linked j inRange (whole j inRange),fun e member => valid.shape.live inRange member⟩
  · exact absurd own (present e (by simp [split]))
  · exact absurd own (present e (by simp [split]))
  · exact absurd own (present e (by simp [split]))

theorem removes_second (valid : Represents t broken chains store) (whole : ∀ k, t.InRange k → ¬ broken k)
    (head : findHead t key = some k) (split : chains k = first :: e :: behind :: rest) (own : t.keyOf e = some key) :
    RemovesRightly t key := by
  have intact := whole k (findHead_inRange head)
  have alone : chains k = first :: [] ++ e :: behind :: rest := split
  obtain ⟨front,back,_,_,removed,after⟩ := valid.remove_later head intact alone own
  have homes : findHead (unlinked t k first e behind front back) = findHead t := by simp [unlinked]
  have head' : findHead (unlinked t k first e behind front back) key = some k := by rw [homes]; exact head
  refine ⟨_,_,removed,valid.getByKey_eq head intact,?_,?_,?_,?_⟩
  · rw [after.getByKey_eq head' intact]
    simp [own]
  · rw [after.exists_eq head' intact]
    simp [own]
  · intro other different
    refine same_answers valid after whole homes (if_neg ?_)
    simpa [own] using different
  · intro j inRange
    exact ⟨_,after.shape.linked j inRange (whole j inRange),fun a member => after.shape.live inRange member⟩

-- A node between the first one and the removed one loses its key.
theorem lost_key (valid : Represents t broken chains store) (inside : t.InRange k) (intact : ¬ broken k)
    (split : chains k = first :: (lost :: more) ++ e :: behind :: rest) (own : t.keyOf e = some key)
    (head : findHead t key = some k) :
    ∃ other value next, other ≠ key ∧ remove t key = some (value,next) ∧ exists_ t other = some true ∧
      exists_ next other = some false := by
  obtain ⟨other,named,home,there⟩ := exists_of_member valid inside intact (show lost ∈ chains k by simp [split])
  obtain ⟨front,back,_,_,removed,after⟩ := valid.remove_later head intact split own
  have homes : findHead (unlinked t k first e behind front back) = findHead t := by simp [unlinked]
  refine ⟨other,_,_,?_,removed,there,?_⟩
  · rintro rfl
    have once := links_nodup (valid.shape.linked k inside intact)
    have equal : lost = e := valid.shape.key_unique inside (by simp [split]) (by simp [split])
      (named.trans own.symm)
    rw [split] at once
    simp [equal] at once
  · rw [after.exists_eq (by rw [homes]; exact home) intact]
    simp [named]

-- For every map that is reached and every key, remove does what it is to do
-- exactly if the key is absent or in the one position where it works.
theorem removes_rightly_iff (bucketsSize : Int) (hash : Option (Key → Option Int)) (ops : List (Operation Value))
    (t : Table Value) (reached : Machine.run step (some (newHashMap bucketsSize hash)) ops = some t) (key : Key) :
    RemovesRightly t key ↔ Removable t key := by
  obtain ⟨broken,chains,shape⟩ := run_shape bucketsSize hash ops reached
  obtain ⟨store,valid⟩ := shape.represents
  constructor
  · rintro ⟨value,next,removed,_,_,_,others,sound⟩
    obtain ⟨k,outcome,head,found⟩ := @operate_searched _ t (.remove key) (.pointer value,next) (by simp [operate,removed])
    have head : findHead t key = some k := head
    have intact := valid.searched found
    have inside := findHead_inRange head
    have linked := shape.linked k inside intact
    have live : next.buckets = t.buckets → next.bucketsSize = t.bucketsSize →
        (∀ a, t.memory a = none → next.memory a = none) →
        ∀ j, t.InRange j → ∀ a, t.buckets j = some a → t.memory a ≠ none := by
      intro heads size freed j inRange a start gone
      obtain ⟨chain,path,alive⟩ := sound j (by rw [Table.InRange,size]; exact inRange)
      exact head_live path alive (heads ▸ start) (freed a gone)
    rcases valid.remove_cases head intact with ⟨absent,_,stays⟩ | ⟨before,e,split,own⟩ | ⟨e,behind,rest,split,own⟩ |
      ⟨first,more,e,behind,rest,split,own⟩
    · obtain ⟨_,rfl⟩ := Prod.mk.inj (Option.some.inj (stays.symm.trans removed))
      exact ⟨live rfl rfl (fun _ gone => gone),k,chains k,head,linked,.inl absent⟩
    · rw [valid.remove_last head intact split own] at removed
      cases removed
    · obtain ⟨node,back,_,_,start,freed⟩ := valid.remove_first head intact split own
      obtain ⟨_,rfl⟩ := Prod.mk.inj (Option.some.inj (freed.symm.trans removed))
      obtain ⟨chain,path,alive⟩ := sound k inside
      exact absurd (unlinked_freed t k e e behind node back) (head_live path alive start)
    · obtain ⟨front,back,frontAt,backAt,freed,_⟩ := valid.remove_later head intact split own
      cases more with
      | nil =>
          obtain ⟨_,rfl⟩ := Prod.mk.inj (Option.some.inj (freed.symm.trans removed))
          exact ⟨live rfl rfl (fun _ gone => unlinked_none frontAt backAt gone),k,chains k,head,linked,
            .inr ⟨first,e,behind,rest,split,own⟩⟩
      | cons lost more =>
          obtain ⟨other,_,_,different,removed',there,gone⟩ := lost_key valid inside intact split own head
          obtain ⟨_,rfl⟩ := Prod.mk.inj (Option.some.inj (removed'.symm.trans removed))
          have kept := (others other different).2
          rw [there,gone] at kept
          cases kept
  · rintro ⟨live,k,chain,head,linked,position⟩
    have inside := findHead_inRange head
    have whole : ∀ j, t.InRange j → ¬ broken j := by
      intro j inRange gone
      obtain ⟨_,e,start,freed⟩ := shape.dangling j gone
      exact live j inRange e start freed
    obtain rfl := links_unique (shape.linked k inside (whole k inside)) linked
    rcases position with absent | ⟨first,e,behind,rest,split,own⟩
    · exact removes_absent valid whole head absent
    · exact removes_second valid whole head split own

theorem removes_rightly_iff_second_of_three :
    ∃ t : Table Nat, Machine.run step (some (newHashMap 1 (some fun _ => some 0)))
      [.put [97] (some 1),.put [98] (some 2),.put [99] (some 3)] = some t ∧ RemovesRightly t [98] := by
  obtain ⟨t,reached⟩ := Option.isSome_iff_exists.mp (show (Machine.run step (some (newHashMap 1 (some fun _ => some 0)))
    [.put [97] (some 1),.put [98] (some 2),.put [99] (some 3)] : Option (Table Nat)).isSome by decide)
  refine ⟨t,reached,(removes_rightly_iff 1 (some fun _ => some 0) _ t reached [98]).mpr ?_⟩
  cases reached
  refine ⟨?_,0,[2,1,0],rfl,⟨rfl,rfl,rfl,rfl⟩,.inr ⟨2,1,0,[],rfl,rfl⟩⟩
  intro k inside e start
  obtain rfl : k = 0 := Int.le_antisymm (Int.le_of_lt_add_one inside.2) inside.1
  cases start
  decide

theorem remove_only_node_fails :
    ∃ t : Table Nat, Machine.run step (some (newHashMap 97 none)) [.put [97] (some 1)] = some t ∧
      ¬ RemovesRightly t [97] := by
  refine ⟨_,rfl,?_⟩
  intro ⟨value,next,removed,_⟩
  cases removed

end TcpProxy.HashMap
