import TcpProxy.HashMap.Hashing

namespace TcpProxy.Database
open HashMap

-- A row of the query for all product names. None of its columns is NULL.
structure ProductRow where
  appId : Key
  kmsId : Key
  product : Key
deriving DecidableEq, Repr

-- `strings` has the strings that were allocated and not freed, `keyOf` the
-- pointer to the key that a node of the map has been given.
structure ProductNames where
  productNameHash : Table Nat
  keyOf : Nat → Nat
  strings : Nat → Option Key
  allocated : Nat

def newProductNames : ProductNames := ⟨newHashMap 53 none,fun _ => 0,fun _ => none,0⟩

def ProductNames.malloc (s : ProductNames) (text : Key) : ProductNames :=
  {s with strings := Function.update s.strings s.allocated (some text), allocated := s.allocated+1}

def ProductNames.free (s : ProductNames) (pointer : Nat) : ProductNames :=
  {s with strings := Function.update s.strings pointer none}

def allocateProductNameKey (appId kmsId : Key) : Key := appId ++ 45 :: kmsId

def ProductRow.key (row : ProductRow) : Key := allocateProductNameKey row.appId row.kmsId

-- The pointer to the key stays in the map when the key is new to it.
def productNamesCallback (s : ProductNames) (row : ProductRow) : Option ProductNames := do
  let key := s.allocated
  let value := s.allocated+1
  let (origin,hash) ← overwritePut s.productNameHash row.key (some value)
  let node := s.productNameHash.allocated
  let keyOf := if hash.allocated = node then s.keyOf else Function.update s.keyOf node key
  let s := {(s.malloc row.key).malloc row.product with productNameHash := hash, keyOf := keyOf}
  match origin with
  | none => some s
  | some origin => some ((s.free key).free origin)

def reloadProductNames (s : ProductNames) (rows : List ProductRow) : Option ProductNames :=
  rows.foldlM productNamesCallback s

def getProductName (s : ProductNames) (appId kmsId : Key) : Option (Option Nat) :=
  getByKey s.productNameHash (allocateProductNameKey appId kmsId)

def lastProduct (chosen : ProductRow → Bool) (rows : List ProductRow) : Option Key :=
  (rows.filter chosen).getLast?.map ProductRow.product

def ofPair (appId kmsId : Key) (row : ProductRow) : Bool := row.appId == appId && row.kmsId == kmsId

-- The answer points to the product of the last row of the pair, and is NULL if
-- there was none.
def AnswersOwn (reloads : List (List ProductRow)) (appId kmsId : Key) : Prop :=
  ∃ s value, reloads.foldlM reloadProductNames newProductNames = some s ∧
    getProductName s appId kmsId = some value ∧
    value.map s.strings = (lastProduct (ofPair appId kmsId) reloads.flatten).map some

-- The last row that is written as the pair is one of it, or has its product.
def Unshadowed (rows : List ProductRow) (appId kmsId : Key) : Prop :=
  ∀ row, (rows.filter fun row => row.key == allocateProductNameKey appId kmsId).getLast? = some row →
    (row.appId = appId ∧ row.kmsId = kmsId) ∨ lastProduct (ofPair appId kmsId) rows = some row.product

theorem lastProduct_concat (chosen : ProductRow → Bool) (rows : List ProductRow) (row : ProductRow) :
    lastProduct chosen (rows ++ [row]) = if chosen row then some row.product else lastProduct chosen rows := by
  unfold lastProduct
  rw [List.filter_append]
  by_cases taken : chosen row
  · simp [taken]
  · simp [taken]

-- The map answers with the rows that have been delivered, by their keys. No
-- pointer into the strings is held twice.
structure Delivered (s : ProductNames) (rows : List ProductRow) (chains : Int → List Nat) (store : Store Nat) : Prop where
  setup : SameSetup (newHashMap 53 none) s.productNameHash
  map : Represents s.productNameHash (fun _ => False) chains store
  texts : ∀ key, (store key).map (fun value => value.map s.strings) =
    (lastProduct (fun row => row.key == key) rows).map fun text => some (some text)
  apart : ∀ key key' value, store key = some (some value) → store key' = some (some value) → key = key'
  keys : ∀ e node, s.productNameHash.memory e = some node → s.strings (s.keyOf e) = some node.key ∧
    ∀ key, store key ≠ some (some (s.keyOf e))
  below : ∀ pointer, (s.strings pointer).isSome → pointer < s.allocated

namespace Delivered

variable {s : ProductNames} {rows : List ProductRow} {chains : Int → List Nat} {store : Store Nat}

theorem held (valid : Delivered s rows chains store) (stored : store key = some value) :
    ∃ v text, value = some v ∧ s.strings v = some text ∧ v < s.allocated := by
  have texts := valid.texts key
  rw [stored,Option.map_some] at texts
  obtain ⟨text,_,same⟩ := Option.map_eq_some_iff.mp texts.symm
  obtain ⟨v,rfl,content⟩ := Option.map_eq_some_iff.mp same.symm
  exact ⟨v,text,rfl,content,valid.below v (by simp [content])⟩

theorem text (valid : Delivered s rows chains store) (key : Key) :
    (store key).join.map s.strings = (lastProduct (fun row => row.key == key) rows).map some := by
  have texts := valid.texts key
  cases stored : store key with
  | none =>
      rw [stored,Option.map_none] at texts
      rw [Option.map_eq_none_iff.mp texts.symm]
      rfl
  | some value =>
      rw [stored,Option.map_some] at texts
      obtain ⟨text,last,same⟩ := Option.map_eq_some_iff.mp texts.symm
      rw [last]
      exact same.symm

-- The strings that were there are kept, but for the overwritten product. `v`
-- is its address, or one that is not in use yet.
theorem put (valid : Delivered s rows chains store) (row : ProductRow) {hash : Table Nat}
    {strings : Nat → Option Key} {keyOf : Nat → Nat} (setup : SameSetup s.productNameHash hash)
    (map : Represents hash (fun _ => False) chains' (Function.update store row.key (some (some (s.allocated+1)))))
    (product : strings (s.allocated+1) = some row.product)
    (kept : ∀ pointer < s.allocated, store row.key ≠ some (some pointer) → strings pointer = s.strings pointer)
    (below : ∀ pointer, (strings pointer).isSome → pointer < s.allocated+2)
    (keys : ∀ e node, hash.memory e = some node → strings (keyOf e) = some node.key ∧
      (keyOf e = s.allocated ∨ keyOf e < s.allocated ∧ ∀ key, store key ≠ some (some (keyOf e)))) :
    Delivered ⟨hash,keyOf,strings,s.allocated+2⟩ (rows ++ [row]) chains'
      (Function.update store row.key (some (some (s.allocated+1)))) := by
  constructor
  case setup => exact ⟨setup.size.trans valid.setup.size,setup.hash.trans valid.setup.hash⟩
  case map => exact map
  case texts =>
    intro key
    rw [lastProduct_concat]
    by_cases own : row.key = key
    · subst key
      simp [product]
    · rw [Function.update_of_ne (Ne.symm own),if_neg (by simpa using own),← valid.texts key]
      cases stored : store key with
      | none => rfl
      | some value =>
          obtain ⟨v,text,rfl,content,old⟩ := valid.held stored
          have other : store row.key ≠ some (some v) := fun both => own (valid.apart row.key key v both stored)
          simp [kept v old other]
  case apart =>
    intro key key' value one two
    have fresh : ∀ other, store other ≠ some (some (s.allocated+1)) := fun other stored => by
      obtain ⟨_,_,same,_,old⟩ := valid.held stored
      cases same
      omega
    by_cases own : key = row.key
    · by_cases own' : key' = row.key
      · rw [own,own']
      · rw [own,Function.update_self] at one
        rw [Function.update_of_ne own',← one] at two
        exact absurd two (fresh key')
    · rw [Function.update_of_ne own] at one
      by_cases own' : key' = row.key
      · rw [own',Function.update_self] at two
        rw [← two] at one
        exact absurd one (fresh key)
      · rw [Function.update_of_ne own'] at two
        exact valid.apart key key' value one two
  case keys =>
    intro e node resident
    obtain ⟨content,place⟩ := keys e node resident
    refine ⟨content,fun key stored => ?_⟩
    dsimp only at stored
    by_cases own : key = row.key
    · rw [own,Function.update_self] at stored
      have same := Option.some.inj (Option.some.inj stored)
      rcases place with new | ⟨old,_⟩
      · omega
      · omega
    · rw [Function.update_of_ne own] at stored
      rcases place with new | ⟨_,apart⟩
      · obtain ⟨_,_,same,_,old⟩ := valid.held stored
        cases same
        omega
      · exact apart key stored
  case below => exact below

theorem below_grown (valid : Delivered s rows chains store) {strings : Nat → Option Key}
    (same : ∀ pointer, s.allocated+2 ≤ pointer → strings pointer = s.strings pointer) (pointer : Nat)
    (live : (strings pointer).isSome) : pointer < s.allocated+2 := by
  by_contra beyond
  rw [same pointer (Nat.not_lt.mp beyond)] at live
  have below := valid.below pointer live
  omega

theorem keyOf_lt (valid : Delivered s rows chains store) (stored : s.productNameHash.memory e = some node) :
    s.keyOf e < s.allocated :=
  valid.below _ (by simp [(valid.keys e node stored).1])

theorem callback_new (valid : Delivered s rows chains store) (row : ProductRow)
    (head : findHead s.productNameHash row.key = some k) (found : findData s.productNameHash k row.key = some none)
    (absent : ∀ value, ¬ Stored s.productNameHash chains row.key value) :
    ∃ next chains' store', productNamesCallback s row = some next ∧ Delivered next (rows ++ [row]) chains' store' := by
  have put : overwritePut s.productNameHash row.key (some (s.allocated+1)) =
      some (none,insertHead s.productNameHash k row.key (some (s.allocated+1))) := by
    simp [overwritePut,head,found]
  have called : productNamesCallback s row = some
      ⟨insertHead s.productNameHash k row.key (some (s.allocated+1)),
        Function.update s.keyOf s.productNameHash.allocated s.allocated,
        Function.update (Function.update s.strings s.allocated (some row.key)) (s.allocated+1) (some row.product),
        s.allocated+2⟩ := by
    simp [productNamesCallback,put,ProductNames.malloc,insertHead]
  have kept : ∀ pointer, pointer ≠ s.allocated → pointer ≠ s.allocated+1 →
      Function.update (Function.update s.strings s.allocated (some row.key)) (s.allocated+1) (some row.product) pointer =
        s.strings pointer := by
    intro pointer key value
    rw [Function.update_of_ne value,Function.update_of_ne key]
  refine ⟨_,_,_,called,valid.put row ⟨rfl,rfl⟩ (valid.map.insertHead head id absent _) (by simp) ?_ ?_ ?_⟩
  · exact fun pointer below _ => kept pointer (by omega) (by omega)
  · exact valid.below_grown fun pointer beyond => kept pointer (by omega) (by omega)
  · intro e node stored
    by_cases last : e = s.productNameHash.allocated
    · rw [last,insertHead,setNode_memory] at stored
      obtain rfl := Option.some.inj stored
      rw [last,Function.update_self,Function.update_of_ne (Nat.ne_of_lt (Nat.lt_succ_self _)),Function.update_self]
      exact ⟨rfl,.inl rfl⟩
    · have before : s.productNameHash.memory e = some node := (setNode_other _ _ last).symm.trans stored
      have below := valid.keyOf_lt before
      obtain ⟨content,apart⟩ := valid.keys e node before
      rw [Function.update_of_ne last,kept _ (by omega) (by omega)]
      exact ⟨content,.inr ⟨below,apart⟩⟩

-- When the key was there, the new copy of it and the old product are freed.
theorem callback_known (valid : Delivered s rows chains store) (row : ProductRow)
    (head : findHead s.productNameHash row.key = some k) (member : e ∈ chains k)
    (resident : s.productNameHash.memory e = some node) (own : node.key = row.key)
    (found : findData s.productNameHash k row.key = some (some e)) (stored : store row.key = some node.value) :
    ∃ next chains' store', productNamesCallback s row = some next ∧ Delivered next (rows ++ [row]) chains' store' := by
  obtain ⟨v,text,value,content,vold⟩ := valid.held stored
  have put : overwritePut s.productNameHash row.key (some (s.allocated+1)) =
      some (some v,s.productNameHash.setNode e (some {node with value := some (s.allocated+1)})) := by
    simp [overwritePut,head,found,resident,value]
  have called : productNamesCallback s row = some
      ⟨s.productNameHash.setNode e (some {node with value := some (s.allocated+1)}),s.keyOf,
        Function.update (Function.update (Function.update (Function.update s.strings s.allocated (some row.key))
          (s.allocated+1) (some row.product)) s.allocated none) v none,s.allocated+2⟩ := by
    simp [productNamesCallback,put,ProductNames.malloc,ProductNames.free,Table.setNode]
  have map := valid.map.update (valid.map.shape.setValue (findHead_inRange head) id member resident (some (s.allocated+1)))
    (valid.map.shape.setValue_stored head member resident own (some (s.allocated+1)))
  have kept : ∀ pointer, pointer ≠ s.allocated → pointer ≠ s.allocated+1 → pointer ≠ v →
      Function.update (Function.update (Function.update (Function.update s.strings s.allocated (some row.key))
        (s.allocated+1) (some row.product)) s.allocated none) v none pointer = s.strings pointer := by
    intro pointer key value other
    rw [Function.update_of_ne other,Function.update_of_ne key,Function.update_of_ne value,Function.update_of_ne key]
  refine ⟨_,_,_,called,valid.put row ⟨rfl,rfl⟩ map ?_ (fun pointer below other => ?_) ?_ ?_⟩
  · rw [Function.update_of_ne (by omega),Function.update_of_ne (by omega),Function.update_self]
  · refine kept pointer (by omega) (by omega) ?_
    rintro rfl
    exact other (stored.trans (congrArg some value))
  · exact valid.below_grown fun pointer beyond => kept pointer (by omega) (by omega) (by omega)
  · intro e' node' at'
    have before : ∃ node, s.productNameHash.memory e' = some node ∧ node.key = node'.key := by
      by_cases same : e' = e
      · rw [same,setNode_memory] at at'
        obtain rfl := Option.some.inj at'
        exact ⟨node,same ▸ resident,rfl⟩
      · exact ⟨node',(setNode_other _ _ same).symm.trans at',rfl⟩
    obtain ⟨node,stored',key⟩ := before
    obtain ⟨content,apart⟩ := valid.keys e' node stored'
    have below := valid.keyOf_lt stored'
    have other : s.keyOf e' ≠ v := fun same => apart row.key (by rw [same]; exact stored.trans (congrArg some value))
    rw [kept _ (by omega) (by omega) other,← key]
    exact ⟨content,.inr ⟨below,apart⟩⟩

theorem callback (valid : Delivered s rows chains store) (row : ProductRow) (selects : SelectsBucket row.key 53) :
    ∃ next chains' store', productNamesCallback s row = some next ∧ Delivered next (rows ++ [row]) chains' store' := by
  obtain ⟨k,head⟩ := Option.isSome_iff_exists.mp ((findHead_selects valid.setup row.key).mpr selects)
  rcases valid.map.find_cases head id with ⟨found,missing,absent⟩ | ⟨before,e,after,node,split,resident,own,found,stored⟩
  · exact valid.callback_new row head found absent
  · exact valid.callback_known row head (by simp [split]) resident own found stored

end Delivered

theorem newProductNames_delivered : Delivered newProductNames [] (fun _ => []) fun _ => none := by
  constructor
  case setup => exact ⟨rfl,rfl⟩
  case map => exact new_represents _ _
  case texts => exact fun _ => rfl
  case apart => exact fun _ _ _ stored => by cases stored
  case keys => exact fun _ _ resident => by cases resident
  case below => exact fun _ live => by cases live

theorem callbacks_delivered (rows : List ProductRow) (selects : ∀ row ∈ rows, SelectsBucket row.key 53) :
    ∃ s chains store, rows.foldlM productNamesCallback newProductNames = some s ∧ Delivered s rows chains store := by
  induction rows using List.reverseRecOn with
  | nil => exact ⟨_,_,_,rfl,newProductNames_delivered⟩
  | append_singleton earlier row ih =>
      obtain ⟨s,chains,store,ran,valid⟩ := ih fun one member => selects one (by simp [member])
      obtain ⟨next,chains',store',called,after⟩ := valid.callback row (selects row (by simp))
      exact ⟨next,chains',store',by simp [List.foldlM_append,ran,called],after⟩

theorem callbacks_select (rows : List ProductRow) (ran : rows.foldlM productNamesCallback newProductNames = some s) :
    ∀ row ∈ rows, SelectsBucket row.key 53 := by
  induction rows using List.reverseRecOn generalizing s with
  | nil => simp
  | append_singleton earlier row ih =>
      simp only [List.foldlM_append,List.foldlM_cons,List.foldlM_nil,Option.bind_eq_bind,Option.bind_eq_some_iff] at ran
      obtain ⟨before,first,_,called,_⟩ := ran
      have selects := ih first
      obtain ⟨s',chains,store,again,valid⟩ := callbacks_delivered earlier selects
      obtain rfl := Option.some.inj (again.symm.trans first)
      obtain ⟨⟨origin,hash⟩,put,_⟩ := Option.bind_eq_some_iff.mp called
      obtain ⟨k,head,_⟩ := Option.bind_eq_some_iff.mp put
      intro one member
      rcases List.mem_append.mp member with old | new
      · exact selects one old
      · obtain rfl := List.mem_singleton.mp new
        exact (findHead_selects valid.setup one.key).mp (by simp [head])

theorem reloads_flatten (reloads : List (List ProductRow)) (s : ProductNames) :
    reloads.foldlM reloadProductNames s = reloads.flatten.foldlM productNamesCallback s := by
  induction reloads generalizing s with
  | nil => rfl
  | cons rows rest ih =>
      rw [List.foldlM_cons,List.flatten_cons,List.foldlM_append]
      exact congrArg _ (funext ih)

theorem ofPair_key (own : ofPair appId kmsId row = true) : row.key = allocateProductNameKey appId kmsId := by
  simp only [ofPair,Bool.and_eq_true,beq_iff_eq] at own
  rw [ProductRow.key,own.1,own.2]

theorem unshadowed_iff (rows : List ProductRow) (appId kmsId : Key) :
    lastProduct (fun row => row.key == allocateProductNameKey appId kmsId) rows = lastProduct (ofPair appId kmsId) rows ↔
      Unshadowed rows appId kmsId := by
  have among : rows.filter (ofPair appId kmsId) =
      (rows.filter fun row => row.key == allocateProductNameKey appId kmsId).filter (ofPair appId kmsId) := by
    rw [List.filter_filter]
    refine List.filter_congr fun row _ => ?_
    by_cases own : ofPair appId kmsId row
    · simp [own,ofPair_key own]
    · simp [own]
  unfold Unshadowed lastProduct
  rw [among]
  generalize rows.filter (fun row => row.key == allocateProductNameKey appId kmsId) = written
  induction written using List.reverseRecOn with
  | nil => simp
  | append_singleton earlier last _ =>
      simp only [List.getLast?_concat,Option.map_some,Option.some.injEq,forall_eq']
      constructor
      · exact fun same => .inr same.symm
      · intro either
        rcases either with ⟨app,kms⟩ | same
        · have own : ofPair appId kmsId last = true := by simp [ofPair,app,kms]
          rw [List.filter_append,List.filter_cons_of_pos own,List.filter_nil,List.getLast?_concat]
          rfl
        · exact same.symm

-- What the map answers at any time is the last row of the same text.
theorem answers_own_cases (answers : AnswersOwn reloads appId kmsId) :
    (∀ row ∈ reloads.flatten, SelectsBucket row.key 53) ∧ SelectsBucket (allocateProductNameKey appId kmsId) 53 ∧
      lastProduct (fun row => row.key == allocateProductNameKey appId kmsId) reloads.flatten =
        lastProduct (ofPair appId kmsId) reloads.flatten := by
  obtain ⟨s,value,ran,got,own⟩ := answers
  rw [reloads_flatten] at ran
  have selects := callbacks_select _ ran
  obtain ⟨s',chains,store,again,valid⟩ := callbacks_delivered _ selects
  obtain rfl := Option.some.inj (again.symm.trans ran)
  obtain ⟨k,head,_⟩ := Option.bind_eq_some_iff.mp got
  obtain rfl := Option.some.inj ((valid.map.getByKey_eq head id).symm.trans got)
  exact ⟨selects,(findHead_selects valid.setup _).mp (by simp [head]),
    Option.map_injective (Option.some_injective _) ((valid.text _).symm.trans own)⟩

-- The separator may stand in an id, and a char that is negative selects no
-- bucket.
theorem answers_own_iff (reloads : List (List ProductRow)) (appId kmsId : Key) :
    AnswersOwn reloads appId kmsId ↔ (∀ row ∈ reloads.flatten, SelectsBucket row.key 53) ∧
      SelectsBucket (allocateProductNameKey appId kmsId) 53 ∧ Unshadowed reloads.flatten appId kmsId := by
  rw [← unshadowed_iff]
  constructor
  · exact answers_own_cases
  · rintro ⟨selects,asked,same⟩
    obtain ⟨s,chains,store,ran,valid⟩ := callbacks_delivered _ selects
    obtain ⟨k,head⟩ := Option.isSome_iff_exists.mp ((findHead_selects valid.setup _).mpr asked)
    refine ⟨s,_,(reloads_flatten reloads _).trans ran,valid.map.getByKey_eq head id,?_⟩
    rw [← same]
    exact valid.text _

-- The ids x and y-z are written x-y-z, as are x-y and z, which have no product.
theorem separator_in_id_answers_other_pair :
    ¬ AnswersOwn [[⟨[120],[121,45,122],[112]⟩]] [120,45,121] [122] :=
  fun answers => absurd (answers_own_cases answers).2.2 (by decide)

end TcpProxy.Database
