import TcpProxy.HashMap.Hashing
import TcpProxy.HashMap.Refinement

namespace TcpProxy.Context
open HashMap

structure Header where
  magic : UInt32
  versionMajor : UInt16
  versionMinor : UInt16
deriving DecidableEq, Repr

structure ContextAware where
  header : Header
  name : Key
  dependsOn : Option (List Key)
  postConstruct : Bool
deriving DecidableEq, Repr

def ContextAware.dependencies (context : ContextAware) : List Key := context.dependsOn.getD []

structure Entry where
  context : ContextAware
  initialized : Bool
deriving DecidableEq, Repr

-- The list of entries is only ever pushed to. `constructed` has the names of
-- the beans in the order of the calls of their post_construct.
structure State where
  hashMap : Table Nat
  memory : Nat → Option Entry
  allocated : Nat
  entries : List Nat
  constructed : List Key

def initialOnce : State := ⟨newHashMap 97 none,fun _ => none,0,[],[]⟩

-- A dependency that is not in the map does not count against the entry. When
-- auto_wiring meets one it is logged.
def checkEntry (s : State) : List Key → Option Bool
  | [] => some true
  | item :: rest => do
    match ← getByKey s.hashMap item with
    | none => checkEntry s rest
    | some e =>
      let entry ← s.memory e
      if entry.initialized then checkEntry s rest else some false

def construct (s : State) (e : Nat) (entry : Entry) : State :=
  {s with
    memory := Function.update s.memory e (some {entry with initialized := true}),
    constructed := if entry.context.postConstruct then s.constructed ++ [entry.context.name] else s.constructed}

-- The inner loop, from `ptr` to the end of the list: done and wiring_count.
def wiringPass : List Nat → State → Option (Bool × Nat × State)
  | [],s => some (true,0,s)
  | e :: rest,s => do
    let entry ← s.memory e
    if entry.initialized then wiringPass rest s
    else if ← checkEntry s entry.context.dependencies then
      let (done,count,s) ← wiringPass rest (construct s e entry)
      some (done,count+1,s)
    else
      let (_,count,s) ← wiringPass rest s
      some (false,count,s)

-- do ... while (wiring_count > 0). `ptr` is not set to the first entry again,
-- so it is NULL from the second round on.
def wiringLoop : Nat → List Nat → State → Option (Bool × State)
  | 0,_,_ => none
  | left+1,ptr,s => do
    let (done,count,s) ← wiringPass ptr s
    if 0 < count then wiringLoop left [] s else some (done,s)

def wiring (s : State) : Option (Bool × State) := wiringLoop (s.entries.length+2) s.entries s

def autoWiring (s : State) : Option (Bool × State) := wiring s

def pushEntry (s : State) (context : ContextAware) : State :=
  {s with
    memory := Function.update s.memory s.allocated (some ⟨context,false⟩),
    allocated := s.allocated+1,
    entries := s.allocated :: s.entries}

def newEntry (s : State) (context : ContextAware) : Option (Nat × State) := do
  let (_,after) ← wiring (pushEntry s context)
  some (s.allocated,after)

def Header.accepted (header : Header) : Prop :=
  header.magic = 1012315172 ∧ (header.versionMajor = 1 ∨ header.versionMinor = 0)

instance (header : Header) : Decidable header.accepted := inferInstanceAs (Decidable (_ ∧ _))

-- CONTEXT_ERROR_MAGIC_NUMBER, _VERSION_NUMBER and _KEY_EXISTS are 1, 2 and 3.
def populate (s : State) (context : ContextAware) : Option (Nat × State) :=
  if context.header.magic ≠ 1012315172 then some (1,s)
  else if context.header.versionMajor ≠ 1 ∧ context.header.versionMinor ≠ 0 then some (2,s)
  else do
    let (e,s) ← newEntry s context
    let (origin,hashMap) ← putIfAbsent s.hashMap context.name (some e)
    some (if origin.isSome then 3 else 0,{s with hashMap := hashMap})

def getBean (s : State) (name : Key) : Option (Option ContextAware) := do
  match ← getByKey s.hashMap name with
  | none => some none
  | some e =>
    let entry ← s.memory e
    some (if entry.initialized then some entry.context else none)

def registered (s : State) (name : Key) : Bool := (getByKey s.hashMap name).join.isSome

def populateAll (beans : List ContextAware) : Option State :=
  beans.foldlM (fun s bean => (populate s bean).map Prod.snd) initialOnce

def start (beans : List ContextAware) : Option (Bool × State) := (populateAll beans).bind autoWiring

def Initialized (s : State) (e : Nat) : Prop := ∃ entry, s.memory e = some entry ∧ entry.initialized = true

def Registers (s : State) (name : Key) (d : Nat) : Prop := getByKey s.hashMap name = some (some d)

-- What the loop over the dependencies asks for: those that are registered have
-- been initialised.
def Ready (s : State) (items : List Key) : Prop := ∀ item ∈ items, ∀ d, Registers s item d → Initialized s d

-- After the populate calls of `beans`, in their order: every entry has been
-- initialised, each in its own call.
structure Populated (s : State) (beans : List ContextAware) : Prop where
  entries : s.entries = (List.range beans.length).reverse
  allocated : s.allocated = beans.length
  memory : ∀ e < beans.length, ∃ entry, s.memory e = some entry ∧ entry.initialized = true
  constructed : s.constructed = (beans.filter fun bean => bean.postConstruct).map fun bean => bean.name
  setup : SameSetup (newHashMap 97 none) s.hashMap
  map : ∃ chains store, Represents s.hashMap (fun _ => False) chains store ∧
    ∀ key value, store key = some value → ∃ e < beans.length, value = some e

theorem checkEntry_spec (s : State) (items : List Key)
    (looked : ∀ item ∈ items, ∃ found, getByKey s.hashMap item = some found ∧
      ∀ d, found = some d → (s.memory d).isSome) :
    ∃ success, checkEntry s items = some success ∧ (success = true ↔ Ready s items) := by
  induction items with
  | nil => exact ⟨true,rfl,by simp [Ready]⟩
  | cons item rest ih =>
      obtain ⟨success,later,exactly⟩ := ih fun other member => looked other (List.mem_cons_of_mem _ member)
      obtain ⟨found,read,there⟩ := looked item List.mem_cons_self
      cases found with
      | none =>
          refine ⟨success,by simp [checkEntry,read,later],exactly.trans ?_⟩
          simp [Ready,Registers,read]
      | some d =>
          obtain ⟨entry,stored⟩ := Option.isSome_iff_exists.mp (there d rfl)
          cases flag : entry.initialized with
          | true =>
              refine ⟨success,by simp [checkEntry,read,stored,flag,later],exactly.trans ?_⟩
              simp [Ready,Registers,read,Initialized,stored,flag]
          | false =>
              refine ⟨false,by simp [checkEntry,read,stored,flag],?_⟩
              simp [Ready,Registers,read,Initialized,stored,flag]

theorem checkEntry_ready (s : State) (items : List Key)
    (ready : ∀ item ∈ items, ∃ found, getByKey s.hashMap item = some found ∧
      ∀ e, found = some e → ∃ entry, s.memory e = some entry ∧ entry.initialized = true) :
    checkEntry s items = some true := by
  obtain ⟨success,checked,exactly⟩ := checkEntry_spec s items fun item member => by
    obtain ⟨found,read,initialized⟩ := ready item member
    exact ⟨found,read,fun e same => by obtain ⟨entry,stored,_⟩ := initialized e same; simp [stored]⟩
  rw [checked,exactly.mpr]
  intro item member d registers
  obtain ⟨found,read,initialized⟩ := ready item member
  exact initialized d (Option.some.inj (read.symm.trans registers))

theorem wiringPass_initialized (s : State) (ptr : List Nat)
    (all : ∀ e ∈ ptr, ∃ entry, s.memory e = some entry ∧ entry.initialized = true) :
    wiringPass ptr s = some (true,0,s) := by
  induction ptr with
  | nil => rfl
  | cons e rest ih =>
      obtain ⟨entry,stored,flag⟩ := all e (by simp)
      simp [wiringPass,stored,flag,ih fun e member => all e (List.mem_cons_of_mem _ member)]

namespace Populated

variable {s : State} {beans : List ContextAware} {bean : ContextAware}

theorem initialized (valid : Populated s beans) :
    ∀ e ∈ s.entries, ∃ entry, s.memory e = some entry ∧ entry.initialized = true := by
  intro e member
  rw [valid.entries,List.mem_reverse,List.mem_range] at member
  exact valid.memory e member

theorem autoWiring (valid : Populated s beans) : autoWiring s = some (true,s) := by
  simp [Context.autoWiring,wiring,wiringLoop,wiringPass_initialized s s.entries valid.initialized]

-- The new entry is initialised at once, whether or not its dependencies are
-- there: those that are there have been initialised before.
theorem wiring (valid : Populated s beans) (selects : ∀ item ∈ bean.dependencies, SelectsBucket item 97) :
    wiring (pushEntry s bean) = some (true,construct (pushEntry s bean) beans.length ⟨bean,false⟩) := by
  obtain ⟨chains,store,represents,stored⟩ := valid.map
  have new : (pushEntry s bean).memory beans.length = some ⟨bean,false⟩ := by
    rw [← valid.allocated]
    exact Function.update_self _ _ _
  have old : ∀ e < beans.length, (pushEntry s bean).memory e = s.memory e := fun e below =>
    Function.update_of_ne (by rw [valid.allocated]; exact Nat.ne_of_lt below) _ _
  have ready : checkEntry (pushEntry s bean) bean.dependencies = some true := by
    refine checkEntry_ready _ _ fun item member => ?_
    obtain ⟨k,head⟩ := Option.isSome_iff_exists.mp ((findHead_selects valid.setup item).mpr (selects item member))
    refine ⟨_,represents.getByKey_eq head id,fun e found => ?_⟩
    obtain ⟨e',below,same⟩ := stored item (some e) (Option.join_eq_some_iff.mp found)
    obtain rfl := Option.some.inj same
    rw [old e below]
    exact valid.memory e below
  have rest : wiringPass s.entries (construct (pushEntry s bean) beans.length ⟨bean,false⟩) =
      some (true,0,construct (pushEntry s bean) beans.length ⟨bean,false⟩) := by
    refine wiringPass_initialized _ _ fun e member => ?_
    rw [valid.entries,List.mem_reverse,List.mem_range] at member
    have kept : (construct (pushEntry s bean) beans.length ⟨bean,false⟩).memory e = s.memory e :=
      (Function.update_of_ne (Nat.ne_of_lt member) _ _).trans (old e member)
    rw [kept]
    exact valid.memory e member
  have first : wiringPass (beans.length :: s.entries) (pushEntry s bean) =
      some (true,1,construct (pushEntry s bean) beans.length ⟨bean,false⟩) := by
    simp [wiringPass,new,ready,rest]
  have entries : (pushEntry s bean).entries = beans.length :: s.entries := by rw [← valid.allocated]; rfl
  simp [Context.wiring,entries,wiringLoop,first,wiringPass]

theorem populate (valid : Populated s beans) (accepted : bean.header.accepted) (named : SelectsBucket bean.name 97)
    (selects : ∀ item ∈ bean.dependencies, SelectsBucket item 97) :
    ∃ next, populate s bean = some (if registered s bean.name then 3 else 0,next) ∧
      next.entries = s.allocated :: s.entries ∧ Populated next (beans ++ [bean]) := by
  obtain ⟨chains,store,represents,stored⟩ := valid.map
  obtain ⟨k,head⟩ := Option.isSome_iff_exists.mp ((findHead_selects valid.setup bean.name).mpr named)
  obtain ⟨hashMap,chains',put,same,after⟩ := represents.putIfAbsent head id (some s.allocated)
  have wired := valid.wiring selects
  have version : ¬ (bean.header.versionMajor ≠ 1 ∧ bean.header.versionMinor ≠ 0) := fun wrong =>
    accepted.2.elim wrong.1 wrong.2
  have known : registered s bean.name = (store bean.name).join.isSome := by
    simp [registered,represents.getByKey_eq head id]
  refine ⟨{construct (pushEntry s bean) beans.length ⟨bean,false⟩ with hashMap := hashMap},?_,rfl,?_⟩
  · rw [known]
    rw [Context.populate,if_neg (fun wrong => wrong accepted.1),if_neg version]
    simp only [newEntry,wired,Option.bind_eq_bind,Option.bind_some]
    rw [show (construct (pushEntry s bean) beans.length ⟨bean,false⟩).hashMap = s.hashMap from rfl,put]
    rfl
  · constructor
    case entries =>
      change s.allocated :: s.entries = _
      rw [valid.allocated,valid.entries,List.length_append,List.length_singleton,List.range_succ,List.reverse_append]
      rfl
    case allocated =>
      change s.allocated+1 = _
      rw [valid.allocated,List.length_append,List.length_singleton]
    case memory =>
      intro e below
      rw [List.length_append,List.length_singleton] at below
      by_cases last : e = beans.length
      · subst e
        exact ⟨_,Function.update_self _ _ _,rfl⟩
      · have earlier : e < beans.length := by omega
        obtain ⟨entry,resident,flag⟩ := valid.memory e earlier
        refine ⟨entry,(Function.update_of_ne last _ _).trans ((Function.update_of_ne ?_ _ _).trans resident),flag⟩
        rw [valid.allocated]
        exact last
    case constructed =>
      change (if bean.postConstruct = true then s.constructed ++ [bean.name] else s.constructed) = _
      rw [valid.constructed,List.filter_append,List.map_append]
      cases called : bean.postConstruct with
      | false => simp [called]
      | true => simp [called]
    case setup => exact ⟨same.size.trans valid.setup.size,same.hash.trans valid.setup.hash⟩
    case map =>
      refine ⟨chains',_,after,fun key value held => ?_⟩
      rw [List.length_append,List.length_singleton]
      simp only [apply] at held
      split at held
      · by_cases equal : key = bean.name
        · subst key
          rw [Function.update_self] at held
          exact ⟨s.allocated,by rw [valid.allocated]; exact Nat.lt_succ_self _,(Option.some.inj held).symm⟩
        · rw [Function.update_of_ne equal] at held
          obtain ⟨e,below,same⟩ := stored key value held
          exact ⟨e,Nat.lt_succ_of_lt below,same⟩
      · obtain ⟨e,below,same⟩ := stored key value held
        exact ⟨e,Nat.lt_succ_of_lt below,same⟩

end Populated

theorem initialOnce_populated : Populated initialOnce [] := by
  refine ⟨rfl,rfl,fun e below => absurd below (Nat.not_lt_zero e),rfl,⟨rfl,rfl⟩,_,_,new_represents _ _,?_⟩
  intro key value held
  cases held

theorem populateAll_concat (beans : List ContextAware) (bean : ContextAware) :
    populateAll (beans ++ [bean]) = (populateAll beans).bind fun s => (populate s bean).map Prod.snd := by
  simp [populateAll,List.foldlM_append]

theorem populateAll_populated (beans : List ContextAware) (accepted : ∀ bean ∈ beans, bean.header.accepted)
    (named : ∀ bean ∈ beans, SelectsBucket bean.name 97)
    (selects : ∀ bean ∈ beans, ∀ item ∈ bean.dependencies, SelectsBucket item 97) :
    ∃ s, populateAll beans = some s ∧ Populated s beans := by
  induction beans using List.reverseRecOn with
  | nil => exact ⟨_,rfl,initialOnce_populated⟩
  | append_singleton earlier bean ih =>
      obtain ⟨s,reached,valid⟩ := ih (fun one member => accepted one (by simp [member]))
        (fun one member => named one (by simp [member])) (fun one member => selects one (by simp [member]))
      obtain ⟨next,done,_,after⟩ := valid.populate (accepted bean (by simp)) (named bean (by simp)) (selects bean (by simp))
      exact ⟨next,by simp [populateAll_concat,reached,done],after⟩

theorem wiringPass_hashMap (ptr : List Nat) (done : wiringPass ptr s = some (all,count,next)) :
    next.hashMap = s.hashMap := by
  induction ptr generalizing s all count with
  | nil =>
      cases done
      rfl
  | cons e rest ih =>
      simp only [wiringPass,Option.bind_eq_bind,Option.bind_eq_some_iff] at done
      obtain ⟨entry,_,looked⟩ := done
      split at looked
      · exact ih looked
      · obtain ⟨ready,_,turned⟩ := Option.bind_eq_some_iff.mp looked
        split at turned
        · obtain ⟨⟨_,_,after⟩,later,last⟩ := Option.bind_eq_some_iff.mp turned
          cases last
          exact Eq.trans (ih later) (show (construct s e entry).hashMap = s.hashMap from rfl)
        · obtain ⟨⟨_,_,after⟩,later,last⟩ := Option.bind_eq_some_iff.mp turned
          cases last
          exact ih later

theorem wiringLoop_hashMap (left : Nat) (ptr : List Nat) (done : wiringLoop left ptr s = some (all,next)) :
    next.hashMap = s.hashMap := by
  induction left generalizing ptr s with
  | zero => cases done
  | succ left ih =>
      obtain ⟨⟨_,count,after⟩,pass,turned⟩ := Option.bind_eq_some_iff.mp done
      have kept := wiringPass_hashMap ptr pass
      dsimp only at turned
      split at turned
      · exact (ih [] turned).trans kept
      · cases turned
        exact kept

theorem putIfAbsent_setup (done : putIfAbsent (t : Table Nat) key value = some (origin,next)) :
    (findHead t key).isSome ∧ SameSetup t next := by
  obtain ⟨k,head,searching⟩ := Option.bind_eq_some_iff.mp done
  obtain ⟨found,_,ended⟩ := Option.bind_eq_some_iff.mp searching
  refine ⟨by simp [head],?_⟩
  cases found with
  | none =>
      cases ended
      exact ⟨rfl,rfl⟩
  | some e =>
      obtain ⟨node,_,last⟩ := Option.bind_eq_some_iff.mp ended
      cases last
      exact ⟨rfl,rfl⟩

-- A bean whose name selects no bucket is not put.
theorem populate_selects (accepted : bean.header.accepted) (done : populate s bean = some (code,next)) :
    (findHead s.hashMap bean.name).isSome ∧ SameSetup s.hashMap next.hashMap := by
  have version : ¬ (bean.header.versionMajor ≠ 1 ∧ bean.header.versionMinor ≠ 0) := fun wrong =>
    accepted.2.elim wrong.1 wrong.2
  rw [populate,if_neg (fun wrong => wrong accepted.1),if_neg version] at done
  obtain ⟨⟨e,after⟩,created,putting⟩ := Option.bind_eq_some_iff.mp done
  obtain ⟨⟨_,wired⟩,loop,same⟩ := Option.bind_eq_some_iff.mp created
  obtain ⟨_,rfl⟩ := Prod.mk.inj (Option.some.inj same)
  clear same
  obtain ⟨⟨origin,hashMap⟩,put,last⟩ := Option.bind_eq_some_iff.mp putting
  cases last
  have kept : wired.hashMap = (pushEntry s bean).hashMap := wiringLoop_hashMap _ _ loop
  have same : (pushEntry s bean).hashMap = s.hashMap := rfl
  rw [kept,same] at put
  exact putIfAbsent_setup put

theorem populateAll_selects (beans : List ContextAware) (accepted : ∀ bean ∈ beans, bean.header.accepted)
    (reached : populateAll beans = some s) :
    SameSetup (newHashMap 97 none) s.hashMap ∧ ∀ bean ∈ beans, SelectsBucket bean.name 97 := by
  induction beans using List.reverseRecOn generalizing s with
  | nil =>
      cases reached
      exact ⟨⟨rfl,rfl⟩,fun bean member => (by cases member)⟩
  | append_singleton earlier bean ih =>
      rw [populateAll_concat] at reached
      obtain ⟨before,ran,last⟩ := Option.bind_eq_some_iff.mp reached
      obtain ⟨⟨code,_⟩,done,rfl⟩ := Option.map_eq_some_iff.mp last
      obtain ⟨setup,selects⟩ := ih (fun one member => accepted one (by simp [member])) ran
      obtain ⟨found,same⟩ := populate_selects (accepted bean (by simp)) done
      refine ⟨⟨same.size.trans setup.size,same.hash.trans setup.hash⟩,fun one member => ?_⟩
      rcases List.mem_append.mp member with old | new
      · exact selects one old
      · obtain rfl := List.mem_singleton.mp new
        exact (findHead_selects setup one.name).mp found

-- The calls of post_construct are right if each bean has one, after those of
-- the beans it depends on.
def InOrder (beans : List ContextAware) (calls : List Key) : Prop :=
  ∀ bean ∈ beans, bean.postConstruct = true → calls.count bean.name = 1 ∧
    ∀ item ∈ beans, item.postConstruct = true → item.name ∈ bean.dependencies →
      ∀ before after, calls = before ++ bean.name :: after → item.name ∈ before

def StartsInOrder (beans : List ContextAware) : Prop :=
  ∃ s, start beans = some (true,s) ∧ InOrder beans s.constructed

def PopulatedInOrder (beans : List ContextAware) : Prop :=
  ∀ pre bean post, beans = pre ++ bean :: post → bean.postConstruct = true →
    ∀ item ∈ post, item.postConstruct = true → item.name ∉ bean.dependencies

def Acyclic (beans : List ContextAware) : Prop :=
  ∃ rank : Key → Nat, ∀ bean ∈ beans, ∀ item ∈ bean.dependencies, rank item < rank bean.name

def calls (beans : List ContextAware) : List Key :=
  (beans.filter fun bean => bean.postConstruct).map fun bean => bean.name

theorem calls_nodup (distinct : (beans.map fun bean => bean.name).Nodup) : (calls beans).Nodup :=
  distinct.sublist (List.filter_sublist.map _)

theorem mem_calls (member : bean ∈ beans) (called : bean.postConstruct = true) : bean.name ∈ calls beans :=
  List.mem_map.mpr ⟨bean,List.mem_filter.mpr ⟨member,called⟩,rfl⟩

theorem calls_split (pre post : List ContextAware) (called : bean.postConstruct = true) :
    calls (pre ++ bean :: post) = calls pre ++ bean.name :: calls post := by
  simp [calls,called]

theorem inOrder_iff (beans : List ContextAware) (distinct : (beans.map fun bean => bean.name).Nodup)
    (acyclic : Acyclic beans) : InOrder beans (calls beans) ↔ PopulatedInOrder beans := by
  have once := calls_nodup distinct
  constructor
  · intro ordered pre bean post split called item member called' depends
    have both := (ordered bean (by simp [split]) called).2 item (by simp [split,member]) called' depends
      (calls pre) (calls post) (by rw [split,calls_split pre post called])
    rw [split,calls_split pre post called] at once
    exact (List.nodup_append.mp once).2.2 _ both _ (List.mem_cons_of_mem _ (mem_calls member called')) rfl
  · intro ordered bean member called
    refine ⟨List.count_eq_one_of_mem once (mem_calls member called),?_⟩
    intro item member' called' depends before after same
    obtain ⟨pre,post,split⟩ := List.append_of_mem member
    obtain ⟨rank,lower⟩ := acyclic
    have different : item ≠ bean := by
      rintro rfl
      exact Nat.lt_irrefl _ (lower item member item.name depends)
    have early : item ∈ pre := by
      rw [split] at member'
      rcases List.mem_append.mp member' with early | late
      · exact early
      · have behind := (List.mem_cons.mp late).resolve_left different
        exact absurd depends (ordered pre bean post split called item behind called')
    rw [split,calls_split pre post called] at same once
    have parts := List.nodup_append.mp once
    obtain rfl := ((List.append_cons_inj_of_notMem (fun again => parts.2.2 _ again _ List.mem_cons_self rfl)
      (List.nodup_cons.mp parts.2.1).1).mp same).1
    exact mem_calls early called'

theorem start_calls (beans : List ContextAware) (accepted : ∀ bean ∈ beans, bean.header.accepted)
    (closed : ∀ bean ∈ beans, ∀ item ∈ bean.dependencies, item ∈ beans.map fun bean => bean.name)
    (named : ∀ bean ∈ beans, SelectsBucket bean.name 97) :
    ∃ s, start beans = some (true,s) ∧ s.constructed = calls beans := by
  have selects : ∀ bean ∈ beans, ∀ item ∈ bean.dependencies, SelectsBucket item 97 := by
    intro bean member item depends
    obtain ⟨other,there,rfl⟩ := List.mem_map.mp (closed bean member item depends)
    exact named other there
  obtain ⟨s,reached,valid⟩ := populateAll_populated beans accepted named selects
  exact ⟨s,by rw [start,reached]; exact valid.autoWiring,valid.constructed⟩

-- The start calls every post_construct once and in the order of the
-- dependencies exactly if that is the order of the populate calls already.
theorem starts_in_order_iff (beans : List ContextAware) (distinct : (beans.map fun bean => bean.name).Nodup)
    (acyclic : Acyclic beans) (accepted : ∀ bean ∈ beans, bean.header.accepted)
    (closed : ∀ bean ∈ beans, ∀ item ∈ bean.dependencies, item ∈ beans.map fun bean => bean.name) :
    StartsInOrder beans ↔ (∀ bean ∈ beans, SelectsBucket bean.name 97) ∧ PopulatedInOrder beans := by
  constructor
  · intro ⟨s,ran,ordered⟩
    obtain ⟨reached,populated,_⟩ := Option.bind_eq_some_iff.mp ran
    have named := (populateAll_selects beans accepted populated).2
    obtain ⟨s',ran',constructed⟩ := start_calls beans accepted closed named
    obtain ⟨_,rfl⟩ := Prod.mk.inj (Option.some.inj (ran.symm.trans ran'))
    rw [constructed] at ordered
    exact ⟨named,(inOrder_iff beans distinct acyclic).mp ordered⟩
  · intro ⟨named,ordered⟩
    obtain ⟨s,ran,constructed⟩ := start_calls beans accepted closed named
    exact ⟨s,ran,by rw [constructed]; exact (inOrder_iff beans distinct acyclic).mpr ordered⟩

theorem starts_in_order_iff_dependency_first :
    StartsInOrder [⟨⟨1012315172,1,0⟩,[98],none,true⟩,⟨⟨1012315172,1,0⟩,[97],some [[98]],true⟩] := by
  refine (starts_in_order_iff _ (by decide) ⟨fun key => if key = [97] then 1 else 0,by decide⟩ (by decide)
    (by decide)).mpr ⟨?_,?_⟩
  · intro bean member
    simp only [List.mem_cons,List.not_mem_nil,or_false] at member
    rcases member with rfl | rfl
    · exact selectsBucket_ascii [98] (by simp) (by decide)
    · exact selectsBucket_ascii [97] (by simp) (by decide)
  · intro pre bean post split _ item member _ depends
    rcases pre with _ | ⟨first,_ | ⟨second,rest⟩⟩
    · cases split
      cases depends
    · cases split
      cases member
    · simp at split

theorem dependency_populated_last : ∃ beans : List ContextAware, (beans.map fun bean => bean.name).Nodup ∧
    Acyclic beans ∧ (∀ bean ∈ beans, bean.header.accepted) ∧
    (∀ bean ∈ beans, ∀ item ∈ bean.dependencies, item ∈ beans.map fun bean => bean.name) ∧ ¬ StartsInOrder beans := by
  refine ⟨[⟨⟨1012315172,1,0⟩,[97],some [[98]],true⟩,⟨⟨1012315172,1,0⟩,[98],none,true⟩],by decide,
    ⟨fun key => if key = [97] then 1 else 0,by decide⟩,by decide,by decide,?_⟩
  intro ⟨s,ran,ordered⟩
  obtain ⟨s',ran',constructed⟩ := start_calls
    [⟨⟨1012315172,1,0⟩,[97],some [[98]],true⟩,⟨⟨1012315172,1,0⟩,[98],none,true⟩] (by decide) (by decide) (by
      intro bean member
      simp only [List.mem_cons,List.not_mem_nil,or_false] at member
      rcases member with rfl | rfl
      · exact selectsBucket_ascii [97] (by simp) (by decide)
      · exact selectsBucket_ascii [98] (by simp) (by decide))
  obtain ⟨_,rfl⟩ := Prod.mk.inj (Option.some.inj (ran.symm.trans ran'))
  have before := (ordered ⟨⟨1012315172,1,0⟩,[97],some [[98]],true⟩ (by simp) rfl).2
    ⟨⟨1012315172,1,0⟩,[98],none,true⟩ (by simp) rfl (by decide) [] [[98]] constructed
  cases before

end TcpProxy.Context
