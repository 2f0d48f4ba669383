import TcpProxy.Context.Wiring

namespace TcpProxy.Context
open HashMap

variable {s next : State} {beans : List ContextAware} {bean : ContextAware}

inductive Call where
  | populate (context : ContextAware)
  | autoWiring
deriving DecidableEq, Repr

def Call.take (s : State) : Call → Option State
  | .populate context => (Context.populate s context).map Prod.snd
  | .autoWiring => (Context.autoWiring s).map Prod.snd

def Reachable (s : State) : Prop := ∃ calls : List Call, calls.foldlM Call.take initialOnce = some s

def Header.proper (header : Header) : Prop :=
  header.magic = 1012315172 ∧ header.versionMajor = 1 ∧ header.versionMinor = 0

-- populate answers 0 exactly for a proper object under a new name, and another
-- answer comes with the state as it was.
def AllOrNothing (s : State) (context : ContextAware) : Prop :=
  ∃ code next, populate s context = some (code,next) ∧
    (code = 0 ↔ context.header.proper ∧ registered s context.name = false) ∧ (code ≠ 0 → next = s)

-- The magic number or both version numbers are wrong, or the object is proper,
-- its name is new and the names it brings select a bucket.
def Clear (s : State) (context : ContextAware) : Prop :=
  context.header.magic ≠ 1012315172 ∨ context.header.versionMajor ≠ 1 ∧ context.header.versionMinor ≠ 0 ∨
    context.header.proper ∧ registered s context.name = false ∧ SelectsBucket context.name 97 ∧
      ∀ item ∈ context.dependencies, SelectsBucket item 97

theorem Header.proper.accepted {header : Header} (proper : header.proper) : header.accepted :=
  ⟨proper.1,.inl proper.2.1⟩

theorem populate_rejected (s : State) (rejected : ¬ bean.header.accepted) :
    ∃ code, code ≠ 0 ∧ populate s bean = some (code,s) := by
  by_cases magic : bean.header.magic = 1012315172
  · have version : bean.header.versionMajor ≠ 1 ∧ bean.header.versionMinor ≠ 0 :=
      not_or.mp fun one => rejected ⟨magic,one⟩
    exact ⟨2,by decide,by rw [populate,if_neg (fun wrong => wrong magic),if_pos version]⟩
  · exact ⟨1,by decide,by rw [populate,if_pos magic]⟩

-- The loop over the dependencies looks up every one of them, as long as all
-- entries of the map have been initialised.
theorem checkEntry_selects (s : State) (items : List Key)
    (initialized : ∀ item e, getByKey s.hashMap item = some (some e) →
      ∃ entry, s.memory e = some entry ∧ entry.initialized = true)
    (done : checkEntry s items = some ready) : ∀ item ∈ items, (findHead s.hashMap item).isSome := by
  induction items with
  | nil => simp
  | cons item rest ih =>
      simp only [checkEntry,Option.bind_eq_bind,Option.bind_eq_some_iff] at done
      obtain ⟨found,read,further⟩ := done
      have here : (findHead s.hashMap item).isSome := by
        obtain ⟨k,head,_⟩ := Option.bind_eq_some_iff.mp read
        simp [head]
      have later : checkEntry s rest = some ready := by
        cases found with
        | none => exact further
        | some e =>
            obtain ⟨entry,stored,flag⟩ := initialized item e read
            simpa [stored,flag] using further
      intro other member
      rcases List.mem_cons.mp member with rfl | tail
      · exact here
      · exact ih later other tail

namespace Populated

theorem stored_initialized (valid : Populated s beans) (read : getByKey s.hashMap item = some (some e)) :
    e < beans.length ∧ ∃ entry, s.memory e = some entry ∧ entry.initialized = true := by
  obtain ⟨chains,store,represents,stored⟩ := valid.map
  obtain ⟨k,head,_⟩ := Option.bind_eq_some_iff.mp read
  rw [represents.getByKey_eq head id] at read
  obtain ⟨e',below,same⟩ := stored item (some e) (Option.join_eq_some_iff.mp (Option.some.inj read))
  obtain rfl := Option.some.inj same
  exact ⟨below,valid.memory e below⟩

-- A populate call that got past the header has used the name of the bean and
-- those of its dependencies as keys.
theorem selects (valid : Populated s beans) (accepted : bean.header.accepted)
    (done : Context.populate s bean = some (code,next)) :
    SelectsBucket bean.name 97 ∧ ∀ item ∈ bean.dependencies, SelectsBucket item 97 := by
  have found := (populate_selects accepted done).1
  refine ⟨(findHead_selects valid.setup bean.name).mp found,fun item member => ?_⟩
  refine (findHead_selects valid.setup item).mp ?_
  have version : ¬ (bean.header.versionMajor ≠ 1 ∧ bean.header.versionMinor ≠ 0) := fun wrong =>
    accepted.2.elim wrong.1 wrong.2
  rw [Context.populate,if_neg (fun wrong => wrong accepted.1),if_neg version] at done
  obtain ⟨_,created,_⟩ := Option.bind_eq_some_iff.mp done
  obtain ⟨_,loop,_⟩ := Option.bind_eq_some_iff.mp created
  obtain ⟨_,pass,_⟩ := Option.bind_eq_some_iff.mp loop
  have entries : (pushEntry s bean).entries = s.allocated :: s.entries := rfl
  have new : (pushEntry s bean).memory s.allocated = some ⟨bean,false⟩ := Function.update_self _ _ _
  rw [entries,wiringPass,new,Option.bind_eq_bind,Option.bind_some,if_neg Bool.false_ne_true] at pass
  obtain ⟨ready,checked,_⟩ := Option.bind_eq_some_iff.mp pass
  refine checkEntry_selects (pushEntry s bean) bean.dependencies (fun item e read => ?_) checked item member
  obtain ⟨below,entry,stored,flag⟩ := valid.stored_initialized read
  refine ⟨entry,(Function.update_of_ne ?_ _ _).trans stored,flag⟩
  rw [valid.allocated]
  exact Nat.ne_of_lt below

end Populated

theorem reachable_populated (reached : Reachable s) : ∃ beans, Populated s beans := by
  obtain ⟨calls,ran⟩ := reached
  induction calls using List.reverseRecOn generalizing s with
  | nil =>
      cases ran
      exact ⟨[],initialOnce_populated⟩
  | append_singleton earlier call ih =>
      simp only [List.foldlM_append,List.foldlM_cons,List.foldlM_nil,Option.bind_eq_bind,Option.bind_eq_some_iff] at ran
      obtain ⟨before,first,after,taken,same⟩ := ran
      cases same
      obtain ⟨beans,valid⟩ := ih first
      cases call with
      | autoWiring =>
          rw [Call.take,valid.autoWiring] at taken
          cases taken
          exact ⟨beans,valid⟩
      | populate bean =>
          obtain ⟨⟨code,_⟩,done,rfl⟩ := Option.map_eq_some_iff.mp taken
          by_cases accepted : bean.header.accepted
          · obtain ⟨named,selects⟩ := valid.selects accepted done
            obtain ⟨_,done',_,populated⟩ := valid.populate accepted named selects
            obtain ⟨_,rfl⟩ := Prod.mk.inj (Option.some.inj (done.symm.trans done'))
            exact ⟨_,populated⟩
          · obtain ⟨_,_,done'⟩ := populate_rejected before accepted
            obtain ⟨_,rfl⟩ := Prod.mk.inj (Option.some.inj (done.symm.trans done'))
            exact ⟨beans,valid⟩

-- The second of the two version numbers is looked at only when the first is
-- wrong, and an entry is linked and wired before its name is found to be taken.
theorem populate_all_or_nothing_iff (reached : Reachable s) (context : ContextAware) :
    AllOrNothing s context ↔ Clear s context := by
  obtain ⟨beans,valid⟩ := reachable_populated reached
  by_cases accepted : context.header.accepted
  · constructor
    · intro ⟨code,next,done,zero,kept⟩
      obtain ⟨named,selects⟩ := valid.selects accepted done
      obtain ⟨_,done',entries,_⟩ := valid.populate accepted named selects
      obtain ⟨rfl,rfl⟩ := Prod.mk.inj (Option.some.inj (done.symm.trans done'))
      have new : registered s context.name = false := by
        by_contra taken
        rw [if_pos (by simpa using taken)] at kept
        have same := congrArg State.entries (kept (by decide))
        rw [entries] at same
        exact absurd same (List.cons_ne_self _ _)
      rw [new] at zero
      exact .inr (.inr ⟨(zero.mp rfl).1,new,named,selects⟩)
    · intro clear
      rcases clear with magic | version | ⟨proper,new,named,selects⟩
      · exact absurd accepted.1 magic
      · exact absurd accepted.2 (fun one => one.elim version.1 version.2)
      · obtain ⟨next,done,_,_⟩ := valid.populate accepted named selects
        rw [new] at done
        exact ⟨0,next,done,⟨fun _ => ⟨proper,new⟩,fun _ => rfl⟩,fun wrong => absurd rfl wrong⟩
  · obtain ⟨code,nonzero,done⟩ := populate_rejected s accepted
    refine iff_of_true ⟨code,s,done,⟨fun zero => absurd zero nonzero,fun both => absurd both.1.accepted accepted⟩,
      fun _ => rfl⟩ ?_
    by_cases magic : context.header.magic = 1012315172
    · exact .inr (.inl (not_or.mp fun one => accepted ⟨magic,one⟩))
    · exact .inl magic

theorem populate_all_or_nothing_iff_second : ∃ s, Reachable s ∧ AllOrNothing s ⟨⟨1012315172,1,0⟩,[98],none,true⟩ := by
  have first : (populate initialOnce ⟨⟨1012315172,1,0⟩,[97],none,true⟩).isSome := by decide +kernel
  obtain ⟨⟨code,s⟩,done⟩ := Option.isSome_iff_exists.mp first
  have reached : Reachable s := ⟨[.populate ⟨⟨1012315172,1,0⟩,[97],none,true⟩],by simp [Call.take,done]⟩
  refine ⟨s,reached,(populate_all_or_nothing_iff reached _).mpr (.inr (.inr ⟨⟨rfl,rfl,rfl⟩,?_,?_,?_⟩))⟩
  · have absent : ((populate initialOnce ⟨⟨1012315172,1,0⟩,[97],none,true⟩).map fun r => registered r.2 [98]) =
      some false := by decide +kernel
    simpa [done] using absent
  · exact selectsBucket_ascii [98] (by simp) (by decide)
  · simp [ContextAware.dependencies]

-- A bean of the name a is rejected beside the first one, but is linked and its
-- post_construct has been called.
theorem rejected_bean_is_constructed : ∃ s, Reachable s ∧
    (populate s ⟨⟨1012315172,1,0⟩,[97],none,true⟩).map (fun r => (r.1,r.2.entries.length,r.2.constructed)) =
      some (3,2,[[97],[97]]) ∧ s.entries.length = 1 ∧ ¬ AllOrNothing s ⟨⟨1012315172,1,0⟩,[97],none,true⟩ := by
  have first : (populate initialOnce ⟨⟨1012315172,1,0⟩,[97],none,true⟩).isSome := by decide +kernel
  obtain ⟨⟨code,s⟩,done⟩ := Option.isSome_iff_exists.mp first
  have reached : Reachable s := ⟨[.populate ⟨⟨1012315172,1,0⟩,[97],none,true⟩],by simp [Call.take,done]⟩
  have second : ((populate initialOnce ⟨⟨1012315172,1,0⟩,[97],none,true⟩).bind fun r =>
      (populate r.2 ⟨⟨1012315172,1,0⟩,[97],none,true⟩).map fun r => (r.1,r.2.entries.length,r.2.constructed)) =
        some (3,2,[[97],[97]]) := by decide +kernel
  have length : (populate initialOnce ⟨⟨1012315172,1,0⟩,[97],none,true⟩).map (fun r => r.2.entries.length) =
      some 1 := by decide +kernel
  rw [done] at second length
  have one : s.entries.length = 1 := by simpa using length
  refine ⟨s,reached,second,one,?_⟩
  intro ⟨code',next,again,_,kept⟩
  rw [Option.bind_some,again] at second
  obtain ⟨rfl,two,_⟩ : code' = 3 ∧ next.entries.length = 2 ∧ next.constructed = [[97],[97]] := by simpa using second
  rw [kept (by decide),one] at two
  cases two

theorem AllOrNothing.unnoticed (whole : AllOrNothing s context) (done : populate s context = some (code,next))
    (failed : code ≠ 0) : (∀ name, getBean next name = getBean s name) ∧ autoWiring next = autoWiring s := by
  obtain ⟨code',next',answered,_,kept⟩ := whole
  obtain ⟨rfl,rfl⟩ := Prod.mk.inj (Option.some.inj (answered.symm.trans done))
  rw [kept failed]
  exact ⟨fun _ => rfl,rfl⟩

end TcpProxy.Context
