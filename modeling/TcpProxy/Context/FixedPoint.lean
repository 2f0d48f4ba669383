import TcpProxy.Context.Wiring

namespace TcpProxy.Context
open HashMap

variable {s next : State} {e d : Nat} {ptr : List Nat}

def dependenciesOf (s : State) (e : Nat) : List Key :=
  (s.memory e).elim [] fun entry => entry.context.dependencies

def Satisfied (s : State) (e : Nat) : Prop :=
  ∀ item ∈ dependenciesOf s e, ∃ d, Registers s item d ∧ Initialized s d

-- The nodes of the list, from `ptr` on, are different ones and the map can be
-- asked for what they depend on.
structure Sound (s : State) (ptr : List Nat) : Prop where
  nodup : ptr.Nodup
  allocated : ∀ e ∈ ptr, (s.memory e).isSome
  looked : ∀ e ∈ ptr, ∀ item ∈ dependenciesOf s e, ∃ found, getByKey s.hashMap item = some found ∧
    ∀ d, found = some d → (s.memory d).isSome

-- The loop ends, no entry is left behind that could be initialised, and the
-- answer tells whether all of them have been.
def ReachesFixedPoint (s : State) : Prop :=
  ∃ done next, wiring s = some (done,next) ∧ next.entries = s.entries ∧
    (∀ e ∈ next.entries, ¬ Initialized next e → ¬ Satisfied next e) ∧
    (done = true ↔ ∀ e ∈ next.entries, Initialized next e)

def NoneReady (s : State) (ptr : List Nat) : Prop :=
  ∀ e ∈ ptr, ¬ Initialized s e → ¬ Ready s (dependenciesOf s e)

def InListOrder (s : State) (ptr : List Nat) : Prop :=
  ∀ pre e post, ptr = pre ++ e :: post → ¬ Initialized s e →
    ∀ item ∈ dependenciesOf s e, ∀ d, Registers s item d → Initialized s d ∨ d ∈ pre

theorem construct_initialized (s : State) (e : Nat) (entry : Entry) (d : Nat) :
    Initialized (construct s e entry) d ↔ d = e ∨ Initialized s d := by
  unfold Initialized
  by_cases same : d = e
  · subst same
    simp [construct]
  · simp [construct,same]

theorem construct_dependencies (stored : s.memory e = some entry) (d : Nat) :
    dependenciesOf (construct s e entry) d = dependenciesOf s d := by
  unfold dependenciesOf
  by_cases same : d = e
  · subst same
    simp [construct,stored]
  · simp [construct,Function.update_of_ne same]

theorem construct_allocated (d : Nat) (before : (s.memory d).isSome) :
    ((construct s e entry).memory d).isSome := by
  by_cases same : d = e
  · subst same
    simp [construct]
  · simpa [construct,Function.update_of_ne same] using before

namespace Sound

theorem rest (sound : Sound s (e :: ptr)) : Sound s ptr :=
  ⟨(List.nodup_cons.mp sound.nodup).2,fun d member => sound.allocated d (List.mem_cons_of_mem _ member),
    fun d member => sound.looked d (List.mem_cons_of_mem _ member)⟩

theorem construct (sound : Sound s ptr) (stored : s.memory e = some entry) : Sound (construct s e entry) ptr := by
  refine ⟨sound.nodup,fun d member => construct_allocated d (sound.allocated d member),?_⟩
  intro d member item depends
  rw [construct_dependencies stored d] at depends
  obtain ⟨found,read,there⟩ := sound.looked d member item depends
  exact ⟨found,read,fun d' same => construct_allocated d' (there d' same)⟩

end Sound

structure Passed (s : State) (ptr : List Nat) (done : Bool) (count : Nat) (next : State) : Prop where
  entries : next.entries = s.entries
  kept : ∀ d, Initialized s d → Initialized next d
  listed : ∀ d, Initialized next d → Initialized s d ∨ d ∈ ptr
  idle : count = 0 → next = s ∧ NoneReady s ptr ∧ (done = true ↔ ∀ e ∈ ptr, Initialized s e)
  busy : NoneReady s ptr → count = 0
  ordered : (∀ e ∈ ptr, Initialized next e) ↔ InListOrder s ptr

namespace Passed

theorem none (s : State) : Passed s [] true 0 s := by
  constructor
  case ordered => simp [InListOrder]
  all_goals simp [NoneReady]

theorem initialized (before : Initialized s e) (passed : Passed s ptr done count next) :
    Passed s (e :: ptr) done count next := by
  constructor
  case entries => exact passed.entries
  case kept => exact passed.kept
  case listed => exact fun d now => (passed.listed d now).imp id (List.mem_cons_of_mem e)
  case idle =>
    intro zero
    obtain ⟨same,nothing,answer⟩ := passed.idle zero
    refine ⟨same,fun d member waits => ?_,answer.trans ?_⟩
    · rcases List.mem_cons.mp member with rfl | later
      · exact absurd before waits
      · exact nothing d later waits
    · simp [before]
  case busy => exact fun nothing => passed.busy fun d member => nothing d (List.mem_cons_of_mem e member)
  case ordered =>
    rw [List.forall_mem_cons]
    refine (and_iff_right (passed.kept e before)).trans (passed.ordered.trans ⟨?_,?_⟩)
    · intro order pre d post split waits item depends d' registers
      cases pre with
      | nil =>
          obtain ⟨rfl,_⟩ := List.cons.inj split
          exact absurd before waits
      | cons first pre =>
          obtain ⟨rfl,rest⟩ := List.cons.inj split
          exact (order pre d post rest waits item depends d' registers).imp id (List.mem_cons_of_mem e)
    · intro order pre d post split waits item depends d' registers
      rcases order (e :: pre) d post (by rw [split]; rfl) waits item depends d' registers with now | earlier
      · exact .inl now
      · rcases List.mem_cons.mp earlier with rfl | earlier
        · exact .inl before
        · exact .inr earlier

theorem constructed (stored : s.memory e = some entry) (waits : ¬ Initialized s e) (sound : Sound s (e :: ptr))
    (ready : Ready s (dependenciesOf s e)) (passed : Passed (construct s e entry) ptr done count next) :
    Passed s (e :: ptr) done (count+1) next := by
  have now : Initialized next e := passed.kept e ((construct_initialized s e entry e).mpr (.inl rfl))
  constructor
  case entries => exact passed.entries
  case kept => exact fun d before => passed.kept d ((construct_initialized s e entry d).mpr (.inr before))
  case listed =>
    intro d after
    rcases passed.listed d after with before | member
    · rcases (construct_initialized s e entry d).mp before with rfl | before
      · exact .inr List.mem_cons_self
      · exact .inl before
    · exact .inr (List.mem_cons_of_mem e member)
  case idle => exact fun zero => absurd zero (Nat.succ_ne_zero count)
  case busy => exact fun nothing => absurd ready (nothing e List.mem_cons_self waits)
  case ordered =>
    rw [List.forall_mem_cons]
    refine (and_iff_right now).trans (passed.ordered.trans ⟨?_,?_⟩)
    · intro order pre d post split waits' item depends d' registers
      cases pre with
      | nil =>
          obtain ⟨rfl,_⟩ := List.cons.inj split
          exact .inl (ready item depends d' registers)
      | cons first pre =>
          obtain ⟨rfl,rest⟩ := List.cons.inj split
          have other : d ≠ e := by
            rintro rfl
            exact (List.nodup_cons.mp sound.nodup).1 (by rw [rest]; simp)
          have still : ¬ Initialized (construct s e entry) d := fun after =>
            ((construct_initialized s e entry d).mp after).elim other waits'
          rw [← construct_dependencies stored d] at depends
          rcases order pre d post rest still item depends d' registers with before | earlier
          · exact ((construct_initialized s e entry d').mp before).elim (fun same => .inr (by simp [same])) .inl
          · exact .inr (List.mem_cons_of_mem e earlier)
    · intro order pre d post split waits' item depends d' registers
      rw [construct_dependencies stored d] at depends
      have before : ¬ Initialized s d := fun early => waits' ((construct_initialized s e entry d).mpr (.inr early))
      rcases order (e :: pre) d post (by rw [split]; rfl) before item depends d' registers with early | earlier
      · exact .inl ((construct_initialized s e entry d').mpr (.inr early))
      · exact (List.mem_cons.mp earlier).imp (fun same => (construct_initialized s e entry d').mpr (.inl same)) id

theorem waiting (waits : ¬ Initialized s e) (sound : Sound s (e :: ptr)) (blocked : ¬ Ready s (dependenciesOf s e))
    (passed : Passed s ptr done count next) : Passed s (e :: ptr) false count next := by
  have still : ¬ Initialized next e := fun after =>
    (passed.listed e after).elim waits (List.nodup_cons.mp sound.nodup).1
  constructor
  case entries => exact passed.entries
  case kept => exact passed.kept
  case listed => exact fun d now => (passed.listed d now).imp id (List.mem_cons_of_mem e)
  case idle =>
    intro zero
    obtain ⟨same,nothing,_⟩ := passed.idle zero
    refine ⟨same,fun d member waits' => ?_,?_⟩
    · rcases List.mem_cons.mp member with rfl | later
      · exact blocked
      · exact nothing d later waits'
    · simp [waits]
  case busy => exact fun nothing => passed.busy fun d member => nothing d (List.mem_cons_of_mem e member)
  case ordered =>
    refine iff_of_false (fun all => still (all e List.mem_cons_self)) fun order => blocked ?_
    intro item depends d registers
    exact (order [] e ptr rfl waits item depends d registers).resolve_right (by simp)

end Passed

theorem wiringPass_spec (sound : Sound s ptr) :
    ∃ done count next, wiringPass ptr s = some (done,count,next) ∧ Passed s ptr done count next := by
  induction ptr generalizing s with
  | nil => exact ⟨true,0,s,rfl,.none s⟩
  | cons e rest ih =>
      obtain ⟨entry,stored⟩ := Option.isSome_iff_exists.mp (sound.allocated e List.mem_cons_self)
      have items : dependenciesOf s e = entry.context.dependencies := by simp [dependenciesOf,stored]
      cases flag : entry.initialized with
      | true =>
          obtain ⟨done,count,next,ran,passed⟩ := ih sound.rest
          exact ⟨done,count,next,by simp [wiringPass,stored,flag,ran],passed.initialized ⟨entry,stored,flag⟩⟩
      | false =>
          have waits : ¬ Initialized s e := by
            rintro ⟨entry',same,set⟩
            rw [stored] at same
            cases same
            rw [flag] at set
            cases set
          obtain ⟨success,checked,precise⟩ := checkEntry_spec s (dependenciesOf s e) (sound.looked e List.mem_cons_self)
          rw [items] at checked
          cases success with
          | true =>
              obtain ⟨done,count,next,ran,passed⟩ := ih (sound.rest.construct stored)
              exact ⟨done,count+1,next,by simp [wiringPass,stored,flag,checked,ran],
                passed.constructed stored waits sound (precise.mp rfl)⟩
          | false =>
              obtain ⟨done,count,next,ran,passed⟩ := ih sound.rest
              exact ⟨false,count,next,by simp [wiringPass,stored,flag,checked,ran],
                passed.waiting waits sound fun ready => Bool.false_ne_true (precise.mpr ready)⟩

theorem satisfied_ready (satisfied : Satisfied s e) : Ready s (dependenciesOf s e) := by
  intro item depends d registers
  obtain ⟨d',registers',initialized⟩ := satisfied item depends
  obtain rfl := Option.some.inj (Option.some.inj (registers.symm.trans registers'))
  exact initialized

-- The second round starts with `ptr` NULL and finds nothing to do.
theorem wiring_first_round (ran : wiringPass s.entries s = some (done,count,next)) :
    wiring s = some (if 0 < count then true else done,next) := by
  rw [wiring,wiringLoop,ran,Option.bind_eq_bind,Option.bind_some]
  by_cases progress : 0 < count
  · dsimp only
    rw [if_pos progress,if_pos progress]
    rfl
  · dsimp only
    rw [if_neg progress,if_neg progress]

-- One round is enough when it changes nothing or meets every entry after those
-- it waits for. There is no other.
theorem reaches_fixed_point_iff (sound : Sound s s.entries) :
    ReachesFixedPoint s ↔ NoneReady s s.entries ∨ InListOrder s s.entries := by
  obtain ⟨done,count,next,ran,passed⟩ := wiringPass_spec sound
  have wired := wiring_first_round ran
  constructor
  · rintro ⟨answer,after,wired',_,_,truthful⟩
    obtain ⟨rfl,rfl⟩ := Prod.mk.inj (Option.some.inj (wired.symm.trans wired'))
    rcases Nat.eq_zero_or_pos count with zero | progress
    · exact .inl (passed.idle zero).2.1
    · rw [if_pos progress,passed.entries] at truthful
      exact .inr (passed.ordered.mp (truthful.mp rfl))
  · intro condition
    refine ⟨_,next,wired,passed.entries,?_⟩
    rw [passed.entries]
    rcases Nat.eq_zero_or_pos count with zero | progress
    · obtain ⟨rfl,nothing,truthful⟩ := passed.idle zero
      rw [if_neg (Nat.not_lt.mpr (Nat.le_of_eq zero))]
      exact ⟨fun e member waits satisfied => nothing e member waits (satisfied_ready satisfied),truthful⟩
    · have order := condition.resolve_left fun nothing => Nat.ne_of_gt progress (passed.busy nothing)
      have all := passed.ordered.mpr order
      rw [if_pos progress]
      exact ⟨fun e member waits => absurd (all e member) waits,iff_of_true rfl all⟩

-- The bean a depends on the bean b. Neither has been initialised.
def dependentPair (entries : List Nat) : State :=
  ⟨insertHead (insertHead (newHashMap 97 none) 0 [97] (some 0)) 1 [98] (some 1),
    fun e => [⟨⟨⟨1012315172,1,0⟩,[97],some [[98]],true⟩,false⟩,⟨⟨⟨1012315172,1,0⟩,[98],none,true⟩,false⟩][e]?,
    2,entries,[]⟩

theorem dependentPair_sound (nodup : entries.Nodup) (below : ∀ e ∈ entries, e < 2) :
    Sound (dependentPair entries) entries := by
  refine ⟨nodup,fun e member => ?_,fun e member item depends => ?_⟩
  · have inside := below e member
    simp [dependentPair,inside]
  · have inside := below e member
    have registers : getByKey (dependentPair []).hashMap [98] = some (some 1) := by decide +kernel
    obtain rfl | rfl : e = 0 ∨ e = 1 := by omega
    · obtain rfl : item = [98] := List.mem_singleton.mp depends
      refine ⟨some 1,registers,fun d same => ?_⟩
      obtain rfl := Option.some.inj same
      rfl
    · cases depends

theorem reaches_fixed_point_iff_dependency_first : ReachesFixedPoint (dependentPair [1,0]) := by
  refine (reaches_fixed_point_iff (dependentPair_sound (by decide) (by decide))).mpr (.inr ?_)
  intro pre e post split _ item depends d registers
  have found : getByKey (dependentPair [1,0]).hashMap [98] = some (some 1) := by decide +kernel
  rcases pre with _ | ⟨first,_ | ⟨second,rest⟩⟩
  · cases split
    cases depends
  · cases split
    obtain rfl : item = [98] := List.mem_singleton.mp depends
    obtain rfl := Option.some.inj (Option.some.inj (found.symm.trans registers))
    exact .inr List.mem_cons_self
  · simp [dependentPair] at split

theorem dependency_listed_behind : Sound (dependentPair [0,1]) [0,1] ∧ ¬ ReachesFixedPoint (dependentPair [0,1]) := by
  refine ⟨dependentPair_sound (by decide) (by decide),?_⟩
  rintro ⟨done,next,wired,_,_,truthful⟩
  have answer : (wiring (dependentPair [0,1])).map (fun r => (r.1,r.2.entries,(r.2.memory 0).map Entry.initialized)) =
      some (true,[0,1],some false) := by decide +kernel
  rw [wired,Option.map_some] at answer
  obtain ⟨rfl,rest⟩ := Prod.mk.inj (Option.some.inj answer)
  obtain ⟨entries,flag⟩ := Prod.mk.inj rest
  obtain ⟨entry,stored,set⟩ := truthful.mp rfl 0 (by rw [show next.entries = [0,1] from entries]; exact List.mem_cons_self)
  rw [stored,Option.map_some,set] at flag
  cases flag

end TcpProxy.Context
