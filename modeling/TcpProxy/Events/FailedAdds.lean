import TcpProxy.Events.Registry

namespace TcpProxy.Events

variable {Handler Args : Type} {data : EventLoopData Handler Args} {live : Live Handler Args}

-- No hole below the high-water mark, and the mark is at the end of the arrays.
def EventLoopData.full (data : EventLoopData Handler Args) : Prop :=
  maxEventsLimit ≤ data.maxEvents ∧ ∀ i < data.maxEvents, data.fds i ≠ -1

instance (data : EventLoopData Handler Args) : Decidable data.full := inferInstanceAs (Decidable (_ ∧ _))

structure Untouched (before after : EventLoopData Handler Args) : Prop where
  counted : after.numOfEvents = before.numOfEvents
  marked : after.maxEvents = before.maxEvents
  slots : ∀ i < before.maxEvents, after.slot i = before.slot i

theorem Untouched.refl (data : EventLoopData Handler Args) : Untouched data data := ⟨rfl,rfl,fun _ _ => rfl⟩

theorem findFirstFree_full (full : data.full) : findFirstFree data = (-1,data) := by
  have none : (List.range data.maxEvents).find? (fun i => data.fds i == -1) = none := by
    refine List.find?_eq_none.mpr fun i member => ?_
    simpa using full.2 i (List.mem_range.mp member)
  simp only [findFirstFree,none,if_neg (Nat.not_lt.mpr full.1)]

theorem findFirstFree_counts (room : ¬ data.full) :
    0 ≤ (findFirstFree data).1 ∧ (findFirstFree data).2.numOfEvents = data.numOfEvents+1 := by
  unfold findFirstFree
  cases found : (List.range data.maxEvents).find? (fun i => data.fds i == -1) with
  | some i => exact ⟨Int.natCast_nonneg i,rfl⟩
  | none =>
      by_cases below : data.maxEvents < maxEventsLimit
      · simp [below]
      · exact absurd ⟨Nat.not_lt.mp below,find_free_none found⟩ room

theorem add_full (full : data.full) (fd : Int) (handler : Handler) (args : Args) (epoll : Bool) :
    evAddEvent data fd handler args epoll = (-2,data) := by
  simp [evAddEvent,findFirstFree_full full]

theorem add_room (room : ¬ data.full) (fd : Int) (handler : Handler) (args : Args) (epoll : Bool) :
    (0 ≤ (evAddEvent data fd handler args epoll).1 ↔ epoll = true) ∧
    (evAddEvent data fd handler args epoll).2.numOfEvents = data.numOfEvents+1 := by
  obtain ⟨found,counted⟩ := findFirstFree_counts room
  unfold evAddEvent
  cases epoll with
  | false => simp [found,counted]
  | true => simp [found,counted]

-- A call that fails for want of a slot changes nothing. When it is epoll_ctl
-- that fails, the slot has been counted already.
theorem add_untouched_iff (data : EventLoopData Handler Args) (fd : Int) (handler : Handler) (args : Args)
    (epoll : Bool) :
    ((evAddEvent data fd handler args epoll).1 < 0 → Untouched data (evAddEvent data fd handler args epoll).2) ↔
      epoll = true ∨ data.full := by
  by_cases full : data.full
  · simp only [add_full full,full,or_true,iff_true]
    exact fun _ => Untouched.refl data
  · obtain ⟨accepted,counted⟩ := add_room full fd handler args epoll
    constructor
    · intro kept
      refine .inl (accepted.mp (Int.not_lt.mp fun failed => ?_))
      have same := (kept failed).counted
      omega
    · intro condition failed
      exact absurd (accepted.mpr (condition.resolve_right full)) (Int.not_le.mpr failed)

-- A call of the registry together with what epoll_ctl answers, if it is asked.
inductive Request (Handler Args : Type) where
  | addEvent (fd : Int) (handler : Handler) (args : Args) (epoll : Bool)
  | removeEvent (handle : Int)

def request : EventLoopData Handler Args × Live Handler Args → Request Handler Args →
    EventLoopData Handler Args × Live Handler Args
  | (data,live),.addEvent fd handler args epoll =>
    let answer := evAddEvent data fd handler args epoll
    (answer.2,if 0 ≤ answer.1 then (answer.1.toNat,⟨fd,handler,args⟩) :: live else live)
  | (data,live),.removeEvent handle =>
    ((evRemoveEvent data handle).2,if 0 ≤ handle then withoutIndex live handle.toNat else live)

-- epoll_ctl takes no negative descriptor. A handle that is removed is either
-- the answer of a failed add or was given out and not removed since.
def RequestAllowed (s : EventLoopData Handler Args × Live Handler Args) : Request Handler Args → Prop
  | .addEvent fd _ _ epoll => epoll = true → 0 ≤ fd
  | .removeEvent handle => 0 ≤ handle → handle.toNat ∈ s.2.map Prod.fst

instance (s : EventLoopData Handler Args × Live Handler Args) :
    (r : Request Handler Args) → Decidable (RequestAllowed s r)
  | .addEvent fd _ _ epoll => inferInstanceAs (Decidable (epoll = true → 0 ≤ fd))
  | .removeEvent handle => inferInstanceAs (Decidable (0 ≤ handle → handle.toNat ∈ s.2.map Prod.fst))

def Registrable (s : EventLoopData Handler Args × Live Handler Args) : Request Handler Args → Prop
  | .addEvent _ _ _ epoll => epoll = true ∨ s.1.full
  | .removeEvent _ => True

instance (s : EventLoopData Handler Args × Live Handler Args) : (r : Request Handler Args) → Decidable (Registrable s r)
  | .addEvent _ _ _ epoll => inferInstanceAs (Decidable (epoll = true ∨ s.1.full))
  | .removeEvent _ => inferInstanceAs (Decidable True)

theorem remove_negative (data : EventLoopData Handler Args) (negative : ¬ 0 ≤ handle) :
    evRemoveEvent data handle = (false,data) := if_neg fun both => negative both.1

theorem Represents.full_iff (valid : Represents data live) : data.full ↔ live.length = 1024 := by
  constructor
  · intro full
    have length := valid.full_length full.2
    have limit := full.1
    have bound := valid.bounded
    simp only [maxEventsLimit] at limit bound
    omega
  · intro length
    by_contra room
    rcases findFirstFree_cases valid with ⟨i,search,below,free⟩ | ⟨search,below⟩ | ⟨search,_⟩
    · have fresh := valid.free_not_live free
      have inside : (i :: live.map Prod.fst) ⊆ List.range data.maxEvents := by
        intro j member
        rcases List.mem_cons.mp member with rfl | old
        · exact List.mem_range.mpr below
        · exact List.mem_range.mpr (valid.live_fd old).1
      have longer := (List.subperm_of_subset (List.nodup_cons.mpr ⟨fresh,valid.unshared⟩) inside).length_le
      have bound := valid.bounded
      simp only [List.length_cons,List.length_map,List.length_range,maxEventsLimit] at longer bound
      omega
    · have inside : live.map Prod.fst ⊆ List.range data.maxEvents :=
        fun j member => List.mem_range.mpr (valid.live_fd member).1
      have longer := (List.subperm_of_subset valid.unshared inside).length_le
      simp only [List.length_map,List.length_range,maxEventsLimit] at longer below
      omega
    · have found := (findFirstFree_counts room).1
      rw [search] at found
      omega

theorem request_represents (s : EventLoopData Handler Args × Live Handler Args) (r : Request Handler Args)
    (valid : Represents s.1 s.2) (allowed : RequestAllowed s r) (registrable : Registrable s r) :
    Represents (request s r).1 (request s r).2 := by
  obtain ⟨data,live⟩ := s
  cases r with
  | addEvent fd handler args epoll =>
      by_cases full : data.full
      · simpa [request,add_full full] using valid
      · obtain rfl : epoll = true := registrable.resolve_right full
        rcases add_represents valid (allowed rfl) handler args with ⟨index,answer,_,after⟩ | ⟨answer,_⟩
        · have accepted : (0 : Int) ≤ index := Int.natCast_nonneg index
          simp only [request,answer,accepted,if_true,Int.toNat_natCast]
          exact after
        · simpa [request,answer] using valid
  | removeEvent handle =>
      by_cases nonneg : 0 ≤ handle
      · obtain ⟨index,rfl⟩ := Int.eq_ofNat_of_zero_le nonneg
        have removed := remove_represents valid (allowed nonneg)
        simpa only [request,nonneg,if_true,Int.toNat_natCast] using removed
      · simpa [request,remove_negative data nonneg,nonneg] using valid

def Usable (s : EventLoopData Handler Args × Live Handler Args) : Prop :=
  evCount s.1 = s.2.length ∧
  ∀ fd handler args, 0 ≤ (evAddEvent s.1 fd handler args true).1 ↔ s.2.length < 1024

theorem Represents.usable {s : EventLoopData Handler Args × Live Handler Args} (valid : Represents s.1 s.2) :
    Usable s := by
  refine ⟨valid.counted,fun fd handler args => ?_⟩
  have limit := valid.length_le
  by_cases full : s.1.full
  · have length := valid.full_iff.mp full
    simp [add_full full,length]
  · have length : s.2.length ≠ 1024 := fun equal => full (valid.full_iff.mpr equal)
    simp only [(add_room full fd handler args true).1,true_iff]
    omega

theorem usable_registrable (s : EventLoopData Handler Args × Live Handler Args) (r : Request Handler Args)
    (valid : Represents s.1 s.2) (after : Usable (request s r)) : Registrable s r := by
  obtain ⟨data,live⟩ := s
  cases r with
  | removeEvent handle => trivial
  | addEvent fd handler args epoll =>
      by_cases full : data.full
      · exact .inr full
      · obtain ⟨accepted,counted⟩ := add_room full fd handler args epoll
        refine .inl (accepted.mp ?_)
        by_contra failed
        have count := after.1
        have before : data.numOfEvents = live.length := valid.counted
        simp only [request,failed,if_false,evCount,counted] at count
        omega

def FailsCleanly (s : EventLoopData Handler Args × Live Handler Args) (later : List (Request Handler Args)) : Prop :=
  ∀ fd handler args epoll rest, later = .addEvent fd handler args epoll :: rest →
    (evAddEvent s.1 fd handler args epoll).1 < 0 → Untouched s.1 (evAddEvent s.1 fd handler args epoll).2

-- In every state of a run failed adds leave no trace exactly if none of them
-- has failed in epoll_ctl.
theorem failed_adds_clean_iff (handler : Handler) (args : Args) (requests : List (Request Handler Args))
    (allowed : Machine.Along request RequestAllowed (newEventLoop handler args,[]) requests) :
    (∀ earlier later, requests = earlier ++ later →
      let s := Machine.run request (newEventLoop handler args,[]) earlier
      Usable s ∧ FailsCleanly s later) ↔
    Machine.Along request Registrable (newEventLoop handler args,[]) requests := by
  have precise : (∀ earlier later, requests = earlier ++ later →
      Usable (Machine.run request (newEventLoop handler args,[]) earlier)) ↔ _ := Machine.exact_condition_promised
    (fun s : EventLoopData Handler Args × Live Handler Args => Represents s.1 s.2) (new_represents handler args)
    request_represents (fun _ valid => valid.usable) (fun s r valid _ after => usable_registrable s r valid after)
    requests allowed
  constructor
  · intro clean
    exact precise.mp fun earlier later split => (clean earlier later split).1
  · intro registrable earlier later split
    refine ⟨precise.mpr registrable earlier later split,?_⟩
    rintro fd h a epoll rest rfl
    rw [split] at registrable
    exact (add_untouched_iff _ fd h a epoll).mpr ((Machine.along_append _ _).mp registrable).2.1

-- The handle -1 is removed without effect, and the hole at 0 is filled again.
theorem failed_adds_clean_iff_refill :
    let requests : List (Request Nat Nat) :=
      [.addEvent 5 1 10 true,.addEvent 7 2 20 true,.removeEvent 0,.removeEvent (-1),.addEvent 9 3 30 true]
    let s := Machine.run request (newEventLoop 0 0,[]) requests
    evCount s.1 = 2 ∧ s.2.length = 2 := by
  intro requests s
  have clean := (failed_adds_clean_iff 0 0 requests (by decide)).mpr (by decide) requests [] (by simp)
  exact ⟨clean.1.1,by decide⟩

-- One descriptor that epoll_ctl refuses: it is counted for good.
theorem refused_add_is_counted :
    let answer := evAddEvent (newEventLoop 0 0 : EventLoopData Nat Nat) 5 1 10 false
    answer.1 = -1 ∧ evCount answer.2 = 1 ∧ ¬ Untouched (newEventLoop 0 0 : EventLoopData Nat Nat) answer.2 := by
  refine ⟨by decide,by decide,fun same => ?_⟩
  exact absurd same.counted (by decide)

end TcpProxy.Events
