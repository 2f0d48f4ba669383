import TcpProxy.Proxying.Accepting

namespace TcpProxy.Proxying

variable {old middle new : Sockets} {fds more : List Int}

structure Sockets.Sound (s : Sockets) : Prop where
  known : ∀ fd k, s.table fd = some k → k < s.created
  single : ∀ fd other k, s.table fd = some k → s.table other = some k → fd = other

-- From `old` to `new` exactly the descriptors `fds` were opened, for sockets
-- that did not exist before and on which nothing has been read or written.
structure Opened (old new : Sockets) (fds : List Int) : Prop where
  kept : ∀ fd k, old.table fd = some k → new.table fd = some k
  fresh : ∀ fd ∈ fds, old.table fd = none ∧ 0 ≤ fd
  opened : ∀ fd ∈ fds, ∃ k, new.table fd = some k ∧ old.created ≤ k ∧ k < new.created ∧
    new.streams k = ⟨[],[]⟩
  only : ∀ fd, new.table fd ≠ none → old.table fd ≠ none ∨ fd ∈ fds
  once : fds.Nodup
  streams : ∀ k < old.created, new.streams k = old.streams k
  created : old.created ≤ new.created
  sound : old.Sound → new.Sound
  closes : new.badCloses = old.badCloses

theorem Opened.refl (s : Sockets) : Opened s s [] :=
  ⟨fun _ _ same => same,by simp,by simp,fun _ present => .inl present,List.nodup_nil,fun _ _ => rfl,
    Nat.le_refl _,id,rfl⟩

theorem Opened.trans (one : Opened old middle fds) (two : Opened middle new more) :
    Opened old new (fds ++ more) := by
  have apart : ∀ fd ∈ more, fd ∉ fds := by
    intro fd member inside
    obtain ⟨k,present,_⟩ := one.opened fd inside
    rw [(two.fresh fd member).1] at present
    cases present
  refine ⟨fun fd k same => two.kept fd k (one.kept fd k same),?_,?_,?_,?_,?_,
    Nat.le_trans one.created two.created,two.sound ∘ one.sound,two.closes.trans one.closes⟩
  · intro fd member
    rcases List.mem_append.mp member with left | right
    · exact one.fresh fd left
    · refine ⟨?_,(two.fresh fd right).2⟩
      cases before : old.table fd with
      | none => rfl
      | some k =>
          have still := one.kept fd k before
          rw [(two.fresh fd right).1] at still
          cases still
  · intro fd member
    rcases List.mem_append.mp member with left | right
    · obtain ⟨k,present,high,low,empty⟩ := one.opened fd left
      exact ⟨k,two.kept fd k present,high,Nat.lt_of_lt_of_le low two.created,(two.streams k low).trans empty⟩
    · obtain ⟨k,present,high,low,empty⟩ := two.opened fd right
      exact ⟨k,present,Nat.le_trans one.created high,low,empty⟩
  · intro fd present
    rcases two.only fd present with before | member
    · exact (one.only fd before).imp id (List.mem_append_left _)
    · exact .inr (List.mem_append_right _ member)
  · exact List.nodup_append.mpr ⟨one.once,two.once,fun a left b right equal => apart b right (equal ▸ left)⟩
  · intro k low
    exact (two.streams k (Nat.lt_of_lt_of_le low one.created)).trans (one.streams k low)

theorem close_open (present : new.table fd = some k) :
    new.close fd = {new with table := Function.update new.table fd none} := by
  simp [Sockets.close,present]

theorem close_sound (sound : new.Sound) (fd : Int) : (new.close fd).Sound := by
  cases present : new.table fd with
  | none => simpa [Sockets.close,present] using ⟨sound.known,sound.single⟩
  | some k =>
      rw [close_open present]
      refine ⟨fun g j place => ?_,fun g other j one two => ?_⟩
      · by_cases equal : g = fd
        · subst g; simp at place
        · exact sound.known g j (by simpa [Function.update_of_ne equal] using place)
      · by_cases equal : g = fd
        · subst g; simp at one
        · by_cases same : other = fd
          · subst other; simp at two
          · exact sound.single g other j (by simpa [Function.update_of_ne equal] using one)
              (by simpa [Function.update_of_ne same] using two)

theorem Opened.close (path : Opened old new fds) (member : fd ∈ fds) :
    Opened old (new.close fd) (fds.erase fd) := by
  obtain ⟨k,present,_⟩ := path.opened fd member
  have other : ∀ g ∈ fds.erase fd, g ≠ fd ∧ g ∈ fds := fun g inside => (path.once.mem_erase_iff).mp inside
  have sound := close_open present ▸ fun old => close_sound (path.sound old) fd
  rw [close_open present]
  refine ⟨?_,fun g inside => path.fresh g (other g inside).2,?_,?_,path.once.erase _,path.streams,path.created,
    sound,path.closes⟩
  · intro g j before
    have different : g ≠ fd := by
      rintro rfl
      rw [(path.fresh g member).1] at before
      cases before
    simpa [Function.update_of_ne different] using path.kept g j before
  · intro g inside
    simpa [Function.update_of_ne (other g inside).1] using path.opened g (other g inside).2
  · intro g still
    by_cases equal : g = fd
    · subst g; simp at still
    · rcases path.only g (by simpa [Function.update_of_ne equal] using still) with before | inside
      · exact .inl before
      · exact .inr ((path.once.mem_erase_iff).mpr ⟨equal,inside⟩)

theorem create_cases (s : Sockets) (answer : Option Nat) :
    (∃ n : Nat, answer = some n ∧ (s.create answer).1 = n ∧ Opened s (s.create answer).2 [(n : Int)]) ∨
      s.create answer = (-1,s) := by
  cases answer with
  | none => exact .inr rfl
  | some n =>
      cases used : s.table n with
      | some k => exact .inr (by simp [Sockets.create,used])
      | none =>
          refine .inl ⟨n,rfl,by simp [Sockets.create,used],?_⟩
          simp only [Sockets.create,used]
          refine ⟨?_,by simp [used],?_,?_,by simp,?_,Nat.le_succ _,?_,rfl⟩
          · intro fd k before
            have different : fd ≠ n := by rintro rfl; rw [used] at before; cases before
            simpa [Function.update_of_ne different] using before
          · intro fd member
            obtain rfl : fd = n := by simpa using member
            exact ⟨s.created,by simp⟩
          · intro fd present
            by_cases equal : fd = n
            · exact .inr (by simp [equal])
            · exact .inl (by simpa [Function.update_of_ne equal] using present)
          · intro k low
            simp [Function.update_of_ne (Nat.ne_of_lt low)]
          · intro sound
            refine ⟨fun fd k present => ?_,fun fd other k one two => ?_⟩
            · by_cases equal : fd = n
              · subst fd
                obtain rfl : s.created = k := by simpa using present
                exact Nat.lt_succ_self _
              · have before := sound.known fd k (by simpa [Function.update_of_ne equal] using present)
                exact Nat.lt_succ_of_lt before
            · by_cases equal : fd = n
              · by_cases same : other = n
                · exact equal.trans same.symm
                · subst fd
                  obtain rfl : s.created = k := by simpa using one
                  have before := sound.known other _ (by simpa [Function.update_of_ne same] using two)
                  exact absurd before (Nat.lt_irrefl _)
              · by_cases same : other = n
                · subst other
                  obtain rfl : s.created = k := by simpa using two
                  have before := sound.known fd _ (by simpa [Function.update_of_ne equal] using one)
                  exact absurd before (Nat.lt_irrefl _)
                · exact sound.single fd other k (by simpa [Function.update_of_ne equal] using one)
                    (by simpa [Function.update_of_ne same] using two)

theorem initSocketV4_cases (s : Sockets) (input : AcceptInput) :
    (0 ≤ (initSocketV4 s input).1 ∧ Opened s (initSocketV4 s input).2 [(initSocketV4 s input).1]) ∨
      ((initSocketV4 s input).1 = -1 ∧ Opened s (initSocketV4 s input).2 []) := by
  unfold initSocketV4
  rcases create_cases s input.socket with ⟨n,_,answer,path⟩ | refused
  · generalize s.create input.socket = created at answer path ⊢
    obtain ⟨fd,s'⟩ := created
    obtain rfl : fd = n := answer
    have closed : Opened s (s'.close n) [] := by simpa using path.close (List.mem_singleton.mpr rfl)
    have nonneg : ¬ (n : Int) < 0 := by omega
    simp only [nonneg,if_false]
    split
    · exact .inr ⟨rfl,closed⟩
    · split
      · exact .inr ⟨rfl,closed⟩
      · exact .inl ⟨by omega,path⟩
  · simp only [refused]
    exact .inr ⟨rfl,Opened.refl s⟩

def Stranded (s : Sockets) (server : RemoteServer) (input : AcceptInput) : Prop :=
  0 ≤ (initSocketV4 s input).1 ∧ inetPton server.host = false ∧ input.gethostbyname = false

instance (s : Sockets) (server : RemoteServer) (input : AcceptInput) : Decidable (Stranded s server input) :=
  inferInstanceAs (Decidable (_ ∧ _ ∧ _))

-- The third outcome is the early return, with the descriptor still open.
theorem connectHost_cases (s : Sockets) (server : RemoteServer) (input : AcceptInput) :
    (¬ Stranded s server input ∧ 0 ≤ (connectHost s server input).1 ∧
      Opened s (connectHost s server input).2 [(connectHost s server input).1]) ∨
    (¬ Stranded s server input ∧ (connectHost s server input).1 = -1 ∧
      Opened s (connectHost s server input).2 []) ∨
    (Stranded s server input ∧ (connectHost s server input).1 = -1 ∧
      Opened s (connectHost s server input).2 [(initSocketV4 s input).1]) := by
  unfold connectHost
  rcases initSocketV4_cases s input with ⟨nonneg,path⟩ | ⟨refused,path⟩
  · have valid : ¬ (initSocketV4 s input).1 < 0 := by omega
    have closed : Opened s ((initSocketV4 s input).2.close (initSocketV4 s input).1) [] := by
      simpa using path.close (List.mem_singleton.mpr rfl)
    simp only [valid,if_false]
    split
    · rename_i resolved
      have found : ¬ Stranded s server input := by
        rintro ⟨_,literal,name⟩
        simp [literal,name] at resolved
      split
      · exact .inl ⟨found,nonneg,path⟩
      · exact .inr (.inl ⟨found,rfl,closed⟩)
    · rename_i unresolved
      exact .inr (.inr ⟨⟨nonneg,by simpa using unresolved⟩,rfl,path⟩)
  · have unready : ¬ Stranded s server input := fun stranded => by
      have := stranded.1
      omega
    simp only [refused]
    exact .inr (.inl ⟨unready,rfl,path⟩)

end TcpProxy.Proxying
