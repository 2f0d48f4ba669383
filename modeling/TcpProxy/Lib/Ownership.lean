import Mathlib.Algebra.BigOperators.Group.Multiset.Basic
import Mathlib.Data.Multiset.MapFold
import Mathlib.Logic.Function.Basic

namespace Ownership

-- What malloc has given out. An address is given out once only, so that a
-- block that was freed is told from one that takes its place.
structure Heap (Block : Type) where
  block : Nat → Option Block
  next : Nat

def Heap.empty {Block : Type} : Heap Block := ⟨fun _ => none,0⟩

-- A program comes to nothing where it uses a block that is not allocated.
abbrev Program (Block : Type) := StateT (Heap Block) Option

abbrev Blocks (Block : Type) := Multiset (Nat × Block)

variable {Block : Type} {α β : Type}

def malloc (b : Block) : Program Block Nat := fun h =>
  some (h.next,⟨Function.update h.block h.next (some b),h.next+1⟩)

def load (p : Nat) : Program Block Block := fun h => (h.block p).map fun b => (b,h)

def store (p : Nat) (b : Block) : Program Block Unit := fun h =>
  (h.block p).map fun _ => ((),{h with block := Function.update h.block p (some b)})

def free (p : Nat) : Program Block Unit := fun h =>
  (h.block p).map fun _ => ((),{h with block := Function.update h.block p none})

-- What lies behind the end of an array, or is of another kind, is not there.
def lift (found : Option α) : Program Block α := fun h => found.map fun a => (a,h)

def read (part : Block → Option α) (p : Nat) : Program Block α := do lift (part (← load p))

-- free of a pointer that may be NULL
def freeAny : Option Nat → Program Block Unit
  | some p => free p
  | none => pure ()

def forRange (n : Nat) (body : Nat → Program Block Unit) : Program Block Unit := (List.range n).forM body

-- The heap has these blocks and no other.
structure Holds (h : Heap Block) (own : Blocks Block) : Prop where
  apart : (own.map Prod.fst).Nodup
  block : ∀ p b, h.block p = some b ↔ (p,b) ∈ own
  below : ∀ p, h.next ≤ p → h.block p = none

-- Of a heap that has the blocks `own`, and any others, the program uses no block
-- but these. It leaves the others as they are, and its new blocks are behind all
-- old ones.
def Spec (own : Blocks Block) (c : Program Block α) (post : α → Blocks Block → Prop) : Prop :=
  ∀ others h, Holds h (own+others) →
    ∃ a h' own', c h = some (a,h') ∧ post a own' ∧ Holds h' (own'+others) ∧ h.next ≤ h'.next

-- The addresses that were given out and not freed.
def Heap.allocated (h : Heap Block) : List Nat := (List.range h.next).filter fun p => (h.block p).isSome

theorem holds_allocated {own : Blocks Block} (held : Holds h own) : own.map Prod.fst = (h.allocated : Multiset Nat) := by
  refine (Multiset.Nodup.ext held.apart (Multiset.coe_nodup.mpr (List.nodup_range.filter _))).mpr fun p => ?_
  rw [Multiset.mem_map,Multiset.mem_coe,List.mem_filter,List.mem_range]
  constructor
  · rintro ⟨⟨q,b⟩,member,rfl⟩
    have stored := (held.block q b).mpr member
    refine ⟨?_,by simp [stored]⟩
    by_contra above
    rw [held.below q (by omega)] at stored
    cases stored
  · rintro ⟨_,present⟩
    obtain ⟨b,stored⟩ := Option.isSome_iff_exists.mp present
    exact ⟨(p,b),(held.block p b).mp stored,rfl⟩

theorem holds_gone {own others : Blocks Block} (held : Holds h (own+others)) (held' : Holds h' others)
    (member : (p,b) ∈ own) : h'.block p = none := by
  cases stored : h'.block p with
  | none => rfl
  | some b' =>
      have apart := held.apart
      rw [Multiset.map_add,Multiset.nodup_add] at apart
      exact absurd (Multiset.mem_map.mpr ⟨_,(held'.block p b').mp stored,rfl⟩)
        (Multiset.disjoint_left.mp apart.2.2 (Multiset.mem_map.mpr ⟨_,member,rfl⟩))

theorem spec_pure {post : α → Blocks Block → Prop} (holds : post a own) : Spec own (pure a) post :=
  fun _ h held => ⟨a,h,own,rfl,holds,held,Nat.le_refl _⟩

theorem spec_mono {post weaker : α → Blocks Block → Prop} (spec : Spec own c post)
    (gives : ∀ a own', post a own' → weaker a own') : Spec own c weaker := by
  intro others h held
  obtain ⟨a,h',own',ran,holds,held',later⟩ := spec others h held
  exact ⟨a,h',own',ran,gives a own' holds,held',later⟩

theorem spec_frame {post : α → Blocks Block → Prop} (spec : Spec own c post) (rest : Blocks Block) :
    Spec (own+rest) c fun a own' => ∃ mine, post a mine ∧ own' = mine+rest := by
  intro others h held
  rw [add_assoc] at held
  obtain ⟨a,h',own',ran,holds,held',later⟩ := spec (rest+others) h held
  exact ⟨a,h',own'+rest,ran,⟨own',holds,rfl⟩,by rwa [add_assoc],later⟩

theorem spec_bind {post : α → Blocks Block → Prop} {final : β → Blocks Block → Prop} {next : α → Program Block β}
    (spec : Spec own c post) (rest : ∀ a own', post a own' → Spec own' (next a) final) :
    Spec own (c >>= next) final := by
  intro others h held
  obtain ⟨a,h',own',ran,holds,held',later⟩ := spec others h held
  obtain ⟨b,h'',own'',ran',holds',held'',later'⟩ := rest a own' holds others h' held'
  refine ⟨b,h'',own'',?_,holds',held'',later.trans later'⟩
  change (c h).bind _ = _
  rw [ran]
  exact ran'

-- One call: of all that is owned, the call takes what it needs.
theorem spec_call {post : α → Blocks Block → Prop} {final : β → Blocks Block → Prop} {next : α → Program Block β}
    (needs : Blocks Block) (spec : Spec needs c post) (rest : Blocks Block) (parts : own = needs+rest)
    (after : ∀ a mine, post a mine → Spec (mine+rest) (next a) final) : Spec own (c >>= next) final := by
  subst parts
  refine spec_bind (spec_frame spec rest) fun a own' reached => ?_
  obtain ⟨mine,holds,rfl⟩ := reached
  exact after a mine holds

theorem spec_last {post final : α → Blocks Block → Prop} (needs : Blocks Block) (spec : Spec needs c post)
    (rest : Blocks Block) (parts : own = needs+rest) (after : ∀ a mine, post a mine → final a (mine+rest)) :
    Spec own c final := by
  subst parts
  refine spec_mono (spec_frame spec rest) fun a own' reached => ?_
  obtain ⟨mine,holds,rfl⟩ := reached
  exact after a mine holds

theorem holds_head {others : Blocks Block} (held : Holds h ({(p,b)}+others)) :
    h.block p = some b ∧ ∀ b', (p,b') ∉ others := by
  refine ⟨(held.block p b).mpr (by simp),fun b' member => ?_⟩
  have apart := held.apart
  simp only [Multiset.singleton_add,Multiset.map_cons,Multiset.nodup_cons] at apart
  exact apart.1 (Multiset.mem_map.mpr ⟨_,member,rfl⟩)

theorem holds_removed {others : Blocks Block} (held : Holds h ({(p,b)}+others)) :
    Holds ⟨Function.update h.block p none,h.next⟩ others := by
  obtain ⟨_,alone⟩ := holds_head held
  refine ⟨?_,fun q b' => ?_,fun q above => ?_⟩
  · have apart := held.apart
    simp only [Multiset.singleton_add,Multiset.map_cons,Multiset.nodup_cons] at apart
    exact apart.2
  · simp only [Function.update_apply]
    split
    · next same => simp [same,alone]
    · next other => simp [held.block q b',other]
  · simp only [Function.update_apply]
    split
    · rfl
    · exact held.below q above

theorem holds_added {others : Blocks Block} (held : Holds h others) (absent : h.block p = none) (after : h.next ≤ next)
    (below : p < next) (b : Block) : Holds ⟨Function.update h.block p (some b),next⟩ ({(p,b)}+others) := by
  have alone : ∀ b', (p,b') ∉ others := fun b' member => by
    have found := (held.block p b').mpr member
    rw [absent] at found
    cases found
  refine ⟨?_,fun q b' => ?_,fun q above => ?_⟩
  · simp only [Multiset.singleton_add,Multiset.map_cons,Multiset.nodup_cons]
    refine ⟨fun member => ?_,held.apart⟩
    obtain ⟨⟨q,b'⟩,inside,same⟩ := Multiset.mem_map.mp member
    exact alone b' (same ▸ inside)
  · simp only [Function.update_apply]
    split
    · next same => simp [same,alone,eq_comm]
    · next other => simp [held.block q b',other]
  · have other : q ≠ p := fun same => by
      rw [same] at above
      exact absurd below (Nat.not_lt.mpr above)
    simp only [Function.update_of_ne other]
    exact held.below q (after.trans above)

theorem spec_malloc (b : Block) : Spec 0 (malloc b) fun p own => own = {(p,b)} := by
  intro others h held
  rw [zero_add] at held
  exact ⟨h.next,_,_,rfl,rfl,holds_added held (held.below _ (Nat.le_refl _)) (by omega) (by omega) b,Nat.le_succ _⟩

theorem spec_load (p : Nat) (b : Block) : Spec {(p,b)} (load p) fun b' own => b' = b ∧ own = {(p,b)} := by
  intro others h held
  exact ⟨b,h,_,by rw [load,(holds_head held).1]; rfl,⟨rfl,rfl⟩,held,Nat.le_refl _⟩

theorem spec_free (p : Nat) (b : Block) : Spec {(p,b)} (free p) fun _ own => own = 0 := by
  intro others h held
  refine ⟨(),⟨Function.update h.block p none,h.next⟩,0,by rw [free,(holds_head held).1]; rfl,rfl,?_,Nat.le_refl _⟩
  rw [zero_add]
  exact holds_removed held

theorem spec_store (p : Nat) (b b' : Block) : Spec {(p,b)} (store p b') fun _ own => own = {(p,b')} := by
  intro others h held
  obtain ⟨stored,_⟩ := holds_head held
  refine ⟨(),⟨Function.update h.block p (some b'),h.next⟩,_,by rw [store,stored]; rfl,rfl,?_,Nat.le_refl _⟩
  have below : p < h.next := by
    by_contra above
    rw [held.below p (by omega)] at stored
    cases stored
  have added := holds_added (holds_removed held) (Function.update_self p none h.block) (Nat.le_refl _) below b'
  rwa [Function.update_idem] at added

theorem spec_lift {found : Option α} (there : found = some a) :
    Spec own (lift found : Program Block α) fun a' own' => a' = a ∧ own' = own := by
  intro others h held
  exact ⟨a,h,own,by rw [lift,there]; rfl,⟨rfl,rfl⟩,held,Nat.le_refl _⟩

theorem bind_stops {c : Program Block α} {next : α → Program Block β} (stops : c h = none) : (c >>= next) h = none := by
  change (c h).bind _ = none
  rw [stops]
  rfl

theorem read_missing {part : Block → Option α} {next : α → Program Block β} (missing : h.block p = none) :
    (read part p >>= next) h = none :=
  bind_stops (bind_stops (by rw [load,missing]; rfl))

theorem malloc_then {next : Nat → Program Block β} (b : Block) : (malloc b >>= next) h =
    next h.next ⟨Function.update h.block h.next (some b),h.next+1⟩ := rfl

theorem store_there {next : Unit → Program Block β} (located : h.block p = some b) (b' : Block) :
    (store p b' >>= next) h = next () ⟨Function.update h.block p (some b'),h.next⟩ := by
  have stored : store p b' h = some ((),⟨Function.update h.block p (some b'),h.next⟩) := by rw [store,located]; rfl
  change (store p b' h).bind _ = _
  rw [stored]
  rfl

theorem free_there {next : Unit → Program Block β} (stored : h.block p = some b) :
    (free p >>= next) h = next () ⟨Function.update h.block p none,h.next⟩ := by
  have freed : free p h = some ((),⟨Function.update h.block p none,h.next⟩) := by rw [free,stored]; rfl
  change (free p h).bind _ = _
  rw [freed]
  rfl

theorem read_there {part : Block → Option α} {next : α → Program Block β} (stored : h.block p = some b)
    (there : part b = some a) : (read part p >>= next) h = next a h := by
  have found : (read part p : Program Block α) h = some (a,h) := by
    change (load p h).bind _ = _
    rw [load,stored]
    change (lift (part b) : Program Block α) h = _
    rw [there]
    rfl
  change (read part p h).bind _ = _
  rw [found]
  rfl

section

variable {own : Blocks Block} {final : β → Blocks Block → Prop}

theorem spec_mallocThen {next : Nat → Program Block β} (after : ∀ p, Spec ({(p,b)}+own) (next p) final) :
    Spec own (malloc b >>= next) final := by
  refine spec_call 0 (spec_malloc b) own (zero_add own).symm fun p mine same => ?_
  subst same
  exact after p

theorem spec_freeThen {next : Unit → Program Block β} (rest : Blocks Block) (parts : own = {(p,b)}+rest) (after : Spec rest (next ()) final) :
    Spec own (free p >>= next) final := by
  refine spec_call _ (spec_free p b) rest parts fun _ mine gone => ?_
  rw [gone,zero_add]
  exact after

theorem spec_storeThen {next : Unit → Program Block β} (rest : Blocks Block) (parts : own = {(p,b)}+rest)
    (after : Spec ({(p,b')}+rest) (next ()) final) : Spec own (store p b' >>= next) final := by
  refine spec_call _ (spec_store p b b') rest parts fun _ mine same => ?_
  subst same
  exact after

theorem spec_liftThen {found : Option α} {next : α → Program Block β} (there : found = some a)
    (after : Spec own (next a) final) : Spec own ((lift found : Program Block α) >>= next) final := by
  refine spec_bind (spec_lift there) fun a' own' same => ?_
  obtain ⟨rfl,rfl⟩ := same
  exact after

theorem spec_read {part : Block → Option α} (member : (p,b) ∈ own) (there : part b = some a) :
    Spec own (read part p) fun a' own' => a' = a ∧ own' = own := by
  obtain ⟨rest,rfl⟩ := Multiset.exists_cons_of_mem member
  rw [← Multiset.singleton_add]
  refine spec_call _ (spec_load p b) rest rfl fun found mine same => ?_
  obtain ⟨rfl,rfl⟩ := same
  exact spec_lift there

theorem spec_readThen {part : Block → Option α} {next : α → Program Block β} (member : (p,b) ∈ own) (there : part b = some a)
    (after : Spec own (next a) final) : Spec own (read part p >>= next) final := by
  refine spec_bind (spec_read member there) fun found own' same => ?_
  obtain ⟨rfl,rfl⟩ := same
  exact after

end

-- A loop: what holds of the blocks before each round.
theorem spec_forRange {body : Nat → Program Block Unit} (before : Nat → Blocks Block → Prop) (n : Nat)
    (round : ∀ i, i < n → ∀ own, before i own → Spec own (body i) fun _ own' => before (i+1) own')
    (initial : before 0 own) : Spec own (forRange n body) fun _ own' => before n own' := by
  induction n with
  | zero => exact spec_pure initial
  | succ n ih =>
      have rounds : forRange (n+1) body = (do forRange n body; body n) := by
        simp [forRange,List.range_succ]
      rw [rounds]
      exact spec_bind (ih fun i below => round i (by omega)) fun _ own' reached => round n (by omega) own' reached

end Ownership
