import Mathlib.Data.List.Basic

namespace LongestMatch

-- The choice of a lex scanner between its rules at one place of the input: the
-- longest match, and of several the rule that comes first. A length of 0 is
-- no match.
variable {Rule : Type} {length : Rule → Nat}

def choose (length : Rule → Nat) : List Rule → Option (Rule × Nat)
  | [] => none
  | rule :: later =>
    match choose length later with
    | none => if 0 < length rule then some (rule,length rule) else none
    | some (other,n) => if n ≤ length rule then some (rule,length rule) else some (other,n)

theorem choose_spec (rules : List Rule) (chosen : choose length rules = some (rule,n)) :
    rule ∈ rules ∧ n = length rule ∧ 0 < n := by
  induction rules generalizing rule n with
  | nil => cases chosen
  | cons first later ih =>
      simp only [choose] at chosen
      split at chosen
      · split at chosen
        · cases chosen
          exact ⟨List.mem_cons_self,rfl,by assumption⟩
        · cases chosen
      · next other m found =>
          obtain ⟨member,same,positive⟩ := ih found
          split at chosen
          · cases chosen
            exact ⟨List.mem_cons_self,rfl,by omega⟩
          · cases chosen
            exact ⟨List.mem_cons_of_mem _ member,same,positive⟩

theorem choose_bounded (rules : List Rule) (bounded : ∀ r ∈ rules, length r ≤ limit) :
    choose length rules = none ∨ ∃ rule n, choose length rules = some (rule,n) ∧ n ≤ limit := by
  cases chosen : choose length rules with
  | none => exact .inl rfl
  | some found =>
      obtain ⟨member,same,_⟩ := choose_spec rules chosen
      exact .inr ⟨found.1,found.2,rfl,same ▸ bounded found.1 member⟩

theorem choose_first (rule : Rule) (after : List Rule) (matched : 0 < length rule)
    (later : ∀ r ∈ after, length r ≤ length rule) : choose length (rule :: after) = some (rule,length rule) := by
  rcases choose_bounded after later with nothing | ⟨other,n,found,low⟩
  · simp [choose,nothing,matched]
  · simp [choose,found,low]

theorem choose_eq (before : List Rule) (rule : Rule) (after : List Rule) (matched : 0 < length rule)
    (shorter : ∀ r ∈ before, length r < length rule) (later : ∀ r ∈ after, length r ≤ length rule) :
    choose length (before ++ rule :: after) = some (rule,length rule) := by
  induction before with
  | nil => exact choose_first rule after matched later
  | cons first rest ih =>
      have found := ih fun r member => shorter r (List.mem_cons_of_mem _ member)
      have less := shorter first List.mem_cons_self
      simp [choose,found,Nat.not_le.mpr less]

theorem choose_none (rules : List Rule) (nothing : choose length rules = none) : ∀ r ∈ rules, length r = 0 := by
  induction rules with
  | nil => simp
  | cons first later ih =>
      simp only [choose] at nothing
      split at nothing
      · next absent =>
          split at nothing
          · cases nothing
          · next zero => exact List.forall_mem_cons.mpr ⟨Nat.eq_zero_of_not_pos zero,ih absent⟩
      · split at nothing
        · cases nothing
        · cases nothing

-- The chosen rule is longer than those in front of it and not shorter than
-- those behind it.
theorem choose_split (rules : List Rule) (chosen : choose length rules = some (rule,n)) :
    ∃ before after, rules = before ++ rule :: after ∧ (∀ r ∈ before, length r < length rule) ∧
      ∀ r ∈ after, length r ≤ length rule := by
  induction rules generalizing rule n with
  | nil => cases chosen
  | cons first later ih =>
      cases found : choose length later with
      | none =>
          simp only [choose,found] at chosen
          split at chosen
          · cases chosen
            refine ⟨[],later,rfl,by simp,fun r member => ?_⟩
            rw [choose_none later found r member]
            exact Nat.zero_le _
          · cases chosen
      | some other =>
          obtain ⟨best,m⟩ := other
          obtain ⟨_,rfl,_⟩ := choose_spec later found
          obtain ⟨before,after,rfl,shorter,behind⟩ := ih found
          simp only [choose,found] at chosen
          split at chosen
          · next low =>
              cases chosen
              refine ⟨[],_,rfl,by simp,fun r member => ?_⟩
              rcases List.mem_append.mp member with front | back
              · exact Nat.le_trans (Nat.le_of_lt (shorter r front)) low
              · rcases List.mem_cons.mp back with rfl | back
                · exact low
                · exact Nat.le_trans (behind r back) low
          · next high =>
              cases chosen
              exact ⟨first :: before,after,rfl,List.forall_mem_cons.mpr ⟨Nat.lt_of_not_le high,shorter⟩,behind⟩

theorem choose_raise {other : Rule → Nat} (raised : Rule) (silent : length raised = 0)
    (same : ∀ r, r ≠ raised → other r = length r) (rules : List Rule) :
    (∃ n, choose other rules = some (raised,n)) ∨ choose other rules = choose length rules := by
  have less : ∀ r, length r ≤ other r := by
    intro r
    by_cases equal : r = raised
    · rw [equal,silent]
      exact Nat.zero_le _
    · exact Nat.le_of_eq (same r equal).symm
  cases chosen : choose other rules with
  | none =>
      right
      cases before : choose length rules with
      | none => rfl
      | some found =>
          obtain ⟨member,size,positive⟩ := choose_spec rules before
          have zero := choose_none rules chosen found.1 member
          have low := less found.1
          omega
  | some found =>
      obtain ⟨rule,n⟩ := found
      by_cases equal : rule = raised
      · exact .inl ⟨n,by rw [equal]⟩
      · right
        obtain ⟨_,rfl,positive⟩ := choose_spec rules chosen
        obtain ⟨before,after,rfl,shorter,behind⟩ := choose_split rules chosen
        rw [same rule equal] at positive shorter behind ⊢
        exact (choose_eq before rule after positive (fun r member => Nat.lt_of_le_of_lt (less r) (shorter r member))
          fun r member => Nat.le_trans (less r) (behind r member)).symm

end LongestMatch
