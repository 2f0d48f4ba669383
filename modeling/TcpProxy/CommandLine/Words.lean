import TcpProxy.Lib.Separators
import TcpProxy.Utils

namespace TcpProxy.CommandLine

abbrev Text := List UInt8

def maxCmdWordLen : Nat := 64

def whitespace (c : UInt8) : Bool := c = 32 || c = 9

-- strlen is stored in an int, which ends the loops over a longer text too early.
def covered : Text → Text
  | [] => []
  | c :: rest => (c :: rest).take (toInt32 (c :: rest).length).toNat

-- m counts the characters of the word that the loop is in, 0 between words.
def nthwordptrLoop (n : Nat) : Text → Nat → Nat → Nat → Option Nat
  | [],_,_,_ => none
  | c :: rest,i,j,m =>
    if whitespace c then
      if 0 < m then if j = n then none else nthwordptrLoop n rest (i+1) (j+1) 0
      else nthwordptrLoop n rest (i+1) j m
    else if j = n then some i else nthwordptrLoop n rest (i+1) j (m+1)

-- A pointer into the text is the index of the character it points to.
def nthwordptr (cmd : Text) (n : Nat) : Option Nat := nthwordptrLoop n (covered cmd) 0 1 0

def nthwordLoop (n : Nat) : Text → Nat → Nat → Text → Text
  | [],_,_,word => word
  | c :: rest,j,m,word =>
    if whitespace c then
      if 0 < m then if j = n then word else nthwordLoop n rest (j+1) 0 word
      else nthwordLoop n rest j m word
    else nthwordLoop n rest j (m+1) (if j = n ∧ word.length < maxCmdWordLen-1 then word ++ [c] else word)

-- No caller keeps a word while it asks for five more, so that the ring of
-- static buffers that the source returns it in does not show.
def nthword (cmd : Text) (n : Nat) : Option Text :=
  let word := nthwordLoop n (covered cmd) 1 0 []
  if word = [] then none else some word

def nofwordsLoop : Text → Nat → Nat → Nat
  | [],j,m => if 0 < m then j+1 else j
  | c :: rest,j,m =>
    if whitespace c then if 0 < m then nofwordsLoop rest (j+1) 0 else nofwordsLoop rest j m
    else nofwordsLoop rest j (m+1)

def nofwords (cmd : Text) : Nat := nofwordsLoop (covered cmd) 0 0

def words (s : Text) : List Text := Separators.runs whitespace s

def cut (word : Text) : Text := word.take (maxCmdWordLen-1)

-- The words as the loops see them.
def scannedWords (cmd : Text) : List Text := (words (covered cmd)).map cut

structure ScannersAgree (s : Text) (n : Nat) : Prop where
  count : nofwords s = (words s).length
  word : nthword s n = ((words s)[n-1]?).map cut
  beyond : nthword s n = none ↔ (words s).length < n
  null : nthwordptr s n = none ↔ nthword s n = none
  pointer : ∀ i, nthwordptr s n = some i → Separators.Starts whitespace s (n-1) i ∧ nthword s n = nthword (s.drop i) 1

theorem covered_take (s : Text) : covered s = s.take (toInt32 s.length).toNat := by
  cases s with
  | nil => exact List.take_nil.symm
  | cons c rest => rfl

theorem covered_eq (short : s.length < 2^31) : covered s = s := by
  have length : toInt32 s.length = s.length := toInt32_eq (by omega) (by omega)
  rw [covered_take,length,Int.toNat_natCast,List.take_length]

abbrev remaining (m : Nat) (rest : Text) : List Text := Separators.pending whitespace (decide (0 < m)) rest

theorem remaining_zero (s : Text) : remaining 0 s = words s := rfl

theorem remaining_word (letter : whitespace c = false) (m : Nat) (rest : Text) :
    remaining m (c :: rest) = (remaining (m+1) rest).modifyHead (List.cons c) := by
  simpa [remaining] using Separators.pending_cons letter (decide (0 < m)) rest

theorem remaining_cons (m : Nat) (rest : Text) : ∃ word later, remaining (m+1) rest = word :: later := by
  simpa [remaining] using List.exists_cons_of_ne_nil (Separators.pending_true_ne_nil whitespace rest)

theorem remaining_ends (blank : whitespace c = true) (inside : 0 < m) (rest : Text) :
    remaining m (c :: rest) = [] :: remaining 0 rest := by
  simpa [remaining,inside] using Separators.pending_cons_sep blank rest

theorem remaining_blank (blank : whitespace c = true) (outside : ¬ 0 < m) (rest : Text) :
    remaining m (c :: rest) = remaining m rest := by
  simpa [remaining,outside] using Separators.runs_cons_sep blank rest

theorem remaining_nil (m : Nat) : remaining m [] = if 0 < m then [[]] else [] := by
  by_cases inside : 0 < m <;> simp [remaining,inside]

theorem nofwordsLoop_spec (rest : Text) (j m : Nat) : nofwordsLoop rest j m = j + (remaining m rest).length := by
  induction rest generalizing j m with
  | nil =>
      rw [nofwordsLoop,remaining_nil]
      split <;> rfl
  | cons c rest ih =>
      rw [nofwordsLoop]
      split
      · next blank =>
          split
          · next inside =>
              rw [ih,remaining_ends blank inside,List.length_cons]
              omega
          · next outside => rw [ih,remaining_blank blank outside]
      · next letter => rw [ih,remaining_word (by simpa using letter),List.length_modifyHead]

theorem nofwords_spec (s : Text) : nofwords s = (words (covered s)).length := by
  rw [nofwords,nofwordsLoop_spec,remaining_zero,Nat.zero_add]

theorem cut_append (word rest : Text) (c : UInt8) (room : word.length ≤ maxCmdWordLen-1) :
    cut ((if word.length < maxCmdWordLen-1 then word ++ [c] else word) ++ rest) = cut (word ++ c :: rest) := by
  split
  · rw [List.append_assoc,List.singleton_append]
  · have full : word.length = maxCmdWordLen-1 := by omega
    rw [cut,cut,List.take_left' full,List.take_left' full]

theorem nthwordLoop_spec (rest : Text) (j m : Nat) (word : Text) (room : word.length ≤ maxCmdWordLen-1)
    (before : j ≤ n) (fresh : j < n → word = []) :
    nthwordLoop n rest j m word = cut (word ++ ((remaining m rest)[n-j]?).getD []) := by
  induction rest generalizing j m word with
  | nil =>
      have nothing : ((remaining m [])[n-j]?).getD [] = [] := by
        rw [remaining_nil]
        split
        · cases n-j <;> rfl
        · rfl
      rw [nthwordLoop,nothing,List.append_nil,cut,List.take_of_length_le room]
  | cons c rest ih =>
      rw [nthwordLoop]
      split
      · next blank =>
          split
          · next inside =>
              rw [remaining_ends blank inside]
              split
              · next here =>
                  rw [here,Nat.sub_self]
                  simp [cut,List.take_of_length_le room]
              · have further : n-j = n-(j+1)+1 := by omega
                rw [ih (j+1) 0 word room (by omega) (fun low => fresh (by omega)),further,List.getElem?_cons_succ]
          · next outside => rw [ih j m word room before fresh,remaining_blank blank outside]
      · next letter =>
          obtain ⟨head,later,split⟩ := remaining_cons m rest
          rw [remaining_word (by simpa using letter),split,List.modifyHead_cons]
          by_cases here : j = n
          · have kept : (if word.length < maxCmdWordLen-1 then word ++ [c] else word).length ≤ maxCmdWordLen-1 := by
              split
              · rw [List.length_append,List.length_singleton]
                omega
              · exact room
            simp only [here,true_and]
            rw [ih n (m+1) _ kept (Nat.le_refl n) (fun low => absurd low (Nat.lt_irrefl n)),split,Nat.sub_self]
            exact cut_append word head c room
          · obtain ⟨k,behind⟩ : ∃ k, n-j = k+1 := ⟨n-j-1,by omega⟩
            simp only [here,false_and,if_false]
            rw [ih j (m+1) word room before fresh,split,behind,List.getElem?_cons_succ,List.getElem?_cons_succ]

theorem cut_ne_nil (member : word ∈ words s) : cut word ≠ [] := by
  have nonempty := Separators.runs_ne_nil member
  cases word with
  | nil => exact absurd rfl nonempty
  | cons c rest => exact List.cons_ne_nil _ _

theorem nthword_spec (s : Text) (positive : 1 ≤ n) : nthword s n = (scannedWords s)[n-1]? := by
  rw [nthword,nthwordLoop_spec (covered s) 1 0 [] (Nat.zero_le _) positive (fun _ => rfl),remaining_zero,List.nil_append,
    scannedWords,List.getElem?_map]
  cases place : (words (covered s))[n-1]? with
  | none => rfl
  | some word => exact if_neg (cut_ne_nil (List.mem_of_getElem? place))

-- A pointer to a letter behind which, itself among them, these words are left,
-- or NULL if there are none; rest stands at index i.
def PointsTo (rest : Text) (i : Nat) (left : List Text) (pointer : Option Nat) : Prop :=
  (pointer = none ∧ left = []) ∨
    ∃ o, pointer = some (i+o) ∧ (∃ c, rest[o]? = some c ∧ whitespace c = false) ∧ words (rest.drop o) = left

theorem PointsTo.cons (c : UInt8) (points : PointsTo rest (i+1) left pointer) : PointsTo (c :: rest) i left pointer := by
  rcases points with null | ⟨o,found,letter,starts⟩
  · exact .inl null
  · refine .inr ⟨o+1,?_,letter,starts⟩
    rw [found,Nat.add_assoc,Nat.add_comm 1]

-- The loop leaves at the first character of word number n, so that it is never
-- inside of it.
theorem nthwordptrLoop_spec (rest : Text) (i j m : Nat) (before : j ≤ n) (inside : 0 < m → j < n) :
    PointsTo rest i ((remaining m rest).drop (n-j)) (nthwordptrLoop n rest i j m) := by
  induction rest generalizing i j m with
  | nil =>
      refine .inl ⟨rfl,?_⟩
      rw [remaining_nil]
      split
      · next within =>
          have low := inside within
          exact List.drop_eq_nil_of_le (by rw [List.length_singleton]; omega)
      · exact List.drop_nil
  | cons c rest ih =>
      rw [nthwordptrLoop]
      split
      · next blank =>
          split
          · next within =>
              have low := inside within
              have further : n-j = n-(j+1)+1 := by omega
              rw [if_neg (Nat.ne_of_lt low),remaining_ends blank within,further,List.drop_succ_cons]
              exact (ih (i+1) (j+1) 0 low (fun within => absurd within (Nat.lt_irrefl 0))).cons c
          · next outside =>
              rw [remaining_blank blank outside]
              exact (ih (i+1) j m before inside).cons c
      · next letter =>
          have other : whitespace c = false := by simpa using letter
          by_cases here : j = n
          · have outside : ¬ 0 < m := fun within => absurd here (Nat.ne_of_lt (inside within))
            refine .inr ⟨0,if_pos here,⟨c,rfl,other⟩,?_⟩
            simp [remaining,outside,here,words]
          · have low : j < n := by omega
            have points := ih (i+1) j (m+1) before (fun _ => low)
            obtain ⟨head,later,split⟩ := remaining_cons m rest
            obtain ⟨k,behind⟩ : ∃ k, n-j = k+1 := ⟨n-j-1,by omega⟩
            rw [split,behind,List.drop_succ_cons] at points
            rw [if_neg here,remaining_word other,split,List.modifyHead_cons,behind,List.drop_succ_cons]
            exact points.cons c

theorem nthwordptr_spec (s : Text) (positive : 1 ≤ n) :
    (nthwordptr s n = none ∧ (words (covered s)).length < n) ∨
      ∃ i, nthwordptr s n = some i ∧ Separators.Starts whitespace (covered s) (n-1) i := by
  rcases nthwordptrLoop_spec (covered s) 0 1 0 positive (fun inside => absurd inside (Nat.lt_irrefl 0)) with
    ⟨null,absent⟩ | ⟨o,found,letter,starts⟩
  · rw [remaining_zero] at absent
    have few := List.drop_eq_nil_iff.mp absent
    exact .inl ⟨null,by omega⟩
  · rw [remaining_zero] at starts
    exact .inr ⟨o,by rw [nthwordptr,found,Nat.zero_add],letter,starts⟩

theorem nthword_none (s : Text) (positive : 1 ≤ n) : nthword s n = none ↔ (words (covered s)).length < n := by
  rw [nthword_spec s positive,List.getElem?_eq_none_iff,scannedWords,List.length_map]
  omega

theorem nthwordptr_none (s : Text) (positive : 1 ≤ n) : nthwordptr s n = none ↔ (words (covered s)).length < n := by
  rcases nthwordptr_spec s positive with ⟨null,few⟩ | ⟨i,found,starts⟩
  · exact iff_of_true null few
  · have inside : n-1 < (words (covered s)).length := starts.lt
    exact iff_of_false (by simp [found]) (by omega)

theorem scanners_agree (s : Text) (n : Nat) (short : s.length < 2^31) (positive : 1 ≤ n) : ScannersAgree s n := by
  have whole := covered_eq short
  refine ⟨?_,?_,?_,?_,fun i found => ?_⟩
  · rw [nofwords_spec,whole]
  · rw [nthword_spec s positive,scannedWords,whole,List.getElem?_map]
  · rw [nthword_none s positive,whole]
  · rw [nthwordptr_none s positive,nthword_none s positive]
  · rcases nthwordptr_spec s positive with ⟨null,_⟩ | ⟨o,place,starts⟩
    · exact absurd (found.symm.trans null) (by simp)
    · cases found.symm.trans place
      rw [whole] at starts
      have shorter : (s.drop i).length < 2^31 := Nat.lt_of_le_of_lt (s.length_drop ▸ Nat.sub_le _ i) short
      have first : (words (s.drop i))[0]? = (words s)[n-1]? := starts.first
      refine ⟨starts,?_⟩
      rw [nthword_spec s positive,nthword_spec _ (Nat.le_refl 1),scannedWords,scannedWords,whole,covered_eq shorter,
        List.getElem?_map,List.getElem?_map,first]

theorem scanners_agree_blanks : ScannersAgree [32,9,97,98,32,32,99,9] 2 :=
  scanners_agree [32,9,97,98,32,32,99,9] 2 (by decide) (by decide)

theorem covered_long (c : UInt8) : covered (List.replicate (2^31) c) = [] := by
  have negative : toInt32 (List.replicate (2^31) c).length = -2147483648 := by
    rw [List.length_replicate]
    decide
  rw [covered_take,negative]
  rfl

theorem words_long (letter : whitespace c = false) : words (List.replicate (2^31) c) = [List.replicate (2^31) c] :=
  Separators.runs_single (fun other member => (List.eq_of_mem_replicate member).symm ▸ letter)
    (by rw [← List.length_pos_iff,List.length_replicate]; decide)

-- The length of a word of 2^31 characters is negative as an int.
theorem long_word_not_counted : ¬ ScannersAgree (List.replicate (2^31) 97) 1 := by
  intro agree
  have count := agree.count
  rw [nofwords_spec,covered_long,words_long rfl] at count
  exact absurd count (by decide)

end TcpProxy.CommandLine
