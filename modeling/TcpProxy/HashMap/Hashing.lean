import TcpProxy.HashMap.Refinement

namespace TcpProxy.HashMap

variable {Value : Type}

-- find_head's index for the default hash, inside the array of buckets.
def SelectsBucket (key : Key) (bucketsSize : Int) : Prop :=
  ∃ code, defaultHashingFunction key = some code ∧ 0 ≤ code.tmod bucketsSize ∧ code.tmod bucketsSize < bucketsSize

theorem findHead_default (hash : (t : Table Value).hashingFunction = defaultHashingFunction) (key : Key) :
    (findHead t key).isSome ↔ SelectsBucket key t.bucketsSize := by
  unfold SelectsBucket findHead
  rw [hash]
  cases defaultHashingFunction key with
  | none => simp
  | some code =>
      by_cases inside : t.InRange (code.tmod t.bucketsSize)
      · exact ⟨fun _ => ⟨code,rfl,inside⟩,fun _ => by simp [inside]⟩
      · refine ⟨fun found => ?_,fun ⟨_,same,bounds⟩ => ?_⟩
        · simp [inside] at found
        · obtain rfl := Option.some.inj same
          exact absurd bounds inside

theorem findHead_selects (setup : SameSetup (newHashMap bucketsSize none) (t : Table Value)) (key : Key) :
    (findHead t key).isSome ↔ SelectsBucket key bucketsSize := by
  have size : t.bucketsSize = bucketsSize := setup.size
  have hash : t.hashingFunction = defaultHashingFunction := by
    rw [setup.hash]
    simp only [newHashMap,Option.getD_none]
  rw [findHead_default hash key,size]

theorem checkedInt_eq (low : -2^31 ≤ x) (high : x < 2^31) : checkedInt x = some x := if_pos ⟨low,high⟩

theorem char_eq (c : UInt8) : c.toInt8.toInt = if 2*c.toNat < 256 then (c.toNat : Int) else c.toNat - 256 :=
  BitVec.toInt_eq_toNat_cond c.toBitVec

theorem char_bounds (c : UInt8) : -128 ≤ c.toInt8.toInt ∧ c.toInt8.toInt ≤ 127 :=
  ⟨Int8.le_toInt c.toInt8,Int.le_of_lt_add_one (Int8.toInt_lt c.toInt8)⟩

theorem char_nonneg_iff (c : UInt8) : 0 ≤ c.toInt8.toInt ↔ c < 128 := by
  have bound := c.toNat_lt
  have ascii : c < 128 ↔ c.toNat < 128 := UInt8.lt_iff_toNat_lt
  rw [char_eq,ascii]
  split <;> omega

theorem tmod_of_neg (low : -size < x) (negative : x ≤ 0) : x.tmod size = x := by
  have positive : (-x).tmod size = -x := Int.tmod_eq_of_lt (by omega) (by omega)
  rw [Int.neg_tmod] at positive
  omega

-- One round stays in range, and keeps a code that is not negative so for a
-- char that is not.
theorem hashStep_eq (c : UInt8) (low : -31636373 < code) (high : code < 31636373) :
    ∃ next, hashStep code c = some next ∧ next = (code*13 + c.toInt8.toInt).tmod 31636373 ∧
      -31636373 < next ∧ next < 31636373 := by
  obtain ⟨charLow,charHigh⟩ := char_bounds c
  have small := Int.lt_tmod_of_pos (code*13 + c.toInt8.toInt) (show 0 < 31636373 by decide)
  have large := Int.tmod_lt_of_pos (code*13 + c.toInt8.toInt) (show 0 < 31636373 by decide)
  refine ⟨_,?_,rfl,small,large⟩
  simp only [hashStep,Option.bind_eq_bind]
  rw [checkedInt_eq (by omega) (by omega),Option.bind_some,checkedInt_eq (by omega) (by omega),Option.bind_some,
    checkedInt_eq (by omega) (by omega)]

theorem hash_bounds (chars : List UInt8) (low : -31636373 < code) (high : code < 31636373) :
    ∃ final, chars.foldlM hashStep code = some final ∧ -31636373 < final ∧ final < 31636373 ∧
      (0 ≤ code → (∀ c ∈ chars, c < 128) → 0 ≤ final) := by
  induction chars generalizing code with
  | nil => exact ⟨code,rfl,low,high,fun nonneg _ => nonneg⟩
  | cons c rest ih =>
      obtain ⟨next,taken,value,low',high'⟩ := hashStep_eq c low high
      obtain ⟨final,ended,low'',high'',sign⟩ := ih low' high'
      refine ⟨final,by simp [List.foldlM_cons,taken,ended],low'',high'',fun nonneg ascii => ?_⟩
      refine sign ?_ fun c member => ascii c (List.mem_cons_of_mem _ member)
      have char := (char_nonneg_iff c).mpr (ascii c (by simp))
      rw [value]
      exact Int.tmod_nonneg _ (by omega)

theorem defaultHashingFunction_eq (key : Key) :
    ∃ code, defaultHashingFunction key = some code ∧ ((∀ c ∈ key, c < 128) → 0 ≤ code) := by
  obtain ⟨code,hashed,_,_,sign⟩ := @hash_bounds 0 (key.take (toInt32 key.length).toNat) (by decide) (by decide)
  exact ⟨code,hashed,fun ascii => sign (by decide) fun c member => ascii c (List.mem_of_mem_take member)⟩

theorem selectsBucket_ascii (key : Key) (ascii : ∀ c ∈ key, c < 128) (sized : 1 ≤ bucketsSize) :
    SelectsBucket key bucketsSize := by
  obtain ⟨code,hashed,sign⟩ := defaultHashingFunction_eq key
  exact ⟨code,hashed,Int.tmod_nonneg _ (sign ascii),Int.tmod_lt_of_pos _ (by omega)⟩

theorem hash_negative (c : UInt8) (negative : c.toInt8.toInt < 0) :
    defaultHashingFunction [c] = some c.toInt8.toInt := by
  obtain ⟨low,_⟩ := char_bounds c
  obtain ⟨code,taken,value,_⟩ := @hashStep_eq 0 c (by decide) (by decide)
  rw [Int.zero_mul,Int.zero_add,tmod_of_neg (by omega) (by omega)] at value
  have length : toInt32 1 = 1 := toInt32_eq (by decide) (by decide)
  simp [defaultHashingFunction,length,taken,value]

-- The hash never overflows. The index is in range for all keys over a set of
-- chars exactly if none of the chars is negative.
theorem selects_bucket_iff_ascii (allowed : UInt8 → Prop) :
    (∀ key, (defaultHashingFunction key).isSome) ∧
    ((∀ key : Key, (∀ c ∈ key, c ≠ 0 ∧ allowed c) → ∀ bucketsSize, 1 ≤ bucketsSize → bucketsSize < 2^31 →
        SelectsBucket key bucketsSize) ↔
      ∀ c, c ≠ 0 → allowed c → c < 128) := by
  refine ⟨fun key => ?_,?_,?_⟩
  · obtain ⟨code,hashed,_⟩ := defaultHashingFunction_eq key
    exact Option.isSome_iff_exists.mpr ⟨code,hashed⟩
  · intro valid c ends permitted
    by_contra high
    have negative : c.toInt8.toInt < 0 := Int.not_le.mp fun nonneg => high ((char_nonneg_iff c).mp nonneg)
    obtain ⟨small,_⟩ := char_bounds c
    obtain ⟨code,hashed,low,_⟩ := valid [c] (by simp [ends,permitted]) 200 (by decide) (by decide)
    obtain rfl := Option.some.inj (hashed.symm.trans (hash_negative c negative))
    rw [tmod_of_neg (by omega) (by omega)] at low
    omega
  · intro ascii key chars bucketsSize sized _
    exact selectsBucket_ascii key (fun c member => ascii c (chars c member).1 (chars c member).2) sized

-- The byte 0xff is the char -1, and the index of its bucket is -1.
theorem negative_char_selects_no_bucket : ¬ SelectsBucket [255] 97 := by
  intro ⟨code,hashed,low,_⟩
  obtain rfl := Option.some.inj (hashed.symm.trans (hash_negative 255 (by decide)))
  exact absurd low (by decide)

end TcpProxy.HashMap
