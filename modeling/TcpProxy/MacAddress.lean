import Mathlib.Logic.Function.Basic
import TcpProxy.Utils

namespace TcpProxy.MacAddress

-- The bytes of a C string, its NUL left out.
abbrev Text := List UInt8

abbrev Memory := Nat → UInt8

structure Buffers where
  anybuffer : Nat → Memory
  idx : Nat

def Buffers.advance (s : Buffers) : Buffers := {s with idx := (s.idx+1) % 20}

def Buffers.store (s : Buffers) (bytes : Memory) : Buffers :=
  {s with anybuffer := Function.update s.anybuffer s.idx bytes}

-- The text is returned together with the buffer that it was printed to. It
-- stays there until twenty more have been used.
def Buffers.sprintf (s : Buffers) (text : Text) : Text × Buffers :=
  let s := s.advance
  (text,s.store fun i => if i < text.length then text.getD i 0 else if i = text.length then 0 else s.anybuffer s.idx i)

def hexDigit (n : Nat) : UInt8 := if n < 10 then UInt8.ofNat (48+n) else UInt8.ofNat (87+n)

-- "%02x"
def hexByte (byte : UInt8) : Text := [hexDigit (byte.toNat/16),hexDigit (byte.toNat % 16)]

def printEther (s : Buffers) (mac : Memory) : Text × Buffers :=
  s.sprintf (hexByte (mac 0) ++ 58 :: hexByte (mac 1) ++ 58 :: hexByte (mac 2) ++
    58 :: hexByte (mac 3) ++ 58 :: hexByte (mac 4) ++ 58 :: hexByte (mac 5))

def printMac (s : Buffers) (mac : Memory) : Text × Buffers :=
  s.sprintf (hexByte (mac 0) ++ hexByte (mac 1) ++ hexByte (mac 2) ++ hexByte (mac 3) ++ hexByte (mac 4) ++ hexByte (mac 5))

def digitValue (c : UInt8) : Option Int :=
  if 48 ≤ c ∧ c ≤ 57 then some (c.toNat-48)
  else if 65 ≤ c ∧ c ≤ 70 then some (c.toNat-65+10)
  else if 97 ≤ c ∧ c ≤ 102 then some (c.toNat-97+10)
  else none

-- for (j = k * 2, dot = 0; j < k * 2 + 2; j++)
def hexPair (str : Text) (k : Nat) : Option Int :=
  [k*2,k*2+1].foldlM (fun dot j => (digitValue (str.getD j 0)).map fun digit => dot*16+digit) 0

-- for (k = 0; k < 6; k++), in at most `left` rounds. A round that stores a byte
-- has counted k up once itself.
def hexForm (str : Text) : Nat → Nat → Memory → Bool × Memory
  | 0,_,ptr => (true,ptr)
  | left+1,k,ptr =>
    if k < 6 then
      match hexPair str k with
      | some dot => hexForm str left (k+2) (Function.update ptr k (UInt8.ofInt dot))
      | none => (false,ptr)
    else (true,ptr)

-- for (j = k = dot = 0; (j < len) && (k < 6); j++)
def colonForm : Text → Nat → Int → Memory → Option (Nat × Int) × Memory
  | [],k,dot,ptr => (some (k,dot),ptr)
  | c :: rest,k,dot,ptr =>
    if k < 6 then
      match digitValue c with
      | some digit => colonForm rest k (toInt32 (toInt32 (dot*16)+digit)) ptr
      | none =>
        if c = 58 then colonForm rest (k+1) 0 (Function.update ptr k (UInt8.ofInt dot))
        else (none,ptr)
    else (some (k,dot),ptr)

def decode (str : Text) (len : Int) (dot : Nat) (ptr : Memory) : Bool × Memory :=
  if dot = 0 then hexForm str 6 0 ptr
  else match colonForm (str.take len.toNat) 0 0 ptr with
    | (some (k,dot),ptr) => if k ≠ 5 then (false,ptr) else (true,Function.update ptr k (UInt8.ofInt dot))
    | (none,ptr) => (false,ptr)

-- The bytes that a call writes to: the caller's, or those of the next buffer.
def Buffers.destination (s : Buffers) : Option Memory → Memory
  | some ptr => ptr
  | none => s.anybuffer s.advance.idx

def text2macaddr (s : Buffers) (str : Text) (macaddr : Option Memory) : Bool × Memory × Buffers :=
  let len := toInt32 str.length
  let dot := (str.take len.toNat).count 58
  if dot ≠ 0 ∧ dot ≠ 5 then (false,s.destination macaddr,s)
  else if dot = 0 ∧ len ≠ 12 then (false,s.destination macaddr,s)
  else
    let decoded := decode str len dot (s.destination macaddr)
    (decoded.1,decoded.2,match macaddr with
      | some _ => s
      | none => s.advance.store decoded.2)

def Reads (mac : Memory) (printed : Text × Buffers) (macaddr : Option Memory) : Prop :=
  let read := text2macaddr printed.2 printed.1 macaddr
  read.1 = true ∧ ∀ i, read.2.1 i = if i < 6 then mac i else printed.2.destination macaddr i

def RoundTrips (s : Buffers) (mac : Memory) (macaddr : Option Memory) : Prop :=
  Reads mac (printEther s mac) macaddr ∧ Reads mac (printMac s mac) macaddr

theorem digitValue_hexDigit : ∀ n < 16, digitValue (hexDigit n) = some (n : Int) := by decide

theorem hexDigit_not_colon : ∀ n < 16, hexDigit n ≠ 58 := by decide

theorem halves (byte : UInt8) : byte.toNat/16 < 16 ∧ byte.toNat % 16 < 16 ∧
    ((byte.toNat/16 : Nat) : Int)*16 + (byte.toNat % 16 : Nat) = byte.toNat := by
  have bound := byte.toNat_lt
  omega

@[simp] theorem ofInt_toNat (byte : UInt8) : UInt8.ofInt byte.toNat = byte := by
  refine UInt8.toNat_inj.mp ?_
  have bound := byte.toNat_lt
  simp [UInt8.ofInt]
  omega

theorem colonForm_byte (byte : UInt8) (rest : Text) (k : Nat) (room : k < 6) (ptr : Memory) :
    colonForm (hexByte byte ++ rest) k 0 ptr = colonForm rest k byte.toNat ptr := by
  obtain ⟨high,low,whole⟩ := halves byte
  have bound := byte.toNat_lt
  simp only [hexByte,List.cons_append,List.nil_append,colonForm,if_pos room,digitValue_hexDigit _ high,
    digitValue_hexDigit _ low]
  have zero : toInt32 (0*16) = 0 := toInt32_eq (by decide) (by decide)
  rw [zero,Int.zero_add,toInt32_eq (x := (byte.toNat/16 : Nat)) (by omega) (by omega),
    toInt32_eq (x := ((byte.toNat/16 : Nat) : Int)*16) (by omega) (by omega),whole,toInt32_eq (by omega) (by omega)]

theorem colonForm_field (byte : UInt8) (rest : Text) (k : Nat) (room : k < 6) (ptr : Memory) :
    colonForm (hexByte byte ++ 58 :: rest) k 0 ptr = colonForm rest (k+1) 0 (Function.update ptr k byte) := by
  have colon : digitValue 58 = none := by decide
  rw [colonForm_byte byte _ k room,colonForm,if_pos room,colon]
  dsimp only
  rw [if_pos rfl,ofInt_toNat]

theorem count_hexByte (byte : UInt8) : (hexByte byte).count 58 = 0 := by
  obtain ⟨high,low,_⟩ := halves byte
  refine List.count_eq_zero.mpr fun member => ?_
  rcases List.mem_cons.mp member with one | rest
  · exact hexDigit_not_colon _ high one.symm
  · exact hexDigit_not_colon _ low (List.mem_singleton.mp rest).symm

theorem colonForm_ether (mac ptr : Memory) :
    colonForm (hexByte (mac 0) ++ 58 :: (hexByte (mac 1) ++ 58 :: (hexByte (mac 2) ++ 58 :: (hexByte (mac 3) ++
      58 :: (hexByte (mac 4) ++ 58 :: hexByte (mac 5)))))) 0 0 ptr = (some (5,((mac 5).toNat : Int)),
        Function.update (Function.update (Function.update (Function.update (Function.update ptr 0 (mac 0)) 1 (mac 1))
          2 (mac 2)) 3 (mac 3)) 4 (mac 4)) := by
  rw [colonForm_field _ _ _ (by decide),colonForm_field _ _ _ (by decide),colonForm_field _ _ _ (by decide),
    colonForm_field _ _ _ (by decide),colonForm_field _ _ _ (by decide)]
  have last := colonForm_byte (mac 5) [] 5 (by decide)
  simp only [List.append_nil] at last
  exact last _

theorem text2macaddr_decode (s : Buffers) (macaddr : Option Memory) (small : str.length ≤ 17)
    (form : str.count 58 = 5 ∨ str.count 58 = 0 ∧ str.length = 12) :
    ∃ after, text2macaddr s str macaddr = ((decode str str.length (str.count 58) (s.destination macaddr)).1,
      (decode str str.length (str.count 58) (s.destination macaddr)).2,after) := by
  have length : toInt32 str.length = str.length := toInt32_eq (by omega) (by omega)
  have whole : str.take (str.length : Int).toNat = str := List.take_length
  have known : ¬ (str.count 58 ≠ 0 ∧ str.count 58 ≠ 5) := by omega
  have sized : ¬ (str.count 58 = 0 ∧ (str.length : Int) ≠ 12) := by omega
  unfold text2macaddr
  dsimp only
  rw [length,whole,if_neg known,if_neg sized]
  exact ⟨_,rfl⟩

theorem ether_reads (s : Buffers) (mac : Memory) (macaddr : Option Memory) : Reads mac (printEther s mac) macaddr := by
  obtain ⟨str,printed,print,text⟩ : ∃ str printed, printEther s mac = (str,printed) ∧ str = hexByte (mac 0) ++
      58 :: (hexByte (mac 1) ++ 58 :: (hexByte (mac 2) ++ 58 :: (hexByte (mac 3) ++ 58 :: (hexByte (mac 4) ++
        58 :: hexByte (mac 5))))) := ⟨_,_,rfl,by simp⟩
  have size : str.length = 17 := by simp [text,hexByte]
  have colons : str.count 58 = 5 := by
    rw [text]
    simp only [List.count_append,List.count_cons,count_hexByte]
    decide
  obtain ⟨after,read⟩ := text2macaddr_decode printed macaddr (by omega) (.inl colons)
  have decoded : decode str str.length 5 (printed.destination macaddr) =
      (true,Function.update (Function.update (Function.update (Function.update (Function.update (Function.update
        (printed.destination macaddr) 0 (mac 0)) 1 (mac 1)) 2 (mac 2)) 3 (mac 3)) 4 (mac 4)) 5 (mac 5)) := by
    have whole : str.take (str.length : Int).toNat = str := List.take_length
    rw [decode,if_neg (by decide),whole,text,colonForm_ether]
    dsimp only
    rw [if_neg (by decide),ofInt_toNat]
  rw [Reads,print,read,colons,decoded]
  refine ⟨rfl,fun i => ?_⟩
  by_cases inside : i < 6
  · rw [if_pos inside]
    obtain rfl | rfl | rfl | rfl | rfl | rfl : i = 0 ∨ i = 1 ∨ i = 2 ∨ i = 3 ∨ i = 4 ∨ i = 5 := by omega
    all_goals rfl
  · rw [if_neg inside]
    dsimp only
    rw [Function.update_of_ne (by omega),Function.update_of_ne (by omega),Function.update_of_ne (by omega),
      Function.update_of_ne (by omega),Function.update_of_ne (by omega),Function.update_of_ne (by omega)]

theorem hexPair_byte {byte : UInt8} (high : str.getD (k*2) 0 = hexDigit (byte.toNat/16))
    (low : str.getD (k*2+1) 0 = hexDigit (byte.toNat % 16)) : hexPair str k = some (byte.toNat : Int) := by
  obtain ⟨small,small',whole⟩ := halves byte
  simp only [hexPair,List.foldlM_cons,List.foldlM_nil,high,low,digitValue_hexDigit _ small,digitValue_hexDigit _ small']
  simpa using whole

-- The form without colons stores every second byte.
theorem mac_stores (s : Buffers) (mac : Memory) (macaddr : Option Memory) :
    ∃ after, text2macaddr (printMac s mac).2 (printMac s mac).1 macaddr = (true,Function.update (Function.update
      (Function.update ((printMac s mac).2.destination macaddr) 0 (mac 0)) 2 (mac 2)) 4 (mac 4),after) := by
  obtain ⟨str,printed,print,text⟩ : ∃ str printed, printMac s mac = (str,printed) ∧ str = hexByte (mac 0) ++
      (hexByte (mac 1) ++ (hexByte (mac 2) ++ (hexByte (mac 3) ++ (hexByte (mac 4) ++ hexByte (mac 5))))) :=
    ⟨_,_,rfl,by simp⟩
  have size : str.length = 12 := by simp [text,hexByte]
  have colons : str.count 58 = 0 := by
    rw [text]
    simp only [List.count_append,count_hexByte]
  obtain ⟨after,read⟩ := text2macaddr_decode printed macaddr (by omega) (.inr ⟨colons,size⟩)
  have zero : hexPair str 0 = some ((mac 0).toNat : Int) := hexPair_byte (by rw [text]; rfl) (by rw [text]; rfl)
  have two : hexPair str 2 = some ((mac 2).toNat : Int) := hexPair_byte (by rw [text]; rfl) (by rw [text]; rfl)
  have four : hexPair str 4 = some ((mac 4).toNat : Int) := hexPair_byte (by rw [text]; rfl) (by rw [text]; rfl)
  refine ⟨after,?_⟩
  rw [print]
  dsimp only
  rw [read,colons,decode,if_pos rfl]
  simp [hexForm,zero,two,four]

-- The index of the form without colons is counted up twice in each round.
theorem mac_round_trips_iff (s : Buffers) (mac : Memory) (macaddr : Option Memory) :
    RoundTrips s mac macaddr ↔ ∀ i, i = 1 ∨ i = 3 ∨ i = 5 → (printMac s mac).2.destination macaddr i = mac i := by
  obtain ⟨after,read⟩ := mac_stores s mac macaddr
  unfold RoundTrips
  rw [and_iff_right (ether_reads s mac macaddr),Reads,read]
  constructor
  · rintro ⟨_,bytes⟩ i odd
    have stored := bytes i
    rw [if_pos (by omega)] at stored
    dsimp only at stored
    rwa [Function.update_of_ne (by omega),Function.update_of_ne (by omega),Function.update_of_ne (by omega)] at stored
  · intro before
    refine ⟨rfl,fun i => ?_⟩
    dsimp only
    by_cases even : i = 0 ∨ i = 2 ∨ i = 4
    · rw [if_pos (by omega)]
      obtain rfl | rfl | rfl := even
      all_goals rfl
    · rw [Function.update_of_ne (by omega),Function.update_of_ne (by omega),Function.update_of_ne (by omega)]
      split
      · exact before i (by omega)
      · rfl

theorem hex_form_skips_bytes :
    ¬ RoundTrips ⟨fun _ _ => 0,0⟩ (fun i => UInt8.ofNat (i+1)) (some fun _ => 0) := by
  rintro ⟨_,_,bytes⟩
  obtain ⟨after,read⟩ := mac_stores ⟨fun _ _ => 0,0⟩ (fun i => UInt8.ofNat (i+1)) (some fun _ => 0)
  rw [read] at bytes
  have second : (0 : UInt8) = UInt8.ofNat (1+1) := bytes 1
  exact absurd second (by decide)

end TcpProxy.MacAddress
