import TcpProxy.Database.Columns
import TcpProxy.Database.StatementMemory

namespace TcpProxy.DbMysql
open Ownership
open Memory (Block Statement Param SetAt MysqlResult)

inductive Call where
  | clearParameters
  | setInt (parameterIndex : Nat) (value : Int32)
  | setString (parameterIndex : Nat) (str : List UInt8)

def Call.setting : Call → Setting
  | .clearParameters => .clearParameters
  | .setInt parameterIndex value => .setInt parameterIndex value
  | .setString parameterIndex str => .setString parameterIndex str

def Call.program (self : Nat) : Call → Program Block Unit
  | .clearParameters => Memory.clearParameters self
  | .setInt parameterIndex _ => Memory.setInt self parameterIndex
  | .setString parameterIndex _ => Memory.setString self parameterIndex

def Meaning.isString : Meaning → Bool
  | .string _ => true
  | _ => false

-- In memory a parameter's buffer points to a string where a string was set last.
structure Mirrors (n : Nat) (settings : List Setting) (params : List Param) : Prop where
  length : params.length = n
  buffer : ∀ i param, params[i]? = some param → param.buffer.isSome = (lastSetting i settings).isString

variable {n k : Nat} {settings : List Setting} {before after : List Param}

theorem record_index (v : Statement) (k : Nat) :
    v.record.index k = if 1 ≤ k ∧ k ≤ v.list.length then some (k-1) else none := by
  have count : v.record.paramCount = v.list.length := by
    cases there : v.params <;> simp [Statement.record,Statement.list,there]
  rw [Memory.MysqlStmt.index,count]

theorem setAt_mirrors {becomes : Param → Param → Prop} (mirrors : Mirrors n settings before)
    (set : SetAt before after (if 1 ≤ k ∧ k ≤ before.length then some (k-1) else none) becomes)
    (named : setting.parameterIndex = some (k : Int))
    (gives : ∀ old new, becomes old new → new.buffer.isSome = setting.meaning.isString) :
    Mirrors n (settings ++ [setting]) after := by
  have concerns : ∀ i, setting.concerns i = true ↔ k = i+1 := fun i => by
    simp only [Setting.concerns,named,Option.all_some,decide_eq_true_eq]
    omega
  split at set
  · next range =>
      obtain ⟨old,new,_,rfl,becomes⟩ := set
      refine ⟨by rw [List.length_set]; exact mirrors.length,fun i param found => ?_⟩
      rw [lastSetting_concat]
      by_cases own : k = i+1
      · subst own
        rw [Nat.add_sub_cancel,List.getElem?_set_self (by omega)] at found
        cases found
        rw [if_pos ((concerns i).mpr rfl)]
        exact gives _ _ becomes
      · rw [List.getElem?_set_ne (by omega)] at found
        rw [if_neg fun other => own ((concerns i).mp other)]
        exact mirrors.buffer i param found
  · next outside =>
      obtain rfl : after = before := set
      refine ⟨mirrors.length,fun i param found => ?_⟩
      obtain ⟨below,_⟩ := List.getElem?_eq_some_iff.mp found
      rw [lastSetting_concat,if_neg fun own => outside (by have := (concerns i).mp own; omega)]
      exact mirrors.buffer i param found

theorem cleared_mirrors (n : Nat) (settings : List Setting) :
    Mirrors n (settings ++ [.clearParameters]) (List.replicate n .clear) := by
  refine ⟨List.length_replicate,fun i param found => ?_⟩
  obtain ⟨_,rfl⟩ := List.getElem?_eq_some_iff.mp found
  rw [lastSetting_concat,if_pos (show Setting.concerns i .clearParameters = true from rfl),List.getElem_replicate]
  rfl

theorem call_mirrored (v : Statement) (mirrors : Mirrors n settings v.list) (call : Call) :
    Spec v.blocks (call.program v.self) fun _ own => ∃ v' : Statement, v'.self = v.self ∧ own = v'.blocks ∧
      Mirrors n (settings ++ [call.setting]) v'.list := by
  cases call with
  | clearParameters =>
      refine spec_mono (Memory.spec_clearParameters v) fun _ own reached => ?_
      obtain ⟨params,rfl,list⟩ := reached
      refine ⟨v.with params,rfl,rfl,?_⟩
      rw [list,mirrors.length]
      exact cleared_mirrors n settings
  | setInt parameterIndex value =>
      refine spec_mono (Memory.spec_setInt v parameterIndex) fun _ own reached => ?_
      obtain ⟨params,rfl,set⟩ := reached
      rw [record_index] at set
      exact ⟨v.with params,rfl,rfl,setAt_mirrors mirrors set rfl fun _ new becomes => by rw [becomes.2]; rfl⟩
  | setString parameterIndex str =>
      refine spec_mono (Memory.spec_setString v parameterIndex) fun _ own reached => ?_
      obtain ⟨params,rfl,set⟩ := reached
      rw [record_index] at set
      refine ⟨v.with params,rfl,rfl,setAt_mirrors mirrors set rfl fun _ new becomes => ?_⟩
      obtain ⟨p,_,buffer⟩ := becomes
      rw [buffer]
      rfl

theorem calls_mirrored (calls : List Call) (v : Statement) (mirrors : Mirrors n settings v.list) :
    Spec v.blocks (calls.forM (Call.program v.self)) fun _ own => ∃ v' : Statement, v'.self = v.self ∧ own = v'.blocks ∧
      Mirrors n (settings ++ calls.map Call.setting) v'.list := by
  induction calls generalizing v settings with
  | nil => exact spec_pure ⟨v,rfl,rfl,by rwa [List.map_nil,List.append_nil]⟩
  | cons call rest ih =>
      refine spec_bind (call_mirrored v mirrors call) fun _ own reached => ?_
      obtain ⟨v',self,rfl,next⟩ := reached
      have later := ih v' next
      rw [self] at later
      refine spec_mono later fun _ own reached => ?_
      rwa [List.map_cons,← List.singleton_append,← List.append_assoc]

def prepared (n : Nat) (calls : List Call) : Program Block (Option Nat) := do
  let st ← Memory.createStatement (.prepared n)
  match st with
  | some self => calls.forM (Call.program self)
  | none => return none
  return st

-- The memory of a statement and its values tell the same of it: the buffers that
-- mysql_stmt_execute takes strings from are those of the parameters that stand
-- for a string.
theorem strings_bound_alike (n : Nat) (calls : List Call) :
    let s := Machine.run apply (createStatement n) (calls.map Call.setting)
    Spec 0 (prepared n calls) fun st own => ∃ v : Statement, st = some v.self ∧ own = v.blocks ∧
      v.list.map (fun param => param.buffer.isSome) =
        (boundParameters s).map fun bind => (denotes s bind).any Meaning.isString := by
  intro s
  refine spec_bind (Memory.spec_createStatement (.prepared n)) fun st own reached => ?_
  obtain ⟨v,rfl,rfl,list⟩ := reached
  have start : Mirrors n [] v.list := by
    rw [list]
    refine ⟨List.length_replicate,fun i param found => ?_⟩
    obtain ⟨_,rfl⟩ := List.getElem?_eq_some_iff.mp found
    rw [List.getElem_replicate]
    rfl
  refine spec_bind (calls_mirrored calls v start) fun _ own reached => spec_pure ?_
  obtain ⟨v',self,rfl,mirrors⟩ := reached
  refine ⟨v',by rw [self],rfl,?_⟩
  have bound := (settings_valid n (calls.map Call.setting)).bound
  have values : (boundParameters s).map (fun bind => (denotes s bind).any Meaning.isString) =
      (List.range n).map fun i => (lastSetting i (calls.map Call.setting)).isString := by
    have mapped := congrArg (List.map fun meaning : Option Meaning => meaning.any Meaning.isString) bound
    simpa only [List.map_map,Function.comp_def,Option.any_some] using mapped
  rw [values]
  refine List.ext_getElem (by simp [mirrors.length]) fun i below _ => ?_
  rw [List.getElem_map,List.getElem_map,List.getElem_range]
  exact mirrors.buffer i _ (List.getElem?_eq_getElem _)

-- A column that one of the two looks up is one that the other reads.
theorem columns_read_alike (s : ResultSet) (stmt fields parameterIndex w : Nat) (isUnsigned : Bool) :
    getNumber s parameterIndex w isUnsigned = match MysqlResult.index ⟨stmt,s.fields.length,fields⟩ parameterIndex with
      | some i => if (s.data i).isNull then 0 else readNumber (s.data i).union isUnsigned w
      | none => 0 := by
  unfold getNumber MysqlResult.index
  by_cases inside : 1 ≤ parameterIndex ∧ parameterIndex ≤ s.fields.length
  · rw [if_pos (by omega),if_pos inside]
    have index : ((parameterIndex : Int)-1).toNat = parameterIndex-1 := by omega
    simp only [index]
  · rw [if_neg (by omega),if_neg inside]

end TcpProxy.DbMysql
