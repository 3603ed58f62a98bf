import AtariTos.Proofs.CallMemory
import AtariTos.Session
import Mathlib.Data.Nat.Bitwise

namespace AtariTos

namespace Privilege

theorem testBit_status (sr : UInt32) :
    sr.toNat.testBit 13 = decide (ofStatus sr = .supervisor) := by
  have power : statusBit.toNat = 2 ^ 13 := rfl
  have masked : (sr &&& statusBit).toNat = (sr.toNat.testBit 13).toNat * 2 ^ 13 := by
    rw [UInt32.toNat_and, power, Nat.and_two_pow]
  cases bit : sr.toNat.testBit 13 with
  | false =>
    have zero : sr &&& statusBit = 0 := by
      apply UInt32.toNat_inj.mp
      rw [masked, bit]
      rfl
    simp [ofStatus, zero]
  | true =>
    have nonzero : sr &&& statusBit ≠ 0 := by
      intro zero
      rw [zero, bit] at masked
      cases masked
    simp [ofStatus, nonzero]

theorem ofStatus_and_not_statusBit (sr : UInt32) :
    ofStatus ((sr &&& ~~~statusBit) &&& 0xffff) = .user := by
  have cleared : (sr &&& ~~~statusBit) &&& 0xffff &&& statusBit = 0 := by
    have masked : ~~~statusBit &&& ((0xffff : UInt32) &&& statusBit) = 0 := by decide
    rw [UInt32.and_assoc, UInt32.and_assoc, masked, UInt32.and_zero]
  rw [ofStatus, cleared, if_neg (by decide)]

end Privilege

namespace Register

/-- Data and address registers. -/
def isGeneral : Register → Bool
  | data _ => true
  | address _ => true
  | _ => false

theorem isGeneral_of_mem {register : Register} (h : register ∈ preservedRegisters) :
    register.isGeneral = true ∧ register ≠ sp := by
  revert register
  decide

end Register

namespace Registers

variable {r : Registers} {register other : Register} {value : UInt32} {mode : Privilege}
  {values : List (Register × UInt32)}

theorem get_set_self (general : register.isGeneral = true) (r : Registers) (value : UInt32) :
    (r.set register value).get register = value := by
  cases register with
  | data n | address n => simp [set, get]
  | pc | sr | usp | ssp => cases general

theorem get_set_of_ne (general : register.isGeneral = true) (general' : other.isGeneral = true)
    (ne : register ≠ other) (r : Registers) (value : UInt32) :
    (r.set register value).get other = r.get other := by
  cases register with
  | pc | sr | usp | ssp => cases general
  | data n =>
    cases other with
    | pc | sr | usp | ssp => cases general'
    | address k => rfl
    | data k =>
      have apart : n.val ≠ k.val := fun same => ne (congrArg Register.data (Fin.ext same))
      simp [set, get, Vector.getElem_set_ne, apart]
  | address n =>
    cases other with
    | pc | sr | usp | ssp => cases general'
    | data k => rfl
    | address k =>
      have apart : n.val ≠ k.val := fun same => ne (congrArg Register.address (Fin.ext same))
      simp [set, get, Vector.getElem_set_ne, apart]

theorem sp_eq_get (r : Registers) : r.sp = r.get .sp :=
  rfl

theorem sp_eq_stackPointer (r : Registers) : r.sp = r.stackPointer r.privilege := by
  simp [stackPointer, isActive]

theorem stackPointer_set (general : register.isGeneral = true) (ne : register ≠ .sp)
    (r : Registers) (value : UInt32) (mode : Privilege) :
    (r.set register value).stackPointer mode = r.stackPointer mode := by
  have here : (r.set register value).sp = r.sp := get_set_of_ne general rfl ne r value
  have there : (r.set register value).privilege = r.privilege ∧
      (r.set register value).inactiveSp = r.inactiveSp := by
    cases register with
    | data n | address n => exact ⟨rfl, rfl⟩
    | pc | sr | usp | ssp => cases general
  rw [stackPointer, stackPointer, isActive, isActive, here, there.1, there.2]

theorem privilege_set (general : register.isGeneral = true) (r : Registers) (value : UInt32) :
    (r.set register value).privilege = r.privilege := by
  cases register with
  | data n | address n => rfl
  | pc | sr | usp | ssp => cases general

theorem get_set_pc (general : register.isGeneral = true) (r : Registers) (value : UInt32) :
    (r.set .pc value).get register = r.get register := by
  cases register with
  | data n | address n => rfl
  | pc | sr | usp | ssp => cases general

theorem stackPointer_set_sp (r : Registers) (value : UInt32) :
    (r.set .sp value).stackPointer r.privilege = value := by
  have here : (r.set .sp value).get .sp = value := get_set_self rfl r value
  have kept : (r.set .sp value).privilege = r.privilege := privilege_set rfl r value
  rw [← kept, ← sp_eq_stackPointer, sp_eq_get, here]

theorem stackPointer_set_sp_of_ne {mode : Privilege} {r : Registers} (other : mode ≠ r.privilege)
    (value : UInt32) : (r.set .sp value).stackPointer mode = r.stackPointer mode := by
  have kept : (r.set .sp value).privilege = r.privilege := privilege_set rfl r value
  have inactive : (r.set .sp value).inactiveSp = r.inactiveSp := rfl
  simp only [stackPointer, isActive, kept, inactive, other.symm, decide_false, Bool.false_eq_true,
    if_false]

theorem read_setAll {α : Type} (read : Registers → α)
    (keeps : ∀ e ∈ values, ∀ r : Registers, read (r.set e.1 e.2) = read r) (r : Registers) :
    read (r.setAll values) = read r := by
  induction values generalizing r with
  | nil => rfl
  | cons first rest ih =>
    have later := ih (fun e he => keeps e (List.mem_cons_of_mem _ he)) (r.set first.1 first.2)
    exact later.trans (keeps first List.mem_cons_self r)

theorem get_setAll_of_notMem (general : ∀ e ∈ values, e.1.isGeneral = true)
    (apart : ∀ e ∈ values, e.1 ≠ register) (here : register.isGeneral = true) (r : Registers) :
    (r.setAll values).get register = r.get register :=
  read_setAll (·.get register)
    (fun e he r => get_set_of_ne (general e he) here (apart e he) r e.2) r

theorem get_setAll_of_mem (general : ∀ e ∈ values, e.1.isGeneral = true)
    (nodup : (values.map Prod.fst).Nodup) (member : (register, value) ∈ values) (r : Registers) :
    (r.setAll values).get register = value := by
  induction values generalizing r with
  | nil => cases member
  | cons first rest ih =>
    have general' : ∀ e ∈ rest, e.1.isGeneral = true :=
      fun e he => general e (List.mem_cons_of_mem _ he)
    obtain ⟨fresh, nodup'⟩ := List.nodup_cons.mp nodup
    rcases List.mem_cons.mp member with rfl | later
    · have here := general _ List.mem_cons_self
      have apart : ∀ e ∈ rest, e.1 ≠ register := by
        intro e he same
        have listed : e.1 ∈ rest.map Prod.fst := List.mem_map_of_mem he
        exact fresh (same ▸ listed)
      have kept := get_setAll_of_notMem general' apart here (r.set register value)
      exact kept.trans (get_set_self here r value)
    · exact ih general' nodup' later (r.set first.1 first.2)

theorem stackPointer_setAll (general : ∀ e ∈ values, e.1.isGeneral = true)
    (apart : ∀ e ∈ values, e.1 ≠ .sp) (r : Registers) (mode : Privilege) :
    (r.setAll values).stackPointer mode = r.stackPointer mode :=
  read_setAll (·.stackPointer mode)
    (fun e he r => stackPointer_set (general e he) (apart e he) r e.2 mode) r

theorem sr_setStatus (r : Registers) (value : UInt32) :
    (r.setStatus value).sr = value &&& 0xffff := by
  unfold setStatus
  dsimp only
  split <;> rfl

theorem privilege_setStatus (r : Registers) (value : UInt32) :
    (r.setStatus value).privilege = .ofStatus (value &&& 0xffff) := by
  unfold setStatus
  dsimp only
  split <;> rfl

theorem privilege_enterMode (r : Registers) (mode : Privilege) :
    (r.enterMode mode).privilege = mode := by
  cases mode with
  | user => rw [enterMode, privilege_setStatus, Privilege.ofStatus_and_not_statusBit]
  | supervisor => rw [enterMode, privilege_setStatus, Privilege.ofStatus_or_statusBit]

theorem stackPointer_setStatus (r : Registers) (value : UInt32) (mode : Privilege) :
    (r.setStatus value).stackPointer mode = r.stackPointer mode := by
  have after := r.privilege_setStatus value
  unfold stackPointer isActive
  rw [after]
  unfold setStatus
  dsimp only
  generalize Privilege.ofStatus (value &&& 0xffff) = next
  cases mode <;> cases next <;> cases r.privilege <;> simp [sp]

theorem get_setStatus (general : register.isGeneral = true) (ne : register ≠ .sp) (r : Registers)
    (value : UInt32) : (r.setStatus value).get register = r.get register := by
  unfold setStatus
  dsimp only
  split
  · cases register <;> first | rfl | cases general
  · cases register with
    | pc | sr | usp | ssp => cases general
    | data n => rfl
    | address n =>
      have apart : (7 : Nat) ≠ n.val := fun same =>
        ne (congrArg Register.address (Fin.ext same.symm))
      simp [get, Vector.getElem_set_ne, apart]

theorem stackPointer_enterMode (r : Registers) (mode mode' : Privilege) :
    (r.enterMode mode).stackPointer mode' = r.stackPointer mode' := by
  cases mode <;> exact r.stackPointer_setStatus _ _

theorem get_enterMode (general : register.isGeneral = true) (ne : register ≠ .sp) (r : Registers)
    (mode : Privilege) : (r.enterMode mode).get register = r.get register := by
  cases mode <;> exact get_setStatus general ne r _

end Registers

namespace Session

variable {r caller : Registers} {waiting : Suspension} {register : Register}

theorem toList_zip_preserved (f : Register → UInt32) :
    (preservedRegisters.zip (preservedRegisters.map f)).toList =
      preservedRegisters.toList.map fun register => (register, f register) := by
  simp [preservedRegisters]

/-- What a caller gets back that has waited with registers saved. -/
structure Restored (r caller : Registers) (pc : UInt32) (after : Registers) : Prop where
  pc : after.pc = pc
  privilege : after.privilege = caller.privilege
  preserved : ∀ register ∈ preservedRegisters, after.get register = caller.get register
  others : ∀ register, register.isGeneral = true → register ≠ .sp →
    register ∉ preservedRegisters → after.get register = r.get register
  supervisor : after.stackPointer .supervisor = r.sp + 4
  user : after.stackPointer .user = r.stackPointer .user

theorem restored_restore (supervisor : r.privilege = .supervisor)
    (saved : waiting.saved = preservedRegisters.map caller.get)
    (mode : waiting.mode = caller.privilege) (pc : UInt32) :
    Restored r caller pc (restore r waiting pc) := by
  have values := toList_zip_preserved caller.get
  rw [← saved] at values
  have general : ∀ e ∈ (preservedRegisters.zip waiting.saved).toList, e.1.isGeneral = true ∧
      e.1 ≠ .sp ∧ e.1 ∈ preservedRegisters := by
    intro e he
    rw [values] at he
    obtain ⟨register, member, rfl⟩ := List.mem_map.mp he
    have member' : register ∈ preservedRegisters := Vector.mem_toList_iff.mp member
    exact ⟨(Register.isGeneral_of_mem member').1, (Register.isGeneral_of_mem member').2, member'⟩
  have plain : ∀ e ∈ (preservedRegisters.zip waiting.saved).toList, e.1.isGeneral = true :=
    fun e he => (general e he).1
  have offStack : ∀ e ∈ (preservedRegisters.zip waiting.saved).toList, e.1 ≠ .sp :=
    fun e he => (general e he).2.1
  have kept : ∀ mode, (restore r waiting pc).stackPointer mode =
      (r.set .sp (r.sp + 4)).stackPointer mode := fun mode =>
    (Registers.stackPointer_enterMode _ _ mode).trans
      (Registers.stackPointer_setAll plain offStack _ mode)
  refine ⟨rfl, ?_, fun register member => ?_, fun register here ne other => ?_, ?_, ?_⟩
  · exact (Registers.privilege_enterMode _ waiting.mode).trans mode
  · obtain ⟨here, ne⟩ := Register.isGeneral_of_mem member
    have nodup : ((preservedRegisters.zip waiting.saved).toList.map Prod.fst).Nodup := by
      have keys : preservedRegisters.toList.map (Prod.fst ∘ fun register =>
          (register, caller.get register)) = preservedRegisters.toList := List.map_id _
      rw [values, List.map_map, keys]
      decide
    have listed : (register, caller.get register) ∈
        (preservedRegisters.zip waiting.saved).toList := by
      rw [values]
      exact List.mem_map.mpr ⟨register, Vector.mem_toList_iff.mpr member, rfl⟩
    calc (restore r waiting pc).get register
      _ = _ := Registers.get_set_pc here _ pc
      _ = _ := Registers.get_enterMode here ne _ _
      _ = _ := Registers.get_setAll_of_mem plain nodup listed _
  · have apart : ∀ e ∈ (preservedRegisters.zip waiting.saved).toList, e.1 ≠ register :=
      fun e he same => other (same ▸ (general e he).2.2)
    calc (restore r waiting pc).get register
      _ = _ := Registers.get_set_pc here _ pc
      _ = _ := Registers.get_enterMode here ne _ _
      _ = _ := Registers.get_setAll_of_notMem plain apart here _
      _ = _ := Registers.get_set_of_ne rfl here ne.symm r _
  · rw [kept, ← supervisor, Registers.stackPointer_set_sp]
  · rw [kept, Registers.stackPointer_set_sp_of_ne (by rw [supervisor]; decide)]

end Session

end AtariTos
