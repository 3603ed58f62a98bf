import AtariTos.Proofs.RegisterBanks
import Mathlib.Logic.Function.Basic

namespace AtariTos

/-- What a program can do to its registers one at a time. -/
inductive RegisterChange where
  | set (register : Register) (value : UInt32)
  | enter (mode : Privilege)

@[ext]
structure RegisterCells where
  data : Fin 8 → UInt32
  address : Fin 7 → UInt32
  pc : UInt32
  sr : UInt16
  usp : UInt32
  ssp : UInt32

namespace RegisterCells

variable {c : RegisterCells}

def zero : RegisterCells :=
  ⟨fun _ => 0, fun _ => 0, 0, 0, 0, 0⟩

def isSupervisor (c : RegisterCells) : Bool :=
  c.sr.toNat.testBit 13

def read (c : RegisterCells) : Register → UInt32
  | .data n => c.data n
  | .address n =>
    if low : n.val < 7 then c.address ⟨n, low⟩ else if c.isSupervisor then c.ssp else c.usp
  | .pc => c.pc
  | .sr => c.sr.toUInt32
  | .usp => c.usp
  | .ssp => c.ssp

def write (c : RegisterCells) (register : Register) (value : UInt32) : RegisterCells :=
  match register with
  | .data n => { c with data := Function.update c.data n value }
  | .address n =>
    if low : n.val < 7 then { c with address := Function.update c.address ⟨n, low⟩ value }
    else if c.isSupervisor then { c with ssp := value }
    else { c with usp := value }
  | .pc => { c with pc := value }
  | .sr => { c with sr := value.toUInt16 }
  | .usp => { c with usp := value }
  | .ssp => { c with ssp := value }

def enter (c : RegisterCells) : Privilege → RegisterCells
  | .supervisor => { c with sr := c.sr ||| 0x2000 }
  | .user => { c with sr := c.sr &&& ~~~0x2000 }

def change (c : RegisterCells) : RegisterChange → RegisterCells
  | .set register value => c.write register value
  | .enter mode => c.enter mode

def changeAll (c : RegisterCells) (changes : List RegisterChange) : RegisterCells :=
  changes.foldl change c

theorem read_enter {register : Register} (notStatus : register ≠ .sr) (notActive : register ≠ .sp)
    (c : RegisterCells) (mode : Privilege) : (c.enter mode).read register = c.read register := by
  cases register with
  | sr => exact absurd rfl notStatus
  | data n | pc | usp | ssp => cases mode <;> rfl
  | address n =>
    have low : n.val < 7 := by
      have other : n ≠ 7 := fun same => notActive (congrArg Register.address same)
      omega
    rw [read, read, dif_pos low, dif_pos low]
    cases mode <;> rfl

theorem testBit_enter (c : RegisterCells) (mode : Privilege) (bit : Nat) :
    (c.enter mode).sr.toNat.testBit bit =
      if bit = 13 then decide (mode = .supervisor) else c.sr.toNat.testBit bit := by
  have power : (0x2000 : UInt16).toNat = 2 ^ 13 := rfl
  have others : (~~~0x2000 : UInt16).toNat = 0xdfff := rfl
  cases mode with
  | supervisor =>
    rw [enter, UInt16.toNat_or, power, Nat.testBit_or, Nat.testBit_two_pow]
    by_cases here : bit = 13 <;> simp [here, eq_comm]
  | user =>
    rw [enter, UInt16.toNat_and, others, Nat.testBit_and]
    by_cases reach : bit < 16
    · have mask : ∀ bit < 16, Nat.testBit 0xdfff bit = decide (bit ≠ 13) := by decide
      rw [mask bit reach]
      by_cases here : bit = 13 <;> simp [here]
    · have short : c.sr.toNat < 2 ^ bit :=
        Nat.lt_of_lt_of_le c.sr.toNat_lt (Nat.pow_le_pow_right (by decide) (by omega))
      have other : bit ≠ 13 := by omega
      rw [Nat.testBit_lt_two_pow short, Bool.false_and, if_neg other]

end RegisterCells

namespace Registers

variable {r : Registers} {register : Register} {value : UInt32} {mode : Privilege}
  {changes : List RegisterChange}

def change (r : Registers) : RegisterChange → Registers
  | .set register value => r.set register value
  | .enter mode => r.enterMode mode

def changeAll (r : Registers) (changes : List RegisterChange) : Registers :=
  changes.foldl change r

def cells (r : Registers) : RegisterCells where
  data n := r.data.get n
  address n := r.address.get n.castSucc
  pc := r.pc
  sr := r.sr.toUInt16
  usp := r.stackPointer .user
  ssp := r.stackPointer .supervisor

theorem sr_set (r : Registers) (register : Register) (value : UInt32) :
    (r.set register value).sr = if register = .sr then value &&& 0xffff else r.sr := by
  cases register with
  | data n | address n | pc => rfl
  | sr => exact r.sr_setStatus value
  | usp | ssp =>
    rw [set, setStackPointer]
    split <;> rfl

theorem sr_enterMode (r : Registers) (mode : Privilege) :
    (r.enterMode mode).sr =
      match mode with
      | .supervisor => (r.sr ||| Privilege.statusBit) &&& 0xffff
      | .user => (r.sr &&& ~~~Privilege.statusBit) &&& 0xffff := by
  cases mode <;> exact r.sr_setStatus _

theorem toNat_and_low (value : UInt32) : (value &&& 0xffff).toNat = value.toNat % 2 ^ 16 := by
  have low : (0xffff : UInt32).toNat = 2 ^ 16 - 1 := rfl
  rw [UInt32.toNat_and, low, Nat.and_two_pow_sub_one_eq_mod]

theorem toUInt16_and_low (value : UInt32) : (value &&& 0xffff).toUInt16 = value.toUInt16 := by
  apply UInt16.toNat_inj.mp
  rw [UInt32.toNat_toUInt16, UInt32.toNat_toUInt16, toNat_and_low, Nat.mod_mod]

theorem sr_lt_change (short : r.sr.toNat < 2 ^ 16) (change : RegisterChange) :
    (r.change change).sr.toNat < 2 ^ 16 := by
  have cut (value : UInt32) : (value &&& 0xffff).toNat < 2 ^ 16 := by
    rw [toNat_and_low]
    exact Nat.mod_lt _ (by decide)
  cases change with
  | set register value =>
    rw [Registers.change, sr_set]
    split
    · exact cut value
    · exact short
  | enter mode =>
    rw [Registers.change, sr_enterMode]
    cases mode <;> exact cut _

theorem sr_lt_changeAll (short : r.sr.toNat < 2 ^ 16) (changes : List RegisterChange) :
    (r.changeAll changes).sr.toNat < 2 ^ 16 := by
  induction changes generalizing r with
  | nil => exact short
  | cons change rest ih => exact ih (sr_lt_change short change)

theorem isSupervisor_cells (r : Registers) :
    r.cells.isSupervisor = decide (r.privilege = .supervisor) := by
  have bit : r.sr.toUInt16.toNat.testBit 13 = r.sr.toNat.testBit 13 := by
    rw [UInt32.toNat_toUInt16, Nat.testBit_mod_two_pow]
    rfl
  exact bit.trans (Privilege.testBit_status r.sr)

theorem sp_eq_cells (r : Registers) :
    r.sp = if r.cells.isSupervisor then r.cells.ssp else r.cells.usp := by
  rw [sp_eq_stackPointer, isSupervisor_cells]
  cases r.privilege <;> rfl

theorem read_cells (short : r.sr.toNat < 2 ^ 16) (register : Register) :
    r.cells.read register = r.get register := by
  cases register with
  | data n | pc | usp | ssp => rfl
  | sr =>
    apply UInt32.toNat_inj.mp
    exact (UInt16.toNat_toUInt32 _).trans (Nat.mod_eq_of_lt short)
  | address n =>
    rw [RegisterCells.read]
    split
    · rfl
    next high =>
      obtain rfl : n = 7 := by omega
      exact r.sp_eq_cells.symm

theorem address_ne_sp (n : Fin 7) : Register.address n.castSucc ≠ .sp := by
  intro same
  have last : n.val = 7 := congrArg Fin.val (Register.address.inj same)
  omega

theorem data_ne_sp (n : Fin 8) : Register.data n ≠ .sp :=
  fun same => by cases same

theorem cells_setStatus (r : Registers) (value : UInt32) :
    (r.setStatus value).cells = { r.cells with sr := value.toUInt16 } := by
  have bank (mode : Privilege) := r.stackPointer_setStatus value mode
  have sr : (r.setStatus value).sr.toUInt16 = value.toUInt16 := by
    rw [sr_setStatus, toUInt16_and_low]
  have pc : (r.setStatus value).pc = r.pc := by
    unfold setStatus
    dsimp only
    split <;> rfl
  refine RegisterCells.ext (funext fun n => ?_) (funext fun n => ?_) pc sr (bank .user)
    (bank .supervisor)
  · exact get_setStatus rfl (data_ne_sp n) r value
  · exact get_setStatus rfl (address_ne_sp n) r value

theorem privilege_setStackPointer (r : Registers) (mode : Privilege) (value : UInt32) :
    (r.setStackPointer mode value).privilege = r.privilege := by
  unfold setStackPointer
  split <;> rfl

theorem stackPointer_setStackPointer (r : Registers) (mode mode' : Privilege) (value : UInt32) :
    (r.setStackPointer mode value).stackPointer mode' =
      if mode' = mode then value else r.stackPointer mode' := by
  have kept := r.privilege_setStackPointer mode value
  unfold stackPointer isActive
  rw [kept]
  unfold setStackPointer isActive
  cases mode <;> cases mode' <;> cases r.privilege <;> simp [sp]

theorem cells_setStackPointer (r : Registers) (mode : Privilege) (value : UInt32) :
    (r.setStackPointer mode value).cells =
      match mode with
      | .user => { r.cells with usp := value }
      | .supervisor => { r.cells with ssp := value } := by
  have bank (mode' : Privilege) := r.stackPointer_setStackPointer mode mode' value
  have others : (r.setStackPointer mode value).data = r.data ∧
      (r.setStackPointer mode value).pc = r.pc ∧ (r.setStackPointer mode value).sr = r.sr ∧
      ∀ n : Fin 7, (r.setStackPointer mode value).address.get n.castSucc =
        r.address.get n.castSucc := by
    unfold setStackPointer
    split
    · refine ⟨rfl, rfl, rfl, fun n => ?_⟩
      exact Vector.getElem_set_ne (by omega) (by omega) (by omega)
    · exact ⟨rfl, rfl, rfl, fun n => rfl⟩
  obtain ⟨data, pc, sr, address⟩ := others
  cases mode <;>
    exact RegisterCells.ext (funext fun n => congrArg (·.get n) data) (funext address) pc
      (congrArg UInt32.toUInt16 sr) (bank .user) (bank .supervisor)

theorem get_set_bank (bank : Vector UInt32 8) (n : Fin 8) (value : UInt32) :
    (bank.set n.val value n.isLt).get = Function.update bank.get n value := by
  funext k
  by_cases same : k = n
  · subst same
    rw [Function.update_self]
    exact Vector.getElem_set_self _
  · have apart : n.val ≠ k.val := fun h => same (Fin.ext h.symm)
    rw [Function.update_of_ne same]
    exact Vector.getElem_set_ne _ _ apart

theorem cells_set (r : Registers) (register : Register) (value : UInt32) :
    (r.set register value).cells = r.cells.write register value := by
  cases register with
  | pc => rfl
  | sr => exact r.cells_setStatus value
  | usp => exact r.cells_setStackPointer .user value
  | ssp => exact r.cells_setStackPointer .supervisor value
  | data n => exact RegisterCells.ext (get_set_bank r.data n value) rfl rfl rfl rfl rfl
  | address n =>
    rw [RegisterCells.write]
    split
    next low =>
      have ne : Register.address n ≠ .sp := address_ne_sp ⟨n, low⟩
      have bank := stackPointer_set rfl ne r value
      have address : (r.address.set n value).get ∘ Fin.castSucc =
          Function.update (r.address.get ∘ Fin.castSucc) ⟨n, low⟩ value := by
        rw [get_set_bank, ← Function.update_comp_eq_of_injective _ fun _ _ => Fin.castSucc_inj.mp]
        rfl
      exact RegisterCells.ext rfl address rfl rfl (bank .user) (bank .supervisor)
    next high =>
      -- what is set is the stack pointer of the privilege at hand
      obtain rfl : n = 7 := by omega
      have active : r.set (.address 7) value = r.setStackPointer r.privilege value := by
        rw [setStackPointer, isActive, decide_eq_true rfl, if_pos rfl]
        rfl
      rw [active, cells_setStackPointer, isSupervisor_cells]
      cases r.privilege <;> rfl

theorem cells_enterMode (r : Registers) (mode : Privilege) :
    (r.enterMode mode).cells = r.cells.enter mode := by
  cases mode with
  | supervisor =>
    rw [enterMode, cells_setStatus, UInt32.toUInt16_or]
    rfl
  | user =>
    rw [enterMode, cells_setStatus, UInt32.toUInt16_and, UInt32.toUInt16_not]
    rfl

theorem cells_changeAll (r : Registers) (changes : List RegisterChange) :
    (r.changeAll changes).cells = r.cells.changeAll changes := by
  induction changes generalizing r with
  | nil => rfl
  | cons change rest ih =>
    have step : (r.change change).cells = r.cells.change change := by
      cases change with
      | set register value => exact r.cells_set register value
      | enter mode => exact r.cells_enterMode mode
    calc (r.changeAll (change :: rest)).cells
      _ = (r.change change).cells.changeAll rest := ih (r.change change)
      _ = r.cells.changeAll (change :: rest) := congrArg (RegisterCells.changeAll · rest) step

/-- Banked registers cannot be told from independent cells. After any sequence of changes to a new
register file every register reads as the cell that it names, A7 as the stack pointer of the
privilege at hand. A change of privilege leaves all cells alone but the S bit. -/
theorem refines_cells (changes : List RegisterChange) :
    (∀ register, (zero.changeAll changes).get register =
      (RegisterCells.zero.changeAll changes).read register) ∧
    ∀ mode,
      (∀ register, register ≠ .sr → register ≠ .sp →
        ((zero.changeAll changes).enterMode mode).get register =
          (zero.changeAll changes).get register) ∧
      ∀ bit, (((zero.changeAll changes).enterMode mode).get .sr).toNat.testBit bit =
        if bit = 13 then decide (mode = .supervisor)
        else ((zero.changeAll changes).get .sr).toNat.testBit bit := by
  have short : (zero.changeAll changes).sr.toNat < 2 ^ 16 := sr_lt_changeAll (by decide) changes
  have shown := read_cells short
  have entered (mode : Privilege) (register : Register) :
      ((zero.changeAll changes).cells.enter mode).read register =
        ((zero.changeAll changes).enterMode mode).get register := by
    rw [← cells_enterMode]
    exact read_cells (sr_lt_change short (.enter mode)) register
  refine ⟨fun register => ?_, fun mode => ⟨fun register notStatus notActive => ?_, fun bit => ?_⟩⟩
  · have start : zero.cells = RegisterCells.zero := by
      refine RegisterCells.ext (funext fun n => ?_) (funext fun n => ?_) rfl rfl rfl rfl
      · exact Vector.getElem_replicate _
      · exact Vector.getElem_replicate _
    rw [← shown, cells_changeAll, start]
  · rw [← entered, ← shown]
    exact RegisterCells.read_enter notStatus notActive _ mode
  · have bits := RegisterCells.testBit_enter (zero.changeAll changes).cells mode bit
    have status (c : RegisterCells) : (c.read .sr).toNat = c.sr.toNat :=
      UInt16.toNat_toUInt32 c.sr
    rw [← entered, ← shown, status, status]
    exact bits

/-- Both stacks are set up before supervisor mode is entered and left again. -/
theorem refines_cells_leaving :
    let inside := zero.changeAll [.set .ssp 0x800, .set .sp 0x1000, .set .sr 0x2700]
    Register.ssp ≠ .sr ∧ Register.ssp ≠ .sp ∧
      inside.get .sp = 0x800 ∧ inside.get .usp = 0x1000 ∧
      (inside.enterMode .user).get .ssp = 0x800 ∧
      ((inside.enterMode .user).get .sr).toNat.testBit 13 = false ∧
      ((inside.enterMode .user).get .sr).toNat.testBit 10 = true := by
  obtain ⟨shown, entered⟩ :=
    refines_cells [.set .ssp 0x800, .set .sp 0x1000, .set .sr 0x2700]
  obtain ⟨kept, bits⟩ := entered .user
  have notStatus : Register.ssp ≠ .sr := by decide
  have notActive : Register.ssp ≠ .sp := by decide
  refine ⟨notStatus, notActive, (shown .sp).trans rfl, (shown .usp).trans rfl,
    (kept .ssp notStatus notActive).trans ((shown .ssp).trans rfl), bits 13, ?_⟩
  rw [bits 10, shown .sr]
  decide

end Registers

end AtariTos
