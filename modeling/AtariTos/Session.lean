import AtariTos.Processor.Core
import AtariTos.Program.Loaded
import AtariTos.Trap

namespace AtariTos

structure Session where
  ramTop : UInt32 := MemoryMap.cartridge
  system : System
  program : Option LoadedProgram := none

namespace Session

/-- A session whose drive has its root in a directory of the host. -/
def create (host : HostTree) (working : HostPath) (root : String) (ramTop : UInt32) :
    Except PathRefusal Session :=
  match Drive.mount host working root with
  | .error cause => .error cause
  | .ok drive => .ok { ramTop, system := { kernel := { drive }, host } }

/-- Loads a program. What was loaded before is gone, also when this fails; guest memory is empty
then. -/
def load (s : Session) (file : Bytes) (args : List String) :
    Except LoadFailure LoadedProgram × Session :=
  match LoadedProgram.ofFile file args s.ramTop with
  | .error cause => (.error cause, { s with program := none, system.memory := .empty })
  | .ok (program, memory) =>
    (.ok program,
      { s with
        program := some program
        system := { s.system with memory, kernel := s.system.kernel.forgetProcess program.heap } })

def launch (s : Session) : Except Stop Unit × Session :=
  let pc := s.system.registers.pc
  match s.program with
  | none => (.error ⟨pc, .nothingLoaded⟩, s)
  | some program =>
    match program.launch s.system.registers s.system.memory with
    | (.error fault, memory) => (.error ⟨pc, .fault fault⟩, { s with system.memory := memory })
    | (.ok registers, memory) =>
      (.ok (), { s with system := { s.system with registers, memory } })

/-- Serves a trap on a host that may break off the transfer that the call asks for. -/
def trap (s : Session) (vector : UInt8) (fault? : Option HostFault := none) :
    Except Stop AfterTrap × Session :=
  let (outcome, system) := Trap.serve vector s.system fault?
  (outcome.mapError fun cause => ⟨s.system.registers.pc, cause⟩, { s with system })

/-- The registers a waiting caller gets back, with the address at which it goes on. -/
def restore (r : Registers) (caller : Suspension) (pc : UInt32) : Registers :=
  let popped := r.set .sp (r.sp + 4)
  let restored := popped.setAll (preservedRegisters.zip caller.saved).toList
  (restored.enterMode caller.mode).set .pc pc

/-- Lets the latest waiting caller go on if its routine has returned to the trampoline, and tells
whether it has. -/
def resumeCaller (s : Session) : Except Stop Bool × Session :=
  let before := s.system
  if before.registers.pc ≠ MemoryMap.trampoline.base then (.ok false, s)
  else
    match before.kernel.suspended with
    | [] => (.ok false, s)
    | caller :: waiting =>
      let system := { before with kernel := { before.kernel with suspended := waiting } }
      match before.memory.read before.registers.sp .long .supervisor with
      | .error fault =>
        (.error ⟨MemoryMap.trampoline.base, .fault fault⟩, { s with system })
      | .ok (pc, memory) =>
        let registers := restore before.registers caller pc
        (.ok true, { s with system := { system with memory, registers } })

def close (s : Session) : Session :=
  let kernel := s.system.kernel
  { s with
    program := none
    system :=
      { s.system with
        memory := .empty
        kernel := { kernel with handles := kernel.handles.closeFiles, suspended := [] } } }

inductive Ending where
  | ended (code : Int32)
  | stopped (stop : Stop)
  | unfinished
deriving DecidableEq, Repr

variable {σ : Type}

/-- One instruction, and the trap it may raise. There is an ending once the run is over. -/
def step (core : Core σ) (state : σ) (s : Session) : Option Ending × σ × Session :=
  match s.resumeCaller with
  | (.error stop, after) => (some (.stopped stop), state, after)
  | (.ok _, ready) =>
    let pc := ready.system.registers.pc
    let (event, next, registers, memory) :=
      core.step state ready.system.registers ready.system.memory
    let stepped := { ready with system := { ready.system with registers, memory } }
    match event with
    | .error fault => (some (.stopped ⟨pc, .fault fault⟩), next, stepped)
    | .ok .done => (none, next, stepped)
    | .ok (.trapped vector) =>
      match stepped.trap vector with
      | (.error stop, after) => (some (.stopped stop), next, after)
      | (.ok .proceed, after) => (none, next, after)
      | (.ok (.ended code), after) => (some (.ended code), next, after.close)

def drive (core : Core σ) : Nat → σ → Session → Ending × σ × Session
  | 0, state, s => (.unfinished, state, s)
  | steps + 1, state, s =>
    match step core state s with
    | (some ending, next, after) => (ending, next, after)
    | (none, next, after) => drive core steps next after

/-- Launches the program and runs it. Memory is left in place for inspection unless the program
ends by itself. -/
def run (core : Core σ) (steps : Nat) (state : σ) (s : Session) : Ending × σ × Session :=
  match s.launch with
  | (.error stop, after) => (.stopped stop, state, after)
  | (.ok (), launched) => drive core steps state launched

end Session

end AtariTos
