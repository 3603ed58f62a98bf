import AtariTos.Memory.Access
import AtariTos.Processor.Registers

namespace AtariTos

inductive CoreEvent where
  | done
  /-- The exception with this vector number was raised; its arguments are on the stack. -/
  | trapped (vector : UInt8)
deriving DecidableEq, Repr

/-- A step keeps its effects on state, registers and memory also when it ends in a fault. -/
structure Core (σ : Type) where
  step : σ → Registers → GuestMemory → Except Fault CoreEvent × σ × Registers × GuestMemory

end AtariTos
