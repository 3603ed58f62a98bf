import AtariTos.Memory.Fault

namespace AtariTos

inductive Layer where
  | gemdos
  | bios
  | xbios
deriving DecidableEq, Repr

namespace Layer

def name : Layer → String
  | gemdos => "GEMDOS"
  | bios => "BIOS"
  | xbios => "XBIOS"

end Layer

inductive StopCause where
  /-- A documented call that is known by name only. -/
  | noHandler (layer : Layer) (name : String) (code : UInt16)
  | undocumented (layer : Layer) (code : UInt16)
  /-- A vector behind which there is no layer. -/
  | foreignTrap (vector : UInt8) (name : String)
  | refused (call detail : String)
  | fault (cause : Fault)
  | nothingLoaded
deriving DecidableEq, Repr

namespace StopCause

def message : StopCause → String
  | noHandler layer name code =>
    s!"{layer.name} call {name} (0x{hex 2 code.toNat}) is not implemented"
  | undocumented layer code => s!"unknown {layer.name} call 0x{hex 2 code.toNat}"
  | foreignTrap vector name =>
    s!"trap vector 0x{hex 2 vector.toNat} ({name}) is not supported"
  | refused call detail => s!"{call}: {detail}"
  | fault cause => s!"guest memory fault: {cause.message}"
  | nothingLoaded => "no program is loaded"

end StopCause

structure Stop where
  pc : UInt32
  cause : StopCause
deriving DecidableEq, Repr

namespace Stop

def message (s : Stop) : String :=
  s!"emulation halted at pc {hexAddress s.pc.toNat}: {s.cause.message}"

end Stop

end AtariTos
