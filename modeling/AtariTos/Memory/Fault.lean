import AtariTos.Memory.Rights
import AtariTos.Text.Hex

namespace AtariTos

inductive Fault where
  | collision (name : String) (base : UInt32) (stop : Nat) (existing : String)
  | noBytes (name : String)
  | noSuchArea (base : UInt32)
  | unmapped (addr : UInt32)
  | denied (addr : UInt32) (access : Access) (mode : Privilege)
deriving DecidableEq, Repr

namespace Fault

def message : Fault → String
  | collision name base stop existing =>
    s!"area '{name}' at {hexAddress base.toNat}..{hexAddress stop} overlaps '{existing}'"
  | noBytes name => s!"area '{name}' has zero length"
  | noSuchArea base => s!"no area starts at {hexAddress base.toNat}"
  | unmapped addr => s!"address {hexAddress addr.toNat} is not mapped"
  | denied addr access mode =>
    s!"{mode.name} {access.name} of {hexAddress addr.toNat} denied"

end Fault

end AtariTos
