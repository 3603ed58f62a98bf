import AtariTos.Stop

namespace AtariTos

structure Call (α : Type) where
  name : String
  code : UInt16
  handler : Option α
deriving Repr

namespace Call

variable {α : Type}

def serviced (name : String) (code : UInt16) (handler : α) : Call α :=
  ⟨name, code, some handler⟩

def named (name : String) (code : UInt16) : Call α :=
  ⟨name, code, none⟩

def isServiced (call : Call α) : Bool :=
  call.handler.isSome

end Call

structure CallTable (α : Type) where
  layer : Layer
  calls : List (Call α)
deriving Repr

namespace CallTable

variable {α : Type}

def find? (table : CallTable α) (code : UInt16) : Option (Call α) :=
  table.calls.find? (·.code = code)

def handler (table : CallTable α) (code : UInt16) : Except StopCause α :=
  match table.find? code with
  | none => .error (.undocumented table.layer code)
  | some call =>
    match call.handler with
    | some handler => .ok handler
    | none => .error (.noHandler table.layer call.name code)

/-- The calls in ascending order of their codes; equal codes stay in order of declaration. -/
def sorted (table : CallTable α) : List (Call α) :=
  table.calls.mergeSort fun a b => a.code ≤ b.code

end CallTable

end AtariTos
