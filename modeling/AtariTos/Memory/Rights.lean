namespace AtariTos

inductive Privilege where
  | user
  | supervisor
deriving DecidableEq, Repr

namespace Privilege

def statusBit : UInt32 := 0x2000

def ofStatus (sr : UInt32) : Privilege :=
  if sr &&& statusBit ≠ 0 then supervisor else user

def name : Privilege → String
  | user => "User"
  | supervisor => "Supervisor"

end Privilege

/-- What an access does. A peek reads without side effects. -/
inductive Access where
  | read
  | write
  | peek
deriving DecidableEq, Repr

namespace Access

def name : Access → String
  | read => "read"
  | write => "write"
  | peek => "peek"

end Access

structure Rights where
  userRead : Bool := false
  userWrite : Bool := false
  superRead : Bool := false
  superWrite : Bool := false
deriving DecidableEq, Repr

namespace Rights

def readOnly : Rights := { userRead := true }

def readWrite : Rights := { userRead := true, userWrite := true }

def supervisorReadOnly : Rights := { superRead := true }

def supervisorReadWrite : Rights := { superRead := true, superWrite := true }

def bits (r : Rights) : UInt8 :=
  (if r.userRead then 1 else 0) + (if r.userWrite then 2 else 0) +
    (if r.superRead then 4 else 0) + (if r.superWrite then 8 else 0)

/-- Rights from their bits; the upper four bits have no meaning and must be clear. -/
def ofBits? (bits : UInt8) : Option Rights :=
  if 15 < bits then none
  else some
    { userRead := bits &&& 1 ≠ 0
      userWrite := bits &&& 2 ≠ 0
      superRead := bits &&& 4 ≠ 0
      superWrite := bits &&& 8 ≠ 0 }

def mayRead (r : Rights) : Privilege → Bool
  | .user => r.userRead
  | .supervisor => r.userRead || r.superRead

def mayWrite (r : Rights) : Privilege → Bool
  | .user => r.userWrite
  | .supervisor => r.userWrite || r.superWrite

/-- Either right allows a read without side effects. -/
def mayPeek (r : Rights) (mode : Privilege) : Bool :=
  r.mayRead mode || r.mayWrite mode

def permits (r : Rights) (access : Access) (mode : Privilege) : Bool :=
  match access with
  | .read => r.mayRead mode
  | .write => r.mayWrite mode
  | .peek => r.mayPeek mode

theorem permits_supervisor {r : Rights} {access : Access} (h : r.permits access .user) :
    r.permits access .supervisor := by
  cases access <;> simp only [permits, mayRead, mayWrite, mayPeek, Bool.or_eq_true] at h ⊢
  · exact .inl h
  · exact .inl h
  · exact h.imp .inl .inl

end Rights

end AtariTos
