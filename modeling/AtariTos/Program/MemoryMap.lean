namespace AtariTos

structure Region where
  base : UInt32
  len : Nat
deriving DecidableEq, Repr

namespace Region

def stop (region : Region) : UInt32 :=
  region.base + region.len.toUInt32

end Region

namespace MemoryMap

def vectors : Region := ⟨0, 0x200⟩

/-- Where a supervisor routine returns to. -/
def trampoline : Region := ⟨0x200, 4⟩

def saveArea : Region := ⟨0x380, 0x280⟩

/-- The supervisor stack grows down from the end of its region. -/
def supervisorStack : Region := ⟨0x600, 0x200⟩

def basepage : Region := ⟨0x800, 0x100⟩

/-- The initial environment, inside the basepage. -/
def environment : UInt32 := 0x830

def transferArea : UInt32 := 0x880

def userStart : UInt32 := 0x900

/-- Where cartridges start. RAM ends here unless told otherwise. -/
def cartridge : UInt32 := 0xfa0000

def userLen (ramTop : UInt32) : UInt32 :=
  if ramTop ≤ userStart then 0 else ramTop - userStart

end MemoryMap

structure HeapSpan where
  floor : UInt32 := MemoryMap.userStart
  top : UInt32 := MemoryMap.userLen MemoryMap.cartridge
deriving DecidableEq, Repr

namespace HeapSpan

def len (span : HeapSpan) : UInt32 :=
  if span.top ≤ span.floor then 0 else span.top - span.floor

def isEmpty (span : HeapSpan) : Bool :=
  span.len = 0

end HeapSpan

end AtariTos
