import AtariTos.System

namespace AtariTos

namespace Service

/-- Version 0.21, the minor byte first. -/
def systemVersion : UInt32 := 0x1500

def exitCode : Service Int32 :=
  return (← argumentHandle 2).toInt32

/-- Switches between user and supervisor mode. Zero enters supervisor mode and answers the stack
pointer in use before, one asks whether it is supervisor mode, and anything else becomes the user
stack pointer and leaves it. -/
def switchMode : Service UInt32 := do
  let stack ← argumentLong 2
  let registers := (← get).registers
  if stack = 0 then
    setRegisters (·.enterMode .supervisor)
    return registers.sp
  else if stack = 1 then return if registers.privilege = .supervisor then 1 else 0
  else
    setRegisters fun r => (r.set .usp stack).enterMode .user
    return 0

def version : Service UInt32 :=
  return systemVersion

def date : Service UInt32 :=
  return (← get).console.clock.now.date.toUInt32

def time : Service UInt32 :=
  return (← get).console.clock.now.time.toUInt32

/-- Answers that there is no such function, which makes callers do without. -/
def notAvailable : Service UInt32 :=
  reject .invalidFunction

end Service

end AtariTos
