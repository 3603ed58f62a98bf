import AtariTos.Calls.Bios
import AtariTos.Calls.Directories
import AtariTos.Calls.Files
import AtariTos.Calls.Memory
import AtariTos.Calls.Process
import AtariTos.Calls.Xbios

namespace AtariTos

inductive Routine where
  | endSuccessfully
  | endWithCode
  | readCharacter
  | writeCharacter
  | rawInputOutput
  | printString
  | readString
  | inputStatus
  | outputStatus
  | currentDrive
  | createDirectory
  | setDirectory
  | currentDirectory
  | createFile
  | openFile
  | closeFile
  | readFile
  | writeFile
  | deleteFile
  | seekFile
  | fileAttributes
  | fileTime
  | setTransferAddress
  | transferAddress
  | searchFirst
  | searchNext
  | allocateBlock
  | freeBlock
  | shrinkBlock
  | switchMode
  | version
  | date
  | time
  | notAvailable
  | deviceInputStatus
  | deviceRead
  | deviceWrite
  | deviceOutputStatus
  | exceptionVector
  | screenResolution
  | resetKeyTables
  | keyTables
  | callSupervisor
deriving DecidableEq, Repr

inductive Answer where
  | value (result : UInt32)
  | ending (code : Int32)
deriving DecidableEq, Repr

namespace Routine

/-- Runs a routine on a host that breaks off the transfer it is asked for, or on one that does not. A
routine asks for one transfer at most. -/
def run : Routine → (fault? : Option HostFault := none) → Service Answer
  | endSuccessfully, _ => return .ending 0
  | endWithCode, _ => .ending <$> Service.exitCode
  | readCharacter, fault? => .value <$> Service.readCharacter fault?
  | writeCharacter, fault? => .value <$> Service.writeCharacter fault?
  | rawInputOutput, fault? => .value <$> Service.rawInputOutput fault?
  | printString, fault? => .value <$> Service.printString fault?
  | readString, fault? => .value <$> Service.readString fault?
  | inputStatus, _ => .value <$> Service.inputStatus
  | outputStatus, _ => return .value Service.ready
  | currentDrive, _ => .value <$> Service.currentDrive
  | createDirectory, _ => .value <$> Service.createDirectory
  | setDirectory, _ => .value <$> Service.setDirectory
  | currentDirectory, _ => .value <$> Service.currentDirectory
  | createFile, _ => .value <$> Service.createFile
  | openFile, _ => .value <$> Service.openFile
  | closeFile, _ => .value <$> Service.closeFile
  | readFile, fault? => .value <$> Service.readFile fault?
  | writeFile, fault? => .value <$> Service.writeFile fault?
  | deleteFile, _ => .value <$> Service.deleteFile
  | seekFile, _ => .value <$> Service.seekFile
  | fileAttributes, _ => .value <$> Service.fileAttributes
  | fileTime, fault? => .value <$> Service.fileTime fault?
  | setTransferAddress, _ => .value <$> Service.setTransferAddress
  | transferAddress, _ => .value <$> Service.transferAddress
  | searchFirst, _ => .value <$> Service.searchFirst
  | searchNext, _ => .value <$> Service.searchNext
  | allocateBlock, _ => .value <$> Service.allocateBlock
  | freeBlock, _ => .value <$> Service.freeBlock
  | shrinkBlock, _ => .value <$> Service.shrinkBlock
  | switchMode, _ => .value <$> Service.switchMode
  | version, _ => .value <$> Service.version
  | date, _ => .value <$> Service.date
  | time, _ => .value <$> Service.time
  | notAvailable, _ => .value <$> Service.notAvailable
  | deviceInputStatus, _ => .value <$> Service.deviceInputStatus
  | deviceRead, fault? => .value <$> Service.deviceRead fault?
  | deviceWrite, fault? => .value <$> Service.deviceWrite fault?
  | deviceOutputStatus, _ => .value <$> Service.deviceOutputStatus
  | exceptionVector, _ => .value <$> Service.exceptionVector
  | screenResolution, _ => .value <$> Service.screenResolution
  | resetKeyTables, _ => .value <$> Service.resetKeyTables
  | keyTables, _ => .value <$> Service.keyTables
  | callSupervisor, _ => .value <$> Service.callSupervisor

end Routine

end AtariTos
