import AtariTos.Proofs.ServiceEffects

namespace AtariTos

namespace Service

namespace Touches

variable {parts : List Part} {fault? : Option HostFault}

theorem setRegisters (h : .registers ∈ parts) (change : Registers → Registers) :
    Touches parts (Service.setRegisters change) := by
  intro s part outside
  cases part <;> first | rfl | exact absurd h outside

theorem setMemory (h : .memory ∈ parts) (memory : GuestMemory) :
    Touches parts (MonadState.modifyGet fun s => ((), { s with memory }) : Service Unit) := by
  intro s part outside
  cases part <;> first | rfl | exact absurd h outside

theorem setConsole (h : .console ∈ parts) (console : Console) :
    Touches parts (Service.setConsole console) := by
  intro s part outside
  cases part <;> first | rfl | exact absurd h outside

theorem setHost (h : .host ∈ parts) (host : HostTree) : Touches parts (Service.setHost host) := by
  intro s part outside
  cases part <;> first | rfl | exact absurd h outside

theorem setHeap (h : .heap ∈ parts) (change : Kernel → Heap) :
    Touches parts (setKernel fun kernel => { kernel with heap := change kernel }) := by
  intro s part outside
  cases part <;> first | rfl | exact absurd h outside

theorem setDta (h : .dta ∈ parts) (dta : UInt32) :
    Touches parts (setKernel fun kernel => { kernel with dta }) := by
  intro s part outside
  cases part <;> first | rfl | exact absurd h outside

theorem setHandles (h : .handles ∈ parts) (change : Kernel → Handles) :
    Touches parts (setKernel fun kernel => { kernel with handles := change kernel }) := by
  intro s part outside
  cases part <;> first | rfl | exact absurd h outside

theorem setDrive (h : .drive ∈ parts) (drive : Drive) :
    Touches parts (setKernel fun kernel => { kernel with drive }) := by
  intro s part outside
  cases part <;> first | rfl | exact absurd h outside

theorem setSuspended (h : .suspended ∈ parts) (change : Kernel → List Suspension) :
    Touches parts (setKernel fun kernel => { kernel with suspended := change kernel }) := by
  intro s part outside
  cases part <;> first | rfl | exact absurd h outside

theorem callerMode : Touches parts Service.callerMode :=
  bind get fun _ => pure _

theorem arguments : Touches parts Service.arguments :=
  bind get fun _ => bind get fun _ => pure _

theorem argumentWord (offset : UInt32) : Touches parts (Service.argumentWord offset) :=
  bind arguments fun _ => orStop _

theorem argumentHandle (offset : UInt32) : Touches parts (Service.argumentHandle offset) :=
  bind arguments fun _ => orStop _

theorem argumentLong (offset : UInt32) : Touches parts (Service.argumentLong offset) :=
  bind arguments fun _ => orStop _

theorem requireWritable (addr : UInt32) (len : Nat) :
    Touches parts (Service.requireWritable addr len) :=
  bind get fun _ => ite (fun _ => pure _) fun _ => reject _

theorem loadBuffer (h : .memory ∈ parts) (addr : UInt32) (len : Nat) :
    Touches parts (Service.loadBuffer addr len) := by
  refine bind get fun s => bind callerMode fun mode => ?_
  exact bind (setMemory h _) fun _ => orRangeError _

theorem storeBuffer (h : .memory ∈ parts) (addr : UInt32) (data : List UInt8) :
    Touches parts (Service.storeBuffer addr data) := by
  refine bind get fun s => bind callerMode fun mode => ?_
  exact bind (setMemory h _) fun _ => orRangeError _

theorem stringAt (addr : UInt32) (limit : Nat) : Touches parts (Service.stringAt addr limit) :=
  bind get fun _ => bind callerMode fun _ => orRangeError _

theorem pathAt (addr : UInt32) : Touches parts (Service.pathAt addr) := by
  refine bind (stringAt addr pathMax) fun found => ?_
  cases found with
  | some path => exact pure path
  | none => exact reject _

theorem argumentPath (offset : UInt32) : Touches parts (Service.argumentPath offset) := by
  refine bind (argumentLong offset) fun addr => bind (pathAt addr) fun guest => bind get fun s => ?_
  cases s.kernel.drive.translate s.host guest with
  | ok path => exact pure path
  | error cause => exact reject _

theorem exchange {α : Type} (h : .console ∈ parts) (transfer : Except HostError α × Console) :
    Touches parts (Service.exchange transfer) := by
  refine bind (setConsole h _) fun _ => ?_
  cases transfer.1 with
  | ok value => exact pure value
  | error cause => exact reject _

theorem readCharacter (h : .console ∈ parts) : Touches parts (Service.readCharacter fault?) :=
  bind get fun _ => bind (exchange h _) fun _ => pure _

theorem print (h : .console ∈ parts) (data : List UInt8) :
    Touches parts (Service.print data fault?) :=
  bind get fun _ => exchange h _

theorem inputStatus : Touches parts Service.inputStatus :=
  bind get fun _ => pure _

theorem writeCharacter (h : .console ∈ parts) : Touches parts (Service.writeCharacter fault?) :=
  bind (argumentWord 2) fun _ => bind (print h _) fun _ => pure _

theorem rawInputOutput (h : .console ∈ parts) : Touches parts (Service.rawInputOutput fault?) := by
  refine bind (argumentWord 2) fun word => ite (fun _ => ?_) fun _ => bind get fun s => ?_
  · exact bind (print h _) fun _ => pure _
  · exact ite (fun _ => readCharacter h) fun _ => pure _

theorem printString (h : .console ∈ parts) : Touches parts (Service.printString fault?) := by
  refine bind (argumentLong 2) fun addr => bind (stringAt addr _) fun found => ?_
  cases found with
  | none => exact reject _
  | some text => exact bind (print h text) fun _ => pure _

theorem readString (hc : .console ∈ parts) (hm : .memory ∈ parts) :
    Touches parts (Service.readString fault?) := by
  refine bind (argumentLong 2) fun addr => bind (loadBuffer hm addr 1) fun capacity => ?_
  refine bind (requireWritable _ _) fun _ => bind get fun s => bind (exchange hc _) fun _ => ?_
  exact bind (storeBuffer hm _ _) fun _ => pure _

theorem deviceInputStatus : Touches parts Service.deviceInputStatus :=
  bind (argumentWord 2) fun _ => ite (fun _ => inputStatus) fun _ => pure _

theorem deviceRead (h : .console ∈ parts) : Touches parts (Service.deviceRead fault?) :=
  bind (argumentWord 2) fun _ => ite (fun _ => readCharacter h) fun _ => pure _

theorem deviceWrite (h : .console ∈ parts) : Touches parts (Service.deviceWrite fault?) := by
  refine bind (argumentWord 2) fun device => bind (argumentWord 4) fun character => ?_
  exact ite (fun _ => bind (print h _) fun _ => pure _) fun _ => pure _

theorem deviceOutputStatus : Touches parts Service.deviceOutputStatus :=
  bind (argumentWord 2) fun _ => pure _

theorem exceptionVector (h : .memory ∈ parts) : Touches parts Service.exceptionVector := by
  refine bind (argumentWord 2) fun number => bind (argumentLong 4) fun vector => ?_
  refine bind get fun s => bind (orStop _) fun read => bind (setMemory h _) fun _ => ?_
  refine ite (fun _ => bind (orStop _) fun memory => ?_) fun _ => pure _
  exact bind (setMemory h _) fun _ => pure _

theorem createDirectory (h : .host ∈ parts) : Touches parts Service.createDirectory := by
  refine bind (argumentPath 2) fun path => bind get fun s => ?_
  cases s.host.makeDirectory path with
  | error cause => exact reject _
  | ok host => exact bind (setHost h host) fun _ => pure _

theorem setDirectory (h : .drive ∈ parts) : Touches parts Service.setDirectory := by
  refine bind (argumentLong 2) fun addr => bind (pathAt addr) fun guest => bind get fun s => ?_
  cases s.kernel.drive.changeDirectory s.host guest with
  | error cause => exact reject _
  | ok drive => exact bind (setDrive h drive) fun _ => pure _

theorem currentDirectory (h : .memory ∈ parts) : Touches parts Service.currentDirectory := by
  refine bind (argumentLong 2) fun buffer => bind (argumentWord 6) fun drive => ?_
  have stored : ∀ s : System, Touches parts (do
      Service.storeBuffer buffer (s.kernel.drive.directoryText.toUTF8.toList ++ [0])
      return (0 : UInt32)) :=
    fun _ => bind (storeBuffer h _ _) fun _ => pure _
  refine ite (fun _ => bind (reject _) fun _ => bind get fun s => ?_) fun _ => bind get fun s => ?_
  · exact ite (fun _ => bind (reject _) fun _ => stored s) fun _ => stored s
  · exact ite (fun _ => bind (reject _) fun _ => stored s) fun _ => stored s

theorem giveHandle (h : .handles ∈ parts) (f : OpenFile) :
    Touches parts (Service.giveHandle f) := by
  refine bind get fun s => ?_
  cases s.kernel.handles.insert f with
  | none => exact reject _
  | some given => exact bind (setHandles h _) fun _ => pure _

theorem requireFreeHandle : Touches parts Service.requireFreeHandle :=
  bind get fun _ => ite (fun _ => reject _) fun _ => pure _

theorem createFile (hh : .host ∈ parts) (ht : .handles ∈ parts) :
    Touches parts Service.createFile := by
  refine bind (argumentPath 2) fun path => bind requireFreeHandle fun _ => bind get fun s => ?_
  rcases s.host.makeDirectories path.dropLast with ⟨made, host⟩
  refine bind (setHost hh host) fun _ => ite (fun _ => ?_) fun _ => reject _
  cases host.createFile path with
  | error cause => exact reject _
  | ok made => exact bind (setHost hh _) fun _ => giveHandle ht _

theorem openFile (h : .handles ∈ parts) : Touches parts Service.openFile := by
  refine bind (argumentPath 2) fun path => bind (argumentWord 6) fun word => ?_
  cases openMode? word with
  | none => exact reject _
  | some mode =>
    refine bind requireFreeHandle fun _ => bind get fun s => ?_
    cases s.host.fileAt path with
    | error cause => exact reject _
    | ok file => exact giveHandle h _

theorem closeFile (h : .handles ∈ parts) : Touches parts Service.closeFile := by
  refine bind (argumentHandle 2) fun handle => bind get fun s => ?_
  exact ite (fun _ => bind (setHandles h _) fun _ => pure _) fun _ => reject _

theorem fetch (hc : .console ∈ parts) (ht : .handles ∈ parts) (handle : Int16) (count : Nat) :
    Touches parts (Service.fetch handle count fault?) := by
  refine bind get fun s => ?_
  cases s.kernel.handles.get? handle with
  | none => exact reject _
  | some target =>
    cases target with
    | reserved => exact reject _
    | consoleOutput => exact reject _
    | consoleInput => exact exchange hc _
    | file f =>
      dsimp only
      obtain ⟨transfer, moved⟩ := s.host.readFrom f count fault?
      refine bind (setHandles ht _) fun _ => ?_
      cases transfer with
      | ok data => exact pure data
      | error cause => exact reject _

theorem readFile (hc : .console ∈ parts) (ht : .handles ∈ parts) (hm : .memory ∈ parts) :
    Touches parts (Service.readFile fault?) := by
  refine bind (argumentHandle 2) fun handle => bind (argumentLong 4) fun count => ?_
  refine bind (argumentLong 8) fun buffer => bind (requireWritable _ _) fun _ => ?_
  refine bind (fetch hc ht handle _) fun data => bind (storeBuffer hm _ _) fun _ => pure _

theorem send (hc : .console ∈ parts) (ht : .handles ∈ parts) (hh : .host ∈ parts)
    (handle : Int16) (data : List UInt8) : Touches parts (Service.send handle data fault?) := by
  refine bind get fun s => ?_
  cases s.kernel.handles.get? handle with
  | none => exact reject _
  | some target =>
    cases target with
    | reserved => exact reject _
    | consoleInput => exact reject _
    | consoleOutput => exact print hc data
    | file f =>
      dsimp only
      obtain ⟨transfer, moved, host⟩ := s.host.writeTo f data fault?
      refine bind (setHost hh _) fun _ => bind (setHandles ht _) fun _ => ?_
      cases transfer with
      | ok done => exact pure done
      | error cause => exact reject _

theorem writeFile (hc : .console ∈ parts) (ht : .handles ∈ parts) (hh : .host ∈ parts)
    (hm : .memory ∈ parts) : Touches parts (Service.writeFile fault?) := by
  refine bind (argumentHandle 2) fun handle => bind (argumentLong 4) fun count => ?_
  refine bind (argumentLong 8) fun buffer => bind get fun s => ?_
  have sent : Touches parts (do
      let data ← Service.loadBuffer buffer count.toNat
      Service.send handle data fault?
      return count) :=
    bind (loadBuffer hm _ _) fun _ => bind (send hc ht hh _ _) fun _ => pure _
  exact ite (fun _ => bind (reject _) fun _ => sent) fun _ => sent

theorem deleteFile (h : .host ∈ parts) : Touches parts Service.deleteFile := by
  refine bind (argumentPath 2) fun path => bind get fun s => ?_
  cases s.host.removeName path with
  | error cause => exact reject _
  | ok host => exact bind (setHost h host) fun _ => pure _

theorem seekFile (h : .handles ∈ parts) : Touches parts Service.seekFile := by
  refine bind (argumentLong 2) fun offset => bind (argumentHandle 6) fun handle => ?_
  refine bind (argumentWord 8) fun word => ?_
  cases seekOrigin? word offset.toInt32 with
  | none => exact reject _
  | some origin =>
    refine bind get fun s => ?_
    cases s.kernel.handles.get? handle with
    | none => exact reject _
    | some target =>
      cases target with
      | reserved => exact reject _
      | consoleInput => exact reject _
      | consoleOutput => exact reject _
      | file f =>
        dsimp only
        cases s.host.seek f origin offset.toInt32.toInt with
        | error cause => exact reject _
        | ok moved =>
          refine bind (setHandles h _) fun _ => ?_
          exact ite (fun _ => pure _) fun _ => reject _

theorem fileAttributes : Touches parts Service.fileAttributes := by
  refine bind (argumentPath 2) fun path => bind (argumentWord 6) fun word => ?_
  refine ite (fun _ => bind (reject _) fun _ => bind get fun s => ?_) fun _ => bind get fun s => ?_
  · dsimp only
    cases HostTree.status (s.host.locate path true) with
    | error cause => exact reject _
    | ok found => exact pure _
  · dsimp only
    cases HostTree.status (s.host.locate path true) with
    | error cause => exact reject _
    | ok found => exact pure _

theorem timeOf (handle : Int16) : Touches parts (Service.timeOf handle fault?) := by
  refine bind get fun s => ?_
  cases s.kernel.handles.get? handle with
  | none => exact reject _
  | some target =>
    cases target with
    | reserved => exact reject _
    | consoleInput | consoleOutput => exact pure _
    | file f =>
      cases fault? with
      | none => exact pure _
      | some fault => exact reject _

theorem fileTime (h : .memory ∈ parts) : Touches parts (Service.fileTime fault?) := by
  refine bind (argumentLong 2) fun buffer => bind (argumentHandle 6) fun handle => ?_
  refine bind (argumentWord 8) fun word => ?_
  have stored : Touches parts (do
      Service.requireWritable buffer 4
      let time ← Service.timeOf handle fault?
      Service.storeBuffer buffer (bytesOfLong (dateTimeLong time.date time.time))
      return (0 : UInt32)) := by
    refine bind (requireWritable _ _) fun _ => bind (timeOf handle) fun time => ?_
    exact bind (storeBuffer h _ _) fun _ => pure _
  exact ite (fun _ => bind (reject _) fun _ => stored) fun _ => stored

theorem searchFirst : Touches parts Service.searchFirst :=
  bind (argumentPath 2) fun _ => reject _

theorem allocateBlock (h : .heap ∈ parts) : Touches parts Service.allocateBlock := by
  refine bind (argumentLong 2) fun len => bind get fun s => ite (fun _ => pure _) fun _ => ?_
  exact bind (setHeap h _) fun _ => pure _

theorem freeBlock (h : .heap ∈ parts) : Touches parts Service.freeBlock := by
  refine bind (argumentLong 2) fun base => bind get fun s => ?_
  rcases s.kernel.heap.tryFree base with ⟨freed, heap⟩
  refine bind (setHeap h _) fun _ => ?_
  cases freed with
  | error cause => exact reject _
  | ok b => exact pure _

theorem shrinkBlock (h : .heap ∈ parts) : Touches parts Service.shrinkBlock := by
  refine bind (argumentLong 4) fun base => bind (argumentLong 8) fun len => bind get fun s => ?_
  rcases s.kernel.heap.tryShrink base len with ⟨shrunk, heap⟩
  refine bind (setHeap h _) fun _ => ?_
  cases shrunk with
  | error cause => cases cause <;> exact reject _
  | ok done => exact pure _

theorem setTransferAddress (h : .dta ∈ parts) : Touches parts Service.setTransferAddress :=
  bind (argumentLong 2) fun _ => bind (setDta h _) fun _ => pure _

theorem switchMode (h : .registers ∈ parts) : Touches parts Service.switchMode := by
  refine bind (argumentLong 2) fun stack => bind get fun s => ite (fun _ => ?_) fun _ => ?_
  · exact bind (setRegisters h _) fun _ => pure _
  · exact ite (fun _ => pure _) fun _ => bind (setRegisters h _) fun _ => pure _

theorem keyTables : Touches parts Service.keyTables := by
  refine bind (argumentLong 2) fun unshifted => bind (argumentLong 6) fun shifted => ?_
  exact bind (argumentLong 10) fun capitals => ite (fun _ => pure _) fun _ => stop _

theorem callSupervisor (hr : .registers ∈ parts) (hm : .memory ∈ parts)
    (hs : .suspended ∈ parts) : Touches parts Service.callSupervisor := by
  refine bind (argumentLong 2) fun routine => bind get fun caller => ?_
  refine bind (setRegisters hr _) fun _ => bind get fun s => bind get fun s' => ?_
  refine bind (orStop _) fun memory => bind (setMemory hm _) fun _ => ?_
  refine bind (orStop _) fun memory => bind (setMemory hm _) fun _ => ?_
  exact bind (setRegisters hr _) fun _ => bind (setSuspended hs _) fun _ => pure _

end Touches

end Service

/-- What goes to D0. -/
def Answer.register : Answer → UInt32
  | .value result => result
  | .ending _ => 0

namespace Routine

/-- The parts of the system that a routine may change. The answer in D0 is not its own doing. -/
def parts : Routine → List Part
  | readCharacter | writeCharacter | rawInputOutput | printString => [.console]
  | deviceRead | deviceWrite => [.console]
  | readString => [.console, .memory]
  | createDirectory | deleteFile => [.host]
  | setDirectory => [.drive]
  | currentDirectory | fileTime | exceptionVector => [.memory]
  | createFile => [.host, .handles]
  | openFile | closeFile | seekFile => [.handles]
  | readFile => [.console, .handles, .memory]
  | writeFile => [.console, .handles, .host, .memory]
  | setTransferAddress => [.dta]
  | allocateBlock | freeBlock | shrinkBlock => [.heap]
  | switchMode => [.registers]
  | callSupervisor => [.registers, .memory, .suspended]
  | endSuccessfully | endWithCode | inputStatus | outputStatus | currentDrive => []
  | fileAttributes | transferAddress | searchFirst | searchNext | version | date | time => []
  | notAvailable | deviceInputStatus | deviceOutputStatus | screenResolution => []
  | resetKeyTables | keyTables => []

open Service in
theorem touches_run (called : Routine) (fault? : Option HostFault) :
    Touches called.parts (called.run fault?) := by
  cases called with
  | endSuccessfully | outputStatus => exact .pure _
  | endWithCode => exact .map _ (.bind (.argumentHandle 2) fun _ => .pure _)
  | readCharacter => exact .map _ (.readCharacter (by decide))
  | writeCharacter => exact .map _ (.writeCharacter (by decide))
  | rawInputOutput => exact .map _ (.rawInputOutput (by decide))
  | printString => exact .map _ (.printString (by decide))
  | readString => exact .map _ (.readString (by decide) (by decide))
  | inputStatus => exact .map _ .inputStatus
  | currentDrive | version | screenResolution | resetKeyTables => exact .map _ (.pure _)
  | createDirectory => exact .map _ (.createDirectory (by decide))
  | setDirectory => exact .map _ (.setDirectory (by decide))
  | currentDirectory => exact .map _ (.currentDirectory (by decide))
  | createFile => exact .map _ (.createFile (by decide) (by decide))
  | openFile => exact .map _ (.openFile (by decide))
  | closeFile => exact .map _ (.closeFile (by decide))
  | readFile => exact .map _ (.readFile (by decide) (by decide) (by decide))
  | writeFile => exact .map _ (.writeFile (by decide) (by decide) (by decide) (by decide))
  | deleteFile => exact .map _ (.deleteFile (by decide))
  | seekFile => exact .map _ (.seekFile (by decide))
  | fileAttributes => exact .map _ .fileAttributes
  | fileTime => exact .map _ (.fileTime (by decide))
  | setTransferAddress => exact .map _ (.setTransferAddress (by decide))
  | transferAddress | date | time => exact .map _ (.bind .get fun _ => .pure _)
  | searchFirst => exact .map _ .searchFirst
  | searchNext | notAvailable => exact .map _ (.reject _)
  | allocateBlock => exact .map _ (.allocateBlock (by decide))
  | freeBlock => exact .map _ (.freeBlock (by decide))
  | shrinkBlock => exact .map _ (.shrinkBlock (by decide))
  | switchMode => exact .map _ (.switchMode (by decide))
  | deviceInputStatus => exact .map _ .deviceInputStatus
  | deviceRead => exact .map _ (.deviceRead (by decide))
  | deviceWrite => exact .map _ (.deviceWrite (by decide))
  | deviceOutputStatus => exact .map _ .deviceOutputStatus
  | exceptionVector => exact .map _ (.exceptionVector (by decide))
  | keyTables => exact .map _ .keyTables
  | callSupervisor => exact .map _ (.callSupervisor (by decide) (by decide) (by decide))

theorem run_touches (called : Routine) : Service.Touches called.parts called.run :=
  called.touches_run none

end Routine

end AtariTos
