import AtariTos.Calls.Console

namespace AtariTos

namespace Service

def readOnlyAttribute : UInt32 := 0x01

def directoryAttribute : UInt32 := 0x10

def giveHandle (f : OpenFile) : Service UInt32 := do
  match (← get).kernel.handles.insert f with
  | none => reject .noMoreHandles
  | some (handle, handles) =>
    setKernel fun kernel => { kernel with handles }
    return handle.toUInt16.toUInt32

def requireFreeHandle : Service Unit := do
  if (← get).kernel.handles.isFilled then reject .noMoreHandles else pure ()

/-- Creates a file, or empties one that exists, with the directories above it. -/
def createFile : Service UInt32 := do
  let path ← argumentPath 2
  requireFreeHandle
  let (made, host) := (← get).host.makeDirectories path.dropLast
  setHost host
  if made.isOk then
    match host.createFile path with
    | .error _ => reject .accessDenied
    | .ok (file, grown) =>
      setHost grown
      giveHandle { file, path, readable := false, writable := true }
  else reject .accessDenied

def openMode? (word : UInt16) : Option (Bool × Bool) :=
  match word &&& 3 with
  | 0 => some (true, false)
  | 1 => some (false, true)
  | 2 => some (true, true)
  | _ => none

def openFile : Service UInt32 := do
  let path ← argumentPath 2
  match openMode? (← argumentWord 6) with
  | none => reject .invalidArgument
  | some (readable, writable) =>
    requireFreeHandle
    match (← get).host.fileAt path with
    | .error _ => reject .fileNotFound
    | .ok file => giveHandle { file, path, readable, writable }

def closeFile : Service UInt32 := do
  let handle ← argumentHandle 2
  let (wasOpen, handles) := (← get).kernel.handles.close handle
  if wasOpen then
    setKernel fun kernel => { kernel with handles }
    return 0
  else reject .invalidHandle

def replaceFile (handle : Int16) (f : OpenFile) : Service Unit :=
  setKernel fun kernel => { kernel with handles := kernel.handles.replace handle f }

def fetch (handle : Int16) (count : Nat) (fault? : Option HostFault := none) :
    Service (List UInt8) := do
  let s ← get
  match s.kernel.handles.get? handle with
  | none => reject .invalidHandle
  | some .reserved => reject .invalidHandle
  | some .consoleOutput => reject .accessDenied
  | some .consoleInput =>
    exchange (s.console.takeLine count fault?)
  | some (.file f) =>
    let (transfer, moved) := s.host.readFrom f count fault?
    replaceFile handle moved
    match transfer with
    | .ok data => return data
    | .error _ => reject .internalError

def readFile (fault? : Option HostFault := none) : Service UInt32 := do
  let handle ← argumentHandle 2
  let count ← argumentLong 4
  let buffer ← argumentLong 8
  requireWritable buffer count.toNat
  let data ← fetch handle count.toNat fault?
  storeBuffer buffer data
  return data.length.toUInt32

def send (handle : Int16) (data : List UInt8) (fault? : Option HostFault := none) :
    Service Unit := do
  let s ← get
  match s.kernel.handles.get? handle with
  | none => reject .invalidHandle
  | some .reserved => reject .invalidHandle
  | some .consoleInput => reject .accessDenied
  | some .consoleOutput => print data fault?
  | some (.file f) =>
    let (transfer, moved, host) := s.host.writeTo f data fault?
    setHost host
    replaceFile handle moved
    match transfer with
    | .ok () => return ()
    | .error _ => reject .internalError

def writeFile (fault? : Option HostFault := none) : Service UInt32 := do
  let handle ← argumentHandle 2
  let count ← argumentLong 4
  let buffer ← argumentLong 8
  if ((← get).kernel.handles.get? handle).isNone then reject .invalidHandle
  let data ← loadBuffer buffer count.toNat
  send handle data fault?
  return count

def deleteFile : Service UInt32 := do
  let path ← argumentPath 2
  match (← get).host.removeName path with
  | .error _ => reject .fileNotFound
  | .ok host =>
    setHost host
    return 0

/-- The origin that a mode word names. An offset from the start must not be negative. -/
def seekOrigin? (word : UInt16) (offset : Int32) : Option SeekOrigin :=
  match word with
  | 0 => if offset < 0 then none else some .start
  | 1 => some .current
  | 2 => some .finish
  | _ => none

def seekStatus (number? : Option Int32) (invalidInput : Bool) : Status :=
  match number? with
  | some number =>
    if number = 9 then .invalidHandle
    else if number = 29 then .accessDenied
    else if number = 22 then .invalidArgument
    else .internalError
  | none => if invalidInput then .invalidArgument else .internalError

def seekFile : Service UInt32 := do
  let offset := (← argumentLong 2).toInt32
  let handle ← argumentHandle 6
  match seekOrigin? (← argumentWord 8) offset with
  | none => reject .invalidArgument
  | some origin =>
    let s ← get
    match s.kernel.handles.get? handle with
    | none => reject .invalidHandle
    | some .reserved => reject .invalidHandle
    | some .consoleInput => reject .accessDenied
    | some .consoleOutput => reject .accessDenied
    | some (.file f) =>
      match s.host.seek f origin offset.toInt with
      | .error cause => reject (seekStatus cause.number? false)
      | .ok moved =>
        replaceFile handle moved
        if moved.position < UInt32.size then return moved.position.toUInt32
        else reject .rangeError

/-- The attributes of a file or directory. They cannot be changed. -/
def fileAttributes : Service UInt32 := do
  let path ← argumentPath 2
  if (← argumentWord 6) ≠ 0 then reject .invalidArgument
  let host := (← get).host
  match HostTree.status (host.locate path true) with
  | .error _ => reject .fileNotFound
  | .ok (_, entry) =>
    let kind :=
      match entry with
      | .directory _ => directoryAttribute
      | _ => 0
    return kind ||| (if host.isReadOnly entry then readOnlyAttribute else 0)

def timeStatus (cause : HostError) : Status :=
  if cause.number? = some 9 then .invalidHandle else .internalError

/-- The time a handle carries: that of the last change to a file, and the present on the console. -/
def timeOf (handle : Int16) (fault? : Option HostFault := none) : Service DateTime := do
  let s ← get
  match s.kernel.handles.get? handle with
  | none => reject .invalidHandle
  | some .reserved => reject .invalidHandle
  | some (.file f) =>
    match fault? with
    | none => return DateTime.ofSeconds ((s.host.file f.file).modified + s.console.clock.offset)
    | some fault => reject (timeStatus fault.cause)
  | some _ => return s.console.clock.now

/-- Stores the time of a handle as two packed words. It cannot be changed. -/
def fileTime (fault? : Option HostFault := none) : Service UInt32 := do
  let buffer ← argumentLong 2
  let handle ← argumentHandle 6
  if (← argumentWord 8) ≠ 0 then reject .invalidArgument
  requireWritable buffer 4
  let time ← timeOf handle fault?
  storeBuffer buffer (bytesOfLong (dateTimeLong time.date time.time))
  return 0

def setTransferAddress : Service UInt32 := do
  let dta ← argumentLong 2
  setKernel fun kernel => { kernel with dta }
  return 0

def transferAddress : Service UInt32 :=
  return (← get).kernel.dta

/-- Directories cannot be searched, so nothing is found under any path. -/
def searchFirst : Service UInt32 := do
  let _ ← argumentPath 2
  reject .fileNotFound

def searchNext : Service UInt32 :=
  reject .noMoreFiles

end Service

end AtariTos
