import AtariTos.Memory.Guest

namespace AtariTos

namespace GuestMemory

def locate (memory : GuestMemory) (addr : UInt32) (count : Nat) (access : Access)
    (mode : Privilege) : Except Fault Area :=
  match memory.find? addr with
  | none => .error (.unmapped addr)
  | some area =>
    if !area.covers addr count then .error (.unmapped addr)
    else if area.rights.permits access mode then .ok area
    else .error (.denied addr access mode)

/-- Reads bytes in ascending order, and hands the memory back also when that fails. Reading nothing
always succeeds. -/
def tryLoad (memory : GuestMemory) (addr : UInt32) (count : Nat) (mode : Privilege) :
    Except Fault (List UInt8) × GuestMemory :=
  if count = 0 then (.ok [], memory)
  else
    match memory.locate addr count .read mode with
    | .error fault => (.error fault, memory)
    | .ok area =>
      if area.isBuffer then (.ok (area.load addr count).1, memory)
      else
        let (values, next) := area.load addr count
        (.ok values, memory.modify area.base fun _ => next)

def load (memory : GuestMemory) (addr : UInt32) (count : Nat) (mode : Privilege) :
    Except Fault (List UInt8 × GuestMemory) :=
  match memory.tryLoad addr count mode with
  | (.ok data, next) => .ok (data, next)
  | (.error fault, _) => .error fault

theorem load_cases (memory : GuestMemory) (addr : UInt32) (count : Nat) (mode : Privilege) :
    memory.load addr count mode =
      if count = 0 then .ok ([], memory)
      else
        match memory.locate addr count .read mode with
        | .error fault => .error fault
        | .ok area =>
          if area.isBuffer then .ok ((area.load addr count).1, memory)
          else
            .ok ((area.load addr count).1,
              memory.modify area.base fun _ => (area.load addr count).2) := by
  unfold load tryLoad
  grind

theorem tryLoad_eq (memory : GuestMemory) (addr : UInt32) (count : Nat) (mode : Privilege) :
    memory.tryLoad addr count mode =
      match memory.load addr count mode with
      | .ok (data, next) => (.ok data, next)
      | .error fault => (.error fault, memory) := by
  unfold load tryLoad
  grind

/-- Writes bytes in ascending order, and hands the memory back also when that fails. Writing nothing
always succeeds. -/
def tryStore (memory : GuestMemory) (addr : UInt32) (data : List UInt8) (mode : Privilege) :
    Except Fault Unit × GuestMemory :=
  if data.isEmpty then (.ok (), memory)
  else
    match memory.locate addr data.length .write mode with
    | .error fault => (.error fault, memory)
    | .ok area => (.ok (), memory.modify area.base (·.store addr data))

def store (memory : GuestMemory) (addr : UInt32) (data : List UInt8) (mode : Privilege) :
    Except Fault GuestMemory :=
  match memory.tryStore addr data mode with
  | (.ok (), next) => .ok next
  | (.error fault, _) => .error fault

theorem store_cases (memory : GuestMemory) (addr : UInt32) (data : List UInt8)
    (mode : Privilege) :
    memory.store addr data mode =
      if data.isEmpty then .ok memory
      else
        match memory.locate addr data.length .write mode with
        | .error fault => .error fault
        | .ok area => .ok (memory.modify area.base (·.store addr data)) := by
  unfold store tryStore
  grind

theorem tryStore_eq (memory : GuestMemory) (addr : UInt32) (data : List UInt8)
    (mode : Privilege) :
    memory.tryStore addr data mode =
      match memory.store addr data mode with
      | .ok next => (.ok (), next)
      | .error fault => (.error fault, memory) := by
  unfold store tryStore
  grind

def peekBytes (memory : GuestMemory) (addr : UInt32) (count : Nat) (mode : Privilege) :
    Except Fault (List UInt8) :=
  match memory.locate addr count .peek mode with
  | .error fault => .error fault
  | .ok area => .ok (area.peek addr count)

def read (memory : GuestMemory) (addr : UInt32) (width : Width) (mode : Privilege) :
    Except Fault (UInt32 × GuestMemory) :=
  (memory.load addr width.bytes mode).map fun (values, next) => (longOfBytes values, next)

def write (memory : GuestMemory) (addr : UInt32) (width : Width) (value : UInt32)
    (mode : Privilege) : Except Fault GuestMemory :=
  memory.store addr (width.encode value) mode

/-- Reads without side effects; a right to read or to write suffices. -/
def peek (memory : GuestMemory) (addr : UInt32) (width : Width) (mode : Privilege) :
    Except Fault UInt32 :=
  (memory.peekBytes addr width.bytes mode).map longOfBytes

/-- The bytes of `area` from `cursor` up to a zero byte, after those already in `seen`. -/
def scanString (area : Area) : Nat → UInt32 → List UInt8 → Except Fault (Option (List UInt8))
  | 0, _, _ => .ok none
  | limit + 1, cursor, seen =>
    if !area.contains cursor then .error (.unmapped cursor)
    else
      let value := (longOfBytes (area.peek cursor 1)).toUInt8
      if value = 0 then .ok (some seen.reverse)
      else if cursor = 0xffffffff then .error (.unmapped cursor)
      else scanString area limit (cursor + 1) (value :: seen)

/-- The string that ends before the first zero byte, or nothing when no zero byte shows up within
`limit` bytes. A string that leaves its area is not mapped. -/
def peekString (memory : GuestMemory) (addr : UInt32) (limit : Nat) (mode : Privilege) :
    Except Fault (Option (List UInt8)) :=
  match memory.locate addr 1 .peek mode with
  | .error fault => .error fault
  | .ok area => scanString area limit addr []

end GuestMemory

end AtariTos
