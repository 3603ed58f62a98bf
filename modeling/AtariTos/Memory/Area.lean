import AtariTos.Bytes
import AtariTos.Memory.Device
import AtariTos.Memory.Rights

namespace AtariTos

inductive Storage where
  | buffer (bytes : Bytes)
  | device (len : UInt32) (device : Device)

namespace Storage

def len : Storage → UInt32
  | buffer bytes => (min bytes.size 0xffffffff).toUInt32
  | device len _ => len

def load (storage : Storage) (offset count : Nat) : List UInt8 × Storage :=
  match storage with
  | buffer bytes => ((bytes.extract offset (offset + count)).toList, .buffer bytes)
  | device len d =>
    let (values, next) := d.load offset count
    (values, .device len next)

def store (storage : Storage) (offset : Nat) (data : List UInt8) : Storage :=
  match storage with
  | buffer bytes => .buffer (Bytes.overwrite bytes offset data)
  | device len d => .device len (d.store offset data)

def peek (storage : Storage) (offset count : Nat) : List UInt8 :=
  match storage with
  | buffer bytes => (bytes.extract offset (offset + count)).toList
  | device _ d => d.peek offset count

def describe : Storage → String
  | buffer bytes => s!"Host({bytes.size} bytes)"
  | device _ d => s!"Callback({d.name})"

theorem len_store (storage : Storage) (offset : Nat) (data : List UInt8) :
    (storage.store offset data).len = storage.len := by
  cases storage with
  | buffer bytes => simp only [store, len, Bytes.size_overwrite]
  | device size d => rfl

end Storage

structure Area where
  name : String
  base : UInt32
  rights : Rights
  storage : Storage

namespace Area

def len (a : Area) : UInt32 :=
  a.storage.len

/-- One past the last address; it may lie beyond the last longword. -/
def stop (a : Area) : Nat :=
  a.base.toNat + a.len.toNat

/-- The last address of an area, or of its part that longwords reach. -/
def last (a : Area) : UInt32 :=
  (min a.stop UInt32.size - 1).toUInt32

def isEmpty (a : Area) : Bool :=
  a.len = 0

def isBuffer (a : Area) : Bool :=
  match a.storage with
  | .buffer _ => true
  | .device _ _ => false

def contains (a : Area) (addr : UInt32) : Bool :=
  a.base ≤ addr && addr.toNat < a.stop

def covers (a : Area) (addr : UInt32) (count : Nat) : Bool :=
  a.contains addr && addr.toNat + count ≤ a.stop

def overlaps (a b : Area) : Bool :=
  max a.base.toNat b.base.toNat < min a.stop b.stop

def offset (a : Area) (addr : UInt32) : Nat :=
  addr.toNat - a.base.toNat

def load (a : Area) (addr : UInt32) (count : Nat) : List UInt8 × Area :=
  let (values, storage) := a.storage.load (a.offset addr) count
  (values, { a with storage })

def store (a : Area) (addr : UInt32) (data : List UInt8) : Area :=
  { a with storage := a.storage.store (a.offset addr) data }

def peek (a : Area) (addr : UInt32) (count : Nat) : List UInt8 :=
  a.storage.peek (a.offset addr) count

def ofBuffer (name : String) (base : UInt32) (bytes : Bytes) (rights : Rights) : Area :=
  ⟨name, base, rights, .buffer bytes⟩

def ofDevice (name : String) (base len : UInt32) (device : Device) (rights : Rights) : Area :=
  ⟨name, base, rights, .device len device⟩

end Area

end AtariTos
