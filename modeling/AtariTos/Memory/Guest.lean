import AtariTos.Memory.Area
import AtariTos.Memory.Fault

namespace AtariTos

structure GuestMemory where
  areas : List Area := []

namespace GuestMemory

def empty : GuestMemory := {}

/-- Puts an area before the first one that starts above it. -/
def insertSorted (area : Area) : List Area → List Area
  | [] => [area]
  | other :: rest =>
    if area.base < other.base then area :: other :: rest else other :: insertSorted area rest

def nearest? (memory : GuestMemory) (addr : UInt32) : Option Area :=
  (memory.areas.filter (·.base ≤ addr)).getLast?

/-- Adds an area, and hands the table back also when the area is refused. Only the highest area that
starts below the end of the new one can reach into it, and a collision names that area. -/
def tryAdd (memory : GuestMemory) (area : Area) : Except Fault Unit × GuestMemory :=
  if area.isEmpty then (.error (.noBytes area.name), memory)
  else
    match memory.nearest? area.last with
    | some existing =>
      if area.base.toNat < existing.stop then
        (.error (.collision area.name area.base area.stop existing.name), memory)
      else (.ok (), ⟨insertSorted area memory.areas⟩)
    | none => (.ok (), ⟨insertSorted area memory.areas⟩)

def add (memory : GuestMemory) (area : Area) : Except Fault GuestMemory :=
  match memory.tryAdd area with
  | (.ok (), next) => .ok next
  | (.error fault, _) => .error fault

theorem add_eq (memory : GuestMemory) (area : Area) :
    memory.add area =
      if area.isEmpty then .error (.noBytes area.name)
      else
        match memory.nearest? area.last with
        | some existing =>
          if area.base.toNat < existing.stop then
            .error (.collision area.name area.base area.stop existing.name)
          else .ok ⟨insertSorted area memory.areas⟩
        | none => .ok ⟨insertSorted area memory.areas⟩ := by
  unfold add tryAdd
  grind

theorem tryAdd_eq (memory : GuestMemory) (area : Area) :
    memory.tryAdd area =
      match memory.add area with
      | .ok next => (.ok (), next)
      | .error fault => (.error fault, memory) := by
  unfold add tryAdd
  grind

def tryRemove (memory : GuestMemory) (base : UInt32) : Except Fault Area × GuestMemory :=
  match memory.areas.find? (·.base = base) with
  | some area => (.ok area, ⟨memory.areas.filter (·.base ≠ base)⟩)
  | none => (.error (.noSuchArea base), memory)

def remove (memory : GuestMemory) (base : UInt32) : Except Fault (Area × GuestMemory) :=
  match memory.tryRemove base with
  | (.ok area, next) => .ok (area, next)
  | (.error fault, _) => .error fault

theorem remove_eq (memory : GuestMemory) (base : UInt32) :
    memory.remove base =
      match memory.areas.find? (·.base = base) with
      | some area => .ok (area, ⟨memory.areas.filter (·.base ≠ base)⟩)
      | none => .error (.noSuchArea base) := by
  unfold remove tryRemove
  cases memory.areas.find? (·.base = base) <;> rfl

theorem tryRemove_eq (memory : GuestMemory) (base : UInt32) :
    memory.tryRemove base =
      match memory.remove base with
      | .ok (area, next) => (.ok area, next)
      | .error fault => (.error fault, memory) := by
  unfold remove tryRemove
  cases memory.areas.find? (·.base = base) <;> rfl

def addAll (memory : GuestMemory) (areas : List Area) : Except Fault GuestMemory :=
  areas.foldlM add memory

/-- The area that holds an address. Only the nearest one can. -/
def find? (memory : GuestMemory) (addr : UInt32) : Option Area :=
  (memory.nearest? addr).filter (·.contains addr)

def modify (memory : GuestMemory) (base : UInt32) (change : Area → Area) : GuestMemory :=
  ⟨memory.areas.map fun area => if area.base = base then change area else area⟩

end GuestMemory

end AtariTos
