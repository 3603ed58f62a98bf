import AtariTos.Host.Files

namespace AtariTos

inductive HandleTarget where
  | consoleInput
  | consoleOutput
  /-- A port with nothing behind it. -/
  | reserved
  | file (f : OpenFile)
deriving DecidableEq, Repr

/-- Ten slots, that of handle 0 first. -/
structure HandleTable where
  slots : Vector (Option HandleTarget) 10
deriving DecidableEq

namespace HandleTable

def firstFile : Nat := 6

/-- Handle 0 reads the console, 1 and 2 write to it, and 3 to 5 stand for ports. -/
def initialSlot (i : Fin 10) : Option HandleTarget :=
  if i.val = 0 then some .consoleInput
  else if i.val < 3 then some .consoleOutput
  else if i.val < firstFile then some .reserved
  else none

def initial : HandleTable :=
  ⟨Vector.ofFn initialSlot⟩

def index? (handle : Int16) : Option (Fin 10) :=
  if h : 0 ≤ handle.toInt ∧ handle.toInt < 10 then some ⟨handle.toInt.toNat, by omega⟩ else none

def handleOf (i : Fin 10) : Int16 :=
  Int16.ofNat i.val

def get? (table : HandleTable) (handle : Int16) : Option HandleTarget :=
  (index? handle).bind table.slots.get

def setSlot (table : HandleTable) (i : Fin 10) (slot : Option HandleTarget) : HandleTable :=
  ⟨table.slots.set i slot⟩

def filePlaces : List (Fin 10) :=
  (List.finRange 10).drop firstFile

def firstFree? (table : HandleTable) : Option (Fin 10) :=
  filePlaces.find? fun i => (table.slots.get i).isNone

/-- Puts a file into the lowest free slot and answers its handle. -/
def insert (table : HandleTable) (f : OpenFile) : Option Int16 × HandleTable :=
  match table.firstFree? with
  | none => (none, table)
  | some i => (some (handleOf i), table.setSlot i (some (.file f)))

def fileSlots (table : HandleTable) : List (Option HandleTarget) :=
  table.slots.toList.drop firstFile

def isFilled (table : HandleTable) : Bool :=
  table.fileSlots.all Option.isSome

def openCount (table : HandleTable) : Nat :=
  (table.fileSlots.filter Option.isSome).length

def replace (table : HandleTable) (handle : Int16) (f : OpenFile) : HandleTable :=
  match index? handle with
  | none => table
  | some i =>
    match table.slots.get i with
    | some (.file _) => table.setSlot i (some (.file f))
    | _ => table

/-- Closes a file handle and tells whether it was open. Handles 0 to 5 always are, and stay so. -/
def close (table : HandleTable) (handle : Int16) : Bool × HandleTable :=
  match index? handle with
  | none => (false, table)
  | some i =>
    if i.val < firstFile then (true, table)
    else ((table.slots.get i).isSome, table.setSlot i none)

def closeFiles (table : HandleTable) : HandleTable :=
  filePlaces.foldl (fun table i => table.setSlot i none) table

/-- The first six slots are as at the start, and the others hold files only. -/
structure IsProper (table : HandleTable) : Prop where
  standard : ∀ i : Fin 10, i.val < firstFile → table.slots.get i = initialSlot i
  files : ∀ i : Fin 10, firstFile ≤ i.val → ∀ target, table.slots.get i = some target →
    ∃ f, target = .file f

theorem get_setSlot_self (table : HandleTable) (i : Fin 10) (slot : Option HandleTarget) :
    (table.setSlot i slot).slots.get i = slot :=
  Vector.getElem_set_self i.isLt

theorem get_setSlot_of_ne {i j : Fin 10} (table : HandleTable) (slot : Option HandleTarget)
    (apart : i ≠ j) : (table.setSlot i slot).slots.get j = table.slots.get j :=
  Vector.getElem_set_ne i.isLt j.isLt fun same => apart (Fin.ext same)

theorem get_initial (i : Fin 10) : initial.slots.get i = initialSlot i :=
  Vector.getElem_ofFn i.isLt

theorem initialSlot_eq_none_iff {i : Fin 10} : initialSlot i = none ↔ firstFile ≤ i.val := by
  revert i
  decide

theorem initialSlot_ne_file (i : Fin 10) (f : OpenFile) : initialSlot i ≠ some (.file f) := by
  unfold initialSlot
  split
  · nofun
  split
  · nofun
  split <;> nofun

theorem mem_filePlaces_iff {i : Fin 10} : i ∈ filePlaces ↔ firstFile ≤ i.val := by
  revert i
  decide

theorem isProper_initial : IsProper .initial := by
  refine ⟨fun i _ => get_initial i, fun i place target held => ?_⟩
  rw [get_initial, initialSlot_eq_none_iff.mpr place] at held
  cases held

namespace IsProper

variable {table : HandleTable} {i : Fin 10}

theorem setSlot (proper : table.IsProper) {slot : Option HandleTarget} (place : firstFile ≤ i.val)
    (file : ∀ target, slot = some target → ∃ f, target = .file f) :
    (table.setSlot i slot).IsProper := by
  constructor
  · intro j standard
    have apart : i ≠ j := by
      rintro rfl
      omega
    rw [get_setSlot_of_ne table slot apart]
    exact proper.standard j standard
  · intro j place' target held
    by_cases here : i = j
    · subst here
      rw [get_setSlot_self] at held
      exact file target held
    · rw [get_setSlot_of_ne table slot here] at held
      exact proper.files j place' target held

theorem insert (proper : table.IsProper) (f : OpenFile) : (table.insert f).2.IsProper := by
  unfold HandleTable.insert
  split
  · exact proper
  next i free =>
    have place := mem_filePlaces_iff.mp (List.mem_of_find?_eq_some free)
    refine proper.setSlot place fun target held => ?_
    cases held
    exact ⟨f, rfl⟩

theorem replace (proper : table.IsProper) (handle : Int16) (f : OpenFile) :
    (table.replace handle f).IsProper := by
  unfold HandleTable.replace
  split
  · exact proper
  next i _ =>
    split
    next g held =>
      have place : firstFile ≤ i.val := Nat.not_lt.mp fun standard =>
        initialSlot_ne_file i g ((proper.standard i standard).symm.trans held)
      refine proper.setSlot place fun target held => ?_
      cases held
      exact ⟨f, rfl⟩
    · exact proper

theorem close (proper : table.IsProper) (handle : Int16) : (table.close handle).2.IsProper := by
  unfold HandleTable.close
  split
  · exact proper
  · split
    · exact proper
    next other =>
      refine proper.setSlot (Nat.not_lt.mp other) fun target held => ?_
      cases held

theorem closeFiles (proper : table.IsProper) : table.closeFiles.IsProper := by
  suffices every : ∀ places : List (Fin 10), (∀ i ∈ places, firstFile ≤ i.val) →
      ∀ table : HandleTable, table.IsProper →
        (places.foldl (fun table i => table.setSlot i none) table).IsProper from
    every filePlaces (fun _ => mem_filePlaces_iff.mp) table proper
  intro places inside
  induction places with
  | nil => exact fun _ proper => proper
  | cons i rest ih =>
    obtain ⟨place, inside⟩ := List.forall_mem_cons.mp inside
    intro table proper
    exact ih inside _ (proper.setSlot place fun target held => by cases held)

end IsProper

end HandleTable

/-- A table in which the first six handles keep their meaning. -/
structure Handles where
  table : HandleTable := .initial
  proper : table.IsProper := by exact HandleTable.isProper_initial
deriving DecidableEq

namespace Handles

def empty : Handles := {}

def get? (handles : Handles) (handle : Int16) : Option HandleTarget :=
  handles.table.get? handle

def insert (handles : Handles) (f : OpenFile) : Option (Int16 × Handles) :=
  (handles.table.insert f).1.map fun handle =>
    (handle, ⟨(handles.table.insert f).2, handles.proper.insert f⟩)

def isFilled (handles : Handles) : Bool :=
  handles.table.isFilled

def openCount (handles : Handles) : Nat :=
  handles.table.openCount

def replace (handles : Handles) (handle : Int16) (f : OpenFile) : Handles :=
  ⟨handles.table.replace handle f, handles.proper.replace handle f⟩

def close (handles : Handles) (handle : Int16) : Bool × Handles :=
  ((handles.table.close handle).1,
    ⟨(handles.table.close handle).2, handles.proper.close handle⟩)

def closeFiles (handles : Handles) : Handles :=
  ⟨handles.table.closeFiles, handles.proper.closeFiles⟩

end Handles

end AtariTos
