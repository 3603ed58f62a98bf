import AtariTos.Proofs.SessionRun

namespace AtariTos

namespace Device

/-- Being read does not change the state. -/
def IsSilent (d : Device) : Prop :=
  ∀ state offset, (d.onRead state offset).2 = state

variable {d : Device}

theorem IsSilent.readByte (silent : d.IsSilent) (offset : Nat) : (d.readByte offset).2 = d := by
  have same : (d.onRead d.state offset.toUInt32).2 = d.state := silent _ _
  simp only [Device.readByte, same]

theorem IsSilent.load (silent : d.IsSilent) (offset count : Nat) : (d.load offset count).2 = d := by
  induction count generalizing offset with
  | zero => rfl
  | succ count ih =>
    have first := silent.readByte offset
    have rest := ih (offset + 1)
    simp only [Device.load, first, rest]

theorem onRead_store (d : Device) (offset : Nat) (data : List UInt8) :
    (d.store offset data).onRead = d.onRead := by
  induction data generalizing d offset with
  | nil => rfl
  | cons value rest ih => exact ih _ _

theorem trampoline_isSilent : trampoline.IsSilent :=
  fun _ _ => rfl

end Device

namespace Area

/-- A property that accesses keep. -/
structure Lasting (Q : Area → Prop) : Prop where
  load : ∀ a addr count, Q a → Q (a.load addr count).2
  store : ∀ a addr data, Q a → Q (a.store addr data)

/-- Being read leaves no trace. -/
def IsSilent (a : Area) : Prop :=
  match a.storage with
  | .buffer _ => True
  | .device _ d => d.IsSilent

/-- What is written stays and can be read again. -/
def HoldsWrites (a : Area) : Prop :=
  a.rights.mayWrite .supervisor = true →
    a.isBuffer = true ∧ a.rights.mayRead .supervisor = true

variable {a : Area}

theorem IsSilent.load (silent : a.IsSilent) (addr : UInt32) (count : Nat) :
    (a.load addr count).2 = a := by
  obtain ⟨name, base, rights, storage⟩ := a
  cases storage with
  | buffer bytes => rfl
  | device len d =>
    have same := Device.IsSilent.load silent (addr.toNat - base.toNat) count
    simp only [Area.load, offset, Storage.load, same]

theorem lasting_isSilent : Lasting IsSilent := by
  refine ⟨fun a addr count silent => ?_, fun a addr data silent => ?_⟩
  · rw [silent.load]
    exact silent
  · obtain ⟨name, base, rights, storage⟩ := a
    cases storage with
    | buffer bytes => trivial
    | device len d =>
      intro state offset
      rw [Device.onRead_store]
      exact silent state offset

theorem isBuffer_load (a : Area) (addr : UInt32) (count : Nat) :
    (a.load addr count).2.isBuffer = a.isBuffer := by
  obtain ⟨name, base, rights, storage⟩ := a
  cases storage <;> rfl

theorem isBuffer_store (a : Area) (addr : UInt32) (data : List UInt8) :
    (a.store addr data).isBuffer = a.isBuffer := by
  obtain ⟨name, base, rights, storage⟩ := a
  cases storage <;> rfl

theorem lasting_holdsWrites : Lasting HoldsWrites := by
  refine ⟨fun a addr count holds allowed => ?_, fun a addr data holds allowed => ?_⟩
  · obtain ⟨buffer, readable⟩ := holds allowed
    exact ⟨(a.isBuffer_load addr count).trans buffer, readable⟩
  · obtain ⟨buffer, readable⟩ := holds allowed
    exact ⟨(a.isBuffer_store addr data).trans buffer, readable⟩

end Area

namespace GuestMemory

def Each (memory : GuestMemory) (Q : Area → Prop) : Prop :=
  ∀ a ∈ memory.areas, Q a

variable {memory next : GuestMemory} {Q : Area → Prop} {area : Area} {addr : UInt32}
  {mode : Privilege}

theorem each_empty (Q : Area → Prop) : empty.Each Q :=
  fun _ h => absurd h List.not_mem_nil

theorem mem_of_locate {count : Nat} {access : Access}
    (h : memory.locate addr count access mode = .ok area) : area ∈ memory.areas := by
  unfold locate at h
  split at h
  · cases h
  next found there =>
    have nearest := (Option.filter_eq_some_iff.mp there).1
    have member := (List.mem_filter.mp (List.mem_of_getLast? nearest)).1
    split at h
    · cases h
    split at h
    · cases h
      exact member
    · cases h

theorem Each.modify (each : memory.Each Q) {base : UInt32} {change : Area → Area}
    (kept : ∀ a ∈ memory.areas, Q (change a)) : (memory.modify base change).Each Q := by
  intro b hb
  obtain ⟨a, ha, rfl⟩ := List.mem_map.mp hb
  split
  · exact kept a ha
  · exact each a ha

theorem Each.of_load (each : memory.Each Q) (lasting : Area.Lasting Q) {count : Nat}
    {values : List UInt8} (h : memory.load addr count mode = .ok (values, next)) : next.Each Q := by
  rw [load_cases] at h
  split at h
  · cases h
    exact each
  split at h
  · cases h
  next area located =>
    have member := mem_of_locate located
    split at h
    · cases h
      exact each
    · cases h
      exact each.modify fun _ _ => lasting.load area addr count (each area member)

theorem Each.of_store (each : memory.Each Q) (lasting : Area.Lasting Q) {data : List UInt8}
    (h : memory.store addr data mode = .ok next) : next.Each Q := by
  rw [store_cases] at h
  split at h
  · cases h
    exact each
  split at h
  · cases h
  · cases h
    exact each.modify fun a ha => lasting.store a addr data (each a ha)

theorem Each.of_accessed (each : memory.Each Q) (lasting : Area.Lasting Q)
    (h : memory.Accessed next) : next.Each Q := by
  induction h with
  | refl => exact each
  | load _ loaded ih => exact ih.of_load lasting loaded
  | store _ stored ih => exact ih.of_store lasting stored

theorem Ordered.load_of_isSilent (ordered : memory.Ordered) (silent : memory.Each Area.IsSilent)
    {count : Nat} {values : List UInt8} (h : memory.load addr count mode = .ok (values, next)) :
    next = memory := by
  rcases ordered.load_eq_ok h with ⟨_, _, rfl⟩ | ⟨area, member, _, _, _, _, rfl | ⟨_, rfl⟩⟩
  · rfl
  · rfl
  · have unmoved : memory.areas.map (fun a => if a.base = area.base then (area.load addr count).2
        else a) = memory.areas.map id := by
      refine List.map_congr_left fun a ha => ?_
      split
      next same =>
        rw [(silent area member).load, ordered.eq_of_base ha member same]
        rfl
      · rfl
    rw [GuestMemory.modify, unmoved, List.map_id]

theorem Ordered.read_of_isSilent (ordered : memory.Ordered) (silent : memory.Each Area.IsSilent)
    {width : Width} {value : UInt32} (h : memory.read addr width mode = .ok (value, next)) :
    next = memory := by
  unfold read at h
  cases loaded : memory.load addr width.bytes mode with
  | error fault =>
    rw [loaded] at h
    cases h
  | ok result =>
    rw [loaded] at h
    cases h
    exact ordered.load_of_isSilent silent loaded

end GuestMemory

namespace LoadedProgram

theorem each_areas {Q : Area → Prop} (buffers : ∀ name base bytes rights,
      (rights.mayWrite .supervisor = true → rights.mayRead .supervisor = true) →
        Q (.ofBuffer name base bytes rights))
    (device : Q trampolineArea) (basepage : Basepage) (stored : Bytes) (ramTop : UInt32) :
    ∀ a ∈ areas basepage stored ramTop, Q a := by
  intro a ha
  simp only [areas, List.mem_cons, List.not_mem_nil, or_false] at ha
  rcases ha with rfl | rfl | rfl | rfl | rfl | rfl
  · exact buffers _ _ _ _ (by decide)
  · exact device
  · exact buffers _ _ _ _ (by decide)
  · exact buffers _ _ _ _ (by decide)
  · exact buffers _ _ _ _ (by decide)
  · exact buffers _ _ _ _ (by decide)

theorem isSilent_areas (basepage : Basepage) (stored : Bytes) (ramTop : UInt32) :
    ∀ a ∈ areas basepage stored ramTop, a.IsSilent :=
  each_areas (fun _ _ _ _ _ => trivial) Device.trampoline_isSilent basepage stored ramTop

theorem holdsWrites_areas (basepage : Basepage) (stored : Bytes) (ramTop : UInt32) :
    ∀ a ∈ areas basepage stored ramTop, a.HoldsWrites :=
  each_areas (fun _ _ _ _ readable allowed => ⟨rfl, readable allowed⟩)
    (fun allowed => by cases allowed) basepage stored ramTop

end LoadedProgram

namespace Session

variable {Q : Area → Prop} {s : Session}

theorem each_load (placed : ∀ basepage stored ramTop,
      ∀ a ∈ LoadedProgram.areas basepage stored ramTop, Q a) (file : Bytes) (args : List String) :
    (s.load file args).2.system.memory.Each Q := by
  unfold load
  cases loaded : LoadedProgram.ofFile file args s.ramTop with
  | error cause => exact GuestMemory.each_empty Q
  | ok result =>
    obtain ⟨stored, _, _, _, _, added, _⟩ := LoadedProgram.ofFile_eq_ok_iff.mp loaded
    obtain ⟨_, member⟩ := GuestMemory.ordered_empty.addAll added
    intro a ha
    rcases (member a).mp ha with new | old
    · exact placed _ _ _ a new
    · exact absurd old List.not_mem_nil

/-- What holds of the areas that a program is loaded with, and no access changes, holds of every
area along every run. -/
theorem each_performAll (lasting : Area.Lasting Q) (placed : ∀ basepage stored ramTop,
      ∀ a ∈ LoadedProgram.areas basepage stored ramTop, Q a)
    (each : s.system.memory.Each Q) (actions : List Action) :
    (s.performAll actions).system.memory.Each Q := by
  refine performAll_induction (fun s => s.system.memory.Each Q) (fun _ => True)
    (fun s action _ each => ?_) (fun _ _ => trivial) each
  cases action with
  | load file args => exact each_load placed file args
  | close => exact GuestMemory.each_empty Q
  | _ => exact each.of_accessed lasting (s.accessed_perform rfl)

theorem isSilent_performAll (each : s.system.memory.Each Area.IsSilent) (actions : List Action) :
    (s.performAll actions).system.memory.Each Area.IsSilent :=
  each_performAll Area.lasting_isSilent LoadedProgram.isSilent_areas each actions

theorem holdsWrites_performAll (each : s.system.memory.Each Area.HoldsWrites)
    (actions : List Action) : (s.performAll actions).system.memory.Each Area.HoldsWrites :=
  each_performAll Area.lasting_holdsWrites LoadedProgram.holdsWrites_areas each actions

variable {loaded : Session} {file : Bytes} {args : List String} {program : LoadedProgram}

theorem isSilent_of_load (load : s.load file args = (.ok program, loaded))
    (actions : List Action) :
    (loaded.performAll actions).system.memory.Each Area.IsSilent := by
  have each := each_load (s := s) LoadedProgram.isSilent_areas file args
  rw [load] at each
  exact isSilent_performAll each actions

theorem holdsWrites_of_load (load : s.load file args = (.ok program, loaded))
    (actions : List Action) :
    (loaded.performAll actions).system.memory.Each Area.HoldsWrites := by
  have each := each_load (s := s) LoadedProgram.holdsWrites_areas file args
  rw [load] at each
  exact holdsWrites_performAll each actions

end Session

end AtariTos
