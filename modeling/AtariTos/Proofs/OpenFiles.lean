import AtariTos.Handles
import Mathlib.Data.Fintype.Basic
import Mathlib.Logic.Function.Basic

namespace AtariTos

namespace HandleTable

variable {table next : HandleTable} {handle other : Int16} {i j : Fin 10} {f : OpenFile}

theorem index?_eq_some_iff : index? handle = some i ↔ handle.toInt = i.val := by
  unfold index?
  constructor
  · intro h
    split at h
    next inside =>
      have place : handle.toInt.toNat = i.val := congrArg Fin.val (Option.some.inj h)
      omega
    · cases h
  · intro h
    have inside : 0 ≤ handle.toInt ∧ handle.toInt < 10 := by omega
    have place : handle.toInt.toNat = i.val := by omega
    rw [dif_pos inside]
    exact congrArg some (Fin.ext place)

theorem index?_handleOf (i : Fin 10) : index? (handleOf i) = some i := by
  revert i
  decide

theorem index?_inj (place : index? handle = some i) (place' : index? other = some i) :
    handle = other :=
  Int16.toInt_inj.mp ((index?_eq_some_iff.mp place).trans (index?_eq_some_iff.mp place').symm)

theorem exists_index?_iff : (∃ i, index? handle = some i) ↔ 0 ≤ handle ∧ handle ≤ 9 := by
  have zero : (0 : Int16).toInt = 0 := rfl
  have nine : (9 : Int16).toInt = 9 := rfl
  rw [Int16.le_iff_toInt_le, Int16.le_iff_toInt_le, zero, nine]
  constructor
  · rintro ⟨i, place⟩
    have value := index?_eq_some_iff.mp place
    omega
  · rintro ⟨low, high⟩
    refine ⟨⟨handle.toInt.toNat, by omega⟩, index?_eq_some_iff.mpr ?_⟩
    dsimp only
    omega

theorem firstFile_le_iff (place : index? handle = some i) : firstFile ≤ i.val ↔ 6 ≤ handle := by
  have value := index?_eq_some_iff.mp place
  have six : (6 : Int16).toInt = 6 := rfl
  rw [Int16.le_iff_toInt_le, six, firstFile]
  omega

theorem get?_of_index? (place : index? handle = some i) (table : HandleTable) :
    table.get? handle = table.slots.get i := by
  rw [get?, place, Option.bind_some]

theorem get?_of_outside (outside : handle < 0 ∨ 9 < handle) (table : HandleTable) :
    table.get? handle = none := by
  have nowhere : ¬∃ i, index? handle = some i := by
    rw [exists_index?_iff, not_and_or, Int16.not_le, Int16.not_le]
    exact outside
  rw [get?, Option.eq_none_iff_forall_ne_some.mpr fun i place => nowhere ⟨i, place⟩,
    Option.bind_none]

theorem exists_index?_of_get? {target : HandleTarget} (h : table.get? handle = some target) :
    ∃ i, index? handle = some i ∧ table.slots.get i = some target :=
  Option.bind_eq_some_iff.mp h

theorem get?_setSlot (place : index? handle = some i) (table : HandleTable)
    (slot : Option HandleTarget) :
    (table.setSlot i slot).get? = Function.update table.get? handle slot := by
  funext other
  by_cases same : other = handle
  · rw [same, Function.update_self, get?_of_index? place, get_setSlot_self]
  · rw [Function.update_of_ne same]
    cases place' : index? other with
    | none => rw [get?, get?, place', Option.bind_none, Option.bind_none]
    | some j =>
      have apart : i ≠ j := by
        rintro rfl
        exact same (index?_inj place' place)
      rw [get?_of_index? place', get?_of_index? place', get_setSlot_of_ne table slot apart]

theorem insert_of_free (free : table.firstFree? = some i) (f : OpenFile) :
    table.insert f = (some (handleOf i), table.setSlot i (some (.file f))) := by
  rw [insert, free]

theorem insert_of_filled (filled : table.firstFree? = none) (f : OpenFile) :
    table.insert f = (none, table) := by
  rw [insert, filled]

theorem exists_free_of_insert (h : table.insert f = (some handle, next)) :
    ∃ i, table.firstFree? = some i ∧ handleOf i = handle ∧
      table.setSlot i (some (.file f)) = next := by
  cases free : table.firstFree? with
  | none => cases (insert_of_filled free f).symm.trans h
  | some i =>
    obtain ⟨same, same'⟩ := Prod.mk.inj ((insert_of_free free f).symm.trans h)
    exact ⟨i, rfl, Option.some.inj same, same'⟩

theorem get?_insert (h : table.insert f = (some handle, next)) :
    table.get? handle = none ∧
      next.get? = Function.update table.get? handle (some (.file f)) := by
  obtain ⟨i, free, rfl, rfl⟩ := exists_free_of_insert h
  have place := index?_handleOf i
  have vacant : table.slots.get i = none := by simpa using List.find?_some free
  exact ⟨(get?_of_index? place table).trans vacant, get?_setSlot place table _⟩

theorem fileSlots_eq (table : HandleTable) : table.fileSlots = filePlaces.map table.slots.get := by
  have every : table.slots.toList = (List.finRange 10).map table.slots.get :=
    List.ext_getElem (by simp) fun n small small' => by simp [Vector.get]
  rw [fileSlots, filePlaces, every, List.map_drop]

theorem isFilled_iff :
    table.isFilled = true ↔ ∀ i ∈ filePlaces, (table.slots.get i).isSome = true := by
  rw [isFilled, fileSlots_eq, List.all_map, List.all_eq_true]
  rfl

theorem firstFree?_eq_none_iff : table.firstFree? = none ↔ table.isFilled = true := by
  rw [firstFree?, List.find?_eq_none, isFilled_iff]
  simp [Option.isSome_iff_ne_none]

theorem insert_eq_none_iff : (table.insert f).1 = none ↔ table.isFilled = true := by
  rw [← firstFree?_eq_none_iff]
  cases free : table.firstFree? with
  | none => simp [insert_of_filled free]
  | some i => simp [insert_of_free free]

theorem get?_replace (h : table.get? handle = some (.file f)) (moved : OpenFile) :
    (table.replace handle moved).get? =
      Function.update table.get? handle (some (.file moved)) := by
  obtain ⟨i, place, held⟩ := exists_index?_of_get? h
  unfold replace
  rw [place]
  dsimp only
  rw [held]
  exact get?_setSlot place table _

theorem replace_self (h : table.get? handle = some (.file f)) : table.replace handle f = table := by
  obtain ⟨i, place, held⟩ := exists_index?_of_get? h
  unfold replace
  rw [place]
  dsimp only
  rw [held]
  refine congrArg HandleTable.mk (Vector.ext fun n small => ?_)
  by_cases here : i = ⟨n, small⟩
  · subst here
    exact (get_setSlot_self table _ _).trans held.symm
  · exact get_setSlot_of_ne table _ here

theorem close_of_standard (standard : handle < 6) (table : HandleTable) :
    (table.close handle).2 = table := by
  unfold close
  cases place : index? handle with
  | none => rfl
  | some i =>
    have first : i.val < firstFile := by
      rw [← Nat.not_le, firstFile_le_iff place, Int16.not_le]
      exact standard
    dsimp only
    rw [if_pos first]

theorem get?_close (first : 6 ≤ handle) (table : HandleTable) :
    (table.close handle).2.get? = Function.update table.get? handle none := by
  unfold close
  cases place : index? handle with
  | none =>
    have nothing : table.get? handle = none := by rw [get?, place, Option.bind_none]
    dsimp only
    rw [← nothing, Function.update_eq_self]
  | some i =>
    dsimp only
    rw [if_neg (Nat.not_lt.mpr ((firstFile_le_iff place).mpr first))]
    exact get?_setSlot place table none

theorem get_closeFiles (table : HandleTable) (i : Fin 10) :
    table.closeFiles.slots.get i = if i.val < firstFile then table.slots.get i else none := by
  have each (places : List (Fin 10)) (table : HandleTable) :
      (places.foldl (fun table i => table.setSlot i none) table).slots.get i =
        if i ∈ places then none else table.slots.get i := by
    induction places generalizing table with
    | nil => rfl
    | cons j rest ih =>
      rw [List.foldl_cons, ih]
      by_cases later : i ∈ rest
      · rw [if_pos later, if_pos (List.mem_cons_of_mem j later)]
      · rw [if_neg later]
        by_cases here : j = i
        · rw [here, get_setSlot_self, if_pos List.mem_cons_self]
        · have absent : i ∉ j :: rest := by
            rw [List.mem_cons, not_or]
            exact ⟨Ne.symm here, later⟩
          rw [get_setSlot_of_ne table none here, if_neg absent]
  rw [closeFiles, each]
  by_cases standard : i.val < firstFile
  · rw [if_pos standard, if_neg (mt mem_filePlaces_iff.mp (Nat.not_le.mpr standard))]
  · rw [if_neg standard, if_pos (mem_filePlaces_iff.mpr (Nat.not_lt.mp standard))]

theorem IsProper.closeFiles_eq_initial (proper : table.IsProper) : table.closeFiles = .initial := by
  refine congrArg HandleTable.mk (Vector.ext fun n small => ?_)
  have here := table.get_closeFiles ⟨n, small⟩
  refine here.trans (Eq.trans ?_ (get_initial ⟨n, small⟩).symm)
  split
  next standard => exact proper.standard _ standard
  next other => exact (initialSlot_eq_none_iff.mpr (Nat.not_lt.mp other)).symm

theorem IsProper.get?_eq (proper : table.IsProper) (standard : handle < 6) :
    table.get? handle = HandleTable.initial.get? handle := by
  cases place : index? handle with
  | none => rw [get?, get?, place, Option.bind_none, Option.bind_none]
  | some i =>
    have first : i.val < firstFile := by
      rw [← Nat.not_le, firstFile_le_iff place, Int16.not_le]
      exact standard
    rw [get?_of_index? place, get?_of_index? place, get_initial, proper.standard i first]

theorem IsProper.exists_file (proper : table.IsProper) (first : 6 ≤ handle)
    {target : HandleTarget} (h : table.get? handle = some target) : ∃ f, target = .file f := by
  obtain ⟨i, place, held⟩ := exists_index?_of_get? h
  exact proper.files i ((firstFile_le_iff place).mpr first) target held

end HandleTable

namespace Handles

variable {handles next : Handles} {handle : Int16} {f moved : OpenFile} {id : Nat}

theorem insert_eq_some_iff : handles.insert f = some (handle, next) ↔
    handles.table.insert f = (some handle, next.table) := by
  unfold insert
  rw [Option.map_eq_some_iff]
  constructor
  · rintro ⟨given, answer, same⟩
    obtain ⟨rfl, rfl⟩ := Prod.mk.inj same
    exact Prod.ext answer rfl
  · intro given
    refine ⟨handle, congrArg Prod.fst given, Prod.ext rfl ?_⟩
    simp only [given]

theorem exists_insert (room : handles.isFilled = false) (f : OpenFile) :
    ∃ handle next, handles.insert f = some (handle, next) := by
  cases given : handles.insert f with
  | some result => exact ⟨result.1, result.2, rfl⟩
  | none =>
    rw [insert, Option.map_eq_none_iff, HandleTable.insert_eq_none_iff] at given
    cases room.symm.trans given

def opened (handles : Handles) (handle : Int16) : Option OpenFile :=
  match handles.get? handle with
  | some (.file f) => some f
  | _ => none

theorem get?_of_opened (h : handles.opened handle = some f) :
    handles.get? handle = some (.file f) := by
  unfold opened at h
  split at h
  next given =>
    cases h
    exact given
  · cases h

theorem opened_of_get? (h : handles.get? handle = some (.file f)) :
    handles.opened handle = some f := by
  rw [opened, h]

theorem opened_eq_none_of_get? (h : handles.get? handle = none) : handles.opened handle = none := by
  rw [opened, h]

/-- What holds of all handles and what they stand for holds of the open files behind them. -/
theorem opened_update {given? : Option OpenFile}
    (h : next.get? = Function.update handles.get? handle (given?.map .file)) :
    next.opened = Function.update handles.opened handle given? := by
  funext other
  unfold opened
  rw [h]
  by_cases same : other = handle
  · rw [same, Function.update_self, Function.update_self]
    cases given? <;> rfl
  · rw [Function.update_of_ne same, Function.update_of_ne same]

theorem first_le_of_opened (h : handles.opened handle = some f) : 6 ≤ handle ∧ handle ≤ 9 := by
  have held := get?_of_opened h
  obtain ⟨i, place, here⟩ := HandleTable.exists_index?_of_get? held
  refine ⟨?_, (HandleTable.exists_index?_iff.mp ⟨i, place⟩).2⟩
  rw [← HandleTable.firstFile_le_iff place, ← Nat.not_lt]
  intro standard
  exact HandleTable.initialSlot_ne_file i f ((handles.proper.standard i standard).symm.trans here)

theorem opened_empty (handle : Int16) : empty.opened handle = none := by
  cases found : empty.opened handle with
  | none => rfl
  | some f =>
    obtain ⟨i, _, held⟩ := HandleTable.exists_index?_of_get? (get?_of_opened found)
    rw [show empty.table = .initial from rfl, HandleTable.get_initial] at held
    exact absurd held (HandleTable.initialSlot_ne_file i f)

theorem eq_empty_of_opened (h : ∀ handle, handles.opened handle = none) : handles = empty := by
  obtain ⟨⟨slots⟩, proper⟩ := handles
  have same : slots = HandleTable.initial.slots := by
    refine Vector.ext fun n small => ?_
    have slot : slots.get ⟨n, small⟩ = HandleTable.initialSlot ⟨n, small⟩ := by
      by_cases standard : n < HandleTable.firstFile
      · exact proper.standard ⟨n, small⟩ standard
      · have place := Nat.not_lt.mp standard
        rw [HandleTable.initialSlot_eq_none_iff.mpr place]
        cases held : slots.get ⟨n, small⟩ with
        | none => rfl
        | some target =>
          obtain ⟨f, rfl⟩ := proper.files ⟨n, small⟩ place target held
          have here := HandleTable.index?_handleOf ⟨n, small⟩
          have found := (HandleTable.get?_of_index? here ⟨slots⟩).trans held
          cases (h _).symm.trans (opened_of_get? found)
    exact slot.trans (HandleTable.get_initial ⟨n, small⟩).symm
  subst same
  rfl

theorem closeFiles_eq_empty (handles : Handles) : handles.closeFiles = empty := by
  unfold closeFiles empty
  simp only [handles.proper.closeFiles_eq_initial]

theorem opened_closeFiles (handles : Handles) (handle : Int16) :
    handles.closeFiles.opened handle = none := by
  rw [closeFiles_eq_empty, opened_empty]

theorem opened_replace (h : handles.opened handle = some f) (moved : OpenFile) :
    (handles.replace handle moved).opened = Function.update handles.opened handle (some moved) :=
  opened_update (HandleTable.get?_replace (get?_of_opened h) moved)

theorem replace_self (h : handles.get? handle = some (.file f)) :
    handles.replace handle f = handles := by
  unfold replace
  simp only [HandleTable.replace_self h]

theorem opened_insert (h : handles.insert f = some (handle, next)) :
    handles.opened handle = none ∧
      next.opened = Function.update handles.opened handle (some f) := by
  obtain ⟨vacant, given⟩ := HandleTable.get?_insert (insert_eq_some_iff.mp h)
  exact ⟨opened_eq_none_of_get? vacant, opened_update given⟩

theorem opened_close (handles : Handles) (handle : Int16) :
    (handles.close handle).2.opened = Function.update handles.opened handle none := by
  by_cases first : 6 ≤ handle
  · exact opened_update (HandleTable.get?_close first handles.table)
  · have standard := Int16.not_le.mp first
    have same : (handles.close handle).2.get? = handles.get? :=
      congrArg HandleTable.get? (HandleTable.close_of_standard standard handles.table)
    have none : handles.opened handle = none := by
      cases found : handles.opened handle with
      | none => rfl
      | some f => exact absurd (first_le_of_opened found).1 first
    rw [← none, Function.update_eq_self]
    funext other
    rw [opened, same, opened]

def IsOpen (handles : Handles) (id : Nat) : Prop :=
  ∃ handle f, handles.opened handle = some f ∧ f.file = id

theorem not_isOpen_empty : ¬empty.IsOpen id := by
  rintro ⟨handle, f, given, _⟩
  cases (opened_empty handle).symm.trans given

theorem not_isOpen_closeFiles (handles : Handles) : ¬handles.closeFiles.IsOpen id := by
  rw [closeFiles_eq_empty]
  exact not_isOpen_empty

theorem isOpen_of_get? (h : handles.get? handle = some (.file f)) : handles.IsOpen f.file :=
  ⟨handle, f, opened_of_get? h, rfl⟩

theorem isOpen_update {given? : Option OpenFile}
    (h : next.opened = Function.update handles.opened handle given?) (isOpen : next.IsOpen id) :
    handles.IsOpen id ∨ ∃ f, given? = some f ∧ f.file = id := by
  obtain ⟨other, f, held, file⟩ := isOpen
  rw [h] at held
  by_cases same : other = handle
  · rw [same, Function.update_self] at held
    exact .inr ⟨f, held, file⟩
  · rw [Function.update_of_ne same] at held
    exact .inl ⟨other, f, held, file⟩

theorem isOpen_insert (h : handles.insert f = some (handle, next)) (isOpen : next.IsOpen id) :
    handles.IsOpen id ∨ id = f.file := by
  rcases isOpen_update (opened_insert h).2 isOpen with before | ⟨g, same, file⟩
  · exact .inl before
  · cases same
    exact .inr file.symm

theorem isOpen_replace (h : handles.get? handle = some (.file f)) (same : moved.file = f.file)
    (isOpen : (handles.replace handle moved).IsOpen id) : handles.IsOpen id := by
  rcases isOpen_update (opened_replace (opened_of_get? h) moved) isOpen with before | ⟨g, given, file⟩
  · exact before
  · cases given
    rw [← file, same]
    exact isOpen_of_get? h

theorem isOpen_close (isOpen : (handles.close handle).2.IsOpen id) : handles.IsOpen id := by
  rcases isOpen_update (opened_close handles handle) isOpen with before | ⟨g, given, _⟩
  · exact before
  · cases given

end Handles

end AtariTos
