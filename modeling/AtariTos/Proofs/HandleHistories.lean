import AtariTos.Proofs.OpenFiles
import Mathlib.Data.Fintype.Basic
import Mathlib.Data.List.FinRange
import Mathlib.Order.Bounds.Defs

namespace AtariTos

inductive HandleChange where
  | insert (f : OpenFile)
  | close (handle : Int16)
  | closeFiles
deriving DecidableEq

namespace HandleTable

def change (table : HandleTable) : HandleChange → HandleTable
  | .insert f => (table.insert f).2
  | .close handle => (table.close handle).2
  | .closeFiles => table.closeFiles

def changeAll (table : HandleTable) (changes : List HandleChange) : HandleTable :=
  changes.foldl change table

/-- A file has got a handle, which has not been closed since. -/
def Keeps (changes : List HandleChange) (handle : Int16) (f : OpenFile) : Prop :=
  ∃ before after, changes = before ++ .insert f :: after ∧
    ((initial.changeAll before).insert f).1 = some handle ∧
    .close handle ∉ after ∧ .closeFiles ∉ after

variable {table next : HandleTable} {handle other : Int16} {f g : OpenFile} {i : Fin 10}
  {changes : List HandleChange} {c : HandleChange}

theorem changeAll_concat (table : HandleTable) (changes : List HandleChange) (c : HandleChange) :
    table.changeAll (changes ++ [c]) = (table.changeAll changes).change c := by
  simp only [changeAll, List.foldl_append, List.foldl_cons, List.foldl_nil]

theorem IsProper.change (proper : table.IsProper) (c : HandleChange) : (table.change c).IsProper := by
  cases c with
  | insert f => exact proper.insert f
  | close handle => exact proper.close handle
  | closeFiles => exact proper.closeFiles

theorem isProper_changeAll (changes : List HandleChange) : (initial.changeAll changes).IsProper := by
  induction changes using List.reverseRecOn with
  | nil => exact isProper_initial
  | append_singleton changes c ih =>
    rw [changeAll_concat]
    exact ih.change c

theorem eq_of_insert_none (h : table.insert f = (none, next)) : next = table := by
  cases free : table.firstFree? with
  | none => exact (Prod.mk.inj ((insert_of_filled free f).symm.trans h)).2.symm
  | some i => cases (Prod.mk.inj ((insert_of_free free f).symm.trans h)).1

theorem isFilled_iff_openCount : table.isFilled = true ↔ table.openCount = 4 := by
  have four : table.fileSlots.length = 4 := by
    rw [fileSlots_eq, List.length_map]
    rfl
  rw [isFilled, openCount, ← four, List.length_filter_eq_length_iff, List.all_eq_true]

theorem le_of_firstFree? {j : Fin 10} (free : table.firstFree? = some i) (place : firstFile ≤ j.val)
    (vacant : table.slots.get j = none) : i ≤ j := by
  obtain ⟨_, before, after, split, taken⟩ := List.find?_eq_some_iff_append.mp free
  have ascending : filePlaces.Pairwise (· < ·) := by decide
  have member := mem_filePlaces_iff.mpr place
  rw [split] at ascending member
  have behind := (List.pairwise_cons.mp (List.pairwise_append.mp ascending).2.1).1
  have notAhead : j ∉ before := by
    intro ahead
    have held := taken j ahead
    rw [vacant] at held
    cases held
  rcases List.mem_cons.mp ((List.mem_append.mp member).resolve_left notAhead) with rfl | later
  · exact le_rfl
  · exact (behind j later).le

theorem isLeast_of_insert (h : table.insert f = (some handle, next)) :
    IsLeast {h | 6 ≤ h ∧ h ≤ 9 ∧ table.get? h = none} handle := by
  obtain ⟨vacant, _⟩ := get?_insert h
  obtain ⟨i, free, rfl, _⟩ := exists_free_of_insert h
  have place := index?_handleOf i
  have first := mem_filePlaces_iff.mp (List.mem_of_find?_eq_some free)
  refine ⟨⟨(firstFile_le_iff place).mp first, (exists_index?_iff.mp ⟨i, place⟩).2, vacant⟩, ?_⟩
  rintro other ⟨low, high, vacant'⟩
  obtain ⟨j, place'⟩ := exists_index?_iff.mpr ⟨Int16.le_trans (by decide) low, high⟩
  rw [get?_of_index? place'] at vacant'
  have le : i ≤ j := le_of_firstFree? free ((firstFile_le_iff place').mpr low) vacant'
  have value := index?_eq_some_iff.mp place
  have value' := index?_eq_some_iff.mp place'
  rw [Int16.le_iff_toInt_le]
  omega

theorem not_keeps_nil : ¬Keeps [] handle f := by
  rintro ⟨before, after, split, _⟩
  exact List.append_ne_nil_of_right_ne_nil _ (List.cons_ne_nil _ _) split.symm

theorem keeps_concat_iff :
    Keeps (changes ++ [c]) handle f ↔
      c = .insert f ∧ ((initial.changeAll changes).insert f).1 = some handle ∨
        Keeps changes handle f ∧ c ≠ .close handle ∧ c ≠ .closeFiles := by
  constructor
  · rintro ⟨before, after, split, given, kept, kept'⟩
    rcases List.eq_nil_or_concat' after with rfl | ⟨after, last, rfl⟩
    · obtain ⟨rfl, same⟩ := List.append_inj' split rfl
      exact .inl ⟨List.head_eq_of_cons_eq same, given⟩
    · rw [← List.cons_append, ← List.append_assoc] at split
      obtain ⟨rfl, same⟩ := List.append_inj' split rfl
      obtain rfl : c = last := List.head_eq_of_cons_eq same
      rw [List.mem_append, List.mem_singleton, not_or] at kept kept'
      exact .inr ⟨⟨before, after, rfl, given, kept.1, kept'.1⟩, Ne.symm kept.2, Ne.symm kept'.2⟩
  · rintro (⟨rfl, given⟩ | ⟨⟨before, after, rfl, given, kept, kept'⟩, other, other'⟩)
    · exact ⟨changes, [], rfl, given, List.not_mem_nil, List.not_mem_nil⟩
    · refine ⟨before, after ++ [c], by simp, given, ?_, ?_⟩
      · rw [List.mem_append, List.mem_singleton, not_or]
        exact ⟨kept, other.symm⟩
      · rw [List.mem_append, List.mem_singleton, not_or]
        exact ⟨kept', other'.symm⟩

theorem get?_change_insert_iff :
    (table.change (.insert g)).get? handle = some (.file f) ↔
      g = f ∧ (table.insert g).1 = some handle ∨ table.get? handle = some (.file f) := by
  rcases inserted : table.insert g with ⟨given?, next⟩
  rw [change, inserted]
  cases given? with
  | none =>
    rw [eq_of_insert_none inserted]
    simp
  | some new =>
    obtain ⟨vacant, given⟩ := get?_insert inserted
    rw [given]
    by_cases here : handle = new
    · rw [here, Function.update_self, vacant]
      simp
    · rw [Function.update_of_ne here]
      simp [Ne.symm here]

theorem get?_change_close (first : 6 ≤ handle) (closed : Int16) :
    (table.change (.close closed)).get? handle =
      if closed = handle then none else table.get? handle := by
  rw [change]
  by_cases here : closed = handle
  · rw [if_pos here, here, get?_close first, Function.update_self]
  · rw [if_neg here]
    by_cases first' : 6 ≤ closed
    · rw [get?_close first', Function.update_of_ne (Ne.symm here)]
    · rw [close_of_standard (Int16.not_le.mp first')]

theorem get?_closeFiles (first : 6 ≤ handle) : table.closeFiles.get? handle = none := by
  cases place : index? handle with
  | none => rw [get?, place, Option.bind_none]
  | some i =>
    have other := Nat.not_lt.mpr ((firstFile_le_iff place).mpr first)
    rw [get?_of_index? place, get_closeFiles, if_neg other]

theorem get?_change_iff (first : 6 ≤ handle) :
    (table.change c).get? handle = some (.file f) ↔
      c = .insert f ∧ (table.insert f).1 = some handle ∨
        table.get? handle = some (.file f) ∧ c ≠ .close handle ∧ c ≠ .closeFiles := by
  cases c with
  | insert g =>
    rw [get?_change_insert_iff]
    by_cases same : g = f
    · simp [same]
    · simp [same]
  | close closed =>
    rw [get?_change_close first]
    by_cases here : closed = handle
    · simp [here]
    · simp [here]
  | closeFiles =>
    rw [change, get?_closeFiles first]
    simp

theorem get?_changeAll_iff (first : 6 ≤ handle) (changes : List HandleChange) :
    (initial.changeAll changes).get? handle = some (.file f) ↔ Keeps changes handle f := by
  induction changes using List.reverseRecOn with
  | nil =>
    refine iff_of_false (fun held => ?_) not_keeps_nil
    obtain ⟨i, _, here⟩ := exists_index?_of_get? held
    exact initialSlot_ne_file i f ((get_initial i).symm.trans here)
  | append_singleton changes c ih => rw [changeAll_concat, get?_change_iff first, keeps_concat_iff, ih]

theorem close_eq_true_iff (proper : table.IsProper) :
    (table.close handle).1 = true ↔
      0 ≤ handle ∧ handle < 6 ∨ ∃ f, table.get? handle = some (.file f) := by
  unfold close
  cases place : index? handle with
  | none =>
    have outside : ¬0 ≤ handle ∨ ¬handle ≤ 9 := by
      rw [← not_and_or, ← exists_index?_iff, place]
      simp
    have nothing : table.get? handle = none := by rw [get?, place, Option.bind_none]
    have notStandard : ¬(0 ≤ handle ∧ handle < 6) := fun standard =>
      outside.elim (absurd standard.1) fun above =>
        above (Int16.le_trans (Int16.le_of_lt standard.2) (by decide))
    simp [nothing, notStandard]
  | some i =>
    have first := firstFile_le_iff place
    dsimp only
    split
    next standard =>
      have low := (exists_index?_iff.mp ⟨i, place⟩).1
      have high : handle < 6 := Int16.not_le.mp (mt first.mpr (Nat.not_le.mpr standard))
      simp [low, high]
    next file =>
      have high := first.mp (Nat.not_lt.mp file)
      rw [or_iff_right fun standard => Int16.not_le.mpr standard.2 high, get?_of_index? place,
        Option.isSome_iff_exists]
      constructor
      · rintro ⟨target, held⟩
        obtain ⟨f, rfl⟩ := proper.files i (Nat.not_lt.mp file) target held
        exact ⟨f, held⟩
      · rintro ⟨f, held⟩
        exact ⟨.file f, held⟩

theorem get?_close_of_ne (apart : other ≠ handle) :
    (table.close handle).2.get? other = table.get? other := by
  by_cases first : 6 ≤ handle
  · rw [get?_close first, Function.update_of_ne apart]
  · rw [close_of_standard (Int16.not_le.mp first)]

/-- After any changes the first six handles stand for what they do at the start. The lowest of the
others that stands for nothing is given to the next file, and none is exactly if the table is filled,
which takes four files; the table stays as it is then. A handle from 6 on stands for the file that
got it and keeps it, and for nothing if there is no such file; numbers that are no handles stand for
nothing. Exactly handles that stand for something can be closed, and no other handle changes then. -/
theorem handle_laws (changes : List HandleChange) :
    let table := initial.changeAll changes
    (table.get? 0 = some .consoleInput ∧ table.get? 1 = some .consoleOutput ∧
      table.get? 2 = some .consoleOutput ∧ table.get? 3 = some .reserved ∧
      table.get? 4 = some .reserved ∧ table.get? 5 = some .reserved) ∧
    (∀ f handle next, table.insert f = (some handle, next) →
      IsLeast {h | 6 ≤ h ∧ h ≤ 9 ∧ table.get? h = none} handle) ∧
    (∀ f, (table.insert f).1 = none ↔ table.isFilled = true) ∧
    (∀ f next, table.insert f = (none, next) → next = table) ∧
    (table.isFilled = true ↔ table.openCount = 4) ∧
    (∀ handle, 6 ≤ handle →
      (∀ f, table.get? handle = some (.file f) ↔ Keeps changes handle f) ∧
      (table.get? handle = none ↔ ∀ f, ¬Keeps changes handle f)) ∧
    (∀ handle, handle < 0 ∨ 9 < handle → table.get? handle = none) ∧
    (∀ handle, (table.close handle).1 = true ↔
      0 ≤ handle ∧ handle < 6 ∨ ∃ f, table.get? handle = some (.file f)) ∧
    ∀ handle other, other ≠ handle → (table.close handle).2.get? other = table.get? other := by
  intro table
  have proper : table.IsProper := isProper_changeAll changes
  have keeps (handle : Int16) (standard : handle < 6) := proper.get?_eq standard
  refine ⟨⟨keeps 0 (by decide), keeps 1 (by decide), keeps 2 (by decide), keeps 3 (by decide),
    keeps 4 (by decide), keeps 5 (by decide)⟩, fun f handle next h => isLeast_of_insert h,
    fun f => insert_eq_none_iff, fun f next h => eq_of_insert_none h, isFilled_iff_openCount,
    fun handle first => ?_, fun handle outside => get?_of_outside outside table,
    fun handle => close_eq_true_iff proper, fun handle other apart => get?_close_of_ne apart⟩
  have held (f : OpenFile) : table.get? handle = some (.file f) ↔ Keeps changes handle f :=
    get?_changeAll_iff first changes
  refine ⟨held, ?_⟩
  rw [Option.eq_none_iff_forall_ne_some]
  constructor
  · exact fun nothing f kept => nothing _ ((held f).mpr kept)
  · intro free target found
    obtain ⟨f, rfl⟩ := proper.exists_file first found
    exact free f ((held f).mp found)

/-- Handle 7 is closed and given again, and an attempt to close handle 1 changes nothing. -/
example (f g : OpenFile) :
    let table := initial.changeAll [.insert f, .insert f, .insert f, .close 7, .close 1, .insert g]
    table.get? 7 = some (.file g) ∧ table.get? 1 = some .consoleOutput ∧ table.openCount = 3 ∧
      table.get? 9 = none ∧ table.get? (-1) = none :=
  ⟨rfl, rfl, rfl, rfl, rfl⟩

end HandleTable

end AtariTos
