import AtariTos.Proofs.CallEffects
import AtariTos.Trap

namespace AtariTos

namespace Registers

theorem get_set_answer (r : Registers) (value : UInt32) :
    (r.set .answer value).get .answer = value := by
  simp [set, get, Register.answer]

theorem get_set_answer_of_ne {r : Registers} {register : Register} (h : register ≠ .answer)
    (value : UInt32) : (r.set .answer value).get register = r.get register := by
  cases register with
  | data n =>
    have other : (0 : Nat) ≠ n.val := fun same => h (congrArg Register.data (Fin.ext same.symm))
    exact Vector.getElem_set_ne (by omega) n.isLt other
  | address n => rfl
  | pc | sr | usp | ssp => rfl

end Registers

namespace CallTable

theorem exists_of_handler {α : Type} {table : CallTable α} {code : UInt16} {called : α}
    (h : table.handler code = .ok called) :
    ∃ call ∈ table.calls, call.code = code ∧ call.handler = some called := by
  unfold handler at h
  split at h
  · cases h
  next call found =>
    refine ⟨call, List.mem_of_find?_eq_some found, by simpa using List.find?_some found, ?_⟩
    split at h
    next handler given =>
      cases h
      exact given
    · cases h

end CallTable

namespace Trap

variable {s t : System} {vector : UInt8} {called : Routine} {flow : AfterTrap}
  {fault? : Option HostFault}

theorem calls_eq_ok {table : CallTable Routine} (h : calls vector = .ok table) :
    vector = gemdosVector ∧ table = Catalogue.gemdos ∨
      vector = biosVector ∧ table = Catalogue.bios ∨
      vector = xbiosVector ∧ table = Catalogue.xbios := by
  unfold calls at h
  split at h
  next gemdos => exact .inl ⟨gemdos, (Except.ok.inj h).symm⟩
  split at h
  next bios => exact .inr (.inl ⟨bios, (Except.ok.inj h).symm⟩)
  split at h
  next xbios => exact .inr (.inr ⟨xbios, (Except.ok.inj h).symm⟩)
  split at h <;> cases h

theorem routine_of_selector {table : CallTable Routine} {code : UInt16}
    (behind : calls vector = .ok table) (selected : s.arguments.selector = .ok code) :
    routine s vector = table.handler code := by
  unfold routine
  rw [behind]
  change Except.bind (s.arguments.selector.mapError .fault) table.handler = _
  rw [selected]
  rfl

theorem exists_code (h : routine s vector = .ok called) :
    ∃ table code, calls vector = .ok table ∧ s.arguments.selector = .ok code ∧
      table.handler code = .ok called := by
  unfold routine at h
  cases behind : calls vector with
  | error cause =>
    rw [behind] at h
    cases h
  | ok table =>
    rw [behind] at h
    cases selected : s.arguments.selector with
    | error fault =>
      change (Except.bind (s.arguments.selector.mapError .fault) table.handler) = _ at h
      rw [selected] at h
      cases h
    | ok code =>
      change (Except.bind (s.arguments.selector.mapError .fault) table.handler) = _ at h
      rw [selected] at h
      exact ⟨table, code, rfl, rfl, h⟩

theorem exists_call (h : routine s vector = .ok called) :
    ∃ table, calls vector = .ok table ∧
      ∃ call ∈ table.calls, s.arguments.selector = .ok call.code ∧ call.handler = some called := by
  obtain ⟨table, code, behind, selected, handled⟩ := exists_code h
  obtain ⟨call, member, rfl, handler⟩ := CallTable.exists_of_handler handled
  exact ⟨table, behind, call, member, selected, handler⟩

theorem exists_of_serve (served : serve vector s fault? = (.ok flow, t)) :
    ∃ called, routine s vector = .ok called ∧
      ((∃ result u, (called.run fault?).run s = .ok result u ∧ t = answer u result.register) ∨
        ∃ status u, (called.run fault?).run s = .error (.status status) u ∧
          t = answer u status.register) := by
  unfold serve at served
  split at served
  · cases served
  next called asked =>
    refine ⟨called, asked, ?_⟩
    unfold complete at served
    split at served
    next result u ran =>
      cases served
      exact .inl ⟨_, _, ran, rfl⟩
    next code u ran =>
      cases served
      exact .inl ⟨_, _, ran, rfl⟩
    next status u ran =>
      cases served
      exact .inr ⟨_, _, ran, rfl⟩
    · cases served

theorem exists_answer_of_serve (served : serve vector s fault? = (.ok flow, t)) :
    ∃ called value, routine s vector = .ok called ∧
      t = answer ((called.run fault?).after s) value := by
  obtain ⟨called, asked, ⟨result, u, ran, rfl⟩ | ⟨status, u, ran, rfl⟩⟩ := exists_of_serve served
  · exact ⟨called, _, asked, by rw [Service.after_of_ok ran]⟩
  · exact ⟨called, _, asked, by rw [Service.after_of_error ran]⟩

/-- The state behind a trap, but for the registers, is the one that the routine leaves. -/
theorem after_serve (asked : routine s vector = .ok called) :
    ∃ registers, (serve vector s).2 = { called.run.after s with registers } := by
  refine ⟨(complete called s).2.registers, ?_⟩
  rw [serve, asked]
  dsimp only
  unfold complete
  cases ran : called.run.run s with
  | ok result t =>
    rw [Service.after_of_ok ran]
    cases result <;> rfl
  | error failure t =>
    rw [Service.after_of_error ran]
    cases failure <;> rfl

theorem exists_after_serve (vector : UInt8) (s : System) :
    (serve vector s).2 = s ∨ ∃ called registers, routine s vector = .ok called ∧
      (serve vector s).2 = { called.run.after s with registers } := by
  cases asked : routine s vector with
  | error cause =>
    left
    rw [serve, asked]
  | ok called =>
    obtain ⟨registers, same⟩ := after_serve asked
    exact .inr ⟨called, registers, rfl, same⟩

end Trap

end AtariTos
