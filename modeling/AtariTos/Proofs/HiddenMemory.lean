import AtariTos.Memory.Access
import Mathlib.Data.List.Forall2
import Mathlib.Data.Set.Image

namespace AtariTos

/-- Two outcomes of an access: the same fault, or values that belong together. -/
inductive Matched {α β : Type} (R : α → β → Prop) : Except Fault α → Except Fault β → Prop
  | error (fault : Fault) : Matched R (.error fault) (.error fault)
  | ok {a : α} {b : β} (h : R a b) : Matched R (.ok a) (.ok b)

namespace Rights

/-- A user may neither read nor write. -/
def isPrivate (r : Rights) : Bool :=
  !r.userRead && !r.userWrite

theorem permits_user_of_isPrivate {r : Rights} (h : r.isPrivate = true) (access : Access) :
    r.permits access .user = false := by
  simp only [isPrivate, Bool.and_eq_true, Bool.not_eq_true'] at h
  cases access <;> simp [permits, mayPeek, mayRead, mayWrite, h]

end Rights

namespace Bytes

/-- Buffers of one length that agree but for some indices. -/
structure AgreeBut (hidden : Set Nat) (old new : Bytes) : Prop where
  size : new.size = old.size
  same : ∀ i, i ∉ hidden → new[i]? = old[i]?

variable {hidden : Set Nat} {old new : Bytes}

theorem AgreeBut.setIfInBounds (agree : AgreeBut hidden old new) (index : Nat) (value : UInt8) :
    AgreeBut hidden (old.setIfInBounds index value) (new.setIfInBounds index value) := by
  refine ⟨by simp only [Array.size_setIfInBounds, agree.size], fun i shown => ?_⟩
  rw [Array.getElem?_setIfInBounds, Array.getElem?_setIfInBounds, agree.size, agree.same i shown]

theorem AgreeBut.overwrite (agree : AgreeBut hidden old new) (offset : Nat) (data : List UInt8) :
    AgreeBut hidden (Bytes.overwrite old offset data) (Bytes.overwrite new offset data) := by
  induction data generalizing old new offset with
  | nil => exact agree
  | cons value rest ih => exact ih (agree.setIfInBounds offset value) (offset + 1)

end Bytes

namespace Area

/-- An area before and after a change that no user can see. -/
inductive AlikeBut (hidden : Set Nat) : Area → Area → Prop
  | same (a : Area) : AlikeBut hidden a a
  | apart {name : String} {base : UInt32} {rights : Rights} {old new : Bytes}
      (noUser : rights.isPrivate = true)
      (agree : Bytes.AgreeBut (Set.preimage (base.toNat + ·) hidden) old new) :
      AlikeBut hidden (ofBuffer name base old rights) (ofBuffer name base new rights)

namespace AlikeBut

variable {hidden : Set Nat} {a b : Area}

theorem base_eq (h : a.AlikeBut hidden b) : b.base = a.base := by
  cases h <;> rfl

theorem rights_eq (h : a.AlikeBut hidden b) : b.rights = a.rights := by
  cases h <;> rfl

theorem stop_eq (h : a.AlikeBut hidden b) : b.stop = a.stop := by
  cases h with
  | same => rfl
  | apart noUser agree => simp only [stop, len, ofBuffer, Storage.len, agree.size]

theorem contains_eq (h : a.AlikeBut hidden b) (addr : UInt32) :
    b.contains addr = a.contains addr := by
  rw [contains, contains, h.base_eq, h.stop_eq]

theorem covers_eq (h : a.AlikeBut hidden b) (addr : UInt32) (count : Nat) :
    b.covers addr count = a.covers addr count := by
  rw [covers, covers, h.contains_eq, h.stop_eq]

theorem eq_of_permits (h : a.AlikeBut hidden b) {access : Access}
    (allowed : a.rights.permits access .user = true) : b = a := by
  cases h with
  | same => rfl
  | apart noUser agree =>
    have denied := Rights.permits_user_of_isPrivate noUser access
    cases denied.symm.trans allowed

theorem store (h : a.AlikeBut hidden b) (addr : UInt32) (data : List UInt8) :
    (a.store addr data).AlikeBut hidden (b.store addr data) := by
  cases h with
  | same => exact .same _
  | apart noUser agree => exact .apart noUser (agree.overwrite _ data)

end AlikeBut

end Area

namespace GuestMemory

/-- The same areas, but some that no user has a right to differ at some addresses. -/
def AlikeBut (hidden : Set Nat) (memory other : GuestMemory) : Prop :=
  List.Forall₂ (Area.AlikeBut hidden) memory.areas other.areas

/-- The areas that a user has a right to. -/
def shared (memory : GuestMemory) : List Area :=
  memory.areas.filter fun a => !a.rights.isPrivate

namespace AlikeBut

variable {hidden : Set Nat} {memory other : GuestMemory}

theorem shared_eq (alike : memory.AlikeBut hidden other) : other.shared = memory.shared := by
  obtain ⟨areas⟩ := memory
  obtain ⟨areas'⟩ := other
  change List.Forall₂ (Area.AlikeBut hidden) areas areas' at alike
  change areas'.filter (fun a => !a.rights.isPrivate) = areas.filter fun a => !a.rights.isPrivate
  induction alike with
  | nil => rfl
  | cons here rest ih =>
    rw [List.filter_cons, List.filter_cons, ih, here.rights_eq]
    cases here with
    | same a => rfl
    | apart noUser agree => simp [Area.ofBuffer, noUser]

theorem modify (alike : memory.AlikeBut hidden other) (base : UInt32) {change : Area → Area}
    (kept : ∀ a b, Area.AlikeBut hidden a b → Area.AlikeBut hidden (change a) (change b)) :
    (memory.modify base change).AlikeBut hidden (other.modify base change) := by
  refine List.rel_map (fun a b here => ?_) alike
  rw [here.base_eq]
  split
  · exact kept a b here
  · exact here

theorem getLast? {l l' : List Area} (h : List.Forall₂ (Area.AlikeBut hidden) l l') :
    Option.Rel (Area.AlikeBut hidden) l.getLast? l'.getLast? := by
  have backward := List.rel_reverse h
  rw [List.getLast?_eq_head?_reverse, List.getLast?_eq_head?_reverse]
  generalize l.reverse = r at backward
  generalize l'.reverse = r' at backward
  cases backward with
  | nil => exact .none
  | cons first rest => exact .some first

theorem holding {nearest nearest' : Option Area}
    (h : Option.Rel (Area.AlikeBut hidden) nearest nearest') (addr : UInt32) :
    Option.Rel (Area.AlikeBut hidden) (nearest.filter (·.contains addr))
      (nearest'.filter (·.contains addr)) := by
  cases h with
  | none => exact .none
  | some here =>
    rw [Option.filter_some, Option.filter_some, here.contains_eq]
    split
    · exact .some here
    · exact .none

theorem find? (alike : memory.AlikeBut hidden other) (addr : UInt32) :
    Option.Rel (Area.AlikeBut hidden) (memory.find? addr) (other.find? addr) := by
  have below : List.Forall₂ (Area.AlikeBut hidden) (memory.areas.filter (·.base ≤ addr))
      (other.areas.filter (·.base ≤ addr)) := by
    refine List.rel_filter (fun a b here => ?_) alike
    simp only [here.base_eq]
  exact holding (getLast? below) addr

theorem locate (alike : memory.AlikeBut hidden other) (addr : UInt32) (count : Nat)
    (access : Access) (mode : Privilege) :
    Matched (fun a b => a.AlikeBut hidden b ∧ a.rights.permits access mode = true)
      (memory.locate addr count access mode) (other.locate addr count access mode) := by
  have found := alike.find? addr
  unfold GuestMemory.locate
  generalize memory.find? addr = here at found
  generalize other.find? addr = there at found
  cases found with
  | none => exact .error _
  | some h =>
    dsimp only
    rw [h.covers_eq, h.rights_eq]
    split
    · exact .error _
    split
    next allowed => exact .ok ⟨h, allowed⟩
    · exact .error _

/-- A user finds the same area. -/
theorem locate_user (alike : memory.AlikeBut hidden other) (addr : UInt32) (count : Nat)
    (access : Access) :
    other.locate addr count access .user = memory.locate addr count access .user := by
  have found := alike.locate addr count access .user
  generalize memory.locate addr count access .user = here at found
  generalize other.locate addr count access .user = there at found
  cases found with
  | error fault => rfl
  | ok h => rw [h.1.eq_of_permits h.2]

theorem peekBytes_user (alike : memory.AlikeBut hidden other) (addr : UInt32) (count : Nat) :
    other.peekBytes addr count .user = memory.peekBytes addr count .user := by
  rw [peekBytes, peekBytes, alike.locate_user]

theorem peek_user (alike : memory.AlikeBut hidden other) (addr : UInt32) (width : Width) :
    other.peek addr width .user = memory.peek addr width .user := by
  rw [peek, peek, alike.peekBytes_user]

theorem peekString_user (alike : memory.AlikeBut hidden other) (addr : UInt32) (limit : Nat) :
    other.peekString addr limit .user = memory.peekString addr limit .user := by
  rw [peekString, peekString, alike.locate_user]

theorem load_user (alike : memory.AlikeBut hidden other) (addr : UInt32) (count : Nat) :
    Matched (fun got got' => got'.1 = got.1 ∧ got.2.AlikeBut hidden got'.2)
      (memory.load addr count .user) (other.load addr count .user) := by
  rw [load_cases, load_cases]
  rw [alike.locate_user]
  split
  · exact .ok ⟨rfl, alike⟩
  cases memory.locate addr count .read .user with
  | error fault => exact .error fault
  | ok area =>
    dsimp only
    split
    · exact .ok ⟨rfl, alike⟩
    · exact .ok ⟨rfl, alike.modify _ fun _ _ _ => .same _⟩

theorem store (alike : memory.AlikeBut hidden other) (addr : UInt32) (data : List UInt8)
    (mode : Privilege) :
    Matched (AlikeBut hidden) (memory.store addr data mode) (other.store addr data mode) := by
  have found := alike.locate addr data.length .write mode
  rw [GuestMemory.store_cases, GuestMemory.store_cases]
  generalize memory.locate addr data.length .write mode = here at found
  generalize other.locate addr data.length .write mode = there at found
  split
  · exact .ok alike
  cases found with
  | error fault => exact .error fault
  | ok h =>
    dsimp only
    rw [h.1.base_eq]
    exact .ok (alike.modify _ fun _ _ here => here.store addr data)

end AlikeBut

end GuestMemory

end AtariTos
