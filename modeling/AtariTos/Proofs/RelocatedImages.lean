import AtariTos.Proofs.BasepageBytes
import AtariTos.Proofs.FixupOffsets
import Mathlib.Data.List.Chain

namespace AtariTos

namespace Fixups

/-- The number that four bytes of an image spell. -/
def longAt (image : Bytes) (offset : Nat) : Nat :=
  bigEndian (image.extract offset (offset + 4)).toList

/-- The base has been added to the longword at an offset, and all other bytes are as they were. -/
structure Added (base : UInt32) (offset : Nat) (image next : Bytes) : Prop where
  inside : offset + 4 ≤ image.size
  size : next.size = image.size
  sum : longAt next offset = (longAt image offset + base.toNat) % 2 ^ 32
  others : ∀ i, i ∉ Set.Ico offset (offset + 4) → next[i]? = image[i]?

/-- The base has been added to the longwords at some offsets, one after the other. -/
inductive AddedAll (base : UInt32) : List Nat → Bytes → Bytes → Prop
  | nil (image : Bytes) : AddedAll base [] image image
  | cons {offset : Nat} {rest : List Nat} {image next last : Bytes}
    (first : Added base offset image next) (others : AddedAll base rest next last) :
    AddedAll base (offset :: rest) image last

variable {base : UInt32} {offset i : Nat} {offsets : List Nat} {image next : Bytes}
  {table : List UInt8}

theorem bigEndian_bytesOfLong (value : UInt32) : bigEndian (bytesOfLong value) = value.toNat := by
  have short : (bytesOfLong value).length ≤ 4 := le_rfl
  rw [← toNat_longOfBytes short, longOfBytes_bytesOfLong]

theorem longAt_lt (image : Bytes) (offset : Nat) : longAt image offset < 2 ^ 32 := by
  have small := bigEndian_lt (image.extract offset (offset + 4)).toList
  have short : (image.extract offset (offset + 4)).toList.length ≤ 4 := by
    rw [Array.length_toList, Array.size_extract]
    omega
  have most := Nat.pow_le_pow_right (n := 256) (by omega) short
  exact lt_of_lt_of_le small most

theorem longAt_congr (size : next.size = image.size)
    (same : ∀ i ∈ Set.Ico offset (offset + 4), next[i]? = image[i]?) :
    longAt next offset = longAt image offset := by
  have bytes : next.extract offset (offset + 4) = image.extract offset (offset + 4) := by
    apply Array.ext_getElem?
    intro i
    rw [Array.getElem?_extract, Array.getElem?_extract, size]
    split
    · exact same _ ⟨by omega, by omega⟩
    · rfl
  rw [longAt, bytes, longAt]

theorem getElem?_of_longAt (inside : offset + 4 ≤ image.size)
    (here : i ∈ Set.Ico offset (offset + 4)) :
    image[i]? = some (longAt image offset / 256 ^ (3 - (i - offset))).toUInt8 := by
  have place : i - offset < 4 := by
    have := here.1
    have := here.2
    omega
  have long := Bytes.length_extract inside
  have byte := Bytes.getElem?_extract inside place
  rw [getElem?_of_bigEndian (by omega), long] at byte
  rw [← Nat.add_sub_of_le here.1, ← byte, longAt, Nat.add_sub_cancel_left]

theorem added_addAt (base : UInt32) (inside : offset + 4 ≤ image.size) :
    Added base offset image (addAt base image offset) := by
  have short : (image.extract offset (offset + 4)).toList.length ≤ 4 :=
    (Bytes.length_extract inside).le
  refine ⟨inside, size_addAt base image offset, ?_, fun i outside => ?_⟩
  · have stored : ((addAt base image offset).extract offset (offset + 4)).toList =
        bytesOfLong (longOfBytes (image.extract offset (offset + 4)).toList + base) :=
      Bytes.extract_overwrite inside
    rw [longAt, stored, bigEndian_bytesOfLong, UInt32.toNat_add, toNat_longOfBytes short, longAt]
  · rw [Set.mem_Ico] at outside
    apply Bytes.getElem?_overwrite
    show i < offset ∨ offset + 4 ≤ i
    omega

theorem AddedAll.size (added : AddedAll base offsets image next) : next.size = image.size := by
  induction added with
  | nil => rfl
  | cons first _ ih => exact ih.trans first.size

theorem addedAll_relocated (base : UInt32) (inside : ∀ offset ∈ offsets, offset + 4 ≤ image.size) :
    AddedAll base offsets image (relocated base image offsets) := by
  induction offsets generalizing image with
  | nil => exact .nil image
  | cons offset rest ih =>
    obtain ⟨here, inside⟩ := List.forall_mem_cons.mp inside
    have first := added_addAt base here
    apply AddedAll.cons first
    apply ih
    intro other member
    rw [first.size]
    exact inside other member

theorem AddedAll.others (added : AddedAll base offsets image next)
    (outside : ∀ offset ∈ offsets, i ∉ Set.Ico offset (offset + 4)) : next[i]? = image[i]? := by
  induction added with
  | nil => rfl
  | cons first _ ih =>
    obtain ⟨here, outside⟩ := List.forall_mem_cons.mp outside
    rw [ih outside, first.others i here]

theorem AddedAll.sum (added : AddedAll base offsets image next)
    (apart : offsets.Pairwise fun a b => a + 4 ≤ b) (member : offset ∈ offsets) :
    longAt next offset = (longAt image offset + base.toNat) % 2 ^ 32 := by
  induction added with
  | nil => simp at member
  | cons first rest ih =>
    obtain ⟨behind, apart⟩ := List.pairwise_cons.mp apart
    rcases List.mem_cons.mp member with rfl | later
    · -- The longwords behind it do not reach back.
      rw [longAt_congr rest.size, first.sum]
      intro i here
      apply rest.others
      intro other member held
      have := behind other member
      have := here.2
      have := held.1
      omega
    · have after := behind _ later
      rw [ih apart later, longAt_congr first.size]
      intro i here
      apply first.others
      intro held
      have := here.1
      have := held.2
      omega

theorem pairwise_of_isChain (spaced : offsets.IsChain fun a b => a + 4 ≤ b) :
    offsets.Pairwise fun a b => a + 4 ≤ b := by
  have trans : Trans (fun a b : Nat => a + 4 ≤ b) (fun a b => a + 4 ≤ b) (fun a b => a + 4 ≤ b) :=
    ⟨fun {a b c} first second => by omega⟩
  exact List.isChain_iff_pairwise.mp spaced

/-- An image is known from the longwords at some offsets and the bytes outside them. -/
theorem eq_of_longs (size : next.size = image.size)
    (inside : ∀ offset ∈ offsets, offset + 4 ≤ image.size)
    (longs : ∀ offset ∈ offsets, longAt next offset = longAt image offset)
    (others : ∀ i, (∀ offset ∈ offsets, i ∉ Set.Ico offset (offset + 4)) → next[i]? = image[i]?) :
    next = image := by
  apply Array.ext_getElem?
  intro i
  by_cases held : ∃ offset ∈ offsets, i ∈ Set.Ico offset (offset + 4)
  · obtain ⟨offset, member, here⟩ := held
    have fits := inside offset member
    rw [getElem?_of_longAt (size ▸ fits) here, getElem?_of_longAt fits here, longs offset member]
  · exact others i fun offset member here => held ⟨offset, member, here⟩

theorem apply_of_inside (inside : ∀ offset ∈ Fixups.offsets table, offset + 4 ≤ image.size)
    (base : UInt32) : apply image table base =
      (.ok (Fixups.offsets table).length, relocated base image (Fixups.offsets table)) := by
  have counted : verdict image.size 0 (Fixups.offsets table) =
      .ok (Fixups.offsets table).length :=
    verdict_eq_ok_iff.mpr ⟨inside, (Nat.zero_add _).symm⟩
  rw [apply_eq, fixed, counted, leading_eq_self inside]

theorem verdict_eq_error {size count : Nat} (h : verdict size count offsets = .error offset) :
    ∃ before after, offsets = before ++ offset :: after ∧
      (∀ other ∈ before, other + 4 ≤ size) ∧ size < offset + 4 ∧ leading size offsets = before := by
  induction offsets generalizing count with
  | nil => simp [verdict] at h
  | cons first rest ih =>
    by_cases inside : first + 4 ≤ size
    · rw [verdict_cons_of_inside inside] at h
      obtain ⟨before, after, rfl, low, outside, cut⟩ := ih h
      refine ⟨first :: before, after, rfl, List.forall_mem_cons.mpr ⟨inside, low⟩, outside, ?_⟩
      rw [leading, List.takeWhile_cons_of_pos (by simpa using inside), ← leading, cut]
    · have outside := Nat.not_le.mp inside
      rw [verdict_cons_of_outside outside] at h
      cases h
      refine ⟨[], rest, rfl, by simp, outside, ?_⟩
      rw [leading, List.takeWhile_cons_of_neg (by simpa using inside)]

/-- Relocation succeeds exactly if the table names no longword that is not inside the image. Then
the answer is their number, the base has been added to each of them in turn, and where none of them
overlap each is what it was plus the base and all other bytes are as they were. Otherwise the answer
is the first offset that is not inside, and the base has been added to those before it. -/
theorem apply_laws (image : Bytes) (table : List UInt8) (base : UInt32) :
    ((∃ count, (apply image table base).1 = .ok count) ↔
      ∀ offset ∈ Fixups.offsets table, offset + 4 ≤ image.size) ∧
    (∀ count next, apply image table base = (.ok count, next) →
      count = (Fixups.offsets table).length ∧ AddedAll base (Fixups.offsets table) image next ∧
      ((Fixups.offsets table).IsChain (fun a b => a + 4 ≤ b) →
        (∀ offset ∈ Fixups.offsets table,
          longAt next offset = (longAt image offset + base.toNat) % 2 ^ 32) ∧
        ∀ i, (∀ offset ∈ Fixups.offsets table, i ∉ Set.Ico offset (offset + 4)) →
          next[i]? = image[i]?)) ∧
    ∀ offset next, apply image table base = (.error offset, next) →
      ∃ before after, Fixups.offsets table = before ++ offset :: after ∧
        (∀ other ∈ before, other + 4 ≤ image.size) ∧ image.size < offset + 4 ∧
        AddedAll base before image next := by
  refine ⟨?_, fun count next applied => ?_, fun offset next applied => ?_⟩
  · simp [apply_eq, fixed, verdict_eq_ok_iff]
  · have inside : ∀ offset ∈ Fixups.offsets table, offset + 4 ≤ image.size := by
      rw [apply_eq] at applied
      exact (verdict_eq_ok_iff.mp (congrArg Prod.fst applied)).1
    rw [apply_of_inside inside] at applied
    cases applied
    have added := addedAll_relocated base inside
    refine ⟨rfl, added, fun spaced => ⟨fun offset member => ?_, fun i outside => ?_⟩⟩
    · exact added.sum (pairwise_of_isChain spaced) member
    · exact added.others outside
  · rw [apply_eq] at applied
    obtain ⟨before, after, split, inside, outside, cut⟩ :=
      verdict_eq_error (congrArg Prod.fst applied)
    have left : relocated base image (leading image.size (Fixups.offsets table)) = next :=
      congrArg Prod.snd applied
    rw [cut] at left
    exact ⟨before, after, split, inside, outside, left ▸ addedAll_relocated base inside⟩

-- the second longword starts inside the first one, which has been fixed by then
example : apply #[0, 0, 0, 0xff, 0xff, 0, 0] [0, 0, 0, 1, 2, 0] 1 =
    (.ok 2, #[0, 0, 1, 0, 0, 0, 1]) := by
  decide +kernel

theorem relocated_relocated (inside : ∀ offset ∈ offsets, offset + 4 ≤ image.size)
    (apart : offsets.Pairwise fun a b => a + 4 ≤ b) (first second : UInt32) :
    relocated second (relocated first image offsets) offsets =
      relocated (first + second) image offsets := by
  have once := addedAll_relocated first inside
  have inside' : ∀ offset ∈ offsets, offset + 4 ≤ (relocated first image offsets).size := by
    rw [once.size]
    exact inside
  have twice := addedAll_relocated second inside'
  have both := addedAll_relocated (first + second) inside
  apply eq_of_longs (twice.size.trans (once.size.trans both.size.symm))
  · intro offset member
    rw [both.size]
    exact inside offset member
  · intro offset member
    rw [twice.sum apart member, once.sum apart member, both.sum apart member, UInt32.toNat_add]
    omega
  · intro i outside
    rw [twice.others outside, once.others outside, both.others outside]

theorem relocated_zero (inside : ∀ offset ∈ offsets, offset + 4 ≤ image.size)
    (apart : offsets.Pairwise fun a b => a + 4 ≤ b) : relocated 0 image offsets = image := by
  have added := addedAll_relocated 0 inside
  apply eq_of_longs added.size inside
  · intro offset member
    have small := longAt_lt image offset
    rw [added.sum apart member]
    exact Nat.mod_eq_of_lt small
  · exact fun i outside => added.others outside

/-- Where the longwords of a table are all inside the image and none of them overlap, following it
with one base and then with another comes to the same as following it once with their sum. So
following it with a base and then with its negative gives back the image. -/
theorem apply_apply (inside : ∀ offset ∈ Fixups.offsets table, offset + 4 ≤ image.size)
    (spaced : (Fixups.offsets table).IsChain fun a b => a + 4 ≤ b) :
    let count := (Fixups.offsets table).length
    (∀ first second, ∃ middle last, apply image table first = (.ok count, middle) ∧
      apply middle table second = (.ok count, last) ∧
      apply image table (first + second) = (.ok count, last) ∧
      ∀ offset ∈ Fixups.offsets table, longAt last offset =
        (longAt image offset + first.toNat + second.toNat) % 2 ^ 32) ∧
    ∀ base, ∃ next, apply image table base = (.ok count, next) ∧
      apply next table (-base) = (.ok count, image) := by
  intro count
  have apart := pairwise_of_isChain spaced
  have again (first second : UInt32) :
      apply (relocated first image (Fixups.offsets table)) table second =
        (.ok count, relocated (first + second) image (Fixups.offsets table)) := by
    have inside' : ∀ offset ∈ Fixups.offsets table,
        offset + 4 ≤ (relocated first image (Fixups.offsets table)).size := by
      rw [size_relocated]
      exact inside
    rw [apply_of_inside inside', relocated_relocated inside apart]
  constructor
  · intro first second
    refine ⟨_, _, apply_of_inside inside first, again first second, apply_of_inside inside _, ?_⟩
    intro offset member
    rw [(addedAll_relocated _ inside).sum apart member, UInt32.toNat_add]
    omega
  · intro base
    have back := again base (-base)
    rw [UInt32.add_right_neg, relocated_zero inside apart] at back
    exact ⟨_, apply_of_inside inside base, back⟩

/-- An image with two longwords side by side, the first of which overflows when it is fixed, and one
more behind a gap. -/
def sideBySide : Bytes :=
  #[0x4e, 0x71, 0xff, 0xff, 0xff, 0x80, 0, 0, 0, 0x10] ++ Array.replicate 254 0 ++
    #[0, 0, 1, 0, 0x4e, 0x75]

theorem apply_apply_sideBySide :
    Fixups.offsets [0, 0, 0, 2, 4, 1, 4, 0] = [2, 6, 264] ∧
      (∀ offset ∈ [2, 6, 264], offset + 4 ≤ sideBySide.size) ∧
      [2, 6, 264].IsChain (fun a b => a + 4 ≤ b) ∧
      ∃ next, apply sideBySide [0, 0, 0, 2, 4, 1, 4, 0] 0x900 = (.ok 3, next) ∧
        next.extract 2 6 = #[0, 0, 8, 0x80] ∧ next.extract 264 268 = #[0, 0, 0xa, 0] ∧
        apply next [0, 0, 0, 2, 4, 1, 4, 0] (-0x900) = (.ok 3, sideBySide) := by
  have named : Fixups.offsets [0, 0, 0, 2, 4, 1, 4, 0] = [2, 6, 264] := by decide
  have inside : ∀ offset ∈ [2, 6, 264], offset + 4 ≤ sideBySide.size := by decide +kernel
  have spaced : [2, 6, 264].IsChain fun a b => a + 4 ≤ b := by decide
  have held : ∀ offset ∈ Fixups.offsets [0, 0, 0, 2, 4, 1, 4, 0],
      offset + 4 ≤ sideBySide.size := by
    rwa [named]
  obtain ⟨next, there, back⟩ := (apply_apply held (named ▸ spaced)).2 0x900
  rw [named] at there back
  have carried : (apply sideBySide [0, 0, 0, 2, 4, 1, 4, 0] 0x900).2.extract 2 6 =
      #[0, 0, 8, 0x80] := by decide +kernel
  have further : (apply sideBySide [0, 0, 0, 2, 4, 1, 4, 0] 0x900).2.extract 264 268 =
      #[0, 0, 0xa, 0] := by decide +kernel
  rw [there] at carried further
  exact ⟨named, inside, spaced, next, there, carried, further, back⟩

end Fixups

end AtariTos
