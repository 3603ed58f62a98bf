import AtariTos.Host.Content
import Mathlib.Data.List.Basic

namespace AtariTos

namespace Content

variable {content : Content} {offset count i : Nat} {data : List UInt8}

/-- Behind the end of a file there are only zeros. -/
def IsClear (content : Content) : Prop :=
  ∀ i, content.size ≤ i → content.byteAt i = 0

/-- A byte array in which the bytes from an offset on have been replaced. -/
def splice (bytes : List UInt8) (offset : Nat) (data : List UInt8) : List UInt8 :=
  bytes.take offset ++ List.replicate (offset - bytes.length) 0 ++ data ++
    bytes.drop (offset + data.length)

theorem length_bytes (content : Content) : content.bytes.length = content.size := by
  rw [bytes, length_read]
  omega

theorem getElem?_bytes (h : i < content.size) : content.bytes[i]? = some (content.byteAt i) := by
  simp [bytes, read, h]

theorem read_eq (content : Content) (offset count : Nat) :
    content.read offset count = (content.bytes.drop offset).take count := by
  have length : ((content.bytes.drop offset).take count).length =
      min count (content.size - offset) := by
    rw [List.length_take, List.length_drop, length_bytes]
  refine List.ext_getElem? fun i => ?_
  by_cases inside : i < min count (content.size - offset)
  · have there : offset + i < content.size := by omega
    have taken : i < count := by omega
    rw [List.getElem?_take_of_lt taken, List.getElem?_drop, getElem?_bytes there]
    simp [read, inside]
  · have short := content.length_read offset count
    rw [List.getElem?_eq_none (by omega), List.getElem?_eq_none (by omega)]

theorem byteAt_write_of_inside (h : i < data.length) :
    some ((content.write offset data).byteAt (offset + i)) = data[i]? := by
  have filled : data.isEmpty = false := by
    cases data with
    | nil => exact absurd h (Nat.not_lt_zero i)
    | cons byte rest => rfl
  simp [write, filled, byteAt, written?, h]

theorem byteAt_write_of_outside (h : i < offset ∨ offset + data.length ≤ i) :
    (content.write offset data).byteAt i = content.byteAt i := by
  unfold write
  split
  · rfl
  · have missed : written? i (offset, data.toArray) = none := by
      by_cases low : offset ≤ i
      · have beyond : data.length ≤ i - offset := by omega
        simp [written?, beyond]
      · simp [written?, low]
    simp only [byteAt, List.findSome?_cons, missed]

theorem size_write (filled : data ≠ []) :
    (content.write offset data).size = max content.size (offset + data.length) := by
  rw [write, if_neg (by rwa [List.isEmpty_iff])]

theorem isClear_empty : empty.IsClear :=
  fun _ _ => rfl

theorem isClear_ofBytes (stored : Bytes) : (ofBytes stored).IsClear := by
  intro i h
  have beyond : stored.size ≤ i := h
  simp [byteAt, ofBytes, written?, beyond]

theorem IsClear.write (clear : content.IsClear) (offset : Nat) (data : List UInt8) :
    (content.write offset data).IsClear := by
  by_cases empty : data = []
  · rw [empty]
    exact clear
  intro i h
  rw [size_write empty] at h
  rw [byteAt_write_of_outside (by omega)]
  exact clear i (by omega)

theorem bytes_write (clear : content.IsClear) (offset : Nat) (filled : data ≠ []) :
    (content.write offset data).bytes = splice content.bytes offset data := by
  have size : (content.write offset data).size = max content.size (offset + data.length) :=
    size_write filled
  have length := content.length_bytes
  have front : (content.bytes.take offset ++
      List.replicate (offset - content.bytes.length) 0).length = offset := by
    rw [List.length_append, List.length_take, List.length_replicate]
    omega
  have nonempty : data.length ≠ 0 := by rwa [ne_eq, List.length_eq_zero_iff]
  refine List.ext_getElem? fun i => ?_
  rcases Nat.lt_or_ge i (content.write offset data).size with inside | beyond
  · rw [getElem?_bytes inside, splice]
    by_cases before : i < offset
    · rw [byteAt_write_of_outside (.inl before), List.append_assoc,
        List.getElem?_append_left (by omega)]
      by_cases old : i < content.size
      · rw [List.getElem?_append_left (by rw [List.length_take]; omega),
          List.getElem?_take_of_lt before, getElem?_bytes old]
      · rw [clear i (by omega), List.getElem?_append_right (by rw [List.length_take]; omega),
          List.getElem?_replicate_of_lt (by rw [List.length_take]; omega)]
    rw [List.append_assoc, List.getElem?_append_right (by omega), front]
    by_cases written : i < offset + data.length
    · have place : offset + (i - offset) = i := by omega
      have within : i - offset < data.length := by omega
      have there : some ((content.write offset data).byteAt (offset + (i - offset))) =
          data[i - offset]? := byteAt_write_of_inside within
      rw [List.getElem?_append_left (by omega), ← there, place]
    · have old : i < content.size := by omega
      rw [byteAt_write_of_outside (.inr (by omega)), List.getElem?_append_right (by omega),
        List.getElem?_drop, ← getElem?_bytes old]
      congr 1
      omega
  · rw [List.getElem?_eq_none (by rwa [length_bytes]), List.getElem?_eq_none]
    simp only [splice, List.length_append, List.length_take, List.length_replicate,
      List.length_drop]
    omega

end Content

end AtariTos
