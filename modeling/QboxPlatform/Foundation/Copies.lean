import QboxPlatform.Foundation.Bytes

/-!
# Copies in byte images

What a copy of a byte string leaves to be read, and words read as the bytes that they are.
-/

namespace Foundation.Image

theorem read_add (image : Image) (offset front back : Nat) :
    image.read offset (front + back) =
      image.read offset front ++ image.read (offset + front) back := by
  simp only [read, List.range_add, List.map_append, List.map_map, Function.comp_def, Nat.add_assoc]

/-- The front of a copy reads as the front of what was copied. -/
theorem read_write_take (image : Image) (offset : Nat) (data : List Byte) {count : Nat}
    (bounded : count ≤ data.length) :
    (image.write offset data).read offset count = data.take count := by
  have whole := image.read_write_same offset data
  rw [← Nat.add_sub_cancel' bounded, read_add] at whole
  have front := congrArg (List.take count) whole
  rwa [List.take_left' (length_read _ _ _)] at front

theorem write_nil (image : Image) (offset : Nat) : image.write offset [] = image := by
  funext index
  exact image.write_outside offset [] (by rw [List.length_nil]; omega)

/-- The bytes of a word in memory. -/
theorem toBytes_load32 (image : Image) (offset : Nat) :
    toBytes 4 (image.load32 offset) = image.read offset 4 := by
  have decoded := @toBytes_ofBytes 32 (image.read offset 4) (by rw [length_read])
  rwa [length_read] at decoded

end Foundation.Image
