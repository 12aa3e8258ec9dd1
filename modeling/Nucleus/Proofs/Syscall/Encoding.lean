import Nucleus.Executive.Gateway
import Nucleus.Syscall.Invocation

namespace Nucleus

theorem Context.argument_setArguments (context : Context)
    (arguments : List UInt64) (index : Fin 6) :
    (context.setArguments arguments).argument index =
      arguments[index.val]?.getD (context.argument index) := by
  have inside : index.val < 31 := Nat.lt_trans index.isLt (by decide)
  exact Vector.getElem_ofFn inside

theorem coordinate_toUInt64 (value : UInt32) :
    coordinate value.toUInt64 = value.toInt32.toInt := by
  rw [coordinate, UInt32.toUInt32_toUInt64]

theorem Pair.toNat_pack (width height : UInt32) :
    (pack width height).toNat =
      width.toNat * UInt32.size + height.toNat := by
  have widthSmall := width.toNat_lt
  have fits : width.toNat <<< 32 < UInt64.size := by
    rw [Nat.shiftLeft_eq]
    unfold UInt64.size
    omega
  rw [pack, UInt64.toNat_or, UInt64.toNat_shiftLeft, UInt32.toNat_toUInt64,
    UInt32.toNat_toUInt64, show (32 : UInt64).toNat % 64 = 32 from rfl,
    Nat.mod_eq_of_lt fits, ← Nat.shiftLeft_add_eq_or_of_lt height.toNat_lt,
    Nat.shiftLeft_eq]

theorem Pair.unpack_pack (width height : UInt32) :
    unpack (pack width height) = (width, height) := by
  have packed := Pair.toNat_pack width height
  unfold UInt32.size at packed
  have widthSmall := width.toNat_lt
  have heightSmall := height.toNat_lt
  apply Prod.ext
  · apply UInt32.toNat_inj.mp
    rw [unpack, UInt64.toNat_toUInt32, UInt64.toNat_shiftRight, packed,
      show (32 : UInt64).toNat % 64 = 32 from rfl, Nat.shiftRight_eq_div_pow]
    dsimp only
    omega
  · apply UInt32.toNat_inj.mp
    rw [unpack, UInt64.toNat_toUInt32, packed]
    dsimp only
    omega

theorem Reply.size_packSize (width height : UInt32) :
    size (Executive.packSize (width.toNat, height.toNat)) =
      (width, height) := by
  rw [size, Executive.packSize, UInt32.ofNat_toNat, UInt32.ofNat_toNat,
    Pair.unpack_pack]

section Bases

variable {base : Nat}

theorem Reply.heap?_eq_none_iff (fits : base ≤ maxWord) :
    Reply.heap? (UInt64.ofNat base) = none ↔ base = 0 := by
  have zero_iff : UInt64.ofNat base = 0 ↔ base = 0 := by
    rw [← UInt64.toNat_inj, toNat_ofNat_of_le_maxWord fits, UInt64.toNat_zero]
  rw [← zero_iff]
  unfold heap?
  split
  · rename_i zero
    exact iff_of_true rfl zero
  · rename_i granted
    exact iff_of_false (Option.some_ne_none _) granted

theorem Reply.toNat_of_heap?_eq_some (fits : base ≤ maxWord) {word : UInt64}
    (found : Reply.heap? (UInt64.ofNat base) = some word) :
    word.toNat = base := by
  unfold heap? at found
  split at found
  · cases found
  · rw [← Option.some.inj found, toNat_ofNat_of_le_maxWord fits]

end Bases

theorem Reply.status_value (status : SyscallStatus) :
    Reply.status (UInt64.ofInt status.value) =
      if status = .ok then .ok 0 else .error status := by
  cases status <;> rfl

theorem MemoryError.status_ne_ok (cause : MemoryError) :
    cause.status ≠ .ok := by
  cases cause <;> decide

theorem KeyEvent.ofBytes?_toBytes (event : KeyEvent) :
    ofBytes? event.toBytes = some event := by
  obtain ⟨modifier, reserved, keys⟩ := event
  obtain ⟨⟨codes⟩, six⟩ := keys
  match codes, six with
  | [_, _, _, _, _, _], _ => rfl

namespace UserMemory

theorem bytesAt_store (memory : UserMemory) (address : Nat)
    (bytes : List UInt8) :
    (memory.store address bytes).bytesAt address bytes.length = bytes := by
  apply List.ext_getElem
  · exact length_bytesAt _ _ _
  · intro offset _ inside
    simp only [bytesAt, List.getElem_map, List.getElem_range]
    rw [byteAt_store, if_pos ⟨Nat.le_add_right _ _, Nat.add_lt_add_left inside _⟩,
      Nat.add_sub_cancel_left, List.getElem?_eq_getElem inside,
      Option.getD_some]

end UserMemory
end Nucleus
