import G361FPlatform.Library.Outcome

namespace G361FPlatform.Library

/-- A block of memory.  A byte that nothing was stored in reads as `none`. -/
abbrev Block := List (Option UInt8)

namespace Block

def resize (b : Block) (n : Nat) : Block := b.take n ++ List.replicate (n - b.length) none

def store (b : Block) (i : Nat) (bs : List UInt8) : Except Stuck Block :=
  if i + bs.length ≤ b.length then .ok (b.take i ++ (bs.map some ++ b.drop (i + bs.length)))
  else .error .fault

def slice (bs : List UInt8) (i : Int) (n : Nat) : Except Stuck (List UInt8) :=
  if 0 ≤ i ∧ i + n ≤ bs.length then .ok ((bs.drop i.toNat).take n) else .error .fault

def byteAt (bs : List UInt8) (i : Nat) : Except Stuck UInt8 :=
  match bs[i]? with
  | none => .error .fault
  | some b => .ok b

theorem byteAt_eq {bs : List UInt8} {i : Nat} (h : i < bs.length) : byteAt bs i = .ok bs[i] := by
  rw [byteAt, List.getElem?_eq_getElem h]

theorem byteAt_append (p rest : List UInt8) (b : UInt8) :
    byteAt (p ++ b :: rest) p.length = .ok b := by
  rw [byteAt, List.getElem?_append_right (Nat.le_refl _), Nat.sub_self, List.getElem?_cons_zero]

theorem slice_eq {bs : List UInt8} {i n : Nat} (h : i + n ≤ bs.length) :
    slice bs i n = .ok ((bs.drop i).take n) := by
  rw [slice, if_pos ⟨Int.natCast_nonneg i, by omega⟩, Int.toNat_natCast]

theorem slice_append (p bs rest : List UInt8) :
    slice (p ++ (bs ++ rest)) p.length bs.length = .ok bs := by
  rw [slice_eq (by simp only [List.length_append]; omega), List.drop_left, List.take_left]

theorem length_of_slice {bs bs' : List UInt8} {i : Int} {n : Nat} (h : slice bs i n = .ok bs') :
    bs'.length = n := by
  unfold slice at h
  split at h
  next hin =>
    cases h
    rw [List.length_take, List.length_drop]
    omega
  · cases h

theorem resize_append (b rest : Block) (n : Nat) :
    ∃ rest' : Block, resize (b ++ rest) (b.length + n) = b ++ rest' ∧ rest'.length = n := by
  refine ⟨rest.take n ++ List.replicate (n - rest.length) none, ?_, ?_⟩
  · rw [resize, List.take_append, List.take_of_length_le (by omega), List.append_assoc, List.length_append,
      Nat.add_sub_cancel_left, Nat.add_sub_add_left]
  · rw [List.length_append, List.length_take, List.length_replicate]
    omega

@[simp] theorem length_resize (b : Block) (n : Nat) : (resize b n).length = n := by
  rw [resize, List.length_append, List.length_take, List.length_replicate]
  omega

theorem store_append (b rest : Block) (bs : List UInt8) (h : bs.length ≤ rest.length) :
    store (b ++ rest) b.length bs = .ok (b ++ (bs.map some ++ rest.drop bs.length)) := by
  rw [store, if_pos (by rw [List.length_append]; omega), List.take_left, List.drop_append,
    List.drop_eq_nil_of_le (by omega), List.nil_append, Nat.add_sub_cancel_left]

theorem exists_store {b : Block} {i : Nat} {bs : List UInt8} (h : i + bs.length ≤ b.length) :
    ∃ b', store b i bs = .ok b' ∧ b'.length = b.length := by
  refine ⟨_, if_pos h, ?_⟩
  simp only [List.length_append, List.length_take, List.length_map, List.length_drop]
  omega

theorem slice_append_left {bs : List UInt8} {n : Nat} (h : n ≤ bs.length) (rest : List UInt8) :
    slice (bs ++ rest) 0 n = .ok (bs.take n) := by
  rw [← Int.natCast_zero, slice_eq (by rw [List.length_append]; omega), List.drop_zero,
    List.take_append_of_le_length h]

theorem length_of_store {b b' : Block} {i : Nat} {bs : List UInt8} (h : store b i bs = .ok b') :
    i + bs.length ≤ b.length ∧ b'.length = b.length := by
  unfold store at h
  split at h
  next hin =>
    cases h
    refine ⟨hin, ?_⟩
    simp only [List.length_append, List.length_take, List.length_map, List.length_drop]
    omega
  · cases h

end Block

end G361FPlatform.Library
