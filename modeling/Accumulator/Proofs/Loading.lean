import Mathlib.Data.List.FinRange
import Mathlib.Data.List.GetD
import Accumulator.Proofs.Placement

/-!
# Loading in parts

An image can be placed as a whole, in two parts one behind the other, or word by word. A load in two
parts is the load of the whole (`load_append_iff`), with one exception: behind an image that ends
with the last cell there is no address left to load an empty part at. Words that are written one by
one come to the load in whatever order they are written (`foldlM_write`), because every write brings
one more cell to what the load puts there and disturbs no other (`load_in_parts`).
-/

namespace Accumulator

/-- The address so many cells behind another. -/
def Address.offset (a : Address) (n : Nat) : Address :=
  ⟨.ofNat (a.value.toNat + n)⟩

/-- An address moved within memory does not wrap around. -/
theorem Address.toNat_offset {a : Address} {n : Nat} (h : a.value.toNat + n ≤ memoryWords) :
    (a.offset n).value.toNat = a.value.toNat + n :=
  UInt16.toNat_ofNat_of_lt (Nat.lt_of_le_of_lt h (by decide))

namespace Memory

variable {m m' : Memory} {image a b : List UInt16} {o : Address}

/-! ## Two parts -/

/-- Where an image fits, so do its parts one behind the other, and conversely; the last part must
have a word to name a cell of its own. -/
theorem fits_append_iff (nonempty : b ≠ []) :
    Fits o (a ++ b).length ↔ Fits o a.length ∧ Fits (o.offset a.length) b.length := by
  have pos : 0 < b.length := List.length_pos_iff.2 nonempty
  rw [List.length_append]
  constructor
  · rintro ⟨inside, ends⟩
    have front : o.value.toNat + a.length ≤ memoryWords := by omega
    refine ⟨⟨inside, front⟩, ?_⟩
    rw [Fits, Address.toNat_offset front]
    omega
  · rintro ⟨⟨inside, front⟩, rest⟩
    rw [Fits, Address.toNat_offset front] at rest
    exact ⟨inside, by omega⟩

/-- Two images placed one behind the other are placed one after the other. -/
theorem overlay_append (m : Memory) (a b : List UInt16) (start : Nat) :
    m.overlay (a ++ b) start = (m.overlay a start).overlay b (start + a.length) := by
  refine ext_word fun c hc => ?_
  rw [word_overlay _ _ _ hc, word_overlay _ _ _ hc, word_overlay _ _ _ hc]
  rcases Nat.lt_or_ge c start with before | behind
  · rw [if_neg (by omega), if_neg (by omega), if_neg (by omega)]
  rw [if_pos behind, if_pos behind]
  rcases Nat.lt_or_ge c (start + a.length) with first | second
  · rw [if_neg (by omega), List.getD_append _ _ _ _ (by omega)]
  · rw [if_pos second, List.getD_append_right _ _ _ _ (by omega),
      List.getD_eq_default a _ (by omega), Nat.sub_sub]

/-- **A load in two parts is the load of the whole.** -/
theorem load_append_iff (nonempty : b ≠ []) : m.load (a ++ b) o = .ok m' ↔
    ∃ m₁, m.load a o = .ok m₁ ∧ m₁.load b (o.offset a.length) = .ok m' := by
  simp only [load_eq_ok_iff, fits_append_iff nonempty]
  constructor
  · rintro ⟨⟨first, second⟩, rfl⟩
    refine ⟨_, ⟨first, rfl⟩, second, ?_⟩
    rw [overlay_append, Address.toNat_offset first.2]
  · rintro ⟨_, ⟨first, rfl⟩, second, rfl⟩
    refine ⟨⟨first, second⟩, ?_⟩
    rw [overlay_append, Address.toNat_offset first.2]

/-! ## Word by word -/

/-- Words of an image written one by one bring a memory to what the load makes of `base`, if all
cells in which the two differ are still to be written. -/
theorem foldlM_write {base : Memory} (fits : Fits o image.length) {order : List (Fin image.length)}
    (pending : ∀ c < memoryWords, m.word c = (base.overlay image o.value.toNat).word c ∨
      ∃ i ∈ order, c = o.value.toNat + i) :
    order.foldlM (fun m i => m.write (o.offset i) image[i]) m =
      .ok (base.overlay image o.value.toNat) := by
  induction order generalizing m with
  | nil =>
    have same : m = base.overlay image o.value.toNat := ext_word fun c hc =>
      (pending c hc).resolve_right (by simp)
    rw [same]
    rfl
  | cons i rest ih =>
    have cell : o.value.toNat + i < memoryWords := by
      have ends := fits.2
      omega
    have place : (o.offset i).value.toNat = o.value.toNat + i := Address.toNat_offset cell.le
    have written : m.write (o.offset i) image[i] = .ok (m.put (o.value.toNat + i) image[i]) := by
      rw [write_of_lt (by rwa [place]), place]
    rw [List.foldlM_cons, written]
    refine ih fun c hc => ?_
    rw [word_put cell]
    by_cases here : c = o.value.toNat + i
    · left
      rw [if_pos here, here, word_overlay_add fits.2 i.isLt]
      rfl
    · rw [if_neg here]
      refine (pending c hc).imp_right ?_
      rintro ⟨j, hj, rfl⟩
      rcases List.mem_cons.1 hj with rfl | hj
      · exact absurd rfl here
      · exact ⟨j, hj, rfl⟩

/-- **Loading in parts.** An image of two parts, the second not empty, is loaded just in case the
first is and then the second behind it, and both ways leave the same memory. A memory that a load
leaves is also what comes of writing the words of the image one by one to their cells, in any order,
and none of these writes is refused. -/
theorem load_in_parts (m m' : Memory) (o : Address) :
    (∀ a b : List UInt16, b ≠ [] → (m.load (a ++ b) o = .ok m' ↔
      ∃ m₁, m.load a o = .ok m₁ ∧ m₁.load b (o.offset a.length) = .ok m')) ∧
    ∀ image : List UInt16, m.load image o = .ok m' →
      ∀ order : List (Fin image.length), order.Perm (List.finRange image.length) →
        order.foldlM (fun m i => m.write (o.offset i) image[i]) m = .ok m' := by
  refine ⟨fun a b nonempty => load_append_iff nonempty, fun image loads order all => ?_⟩
  obtain ⟨fits, rfl⟩ := load_eq_ok_iff.1 loads
  refine foldlM_write fits fun c hc => ?_
  by_cases covered : o.value.toNat ≤ c ∧ c < o.value.toNat + image.length
  · right
    refine ⟨⟨c - o.value.toNat, by omega⟩, all.mem_iff.2 (List.mem_finRange _), ?_⟩
    dsimp only
    omega
  · left
    rw [word_overlay_of_outside hc (by omega)]

/-- Three words that end with the last cell, in two parts and written from the last to the first;
no empty part can be loaded behind them. -/
theorem load_in_parts_atEnd :
    let loaded := zeros.overlay [1, 2, 3] 0xFD
    ([3] ≠ [] ∧ zeros.load ([1, 2] ++ [3]) ⟨0xFD⟩ = .ok loaded ∧
      ∃ m₁, zeros.load [1, 2] ⟨0xFD⟩ = .ok m₁ ∧ m₁.load [3] ⟨0xFF⟩ = .ok loaded) ∧
    ([2, 1, 0].Perm (List.finRange 3) ∧
      [2, 1, 0].foldlM (fun m (i : Fin 3) => m.write (Address.offset ⟨0xFD⟩ i) [1, 2, 3][i]) zeros =
        .ok loaded) ∧
    loaded.load [] ⟨0x100⟩ = .error (.imageTooLong ⟨0x100⟩ 0) := by
  intro loaded
  have fits : zeros.load [1, 2, 3] ⟨0xFD⟩ = .ok loaded := load_of_fits (by decide)
  have backwards : [2, 1, 0].Perm (List.finRange 3) := by decide
  obtain ⟨parts, words⟩ := load_in_parts zeros loaded ⟨0xFD⟩
  refine ⟨⟨by simp, fits, ?_⟩, ⟨backwards, words _ fits _ backwards⟩, ?_⟩
  · exact (parts [1, 2] [3] (by simp)).1 fits
  · exact load_of_not_fits (by decide)

end Memory
end Accumulator
