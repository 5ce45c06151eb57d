import Invoicing.Text.LowerCase

set_option autoImplicit false

/-! # The lower case of a spelling

The lower case of a text depends only on its letters and not on the case of the plain ones (`LowerCase.lower_congr`).
The characters around a capital sigma matter, but whether they have case does not depend on their case. -/

namespace Invoicing.LowerCase

/-! ## Characters -/

/-- A character that is not plain has no other case here. -/
theorem toLower_of_not_plain {c : Char} (h : ¬ c.toNat < 0x80) : c.toLower = c := by
  refine dif_neg fun hupper => h ?_
  have hle : c.toNat ≤ 'Z'.toNat := UInt32.le_iff_toNat_le.1 hupper.2
  exact Nat.lt_of_le_of_lt hle (by decide)

/-- What holds of the plain characters up to case holds of all. -/
theorem apply_toLower {α : Type} (f : Char → α)
    (h : ∀ n < 0x80, f (Char.ofNat n).toLower = f (Char.ofNat n)) (c : Char) : f c.toLower = f c := by
  by_cases hc : c.toNat < 0x80
  · have := h c.toNat hc
    rwa [Char.ofNat_toNat] at this
  · rw [toLower_of_not_plain hc]

theorem isCased_toLower (c : Char) : CaseTable.isCased c.toLower = CaseTable.isCased c :=
  apply_toLower CaseTable.isCased (by decide) c

theorem isIgnorable_toLower (c : Char) : CaseTable.isIgnorable c.toLower = CaseTable.isIgnorable c :=
  apply_toLower CaseTable.isIgnorable (by decide) c

theorem toLower_toLower (c : Char) : c.toLower.toLower = c.toLower :=
  apply_toLower Char.toLower (by decide) c

theorem isPlain_toLower (c : Char) : decide (c.toLower.toNat < 0x80) = decide (c.toNat < 0x80) :=
  apply_toLower (fun c => decide (c.toNat < 0x80)) (by decide) c

/-! ## Texts -/

theorem meetsCased_map_toLower (cs : List Char) : meetsCased (cs.map Char.toLower) = meetsCased cs := by
  induction cs with
  | nil => rfl
  | cons c cs ih =>
    simp only [meetsCased, List.map_cons, List.dropWhile_cons, isIgnorable_toLower] at ih ⊢
    cases CaseTable.isIgnorable c with
    | true => exact ih
    | false => exact isCased_toLower c

theorem lowerChar_toLower (before : List Char) (c : Char) (after : List Char) :
    lowerChar (before.map Char.toLower) c.toLower (after.map Char.toLower) = lowerChar before c after := by
  by_cases hc : c.toNat < 0x80
  · have hlower : c.toLower.toNat < 0x80 := by simpa [hc] using isPlain_toLower c
    rw [lowerChar, lowerChar, if_pos hc, if_pos hlower, toLower_toLower]
  · rw [toLower_of_not_plain hc, lowerChar, lowerChar, meetsCased_map_toLower, meetsCased_map_toLower]

theorem lowerFrom_map_toLower (before cs : List Char) :
    lowerFrom (before.map Char.toLower) (cs.map Char.toLower) = lowerFrom before cs := by
  induction cs generalizing before with
  | nil => rfl
  | cons c cs ih =>
    rw [List.map_cons, lowerFrom, lowerFrom, lowerChar_toLower, ← ih (c :: before), List.map_cons]

/-- **Texts that differ at most in the case of plain letters have the same lower case.** -/
theorem lower_congr {a b : String} (h : a.toList.map Char.toLower = b.toList.map Char.toLower) :
    lower a = lower b := by
  rw [lower, lower, ← lowerFrom_map_toLower [] a.toList, ← lowerFrom_map_toLower [] b.toList, h]

end Invoicing.LowerCase
