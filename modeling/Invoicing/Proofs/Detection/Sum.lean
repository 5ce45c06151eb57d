import Invoicing.Detection.Sum
import Mathlib.Algebra.GroupWithZero.Nat

set_option autoImplicit false

/-! # Exact sums

A sum that stops at the largest amount is the exact sum, cut down to the largest amount once at its end
(`Amount.sumTexts_eq`), so it does not depend on the order of its parts. A difference is that of the numbers. -/

namespace Invoicing

namespace Amount

/-! ## Sums -/

/-- The number that a text spells, if it is an amount. -/
def worth (s : String) : Nat := ((ofText? s).map value).getD 0

@[simp] theorem worth_render (a : Amount) : worth a.render = a.value := by
  simp [worth]

@[simp] theorem isValidText_render (a : Amount) : isValidText a.render = true := by
  simp [isValidText]

theorem parse_eq_ok_iff {s : String} {a : Amount} : parse s = .ok a ↔ ofText? s = some a := by
  unfold parse
  cases ofText? s <;> simp

theorem parse_eq_error_iff {s : String} {e : DetectionError} :
    parse s = .error e ↔ e = .invalidAmount s ∧ ofText? s = none := by
  unfold parse
  cases ofText? s <;> simp [eq_comm]

theorem parse_eq {s : String} (h : isValidText s = true) : ∃ a, parse s = .ok a ∧ a.value = worth s := by
  obtain ⟨a, ha⟩ := Option.isSome_iff_exists.1 h
  exact ⟨a, by rw [parse, ha], by rw [worth, ha]; rfl⟩

theorem parse_render (a : Amount) : parse a.render = .ok a := by
  rw [parse, ofText?_render]

theorem sumTextsFrom_eq {ss : List String} (h : ∀ s ∈ ss, isValidText s = true) (total : Amount) :
    sumTextsFrom total ss = .ok (clamp (total.value + (ss.map worth).sum)) := by
  induction ss generalizing total with
  | nil =>
    have hself : clamp total.value = total := by
      ext
      exact Nat.min_eq_left (by have := total.value_lt; omega)
    simp [sumTextsFrom, hself]
  | cons s ss ih =>
    obtain ⟨a, ha, hworth⟩ := parse_eq (h s List.mem_cons_self)
    rw [sumTextsFrom, ha]
    show sumTextsFrom (total.add a) ss = _
    rw [ih (fun s' hs' => h s' (List.mem_cons_of_mem s hs')), List.map_cons, List.sum_cons, ← hworth]
    refine congrArg Except.ok ?_
    ext
    simp only [add, value_clamp]
    omega

/-- **A sum of valid texts is exact up to the largest amount.** -/
theorem sumTexts_eq {ss : List String} (h : ∀ s ∈ ss, isValidText s = true) :
    sumTexts ss = .ok (clamp (ss.map worth).sum) := by
  rw [sumTexts, sumTextsFrom_eq h, zero, Nat.zero_add]

/-! ## Differences -/

/-- The difference of two amounts is spelled as that of the numbers. -/
theorem difference_eq (a b : Amount) : difference a b = toString ((a.value : Int) - b.value) := by
  unfold difference
  split
  · next hle =>
    rw [← Int.ofNat_sub hle]
    rfl
  · next hlt =>
    obtain ⟨n, hn⟩ : ∃ n, b.value - a.value = n + 1 := ⟨b.value - a.value - 1, by omega⟩
    have hneg : (a.value : Int) - b.value = Int.negSucc n := by omega
    rw [hneg, hn]
    show _ = "-" ++ String.ofList (Nat.toDigits 10 (n + 1))
    exact String.toList_inj.1 (by simp)

end Amount

/-- The balance of two amounts is their difference. -/
theorem signedBalance_render (a b : Amount) :
    signedBalance a.render b.render = .ok (toString ((a.value : Int) - b.value)) := by
  rw [signedBalance, Amount.parse_render, Amount.parse_render, ← Amount.difference_eq]
  rfl

end Invoicing
