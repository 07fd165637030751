/-
  Digits — what written numbers look like.

  A written number has only digits, at least one, and no zero in front unless it is zero itself.  Filled
  up to a width that has room for it, it has exactly that many digits and still spells the number.
-/
import Mathlib.Tactic.Ring
import SessionCluster.Text.Digits

namespace SessionCluster.Text

theorem toList_decimal (n : Nat) : (decimal n).toList = digits n := String.toList_ofList

theorem digits_ne_nil (n : Nat) : digits n ≠ [] := Nat.toDigits_ne_nil

theorem isDigit_of_mem_digits {n : Nat} {c : Char} (h : c ∈ digits n) : isDigit c = true :=
  Nat.isDigit_of_mem_toDigits (by decide) (by decide) h

/-- The digits of a number from ten up are those of its tenth part, and one more. -/
theorem digits_of_ge {n : Nat} (h : 10 ≤ n) :
    digits n = digits (n / 10) ++ [Nat.digitChar (n % 10)] :=
  Nat.toDigits_of_base_le (by decide) h

/-- A number that is not zero does not begin with a zero. -/
theorem digits_head {n : Nat} (h : 0 < n) : ∃ c cs, digits n = c :: cs ∧ c ≠ '0' := by
  induction n using Nat.strongRecOn with
  | _ n ih =>
    rcases Nat.lt_or_ge n 10 with hlt | hge
    · refine ⟨Nat.digitChar n, [], Nat.toDigits_of_lt_base hlt, fun hzero => ?_⟩
      rw [Nat.digitChar_eq_zero] at hzero
      omega
    · obtain ⟨c, cs, hdigits, hc⟩ := ih (n / 10) (by omega) (by omega)
      exact ⟨c, cs ++ [Nat.digitChar (n % 10)], by rw [digits_of_ge hge, hdigits]; rfl, hc⟩

/-- A written number is read as the number. -/
theorem unsigned_decimal {n bound : Nat} (h : n < bound) :
    unsigned? bound (decimal n) = some n := by
  have hdigits : ∀ c ∈ digits n, isDigit c = true := fun _ => isDigit_of_mem_digits
  obtain ⟨c, cs, hcons⟩ := List.exists_cons_of_ne_nil (digits_ne_nil n)
  have hall : (c :: cs).all isDigit = true := by
    rw [← hcons]
    exact List.all_eq_true.mpr hdigits
  have hnumber : ofDigits 0 (c :: cs) = n := by
    rw [← hcons]
    exact ofDigits_digits n
  unfold unsigned?
  rw [toList_decimal, hcons]
  split
  · -- a digit is no plus sign
    rename_i r heq
    cases heq
    cases hdigits '+' (by rw [hcons]; exact List.mem_cons_self ..)
  · simp only [hall, hnumber, if_pos h]
    rfl

theorem digitValue_le {c : Char} (h : isDigit c = true) : digitValue c ≤ 9 := by
  obtain ⟨-, hhigh⟩ := Bool.and_eq_true_iff.mp h
  have hnine : c.toNat ≤ 57 := of_decide_eq_true hhigh
  show c.toNat - 48 ≤ 9
  omega

/-- A run of digits spells a number of no more digits. -/
theorem ofDigits_lt {cs : List Char} (h : ∀ c ∈ cs, isDigit c = true) :
    ∀ n, ofDigits n cs < (n + 1) * 10 ^ cs.length := by
  induction cs with
  | nil => exact fun n => by simp [ofDigits]
  | cons c cs ih =>
    intro n
    obtain ⟨hc, hcs⟩ := List.forall_mem_cons.mp h
    have hvalue := digitValue_le hc
    have hrest := ih hcs (n * 10 + digitValue c)
    calc ofDigits n (c :: cs) < (n * 10 + digitValue c + 1) * 10 ^ cs.length := hrest
      _ ≤ ((n + 1) * 10) * 10 ^ cs.length := Nat.mul_le_mul_right _ (by omega)
      _ = (n + 1) * 10 ^ (c :: cs).length := by rw [List.length_cons, Nat.pow_succ']; ring

/-! ## Padded numbers -/

theorem toList_padded (width n : Nat) :
    (padded width n).toList = List.replicate (width - (digits n).length) '0' ++ digits n :=
  String.toList_ofList

theorem length_digits_le {width n : Nat} (hw : 0 < width) (h : n < 10 ^ width) :
    (digits n).length ≤ width :=
  (Nat.length_toDigits_le_iff (by decide) hw).mpr h

theorem isDigit_of_mem_padded {width n : Nat} {c : Char} (h : c ∈ (padded width n).toList) :
    isDigit c = true := by
  rw [toList_padded] at h
  rcases List.mem_append.mp h with hzero | hdigit
  · obtain rfl := List.eq_of_mem_replicate hzero
    rfl
  · exact isDigit_of_mem_digits hdigit

theorem length_padded {width n : Nat} (hw : 0 < width) (h : n < 10 ^ width) :
    (padded width n).toList.length = width := by
  have hle := length_digits_le hw h
  rw [toList_padded, List.length_append, List.length_replicate]
  omega

theorem padded_ne_nil (width n : Nat) : (padded width n).toList ≠ [] := by
  rw [toList_padded]
  exact fun h => digits_ne_nil n (List.append_eq_nil_iff.mp h).2

theorem ofDigits_replicate_zero (k : Nat) : ofDigits 0 (List.replicate k '0') = 0 := by
  induction k with
  | zero => rfl
  | succ k ih => exact ih

/-- A padded number spells the number. -/
theorem ofDigits_padded (width n : Nat) : ofDigits 0 (padded width n).toList = n := by
  rw [toList_padded, ofDigits_append, ofDigits_replicate_zero, ofDigits_digits]

end SessionCluster.Text
