import Dataflow.Proofs.Json.Grammar

/-! # Numbers that are read back

The text of an integer is a numeral that spells it; whether the text of a fraction does is asked of
the fraction.
-/

namespace Dataflow.Json

/-! ### The digits of a number -/

/-- Only zero has a text that begins with a zero. -/
theorem toDigits_ne_zero_cons {n : Nat} (hn : 0 < n) (tail : List Char) :
    Nat.toDigits 10 n ≠ '0' :: tail := by
  induction n using Nat.strongRecOn generalizing tail with
  | _ n ih =>
      rw [Nat.toDigits_eq_if (by decide)]
      split
      next hlt =>
        have hchar : ∀ d < 10, 0 < d → Nat.digitChar d ≠ '0' := by decide
        exact fun h => hchar n hlt hn (List.cons.inj h).1
      next hge =>
        have ih := ih (n / 10) (by omega) (by omega)
        match hdigits : Nat.toDigits 10 (n / 10) with
        | [] => exact absurd hdigits Nat.toDigits_ne_nil
        | c :: cs =>
            intro h
            exact ih cs (by rw [hdigits, (List.cons.inj h).1])

theorem absorb_concat {digits : List Nat} {start n d : Nat} (h : absorb start digits = (n, []))
    (hd : n * 10 + d < UInt64.size) : absorb start (digits ++ [d]) = (n * 10 + d, []) := by
  induction digits generalizing start with
  | nil =>
      cases h
      simp [absorb, hd]
  | cons d' digits ih =>
      rw [absorb] at h
      split at h
      next hlt =>
        rw [List.cons_append, absorb, if_pos hlt]
        exact ih h
      next => cases h

/-- A number below `2 ^ 64` is made of its digits. -/
theorem absorb_toDigits {n : Nat} (hn : n < UInt64.size) :
    absorb 0 ((Nat.toDigits 10 n).map digitValue) = (n, []) := by
  induction n using Nat.strongRecOn with
  | _ n ih =>
      have hvalue : ∀ d < 10, digitValue (Nat.digitChar d) = d := by decide
      rw [Nat.toDigits_eq_if (by decide)]
      split
      next hlt => simp [absorb, hvalue n hlt, hn]
      next hge =>
        have hrest := ih (n / 10) (by omega) (by omega)
        have hlast := absorb_concat (d := n % 10) hrest (by omega)
        rw [List.map_append, List.map_singleton, hvalue _ (Nat.mod_lt n (by decide)), hlast]
        simp only [Prod.mk.injEq, and_true]
        omega

/-- The numeral of an integer. -/
def Numeral.ofNat (negative : Bool) (n : Nat) : Numeral :=
  ⟨negative, (Nat.toDigits 10 n).map digitValue, none, none⟩

/-- The digits of a number are not preceded by zeros. -/
theorem wholeText_toDigits (n : Nat) :
    WholeText ((Nat.toDigits 10 n).map digitValue) (Nat.toDigits 10 n) where
  nonempty := Nat.toDigits_ne_nil
  isDigit := fun _ hc => Nat.isDigit_of_mem_toDigits (by decide) (by decide) hc
  values := rfl
  alone := by
    intro hhead
    rcases Nat.eq_zero_or_pos n with rfl | hn
    · rfl
    · obtain ⟨tail, htail⟩ := List.head?_eq_some_iff.mp hhead
      exact absurd htail (toDigits_ne_zero_cons hn tail)

theorem numeral_toDigits (negative : Bool) (n : Nat) :
    numeral negative (Nat.toDigits 10 n) = .ok (Numeral.ofNat negative n, []) := by
  have hunsigned : UnsignedText (Numeral.ofNat negative n) (Nat.toDigits 10 n) [] [] :=
    ⟨wholeText_toDigits n, .none, .none⟩
  have hread : numeral negative (Nat.toDigits 10 n ++ [] ++ [] ++ []) =
      .ok (Numeral.ofNat negative n, []) := numeral_complete hunsigned ends_nil
  simpa using hread

/-! ### Numbers that are read back -/

/-- The text of a number is a numeral, behind its sign, that spells the number. -/
def Number.ReadsBack (n : Number) : Prop :=
  ∃ negative cs numeral,
    n.text.toList = (if negative then ['-'] else []) ++ cs ∧
      Json.numeral negative cs = .ok (numeral, []) ∧ numeral.toNumber? = some n

/-- The text of a number that is read back is a word for it. -/
theorem Number.ReadsBack.wordText {n : Number} (h : n.ReadsBack) :
    WordText (.scalar (.number (.ok n))) n.text.toList := by
  obtain ⟨negative, cs, numeral, htext, hnumeral, hvalue⟩ := h
  obtain ⟨hsign, whole, fraction, exponent, rfl, hunsigned⟩ := numeral_sound hnumeral
  rw [htext, List.append_nil]
  refine .number ?_ hvalue
  cases negative with
  | true => exact .negative hsign hunsigned
  | false => exact .positive hsign hunsigned

/-- Integers are read back. -/
theorem Number.readsBack_of_toInt? {n : Number} (h : n.toInt? ≠ none) : n.ReadsBack := by
  cases n with
  | natural value =>
      refine ⟨false, Nat.toDigits 10 value.toNat, _, ?_, numeral_toDigits _ _, ?_⟩
      · exact Nat.toList_repr
      · have habsorb := absorb_toDigits value.toNat_lt
        simp [Numeral.toNumber?, Numeral.ofNat, habsorb]
  | negative below =>
      have hbound : below.val + 1 ≤ Nat.pow 2 63 := below.isLt
      refine ⟨true, Nat.toDigits 10 (below.val + 1), _, ?_, numeral_toDigits _ _, ?_⟩
      · rw [Number.text, String.toList_append]
        exact congrArg _ Nat.toList_repr
      · have hlt : below.val + 1 < UInt64.size :=
          Nat.lt_of_le_of_lt hbound (by decide)
        have habsorb := absorb_toDigits hlt
        simp [Numeral.toNumber?, Numeral.ofNat, habsorb, hbound]
  | float value => exact absurd rfl h

end Dataflow.Json
