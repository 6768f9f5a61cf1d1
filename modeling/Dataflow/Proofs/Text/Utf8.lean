import Dataflow.Proofs.Text.ByteOrder
import Dataflow.Text.Utf8
import Mathlib.Tactic.IntervalCases

/-! # Texts are decoded from their bytes

The first byte of a character says how many are owed, and each of the others brings six bits.
-/

namespace Dataflow.Text

theorem toNat_ofNat {n : Nat} (h : n < 256) : (UInt8.ofNat n).toNat = n := by
  simp [Nat.mod_eq_of_lt h]

/-- What is owed after a first byte: the least and the greatest byte that may follow keep a
character from being spelled with more bytes than it needs. -/
theorem firstByte_two {n : Nat} (hlow : 2 ≤ n) (hhigh : n < 32) :
    firstByte (UInt8.ofNat (n + 192)) = ([], some ⟨n, 1, 0x80, 0xBF⟩) := by
  interval_cases n <;> rfl

theorem firstByte_three {n : Nat} (h : n < 16) : firstByte (UInt8.ofNat (n + 224)) =
    ([], some ⟨n, 2, if n = 0 then 0xA0 else 0x80, if n = 13 then 0x9F else 0xBF⟩) := by
  interval_cases n <;> rfl

theorem firstByte_four {n : Nat} (h : n < 5) : firstByte (UInt8.ofNat (n + 240)) =
    ([], some ⟨n, 3, if n = 0 then 0x90 else 0x80, if n = 4 then 0x8F else 0xBF⟩) := by
  interval_cases n <;> rfl

/-- A byte that may come next brings its bits. -/
theorem decodeAfter_some_cons {p : Pending} {n : Nat} (hn : n < 64)
    (hleast : p.least.toNat ≤ n + 128) (hgreatest : n + 128 ≤ p.greatest.toNat)
    (rest : List UInt8) : decodeAfter (some p) (UInt8.ofNat (n + 128) :: rest) =
      if p.owed ≤ 1 then Char.ofNat (p.bits * 64 + n) :: decodeAfter none rest
      else decodeAfter (some ⟨p.bits * 64 + n, p.owed - 1, 0x80, 0xBF⟩) rest := by
  have hbyte : (UInt8.ofNat (n + 128)).toNat = n + 128 := toNat_ofNat (by omega)
  have hallowed :
      (p.least ≤ UInt8.ofNat (n + 128) && UInt8.ofNat (n + 128) ≤ p.greatest) = true := by
    simp only [Bool.and_eq_true, decide_eq_true_eq, UInt8.le_iff_toNat_le, hbyte]
    exact ⟨hleast, hgreatest⟩
  rw [decodeAfter, if_pos hallowed]
  simp only [hbyte, Nat.add_sub_cancel]

/-- A character is decoded from its bytes, whatever comes after them. -/
theorem decodeAfter_utf8EncodeChar (c : Char) (rest : List UInt8) :
    decodeAfter none (String.utf8EncodeChar c ++ rest) = c :: decodeAfter none rest := by
  have hlimit := toNat_lt c
  have hvalid : c.val.toNat < 0xD800 ∨ 0xDFFF < c.val.toNat := c.valid.imp_right And.left
  have hchar : Char.ofNat c.val.toNat = c := Char.ofNat_toNat c
  unfold String.utf8EncodeChar
  generalize c.val.toNat = v at *
  subst hchar
  dsimp only
  split_ifs with hone htwo hthree
  · have hbyte : (UInt8.ofNat v).toNat = v := toNat_ofNat (by omega)
    have hascii : UInt8.ofNat v ≤ 0x7F := UInt8.le_iff_toNat_le.mpr (by simpa [hbyte] using hone)
    simp [decodeAfter, firstByte, hascii, hbyte]
  · rw [List.cons_append, decodeAfter, firstByte_two (by omega) (by omega), List.nil_append,
      List.cons_append, decodeAfter_some_cons (by omega) (by simp) (by simp; omega)]
    simp only [Nat.le_refl, if_true, List.nil_append]
    congr 2
    omega
  · rw [List.cons_append, decodeAfter, firstByte_three (by omega), List.nil_append,
      List.cons_append, decodeAfter_some_cons (by omega) (by dsimp only; split <;> simp; omega)
        (by dsimp only; split <;> simp <;> omega)]
    simp only [Nat.reduceLeDiff, if_false, List.cons_append, Nat.reduceSub]
    rw [decodeAfter_some_cons (by omega) (by simp) (by simp; omega)]
    simp only [Nat.le_refl, if_true, List.nil_append]
    congr 2
    omega
  · rw [List.cons_append, decodeAfter, firstByte_four (by omega), List.nil_append,
      List.cons_append, decodeAfter_some_cons (by omega) (by dsimp only; split <;> simp; omega)
        (by dsimp only; split <;> simp <;> omega)]
    simp only [Nat.reduceLeDiff, if_false, List.cons_append, Nat.reduceSub]
    rw [decodeAfter_some_cons (by omega) (by simp) (by simp; omega)]
    simp only [Nat.reduceLeDiff, if_false, Nat.reduceSub]
    rw [decodeAfter_some_cons (by omega) (by simp) (by simp; omega)]
    simp only [Nat.le_refl, if_true, List.nil_append]
    congr 2
    omega

/-- A text is decoded from its bytes. -/
theorem decode_bytes (s : String) : decode (bytes s) = s := by
  have hall (cs : List Char) : decodeAfter none (cs.flatMap String.utf8EncodeChar) = cs := by
    induction cs with
    | nil => rfl
    | cons c cs ih => rw [List.flatMap_cons, decodeAfter_utf8EncodeChar, ih]
  rw [decode, bytes_eq, hall, String.ofList_toList]

end Dataflow.Text
