import Mathlib.Algebra.Order.Ring.Nat
import Mathlib.Data.List.Basic

/-!
# Decimal numerals

The number that a text of digits writes, and the scaled number that a numeral with a dot
writes. Printing a scaled number with its fraction padded to the width and then stripped of
the zeros at its end gives a numeral of that number.
-/

namespace Membrane

def IsDigits (text : List Char) : Prop := ∀ c ∈ text, c.isDigit = true

instance (text : List Char) : Decidable (IsDigits text) :=
  List.decidableBAll (fun c : Char => c.isDigit = true) text

def digitsNumber (text : List Char) : Nat := Nat.ofDigitChars 10 text 0

def trimZeros : List Char → List Char
  | [] => []
  | digit :: rest =>
    match trimZeros rest with
    | [] => if digit = '0' then [] else [digit]
    | kept => digit :: kept

/-- A numeral for a number of parts, `10 ^ places` to one: digits, or digits, a dot and at
    most `places` more, with at least `least` digits and `leastAfter` after a dot. -/
inductive Numeral (places least leastAfter : Nat) : List Char → Nat → Prop
  | whole {digits : List Char} (isDigits : IsDigits digits) (enough : least ≤ digits.length) :
      Numeral places least leastAfter digits (digitsNumber digits * 10 ^ places)
  | fraction {digits after : List Char} (isDigits : IsDigits digits) (isDigits' : IsDigits after)
      (enough : least ≤ digits.length) (enough' : leastAfter ≤ after.length)
      (narrow : after.length ≤ places) :
      Numeral places least leastAfter (digits ++ '.' :: after)
        (digitsNumber digits * 10 ^ places + digitsNumber after * 10 ^ (places - after.length))

@[simp]
theorem digitsNumber_nil : digitsNumber [] = 0 := Nat.ofDigitChars_nil

theorem digitsNumber_append (text text' : List Char) :
    digitsNumber (text ++ text') = 10 ^ text'.length * digitsNumber text + digitsNumber text' := by
  unfold digitsNumber
  rw [Nat.ofDigitChars_append, Nat.ofDigitChars_eq_ofDigitChars_zero]

@[simp]
theorem digitsNumber_zeros (count : Nat) : digitsNumber (List.replicate count '0') = 0 := by
  unfold digitsNumber
  rw [Nat.ofDigitChars_replicate_zero, Nat.mul_zero]

@[simp]
theorem digitsNumber_toDigits (n : Nat) : digitsNumber (Nat.toDigits 10 n) = n :=
  Nat.ofDigitChars_ten_toDigits

theorem IsDigits.append {text text' : List Char} (left : IsDigits text) (right : IsDigits text') :
    IsDigits (text ++ text') := by
  intro c hc
  rcases List.mem_append.mp hc with hc | hc
  · exact left c hc
  · exact right c hc

theorem isDigits_zeros (count : Nat) : IsDigits (List.replicate count '0') := by
  intro c hc
  rw [List.eq_of_mem_replicate hc]
  rfl

theorem isDigits_toDigits (n : Nat) : IsDigits (Nat.toDigits 10 n) :=
  fun _ hc => Nat.isDigit_of_mem_toDigits (by decide) (by decide) hc

theorem IsDigits.no_dot {text : List Char} (h : IsDigits text) : '.' ∉ text := by
  intro hdot
  have hdigit := h '.' hdot
  revert hdigit
  decide

theorem IsDigits.number_lt {text : List Char} (h : IsDigits text) :
    digitsNumber text < 10 ^ text.length := by
  induction text with
  | nil => simp
  | cons c rest ih =>
    have hdigit := Char.isDigit_iff_toNat.mp (h c List.mem_cons_self)
    have hrest := ih fun c hc => h c (List.mem_cons_of_mem _ hc)
    have hhead : digitsNumber [c] ≤ 9 := by
      simp only [digitsNumber, Nat.ofDigitChars_cons, Nat.ofDigitChars_nil]
      have hzero : '0'.toNat = 48 := rfl
      have hnine : '9'.toNat = 57 := rfl
      omega
    have hsplit := digitsNumber_append [c] rest
    rw [List.singleton_append] at hsplit
    rw [hsplit, List.length_cons, Nat.pow_succ]
    calc 10 ^ rest.length * digitsNumber [c] + digitsNumber rest
        < 10 ^ rest.length * digitsNumber [c] + 10 ^ rest.length := Nat.add_lt_add_left hrest _
      _ = 10 ^ rest.length * (digitsNumber [c] + 1) := by rw [Nat.mul_add, Nat.mul_one]
      _ ≤ 10 ^ rest.length * 10 := Nat.mul_le_mul_left _ (by omega)

theorem trimZeros_append_zeros (text : List Char) :
    ∃ count, trimZeros text ++ List.replicate count '0' = text := by
  induction text with
  | nil => exact ⟨0, rfl⟩
  | cons digit rest ih =>
    obtain ⟨count, hrest⟩ := ih
    rw [trimZeros]
    cases htrim : trimZeros rest with
    | nil =>
      rw [htrim, List.nil_append] at hrest
      by_cases hzero : digit = '0'
      · refine ⟨count + 1, ?_⟩
        rw [if_pos hzero, List.nil_append, List.replicate_succ, hrest, hzero]
      · refine ⟨count, ?_⟩
        rw [if_neg hzero, List.singleton_append, hrest]
    | cons kept more =>
      refine ⟨count, ?_⟩
      rw [htrim] at hrest
      rw [List.cons_append, hrest]

theorem trimZeros_length_le (text : List Char) : (trimZeros text).length ≤ text.length := by
  obtain ⟨count, htext⟩ := trimZeros_append_zeros text
  have hlength := congrArg List.length htext
  rw [List.length_append] at hlength
  omega

theorem digitsNumber_trimZeros {text : List Char} {places : Nat} (full : text.length = places) :
    digitsNumber (trimZeros text) * 10 ^ (places - (trimZeros text).length) =
      digitsNumber text := by
  obtain ⟨count, htext⟩ := trimZeros_append_zeros text
  have hlength : (trimZeros text).length + count = places := by
    rw [← full, ← congrArg List.length htext, List.length_append, List.length_replicate]
  have hnumber : digitsNumber text = 10 ^ count * digitsNumber (trimZeros text) := by
    conv => lhs; rw [← htext]
    rw [digitsNumber_append, digitsNumber_zeros, Nat.add_zero, List.length_replicate]
  have hcount : places - (trimZeros text).length = count := by omega
  rw [hnumber, hcount, Nat.mul_comm]

theorem IsDigits.trim {text : List Char} (h : IsDigits text) : IsDigits (trimZeros text) := by
  obtain ⟨count, htext⟩ := trimZeros_append_zeros text
  intro c hc
  apply h
  rw [← htext]
  exact List.mem_append_left _ hc

def padded (places : Nat) (digits : List Char) : List Char :=
  List.replicate (places - digits.length) '0' ++ digits

theorem padded_number (places n : Nat) : digitsNumber (padded places (Nat.toDigits 10 n)) = n := by
  rw [padded, digitsNumber_append, digitsNumber_zeros, digitsNumber_toDigits, Nat.mul_zero,
    Nat.zero_add]

theorem padded_isDigits (places n : Nat) : IsDigits (padded places (Nat.toDigits 10 n)) :=
  (isDigits_zeros _).append (isDigits_toDigits n)

theorem padded_length {places n : Nat} (fits : n < 10 ^ places) (positive : 0 < places) :
    (padded places (Nat.toDigits 10 n)).length = places := by
  have hlength : (Nat.toDigits 10 n).length ≤ places :=
    (Nat.length_toDigits_le_iff (by decide) positive).mpr fits
  rw [padded, List.length_append, List.length_replicate]
  omega

theorem numeral_whole {places n : Nat} (whole : n % 10 ^ places = 0) :
    Numeral places 1 1 (Nat.toDigits 10 (n / 10 ^ places)) n := by
  have hnumeral : Numeral places 1 1 (Nat.toDigits 10 (n / 10 ^ places))
      (digitsNumber (Nat.toDigits 10 (n / 10 ^ places)) * 10 ^ places) :=
    .whole (isDigits_toDigits _) Nat.length_toDigits_pos
  rwa [digitsNumber_toDigits, Nat.div_mul_cancel (Nat.dvd_of_mod_eq_zero whole)] at hnumeral

theorem eq_zero_of_trimmed {places n : Nat}
    (nothing : trimZeros (padded places (Nat.toDigits 10 n)) = []) : n = 0 := by
  have hnumber := digitsNumber_trimZeros (@rfl _ (padded places (Nat.toDigits 10 n)).length)
  rw [nothing, digitsNumber_nil, Nat.zero_mul, padded_number] at hnumber
  exact hnumber.symm

theorem numeral_fraction {places n : Nat} (positive : 0 < places)
    (kept : trimZeros (padded places (Nat.toDigits 10 (n % 10 ^ places))) ≠ []) :
    Numeral places 1 1 (Nat.toDigits 10 (n / 10 ^ places) ++
      '.' :: trimZeros (padded places (Nat.toDigits 10 (n % 10 ^ places)))) n := by
  have hlength := padded_length (Nat.mod_lt n (Nat.pow_pos (by decide))) positive
  have hnumber := digitsNumber_trimZeros hlength
  rw [padded_number] at hnumber
  have hnarrow : (trimZeros (padded places (Nat.toDigits 10 (n % 10 ^ places)))).length ≤ places :=
    (trimZeros_length_le _).trans_eq hlength
  have hnumeral := Numeral.fraction (isDigits_toDigits (n / 10 ^ places))
    (padded_isDigits places (n % 10 ^ places)).trim Nat.length_toDigits_pos
    (List.length_pos_of_ne_nil kept) hnarrow
  rwa [digitsNumber_toDigits, hnumber, Nat.div_add_mod'] at hnumeral

theorem Numeral.weaken {places least least' leastAfter leastAfter' n : Nat} {text : List Char}
    (h : Numeral places least leastAfter text n) (le : least' ≤ least)
    (le' : leastAfter' ≤ leastAfter) : Numeral places least' leastAfter' text n := by
  cases h with
  | whole isDigits enough => exact .whole isDigits (le.trans enough)
  | fraction isDigits isDigits' enough enough' narrow =>
    exact .fraction isDigits isDigits' (le.trans enough) (le'.trans enough') narrow

theorem fraction_lt {places : Nat} {after : List Char} (isDigits : IsDigits after)
    (narrow : after.length ≤ places) :
    digitsNumber after * 10 ^ (places - after.length) < 10 ^ places := by
  calc digitsNumber after * 10 ^ (places - after.length)
      < 10 ^ after.length * 10 ^ (places - after.length) :=
        Nat.mul_lt_mul_of_pos_right isDigits.number_lt (Nat.pow_pos (by decide))
    _ = 10 ^ places := by rw [← Nat.pow_add, Nat.add_sub_cancel' narrow]

end Membrane
