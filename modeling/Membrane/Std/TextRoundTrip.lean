import Membrane.Std.DecimalText

/-!
# Decimals read back from their text

A decimal is displayed as a numeral with at least a digit before the dot and, after a dot, at
least one and at most 18. The parser takes more: either part may be empty. A numeral whose
value does not fit 256 bits aborts when its whole part does fit, and is an error otherwise.
-/

namespace Membrane

open Outcome

theorem Outcome.ok_bind {ε α β : Type} (a : α) (f : α → Outcome ε β) :
    ((.ok a : Outcome ε α) >>= f) = f a := rfl

theorem Outcome.abort_bind {ε α β : Type} (f : α → Outcome ε β) :
    ((Outcome.abort : Outcome ε α) >>= f) = Outcome.abort := rfl

theorem Outcome.ofOption_some {ε α : Type} (a : α) (e : ε) :
    Outcome.ofOption (some a) e = .ok a := rfl

/-- A reader of digits: the number they write, where it fits 256 bits. -/
def ReadsDigits (fromDecStr : List Char → Option Nat) : Prop :=
  ∀ text n, fromDecStr text = some n ↔
    IsDigits text ∧ digitsNumber text = n ∧ n < Uint256.limit

theorem numeral_iff_split {places least leastAfter n : Nat} {text : List Char} :
    Numeral places least leastAfter text n ↔
      (∃ digits, text.splitOn '.' = [digits] ∧ IsDigits digits ∧ least ≤ digits.length ∧
        n = digitsNumber digits * 10 ^ places) ∨
      ∃ digits after, text.splitOn '.' = [digits, after] ∧ IsDigits digits ∧ IsDigits after ∧
        least ≤ digits.length ∧ leastAfter ≤ after.length ∧ after.length ≤ places ∧
          n = digitsNumber digits * 10 ^ places +
            digitsNumber after * 10 ^ (places - after.length) := by
  constructor
  · intro h
    cases h with
    | whole isDigits enough =>
      exact .inl ⟨text, List.splitOn_eq_singleton isDigits.no_dot, isDigits, enough, rfl⟩
    | @fraction digits after isDigits isDigits' enough enough' narrow =>
      refine .inr ⟨digits, after, ?_, isDigits, isDigits', enough, enough', narrow, rfl⟩
      rw [List.splitOn_append_cons_self_of_not_mem isDigits.no_dot,
        List.splitOn_eq_singleton isDigits'.no_dot]
  · have hjoin : List.intercalate ['.'] (text.splitOn '.') = text := List.intercalate_splitOn '.'
    rintro (⟨digits, hsplit, isDigits, enough, rfl⟩ |
      ⟨digits, after, hsplit, isDigits, isDigits', enough, enough', narrow, rfl⟩)
    · rw [hsplit] at hjoin
      obtain rfl : digits = text := by simpa [List.intercalate] using hjoin
      exact .whole isDigits enough
    · rw [hsplit] at hjoin
      obtain rfl : digits ++ '.' :: after = text := by simpa [List.intercalate] using hjoin
      exact .fraction isDigits isDigits' enough enough' narrow

theorem toList_dotted (whole fraction : String) :
    (whole ++ "." ++ fraction).toList = whole.toList ++ '.' :: fraction.toList := by
  have hdot : ".".toList = ['.'] := by decide
  rw [String.toList_append, String.toList_append, hdot, List.append_assoc, List.singleton_append]

theorem Numeral.unique {places n n' : Nat} {text : List Char} (h : Numeral places 0 0 text n)
    (h' : Numeral places 0 0 text n') : n = n' := by
  rcases numeral_iff_split.mp h with ⟨_, hsplit, -, -, rfl⟩ | ⟨_, _, hsplit, -, -, -, -, -, rfl⟩
  · rcases numeral_iff_split.mp h' with ⟨_, hsplit', -, -, rfl⟩ | ⟨_, _, hsplit', -⟩
    · rw [List.singleton_inj.mp (hsplit.symm.trans hsplit')]
    · cases hsplit.symm.trans hsplit'
  · rcases numeral_iff_split.mp h' with ⟨_, hsplit', -⟩ | ⟨_, _, hsplit', -, -, -, -, -, rfl⟩
    · cases hsplit.symm.trans hsplit'
    · cases hsplit.symm.trans hsplit'
      rfl

theorem Decimal.toText_numeral (a : Decimal) : Numeral 18 1 1 a.toText.toList a.atomics := by
  have hfractional : Decimal.fractional = 10 ^ 18 := by decide
  have hpadded : List.replicate (18 - (toString (a.atomics % 10 ^ 18)).length) '0' ++
      (toString (a.atomics % 10 ^ 18)).toList =
        padded 18 (Nat.toDigits 10 (a.atomics % 10 ^ 18)) := by
    rw [padded, ← String.length_toList, Nat.toString_eq_repr, Nat.toList_repr]
  unfold Decimal.toText
  rw [hfractional]
  dsimp only
  rw [hpadded]
  cases hkept : trimZeros (padded 18 (Nat.toDigits 10 (a.atomics % 10 ^ 18))) with
  | nil =>
    dsimp only
    rw [Nat.toString_eq_repr, Nat.toList_repr]
    exact numeral_whole (eq_zero_of_trimmed hkept)
  | cons first rest =>
    have hnumeral : Numeral 18 1 1 (Nat.toDigits 10 (a.atomics / 10 ^ 18) ++
        '.' :: trimZeros (padded 18 (Nat.toDigits 10 (a.atomics % 10 ^ 18)))) a.atomics := by
      apply numeral_fraction
      · decide
      · rw [hkept]
        exact List.cons_ne_nil _ _
    rw [hkept] at hnumeral
    dsimp only
    rw [toList_dotted, Nat.toString_eq_repr, Nat.toList_repr, String.toList_ofList]
    exact hnumeral

namespace Decimal256

theorem fractional_eq_pow : fractional = 10 ^ 18 := by decide

theorem pow_le_fractional {exp : Nat} (h : exp ≤ 18) : 10 ^ exp ≤ fractional := by
  rw [fractional_eq_pow]
  exact Nat.pow_le_pow_right (by decide) h

theorem byteLength_digits {text : List Char} (h : IsDigits text) :
    byteLength text = text.length := by
  induction text with
  | nil => rfl
  | cons c rest ih =>
    have hrest := ih fun c hc => h c (List.mem_cons_of_mem _ hc)
    have hdigit := Char.isDigit_iff_toNat.mp (h c List.mem_cons_self)
    have hone : c.utf8Size = 1 := by
      apply Char.utf8Size_eq_one_iff.mpr
      rw [UInt32.le_iff_toNat_le]
      exact hdigit.2.trans (by decide)
    unfold byteLength at hrest ⊢
    rw [List.map_cons, List.sum_cons, hone, hrest, List.length_cons]
    omega

theorem toText_numeral (a : Decimal256) : Numeral 18 1 1 a.toText.toList a.atomics := by
  unfold toText
  rw [fractional_eq_pow]
  dsimp only
  by_cases hfraction : a.atomics % 10 ^ 18 = 0
  · rw [if_pos hfraction, Nat.toString_eq_repr, Nat.toList_repr]
    exact numeral_whole hfraction
  · rw [if_neg hfraction, toList_dotted, Nat.toString_eq_repr, Nat.toList_repr,
      Nat.toString_eq_repr, Nat.toList_repr, String.toList_ofList]
    exact numeral_fraction (by decide) fun hnothing => hfraction (eq_zero_of_trimmed hnothing)

variable {fromDecStr : List Char → Option Nat}

theorem join_parts (n m factor : Nat) :
    (do
      let wholeAsAtomics ← Uint256.mul n fractional
      pure ⟨← Uint256.add wholeAsAtomics (← Uint256.mul m factor)⟩ : Outcome StdError Decimal256) =
      if n * fractional + m * factor < Uint256.limit then .ok ⟨n * fractional + m * factor⟩
      else Outcome.abort := by
  unfold Uint256.mul Uint256.add
  by_cases hsum : n * fractional + m * factor < Uint256.limit
  · rw [if_pos hsum, if_pos (by omega), if_pos (by omega), ok_bind, ok_bind, if_pos hsum, ok_bind]
    rfl
  · rw [if_neg hsum]
    split
    · rw [ok_bind]
      split
      · rw [ok_bind, if_neg hsum, abort_bind]
      · exact abort_bind _
    · exact abort_bind _

theorem fromWhole_eq {whole : List Char} {n : Nat} (readsWhole : fromDecStr whole = some n) :
    fromWhole fromDecStr whole =
      if n * fractional < Uint256.limit then .ok ⟨n * fractional⟩ else Outcome.abort := by
  rw [fromWhole, readsWhole, ofOption_some, ok_bind, Uint256.mul]
  split
  · rfl
  · rfl

theorem fromParts_eq {whole digits : List Char} {n m : Nat}
    (readsWhole : fromDecStr whole = some n) (readsDigits : fromDecStr digits = some m)
    (isDigits : IsDigits digits) (narrow : digits.length ≤ 18) :
    fromParts fromDecStr whole digits =
      if n * fractional + m * 10 ^ (18 - digits.length) < Uint256.limit then
        .ok ⟨n * fractional + m * 10 ^ (18 - digits.length)⟩
      else Outcome.abort := by
  have hpow : 10 ^ (18 - digits.length) < Uint256.limit :=
    lt_of_le_of_lt (pow_le_fractional (Nat.sub_le _ _)) (by decide)
  rw [fromParts, readsWhole, readsDigits, byteLength_digits isDigits, if_pos narrow,
    ofOption_some, ofOption_some, ofOption_some, ok_bind, ok_bind, ok_bind, Uint256.pow,
    if_pos hpow, ok_bind]
  exact join_parts _ _ _

theorem limit_le_of_unread (reads : ReadsDigits fromDecStr) {text : List Char}
    (unread : fromDecStr text = none) (isDigits : IsDigits text) :
    Uint256.limit ≤ digitsNumber text := by
  by_contra hlt
  rw [(reads text _).mpr ⟨isDigits, rfl, Nat.lt_of_not_le hlt⟩] at unread
  cases unread

theorem reads_fraction (reads : ReadsDigits fromDecStr) {text : List Char}
    (isDigits : IsDigits text) (narrow : text.length ≤ 18) :
    fromDecStr text = some (digitsNumber text) := by
  refine (reads text _).mpr ⟨isDigits, rfl, ?_⟩
  calc digitsNumber text
      < 10 ^ text.length := isDigits.number_lt
    _ ≤ fractional := pow_le_fractional narrow
    _ < Uint256.limit := by decide

/-- The parser fails, and the text is no numeral whose whole part fits. -/
def Rejects (fromDecStr : List Char → Option Nat) (input : String) : Prop :=
  (∀ n, Numeral 18 0 0 input.toList n → Uint256.limit * fractional ≤ n) ∧
    ∃ e, fromStr fromDecStr input = Outcome.fail e

def Reads (fromDecStr : List Char → Option Nat) (input : String) : Prop :=
  ∃ n, Numeral 18 0 0 input.toList n ∧ n < Uint256.limit ∧ fromStr fromDecStr input = .ok ⟨n⟩

/-- The parser aborts on a numeral whose whole part fits but whose value does not. -/
def Overflows (fromDecStr : List Char → Option Nat) (input : String) : Prop :=
  ∃ n, Numeral 18 0 0 input.toList n ∧ Uint256.limit ≤ n ∧ n < Uint256.limit * fractional ∧
    fromStr fromDecStr input = Outcome.abort

theorem joined_outcome {input : String} {n : Nat} (numeral : Numeral 18 0 0 input.toList n)
    (small : n < Uint256.limit * fractional)
    (done : fromStr fromDecStr input =
      if n < Uint256.limit then .ok ⟨n⟩ else Outcome.abort) :
    Reads fromDecStr input ∨ Overflows fromDecStr input := by
  by_cases hfits : n < Uint256.limit
  · rw [if_pos hfits] at done
    exact .inl ⟨n, numeral, hfits, done⟩
  · rw [if_neg hfits] at done
    exact .inr ⟨n, numeral, Nat.le_of_not_lt hfits, small, done⟩

theorem whole_outcome (reads : ReadsDigits fromDecStr) {input : String} {whole : List Char}
    (split : input.toList.splitOn '.' = [whole]) :
    Reads fromDecStr input ∨ Overflows fromDecStr input ∨ Rejects fromDecStr input := by
  have hdone : fromStr fromDecStr input = fromWhole fromDecStr whole := by
    rw [fromStr, split]
  cases hwhole : fromDecStr whole with
  | none =>
    refine .inr (.inr ⟨?_, .genericErr "Error parsing whole", ?_⟩)
    · intro n hnumeral
      rcases numeral_iff_split.mp hnumeral with
        ⟨_, hsame, isDigits, -, rfl⟩ | ⟨_, _, hsame, -⟩
      · obtain rfl := List.singleton_inj.mp (split.symm.trans hsame)
        rw [fractional_eq_pow]
        exact Nat.mul_le_mul_right _ (limit_le_of_unread reads hwhole isDigits)
      · cases split.symm.trans hsame
    · rw [hdone, fromWhole, hwhole]
      rfl
  | some n =>
    obtain ⟨isDigits, rfl, hfits⟩ := (reads whole n).mp hwhole
    rw [fromWhole_eq hwhole] at hdone
    rw [← or_assoc]
    refine .inl (joined_outcome ?_ (Nat.mul_lt_mul_of_pos_right hfits fractional_pos) hdone)
    rw [fractional_eq_pow]
    exact numeral_iff_split.mpr (.inl ⟨whole, split, isDigits, Nat.zero_le _, rfl⟩)

theorem parts_outcome (reads : ReadsDigits fromDecStr) {input : String} {whole digits : List Char}
    (split : input.toList.splitOn '.' = [whole, digits]) :
    Reads fromDecStr input ∨ Overflows fromDecStr input ∨ Rejects fromDecStr input := by
  have hdone : fromStr fromDecStr input = fromParts fromDecStr whole digits := by
    rw [fromStr, split]
  -- A numeral with these parts has digits in both, and few after the dot.
  have hparts : ∀ n, Numeral 18 0 0 input.toList n → IsDigits whole ∧ IsDigits digits ∧
      digits.length ≤ 18 ∧ digitsNumber whole * fractional ≤ n := by
    intro n hnumeral
    rcases numeral_iff_split.mp hnumeral with
      ⟨_, hsame, -⟩ | ⟨_, _, hsame, isDigits, isDigits', -, -, narrow, rfl⟩
    · cases split.symm.trans hsame
    · obtain ⟨rfl, rfl⟩ : whole = _ ∧ digits = _ := by
        simpa using split.symm.trans hsame
      rw [fractional_eq_pow]
      exact ⟨isDigits, isDigits', narrow, Nat.le_add_right _ _⟩
  cases hwhole : fromDecStr whole with
  | none =>
    refine .inr (.inr ⟨?_, .genericErr "Error parsing whole", ?_⟩)
    · intro n hnumeral
      obtain ⟨isDigits, -, -, hle⟩ := hparts n hnumeral
      exact (Nat.mul_le_mul_right _ (limit_le_of_unread reads hwhole isDigits)).trans hle
    · rw [hdone, fromParts, hwhole]
      rfl
  | some n =>
    obtain ⟨isDigits, rfl, hfits⟩ := (reads whole n).mp hwhole
    cases hdigits : fromDecStr digits with
    | none =>
      refine .inr (.inr ⟨?_, .genericErr "Error parsing fractional", ?_⟩)
      · intro n hnumeral
        obtain ⟨-, isDigits', narrow, -⟩ := hparts n hnumeral
        rw [reads_fraction reads isDigits' narrow] at hdigits
        cases hdigits
      · rw [hdone, fromParts, hwhole, hdigits]
        rfl
    | some m =>
      obtain ⟨isDigits', rfl, -⟩ := (reads digits m).mp hdigits
      by_cases hnarrow : digits.length ≤ 18
      · rw [fromParts_eq hwhole hdigits isDigits' hnarrow] at hdone
        rw [← or_assoc]
        refine .inl (joined_outcome ?_ ?_ hdone)
        · rw [fractional_eq_pow]
          exact numeral_iff_split.mpr (.inr ⟨whole, digits, split, isDigits, isDigits',
            Nat.zero_le _, Nat.zero_le _, hnarrow, rfl⟩)
        · have hfraction := fraction_lt isDigits' hnarrow
          rw [← fractional_eq_pow] at hfraction
          calc digitsNumber whole * fractional + digitsNumber digits * 10 ^ (18 - digits.length)
              < digitsNumber whole * fractional + fractional := Nat.add_lt_add_left hfraction _
            _ = (digitsNumber whole + 1) * fractional := (Nat.succ_mul _ _).symm
            _ ≤ Uint256.limit * fractional := Nat.mul_le_mul_right _ hfits
      · refine .inr (.inr ⟨?_, .genericErr "Cannot parse more than 18 fractional digits", ?_⟩)
        · intro n hnumeral
          obtain ⟨-, -, narrow, -⟩ := hparts n hnumeral
          exact absurd narrow hnarrow
        · rw [hdone, fromParts, hwhole, hdigits, byteLength_digits isDigits', if_neg hnarrow]
          rfl

theorem fromStr_outcome (reads : ReadsDigits fromDecStr) (input : String) :
    Reads fromDecStr input ∨ Overflows fromDecStr input ∨ Rejects fromDecStr input := by
  rcases hsplit : input.toList.splitOn '.' with _ | ⟨whole, _ | ⟨digits, _ | ⟨third, rest⟩⟩⟩
  · exact absurd hsplit (List.splitOn_ne_nil _ _)
  · exact whole_outcome reads hsplit
  · exact parts_outcome reads hsplit
  · refine .inr (.inr ⟨?_, .genericErr "Unexpected number of dots", ?_⟩)
    · intro n hnumeral
      rcases numeral_iff_split.mp hnumeral with ⟨_, hsame, -⟩ | ⟨_, _, hsame, -⟩
      · cases hsplit.symm.trans hsame
      · cases hsplit.symm.trans hsame
    · rw [fromStr, hsplit]

theorem fromStr_numeral (reads : ReadsDigits fromDecStr) {input : String} {n : Nat}
    (numeral : Numeral 18 0 0 input.toList n) (fits : n < Uint256.limit) :
    fromStr fromDecStr input = .ok ⟨n⟩ := by
  rcases fromStr_outcome reads input with ⟨n', numeral', -, done⟩ | ⟨n', numeral', past, -⟩ | h
  · rw [done, numeral.unique numeral']
  · rw [numeral.unique numeral'] at fits
    omega
  · have hpast := h.1 n numeral
    have hlimit : Uint256.limit ≤ Uint256.limit * fractional :=
      Nat.le_mul_of_pos_right _ fractional_pos
    omega

def RoundTrips (fromDecStr : List Char → Option Nat) : Prop :=
  ∀ a : Decimal256, a.atomics < Uint256.limit → fromStr fromDecStr a.toText = .ok a

/-- A decimal of 128 bits is the same number with 256 bits. -/
def ConvertsDecimals (fromDecStr : List Char → Option Nat) : Prop :=
  ∀ a : Decimal, a.atomics < Uint128.limit →
    ∃ wide, ofDecimal fromDecStr a = .ok wide ∧ wide.toRat = a.toRat

theorem round_trips (reads : ReadsDigits fromDecStr) : RoundTrips fromDecStr := by
  intro a fits
  exact fromStr_numeral reads (a.toText_numeral.weaken (Nat.zero_le _) (Nat.zero_le _)) fits

theorem ofDecimal_eq (reads : ReadsDigits fromDecStr) {a : Decimal}
    (fits : a.atomics < Uint128.limit) : ofDecimal fromDecStr a = .ok ⟨a.atomics⟩ := by
  have hfits : a.atomics < Uint256.limit := fits.trans (by decide)
  have hnumeral := (Decimal.toText_numeral a).weaken (Nat.zero_le 1) (Nat.zero_le 1)
  rw [ofDecimal, fromStr_numeral reads hnumeral hfits]
  rfl

theorem converts_decimals (reads : ReadsDigits fromDecStr) : ConvertsDecimals fromDecStr := by
  intro a fits
  exact ⟨_, ofDecimal_eq reads fits, rfl⟩

/-- The parser accepts exactly the numerals with a digit on both sides of a dot whose value
    fits, and fails on any other text. -/
def ParsesStrictly (fromDecStr : List Char → Option Nat) (input : String) : Prop :=
  (∀ a, fromStr fromDecStr input = .ok a ↔
    Numeral 18 1 1 input.toList a.atomics ∧ a.atomics < Uint256.limit) ∧
  ((∀ n, Numeral 18 1 1 input.toList n → Uint256.limit ≤ n) →
    ∃ e, fromStr fromDecStr input = Outcome.fail e)

/-- What the parser does with a text: it accepts the numerals with a digit before the dot
    whose value fits and no text that is no numeral, aborts on the numerals whose whole part
    fits but whose value does not, and fails on any text that is neither. -/
structure ParsesNumerals (fromDecStr : List Char → Option Nat) (input : String) : Prop where
  accepts : ∀ n, Numeral 18 1 0 input.toList n → n < Uint256.limit →
    fromStr fromDecStr input = .ok ⟨n⟩
  accepted : ∀ a, fromStr fromDecStr input = .ok a →
    Numeral 18 0 0 input.toList a.atomics ∧ a.atomics < Uint256.limit
  overflows : ∀ n, Numeral 18 1 0 input.toList n → Uint256.limit ≤ n →
    n < Uint256.limit * fractional → fromStr fromDecStr input = Outcome.abort
  rejects : (∀ n, Numeral 18 0 0 input.toList n → Uint256.limit * fractional ≤ n) →
    ∃ e, fromStr fromDecStr input = Outcome.fail e

theorem parses_numerals (reads : ReadsDigits fromDecStr) (input : String) :
    ParsesNumerals fromDecStr input where
  accepts n numeral fits := fromStr_numeral reads (numeral.weaken (Nat.zero_le _) le_rfl) fits
  accepted a done := by
    rcases fromStr_outcome reads input with
      ⟨n, numeral, fits, done'⟩ | ⟨_, -, -, -, done'⟩ | ⟨-, _, done'⟩
    · obtain rfl := Except.ok.inj (done.symm.trans done')
      exact ⟨numeral, fits⟩
    · cases done.symm.trans done'
    · cases done.symm.trans done'
  overflows n numeral past small := by
    have hnumeral := numeral.weaken (Nat.zero_le _) le_rfl
    rcases fromStr_outcome reads input with ⟨n', numeral', fits, -⟩ | ⟨_, -, -, -, done⟩ | h
    · rw [hnumeral.unique numeral'] at past
      omega
    · exact done
    · have hpast := h.1 n hnumeral
      omega
  rejects none := by
    rcases fromStr_outcome reads input with ⟨n, numeral, fits, -⟩ | ⟨n, numeral, -, small, -⟩ | h
    · have hpast := none n numeral
      have hlimit : Uint256.limit ≤ Uint256.limit * fractional :=
        Nat.le_mul_of_pos_right _ fractional_pos
      omega
    · have hpast := none n numeral
      omega
    · exact h.2

/-- Every decimal is read back from its text and converted to 256 bits unchanged, and of all
    texts the parser takes the numerals, with or without digits after the dot. -/
theorem text_round_trip (reads : ReadsDigits fromDecStr) :
    RoundTrips fromDecStr ∧ ConvertsDecimals fromDecStr ∧
      ∀ input, ParsesNumerals fromDecStr input :=
  ⟨round_trips reads, converts_decimals reads, parses_numerals reads⟩

def readDigits (text : List Char) : Option Nat :=
  if IsDigits text ∧ digitsNumber text < Uint256.limit then some (digitsNumber text) else none

theorem readDigits_reads : ReadsDigits readDigits := by
  intro text n
  unfold readDigits
  constructor
  · intro h
    split at h
    · next hreads =>
      obtain rfl := Option.some.inj h
      exact ⟨hreads.1, rfl, hreads.2⟩
    · cases h
  · rintro ⟨isDigits, rfl, fits⟩
    exact if_pos ⟨isDigits, fits⟩

theorem text_round_trip_digits :
    RoundTrips readDigits ∧ ConvertsDecimals readDigits ∧
      ∀ input, ParsesNumerals readDigits input :=
  text_round_trip readDigits_reads

/-- A dot without digits after it is taken. -/
theorem not_parses_strictly :
    ¬ ∀ fromDecStr, ReadsDigits fromDecStr →
      RoundTrips fromDecStr ∧ ConvertsDecimals fromDecStr ∧
        ∀ input, ParsesStrictly fromDecStr input := by
  intro h
  have hone := ((h readDigits readDigits_reads).2.2 "1.").1 one
  have hnumeral : Numeral 18 0 0 "1.".toList fractional := by
    refine numeral_iff_split.mpr (.inr ⟨['1'], [], rfl, by decide, by decide, by decide,
      by decide, by decide, ?_⟩)
    have hdigit : digitsNumber ['1'] = 1 := rfl
    rw [hdigit, digitsNumber_nil, Nat.zero_mul, Nat.add_zero, Nat.one_mul]
    exact fractional_eq_pow
  have hdone : fromStr readDigits "1." = .ok one :=
    fromStr_numeral readDigits_reads hnumeral (by decide)
  rcases numeral_iff_split.mp (hone.mp hdone).1 with
    ⟨_, hsplit, -⟩ | ⟨_, _, hsplit, -, -, -, hsome, -⟩
  · cases hsplit
  · cases hsplit
    exact absurd hsome (by decide)

end Decimal256

end Membrane
