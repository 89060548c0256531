/-
The text of a number determines it.

A text is read by what stands before and after its marks (`read`).  What is written, in either
notation, reads as the decimal that was to be written (`spells_decimal`), and the shortest decimal
rounds to the number it was found for.  So nothing of a number is lost in its text but the
difference between NaNs, of which there is only one (`float_injective`).
-/
import Downhill.Decimal.Style
import Downhill.Proofs.Decimal.Cell

namespace Downhill

namespace Decimal

open Binary64 Float.Model.UnpackedFloat

/-! ### Reading -/

/-- What stands before the first mark of a kind in a text, and what stands after it. -/
def cut (mark : Char) (text : List Char) : List Char × List Char :=
  (text.takeWhile (· != mark), (text.dropWhile (· != mark)).drop 1)

/-- The number that digits with a point among them stand for. -/
def readDigits (text : List Char) : ℚ :=
  Nat.ofDigitChars 10 ((cut '.' text).1 ++ (cut '.' text).2) 0 / 10 ^ (cut '.' text).2.length

/-- The exponent that digits stand for, after a minus sign perhaps. -/
def readExponent : List Char → ℤ
  | '-' :: digits => -Nat.ofDigitChars 10 digits 0
  | digits => Nat.ofDigitChars 10 digits 0

/-- The number that a text stands for, with an exponent or without. -/
def read (text : List Char) : ℚ :=
  readDigits (cut 'e' text).1 * 10 ^ readExponent (cut 'e' text).2

section

variable {mark : Char} {before after : List Char}

theorem cut_append_cons (h : mark ∉ before) :
    cut mark (before ++ mark :: after) = (before, after) := by
  have other : ∀ c ∈ before, (c != mark) = true := fun c mem =>
    bne_iff_ne.mpr fun same => h (same ▸ mem)
  rw [cut, List.takeWhile_append_of_pos other, List.dropWhile_append_of_pos other]
  simp

theorem cut_of_not_mem (h : mark ∉ before) : cut mark before = (before, []) := by
  have other : ∀ c ∈ before, (c != mark) = true := fun c mem =>
    bne_iff_ne.mpr fun same => h (same ▸ mem)
  rw [cut, List.takeWhile_eq_self_iff.mpr other, List.dropWhile_eq_nil_iff.mpr other]
  rfl

end

/-! ### Digits -/

/-- Nothing but digits. -/
def AreDigits (text : List Char) : Prop := ∀ c ∈ text, c.isDigit = true

section

variable {text whole fraction : List Char}

theorem AreDigits.not_mem (h : AreDigits text) {c : Char} (other : c.isDigit = false) :
    c ∉ text := by
  intro mem
  rw [h c mem] at other
  cases other

theorem AreDigits.append (h : AreDigits whole) (h' : AreDigits fraction) :
    AreDigits (whole ++ fraction) := by
  intro c mem
  exact (List.mem_append.mp mem).elim (h c) (h' c)

theorem AreDigits.take (h : AreDigits text) (n : ℕ) : AreDigits (text.take n) :=
  fun c mem => h c (List.mem_of_mem_take mem)

theorem AreDigits.drop (h : AreDigits text) (n : ℕ) : AreDigits (text.drop n) :=
  fun c mem => h c (List.mem_of_mem_drop mem)

theorem areDigits_zeros (n : ℕ) : AreDigits (List.replicate n '0') := by
  intro c mem
  rw [List.eq_of_mem_replicate mem]
  rfl

theorem areDigits_toDigits (n : ℕ) : AreDigits (Nat.toDigits 10 n) :=
  fun _ mem => Nat.isDigit_of_mem_toDigits (by norm_num) le_rfl mem

theorem readDigits_of_areDigits (h : AreDigits text) :
    readDigits text = Nat.ofDigitChars 10 text 0 := by
  rw [readDigits, cut_of_not_mem (h.not_mem rfl), List.append_nil, List.length_nil, pow_zero,
    div_one]

theorem readDigits_pointed (h : AreDigits whole) (fraction : List Char) :
    readDigits (whole ++ '.' :: fraction) =
      Nat.ofDigitChars 10 (whole ++ fraction) 0 / 10 ^ fraction.length := by
  rw [readDigits, cut_append_cons (h.not_mem rfl)]

theorem readExponent_of_areDigits (h : AreDigits text) :
    readExponent text = Nat.ofDigitChars 10 text 0 := by
  unfold readExponent
  split
  · exact absurd List.mem_cons_self (h.not_mem rfl)
  · rfl

theorem readExponent_exponent (n : ℤ) : readExponent (Style.exponent n).toList = n := by
  rw [Style.exponent, String.toList_append, String.toList_ofList]
  split
  · rename_i negative
    show -((Nat.ofDigitChars 10 (Nat.toDigits 10 n.natAbs) 0 : ℕ) : ℤ) = n
    rw [Nat.ofDigitChars_ten_toDigits]
    omega
  · rename_i nonneg
    show readExponent (Nat.toDigits 10 n.natAbs) = n
    rw [readExponent_of_areDigits (areDigits_toDigits _), Nat.ofDigitChars_ten_toDigits]
    omega

end

/-! Zeros in front of digits do not count, and each zero behind them is a factor of ten. -/

theorem ofDigitChars_zeros_append (n : ℕ) (digits : List Char) :
    Nat.ofDigitChars 10 (List.replicate n '0' ++ digits) 0 = Nat.ofDigitChars 10 digits 0 := by
  rw [Nat.ofDigitChars_append, Nat.ofDigitChars_replicate_zero, mul_zero]

theorem ofDigitChars_append_zeros (digits : List Char) (n : ℕ) :
    Nat.ofDigitChars 10 (digits ++ List.replicate n '0') 0 =
      10 ^ n * Nat.ofDigitChars 10 digits 0 := by
  rw [Nat.ofDigitChars_append, Nat.ofDigitChars_replicate_zero]

/-! ### Both notations -/

/-- A text that begins with a digit and stands for a number. -/
structure Spells (text : List Char) (y : ℚ) : Prop where
  digit_first : ∃ c rest, text = c :: rest ∧ c.isDigit = true
  only : ∀ c ∈ text, c.isDigit = true ∨ c = '.' ∨ c = 'e' ∨ c = '-'
  read_eq : read text = y

/-- The number with these digits, the first of which stands at `10 ^ leading`. -/
def ofDigits (digits : List Char) (leading : ℤ) : ℚ :=
  Nat.ofDigitChars 10 digits 0 * 10 ^ (leading + 1 - digits.length)

theorem ofDigits_eq_div {digits : List Char} {leading : ℤ} {n : ℕ}
    (h : leading + 1 - digits.length = -n) :
    ofDigits digits leading = Nat.ofDigitChars 10 digits 0 / 10 ^ n := by
  rw [ofDigits, h, zpow_neg, zpow_natCast, div_eq_mul_inv]

/-- What stands before an exponent is multiplied by it. -/
theorem spells_exponent {mantissa : List Char}
    (digit_first : ∃ c rest, mantissa = c :: rest ∧ c.isDigit = true)
    (only : ∀ c ∈ mantissa, c.isDigit = true ∨ c = '.') (n : ℤ) :
    Spells (mantissa ++ 'e' :: (Style.exponent n).toList) (readDigits mantissa * 10 ^ n) := by
  have exponent_only : ∀ c ∈ (Style.exponent n).toList, c.isDigit = true ∨ c = '-' := by
    intro c mem
    rw [Style.exponent, String.toList_append, String.toList_ofList] at mem
    rcases List.mem_append.mp mem with mem | mem
    · split at mem
      · exact .inr (List.mem_singleton.mp mem)
      · cases mem
    · exact .inl (areDigits_toDigits _ c mem)
  refine ⟨?_, ?_, ?_⟩
  · obtain ⟨c, rest, rfl, digit⟩ := digit_first
    exact ⟨c, _, List.cons_append, digit⟩
  · intro c mem
    rcases List.mem_append.mp mem with mem | mem
    · exact (only c mem).imp_right .inl
    · rcases List.mem_cons.mp mem with rfl | mem
      · exact .inr (.inr (.inl rfl))
      · exact (exponent_only c mem).imp_right fun minus => .inr (.inr minus)
  · have no_mark : 'e' ∉ mantissa := by
      intro mem
      rcases only 'e' mem with digit | point
      · cases digit
      · cases point
    rw [read, cut_append_cons no_mark, readExponent_exponent]

/-- Digits around a point spell a number. -/
theorem spells_pointed {whole fraction : List Char} (nonempty : whole ≠ [])
    (hw : AreDigits whole) (hf : AreDigits fraction) :
    Spells (whole ++ '.' :: fraction)
      (Nat.ofDigitChars 10 (whole ++ fraction) 0 / 10 ^ fraction.length) := by
  refine ⟨?_, ?_, ?_⟩
  · obtain ⟨c, rest, rfl⟩ := List.exists_cons_of_ne_nil nonempty
    exact ⟨c, rest ++ '.' :: fraction, rfl, hw c List.mem_cons_self⟩
  · intro c mem
    rcases List.mem_append.mp mem with mem | mem
    · exact .inl (hw c mem)
    · rcases List.mem_cons.mp mem with rfl | mem
      · exact .inr (.inl rfl)
      · exact .inl (hf c mem)
  · have no_exponent : 'e' ∉ whole ++ '.' :: fraction := by
      rw [List.mem_append, List.mem_cons]
      rintro (mem | same | mem)
      · exact hw.not_mem rfl mem
      · cases same
      · exact hf.not_mem rfl mem
    rw [read, cut_of_not_mem no_exponent, readDigits_pointed hw]
    exact mul_one _

section

variable {digits : List Char} (nonempty : digits ≠ []) (h : AreDigits digits) (leading : ℤ)
include nonempty h

/-- **Written out, digits spell their number.** -/
theorem spells_positional :
    Spells (Style.plain.positional digits leading).toList (ofDigits digits leading) := by
  rw [Style.positional]
  split
  · rename_i negative
    have single : List.replicate 1 '0' ≠ [] := List.cons_ne_nil '0' []
    have spells := spells_pointed single (areDigits_zeros 1)
      ((areDigits_zeros (-leading - 1).toNat).append h)
    have places : leading + 1 - digits.length =
        -(((-leading - 1).toNat + digits.length : ℕ) : ℤ) := by omega
    rw [ofDigitChars_zeros_append, ofDigitChars_zeros_append, List.length_append,
      List.length_replicate, ← ofDigits_eq_div places] at spells
    simp only [String.toList_append, String.toList_ofList]
    exact spells
  · rename_i nonneg
    dsimp only
    split
    · rename_i short
      have spells := spells_pointed (List.append_ne_nil_of_left_ne_nil nonempty
        (List.replicate (leading.toNat + 1 - digits.length) '0')) (h.append (areDigits_zeros _))
        (areDigits_zeros 1)
      have places : leading + 1 - digits.length =
          ((leading.toNat + 1 - digits.length : ℕ) : ℤ) := by omega
      have number_eq : (Nat.ofDigitChars 10
          ((digits ++ List.replicate (leading.toNat + 1 - digits.length) '0') ++
            List.replicate 1 '0') 0 : ℚ) / 10 ^ (List.replicate 1 '0').length =
            ofDigits digits leading := by
        rw [ofDigits, places, zpow_natCast, ofDigitChars_append_zeros, ofDigitChars_append_zeros,
          List.length_replicate]
        push_cast
        field_simp
      rw [number_eq] at spells
      simp only [String.toList_append, String.toList_ofList]
      exact spells
    · rename_i long
      have whole_ne : digits.take (leading.toNat + 1) ≠ [] := by
        rw [Ne, List.take_eq_nil_iff]
        exact fun empty => empty.elim (Nat.succ_ne_zero _) nonempty
      have spells := spells_pointed whole_ne (h.take _) (h.drop (leading.toNat + 1))
      have places : leading + 1 - digits.length =
          -((digits.length - (leading.toNat + 1) : ℕ) : ℤ) := by omega
      rw [List.take_append_drop, List.length_drop, ← ofDigits_eq_div places] at spells
      simp only [String.toList_append, String.toList_ofList, List.append_assoc]
      exact spells

/-- **With an exponent, digits spell their number.** -/
theorem spells_scientific :
    Spells (Style.plain.scientific digits leading).toList (ofDigits digits leading) := by
  obtain ⟨first, rest, rfl⟩ := List.exists_cons_of_ne_nil nonempty
  have hf : first.isDigit = true := h first List.mem_cons_self
  have number_eq : (Nat.ofDigitChars 10 (first :: rest) 0 : ℚ) / 10 ^ rest.length * 10 ^ leading =
      ofDigits (first :: rest) leading := by
    rw [ofDigits, List.length_cons, Nat.cast_succ, add_sub_add_right_eq_sub,
      zpow_sub₀ (by norm_num), zpow_natCast]
    ring
  cases rest with
  | nil =>
      have spells := spells_exponent ⟨first, [], rfl, hf⟩ (fun c mem => .inl (h c mem)) leading
      rw [readDigits_of_areDigits h] at spells
      rw [List.length_nil, pow_zero, div_one] at number_eq
      rw [number_eq] at spells
      simp only [Style.scientific, String.toList_append, String.toList_ofList, List.append_assoc]
      exact spells
  | cons second rest =>
      have only : ∀ c ∈ first :: '.' :: second :: rest, c.isDigit = true ∨ c = '.' :=
        List.forall_mem_cons.mpr ⟨.inl hf, List.forall_mem_cons.mpr ⟨.inr rfl,
          fun c mem => .inl (h c (List.mem_cons_of_mem first mem))⟩⟩
      have spells := spells_exponent ⟨first, _, rfl, hf⟩ only leading
      have pointed : readDigits (first :: '.' :: second :: rest) =
          Nat.ofDigitChars 10 (first :: second :: rest) 0 / 10 ^ (second :: rest).length :=
        readDigits_pointed (h.take 1) (second :: rest)
      rw [pointed, number_eq] at spells
      have several : ¬ (first :: second :: rest).length ≤ 1 := by
        rw [List.length_cons, List.length_cons]
        omega
      rw [Style.scientific, if_neg several]
      simp only [String.toList_append, String.toList_ofList, List.append_assoc]
      exact spells

end

/-! ### Decimals -/

/-- The digits of a decimal, but for zeros at the end. -/
theorem exists_toDigits_eq (x : Scaled) :
    ∃ n, Nat.toDigits 10 x.coefficient = x.significand ++ List.replicate n '0' := by
  have split := List.takeWhile_append_dropWhile (p := (· == '0'))
    (l := (Nat.toDigits 10 x.coefficient).reverse)
  generalize zeros_def :
    (Nat.toDigits 10 x.coefficient).reverse.takeWhile (· == '0') = zeros at split
  have zeros_eq : zeros = List.replicate zeros.length '0' := by
    refine List.eq_replicate_of_mem fun c mem => ?_
    rw [← zeros_def] at mem
    exact beq_iff_eq.mp (List.mem_takeWhile_imp (p := (· == '0')) mem)
  refine ⟨zeros.length, ?_⟩
  rw [Scaled.significand, ← List.reverse_replicate, ← zeros_eq, ← List.reverse_append, split,
    List.reverse_reverse]

/-- **What is written for a decimal spells it.** -/
theorem spells_decimal {x : Scaled} (nonzero : x.coefficient ≠ 0) :
    Spells (Style.plain.decimal x).toList x.value := by
  obtain ⟨n, digits_eq⟩ := exists_toDigits_eq x
  have digits : AreDigits x.significand := fun c mem =>
    areDigits_toDigits x.coefficient c (digits_eq ▸ List.mem_append_left _ mem)
  have coefficient_eq : x.coefficient = 10 ^ n * Nat.ofDigitChars 10 x.significand 0 := by
    rw [← ofDigitChars_append_zeros, ← digits_eq, Nat.ofDigitChars_ten_toDigits]
  have nonempty : x.significand ≠ [] := by
    intro empty
    rw [empty] at coefficient_eq
    exact nonzero coefficient_eq
  have value_eq : ofDigits x.significand x.leading = x.value := by
    have places : x.leading + 1 - x.significand.length = x.exponent + n := by
      rw [Scaled.leading, digits_eq, List.length_append, List.length_replicate]
      push_cast
      ring
    rw [ofDigits, places, Scaled.value, coefficient_eq, zpow_add₀ (by norm_num), zpow_natCast]
    push_cast
    ring
  rw [← value_eq, Style.decimal]
  split
  · exact spells_positional nonempty digits x.leading
  · exact spells_scientific nonempty digits x.leading

/-! ### Floats -/

/-- How a sign is written. -/
def signText : Sign → List Char
  | .positive => []
  | .negative => ['-']

/-- A text for the size of a number. -/
inductive Sizes : List Char → ℚ → Prop
  | infinite : Sizes ['i', 'n', 'f'] limit
  | finite {text : List Char} {y : ℚ} (spells : Spells text y) : Sizes text (nearest y)

section

variable {text : List Char} {y y' : ℚ}

theorem Sizes.first (h : Sizes text y) :
    ∃ c rest, text = c :: rest ∧ (c = 'i' ∨ c.isDigit = true) := by
  cases h with
  | infinite => exact ⟨_, _, rfl, .inl rfl⟩
  | finite spells =>
      obtain ⟨c, rest, rfl, digit⟩ := spells.digit_first
      exact ⟨c, rest, rfl, .inr digit⟩

/-- **A text has one size.** -/
theorem Sizes.unique (h : Sizes text y) (h' : Sizes text y') : y = y' := by
  cases h with
  | infinite =>
      cases h' with
      | infinite => rfl
      | finite spells =>
          obtain ⟨c, rest, same, digit⟩ := spells.digit_first
          cases same
          cases digit
  | finite spells =>
      cases h' with
      | infinite =>
          obtain ⟨c, rest, same, digit⟩ := spells.digit_first
          cases same
          cases digit
      | finite spells' => rw [← spells.read_eq, ← spells'.read_eq]

/-- A sign is not part of the text of a size. -/
theorem signText_append_inj {s s' : Sign} {text' : List Char} (h : Sizes text y)
    (h' : Sizes text' y') (same : signText s ++ text = signText s' ++ text') :
    s = s' ∧ text = text' := by
  obtain ⟨c, rest, rfl, hc⟩ := h.first
  obtain ⟨c', rest', rfl, hc'⟩ := h'.first
  cases s <;> cases s'
  · exact ⟨rfl, List.tail_eq_of_cons_eq same⟩
  · cases same
    rcases hc' with minus | minus <;> cases minus
  · cases same
    rcases hc with minus | minus <;> cases minus
  · exact ⟨rfl, same⟩

end

section

variable {x : Float}

/-- **The text of a number is that of its sign and that of its size.** -/
theorem exists_text (not_nan : x.isNaN = false) :
    ∃ text, (Style.plain.float x).toList = signText (signOf x.toBits.toNat) ++ text ∧
      Sizes text |value x| := by
  have sign_eq : (if x.toBits.toNat / Nat.pow 2 63 = 1 then "-" else "").toList =
      signText (signOf x.toBits.toNat) := by
    rw [Nat.pow_eq, signOf]
    split <;> rfl
  rw [Style.float, if_neg (Bool.eq_false_iff.mp not_nan)]
  dsimp only
  split
  · rename_i infinite
    rw [abs_value_of_isInf infinite, String.toList_append, sign_eq]
    exact ⟨_, rfl, .infinite⟩
  rename_i not_infinite
  split
  · rename_i zero
    have number_eq : ofDigits ['0'] 0 = 0 := zero_mul _
    rw [(beq_zero_iff.mp zero).2, abs_zero, ← nearest_zero, ← number_eq,
      String.toList_append, sign_eq]
    exact ⟨_, rfl, .finite (spells_positional (List.cons_ne_nil '0' []) (areDigits_zeros 1) 0)⟩
  · rename_i other
    have nonzero : value x ≠ 0 := fun zero => other (beq_zero_iff.mpr ⟨not_nan, zero⟩)
    have reads := Cell.nearest_shortest (isFinite_of_not_isInf not_nan not_infinite) nonzero
    have coefficient_ne : (Cell.ofFloat x).shortest.coefficient ≠ 0 := by
      intro vanishes
      rw [Scaled.value, vanishes, Nat.cast_zero, zero_mul, nearest_zero] at reads
      exact nonzero (abs_eq_zero.mp reads.symm)
    rw [← reads, String.toList_append, sign_eq]
    exact ⟨_, rfl, .finite (spells_decimal coefficient_ne)⟩

theorem float_of_isNaN (nan : x.isNaN = true) : Style.plain.float x = "NaN" := if_pos nan

/-- The text of a number is not the word for a NaN. -/
theorem isNaN_of_float_eq (h : Style.plain.float x = "NaN") : x.isNaN = true := by
  by_contra not_nan
  obtain ⟨text, text_eq, sizes⟩ := exists_text (Bool.eq_false_iff.mpr not_nan)
  obtain ⟨c, rest, rfl, hc⟩ := sizes.first
  have word_eq : signText (signOf x.toBits.toNat) ++ c :: rest = ['N', 'a', 'N'] :=
    text_eq.symm.trans (congrArg String.toList h)
  generalize signOf x.toBits.toNat = s at word_eq
  cases s <;> cases word_eq
  rcases hc with word | digit
  · cases word
  · cases digit

end

/-- **Different floats have different texts.** -/
theorem float_injective : Function.Injective Style.plain.float := by
  intro x y same
  by_cases nan : x.isNaN = true
  · have nan' : y.isNaN = true := isNaN_of_float_eq (same.symm.trans (float_of_isNaN nan))
    exact eq_of_unpack_eq ((isNaN_iff.mp nan).trans (isNaN_iff.mp nan').symm)
  · have not_nan := Bool.eq_false_iff.mpr nan
    have not_nan' : y.isNaN = false := Bool.eq_false_iff.mpr fun nan' =>
      nan (isNaN_of_float_eq (same.trans (float_of_isNaN nan')))
    obtain ⟨text, text_eq, sizes⟩ := exists_text not_nan
    obtain ⟨text', text_eq', sizes'⟩ := exists_text not_nan'
    have texts := text_eq.symm.trans ((congrArg String.toList same).trans text_eq')
    obtain ⟨sign_eq, rfl⟩ := signText_append_inj sizes sizes' texts
    exact eq_of_abs_value_eq not_nan not_nan' sign_eq (sizes.unique sizes')

/-! ### The look of a text -/

theorem Sizes.only {text : List Char} {y : ℚ} (h : Sizes text y) :
    ∀ c ∈ text, c.isAlphanum = true ∨ c = '.' ∨ c = '-' := by
  cases h with
  | infinite =>
      have letters : ['i', 'n', 'f'].all Char.isAlphanum = true := rfl
      exact fun c mem => .inl (List.all_eq_true.mp letters c mem)
  | finite spells =>
      intro c mem
      rcases spells.only c mem with digit | rfl | rfl | rfl
      · exact .inl (by rw [Char.isAlphanum, digit, Bool.or_true])
      · exact .inr (.inl rfl)
      · exact .inl rfl
      · exact .inr (.inr rfl)

/-- The text of a float has no spaces and no parentheses. -/
theorem mem_float {x : Float} {c : Char} (mem : c ∈ (Style.plain.float x).toList) :
    c.isAlphanum = true ∨ c = '.' ∨ c = '-' := by
  by_cases nan : x.isNaN = true
  · rw [float_of_isNaN nan] at mem
    have letters : ['N', 'a', 'N'].all Char.isAlphanum = true := rfl
    exact .inl (List.all_eq_true.mp letters c mem)
  · obtain ⟨text, text_eq, sizes⟩ := exists_text (Bool.eq_false_iff.mpr nan)
    rw [text_eq] at mem
    rcases List.mem_append.mp mem with mem | mem
    · generalize signOf x.toBits.toNat = s at mem
      cases s
      · exact .inr (.inr (List.mem_singleton.mp mem))
      · cases mem
    · exact sizes.only c mem

/-- Unless it is a word, the text of a float begins with a minus sign or a digit. -/
theorem float_first (x : Float) :
    Style.plain.float x = "NaN" ∨ Style.plain.float x = "inf" ∨
      ∃ c rest, (Style.plain.float x).toList = c :: rest ∧ (c = '-' ∨ c.isDigit = true) := by
  by_cases nan : x.isNaN = true
  · exact .inl (float_of_isNaN nan)
  obtain ⟨text, text_eq, sizes⟩ := exists_text (Bool.eq_false_iff.mpr nan)
  generalize signOf x.toBits.toNat = s at text_eq
  generalize |value x| = size at sizes
  cases s
  · exact .inr (.inr ⟨'-', text, text_eq, .inl rfl⟩)
  cases sizes with
  | infinite => exact .inr (.inl (String.toList_inj.mp text_eq))
  | finite spells =>
      obtain ⟨c, rest, rfl, digit⟩ := spells.digit_first
      exact .inr (.inr ⟨c, rest, text_eq, .inr digit⟩)

end Decimal

end Downhill
