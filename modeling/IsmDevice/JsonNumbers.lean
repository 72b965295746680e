import IsmDevice.JsonTokens

/-!
# The value of a number token

`get_number` adds up the digits of a token in 64 bits and turns to `strtod` for what is
no integer, or does not fit.  `strtod` is a parameter.

Whether an integer fits is tested after the multiplication, by comparing with the
value before it.  The test does not see every overflow: a literal beyond 64 bits is
stored as another integer if its value modulo 2^64 rises with every figure.
-/

namespace IsmDevice.Json

open LongestMatch Computability

namespace Lexer

/-- The types a number can have. -/
inductive NumberType where
  | numberInteger
  | numberUnsigned
  | numberFloat
deriving DecidableEq, Repr

/-- The loop of `get_number`: the value that is collected and the type it has. -/
def countFigures (max : UInt64) : UInt64 → NumberType → Text → UInt64 × NumberType
  | value, type, [] => (value, type)
  | value, type, c :: rest =>
      if c < '0' ∨ '9' < c then
        if c = '.' then countFigures max value .numberFloat rest
        else (value, .numberFloat)
      else if type ≠ .numberFloat then
        let temp := value * 10 + c.toNat.toUInt64 - '0'.toNat.toUInt64
        if temp < value ∨ max < temp then countFigures max value .numberFloat rest
        else countFigures max temp type rest
      else countFigures max value type rest

/-- The `strtod` branch: what is not finite becomes null.  `strtod` reads on behind the
    token; where it could take more than the token, the next token is a parse error. -/
def readDouble (strtod : Text → Float) (lexeme : Text) : Json :=
  if (strtod lexeme).isFinite then .numberFloat (strtod lexeme) else .null

/-- The absolute values of `int64_t` go up to 2^63; its negation is that of the machine. -/
def getNumber (strtod : Text → Float) (lexeme : Text) : Json :=
  let (type, max, figures) : NumberType × UInt64 × Text :=
    if lexeme.head? = some '-' then (.numberInteger, 9223372036854775808, lexeme.tail)
    else (.numberUnsigned, 18446744073709551615, lexeme)
  match countFigures max 0 type figures with
  | (value, .numberUnsigned) => .numberUnsigned value
  | (value, .numberInteger) => .numberInteger (-value.toInt64)
  | (_, .numberFloat) => readDouble strtod lexeme

/-! ### Integers -/

theorem not_digit_iff {c : Char} : (c < '0' ∨ '9' < c) ↔ c ∉ digits := by
  simp only [digits, Set.mem_Icc, not_and_or, not_le]

/-- One more figure, in 64 bits. -/
theorem figure_toNat {value : UInt64} {c : Char} (hc : c ∈ digits) :
    (value * 10 + c.toNat.toUInt64 - '0'.toNat.toUInt64).toNat =
      (10 * value.toNat + (c.toNat - '0'.toNat)) % 18446744073709551616 := by
  have hrange : 48 ≤ c.toNat ∧ c.toNat ≤ 57 := by
    simpa only [digits, Set.mem_Icc, char_le_iff, Char.reduceToNat] using hc
  simp only [UInt64.toNat_sub, UInt64.toNat_add, UInt64.toNat_mul, Char.reduceToNat]
  simp
  omega

section Figures

variable {max : UInt64} {type : NumberType} {figures more : Text}

theorem digit_not {c : Char} (hc : c ∈ digits) : ¬(c < '0' ∨ '9' < c) :=
  fun h => not_digit_iff.mp h hc

/-- The figures before some more. -/
theorem countFigures_append (hfigures : ∀ c ∈ figures, c ∈ digits) (value : UInt64) :
    countFigures max value type (figures ++ more) =
      countFigures max (countFigures max value type figures).1
        (countFigures max value type figures).2 more := by
  induction figures generalizing value type with
  | nil => rfl
  | cons c rest ih =>
    have hc := hfigures c List.mem_cons_self
    have hrest := fun value type =>
      @ih type (fun d hd => hfigures d (List.mem_cons_of_mem _ hd)) value
    simp only [List.cons_append, countFigures, if_neg (digit_not hc)]
    split_ifs <;> exact hrest _ _

/-- Figures are skipped once the number is no integer. -/
theorem countFigures_float (value : UInt64) (figures : Text) :
    (countFigures max value .numberFloat figures).2 = .numberFloat := by
  induction figures with
  | nil => rfl
  | cons c rest ih =>
    rw [countFigures]
    split_ifs <;> simp_all

theorem init_le_ofDigitChars (figures : Text) (init : Nat) :
    init ≤ Nat.ofDigitChars 10 figures init := by
  rw [Nat.ofDigitChars_eq_ofDigitChars_zero]
  have hpow : 0 < 10 ^ figures.length := Nat.pow_pos (by decide)
  calc init ≤ 10 ^ figures.length * init := Nat.le_mul_of_pos_left init hpow
    _ ≤ _ := Nat.le_add_right _ _

/-- Modulo 2^64, no figure makes the value smaller than it was, or larger than `max`. -/
def Rises (max : UInt64) (init : Nat) (figures : Text) : Prop :=
  ∀ k < figures.length,
    Nat.ofDigitChars 10 (figures.take k) init % 18446744073709551616 ≤
        Nat.ofDigitChars 10 (figures.take (k + 1)) init % 18446744073709551616 ∧
      Nat.ofDigitChars 10 (figures.take (k + 1)) init % 18446744073709551616 ≤ max.toNat

instance (max : UInt64) (init : Nat) (figures : Text) : Decidable (Rises max init figures) :=
  inferInstanceAs (Decidable (∀ k < figures.length, _))

theorem rises_cons {c : Char} {rest : Text} {m : Nat} :
    Rises max m (c :: rest) ↔
      (m % 18446744073709551616 ≤ (10 * m + (c.toNat - '0'.toNat)) % 18446744073709551616 ∧
        (10 * m + (c.toNat - '0'.toNat)) % 18446744073709551616 ≤ max.toNat) ∧
      Rises max (10 * m + (c.toNat - '0'.toNat)) rest := by
  rw [Rises, List.length_cons, Nat.forall_lt_succ_left]
  rfl

theorem rises_of_le {m : Nat} (hle : Nat.ofDigitChars 10 figures m ≤ max.toNat) :
    Rises max m figures := by
  induction figures generalizing m with
  | nil => exact fun k hk => absurd hk (Nat.not_lt_zero k)
  | cons c rest ih =>
    rw [Nat.ofDigitChars_cons] at hle
    have hinit := Nat.le_trans (init_le_ofDigitChars rest _) hle
    have hmax := max.toNat_lt
    refine rises_cons.mpr ⟨?_, ih hle⟩
    rw [Nat.mod_eq_of_lt (by omega), Nat.mod_eq_of_lt (by omega)]
    omega

/-- **What the overflow test sees**: the value modulo 2^64, figure by figure. -/
theorem countFigures_rises (hfigures : ∀ c ∈ figures, c ∈ digits) (htype : type ≠ .numberFloat)
    (m : Nat) :
    if Rises max m figures then
      countFigures max (UInt64.ofNat m) type figures =
        (UInt64.ofNat (Nat.ofDigitChars 10 figures m), type)
    else (countFigures max (UInt64.ofNat m) type figures).2 = .numberFloat := by
  induction figures generalizing m with
  | nil =>
    have hrises : Rises max m [] := fun k hk => absurd hk (Nat.not_lt_zero k)
    rw [if_pos hrises]
    rfl
  | cons c rest ih =>
    have hc := hfigures c List.mem_cons_self
    have hrest := ih (fun d hd => hfigures d (List.mem_cons_of_mem _ hd))
      (10 * m + (c.toNat - '0'.toNat))
    have htemp := @figure_toNat (UInt64.ofNat m) c hc
    have hstored : UInt64.ofNat m * 10 + c.toNat.toUInt64 - '0'.toNat.toUInt64 =
        UInt64.ofNat (10 * m + (c.toNat - '0'.toNat)) := by
      apply UInt64.toNat_inj.mp
      rw [htemp, UInt64.toNat_ofNat', UInt64.toNat_ofNat']
      omega
    simp only [rises_cons, countFigures, if_neg (digit_not hc), if_pos htype, hstored,
      UInt64.lt_iff_toNat_lt, UInt64.toNat_ofNat', Nat.ofDigitChars_cons]
    by_cases hfits : m % 18446744073709551616 ≤
        (10 * m + (c.toNat - '0'.toNat)) % 18446744073709551616 ∧
      (10 * m + (c.toNat - '0'.toNat)) % 18446744073709551616 ≤ max.toNat
    · rw [if_neg (c := _ ∨ _) (by omega)]
      simp only [hfits, true_and]
      exact hrest
    · rw [if_neg fun h => hfits h.1, if_pos (c := _ ∨ _) (by omega)]
      exact countFigures_float _ rest

theorem countFigures_zero (hfigures : ∀ c ∈ figures, c ∈ digits) (htype : type ≠ .numberFloat) :
    if Rises max 0 figures then
      countFigures max 0 type figures = (UInt64.ofNat (Nat.ofDigitChars 10 figures 0), type)
    else (countFigures max 0 type figures).2 = .numberFloat :=
  countFigures_rises hfigures htype 0

end Figures

/-- The text of a token that is an integer without a sign. -/
theorem getNumber_figures {strtod : Text → Float} {figures : Text}
    (hfigures : ∀ c ∈ figures, c ∈ digits) :
    getNumber strtod figures =
      match countFigures 18446744073709551615 0 .numberUnsigned figures with
      | (value, .numberUnsigned) => .numberUnsigned value
      | (value, .numberInteger) => .numberInteger (-value.toInt64)
      | (_, .numberFloat) => readDouble strtod figures := by
  have hhead : figures.head? ≠ some '-' := by
    intro h
    have hmem := hfigures '-' (List.mem_of_mem_head? h)
    simp [digits, char_le_iff] at hmem
  simp only [getNumber, hhead, if_false]

theorem getNumber_minus (strtod : Text → Float) (figures : Text) :
    getNumber strtod ('-' :: figures) =
      match countFigures 9223372036854775808 0 .numberInteger figures with
      | (value, .numberUnsigned) => .numberUnsigned value
      | (value, .numberInteger) => .numberInteger (-value.toInt64)
      | (_, .numberFloat) => readDouble strtod ('-' :: figures) := by
  simp only [getNumber, List.head?_cons, if_true, List.tail_cons]

theorem eq_of_snd {counted : UInt64 × NumberType} {type : NumberType} (h : counted.2 = type) :
    counted = (counted.1, type) := by
  rw [← h]

theorem getNumber_unsigned {strtod : Text → Float} {figures : Text}
    (hfigures : ∀ c ∈ figures, c ∈ digits) :
    getNumber strtod figures =
      if Rises 18446744073709551615 0 figures then
        .numberUnsigned (UInt64.ofNat (Nat.ofDigitChars 10 figures 0))
      else readDouble strtod figures := by
  have hcounted :=
    @countFigures_zero 18446744073709551615 .numberUnsigned figures hfigures (by decide)
  rw [getNumber_figures hfigures]
  split_ifs with hrises
  · rw [if_pos hrises] at hcounted
    rw [hcounted]
  · rw [if_neg hrises] at hcounted
    rw [eq_of_snd hcounted]

theorem getNumber_integer {strtod : Text → Float} {figures : Text}
    (hfigures : ∀ c ∈ figures, c ∈ digits) :
    getNumber strtod ('-' :: figures) =
      if Rises 9223372036854775808 0 figures then
        .numberInteger (-(UInt64.ofNat (Nat.ofDigitChars 10 figures 0)).toInt64)
      else readDouble strtod ('-' :: figures) := by
  have hcounted :=
    @countFigures_zero 9223372036854775808 .numberInteger figures hfigures (by decide)
  rw [getNumber_minus]
  split_ifs with hrises
  · rw [if_pos hrises] at hcounted
    rw [hcounted]
  · rw [if_neg hrises] at hcounted
    rw [eq_of_snd hcounted]

/-! ### The other numbers -/

open Grammar

/-- What follows the figures of a number makes it a `double`. -/
theorem countFigures_more {max : UInt64} {type : NumberType} {figures more : Text} {c : Char}
    (hfigures : ∀ d ∈ figures, d ∈ digits) (hc : c ∉ digits) (value : UInt64) :
    (countFigures max value type (figures ++ c :: more)).2 = .numberFloat := by
  rw [countFigures_append hfigures, countFigures, if_pos (not_digit_iff.mpr hc)]
  split_ifs
  · exact countFigures_float _ more
  · rfl

theorem digit_mem_kstar {figures : Text} : figures ∈ digit∗ ↔ ∀ c ∈ figures, c ∈ digits :=
  mem_kstar_oneOf

theorem integer_digits {figures : Text} (h : figures ∈ integer) :
    figures ≠ [] ∧ ∀ c ∈ figures, c ∈ digits := by
  cases figures with
  | nil => simp [integer, Language.mem_add, -add_eq_sup] at h
  | cons c rest =>
    refine ⟨List.cons_ne_nil c rest, ?_⟩
    rw [integer, Language.mem_add, cons_mem_oneOf, cons_mem_oneOf_mul, digit_mem_kstar] at h
    rw [List.forall_mem_cons]
    rcases h with ⟨rfl, rfl⟩ | ⟨hc, hrest⟩
    · simp [digits, char_le_iff]
    · refine ⟨⟨?_, hc.2⟩, hrest⟩
      exact le_trans (by decide) hc.1

/-- What makes it no integer begins with a point or with an exponent. -/
theorem head_of_more {more : Text} (h : more ∈ (1 + fraction) * (1 + exponent)) :
    more = [] ∨ ∃ c rest, more = c :: rest ∧ c ∉ digits := by
  cases more with
  | nil => exact Or.inl rfl
  | cons c rest =>
    refine Or.inr ⟨c, rest, rfl, ?_⟩
    rw [add_mul, one_mul, Language.mem_add, Language.mem_add, Language.mem_one, fraction, exponent,
      mul_assoc, cons_mem_oneOf_mul, cons_mem_oneOf_mul] at h
    simp only [reduceCtorEq, false_or, Set.mem_singleton_iff, Set.mem_insert_iff] at h
    rcases h with ⟨rfl | rfl, _⟩ | ⟨rfl, _⟩ <;> simp [digits, char_le_iff]

theorem getNumber_double {strtod : Text → Float} {sign figures more : Text}
    (hsign : sign = [] ∨ sign = ['-']) (hfigures : figures ∈ integer)
    (hmore : more ∈ (1 + fraction) * (1 + exponent)) (hne : more ≠ []) :
    getNumber strtod (sign ++ (figures ++ more)) =
      readDouble strtod (sign ++ (figures ++ more)) := by
  obtain ⟨c, rest, rfl, hc⟩ := (head_of_more hmore).resolve_left hne
  obtain ⟨hnonempty, hdigits⟩ := integer_digits hfigures
  rcases hsign with rfl | rfl
  · have hhead : (figures ++ c :: rest).head? ≠ some '-' := by
      cases figures with
      | nil => exact absurd rfl hnonempty
      | cons d figures =>
        intro h
        have hd := hdigits d List.mem_cons_self
        rw [Option.some.inj h] at hd
        simp [digits, char_le_iff] at hd
    rw [List.nil_append]
    simp only [getNumber, hhead, if_false]
    rw [eq_of_snd (countFigures_more hdigits hc 0)]
  · rw [List.singleton_append, getNumber_minus, eq_of_snd (countFigures_more hdigits hc 0)]

/-! ### Integers that are printed -/

theorem digitChar_mem {n : Nat} (hn : n < 10) : n.digitChar ∈ digits := by
  have hall : ∀ m < 10, '0' ≤ m.digitChar ∧ m.digitChar ≤ '9' := by decide
  exact hall n hn

/-- No leading zeros are printed. -/
theorem toDigits_cons {n : Nat} (hpos : 0 < n) :
    ∃ c rest, Nat.toDigits 10 n = c :: rest ∧ c ∈ Set.Icc '1' '9' ∧ ∀ d ∈ rest, d ∈ digits := by
  induction n using Nat.strong_induction_on with
  | _ n ih =>
    rcases Nat.lt_or_ge n 10 with hlt | hge
    · rw [Nat.toDigits_of_lt_base hlt]
      have hall : ∀ m < 10, 0 < m → '1' ≤ m.digitChar ∧ m.digitChar ≤ '9' := by decide
      exact ⟨_, [], rfl, hall n hlt hpos, by simp⟩
    · obtain ⟨c, rest, hfront, hc, hrest⟩ := ih (n / 10) (by omega) (by omega)
      rw [Nat.toDigits_of_base_le (by decide) hge, hfront]
      refine ⟨c, rest ++ [(n % 10).digitChar], rfl, hc, ?_⟩
      intro d hd
      rcases List.mem_append.mp hd with hd | hd
      · exact hrest d hd
      · rw [List.mem_singleton.mp hd]
        exact digitChar_mem (Nat.mod_lt n (by decide))

theorem toDigits_mem_integer (n : Nat) : Nat.toDigits 10 n ∈ integer := by
  rw [integer, Language.mem_add]
  rcases Nat.eq_zero_or_pos n with rfl | hpos
  · rw [Nat.toDigits_zero]
    exact Or.inl (cons_mem_oneOf.mpr ⟨rfl, rfl⟩)
  · obtain ⟨c, rest, heq, hc, hrest⟩ := toDigits_cons hpos
    rw [heq, cons_mem_oneOf_mul, digit_mem_kstar]
    exact Or.inr ⟨hc, hrest⟩

theorem nil_mem_more : ([] : Text) ∈ (1 + fraction) * (1 + exponent) :=
  Language.mem_mul.mpr ⟨[], Or.inl rfl, [], Or.inl rfl, rfl⟩

theorem number_of_integer {sign figures : Text} (hsign : sign = [] ∨ sign = ['-'])
    (hfigures : figures ∈ integer) : sign ++ figures ∈ number := by
  refine Language.mem_mul.mpr ⟨sign, ?_, figures, ?_, rfl⟩
  · rcases hsign with rfl | rfl
    · exact Or.inl rfl
    · exact Or.inr (cons_mem_oneOf.mpr ⟨rfl, rfl⟩)
  · exact Language.mem_mul.mpr ⟨figures, hfigures, [], nil_mem_more, List.append_nil figures⟩

/-- An unsigned integer that is printed is a token, and is read back. -/
theorem getNumber_toDigits (strtod : Text → Float) (n : UInt64) :
    getNumber strtod (Nat.toDigits 10 n.toNat) = .numberUnsigned n := by
  have hdigits := (integer_digits (toDigits_mem_integer n.toNat)).2
  have hrises : Rises 18446744073709551615 0 (Nat.toDigits 10 n.toNat) := by
    apply rises_of_le
    rw [Nat.ofDigitChars_ten_toDigits]
    exact Nat.le_of_lt_succ n.toNat_lt
  rw [getNumber_unsigned hdigits, if_pos hrises, Nat.ofDigitChars_ten_toDigits, UInt64.ofNat_toNat]

/-- So is a negative one. -/
theorem getNumber_minus_toDigits (strtod : Text → Float) {n : Int64} (hn : n.toInt < 0) :
    getNumber strtod ('-' :: Nat.toDigits 10 n.toInt.natAbs) = .numberInteger n := by
  have hdigits := (integer_digits (toDigits_mem_integer n.toInt.natAbs)).2
  have hle := n.le_toInt
  have habs : n.toInt.natAbs ≤ 9223372036854775808 := by omega
  have hrises : Rises 9223372036854775808 0 (Nat.toDigits 10 n.toInt.natAbs) := by
    apply rises_of_le
    rwa [Nat.ofDigitChars_ten_toDigits]
  rw [getNumber_integer hdigits, if_pos hrises, Nat.ofDigitChars_ten_toDigits]
  have hvalue : -(UInt64.ofNat n.toInt.natAbs).toInt64 = n := by
    apply Int64.toInt_inj.mp
    rw [show (UInt64.ofNat n.toInt.natAbs).toInt64 = Int64.ofNat n.toInt.natAbs from rfl,
      Int64.toInt_neg_ofNat_of_le habs]
    omega
  rw [hvalue]

/-- **Which number a token stands for.**  An integer is stored, modulo 2^64, if no figure
    makes the value modulo 2^64 smaller or takes it beyond the range of the type; any
    other token goes to `strtod`. -/
theorem getNumber_stored (strtod : Text → Float) {sign figures more : Text}
    (hsign : sign = [] ∨ sign = ['-']) (hfigures : figures ∈ integer)
    (hmore : more ∈ (1 + fraction) * (1 + exponent)) :
    getNumber strtod (sign ++ (figures ++ more)) =
      if more = [] ∧ sign = [] ∧ Rises 18446744073709551615 0 figures then
        .numberUnsigned (UInt64.ofNat (Nat.ofDigitChars 10 figures 0))
      else if more = [] ∧ sign = ['-'] ∧ Rises 9223372036854775808 0 figures then
        .numberInteger (-(UInt64.ofNat (Nat.ofDigitChars 10 figures 0)).toInt64)
      else readDouble strtod (sign ++ (figures ++ more)) := by
  have hdigits := (integer_digits hfigures).2
  by_cases hnil : more = []
  · subst hnil
    rcases hsign with rfl | rfl
    · rw [List.append_nil, List.nil_append, getNumber_unsigned hdigits]
      simp
    · rw [List.append_nil, List.singleton_append, getNumber_integer hdigits]
      simp
  · rw [getNumber_double hsign hfigures hmore hnil, if_neg fun h => hnil h.1,
      if_neg fun h => hnil h.1]

/-- Two less than 2^65 is stored as two less than 2^64. -/
theorem getNumber_stored_overflow :
    getNumber (fun _ => 3.689348814741910323e19)
        ([] ++ ("36893488147419103230".toList ++ [])) =
      .numberUnsigned 18446744073709551614 := by
  have hrest : ("6893488147419103230".toList.all fun c => '0' ≤ c ∧ c ≤ '9') = true := by decide
  have hfigures : "36893488147419103230".toList ∈ integer := by
    refine Or.inr (cons_mem_oneOf_mul.mpr ⟨⟨by decide, by decide⟩, digit_mem_kstar.mpr ?_⟩)
    intro c hc
    have hdigit : '0' ≤ c ∧ c ≤ '9' := of_decide_eq_true (List.all_eq_true.mp hrest c hc)
    exact hdigit
  rw [getNumber_stored _ (Or.inl rfl) hfigures nil_mem_more, if_pos ⟨rfl, rfl, by decide⟩]
  rfl

end Lexer

end IsmDevice.Json
