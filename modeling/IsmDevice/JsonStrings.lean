import IsmDevice.JsonTokens

/-!
# The value of a string token

`get_string` takes the escapes out of a token and `to_unicode` puts the code points of
`\u` escapes into UTF-8.  `Spells` is what the RFC says about the same: which text the
characters of a string stand for.
-/

namespace IsmDevice.Json

open LongestMatch Computability

namespace Lexer

/-- `static_cast` of code units to characters. -/
def chars (bytes : List Nat) : Text := bytes.map Char.ofNat

/-- The second half of `to_unicode`: the bytes of a code point. -/
def bytesOf (codepoint : Nat) : Except String Text :=
  if codepoint < 0x80 then
    .ok (chars [codepoint])
  else if codepoint ≤ 0x7ff then
    .ok (chars [0xC0 ||| ((codepoint >>> 6) &&& 0x1F), 0x80 ||| (codepoint &&& 0x3F)])
  else if codepoint ≤ 0xffff then
    .ok (chars [0xE0 ||| ((codepoint >>> 12) &&& 0x0F), 0x80 ||| ((codepoint >>> 6) &&& 0x3F),
      0x80 ||| (codepoint &&& 0x3F)])
  else if codepoint ≤ 0x10ffff then
    .ok (chars [0xF0 ||| ((codepoint >>> 18) &&& 0x07), 0x80 ||| ((codepoint >>> 12) &&& 0x3F),
      0x80 ||| ((codepoint >>> 6) &&& 0x3F), 0x80 ||| (codepoint &&& 0x3F)])
  else .error "code points above 0x10FFFF are invalid"

def toUnicode (codepoint1 codepoint2 : Nat) : Except String Text :=
  if codepoint1 ≥ 0xD800 ∧ codepoint1 ≤ 0xDBFF then
    if codepoint2 ≥ 0xDC00 ∧ codepoint2 ≤ 0xDFFF then
      bytesOf ((codepoint1 <<< 10) + codepoint2 - 0x35FDC00)
    else .error "missing or wrong low surrogate"
  else bytesOf codepoint1

def digitValue (c : Char) : Option Nat :=
  if '0' ≤ c ∧ c ≤ '9' then some (c.toNat - '0'.toNat)
  else if 'a' ≤ c ∧ c ≤ 'f' then some (c.toNat - 'a'.toNat + 10)
  else if 'A' ≤ c ∧ c ≤ 'F' then some (c.toNat - 'A'.toNat + 10)
  else none

/-- `std::strtoul` of base 16, on a text that begins with no blank and no sign: up to
    the first character that is no digit. -/
def strtoul (value : Nat) : Text → Nat
  | [] => value
  | c :: rest =>
      match digitValue c with
      | some d => strtoul (16 * value + d) rest
      | none => value

/-- What an escape other than `\u` appends.  The scanner lets no other through. -/
def unescape : Char → Text
  | 't' => ['\t']
  | 'b' => ['\x08']
  | 'f' => ['\x0c']
  | 'n' => ['\n']
  | 'r' => ['\r']
  | '\\' => ['\\']
  | '/' => ['/']
  | '"' => ['"']
  | _ => []

/-- The loop of `get_string`, over the characters between the quotes.  Behind `\u` the
    scanner has seen four digits. -/
def getStringFrom : Text → Except String Text
  | [] => .ok []
  | '\\' :: 'u' :: a :: b :: c :: d :: rest =>
      let codepoint := strtoul 0 [a, b, c, d]
      if codepoint ≥ 0xD800 ∧ codepoint ≤ 0xDBFF then
        match rest with
        | '\\' :: 'u' :: a' :: b' :: c' :: d' :: rest' => do
            let bytes ← toUnicode codepoint (strtoul 0 [a', b', c', d'])
            return bytes ++ (← getStringFrom rest')
        | _ => .error "missing low surrogate"
      else if codepoint ≥ 0xDC00 ∧ codepoint ≤ 0xDFFF then
        .error "missing high surrogate"
      else do
        let bytes ← toUnicode codepoint 0
        return bytes ++ (← getStringFrom rest)
  | '\\' :: e :: rest => do
      return unescape e ++ (← getStringFrom rest)
  | c :: rest => do
      return c :: (← getStringFrom rest)

/-- `get_string`, on the characters of a token: the quotes are left out. -/
def getString (lexeme : Text) : Except String Text :=
  getStringFrom lexeme.tail.dropLast

/-! ### Code points -/

def encoded (c : Char) : Text := chars (Utf8.encode c)

theorem codes_chars {bytes : List Nat} (h : ∀ b ∈ bytes, b < 0xD800) :
    codes (chars bytes) = bytes := by
  rw [codes, chars, List.map_map]
  conv_rhs => rw [← List.map_id bytes]
  apply List.map_congr_left
  intro b hb
  have hvalid : b.isValidChar := Or.inl (h b hb)
  rw [Function.comp_apply, Char.ofNat, dif_pos hvalid]
  rfl

theorem codes_encoded (c : Char) : codes (encoded c) = Utf8.encode c := by
  apply codes_chars
  intro b hb
  obtain ⟨x, _, rfl⟩ := List.mem_map.mp hb
  exact Nat.lt_trans x.toNat_lt (by decide)

theorem or_and_eq {lead bits n : Nat} (k : Nat) (hlead : lead = 2 ^ bits * k) (w : Nat)
    (hw : w ≤ bits) : lead ||| (n &&& (2 ^ w - 1)) = lead + n % 2 ^ w := by
  have hlt : n % 2 ^ w < 2 ^ bits :=
    Nat.lt_of_lt_of_le (Nat.mod_lt _ (Nat.two_pow_pos w)) (Nat.pow_le_pow_right (by decide) hw)
  rw [Nat.and_two_pow_sub_one_eq_mod, hlead, ← Nat.two_pow_add_eq_or_of_lt hlt]

/-- The bytes are those of UTF-8. -/
theorem bytesOf_eq (c : Char) : bytesOf c.toNat = .ok (encoded c) := by
  have hrange := Utf8.scalar_range c
  have h6 : ∀ n, 0x80 ||| (n &&& 0x3F) = 0x80 + n % 64 := fun n =>
    @or_and_eq _ 7 _ 1 rfl 6 (by decide)
  have h5 : ∀ n, 0xC0 ||| (n &&& 0x1F) = 0xC0 + n % 32 := fun n =>
    @or_and_eq _ 6 _ 3 rfl 5 (by decide)
  have h4 : ∀ n, 0xE0 ||| (n &&& 0x0F) = 0xE0 + n % 16 := fun n =>
    @or_and_eq _ 5 _ 7 rfl 4 (by decide)
  have h3 : ∀ n, 0xF0 ||| (n &&& 0x07) = 0xF0 + n % 8 := fun n =>
    @or_and_eq _ 4 _ 15 rfl 3 (by decide)
  rw [encoded, Utf8.encode_eq, bytesOf]
  simp only [h3, h4, h5, h6, Nat.shiftRight_eq_div_pow, Nat.reducePow]
  generalize c.toNat = v at hrange ⊢
  split_ifs <;> first | rfl | omega | skip
  · rw [Nat.mod_eq_of_lt (by omega : v / 64 < 32)]
  · rw [Nat.mod_eq_of_lt (by omega : v / 4096 < 16)]
  · rw [Nat.mod_eq_of_lt (by omega : v / 262144 < 8)]

/-- A code point outside the surrogates stands for itself. -/
theorem toUnicode_scalar (c : Char) (codepoint2 : Nat) :
    toUnicode c.toNat codepoint2 = .ok (encoded c) := by
  have hrange := Utf8.scalar_range c
  rw [toUnicode, if_neg (by omega), bytesOf_eq]

/-- Two surrogates stand for one code point beyond U+FFFF. -/
theorem toUnicode_surrogates {high low : Nat} {c : Char} (hhigh : 0xD800 ≤ high ∧ high ≤ 0xDBFF)
    (hlow : 0xDC00 ≤ low ∧ low ≤ 0xDFFF)
    (hc : c.toNat = 0x10000 + (high - 0xD800) * 0x400 + (low - 0xDC00)) :
    toUnicode high low = .ok (encoded c) := by
  have hcode : (high <<< 10) + low - 0x35FDC00 = c.toNat := by
    rw [Nat.shiftLeft_eq]
    omega
  rw [toUnicode, if_pos hhigh, if_pos hlow, hcode, bytesOf_eq]

/-! ### What a string stands for -/

/-- The escapes of one character, with what they stand for. -/
def escapes : List (Char × Char) :=
  [('"', '"'), ('\\', '\\'), ('/', '/'), ('b', '\x08'), ('f', '\x0c'), ('n', '\n'), ('r', '\r'),
    ('t', '\t')]

open Grammar

def fourDigits : Language Char := hex * (hex * (hex * hex))

/-- The characters between the quotes, and the text they stand for. -/
inductive Spells : Text → Text → Prop where
  | nil : Spells [] []
  | copied {unit raw s : Text} (hunit : unit ∈ oneOf plain + utf8) (hraw : Spells raw s) :
      Spells (unit ++ raw) (unit ++ s)
  | escaped {e c : Char} {raw s : Text} (he : (e, c) ∈ escapes) (hraw : Spells raw s) :
      Spells ('\\' :: e :: raw) (c :: s)
  | unicode {digits raw s : Text} {c : Char} (hdigits : digits ∈ fourDigits)
      (hc : c.toNat = strtoul 0 digits) (hraw : Spells raw s) :
      Spells ('\\' :: 'u' :: (digits ++ raw)) (encoded c ++ s)
  | surrogates {high low raw s : Text} {c : Char} (hhigh : high ∈ fourDigits)
      (hlow : low ∈ fourDigits)
      (hrange : 0xD800 ≤ strtoul 0 high ∧ strtoul 0 high ≤ 0xDBFF)
      (hrange' : 0xDC00 ≤ strtoul 0 low ∧ strtoul 0 low ≤ 0xDFFF)
      (hc : c.toNat =
        0x10000 + (strtoul 0 high - 0xD800) * 0x400 + (strtoul 0 low - 0xDC00))
      (hraw : Spells raw s) :
      Spells ('\\' :: 'u' :: (high ++ '\\' :: 'u' :: (low ++ raw))) (encoded c ++ s)

theorem exists_fourDigits {digits : Text} (h : digits ∈ fourDigits) :
    ∃ a b c d, digits = [a, b, c, d] := by
  match digits with
  | [a, b, c, d] => exact ⟨a, b, c, d, rfl⟩
  | [] | [_] | [_, _] | [_, _, _] => simp [fourDigits, hex] at h
  | _ :: _ :: _ :: _ :: _ :: _ => simp [fourDigits, hex] at h

theorem ne_backslash {unit : Text} (hunit : unit ∈ oneOf plain + utf8) : '\\' ∉ unit := by
  intro hmem
  rcases (Language.mem_add _ _ _).mp hunit with ⟨c, hc, rfl⟩ | ⟨c, hc, hcodes⟩
  · obtain rfl := List.mem_singleton.mp hmem
    exact hc.2 (by simp)
  · have hbyte : '\\'.toNat ∈ Utf8.encode c := by
      rw [← hcodes]
      exact List.mem_map_of_mem hmem
    exact absurd (Utf8.le_of_mem_encode hc hbyte) (by decide)

/-- What is not escaped is copied. -/
theorem getStringFrom_append {unit : Text} (hunit : '\\' ∉ unit) (raw : Text) :
    getStringFrom (unit ++ raw) = (getStringFrom raw).map (unit ++ ·) := by
  induction unit with
  | nil =>
    simp only [List.nil_append]
    cases getStringFrom raw <;> rfl
  | cons c rest ih =>
    simp only [List.mem_cons, not_or] at hunit
    rw [List.cons_append, getStringFrom, ih hunit.2]
    · cases getStringFrom raw <;> rfl
    · rintro a b c' d rest' rfl
      exact absurd rfl hunit.1
    · rintro e rest' rfl
      exact absurd rfl hunit.1

theorem getStringFrom_escape {e : Char} (he : e ≠ 'u') (raw : Text) :
    getStringFrom ('\\' :: e :: raw) = (getStringFrom raw).map (unescape e ++ ·) := by
  rw [getStringFrom]
  · cases getStringFrom raw <;> rfl
  · rintro a b c d rest' rfl
    exact absurd rfl he

/-- The value of `\u` escapes: a scalar value, or a pair of surrogates. -/
theorem getStringFrom_unicode {digits : Text} (hdigits : digits ∈ fourDigits) (raw : Text) :
    getStringFrom ('\\' :: 'u' :: (digits ++ raw)) =
      let codepoint := strtoul 0 digits
      if codepoint ≥ 0xD800 ∧ codepoint ≤ 0xDBFF then
        match raw with
        | '\\' :: 'u' :: a :: b :: c :: d :: rest => do
            let bytes ← toUnicode codepoint (strtoul 0 [a, b, c, d])
            return bytes ++ (← getStringFrom rest)
        | _ => .error "missing low surrogate"
      else if codepoint ≥ 0xDC00 ∧ codepoint ≤ 0xDFFF then
        .error "missing high surrogate"
      else do
        let bytes ← toUnicode codepoint 0
        return bytes ++ (← getStringFrom raw) := by
  obtain ⟨a, b, c, d, rfl⟩ := exists_fourDigits hdigits
  exact getStringFrom.eq_def _

theorem mem_escapes {e c : Char} (h : (e, c) ∈ escapes) : e ≠ 'u' ∧ unescape e = [c] := by
  revert h
  simp only [escapes, List.mem_cons, Prod.mk.injEq, List.not_mem_nil, or_false]
  rintro (⟨rfl, rfl⟩ | ⟨rfl, rfl⟩ | ⟨rfl, rfl⟩ | ⟨rfl, rfl⟩ | ⟨rfl, rfl⟩ | ⟨rfl, rfl⟩ | ⟨rfl, rfl⟩ |
    ⟨rfl, rfl⟩) <;> exact ⟨by decide, rfl⟩

/-- What the characters spell is what `get_string` makes of them. -/
theorem getStringFrom_of_spells {raw s : Text} (h : Spells raw s) : getStringFrom raw = .ok s := by
  induction h with
  | nil => rfl
  | copied hunit _ ih => rw [getStringFrom_append (ne_backslash hunit), ih]; rfl
  | escaped he _ ih =>
    obtain ⟨hu, hunescape⟩ := mem_escapes he
    rw [getStringFrom_escape hu, ih, hunescape]
    rfl
  | @unicode digits raw s c hdigits hc _ ih =>
    have hrange := Utf8.scalar_range c
    rw [getStringFrom_unicode hdigits, ← hc]
    simp only
    rw [if_neg (by omega), if_neg (by omega), toUnicode_scalar, ih]
    rfl
  | @surrogates high low raw s c hhigh hlow hrange hrange' hc _ ih =>
    rw [getStringFrom_unicode hhigh]
    obtain ⟨a, b, c', d, rfl⟩ := exists_fourDigits hlow
    simp only [ge_iff_le, hrange, and_self, if_true, List.cons_append, List.nil_append]
    rw [toUnicode_surrogates hrange hrange' hc, ih]
    rfl

theorem mem_kstar_iff {l : Language Char} {raw : Text} :
    raw ∈ l∗ ↔ raw = [] ∨ ∃ unit ∈ l, ∃ rest ∈ l∗, unit ++ rest = raw := by
  conv_lhs => rw [← Language.one_add_self_mul_kstar_eq_kstar]
  rw [Language.mem_add, Language.mem_one, Language.mem_mul]

theorem mem_escape {unit : Text} :
    unit ∈ escape ↔ (∃ e c, (e, c) ∈ escapes ∧ unit = ['\\', e]) ∨
      ∃ digits ∈ fourDigits, unit = '\\' :: 'u' :: digits := by
  have hescaped : ∀ e : Char, e ∈ escaped ↔ ∃ c, (e, c) ∈ escapes := by
    intro e
    simp [escaped, escapes, exists_or]
  rw [escape]
  rcases unit with _ | ⟨a, _ | ⟨e, digits⟩⟩
  · simp
  · simp [Language.mem_add, -add_eq_sup]
  · rw [cons_mem_oneOf_mul, Language.mem_add, cons_mem_oneOf, cons_mem_oneOf_mul,
      Set.mem_singleton_iff, Set.mem_singleton_iff, hescaped, ← fourDigits]
    constructor
    · rintro ⟨rfl, ⟨⟨c, he⟩, rfl⟩ | ⟨rfl, hdigits⟩⟩
      · exact Or.inl ⟨e, c, he, rfl⟩
      · exact Or.inr ⟨digits, hdigits, rfl⟩
    · rintro (⟨e, c, he, heq⟩ | ⟨digits, hdigits, heq⟩)
      · simp only [List.cons.injEq] at heq
        obtain ⟨rfl, rfl, rfl⟩ := heq
        exact ⟨rfl, Or.inl ⟨⟨c, he⟩, rfl⟩⟩
      · simp only [List.cons.injEq] at heq
        obtain ⟨rfl, rfl, rfl⟩ := heq
        exact ⟨rfl, Or.inr ⟨rfl, hdigits⟩⟩

theorem mem_character_of_spells {raw s : Text} (h : Spells raw s) : raw ∈ character∗ := by
  induction h with
  | nil => exact Language.nil_mem_kstar _
  | copied hunit _ ih =>
    exact mem_kstar_iff.mpr (Or.inr ⟨_, Or.inl hunit, _, ih, rfl⟩)
  | escaped he _ ih =>
    have hescape := mem_escape.mpr (Or.inl ⟨_, _, he, rfl⟩)
    exact mem_kstar_iff.mpr (Or.inr ⟨_, Or.inr hescape, _, ih, rfl⟩)
  | unicode hdigits _ _ ih =>
    exact mem_kstar_iff.mpr
      (Or.inr ⟨_, Or.inr (mem_escape.mpr (Or.inr ⟨_, hdigits, rfl⟩)), _, ih, rfl⟩)
  | surrogates hhigh hlow _ _ _ _ ih =>
    have hrest := mem_kstar_iff.mpr
      (Or.inr ⟨_, Or.inr (mem_escape.mpr (Or.inr ⟨_, hlow, rfl⟩)), _, ih, rfl⟩)
    exact mem_kstar_iff.mpr
      (Or.inr ⟨_, Or.inr (mem_escape.mpr (Or.inr ⟨_, hhigh, rfl⟩)), _, hrest, rfl⟩)

/-- Behind a backslash and a `u` there are four digits. -/
theorem digits_of_mem {rest : Text} (h : '\\' :: 'u' :: rest ∈ character∗) :
    ∃ digits ∈ fourDigits, ∃ rest' ∈ character∗, digits ++ rest' = rest := by
  rcases mem_kstar_iff.mp h with h | ⟨unit, hunit, rest', hrest', heq⟩
  · cases h
  · rcases hunit with hunit | hunit
    · cases unit with
      | nil => exact absurd (Or.inl hunit) nil_notMem_character
      | cons c unit =>
        obtain ⟨rfl, _⟩ := List.cons.inj heq
        exact absurd List.mem_cons_self (ne_backslash hunit)
    · rcases mem_escape.mp hunit with ⟨e, c, he, rfl⟩ | ⟨digits, hdigits, rfl⟩
      · simp only [List.cons_append, List.cons.injEq, true_and] at heq
        exact absurd heq.1 (mem_escapes he).1
      · simp only [List.cons_append, List.cons.injEq, true_and] at heq
        exact ⟨digits, hdigits, rest', hrest', heq⟩

theorem strtoul_lt {digits : Text} (h : digits ∈ fourDigits) : strtoul 0 digits < 0x10000 := by
  have hvalue : ∀ c ∈ hexDigits, ∃ d, digitValue c = some d ∧ d < 16 := by
    intro c hc
    simp only [hexDigits, Set.mem_union, Set.mem_Icc, char_le_iff, Char.reduceToNat] at hc
    simp only [digitValue, char_le_iff, Char.reduceToNat]
    split_ifs
    · exact ⟨_, rfl, by omega⟩
    · exact ⟨_, rfl, by omega⟩
    · exact ⟨_, rfl, by omega⟩
    · omega
  obtain ⟨a, b, c, d, rfl⟩ := exists_fourDigits h
  simp only [fourDigits, hex, cons_mem_oneOf_mul, cons_mem_oneOf] at h
  obtain ⟨ha, hb, hc, hd, _⟩ := h
  obtain ⟨x, hx, _⟩ := hvalue a ha
  obtain ⟨y, hy, _⟩ := hvalue b hb
  obtain ⟨z, hz, _⟩ := hvalue c hc
  obtain ⟨w, hw, _⟩ := hvalue d hd
  simp only [strtoul, hx, hy, hz, hw]
  omega

theorem map_eq_ok {f : Text → Text} {x : Except String Text} {s : Text} (h : x.map f = .ok s) :
    ∃ t, x = .ok t ∧ s = f t := by
  cases x with
  | error e => cases h
  | ok t => exact ⟨t, rfl, (Except.ok.inj h).symm⟩

theorem bind_eq_ok {ε α β : Type} {x : Except ε α} {f : α → Except ε β} {b : β}
    (h : x >>= f = .ok b) : ∃ a, x = .ok a ∧ f a = .ok b := by
  cases x with
  | error e => cases h
  | ok a => exact ⟨a, rfl, h⟩

/-- Two code points of which the first is a high surrogate make one, if they make any. -/
theorem toUnicode_high {high low : Nat} {bytes : Text} (hhigh : 0xD800 ≤ high ∧ high ≤ 0xDBFF)
    (h : toUnicode high low = .ok bytes) :
    (0xDC00 ≤ low ∧ low ≤ 0xDFFF) ∧
      ∃ c : Char, c.toNat = 0x10000 + (high - 0xD800) * 0x400 + (low - 0xDC00) ∧
        bytes = encoded c := by
  by_cases hlow : 0xDC00 ≤ low ∧ low ≤ 0xDFFF
  case neg =>
    rw [toUnicode, if_pos hhigh, if_neg hlow] at h
    cases h
  case pos =>
    obtain ⟨c, hc⟩ := @Utf8.exists_scalar
      (0x10000 + (high - 0xD800) * 0x400 + (low - 0xDC00)) (by omega)
    rw [toUnicode_surrogates hhigh hlow hc] at h
    exact ⟨hlow, c, hc, (Except.ok.inj h).symm⟩

/-- What `get_string` makes of the characters of a string is what they spell. -/
theorem spells_of_getStringFrom {raw s : Text} (hraw : raw ∈ character∗)
    (h : getStringFrom raw = .ok s) : Spells raw s := by
  induction hlength : raw.length using Nat.strong_induction_on generalizing raw s with
  | _ n ih =>
    subst hlength
    rcases mem_kstar_iff.mp hraw with rfl | ⟨unit, hunit, rest, hrest, rfl⟩
    · obtain rfl := Except.ok.inj h
      exact .nil
    have hne : unit ≠ [] := by
      rintro rfl
      exact nil_notMem_character hunit
    have hshort : rest.length < (unit ++ rest).length := by
      rw [List.length_append]
      exact Nat.lt_add_of_pos_left (List.length_pos_of_ne_nil hne)
    rcases hunit with hunit | hunit
    · rw [getStringFrom_append (ne_backslash hunit)] at h
      obtain ⟨t, ht, rfl⟩ := map_eq_ok h
      exact .copied hunit (ih _ hshort hrest ht rfl)
    rcases mem_escape.mp hunit with ⟨e, c, he, rfl⟩ | ⟨digits, hdigits, rfl⟩
    · obtain ⟨hu, hunescape⟩ := mem_escapes he
      rw [List.cons_append, List.cons_append, List.nil_append, getStringFrom_escape hu] at h
      obtain ⟨t, ht, rfl⟩ := map_eq_ok h
      rw [hunescape]
      exact .escaped he (ih _ hshort hrest ht rfl)
    · rw [List.cons_append, List.cons_append, getStringFrom_unicode hdigits] at h
      simp only at h
      split_ifs at h with hhigh hlow
      · -- a high surrogate: the next escape has to be the low one
        split at h
        case h_2 => cases h
        case h_1 a b c d rest' =>
          obtain ⟨low, hlow, rest'', hrest'', heq⟩ := digits_of_mem hrest
          obtain ⟨a', b', c', d', rfl⟩ := exists_fourDigits hlow
          simp only [List.cons_append, List.nil_append, List.cons.injEq] at heq
          obtain ⟨rfl, rfl, rfl, rfl, rfl⟩ := heq
          obtain ⟨bytes, hbytes, h⟩ := bind_eq_ok h
          obtain ⟨t, ht, h⟩ := bind_eq_ok h
          obtain rfl := Except.ok.inj h
          obtain ⟨hrange, scalar, hscalar, rfl⟩ := toUnicode_high hhigh hbytes
          refine .surrogates hdigits hlow hhigh hrange hscalar (ih _ ?_ hrest'' ht rfl)
          refine Nat.lt_trans ?_ hshort
          simp only [List.length_cons]
          omega
      · obtain ⟨bytes, hbytes, h⟩ := bind_eq_ok h
        obtain ⟨t, ht, h⟩ := bind_eq_ok h
        obtain rfl := Except.ok.inj h
        have hlt := strtoul_lt hdigits
        obtain ⟨c, hc⟩ := @Utf8.exists_scalar (strtoul 0 digits) (by omega)
        rw [← hc, toUnicode_scalar] at hbytes
        obtain rfl := Except.ok.inj hbytes
        exact .unicode hdigits hc (ih _ hshort hrest ht rfl)

/-- **The value of a string**: a token spells one text at most, and `get_string` finds it
    or throws where there is none. -/
theorem getString_eq_ok_iff {raw s : Text} (hraw : raw ∈ character∗) :
    getString ('"' :: (raw ++ ['"'])) = .ok s ↔ Spells raw s := by
  have hbody : getString ('"' :: (raw ++ ['"'])) = getStringFrom raw := by
    rw [getString, List.tail_cons, List.dropLast_concat]
  rw [hbody]
  exact ⟨spells_of_getStringFrom hraw, getStringFrom_of_spells⟩

/-! ### UTF-8

What a string spells is UTF-8, and every UTF-8 text is spelled by its escaped form. -/

theorem codes_append (a b : Text) : codes (a ++ b) = codes a ++ codes b := List.map_append

/-- ASCII, checked character by character. -/
theorem ascii_of_all {text : Text} (h : (text.all fun c => c.toNat ≤ 0x7F) = true) :
    ∀ c ∈ text, c.toNat ≤ 0x7F := by
  intro c hc
  exact of_decide_eq_true (List.all_eq_true.mp h c hc)

theorem encoded_of_ascii {text : Text} (h : ∀ c ∈ text, c.toNat ≤ 0x7F) :
    Utf8.Encoded (codes text) := by
  apply Utf8.encoded_of_ascii
  intro x hx
  obtain ⟨c, hc, rfl⟩ := List.mem_map.mp hx
  exact h c hc

theorem plain_ascii {c : Char} (hc : c ∈ plain) : c.toNat ≤ 0x7F := by
  have hle := hc.1.2
  rwa [char_le_iff] at hle

theorem encoded_of_unit {unit : Text} (hunit : unit ∈ oneOf plain + utf8) :
    Utf8.Encoded (codes unit) := by
  rcases (Language.mem_add _ _ _).mp hunit with ⟨c, hc, rfl⟩ | ⟨c, _, hcodes⟩
  · apply encoded_of_ascii
    intro d hd
    obtain rfl := List.mem_singleton.mp hd
    exact plain_ascii hc
  · exact hcodes ▸ Utf8.encoded_encode c

theorem escapes_ascii {e c : Char} (h : (e, c) ∈ escapes) : c.toNat ≤ 0x7F := by
  have hall : ∀ p ∈ escapes, p.2.toNat ≤ 0x7F := by decide
  exact hall _ h

theorem encoded_of_spells {raw s : Text} (h : Spells raw s) : Utf8.Encoded (codes s) := by
  induction h with
  | nil => exact Utf8.encoded_nil
  | copied hunit _ ih =>
    rw [codes_append]
    exact (encoded_of_unit hunit).append ih
  | escaped he _ ih =>
    exact (Utf8.encoded_singleton (escapes_ascii he)).append ih
  | unicode _ _ _ ih =>
    rw [codes_append, codes_encoded]
    exact (Utf8.encoded_encode _).append ih
  | surrogates _ _ _ _ _ _ ih =>
    rw [codes_append, codes_encoded]
    exact (Utf8.encoded_encode _).append ih

theorem controlDigits (c : Char) (hc : c.toNat ≤ 0x1f) :
    strtoul 0 ['0', '0', hexDigit (c.toNat / 16), hexDigit (c.toNat % 16)] = c.toNat := by
  have hall : ∀ n < 32, strtoul 0 ['0', '0', hexDigit (n / 16), hexDigit (n % 16)] = n := by
    decide
  exact hall _ (Nat.lt_succ_of_le hc)

theorem controlDigits_mem (n m : Nat) :
    ['0', '0', hexDigit n, hexDigit m] ∈ fourDigits := by
  have hdigit : ∀ c ∈ "0123456789abcdef".toList, c ∈ hexDigits := by
    intro c hc
    have hall : ("0123456789abcdef".toList.all fun d =>
        '0' ≤ d ∧ d ≤ '9' ∨ 'a' ≤ d ∧ d ≤ 'f') = true := by decide
    rcases of_decide_eq_true (List.all_eq_true.mp hall c hc) with h | h
    · exact Or.inl (Or.inl h)
    · exact Or.inr h
  have hzero := hdigit '0' (by decide)
  simp only [fourDigits, hex, cons_mem_oneOf_mul, cons_mem_oneOf, and_true]
  exact ⟨hzero, hzero, hdigit _ (hexDigit_mem n), hdigit _ (hexDigit_mem m)⟩

/-- What `dump` makes of a character: an escape, digits of a control character, or itself. -/
theorem escapeChar_cases (c : Char) :
    (∃ e, (e, c) ∈ escapes ∧ escapeChar c = ['\\', e]) ∨
      c.toNat ≤ 0x1f ∧
        escapeChar c = '\\' :: 'u' ::
          ['0', '0', hexDigit (c.toNat / 16), hexDigit (c.toNat % 16)] ∨
      (0x20 ≤ c.toNat ∧ c ≠ '"' ∧ c ≠ '\\') ∧ escapeChar c = [c] := by
  unfold escapeChar
  split
  case h_8 =>
    split
    case isTrue h => exact Or.inr (Or.inl ⟨h, rfl⟩)
    case isFalse h =>
      refine Or.inr (Or.inr ⟨⟨Nat.lt_of_not_le h, ?_, ?_⟩, rfl⟩) <;> assumption
  all_goals exact Or.inl ⟨_, by decide, rfl⟩

theorem encoded_ascii {c : Char} (hc : c.toNat ≤ 0x7F) : encoded c = [c] := by
  rw [encoded, Utf8.encode_ascii hc, chars, List.map_singleton, Char.ofNat_toNat]

theorem getStringFrom_escapeChar (c : Char) (raw : Text) :
    getStringFrom (escapeChar c ++ raw) = (getStringFrom raw).map (c :: ·) := by
  rcases escapeChar_cases c with ⟨e, he, heq⟩ | ⟨hc, heq⟩ | ⟨⟨_, _, hc⟩, heq⟩
  · obtain ⟨hu, hunescape⟩ := mem_escapes he
    rw [heq, List.cons_append, List.cons_append, List.nil_append, getStringFrom_escape hu,
      hunescape]
    rfl
  · rw [heq, List.cons_append, List.cons_append,
      getStringFrom_unicode (controlDigits_mem _ _), controlDigits c hc]
    simp only
    rw [if_neg (by omega), if_neg (by omega), toUnicode_scalar, encoded_ascii (by omega)]
    cases getStringFrom raw <;> rfl
  · rw [heq]
    exact getStringFrom_append (by simpa using Ne.symm hc) raw

/-- **Taking the escapes out undoes putting them in**, whatever the bytes are. -/
theorem getString_of_quote (s : String) : getString (quote s) = .ok s.toList := by
  have hbody : ∀ t : Text, getStringFrom (t.flatMap escapeChar) = .ok t := by
    intro t
    induction t with
    | nil => rfl
    | cons c rest ih => rw [List.flatMap_cons, getStringFrom_escapeChar, ih]; rfl
  rw [quote, getString, List.tail_cons, List.dropLast_concat]
  exact hbody s.toList

theorem escapeChar_utf8 {c : Char} (hc : 0x80 ≤ c.toNat) : escapeChar c = [c] := by
  rcases escapeChar_cases c with ⟨e, he, _⟩ | ⟨hc', _⟩ | ⟨_, heq⟩
  · exact absurd (escapes_ascii he) (by omega)
  · omega
  · exact heq

/-- One scalar value, escaped. -/
theorem spells_escape_unit {unit raw s : Text} {c : Char} (hunit : codes unit = Utf8.encode c)
    (h : Spells raw s) : Spells (unit.flatMap escapeChar ++ raw) (unit ++ s) := by
  by_cases hc : c.toNat ≤ 0x7F
  · have hsingle : unit = [c] := by
      rw [Utf8.encode_ascii hc, codes, List.map_eq_singleton_iff] at hunit
      obtain ⟨d, rfl, hd⟩ := hunit
      rw [Char.toNat_inj.mp hd]
    subst hsingle
    rw [List.flatMap_singleton]
    rcases escapeChar_cases c with ⟨e, he, heq⟩ | ⟨hcontrol, heq⟩ | ⟨⟨hle, hquote, hslash⟩, heq⟩
    · rw [heq]
      exact .escaped he h
    · rw [heq, ← encoded_ascii hc]
      exact .unicode (controlDigits_mem _ _) (controlDigits c hcontrol).symm h
    · rw [heq]
      refine .copied (Or.inl (cons_mem_oneOf.mpr ⟨⟨⟨?_, ?_⟩, ?_⟩, rfl⟩)) h
      · exact char_le_iff.mpr hle
      · exact char_le_iff.mpr hc
      · simp [hquote, hslash]
  · have hescape : unit.flatMap escapeChar = unit := by
      have hall : ∀ d ∈ unit, escapeChar d = [d] := by
        intro d hd
        apply escapeChar_utf8
        apply Utf8.le_of_mem_encode (c := c) (by omega)
        rw [← hunit]
        exact List.mem_map_of_mem hd
      rw [List.flatMap_congr hall, List.flatMap_singleton']
    rw [hescape]
    exact .copied (Or.inr ⟨c, by omega, hunit⟩) h

theorem spells_escape {t : Text} (h : Utf8.Encoded (codes t)) :
    Spells (t.flatMap escapeChar) t := by
  obtain ⟨scalars, h⟩ := h
  induction scalars generalizing t with
  | nil =>
    rw [List.flatMap_nil, codes, List.map_eq_nil_iff] at h
    subst h
    exact .nil
  | cons c scalars ih =>
    rw [List.flatMap_cons, codes, List.map_eq_append_iff] at h
    obtain ⟨unit, rest, rfl, hunit, hrest⟩ := h
    rw [List.flatMap_append]
    exact spells_escape_unit hunit (ih hrest)

/-- **Which dumped strings are tokens**: those whose bytes are UTF-8. -/
theorem quote_mem_string_iff (s : String) :
    quote s ∈ Grammar.string ↔ Utf8.Encoded (codes s.toList) := by
  rw [quote, Grammar.string, cons_mem_oneOf_mul, Language.mem_mul]
  constructor
  · rintro ⟨_, raw, hraw, last, ⟨q, hq, rfl⟩, heq⟩
    obtain ⟨rfl, _⟩ := List.append_inj' heq rfl
    have hspells := (getString_eq_ok_iff hraw).mp (getString_of_quote s)
    exact encoded_of_spells hspells
  · intro h
    exact ⟨rfl, _, mem_character_of_spells (spells_escape h), ['"'],
      cons_mem_oneOf.mpr ⟨rfl, rfl⟩, rfl⟩

/-- **A string token is read as the grammar says**: it has the value its characters spell,
    and no value if they spell none. -/
theorem getString_decides {lexeme : Text} (h : lexeme ∈ Grammar.string) (s : Text) :
    getString lexeme = .ok s ↔ ∃ raw, lexeme = '"' :: (raw ++ ['"']) ∧ Spells raw s := by
  obtain ⟨_, ⟨first, hfirst, rfl⟩, _, hbody, hlexeme⟩ := Language.mem_mul.mp h
  obtain ⟨raw, hraw, _, ⟨last, hlast, rfl⟩, rfl⟩ := Language.mem_mul.mp hbody
  obtain rfl := Set.mem_singleton_iff.mp hfirst
  obtain rfl := Set.mem_singleton_iff.mp hlast
  rw [← hlexeme, List.singleton_append, getString_eq_ok_iff hraw]
  constructor
  · intro hspells
    exact ⟨raw, rfl, hspells⟩
  · rintro ⟨raw', heq, hspells⟩
    rwa [(List.append_inj' (List.cons.inj heq).2 rfl).1]

/-- A pair of surrogates. -/
theorem getString_decides_surrogates :
    ∃ raw, "\"\\ud83d\\ude00\"".toList = '"' :: (raw ++ ['"']) ∧
      Spells raw ['\xf0', '\x9f', '\x98', '\x80'] := by
  have hhigh : ['d', '8', '3', 'd'] ∈ fourDigits := by
    simp [fourDigits, hex, hexDigits, char_le_iff]
  have hlow : ['d', 'e', '0', '0'] ∈ fourDigits := by
    simp [fourDigits, hex, hexDigits, char_le_iff]
  have hunit : ∀ {digits rest : Text}, digits ∈ fourDigits → rest ∈ character∗ →
      '\\' :: 'u' :: digits ++ rest ∈ character∗ := fun hdigits hrest =>
    mem_kstar_iff.mpr (Or.inr
      ⟨_, Or.inr (mem_escape.mpr (Or.inr ⟨_, hdigits, rfl⟩)), _, hrest, rfl⟩)
  have hlexeme : "\"\\ud83d\\ude00\"".toList ∈ Grammar.string := by
    have hraw := hunit hhigh (hunit hlow (Language.nil_mem_kstar character))
    exact cons_mem_oneOf_mul.mpr ⟨rfl, Language.mem_mul.mpr ⟨_, hraw, ['"'], ⟨'"', rfl, rfl⟩, rfl⟩⟩
  exact (getString_decides hlexeme _).mp (by decide +kernel)

/-- **Strings survive being quoted**, whatever bytes they have; but the scanner takes for
    a token only what is UTF-8. -/
theorem quote_survives (s : String) :
    getString (quote s) = .ok s.toList ∧
      (quote s ∈ Grammar.string ↔ Utf8.Encoded (codes s.toList)) :=
  ⟨getString_of_quote s, quote_mem_string_iff s⟩

end Lexer

end IsmDevice.Json
