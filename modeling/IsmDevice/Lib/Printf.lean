import Mathlib.Data.List.TakeWhile

/-!
# Formatted output without arguments

What a `printf` into a buffer of bounded size leaves there when the format is
followed by no argument.  Ordinary characters are copied and `%%` gives a `%`.
Any other conversion has no argument to convert or is malformed: the C standard
leaves the behaviour undefined, so the rest of the output is a parameter.
-/

namespace Printf

/-- `s` as C code sees it: up to the first NUL. -/
def cString (s : List Char) : List Char := s.takeWhile (· ≠ '\x00')

/-- The characters produced by a format without arguments; `undefined` is what
    an undefined conversion makes of the rest of the format. -/
def format (undefined : List Char → List Char) : List Char → List Char
  | [] => []
  | '%' :: '%' :: rest => '%' :: format undefined rest
  | '%' :: rest => undefined rest
  | c :: rest => c :: format undefined rest

/-- The C string in a buffer of `size` characters after the format has been
    written to it, cut off to leave room for the closing NUL. -/
def boundedFormat (undefined : List Char → List Char) (size : Nat) (fmt : List Char) :
    List Char :=
  cString ((format undefined (cString fmt)).take (size - 1))

theorem cString_eq_self {s : List Char} (h : '\x00' ∉ s) : cString s = s := by
  apply List.takeWhile_eq_self_iff.mpr
  intro c hc
  apply decide_eq_true
  rintro rfl
  exact h hc

theorem length_cString_le (s : List Char) : (cString s).length ≤ s.length :=
  (List.takeWhile_prefix _).length_le

theorem format_eq_self (undefined : List Char → List Char) {s : List Char} (h : '%' ∉ s) :
    format undefined s = s := by
  induction s with
  | nil => rfl
  | cons c rest ih =>
    have hc : c ≠ '%' := fun heq => h (heq ▸ List.mem_cons_self)
    have hrest : '%' ∉ rest := fun hm => h (List.mem_cons_of_mem c hm)
    rw [format.eq_4 undefined c rest (fun _ heq _ => hc heq) hc, ih hrest]

theorem length_format_lt {s : List Char} (h : '%' ∈ s) :
    (format (fun _ => []) s).length < s.length := by
  have hle : ∀ s : List Char, (format (fun _ => []) s).length ≤ s.length := by
    intro s
    fun_induction format (fun _ => []) s with
    | case1 => exact Nat.le_refl _
    | case2 rest ih => simp only [List.length_cons]; omega
    | case3 rest _ => simp
    | case4 c rest _ _ ih => simp only [List.length_cons]; omega
  fun_induction format (fun _ => []) s with
  | case1 => exact absurd h List.not_mem_nil
  | case2 rest ih =>
    -- `%%` is two characters of the format and one of the output
    have := hle rest
    simp only [List.length_cons]
    omega
  | case3 rest _ => simp
  | case4 c rest _ hc ih =>
    have hrest : '%' ∈ rest := by
      rcases List.mem_cons.mp h with heq | hm
      · exact absurd heq.symm hc
      · exact hm
    have := ih hrest
    simp only [List.length_cons]
    omega

/-- **When formatting is copying.**  A text without NULs, used as a format,
    arrives unchanged whatever undefined conversions do, exactly if it contains
    no `%` and is shorter than the buffer. -/
theorem boundedFormat_eq_self_iff {size : Nat} (hsize : 0 < size) {s : List Char}
    (hnul : '\x00' ∉ s) :
    (∀ undefined, boundedFormat undefined size s = s) ↔ '%' ∉ s ∧ s.length < size := by
  unfold boundedFormat
  rw [cString_eq_self hnul]
  constructor
  · intro h
    have hsilent : s.length ≤ ((format (fun _ => []) s).take (size - 1)).length := by
      calc s.length = (cString ((format (fun _ => []) s).take (size - 1))).length := by
            rw [h fun _ => []]
        _ ≤ ((format (fun _ => []) s).take (size - 1)).length := length_cString_le _
    rw [List.length_take] at hsilent
    constructor
    · intro hpercent
      have := length_format_lt hpercent
      omega
    · omega
  · rintro ⟨hpercent, hlen⟩ undefined
    rw [format_eq_self undefined hpercent, List.take_of_length_le (by omega),
      cString_eq_self hnul]

end Printf
