import Mathlib.Data.List.Basic
import Mathlib.Tactic.SplitIfs

/-!
# UTF-8

A sequence of bytes is UTF-8 if it is the encoding of some scalar values.  The
encoding of one value is that of core, `String.utf8EncodeChar`; here it is read as
arithmetic on the bytes, and told by the ranges its bytes are in (`sequence_iff`),
which is how a scanner sees it.
-/

namespace Utf8

/-- The bytes of a scalar value. -/
def encode (c : Char) : List Nat := (String.utf8EncodeChar c).map UInt8.toNat

/-- The bytes are the encoding of a list of scalar values. -/
def Encoded (bytes : List Nat) : Prop := ∃ scalars : List Char, bytes = scalars.flatMap encode

/-! ### One scalar value -/

theorem scalar_range (c : Char) :
    c.toNat < 0xD800 ∨ 0xDFFF < c.toNat ∧ c.toNat < 0x110000 :=
  c.valid

/-- Every number outside the surrogates is the number of a scalar value. -/
theorem exists_scalar {n : Nat} (hn : n < 0xD800 ∨ 0xDFFF < n ∧ n < 0x110000) :
    ∃ c : Char, c.toNat = n := by
  exact ⟨Char.ofNatAux n hn, rfl⟩

/-- The encoding as arithmetic. -/
theorem encode_eq (c : Char) :
    encode c =
      if c.toNat ≤ 0x7F then [c.toNat]
      else if c.toNat ≤ 0x7FF then [0xC0 + c.toNat / 64, 0x80 + c.toNat % 64]
      else if c.toNat ≤ 0xFFFF then
        [0xE0 + c.toNat / 4096, 0x80 + c.toNat / 64 % 64, 0x80 + c.toNat % 64]
      else
        [0xF0 + c.toNat / 262144, 0x80 + c.toNat / 4096 % 64, 0x80 + c.toNat / 64 % 64,
          0x80 + c.toNat % 64] := by
  have hc := scalar_range c
  unfold encode String.utf8EncodeChar
  simp only [Char.toNat_val]
  generalize c.toNat = v at hc ⊢
  split_ifs <;> simp only [List.map_cons, List.map_nil, UInt8.toNat_ofNat']
  all_goals
    simp only [List.cons.injEq, and_true]
    omega

def Tail (b : Nat) : Prop := 0x80 ≤ b ∧ b ≤ 0xBF

/-- The byte sequences of one scalar value: overlong forms, surrogates and values
    beyond U+10FFFF are cut off by the range of the second byte. -/
inductive Sequence : List Nat → Prop where
  | one {a : Nat} (ha : a ≤ 0x7F) : Sequence [a]
  | two {a b : Nat} (ha : 0xC2 ≤ a ∧ a ≤ 0xDF) (hb : Tail b) : Sequence [a, b]
  | three {a b c : Nat} (ha : 0xE0 ≤ a ∧ a ≤ 0xEF) (hb : Tail b) (hc : Tail c)
      (hlong : a = 0xE0 → 0xA0 ≤ b) (hsurrogate : a = 0xED → b ≤ 0x9F) : Sequence [a, b, c]
  | four {a b c d : Nat} (ha : 0xF0 ≤ a ∧ a ≤ 0xF4) (hb : Tail b) (hc : Tail c) (hd : Tail d)
      (hlong : a = 0xF0 → 0x90 ≤ b) (hlarge : a = 0xF4 → b ≤ 0x8F) : Sequence [a, b, c, d]

theorem sequence_pair {a b : Nat} : Sequence [a, b] ↔ (0xC2 ≤ a ∧ a ≤ 0xDF) ∧ Tail b := by
  constructor
  · rintro (_ | ⟨ha, hb⟩)
    exact ⟨ha, hb⟩
  · exact fun h => .two h.1 h.2

theorem sequence_triple {a b c : Nat} :
    Sequence [a, b, c] ↔
      (0xE0 ≤ a ∧ a ≤ 0xEF) ∧ Tail b ∧ Tail c ∧ (a = 0xE0 → 0xA0 ≤ b) ∧ (a = 0xED → b ≤ 0x9F) := by
  constructor
  · rintro (_ | _ | ⟨ha, hb, hc, hlong, hsurrogate⟩)
    exact ⟨ha, hb, hc, hlong, hsurrogate⟩
  · rintro ⟨ha, hb, hc, hlong, hsurrogate⟩
    exact .three ha hb hc hlong hsurrogate

theorem sequence_quadruple {a b c d : Nat} :
    Sequence [a, b, c, d] ↔
      (0xF0 ≤ a ∧ a ≤ 0xF4) ∧ Tail b ∧ Tail c ∧ Tail d ∧ (a = 0xF0 → 0x90 ≤ b) ∧
        (a = 0xF4 → b ≤ 0x8F) := by
  constructor
  · rintro (_ | _ | _ | ⟨ha, hb, hc, hd, hlong, hlarge⟩)
    exact ⟨ha, hb, hc, hd, hlong, hlarge⟩
  · rintro ⟨ha, hb, hc, hd, hlong, hlarge⟩
    exact .four ha hb hc hd hlong hlarge

theorem sequence_encode (c : Char) : Sequence (encode c) := by
  have hc := scalar_range c
  rw [encode_eq]
  generalize c.toNat = v at hc ⊢
  split_ifs with h1 h2 h3
  · exact .one h1
  · refine .two ?_ ?_ <;> unfold Tail at * <;> omega
  · refine .three ?_ ?_ ?_ ?_ ?_ <;> unfold Tail at * <;> omega
  · refine .four ?_ ?_ ?_ ?_ ?_ ?_ <;> unfold Tail at * <;> omega

theorem exists_encode {bytes : List Nat} (h : Sequence bytes) : ∃ c, encode c = bytes := by
  cases h with
  | @one a ha =>
    obtain ⟨v, hv⟩ := exists_scalar (n := a) (by omega)
    refine ⟨v, ?_⟩
    rw [encode_eq, hv, if_pos ha]
  | @two a b ha hb =>
    unfold Tail at hb
    obtain ⟨v, hv⟩ := exists_scalar (n := (a - 0xC0) * 64 + (b - 0x80)) (by omega)
    refine ⟨v, ?_⟩
    rw [encode_eq, hv, if_neg (by omega), if_pos (by omega)]
    have h1 : 0xC0 + ((a - 0xC0) * 64 + (b - 0x80)) / 64 = a := by omega
    have h2 : 0x80 + ((a - 0xC0) * 64 + (b - 0x80)) % 64 = b := by omega
    rw [h1, h2]
  | @three a b c ha hb hc hlong hsurrogate =>
    unfold Tail at hb hc
    generalize hn : (a - 0xE0) * 4096 + (b - 0x80) * 64 + (c - 0x80) = n
    obtain ⟨v, hv⟩ := exists_scalar (n := n) (by omega)
    refine ⟨v, ?_⟩
    rw [encode_eq, hv, if_neg (by omega), if_neg (by omega), if_pos (by omega)]
    have h1 : 0xE0 + n / 4096 = a := by omega
    have h2 : 0x80 + n / 64 % 64 = b := by omega
    have h3 : 0x80 + n % 64 = c := by omega
    rw [h1, h2, h3]
  | @four a b c d ha hb hc hd hlong hlarge =>
    unfold Tail at hb hc hd
    generalize hn : (a - 0xF0) * 262144 + (b - 0x80) * 4096 + (c - 0x80) * 64 + (d - 0x80) = n
    obtain ⟨v, hv⟩ := exists_scalar (n := n) (by omega)
    refine ⟨v, ?_⟩
    rw [encode_eq, hv, if_neg (by omega), if_neg (by omega), if_neg (by omega)]
    have h1 : 0xF0 + n / 262144 = a := by omega
    have h2 : 0x80 + n / 4096 % 64 = b := by omega
    have h3 : 0x80 + n / 64 % 64 = c := by omega
    have h4 : 0x80 + n % 64 = d := by omega
    rw [h1, h2, h3, h4]

/-- **The encodings of scalar values**, told by the ranges of their bytes. -/
theorem sequence_iff {bytes : List Nat} : Sequence bytes ↔ ∃ c, encode c = bytes := by
  constructor
  · exact exists_encode
  · rintro ⟨c, rfl⟩
    exact sequence_encode c

theorem encode_ascii {c : Char} (hc : c.toNat ≤ 0x7F) : encode c = [c.toNat] := by
  rw [encode_eq, if_pos hc]

/-- Only ASCII takes one byte. -/
theorem two_le_length_encode {c : Char} : 2 ≤ (encode c).length ↔ 0x80 ≤ c.toNat := by
  rw [encode_eq]
  split_ifs <;> simp only [List.length_cons, List.length_nil] <;> omega

theorem length_le_of_sequence {bytes : List Nat} (h : Sequence bytes) : bytes.length ≤ 4 := by
  cases h <;> simp

theorem encode_ne_nil (c : Char) : encode c ≠ [] := by
  intro h
  have hseq := h ▸ sequence_encode c
  cases hseq

/-- Every byte after the first is a tail. -/
theorem tail_of_encode {c : Char} {first x : Nat} {rest : List Nat}
    (h : encode c = first :: rest) (hx : x ∈ rest) : Tail x := by
  have hseq := h ▸ sequence_encode c
  cases hseq with
  | one => simp at hx
  | two _ hb =>
    obtain rfl := List.mem_singleton.mp hx
    exact hb
  | three _ hb hc =>
    rcases List.mem_cons.mp hx with rfl | hx
    · exact hb
    · obtain rfl := List.mem_singleton.mp hx
      exact hc
  | four _ hb hc hd =>
    simp only [List.mem_cons, List.not_mem_nil, or_false] at hx
    rcases hx with rfl | rfl | rfl
    · exact hb
    · exact hc
    · exact hd

/-- The first byte is no tail. -/
theorem not_tail_of_sequence {first : Nat} {rest : List Nat} (h : Sequence (first :: rest)) :
    ¬ Tail first := by
  intro htail
  have hlow := htail.1
  have hhigh := htail.2
  cases h with
  | one ha => omega
  | two ha => omega
  | three ha => omega
  | four ha => omega

/-- Beyond ASCII, no byte is ASCII. -/
theorem le_of_mem_encode {c : Char} {x : Nat} (hc : 0x80 ≤ c.toNat) (hx : x ∈ encode c) :
    0x80 ≤ x := by
  have hseq := sequence_encode c
  cases hbytes : encode c with
  | nil => exact absurd hbytes (encode_ne_nil c)
  | cons first rest =>
    rw [hbytes] at hx hseq
    rcases List.mem_cons.mp hx with rfl | hx
    · have hlength := two_le_length_encode.mpr hc
      rw [hbytes] at hlength
      cases hseq with
      | one => simp at hlength
      | two ha => omega
      | three ha => omega
      | four ha => omega
    · exact (tail_of_encode hbytes hx).1

/-- A value whose first byte is ASCII is that byte. -/
theorem encode_eq_singleton {c : Char} {first : Nat} {rest : List Nat} (hfirst : first ≤ 0x7F)
    (h : encode c = first :: rest) : rest = [] := by
  have hseq := h ▸ sequence_encode c
  cases hseq with
  | one => rfl
  | two ha => omega
  | three ha => omega
  | four ha => omega

/-! ### Sequences of scalar values -/

theorem encoded_nil : Encoded [] := ⟨[], rfl⟩

theorem encoded_encode (c : Char) : Encoded (encode c) := ⟨[c], by simp⟩

theorem Encoded.append {a b : List Nat} (ha : Encoded a) (hb : Encoded b) : Encoded (a ++ b) := by
  obtain ⟨cs, rfl⟩ := ha
  obtain ⟨ds, rfl⟩ := hb
  exact ⟨cs ++ ds, List.flatMap_append.symm⟩

theorem encoded_singleton {x : Nat} (hx : x ≤ 0x7F) : Encoded [x] := by
  obtain ⟨c, hc⟩ := exists_encode (Sequence.one hx)
  exact hc ▸ encoded_encode c

/-- ASCII bytes stand for themselves, wherever they are. -/
theorem encoded_of_ascii {bytes : List Nat} (h : ∀ x ∈ bytes, x ≤ 0x7F) : Encoded bytes := by
  induction bytes with
  | nil => exact encoded_nil
  | cons x rest ih =>
    exact (encoded_singleton (h x List.mem_cons_self)).append
      (ih fun y hy => h y (List.mem_cons_of_mem _ hy))

/-- **ASCII separates**: bytes on the two sides of an ASCII byte are encoded
    independently of each other. -/
theorem encoded_append_ascii {a b : List Nat} {x : Nat} (hx : x ≤ 0x7F) :
    Encoded (a ++ x :: b) ↔ Encoded a ∧ Encoded b := by
  constructor
  · rintro ⟨scalars, h⟩
    induction scalars generalizing a with
    | nil => simp at h
    | cons c scalars ih =>
      rw [List.flatMap_cons, List.append_eq_append_iff] at h
      rcases h with ⟨more, hc, hmore⟩ | ⟨rest, ha, hrest⟩
      · cases more with
        | nil =>
          obtain ⟨_, hb⟩ := @ih [] hmore
          rw [List.append_nil] at hc
          exact ⟨hc ▸ encoded_encode c, hb⟩
        | cons y more =>
          -- the encoding of `c` reaches `x`, which can only be its first byte
          obtain ⟨rfl, rfl⟩ := List.cons.inj hmore
          cases a with
          | nil =>
            rw [encode_eq_singleton hx hc]
            exact ⟨encoded_nil, scalars, rfl⟩
          | cons first a =>
            have hx' := tail_of_encode hc (List.mem_append_right a List.mem_cons_self)
            exact absurd hx (Nat.not_le_of_gt hx'.1)
      · obtain ⟨hrest', hb⟩ := ih hrest.symm
        exact ⟨ha ▸ (encoded_encode c).append hrest', hb⟩
  · rintro ⟨ha, hb⟩
    exact ha.append ((encoded_singleton hx).append hb)

theorem encoded_ascii_append {x : List Nat} (hx : ∀ y ∈ x, y ≤ 0x7F) (b : List Nat) :
    Encoded (x ++ b) ↔ Encoded b := by
  induction x with
  | nil => rw [List.nil_append]
  | cons y x ih =>
    obtain ⟨hy, hx⟩ := List.forall_mem_cons.mp hx
    have hsplit := @encoded_append_ascii [] (x ++ b) y hy
    rw [← ih hx]
    exact hsplit.trans (and_iff_right encoded_nil)

theorem encoded_append_ascii_append {a x b : List Nat} (hne : x ≠ []) (hx : ∀ y ∈ x, y ≤ 0x7F) :
    Encoded (a ++ (x ++ b)) ↔ Encoded a ∧ Encoded b := by
  cases x with
  | nil => exact absurd rfl hne
  | cons y x =>
    obtain ⟨hy, hx⟩ := List.forall_mem_cons.mp hx
    rw [← encoded_ascii_append hx b]
    exact encoded_append_ascii hy

/-! ### Parts of an encoded text -/

theorem not_tail_of_encoded {first : Nat} {rest : List Nat} (h : Encoded (first :: rest)) :
    ¬ Tail first := by
  obtain ⟨scalars, h⟩ := h
  cases scalars with
  | nil => cases h
  | cons c scalars =>
    rw [List.flatMap_cons] at h
    have hseq := sequence_encode c
    cases hbytes : encode c with
    | nil => exact absurd hbytes (encode_ne_nil c)
    | cons a more =>
      rw [hbytes, List.cons_append] at h
      rw [hbytes, ← (List.cons.inj h).1] at hseq
      exact not_tail_of_sequence hseq

/-- **Where an encoded text can be cut**: what is behind a position is encoded unless a
    tail is there. -/
theorem encoded_drop_iff {bytes : List Nat} (h : Encoded bytes) (n : Nat) :
    Encoded (bytes.drop n) ↔ ∀ b, bytes[n]? = some b → ¬ Tail b := by
  constructor
  · intro hdrop b hb
    obtain ⟨hn, rfl⟩ := List.getElem?_eq_some_iff.mp hb
    rw [List.drop_eq_getElem_cons hn] at hdrop
    exact not_tail_of_encoded hdrop
  · obtain ⟨scalars, rfl⟩ := h
    induction scalars generalizing n with
    | nil =>
      intro _
      rw [List.flatMap_nil, List.drop_nil]
      exact encoded_nil
    | cons c scalars ih =>
      intro hcut
      rw [List.flatMap_cons] at hcut ⊢
      rcases Nat.lt_or_ge n (encode c).length with hlt | hge
      · -- the position is in the first sequence, where only the first byte is no tail
        cases n with
        | zero => exact (encoded_encode c).append ⟨scalars, rfl⟩
        | succ n =>
          cases hbytes : encode c with
          | nil => exact absurd hbytes (encode_ne_nil c)
          | cons first rest =>
            rw [hbytes] at hlt hcut
            have hn : n < rest.length := Nat.lt_of_succ_lt_succ hlt
            refine absurd (tail_of_encode hbytes (List.getElem_mem hn)) (hcut rest[n] ?_)
            rw [List.cons_append, List.getElem?_cons_succ, List.getElem?_append_left hn,
              List.getElem?_eq_getElem hn]
      · rw [List.drop_append, List.drop_eq_nil_of_le hge, List.nil_append]
        rw [List.getElem?_append_right hge] at hcut
        exact ih _ hcut

end Utf8
