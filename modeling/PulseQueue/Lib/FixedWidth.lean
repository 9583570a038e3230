import Mathlib

/-!
# Fixed-width decimal text

`pad w n` is `n` written with exactly `w` decimal digits. Texts of one width are ordered like the
numbers they write (`pad_lt`), and `value` reads them back (`value_pad`). Concatenations are compared
by `lt_append_of_lt` (the first differing field decides) and core's `List.append_left_lt`. ASCII texts
are ordered bytewise as they are characterwise (`utf8_lt`).
-/

namespace FixedWidth

/-- The digit of the last decimal place of `n`. -/
def digit (n : Nat) : Char := Char.ofNat (48 + n % 10)

/-- `n` with exactly `w` digits, zero-padded on the left. -/
def pad : Nat → Nat → List Char
  | 0, _ => []
  | w + 1, n => pad w (n / 10) ++ [digit n]

/-- The number a digit string writes. -/
def value (l : List Char) : Nat := l.foldl (fun acc c => 10 * acc + (c.toNat - 48)) 0

theorem toNat_digit (n : Nat) : (digit n).toNat = 48 + n % 10 := by
  have h : n % 10 < 10 := Nat.mod_lt n (by decide)
  unfold digit
  generalize n % 10 = d at h
  interval_cases d <;> rfl

@[simp] theorem length_pad (w n : Nat) : (pad w n).length = w := by
  induction w generalizing n with
  | zero => rfl
  | succ w ih => simp [pad, ih]

theorem value_append_digit (l : List Char) (n : Nat) :
    value (l ++ [digit n]) = 10 * value l + n % 10 := by
  simp only [value, List.foldl_append, List.foldl_cons, List.foldl_nil, toNat_digit]
  omega

theorem value_pad {w n : Nat} (h : n < 10 ^ w) : value (pad w n) = n := by
  induction w generalizing n with
  | zero =>
    have : n = 0 := by simpa using h
    subst this
    rfl
  | succ w ih =>
    have hq : n / 10 < 10 ^ w := by
      rw [Nat.div_lt_iff_lt_mul (by decide)]
      simpa [Nat.pow_succ] using h
    rw [pad, value_append_digit, ih hq]
    omega

theorem digit_lt {n m : Nat} (h : n % 10 < m % 10) : digit n < digit m := by
  have : (digit n).toNat < (digit m).toNat := by
    rw [toNat_digit, toNat_digit]
    omega
  exact this

/-- The first of two equally long parts that differ decides the order. -/
theorem lt_append_of_lt : ∀ {l₁ l₂ : List Char} (s₁ s₂ : List Char), l₁.length = l₂.length →
    l₁ < l₂ → l₁ ++ s₁ < l₂ ++ s₂
  | [], [], _, _, _, h => absurd h (List.not_lt_nil _)
  | a :: l₁, b :: l₂, s₁, s₂, hl, h => by
    rw [List.cons_append, List.cons_append, List.cons_lt_cons_iff]
    rcases List.cons_lt_cons_iff.1 h with hab | ⟨rfl, ht⟩
    · exact .inl hab
    · exact .inr ⟨rfl, lt_append_of_lt s₁ s₂ (by simpa using hl) ht⟩

theorem pad_lt {w n m : Nat} (h : n < m) (hm : m < 10 ^ w) : pad w n < pad w m := by
  induction w generalizing n m with
  | zero =>
    have : m = 0 := by simpa using hm
    omega
  | succ w ih =>
    have hq : m / 10 < 10 ^ w := by
      rw [Nat.div_lt_iff_lt_mul (by decide)]
      simpa [Nat.pow_succ] using hm
    rw [pad, pad]
    -- the leading digits differ, or they agree and the last digit decides
    rcases Nat.lt_or_ge (n / 10) (m / 10) with hlt | hge
    · exact lt_append_of_lt _ _ (by simp) (ih hlt hq)
    · have he : n / 10 = m / 10 := by omega
      rw [he]
      apply List.append_left_lt
      rw [List.cons_lt_cons_iff]
      exact .inl (digit_lt (by omega))

/-! ## Bytes -/

/-- The UTF-8 bytes of a text. -/
def utf8 (l : List Char) : List UInt8 := l.flatMap String.utf8EncodeChar

def Ascii (l : List Char) : Prop := ∀ c ∈ l, c.val ≤ 127

theorem Ascii.cons {c : Char} {l : List Char} (h : Ascii (c :: l)) : c.val ≤ 127 ∧ Ascii l :=
  ⟨h c List.mem_cons_self, fun d hd => h d (List.mem_cons_of_mem _ hd)⟩

theorem Ascii.append {l l' : List Char} (h : Ascii l) (h' : Ascii l') : Ascii (l ++ l') := by
  intro c hc
  exact (List.mem_append.1 hc).elim (h c) (h' c)

theorem Ascii.sep {l : List Char} {c : Char} (hc : c.val ≤ 127) (h : Ascii l) : Ascii (c :: l) := by
  intro d hd
  rcases List.mem_cons.1 hd with rfl | hd
  · exact hc
  · exact h d hd

theorem utf8_cons {c : Char} {l : List Char} (h : c.val ≤ 127) :
    utf8 (c :: l) = c.val.toUInt8 :: utf8 l := by
  rw [utf8, List.flatMap_cons, String.utf8EncodeChar_eq_singleton (Char.utf8Size_eq_one_iff.2 h)]
  rfl

theorem toUInt8_lt {c d : Char} (hc : c.val ≤ 127) (hd : d.val ≤ 127) :
    c.val.toUInt8 < d.val.toUInt8 ↔ c < d := by
  have hc' : c.val.toNat ≤ 127 := hc
  have hd' : d.val.toNat ≤ 127 := hd
  rw [UInt8.lt_iff_toNat_lt, UInt32.toNat_toUInt8, UInt32.toNat_toUInt8,
    Nat.mod_eq_of_lt (by omega), Nat.mod_eq_of_lt (by omega)]
  exact Iff.rfl

theorem toUInt8_inj {c d : Char} (hc : c.val ≤ 127) (hd : d.val ≤ 127) :
    c.val.toUInt8 = d.val.toUInt8 ↔ c = d := by
  have hc' : c.val.toNat ≤ 127 := hc
  have hd' : d.val.toNat ≤ 127 := hd
  rw [← UInt8.toNat_inj, UInt32.toNat_toUInt8, UInt32.toNat_toUInt8,
    Nat.mod_eq_of_lt (by omega), Nat.mod_eq_of_lt (by omega), UInt32.toNat_inj]
  exact Char.ext_iff.symm

/-- ASCII texts are ordered bytewise as they are characterwise. -/
theorem utf8_lt : ∀ {l l' : List Char}, Ascii l → Ascii l' → (utf8 l < utf8 l' ↔ l < l')
  | _, [], _, _ => by simp [utf8, List.not_lt_nil]
  | [], c :: l', _, h' => by
    rw [utf8_cons h'.cons.1]
    simp [utf8]
  | c :: l, d :: l', h, h' => by
    rw [utf8_cons h.cons.1, utf8_cons h'.cons.1, List.cons_lt_cons_iff, List.cons_lt_cons_iff,
      toUInt8_lt h.cons.1 h'.cons.1, toUInt8_inj h.cons.1 h'.cons.1, utf8_lt h.cons.2 h'.cons.2]

theorem ascii_pad (w n : Nat) : Ascii (pad w n) := by
  induction w generalizing n with
  | zero => simp [Ascii, pad]
  | succ w ih =>
    intro c hc
    rw [pad, List.mem_append, List.mem_singleton] at hc
    rcases hc with hc | rfl
    · exact ih _ c hc
    · have h := toNat_digit n
      have : (digit n).val.toNat ≤ 127 := by
        rw [show (digit n).val.toNat = (digit n).toNat from rfl]
        omega
      exact this

end FixedWidth
