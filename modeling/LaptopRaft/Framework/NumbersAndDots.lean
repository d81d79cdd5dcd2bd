import Mathlib.Data.List.Basic
import Mathlib.Data.Nat.Notation
import Mathlib.Tactic.IntervalCases

/-!
# Numbers and dots

The notation for IPv4 addresses that `inet_addr` documents: one to four numbers with dots between
them, each decimal, octal with a leading `0`, or hexadecimal with a leading `0x`.  Each number but
the last is one byte of the address; the last makes up the bytes that are left.

* `readNumber` reads a number, `Number` are its three forms.  A number that is written in decimal
  is read back (`readNumber_toDigits`), and so are four of them (`readAddress_dotted`).
* Digits make the same number in two bases only if at most one of them counts
  (`ofDigitChars_eq_iff`).
-/

namespace LaptopRaft

variable {c : Char} {cs ds : List Char} {n : ℕ}

/-! ## Numbers -/

def isOctDigit (c : Char) : Bool := '0' ≤ c && c ≤ '7'

def isHexDigit (c : Char) : Bool := c.isDigit || ('a' ≤ c && c ≤ 'f') || ('A' ≤ c && c ≤ 'F')

/-- What a hexadecimal digit stands for. -/
def hexValue (c : Char) : ℕ :=
  if c.isDigit then c.toNat - 48 else if 'a' ≤ c then c.toNat - 87 else c.toNat - 55

def ofHexChars (ds : List Char) : ℕ := ds.foldl (fun n c => 16 * n + hexValue c) 0

/-- Reads a number. -/
def readNumber (cs : List Char) : Option ℕ :=
  match cs with
  | '0' :: 'x' :: ds | '0' :: 'X' :: ds =>
      if ds ≠ [] ∧ ds.all isHexDigit then some (ofHexChars ds) else none
  | '0' :: ds => if ds.all isOctDigit then some (Nat.ofDigitChars 8 ds 0) else none
  | ds => if ds ≠ [] ∧ ds.all Char.isDigit then some (Nat.ofDigitChars 10 ds 0) else none

/-- The forms of a number. -/
inductive Number : List Char → ℕ → Prop
  | hexadecimal {x : Char} {ds : List Char} (hx : x = 'x' ∨ x = 'X') (hne : ds ≠ [])
      (hdigits : ∀ c ∈ ds, isHexDigit c) : Number ('0' :: x :: ds) (ofHexChars ds)
  | octal {ds : List Char} (hdigits : ∀ c ∈ ds, isOctDigit c) :
      Number ('0' :: ds) (Nat.ofDigitChars 8 ds 0)
  | decimal {ds : List Char} (hne : ds ≠ []) (hfirst : ds.head? ≠ some '0')
      (hdigits : ∀ c ∈ ds, c.isDigit) : Number ds (Nat.ofDigitChars 10 ds 0)

lemma number_of_readNumber (h : readNumber cs = some n) : Number cs n := by
  unfold readNumber at h
  split at h <;> rw [Option.ite_none_right_eq_some, Option.some.injEq] at h
  · obtain ⟨⟨hne, hdigits⟩, rfl⟩ := h
    exact .hexadecimal (Or.inl rfl) hne (List.all_eq_true.1 hdigits)
  · obtain ⟨⟨hne, hdigits⟩, rfl⟩ := h
    exact .hexadecimal (Or.inr rfl) hne (List.all_eq_true.1 hdigits)
  · obtain ⟨hdigits, rfl⟩ := h
    exact .octal (List.all_eq_true.1 hdigits)
  · rename_i hoctal
    obtain ⟨⟨hne, hdigits⟩, rfl⟩ := h
    refine .decimal hne (fun hfirst => ?_) (List.all_eq_true.1 hdigits)
    obtain ⟨ds, rfl⟩ := List.head?_eq_some_iff.1 hfirst
    exact hoctal ds rfl

lemma readNumber_decimal (hne : ds ≠ []) (hfirst : ds.head? ≠ some '0')
    (hdigits : ∀ c ∈ ds, c.isDigit) : readNumber ds = some (Nat.ofDigitChars 10 ds 0) := by
  unfold readNumber
  split
  · exact absurd rfl hfirst
  · exact absurd rfl hfirst
  · exact absurd rfl hfirst
  · rw [if_pos ⟨hne, List.all_eq_true.2 hdigits⟩]

/-- A numeral without a superfluous zero. -/
lemma head?_toDigits_ne_zero (hn : n ≠ 0) : (Nat.toDigits 10 n).head? ≠ some '0' := by
  induction n using Nat.strongRecOn with
  | ind n ih =>
      rw [Nat.toDigits_eq_if (by decide)]
      split
      · rename_i hlt
        rw [List.head?_cons, Ne, Option.some.injEq]
        revert hn
        interval_cases n <;> decide
      · rename_i hge
        rw [List.head?_append_of_ne_nil _ Nat.toDigits_ne_nil]
        exact ih (n / 10) (by omega) (by omega)

/-- **A number that is written in decimal is read back.** -/
theorem readNumber_toDigits (n : ℕ) : readNumber (Nat.toDigits 10 n) = some n := by
  by_cases hn : n = 0
  · rw [hn, Nat.toDigits_zero]
    decide
  · rw [readNumber_decimal Nat.toDigits_ne_nil (head?_toDigits_ne_zero hn) fun c hc =>
      Nat.isDigit_of_mem_toDigits (by decide) (by decide) hc, Nat.ofDigitChars_ten_toDigits]

/-! ## Addresses -/

/-- The address some numbers make up. -/
def combine : List ℕ → Option ℕ
  | [a] => if a < 2 ^ 32 then some a else none
  | [a, b] => if a < 2 ^ 8 ∧ b < 2 ^ 24 then some (a * 2 ^ 24 + b) else none
  | [a, b, c] =>
      if a < 2 ^ 8 ∧ b < 2 ^ 8 ∧ c < 2 ^ 16 then some (a * 2 ^ 24 + b * 2 ^ 16 + c) else none
  | [a, b, c, d] =>
      if a < 2 ^ 8 ∧ b < 2 ^ 8 ∧ c < 2 ^ 8 ∧ d < 2 ^ 8 then
        some (a * 2 ^ 24 + b * 2 ^ 16 + c * 2 ^ 8 + d)
      else none
  | _ => none

lemma length_of_combine {ms : List ℕ} {v : ℕ} (h : combine ms = some v) : ms.length ≤ 4 := by
  unfold combine at h
  split at h
  case h_5 => cases h
  all_goals simp

lemma combine_four {a b c d v : ℕ} : combine [a, b, c, d] = some v ↔
    (a < 2 ^ 8 ∧ b < 2 ^ 8 ∧ c < 2 ^ 8 ∧ d < 2 ^ 8) ∧
      a * 2 ^ 24 + b * 2 ^ 16 + c * 2 ^ 8 + d = v := by
  rw [combine, Option.ite_none_right_eq_some, Option.some.injEq]

/-- Four numbers are told from the address they make up. -/
lemma combine_four_inj {a b c d a' b' c' d' v : ℕ} (h : combine [a, b, c, d] = some v)
    (h' : combine [a', b', c', d'] = some v) : [a, b, c, d] = [a', b', c', d'] := by
  obtain ⟨hbytes, hv⟩ := combine_four.1 h
  obtain ⟨hbytes', hv'⟩ := combine_four.1 h'
  simp only [List.cons.injEq, and_true]
  omega

/-- Reads an address. -/
def readAddress (cs : List Char) : Option ℕ := ((cs.splitOn '.').mapM readNumber).bind combine

/-- Four numbers in decimal, with dots between them. -/
def dotted (a b c d : ℕ) : List Char := ['.'].intercalate ([a, b, c, d].map (Nat.toDigits 10))

/-- **Four numbers are read back.** -/
theorem readAddress_dotted (a b c d : ℕ) : readAddress (dotted a b c d) = combine [a, b, c, d] := by
  have hsplit : (dotted a b c d).splitOn '.' = [a, b, c, d].map (Nat.toDigits 10) := by
    refine List.splitOn_intercalate _ (fun l hl hdot => ?_) (List.cons_ne_nil _ _)
    obtain ⟨n, -, rfl⟩ := List.mem_map.1 hl
    exact absurd (Nat.isDigit_of_mem_toDigits (by decide) (by decide) hdot) (by decide)
  rw [readAddress, hsplit]
  simp only [List.map_cons, List.map_nil, List.mapM_cons, List.mapM_nil, readNumber_toDigits]
  rfl

/-! ## Two bases -/

section Bases

variable {b b' m m' : ℕ}

lemma ofDigitChars_lt (hb : b ≤ b') (hpos : 0 < b) (hm : m < m') :
    Nat.ofDigitChars b ds m < Nat.ofDigitChars b' ds m' := by
  induction ds generalizing m m' with
  | nil => simpa using hm
  | cons c ds ih =>
      rw [Nat.ofDigitChars_cons, Nat.ofDigitChars_cons]
      refine ih (Nat.add_lt_add_right ?_ _)
      exact lt_of_lt_of_le (Nat.mul_lt_mul_of_pos_left hm hpos) (Nat.mul_le_mul_right m' hb)

/-- Leading zeros do not count. -/
lemma ofDigitChars_dropWhile (b : ℕ) (ds : List Char) :
    Nat.ofDigitChars b (ds.dropWhile (· = '0')) 0 = Nat.ofDigitChars b ds 0 := by
  induction ds with
  | nil => rfl
  | cons c ds ih =>
      rw [List.dropWhile_cons]
      split
      · rename_i hzero
        obtain rfl := of_decide_eq_true hzero
        rw [ih, Nat.ofDigitChars_cons, Nat.mul_zero, Nat.sub_self]
      · rfl

/-- **Digits that make the same number in two bases**: at most one of them counts. -/
theorem ofDigitChars_eq_iff (hpos : 0 < b) (hb : b < b') (hdigits : ∀ c ∈ ds, c.isDigit) :
    Nat.ofDigitChars b' ds 0 = Nat.ofDigitChars b ds 0 ↔
      (ds.dropWhile (· = '0')).length ≤ 1 := by
  rw [← ofDigitChars_dropWhile b', ← ofDigitChars_dropWhile b]
  have hsub : ∀ c ∈ ds.dropWhile (· = '0'), c.isDigit := fun c hc =>
    hdigits c ((List.dropWhile_suffix _).subset hc)
  have hfirst : (ds.dropWhile (· = '0')).head? ≠ some '0' := by
    intro h
    have hnot := List.head?_dropWhile_not (· = '0') ds
    rw [h] at hnot
    exact absurd rfl (of_decide_eq_false hnot)
  generalize ds.dropWhile (· = '0') = rest at hsub hfirst ⊢
  match rest with
  | [] => simp
  | [c] => simp [Nat.ofDigitChars_cons]
  | c :: e :: rest =>
      have hne : c.toNat ≠ '0'.toNat := fun heq => hfirst (by rw [Char.toNat_inj.1 heq]; rfl)
      have hge := (Char.isDigit_iff_toNat.1 (hsub c List.mem_cons_self)).1
      have hlt : b * (c.toNat - '0'.toNat) < b' * (c.toNat - '0'.toNat) :=
        Nat.mul_lt_mul_of_pos_right hb (by omega)
      have hmore :
          Nat.ofDigitChars b (c :: e :: rest) 0 < Nat.ofDigitChars b' (c :: e :: rest) 0 := by
        simp only [Nat.ofDigitChars_cons, Nat.mul_zero, Nat.zero_add]
        exact ofDigitChars_lt hb.le hpos (Nat.add_lt_add_right hlt _)
      simp [hmore.ne']

end Bases

/-! ## Numbers as decimal digits -/

/-- Nothing is lost when the characters of a number are taken for decimal digits: there is no
leading zero, or nothing but a digit behind the leading zeros. -/
def Plain (cs : List Char) : Prop := cs.head? ≠ some '0' ∨ (cs.dropWhile (· = '0')).length ≤ 1

instance (cs : List Char) : Decidable (Plain cs) := inferInstanceAs (Decidable (_ ∨ _))

lemma isDigit_of_isOctDigit (h : isOctDigit c) : c.isDigit := by
  rw [isOctDigit, Bool.and_eq_true, decide_eq_true_eq, decide_eq_true_eq] at h
  obtain ⟨hlow, hhigh⟩ := h
  rw [Char.isDigit_iff_toNat]
  exact ⟨hlow, hhigh.trans (by decide)⟩

/-- No character of a number comes before the digits. -/
lemma Number.zero_le (h : Number cs n) : ∀ c ∈ cs, '0'.toNat ≤ c.toNat := by
  have hdigit : ∀ {c : Char}, c.isDigit → '0'.toNat ≤ c.toNat := fun h =>
    (Char.isDigit_iff_toNat.1 h).1
  intro c hc
  cases h with
  | @hexadecimal x ds hx hne hdigits =>
      rcases List.mem_cons.1 hc with rfl | hc
      · exact le_rfl
      rcases List.mem_cons.1 hc with rfl | hc
      · rcases hx with rfl | rfl <;> decide
      · have hhex := hdigits c hc
        simp only [isHexDigit, Bool.or_eq_true, Bool.and_eq_true, decide_eq_true_eq] at hhex
        rcases hhex with (h | ⟨h, -⟩) | ⟨h, -⟩
        · exact hdigit h
        · exact le_trans (by decide) h
        · exact le_trans (by decide) h
  | octal hdigits =>
      rcases List.mem_cons.1 hc with rfl | hc
      · exact le_rfl
      · exact hdigit (isDigit_of_isOctDigit (hdigits c hc))
  | decimal hne hfirst hdigits => exact hdigit (hdigits c hc)

/-- **A byte that is taken for decimal digits.** -/
theorem Number.ofDigitChars_iff (h : Number cs n) (hbyte : n < 2 ^ 8) :
    Nat.ofDigitChars 10 cs 0 = n ↔ Plain cs := by
  cases h with
  | @hexadecimal x ds hx hne hdigits =>
      -- the `x` alone counts more than a byte
      have hlarge : 400 ≤ Nat.ofDigitChars 10 ('0' :: x :: ds) 0 := by
        have hpow : 10 ≤ 10 ^ ds.length := Nat.le_self_pow (by simpa using hne) 10
        have hx' : 40 ≤ x.toNat - '0'.toNat := by rcases hx with rfl | rfl <;> decide
        simp only [Nat.ofDigitChars_cons, Nat.mul_zero, Nat.zero_add, Nat.sub_self]
        rw [Nat.ofDigitChars_eq_ofDigitChars_zero]
        exact (Nat.mul_le_mul hpow hx').trans (Nat.le_add_right _ _)
      have hx' : x ≠ '0' := by rcases hx with rfl | rfl <;> decide
      have hplain : ¬ Plain ('0' :: x :: ds) := by
        simp [Plain, hx', hne]
      exact iff_of_false (by omega) hplain
  | @octal ds hdigits =>
      have hdigits' : ∀ c ∈ ds, c.isDigit := fun c hc => isDigit_of_isOctDigit (hdigits c hc)
      have hzero : Nat.ofDigitChars 10 ('0' :: ds) 0 = Nat.ofDigitChars 10 ds 0 := by
        rw [Nat.ofDigitChars_cons, Nat.mul_zero, Nat.sub_self]
      rw [hzero, ofDigitChars_eq_iff (by decide) (by decide) hdigits']
      simp [Plain]
  | decimal hne hfirst hdigits => exact iff_of_true rfl (Or.inl hfirst)

end LaptopRaft
