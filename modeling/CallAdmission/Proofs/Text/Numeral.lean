import CallAdmission.Text.Numeral
import Mathlib.Algebra.Group.Nat.Defs

/-!
# CallAdmission.Proofs.Text.Numeral

Which texts are numerals, and what is wrong with the others. Both are said by the parts that a text
consists of, without reading it.

* `readWord_eq_ok_iff` — a text is read exactly if it is a numeral;
* `readWord_eq_error_iff` — and refused for the first fault in it.
-/

namespace CallAdmission.Text

/-! ## numerals -/

/-- Decimal digits and nothing else. -/
def Decimal (cs : List Char) : Prop := ∀ c ∈ cs, c.isDigit = true

/-- The number that decimal digits spell. -/
def decimal (cs : List Char) : Nat := Nat.ofDigitChars 10 cs 0

/-- A numeral of a word: a plus sign or none, at least one digit, and nothing else. -/
def IsNumeral (cs : List Char) (n : UInt64) : Prop :=
  ∃ ds, (cs = ds ∨ cs = '+' :: ds) ∧ ds ≠ [] ∧ Decimal ds ∧ decimal ds = n.toNat

/-- A text without its sign. A plus sign that stands alone is no sign. -/
def unsigned : List Char → List Char
  | '+' :: c :: cs => c :: cs
  | cs => cs

/-- What is wrong with a character that follows a number: it is no digit, or a digit with which the
number does not fit into a word any more. -/
inductive Culprit (n : Nat) (c : Char) : NumeralError → Prop
  | invalidDigit (hc : c.isDigit = false) : Culprit n c .invalidDigit
  | tooLarge (hc : c.isDigit = true) (hlarge : 2 ^ 64 ≤ Nat.ofDigitChars 10 [c] n) :
    Culprit n c .tooLarge

/-- What is wrong with the digits that go on with a number: behind some of them, with which it fits
into a word, stands a culprit. -/
def DigitFault (n : Nat) (cs : List Char) (e : NumeralError) : Prop :=
  ∃ front c back, cs = front ++ c :: back ∧ Decimal front ∧
    Nat.ofDigitChars 10 front n < 2 ^ 64 ∧ Culprit (Nat.ofDigitChars 10 front n) c e

/-- What is wrong with a text that is no numeral: it is empty, or its digits are wrong. -/
def Faulty (cs : List Char) (e : NumeralError) : Prop :=
  (cs = [] ∧ e = .empty) ∨ DigitFault 0 (unsigned cs) e

/-! ## digits -/

/-- The value of a character that is a digit. -/
theorem digit?_eq (c : Char) :
    digit? c = if c.isDigit = true then some (c.toNat - '0'.toNat) else none := by
  simp only [digit?, Char.isDigit_iff_toNat]

variable {n m : Nat} {cs : List Char} {c : Char} {e : NumeralError}

/-- Digits only make a number larger. -/
theorem le_ofDigitChars (n : Nat) (cs : List Char) : n ≤ Nat.ofDigitChars 10 cs n := by
  induction cs generalizing n with
  | nil => simp
  | cons c cs ih =>
    rw [Nat.ofDigitChars_cons]
    have hrest := ih (10 * n + (c.toNat - '0'.toNat))
    omega

theorem readDigits_cons_of_isDigit (hc : c.isDigit = true) :
    readDigits n (c :: cs) =
      if Nat.ofDigitChars 10 [c] n < UInt64.size then readDigits (Nat.ofDigitChars 10 [c] n) cs
      else .error .tooLarge := by
  simp only [readDigits, digit?_eq, hc, if_true]
  simp [Nat.ofDigitChars_cons]

theorem readDigits_cons_of_not_isDigit (hc : c.isDigit = false) :
    readDigits n (c :: cs) = .error .invalidDigit := by
  simp [readDigits, digit?_eq, hc]

/-- Digits are read to their value, if that fits into a word. -/
theorem readDigits_eq_ok_iff (hn : n < UInt64.size) :
    readDigits n cs = .ok m ↔
      Decimal cs ∧ Nat.ofDigitChars 10 cs n = m ∧ m < UInt64.size := by
  induction cs generalizing n with
  | nil =>
    simp only [readDigits, Except.ok.injEq, Decimal, Nat.ofDigitChars_nil]
    constructor
    · rintro rfl
      exact ⟨List.forall_mem_nil _, rfl, hn⟩
    · exact fun h => h.2.1
  | cons c cs ih =>
    cases hc : c.isDigit with
    | false =>
      rw [readDigits_cons_of_not_isDigit hc]
      refine ⟨by simp, fun h => ?_⟩
      exact absurd (hc.symm.trans (h.1 c List.mem_cons_self)) Bool.false_ne_true
    | true =>
      have hvalue : Nat.ofDigitChars 10 (c :: cs) n =
          Nat.ofDigitChars 10 cs (Nat.ofDigitChars 10 [c] n) := by
        simp [Nat.ofDigitChars_cons]
      rw [readDigits_cons_of_isDigit hc, hvalue]
      split
      · next hfits =>
        rw [ih hfits]
        simp [Decimal, hc]
      · next hlarge =>
        have hle := le_ofDigitChars (Nat.ofDigitChars 10 [c] n) cs
        refine ⟨by simp, fun h => absurd h.2.2 ?_⟩
        have hm := h.2.1
        omega

/-- The culprit is the first character, or it stands behind it. -/
theorem digitFault_cons (hn : n < 2 ^ 64) :
    DigitFault n (c :: cs) e ↔
      Culprit n c e ∨
        (c.isDigit = true ∧ Nat.ofDigitChars 10 [c] n < 2 ^ 64 ∧
          DigitFault (Nat.ofDigitChars 10 [c] n) cs e) := by
  have hvalue : ∀ front, Nat.ofDigitChars 10 (c :: front) n =
      Nat.ofDigitChars 10 front (Nat.ofDigitChars 10 [c] n) := by
    simp [Nat.ofDigitChars_cons]
  constructor
  · rintro ⟨front, d, back, hcs, hfront, hfits, hd⟩
    cases front with
    | nil =>
      obtain ⟨rfl, rfl⟩ := List.cons.inj hcs
      exact .inl hd
    | cons d front =>
      obtain ⟨rfl, rfl⟩ := List.cons.inj hcs
      obtain ⟨hc, hfront⟩ := List.forall_mem_cons.1 hfront
      rw [hvalue] at hfits hd
      have hle := le_ofDigitChars (Nat.ofDigitChars 10 [c] n) front
      exact .inr ⟨hc, by omega, front, _, back, rfl, hfront, hfits, hd⟩
  · rintro (hc | ⟨hc, -, front, d, back, rfl, hfront, hfits, hd⟩)
    · exact ⟨[], c, cs, rfl, nofun, hn, hc⟩
    · rw [← hvalue] at hfits hd
      exact ⟨c :: front, d, back, rfl, List.forall_mem_cons.2 ⟨hc, hfront⟩, hfits, hd⟩

/-- Digits are refused for the first culprit among them. -/
theorem readDigits_eq_error_iff (hn : n < UInt64.size) :
    readDigits n cs = .error e ↔ DigitFault n cs e := by
  induction cs generalizing n with
  | nil => exact ⟨nofun, fun ⟨front, c, back, hcs, _⟩ => by simp at hcs⟩
  | cons c cs ih =>
    rw [digitFault_cons hn]
    cases hc : c.isDigit with
    | false =>
      rw [readDigits_cons_of_not_isDigit hc]
      constructor
      · rintro h
        cases h
        exact .inl (.invalidDigit hc)
      · rintro (h | h)
        · cases h with
          | invalidDigit => rfl
          | tooLarge hc' => exact absurd (hc.symm.trans hc') Bool.false_ne_true
        · exact absurd h.1 Bool.false_ne_true
    | true =>
      rw [readDigits_cons_of_isDigit hc]
      split
      · next hfits =>
        rw [ih hfits]
        constructor
        · exact fun h => .inr ⟨rfl, hfits, h⟩
        · rintro (h | h)
          · cases h with
            | invalidDigit hc' => exact absurd (hc'.symm.trans hc) Bool.false_ne_true
            | tooLarge _ hlarge => exact absurd hfits (Nat.not_lt.2 hlarge)
          · exact h.2.2
      · next hlarge =>
        constructor
        · intro h
          cases h
          exact .inl (.tooLarge hc (Nat.not_lt.1 hlarge))
        · rintro (h | h)
          · cases h with
            | invalidDigit hc' => exact absurd (hc'.symm.trans hc) Bool.false_ne_true
            | tooLarge => rfl
          · exact absurd h.2.1 hlarge

/-! ## whole texts -/

/-- A text that is not empty is read without its sign. -/
theorem readNumeral_eq (hcs : cs ≠ []) : readNumeral cs = readDigits 0 (unsigned cs) := by
  unfold readNumeral unsigned
  split
  · exact absurd rfl hcs
  · rfl
  · next ds hds =>
    cases ds with
    | nil => exact absurd rfl hds
    | cons d ds => rfl
  · next hplus =>
    split
    · exact absurd rfl (hplus _)
    · rfl

theorem readNumeral_eq_ok_iff :
    readNumeral cs = .ok m ↔ cs ≠ [] ∧ Decimal (unsigned cs) ∧ decimal (unsigned cs) = m ∧
      m < UInt64.size := by
  by_cases hcs : cs = []
  · subst hcs
    exact ⟨nofun, fun h => absurd rfl h.1⟩
  · rw [readNumeral_eq hcs, readDigits_eq_ok_iff (by decide)]
    exact ⟨fun h => ⟨hcs, h⟩, fun h => h.2⟩

/-- Decimal digits have no sign. -/
theorem unsigned_of_decimal (h : Decimal cs) : unsigned cs = cs := by
  unfold unsigned
  split
  · exact absurd (h '+' List.mem_cons_self) (by decide)
  · rfl

/-- A numeral is a text whose digits are all there is behind its sign. -/
theorem isNumeral_iff {n : UInt64} :
    IsNumeral cs n ↔ cs ≠ [] ∧ Decimal (unsigned cs) ∧ decimal (unsigned cs) = n.toNat := by
  constructor
  · rintro ⟨ds, rfl | rfl, hne, hds, hvalue⟩
    · rw [unsigned_of_decimal hds]
      exact ⟨hne, hds, hvalue⟩
    · cases ds with
      | nil => exact absurd rfl hne
      | cons d ds => exact ⟨nofun, hds, hvalue⟩
  · rintro ⟨hne, hds, hvalue⟩
    refine ⟨unsigned cs, ?_, ?_, hds, hvalue⟩
    · unfold unsigned
      split <;> simp
    · unfold unsigned
      split
      · nofun
      · exact hne

/-- A text is read as a word exactly if it is a numeral of that word. -/
theorem readWord_eq_ok_iff {n : UInt64} : readWord cs = .ok n ↔ IsNumeral cs n := by
  rw [isNumeral_iff, readWord]
  constructor
  · intro h
    cases hread : readNumeral cs with
    | error e => simp [hread, Except.map] at h
    | ok m =>
      obtain ⟨hne, hds, hvalue, hlt⟩ := readNumeral_eq_ok_iff.1 hread
      simp only [hread, Except.map, Except.ok.injEq] at h
      rw [← h, UInt64.toNat_ofNat_of_lt' hlt]
      exact ⟨hne, hds, hvalue⟩
  · rintro ⟨hne, hds, hvalue⟩
    rw [readNumeral_eq_ok_iff.2 ⟨hne, hds, hvalue, n.toNat_lt⟩]
    simp [Except.map]

/-- A text is refused for the first fault in it. -/
theorem readWord_eq_error_iff : readWord cs = .error e ↔ Faulty cs e := by
  have hmap : readWord cs = .error e ↔ readNumeral cs = .error e := by
    unfold readWord
    cases readNumeral cs <;> simp [Except.map]
  rw [hmap]
  by_cases hcs : cs = []
  · subst hcs
    constructor
    · rintro h
      cases h
      exact .inl ⟨rfl, rfl⟩
    · rintro (⟨-, rfl⟩ | ⟨front, c, back, hdigits, -⟩)
      · rfl
      · simp [unsigned] at hdigits
  · rw [readNumeral_eq hcs, readDigits_eq_error_iff (by decide)]
    exact ⟨.inr, fun h => h.resolve_left fun h => hcs h.1⟩

end CallAdmission.Text
