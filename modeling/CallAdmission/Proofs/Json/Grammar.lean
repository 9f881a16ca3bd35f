import CallAdmission.Json.Reader
import CallAdmission.Proofs.Text.Blank
import CallAdmission.Proofs.Text.Numeral

/-!
# CallAdmission.Proofs.Json.Grammar

The grammar of JSON texts, apart from any reading of them.

```
number   =  [ "-" ] whole [ "." digits ] [ ( "e" / "E" ) [ "+" / "-" ] digits ]
string   =  quote *element quote
element  =  plain character / backslash letter / backslash "u" four hexadecimal digits
text     =  *( spaces token ) spaces
```

The tokens of a text have to be those of a value (`Value.tokens`). No two numbers or words stand
side by side there, so it need not be said where a number ends.

* `isNumber_iff` — the numbers that are read are those of the grammar.
-/

namespace CallAdmission.Json

open Text (Decimal dropWhile_append_of_head hexDigit? isDigits isExponent
  takeWhile_append_of_head)

/-! ## numbers -/

/-- At least one decimal digit and nothing else. -/
def Digits (cs : List Char) : Prop := cs ≠ [] ∧ Decimal cs

/-- The whole part of a number: no zero stands in front of other digits. -/
inductive Whole : List Char → Prop
  | zero : Whole ['0']
  | digits {cs : List Char} (h : Digits cs) (hzero : cs.head? ≠ some '0') : Whole cs

/-- The decimal places of a number, if it has some. -/
inductive Places : List Char → Prop
  | none : Places []
  | point {cs : List Char} (h : Digits cs) : Places ('.' :: cs)

/-- The exponent of a number, if it has one. -/
inductive Exponent : List Char → Prop
  | none : Exponent []
  | mark {c : Char} {s cs : List Char} (hc : c = 'e' ∨ c = 'E')
    (hsign : s = [] ∨ s = ['+'] ∨ s = ['-']) (h : Digits cs) : Exponent (c :: (s ++ cs))

/-- A number without its sign. -/
inductive Unsigned : List Char → Prop
  | intro {whole places exponent : List Char} (hwhole : Whole whole) (hplaces : Places places)
    (hexponent : Exponent exponent) : Unsigned (whole ++ (places ++ exponent))

/-- A number. -/
inductive Number : List Char → Prop
  | unsigned {cs : List Char} (h : Unsigned cs) : Number cs
  | negative {cs : List Char} (h : Unsigned cs) : Number ('-' :: cs)

/-! ## strings -/

/-- How an element of a string is spelled. -/
inductive Element : List Char → Symbol → Prop
  | plain {c : Char} (hcontrol : 0x20 ≤ c.toNat) (hquote : c ≠ '"') (hescape : c ≠ '\\') :
    Element [c] (.char c)
  | letter {l c : Char} (h : escaped? l = some c) : Element ['\\', l] (.char c)
  | unit {a b c d : Char} {p q r s : Nat} (ha : hexDigit? a = some p) (hb : hexDigit? b = some q)
    (hc : hexDigit? c = some r) (hd : hexDigit? d = some s) :
    Element ['\\', 'u', a, b, c, d] (symbolOfUnit (16 * (16 * (16 * p + q) + r) + s))

/-- The elements of a string one after the other. -/
inductive Body : List Char → List Symbol → Prop
  | nil : Body [] []
  | cons {cs piece : List Char} {s : Symbol} {rest : List Symbol} (h : Element piece s)
    (hrest : Body cs rest) : Body (piece ++ cs) (s :: rest)

/-! ## tokens -/

/-- A number or a word. -/
inductive Scalar : List Char → Value → Prop
  | null : Scalar ['n', 'u', 'l', 'l'] .null
  | true : Scalar ['t', 'r', 'u', 'e'] (.bool true)
  | false : Scalar ['f', 'a', 'l', 's', 'e'] (.bool false)
  | number {cs : List Char} (h : Number cs) : Scalar cs (.number cs)

/-- How a token is spelled. The halves of a surrogate pair in a string count as one character. -/
inductive Token.Spelled : List Char → Token → Prop
  | leftBrace : Spelled ['\x7b'] .leftBrace
  | rightBrace : Spelled ['\x7d'] .rightBrace
  | leftBracket : Spelled ['['] .leftBracket
  | rightBracket : Spelled [']'] .rightBracket
  | comma : Spelled [','] .comma
  | colon : Spelled [':'] .colon
  | scalar {cs : List Char} {v : Value} (h : Scalar cs v) : Spelled cs (.scalar v)
  | string {cs : List Char} {s : List Symbol} (h : Body cs s) :
    Spelled ('"' :: (cs ++ ['"'])) (.string (joinPairs s))

/-- The characters that may stand between tokens. -/
def Spaces (cs : List Char) : Prop := ∀ c ∈ cs, c = ' ' ∨ c = '\n' ∨ c = '\t' ∨ c = '\r'

/-- Tokens one after the other, with spaces between them and at both ends. -/
inductive Lexes : List Char → List Token → Prop
  | nil {spaces : List Char} (hspaces : Spaces spaces) : Lexes spaces []
  | cons {spaces piece cs : List Char} {t : Token} {ts : List Token} (hspaces : Spaces spaces)
    (h : t.Spelled piece) (hrest : Lexes cs ts) : Lexes (spaces ++ (piece ++ cs)) (t :: ts)

/-! ## values -/

mutual

/-- The tokens of a value. -/
def Value.tokens : Value → List Token
  | .string s => [.string s]
  | .array [] => [.leftBracket, .rightBracket]
  | .array (v :: rest) => .leftBracket :: (v.tokens ++ moreItems rest)
  | .object [] => [.leftBrace, .rightBrace]
  | .object ((key, v) :: rest) =>
    .leftBrace :: .string key :: .colon :: (v.tokens ++ moreMembers rest)
  | v => [.scalar v]

/-- The tokens after the first item of an array. -/
def moreItems : List Value → List Token
  | [] => [.rightBracket]
  | v :: rest => .comma :: (v.tokens ++ moreItems rest)

/-- The tokens after the first member of an object. -/
def moreMembers : List (List Symbol × Value) → List Token
  | [] => [.rightBrace]
  | (key, v) :: rest => .comma :: .string key :: .colon :: (v.tokens ++ moreMembers rest)

end

/-- A text spells a value: its tokens are those of the value. -/
def Spells (text : String) (v : Value) : Prop := Lexes text.toList v.tokens

/-! ## texts of several tokens -/

section Lexes

variable {c : Char} {cs cs' piece : List Char} {t : Token} {ts ts' : List Token}

/-- One more space in front. -/
theorem lexes_space (hc : c = ' ' ∨ c = '\n' ∨ c = '\t' ∨ c = '\r') (h : Lexes cs ts) :
    Lexes (c :: cs) ts := by
  cases h with
  | nil hspaces => exact .nil (List.forall_mem_cons.2 ⟨hc, hspaces⟩)
  | cons hspaces ht hrest => exact .cons (List.forall_mem_cons.2 ⟨hc, hspaces⟩) ht hrest

/-- One more token in front. -/
theorem lexes_token (ht : t.Spelled piece) (h : Lexes cs ts) : Lexes (piece ++ cs) (t :: ts) :=
  .cons (show Spaces [] from nofun) ht h

/-- One text after the other. -/
theorem lexes_append (h : Lexes cs ts) (h' : Lexes cs' ts') : Lexes (cs ++ cs') (ts ++ ts') := by
  induction h with
  | @nil spaces hspaces =>
    induction spaces with
    | nil => exact h'
    | cons c spaces ih =>
      obtain ⟨hc, hspaces⟩ := List.forall_mem_cons.1 hspaces
      exact lexes_space hc (ih hspaces)
  | cons hspaces ht hrest ih =>
    rw [List.append_assoc, List.append_assoc]
    exact .cons hspaces ht ih

/-- A text of one token. -/
theorem lexes_singleton (ht : t.Spelled piece) : Lexes piece [t] := by
  have hlexes := lexes_token ht (.nil (show Spaces [] from nofun))
  rwa [List.append_nil] at hlexes

end Lexes

/-! ## the numbers that are read -/

variable {cs ds : List Char}

theorem isDigits_iff : isDigits cs = true ↔ Digits cs := by
  simp [isDigits, Digits, Decimal]

theorem Digits.not_sign (h : Digits cs) : ∀ c, cs.head? = some c → c ≠ '+' ∧ c ≠ '-' := by
  intro c hc
  have hdigit := h.2 c (List.mem_of_head? hc)
  constructor
  · rintro rfl
    exact absurd hdigit (by decide)
  · rintro rfl
    exact absurd hdigit (by decide)

theorem isExponent_iff : isExponent cs = true ↔ Exponent cs := by
  constructor
  · intro h
    cases cs with
    | nil => exact .none
    | cons c cs =>
      simp only [isExponent, Bool.and_eq_true, Bool.or_eq_true, beq_iff_eq] at h
      obtain ⟨hc, h⟩ := h
      split at h
      · exact .mark (s := ['+']) hc (.inr (.inl rfl)) (isDigits_iff.1 h)
      · exact .mark (s := ['-']) hc (.inr (.inr rfl)) (isDigits_iff.1 h)
      · exact .mark (s := []) hc (.inl rfl) (isDigits_iff.1 h)
  · rintro (_ | ⟨hc, hsign, h⟩)
    · rfl
    · simp only [isExponent, Bool.and_eq_true, Bool.or_eq_true, beq_iff_eq]
      refine ⟨hc, ?_⟩
      rcases hsign with rfl | rfl | rfl
      · rw [List.nil_append]
        split
        · exact absurd rfl (h.not_sign _ rfl).1
        · exact absurd rfl (h.not_sign _ rfl).2
        · exact isDigits_iff.2 h
      · exact isDigits_iff.2 h
      · exact isDigits_iff.2 h

theorem Places.append_head {exponent : List Char} (h : Places cs) (hexponent : Exponent exponent) :
    ∀ c, (cs ++ exponent).head? = some c → c.isDigit = false := by
  have hhead : ∀ c, exponent.head? = some c → c.isDigit = false := by
    rintro c hc
    cases hexponent with
    | none => exact nomatch hc
    | mark hmark =>
      cases hc
      rcases hmark with rfl | rfl <;> decide
  cases h with
  | none => exact hhead
  | point =>
    rintro c ⟨⟩
    decide

theorem isFraction_iff :
    isFraction cs = true ↔ ∃ places exponent, cs = places ++ exponent ∧ Places places ∧
      Exponent exponent := by
  constructor
  · intro h
    unfold isFraction at h
    split at h
    · next cs =>
      rw [Bool.and_eq_true, isDigits_iff, isExponent_iff] at h
      refine ⟨'.' :: cs.takeWhile Char.isDigit, cs.dropWhile Char.isDigit, ?_, .point h.1, h.2⟩
      rw [List.cons_append, List.takeWhile_append_dropWhile]
    · exact ⟨[], cs, rfl, .none, isExponent_iff.1 h⟩
  · rintro ⟨places, exponent, rfl, hplaces, hexponent⟩
    cases hplaces with
    | none =>
      unfold isFraction
      split
      · next heq =>
        cases hexponent with
        | none => exact nomatch heq
        | mark hmark =>
          obtain ⟨rfl, -⟩ := List.cons.inj heq
          exact absurd hmark (by decide)
      · exact isExponent_iff.2 hexponent
    | point h =>
      have hhead : ∀ c, exponent.head? = some c → c.isDigit = false :=
        Places.none.append_head hexponent
      rw [List.cons_append, isFraction, takeWhile_append_of_head h.2 hhead,
        dropWhile_append_of_head h.2 hhead, Bool.and_eq_true]
      exact ⟨isDigits_iff.2 h, isExponent_iff.2 hexponent⟩

theorem isUnsigned_iff : isUnsigned cs = true ↔ Unsigned cs := by
  constructor
  · intro h
    unfold isUnsigned at h
    split at h
    · obtain ⟨places, exponent, rfl, hplaces, hexponent⟩ := isFraction_iff.1 h
      exact .intro .zero hplaces hexponent
    · next hzero =>
      rw [Bool.and_eq_true, isDigits_iff, isFraction_iff] at h
      obtain ⟨hdigits, places, exponent, hrest, hplaces, hexponent⟩ := h
      have hcs := cs.takeWhile_append_dropWhile (p := Char.isDigit)
      rw [hrest] at hcs
      rw [← hcs]
      refine .intro (.digits hdigits fun hhead => ?_) hplaces hexponent
      obtain ⟨ds, hds⟩ := List.head?_eq_some_iff.1 hhead
      rw [hds] at hcs
      exact hzero _ hcs.symm
  · rintro ⟨hwhole, hplaces, hexponent⟩
    have hfraction := isFraction_iff.2 ⟨_, _, rfl, hplaces, hexponent⟩
    cases hwhole with
    | zero => exact hfraction
    | digits h hzero =>
      have hhead := hplaces.append_head hexponent
      unfold isUnsigned
      split
      · next heq =>
        obtain ⟨c, ds, rfl⟩ := List.exists_cons_of_ne_nil h.1
        obtain ⟨rfl, -⟩ := List.cons.inj heq
        exact absurd rfl hzero
      · rw [takeWhile_append_of_head h.2 hhead, dropWhile_append_of_head h.2 hhead,
          Bool.and_eq_true]
        exact ⟨isDigits_iff.2 h, hfraction⟩

/-- A number without sign begins with a digit. -/
theorem Unsigned.head (h : Unsigned cs) : ∃ c ds, cs = c :: ds ∧ c.isDigit = true := by
  cases h with
  | intro hwhole =>
    cases hwhole with
    | zero => exact ⟨'0', _, rfl, rfl⟩
    | digits h =>
      obtain ⟨c, ds, rfl⟩ := List.exists_cons_of_ne_nil h.1
      exact ⟨c, _, rfl, h.2 c List.mem_cons_self⟩

/-- The numbers that are read are those of the grammar. -/
theorem isNumber_iff : isNumber cs = true ↔ Number cs := by
  constructor
  · intro h
    unfold isNumber at h
    split at h
    · exact .negative (isUnsigned_iff.1 h)
    · exact .unsigned (isUnsigned_iff.1 h)
  · rintro (h | h)
    · unfold isNumber
      split
      · obtain ⟨c, ds, heq, hc⟩ := h.head
        obtain ⟨rfl, -⟩ := List.cons.inj heq
        exact absurd hc (by decide)
      · exact isUnsigned_iff.2 h
    · exact isUnsigned_iff.2 h

end CallAdmission.Json
