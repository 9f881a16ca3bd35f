import CallAdmission.Proofs.Json.Grammar
import Mathlib.Data.List.Chain

/-!
# CallAdmission.Proofs.Json.Scanner

The scanner finds the tokens of the grammar. A number or a word ends where the next character cannot
go on with it, so a text is scanned to its tokens only if no two numbers or words follow each other.

* `run?_token`, `run?_lexes` — from the tokens to what the scanner does, token by token;
* `exists_of_run?_between` — and back: what the scanner takes for a token is spelled as one;
* `tokens?_of_lexes`, `lexes_of_tokens?` — the two directions for a whole text.
-/

namespace CallAdmission.Json

open Text (hexDigit?)

/-- The token is a number or a word. -/
def Token.isScalar : Token → Bool
  | .scalar _ => true
  | _ => false

/-- At most one of two tokens is a number or a word. -/
def Apart (t u : Token) : Prop := t.isScalar = true → u.isScalar = false

namespace Scanner

variable {s s' : Scanner} {c : Char} {cs piece spaces read : List Char} {symbols : List Symbol}
  {out ts : List Token} {t : Token} {v : Value} {symbol : Symbol}

/-- What the scanner comes to at the end of a text. -/
def run? (s : Scanner) (cs : List Char) : Option Scanner := (cs.foldlM feed s).bind finishToken

theorem run?_cons (s : Scanner) (c : Char) (cs : List Char) :
    s.run? (c :: cs) = (s.feed c).bind (·.run? cs) := by
  simp only [run?, List.foldlM_cons, Option.bind_eq_bind, Option.bind_assoc]

/-! ## from tokens to the scanner -/

theorem run?_spaces (h : Spaces spaces) (out : List Token) (cs : List Char) :
    run? ⟨.between, out⟩ (spaces ++ cs) = run? ⟨.between, out⟩ cs := by
  induction spaces with
  | nil => rfl
  | cons c spaces ih =>
    obtain ⟨hc, hspaces⟩ := List.forall_mem_cons.1 h
    rw [List.cons_append, run?_cons, ← ih hspaces]
    rcases hc with rfl | rfl | rfl | rfl <;> rfl

/-! ### strings -/

theorem run?_element (h : Element piece symbol) (out : List Token) (cs : List Char) :
    run? ⟨.string symbols, out⟩ (piece ++ cs) = run? ⟨.string (symbol :: symbols), out⟩ cs := by
  cases h with
  | plain hcontrol hquote hescape =>
    simp only [List.singleton_append, run?_cons, feed, beq_iff_eq, if_neg hquote, if_neg hescape,
      if_neg (Nat.not_lt.2 hcontrol), Option.bind_some]
  | @letter l c h =>
    have hu : l ≠ 'u' := by
      rintro rfl
      exact nomatch h
    simp [run?_cons, feed, hu, h]
  | unit ha hb hc hd =>
    simp [run?_cons, feed, ha, hb, hc, hd]

theorem run?_body {symbols' : List Symbol} (h : Body piece symbols') (out : List Token)
    (cs : List Char) :
    run? ⟨.string symbols, out⟩ (piece ++ cs) =
      run? ⟨.string (symbols'.reverse ++ symbols), out⟩ cs := by
  induction h generalizing symbols with
  | nil => rfl
  | cons helement hrest ih =>
    rw [List.append_assoc, run?_element helement, ih, List.reverse_cons, List.append_assoc]
    rfl

/-! ### numbers and words -/

/-- No character of a number or a word is at the beginning. -/
def Ends (cs : List Char) : Prop :=
  ∀ c, cs.head? = some c → isNumberChar c = false ∧ c.isAlpha = false

theorem run?_number (h : ∀ c ∈ piece, isNumberChar c = true) (out : List Token)
    (cs : List Char) :
    run? ⟨.number read, out⟩ (piece ++ cs) = run? ⟨.number (piece.reverse ++ read), out⟩ cs := by
  induction piece generalizing read with
  | nil => rfl
  | cons c piece ih =>
    obtain ⟨hc, hpiece⟩ := List.forall_mem_cons.1 h
    rw [List.cons_append, run?_cons]
    simp only [feed, hc, if_true, Option.bind_some]
    rw [ih hpiece, List.reverse_cons, List.append_assoc]
    rfl

/-- At its end a number becomes a token. -/
theorem run?_number_end (hcs : Ends cs) (h : isNumber read.reverse = true) (out : List Token) :
    run? ⟨.number read, out⟩ cs =
      run? ⟨.between, .scalar (.number read.reverse) :: out⟩ cs := by
  have hfinish : finishToken ⟨.number read, out⟩ =
      some ⟨.between, .scalar (.number read.reverse) :: out⟩ := by
    simp only [finishToken, h, if_true]
    rfl
  cases cs with
  | nil => exact hfinish
  | cons c cs =>
    rw [run?_cons, run?_cons]
    simp only [feed, (hcs c rfl).1, hfinish]
    rfl

/-- At its end a word becomes a token. -/
theorem run?_word_end (read : List Char) (hcs : Ends cs) (h : word? read.reverse = some v)
    (out : List Token) : run? ⟨.word read, out⟩ cs = run? ⟨.between, .scalar v :: out⟩ cs := by
  have hfinish : finishToken ⟨.word read, out⟩ = some ⟨.between, .scalar v :: out⟩ := by
    simp only [finishToken, h, Option.map_some]
    rfl
  cases cs with
  | nil => exact hfinish
  | cons c cs =>
    rw [run?_cons, run?_cons]
    simp only [feed, (hcs c rfl).2, hfinish]
    rfl

/-! ### tokens -/

theorem isNumberChar_of_digits (h : Digits cs) : ∀ c ∈ cs, isNumberChar c = true := by
  intro c hc
  simp [isNumberChar, h.2 c hc]

theorem isNumberChar_of_number (h : Number cs) : ∀ c ∈ cs, isNumberChar c = true := by
  have hunsigned : ∀ cs, Unsigned cs → ∀ c ∈ cs, isNumberChar c = true := by
    rintro _ ⟨hwhole, hplaces, hexponent⟩
    refine List.forall_mem_append.2 ⟨?_, List.forall_mem_append.2 ⟨?_, ?_⟩⟩
    · cases hwhole with
      | zero => exact List.forall_mem_singleton.2 rfl
      | digits h => exact isNumberChar_of_digits h
    · cases hplaces with
      | none => exact nofun
      | point h => exact List.forall_mem_cons.2 ⟨rfl, isNumberChar_of_digits h⟩
    · cases hexponent with
      | none => exact nofun
      | mark hc hsign h =>
        refine List.forall_mem_cons.2 ⟨by rcases hc with rfl | rfl <;> rfl, ?_⟩
        refine List.forall_mem_append.2 ⟨?_, isNumberChar_of_digits h⟩
        rcases hsign with rfl | rfl | rfl
        · exact List.forall_mem_nil _
        · exact List.forall_mem_singleton.2 rfl
        · exact List.forall_mem_singleton.2 rfl
  cases h with
  | unsigned h => exact hunsigned _ h
  | negative h => exact List.forall_mem_cons.2 ⟨rfl, hunsigned _ h⟩

/-- A number begins with a digit or a minus sign. -/
theorem head_of_number (h : Number cs) : ∃ c ds, cs = c :: ds ∧ (c = '-' ∨ c.isDigit = true) := by
  cases h with
  | unsigned h =>
    obtain ⟨c, ds, rfl, hc⟩ := h.head
    exact ⟨c, ds, rfl, .inr hc⟩
  | negative h => exact ⟨'-', _, rfl, .inl rfl⟩

theorem start_number (h : c = '-' ∨ c.isDigit = true) (s : Scanner) :
    s.start c = some { s with scanning := .number [c] } := by
  rcases h with rfl | h
  · rfl
  · unfold start
    split
    all_goals first | exact absurd h (by decide) | simp [h]

theorem run?_scalar (h : Scalar piece v) (hcs : Ends cs) (out : List Token) :
    run? ⟨.between, out⟩ (piece ++ cs) = run? ⟨.between, .scalar v :: out⟩ cs := by
  cases h with
  | null => exact run?_word_end ['l', 'l', 'u', 'n'] hcs rfl out
  | true => exact run?_word_end ['e', 'u', 'r', 't'] hcs rfl out
  | false => exact run?_word_end ['e', 's', 'l', 'a', 'f'] hcs rfl out
  | number h =>
    obtain ⟨c, ds, rfl, hc⟩ := head_of_number h
    have hds := (List.forall_mem_cons.1 (isNumberChar_of_number h)).2
    have hread : (ds.reverse ++ [c]).reverse = c :: ds := by simp
    rw [List.cons_append, run?_cons, feed, start_number hc, Option.bind_some, run?_number hds,
      run?_number_end hcs (by rw [hread]; exact isNumber_iff.2 h), hread]

theorem run?_token (h : t.Spelled piece) (hcs : t.isScalar = true → Ends cs) (out : List Token) :
    run? ⟨.between, out⟩ (piece ++ cs) = run? ⟨.between, t :: out⟩ cs := by
  cases h with
  | leftBrace | rightBrace | leftBracket | rightBracket | comma | colon => rfl
  | scalar h => exact run?_scalar h (hcs rfl) out
  | @string body symbols h =>
    have hstring : run? ⟨.string [], out⟩ (body ++ '"' :: cs) = _ := run?_body h out ('"' :: cs)
    rw [List.cons_append, List.append_assoc, List.singleton_append, run?_cons]
    refine hstring.trans ?_
    rw [run?_cons, List.append_nil]
    simp only [feed, beq_self_eq_true, if_true, List.reverse_reverse, Option.bind_some]
    rfl

/-! ### texts -/

/-- A text does not go on with a number or a word if its first token is none. -/
theorem ends_of_lexes (h : Lexes cs ts) (hts : ∀ u, ts.head? = some u → u.isScalar = false) :
    Ends cs := by
  have hspace : ∀ c, (c = ' ' ∨ c = '\n' ∨ c = '\t' ∨ c = '\r') →
      isNumberChar c = false ∧ c.isAlpha = false := by
    rintro c (rfl | rfl | rfl | rfl) <;> decide
  intro c hc
  cases h with
  | nil hspaces => exact hspace c (hspaces c (List.mem_of_head? hc))
  | @cons spaces piece cs t ts hspaces ht hrest =>
    cases spaces with
    | cons d spaces =>
      obtain rfl : d = c := Option.some.inj hc
      exact hspace d (hspaces d List.mem_cons_self)
    | nil =>
      cases ht with
      | scalar => exact nomatch hts _ rfl
      | leftBrace | rightBrace | leftBracket | rightBracket | comma | colon | string =>
        cases hc
        decide

/-- A text is scanned to its tokens. -/
theorem run?_lexes (h : Lexes cs ts) (hts : ts.IsChain Apart) (out : List Token) :
    run? ⟨.between, out⟩ cs = some ⟨.between, ts.reverse ++ out⟩ := by
  induction h generalizing out with
  | @nil spaces hspaces =>
    have hrun := run?_spaces hspaces out []
    rwa [List.append_nil] at hrun
  | @cons spaces piece cs t ts hspaces ht hrest ih =>
    obtain ⟨hhead, htail⟩ := List.isChain_cons.1 hts
    have hends : t.isScalar = true → Ends cs :=
      fun hscalar => ends_of_lexes hrest fun u hu => hhead u hu hscalar
    rw [run?_spaces hspaces, run?_token ht hends, ih htail, List.reverse_cons, List.append_assoc]
    rfl

/-! ## from the scanner to tokens -/

/-- A text is taken character by character. -/
theorem exists_of_run?_cons (h : s.run? (c :: cs) = some s') :
    ∃ s₁, s.feed c = some s₁ ∧ s₁.run? cs = some s' :=
  Option.bind_eq_some_iff.1 ((run?_cons s c cs).symm.trans h)

/-! ### strings -/

/-- The next digit of a code unit, if it is not the last. -/
theorem exists_of_run?_unit_succ {missing value : Nat}
    (h : run? ⟨.unit symbols (missing + 1) value, out⟩ cs = some s') :
    ∃ c d cs', cs = c :: cs' ∧ hexDigit? c = some d ∧
      run? ⟨.unit symbols missing (16 * value + d), out⟩ cs' = some s' := by
  cases cs with
  | nil => exact nomatch h
  | cons c cs =>
    obtain ⟨s₁, hfeed, hrest⟩ := exists_of_run?_cons h
    obtain ⟨d, hd, rfl⟩ := Option.map_eq_some_iff.1 hfeed
    exact ⟨c, d, cs, rfl, hd, hrest⟩

/-- The last digit of a code unit. -/
theorem exists_of_run?_unit_zero {value : Nat}
    (h : run? ⟨.unit symbols 0 value, out⟩ cs = some s') :
    ∃ c d cs', cs = c :: cs' ∧ hexDigit? c = some d ∧
      run? ⟨.string (symbolOfUnit (16 * value + d) :: symbols), out⟩ cs' = some s' := by
  cases cs with
  | nil => exact nomatch h
  | cons c cs =>
    obtain ⟨s₁, hfeed, hrest⟩ := exists_of_run?_cons h
    obtain ⟨d, hd, rfl⟩ := Option.map_eq_some_iff.1 hfeed
    exact ⟨c, d, cs, rfl, hd, hrest⟩

/-- In a string, the closing quote or an element comes next. -/
theorem exists_of_run?_string_step (h : run? ⟨.string symbols, out⟩ cs = some s') :
    (∃ cs', cs = '"' :: cs' ∧
      run? ⟨.between, .string (joinPairs symbols.reverse) :: out⟩ cs' = some s') ∨
    ∃ piece symbol cs', cs = piece ++ cs' ∧ Element piece symbol ∧
      run? ⟨.string (symbol :: symbols), out⟩ cs' = some s' := by
  cases cs with
  | nil => exact nomatch h
  | cons c cs =>
    obtain ⟨s₁, hfeed, hrest⟩ := exists_of_run?_cons h
    simp only [feed, beq_iff_eq] at hfeed
    split at hfeed
    · next hquote =>
      cases hfeed
      exact .inl ⟨cs, by rw [hquote], hrest⟩
    · next hquote =>
      refine .inr ?_
      split at hfeed
      · next hescape =>
        subst hescape
        cases hfeed
        cases cs with
        | nil => exact nomatch hrest
        | cons l cs =>
          obtain ⟨s₂, hfeed, hrest⟩ := exists_of_run?_cons hrest
          simp only [feed, beq_iff_eq] at hfeed
          split at hfeed
          · next hu =>
            subst hu
            cases hfeed
            obtain ⟨a, p, cs, rfl, ha, hrest⟩ := exists_of_run?_unit_succ hrest
            obtain ⟨b, q, cs, rfl, hb, hrest⟩ := exists_of_run?_unit_succ hrest
            obtain ⟨c, r, cs, rfl, hc, hrest⟩ := exists_of_run?_unit_succ hrest
            obtain ⟨d, t, cs, rfl, hd, hrest⟩ := exists_of_run?_unit_zero hrest
            rw [Nat.mul_zero, Nat.zero_add] at hrest
            exact ⟨_, _, cs, rfl, .unit ha hb hc hd, hrest⟩
          · obtain ⟨c, hc, rfl⟩ := Option.map_eq_some_iff.1 hfeed
            exact ⟨_, _, cs, rfl, .letter hc, hrest⟩
      · next hescape =>
        split at hfeed
        · exact nomatch hfeed
        · next hcontrol =>
          cases hfeed
          exact ⟨[c], _, cs, rfl, .plain (Nat.not_lt.1 hcontrol) hquote hescape, hrest⟩

/-- A string goes on with elements up to a closing quote. -/
theorem exists_of_run?_string {cs : List Char} {symbols : List Symbol}
    (h : run? ⟨.string symbols, out⟩ cs = some s') :
    ∃ body symbols' cs', cs = body ++ '"' :: cs' ∧ Body body symbols' ∧
      run? ⟨.between, .string (joinPairs (symbols.reverse ++ symbols')) :: out⟩ cs' = some s' := by
  obtain ⟨cs', rfl, hrest⟩ | ⟨piece, symbol, cs₁, rfl, hpiece, hrest⟩ :=
    exists_of_run?_string_step h
  · exact ⟨[], [], cs', rfl, .nil, by rwa [List.append_nil]⟩
  · have hpos : 0 < piece.length := by cases hpiece <;> exact Nat.succ_pos _
    have hlt : cs₁.length < (piece ++ cs₁).length := by
      rw [List.length_append]
      omega
    obtain ⟨body, symbols', cs', rfl, hbody, hrest⟩ := exists_of_run?_string hrest
    refine ⟨piece ++ body, symbol :: symbols', cs', ?_, .cons hpiece hbody, ?_⟩
    · rw [List.append_assoc]
    · rwa [List.reverse_cons, List.append_assoc] at hrest
termination_by cs.length

/-! ### numbers and words -/

theorem scalar_of_word? (h : word? cs = some v) : Scalar cs v := by
  have hword : ∀ text : String, String.ofList cs = text → cs = text.toList := by
    rintro _ rfl
    rw [String.toList_ofList]
  unfold word? at h
  split at h
  · next heq =>
    cases h
    rw [hword _ heq]
    exact .null
  · next heq =>
    cases h
    rw [hword _ heq]
    exact .true
  · next heq =>
    cases h
    rw [hword _ heq]
    exact .false
  · exact nomatch h

/-- What becomes a token at its end is a number or a word. -/
theorem exists_of_finishToken {scanning : List Char → Scanning}
    (hscanning : scanning = .number ∨ scanning = .word)
    (h : finishToken ⟨scanning read, out⟩ = some s') :
    ∃ v, Scalar read.reverse v ∧ s' = ⟨.between, .scalar v :: out⟩ := by
  rcases hscanning with rfl | rfl
  · simp only [finishToken] at h
    split at h
    · next hnumber =>
      cases h
      exact ⟨_, .number (isNumber_iff.1 hnumber), rfl⟩
    · exact nomatch h
  · obtain ⟨v, hv, rfl⟩ := Option.map_eq_some_iff.1 h
    exact ⟨v, scalar_of_word? hv, rfl⟩

/-- A number or a word goes on up to its end. -/
theorem exists_of_run?_scalar {scanning : List Char → Scanning}
    (hscanning : scanning = .number ∨ scanning = .word)
    (h : run? ⟨scanning read, out⟩ cs = some s') :
    ∃ front v cs', cs = front ++ cs' ∧ Scalar (read.reverse ++ front) v ∧
      run? ⟨.between, .scalar v :: out⟩ cs' = some s' := by
  induction cs generalizing read with
  | nil =>
    obtain ⟨v, hv, rfl⟩ := exists_of_finishToken hscanning h
    exact ⟨[], v, [], rfl, by rwa [List.append_nil], rfl⟩
  | cons c cs ih =>
    have hfeed : feed ⟨scanning read, out⟩ c = some ⟨scanning (c :: read), out⟩ ∨
        feed ⟨scanning read, out⟩ c = (finishToken ⟨scanning read, out⟩).bind (·.start c) := by
      rcases hscanning with rfl | rfl
      · exact ite_eq_or_eq _ _ _
      · exact ite_eq_or_eq _ _ _
    rcases hfeed with hfeed | hfeed
    · rw [run?_cons, hfeed, Option.bind_some] at h
      obtain ⟨front, v, cs', rfl, hv, hrest⟩ := ih h
      rw [List.reverse_cons, List.append_assoc] at hv
      exact ⟨c :: front, v, cs', rfl, hv, hrest⟩
    · rw [run?_cons, hfeed, Option.bind_assoc] at h
      obtain ⟨s₁, hfinish, hrest⟩ := Option.bind_eq_some_iff.1 h
      obtain ⟨v, hv, rfl⟩ := exists_of_finishToken hscanning hfinish
      refine ⟨[], v, c :: cs, rfl, by rwa [List.append_nil], ?_⟩
      rw [run?_cons]
      exact hrest

/-! ### texts -/

/-- Scanning goes on after a token. -/
theorem lexes_push (ht : t.Spelled piece)
    (h : ∃ ts, Lexes cs ts ∧ s'.tokens = ts.reverse ++ t :: out) :
    ∃ ts, Lexes (piece ++ cs) ts ∧ s'.tokens = ts.reverse ++ out := by
  obtain ⟨ts, hts, htokens⟩ := h
  refine ⟨t :: ts, lexes_token ht hts, ?_⟩
  rw [htokens, List.reverse_cons, List.append_assoc]
  rfl

/-- What the scanner finds between tokens and after them is spelled as the grammar says. -/
theorem exists_of_run?_between {cs : List Char} {out : List Token}
    (h : run? ⟨.between, out⟩ cs = some s') :
    ∃ ts, Lexes cs ts ∧ s'.tokens = ts.reverse ++ out := by
  match cs with
  | [] =>
    cases h
    exact ⟨[], .nil nofun, rfl⟩
  | c :: cs =>
    obtain ⟨s₁, hfeed, hrest⟩ := exists_of_run?_cons h
    simp only [feed] at hfeed
    unfold start at hfeed
    have hspace (hc : c = ' ' ∨ c = '\n' ∨ c = '\t' ∨ c = '\r')
        (hs₁ : some ⟨.between, out⟩ = some s₁) :
        ∃ ts, Lexes (c :: cs) ts ∧ s'.tokens = ts.reverse ++ out := by
      cases hs₁
      obtain ⟨ts, hts, htokens⟩ := exists_of_run?_between hrest
      exact ⟨ts, lexes_space hc hts, htokens⟩
    have hmark {t : Token} (ht : t.Spelled [c]) (hs₁ : some ⟨.between, t :: out⟩ = some s₁) :
        ∃ ts, Lexes (c :: cs) ts ∧ s'.tokens = ts.reverse ++ out := by
      cases hs₁
      exact lexes_push ht (exists_of_run?_between hrest)
    split at hfeed
    · exact hspace (by simp) hfeed
    · exact hspace (by simp) hfeed
    · exact hspace (by simp) hfeed
    · exact hspace (by simp) hfeed
    · exact hmark .leftBrace hfeed
    · exact hmark .rightBrace hfeed
    · exact hmark .leftBracket hfeed
    · exact hmark .rightBracket hfeed
    · exact hmark .comma hfeed
    · exact hmark .colon hfeed
    · cases hfeed
      obtain ⟨body, symbols, cs, rfl, hbody, hrest⟩ := exists_of_run?_string hrest
      have htoken := lexes_push (.string hbody) (exists_of_run?_between hrest)
      simpa using htoken
    · have hscalar : ∃ scanning : List Char → Scanning,
          (scanning = .number ∨ scanning = .word) ∧ s₁ = ⟨scanning [c], out⟩ := by
        split at hfeed
        · cases hfeed
          exact ⟨.number, .inl rfl, rfl⟩
        · split at hfeed
          · cases hfeed
            exact ⟨.word, .inr rfl, rfl⟩
          · exact nomatch hfeed
      obtain ⟨scanning, hscanning, rfl⟩ := hscalar
      obtain ⟨front, v, cs, rfl, hv, hrest⟩ := exists_of_run?_scalar hscanning hrest
      exact lexes_push (.scalar hv) (exists_of_run?_between hrest)
termination_by cs.length

end Scanner

/-! ## whole texts -/

variable {cs : List Char} {ts : List Token}

/-- A text is cut into its tokens, if no two numbers or words follow each other. -/
theorem tokens?_of_lexes (h : Lexes cs ts) (hts : ts.IsChain Apart) : tokens? cs = some ts := by
  have hrun := Scanner.run?_lexes h hts []
  rw [List.append_nil] at hrun
  obtain ⟨s, hfeed, hfinish⟩ := Option.bind_eq_some_iff.1 hrun
  simp [tokens?, hfeed, hfinish]

/-- What a text is cut into are its tokens. -/
theorem lexes_of_tokens? (h : tokens? cs = some ts) : Lexes cs ts := by
  obtain ⟨s, hfeed, h⟩ := Option.bind_eq_some_iff.1 h
  obtain ⟨s', hfinish, h⟩ := Option.bind_eq_some_iff.1 h
  cases h
  obtain ⟨ts, hts, htokens⟩ :=
    Scanner.exists_of_run?_between (Option.bind_eq_some_iff.2 ⟨s, hfeed, hfinish⟩)
  rw [htokens, List.append_nil, List.reverse_reverse]
  exact hts

end CallAdmission.Json
