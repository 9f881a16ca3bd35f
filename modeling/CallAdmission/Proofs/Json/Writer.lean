import CallAdmission.Proofs.Json.Reader

/-!
# CallAdmission.Proofs.Json.Writer

What is written is spelled as the grammar says, so it is read back as the value that was written.

* `element_writeSymbol`, `number_toDigits` — the parts of a value;
* `spells_compact` — the value on one line;
* `read?_compact` — what is written on one line is read back.
-/

namespace CallAdmission.Json

open Text (Decimal decimal hexDigit?)

/-! ## numbers -/

/-- No zero stands in front of the digits of a number, unless it is zero. -/
theorem head?_toDigits {n : Nat} (hn : n ≠ 0) : (Nat.toDigits 10 n).head? ≠ some '0' := by
  induction n using Nat.strongRecOn with
  | ind n ih =>
    by_cases hlt : n < 10
    · rw [Nat.toDigits_of_lt_base hlt, List.head?_cons, ne_eq, Option.some.injEq,
        Nat.digitChar_eq_zero]
      exact hn
    · have hle : 10 ≤ n := Nat.not_lt.1 hlt
      rw [Nat.toDigits_of_base_le (by decide) hle,
        List.head?_append_of_ne_nil _ Nat.toDigits_ne_nil]
      exact ih (n / 10) (by omega) (by omega)

/-- A natural number is written as a number. -/
theorem number_toDigits (n : Nat) : Number (Nat.toDigits 10 n) := by
  have hwhole : Whole (Nat.toDigits 10 n) := by
    by_cases hn : n = 0
    · rw [hn, Nat.toDigits_zero]
      exact .zero
    · refine .digits ⟨Nat.toDigits_ne_nil, fun c hc => ?_⟩ (head?_toDigits hn)
      exact Nat.isDigit_of_mem_toDigits (by decide) (by decide) hc
  have hnumber := Number.unsigned (.intro hwhole .none .none)
  simpa using hnumber

/-- The number of a list of digits. -/
theorem ofDigits_eq_some_iff {n m : Nat} {cs : List Char} :
    Value.ofDigits n cs = some m ↔ Decimal cs ∧ Nat.ofDigitChars 10 cs n = m := by
  induction cs generalizing n with
  | nil => simp [Value.ofDigits, Decimal]
  | cons c cs ih =>
    rw [Value.ofDigits, Nat.ofDigitChars_cons]
    cases hc : c.isDigit with
    | false => simp [Decimal, hc]
    | true => simp [ih, Decimal, hc]

theorem word?_number_iff {cs : List Char} {n : UInt64} :
    (Value.number cs).word? = some n ↔ Decimal cs ∧ decimal cs = n.toNat := by
  rw [Value.word?, decimal]
  constructor
  · intro h
    obtain ⟨m, hm, h⟩ := Option.bind_eq_some_iff.1 h
    obtain ⟨hcs, rfl⟩ := ofDigits_eq_some_iff.1 hm
    split at h
    · next hlt =>
      cases h
      rw [UInt64.toNat_ofNat_of_lt' hlt]
      exact ⟨hcs, rfl⟩
    · exact nomatch h
  · rintro ⟨hcs, hn⟩
    have hdigits := ofDigits_eq_some_iff.2 ⟨hcs, hn⟩
    simp [hdigits, n.toNat_lt]

/-- A value is a word if it is written as one, with digits alone. -/
theorem word?_eq_some_iff {v : Value} {n : UInt64} :
    v.word? = some n ↔ ∃ ds, v = .number ds ∧ Decimal ds ∧ decimal ds = n.toNat := by
  cases v with
  | number ds =>
    rw [word?_number_iff]
    constructor
    · exact fun h => ⟨ds, rfl, h⟩
    · rintro ⟨_, ⟨⟩, h⟩
      exact h
  | null | bool | string | array | object => exact ⟨nofun, nofun⟩

/-! ## texts as strings -/

theorem chars?_eq_some_iff {s : List Symbol} {cs : List Char} :
    chars? s = some cs ↔ s = cs.map .char := by
  constructor
  · intro h
    fun_induction chars? s generalizing cs with
    | case1 =>
      cases h
      rfl
    | case2 c rest ih =>
      obtain ⟨cs, hcs, rfl⟩ := Option.map_eq_some_iff.1 h
      rw [ih hcs, List.map_cons]
    | case3 => exact nomatch h
  · rintro rfl
    exact chars?_map_char cs

/-- A string is a text if it is the string of that text. -/
theorem toText?_eq_some_iff {s : List Symbol} {text : String} :
    toText? s = some text ↔ s = ofText text := by
  rw [toText?, Option.map_eq_some_iff]
  constructor
  · rintro ⟨cs, hcs, rfl⟩
    rw [ofText, String.toList_ofList]
    exact chars?_eq_some_iff.1 hcs
  · rintro rfl
    exact ⟨text.toList, chars?_map_char _, String.ofList_toList⟩

theorem ofText_injective {a b : String} (h : ofText a = ofText b) : a = b := by
  have ha := toText?_ofText a
  rw [h, toText?_ofText] at ha
  exact (Option.some.inj ha).symm

/-- A value is a text if it is the string of that text. -/
theorem text?_eq_some_iff {v : Value} {text : String} :
    v.text? = some text ↔ v = .text text := by
  cases v with
  | string s => rw [Value.text?, toText?_eq_some_iff, Value.text, Value.string.injEq]
  | null | bool | number | array | object => exact ⟨nofun, nofun⟩

/-- What is read from a text's characters is read from every JSON text that spells the text. -/
theorem read?_bind_text?_eq_some_iff {α : Type} {f : String → Option α} {json : String} {a : α} :
    ((read? json).bind fun v => v.text?.bind f) = some a ↔
      ∃ text, Spells json (.text text) ∧ f text = some a := by
  simp only [Option.bind_eq_some_iff, read?_eq_some_iff, text?_eq_some_iff]
  constructor
  · rintro ⟨_, hspells, text, rfl, ha⟩
    exact ⟨text, hspells, ha⟩
  · rintro ⟨text, hspells, ha⟩
    exact ⟨_, hspells, text, rfl, ha⟩

/-! ## strings -/

/-- The digits of a code unit, with zeros in front. -/
def unitDigits (k n : Nat) : List Char :=
  List.replicate (k - (Nat.toDigits 16 n).length) '0' ++ Nat.toDigits 16 n

theorem unitDigits_succ {k : Nat} (hk : 0 < k) (n : Nat) :
    unitDigits (k + 1) n = unitDigits k (n / 16) ++ [Nat.digitChar (n % 16)] := by
  unfold unitDigits
  by_cases hlt : n < 16
  · obtain ⟨k, rfl⟩ := Nat.exists_eq_add_one.2 hk
    rw [Nat.toDigits_of_lt_base hlt, Nat.div_eq_of_lt hlt, Nat.toDigits_zero, Nat.mod_eq_of_lt hlt,
      ← List.replicate_succ']
    simp
  · have hle : 16 ≤ n := Nat.not_lt.1 hlt
    rw [Nat.toDigits_of_base_le (by decide) hle, List.length_append, List.append_assoc]
    simp

theorem unitDigits_one {n : Nat} (hn : n < 16) : unitDigits 1 n = [Nat.digitChar n] := by
  rw [unitDigits, Nat.toDigits_of_lt_base hn]
  rfl

theorem hexDigit?_digitChar {n : Nat} (hn : n < 16) : hexDigit? (Nat.digitChar n) = some n := by
  have hall : ∀ n < 16, hexDigit? (Nat.digitChar n) = some n := by decide
  exact hall n hn

/-- A code unit is written with four digits. -/
theorem element_writeUnit {n : Nat} (hn : n < 0x10000) :
    Element (Value.writeUnit n).toList (symbolOfUnit n) := by
  have hdigits : (Value.writeUnit n).toList =
      ['\\', 'u', Nat.digitChar (n / 16 / 16 / 16), Nat.digitChar (n / 16 / 16 % 16),
        Nat.digitChar (n / 16 % 16), Nat.digitChar (n % 16)] := by
    have hfour : unitDigits 4 n = [Nat.digitChar (n / 16 / 16 / 16),
        Nat.digitChar (n / 16 / 16 % 16), Nat.digitChar (n / 16 % 16),
        Nat.digitChar (n % 16)] := by
      rw [unitDigits_succ (by decide), unitDigits_succ (by decide), unitDigits_succ (by decide),
        unitDigits_one (by omega)]
      rfl
    rw [← hfour]
    simp [Value.writeUnit, Text.hex, unitDigits]
  have hvalue : 16 * (16 * (16 * (n / 16 / 16 / 16) + n / 16 / 16 % 16) + n / 16 % 16) + n % 16 =
      n := by
    omega
  have helement := Element.unit (hexDigit?_digitChar (n := n / 16 / 16 / 16) (by omega))
    (hexDigit?_digitChar (n := n / 16 / 16 % 16) (by omega))
    (hexDigit?_digitChar (n := n / 16 % 16) (by omega))
    (hexDigit?_digitChar (n := n % 16) (by omega))
  rwa [hvalue, ← hdigits] at helement

/-- A character is written as itself or escaped. -/
theorem element_writeChar (c : Char) : Element (Value.writeChar c).toList (.char c) := by
  unfold Value.writeChar
  split
  · exact .letter rfl
  · exact .letter rfl
  · exact .letter rfl
  · exact .letter rfl
  · exact .letter rfl
  · exact .letter rfl
  · exact .letter rfl
  · next hquote hescape _ _ _ _ _ =>
    split
    · next hcontrol =>
      have hsymbol : symbolOfUnit c.toNat = .char c := by
        have hhigh : isHighSurrogate c.toNat = false := by simp [isHighSurrogate]; omega
        have hlow : isLowSurrogate c.toNat = false := by simp [isLowSurrogate]; omega
        simp [symbolOfUnit, hhigh, hlow]
      have helement := element_writeUnit (n := c.toNat) (by omega)
      rwa [hsymbol] at helement
    · next hcontrol =>
      rw [Char.toString_eq_singleton, String.toList_singleton]
      exact .plain (Nat.not_lt.1 hcontrol) hquote hescape

/-- A string that can be written: what stands alone in it are halves of surrogate pairs, and no two
of them that make up a pair stand side by side. -/
structure Paired (s : List Symbol) : Prop where
  lone : ∀ unit, .lone unit ∈ s → 0xd800 ≤ unit ∧ unit < 0xe000
  joined : joinPairs s = s

/-- A string of characters can be written. -/
theorem paired_ofText (s : String) : Paired (ofText s) where
  lone := by simp [ofText]
  joined := by
    rw [ofText]
    induction s.toList with
    | nil => rfl
    | cons c cs ih => rw [List.map_cons, joinPairs, ih]; simp

theorem element_writeSymbol {symbol : Symbol}
    (h : ∀ unit, symbol = .lone unit → 0xd800 ≤ unit ∧ unit < 0xe000) :
    Element (Value.writeSymbol symbol).toList symbol := by
  cases symbol with
  | char c => exact element_writeChar c
  | lone unit =>
    obtain ⟨hlow, hhigh⟩ := h unit rfl
    have hsymbol : symbolOfUnit unit = .lone unit := by
      have hhalf : (isHighSurrogate unit || isLowSurrogate unit) = true := by
        simp [isHighSurrogate, isLowSurrogate]
        omega
      rw [symbolOfUnit, if_pos hhalf]
    have helement := element_writeUnit (n := unit) (by omega)
    rwa [hsymbol] at helement

/-- A string is written between quotes. -/
theorem spelled_writeString {s : List Symbol} (h : Paired s) :
    Token.Spelled (Value.writeString s).toList (.string s) := by
  have hbody : Body (s.flatMap fun symbol => (Value.writeSymbol symbol).toList) s := by
    have hlone := h.lone
    clear h
    induction s with
    | nil => exact .nil
    | cons symbol s ih =>
      rw [List.flatMap_cons]
      refine .cons (element_writeSymbol fun unit hunit => ?_) (ih fun unit hunit => ?_)
      · exact hlone unit (hunit ▸ List.mem_cons_self)
      · exact hlone unit (List.mem_cons_of_mem _ hunit)
  have hspelled := Token.Spelled.string hbody
  rw [h.joined] at hspelled
  simpa [Value.writeString, List.flatMap_map] using hspelled

/-! ## values -/

/-- A value that can be written. -/
inductive WellFormed : Value → Prop
  | null : WellFormed .null
  | bool (b : Bool) : WellFormed (.bool b)
  | number {cs : List Char} (h : Number cs) : WellFormed (.number cs)
  | string {s : List Symbol} (h : Paired s) : WellFormed (.string s)
  | array {items : List Value} (h : ∀ v ∈ items, WellFormed v) : WellFormed (.array items)
  | object {members : List (List Symbol × Value)} (hkeys : ∀ m ∈ members, Paired m.1)
    (h : ∀ m ∈ members, WellFormed m.2) : WellFormed (.object members)

/-- A natural number can be written. -/
theorem wellFormed_natural (n : Nat) : WellFormed (.natural n) := .number (number_toDigits n)

/-- A text can be written. -/
theorem wellFormed_text (s : String) : WellFormed (.text s) := .string (paired_ofText s)

theorem compactItems_eq (items : List Value) :
    Value.compactItems items = items.map (·.compact) := by
  induction items with
  | nil => rfl
  | cons v items ih => rw [Value.compactItems, ih, List.map_cons]

theorem compactMembers_eq (members : List (List Symbol × Value)) :
    Value.compactMembers members =
      members.map fun m => Value.writeString m.1 ++ ":" ++ m.2.compact := by
  induction members with
  | nil => rfl
  | cons m members ih =>
    obtain ⟨key, v⟩ := m
    rw [Value.compactMembers, ih, List.map_cons]

/-- Parts with a separator between them. -/
theorem intercalate_cons (c : Char) (part : List Char) (parts : List (List Char)) :
    [c].intercalate (part :: parts) = part ++ parts.flatMap (c :: ·) := by
  induction parts generalizing part with
  | nil => simp
  | cons next parts ih =>
    rw [List.intercalate_cons_cons, ih, List.flatMap_cons]
    simp

/-- The items after the first one, up to the end of the array. -/
theorem lexes_moreItems {rest : List Value} (h : ∀ v ∈ rest, Spells v.compact v) :
    Lexes (rest.flatMap (fun v => ',' :: v.compact.toList) ++ [']']) (moreItems rest) := by
  induction rest with
  | nil => exact lexes_singleton .rightBracket
  | cons v rest ih =>
    obtain ⟨hv, hrest⟩ := List.forall_mem_cons.1 h
    rw [List.flatMap_cons, List.append_assoc, moreItems]
    show Lexes ([','] ++ (_ ++ _)) _
    exact lexes_token .comma (lexes_append hv (ih hrest))

/-- A member of an object. -/
theorem lexes_member {key : List Symbol} {v : Value} (hkey : Paired key)
    (hv : Spells v.compact v) :
    Lexes (Value.writeString key ++ ":" ++ v.compact).toList
      (.string key :: .colon :: v.tokens) := by
  rw [String.toList_append, String.toList_append, List.append_assoc]
  exact lexes_token (spelled_writeString hkey) (lexes_token .colon hv)

/-- The members after the first one, up to the end of the object. -/
theorem lexes_moreMembers {rest : List (List Symbol × Value)} (hkeys : ∀ m ∈ rest, Paired m.1)
    (h : ∀ m ∈ rest, Spells m.2.compact m.2) :
    Lexes (rest.flatMap (fun m => ',' :: (Value.writeString m.1 ++ ":" ++ m.2.compact).toList) ++
      ['\x7d']) (moreMembers rest) := by
  induction rest with
  | nil => exact lexes_singleton .rightBrace
  | cons m rest ih =>
    obtain ⟨hkey, hkeys⟩ := List.forall_mem_cons.1 hkeys
    obtain ⟨hv, hrest⟩ := List.forall_mem_cons.1 h
    rw [List.flatMap_cons, List.append_assoc, moreMembers]
    show Lexes ([','] ++ (_ ++ _)) _
    exact lexes_token .comma (lexes_append (lexes_member hkey hv) (ih hkeys hrest))

/-- A value on one line spells the value. -/
theorem spells_compact {v : Value} (h : WellFormed v) : Spells v.compact v := by
  induction h with
  | null => exact lexes_singleton (.scalar .null)
  | bool b =>
    cases b with
    | false => exact lexes_singleton (.scalar .false)
    | true => exact lexes_singleton (.scalar .true)
  | @number cs h =>
    rw [Spells, Value.compact, String.toList_ofList]
    exact lexes_singleton (.scalar (.number h))
  | string h => exact lexes_singleton (spelled_writeString h)
  | @array items h ih =>
    cases items with
    | nil => exact lexes_token .leftBracket (lexes_singleton .rightBracket)
    | cons v rest =>
      obtain ⟨hv, hrest⟩ := List.forall_mem_cons.1 ih
      have htext : (Value.array (v :: rest)).compact.toList =
          ['['] ++ (v.compact.toList ++
            (rest.flatMap (fun v => ',' :: v.compact.toList) ++ [']'])) := by
        simp [Value.compact, compactItems_eq, intercalate_cons, List.flatMap_map]
      rw [Spells, htext, Value.tokens]
      exact lexes_token .leftBracket (lexes_append hv (lexes_moreItems hrest))
  | @object members hkeys h ih =>
    cases members with
    | nil => exact lexes_token .leftBrace (lexes_singleton .rightBrace)
    | cons m rest =>
      obtain ⟨key, v⟩ := m
      obtain ⟨hkey, hmore⟩ := List.forall_mem_cons.1 hkeys
      obtain ⟨hv, hrest⟩ := List.forall_mem_cons.1 ih
      have htext : (Value.object ((key, v) :: rest)).compact.toList =
          ['\x7b'] ++ ((Value.writeString key ++ ":" ++ v.compact).toList ++
            (rest.flatMap (fun m => ',' :: (Value.writeString m.1 ++ ":" ++ m.2.compact).toList) ++
              ['\x7d'])) := by
        simp [Value.compact, compactMembers_eq, intercalate_cons, List.flatMap_map]
      rw [Spells, htext, Value.tokens]
      exact lexes_token .leftBrace
        (lexes_append (lexes_member hkey hv) (lexes_moreMembers hmore hrest))

/-- **Round trip.** What is written on one line is read back. -/
theorem read?_compact {v : Value} (h : WellFormed v) : read? v.compact = some v :=
  read?_eq_some_iff.2 (spells_compact h)

end CallAdmission.Json
