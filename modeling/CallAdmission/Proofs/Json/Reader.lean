import CallAdmission.Proofs.Json.Scanner

/-!
# CallAdmission.Proofs.Json.Reader

The reader accepts the texts of the grammar, and reads from each the value that it spells.

* `foldlM_tokens` — the tokens of a value make a reader that expects a value complete with it;
* `consumed_of_feed` — what a reader has taken in can be told from what it is in the middle of;
* `read?_eq_some_iff` — a text is read as a value exactly if it spells that value.
-/

namespace CallAdmission.Json

namespace Reader

variable {r r' : Reader} {t : Token} {ts : List Token} {v : Value} {cs : List Container}

/-! ## from values to the reader -/

/-- The first item of an array is read as any value is. -/
theorem foldlM_firstItem (v : Value) (cs : List Container) :
    v.tokens.foldlM feed ⟨cs, .firstItem⟩ = v.tokens.foldlM feed ⟨cs, .value⟩ := by
  cases v with
  | array items => cases items <;> rfl
  | object members => cases members <;> rfl
  | null | bool | number | string => rfl

mutual

/-- The tokens of a value make a reader that expects a value complete with it. -/
theorem foldlM_tokens (cs : List Container) (v : Value) :
    v.tokens.foldlM feed ⟨cs, .value⟩ = some ⟨cs, .complete v⟩ := by
  cases v with
  | null | bool | number | string => rfl
  | array items =>
    cases items with
    | nil => rfl
    | cons v rest =>
      have hv := (foldlM_firstItem v _).trans (foldlM_tokens (.array [] :: cs) v)
      have hrest := foldlM_moreItems cs [] v rest
      simp [Value.tokens, feed, startValue, hv, hrest]
  | object members =>
    cases members with
    | nil => rfl
    | cons m rest =>
      obtain ⟨key, v⟩ := m
      have hv := foldlM_tokens (.object [] key :: cs) v
      have hrest := foldlM_moreMembers cs [] key v rest
      simp [Value.tokens, feed, startValue, hv, hrest]

/-- The items after a complete one, up to the end of the array. -/
theorem foldlM_moreItems (cs : List Container) (items : List Value) (v : Value)
    (rest : List Value) :
    (moreItems rest).foldlM feed ⟨.array items :: cs, .complete v⟩ =
      some ⟨cs, .complete (.array (items.reverse ++ v :: rest))⟩ := by
  cases rest with
  | nil => simp [moreItems, feed, afterValue]
  | cons w rest =>
    have hw := foldlM_tokens (.array (v :: items) :: cs) w
    have hrest := foldlM_moreItems cs (v :: items) w rest
    simp [moreItems, feed, afterValue, hw, hrest]

/-- The members after a complete one, up to the end of the object. -/
theorem foldlM_moreMembers (cs : List Container) (members : List (List Symbol × Value))
    (key : List Symbol) (v : Value) (rest : List (List Symbol × Value)) :
    (moreMembers rest).foldlM feed ⟨.object members key :: cs, .complete v⟩ =
      some ⟨cs, .complete (.object (members.reverse ++ (key, v) :: rest))⟩ := by
  cases rest with
  | nil => simp [moreMembers, feed, afterValue]
  | cons m rest =>
    obtain ⟨key', w⟩ := m
    have hw := foldlM_tokens (.object ((key, v) :: members) key' :: cs) w
    have hrest := foldlM_moreMembers cs ((key, v) :: members) key' w rest
    simp [moreMembers, feed, afterValue, hw, hrest]

end

/-- A number or a word is a complete value. -/
theorem phase_of_feed_scalar (h : r.feed (.scalar v) = some r') : r'.phase = .complete v := by
  obtain ⟨containers, phase⟩ := r
  cases phase with
  | value | firstItem =>
    cases h
    rfl
  | complete w =>
    simp only [feed] at h
    unfold afterValue at h
    split at h <;> contradiction
  | firstKey | key | colon => exact nomatch h

/-- A number or a word does not follow a complete value. -/
theorem feed_scalar_of_complete {w : Value} (h : r.phase = .complete w) :
    r.feed (.scalar v) = none := by
  obtain ⟨containers, phase⟩ := r
  cases h
  simp only [feed]
  unfold afterValue
  split <;> simp_all

/-- No reader takes two numbers or words one after the other. -/
theorem isChain_of_foldlM (h : ts.foldlM feed r = some r') : ts.IsChain Apart := by
  induction ts generalizing r with
  | nil => exact .nil
  | cons t ts ih =>
    obtain ⟨r₁, hfeed, hrest⟩ := Option.bind_eq_some_iff.1 h
    refine List.isChain_cons.2 ⟨fun u hu ht => ?_, ih hrest⟩
    obtain ⟨us, rfl⟩ := List.head?_eq_some_iff.1 hu
    obtain ⟨r₂, hnext, -⟩ := Option.bind_eq_some_iff.1 hrest
    cases t with
    | scalar v =>
      cases u with
      | scalar w =>
        rw [feed_scalar_of_complete (phase_of_feed_scalar hfeed)] at hnext
        exact nomatch hnext
      | _ => rfl
    | _ => exact nomatch ht

/-! ## from the reader to values -/

/-- The tokens of items, each with the comma after it. -/
def itemsBefore (items : List Value) : List Token := items.flatMap fun v => v.tokens ++ [.comma]

/-- The tokens of members, each with the comma after it. -/
def membersBefore (members : List (List Symbol × Value)) : List Token :=
  members.flatMap fun m => .string m.1 :: .colon :: (m.2.tokens ++ [.comma])

theorem moreItems_append (items : List Value) (v : Value) :
    moreItems (items ++ [v]) = .comma :: (itemsBefore items ++ (v.tokens ++ [.rightBracket])) := by
  induction items with
  | nil => simp [itemsBefore, moreItems]
  | cons w items ih =>
    rw [List.cons_append, moreItems, ih]
    simp [itemsBefore]

theorem moreMembers_append (members : List (List Symbol × Value)) (key : List Symbol) (v : Value) :
    moreMembers (members ++ [(key, v)]) = .comma :: (membersBefore members ++
      .string key :: .colon :: (v.tokens ++ [.rightBrace])) := by
  induction members with
  | nil => simp [membersBefore, moreMembers]
  | cons m members ih =>
    rw [List.cons_append, moreMembers, ih]
    simp [membersBefore]

/-- The tokens of an array by its last item. -/
theorem tokens_array_append (items : List Value) (v : Value) :
    (Value.array (items ++ [v])).tokens =
      .leftBracket :: (itemsBefore items ++ (v.tokens ++ [.rightBracket])) := by
  cases items with
  | nil => simp [Value.tokens, itemsBefore, moreItems]
  | cons w items =>
    rw [List.cons_append, Value.tokens, moreItems_append]
    simp [itemsBefore]

/-- The tokens of an object by its last member. -/
theorem tokens_object_append (members : List (List Symbol × Value)) (key : List Symbol)
    (v : Value) :
    (Value.object (members ++ [(key, v)])).tokens =
      .leftBrace :: (membersBefore members ++
        .string key :: .colon :: (v.tokens ++ [.rightBrace])) := by
  cases members with
  | nil => simp [Value.tokens, membersBefore, moreMembers]
  | cons m members =>
    rw [List.cons_append, Value.tokens, moreMembers_append]
    simp [membersBefore]

/-- The tokens of a container, as far as it has been read. -/
def containerTokens : Container → List Token
  | .array items => .leftBracket :: itemsBefore items.reverse
  | .object members key => .leftBrace :: (membersBefore members.reverse ++ [.string key, .colon])

/-- The tokens since the innermost open container, or of the object that is not open for a value. -/
def phaseTokens : Phase → List Token
  | .value | .firstItem => []
  | .firstKey => [.leftBrace]
  | .key members => .leftBrace :: membersBefore members.reverse
  | .colon members key => .leftBrace :: (membersBefore members.reverse ++ [.string key])
  | .complete v => v.tokens

/-- The tokens that a reader has taken in. -/
def consumed (r : Reader) : List Token :=
  r.containers.reverse.flatMap containerTokens ++ phaseTokens r.phase

/-- A first item belongs to an array that has been opened. -/
def Opened (r : Reader) : Prop := r.phase = .firstItem → ∃ cs, r.containers = .array [] :: cs

/-- The token, if it is a value, is all there is of it. -/
def Atomic (t : Token) : Prop := ∀ v, t = .scalar v → v.tokens = [t]

theorem consumed_of_startValue (ht : Atomic t) (h : r.startValue t = some r') :
    r'.Opened ∧ r'.consumed = r.containers.reverse.flatMap containerTokens ++ [t] := by
  cases t with
  | scalar v =>
    cases h
    refine ⟨nofun, ?_⟩
    rw [consumed, phaseTokens, ht v rfl]
  | string s =>
    cases h
    exact ⟨nofun, rfl⟩
  | leftBracket =>
    cases h
    refine ⟨fun _ => ⟨_, rfl⟩, ?_⟩
    simp [consumed, phaseTokens, containerTokens, itemsBefore]
  | leftBrace =>
    cases h
    exact ⟨nofun, rfl⟩
  | rightBrace | rightBracket | comma | colon => exact nomatch h

theorem consumed_of_afterValue (h : afterValue v cs t = some r') :
    r'.Opened ∧ r'.consumed = cs.reverse.flatMap containerTokens ++ (v.tokens ++ [t]) := by
  unfold afterValue at h
  split at h
  · cases h
    refine ⟨nofun, ?_⟩
    simp [consumed, phaseTokens, containerTokens, itemsBefore]
  · cases h
    refine ⟨nofun, ?_⟩
    simp [consumed, phaseTokens, containerTokens, tokens_array_append]
  · cases h
    refine ⟨nofun, ?_⟩
    simp [consumed, phaseTokens, containerTokens, membersBefore]
  · cases h
    refine ⟨nofun, ?_⟩
    simp [consumed, phaseTokens, containerTokens, tokens_object_append]
  · exact nomatch h

/-- A reader takes in one token after the other. -/
theorem consumed_of_feed (ht : Atomic t) (hr : r.Opened) (h : r.feed t = some r') :
    r'.Opened ∧ r'.consumed = r.consumed ++ [t] := by
  obtain ⟨containers, phase⟩ := r
  cases phase with
  | value =>
    have hstart := consumed_of_startValue ht h
    rwa [← List.append_nil (containers.reverse.flatMap containerTokens)] at hstart
  | firstItem =>
    obtain ⟨cs, rfl⟩ := hr rfl
    cases t with
    | rightBracket =>
      cases h
      refine ⟨nofun, ?_⟩
      simp [consumed, phaseTokens, containerTokens, itemsBefore, Value.tokens]
    | _ =>
      have hstart := consumed_of_startValue (r := ⟨.array [] :: cs, .firstItem⟩) ht h
      rwa [← List.append_nil (List.flatMap containerTokens _)] at hstart
  | firstKey =>
    cases t with
    | rightBrace | string key =>
      cases h
      refine ⟨nofun, ?_⟩
      simp [consumed, phaseTokens, membersBefore, Value.tokens]
    | _ => exact nomatch h
  | key members =>
    cases t with
    | string key =>
      cases h
      refine ⟨nofun, ?_⟩
      simp [consumed, phaseTokens]
    | _ => exact nomatch h
  | colon members key =>
    cases t with
    | colon =>
      cases h
      refine ⟨nofun, ?_⟩
      simp [consumed, phaseTokens, containerTokens]
    | _ => exact nomatch h
  | complete v =>
    have hafter := consumed_of_afterValue h
    rwa [← List.append_assoc] at hafter

/-- A reader takes in all tokens of a text. -/
theorem consumed_of_foldlM (hts : ∀ t ∈ ts, Atomic t) (hr : r.Opened)
    (h : ts.foldlM feed r = some r') : r'.consumed = r.consumed ++ ts := by
  induction ts generalizing r with
  | nil =>
    cases h
    rw [List.append_nil]
  | cons t ts ih =>
    obtain ⟨r₁, hfeed, hrest⟩ := Option.bind_eq_some_iff.1 h
    obtain ⟨ht, hts⟩ := List.forall_mem_cons.1 hts
    obtain ⟨hopened, hconsumed⟩ := consumed_of_feed ht hr hfeed
    rw [ih hts hopened hrest, hconsumed, List.append_assoc]
    rfl

/-- A value is read from its tokens. -/
theorem tokens_of_result? (hts : ∀ t ∈ ts, Atomic t) (h : ts.foldlM feed {} = some r)
    (hv : r.result? = some v) : ts = v.tokens := by
  have hopened : Opened {} := fun hphase => nomatch hphase
  have hconsumed := consumed_of_foldlM hts hopened h
  obtain ⟨containers, phase⟩ := r
  unfold result? at hv
  split at hv
  · next hcontainers hphase =>
    cases hv
    simp only at hcontainers hphase
    subst hcontainers hphase
    exact hconsumed.symm
  · exact nomatch hv

/-- The tokens of a text are values only as a whole. -/
theorem atomic_of_lexes {text : List Char} (h : Lexes text ts) : ∀ t ∈ ts, Atomic t := by
  induction h with
  | nil => exact nofun
  | cons hspaces ht hrest ih =>
    refine List.forall_mem_cons.2 ⟨?_, ih⟩
    rintro v rfl
    cases ht with
    | scalar h => cases h <;> rfl

end Reader

/-- **Reading.** A text is read as a value exactly if it spells that value. -/
theorem read?_eq_some_iff {text : String} {v : Value} : read? text = some v ↔ Spells text v := by
  constructor
  · intro h
    obtain ⟨ts, hts, h⟩ := Option.bind_eq_some_iff.1 h
    obtain ⟨r, hr, hv⟩ := Option.bind_eq_some_iff.1 h
    have hlexes := lexes_of_tokens? hts
    rwa [Reader.tokens_of_result? (Reader.atomic_of_lexes hlexes) hr hv] at hlexes
  · intro h
    have hread := Reader.foldlM_tokens [] v
    have htokens := tokens?_of_lexes h (Reader.isChain_of_foldlM hread)
    simp [read?, htokens, hread, Reader.result?]

end CallAdmission.Json
