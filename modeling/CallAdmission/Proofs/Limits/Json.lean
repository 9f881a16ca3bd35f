import CallAdmission.Limits.Json
import CallAdmission.Proofs.Json.Writer

/-!
# CallAdmission.Proofs.Limits.Json

Limits as JSON texts. Which limits a text is read as depends on the values that it has for each of
them alone: none leaves the default, one has to be an unsigned integer, and more are refused.

* `foldlM_readMember_iff` — what the members of an object add to values read before;
* `ofJsonText?_object_iff`, `ofJsonText?_array_iff` — the two forms of limits;
* `json_form` — the round trip, what is read, and what is refused.
-/

namespace CallAdmission

open Json (Symbol Value ofText Spells)
open Text (Decimal decimal)

/-! ## what is meant -/

namespace Limits

/-- The members of an object are named by texts. -/
def Named (members : List (List Symbol × Value)) : Prop :=
  ∀ m ∈ members, ∃ name, m.1 = ofText name

/-- The values of the members with a name. -/
def valuesOf (members : List (List Symbol × Value)) (name : String) : List Value :=
  (members.filter (·.1 = ofText name)).map (·.2)

/-- The items of an array for a limit: the first one for the limit on all calls, and those after it
for the one on a host's. -/
def itemsOf (items : List Value) : Limit → List Value
  | .total => items.take 1
  | .perHost => items.drop 1

/-- What the values for a limit make of it: without one it is the default, and one alone has to be
an unsigned integer. -/
inductive Supplies (limit : Limit) : List Value → UInt64 → Prop
  | default : Supplies limit [] (Limits.get ⟨64, 5⟩ limit)
  | integer {ds : List Char} {n : UInt64} (hds : Decimal ds) (hn : decimal ds = n.toNat) :
    Supplies limit [.number ds] n

/-- A number that is no unsigned integer below `2 ^ 64`. -/
inductive Unfit (cs : List Char) : Prop
  | negative (h : '-' ∈ cs)
  | fractional (h : '.' ∈ cs)
  | exponent (h : 'e' ∈ cs ∨ 'E' ∈ cs)
  | tooLarge (hcs : Decimal cs) (h : 2 ^ 64 ≤ decimal cs)

end Limits

/-! ## names -/

/-- The limit with a name. -/
theorem Limit.ofName?_eq_some_iff {s : String} {limit : Limit} :
    Limit.ofName? s = some limit ↔ s = limit.name := by
  unfold ofName?
  cases limit with
  | total =>
    split
    · next h => exact ⟨fun _ => h, fun _ => rfl⟩
    · next h =>
      split
      · exact ⟨nofun, fun h' => absurd h' h⟩
      · exact ⟨nofun, fun h' => absurd h' h⟩
  | perHost =>
    split
    · next h =>
      subst h
      exact ⟨nofun, fun h => absurd h (by decide)⟩
    · split
      · next h => exact ⟨fun _ => h, fun _ => rfl⟩
      · next h => exact ⟨nofun, fun h' => absurd h' h⟩

theorem Limit.name_injective {a b : Limit} (h : a.name = b.name) : a = b := by
  rw [← Option.some_inj, ← Limit.ofName?_eq_some_iff.2 rfl, h, Limit.ofName?_eq_some_iff.2 rfl]

namespace Limits

variable {members : List (List Symbol × Value)} {o o' : Override} {limit : Limit} {v : Value}
  {key : String} {n : UInt64} {l : Limits}

theorem valuesOf_cons_of_ne {name : String} (h : key ≠ name) :
    valuesOf ((ofText key, v) :: members) name = valuesOf members name := by
  have hne : ofText key ≠ ofText name := fun heq => h (Json.ofText_injective heq)
  simp [valuesOf, hne]

theorem valuesOf_cons_self :
    valuesOf ((ofText key, v) :: members) key = v :: valuesOf members key := by
  simp [valuesOf]

/-! ## members -/

/-- Values add to a value that there may be before them: nothing, or the first one. -/
def Fills (v? : Option UInt64) (vs : List Value) (w? : Option UInt64) : Prop :=
  (vs = [] ∧ w? = v?) ∨ (v? = none ∧ ∃ v n, vs = [v] ∧ v.word? = some n ∧ w? = some n)

theorem fills_nil {v? w? : Option UInt64} : Fills v? [] w? ↔ w? = v? := by simp [Fills]

/-- The first value is added, and then there may be no other. -/
theorem fills_cons {v? w? : Option UInt64} {vs : List Value} :
    Fills v? (v :: vs) w? ↔ v? = none ∧ ∃ n, v.word? = some n ∧ Fills (some n) vs w? := by
  constructor
  · rintro (⟨h, -⟩ | ⟨hnone, w, n, h, hn, rfl⟩)
    · exact nomatch h
    · cases h
      exact ⟨hnone, n, hn, .inl ⟨rfl, rfl⟩⟩
  · rintro ⟨hnone, n, hn, ⟨rfl, rfl⟩ | ⟨h, -⟩⟩
    · exact .inr ⟨hnone, v, n, rfl, hn, rfl⟩
    · exact nomatch h

/-- A member with another name is skipped. -/
theorem readMember_unknown (h : ∀ limit : Limit, key ≠ limit.name) (o : Override) (v : Value) :
    readMember o (ofText key, v) = some o := by
  have hname : Limit.ofName? key = none := by
    rw [Option.eq_none_iff_forall_ne_some]
    exact fun limit hlimit => h limit (Limit.ofName?_eq_some_iff.1 hlimit)
  rw [readMember, Json.toText?_ofText]
  simp only [Option.bind_eq_bind, Option.bind_some, hname]
  rfl

/-- A member for a limit has to be the first one, and its value a word. -/
theorem readMember_known_iff :
    readMember o (ofText limit.name, v) = some o' ↔
      o.get? limit = none ∧ ∃ n, v.word? = some n ∧ o' = o.set limit n := by
  have hname : Limit.ofName? limit.name = some limit := Limit.ofName?_eq_some_iff.2 rfl
  rw [readMember, Json.toText?_ofText]
  simp only [Option.bind_eq_bind, Option.bind_some, hname]
  cases o.get? limit with
  | some n => exact ⟨nofun, nofun⟩
  | none =>
    refine Option.bind_eq_some_iff.trans ?_
    constructor
    · rintro ⟨n, hn, ⟨⟩⟩
      exact ⟨rfl, n, hn, rfl⟩
    · rintro ⟨-, n, hn, rfl⟩
      exact ⟨n, hn, rfl⟩

/-- A member whose name is no text is refused. -/
theorem exists_ofText_of_readMember {symbols : List Symbol}
    (h : readMember o (symbols, v) = some o') : ∃ key, symbols = ofText key := by
  obtain ⟨key, hkey, -⟩ := Option.bind_eq_some_iff.1 h
  exact ⟨key, Json.toText?_eq_some_iff.1 hkey⟩

/-- A member for a limit adds its value to the values of that limit alone. -/
theorem forall_fills_cons :
    (∀ limit', Fills (o.get? limit') (valuesOf ((ofText limit.name, v) :: members) limit'.name)
      (o'.get? limit')) ↔
    o.get? limit = none ∧ ∃ n, v.word? = some n ∧
      ∀ limit', Fills ((o.set limit n).get? limit') (valuesOf members limit'.name)
        (o'.get? limit') := by
  have hother : ∀ limit', limit ≠ limit' → valuesOf ((ofText limit.name, v) :: members)
      limit'.name = valuesOf members limit'.name :=
    fun limit' hne => valuesOf_cons_of_ne fun h => hne (Limit.name_injective h)
  constructor
  · intro h
    have hself := h limit
    rw [valuesOf_cons_self, fills_cons] at hself
    obtain ⟨hnone, n, hn, hfills⟩ := hself
    refine ⟨hnone, n, hn, fun limit' => ?_⟩
    rw [Override.get?_set]
    split
    · next heq => exact heq ▸ hfills
    · next hne => exact hother limit' hne ▸ h limit'
  · rintro ⟨hnone, n, hn, h⟩ limit'
    have hlimit' := h limit'
    rw [Override.get?_set] at hlimit'
    split at hlimit'
    · next heq =>
      subst heq
      rw [valuesOf_cons_self, fills_cons]
      exact ⟨hnone, n, hn, hlimit'⟩
    · next hne => rwa [hother limit' hne]

/-- What the members of an object add to values read before. -/
theorem foldlM_readMember_iff :
    members.foldlM readMember o = some o' ↔
      Named members ∧
        ∀ limit, Fills (o.get? limit) (valuesOf members limit.name) (o'.get? limit) := by
  induction members generalizing o with
  | nil =>
    simp only [List.foldlM_nil, Option.pure_def, Option.some.injEq, valuesOf, List.filter_nil,
      List.map_nil, fills_nil]
    constructor
    · rintro rfl
      exact ⟨nofun, fun _ => rfl⟩
    · rintro ⟨-, h⟩
      exact Override.ext_get? fun limit => (h limit).symm
  | cons m members ih =>
    obtain ⟨symbols, v⟩ := m
    rw [List.foldlM_cons, Option.bind_eq_bind, Option.bind_eq_some_iff]
    by_cases hkey : ∃ key, symbols = ofText key
    · obtain ⟨key, rfl⟩ := hkey
      have hnamed : Named ((ofText key, v) :: members) ↔ Named members := by
        simp [Named]
      rw [hnamed]
      by_cases hlimit : ∃ limit : Limit, key = limit.name
      · obtain ⟨limit, rfl⟩ := hlimit
        simp only [readMember_known_iff, forall_fills_cons]
        constructor
        · rintro ⟨_, ⟨hnone, n, hn, rfl⟩, hrest⟩
          obtain ⟨hmembers, hfills⟩ := ih.1 hrest
          exact ⟨hmembers, hnone, n, hn, hfills⟩
        · rintro ⟨hmembers, hnone, n, hn, hfills⟩
          exact ⟨_, ⟨hnone, n, hn, rfl⟩, ih.2 ⟨hmembers, hfills⟩⟩
      · have hother : ∀ limit : Limit, key ≠ limit.name := fun limit h => hlimit ⟨limit, h⟩
        simp only [readMember_unknown hother, valuesOf_cons_of_ne (hother _), Option.some.injEq,
          exists_eq_left', ih]
    · constructor
      · rintro ⟨_, hmember, -⟩
        exact absurd (exists_ofText_of_readMember hmember) hkey
      · exact fun h => absurd (h.1 _ List.mem_cons_self) hkey

/-! ## objects and arrays -/

theorem supplies_iff {vs : List Value} :
    Supplies limit vs n ↔
      ∃ v?, Fills none vs v? ∧ n = v?.getD (({} : Limits).get limit) := by
  constructor
  · rintro (_ | ⟨hds, hn⟩)
    · exact ⟨none, .inl ⟨rfl, rfl⟩, rfl⟩
    · exact ⟨some n, .inr ⟨rfl, _, n, rfl, Json.word?_eq_some_iff.2 ⟨_, rfl, hds, hn⟩, rfl⟩, rfl⟩
  · rintro ⟨v?, ⟨rfl, rfl⟩ | ⟨-, v, n, rfl, hv, rfl⟩, rfl⟩
    · exact .default
    · obtain ⟨ds, rfl, hds, hn⟩ := Json.word?_eq_some_iff.1 hv
      exact .integer hds hn

/-- Each limit is decided by the values for it. -/
theorem map_override_eq_some_iff {o? : Option Override} {vs : Limit → List Value}
    (h : ∀ o, o? = some o ↔ ∀ limit, Fills none (vs limit) (o.get? limit)) :
    o?.map ({} : Limits).override = some l ↔ ∀ limit, Supplies limit (vs limit) (l.get limit) := by
  simp only [Option.map_eq_some_iff, h, supplies_iff]
  constructor
  · rintro ⟨o, ho, rfl⟩ limit
    exact ⟨o.get? limit, ho limit, Limits.get_override ..⟩
  · intro hl
    obtain ⟨total, htotal, heq⟩ := hl .total
    obtain ⟨perHost, hhost, heq'⟩ := hl .perHost
    exact ⟨⟨total, perHost⟩, Limit.forall_iff.2 ⟨htotal, hhost⟩,
      Limits.ext_get (Limit.forall_iff.2 ⟨heq.symm, heq'.symm⟩)⟩

theorem readOverride?_object_iff :
    readOverride? (.object members) = some o ↔
      Named members ∧ ∀ limit, Fills none (valuesOf members limit.name) (o.get? limit) := by
  have hempty : ∀ limit, ({} : Override).get? limit = none := by
    intro limit
    cases limit <;> rfl
  have hfold : members.foldlM readMember {} = some o ↔ _ := foldlM_readMember_iff
  simp only [hempty] at hfold
  exact hfold

theorem readOverride?_array_iff {items : List Value} :
    readOverride? (.array items) = some o ↔
      ∀ limit, Fills none (itemsOf items limit) (o.get? limit) := by
  rw [Limit.forall_iff]
  simp only [itemsOf, Override.get?]
  obtain ⟨total, perHost⟩ := o
  rcases items with _ | ⟨a, _ | ⟨b, _ | ⟨c, rest⟩⟩⟩
  · simp [readOverride?, fills_nil, eq_comm]
  · cases ha : a.word? <;> simp [readOverride?, fills_nil, fills_cons, ha, eq_comm]
  · cases ha : a.word? <;> cases hb : b.word? <;>
      simp [readOverride?, fills_nil, fills_cons, ha, hb, eq_comm]
  · simp [readOverride?, fills_nil, fills_cons]

/-! ## texts -/

variable {text text' : String} {members' : List (List Symbol × Value)} {items : List Value}
  {vs vs' : List Value}

theorem ofJsonText?_eq (h : Spells text v) : ofJsonText? text = ofJson? v := by
  rw [ofJsonText?, Json.read?_eq_some_iff.2 h]
  rfl

/-- The limits that an object is read as. -/
theorem ofJsonText?_object_iff (h : Spells text (.object members)) :
    ofJsonText? text = some l ↔
      Named members ∧ ∀ limit, Supplies limit (valuesOf members limit.name) (l.get limit) := by
  rw [ofJsonText?_eq h, ofJson?]
  by_cases hnamed : Named members
  · have hread : ∀ o, readOverride? (.object members) = some o ↔
        ∀ limit, Fills none (valuesOf members limit.name) (o.get? limit) := by
      intro o
      rw [readOverride?_object_iff]
      exact ⟨fun ho => ho.2, fun ho => ⟨hnamed, ho⟩⟩
    rw [map_override_eq_some_iff hread]
    exact ⟨fun hl => ⟨hnamed, hl⟩, fun hl => hl.2⟩
  · constructor
    · intro hl
      obtain ⟨o, ho, -⟩ := Option.map_eq_some_iff.1 hl
      exact absurd (readOverride?_object_iff.1 ho).1 hnamed
    · exact fun hl => absurd hl.1 hnamed

/-- The limits that an array is read as. -/
theorem ofJsonText?_array_iff (h : Spells text (.array items)) :
    ofJsonText? text = some l ↔ ∀ limit, Supplies limit (itemsOf items limit) (l.get limit) := by
  rw [ofJsonText?_eq h]
  exact map_override_eq_some_iff fun o => readOverride?_array_iff

/-- A text that is read as limits spells an object or an array. -/
theorem exists_of_ofJsonText? (h : ofJsonText? text = some l) :
    (∃ members, Spells text (.object members)) ∨ ∃ items, Spells text (.array items) := by
  obtain ⟨v, hv, hl⟩ := Option.bind_eq_some_iff.1 h
  have hspells := Json.read?_eq_some_iff.1 hv
  cases v with
  | object members => exact .inl ⟨members, hspells⟩
  | array items => exact .inr ⟨items, hspells⟩
  | null | bool | number | string => exact nomatch hl

/-! ### what is refused -/

theorem Supplies.length_le (h : Supplies limit vs n) : vs.length ≤ 1 := by
  cases h with
  | default => exact Nat.zero_le 1
  | integer => exact Nat.le_refl 1

/-- A value for a limit is an unsigned integer below `2 ^ 64`. -/
theorem Supplies.integer_of_mem {cs : List Char} (h : Supplies limit vs n)
    (hcs : .number cs ∈ vs) : Decimal cs ∧ decimal cs < 2 ^ 64 := by
  cases h with
  | default => exact nomatch hcs
  | @integer ds n hds hn =>
    cases List.mem_singleton.1 hcs
    exact ⟨hds, hn ▸ n.toNat_lt⟩

theorem supplies_perm (h : vs.Perm vs') : Supplies limit vs n ↔ Supplies limit vs' n := by
  have himp : ∀ {vs vs' : List Value}, vs.Perm vs' →
      Supplies limit vs n → Supplies limit vs' n := by
    rintro vs vs' h (_ | ⟨hds, hn⟩)
    · rw [List.nil_perm.1 h]
      exact .default
    · rw [← List.singleton_perm.1 h]
      exact .integer hds hn
  exact ⟨himp h, himp h.symm⟩

theorem not_decimal_of_unfit {cs : List Char} (h : Unfit cs) :
    ¬ (Decimal cs ∧ decimal cs < 2 ^ 64) := by
  rintro ⟨hcs, hlt⟩
  cases h with
  | negative h => exact absurd (hcs _ h) (by decide)
  | fractional h => exact absurd (hcs _ h) (by decide)
  | exponent h =>
    rcases h with h | h
    · exact absurd (hcs _ h) (by decide)
    · exact absurd (hcs _ h) (by decide)
  | tooLarge _ h => exact absurd hlt (Nat.not_lt.2 h)

/-- An object is refused if it has two values for a limit, or one that is unfit. -/
theorem ofJsonText?_object_eq_none (h : Spells text (.object members)) (limit : Limit)
    (hrefused : 2 ≤ (valuesOf members limit.name).length ∨
      ∃ cs, Unfit cs ∧ .number cs ∈ valuesOf members limit.name) :
    ofJsonText? text = none := by
  refine Option.eq_none_iff_forall_ne_some.2 fun l hl => ?_
  have hsupplies := ((ofJsonText?_object_iff h).1 hl).2 limit
  obtain htwo | ⟨cs, hunfit, hcs⟩ := hrefused
  · have hone := hsupplies.length_le
    omega
  · exact not_decimal_of_unfit hunfit (hsupplies.integer_of_mem hcs)

/-- An array is refused if it has more than two items, or one that is unfit. -/
theorem ofJsonText?_array_eq_none (h : Spells text (.array items))
    (hrefused : 2 < items.length ∨ ∃ cs, Unfit cs ∧ .number cs ∈ items) :
    ofJsonText? text = none := by
  refine Option.eq_none_iff_forall_ne_some.2 fun l hl => ?_
  have hsupplies := (ofJsonText?_array_iff h).1 hl
  obtain htwo | ⟨cs, hunfit, hcs⟩ := hrefused
  · have hone := (hsupplies .perHost).length_le
    rw [itemsOf, List.length_drop] at hone
    omega
  · rw [← List.take_append_drop 1 items, List.mem_append] at hcs
    obtain hcs | hcs := hcs
    · exact not_decimal_of_unfit hunfit ((hsupplies .total).integer_of_mem hcs)
    · exact not_decimal_of_unfit hunfit ((hsupplies .perHost).integer_of_mem hcs)

/-! ### what does not matter -/

/-- Neither the order of members nor any member with another name matters. -/
theorem ofJsonText?_eq_of_perm (h : Spells text (.object members))
    (h' : Spells text' (.object members')) (hnamed : Named members ↔ Named members')
    (hvalues : ∀ limit : Limit,
      (valuesOf members limit.name).Perm (valuesOf members' limit.name)) :
    ofJsonText? text = ofJsonText? text' := by
  refine Option.ext fun l => ?_
  rw [ofJsonText?_object_iff h, ofJsonText?_object_iff h', hnamed]
  simp only [supplies_perm (hvalues _)]

/-- The members that the items of an array stand for. -/
def fields (items : List Value) : List (List Symbol × Value) :=
  [ofText "max_requests", ofText "max_requests_per_host"].zip items

theorem valuesOf_fields (hitems : items.length ≤ 2) (limit : Limit) :
    valuesOf (fields items) limit.name = itemsOf items limit := by
  have hne : ofText "max_requests" ≠ ofText "max_requests_per_host" := by decide
  match items with
  | [] => cases limit <;> rfl
  | [a] => cases limit <;> simp [fields, valuesOf, itemsOf, Limit.name, hne]
  | [a, b] => cases limit <;> simp [fields, valuesOf, itemsOf, Limit.name, hne, hne.symm]

theorem named_fields (items : List Value) : Named (fields items) := by
  intro m hm
  have hname := (List.of_mem_zip hm).1
  simp only [List.mem_cons, List.not_mem_nil, or_false] at hname
  rcases hname with h | h
  · exact ⟨_, h⟩
  · exact ⟨_, h⟩

/-- An array of at most two items is read as the object that has them as members. -/
theorem ofJsonText?_array_eq (hitems : items.length ≤ 2) (h : Spells text (.array items))
    (h' : Spells text' (.object (fields items))) : ofJsonText? text = ofJsonText? text' := by
  refine Option.ext fun l => ?_
  rw [ofJsonText?_array_iff h, ofJsonText?_object_iff h']
  simp only [valuesOf_fields hitems]
  exact ⟨fun hl => ⟨named_fields items, hl⟩, fun hl => hl.2⟩

/-- A word that is written is an unsigned integer. -/
theorem supplies_natural (limit : Limit) (n : UInt64) :
    Supplies limit [.natural n.toNat] n :=
  .integer (fun _ hc => Nat.isDigit_of_mem_toDigits (by decide) (by decide) hc)
    Nat.ofDigitChars_ten_toDigits

/-- The members with which limits are written can be written. -/
theorem wellFormed_fields {items : List Value} (h : ∀ v ∈ items, Json.WellFormed v) :
    Json.WellFormed (.object (fields items)) := by
  refine .object (fun m hm => ?_) fun m hm => h _ (List.of_mem_zip hm).2
  obtain ⟨name, hname⟩ := named_fields items m hm
  rw [hname]
  exact Json.paired_ofText name

/-- Limits are read back from the text that they are written as. -/
theorem ofJsonText?_compact (l : Limits) : ofJsonText? l.toJson.compact = some l := by
  have hmembers : l.toJson =
      .object (fields [.natural l.maxRequests.toNat, .natural l.maxPerHost.toNat]) := rfl
  have hitems : ∀ v ∈ [Value.natural l.maxRequests.toNat, .natural l.maxPerHost.toNat],
      Json.WellFormed v := by
    simp [Json.wellFormed_natural]
  rw [hmembers, ofJsonText?_object_iff (Json.spells_compact (wellFormed_fields hitems))]
  refine ⟨named_fields _, fun limit => ?_⟩
  rw [valuesOf_fields (by simp)]
  cases limit with
  | total => exact supplies_natural .total l.maxRequests
  | perHost => exact supplies_natural .perHost l.maxPerHost

/-- **Limits as JSON.** What is written of limits is read back. A text is read as limits if it
spells an object whose members are named by texts, and has for each limit no value or an unsigned
integer below `2 ^ 64`; or an array that has such integers as its items, at most two. A limit
without a value has its default. Spaces, the order of members and members with other names do not
matter, and an array is read as the object with the same values. A second value for a limit, a third
item, and a number that is negative, fractional, with an exponent or too large are refused. -/
theorem json_form :
    (∀ l : Limits, ofJsonText? l.toJson.compact = some l) ∧
    (∀ text members, Spells text (.object members) → ∀ l, ofJsonText? text = some l ↔
      Named members ∧ Supplies .total (valuesOf members "max_requests") l.maxRequests ∧
        Supplies .perHost (valuesOf members "max_requests_per_host") l.maxPerHost) ∧
    (∀ text items, Spells text (.array items) → ∀ l, ofJsonText? text = some l ↔
      Supplies .total (items.take 1) l.maxRequests ∧
        Supplies .perHost (items.drop 1) l.maxPerHost) ∧
    (∀ text l, ofJsonText? text = some l →
      (∃ members, Spells text (.object members)) ∨ ∃ items, Spells text (.array items)) ∧
    (∀ text text' members members', Spells text (.object members) →
      Spells text' (.object members') → (Named members ↔ Named members') →
      (∀ limit : Limit, (valuesOf members limit.name).Perm (valuesOf members' limit.name)) →
      ofJsonText? text = ofJsonText? text') ∧
    (∀ text text' items, items.length ≤ 2 → Spells text (.array items) →
      Spells text' (.object (fields items)) → ofJsonText? text = ofJsonText? text') ∧
    (∀ text members (limit : Limit), Spells text (.object members) →
      (2 ≤ (valuesOf members limit.name).length ∨
        ∃ cs, Unfit cs ∧ .number cs ∈ valuesOf members limit.name) → ofJsonText? text = none) ∧
    (∀ text items, Spells text (.array items) →
      (2 < items.length ∨ ∃ cs, Unfit cs ∧ .number cs ∈ items) → ofJsonText? text = none) := by
  refine ⟨ofJsonText?_compact, fun text members h l => ?_, fun text items h l => ?_,
    fun text l => exists_of_ofJsonText?, fun text text' members members' => ofJsonText?_eq_of_perm,
    fun text text' items => ofJsonText?_array_eq,
    fun text members limit h => ofJsonText?_object_eq_none h limit,
    fun text items => ofJsonText?_array_eq_none⟩
  · rw [ofJsonText?_object_iff h, Limit.forall_iff]
    rfl
  · rw [ofJsonText?_array_iff h, Limit.forall_iff]
    rfl

/-- What other members hold does not matter, as long as it is JSON. -/
example : ofJsonText? "\x7b\"a\": [1e9, \"\\ud800\", \x7b\x7d], \"max_requests\" : 7\x7d" =
    some ⟨7, 5⟩ := rfl

end Limits

end CallAdmission
