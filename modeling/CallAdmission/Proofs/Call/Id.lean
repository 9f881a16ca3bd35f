import CallAdmission.Call.Id
import CallAdmission.Proofs.Json.Writer
import CallAdmission.Proofs.Text.ByteOrder
import Mathlib.Algebra.GroupWithZero.Nat

/-!
# CallAdmission.Proofs.Call.Id

Identifiers as texts. An identifier has one written form and many spellings: its 32 hexadecimal
digits, alone or in groups, and the groups bare, in braces or after `urn:uuid:`, with letters of
either case.

* `hexDigits_eq_unitDigits` — the digits are those of the number, with zeros in front;
* `ofText?_eq_some_iff` — a text is read as an identifier exactly if it is one of its spellings;
* `text_lt_iff` — identifiers compare as their written forms do;
* `textual_forms` — all of this, and the round trips through JSON, for identifiers and hosts.
-/

namespace CallAdmission

/-! ## digits of either case -/

namespace Text

variable {c : Char} {d : Nat}

theorem lt_of_hexDigit? (h : hexDigit? c = some d) : c.toNat < 128 ∧ d < 16 := by
  simp only [hexDigit?, Char.isDigit_iff_toNat, Char.le_def, UInt32.le_iff_toNat_le, Char.toNat_val,
    Char.reduceToNat] at h
  split at h
  · cases h
    omega
  · split at h
    · cases h
      omega
    · split at h
      · cases h
        omega
      · exact nomatch h

theorem lt_of_toLower (hd : d < 16) (h : c.toLower = Nat.digitChar d) : c.toNat < 128 := by
  have hdigits : ∀ d < 16, (Nat.digitChar d).toNat < 128 := by decide
  unfold Char.toLower at h
  split at h
  · next hupper =>
    have hle : c.toNat ≤ 90 := UInt32.le_iff_toNat_le.1 hupper.2
    omega
  · rw [h]
    exact hdigits d hd

/-- A digit is read whichever case it has. -/
theorem hexDigit?_eq_some_iff :
    hexDigit? c = some d ↔ d < 16 ∧ c.toLower = Nat.digitChar d := by
  have hascii : ∀ n < 128, ∀ d < 16, hexDigit? (Char.ofNat n) = some d ↔
      (Char.ofNat n).toLower = Nat.digitChar d := by
    decide +kernel
  constructor
  · intro h
    obtain ⟨hc, hd⟩ := lt_of_hexDigit? h
    have hiff := hascii c.toNat hc d hd
    rw [Char.ofNat_toNat] at hiff
    exact ⟨hd, hiff.1 h⟩
  · rintro ⟨hd, h⟩
    have hiff := hascii c.toNat (lt_of_toLower hd h) d hd
    rw [Char.ofNat_toNat] at hiff
    exact hiff.2 h

end Text

namespace CallId

variable {cs ds es : List Char} {id : CallId} {ns : List Nat}

/-! ## the digits of a number -/

@[simp] theorem length_hexDigits (k n : Nat) : (hexDigits k n).length = k := by
  induction k generalizing n with
  | zero => rfl
  | succ k ih => rw [hexDigits, List.length_append, ih, List.length_singleton]

theorem div_lt_pow {k n : Nat} (hn : n < 16 ^ (k + 1)) : n / 16 < 16 ^ k :=
  Nat.div_lt_of_lt_mul (by rwa [← Nat.pow_succ'])

/-- The first digit of a number, and those after it. -/
theorem hexDigits_cons {k d r : Nat} (hd : d < 16) (hr : r < 16 ^ k) :
    hexDigits (k + 1) (16 ^ k * d + r) = Nat.digitChar d :: hexDigits k r := by
  -- digits are made from the last one on, and are read from the first one on
  induction k generalizing r with
  | zero =>
    obtain rfl : r = 0 := by simpa using hr
    simp [hexDigits, Nat.mod_eq_of_lt hd]
  | succ k ih =>
    have hfront : (16 ^ (k + 1) * d + r) / 16 = 16 ^ k * d + r / 16 := by
      rw [Nat.pow_succ', Nat.mul_assoc]
      omega
    have hlast : (16 ^ (k + 1) * d + r) % 16 = r % 16 := by
      rw [Nat.pow_succ', Nat.mul_assoc]
      omega
    rw [hexDigits, hfront, hlast, ih (div_lt_pow hr), List.cons_append]
    rfl

/-- The digits of a number are its numeral, with zeros in front. -/
theorem hexDigits_eq_unitDigits {k n : Nat} (hk : 0 < k) (hn : n < 16 ^ k) :
    hexDigits k n = Json.unitDigits k n := by
  induction k generalizing n with
  | zero => exact absurd hk (Nat.lt_irrefl 0)
  | succ k ih =>
    cases k with
    | zero =>
      have hsmall : n < 16 := hn
      rw [Json.unitDigits_one hsmall, hexDigits, Nat.mod_eq_of_lt hsmall]
      rfl
    | succ k =>
      rw [Json.unitDigits_succ (Nat.succ_pos k), hexDigits, ih (Nat.succ_pos k) (div_lt_pow hn)]

/-! ## digits that are read -/

/-- The digits of a number are read whichever case they have. -/
theorem readHex_of_map {r : Nat} (m : Nat) (hr : r < 16 ^ cs.length)
    (h : cs.map Char.toLower = hexDigits cs.length r) :
    readHex m cs = some (16 ^ cs.length * m + r) := by
  induction cs generalizing m r with
  | nil =>
    obtain rfl : r = 0 := by simpa using hr
    simp [readHex]
  | cons c cs ih =>
    rw [List.length_cons] at hr h
    have hpos : 0 < 16 ^ cs.length := Nat.pow_pos (by decide)
    have hd : r / 16 ^ cs.length < 16 := Nat.div_lt_of_lt_mul (by rwa [← Nat.pow_succ])
    have hrest : r % 16 ^ cs.length < 16 ^ cs.length := Nat.mod_lt _ hpos
    have hr' := Nat.div_add_mod r (16 ^ cs.length)
    -- the number is its first digit and what the others make
    rw [← hr', hexDigits_cons hd hrest, List.map_cons, List.cons.injEq] at h
    have hdigit := Text.hexDigit?_eq_some_iff.2 ⟨hd, h.1⟩
    have hread := ih (16 * m + r / 16 ^ cs.length) hrest h.2
    have hvalue : 16 ^ cs.length * (16 * m + r / 16 ^ cs.length) + r % 16 ^ cs.length =
        16 ^ (cs.length + 1) * m + r := by
      rw [Nat.mul_add, Nat.add_assoc, hr', ← Nat.mul_assoc, ← Nat.pow_succ]
    rw [hvalue] at hread
    simp [readHex, hdigit, hread]

/-- What is read are the digits of a number. -/
theorem exists_of_readHex {m n : Nat} (h : readHex m cs = some n) :
    ∃ r < 16 ^ cs.length, cs.map Char.toLower = hexDigits cs.length r ∧
      n = 16 ^ cs.length * m + r := by
  induction cs generalizing m with
  | nil =>
    cases h
    exact ⟨0, by simp, rfl, by simp⟩
  | cons c cs ih =>
    obtain ⟨d, hdigit, hread⟩ := Option.bind_eq_some_iff.1 h
    obtain ⟨hd, hc⟩ := Text.hexDigit?_eq_some_iff.1 hdigit
    obtain ⟨r, hr, hcs, rfl⟩ := ih hread
    refine ⟨16 ^ cs.length * d + r, ?_, ?_, ?_⟩
    · rw [List.length_cons, Nat.pow_succ]
      have hle : 16 ^ cs.length * (d + 1) ≤ 16 ^ cs.length * 16 := Nat.mul_le_mul_left _ hd
      rw [Nat.mul_add, Nat.mul_one] at hle
      omega
    · rw [List.length_cons, hexDigits_cons hd hr, List.map_cons, hc, hcs]
    · rw [List.length_cons, Nat.pow_succ, Nat.mul_add, ← Nat.mul_assoc, Nat.add_assoc]

/-- The digits of an identifier, in any mixture of cases. -/
def Digits (id : CallId) (ds : List Char) : Prop :=
  ds.map Char.toLower = hexDigits 32 id.bits.toNat

theorem Digits.length (h : id.Digits ds) : ds.length = 32 := by
  have hlength := congrArg List.length h
  rwa [List.length_map, length_hexDigits] at hlength

theorem ofDigits?_eq_some_iff : ofDigits? ds = some id ↔ id.Digits ds := by
  unfold ofDigits?
  constructor
  · intro h
    split at h
    · next hlength =>
      obtain ⟨n, hn, rfl⟩ := Option.map_eq_some_iff.1 h
      obtain ⟨r, hr, hds, rfl⟩ := exists_of_readHex hn
      rw [hlength] at hr hds
      have hbits : (BitVec.ofNat 128 (16 ^ ds.length * 0 + r)).toNat = r := by
        rw [Nat.mul_zero, Nat.zero_add, BitVec.toNat_ofNat]
        exact Nat.mod_eq_of_lt hr
      rw [Digits, hbits, hds]
    · exact nomatch h
  · intro h
    have hbits : id.bits.toNat < 16 ^ ds.length := h.length ▸ id.bits.isLt
    have hdigits : ds.map Char.toLower = hexDigits ds.length id.bits.toNat := by
      rw [h.length]
      exact h
    rw [if_pos h.length, readHex_of_map 0 hbits hdigits, Nat.mul_zero, Nat.zero_add,
      Option.map_some, BitVec.ofNat_toNat, BitVec.setWidth_eq]

/-! ## groups -/

theorem hyphenate_cons {n : Nat} (hns : ns ≠ []) (ds : List Char) :
    hyphenate (n :: ns) ds = ds.take n ++ '-' :: hyphenate ns (ds.drop n) := by
  cases ns with
  | nil => exact absurd rfl hns
  | cons k ns => rfl

/-- Digits in groups are put together again. -/
theorem unhyphenate?_hyphenate (h : ds.length = ns.sum) :
    unhyphenate? ns (hyphenate ns ds) = some ds := by
  induction ns generalizing ds with
  | nil =>
    obtain rfl := List.length_eq_zero_iff.1 h
    rfl
  | cons n ns ih =>
    rw [List.sum_cons] at h
    cases ns with
    | nil =>
      have hlength : ds.length = n := by simpa using h
      exact if_pos hlength
    | cons k ns =>
      have htake : (ds.take n).length = n := by
        rw [List.length_take]
        omega
      have hdrop : (ds.drop n).length = (k :: ns).sum := by
        rw [List.length_drop]
        omega
      simp only [hyphenate, unhyphenate?, List.drop_left' htake, List.take_left' htake]
      rw [ih hdrop, Option.map_some, List.take_append_drop]

/-- What is put together stood in groups. -/
theorem eq_hyphenate_of_unhyphenate? (h : unhyphenate? ns cs = some ds) :
    ds.length = ns.sum ∧ cs = hyphenate ns ds := by
  fun_induction unhyphenate? ns cs generalizing ds with
  | case1 cs hempty =>
    cases h
    exact ⟨rfl, List.isEmpty_iff.1 hempty⟩
  | case3 cs =>
    cases h
    exact ⟨List.sum_singleton.symm, rfl⟩
  | case5 n ns cs hns rest hrest ih =>
    obtain ⟨tail, htail, rfl⟩ := Option.map_eq_some_iff.1 h
    obtain ⟨hlength, rfl⟩ := ih htail
    have htake : (cs.take n).length = n := by
      have hdrop := congrArg List.length hrest
      rw [List.length_drop, List.length_cons] at hdrop
      rw [List.length_take]
      omega
    rw [List.length_append, htake, hlength, List.sum_cons, hyphenate_cons hns,
      List.take_left' htake, List.drop_left' htake, ← hrest, List.take_append_drop]
    exact ⟨rfl, rfl⟩
  | case2 | case4 | case6 => exact nomatch h

theorem length_hyphenate (hds : ds.length = ns.sum) :
    (hyphenate ns ds).length = ds.length + (ns.length - 1) := by
  induction ns generalizing ds with
  | nil => rfl
  | cons n ns ih =>
    rw [List.sum_cons] at hds
    by_cases hns : ns = []
    · subst hns
      rfl
    · have hdrop : (ds.drop n).length = ns.sum := by
        rw [List.length_drop]
        omega
      have hpos := List.length_pos_iff.2 hns
      rw [hyphenate_cons hns, List.length_append, List.length_cons, ih hdrop, List.length_take,
        List.length_drop, List.length_cons]
      omega

theorem Digits.length_hyphenate (h : id.Digits ds) : (hyphenate groups ds).length = 36 := by
  rw [CallId.length_hyphenate h.length, h.length]
  rfl

theorem ofGroups?_eq_some_iff :
    ofGroups? cs = some id ↔ ∃ ds, id.Digits ds ∧ cs = hyphenate groups ds := by
  rw [ofGroups?, Option.bind_eq_some_iff]
  constructor
  · rintro ⟨ds, hcs, hds⟩
    exact ⟨ds, ofDigits?_eq_some_iff.1 hds, (eq_hyphenate_of_unhyphenate? hcs).2⟩
  · rintro ⟨ds, hds, rfl⟩
    exact ⟨ds, unhyphenate?_hyphenate hds.length, ofDigits?_eq_some_iff.2 hds⟩

theorem ofGroups?_hyphenate (h : id.Digits ds) : ofGroups? (hyphenate groups ds) = some id :=
  ofGroups?_eq_some_iff.2 ⟨ds, h, rfl⟩

/-! ## spellings -/

/-- The spellings of an identifier. -/
inductive Spelling (id : CallId) : List Char → Prop
  | simple {ds : List Char} (h : id.Digits ds) : Spelling id ds
  | hyphenated {ds : List Char} (h : id.Digits ds) : Spelling id (hyphenate groups ds)
  | braced {ds : List Char} (h : id.Digits ds) :
    Spelling id ('\x7b' :: (hyphenate groups ds ++ ['\x7d']))
  | urn {front ds : List Char} (hfront : front.map Char.toLower = "urn:uuid:".toList)
    (h : id.Digits ds) : Spelling id (front ++ hyphenate groups ds)

/-- Exactly the spellings of an identifier are read as it. -/
theorem ofChars?_eq_some_iff : ofChars? cs = some id ↔ id.Spelling cs := by
  constructor
  · intro h
    unfold ofChars? at h
    split at h
    · exact .simple (ofDigits?_eq_some_iff.1 h)
    · obtain ⟨ds, hds, rfl⟩ := ofGroups?_eq_some_iff.1 h
      exact .hyphenated hds
    · split at h
      · next rest =>
        split at h
        · next hlast =>
          obtain ⟨ds, hds, hrest⟩ := ofGroups?_eq_some_iff.1 h
          rw [← List.dropLast_append_getLast? _ hlast, hrest]
          exact .braced hds
        · exact nomatch h
      · exact nomatch h
    · split at h
      · next hfront =>
        obtain ⟨ds, hds, hrest⟩ := ofGroups?_eq_some_iff.1 h
        rw [← cs.take_append_drop urnPrefix.length, hrest]
        exact .urn (by rwa [List.map_take] at hfront ⊢) hds
      · exact nomatch h
    · exact nomatch h
  · intro h
    cases h with
    | simple h =>
      simp only [ofChars?, h.length]
      exact ofDigits?_eq_some_iff.2 h
    | hyphenated h =>
      simp only [ofChars?, h.length_hyphenate]
      exact ofGroups?_hyphenate h
    | braced h =>
      simp [ofChars?, h.length_hyphenate, ofGroups?_hyphenate h]
    | @urn front ds hfront h =>
      have hprefix : front.map Char.toLower = urnPrefix := hfront
      have hlength : front.length = urnPrefix.length := by
        rw [← hprefix, List.length_map]
      have htotal : (front ++ hyphenate groups ds).length = 45 := by
        rw [List.length_append, hlength, h.length_hyphenate]
        rfl
      simp only [ofChars?, htotal]
      rw [List.take_left' hlength, List.drop_left' hlength, if_pos hprefix]
      exact ofGroups?_hyphenate h

/-- A text is read as an identifier exactly if it is one of its spellings. -/
theorem ofText?_eq_some_iff {s : String} : ofText? s = some id ↔ id.Spelling s.toList :=
  ofChars?_eq_some_iff

/-! ## written forms -/

theorem map_toLower_hexDigits (k n : Nat) : (hexDigits k n).map Char.toLower = hexDigits k n := by
  have hdigits : ∀ d < 16, (Nat.digitChar d).toLower = Nat.digitChar d := by decide
  induction k generalizing n with
  | zero => rfl
  | succ k ih =>
    rw [hexDigits, List.map_append, ih, List.map_singleton, hdigits _ (Nat.mod_lt n (by decide))]

theorem map_toLower_hyphenate (ns : List Nat) (ds : List Char) :
    (hyphenate ns ds).map Char.toLower = hyphenate ns (ds.map Char.toLower) := by
  induction ns generalizing ds with
  | nil => rfl
  | cons n ns ih =>
    by_cases hns : ns = []
    · subst hns
      rfl
    · rw [hyphenate_cons hns, hyphenate_cons hns, List.map_append, List.map_cons, ih, List.map_take,
        List.map_drop]
      rfl

theorem toList_text (id : CallId) :
    id.text.toList = hyphenate groups (hexDigits 32 id.bits.toNat) :=
  String.toList_ofList

/-- The written form has the digits of the number, with zeros in front, in groups. -/
theorem toList_text_eq_unitDigits (id : CallId) :
    id.text.toList = hyphenate groups (Json.unitDigits 32 id.bits.toNat) := by
  rw [toList_text, hexDigits_eq_unitDigits (by decide) id.bits.isLt]

theorem digits_hexDigits (id : CallId) : id.Digits (hexDigits 32 id.bits.toNat) :=
  map_toLower_hexDigits 32 id.bits.toNat

theorem spelling_text (id : CallId) : id.Spelling id.text.toList := by
  rw [toList_text]
  exact .hyphenated id.digits_hexDigits

/-- The written form of an identifier is read back. -/
theorem ofText?_text (id : CallId) : ofText? id.text = some id :=
  ofText?_eq_some_iff.2 id.spelling_text

theorem text_injective {a b : CallId} (h : a.text = b.text) : a = b := by
  have ha := ofText?_text a
  rw [h, ofText?_text] at ha
  exact (Option.some.inj ha).symm

/-- Of the spellings with 36 characters, the written form is the one in lower case. -/
theorem eq_text_iff {s : String} :
    s = id.text ↔ ofText? s = some id ∧ s.length = 36 ∧ s.toList.map Char.toLower = s.toList := by
  constructor
  · rintro rfl
    refine ⟨id.ofText?_text, ?_, ?_⟩
    · rw [← String.length_toList, toList_text]
      exact id.digits_hexDigits.length_hyphenate
    · rw [toList_text, map_toLower_hyphenate, map_toLower_hexDigits]
  · rintro ⟨hread, hlength, hlower⟩
    rw [← String.length_toList] at hlength
    have hspelling := ofText?_eq_some_iff.1 hread
    generalize hcs : s.toList = cs at hspelling hlength hlower
    cases hspelling with
    | hyphenated h =>
      rw [map_toLower_hyphenate, h, ← toList_text] at hlower
      exact String.toList_inj.1 (hcs.trans hlower.symm)
    -- the other spellings have 32, 38 and 45 characters
    | simple h =>
      rw [h.length] at hlength
      exact nomatch hlength
    | braced h => simp [h.length_hyphenate] at hlength
    | urn hfront h =>
      have hnine := congrArg List.length hfront
      rw [List.length_append, h.length_hyphenate, Nat.add_eq_right] at hlength
      rw [List.length_map, hlength] at hnine
      exact nomatch hnine

/-! ## order -/

/-- Lists whose fronts are of one length compare by their fronts first. -/
theorem append_lt_append_iff {cs' ds' : List Char} (h : cs.length = ds.length) :
    cs ++ cs' < ds ++ ds' ↔ cs < ds ∨ (cs = ds ∧ cs' < ds') := by
  induction cs generalizing ds with
  | nil =>
    obtain rfl := List.length_eq_zero_iff.1 h.symm
    simp
  | cons c cs ih =>
    obtain ⟨d, ds, rfl⟩ := List.exists_cons_of_length_eq_add_one h.symm
    have hlength : cs.length = ds.length := by simpa using h
    simp only [List.cons_append, List.cons_lt_cons_iff, ih hlength, List.cons.injEq]
    tauto

theorem hexDigits_injective {k a b : Nat} (ha : a < 16 ^ k) (hb : b < 16 ^ k)
    (h : hexDigits k a = hexDigits k b) : a = b := by
  have hread : ∀ n < 16 ^ k, readHex 0 (hexDigits k n) = some n := by
    intro n hn
    have hdigits : (hexDigits k n).map Char.toLower = hexDigits (hexDigits k n).length n := by
      rw [length_hexDigits, map_toLower_hexDigits]
    rw [readHex_of_map 0 (by rwa [length_hexDigits]) hdigits, Nat.mul_zero, Nat.zero_add]
  have heq := hread a ha
  rw [h, hread b hb] at heq
  exact (Option.some.inj heq).symm

theorem digitChar_lt_iff {a b : Nat} (ha : a < 16) (hb : b < 16) :
    Nat.digitChar a < Nat.digitChar b ↔ a < b := by
  have hall : ∀ a < 16, ∀ b < 16, Nat.digitChar a < Nat.digitChar b ↔ a < b := by decide
  exact hall a ha b hb

/-- Numbers compare as their digits do. -/
theorem hexDigits_lt_iff {k a b : Nat} (ha : a < 16 ^ k) (hb : b < 16 ^ k) :
    hexDigits k a < hexDigits k b ↔ a < b := by
  induction k generalizing a b with
  | zero =>
    obtain rfl : a = 0 := by simpa using ha
    obtain rfl : b = 0 := by simpa using hb
    simp [hexDigits]
  | succ k ih =>
    have ha' := div_lt_pow ha
    have hb' := div_lt_pow hb
    have hfront : hexDigits k (a / 16) = hexDigits k (b / 16) ↔ a / 16 = b / 16 :=
      ⟨hexDigits_injective ha' hb', fun h => h ▸ rfl⟩
    have hlast : [Nat.digitChar (a % 16)] < [Nat.digitChar (b % 16)] ↔ a % 16 < b % 16 := by
      rw [List.cons_lt_cons_iff, digitChar_lt_iff (Nat.mod_lt a (by decide))
        (Nat.mod_lt b (by decide))]
      simp
    rw [hexDigits, hexDigits, append_lt_append_iff (by simp), ih ha' hb', hfront, hlast]
    omega

/-- Hyphens at the same places do not change the order. -/
theorem hyphenate_lt_iff (h : ds.length = es.length) :
    hyphenate ns ds < hyphenate ns es ↔ ds < es := by
  induction ns generalizing ds es with
  | nil => rfl
  | cons n ns ih =>
    by_cases hns : ns = []
    · subst hns
      rfl
    · have hdrop : (ds.drop n).length = (es.drop n).length := by
        rw [List.length_drop, List.length_drop, h]
      have htake : (ds.take n).length = (es.take n).length := by
        rw [List.length_take, List.length_take, h]
      rw [hyphenate_cons hns, hyphenate_cons hns, append_lt_append_iff htake,
        List.cons_lt_cons_iff, ih hdrop]
      conv =>
        rhs
        rw [← ds.take_append_drop n, ← es.take_append_drop n, append_lt_append_iff htake]
      simp

/-- Identifiers compare as their written forms do. -/
theorem text_lt_iff (a b : CallId) : a.text < b.text ↔ a.bits.toNat < b.bits.toNat := by
  show a.text.toList < b.text.toList ↔ _
  rw [toList_text, toList_text, hyphenate_lt_iff (by simp),
    hexDigits_lt_iff a.bits.isLt b.bits.isLt]

theorem le_iff_bytes_le (a b : CallId) :
    a.le b = true ↔ Text.bytes a.text ≤ Text.bytes b.text := by
  have hlt : b.bits.toNat < a.bits.toNat ↔ Text.bytes b.text < Text.bytes a.text :=
    (text_lt_iff b a).symm.trans Text.lt_iff_bytes_lt
  rw [le, decide_eq_true_iff, ← Nat.not_lt, hlt]
  exact List.not_lt

/-! ## JSON -/

/-- A string is read as an identifier from its JSON text. -/
theorem read?_text (s : String) :
    (Json.read? (Json.Value.text s).compact).bind ofJson? = ofText? s := by
  have htext : (Json.Value.text s).text? = some s := Json.text?_eq_some_iff.2 rfl
  rw [Json.read?_compact (Json.wellFormed_text s), Option.bind_some, ofJson?, htext,
    Option.bind_some]

/-- An identifier is read back from its JSON text. -/
theorem read?_toJson (id : CallId) : (Json.read? id.toJson.compact).bind ofJson? = some id := by
  rw [toJson, read?_text, ofText?_text]

end CallId

/-- A host is read from the JSON texts of its name. -/
theorem Host.read?_eq_some_iff {json : String} {h : Host} :
    (Json.read? json).bind Host.ofJson? = some h ↔ Json.Spells json h.toJson := by
  have hread : Host.ofJson? = fun v => v.text?.bind (some ∘ Host.mk) := by
    funext v
    rw [Host.ofJson?, Option.map_eq_bind]
  rw [hread, Json.read?_bind_text?_eq_some_iff]
  constructor
  · rintro ⟨name, hspells, ⟨⟩⟩
    exact hspells
  · exact fun hspells => ⟨h.name, hspells, rfl⟩

/-! ## forms -/

/-- **Identifiers and hosts as texts.** The written form of an identifier is read back, and so is
its JSON text. Every JSON text of a string is read as an identifier exactly if the string is. The
strings that are read as an identifier are its spellings: the 32 digits of its number with letters
of either case, alone or in groups, and the groups bare, in braces or after `urn:uuid:`. What is
displayed after that is the written form, whatever the spelling was; it is the only spelling with 36
characters that is in lower case. Identifiers compare as the bytes of their written forms do. A host
is read back from its JSON text, and from every other JSON text of the same string. -/
theorem textual_forms :
    (∀ id : CallId, CallId.ofText? id.text = some id ∧
      (Json.read? id.toJson.compact).bind CallId.ofJson? = some id) ∧
    (∀ s : String, (Json.read? (Json.Value.text s).compact).bind CallId.ofJson? =
      CallId.ofText? s) ∧
    (∀ (json : String) (id : CallId), (Json.read? json).bind CallId.ofJson? = some id ↔
      ∃ s, Json.Spells json (.text s) ∧ CallId.ofText? s = some id) ∧
    (∀ (s : String) (id : CallId), CallId.ofText? s = some id ↔ id.Spelling s.toList) ∧
    (∀ s t : String, (CallId.ofText? s).map CallId.text = some t ↔
      ∃ id : CallId, id.Spelling s.toList ∧ t = id.text) ∧
    (∀ id : CallId,
      id.text.toList = CallId.hyphenate CallId.groups (Json.unitDigits 32 id.bits.toNat)) ∧
    (∀ (s : String) (id : CallId), s = id.text ↔
      CallId.ofText? s = some id ∧ s.length = 36 ∧ s.toList.map Char.toLower = s.toList) ∧
    (∀ a b : CallId, (a.le b = true ↔ Text.bytes a.text ≤ Text.bytes b.text) ∧
      (a = b ↔ Text.bytes a.text = Text.bytes b.text)) ∧
    (∀ h : Host, (Json.read? h.toJson.compact).bind Host.ofJson? = some h) ∧
    (∀ (json : String) (h : Host), (Json.read? json).bind Host.ofJson? = some h ↔
      Json.Spells json h.toJson) := by
  refine ⟨fun id => ⟨id.ofText?_text, id.read?_toJson⟩, CallId.read?_text, fun json id =>
    Json.read?_bind_text?_eq_some_iff, fun s id => CallId.ofText?_eq_some_iff, fun s t => ?_,
    CallId.toList_text_eq_unitDigits, fun s id => CallId.eq_text_iff, fun a b =>
    ⟨a.le_iff_bytes_le b, ?_⟩,
    fun h => Host.read?_eq_some_iff.2 (Json.spells_compact (Json.wellFormed_text h.name)),
    fun json h => Host.read?_eq_some_iff⟩
  · simp only [Option.map_eq_some_iff, CallId.ofText?_eq_some_iff, eq_comm (a := t)]
  · rw [Text.bytes_inj]
    exact ⟨congrArg CallId.text, CallId.text_injective⟩

/-- Identifiers are read in any mixture of cases. -/
example : CallId.ofText? "\x7b67E55044-10b1-426F-9247-BB680e5fE0c8\x7d" =
    some ⟨0x67e5504410b1426f9247bb680e5fe0c8⟩ := rfl

end CallAdmission
