import CallAdmission.Limits.Environment
import CallAdmission.Proofs.Text.Blank
import CallAdmission.Proofs.Text.ByteOrder
import CallAdmission.Proofs.Text.Numeral

/-!
# CallAdmission.Proofs.Limits.Environment

Which limits an environment provides, and why another is rejected. What a variable holds counts if
it is a text; it means the number whose numeral is left without the blanks at its ends.

* `ofEnvironment_eq_ok_iff` — limits are what the environment decides, if both are at least one;
* `ofEnvironment_eq_error_iff` — else the first fault is reported: a text that is no numeral before
  a number below one, and the limit on all calls before the one on a host's.
-/

namespace CallAdmission

/-! ## what is meant -/

/-- What the environment holds for a variable is a text, or the UTF-8 bytes of one. -/
inductive Setting.Holds (s : String) : Setting → Prop
  | text : Holds s (.text s)
  | bytes : Holds s (.bytes (Text.bytes s))

namespace Environment

/-- What the environment makes of a limit: the default if it holds no text for it, else the number
that stands between blanks. -/
inductive Decides (e : Environment) (limit : Limit) : UInt64 → Prop
  | default (h : ∀ s, ¬ (e.get limit).Holds s) : Decides e limit (Limits.get ⟨64, 5⟩ limit)
  | text {s : String} {ds : List Char} {n : UInt64} (h : (e.get limit).Holds s)
    (hds : Text.Trims s.toList ds) (hn : Text.IsNumeral ds n) : Decides e limit n

/-- What is wrong with a text that the environment holds for a limit. The text is named with the
blanks at its ends. -/
inductive Misread (e : Environment) (limit : Limit) : DispatchError → Prop
  | intro {s : String} {ds : List Char} {fault : Text.NumeralError} (h : (e.get limit).Holds s)
    (hds : Text.Trims s.toList ds) (hfault : Text.Faulty ds fault) :
    Misread e limit (.configuration limit s fault)

end Environment

/-- What is wrong with limits, if one is zero: the limit on all calls comes first. -/
inductive Limits.Invalid (l : Limits) : DispatchError → Prop
  | total (h : l.maxRequests = 0) : Invalid l (.invalidLimit .total 0)
  | perHost (htotal : 1 ≤ l.maxRequests) (h : l.maxPerHost = 0) :
    Invalid l (.invalidLimit .perHost 0)

namespace Environment

/-- The environment decides both limits, and they are valid. -/
def Provides (e : Environment) (l : Limits) : Prop :=
  (∀ limit, e.Decides limit (l.get limit)) ∧ 1 ≤ l.maxRequests ∧ 1 ≤ l.maxPerHost

/-- Why the environment provides no limits. Each fault presupposes that those before it do not
occur. -/
inductive Rejects (e : Environment) : DispatchError → Prop
  | total {error : DispatchError} (h : e.Misread .total error) : Rejects e error
  | perHost {n : UInt64} {error : DispatchError} (htotal : e.Decides .total n)
    (h : e.Misread .perHost error) : Rejects e error
  | invalid {l : Limits} {error : DispatchError} (hl : ∀ limit, e.Decides limit (l.get limit))
    (h : l.Invalid error) : Rejects e error

end Environment

/-! ## limits that are zero -/

namespace Limits

/-- Limits are refused for the first of them that is zero. -/
theorem validate_eq_error_iff {l : Limits} {error : DispatchError} :
    l.validate = .error error ↔ l.Invalid error := by
  have hzero : ∀ n : UInt64, n < 1 ↔ n = 0 := by
    intro n
    rw [UInt64.lt_iff_toNat_lt, ← UInt64.toNat_inj]
    exact Nat.lt_one_iff
  unfold validate check
  by_cases htotal : l.maxRequests = 0
  · rw [if_pos ((hzero _).2 htotal), htotal]
    constructor
    · rintro h
      cases h
      exact .total htotal
    · rintro (h | ⟨h, -⟩)
      · rfl
      · rw [htotal] at h
        exact absurd h (by decide)
  · have hone : 1 ≤ l.maxRequests := UInt64.not_lt.1 (mt (hzero _).1 htotal)
    rw [if_neg (mt (hzero _).1 htotal)]
    by_cases hhost : l.maxPerHost = 0
    · simp only [hhost]
      constructor
      · rintro h
        cases h
        exact .perHost hone hhost
      · rintro (h | -)
        · exact absurd h htotal
        · rfl
    · simp only [if_neg (mt (hzero _).1 hhost)]
      constructor
      · exact nofun
      · rintro (h | ⟨-, h⟩)
        · exact absurd h htotal
        · exact absurd h hhost

end Limits

/-! ## one limit -/

/-- A variable is read as the text that it holds. -/
theorem Setting.text?_eq_some_iff {v : Setting} {s : String} : v.text? = some s ↔ v.Holds s := by
  cases v with
  | unset => exact ⟨nofun, nofun⟩
  | text s' =>
    constructor
    · rintro ⟨⟩
      exact .text
    · rintro ⟨⟩
      rfl
  | bytes b =>
    rw [text?, Text.fromUTF8?_eq_some_iff]
    constructor
    · rintro rfl
      exact .bytes
    · rintro ⟨⟩
      rfl

namespace Environment

variable {e : Environment} {limit : Limit} {n : UInt64} {error : DispatchError}

theorem not_holds_iff : (∀ s, ¬ (e.get limit).Holds s) ↔ (e.get limit).text? = none := by
  simp only [← Setting.text?_eq_some_iff, Option.eq_none_iff_forall_ne_some, ne_eq]

/-- A limit is decided by its value in the environment, if there is one. -/
theorem decides_iff :
    e.Decides limit n ↔
      ∃ n?, e.value? limit = .ok n? ∧ n = n?.getD (({} : Limits).get limit) := by
  unfold value?
  constructor
  · rintro (h | ⟨hs, hds, hn⟩)
    · rw [not_holds_iff.1 h]
      exact ⟨none, rfl, rfl⟩
    · rw [Setting.text?_eq_some_iff.2 hs]
      simp only [Text.strip_eq_iff.2 hds, Text.readWord_eq_ok_iff.2 hn]
      exact ⟨some n, rfl, rfl⟩
  · rintro ⟨n?, hvalue, rfl⟩
    cases htext : (e.get limit).text? with
    | none =>
      simp only [htext] at hvalue
      cases hvalue
      exact .default (not_holds_iff.2 htext)
    | some s =>
      simp only [htext] at hvalue
      split at hvalue
      · next n hn =>
        cases hvalue
        exact .text (Setting.text?_eq_some_iff.1 htext) (Text.trims_strip _)
          (Text.readWord_eq_ok_iff.1 hn)
      · exact nomatch hvalue

/-- A limit is misread if its text is no numeral. -/
theorem misread_iff : e.Misread limit error ↔ e.value? limit = .error error := by
  unfold value?
  constructor
  · rintro ⟨hs, hds, hfault⟩
    rw [Setting.text?_eq_some_iff.2 hs]
    simp only [Text.strip_eq_iff.2 hds, Text.readWord_eq_error_iff.2 hfault]
  · intro hvalue
    cases htext : (e.get limit).text? with
    | none =>
      simp only [htext] at hvalue
      exact nomatch hvalue
    | some s =>
      simp only [htext] at hvalue
      split at hvalue
      · exact nomatch hvalue
      · next fault hfault =>
        cases hvalue
        exact .intro (Setting.text?_eq_some_iff.1 htext) (Text.trims_strip _)
          (Text.readWord_eq_error_iff.1 hfault)

/-! ## both limits -/

/-- The environment is rejected while it is read, or when the limits that it gives are checked. -/
theorem ofEnvironment_of_misread_total (h : e.Misread .total error) :
    Limits.ofEnvironment e = .error error := by
  simp [Limits.ofEnvironment, readOverride, misread_iff.1 h, bind, Except.bind]

theorem ofEnvironment_of_misread_perHost (htotal : e.Decides .total n)
    (h : e.Misread .perHost error) : Limits.ofEnvironment e = .error error := by
  obtain ⟨n?, hn, -⟩ := decides_iff.1 htotal
  simp [Limits.ofEnvironment, readOverride, hn, misread_iff.1 h, bind, Except.bind]

theorem ofEnvironment_of_decides {l : Limits} (h : ∀ limit, e.Decides limit (l.get limit)) :
    Limits.ofEnvironment e = l.validate.map fun _ => l := by
  obtain ⟨m?, hm, htotal⟩ := decides_iff.1 (h .total)
  obtain ⟨n?, hn, hhost⟩ := decides_iff.1 (h .perHost)
  have hl : ({} : Limits).override ⟨m?, n?⟩ = l :=
    Limits.ext_get (Limit.forall_iff.2 ⟨htotal.symm, hhost.symm⟩)
  simp only [Limits.ofEnvironment, readOverride, hm, hn, bind, Except.bind, pure, Except.pure, hl]
  cases l.validate <;> rfl

/-- An environment is misread, or it decides both limits. -/
theorem misread_or_decides (e : Environment) :
    (∃ error, e.Misread .total error) ∨
      (∃ n error, e.Decides .total n ∧ e.Misread .perHost error) ∨
      ∃ l : Limits, ∀ limit, e.Decides limit (l.get limit) := by
  have hone : ∀ limit, (∃ error, e.Misread limit error) ∨ ∃ n, e.Decides limit n := by
    intro limit
    cases hvalue : e.value? limit with
    | error error => exact .inl ⟨error, misread_iff.2 hvalue⟩
    | ok n? => exact .inr ⟨_, decides_iff.2 ⟨n?, hvalue, rfl⟩⟩
  rcases hone .total with htotal | ⟨m, htotal⟩
  · exact .inl htotal
  rcases hone .perHost with ⟨error, hhost⟩ | ⟨n, hhost⟩
  · exact .inr (.inl ⟨m, error, htotal, hhost⟩)
  · exact .inr (.inr ⟨⟨m, n⟩, Limit.forall_iff.2 ⟨htotal, hhost⟩⟩)

/-- An environment yields the limits that it provides. -/
theorem ofEnvironment_eq_ok_iff {l : Limits} :
    Limits.ofEnvironment e = .ok l ↔ e.Provides l := by
  constructor
  · intro h
    rcases e.misread_or_decides with ⟨error, htotal⟩ | ⟨n, error, htotal, hhost⟩ | ⟨l', hl'⟩
    · rw [ofEnvironment_of_misread_total htotal] at h
      exact nomatch h
    · rw [ofEnvironment_of_misread_perHost htotal hhost] at h
      exact nomatch h
    · rw [ofEnvironment_of_decides hl'] at h
      cases hvalid : l'.validate with
      | error error =>
        rw [hvalid] at h
        exact nomatch h
      | ok u =>
        rw [hvalid] at h
        obtain rfl : l' = l := Except.ok.inj h
        exact ⟨hl', l'.validate_eq_ok_iff.1 hvalid⟩
  · rintro ⟨hl, hvalid⟩
    rw [ofEnvironment_of_decides hl, l.validate_eq_ok_iff.2 hvalid]
    rfl

/-- An environment that provides no limits is rejected for the first fault in it. -/
theorem ofEnvironment_eq_error_iff :
    Limits.ofEnvironment e = .error error ↔ e.Rejects error := by
  constructor
  · intro h
    rcases e.misread_or_decides with ⟨error', htotal⟩ | ⟨n, error', htotal, hhost⟩ | ⟨l, hl⟩
    · rw [ofEnvironment_of_misread_total htotal] at h
      exact .total (Except.error.inj h ▸ htotal)
    · rw [ofEnvironment_of_misread_perHost htotal hhost] at h
      exact .perHost htotal (Except.error.inj h ▸ hhost)
    · rw [ofEnvironment_of_decides hl] at h
      cases hvalid : l.validate with
      | error error' =>
        rw [hvalid] at h
        exact .invalid hl (Limits.validate_eq_error_iff.1 (Except.error.inj h ▸ hvalid))
      | ok u =>
        rw [hvalid] at h
        exact nomatch h
  · rintro (htotal | ⟨htotal, hhost⟩ | ⟨hl, h⟩)
    · exact ofEnvironment_of_misread_total htotal
    · exact ofEnvironment_of_misread_perHost htotal hhost
    · rw [ofEnvironment_of_decides hl, Limits.validate_eq_error_iff.2 h]
      rfl

/-- A text that is no numeral is reported before a limit that is zero. -/
example : Limits.ofEnvironment { maxRequests := .text "0", maxPerHost := .text " x " } =
    .error (.configuration .perHost " x " .invalidDigit) := rfl

end Environment

end CallAdmission
