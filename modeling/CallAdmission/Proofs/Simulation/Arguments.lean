import CallAdmission.Proofs.Text.Numeral
import CallAdmission.Simulation.Options
import Mathlib.Data.List.Induction

/-!
# CallAdmission.Proofs.Simulation.Arguments

The grammar of a simulation's arguments. They are read if they are pairs of a flag and a numeral,
and then each option is decided by the last pair with its flag. Else the first place where no such
pair begins is reported, with what is wrong there.

* `readAll_written` — pairs are read off one after the other;
* `foldl_set` — what a flag is set to last is what counts;
* `read_eq_ok_iff`, `read_eq_error_iff` — which arguments are read, and what is wrong with others;
* `grammar_of_read` — the grammar.
-/

namespace CallAdmission.Simulation

/-! ## pairs -/

/-- A flag with the text of its value. -/
structure Pair where
  flag : Flag
  text : String
  value : UInt64
  numeral : Text.IsNumeral text.toList value

/-- Pairs as they are written. -/
def written (ps : List Pair) : List String := ps.flatMap fun p => [p.flag.text, p.text]

/-- The value in the last pair with a flag. -/
def last? (ps : List Pair) (flag : Flag) : Option UInt64 :=
  (ps.reverse.find? (·.flag = flag)).map (·.value)

/-- The options that pairs stand for: each is decided by the last pair with its flag. -/
def Options.ofPairs (ps : List Pair) : Options where
  calls := (last? ps .calls).getD 100
  hosts := (last? ps .hosts).elim 4 fun n => if n = 0 then 1 else n
  latency := (last? ps .latency).getD 20
  failEvery := (last? ps .failEvery).filter (· ≠ 0)
  duplexEvery := (last? ps .duplexEvery).filter (· ≠ 0)
  limits := ⟨last? ps (.limit .total), last? ps (.limit .perHost)⟩

/-- What is wrong where no pair begins, and how it is worded. -/
inductive Fault : List String → String → Prop
  | help {s : String} (rest : List String) (hs : s = "--help" ∨ s = "-h") : Fault (s :: rest) ""
  | unexpected {s : String} (rest : List String) (hhelp : ¬ (s = "--help" ∨ s = "-h"))
    (hs : ∀ flag : Flag, s ≠ flag.text) : Fault (s :: rest) ("unexpected argument: " ++ s)
  | missingValue (flag : Flag) : Fault [flag.text] (flag.text ++ " requires a value")
  | invalidValue (flag : Flag) {v : String} (rest : List String) {e : Text.NumeralError}
    (hv : Text.Faulty v.toList e) :
    Fault (flag.text :: v :: rest)
      (flag.text ++ ": invalid value " ++ Text.quote v ++ ": " ++ e.message)

/-! ## flags -/

/-- Every flag is found by its text. -/
theorem ofText?_text (flag : Flag) : Flag.ofText? flag.text = some flag := by
  cases flag with
  | limit limit => cases limit <;> decide
  | calls | hosts | latency | failEvery | duplexEvery => decide

theorem ofText?_eq_some_iff {s : String} {flag : Flag} :
    Flag.ofText? s = some flag ↔ s = flag.text := by
  constructor
  · intro h
    have htext := List.find?_some h
    exact (beq_iff_eq.1 htext).symm
  · rintro rfl
    exact ofText?_text flag

theorem ofText?_eq_none_iff {s : String} :
    Flag.ofText? s = none ↔ ∀ flag : Flag, s ≠ flag.text := by
  rw [← Option.not_isSome_iff_eq_none, Option.isSome_iff_exists]
  simp only [ofText?_eq_some_iff, not_exists]

/-- The usage is asked for by words that are no flags. -/
theorem ofText?_of_help {s : String} (h : s = "--help" ∨ s = "-h") : Flag.ofText? s = none := by
  rcases h with rfl | rfl <;> decide

/-- An argument that is no flag is reported where a flag belongs. -/
theorem fault_ofArgument {s : String} (h : Flag.ofText? s = none) (rest : List String) :
    Fault (s :: rest) (UsageError.ofArgument s).message := by
  unfold UsageError.ofArgument
  split
  · next hs => exact .help rest hs
  · next hs => exact .unexpected rest hs (ofText?_eq_none_iff.1 h)

/-! ## the last pair counts -/

theorem last?_concat (ps : List Pair) (p : Pair) (flag : Flag) :
    last? (ps ++ [p]) flag = if p.flag = flag then some p.value else last? ps flag := by
  simp only [last?, List.reverse_append, List.reverse_singleton, List.singleton_append,
    List.find?_cons]
  by_cases h : p.flag = flag <;> simp [h]

/-- Two pairs with different flags may change places. -/
theorem last?_swap {p q : Pair} (h : p.flag ≠ q.flag) (ps qs : List Pair) (flag : Flag) :
    last? (ps ++ p :: q :: qs) flag = last? (ps ++ q :: p :: qs) flag := by
  by_cases hp : p.flag = flag <;> by_cases hq : q.flag = flag
  · exact absurd (hp.trans hq.symm) h
  all_goals simp [last?, List.find?_append, hp, hq]

/-- One more pair sets its flag. -/
theorem ofPairs_concat (ps : List Pair) (p : Pair) :
    Options.ofPairs (ps ++ [p]) = (Options.ofPairs ps).set p.flag p.value := by
  obtain ⟨flag, text, value, hvalue⟩ := p
  have hperiod : period value = (some value).filter (· ≠ 0) := by
    rw [period, Option.filter_some]
    by_cases h : value = 0 <;> simp [h]
  cases flag with
  | limit limit =>
    cases limit <;> simp [Options.ofPairs, last?_concat, Options.set, Override.set]
  | calls | hosts | latency | failEvery | duplexEvery =>
    simp [Options.ofPairs, last?_concat, Options.set, hperiod]

/-- Flags that are set one after the other leave what the last pairs say. -/
theorem foldl_set (ps : List Pair) :
    ps.foldl (fun o p => o.set p.flag p.value) {} = Options.ofPairs ps := by
  induction ps using List.reverseRecOn with
  | nil => rfl
  | append_singleton ps p ih =>
    rw [List.foldl_append, List.foldl_cons, List.foldl_nil, ih, ofPairs_concat]

/-! ## reading -/

variable {o o' : Options} {arguments rest : List String} {message : String}

theorem readAll_cons_cons {flag : Flag} {v : String} {n : UInt64}
    (hv : Text.readWord v.toList = .ok n) (o : Options) (rest : List String) :
    o.readAll (flag.text :: v :: rest) = (o.set flag n).readAll rest := by
  simp only [Options.readAll, ofText?_text, hv]

/-- Pairs are read off one after the other. -/
theorem readAll_written (o : Options) (ps : List Pair) (rest : List String) :
    o.readAll (written ps ++ rest) =
      (ps.foldl (fun o p => o.set p.flag p.value) o).readAll rest := by
  induction ps generalizing o with
  | nil => rfl
  | cons p ps ih =>
    rw [List.foldl_cons, ← ih]
    exact readAll_cons_cons (Text.readWord_eq_ok_iff.2 p.numeral) o (written ps ++ rest)

/-- Where all is read, it was pairs. -/
theorem exists_pairs_of_readAll (h : o.readAll arguments = .ok o') :
    ∃ ps, arguments = written ps ∧ o' = ps.foldl (fun o p => o.set p.flag p.value) o := by
  induction o, arguments using Options.readAll.induct with
  | case1 o =>
    cases h
    exact ⟨[], rfl, rfl⟩
  | case2 o s hflag | case3 o s flag hflag => simp [Options.readAll, hflag] at h
  | case4 o s v rest hflag => simp [Options.readAll, hflag] at h
  | case5 o s v rest flag hflag fault hfault => simp [Options.readAll, hflag, hfault] at h
  | case6 o s v rest flag hflag n hn ih =>
    obtain rfl := ofText?_eq_some_iff.1 hflag
    rw [readAll_cons_cons hn] at h
    obtain ⟨ps, rfl, rfl⟩ := ih h
    exact ⟨⟨flag, v, n, Text.readWord_eq_ok_iff.1 hn⟩ :: ps, rfl, rfl⟩

/-- An argument that is no flag is refused, whatever comes after it. -/
theorem readAll_cons_of_eq_none {s : String} (h : Flag.ofText? s = none) (o : Options)
    (rest : List String) : o.readAll (s :: rest) = .error (.ofArgument s) := by
  cases rest <;> simp only [Options.readAll, h]

/-- Where no pair begins, what is wrong there is reported. -/
theorem readAll_of_fault (h : Fault rest message) (o : Options) :
    (o.readAll rest).mapError UsageError.message = .error message := by
  cases h with
  | @help s rest hs =>
    rw [readAll_cons_of_eq_none (ofText?_of_help hs), UsageError.ofArgument, if_pos hs]
    rfl
  | @unexpected s rest hhelp hs =>
    rw [readAll_cons_of_eq_none (ofText?_eq_none_iff.2 hs), UsageError.ofArgument, if_neg hhelp]
    rfl
  | missingValue flag =>
    simp only [Options.readAll, ofText?_text]
    rfl
  | @invalidValue flag v rest e hv =>
    simp only [Options.readAll, ofText?_text, Text.readWord_eq_error_iff.2 hv]
    rfl

/-- Where not all is read, some pairs come first, and then something is wrong. -/
theorem exists_fault_of_readAll
    (h : (o.readAll arguments).mapError UsageError.message = .error message) :
    ∃ ps rest, arguments = written ps ++ rest ∧ Fault rest message := by
  induction o, arguments using Options.readAll.induct with
  | case1 o => cases h
  | case2 o s hflag =>
    rw [readAll_cons_of_eq_none hflag] at h
    exact ⟨[], [s], rfl, Except.error.inj h ▸ fault_ofArgument hflag []⟩
  | case3 o s flag hflag =>
    simp only [Options.readAll, hflag] at h
    obtain rfl := ofText?_eq_some_iff.1 hflag
    exact ⟨[], [flag.text], rfl, Except.error.inj h ▸ .missingValue flag⟩
  | case4 o s v rest hflag =>
    rw [readAll_cons_of_eq_none hflag] at h
    exact ⟨[], s :: v :: rest, rfl, Except.error.inj h ▸ fault_ofArgument hflag (v :: rest)⟩
  | case5 o s v rest flag hflag fault hfault =>
    simp only [Options.readAll, hflag, hfault] at h
    obtain rfl := ofText?_eq_some_iff.1 hflag
    have hvalue := Text.readWord_eq_error_iff.1 hfault
    exact ⟨[], flag.text :: v :: rest, rfl, Except.error.inj h ▸ .invalidValue flag rest hvalue⟩
  | case6 o s v rest flag hflag n hn ih =>
    obtain rfl := ofText?_eq_some_iff.1 hflag
    rw [readAll_cons_cons hn] at h
    obtain ⟨ps, rest, rfl, hfault⟩ := ih h
    exact ⟨⟨flag, v, n, Text.readWord_eq_ok_iff.1 hn⟩ :: ps, rest, rfl, hfault⟩

/-- Arguments are read exactly if they are pairs. -/
theorem read_eq_ok_iff :
    Options.read arguments = .ok o ↔ ∃ ps, arguments = written ps ∧ o = Options.ofPairs ps := by
  constructor
  · intro h
    obtain ⟨ps, harguments, ho⟩ := exists_pairs_of_readAll h
    exact ⟨ps, harguments, ho.trans (foldl_set ps)⟩
  · rintro ⟨ps, rfl, rfl⟩
    have hread := readAll_written {} ps []
    rw [List.append_nil, foldl_set] at hread
    exact hread

/-- Other arguments are refused for what is wrong behind the pairs that they begin with. -/
theorem read_eq_error_iff :
    (Options.read arguments).mapError UsageError.message = .error message ↔
      ∃ ps rest, arguments = written ps ++ rest ∧ Fault rest message := by
  constructor
  · exact exists_fault_of_readAll
  · rintro ⟨ps, rest, rfl, hfault⟩
    rw [Options.read, readAll_written]
    exact readAll_of_fault hfault _

/-- **Grammar of the arguments.** Arguments are read exactly if they are pairs of a flag and a
numeral, and the last pair with a flag decides, so that pairs with different flags may change
places. Otherwise the first place where no pair begins is reported, with what is wrong there. -/
theorem grammar_of_read (arguments : List String) :
    (∀ o, Options.read arguments = .ok o ↔
      ∃ ps, arguments = written ps ∧ o = Options.ofPairs ps) ∧
    (∀ message, (Options.read arguments).mapError UsageError.message = .error message ↔
      ∃ ps rest, arguments = written ps ++ rest ∧ Fault rest message) ∧
    ∀ ps p q qs, p.flag ≠ q.flag → arguments = written (ps ++ p :: q :: qs) →
      Options.read arguments = Options.read (written (ps ++ q :: p :: qs)) := by
  refine ⟨fun o => read_eq_ok_iff, fun message => read_eq_error_iff, ?_⟩
  rintro ps p q qs hflags rfl
  rw [read_eq_ok_iff.2 ⟨_, rfl, rfl⟩, read_eq_ok_iff.2 ⟨_, rfl, rfl⟩]
  simp only [Options.ofPairs, last?_swap hflags]

/-- A flag where a value belongs is taken for the value. -/
example : Options.read ["--calls", "--hosts"] =
    .error (.invalidValue .calls "--hosts" .invalidDigit) := rfl

end CallAdmission.Simulation
