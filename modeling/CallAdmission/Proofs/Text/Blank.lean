import CallAdmission.Text.Blank

/-!
# CallAdmission.Proofs.Text.Blank

What is left of a text without the blanks at its two ends, said by the parts of the text.

* `strip_eq_iff` — it is the part between blanks that neither begins nor ends with a blank.
-/

namespace CallAdmission.Text

/-- Blanks and nothing else. -/
def Blanks (cs : List Char) : Prop := ∀ c ∈ cs, isBlank c = true

/-- One text is the other between blanks, and neither begins nor ends with a blank itself. -/
structure Trims (cs ds : List Char) : Prop where
  parts : ∃ front back, cs = front ++ (ds ++ back) ∧ Blanks front ∧ Blanks back
  head : ∀ c, ds.head? = some c → isBlank c = false
  last : ∀ c, ds.getLast? = some c → isBlank c = false

variable {cs ds front back : List Char}

theorem blanks_takeWhile (cs : List Char) : Blanks (cs.takeWhile isBlank) :=
  List.all_eq_true.1 List.all_takeWhile

/-- Characters of a kind are dropped from the front of a text up to the first of another kind. -/
theorem dropWhile_append_of_head {p : Char → Bool} (hfront : ∀ c ∈ front, p c = true)
    (hhead : ∀ c, ds.head? = some c → p c = false) : (front ++ ds).dropWhile p = ds := by
  rw [List.dropWhile_append_of_pos hfront]
  cases ds with
  | nil => rfl
  | cons c ds => exact List.dropWhile_cons_of_neg (by simp [hhead c rfl])

/-- Characters of a kind are taken from the front of a text up to the first of another kind. -/
theorem takeWhile_append_of_head {p : Char → Bool} (hfront : ∀ c ∈ front, p c = true)
    (hhead : ∀ c, ds.head? = some c → p c = false) : (front ++ ds).takeWhile p = front := by
  have hparts := (front ++ ds).takeWhile_append_dropWhile (p := p)
  rw [dropWhile_append_of_head hfront hhead] at hparts
  exact List.append_cancel_right hparts

theorem head_dropWhile (cs : List Char) {c : Char} (h : (cs.dropWhile isBlank).head? = some c) :
    isBlank c = false := by
  have hhead := cs.head?_dropWhile_not isBlank
  rw [h] at hhead
  simpa using hhead

/-- A text is stripped by taking the blanks off its back when those at its front are gone. -/
theorem strip_append_takeWhile (cs : List Char) :
    strip cs ++ ((cs.dropWhile isBlank).reverse.takeWhile isBlank).reverse =
      cs.dropWhile isBlank := by
  rw [strip, ← List.reverse_append, List.takeWhile_append_dropWhile, List.reverse_reverse]

theorem trims_strip (cs : List Char) : Trims cs (strip cs) where
  parts := by
    refine ⟨cs.takeWhile isBlank, ((cs.dropWhile isBlank).reverse.takeWhile isBlank).reverse, ?_,
      blanks_takeWhile cs, ?_⟩
    · rw [strip_append_takeWhile, List.takeWhile_append_dropWhile]
    · intro c hc
      exact blanks_takeWhile _ c (List.mem_reverse.1 hc)
  head := by
    intro c hc
    have hdrop : (cs.dropWhile isBlank).head? = some c := by
      rw [← strip_append_takeWhile, List.head?_append, hc]
      rfl
    exact head_dropWhile cs hdrop
  last := by
    intro c hc
    rw [strip, List.getLast?_reverse] at hc
    exact head_dropWhile _ hc

/-- Stripping a text leaves the part between its blanks. -/
theorem strip_eq_iff : strip cs = ds ↔ Trims cs ds := by
  constructor
  · rintro rfl
    exact trims_strip cs
  · rintro ⟨⟨front, back, rfl, hfront, hback⟩, hhead, hlast⟩
    by_cases hds : ds = []
    · have hnil : (front ++ back).dropWhile isBlank = [] := by
        have hblanks : Blanks (front ++ back) := List.forall_mem_append.2 ⟨hfront, hback⟩
        have hdrop : (front ++ back ++ []).dropWhile isBlank = [] :=
          dropWhile_append_of_head hblanks nofun
        rwa [List.append_nil] at hdrop
      rw [hds, List.nil_append, strip, hnil]
      rfl
    · obtain ⟨c, ds', rfl⟩ := List.exists_cons_of_ne_nil hds
      rw [strip, dropWhile_append_of_head hfront (by simpa using hhead), List.reverse_append,
        dropWhile_append_of_head, List.reverse_reverse]
      · exact fun c hc => hback c (List.mem_reverse.1 hc)
      · simpa only [List.head?_reverse] using hlast

end CallAdmission.Text
