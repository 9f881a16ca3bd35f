import CallAdmission.Proofs.Text.ByteOrder

/-!
# CallAdmission.Proofs.Host

Hosts in order. They are sorted by their names, which is the order of the UTF-8 bytes of the names,
and of equal hosts, which then stand side by side, the first is kept.

* `pairwise_mergeSort` — sorted hosts;
* `mem_sortUnique`, `pairwise_sortUnique` — hosts in order, each once.
-/

namespace CallAdmission.Host

/-! ## repetitions -/

/-- What has been kept stands in front of what is kept later. -/
theorem eraseRepsBy_loop (a : Host) (hosts kept : List Host) :
    List.eraseRepsBy.loop (· == ·) a hosts kept = kept.reverse ++ (a :: hosts).eraseReps := by
  induction hosts generalizing a kept with
  | nil => simp [List.eraseReps, List.eraseRepsBy, List.eraseRepsBy.loop]
  | cons b hosts ih =>
    simp only [List.eraseReps, List.eraseRepsBy, List.eraseRepsBy.loop] at ih ⊢
    split
    · exact ih a kept
    · rw [ih b (a :: kept), ih b [a]]
      simp

/-- Of two hosts side by side the first is left out if it stands there again. -/
theorem eraseReps_cons_cons (a b : Host) (hosts : List Host) :
    (a :: b :: hosts).eraseReps =
      if a = b then (b :: hosts).eraseReps else a :: (b :: hosts).eraseReps := by
  have hloop : (a :: b :: hosts).eraseReps =
      if a == b then List.eraseRepsBy.loop (· == ·) a hosts []
      else List.eraseRepsBy.loop (· == ·) b hosts [a] := by
    simp only [List.eraseReps, List.eraseRepsBy, List.eraseRepsBy.loop]
    cases a == b <;> rfl
  rw [hloop, eraseRepsBy_loop, eraseRepsBy_loop]
  by_cases hab : a = b <;> simp [hab]

theorem mem_eraseReps {host : Host} {hosts : List Host} :
    host ∈ hosts.eraseReps ↔ host ∈ hosts := by
  induction hosts with
  | nil => rfl
  | cons a hosts ih =>
    cases hosts with
    | nil => rfl
    | cons b hosts =>
      rw [eraseReps_cons_cons]
      split
      · next hab => simp [ih, hab]
      · rw [List.mem_cons, ih, ← List.mem_cons]

/-- Hosts in order, without repetitions, stand in strict order. -/
theorem pairwise_eraseReps {hosts : List Host} (h : hosts.Pairwise (·.name ≤ ·.name)) :
    hosts.eraseReps.Pairwise (·.name < ·.name) := by
  induction hosts with
  | nil => exact .nil
  | cons a hosts ih =>
    obtain ⟨ha, hosts'⟩ := List.pairwise_cons.1 h
    cases hosts with
    | nil => exact List.pairwise_singleton _ a
    | cons b hosts =>
      rw [eraseReps_cons_cons]
      split
      · exact ih hosts'
      · next hab =>
        have hnot : ¬ b.name ≤ a.name := fun hle =>
          hab (congrArg Host.mk (String.le_antisymm (ha b List.mem_cons_self) hle))
        refine List.pairwise_cons.2 ⟨fun c hc => ?_, ih hosts'⟩
        have hbc : b.name ≤ c.name := by
          rcases List.mem_cons.1 (mem_eraseReps.1 hc) with rfl | hc
          · exact String.le_refl _
          · exact (List.pairwise_cons.1 hosts').1 c hc
        exact String.not_le.1 fun hca => hnot (String.le_trans hbc hca)

/-! ## order -/

/-- Sorted hosts stand in the order of their names. -/
theorem pairwise_mergeSort (hosts : List Host) :
    (hosts.mergeSort le).Pairwise (·.name ≤ ·.name) := by
  have htrans : ∀ a b c : Host, a.le b = true → b.le c = true → a.le c = true := by
    intro a b c hab hbc
    exact decide_eq_true (String.le_trans (of_decide_eq_true hab) (of_decide_eq_true hbc))
  have htotal : ∀ a b : Host, (a.le b || b.le a) = true := by
    intro a b
    simpa [le] using String.le_total a.name b.name
  exact (List.pairwise_mergeSort htrans htotal hosts).imp fun h => of_decide_eq_true h

/-- Hosts in order are the same hosts. -/
theorem mem_sortUnique {host : Host} {hosts : List Host} :
    host ∈ sortUnique hosts ↔ host ∈ hosts := by
  rw [sortUnique, mem_eraseReps, List.mem_mergeSort]

/-- Hosts in order stand in the order of their bytes, each once. -/
theorem pairwise_sortUnique (hosts : List Host) :
    (sortUnique hosts).Pairwise fun a b => Text.bytes a.name < Text.bytes b.name :=
  (pairwise_eraseReps (pairwise_mergeSort hosts)).imp Text.lt_iff_bytes_lt.1

end CallAdmission.Host
