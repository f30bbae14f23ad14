import EntitySchema.Discovery

/-!
# The order of paths

Components are ordered by kind and name, lists of components by their first difference, and paths by
their components. Each of these is a linear order, except that paths with the same components come
to the same (`Path.compare_eq_eq_iff`). So once paths are sorted, those with the same components
stand next to each other, and what `Discovery.inOrder` leaves of them is strictly increasing.
-/

namespace EntitySchema

open Std

namespace Path

/-! ## Components -/

instance : TransCmp Component.compare :=
  inferInstanceAs (TransCmp (compareLex (compareOn Component.rank) (compareOn Component.text)))

instance : LawfulEqCmp Component.compare where
  eq_of_compare {a b} h := by
    have hparts : a.rank = b.rank ∧ a.text = b.text := by
      simpa only [Component.compare, Ordering.then_eq_eq, LawfulEqOrd.compare_eq_iff_eq] using h
    cases a <;> cases b <;> simp_all [Component.rank, Component.text]

theorem compareComponents_eq_compareLex (as bs : List Component) :
    compareComponents as bs = List.compareLex Component.compare as bs := by
  induction as generalizing bs with
  | nil => cases bs <;> rfl
  | cons a as ih =>
    cases bs with
    | nil => rfl
    | cons b bs =>
      rw [compareComponents, List.compareLex_cons_cons, ih]

instance : TransCmp compareComponents :=
  have heq : compareComponents = List.compareLex Component.compare :=
    funext fun as => funext fun bs => compareComponents_eq_compareLex as bs
  heq ▸ inferInstance

instance : LawfulEqCmp compareComponents where
  eq_of_compare {as bs} h := by
    rw [compareComponents_eq_compareLex] at h
    exact LawfulEqCmp.eq_of_compare h

/-! ## Paths -/

variable {p q r : Path}

instance : TransCmp Path.compare :=
  have hlists : TransCmp compareComponents := inferInstance
  { eq_swap := hlists.eq_swap, isLE_trans := hlists.isLE_trans }

/-- Paths come to the same place in the order exactly if they have the same components. -/
theorem compare_eq_eq_iff : p.compare q = .eq ↔ p.components = q.components := by
  unfold Path.compare
  exact LawfulEqCmp.compare_eq_iff_eq

theorem sameComponents_iff : p.sameComponents q = true ↔ p.components = q.components := by
  unfold sameComponents
  rw [beq_iff_eq, compare_eq_eq_iff]

theorem le_iff_isLE : p.le q = true ↔ (p.compare q).isLE = true := by
  unfold le
  cases p.compare q <;> decide

theorem le_trans (hpq : p.le q = true) (hqr : q.le r = true) : p.le r = true :=
  le_iff_isLE.mpr (TransCmp.isLE_trans (le_iff_isLE.mp hpq) (le_iff_isLE.mp hqr))

theorem le_total (p q : Path) : (p.le q || q.le p) = true := by
  have hswap : q.compare p = (p.compare q).swap := OrientedCmp.eq_swap
  unfold le
  rw [hswap]
  cases p.compare q <;> rfl

end Path

namespace Discovery

/-! ## Dropping repetitions -/

variable {ps : List Path}

theorem dropRepeats_subset : ∀ (ps : List Path) (last : Option Path), dropRepeats last ps ⊆ ps
  | [], _ => List.Subset.refl _
  | p :: ps, last => by
    unfold dropRepeats
    split
    · exact List.subset_cons_of_subset p (dropRepeats_subset ps last)
    · exact List.cons_subset_cons p (dropRepeats_subset ps (some p))

/-- Of each path that is dropped there is one left with its components, if only the one before
them. -/
theorem exists_mem_dropRepeats {p : Path} (h : p ∈ ps) (last : Option Path) :
    (∃ q ∈ last, q.components = p.components)
      ∨ ∃ q ∈ dropRepeats last ps, q.components = p.components := by
  induction ps generalizing last with
  | nil => exact nomatch h
  | cons r ps ih =>
    unfold dropRepeats
    split
    · next hdrop =>
      obtain rfl | h := List.mem_cons.mp h
      · obtain ⟨q, hq, hsame⟩ := (Option.any_eq_true _ _).mp hdrop
        exact .inl ⟨q, hq, (Path.sameComponents_iff.mp hsame).symm⟩
      · exact ih h last
    · obtain rfl | h := List.mem_cons.mp h
      · exact .inr ⟨p, List.mem_cons_self, rfl⟩
      · obtain ⟨q, hq, hsame⟩ | ⟨q, hq, hsame⟩ := ih h (some r)
        · cases hq
          exact .inr ⟨r, List.mem_cons_self, hsame⟩
        · exact .inr ⟨q, List.mem_cons_of_mem r hq, hsame⟩

/-- What is left of sorted paths is strictly increasing, and lies after the path before them. -/
theorem pairwise_dropRepeats {last : Option Path}
    (hsorted : ps.Pairwise fun p q => p.le q = true)
    (hlast : ∀ q ∈ last, ∀ p ∈ ps, q.le p = true) :
    (dropRepeats last ps).Pairwise (fun p q => p.compare q = .lt)
      ∧ ∀ q ∈ last, ∀ p ∈ dropRepeats last ps, q.compare p = .lt := by
  induction ps generalizing last with
  | nil => exact ⟨.nil, fun _ _ _ h => nomatch h⟩
  | cons r ps ih =>
    obtain ⟨hr, hsorted⟩ := List.pairwise_cons.mp hsorted
    unfold dropRepeats
    split
    · exact ih hsorted fun q hq p hp => hlast q hq p (List.mem_cons_of_mem r hp)
    · next hkeep =>
      have hfirst : ∀ q ∈ some r, ∀ p ∈ ps, q.le p = true := by simpa using hr
      obtain ⟨hpairs, hafter⟩ := ih hsorted hfirst
      have hafter (p : Path) (hp : p ∈ dropRepeats (some r) ps) : r.compare p = .lt :=
        hafter r rfl p hp
      refine ⟨.cons hafter hpairs, ?_⟩
      intro q hq p hp
      -- the path before is less than the first that is kept
      have hle := Path.le_iff_isLE.mp (hlast q hq r List.mem_cons_self)
      have hne : q.compare r ≠ .eq := by
        intro heq
        have hsame := Path.sameComponents_iff.mpr (Path.compare_eq_eq_iff.mp heq).symm
        exact hkeep ((Option.any_eq_true _ _).mpr ⟨q, hq, hsame⟩)
      have hlt : q.compare r = .lt := by
        cases hcompare : q.compare r <;> simp_all
      obtain rfl | hp := List.mem_cons.mp hp
      · exact hlt
      · exact Std.TransCmp.lt_trans hlt (hafter p hp)

/-! ## Paths in order -/

theorem mem_of_mem_inOrder {p : Path} (h : p ∈ inOrder ps) : p ∈ ps :=
  List.mem_mergeSort.mp (dropRepeats_subset _ _ h)

/-- No components get lost. -/
theorem exists_mem_inOrder {p : Path} (h : p ∈ ps) :
    ∃ q ∈ inOrder ps, q.components = p.components := by
  have hmem : p ∈ ps.mergeSort Path.le := List.mem_mergeSort.mpr h
  obtain ⟨q, hq, -⟩ | hkept := exists_mem_dropRepeats hmem none
  · exact absurd hq (by simp)
  · exact hkept

/-- **Paths in order are strictly increasing.** -/
theorem pairwise_inOrder (ps : List Path) :
    (inOrder ps).Pairwise fun p q => p.compare q = .lt := by
  have hsorted : (ps.mergeSort Path.le).Pairwise fun p q => p.le q = true := by
    apply List.pairwise_mergeSort
    · intro p q r
      exact Path.le_trans
    · exact Path.le_total
  have hnone : ∀ q ∈ (none : Option Path), ∀ p ∈ ps.mergeSort Path.le, q.le p = true := nofun
  exact (pairwise_dropRepeats hsorted hnone).1

end Discovery

end EntitySchema
