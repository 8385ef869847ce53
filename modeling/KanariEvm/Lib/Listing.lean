import Mathlib.Data.List.Forall2
import Mathlib.Data.List.Pairwise

/-! Lists drawn from a family of lists: in order, each position once, and nothing left out. -/

namespace Listing

variable {α : Type*} {items : ℕ → List α} {p q : ℕ → Prop} {wanted : α → Prop}

/-- `xs` lists the wanted items of the members `n` of the family with `p n`, in order and each once:
`positions` are where they stand. -/
structure Exact (items : ℕ → List α) (p : ℕ → Prop) (wanted : α → Prop)
    (positions : List (ℕ × ℕ)) (xs : List α) : Prop where
  sorted : positions.Pairwise fun s t => s.1 < t.1 ∨ s.1 = t.1 ∧ s.2 < t.2
  mem : ∀ n i, (n, i) ∈ positions ↔ p n ∧ ∃ x, (items n)[i]? = some x ∧ wanted x
  picked : List.Forall₂ (fun s x => (items s.1)[s.2]? = some x) positions xs

namespace Exact

variable {positions : List (ℕ × ℕ)} {xs : List α}

theorem congr (h : Exact items p wanted positions xs)
    (hpq : ∀ n, ∀ x ∈ items n, wanted x → (p n ↔ q n)) : Exact items q wanted positions xs := by
  refine ⟨h.sorted, fun n i => (h.mem n i).trans ?_, h.picked⟩
  constructor
  · rintro ⟨hp, x, hx, hw⟩
    exact ⟨(hpq n x (List.mem_of_getElem? hx) hw).mp hp, x, hx, hw⟩
  · rintro ⟨hq, x, hx, hw⟩
    exact ⟨(hpq n x (List.mem_of_getElem? hx) hw).mpr hq, x, hx, hw⟩

theorem eq_nil_iff (h : Exact items p wanted positions xs) :
    xs = [] ↔ ∀ n, p n → ∀ x ∈ items n, ¬wanted x := by
  constructor
  · rintro rfl n hp x hx hw
    obtain ⟨i, hi⟩ := List.getElem?_of_mem hx
    have hmem := (h.mem n i).mpr ⟨hp, x, hi, hw⟩
    rw [List.forall₂_nil_right_iff.mp h.picked] at hmem
    exact absurd hmem List.not_mem_nil
  · intro hnone
    have hempty : positions = [] := by
      refine List.eq_nil_iff_forall_not_mem.mpr fun s hs => ?_
      obtain ⟨hp, x, hx, hw⟩ := (h.mem s.1 s.2).mp hs
      exact hnone s.1 hp x (List.mem_of_getElem? hx) hw
    have hpicked := h.picked
    rw [hempty] at hpicked
    exact List.forall₂_nil_left_iff.mp hpicked

end Exact

section Filter

variable (items) (keep : α → Bool)

def places (n : ℕ) : List (ℕ × ℕ) :=
  ((items n).zipIdx.filter fun e => keep e.1).map fun e => (n, e.2)

theorem mem_places {n : ℕ} {s : ℕ × ℕ} :
    s ∈ places items keep n ↔ s.1 = n ∧ ∃ x, (items n)[s.2]? = some x ∧ keep x = true := by
  obtain ⟨m, i⟩ := s
  simp only [places, List.mem_map, List.mem_filter, Prod.mk.injEq, Prod.exists]
  constructor
  · rintro ⟨x, j, ⟨hx, hkeep⟩, rfl, rfl⟩
    exact ⟨rfl, x, List.mem_zipIdx_iff_getElem?.mp hx, hkeep⟩
  · rintro ⟨rfl, x, hx, hkeep⟩
    exact ⟨x, i, ⟨List.mem_zipIdx_iff_getElem?.mpr hx, hkeep⟩, rfl, rfl⟩

theorem places_sorted (n : ℕ) :
    (places items keep n).Pairwise fun s t => s.1 < t.1 ∨ s.1 = t.1 ∧ s.2 < t.2 := by
  have hsnd : ((items n).zipIdx.map Prod.snd).Pairwise (· < ·) := by
    rw [List.zipIdx_map_snd]
    exact List.pairwise_lt_range'
  have hidx : (items n).zipIdx.Pairwise fun d e => d.2 < e.2 := List.pairwise_map.mp hsnd
  exact List.pairwise_map.mpr ((hidx.filter _).imp fun hlt => .inr ⟨rfl, hlt⟩)

theorem places_picked (n : ℕ) :
    List.Forall₂ (fun s x => (items s.1)[s.2]? = some x) (places items keep n)
      ((items n).filter keep) := by
  have hfilter : (items n).filter keep =
      ((items n).zipIdx.filter fun e => keep e.1).map Prod.fst := by
    conv_lhs => rw [← List.zipIdx_map_fst 0 (items n), List.filter_map]
    rfl
  rw [hfilter, places, List.forall₂_map_left_iff, List.forall₂_map_right_iff]
  refine List.forall₂_same.mpr fun e he => ?_
  exact List.mem_zipIdx_iff_getElem?.mp (List.mem_of_mem_filter he)

/-- Going through a range of members and keeping the items of each that pass a test lists exactly
these. -/
theorem exact_range (lo len : ℕ) :
    Exact items (fun n => lo ≤ n ∧ n < lo + len) (fun x => keep x = true)
      ((List.range' lo len).flatMap (places items keep))
      ((List.range' lo len).flatMap fun n => (items n).filter keep) := by
  refine ⟨?_, fun n i => ?_, ?_⟩
  · refine List.pairwise_flatMap.mpr ⟨fun n _ => places_sorted items keep n, ?_⟩
    refine List.Pairwise.imp ?_ List.pairwise_lt_range'
    intro m n hlt s hs t ht
    rw [((mem_places items keep).mp hs).1, ((mem_places items keep).mp ht).1]
    exact .inl hlt
  · simp only [List.mem_flatMap, List.mem_range'_1, mem_places]
    constructor
    · rintro ⟨m, hm, rfl, hx⟩
      exact ⟨hm, hx⟩
    · rintro ⟨hn, hx⟩
      exact ⟨n, hn, rfl, hx⟩
  · induction List.range' lo len with
    | nil => exact .nil
    | cons n rest ih =>
      rw [List.flatMap_cons, List.flatMap_cons]
      exact List.rel_append (places_picked items keep n) ih

end Filter

end Listing
