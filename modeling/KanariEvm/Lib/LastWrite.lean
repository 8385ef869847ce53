import Mathlib.Algebra.BigOperators.Group.Finset.Basic
import Mathlib.Algebra.GroupWithZero.Nat
import Mathlib.Data.Finmap

namespace LastWrite

variable {α β γ : Type*}

/-- The answer of the last element that gives one. -/
def last (f : α → Option β) (as : List α) : Option β := as.reverse.findSome? f

@[simp] theorem last_nil (f : α → Option β) : last f [] = none := rfl

theorem last_append (f : α → Option β) (as bs : List α) :
    last f (as ++ bs) = (last f bs).or (last f as) := by
  simp only [last, List.reverse_append, List.findSome?_append]

@[simp] theorem last_singleton (f : α → Option β) (a : α) : last f [a] = f a := by
  simp only [last, List.reverse_singleton, List.findSome?_cons, List.findSome?_nil]
  cases f a <;> rfl

theorem last_cons (f : α → Option β) (a : α) (as : List α) :
    last f (a :: as) = (last f as).or (f a) := by
  rw [← List.singleton_append, last_append, last_singleton]

/-- Writes made in groups: the last group that writes has the last word. -/
theorem last_flatMap (f : β → Option γ) (g : α → List β) (as : List α) :
    last f (as.flatMap g) = last (fun a => last f (g a)) as := by
  induction as with
  | nil => rfl
  | cons a as ih => rw [List.flatMap_cons, last_append, last_cons, ih]

theorem last_congr {f g : α → Option β} {as : List α} (h : ∀ a ∈ as, f a = g a) :
    last f as = last g as := by
  induction as with
  | nil => rfl
  | cons a as ih =>
    rw [last_cons, last_cons, h a List.mem_cons_self,
      ih fun b hb => h b (List.mem_cons_of_mem a hb)]

theorem last_eq_none {f : α → Option β} {as : List α} (h : ∀ a ∈ as, f a = none) :
    last f as = none := by
  rw [last_congr h]
  induction as with
  | nil => rfl
  | cons a as ih => rw [last_cons, ih fun b hb => h b (List.mem_cons_of_mem a hb)]; rfl

theorem last_map (f : β → Option γ) (g : α → β) (as : List α) :
    last f (as.map g) = last (fun a => f (g a)) as := by
  rw [last, last, ← List.map_reverse, List.findSome?_map]
  rfl

theorem last_ite (p : α → Prop) [DecidablePred p] (b : β) (as : List α) :
    last (fun a => if p a then some b else none) as = if ∃ a ∈ as, p a then some b else none := by
  induction as with
  | nil => simp
  | cons a as ih =>
    rw [last_cons, ih]
    by_cases hlater : ∃ a' ∈ as, p a'
    · have hsome : ∃ a' ∈ a :: as, p a' := by
        obtain ⟨a', ha', hp⟩ := hlater
        exact ⟨a', List.mem_cons_of_mem a ha', hp⟩
      simp only [if_pos hlater, if_pos hsome, Option.some_or]
    · have hiff : (∃ a' ∈ a :: as, p a') ↔ p a := by
        simp only [List.mem_cons, exists_eq_or_imp, hlater, or_false]
      simp only [if_neg hlater, Option.none_or, hiff]

theorem last_map_option (f : α → Option β) (g : β → γ) (as : List α) :
    last (fun a => (f a).map g) as = (last f as).map g := by
  induction as with
  | nil => rfl
  | cons a as ih =>
    rw [last_cons, last_cons, ih]
    cases last f as <;> rfl

variable {κ ν : Type*} [DecidableEq κ]

theorem last_const (key : κ) (v : ν) (puts : List (κ × β)) :
    last (fun put => if put.1 = key then some v else none) puts =
      if key ∈ puts.map (·.1) then some v else none := by
  induction puts with
  | nil => rfl
  | cons put puts ih =>
    rw [last_cons, ih, List.map_cons]
    by_cases hrest : key ∈ puts.map (·.1)
    · rw [if_pos hrest, if_pos (List.mem_cons_of_mem _ hrest)]
      rfl
    · rw [if_neg hrest, Option.none_or]
      by_cases hhead : put.1 = key
      · rw [if_pos hhead, if_pos (hhead ▸ List.mem_cons_self)]
      · rw [if_neg hhead, if_neg]
        intro hmem
        rcases List.mem_cons.mp hmem with heq | hin
        · exact hhead heq.symm
        · exact hrest hin

/-- What a put says of a key. -/
def under (key : κ) (put : κ × ν) : Option ν := if put.1 = key then some put.2 else none

/-- A map written by puts in order answers with the last put under a key. -/
theorem lookup_foldl_insert (puts : List (κ × ν)) (m : Finmap fun _ : κ => ν) (key : κ) :
    (puts.foldl (fun m put => m.insert put.1 put.2) m).lookup key =
      (last (under key) puts).or (m.lookup key) := by
  induction puts generalizing m with
  | nil => rfl
  | cons put puts ih =>
    rw [List.foldl_cons, ih, last_cons, Option.or_assoc]
    congr 1
    unfold under
    split_ifs with h
    · subst h
      rw [Finmap.lookup_insert]
      rfl
    · rw [Finmap.lookup_insert_of_ne _ (Ne.symm h)]
      rfl

theorem last_under_of_mem {puts : List (κ × ν)} (hnd : (puts.map (·.1)).Nodup) {key : κ} {v : ν}
    (hmem : (key, v) ∈ puts) : last (under key) puts = some v := by
  induction puts with
  | nil => cases hmem
  | cons put puts ih =>
    rw [List.map_cons, List.nodup_cons] at hnd
    rw [last_cons]
    rcases List.mem_cons.mp hmem with rfl | hmem
    · rw [last_eq_none, Option.none_or, under, if_pos rfl]
      intro put hput
      refine if_neg fun heq => hnd.1 ?_
      exact List.mem_map.mpr ⟨put, hput, heq⟩
    · rw [ih hnd.2 hmem]
      rfl

theorem last_under_of_notMem {puts : List (κ × ν)} {key : κ} (h : ∀ v, (key, v) ∉ puts) :
    last (under key) puts = none := by
  apply last_eq_none
  intro put hput
  refine if_neg fun heq => h put.2 ?_
  rw [← heq]
  exact hput

/-- The values that a later put under the same key replaces. -/
def overwritten : List (κ × ν) → List ν
  | [] => []
  | put :: puts =>
    if put.1 ∈ puts.map (·.1) then put.2 :: overwritten puts else overwritten puts

theorem mem_overwritten {puts : List (κ × ν)} {v : ν} :
    v ∈ overwritten puts ↔
      ∃ before key after, puts = before ++ (key, v) :: after ∧ key ∈ after.map (·.1) := by
  induction puts with
  | nil => simp [overwritten]
  | cons put puts ih =>
    have hhere : ∀ before key after, put :: puts = before ++ (key, v) :: after →
        (before = [] ∧ put = (key, v) ∧ puts = after) ∨
          ∃ before', puts = before' ++ (key, v) :: after := by
      intro before key after heq
      cases before with
      | nil => exact .inl ⟨rfl, (List.cons.inj heq).1, (List.cons.inj heq).2⟩
      | cons b before' => exact .inr ⟨before', (List.cons.inj heq).2⟩
    have hlater : (∃ before key after, puts = before ++ (key, v) :: after ∧
        key ∈ after.map (·.1)) → ∃ before key after, put :: puts = before ++ (key, v) :: after ∧
          key ∈ after.map (·.1) := by
      rintro ⟨before, key, after, rfl, hkey⟩
      exact ⟨put :: before, key, after, rfl, hkey⟩
    unfold overwritten
    split_ifs with hmem
    · rw [List.mem_cons, ih]
      constructor
      · rintro (rfl | hrest)
        · exact ⟨[], put.1, puts, rfl, hmem⟩
        · exact hlater hrest
      · rintro ⟨before, key, after, heq, hkey⟩
        obtain ⟨_, rfl, _⟩ | ⟨before', hrest⟩ := hhere before key after heq
        · exact .inl rfl
        · exact .inr ⟨before', key, after, hrest, hkey⟩
    · rw [ih]
      refine ⟨hlater, ?_⟩
      rintro ⟨before, key, after, heq, hkey⟩
      obtain ⟨_, rfl, rfl⟩ | ⟨before', hrest⟩ := hhere before key after heq
      · exact absurd hkey hmem
      · exact ⟨before', key, after, hrest, hkey⟩

theorem last_under_isSome {puts : List (κ × ν)} {key : κ} (h : key ∈ puts.map (·.1)) :
    ∃ v, last (under key) puts = some v := by
  have hconst := last_map_option (under key) (fun _ => ()) puts
  have hput : (fun put : κ × ν => (under key put).map fun _ => ()) =
      fun put => if put.1 = key then some () else none := by
    funext put
    unfold under
    split_ifs <;> rfl
  rw [hput, last_const, if_pos h] at hconst
  obtain ⟨v, hv, _⟩ := Option.map_eq_some_iff.mp hconst.symm
  exact ⟨v, hv⟩

/-- Everything that was put is there at the end or was replaced. -/
theorem sum_last_add_overwritten (weight : ν → ℕ) (puts : List (κ × ν)) :
    ∑ key ∈ (puts.map (·.1)).toFinset, ((last (under key) puts).map weight).getD 0 +
      ((overwritten puts).map weight).sum = (puts.map fun put => weight put.2).sum := by
  induction puts with
  | nil => rfl
  | cons put puts ih =>
    have hlast : ∀ key ∈ (puts.map (·.1)).toFinset,
        last (under key) (put :: puts) = last (under key) puts := by
      intro key hkey
      obtain ⟨v, hv⟩ := last_under_isSome (List.mem_toFinset.mp hkey)
      rw [last_cons, hv]
      rfl
    have hsum : ∑ key ∈ (puts.map (·.1)).toFinset,
        ((last (under key) (put :: puts)).map weight).getD 0 =
        ∑ key ∈ (puts.map (·.1)).toFinset, ((last (under key) puts).map weight).getD 0 :=
      Finset.sum_congr rfl fun key hkey => by rw [hlast key hkey]
    rw [List.map_cons, List.toFinset_cons, List.map_cons, List.sum_cons, ← ih, overwritten]
    by_cases hmem : put.1 ∈ puts.map (·.1)
    · rw [Finset.insert_eq_of_mem (List.mem_toFinset.mpr hmem), if_pos hmem, hsum, List.map_cons,
        List.sum_cons]
      omega
    · have hself : last (under put.1) (put :: puts) = some put.2 := by
        rw [last_cons, last_under_of_notMem, Option.none_or, under, if_pos rfl]
        intro v hv
        exact hmem (List.mem_map.mpr ⟨_, hv, rfl⟩)
      rw [Finset.sum_insert fun h => hmem (List.mem_toFinset.mp h), if_neg hmem, hsum, hself]
      simp only [Option.map_some, Option.getD_some]
      omega

end LastWrite
