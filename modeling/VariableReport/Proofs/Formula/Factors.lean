import VariableReport.Proofs.Formula.Power
import Mathlib.Algebra.BigOperators.Group.List.Lemmas
import Mathlib.Algebra.GroupWithZero.Nat
import Mathlib.Data.List.Forall2

/-!
# Factors are conserved

Simplifying looks at a unit from its first open bracket to its first closing one on the row, so a text
may be cut wherever no bracket is open, and a text without units is left alone. Within a product each
distinct factor has one term, in the order in which the factors came first. Its multiplicity is the
number of times the factor occurs, so the multiplicities add up to the number of factors
(`Collected.total`), and another order of the factors is another order of the terms
(`units_conserve_factors`).
-/

namespace VariableReport.Formula
open Text

section Distinct

variable {α : Type} [BEq α] [LawfulBEq α]

theorem eraseDups_concat (l : List α) (a : α) :
    (l ++ [a]).eraseDups = if a ∈ l then l.eraseDups else l.eraseDups ++ [a] := by
  rw [List.eraseDups_append, List.removeAll]
  by_cases ha : a ∈ l <;> simp [ha, List.eraseDups_cons]

theorem nodup_eraseDups (l : List α) : l.eraseDups.Nodup := by
  induction l using List.reverseRecOn with
  | nil => simp
  | append_singleton l a ih =>
    rw [eraseDups_concat]
    split
    · exact ih
    next ha =>
      rw [List.nodup_append]
      exact ⟨ih, by simp, fun x hx y hy => by
        rintro rfl
        exact ha (List.mem_eraseDups.1 (List.mem_singleton.1 hy ▸ hx))⟩

/-- The distinct members come in the order of their first occurrences. -/
theorem pairwise_idxOf_eraseDups (l : List α) :
    l.eraseDups.Pairwise fun a b => l.idxOf a < l.idxOf b := by
  induction l using List.reverseRecOn with
  | nil => simp
  | append_singleton l a ih =>
    have hkept : l.eraseDups.Pairwise fun x y => (l ++ [a]).idxOf x < (l ++ [a]).idxOf y := by
      refine ih.imp_of_mem fun hx hy h => ?_
      rwa [List.idxOf_append_of_mem (List.mem_eraseDups.1 hx),
        List.idxOf_append_of_mem (List.mem_eraseDups.1 hy)]
    rw [eraseDups_concat]
    split
    · exact hkept
    next ha =>
      refine List.pairwise_append.2 ⟨hkept, by simp, fun x hx y hy => ?_⟩
      have hx := List.mem_eraseDups.1 hx
      rw [List.mem_singleton.1 hy, List.idxOf_append_of_mem hx, List.idxOf_append_of_notMem ha]
      exact Nat.lt_add_right _ (List.idxOf_lt_length_of_mem hx)

theorem perm_eraseDups {l m : List α} (h : l.Perm m) : l.eraseDups.Perm m.eraseDups :=
  (List.perm_ext_iff_of_nodup (nodup_eraseDups l) (nodup_eraseDups m)).2 fun a => by
    rw [List.mem_eraseDups, List.mem_eraseDups, h.mem_iff]

theorem sum_count_eraseDups (l : List α) : (l.eraseDups.map fun a => l.count a).sum = l.length := by
  classical
  obtain rfl : ‹BEq α› = instBEqOfDecidableEq := lawful_beq_subsingleton _ _
  have hperm : l.eraseDups.Perm l.dedup :=
    (List.perm_ext_iff_of_nodup (nodup_eraseDups l) l.nodup_dedup).2 fun a => by simp
  rw [(hperm.map _).sum_eq, List.sum_map_count_dedup_eq_length]

end Distinct

variable {f t u w : Text} {fs gs ps qs : List Text} {n : Nat}

/-! ### Products -/

/-- The pieces of a product between its stars: factors with white space around them, and pieces of
white space alone. A factor is not empty, has no white space at its ends and holds no star. -/
inductive LaidOut : List Text → List Text → Prop
  | nil : LaidOut [] []
  | blank {w : Text} {fs ps : List Text} : (∀ c ∈ w, isBlank c = true) → LaidOut fs ps →
      LaidOut fs (w :: ps)
  | factor {f v w : Text} {fs ps : List Text} : f ≠ [] → IsTrimmed f → '*' ∉ f →
      (∀ c ∈ v, isBlank c = true) → (∀ c ∈ w, isBlank c = true) → LaidOut fs ps →
      LaidOut (f :: fs) ((v ++ (f ++ w)) :: ps)

/-- A factor is written with its subscripts in braces, and with its multiplicity raised if it is more
than one. -/
inductive Term : Text → Nat → Text → Prop
  | once {f : Text} : Term f 1 (subscript.brace f)
  | many {f : Text} {n : Nat} : 1 < n →
      Term f n (raised (subscript.brace f) (Decimal.natText n))

/-- The distinct factors and their terms, in the order in which the factors came first. -/
structure Collected (fs distinct terms : List Text) : Prop where
  nodup : distinct.Nodup
  mem_iff : ∀ f, f ∈ distinct ↔ f ∈ fs
  ordered : distinct.Pairwise fun f g => fs.idxOf f < fs.idxOf g
  terms : List.Forall₂ (fun f => Term f (fs.count f)) distinct terms
  total : (distinct.map fun f => fs.count f).sum = fs.length

theorem term_power (hn : 0 < n) : Term f n (power f n) := by
  unfold power
  dsimp only
  split
  next h => exact .many h
  next h =>
    obtain rfl : n = 1 := by omega
    exact .once

/-- The terms of a list of factors. -/
def termsOf (fs : List Text) : List Text := fs.eraseDups.map fun f => power f (fs.count f)

theorem collected_termsOf (fs : List Text) : Collected fs fs.eraseDups (termsOf fs) where
  nodup := nodup_eraseDups fs
  mem_iff _ := List.mem_eraseDups
  ordered := pairwise_idxOf_eraseDups fs
  terms := by
    rw [termsOf, List.forall₂_map_right_iff, List.forall₂_same]
    exact fun f hf => term_power (List.count_pos_iff.2 (List.mem_eraseDups.1 hf))
  total := sum_count_eraseDups fs

/-- Factors in another order have the same terms in another order. -/
theorem perm_termsOf (h : fs.Perm gs) : (termsOf fs).Perm (termsOf gs) := by
  have hcount : (fun f => power f (fs.count f)) = fun f => power f (gs.count f) := by
    funext f
    rw [h.count_eq]
  rw [termsOf, termsOf, hcount]
  exact (perm_eraseDups h).map _

theorem factors_blank (hw : ∀ c ∈ w, isBlank c = true) : factors w = [] := by
  have hstar : '*' ∉ w := fun hm => absurd (hw _ hm) (by decide)
  rw [factors, splitOn_of_not_mem hstar, List.map_singleton, trim_eq_nil_iff.2 hw]
  rfl

theorem factors_piece (hne : f ≠ []) (ht : IsTrimmed f) (hf : '*' ∉ f)
    (hu : ∀ c ∈ u, isBlank c = true) (hw : ∀ c ∈ w, isBlank c = true) :
    factors (u ++ (f ++ w)) = [f] := by
  have hstar : '*' ∉ u ++ (f ++ w) := by
    simp only [List.mem_append, not_or]
    exact ⟨fun hm => absurd (hu _ hm) (by decide), hf, fun hm => absurd (hw _ hm) (by decide)⟩
  rw [factors, splitOn_of_not_mem hstar, List.map_singleton, trim_blanks_append hu,
    trim_append_blanks ht hw]
  simp [hne]

theorem factors_join_cons (p : Text) (ps : List Text) :
    factors (join ['*'] (p :: ps)) = factors p ++ factors (join ['*'] ps) := by
  cases ps with
  | nil =>
    have hnil : factors (join ['*'] []) = [] := by decide
    rw [join_singleton, hnil, List.append_nil]
  | cons q ps => rw [join_cons_cons, List.singleton_append, factors_append]

/-- The factors of a product are found again. -/
theorem LaidOut.factors_join (h : LaidOut fs ps) : factors (join ['*'] ps) = fs := by
  induction h with
  | nil => decide
  | blank hw _ ih => rw [factors_join_cons, factors_blank hw, ih, List.nil_append]
  | factor hne ht hf hu hw _ ih =>
    rw [factors_join_cons, factors_piece hne ht hf hu hw, ih, List.singleton_append]

theorem LaidOut.simplifyProduct_join (h : LaidOut fs ps) :
    simplifyProduct (join ['*'] ps) = join dot (termsOf fs) := by
  rw [simplifyProduct, h.factors_join]
  rfl

/-! ### Units in a text -/

/-- A text without units is left as it is. -/
theorem mapUnits_eq_self (g : Text → Text)
    (h : ∀ a k b, t = a ++ '[' :: (k ++ ']' :: b) → '\n' ∈ k) : mapUnits g t = t := by
  have hb := bracketed t
  induction hb with
  | nil => rfl
  | @char c t hc _ ih =>
    rw [mapUnits_char g hc, ih fun a k b ht => h (c :: a) k b (by rw [ht, List.cons_append])]
  | @unit k t _ hrow _ _ => exact absurd (h [] k t rfl) hrow

/-- Simplifying units is local and conserves their factors. A text may be cut where no bracket is
open on the row, and it stays as it is where no bracket is closed on its row. The product of factors,
however they are laid out between stars, is made of one term for each distinct factor, in the order
of their first occurrences; the multiplicities add up to the number of factors, and the same factors
in another order have the same terms in another order. -/
theorem units_conserve_factors :
    (∀ a b : Text, ¬Opens a → simplifyUnits (a ++ b) = simplifyUnits a ++ simplifyUnits b) ∧
    (∀ t : Text, (∀ a k b, t = a ++ '[' :: (k ++ ']' :: b) → '\n' ∈ k) → simplifyUnits t = t) ∧
    ∀ fs ps : List Text, LaidOut fs ps → ∃ distinct terms, Collected fs distinct terms ∧
      simplifyProduct (join ['*'] ps) = join dot terms ∧
      ∀ gs qs : List Text, gs.Perm fs → LaidOut gs qs → ∃ distinct' terms',
        Collected gs distinct' terms' ∧ simplifyProduct (join ['*'] qs) = join dot terms' ∧
        terms'.Perm terms := by
  refine ⟨fun a b ha => ?_, fun t ht => ?_, fun fs ps hlaid => ?_⟩
  · simp only [simplifyUnits_eq_mapUnits]
    exact mapUnits_append_of_outside simplifyUnit fun h => ha h.1
  · rw [simplifyUnits_eq_mapUnits]
    exact mapUnits_eq_self simplifyUnit ht
  · refine ⟨_, _, collected_termsOf fs, hlaid.simplifyProduct_join, fun gs qs hperm hlaid' => ?_⟩
    exact ⟨_, _, collected_termsOf gs, hlaid'.simplifyProduct_join, perm_termsOf hperm⟩

/-- A product with white space around its factors and two empty pieces. -/
theorem laidOut_spaced : LaidOut (["m", "s_1", "m"].map String.toList)
    (["\tm ", "", "s_1", " \n", "m"].map String.toList) := by
  have hblank {w : Text} (h : w.all isBlank = true) : ∀ c ∈ w, isBlank c = true :=
    List.all_eq_true.1 h
  have hm : IsTrimmed ['m'] := isTrimmed_of_trim_eq (by decide)
  have hs : IsTrimmed "s_1".toList := isTrimmed_of_trim_eq (by decide)
  exact .factor (v := ['\t']) (w := [' ']) (by decide) hm (by decide) (hblank (by decide))
    (hblank (by decide)) <| .blank (by simp) <|
    .factor (v := []) (w := []) (by decide) hs (by decide) (by simp) (by simp) <|
    .blank (hblank (by decide)) <|
    .factor (v := []) (w := []) (by decide) hm (by decide) (by simp) (by simp) .nil

theorem units_conserve_factors_spaced :
    (¬Opens "[m*[m]] [\n".toList ∧ simplifyUnits ("[m*[m]] [\n".toList ++ "s*s]".toList) =
      simplifyUnits "[m*[m]] [\n".toList ++ simplifyUnits "s*s]".toList) ∧
    LaidOut (["m", "s_1", "m"].map String.toList)
      (["\tm ", "", "s_1", " \n", "m"].map String.toList) ∧
    ∃ distinct terms, Collected (["m", "s_1", "m"].map String.toList) distinct terms ∧
      simplifyProduct "\tm **s_1* \n*m".toList = join dot terms := by
  obtain ⟨happend, -, hproduct⟩ := units_conserve_factors
  have hopens : ¬Opens "[m*[m]] [\n".toList := by decide
  obtain ⟨distinct, terms, hcollected, hterms, -⟩ := hproduct _ _ laidOut_spaced
  exact ⟨⟨hopens, happend _ _ hopens⟩, laidOut_spaced, distinct, terms, hcollected, hterms⟩

end VariableReport.Formula
