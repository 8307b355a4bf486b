import VariableReport.Formula.Units
import VariableReport.Proofs.Formula.Script
import VariableReport.Proofs.Number.Decimal
import VariableReport.Proofs.Text.Pieces
import Mathlib.Data.Bool.AllAny

/-!
# Simplified products

What stands in a unit after simplifying is settled: it holds no star, its ends are not blank
and its subscripts are braced (`settled_simplifyProduct`). A settled product is simplified to
itself, also with a blank beside it, and so is a settled fraction. Simplifying adds
nothing but the dot between factors, the braces of scripts and the digits of powers.
-/

namespace VariableReport.Formula
open Text

variable {s t p q : Text}

/-- The characters that simplifying may add. -/
def isAdded (c : Char) : Bool := " \\cdot^\x7b\x7d".toList.contains c || isAsciiDigit c

/-- A product that simplifying leaves as it is. -/
structure SettledProduct (p : Text) : Prop where
  star : '*' ∉ p
  trimmed : IsTrimmed p
  braced : subscript.brace p = p

/-- A factor is not empty, has no blank ends and holds no star. -/
theorem mem_factors (h : p ∈ factors t) :
    p ≠ [] ∧ IsTrimmed p ∧ ∀ c ∈ p, c ∈ t ∧ c ≠ '*' := by
  simp only [factors, List.mem_filter, List.mem_map, Bool.not_eq_true', List.isEmpty_eq_false_iff]
    at h
  obtain ⟨⟨x, hx, rfl⟩, hne⟩ := h
  exact ⟨hne, isTrimmed_trim x, fun c hc => mem_of_mem_splitOn hx c (mem_of_mem_trim hc)⟩

theorem mem_power {n : Nat} {c : Char} (h : c ∈ power p n) : c ∈ p ∨ isAdded c = true := by
  have hbase : c ∈ subscript.brace p → c ∈ p ∨ isAdded c = true := by
    intro hc
    by_cases hb : c = '\x7b' ∨ c = '\x7d'
    · exact .inr (by rcases hb with rfl | rfl <;> decide)
    · exact .inl (((Script.brace_inserted subscript p).mem_iff hb).1 hc)
  unfold power at h
  dsimp only at h
  split at h
  · rw [List.mem_append, List.mem_cons, List.mem_cons, List.mem_append, List.mem_singleton] at h
    rcases h with h | rfl | rfl | h | rfl
    · exact hbase h
    · exact .inr (by decide)
    · exact .inr (by decide)
    · exact .inr (by simp [isAdded, Decimal.isAsciiDigit_of_mem_natText h])
    · exact .inr (by decide)
  · exact hbase h

theorem mem_simplifyProduct {c : Char} (h : c ∈ simplifyProduct t) :
    (c ∈ t ∧ c ≠ '*') ∨ isAdded c = true := by
  rcases mem_of_mem_join h with h | ⟨x, hx, h⟩
  · have hdot : ∀ c ∈ dot, isAdded c = true := List.all_eq_true.1 (by decide)
    exact .inr (hdot c h)
  · obtain ⟨f, hf, rfl⟩ := List.mem_map.1 hx
    have hf := mem_factors (List.mem_eraseDups.1 hf)
    exact (mem_power h).imp_left (hf.2.2 c)

theorem isTrimmed_append (hp : IsTrimmed p) (hq : IsTrimmed q) (hpn : p ≠ []) (hqn : q ≠ [])
    (m : Text) : IsTrimmed (p ++ (m ++ q)) := by
  obtain ⟨c, cs, rfl⟩ := List.exists_cons_of_ne_nil hpn
  rw [← List.append_assoc]
  exact hq.append (by simpa using hp.1 c) hqn

theorem subscript_foreign_of {d : Char} (h1 : d ≠ '_') (h2 : d ≠ '\\')
    (h3 : isAsciiWord d = false) : subscript.Foreign d :=
  ⟨h1, fun h => h2 (Option.some.inj h).symm, h3⟩

theorem settled_power {n : Nat} (hne : p ≠ []) (ht : IsTrimmed p) (hs : '*' ∉ p) :
    SettledProduct (power p n) ∧ power p n ≠ [] := by
  have hin := Script.brace_inserted subscript p
  have hbase : SettledProduct (subscript.brace p) := by
    refine ⟨?_, ?_, Script.brace_brace Script.subscript_proper p⟩
    · rwa [hin.mem_iff (by decide)]
    · exact hin.isTrimmed (by rintro c (rfl | rfl) <;> decide) ht
  have hbne : subscript.brace p ≠ [] := by
    have := hin.length_le
    have := List.length_pos_iff.2 hne
    exact List.length_pos_iff.1 (by omega)
  by_cases hn : 1 < n
  · have hpow : power p n =
        subscript.brace p ++ ('^' :: '\x7b' :: Decimal.natText n ++ ['\x7d']) := by
      simp [power, hn]
    have hdigit : ∀ d ∈ Decimal.natText n, isAsciiDigit d = true :=
      fun d => Decimal.isAsciiDigit_of_mem_natText
    have hdigits : subscript.brace (Decimal.natText n) = Decimal.natText n := by
      apply Script.brace_eq_self
      intro hm
      exact absurd (hdigit _ hm) (by decide)
    rw [hpow]
    refine ⟨⟨?_, ?_, ?_⟩, by simp [hbne]⟩
    · intro hm
      rw [← hpow] at hm
      exact (mem_power hm).elim hs (by decide)
    · exact isTrimmed_append hbase.trimmed (by simp [IsTrimmed]; decide) hbne (by simp) _
    · have h1 := Script.brace_splitsAt (subscript_foreign_of (by decide) (by decide) (by decide) :
        subscript.Foreign '^') (subscript.brace p) ('\x7b' :: Decimal.natText n ++ ['\x7d'])
      have h2 := Script.brace_splitsAt (subscript_foreign_of (by decide) (by decide) (by decide) :
        subscript.Foreign '\x7b') [] (Decimal.natText n ++ ['\x7d'])
      have h3 := Script.brace_splitsAt (subscript_foreign_of (by decide) (by decide) (by decide) :
        subscript.Foreign '\x7d') (Decimal.natText n) []
      simp only [List.nil_append, Script.brace_nil, List.cons_append] at h1 h2 h3 ⊢
      rw [h1, h2, h3, hbase.braced, hdigits]
  · have hpow : power p n = subscript.brace p := by simp [power, hn]
    rw [hpow]
    exact ⟨hbase, hbne⟩

theorem settled_join {ps : List Text} (h : ∀ p ∈ ps, SettledProduct p ∧ p ≠ []) :
    SettledProduct (join dot ps) ∧ (ps ≠ [] → join dot ps ≠ []) := by
  induction ps with
  | nil => exact ⟨⟨by simp [join_nil], by simp [join_nil, IsTrimmed], rfl⟩, by simp⟩
  | cons p ps ih =>
    cases ps with
    | nil => simpa [join_singleton] using h
    | cons q ps =>
      obtain ⟨hp, hpn⟩ := h p (by simp)
      obtain ⟨hr, hrn⟩ := ih fun x hx => h x (by simp [hx])
      have hrn := hrn (by simp)
      rw [join_cons_cons]
      generalize join dot (q :: ps) = r at hr hrn
      refine ⟨⟨?_, isTrimmed_append hp.trimmed hr.trimmed hpn hrn dot, ?_⟩, by simp [hpn]⟩
      · simp only [List.mem_append, not_or]
        exact ⟨hp.star, by decide, hr.star⟩
      · have hd : dot = ' ' :: ("\\cdot".toList ++ [' ']) := by decide
        have hf : subscript.Foreign ' ' := subscript_foreign_of (by decide) (by decide) (by decide)
        have h1 := Script.brace_splitsAt hf p ("\\cdot".toList ++ ' ' :: r)
        have h2 := Script.brace_splitsAt hf "\\cdot".toList r
        have hc : subscript.brace "\\cdot".toList = "\\cdot".toList := by decide
        rw [h2, hc, hp.braced, hr.braced] at h1
        rw [hd]
        simpa using h1

/-- A simplified product is settled. -/
theorem settled_simplifyProduct (t : Text) : SettledProduct (simplifyProduct t) := by
  refine (settled_join ?_).1
  intro x hx
  obtain ⟨f, hf, rfl⟩ := List.mem_map.1 hx
  obtain ⟨hne, ht, hc⟩ := mem_factors (List.mem_eraseDups.1 hf)
  exact settled_power hne ht fun hm => (hc _ hm).2 rfl

/-- Without stars there is at most one factor. -/
theorem simplifyProduct_of_not_mem (h : '*' ∉ t) :
    simplifyProduct t = subscript.brace (trim t) := by
  unfold simplifyProduct factors
  rw [splitOn_of_not_mem h]
  by_cases he : trim t = []
  · simp [he, join_nil, Script.brace_nil]
  · simp [he, List.eraseDups_cons, power, join_singleton]

theorem SettledProduct.simplifyProduct_eq (h : SettledProduct p) : simplifyProduct p = p := by
  rw [simplifyProduct_of_not_mem h.star, trim_eq_self h.trimmed, h.braced]

theorem SettledProduct.simplifyProduct_append_blank (h : SettledProduct p) :
    simplifyProduct (p ++ [' ']) = p := by
  have hs : '*' ∉ p ++ [' '] := by simp [h.star]
  rw [simplifyProduct_of_not_mem hs, trim_append_blank (by decide) h.trimmed, h.braced]

theorem SettledProduct.simplifyProduct_blank_cons (h : SettledProduct p) :
    simplifyProduct (' ' :: p) = p := by
  have hs : '*' ∉ ' ' :: p := by simp [h.star]
  rw [simplifyProduct_of_not_mem hs, trim_blank_cons (by decide), trim_eq_self h.trimmed, h.braced]

/-- The content of a unit that simplifying leaves as it is: a product, or two of them with
a slash and a blank on each side of it. -/
inductive SettledUnit : Text → Prop
  | product {p : Text} : SettledProduct p → '/' ∉ p → SettledUnit p
  | fraction {p q : Text} : SettledProduct p → p ≠ [] → '/' ∉ p → SettledProduct q →
      SettledUnit (p ++ ' ' :: '/' :: ' ' :: q)

theorem settled_simplifyUnit (t : Text) : SettledUnit (simplifyUnit t) := by
  unfold simplifyUnit
  cases hc : cut '/' t with
  | none =>
    refine .product (settled_simplifyProduct t) fun hm => ?_
    rcases mem_simplifyProduct hm with ⟨hm, -⟩ | hm
    · exact not_mem_of_cut_eq_none hc hm
    · exact absurd hm (by decide)
  | some sides =>
    obtain ⟨top, bottom⟩ := sides
    obtain ⟨rfl, hn⟩ := cut_eq_some hc
    dsimp only
    have hslash : " / ".toList ++ simplifyProduct bottom =
        ' ' :: '/' :: ' ' :: simplifyProduct bottom := rfl
    rw [List.append_assoc, hslash]
    split
    · have hone : SettledProduct ['1'] := ⟨by decide, by simp [IsTrimmed, isBlank], by decide⟩
      exact .fraction hone (by simp) (by decide) (settled_simplifyProduct bottom)
    next hne =>
      refine .fraction (settled_simplifyProduct top) (by simpa using hne) (fun hm => ?_)
        (settled_simplifyProduct bottom)
      rcases mem_simplifyProduct hm with ⟨hm, -⟩ | hm
      · exact hn hm
      · exact absurd hm (by decide)

theorem SettledUnit.simplifyUnit_eq (h : SettledUnit t) : simplifyUnit t = t := by
  unfold simplifyUnit
  cases h with
  | product hp hs =>
    rw [cut_of_not_mem hs]
    exact hp.simplifyProduct_eq
  | @fraction p q hp hne hs hq =>
    have hs' : '/' ∉ p ++ [' '] := by simp [hs]
    have hcut := cut_append hs' (' ' :: q)
    rw [List.append_assoc, List.singleton_append] at hcut
    rw [hcut]
    dsimp only
    rw [hp.simplifyProduct_append_blank, hq.simplifyProduct_blank_cons, if_neg (by simpa using hne)]
    simp

/-- Apart from what simplifying adds, a unit holds what it held before. -/
theorem mem_simplifyUnit {c : Char} (h : c ∈ simplifyUnit t) :
    c ∈ t ∨ isAdded c = true := by
  unfold simplifyUnit at h
  cases hc : cut '/' t with
  | none =>
    rw [hc] at h
    exact (mem_simplifyProduct h).imp_left And.left
  | some sides =>
    obtain ⟨top, bottom⟩ := sides
    obtain ⟨rfl, hn⟩ := cut_eq_some hc
    rw [hc] at h
    dsimp only at h
    rw [List.mem_append, List.mem_append] at h
    rcases h with (h | h) | h
    · split at h
      · rw [List.mem_singleton] at h
        exact .inr (by rw [h]; decide)
      · exact (mem_simplifyProduct h).imp_left fun h => by simp [h.1]
    · have : ∀ c ∈ " / ".toList, c = '/' ∨ isAdded c = true :=
        List.all_iff_forall_prop.1 (by decide)
      exact (this c h).imp_left fun h => by simp [h]
    · exact (mem_simplifyProduct h).imp_left fun h => by simp [h.1]

end VariableReport.Formula
