import VariableReport.Kernel
import VariableReport.Listing
import VariableReport.Proofs.Json.Spelling
import VariableReport.Proofs.Literal.Form
import VariableReport.Proofs.Text.Blank
import VariableReport.Standard

/-!
# Captured lists

A list of plain values is captured with its literal for a text, and the items that the text
stands for are those of the list (`read_captureOne`). It does not matter which reading
answers: as a literal the text always gives the list back, and where the text happens to
be a JSON array it is the array of the same items.
-/

namespace VariableReport.Listing
open Value (Plain spelling)

variable {d : Nat} {v : Value} {vs : List Value}

theorem isTrimmed_spelling (h : ∀ v ∈ vs, Plain d v) : Text.IsTrimmed (spelling (.list vs)) := by
  have hopen : Text.isBlank '[' = false := by decide
  have hclose : Text.isBlank ']' = false := by decide
  cases vs with
  | nil =>
    rw [Value.spelling_list_nil]
    simp [Text.IsTrimmed, hopen, hclose]
  | cons v vs =>
    have hlast : (spelling (.list (v :: vs))).getLast? = some ']' := by
      rw [Value.spelling_list_cons h, ← List.append_assoc, ← List.cons_append,
        List.getLast?_concat]
    constructor
    · rw [Value.spelling_list_cons h]
      simp [hopen]
    · rw [hlast]
      simp [hclose]

section
variable [Host]

theorem literal?_spelling (h : ∀ v ∈ vs, Plain d v) (hd : Literal.rulesOf (d + 1) ≤ 700)
    (site : Site) : literal? (spelling (.list vs)) site = .ok (some vs) := by
  rw [literal?, Text.trim_eq_self (isTrimmed_spelling h), Literal.read_spelling (.list h) hd]

/-- As JSON the literal is the same list or none. -/
theorem json?_spelling (h : ∀ v ∈ vs, Plain d v) {site : Site} (hd : d < Host.jsonDepth site) :
    json? (spelling (.list vs)) site = .ok (some vs) ∨
      json? (spelling (.list vs)) site = .ok none := by
  have hstands := fun n => Json.stands_spelling (n := n) (.list h) hd .nil
  obtain ⟨t, ht⟩ : ∃ t, spelling (.list vs) = '[' :: t := by
    cases vs with
    | nil => exact ⟨_, rfl⟩
    | cons v vs => exact ⟨_, Value.spelling_list_cons h⟩
  have hskip : Json.skipSpace (spelling (.list vs)) = spelling (.list vs) := by
    simpa using Json.skipSpace_spelling (.list h) []
  have hmark : (spelling (.list vs)).head? ≠ some '\ufeff' := by
    rw [ht]
    simp
  have hread := hstands (2 * (spelling (.list vs)).length + 2)
  rw [List.append_nil] at hread
  unfold json? Json.read Json.readAll
  rw [if_neg hmark, hskip]
  generalize Json.readValue _ _ _ = r at hread ⊢
  cases hread with
  | malformed cause left => exact .inr rfl
  | @ok j hj =>
    left
    cases j with
    | array items =>
      cases hj
      rfl
    | _ => cases hj

theorem strict?_spelling (h : ∀ v ∈ vs, Plain d v) {site : Site} (hjson : d < Host.jsonDepth site)
    (hliteral : Literal.rulesOf (d + 1) ≤ 700) :
    strict? (spelling (.list vs)) site = .ok (some vs) := by
  rw [strict?]
  cases json?_spelling h hjson with
  | inl hread =>
    rw [hread]
    rfl
  | inr hread =>
    rw [hread]
    exact literal?_spelling h hliteral site

/-- A captured list of plain values is read back, with all its types. As a literal its text is
the list, and where it is a JSON array too, that array has the same items. -/
theorem read_captureOne (unitType name : Text) {vs : List Value} (h : ∀ v ∈ vs, Plain 100 v)
    (site : Site) :
    ∃ t, Kernel.captureOne unitType name (.value (.list vs)) = some ⟨name, t, "list".toList⟩ ∧
      read t site = .ok vs ∧ literal? t site = .ok (some vs) ∧
      ∀ items, json? t site = .ok (some items) → items = vs := by
  have hroom : 100 < Host.jsonDepth site := Nat.lt_of_lt_of_le (by decide) (Host.jsonDepth_ge site)
  have hliteral := literal?_spelling h (by decide) site
  refine ⟨spelling (.list vs), ?_, ?_, hliteral, ?_⟩
  · have htext : (Value.list vs).text? = some (spelling (.list vs)) := (Plain.list h).literal?_eq
    rw [Kernel.captureOne, htext]
    rfl
  · rw [read, bracketed?, strict?_spelling h hroom (by decide)]
    rfl
  · intro items hitems
    cases json?_spelling h hroom with
    | inl hjson =>
      rw [hjson] at hitems
      cases hitems
      rfl
    | inr hjson =>
      rw [hjson] at hitems
      cases hitems

end

theorem read_captureOne_nested :
    (∀ v ∈ [Value.none, .int (-5), .str "it's\n".toList, .list [.tuple [.bool true]]], Plain 100 v) ∧
      ∃ t, Kernel.captureOne "Quantity".toList "parts".toList (.value (.list
          [.none, .int (-5), .str "it's\n".toList, .list [.tuple [.bool true]]])) =
        some ⟨"parts".toList, t, "list".toList⟩ ∧
      read t .list = .ok [.none, .int (-5), .str "it's\n".toList, .list [.tuple [.bool true]]] := by
  have hplain : ∀ v ∈ [Value.none, .int (-5), .str "it's\n".toList, .list [.tuple [.bool true]]],
      Plain 100 v := by
    have hfive : 5 < Decimal.pow 10 Value.maxDigits := by
      have hpow : Decimal.pow 10 Value.maxDigits = Decimal.pow 10 4299 * 10 := Decimal.pow_succ 10 4299
      have hpos := Decimal.pow_pos (by decide : 0 < 10) 4299
      omega
    have hinner : ∀ v ∈ [Value.tuple [.bool true]], Plain 99 v := by
      intro v hv
      rw [List.mem_singleton.1 hv]
      apply Plain.tuple
      intro w hw
      rw [List.mem_singleton.1 hw]
      exact .bool 98 true
    intro v hv
    simp only [List.mem_cons, List.not_mem_nil, or_false] at hv
    rcases hv with rfl | rfl | rfl | rfl
    · exact .none 100
    · exact .int 100 hfive
    · exact .str 100 _
    · exact .list hinner
  obtain ⟨t, hcapture, hread, -⟩ := read_captureOne "Quantity".toList "parts".toList hplain
    .list
  exact ⟨hplain, t, hcapture, hread⟩

end VariableReport.Listing
