import VariableReport.Literal
import VariableReport.Proofs.Literal.Spelling
import VariableReport.Proofs.Text.Lines

/-!
# Forms of plain values

The tokens of a plain value are parsed to one form, which ends where a comma, a closing
bracket or the end of the line follows (`parses_tokensOf`), and this form denotes the value
(`value_formOf`). No rule finds anything of its own behind the form, so each hands over what the
rule inside it answers. From an expression to an expression in a bracket there are six rules.
-/

namespace VariableReport.Literal
open Value

variable {α β : Type} {d n : Nat} {v : Value} {vs : List Value} {f : Form} {k : Token}
  {ks ts us rest : List Token}

mutual

def formOf : Value → Form
  | .int (.negSucc n) => .minus (.constant (.int (n + 1)))
  | .list vs => .list (formsOf vs)
  | .tuple vs => .tuple (formsOf vs)
  | v => .constant v

def formsOf : List Value → List Form
  | [] => []
  | v :: vs => formOf v :: formsOf vs

end

theorem values_formsOf (h : ∀ v ∈ vs, (formOf v).value = .ok v) :
    Form.values (formsOf vs) = .ok vs := by
  induction vs with
  | nil => rfl
  | cons v vs ih =>
    have hvs := ih fun w hw => h w (List.mem_cons_of_mem v hw)
    rw [formsOf, Form.values, h v List.mem_cons_self, hvs]
    rfl

theorem value_formOf (h : Plain d v) : (formOf v).value = .ok v := by
  induction h with
  | none d => rfl
  | bool d b => rfl
  | @int d n hn => cases n <;> rfl
  | str d t => rfl
  | list _ ih =>
    rw [formOf, Form.value, values_formsOf ih]
    rfl
  | tuple _ ih =>
    rw [formOf, Form.value, values_formsOf ih]
    rfl

/-! ### Where an expression starts and ends -/

/-- What a plain value without a sign starts with. -/
inductive Opens : Token → Prop
  | value (v : Value) : Opens (.value v)
  | bracket : Opens (.mark '[')
  | paren : Opens (.mark '(')

def Begins (k : Token) : Prop := Opens k ∨ k = .mark '-'

/-- Tokens that go on with the end of a line, a comma or a closing bracket. -/
inductive Closed : List Token → Prop
  | lineEnd (ks : List Token) : Closed (.lineEnd :: ks)
  | comma (ks : List Token) : Closed (.mark ',' :: ks)
  | bracket (ks : List Token) : Closed (.mark ']' :: ks)
  | paren (ks : List Token) : Closed (.mark ')' :: ks)

theorem closed_tailTokens (vs : List Value) (hrest : Closed rest) :
    Closed (tailTokens vs ++ rest) := by
  cases vs with
  | nil => exact hrest
  | cons v vs => exact .comma _

/-- Tokens that start with such a one. -/
def Starts (ks : List Token) : Prop := ∃ k us, ks = k :: us ∧ Begins k

theorem exists_tokensOf (v : Value) : ∃ k ks, tokensOf v = k :: ks ∧ Begins k := by
  cases v with
  | int n =>
    cases n with
    | ofNat n => exact ⟨_, _, rfl, .inl (.value _)⟩
    | negSucc n => exact ⟨_, _, rfl, .inr rfl⟩
  | list vs => cases vs <;> exact ⟨_, _, rfl, .inl .bracket⟩
  | tuple vs =>
    match vs with
    | [] => exact ⟨_, _, rfl, .inl .paren⟩
    | [v] => exact ⟨_, _, rfl, .inl .paren⟩
    | v :: w :: vs => exact ⟨_, _, rfl, .inl .paren⟩
  | _ => exact ⟨_, _, rfl, .inl (.value _)⟩

theorem starts_tokensOf (v : Value) (rest : List Token) : Starts (tokensOf v ++ rest) := by
  obtain ⟨k, ks, hks, hk⟩ := exists_tokensOf v
  exact ⟨k, ks ++ rest, by rw [hks, List.cons_append], hk⟩

/-! ### Rules that hand over -/

theorem bind_of_eq {p : Parser α} {next : α → Parser β} {a : α} (h : p ts = some (a, us)) :
    (p >>= next) ts = next a us := by
  change (p ts).bind _ = _
  rw [h]
  rfl

theorem iterate_of_none {next : α → Parser (Option α)} {a : α} (h : next a ts = some (.none, ts)) :
    iterate next a ts = some (a, ts) := by
  cases ts with
  | nil => rfl
  | cons k ts => exact bind_of_eq h

section
variable {rule : Rule → Parser Form}

theorem Closed.trailersOf (h : Closed rest) (f : Form) :
    trailersOf rule f rest = some (f, rest) := by cases h <;> rfl

theorem Closed.termsOf (h : Closed rest) (f : Form) : termsOf rule f rest = some (f, rest) := by
  cases h <;> rfl

theorem Closed.clausesIf (h : Closed rest) (allowed : Bool) :
    clausesIf rule allowed rest = some (false, rest) := by
  cases allowed with
  | false => rfl
  | true => cases h <;> rfl

theorem factor_of_primary (hk : Opens k) (h : rule .primary (k :: ks) = some (f, rest))
    (hrest : Closed rest) : factor rule (k :: ks) = some (f, rest) := by
  have hpower : factor rule (k :: ks) = power rule (k :: ks) := by cases hk <;> rfl
  have hwaits : skip (word "await") (k :: ks) = some (false, k :: ks) := by cases hk <;> rfl
  rw [hpower, power, bind_of_eq hwaits, bind_of_eq h]
  cases hrest <;> rfl

theorem Begins.skip_word (hk : Begins k) (t : String) :
    skip (word t) (k :: ks) = some (false, k :: ks) := by
  rcases hk with hk | rfl
  · cases hk <;> rfl
  · rfl

theorem inversion_of_arithmetic (hk : Begins k) (h : rule .arithmetic (k :: ks) = some (f, rest))
    (hrest : Closed rest) : inversion rule (k :: ks) = some (f, rest) := by
  rw [inversion, bind_of_eq (hk.skip_word "not"), if_neg Bool.false_ne_true, bind_of_eq h]
  apply iterate_of_none
  cases hrest <;> rfl

theorem disjunction_of_inversion (h : rule .inversion ks = some (f, rest)) (hrest : Closed rest) :
    disjunction rule ks = some (f, rest) := by
  rw [disjunction, bind_of_eq h]
  apply iterate_of_none
  cases hrest <;> rfl

theorem expression_of_disjunction (hk : Begins k) (h : rule .disjunction (k :: ks) = some (f, rest))
    (hrest : Closed rest) : expression rule (k :: ks) = some (f, rest) := by
  rw [expression, bind_of_eq (hk.skip_word "lambda"), if_neg Bool.false_ne_true, bind_of_eq h]
  cases hrest <;> rfl

theorem item_of_expression (hks : Starts ks) (h : rule .expression ks = some (f, rest)) :
    item rule ks = some (f, rest) := by
  obtain ⟨k, ks, rfl, hk⟩ := hks
  have hitem : item rule (k :: ks) = rule .expression (k :: ks) := by
    rcases hk with hk | rfl
    · cases hk <;> rfl
    · rfl
  rw [hitem, h]

/-! ### Members of brackets -/

theorem Starts.skip_close (hks : Starts ks) {c : Char} (hc : c = ']' ∨ c = ')') :
    skip (.mark c) ks = some (false, ks) := by
  obtain ⟨k, ks, rfl, hk⟩ := hks
  rcases hc with rfl | rfl
  all_goals
    rcases hk with hk | rfl
    · cases hk <;> rfl
    · rfl

theorem length_le_tailTokens (vs : List Value) : vs.length ≤ (tailTokens vs).length := by
  induction vs with
  | nil => exact Nat.le_refl _
  | cons v vs ih =>
    rw [tailTokens, List.length_cons, List.length_cons, List.length_append]
    omega

theorem membersFrom_close {member : Parser α} {close : Token → Bool} (hk : close k = true)
    (counter : Token) (more : List Token) :
    membersFrom member close (counter :: more) (k :: rest) = some (([], false), rest) := by
  have hskip : skipIf close (k :: rest) = some (true, rest) := by
    rw [skipIf, hk]
    rfl
  rw [membersFrom, bind_of_eq hskip]
  rfl

theorem membersFrom_comma {member : Parser α} {close : Token → Bool} {a : α} {as : List α}
    {b : Bool} {more : List Token} (hcomma : close (.mark ',') = false)
    (hks : skipIf close ks = some (false, ks)) (ha : member ks = some (a, us))
    (has : membersFrom member close more us = some ((as, b), rest)) (counter : Token) :
    membersFrom member close (counter :: more) (.mark ',' :: ks) =
      some ((a :: as, true), rest) := by
  have hskip : skipIf close (.mark ',' :: ks) = some (false, .mark ',' :: ks) := by
    rw [skipIf, hcomma]
    rfl
  have hdemand : demand (.mark ',') (.mark ',' :: ks) = some ((), ks) := rfl
  rw [membersFrom, bind_of_eq hskip, if_neg Bool.false_ne_true, bind_of_eq hdemand,
    bind_of_eq hks, if_neg Bool.false_ne_true, bind_of_eq ha, bind_of_eq has]
  rfl

theorem listForm_of_starts {fs : List Form} {b : Bool} (hks : Starts ks)
    (hf : rule .expression ks = some (f, us))
    (hfs : restOf rule ']' f us = some (some (fs, b), rest)) :
    listForm rule ks = some (.list (f :: fs), rest) := by
  rw [listForm, bind_of_eq (hks.skip_close (.inl rfl)), if_neg Bool.false_ne_true,
    bind_of_eq (item_of_expression hks hf), bind_of_eq hfs]
  rfl

/-- A bracket with one item and no comma is no tuple. -/
theorem tupleForm_of_starts {fs : List Form} (hks : Starts ks)
    (hf : rule .expression ks = some (f, us))
    (hfs : restOf rule ')' f us = some (some (fs, true), rest)) :
    tupleForm rule ks = some (.tuple (f :: fs), rest) := by
  have hyield : skip (word "yield") ks = some (false, ks) := by
    obtain ⟨k, ks, rfl, hk⟩ := hks
    exact hk.skip_word "yield"
  rw [tupleForm, bind_of_eq (hks.skip_close (.inr rfl)), if_neg Bool.false_ne_true,
    bind_of_eq hyield, if_neg Bool.false_ne_true, bind_of_eq (item_of_expression hks hf),
    bind_of_eq hfs]
  cases fs <;> rfl

end

/-! ### Plain values -/

/-- The rules that may be open in a plain value: those of each bracket, and one more for a sign. -/
def rulesOf (d : Nat) : Nat := 6 * d + 7

theorem rulesOf_le_of_succ (h : rulesOf (d + 1) ≤ n + 6) : rulesOf d ≤ n := by
  unfold rulesOf at *
  omega

section
variable [Host]

theorem expression_of_factor (hk : Begins k) (h : parse n .factor (k :: ks) = some (f, rest))
    (hrest : Closed rest) : parse (n + 4) .expression (k :: ks) = some (f, rest) := by
  have harithmetic : parse (n + 1) .arithmetic (k :: ks) = some (f, rest) :=
    (bind_of_eq h).trans (hrest.termsOf f)
  have hinversion : parse (n + 2) .inversion (k :: ks) = some (f, rest) :=
    inversion_of_arithmetic hk harithmetic hrest
  have hdisjunction : parse (n + 3) .disjunction (k :: ks) = some (f, rest) :=
    disjunction_of_inversion hinversion hrest
  exact expression_of_disjunction hk hdisjunction hrest

theorem factor_of_atom (hk : Opens k) (h : atom (parse n) (k :: ks) = some (f, rest))
    (hrest : Closed rest) : parse (n + 2) .factor (k :: ks) = some (f, rest) := by
  have hprimary : parse (n + 1) .primary (k :: ks) = some (f, rest) :=
    (bind_of_eq h).trans (hrest.trailersOf f)
  exact factor_of_primary hk hprimary hrest

theorem expression_of_atom (hk : Opens k) (h : atom (parse n) (k :: ks) = some (f, rest))
    (hrest : Closed rest) : parse (n + 6) .expression (k :: ks) = some (f, rest) :=
  expression_of_factor (.inl hk) (factor_of_atom hk h hrest) hrest

/-- The tokens are an expression of this form where so many rules may be open. -/
def Parses (m : Nat) (ks : List Token) (f : Form) : Prop :=
  ∀ {n : Nat} {rest : List Token}, m ≤ n → Closed rest →
    parse n .expression (ks ++ rest) = some (f, rest)

theorem parses_of_atom (hk : Opens k) (hatom : ∀ {n : Nat} {rest : List Token}, rulesOf d ≤ n + 6 →
      Closed rest → atom (parse n) (k :: (ks ++ rest)) = some (f, rest)) :
    Parses (rulesOf d) (k :: ks) f := by
  intro n rest hn hrest
  obtain ⟨n, rfl⟩ := Nat.exists_eq_add_of_le' (Nat.le_trans (by simp [rulesOf] : 6 ≤ rulesOf d) hn)
  exact expression_of_atom hk (hatom hn hrest) hrest

/-- No text follows a value, so nothing is joined to it. -/
theorem atom_value {rule : Rule → Parser Form} (v : Value) (hrest : Closed rest) :
    atom rule (.value v :: rest) = some (.constant v, rest) := by
  refine iterate_of_none ?_
  cases hrest <;> rfl

theorem parses_value (d : Nat) (v : Value) : Parses (rulesOf d) [.value v] (.constant v) :=
  parses_of_atom (.value v) fun _ hrest => atom_value v hrest

theorem parses_minus (d : Nat) (v : Value) :
    Parses (rulesOf d) [.mark '-', .value v] (.minus (.constant v)) := by
  intro n rest hn hrest
  obtain ⟨n, rfl⟩ := Nat.exists_eq_add_of_le' (Nat.le_trans (by simp [rulesOf] : 7 ≤ rulesOf d) hn)
  have hfactor : parse (n + 2) .factor (.value v :: rest) = some (.constant v, rest) :=
    factor_of_atom (.value v) (atom_value v hrest) hrest
  have hminus : parse (n + 3) .factor (.mark '-' :: .value v :: rest) =
      some (.minus (.constant v), rest) := by
    change ((parse (n + 2) .factor (.value v :: rest)).bind _) = _
    rw [hfactor]
    rfl
  exact expression_of_factor (.inr rfl) hminus hrest

section
variable {c : Char}

/-- The items of a bracket behind the first one. -/
theorem membersFrom_tailTokens (hc : c = ']' ∨ c = ')')
    (h : ∀ v ∈ vs, Parses (rulesOf d) (tokensOf v) (formOf v)) (hn : rulesOf d ≤ n)
    (rest : List Token) {counter : List Token} (hcounter : vs.length < counter.length) :
    membersFrom (item (parse n)) (Token.isSign (.mark c)) counter
      (tailTokens vs ++ .mark c :: rest) = some ((formsOf vs, !vs.isEmpty), rest) := by
  have hclosed : Closed (.mark c :: rest) := by
    rcases hc with rfl | rfl
    · exact .bracket rest
    · exact .paren rest
  have hcomma : Token.isSign (.mark c) (.mark ',') = false := by
    rcases hc with rfl | rfl <;> rfl
  induction vs generalizing counter with
  | nil =>
    obtain ⟨k, more, rfl⟩ := List.exists_cons_of_length_pos hcounter
    exact membersFrom_close (decide_eq_true rfl) k more
  | cons v vs ih =>
    cases counter with
    | nil => cases hcounter
    | cons counter more =>
      have hitem := h v List.mem_cons_self hn (closed_tailTokens vs hclosed)
      have htail := ih (fun w hw => h w (List.mem_cons_of_mem v hw))
        (Nat.lt_of_succ_lt_succ hcounter)
      have hstarts := starts_tokensOf v (tailTokens vs ++ .mark c :: rest)
      rw [tailTokens, List.cons_append, List.append_assoc]
      have hitem := item_of_expression hstarts hitem
      exact membersFrom_comma hcomma (hstarts.skip_close hc) hitem htail counter

theorem restOf_tailTokens (hc : c = ']' ∨ c = ')')
    (h : ∀ v ∈ vs, Parses (rulesOf d) (tokensOf v) (formOf v)) (hn : rulesOf d ≤ n) (f : Form)
    (rest : List Token) :
    restOf (parse n) c f (tailTokens vs ++ .mark c :: rest) =
      some (some (formsOf vs, !vs.isEmpty), rest) := by
  have hclosed : Closed (tailTokens vs ++ .mark c :: rest) := by
    apply closed_tailTokens
    rcases hc with rfl | rfl
    · exact .bracket rest
    · exact .paren rest
  have hcounter : vs.length < (tailTokens vs ++ .mark c :: rest).length := by
    have := length_le_tailTokens vs
    rw [List.length_append, List.length_cons]
    omega
  have hmembers := membersFrom_tailTokens hc h hn rest hcounter
  rw [restOf, bind_of_eq (hclosed.clausesIf _), if_neg Bool.false_ne_true]
  exact bind_of_eq hmembers

theorem parses_list (h : ∀ v ∈ vs, Parses (rulesOf d) (tokensOf v) (formOf v)) :
    Parses (rulesOf (d + 1)) (tokensOf (.list vs)) (formOf (.list vs)) := by
  cases vs with
  | nil => exact parses_of_atom .bracket fun _ _ => rfl
  | cons v vs =>
    rw [tokensOf, formOf, formsOf]
    apply parses_of_atom .bracket
    intro n rest hn hrest
    have hn := rulesOf_le_of_succ hn
    have hitem := h v List.mem_cons_self hn (closed_tailTokens vs (.bracket rest))
    have htail := restOf_tailTokens (.inl rfl) (fun w hw => h w (List.mem_cons_of_mem v hw)) hn
      (formOf v) rest
    rw [List.append_assoc, List.append_assoc]
    exact listForm_of_starts (starts_tokensOf v _) hitem htail

theorem parses_tuple (h : ∀ v ∈ vs, Parses (rulesOf d) (tokensOf v) (formOf v)) :
    Parses (rulesOf (d + 1)) (tokensOf (.tuple vs)) (formOf (.tuple vs)) := by
  match vs, h with
  | [], _ =>
    rw [tokensOf]
    apply parses_of_atom .paren
    intro n rest _ _
    rfl
  | [v], h =>
    rw [tokensOf, formOf, formsOf]
    apply parses_of_atom .paren
    intro n rest hn hrest
    have hn := rulesOf_le_of_succ hn
    have hitem := h v List.mem_cons_self hn (.comma (.mark ')' :: rest))
    have hcomma : restOf (parse n) ')' (formOf v) (.mark ',' :: .mark ')' :: rest) =
        some (some ([], true), rest) := by
      rw [restOf, bind_of_eq ((Closed.comma _).clausesIf _)]
      rfl
    rw [List.append_assoc]
    exact tupleForm_of_starts (starts_tokensOf v _) hitem hcomma
  | v :: w :: vs, h =>
    rw [tokensOf, formOf, formsOf]
    apply parses_of_atom .paren
    intro n rest hn hrest
    have hn := rulesOf_le_of_succ hn
    have hitem := h v List.mem_cons_self hn (closed_tailTokens (w :: vs) (.paren rest))
    have htail := restOf_tailTokens (.inr rfl) (fun x hx => h x (List.mem_cons_of_mem v hx)) hn
      (formOf v) rest
    rw [List.append_assoc, List.append_assoc]
    exact tupleForm_of_starts (starts_tokensOf v _) hitem htail

end

theorem parses_tokensOf (h : Plain d v) : Parses (rulesOf d) (tokensOf v) (formOf v) := by
  induction h with
  | none d => exact parses_value d _
  | bool d b => exact parses_value d _
  | @int d n _ =>
    cases n with
    | ofNat n => exact parses_value d _
    | negSucc n => exact parses_minus d _
  | str d t => exact parses_value d _
  | list _ ih => exact parses_list ih
  | tuple _ ih => exact parses_tuple ih

/-- The tokens of a plain value alone are a literal of its form. -/
theorem form?_tokensOf (h : Plain d v) (hn : rulesOf d ≤ n) :
    form? n (tokensOf v ++ [.lineEnd]) = some (formOf v) := by
  have hline : line (parse n) (tokensOf v ++ [.lineEnd]) = some (formOf v, []) := by
    rw [line, bind_of_eq (parses_tokensOf h hn (.lineEnd []))]
    rfl
  rw [form?, StateT.run, hline]

/-- A plain value whose brackets are not too many is read back from its literal. -/
theorem read_spelling (h : Plain d v) (hd : rulesOf d ≤ 700) (site : Site) :
    read (spelling v) site = .ok v := by
  have hreturn : '\r' ∉ spelling v := by
    intro hm
    exact absurd (h.le_toNat _ hm) (by decide)
  have hnul : (spelling v).contains '\x00' = false := by
    apply Bool.eq_false_iff.2
    intro hm
    exact absurd (h.le_toNat _ (List.contains_iff_mem.1 hm)) (by decide)
  have hdepth : 0 + d ≤ maxDepth := by
    unfold rulesOf at hd
    unfold maxDepth
    omega
  have hlexes := lexes_spelling h (p := ⟨0, some 0⟩) rfl hdepth .nil (lexes_nil 0)
  rw [List.append_nil] at hlexes
  have htokens : tokens? (spelling v) = some (tokensOf v ++ [.lineEnd]) := by
    rw [tokens?, hnul]
    exact hlexes _ (Nat.lt_succ_self _)
  have hrules : rulesOf d ≤ Host.grammarDepth site (spelling v) :=
    Nat.le_trans hd (Host.grammarDepth_ge site _)
  rw [read, Text.unifyLineEnds_eq_self hreturn, htokens, Option.bind_some, form?_tokensOf h hrules]
  exact value_formOf h

end

end VariableReport.Literal
