import VariableReport.Proofs.Json.Atom

/-!
# What reading JSON takes from a text

A relation stands beside the reader: a value, the items of an array or the members of an object are
read from the start of a text and leave a rest (`Reads`). Everything that is read successfully is
related (`reads_readValue`), so that a property of what is taken from the text needs one case for
each thing that can be read, and no bound of the reader's recursion.
-/

namespace VariableReport.Json

variable {t u v w rest : Text} {s name : Text} {n depth : Nat} {j : Json} {js : List Json}
  {ms : List (Text × Json)}

/-! ### Texts -/

/-- From behind its opening quote a text goes on to the first quote that no backslash protects. -/
inductive Closes : Text → Text → Prop
  | quote (rest : Text) : Closes ('\x22' :: rest) rest
  | escape {t rest : Text} (c : Char) : Closes t rest → Closes ('\\' :: c :: t) rest
  | char {c : Char} {t rest : Text} : c ≠ '\x22' → c ≠ '\\' → Closes t rest → Closes (c :: t) rest

theorem plain_of_digitValue? {c : Char} {n : Nat} (h : Decimal.digitValue? c = some n) :
    c ≠ '\x22' ∧ c ≠ '\\' := by
  constructor
  · rintro rfl
    cases h
  · rintro rfl
    cases h

/-- The digits of an escape are no quotes, so the text closes behind them. -/
theorem Closes.fourDigits {x y z d : Char} {n : Nat} (h : fourDigits? x y z d = some n)
    (ht : Closes t rest) : Closes ('\\' :: 'u' :: x :: y :: z :: d :: t) rest := by
  simp only [fourDigits?, Option.bind_eq_bind, Option.bind_eq_some_iff] at h
  obtain ⟨i, hx, k, hy, l, hz, o, hd, -⟩ := h
  have hchar {c : Char} {k : Nat} {u : Text} (hc : Decimal.digitValue? c = some k)
      (hu : Closes u rest) : Closes (c :: u) rest :=
    .char (plain_of_digitValue? hc).1 (plain_of_digitValue? hc).2 hu
  exact .escape 'u' (hchar hx (hchar hy (hchar hz (hchar hd ht))))

theorem Reading.cons_eq_ok {k : Nat} {units : List Nat} {r : Reading (List Nat)}
    (h : r.cons k = .ok (units, rest)) : ∃ more, r = .ok (more, rest) := by
  cases r with
  | error e => cases h
  | ok p =>
    cases h
    exact ⟨_, rfl⟩

theorem closes_of_readUnits {opening : Nat} {units : List Nat}
    (h : readUnits opening t = .ok (units, rest)) : Closes t rest := by
  fun_induction readUnits opening t generalizing units with
  | case1 => cases h
  | case2 => cases h
  | case3 => cases h
  | case4 x y z d t k hdigits _ ih =>
    obtain ⟨more, hmore⟩ := Reading.cons_eq_ok h
    exact .fourDigits hdigits (ih hmore)
  | case5 => cases h
  | case6 => cases h
  | case7 c t _ _ d _ ih =>
    obtain ⟨more, hmore⟩ := Reading.cons_eq_ok h
    exact .escape c (ih hmore)
  | case8 =>
    cases h
    exact .quote rest
  | case9 => cases h
  | case10 => cases h
  | case11 c t _ _ _ hq hb _ ih =>
    obtain ⟨more, hmore⟩ := Reading.cons_eq_ok h
    exact .char hq hb (ih hmore)

theorem closes_of_readChars {opening : Nat} (h : readChars opening t = .ok (s, rest)) :
    Closes t rest := by
  unfold readChars at h
  split at h
  next units rest hunits =>
    cases h
    exact closes_of_readUnits hunits
  next => cases h

/-! ### Values -/

/-- What is read in one go. -/
inductive Part
  | value (j : Json)
  | items (js : List Json)
  | members (ms : List (Text × Json))

/-- A part that stands at the start of a text, and the rest behind it. -/
inductive Reads : Text → Part → Text → Prop
  | text {opening : Nat} {t s rest : Text} : readChars opening t = .ok (s, rest) →
      Reads ('\x22' :: t) (.value (.str s)) rest
  | atom {t rest : Text} {j : Json} : readAtom t = .ok (j, rest) → Reads t (.value j) rest
  | noItems {t rest : Text} : skipSpace t = ']' :: rest → Reads ('[' :: t) (.value (.array [])) rest
  | array {t rest : Text} {js : List Json} : Reads (skipSpace t) (.items js) rest →
      Reads ('[' :: t) (.value (.array js)) rest
  | noMembers {t rest : Text} : skipSpace t = '\x7d' :: rest →
      Reads ('\x7b' :: t) (.value (.object [])) rest
  | object {t rest : Text} {ms : List (Text × Json)} : Reads (skipSpace t) (.members ms) rest →
      Reads ('\x7b' :: t) (.value (.object (merge ms))) rest
  | lastItem {t u rest : Text} {j : Json} : Reads t (.value j) u → skipSpace u = ']' :: rest →
      Reads t (.items [j]) rest
  | item {t u v rest : Text} {j : Json} {js : List Json} : Reads t (.value j) u →
      skipSpace u = ',' :: v → Reads (skipSpace v) (.items js) rest → Reads t (.items (j :: js)) rest
  | lastMember {opening : Nat} {t u v w rest name : Text} {j : Json} :
      readChars opening t = .ok (name, u) → skipSpace u = ':' :: v →
      Reads (skipSpace v) (.value j) w → skipSpace w = '\x7d' :: rest →
      Reads ('\x22' :: t) (.members [(name, j)]) rest
  | member {opening : Nat} {t u v w x rest name : Text} {j : Json} {ms : List (Text × Json)} :
      readChars opening t = .ok (name, u) → skipSpace u = ':' :: v →
      Reads (skipSpace v) (.value j) w → skipSpace w = ',' :: x →
      Reads (skipSpace x) (.members ms) rest →
      Reads ('\x22' :: t) (.members ((name, j) :: ms)) rest

theorem reads_of_readItems {n depth : Nat}
    (hvalue : ∀ {t j rest}, readValue n depth t = .ok (j, rest) → Reads t (.value j) rest)
    (hitems : ∀ {t js rest}, readItems n depth t = .ok (js, rest) → Reads t (.items js) rest)
    (h : readItems (n + 1) depth t = .ok (js, rest)) : Reads t (.items js) rest := by
  rw [readItems] at h
  split at h
  next => cases h
  next j u hj =>
    split at h
    next v hu =>
      cases h
      exact .lastItem (hvalue hj) hu
    next v hu =>
      split at h
      next js rest hjs =>
        cases h
        exact .item (hvalue hj) hu (hitems hjs)
      next => cases h
    next => cases h

theorem reads_of_readMembers {n depth : Nat}
    (hvalue : ∀ {t j rest}, readValue n depth t = .ok (j, rest) → Reads t (.value j) rest)
    (hmembers : ∀ {t ms rest}, readMembers n depth t = .ok (ms, rest) → Reads t (.members ms) rest)
    (h : readMembers (n + 1) depth t = .ok (ms, rest)) : Reads t (.members ms) rest := by
  rw [readMembers.eq_def] at h
  dsimp only at h
  split at h
  next t =>
    split at h
    next => cases h
    next name u hname =>
      split at h
      next v hu =>
        split at h
        next => cases h
        next j w hj =>
          split at h
          next hw =>
            cases h
            exact .lastMember hname hu (hvalue hj) hw
          next x hw =>
            split at h
            next ms rest hms =>
              cases h
              exact .member hname hu (hvalue hj) hw (hmembers hms)
            next => cases h
          next => cases h
      next => cases h
  next => cases h

theorem reads_of_readValue {n depth : Nat}
    (hitems : ∀ {depth t js rest}, readItems n depth t = .ok (js, rest) → Reads t (.items js) rest)
    (hmembers : ∀ {depth t ms rest}, readMembers n depth t = .ok (ms, rest) →
      Reads t (.members ms) rest)
    (h : readValue (n + 1) depth t = .ok (j, rest)) : Reads t (.value j) rest := by
  rw [readValue.eq_def] at h
  dsimp only at h
  split at h
  next t =>
    split at h
    next s rest hs =>
      cases h
      exact .text hs
    next => cases h
  next t =>
    split at h
    next => cases h
    next =>
      split at h
      next rest ht =>
        cases h
        exact .noItems ht
      next =>
        split at h
        next js rest hjs =>
          cases h
          exact .array (hitems hjs)
        next => cases h
  next t =>
    split at h
    next => cases h
    next =>
      split at h
      next rest ht =>
        cases h
        exact .noMembers ht
      next =>
        split at h
        next ms rest hms =>
          cases h
          exact .object (hmembers hms)
        next => cases h
  next => exact .atom h

/-- The reader takes what the relation says. -/
theorem reads_read (n : Nat) :
    (∀ {depth t j rest}, readValue n depth t = .ok (j, rest) → Reads t (.value j) rest) ∧
    (∀ {depth t js rest}, readItems n depth t = .ok (js, rest) → Reads t (.items js) rest) ∧
    (∀ {depth t ms rest}, readMembers n depth t = .ok (ms, rest) →
      Reads t (.members ms) rest) := by
  induction n with
  | zero =>
    refine ⟨fun h => ?_, fun h => ?_, fun h => ?_⟩
    · rw [readValue] at h
      cases h
    · rw [readItems] at h
      cases h
    · rw [readMembers] at h
      cases h
  | succ n ih =>
    obtain ⟨hvalue, hitems, hmembers⟩ := ih
    exact ⟨reads_of_readValue hitems hmembers, reads_of_readItems hvalue hitems,
      reads_of_readMembers hvalue hmembers⟩

end VariableReport.Json
