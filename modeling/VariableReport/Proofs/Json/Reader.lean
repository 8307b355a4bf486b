import VariableReport.Json.Reader

/-!
# Steps of reading JSON

What the reader does at one character, stated with what it leaves of the text: it passes over
white space, an opening bracket hands over to the items or members behind it, and behind an item
or member either a comma or the closing bracket goes on.
-/

namespace VariableReport.Json

variable {c : Char} {b t u rest : Text} {n depth : Nat} {name : Text} {j : Json} {js : List Json}
  {ms : List (Text × Json)}

theorem skipSpace_cons (hc : isSpace c = false) (t : Text) : skipSpace (c :: t) = c :: t := by
  rw [skipSpace, List.dropWhile_cons, hc]
  rfl

theorem skipSpace_append (hb : ∀ x ∈ b, isSpace x = true) (t : Text) :
    skipSpace (b ++ t) = skipSpace t := List.dropWhile_append_of_pos hb

theorem skipSpace_blank (t : Text) : skipSpace (' ' :: t) = skipSpace t := rfl

theorem readValue_quote (t : Text) :
    readValue (n + 1) depth ('\x22' :: t) =
      match readChars (t.length + 1) t with
      | .ok (s, rest) => .ok (.str s, rest)
      | .error e => .error e := by
  rw [readValue]
  rfl

theorem readValue_bracket (ht : skipSpace t = c :: u) (hc : c ≠ ']') :
    readValue (n + 1) (depth + 1) ('[' :: t) =
      match readItems n depth (c :: u) with
      | .ok (items, rest) => .ok (.array items, rest)
      | .error e => .error e := by
  rw [readValue, ht]
  split
  next h => exact absurd (List.cons.inj h).1 hc
  next => rfl

theorem readValue_brace (ht : skipSpace t = c :: u) (hc : c ≠ '\x7d') :
    readValue (n + 1) (depth + 1) ('\x7b' :: t) =
      match readMembers n depth (c :: u) with
      | .ok (members, rest) => .ok (.object (merge members), rest)
      | .error e => .error e := by
  rw [readValue, ht]
  split
  next h => exact absurd (List.cons.inj h).1 hc
  next => rfl

theorem readItems_last (h : readValue n depth t = .ok (j, u)) (hu : skipSpace u = ']' :: rest) :
    readItems (n + 1) depth t = .ok ([j], rest) := by
  rw [readItems, h]
  simp [hu]

theorem readItems_comma (h : readValue n depth t = .ok (j, u)) (hu : skipSpace u = ',' :: b)
    (hitems : readItems n depth (skipSpace b) = .ok (js, rest)) :
    readItems (n + 1) depth t = .ok (j :: js, rest) := by
  rw [readItems, h]
  simp [hu, hitems]

theorem readMembers_last {v : Text} (hname : readChars (t.length + 1) t = .ok (name, u))
    (hu : skipSpace u = ':' :: v) (h : readValue n depth (skipSpace v) = .ok (j, b))
    (hb : skipSpace b = '\x7d' :: rest) :
    readMembers (n + 1) depth ('\x22' :: t) = .ok ([(name, j)], rest) := by
  rw [readMembers, List.length_cons, hname]
  simp [hu, h, hb]

theorem readMembers_comma {v w : Text} (hname : readChars (t.length + 1) t = .ok (name, u))
    (hu : skipSpace u = ':' :: v) (h : readValue n depth (skipSpace v) = .ok (j, b))
    (hb : skipSpace b = ',' :: w) (hmembers : readMembers n depth (skipSpace w) = .ok (ms, rest)) :
    readMembers (n + 1) depth ('\x22' :: t) = .ok ((name, j) :: ms, rest) := by
  rw [readMembers, List.length_cons, hname]
  simp [hu, h, hb, hmembers]

end VariableReport.Json
