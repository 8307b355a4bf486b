import VariableReport.Kernel
import VariableReport.Snapshot
import VariableReport.Proofs.Json.Texts
import VariableReport.Standard
import Mathlib.Data.Bool.AllAny

/-!
# Printed snapshots in a text

A printed snapshot is found again between its markers, wherever it stands, as long as none of its
texts holds the end marker (`ofText?_framed_eq_iff`). The start marker may stand in them. The
encoder leaves the characters of the markers as they are, so an end marker in a name, a value or a
type cuts the payload short. Nothing that is cut off the printed text is read as the snapshot: there
are two quotes for each text of the snapshot, and a piece between markers misses the quotes in
front of the end marker or those behind it (`quotes_lt_of_mem_payloads`).
-/

namespace VariableReport.Snapshot
open Json (quotes memberTexts Textual Woven Foreign)

variable {t u p a rest before after : Text} {members : Snapshot} {d : Nat}
  {entries : List Kernel.Entry} {site : Site}

/-! ### Markers -/

theorem foreign_endMarker : Foreign true endMarker where
  verbatim := List.all_iff_forall_prop.1 (by decide)
  start := ⟨'<', _, rfl, by decide⟩

theorem foreign_startMarker : Foreign true startMarker where
  verbatim := List.all_iff_forall_prop.1 (by decide)
  start := ⟨'<', _, rfl, by decide⟩

/-- The start marker does not reach across an end marker. -/
theorem not_infix_append_endMarker (ht : ¬startMarker <:+: t) (hafter : ¬startMarker <:+: after) :
    ¬startMarker <:+: t ++ (endMarker ++ after) := by
  intro h
  rcases Text.infix_of_infix_append (by decide) (by decide) (by decide) h with h | h | h
  · exact ht h
  · exact absurd h (by decide)
  · exact hafter h

theorem cutAt_startMarker (ht : ¬startMarker <:+: t) (rest : Text) :
    Text.cutAt startMarker (t ++ (startMarker ++ rest)) = some (t, rest) :=
  Text.cutAt_part (by decide) (by decide) ht rest

theorem cutAt_endMarker (ht : ¬endMarker <:+: t) (rest : Text) :
    Text.cutAt endMarker (t ++ (endMarker ++ rest)) = some (t, rest) :=
  Text.cutAt_part (by decide) (by decide) ht rest

theorem exists_cutAt {m : Text} (hm : m ≠ []) (h : m <:+: t) :
    ∃ a b, Text.cutAt m t = some (a, b) ∧ t = a ++ (m ++ b) := by
  cases hcut : Text.cutAt m t with
  | none => exact absurd h ((Text.cutAt_eq_none_iff hm).1 hcut)
  | some ab => exact ⟨ab.1, ab.2, rfl, by rw [Text.cutAt_eq_some hcut, List.append_assoc]⟩

/-! ### Payloads -/

theorem payloads_of_none (h : Text.cutAt startMarker t = none) : payloads t = [] := by
  rw [payloads]
  split
  next => rfl
  next hs => rw [hs] at h; cases h

theorem payloads_of_some (hstart : Text.cutAt startMarker t = some (a, u))
    (hend : Text.cutAt endMarker u = some (p, rest)) : payloads t = p :: payloads rest := by
  rw [payloads]
  split
  next hs => rw [hs] at hstart; cases hstart
  next hs =>
    rw [hs] at hstart
    cases hstart
    split
    next he => rw [he] at hend; cases hend
    next he =>
      rw [he] at hend
      cases hend
      rfl

theorem quotes_append_marker {m : Text} (hm : Foreign true m) (a b : Text) :
    quotes (a ++ (m ++ b)) = quotes a + quotes b :=
  Json.quotes_append hm.ne_nil hm.plain a b

/-- What stands between markers has no more quotes than the text up to the last end marker. -/
theorem quotes_le_of_mem_payloads (hafter : ¬startMarker <:+: after)
    (h : p ∈ payloads (t ++ (endMarker ++ after))) : quotes p ≤ quotes t := by
  induction hn : t.length using Nat.strongRecOn generalizing t with
  | ind n ih =>
    by_cases hstart : startMarker <:+: t
    · obtain ⟨a, u, hcut, rfl⟩ := exists_cutAt (by decide) hstart
      have hcut := Text.cutAt_append hcut (endMarker ++ after)
      rw [quotes_append_marker foreign_startMarker]
      by_cases hend : endMarker <:+: u
      · obtain ⟨q, v, hq, rfl⟩ := exists_cutAt (by decide) hend
        rw [payloads_of_some hcut (Text.cutAt_append hq (endMarker ++ after))] at h
        rw [quotes_append_marker foreign_endMarker]
        rcases List.mem_cons.1 h with rfl | h
        · omega
        · have hshorter : v.length < n := by
            have hpos : 0 < startMarker.length := by decide
            rw [← hn]
            simp only [List.length_append]
            omega
          have := ih _ hshorter h rfl
          omega
      · rw [payloads_of_some hcut (cutAt_endMarker hend after),
          payloads_of_none ((Text.cutAt_eq_none_iff (by decide)).2 hafter)] at h
        obtain rfl := List.mem_singleton.1 h
        omega
    · have hnone := not_infix_append_endMarker hstart hafter
      rw [payloads_of_none ((Text.cutAt_eq_none_iff (by decide)).2 hnone)] at h
      contradiction

/-! ### Printed snapshots -/

/-- The text of a snapshot between the markers. -/
def payload (members : Snapshot) : Text := Json.render .compact (.object members)

theorem append_framed_append (members : Snapshot) : before ++ framed members ++ after =
    before ++ (startMarker ++ (payload members ++ (endMarker ++ after))) := by
  simp [framed, payload]

theorem woven_payload (h : Textual d (.object members)) :
    Woven true (memberTexts members) (payload members) :=
  Json.woven_renderAt (s := .compact) h 0

theorem infix_payload_iff (h : Textual d (.object members)) :
    endMarker <:+: payload members ↔ ∃ t ∈ memberTexts members, endMarker <:+: t :=
  (woven_payload h).infix_iff foreign_endMarker

theorem payloads_framed (hbefore : ¬startMarker <:+: before) (hafter : ¬startMarker <:+: after)
    (hend : ¬endMarker <:+: payload members) :
    payloads (before ++ framed members ++ after) = [payload members] := by
  rw [append_framed_append,
    payloads_of_some (cutAt_startMarker hbefore _) (cutAt_endMarker hend after),
    payloads_of_none ((Text.cutAt_eq_none_iff (by decide)).2 hafter)]

/-- An end marker in a text leaves no payload with all quotes. -/
theorem quotes_lt_of_mem_payloads (h : Textual d (.object members))
    (hbefore : ¬startMarker <:+: before) (hafter : ¬startMarker <:+: after)
    (hend : endMarker <:+: payload members)
    (hp : p ∈ payloads (before ++ framed members ++ after)) :
    quotes p < 2 * (memberTexts members).length := by
  obtain ⟨q, u, hq, hsplit⟩ := exists_cutAt (by decide) hend
  obtain ⟨hfront, hbehind⟩ := (woven_payload h).quotes_pos foreign_endMarker hsplit
  have htotal := (woven_payload h).quotes_eq
  rw [hsplit, quotes_append_marker foreign_endMarker] at htotal
  rw [append_framed_append, payloads_of_some (cutAt_startMarker hbefore _)
    (Text.cutAt_append hq (endMarker ++ after))] at hp
  rcases List.mem_cons.1 hp with rfl | hp
  · omega
  · have := quotes_le_of_mem_payloads hafter hp
    omega

theorem quotes_of_ofPayload? [Host] (h : ofPayload? p site = .ok (some members)) :
    2 * (memberTexts members).length ≤ quotes p := by
  unfold ofPayload? at h
  split at h
  next hread =>
    cases h
    exact Json.length_texts_le hread
  next => cases h
  next => cases h
  next => cases h

/-- A printed snapshot is read back from a text around it exactly when none of its texts holds
the end marker. -/
theorem ofText?_framed_iff [Host] (h : Textual d (.object members)) (hd : d ≤ Host.jsonDepth site)
    (hbefore : ¬startMarker <:+: before) (hafter : ¬startMarker <:+: after) :
    ofText? (before ++ framed members ++ after) site = .ok (some members) ↔
      ∀ t ∈ memberTexts members, ¬endMarker <:+: t := by
  have hiff := infix_payload_iff h
  by_cases hend : endMarker <:+: payload members
  · obtain ⟨t, ht, hmarker⟩ := hiff.1 hend
    refine iff_of_false (fun hread => ?_) fun hnone => hnone t ht hmarker
    unfold ofText? at hread
    split at hread
    next p hp =>
      have hlt := quotes_lt_of_mem_payloads h hbefore hafter hend (List.mem_of_getLast? hp)
      have hle := quotes_of_ofPayload? hread
      omega
    next => cases hread
  · refine iff_of_true ?_ fun t ht hmarker => hend (hiff.2 ⟨t, ht, hmarker⟩)
    rw [ofText?, payloads_framed hbefore hafter hend]
    change ofPayload? (payload members) site = _
    rw [ofPayload?, payload, Json.read_render h hd]

/-! ### Captured snapshots -/

theorem textual_members (hnames : (entries.map Kernel.Entry.name).Nodup) :
    Textual 2 (.object (entries.map Kernel.Entry.member)) := by
  refine .object ?_ fun m hm => ?_
  · simpa [Function.comp_def, Kernel.Entry.member] using hnames
  · obtain ⟨e, -, rfl⟩ := List.mem_map.1 hm
    have hdistinct : ["value".toList, "type".toList].Nodup := by decide
    refine .object hdistinct fun m hm => ?_
    simp only [List.mem_cons, List.not_mem_nil, or_false] at hm
    rcases hm with rfl | rfl
    · exact .str 0 _
    · exact .str 0 _

theorem mem_memberTexts : t ∈ memberTexts (entries.map Kernel.Entry.member) ↔
    ∃ e ∈ entries, t = e.name ∨ t = "value".toList ∨ t = e.value ∨ t = "type".toList ∨
      t = e.type := by
  induction entries with
  | nil => simp [memberTexts]
  | cons e entries ih =>
    rw [List.map_cons, Kernel.Entry.member, memberTexts, List.mem_cons, List.mem_append, ih,
      List.exists_mem_cons_iff, ← or_assoc]
    refine or_congr_left ?_
    simp [Json.texts, memberTexts]

/-- A snapshot of captured variables is recovered from the text in which it was printed exactly
when the end marker stands in no name, no value and no type. -/
theorem ofText?_framed_eq_iff [Host] (hnames : (entries.map Kernel.Entry.name).Nodup)
    (hbefore : ¬startMarker <:+: before) (hafter : ¬startMarker <:+: after) :
    ofText? (before ++ framed (entries.map Kernel.Entry.member) ++ after) site =
        .ok (some (entries.map Kernel.Entry.member)) ↔
      ∀ e ∈ entries, ¬endMarker <:+: e.name ∧ ¬endMarker <:+: e.value ∧
        ¬endMarker <:+: e.type := by
  have hroom : 2 ≤ Host.jsonDepth site := Nat.le_trans (by decide) (Host.jsonDepth_ge site)
  rw [ofText?_framed_iff (textual_members hnames) hroom hbefore hafter]
  have hvalue : ¬endMarker <:+: "value".toList := by decide
  have htype : ¬endMarker <:+: "type".toList := by decide
  constructor
  · intro h e he
    exact ⟨h _ (mem_memberTexts.2 ⟨e, he, by simp⟩), h _ (mem_memberTexts.2 ⟨e, he, by simp⟩),
      h _ (mem_memberTexts.2 ⟨e, he, by simp⟩)⟩
  · intro h t ht
    obtain ⟨e, he, ht⟩ := mem_memberTexts.1 ht
    obtain ⟨hname, hv, hk⟩ := h e he
    rcases ht with rfl | rfl | rfl | rfl | rfl
    · exact hname
    · exact hvalue
    · exact hv
    · exact htype
    · exact hk

/-- Variables with a start marker, a piece of an end marker, quotes and characters beyond ASCII. -/
def awkwardEntries : List Kernel.Entry :=
  [⟨"x".toList, "<<VAR_START>>\x7b\"a\": \"\\".toList, "str".toList⟩,
    ⟨"y".toList, "<<VAR_END>\u00e9\n".toList, "<<VAR_START>>".toList⟩]

theorem ofText?_framed_eq_awkward :
    ofText? (">> <<VAR_START>".toList ++ framed (awkwardEntries.map Kernel.Entry.member) ++
      "<VAR_END>>\n<<VAR_END>>".toList) = .ok (some (awkwardEntries.map Kernel.Entry.member)) :=
  (ofText?_framed_eq_iff (by decide) (by decide) (by decide)).2 (by decide)

/-- A variable whose value is the end marker. -/
def markerEntry : Kernel.Entry := ⟨"x".toList, "<<VAR_END>>".toList, "str".toList⟩

/-- What stands in front of the end marker when the variable is printed. -/
def markerPiece : Text := "\x7b\"x\": \x7b\"value\": \"".toList

theorem ofText?_framed_ne_of_endMarker :
    ofText? (framed [markerEntry.member]) ≠ .ok (some [markerEntry.member]) := by
  have hstart : Text.cutAt startMarker (framed [markerEntry.member]) =
      some ([], payload [markerEntry.member] ++ endMarker) := by decide +kernel
  have hend : Text.cutAt endMarker (payload [markerEntry.member] ++ endMarker) =
      some (markerPiece, "\", \"type\": \"str\"\x7d\x7d<<VAR_END>>".toList) := by decide +kernel
  have hread : ((ofPayload? markerPiece).toOption.bind id).isSome = false := by decide +kernel
  have hlast : ofText? (framed [markerEntry.member]) = ofPayload? markerPiece := by
    rw [ofText?, payloads_of_some hstart hend, payloads_of_none (by decide +kernel)]
    rfl
  rw [hlast]
  intro h
  rw [h] at hread
  contradiction

end VariableReport.Snapshot
