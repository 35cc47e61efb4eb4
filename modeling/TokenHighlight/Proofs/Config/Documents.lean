import Mathlib
import TokenHighlight.Proofs.Config.Fields
import TokenHighlight.Proofs.Config.Toml
import TokenHighlight.Proofs.Toml.Contents
import TokenHighlight.Proofs.Toml.DistinctNames

/-!
# Nothing in a configuration is ignored

A document is misused if it has a key that means nothing, a value of the wrong type or a name of no
classification, and it is plain if it is not misused and its overrides are strings.  A misused
document is refused, and a plain one makes the configuration that its text writes, in whatever order
and notation (`ofToml_ignoresNothing`).
-/

namespace TokenHighlight

namespace Config

variable {fields : List (String × Toml.Value)} {x : Toml.Value} {d d' : Config}
  {name text : String}

/-! ## Documents -/

/-- The ways in which a document is no configuration, as long as its overrides are strings. -/
inductive Misuses (fields : List (String × Toml.Value)) : Prop
  | key {name : String} {x : Toml.Value} (h : (name, x) ∈ fields)
      (hname : name ∉ ["legacy-quirks", "overrides"]) : Misuses fields
  | switch {x : Toml.Value} (h : ("legacy-quirks", x) ∈ fields) (hx : ∀ b, x ≠ .boolean b) :
      Misuses fields
  | table {x : Toml.Value} (h : ("overrides", x) ∈ fields) (hx : ∀ os, x ≠ .table os) :
      Misuses fields
  | override {os : List (String × Toml.Value)} {name s : String}
      (h : ("overrides", .table os) ∈ fields) (hs : (name, .string s) ∈ os)
      (hnone : s ∉ ["none", "identifier", "keyword", "string-literal", "line-comment",
        "block-comment"]) : Misuses fields

/-- The document is used as a configuration should, and its overrides are strings. -/
structure IsPlain (fields : List (String × Toml.Value)) : Prop where
  not_misuses : ¬Misuses fields
  strings : ∀ os, ("overrides", .table os) ∈ fields → ∀ o ∈ os, ∃ s, o.2 = .string s

/-- The configuration has the given switch, which is on if it is not given, and exactly the given
overrides. -/
structure IsGivenBy (fields : List (String × Toml.Value)) (d : Config) : Prop where
  keepLeftovers : ∀ b, d.keepLeftovers = b ↔ ("legacy-quirks", .boolean b) ∈ fields ∨
    "legacy-quirks" ∉ fields.map Prod.fst ∧ b = true
  overrides : ∀ name c, d.overrides.get? name = some c ↔
    ∃ os, ("overrides", .table os) ∈ fields ∧ (name, .string c.name) ∈ os

/-- The configuration has the switch that the text writes, which is on if it writes none, and exactly
the overrides that the text writes. -/
structure IsWrittenIn (text : String) (d : Config) : Prop where
  keepLeftovers : ∀ b, d.keepLeftovers = b ↔
    Toml.TextWrites text ["legacy-quirks"] (.boolean b) ∨
      (∀ x, ¬Toml.TextWrites text ["legacy-quirks"] x) ∧ b = true
  overrides : ∀ name c, d.overrides.get? name = some c ↔
    Toml.TextWrites text ["overrides", name] (.string c.name)

theorem Misuses.exists_not_acceptsField (h : Misuses fields) : ∃ f ∈ fields, ¬AcceptsField f := by
  cases h with
  | key h hname => exact ⟨_, h, by simp_all [AcceptsField]⟩
  | switch h hx => exact ⟨_, h, by simpa [AcceptsField] using hx⟩
  | table h hx =>
      refine ⟨_, h, ?_⟩
      rintro (⟨hname, -⟩ | ⟨-, os, hos, -⟩)
      · simp at hname
      · exact hx os hos
  | override h hs hnone =>
      refine ⟨_, h, ?_⟩
      rintro (⟨hname, -⟩ | ⟨-, os, hos, hall⟩)
      · simp at hname
      · cases hos
        exact hnone (Classification.exists_ofToml_string_eq_ok_iff.1 (hall _ hs))

theorem IsPlain.acceptsField (h : IsPlain fields) {f : String × Toml.Value} (hf : f ∈ fields) :
    AcceptsField f := by
  obtain ⟨name, x⟩ := f
  by_contra hnot
  by_cases hswitch : name = "legacy-quirks"
  · subst hswitch
    exact h.not_misuses (.switch hf fun b hb => hnot (Or.inl ⟨rfl, b, hb⟩))
  · by_cases htable : name = "overrides"
    · subst htable
      refine h.not_misuses (.table hf ?_)
      rintro os rfl
      refine hnot (Or.inr ⟨rfl, os, rfl, fun o ho => ?_⟩)
      obtain ⟨s, hs⟩ := h.strings os hf o ho
      rw [hs, Classification.exists_ofToml_string_eq_ok_iff]
      by_contra hnone
      obtain ⟨name, x⟩ := o
      obtain rfl : x = .string s := hs
      exact h.not_misuses (.override hf ho hnone)
    · exact h.not_misuses (.key hf (by simp [hswitch, htable]))

/-- A document of booleans for the switch and tables that name classifications is plain. -/
theorem isPlain_of_forall (h : ∀ f ∈ fields, (∃ b, f = ("legacy-quirks", .boolean b)) ∨
    ∃ es, f = ("overrides", .table (overrideFields es))) : IsPlain fields := by
  have hswitch : ∀ {x}, ("legacy-quirks", x) ∈ fields → ∃ b, x = .boolean b := fun hx => by
    simpa using h _ hx
  have htable : ∀ {x}, ("overrides", x) ∈ fields → ∃ es, x = .table (overrideFields es) :=
    fun hx => by simpa using h _ hx
  constructor
  · intro hmisuses
    cases hmisuses with
    | key hx hname =>
        rcases h _ hx with ⟨b, hf⟩ | ⟨es, hf⟩
        · simp [(Prod.mk.inj hf).1] at hname
        · simp [(Prod.mk.inj hf).1] at hname
    | switch hx hb =>
        obtain ⟨b, rfl⟩ := hswitch hx
        exact hb b rfl
    | table hx hos =>
        obtain ⟨es, rfl⟩ := htable hx
        exact hos _ rfl
    | override hos hs hnone =>
        obtain ⟨es, hes⟩ := htable hos
        obtain rfl := Toml.Value.table.inj hes
        obtain ⟨e, -, heq⟩ := List.mem_map.1 hs
        obtain rfl := Toml.Value.string.inj (Prod.mk.inj heq).2
        exact hnone (by cases e.2 <;> decide)
  · intro os hos o ho
    obtain ⟨es, hes⟩ := htable hos
    obtain rfl := Toml.Value.table.inj hes
    obtain ⟨e, -, rfl⟩ := List.mem_map.1 ho
    exact ⟨_, rfl⟩

theorem IsPlain.exists_ofFields_eq_ok (h : IsPlain fields) : ∃ d, ofFields fields = .ok d :=
  exists_readFields_eq_ok_iff.2 fun _ hf => h.acceptsField hf

theorem Misuses.exists_ofFields_eq_error (h : Misuses fields) :
    ∃ e, ofFields fields = .error e := by
  cases hd : ofFields fields with
  | error e => exact ⟨e, rfl⟩
  | ok d =>
      obtain ⟨f, hf, hnot⟩ := h.exists_not_acceptsField
      exact absurd (exists_readFields_eq_ok_iff.1 ⟨d, hd⟩ f hf) hnot

/-! ## Texts -/

theorem IsPlain.eq_table (h : IsPlain fields) (hx : ("overrides", x) ∈ fields) :
    ∃ os, x = .table os := by
  by_contra hnot
  exact h.not_misuses (.table hx fun os hos => hnot ⟨os, hos⟩)

theorem IsPlain.eq_boolean (h : IsPlain fields) (hx : ("legacy-quirks", x) ∈ fields) :
    ∃ b, x = .boolean b := by
  by_contra hnot
  exact h.not_misuses (.switch hx fun b hb => hnot ⟨b, hb⟩)

section

variable (hparse : Toml.parse? text = some fields)
include hparse

theorem nodup_names_of_parse? : (fields.map Prod.fst).Nodup :=
  (Toml.Value.hasDistinctNames_table_iff.1 (Toml.hasDistinctNames_parse? hparse)).1

theorem nodup_overrides_of_parse? {os : List (String × Toml.Value)}
    (h : ("overrides", .table os) ∈ fields) : (os.map Prod.fst).Nodup := by
  have hinner := (Toml.Value.hasDistinctNames_table_iff.1 (Toml.hasDistinctNames_parse? hparse)).2
  exact (Toml.Value.hasDistinctNames_table_iff.1 (hinner _ h)).1

theorem keepLeftovers_eq_iff (h : ofFields fields = .ok d) {b : Bool} : d.keepLeftovers = b ↔
    ("legacy-quirks", .boolean b) ∈ fields ∨
      "legacy-quirks" ∉ fields.map Prod.fst ∧ b = true := by
  rcases (isReadFrom_of_readFields h).keepLeftovers with ⟨x, hx, hread⟩ | ⟨hnot, hkept⟩
  · obtain rfl := readSwitch_eq_ok_iff.1 hread
    constructor
    · rintro rfl
      exact Or.inl hx
    · rintro (hb | ⟨hnot, -⟩)
      · exact Toml.Value.boolean.inj (eq_of_mem_of_mem (nodup_names_of_parse? hparse) hx hb)
      · exact absurd (List.mem_map_of_mem hx) hnot
  · have hnone : ("legacy-quirks", .boolean b) ∉ fields := fun hb => hnot (List.mem_map_of_mem hb)
    simp only [hkept, hnone, hnot, default]
    simp [eq_comm]

variable (hplain : IsPlain fields)
include hplain

theorem get?_overrides_eq_some_iff (h : ofFields fields = .ok d) {c : Classification} :
    d.overrides.get? name = some c ↔
      ∃ os, ("overrides", .table os) ∈ fields ∧ (name, .string c.name) ∈ os := by
  rcases (isReadFrom_of_readFields h).overrides with ⟨x, hx, hread⟩ | ⟨hnot, hkept⟩
  · obtain ⟨os, rfl⟩ := hplain.eq_table hx
    rw [get?_of_readTable hread (nodup_overrides_of_parse? hparse hx)]
    constructor
    · rintro ⟨y, hy, hc⟩
      obtain ⟨s, hs⟩ := hplain.strings os hx _ hy
      obtain rfl : y = .string s := hs
      obtain rfl := Classification.ofToml_string_eq_ok_iff.1 hc
      exact ⟨os, hx, hy⟩
    · rintro ⟨os', hx', hmem⟩
      have htable := eq_of_mem_of_mem (nodup_names_of_parse? hparse) hx hx'
      obtain rfl := Toml.Value.table.inj htable
      exact ⟨_, hmem, Classification.ofToml_string_eq_ok_iff.2 rfl⟩
  · rw [hkept]
    constructor
    · intro hnone
      cases hnone
    · rintro ⟨os, hx, -⟩
      exact absurd (List.mem_map_of_mem hx) hnot

theorem isGivenBy_of_ofFields (h : ofFields fields = .ok d) : IsGivenBy fields d :=
  ⟨fun _ => keepLeftovers_eq_iff hparse h, fun _ _ => get?_overrides_eq_some_iff hparse hplain h⟩

theorem textWrites_switch_iff :
    Toml.TextWrites text ["legacy-quirks"] x ↔ ("legacy-quirks", x) ∈ fields := by
  rw [← Toml.holds_parse?_iff hparse,
    Toml.Value.table_holds_cons_iff (nodup_names_of_parse? hparse)]
  constructor
  · rintro ⟨y, hy, hholds⟩
    obtain ⟨b, rfl⟩ := hplain.eq_boolean hy
    have hleaf : (Toml.Value.boolean b).IsLeaf := trivial
    obtain ⟨-, rfl⟩ := hleaf.holds_iff.1 hholds
    exact hy
  · intro hx
    obtain ⟨b, rfl⟩ := hplain.eq_boolean hx
    exact ⟨_, hx, .leaf trivial⟩

theorem textWrites_override_iff {s : String} :
    Toml.TextWrites text ["overrides", name] (.string s) ↔
      ∃ os, ("overrides", .table os) ∈ fields ∧ (name, .string s) ∈ os := by
  rw [← Toml.holds_parse?_iff hparse,
    Toml.Value.table_holds_cons_iff (nodup_names_of_parse? hparse)]
  constructor
  · rintro ⟨x, hx, hholds⟩
    obtain ⟨os, rfl⟩ := hplain.eq_table hx
    rw [Toml.Value.table_holds_cons_iff (nodup_overrides_of_parse? hparse hx)] at hholds
    obtain ⟨y, hy, hs⟩ := hholds
    obtain ⟨t, ht⟩ := hplain.strings os hx _ hy
    obtain rfl : y = .string t := ht
    have hleaf : (Toml.Value.string t).IsLeaf := trivial
    obtain ⟨-, heq⟩ := hleaf.holds_iff.1 hs
    exact ⟨os, hx, heq ▸ hy⟩
  · rintro ⟨os, hx, hy⟩
    refine ⟨_, hx, ?_⟩
    rw [Toml.Value.table_holds_cons_iff (nodup_overrides_of_parse? hparse hx)]
    exact ⟨_, hy, .leaf trivial⟩

theorem IsGivenBy.isWrittenIn (h : IsGivenBy fields d) : IsWrittenIn text d := by
  constructor
  · intro b
    rw [h.keepLeftovers, textWrites_switch_iff hparse hplain]
    simp [textWrites_switch_iff hparse hplain]
  · intro name c
    rw [h.overrides, textWrites_override_iff hparse hplain]

end

theorem IsWrittenIn.unique {text' : String} (h : IsWrittenIn text d) (h' : IsWrittenIn text' d')
    (hsame : ∀ path x, Toml.TextWrites text path x ↔ Toml.TextWrites text' path x) : d' = d := by
  have hswitch : d'.keepLeftovers = d.keepLeftovers := by
    rw [h'.keepLeftovers]
    simp only [← hsame]
    exact (h.keepLeftovers _).1 rfl
  have htable : d'.overrides = d.overrides := by
    refine NameMap.ext_get? fun name => Option.ext fun c => ?_
    rw [h'.overrides, h.overrides, hsame]
  cases d
  cases d'
  cases hswitch
  cases htable
  rfl

/-- A document that is misused is refused.  Otherwise, if its overrides are strings, it is accepted,
and the configuration says what its fields say and what its text writes; so it is the same however
the text orders its keys and writes its tables. -/
theorem ofToml_ignoresNothing (h : Toml.parse? text = some fields) :
    (Misuses fields → ∃ e, ofToml text = .error e) ∧
      (IsPlain fields → ∃ d, ofToml text = .ok d ∧ IsGivenBy fields d ∧ IsWrittenIn text d ∧
        ∀ text' fields', Toml.parse? text' = some fields' → IsPlain fields' →
          (∀ path x, Toml.TextWrites text path x ↔ Toml.TextWrites text' path x) →
            ofToml text' = .ok d) := by
  have hfields : ∀ {text fields}, Toml.parse? text = some fields →
      ofToml text = ofFields fields := fun h => by rw [ofToml, h]
  have hplain : ∀ {text fields}, Toml.parse? text = some fields → IsPlain fields →
      ∃ d, ofFields fields = .ok d ∧ IsGivenBy fields d ∧ IsWrittenIn text d := by
    intro text fields h hplain
    obtain ⟨d, hd⟩ := hplain.exists_ofFields_eq_ok
    have hgiven := isGivenBy_of_ofFields h hplain hd
    exact ⟨d, hd, hgiven, hgiven.isWrittenIn h hplain⟩
  rw [hfields h]
  refine ⟨Misuses.exists_ofFields_eq_error, fun hp => ?_⟩
  obtain ⟨d, hd, hgiven, hwritten⟩ := hplain h hp
  refine ⟨d, hd, hgiven, hwritten, fun text' fields' h' hp' hsame => ?_⟩
  obtain ⟨d', hd', -, hwritten'⟩ := hplain h' hp'
  rw [hfields h', hd', hwritten.unique hwritten' hsame]

/-- A configuration whose overrides stand under a header. -/
def sectionText : String := "legacy-quirks = false\n\n[overrides]\nPLUS = 'identifier'\n"

/-- The same configuration in another order, its overrides in an inline table. -/
def inlineText : String := "overrides = \x7bPLUS = 'identifier'\x7d\nlegacy-quirks = false"

/-- The same configuration with a dotted key. -/
def dottedText : String := "overrides.PLUS = 'identifier'\nlegacy-quirks = false"

/-- The three notations make the same configuration, and a slip in a key is an error. -/
theorem ofToml_ignoresNothing_notations :
    (∃ d, ofToml sectionText = .ok d ∧ d.keepLeftovers = false ∧
      d.overrides.get? "PLUS" = some .identifier ∧ ofToml inlineText = .ok d ∧
      ofToml dottedText = .ok d) ∧
    ∃ e, ofToml "legacy-quirk = false" = .error e := by
  have hlines : Toml.expressions? sectionText = some [.pair ["legacy-quirks"] (.boolean false),
      .table ["overrides"], .pair ["PLUS"] (.string "identifier")] := by cbv
  have hlines' : Toml.expressions? inlineText =
      some [.pair ["overrides"] (.table [("PLUS", .string "identifier")]),
        .pair ["legacy-quirks"] (.boolean false)] := by cbv
  have hlines'' : Toml.expressions? dottedText =
      some [.pair ["overrides", "PLUS"] (.string "identifier"),
        .pair ["legacy-quirks"] (.boolean false)] := by cbv
  have hslipLines : Toml.expressions? "legacy-quirk = false" =
      some [.pair ["legacy-quirk"] (.boolean false)] := by cbv
  have hinner : Toml.inlineTable? [(["PLUS"], .string "identifier")] =
      some (.table [("PLUS", .string "identifier")]) := rfl
  have hsection : Toml.parse? sectionText = some [("legacy-quirks", .boolean false),
      ("overrides", .table (overrideFields [("PLUS", .identifier)]))] :=
    Option.bind_eq_some_iff.2 ⟨_, hlines, rfl⟩
  have hinline : Toml.parse? inlineText =
      some [("overrides", .table (overrideFields [("PLUS", .identifier)])),
        ("legacy-quirks", .boolean false)] :=
    Option.bind_eq_some_iff.2 ⟨_, hlines', rfl⟩
  have hdotted : Toml.parse? dottedText =
      some [("overrides", .table (overrideFields [("PLUS", .identifier)])),
        ("legacy-quirks", .boolean false)] :=
    Option.bind_eq_some_iff.2 ⟨_, hlines'', rfl⟩
  have hslip : Toml.parse? "legacy-quirk = false" = some [("legacy-quirk", .boolean false)] :=
    Option.bind_eq_some_iff.2 ⟨_, hslipLines, rfl⟩
  -- both of the other texts write the switch after the override
  have hpairs : Toml.Writes [.pair ["legacy-quirks"] (.boolean false), .table ["overrides"],
      .pair ["PLUS"] (.string "identifier")] =
        Toml.PairsWrite ([(["overrides", "PLUS"], .string "identifier")] ++
          [(["legacy-quirks"], .boolean false)]) := Toml.pairsWrite_perm (.swap _ _ _)
  have hpairs' : Toml.Writes [.pair ["overrides"] (.table [("PLUS", .string "identifier")]),
      .pair ["legacy-quirks"] (.boolean false)] =
        Toml.PairsWrite ([(["overrides", "PLUS"], .string "identifier")] ++
          [(["legacy-quirks"], .boolean false)]) := Toml.pairsWrite_inline hinner _ _
  obtain ⟨d, hd, hgiven, -, hsame⟩ :=
    (ofToml_ignoresNothing hsection).2 (isPlain_of_forall (by simp))
  refine ⟨⟨d, hd, (hgiven.keepLeftovers false).2 (by simp), (hgiven.overrides _ _).2 ?_,
    hsame _ _ hinline (isPlain_of_forall (by simp)) fun path x => ?_,
    hsame _ _ hdotted (isPlain_of_forall (by simp)) fun path x => ?_⟩,
    (ofToml_ignoresNothing hslip).1 (.key List.mem_cons_self (by decide))⟩
  · exact ⟨overrideFields [("PLUS", .identifier)], by simp, List.mem_cons_self⟩
  · rw [Toml.textWrites_iff hlines, Toml.textWrites_iff hlines', hpairs, hpairs']
  · rw [Toml.textWrites_iff hlines, Toml.textWrites_iff hlines'', hpairs]
    rfl

end Config

end TokenHighlight
